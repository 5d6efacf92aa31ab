import Dtp.Cc.Cubic

/-!
# Spurious reductions

CUBIC undoes a reduction if few packets were lost. To say what it undoes, each reduction is
recorded with the controller before it, and with the number of packets lost before the batch with
which it began.

## Main definitions

* `Cubic.Episode`, `Cubic.Watched` — the last reduction, recorded beside the controller
* `Cubic.Watched.UndoesSpurious` — what undoing a reduction promises
* `Cubic.Watched.FewLost` — the losses count from the batch with which the reduction began

## Main results

* `Cubic.Watched.undoesSpurious_iff` — the promise is kept exactly where so few packets were lost
-/

namespace Dtp.Cc.Cubic

variable {F : Type}

/-! ### Reductions on record -/

/-- A reduction: the controller before it, the packets lost before the batch with which it began,
and how often it was undone. -/
structure Episode (F : Type) where
  before : Cubic F
  lostBefore : ℕ
  restored : ℕ

/-- A controller with its last reduction. -/
structure Watched (F : Type) extends Driven (Cubic F) where
  episode : Option (Episode F)

instance (r : Cubic F) (a : Acked) : Decidable (Restores r a) :=
  decidable_of_iff (¬ inCongestionRecovery r.congestionRecoveryStartTime a.packet.time ∧
      a.appLimited = false ∧ r.congestionRecoveryStartTime.isSome ∧
      r.congestionWindow < r.cubicState.prior.congestionWindow ∧
      a.lostCount - r.cubicState.prior.lostCount < restoreCountThreshold)
    ⟨fun ⟨h₁, h₂, h₃, h₄, h₅⟩ => ⟨h₁, h₂, h₃, h₄, h₅⟩, fun ⟨h₁, h₂, h₃, h₄, h₅⟩ =>
      ⟨h₁, h₂, h₃, h₄, h₅⟩⟩

/-- A batch of losses begins an episode. -/
def Begins (r : Cubic F) (pkts : List Sent) : Prop :=
  ∃ p ∈ (pkts.filter Sent.inFlight).getLast?,
    ¬ inCongestionRecovery r.congestionRecoveryStartTime p.time

instance (r : Cubic F) (pkts : List Sent) : Decidable (Begins r pkts) :=
  inferInstanceAs (Decidable (∃ p ∈ (pkts.filter Sent.inFlight).getLast?, _))

/-- What the controller learns, if an event is an acked packet. -/
def ackOf (lostCount : ℕ) : Event → Option Acked
  | .acked packet srtt minRtt latestRtt appLimited epoch now =>
    some ⟨packet, srtt, minRtt, latestRtt, appLimited, epoch, lostCount, now⟩
  | _ => none

namespace Watched

variable (f : Curve F)

/-- Nothing was reduced. -/
def new : Watched F := ⟨⟨Cubic.new f, 0⟩, none⟩

/-- The record after an event. -/
def record (w : Watched F) : Event → Option (Episode F)
  | .lost pkts _ _ _ => if Begins w.cc pkts then some ⟨w.cc, w.lostCount, 0⟩ else w.episode
  | e =>
    match ackOf w.lostCount e with
    | some a =>
      if Restores w.cc a then w.episode.map fun ep => { ep with restored := ep.restored + 1 }
      else w.episode
    | none => w.episode

/-- The state after an event. -/
def step (w : Watched F) (e : Event) : Option (Watched F) :=
  (Cubic.step f w.toDriven e).map fun d => ⟨d, w.record e⟩

/-- The controller is what it was before the reduction. -/
structure Undone (ep : Episode F) (r : Cubic F) : Prop where
  window : r.congestionWindow = ep.before.congestionWindow
  threshold : r.ssthresh = ep.before.ssthresh
  wMax : r.cubicState.wMax = ep.before.cubicState.wMax
  wLastMax : r.cubicState.wLastMax = ep.before.cubicState.wLastMax
  k : r.cubicState.k = ep.before.cubicState.k
  start : r.congestionRecoveryStartTime = ep.before.congestionRecoveryStartTime

/-- The losses of the episode, with the batch with which it began, are few. -/
def Few (w : Watched F) (ep : Episode F) :
    Prop := w.lostCount - ep.lostBefore < restoreCountThreshold

instance (w : Watched F) (ep : Episode F) : Decidable (w.Few ep) :=
  inferInstanceAs (Decidable (w.lostCount - ep.lostBefore < restoreCountThreshold))

/-- The window is at least the minimum, no difference is negative, and if the event undoes a
reduction, it is the last one, for the first time, to what was before it, and few packets were lost.
-/
structure UndoesSpurious (w : Watched F) (e : Event) : Prop where
  floor : minimumWindow ≤ w.cc.congestionWindow
  noUnderflow : w.handle (congestionControl f) e ≠ .error .underflow
  undone : ∀ a ∈ ackOf w.lostCount e, Restores w.cc a → ∀ w', w.step f e = some w' →
    ∃ ep ∈ w.episode, ep.restored = 0 ∧ Undone ep w'.cc ∧ w.Few ep

/-- If the event undoes the last reduction, few packets were lost. -/
def FewLost (w : Watched F) (e : Event) : Prop :=
  ∀ a ∈ ackOf w.lostCount e, Restores w.cc a → ∀ ep ∈ w.episode, w.Few ep

instance (w : Watched F) (e : Event) : Decidable (FewLost w e) :=
  inferInstanceAs (Decidable (∀ a ∈ ackOf w.lostCount e, Restores w.cc a →
    ∀ ep ∈ w.episode, w.Few ep))

/-! ### The record is right -/

/-- What the controller has kept is the record. -/
structure Recorded (r : Cubic F) (ep : Episode F) : Prop where
  window : r.cubicState.prior.congestionWindow = ep.before.congestionWindow
  threshold : r.cubicState.prior.ssthresh = ep.before.ssthresh
  wMax : r.cubicState.prior.wMax = ep.before.cubicState.wMax
  wLastMax : r.cubicState.prior.wLastMax = ep.before.cubicState.wLastMax
  k : r.cubicState.prior.k = ep.before.cubicState.k
  start : r.cubicState.prior.epochStart = ep.before.congestionRecoveryStartTime
  once : ep.restored ≠ 0 → r.cubicState.prior.congestionWindow ≤ r.congestionWindow

/-- What the controller has kept is the record, if there is one. -/
def Kept (r : Cubic F) : Option (Episode F) → Prop
  | none => r.cubicState.prior.congestionWindow ≤ r.congestionWindow
  | some ep => Recorded r ep

/-- What CUBIC keeps is what is recorded. -/
structure Good (w : Watched F) : Prop where
  settled : Settled w.cc w.lostCount
  kept : Kept w.cc w.episode

variable {f} {w w' : Watched F} {e : Event} {r r' : Cubic F} {a : Acked}

theorem Kept.grown {episode : Option (Episode F)} (h : Kept r episode) (hgrown : Grown r r') :
    Kept r' episode := by
  cases episode with
  | none =>
    unfold Kept
    rw [hgrown.prior]
    exact le_trans h hgrown.window
  | some ep =>
    obtain ⟨hwindow, hthreshold, hwMax, hwLastMax, hk, hstart, honce⟩ := (h : Recorded r ep)
    rw [← hgrown.prior] at hwindow hthreshold hwMax hwLastMax hk hstart honce
    exact ⟨hwindow, hthreshold, hwMax, hwLastMax, hk, hstart, fun hne =>
      (honce hne).trans hgrown.window⟩

/-- A reduction is undone only if it is on record and was not undone before. -/
theorem Kept.restores {episode : Option (Episode F)} (h : Kept r episode)
    (hrestores : Restores r a) :
    ∃ ep ∈ episode, ep.restored = 0 ∧ Recorded r ep := by
  cases episode with
  | none => exact absurd hrestores.reduced (not_lt.mpr h)
  | some ep =>
    refine ⟨ep, rfl, ?_, h⟩
    by_contra hne
    exact absurd hrestores.reduced (not_lt.mpr ((h : Recorded r ep).once hne))

/-- What is undone is the reduction on record. -/
theorem Recorded.undone {ep : Episode F} (h : Recorded r ep) (bytes : ℕ) :
    Undone ep (r.decreaseBytesInFlight bytes).rollback :=
  ⟨h.window, h.threshold, h.wMax, h.wLastMax, h.k, h.start⟩

theorem Recorded.rollback {ep : Episode F} (h : Recorded r ep) (bytes : ℕ) :
    Recorded (r.decreaseBytesInFlight bytes).rollback { ep with restored := ep.restored + 1 } :=
  ⟨h.window, h.threshold, h.wMax, h.wLastMax, h.k, h.start, fun _ => le_rfl⟩

/-- Only the bytes in flight were subtracted from. -/
theorem grown_decreased (h : Driven.Decreased (congestionControl f) r r') :
    ∃ n, r' = { r with bytesInFlight := n } := by
  induction h with
  | refl => exact ⟨r.bytesInFlight, rfl⟩
  | tail _ hstep ih =>
    obtain ⟨bytes, hbytes⟩ := hstep
    obtain ⟨n, rfl⟩ := ih
    cases hbytes
    exact ⟨n - bytes, rfl⟩

/-- A reduction is recorded as it is kept. -/
theorem recorded_reduce (n bytes : ℕ) (c : Congestion) :
    Recorded (({ r with bytesInFlight := bytes }.checkpoint c.lostCount).reduce f c) ⟨r, n, 0⟩ := by
  have hprior := reduce_prior (f := f) ({ r with bytesInFlight := bytes }.checkpoint c.lostCount) c
  refine ⟨?_, ?_, ?_, ?_, ?_, ?_, fun hne => absurd rfl hne⟩ <;> rw [hprior] <;> rfl

/-- What undoes a reduction, and what it leaves. -/
theorem Good.restores (h : Good w) (ha : ackOf w.lostCount e = some a) (hrestores : Restores w.cc a)
    {d : Driven (Cubic F)} (hstep : Cubic.step f w.toDriven e = some d) :
    ∃ ep, w.episode = some ep ∧ ep.restored = 0 ∧ Recorded w.cc ep ∧
      d.cc = (w.cc.decreaseBytesInFlight a.packet.size).rollback := by
  obtain ⟨ep, hep, hzero, hrecorded⟩ := h.kept.restores hrestores
  refine ⟨ep, hep, hzero, hrecorded, ?_⟩
  cases e with
  | acked packet srtt minRtt latestRtt appLimited epoch now =>
    obtain rfl := Option.some.inj ha
    obtain ⟨cc, hcc, rfl⟩ := Lib.map_eq_ok.mp (Lib.toOption_eq_some.mp hstep)
    let a : Acked := ⟨packet, srtt, minRtt, latestRtt, appLimited, epoch, w.lostCount, now⟩
    obtain ⟨r', hacked, -, ⟨-, rfl⟩ | ⟨hnot, -⟩⟩ :=
      acked_cases (f := f) (a := a) h.settled.noLss h.settled.counted
    · exact Except.ok.inj (hcc.symm.trans hacked)
    · exact absurd hrestores hnot
  | _ => cases ha

/-- The record stays right with every event. -/
theorem Good.step (h : Good w) (hstep : w.step f e = some w') : Good w' := by
  obtain ⟨d, hd, rfl⟩ := Option.map_eq_some_iff.mp hstep
  refine ⟨h.settled.step hd, ?_⟩
  have hhandle := Lib.toOption_eq_some.mp hd
  cases e with
  | sent pkt now =>
    cases hhandle
    exact h.kept.grown ⟨le_rfl, rfl⟩
  | beginAck now =>
    cases hhandle
    exact h.kept.grown ⟨le_rfl, rfl⟩
  | acked packet srtt minRtt latestRtt appLimited epoch now =>
    -- an ack restores the checkpoint, or grows the window
    let a : Acked := ⟨packet, srtt, minRtt, latestRtt, appLimited, epoch, w.lostCount, now⟩
    change Kept d.cc (if Restores w.cc a then _ else _)
    by_cases hrestores : Restores w.cc a
    · obtain ⟨ep, hep, -, hrecorded, hcc⟩ := h.restores rfl hrestores hd
      rw [if_pos hrestores, hep, hcc]
      exact hrecorded.rollback packet.size
    · rw [if_neg hrestores]
      obtain ⟨cc, hcc, rfl⟩ := Lib.map_eq_ok.mp hhandle
      obtain ⟨r', hacked, -, ⟨hr, -⟩ | ⟨-, hgrown⟩⟩ :=
        acked_cases (f := f) (a := a) h.settled.noLss h.settled.counted
      · exact absurd hr hrestores
      · obtain rfl : r' = cc := Except.ok.inj (hacked.symm.trans hcc)
        exact h.kept.grown hgrown
  | endAck random =>
    cases hhandle
    exact h.kept.grown ⟨le_rfl, rfl⟩
  | lost pkts epoch srtt now =>
    obtain ⟨cc, hdecreased, -, hreport⟩ := Driven.lost_cases hhandle
    obtain ⟨bytes, rfl⟩ := grown_decreased hdecreased
    change Kept d.cc (if Begins w.cc pkts then _ else _)
    rcases hreport with ⟨hlast, heq⟩ | ⟨p, hlast, hcc⟩
    · have hnot : ¬ Begins w.cc pkts := fun ⟨p, hp, _⟩ => by simp [hlast] at hp
      rw [if_neg hnot, heq]
      exact h.kept.grown ⟨le_rfl, rfl⟩
    · -- the last of the lost packets decides whether recovery begins
      have hevent := (Except.ok.inj hcc).symm
      by_cases hrecovery : inCongestionRecovery w.cc.congestionRecoveryStartTime p.time
      · have hnot : ¬ Begins w.cc pkts := by
          rintro ⟨q, hq, hafter⟩
          obtain rfl : p = q := Option.some.inj (hlast.symm.trans hq)
          exact hafter hrecovery
        rw [congestionEvent_of_inCongestionRecovery hrecovery] at hevent
        rw [if_neg hnot, hevent]
        exact h.kept.grown ⟨le_rfl, rfl⟩
      · rw [congestionEvent_of_after hrecovery] at hevent
        rw [if_pos ⟨p, hlast, hrecovery⟩, hevent]
        exact recorded_reduce w.lostCount bytes _
  | dropped unackedBytes =>
    cases hhandle
    exact h.kept.grown ⟨le_rfl, rfl⟩

theorem good_new : Good (new f) := ⟨settled_new, Nat.zero_le _⟩

/-- Undoing a reduction keeps its promise where few packets were lost. The rest holds always. -/
theorem Good.undoes_iff (h : Good w) (e : Event) : UndoesSpurious f w e ↔ FewLost w e := by
  obtain ⟨d, hhandle⟩ := h.settled.handle (f := f) e
  have hd : Cubic.step f w.toDriven e = some d := Lib.toOption_eq_some.mpr hhandle
  constructor
  · intro hundoes a ha hrestores ep hep
    obtain ⟨ep', hep', -, -, hfew⟩ := hundoes.undone a ha hrestores ⟨d, w.record e⟩
      (Option.map_eq_some_iff.mpr ⟨d, hd, rfl⟩)
    obtain rfl : ep = ep' := Option.some.inj (hep.symm.trans hep')
    exact hfew
  · intro hfew
    refine ⟨h.settled.floor, fun herror => (nomatch hhandle.symm.trans herror),
      fun a ha hrestores w' hstep => ?_⟩
    obtain ⟨d', hd', rfl⟩ := Option.map_eq_some_iff.mp hstep
    obtain ⟨ep, hep, hzero, hrecorded, hcc⟩ := h.restores ha hrestores hd'
    refine ⟨ep, hep, hzero, ?_, hfew a ha hrestores ep hep⟩
    change Undone ep d'.cc
    rw [hcc]
    exact hrecorded.undone a.packet.size

end Watched

/-- Of thirteen packets that are sent at 0, twelve are lost at once at 5. Another one is sent at 6
and acked at 9. -/
def twelveLost : List Event :=
  let pkt (n time : ℕ) : Sent := ⟨n, [], time, 1200, true, true, .none⟩
  (List.range 13).map (fun n => .sent (pkt n 0) 0) ++
    [.lost ((List.range 12).map fun n => pkt n 0) .application 1 5, .sent (pkt 13 6) 6,
      .acked (pkt 13 6) 3 3 3 false .application 9]

end Dtp.Cc.Cubic
