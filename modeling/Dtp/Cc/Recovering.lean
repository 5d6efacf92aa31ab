import Dtp.Cc.Bbr.Window
import Dtp.Cc.Controlled
import Dtp.Cc.Cubic
import Dtp.Cc.Reno

/-!
# The controllers in loss recovery

What holds of a controller along all runs of events holds of it in loss recovery, which is such a
run: no call of loss recovery closes the window, whatever is sent, acked, lost or forgotten, and
whichever controller is in charge.

## Main definitions

* `Controlled.Steady` — a controller that fails at no event
* `Bbr.Usable` — the windows of BBR are within their limits wherever they count

## Main results

* `Controlled.hears_run` — a run of loss recovery is a run of events for its controller
* `CongestionControl.Preserves.run` — what all operations keep, runs of loss recovery keep
* `Controlled.Steady.call` — calls return, with a controller that does not fail
* `Reno.minimumWindow_le_recovering`, `Cubic.minimumWindow_le_recovering`,
  `Bbr.minCwnd_le_recovering` — the window of each controller in loss recovery
-/

namespace Dtp.Cc

/-! ### Runs of loss recovery -/

section

variable {κ : Type} {C : CongestionControl κ} {I : κ → ℕ → Prop} {c c' : Controlled κ}
  {calls : List ControlledCall}

/-- Along a run of loss recovery, the controller hears of events. -/
theorem Controlled.hears_run (hrun : Lib.run (step C) c calls = some c') : Hears C c c' := by
  refine Lib.run_invariant (I := fun c' => Hears C c c') ?_ (.of_eq rfl rfl) hrun
  intro c₁ x c₂ hheard hstep
  obtain ⟨-, result, hcall⟩ := step_eq_some.mp hstep
  exact hheard.trans (hears_call hcall)

/-- A new controller that loss recovery has driven has been driven by events. -/
theorem Controlled.driven_of_run {cc : κ} (hrun : Lib.run (step C) (.new cc) calls = some c) :
    ∃ events, Lib.run (Driven.step C) ⟨cc, 0⟩ events = some c.driven :=
  hears_run hrun

/-- What all operations of a controller keep holds in every state of loss recovery. -/
theorem CongestionControl.Preserves.run (hI : C.Preserves I) {cc : κ} (hnew : I cc 0)
    (hrun : Lib.run (Controlled.step C) (.new cc) calls = some c) : I c.cc c.lostCount := by
  refine Lib.run_invariant (I := fun c : Controlled κ => I c.cc c.lostCount) ?_ hnew hrun
  intro c₁ x c₂ hkept hstep
  exact hI.call hkept hstep

end

/-! ### Calls that return -/

namespace Controlled

variable {κ : Type} {C : CongestionControl κ} {I : κ → ℕ → Prop} {c c' : Controlled κ}
  {epoch : Epoch} {t : Timing} {m : Measured}

/-- While an invariant holds, which all operations keep, the controller fails at no event. -/
structure Steady (C : CongestionControl κ) (I : κ → ℕ → Prop) : Prop where
  preserves : C.Preserves I
  returns (d : Driven κ) (hd : I d.cc d.lostCount) (e : Event) : ∃ d', d.handle C e = .ok d'

theorem Steady.report (h : Steady C I) (hc : I c.cc c.lostCount) {e : Event} :
    ∃ c', c.report C e = .ok c' := by
  obtain ⟨d, hd⟩ := h.returns c.driven hc e
  exact ⟨_, Lib.map_eq_ok.mpr ⟨d, hd, rfl⟩⟩

theorem Steady.ite_report (h : Steady C I) (hc : I c.cc c.lostCount) {e : Event} (P : Prop)
    [Decidable P] : ∃ c', (if P then c.report C e else .ok c) = .ok c' := by
  split_ifs
  · exact h.report hc
  · exact ⟨c, rfl⟩

/-- What the controller hears keeps it steady. -/
theorem Steady.hears (h : Steady C I) (hc : I c.cc c.lostCount) (hheard : Hears C c c') :
    I c'.cc c'.lostCount := by
  obtain ⟨events, hrun⟩ := hheard
  refine Lib.run_invariant (I := fun d : Driven κ => I d.cc d.lostCount) ?_ hc hrun
  intro d e d' hd hstep
  exact h.preserves.step hd hstep

theorem Steady.onPacketAcked (h : Steady C I) (epoch : Epoch) (t : Timing) (m : Measured)
    (hc : I c.cc c.lostCount) (pn : ℕ) :
    ∃ result, c.onPacketAcked C pn epoch t m = .ok result := by
  have hcount := (Recovery.onPacketAcked_same c.toRecovery pn epoch).2
  unfold Controlled.onPacketAcked
  dsimp only
  cases hfind : (c.sent epoch).find? fun p => p.pktNum == pn with
  | none => exact ⟨_, rfl⟩
  | some p =>
    have hsame : I c.cc (c.toRecovery.onPacketAcked pn epoch).2.lostCount := by rwa [hcount]
    obtain ⟨c₁, hreport⟩ := h.ite_report
      (c := { c with toRecovery := (c.toRecovery.onPacketAcked pn epoch).2 }) hsame
      (e := .acked p.bare m.srtt m.minRtt m.latestRtt c.appLimited epoch t.now)
      (p.inFlight = true ∧ epoch = .application)
    exact ⟨_, Lib.map_eq_ok.mpr ⟨c₁, hreport, rfl⟩⟩

theorem Steady.ackLoop (h : Steady C I) (epoch : Epoch) (t : Timing) (m : Measured)
    (newly : Bool) (hc : I c.cc c.lostCount) (pns : List ℕ) :
    ∃ acked, ackLoop C epoch t m pns (newly, c) = .ok acked ∧
      I acked.2.cc acked.2.lostCount := by
  induction pns generalizing c newly with
  | nil => exact ⟨_, rfl, hc⟩
  | cons pn pns ih =>
    unfold Controlled.ackLoop
    split_ifs
    · exact ⟨_, rfl, hc⟩
    · obtain ⟨result, hone⟩ := h.onPacketAcked epoch t m hc pn
      obtain ⟨acked, hrest, hkept⟩ := ih (newly || result.1) (h.hears hc (hears_onPacketAcked hone))
      exact ⟨acked, Lib.bind_eq_ok.mpr ⟨result, hone, hrest⟩, hkept⟩

theorem Steady.detectLostPackets (h : Steady C I) (hc : I c.cc c.lostCount) :
    ∃ c', c.detectLostPackets C epoch t m = .ok c' := by
  obtain ⟨c₁, hreport⟩ := h.report hc
  exact ⟨_, Lib.map_eq_ok.mpr ⟨c₁, hreport, rfl⟩⟩

/-- The ack begins, the packets are acked, the ack ends, and the lost packets are reported. -/
theorem Steady.onAckReceived (h : Steady C I) (hc : I c.cc c.lostCount) {ranges : RangeSet}
    (hranges : ranges.isEmpty = false) :
    ∃ result, c.onAckReceived C ranges epoch t m = .ok result := by
  obtain ⟨c₁, hbegin⟩ := h.report hc (e := .beginAck t.now)
  obtain ⟨largest, hlargest⟩ := Option.isSome_iff_exists.mp (RangeSet.largest_isSome hranges)
  have hbegun : I c₁.cc c₁.lostCount :=
    h.hears hc (.of_report hbegin rfl (by rw [report_toRecovery hbegin]; rfl))
  suffices hafter : ∃ result, c₁.processRanges C ranges epoch t m = .ok result by
    obtain ⟨result, hafter⟩ := hafter
    exact ⟨result, Lib.bind_eq_ok.mpr ⟨c₁, hbegin, hafter⟩⟩
  unfold Controlled.processRanges
  rw [hlargest]
  dsimp only
  split_ifs with hunsent
  · exact ⟨_, rfl⟩
  · obtain ⟨acked, hloop, hacked⟩ := h.ackLoop epoch t m false
      (c := { c₁ with toRecovery := c₁.toRecovery.noteLargest epoch largest }) hbegun
      ranges.flatten.reverse
    obtain ⟨c₂, hend⟩ := h.report hacked (e := .endAck m.random)
    have hended : I c₂.cc c₂.lostCount :=
      h.hears hacked (.of_report hend rfl (by rw [report_toRecovery hend]; rfl))
    have hdetect : ∃ c',
        (if acked.1 then c₂.detectLostPackets C epoch t m else .ok c₂) = .ok c' := by
      split_ifs
      · exact h.detectLostPackets hended
      · exact ⟨c₂, rfl⟩
    obtain ⟨c₃, hdetect⟩ := hdetect
    exact ⟨_, Lib.bind_eq_ok.mpr ⟨acked, hloop, Lib.bind_eq_ok.mpr ⟨c₂, hend,
      Lib.map_eq_ok.mpr ⟨c₃, hdetect, rfl⟩⟩⟩⟩

/-- With a controller that does not fail, every call returns, unless it is an ACK frame without
ranges. -/
theorem Steady.call (h : Steady C I) (hc : I c.cc c.lostCount) (x : ControlledCall)
    (hranges : ∀ ranges epoch handshakeCompleted t,
      x.call = .onAckReceived ranges epoch handshakeCompleted t → ranges.isEmpty = false) :
    ∃ result, c.call C x = .ok result := by
  obtain ⟨m, call⟩ := x
  unfold Controlled.call
  cases call with
  | onPacketSent pkt epoch handshakeCompleted t =>
    obtain ⟨c₁, hreport⟩ := h.ite_report (e := .sent pkt t.now)
      (c := { c with
        appLimited := if pkt.inFlight then
          decide (C.bytesInFlight c.cc + pkt.size + 1350 < C.cwnd c.cc) else c.appLimited })
      hc (pkt.inFlight = true ∧ epoch = .application)
    exact ⟨_, Lib.map_eq_ok.mpr ⟨_, Lib.map_eq_ok.mpr ⟨c₁, hreport, rfl⟩, rfl⟩⟩
  | onAckReceived ranges epoch handshakeCompleted t =>
    exact h.onAckReceived hc (hranges ranges epoch handshakeCompleted t rfl)
  | onLossDetectionTimeout handshakeCompleted t =>
    dsimp only
    unfold Controlled.onLossDetectionTimeout
    dsimp only
    split_ifs
    · obtain ⟨c₁, hdetect⟩ := h.detectLostPackets (t := t) (m := m) hc
      exact ⟨_, Lib.map_eq_ok.mpr ⟨c₁, hdetect, rfl⟩⟩
    · exact ⟨_, rfl⟩
  | dropUnackedData epoch =>
    obtain ⟨c₁, hreport⟩ := h.ite_report hc (epoch = .application)
      (e := .dropped (LossDetection.unackedBytes (c.sent epoch)))
    exact ⟨_, Lib.map_eq_ok.mpr ⟨_, Lib.map_eq_ok.mpr ⟨c₁, hreport, rfl⟩, rfl⟩⟩
  | drainAcked epoch | drainLost epoch => exact ⟨_, rfl⟩

end Controlled

/-! ### Reno -/

/-- In loss recovery, the window of Reno is at least the minimum. -/
theorem Reno.minimumWindow_le_recovering {calls : List ControlledCall} {c : Controlled Reno}
    (hrun : Lib.run (Controlled.step congestionControl) (.new new) calls = some c) :
    minimumWindow ≤ c.cc.congestionWindow := by
  obtain ⟨events, hevents⟩ := Controlled.driven_of_run hrun
  exact minimumWindow_le hevents

/-! ### CUBIC -/

section

variable {F : Type} {f : Curve F} {calls : List ControlledCall}
  {c : Controlled (Cubic F)}

/-- What holds of CUBIC between the events holds of it in loss recovery. -/
theorem Cubic.settled_of_run
    (hrun : Lib.run (Controlled.step (congestionControl f)) (.new (new f)) calls = some c) :
    Settled c.cc c.lostCount := preserves_settled.run settled_new hrun

/-- In loss recovery, the window of CUBIC is at least the minimum. -/
theorem Cubic.minimumWindow_le_recovering
    (hrun : Lib.run (Controlled.step (congestionControl f)) (.new (new f)) calls = some c) :
    minimumWindow ≤ c.cc.congestionWindow := (settled_of_run hrun).floor

theorem Cubic.steady : Controlled.Steady (congestionControl f) Settled where
  preserves := preserves_settled
  returns _ hd e := hd.handle e

/-- In loss recovery, CUBIC does not subtract more losses than there were. -/
theorem Cubic.call_returns
    (hrun : Lib.run (Controlled.step (congestionControl f)) (.new (new f)) calls = some c)
    (x : ControlledCall)
    (hranges : ∀ ranges epoch handshakeCompleted t,
      x.call = .onAckReceived ranges epoch handshakeCompleted t → ranges.isEmpty = false) :
    ∃ result, c.call (congestionControl f) x = .ok result :=
  steady.call (settled_of_run hrun) x hranges

end

/-! ### BBR -/

namespace Bbr

variable {F : Floats} {s s' : Bbr}

/-- The window is within its limits, and the recovery window is open where it counts. -/
structure Usable (s : Bbr) : Prop extends Limits s where
  recovery (hrecovery : s.inRecovery = true)
    (hcounts : ¬ (s.flags.rateBasedStartup = true ∧ s.mode = .startUp)) : minCwnd ≤ s.recoveryWindow

private theorem usable_new (t0 : ℕ) : Usable (new t0) := ⟨limits_new t0, nofun⟩

theorem Usable.minCwnd_le_bbrGetCwnd (h : Usable s) : minCwnd ≤ s.bbrGetCwnd F := by
  unfold bbrGetCwnd
  split_ifs with hmode hcounts
  · exact minCwnd_le_getProbeRttCwnd s
  · exact le_min h.min_le (h.recovery hcounts.1 hcounts.2)
  · exact h.min_le

/-- At the end of an ack both windows are calculated. -/
theorem Usable.bbrEndAck (h : Usable s) {bytesInFlight random : ℕ}
    (hend : s.bbrEndAck F bytesInFlight random = .ok s') : Usable s' := by
  obtain ⟨t, o, hbefore, rfl⟩ := bbrEndAck_spec hend
  have ht : Limits t := h.toLimits.of_cwnd_eq (beforeWindows_window hbefore).1
  obtain ⟨recoveryWindow, heq⟩ := calculateRecoveryWindow_eq
    (t.calculateCwnd F o.bytesAcked o.excessAcked) o.bytesAcked t.ackState.lostBytes bytesInFlight
  constructor
  · rw [heq]
    exact (ht.calculateCwnd o.bytesAcked o.excessAcked).of_cwnd_eq rfl
  · intro hrecovery hcounts
    refine minCwnd_le_recoveryWindow _ _ _ ?_ ?_
    · rwa [heq] at hrecovery
    · rwa [heq] at hcounts

/-- Between the acks BBR keeps both windows, its mode, and whether it is in recovery. -/
theorem preserves_usable : (bbr F).Preserves fun s _ => Usable s where
  count h _ := h
  decrease h heq := by
    obtain ⟨bytesInFlight, -, rfl⟩ := Lib.map_eq_ok.mp (show Except.map _ _ = _ from heq)
    exact ⟨⟨h.min_le, h.le_max⟩, h.recovery⟩
  sent {s _ pkt _ s'} h heq := by
    obtain rfl : s.onPacketSentCc F pkt = s' := Except.ok.inj heq
    obtain ⟨bwSampler, p, -, -, hsent⟩ := onPacketSentCc_eq (F := F) s pkt
    rw [hsent]
    exact ⟨⟨h.min_le, h.le_max⟩, h.recovery⟩
  acked h heq := by
    obtain ⟨-, ⟨-, rfl⟩ | ⟨p, sample, bwSampler, p', -, -, -, rfl⟩⟩ := onPacketAckedCc_cases heq
    · exact ⟨⟨h.min_le, h.le_max⟩, h.recovery⟩
    · exact ⟨⟨h.min_le, h.le_max⟩, h.recovery⟩
  lost h heq := by
    cases heq
    exact h
  beginAck {s _ now s'} h heq := by
    change s.bbrBeginAck now s.bytesInFlight = .ok s' at heq
    unfold Bbr.bbrBeginAck at heq
    split_ifs at heq
    cases heq
    exact ⟨⟨h.min_le, h.le_max⟩, h.recovery⟩
  endAck h heq := h.bbrEndAck heq

/-- In loss recovery, BBR never closes the window. -/
theorem minCwnd_le_recovering {t0 : ℕ} {calls : List ControlledCall} {c : Controlled Bbr}
    (hrun : Lib.run (Controlled.step (bbr F)) (.new (new t0)) calls = some c) :
    minCwnd ≤ c.cc.bbrGetCwnd F ∧ c.cc.cwnd ≤ maxCwnd := by
  have husable := preserves_usable.run (usable_new t0) hrun
  exact ⟨husable.minCwnd_le_bbrGetCwnd, husable.le_max⟩

end Bbr

end Dtp.Cc
