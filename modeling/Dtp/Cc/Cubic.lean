import Dtp.Cc.Hystart

/-!
# CUBIC

After a loss the window is reduced, and grows back along a cubic curve. What the controller was
before the loss is kept, so that a reduction can be undone that turns out to be spurious.

The floating-point numbers of the curve are a parameter, with the operations on them.

## Main definitions

* `Curve` — the numbers of the curve
* `Cubic`, `Cubic.onPacketAckedCc`, `Cubic.congestionEvent` — the controller
* `Cubic.Restores` — an ack undoes the last reduction
* `Cubic.Settled` — what holds between the events

## Main results

* `Cubic.acked_cases` — an acked packet undoes the last reduction or grows the window
* `Cubic.preserves_settled` — the window is at least the minimum, limited slow start is not entered
* `Cubic.Settled.handle` — no event fails
-/

namespace Dtp.Cc

/-- The packet count threshold to restore to the prior state if the lost packet count since the last
checkpoint is less than the threshold. -/
def restoreCountThreshold : ℕ := 10

/-- The floating-point numbers `F` of the cubic curve. -/
structure Curve (F : Type) where
  zero : F
  isZero : F → Bool
  lt : F → F → Bool
  ofNat : ℕ → F
  /-- Truncates, and saturates at zero. -/
  toNat : F → ℕ
  /-- Multiplies with `BETA_CUBIC`, which is 0.7. -/
  beta : F → F
  /-- Multiplies with `(1 + BETA_CUBIC) / 2`. -/
  converge : F → F
  /-- K from `w_max`. -/
  cubicK : F → F
  /-- `w_cubic(t)` from `k` and `w_max`. -/
  wCubic : F → F → ℕ → F
  /-- `w_est(t)` from `w_max` and the round-trip time. -/
  wEst : F → ℕ → ℕ → F
  /-- `(w_cubic - cwnd) / cwnd` datagrams. -/
  cubicInc : F → ℕ → F
  /-- The ratio of the window to a quarter of the threshold, truncated. -/
  lssK : ℕ → ℕ → ℕ

/-- Stores the CUBIC state from before the last congestion event. -/
structure PriorState (F : Type) where
  congestionWindow : ℕ
  ssthresh : ℕ
  wMax : F
  wLastMax : F
  k : F
  epochStart : Option ℕ
  lostCount : ℕ
  deriving DecidableEq

/-- CUBIC State Variables. -/
structure CubicState (F : Type) where
  k : F
  wMax : F
  wLastMax : F
  lastSentTime : Option ℕ
  cwndInc : ℕ
  prior : PriorState F
  deriving DecidableEq

/-- CUBIC, with its reals as a type. -/
structure Cubic (F : Type) where
  congestionWindow : ℕ
  bytesInFlight : ℕ
  congestionRecoveryStartTime : Option ℕ
  ssthresh : ℕ
  cubicState : CubicState F
  hystart : Hystart
  bytesAckedSl : ℕ
  deriving DecidableEq

namespace Cubic

/-- Numbers of a curve that does not grow. -/
def flatCurve : Curve ℕ where
  zero := 0
  isZero n := n = 0
  lt m n := m < n
  ofNat n := n
  toNat n := n
  beta n := n * 7 / 10
  converge n := n * 17 / 20
  cubicK _ := 0
  wCubic _ wMax _ := wMax
  wEst _ _ _ := 0
  cubicInc _ _ := 0
  lssK _ _ := 4

variable {F : Type} (f : Curve F)

/-- A new controller has the initial window. -/
def new : Cubic F where
  congestionWindow := initialWindow
  bytesInFlight := 0
  congestionRecoveryStartTime := none
  ssthresh := u64Max
  cubicState := ⟨f.zero, f.zero, f.zero, none, 0, ⟨0, 0, f.zero, f.zero, f.zero, none, 0⟩⟩
  hystart := .new true
  bytesAckedSl := 0

/-- The window is the minimum, and the curve begins anew. -/
def collapseCwnd (r : Cubic F) : Cubic F :=
  let wMax := f.ofNat r.congestionWindow
  { r with
    congestionRecoveryStartTime := none
    ssthresh := max (f.toNat (f.beta wMax)) minimumWindow
    cubicState := { r.cubicState with wLastMax := wMax, wMax, cwndInc := 0 }
    congestionWindow := minimumWindow
    bytesAckedSl := 0 }

/-- Bytes in flight are subtracted, down to zero. -/
def decreaseBytesInFlight (r : Cubic F) (bytes : ℕ) : Cubic F :=
  { r with bytesInFlight := r.bytesInFlight - bytes }

/-- The start of the recovery period, shifted by the time for which nothing was in flight. -/
def shiftedStart (r : Cubic F) (now : ℕ) : Option ℕ :=
  match r.cubicState.lastSentTime, r.congestionRecoveryStartTime with
  | some lastSentTime, some recoveryStartTime =>
    if r.bytesInFlight = 0 then
      let delta := now - lastSentTime
      if 0 < delta then some (recoveryStartTime + delta) else some recoveryStartTime
    else some recoveryStartTime
  | _, start => start

/-- A packet is sent. After a pause without packets in flight, the curve is shifted. -/
def onPacketSentCc (r : Cubic F) (bytesSent now : ℕ) : Cubic F :=
  { r with
    congestionRecoveryStartTime := r.shiftedStart now
    cubicState := { r.cubicState with lastSentTime := some now }
    bytesInFlight := r.bytesInFlight + bytesSent }

/-- Keeps the state from before the last congestion event. -/
def checkpoint (r : Cubic F) (lostCount : ℕ) : Cubic F :=
  { r with cubicState := { r.cubicState with prior := {
      congestionWindow := r.congestionWindow
      ssthresh := r.ssthresh
      wMax := r.cubicState.wMax
      wLastMax := r.cubicState.wLastMax
      k := r.cubicState.k
      epochStart := r.congestionRecoveryStartTime
      lostCount := lostCount } } }

/-- Restores the state from before the last congestion event. -/
def rollback (r : Cubic F) : Cubic F :=
  let prior := r.cubicState.prior
  { r with
    congestionWindow := prior.congestionWindow
    ssthresh := prior.ssthresh
    cubicState := { r.cubicState with wMax := prior.wMax, wLastMax := prior.wLastMax, k := prior.k }
    congestionRecoveryStartTime := prior.epochStart }

/-- An acked packet in slow start. -/
def slowStart (r : Cubic F) (a : Acked) : Cubic F :=
  let r := { r with congestionWindow := r.congestionWindow + a.packet.size }
  if r.hystart.enabled ∧ a.epoch = .application then
    let (lss, hystart) :=
      r.hystart.tryEnterLss a.packet a.latestRtt r.congestionWindow a.now maxDatagramSize
    { r with hystart, ssthresh := if lss then r.congestionWindow else r.ssthresh }
  else r

/-- When congestion avoidance began, and the controller with which it goes on. -/
def caStart (r : Cubic F) (a : Acked) : ℕ × Cubic F :=
  match if r.hystart.inLss a.epoch then r.hystart.lssStartTime else none with
  | some lssStartTime =>
    -- Reset w_max and k when LSS started.
    (lssStartTime,
      if f.isZero r.cubicState.wMax then
        { r with
          cubicState := { r.cubicState with wMax := f.ofNat r.congestionWindow, k := f.zero } }
      else r)
  | none =>
    match r.congestionRecoveryStartTime with
    | some t => (t, r)
    | none =>
      -- No loss before.
      (a.now, { r with
        congestionRecoveryStartTime := some a.now
        cubicState := { r.cubicState with wMax := f.ofNat r.congestionWindow, k := f.zero } })

/-- The window of the curve, which is not less than the window. -/
def curveCwnd (r : Cubic F) (t minRtt : ℕ) : ℕ :=
  let wCubic := f.wCubic r.cubicState.k r.cubicState.wMax (t + minRtt)
  let wEst := f.wEst r.cubicState.wMax t minRtt
  if f.lt wCubic wEst then max r.congestionWindow (f.toNat wEst)
  else if r.congestionWindow < f.toNat wCubic then
    r.congestionWindow + f.toNat (f.cubicInc wCubic r.congestionWindow)
  else r.congestionWindow

/-- The window towards which congestion avoidance grows. -/
def cubicCwnd (r : Cubic F) (a : Acked) (t : ℕ) : Except Fault (ℕ × Cubic F) :=
  let cubicCwnd := r.curveCwnd f t a.minRtt
  -- When in Limited Slow Start, take the max of CA cwnd and LSS cwnd.
  if r.hystart.inLss a.epoch then
    (Hystart.lssCwnd f.lssK a.packet.size r.bytesAckedSl r.congestionWindow r.ssthresh
      maxDatagramSize).map fun lssCwnd =>
        (max cubicCwnd lssCwnd, { r with bytesAckedSl := r.bytesAckedSl + a.packet.size })
  else .ok (cubicCwnd, r)

/-- Updates the increment and increases the window by one datagram. -/
def increase (r : Cubic F) (cubicCwnd : ℕ) : Except Fault (Cubic F) :=
  if cubicCwnd < r.congestionWindow then .error .underflow
  else
    let cwndInc := r.cubicState.cwndInc + (cubicCwnd - r.congestionWindow)
    if maxDatagramSize ≤ cwndInc then
      .ok { r with
        congestionWindow := r.congestionWindow + maxDatagramSize
        cubicState := { r.cubicState with cwndInc := 0 } }
    else .ok { r with cubicState := { r.cubicState with cwndInc } }

/-- An acked packet in congestion avoidance. -/
def avoidCongestion (r : Cubic F) (a : Acked) : Except Fault (Cubic F) :=
  let (caStartTime, r) := r.caStart f a
  (r.cubicCwnd f a (a.now - caStartTime)).bind fun (cubicCwnd, r) => r.increase cubicCwnd

/-- Grows the window after an acked packet. -/
def grow (r : Cubic F) (a : Acked) : Except Fault (Cubic F) :=
  let grown :=
    if r.congestionWindow < r.ssthresh then .ok (r.slowStart a) else r.avoidCongestion f a
  grown.map fun r => { r with bytesAckedSl := 0 }

/-- A packet is acked: the window grows, or a spurious reduction is undone. -/
def onPacketAckedCc (r : Cubic F) (a : Acked) : Except Fault (Cubic F) :=
  let inRecovery := inCongestionRecovery r.congestionRecoveryStartTime a.packet.time
  let r := { r with bytesInFlight := r.bytesInFlight - a.packet.size }
  if inRecovery then .ok r
  else if a.appLimited then .ok r
  -- When the recovery episode ends with recovering a few packets, it's considered as spurious.
  else if r.congestionRecoveryStartTime.isSome then
    if a.lostCount < r.cubicState.prior.lostCount then .error .underflow
    else
      let newLost := a.lostCount - r.cubicState.prior.lostCount
      if r.congestionWindow < r.cubicState.prior.congestionWindow ∧
          newLost < restoreCountThreshold then
        .ok r.rollback
      else r.grow f a
  else r.grow f a

/-- The window is reduced, and the curve begins there. -/
def reduce (r : Cubic F) (e : Congestion) : Cubic F :=
  let s := r.cubicState
  -- Fast convergence
  let s :=
    if f.lt s.wMax s.wLastMax then { s with wLastMax := s.wMax, wMax := f.converge s.wMax }
    else { s with wLastMax := s.wMax }
  let wMax := f.ofNat r.congestionWindow
  let ssthresh := max (f.toNat (f.beta wMax)) minimumWindow
  { r with
    congestionRecoveryStartTime := some e.now
    cubicState := { s with
      wMax
      k := f.cubicK wMax
      cwndInc := f.toNat (f.beta (f.ofNat s.cwndInc)) }
    ssthresh
    congestionWindow := ssthresh
    hystart := if r.hystart.inLss e.epoch then r.hystart.congestionEvent else r.hystart }

/-- Starts a new congestion event if the packet was sent after the start of the previous congestion
recovery period. -/
def congestionEvent (r : Cubic F) (e : Congestion) : Cubic F :=
  if ¬ inCongestionRecovery r.congestionRecoveryStartTime e.timeSent then
    (r.checkpoint e.lostCount).reduce f e
  else r

/-- CUBIC as a congestion controller. -/
def congestionControl : CongestionControl (Cubic F) where
  cwnd r := r.congestionWindow
  bytesInFlight r := r.bytesInFlight
  decreaseBytesInFlight r bytes := .ok (r.decreaseBytesInFlight bytes)
  collapseCwnd := collapseCwnd f
  onPacketSentCc r pkt now := .ok (r.onPacketSentCc pkt.size now)
  onPacketAckedCc := onPacketAckedCc f
  congestionEvent r e := .ok (r.congestionEvent f e)
  ccBbrBeginAck r _ := .ok r
  ccBbrEndAck r _ := .ok r

/-- The events of a connection with CUBIC. -/
abbrev step : Driven (Cubic F) → Event → Option (Driven (Cubic F)) :=
    Driven.step (congestionControl f)

/-! ### Growth -/

variable {f}

/-- The window has not become smaller, and what was kept of the last reduction is the same. -/
structure Grown (r r' : Cubic F) : Prop where
  window : r.congestionWindow ≤ r'.congestionWindow
  prior : r'.cubicState.prior = r.cubicState.prior

/-- Limited slow start was not entered, and there is no round to compare with. -/
structure NoLss (r : Cubic F) : Prop where
  start : r.hystart.lssStartTime = none
  last : r.hystart.lastRoundMinRtt = none

variable {r r' r'' : Cubic F} {a : Acked}

theorem Grown.refl (r : Cubic F) : Grown r r := ⟨le_rfl, rfl⟩

theorem Grown.trans (h : Grown r r') (h' : Grown r' r'') : Grown r r'' :=
  ⟨h.window.trans h'.window, h'.prior.trans h.prior⟩

private theorem slowStart_spec (h : NoLss r) (a : Acked) :
    Grown r (r.slowStart a) ∧ NoLss (r.slowStart a) := by
  obtain ⟨-, hstart, hlast⟩ := Hystart.tryEnterLss_of_none h.start h.last a.packet a.latestRtt
    (r.congestionWindow + a.packet.size) a.now maxDatagramSize
  unfold slowStart
  dsimp only
  by_cases henabled : r.hystart.enabled ∧ a.epoch = .application
  · rw [if_pos henabled]
    exact ⟨⟨Nat.le_add_right _ _, rfl⟩, ⟨hstart, hlast⟩⟩
  · rw [if_neg henabled]
    exact ⟨⟨Nat.le_add_right _ _, rfl⟩, ⟨h.start, h.last⟩⟩

private theorem caStart_spec (h : NoLss r) (a : Acked) : Grown r (r.caStart f a).2 ∧ NoLss
    (r.caStart f a).2 := by
  unfold caStart
  rw [Hystart.inLss_of_none h.start]
  cases r.congestionRecoveryStartTime with
  | none => exact ⟨⟨le_rfl, rfl⟩, ⟨h.start, h.last⟩⟩
  | some t => exact ⟨.refl r, h⟩

private theorem le_curveCwnd (r : Cubic F) (t minRtt : ℕ) :
    r.congestionWindow ≤ r.curveCwnd f t minRtt := by
  unfold curveCwnd
  dsimp only
  split_ifs
  · exact Nat.le_max_left _ _
  · exact Nat.le_add_right _ _
  · exact le_rfl

private theorem increase_spec (h : NoLss r) {cubicCwnd : ℕ} (hle : r.congestionWindow ≤ cubicCwnd) :
    ∃ r', r.increase cubicCwnd = .ok r' ∧ Grown r r' ∧ NoLss r' := by
  unfold increase
  rw [if_neg hle.not_gt]
  dsimp only
  split_ifs
  · exact ⟨_, rfl, ⟨Nat.le_add_right _ _, rfl⟩, ⟨h.start, h.last⟩⟩
  · exact ⟨_, rfl, ⟨le_rfl, rfl⟩, ⟨h.start, h.last⟩⟩

private theorem avoidCongestion_spec (h : NoLss r) (a : Acked) :
    ∃ r', r.avoidCongestion f a = .ok r' ∧ Grown r r' ∧ NoLss r' := by
  obtain ⟨hstarted, hno⟩ := caStart_spec (f := f) h a
  obtain ⟨r', hincrease, hgrown, hno'⟩ :=
    increase_spec hno (le_curveCwnd (f := f) (r.caStart f a).2 (a.now - (r.caStart f a).1) a.minRtt)
  refine ⟨r', ?_, hstarted.trans hgrown, hno'⟩
  rw [← hincrease]
  unfold avoidCongestion cubicCwnd
  dsimp only
  rw [Hystart.inLss_of_none hno.start]
  rfl

/-- Growing the window does not fail: neither difference is negative. -/
theorem grow_spec (h : NoLss r) (a : Acked) : ∃ r', r.grow f a = .ok r' ∧ Grown r r' ∧
    NoLss r' := by
  unfold grow
  dsimp only
  split_ifs
  · obtain ⟨hgrown, hno⟩ := slowStart_spec h a
    exact ⟨_, rfl, ⟨hgrown.window, hgrown.prior⟩, ⟨hno.start, hno.last⟩⟩
  · obtain ⟨r', havoid, hgrown, hno⟩ := avoidCongestion_spec (f := f) h a
    rw [havoid]
    exact ⟨_, rfl, ⟨hgrown.window, hgrown.prior⟩, ⟨hno.start, hno.last⟩⟩

/-! ### Acked packets -/

/-- An acked packet undoes the last reduction. -/
structure Restores (r : Cubic F) (a : Acked) : Prop where
  after : ¬ inCongestionRecovery r.congestionRecoveryStartTime a.packet.time
  growing : a.appLimited = false
  started : r.congestionRecoveryStartTime.isSome
  reduced : r.congestionWindow < r.cubicState.prior.congestionWindow
  few : a.lostCount - r.cubicState.prior.lostCount < restoreCountThreshold

/-- An acked packet undoes the last reduction, or the window does not become smaller. It does
not fail. -/
theorem acked_cases (h : NoLss r) (hcount : r.cubicState.prior.lostCount ≤ a.lostCount) :
    ∃ r', r.onPacketAckedCc f a = .ok r' ∧ NoLss r' ∧
      (Restores r a ∧ r' = (r.decreaseBytesInFlight a.packet.size).rollback ∨
        ¬ Restores r a ∧ Grown r r') := by
  obtain ⟨r₁, hgrow, hgrown, hno⟩ :=
    grow_spec (f := f) (r := r.decreaseBytesInFlight a.packet.size) ⟨h.start, h.last⟩ a
  have hgrown : Grown r r₁ := ⟨hgrown.window, hgrown.prior⟩
  unfold onPacketAckedCc
  dsimp only
  split_ifs with hrecovery happ hstart hunder hrestore
  · exact ⟨_, rfl, ⟨h.start, h.last⟩, .inr ⟨fun hr => hr.after hrecovery, ⟨le_rfl, rfl⟩⟩⟩
  · exact ⟨_, rfl, ⟨h.start, h.last⟩, .inr ⟨fun hr => by simp [hr.growing] at happ, ⟨le_rfl, rfl⟩⟩⟩
  · exact absurd hcount hunder.not_ge
  · exact ⟨_, rfl, ⟨h.start, h.last⟩,
      .inl ⟨⟨hrecovery, by simpa using happ, hstart, hrestore.1, hrestore.2⟩, rfl⟩⟩
  · exact ⟨r₁, hgrow, hno, .inr ⟨fun hr => hrestore ⟨hr.reduced, hr.few⟩, hgrown⟩⟩
  · exact ⟨r₁, hgrow, hno, .inr ⟨fun hr => hstart hr.started, hgrown⟩⟩

/-! ### Runs -/

theorem congestionEvent_of_inCongestionRecovery {e : Congestion}
    (h : inCongestionRecovery r.congestionRecoveryStartTime e.timeSent) :
    r.congestionEvent f e = r :=
  if_neg (not_not.mpr h)

theorem congestionEvent_of_after {e : Congestion}
    (h : ¬ inCongestionRecovery r.congestionRecoveryStartTime e.timeSent) :
    r.congestionEvent f e = (r.checkpoint e.lostCount).reduce f e := if_pos h

private theorem minimumWindow_le_reduce (r : Cubic F) (e : Congestion) :
    minimumWindow ≤ (r.reduce f e).congestionWindow := Nat.le_max_right _ _

theorem reduce_prior (r : Cubic F) (e : Congestion) :
    (r.reduce f e).cubicState.prior = r.cubicState.prior := by
  unfold reduce
  dsimp only
  split_ifs <;> rfl

theorem NoLss.reduce (h : NoLss r) (e : Congestion) : NoLss (r.reduce f e) := by
  have hhystart : (r.reduce f e).hystart = r.hystart := by
    unfold Cubic.reduce
    rw [Hystart.inLss_of_none h.start]
    rfl
  exact ⟨hhystart ▸ h.start, hhystart ▸ h.last⟩

/-- What holds between the events, when `n` packets were lost. -/
structure Settled (r : Cubic F) (n : ℕ) : Prop where
  noLss : NoLss r
  floor : minimumWindow ≤ r.congestionWindow
  counted : r.cubicState.prior.lostCount ≤ n

theorem settled_new : Settled (new f) 0 :=
  ⟨⟨rfl, rfl⟩, show minimumWindow ≤ initialWindow by decide, le_rfl⟩

/-- What was undone is not below the minimum either, since the window was reduced. -/
theorem Settled.acked (h : Settled r a.lostCount) :
    ∃ r', r.onPacketAckedCc f a = .ok r' ∧ Settled r' a.lostCount := by
  obtain ⟨r', hacked, hno, ⟨hrestores, rfl⟩ | ⟨-, hgrown⟩⟩ := acked_cases (f := f) h.noLss h.counted
  · exact ⟨_, hacked, hno, h.floor.trans hrestores.reduced.le, h.counted⟩
  · exact ⟨r', hacked, hno, h.floor.trans hgrown.window, hgrown.prior ▸ h.counted⟩

/-- All operations keep what holds between the events. -/
theorem preserves_settled : (congestionControl f).Preserves Settled where
  count h hle := ⟨h.noLss, h.floor, h.counted.trans hle⟩
  decrease h heq := by
    cases heq
    exact ⟨⟨h.noLss.start, h.noLss.last⟩, h.floor, h.counted⟩
  sent h heq := by
    cases heq
    exact ⟨⟨h.noLss.start, h.noLss.last⟩, h.floor, h.counted⟩
  acked h heq := by
    obtain ⟨r', hacked, hsettled⟩ := h.acked (f := f)
    obtain rfl : r' = _ := Except.ok.inj (hacked.symm.trans heq)
    exact hsettled
  lost {r e r'} h heq := by
    obtain rfl : r.congestionEvent f e = r' := Except.ok.inj heq
    by_cases hrecovery : inCongestionRecovery r.congestionRecoveryStartTime e.timeSent
    · rwa [congestionEvent_of_inCongestionRecovery hrecovery]
    · rw [congestionEvent_of_after hrecovery]
      have hno : NoLss (r.checkpoint e.lostCount) := ⟨h.noLss.start, h.noLss.last⟩
      exact ⟨hno.reduce e, minimumWindow_le_reduce _ e, (reduce_prior _ e).symm ▸ le_rfl⟩
  beginAck h heq := by
    cases heq
    exact h
  endAck h heq := by
    cases heq
    exact h

/-- No event fails. In particular no difference is negative. -/
theorem Settled.handle {d : Driven (Cubic F)} (h : Settled d.cc d.lostCount) (e : Event) :
    ∃ d', d.handle (congestionControl f) e = .ok d' := by
  have hcount (epoch : Epoch) (pkts : List Sent) (d : Driven (Cubic F)) :
      ∃ d', Driven.countLost (congestionControl f) epoch pkts d = .ok d' := by
    induction pkts generalizing d with
    | nil => exact ⟨d, rfl⟩
    | cons p ps ih =>
      unfold Driven.countLost Driven.onPacketLost
      dsimp only
      split_ifs
      · exact ih _
      · exact ih _
  cases e with
  | sent pkt now => exact ⟨_, rfl⟩
  | beginAck now => exact ⟨_, rfl⟩
  | acked packet srtt minRtt latestRtt appLimited epoch now =>
    obtain ⟨r', hacked, -⟩ := Settled.acked (f := f)
      (a := ⟨packet, srtt, minRtt, latestRtt, appLimited, epoch, d.lostCount, now⟩) h
    exact ⟨{ d with cc := r' }, Lib.map_eq_ok.mpr ⟨r', hacked, rfl⟩⟩
  | endAck random => exact ⟨_, rfl⟩
  | lost pkts epoch srtt now =>
    obtain ⟨d₁, hcounted⟩ := hcount epoch pkts d
    change ∃ d', d.onPacketsLost (congestionControl f) pkts epoch srtt now = .ok d'
    unfold Driven.onPacketsLost
    rw [hcounted]
    cases (pkts.filter Sent.inFlight).getLast? with
    | none => exact ⟨_, rfl⟩
    | some p => exact ⟨_, rfl⟩
  | dropped unackedBytes => exact ⟨_, rfl⟩

theorem Settled.step {d d' : Driven (Cubic F)} {e : Event} (h : Settled d.cc d.lostCount)
    (hstep : step f d e = some d') : Settled d'.cc d'.lostCount := preserves_settled.step h hstep

end Cubic

end Dtp.Cc
