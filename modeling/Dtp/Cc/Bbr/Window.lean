import Mathlib.Tactic.NormNum
import Dtp.Cc.Bbr.Operations

/-!
# The windows of BBR

At the end of an ack the window is kept within its limits, and the recovery window is at least the
smallest window wherever it counts. So BBR never closes the window, whatever its modes and flags
are.

The window is meant to stop growing at its target. In STARTUP it does not: there the gain is
compared with the target, where the window is meant, and the gain is always smaller.

## Main definitions

* `Bbr.Limits` — the window is within its limits
* `Bbr.Open` — the window is open after the end of an ack
* `Bbr.StopsAtTarget`, `Bbr.BelowTarget` — the window grows only below its target, and when it does

## Main results

* `Bbr.stays_open` — no run closes the window
* `Bbr.stopsAtTarget_iff` — the window stops at its target exactly if it is below it whenever it
  grows
-/

namespace Dtp.Cc.Bbr

variable {F : Floats} {s s' t : Bbr} {op : Operation} {o : AckOutcome}

/-! ### The limits of the window -/

/-- The window is within its limits. -/
structure Limits (s : Bbr) : Prop where
  min_le : minCwnd ≤ s.cwnd
  le_max : s.cwnd ≤ maxCwnd

theorem minCwnd_le_initCwnd : minCwnd ≤ initCwnd := by decide

theorem initCwnd_le_maxCwnd : initCwnd ≤ maxCwnd := by decide

theorem limits_new (t0 : ℕ) : Limits (new t0) := ⟨minCwnd_le_initCwnd, initCwnd_le_maxCwnd⟩

/-- The window within its limits. -/
def clamp (cwnd : ℕ) :
    ℕ := if cwnd < minCwnd then minCwnd else if maxCwnd < cwnd then maxCwnd else cwnd

theorem clamp_eq (cwnd : ℕ) : clamp cwnd = min (max cwnd minCwnd) maxCwnd := by
  have hlimits : minCwnd ≤ maxCwnd := minCwnd_le_initCwnd.trans initCwnd_le_maxCwnd
  unfold clamp
  split_ifs <;> omega

theorem calculateCwnd_cwnd (hmode : s.mode ≠ .probeRtt) (bytesAcked excessAcked : ℕ) :
    (s.calculateCwnd F bytesAcked excessAcked).cwnd = clamp
    (s.grownCwnd F bytesAcked excessAcked) := by
  unfold calculateCwnd
  rw [if_neg hmode]
  rfl

/-- Outside PROBE_RTT the limits are enforced. In PROBE_RTT the window stays. -/
theorem Limits.calculateCwnd (h : Limits s) (bytesAcked excessAcked : ℕ) :
    Limits (s.calculateCwnd F bytesAcked excessAcked) := by
  have hlimits : minCwnd ≤ maxCwnd := minCwnd_le_initCwnd.trans initCwnd_le_maxCwnd
  by_cases hmode : s.mode = .probeRtt
  · unfold Bbr.calculateCwnd
    rwa [if_pos hmode]
  · constructor
    · rw [calculateCwnd_cwnd hmode, clamp_eq]
      omega
    · rw [calculateCwnd_cwnd hmode, clamp_eq]
      omega

theorem Limits.of_cwnd_eq (h : Limits s) (heq : s'.cwnd = s.cwnd) : Limits s' :=
  ⟨heq ▸ h.min_le, heq ▸ h.le_max⟩

theorem calculateRecoveryWindow_eq (s : Bbr) (bytesAcked bytesLost bytesInFlight : ℕ) :
    ∃ recoveryWindow, s.calculateRecoveryWindow bytesAcked bytesLost bytesInFlight =
        { s with recoveryWindow } := by
  unfold calculateRecoveryWindow
  dsimp only
  split_ifs <;> exact ⟨_, rfl⟩

/-- Every operation keeps the window within its limits. -/
theorem Limits.step (h : Limits s) (hstep : Bbr.step s op = some s') : Limits s' := by
  have hhandle := Lib.toOption_eq_some.mp hstep
  cases hends : op.endsAck with
  | true =>
    cases op with
    | bbrEndAck F bytesInFlight random =>
      obtain ⟨t, o, hbefore, rfl⟩ := bbrEndAck_spec hhandle
      have ht : Limits t := h.of_cwnd_eq (beforeWindows_window hbefore).1
      obtain ⟨recoveryWindow, heq⟩ := calculateRecoveryWindow_eq
        (t.calculateCwnd F o.bytesAcked o.excessAcked)
          o.bytesAcked t.ackState.lostBytes bytesInFlight
      rw [heq]
      exact (ht.calculateCwnd o.bytesAcked o.excessAcked).of_cwnd_eq rfl
    | _ => cases hends
  | false =>
    rcases handle_spec hhandle hends with ⟨flags, -, rfl⟩ | hwaits
    · exact ⟨h.min_le, h.le_max⟩
    · rcases hwaits.cwnd with heq | heq
      · exact h.of_cwnd_eq heq
      · exact ⟨heq ▸ minCwnd_le_initCwnd, heq ▸ initCwnd_le_maxCwnd⟩

/-! ### The window is open -/

theorem minCwnd_le_getTargetCwnd (s : Bbr) (gain : ℚ) : minCwnd ≤ s.getTargetCwnd F gain :=
    le_max_right _ _

theorem minCwnd_le_getProbeRttCwnd (s : Bbr) : minCwnd ≤ s.getProbeRttCwnd F := by
  unfold getProbeRttCwnd
  split_ifs
  · exact minCwnd_le_getTargetCwnd s _
  · exact le_rfl

/-- The recovery window is not closed wherever it counts. -/
theorem minCwnd_le_recoveryWindow (bytesAcked bytesLost bytesInFlight : ℕ)
    (hrecovery : s.inRecovery = true)
    (hcounts : ¬ (s.flags.rateBasedStartup = true ∧ s.mode = .startUp)) :
    minCwnd ≤ (s.calculateRecoveryWindow bytesAcked bytesLost bytesInFlight).recoveryWindow := by
  have hstate : s.recoveryState ≠ .notInRecovery := by simpa [inRecovery] using hrecovery
  unfold calculateRecoveryWindow
  dsimp only
  rw [if_neg hcounts, if_neg hstate]
  split_ifs
  · exact le_max_left _ _
  · exact le_max_right _ _

/-- Once the recovery window is calculated, the window is open. -/
theorem Limits.minCwnd_le_bbrGetCwnd (h : Limits s) (bytesAcked bytesLost bytesInFlight : ℕ) :
    minCwnd ≤ (s.calculateRecoveryWindow bytesAcked bytesLost bytesInFlight).bbrGetCwnd F := by
  obtain ⟨recoveryWindow, heq⟩ := calculateRecoveryWindow_eq s bytesAcked bytesLost bytesInFlight
  unfold bbrGetCwnd
  split_ifs with hmode hcounts
  · exact minCwnd_le_getProbeRttCwnd _
  · have hsame : s.inRecovery = true ∧ ¬ (s.flags.rateBasedStartup = true ∧ s.mode = .startUp) := by
      rw [heq] at hcounts
      exact hcounts
    have hwindow := minCwnd_le_recoveryWindow bytesAcked bytesLost bytesInFlight hsame.1 hsame.2
    have hcwnd : minCwnd ≤ (s.calculateRecoveryWindow bytesAcked bytesLost bytesInFlight).cwnd := by
      rw [heq]
      exact h.min_le
    exact le_min hcwnd hwindow
  · rw [heq]
    exact h.min_le

/-- The window is at most the largest one, and open after the end of an ack. -/
structure Open (s : Bbr) (op : Operation) : Prop where
  le_max {s' : Bbr} (hstep : Bbr.step s op = some s') : s'.cwnd ≤ maxCwnd
  min_le {s' : Bbr} (hstep : Bbr.step s op = some s') (hends : op.endsAck)
    (F : Floats) : minCwnd ≤ s'.bbrGetCwnd F

private theorem Limits.isOpen (h : Limits s) (op : Operation) : Open s op where
  le_max hstep := (h.step hstep).le_max
  min_le hstep hends F' := by
    cases op with
    | bbrEndAck F bytesInFlight random =>
      obtain ⟨t, o, hbefore, rfl⟩ := bbrEndAck_spec (Lib.toOption_eq_some.mp hstep)
      have ht : Limits t := h.of_cwnd_eq (beforeWindows_window hbefore).1
      exact (ht.calculateCwnd o.bytesAcked o.excessAcked).minCwnd_le_bbrGetCwnd _ _ _
    | _ => cases hends

/-- BBR never closes the window: along every run it is open after every end of an ack. -/
theorem stays_open (t0 : ℕ) (ops : List Operation) : Lib.AllSteps step Open (new t0) ops :=
  Lib.allSteps_of_invariant (I := Limits) (fun _ _ _ h hstep => h.step hstep) (fun _ op h =>
    h.isOpen op)
    (limits_new t0)

/-! ### The target of the window -/

/-- The gain of the window is one of two. -/
def Geared (s : Bbr) : Prop := s.cwndGain = highCwndGain ∨ s.cwndGain = kCwndGain

/-- Every operation keeps the gain one of two. -/
theorem Geared.step (h : Geared s) (hstep : Bbr.step s op = some s') : Geared s' := by
  have hhandle := Lib.toOption_eq_some.mp hstep
  cases hends : op.endsAck with
  | true =>
    cases op with
    | bbrEndAck F bytesInFlight random =>
      obtain ⟨t, o, hbefore, rfl⟩ := bbrEndAck_spec hhandle
      obtain ⟨recoveryWindow, heq⟩ := calculateRecoveryWindow_eq
        (t.calculateCwnd F o.bytesAcked o.excessAcked)
          o.bytesAcked t.ackState.lostBytes bytesInFlight
      have hgain : (t.calculateCwnd F o.bytesAcked o.excessAcked).cwndGain = t.cwndGain := by
        unfold Bbr.calculateCwnd
        dsimp only
        split_ifs <;> rfl
      rw [heq]
      unfold Geared at h ⊢
      dsimp only
      rw [hgain]
      rcases (beforeWindows_window hbefore).2 with heq | hgain
      · rwa [heq]
      · exact hgain
    | _ => cases hends
  | false =>
    rcases handle_spec hhandle hends with ⟨flags, -, rfl⟩ | hwaits
    · exact h
    · unfold Geared at h ⊢
      rwa [hwaits.cwndGain]

/-- The gain is smaller than any target, in bytes. -/
theorem Geared.lt_asF64 (h : Geared s) {target : ℕ} (htarget : minCwnd ≤ target) :
    s.cwndGain < asF64 target := by
  have hhalf : target ≤ 2 * asF64 target := Lib.le_two_mul_roundBits (by decide) target
  have hlarge : 3 ≤ asF64 target := by
    have hmin : 5840 ≤ target := htarget
    omega
  have hcast : (3 : ℚ) ≤ asF64 target := by exact_mod_cast hlarge
  have hhigh : highCwndGain < 3 := by norm_num [highCwndGain, kDefaultHighGain]
  have hcwnd : kCwndGain < 3 := by norm_num [kCwndGain]
  rcases h with h | h
  · rw [h]
    exact hhigh.trans_le hcast
  · rw [h]
    exact hcwnd.trans_le hcast

theorem minCwnd_le_targetWindow (s : Bbr) (excessAcked : ℕ) :
    minCwnd ≤ s.targetWindow F excessAcked := by
  have htarget := minCwnd_le_getTargetCwnd (F := F) s s.cwndGain
  unfold targetWindow
  dsimp only
  split_ifs
  · exact htarget.trans (Nat.le_add_right _ _)
  · exact htarget.trans (Nat.le_add_right _ _)
  · exact htarget

/-- Before full bandwidth, the window grows by all that is acked. -/
theorem Geared.grownCwnd (h : Geared s) (bytesAcked excessAcked : ℕ) :
    s.grownCwnd F bytesAcked excessAcked =
      if s.flags.isAtFullBandwidth then min (s.targetWindow F excessAcked) (s.cwnd + bytesAcked)
      else s.cwnd + bytesAcked := by
  have hgain := h.lt_asF64 (minCwnd_le_targetWindow (F := F) s excessAcked)
  unfold Bbr.grownCwnd
  dsimp only
  split_ifs with hfull hgrows
  · rfl
  · rfl
  · exact absurd ⟨rfl, .inl hgain⟩ hgrows

/-- The window is calculated, outside of PROBE_RTT, once the initial window is acked. -/
structure Calculates (s : Bbr) (op : Operation) (F : Floats) (t : Bbr) (o : AckOutcome) : Prop where
  before : ∃ bytesInFlight random, op = .bbrEndAck F bytesInFlight random ∧
    s.beforeWindows F bytesInFlight random = .ok (t, o)
  mode : t.mode ≠ .probeRtt
  acked : initCwnd ≤ t.bwSampler.totalAcked

/-- The window is increased only if it is below its target, and not by more than the bytes acked. -/
def StopsAtTarget (s : Bbr) (op : Operation) : Prop :=
  ∀ F t o, Calculates s op F t o →
    let cwnd := (t.calculateCwnd F o.bytesAcked o.excessAcked).cwnd
    let target := t.targetWindow F o.excessAcked
    (t.cwnd < cwnd → t.cwnd < target) ∧ cwnd ≤ max t.cwnd (max (target + o.bytesAcked) minCwnd)

/-- When the window is calculated, the bandwidth is full, or the window is below its target, or it
cannot grow. -/
def BelowTarget (s : Bbr) (op : Operation) : Prop :=
  ∀ F t o, Calculates s op F t o →
    t.flags.isAtFullBandwidth = true ∨ t.cwnd < t.targetWindow F o.excessAcked ∨ o.bytesAcked = 0 ∨
      t.cwnd = maxCwnd

/-- Once the gain has been compared, the window stops at its target only if it is below it. -/
theorem stops_iff_below (hlimits : Limits t) (hgeared : Geared t) (hmode : t.mode ≠ .probeRtt)
    (bytesAcked excessAcked : ℕ) :
    (let cwnd := (t.calculateCwnd F bytesAcked excessAcked).cwnd
      let target := t.targetWindow F excessAcked
      (t.cwnd < cwnd → t.cwnd < target) ∧ cwnd ≤ max t.cwnd (max (target + bytesAcked) minCwnd)) ↔
      (t.flags.isAtFullBandwidth = true ∨ t.cwnd < t.targetWindow F excessAcked ∨ bytesAcked = 0 ∨
        t.cwnd = maxCwnd) := by
  have hmin := hlimits.min_le
  have hmax := hlimits.le_max
  have htarget := minCwnd_le_targetWindow (F := F) t excessAcked
  dsimp only
  rw [calculateCwnd_cwnd hmode, hgeared.grownCwnd, clamp_eq]
  cases t.flags.isAtFullBandwidth with
  | true =>
    simp only [if_true, true_or, iff_true]
    omega
  | false =>
    simp only [Bool.false_eq_true, if_false, false_or]
    omega

private theorem stopsAtTarget_iff_belowTarget (hlimits : Limits s) (hgeared : Geared s)
    (op : Operation) :
    StopsAtTarget s op ↔ BelowTarget s op := by
  refine forall_congr' fun F => forall_congr' fun t => forall_congr' fun o =>
    imp_congr_right fun hcalc => ?_
  obtain ⟨bytesInFlight, random, -, hbefore⟩ := hcalc.before
  obtain ⟨hcwnd, hgain⟩ := beforeWindows_window hbefore
  have hgeared' : Geared t := by
    rcases hgain with heq | hgain
    · unfold Geared
      rwa [heq]
    · exact hgain
  exact stops_iff_below (hlimits.of_cwnd_eq hcwnd) hgeared' hcalc.mode _ _

/-- Along every run the window stops at its target exactly if, whenever it is calculated before full
bandwidth, it is below its target or cannot grow. -/
theorem stopsAtTarget_iff (t0 : ℕ) (ops : List Operation) :
    Lib.AllSteps step StopsAtTarget (new t0) ops ↔ Lib.AllSteps step BelowTarget (new t0) ops :=
  Lib.allSteps_iff (I := fun s => Limits s ∧ Geared s)
    (fun _ _ _ h hstep => ⟨h.1.step hstep, h.2.step hstep⟩)
    (fun _ op h => stopsAtTarget_iff_belowTarget h.1 h.2 op) ⟨limits_new t0, .inl rfl⟩

/-- One packet is acked after a millisecond, then 38 packets are, after 100 milliseconds. -/
def slowRound : List Operation :=
  exampleRound [0] 0 1000000 ++ .bbrEndAck exactFloats 0 0 ::
    exampleRound ((List.range 38).map (· + 1)) 2000000 102000000

/-- The last ack of the run grows a window that is above its target already. -/
theorem grows_slowRound :
    ((Lib.run step (new 0) slowRound).bind fun s => (s.beforeWindows exactFloats 0 0).toOption).any
        fun (t, o) =>
      t.mode ≠ .probeRtt ∧ initCwnd ≤ t.bwSampler.totalAcked ∧
        t.targetWindow exactFloats o.excessAcked ≤ t.cwnd ∧
        t.cwnd < (t.calculateCwnd exactFloats o.bytesAcked o.excessAcked).cwnd := by
  decide +kernel

/-- In STARTUP the window does not stop at its target. -/
theorem not_stopsAtTarget_slowRound :
    ¬ ∀ (t0 : ℕ) (ops : List Operation), Lib.AllSteps step StopsAtTarget (new t0) ops := by
  intro h
  obtain ⟨⟨t, o⟩, hsome, hgrows⟩ := (Option.any_eq_true _ _).mp grows_slowRound
  obtain ⟨s, hrun, hbefore⟩ := Option.bind_eq_some_iff.mp hsome
  obtain ⟨hmode, hacked, hlarge, hless⟩ := of_decide_eq_true hgrows
  have hstops := (h 0 (slowRound ++ [.bbrEndAck exactFloats 0 0])).of_run hrun
  have hcalc : Calculates s (.bbrEndAck exactFloats 0 0) exactFloats t o :=
    ⟨⟨0, 0, rfl, Lib.toOption_eq_some.mp hbefore⟩, hmode, hacked⟩
  exact hlarge.not_gt ((hstops exactFloats t o hcalc).1 hless)

end Dtp.Cc.Bbr
