import Dtp.Cc.Bbr.EndAck

/-!
# What the end of an ack leaves alone

Most of what happens at the end of an ack is about estimates and modes. It leaves alone the core
of the state: rounds, losses, packets and the window.

## Main definitions

* `Bbr.core` — the state without estimates and modes
* `Bbr.ModeChange` — what a change of the mode does to the core

## Main results

* `Bbr.endAckModel_spec`, `Bbr.endAckMode_spec`, `Bbr.beforeWindows_spec` — the core in the parts
  of the end of an ack
-/

namespace Dtp.Cc.Bbr

/-- The flags that estimates and modes do not set. -/
def coreFlags (flags : BbrFlags) : BbrFlags :=
  { BbrFlags.empty with
    inAck := flags.inAck
    exitStartupOnLoss := flags.exitStartupOnLoss
    isAtFullBandwidth := flags.isAtFullBandwidth
    expireAckAggInStartup := flags.expireAckAggInStartup
    rateBasedStartup := flags.rateBasedStartup }

/-- The state without its estimates and modes. -/
def core (s : Bbr) : Bbr :=
  { new 0 with
    bwSampler := { BwSampler.new 0 with
      totalSent := s.bwSampler.totalSent
      totalAcked := s.bwSampler.totalAcked
      totalLost := s.bwSampler.totalLost }
    ackState := s.ackState
    bytesInFlight := s.bytesInFlight
    roundCount := s.roundCount
    cwnd := s.cwnd
    cwndGain := s.cwndGain
    roundWoBwGain := s.roundWoBwGain
    bwAtLastRound := s.bwAtLastRound
    flags := coreFlags s.flags
    lastSentPackno := s.lastSentPackno
    recoveryState := s.recoveryState
    currentRoundTripEnd := s.currentRoundTripEnd
    endRecoveryAt := s.endRecoveryAt
    packetOutQue := s.packetOutQue }

variable {F : Floats} {s s' : Bbr} {o : AckOutcome}

/-! ### Rounds, bandwidth and recovery -/

@[simp] theorem core_observeSample (s : Bbr) (sampleMinRtt : ℕ) (sample : BwSample) :
    (observeSample (s, sampleMinRtt) sample).1.core = s.core := by
  unfold observeSample
  dsimp only
  cases sample.isAppLimited <;> rfl

theorem core_foldl_observeSample (samples : List BwSample) (acc : Bbr × ℕ) :
    (samples.foldl observeSample acc).1.core = acc.1.core := by
  induction samples generalizing acc with
  | nil => rfl
  | cons sample samples ih => rw [List.foldl_cons, ih, core_observeSample]

@[simp] theorem core_updateMinRtt (s : Bbr) (sampleMinRtt : ℕ) :
    (s.updateMinRtt F sampleMinRtt).1.core = s.core := by
  unfold updateMinRtt
  dsimp only
  split_ifs <;> rfl

@[simp] theorem core_updateBandwidthAndMinRtt (s : Bbr) :
    (s.updateBandwidthAndMinRtt F).1.core = s.core := by
  unfold updateBandwidthAndMinRtt
  dsimp only
  split_ifs
  · exact core_foldl_observeSample _ _
  · rw [core_updateMinRtt]
    exact core_foldl_observeSample _ _

/-- The recovery state depends on the core only. -/
theorem core_updateRecoveryState (s : Bbr) (isRoundStart : Bool) :
    (s.updateRecoveryState isRoundStart).core = s.core.updateRecoveryState isRoundStart := by
  have hstate : s.core.recoveryState = s.recoveryState := rfl
  have hack : s.core.ackState = s.ackState := rfl
  have hsent : s.core.lastSentPackno = s.lastSentPackno := rfl
  have hend : s.core.endRecoveryAt = s.endRecoveryAt := rfl
  unfold updateRecoveryState
  dsimp only
  rw [hstate, hack, hsent, hend]
  cases s.recoveryState with
  | notInRecovery =>
    dsimp only
    split_ifs <;> rfl
  | conservation =>
    dsimp only
    split_ifs <;> rfl
  | growth =>
    dsimp only
    split_ifs <;> rfl

@[simp] theorem core_updateAckAggregationBytes (s : Bbr) (newlyAckedBytes : ℕ) :
    (s.updateAckAggregationBytes F newlyAckedBytes).1.core = s.core := by
  unfold updateAckAggregationBytes
  dsimp only
  split_ifs <;> rfl

/-- Recovery changes only what is about recovery. -/
theorem updateRecoveryState_eq (s : Bbr) (isRoundStart : Bool) :
    ∃ recoveryState recoveryWindow currentRoundTripEnd endRecoveryAt,
      s.updateRecoveryState isRoundStart =
        { s with recoveryState, recoveryWindow, currentRoundTripEnd, endRecoveryAt } ∧
      (currentRoundTripEnd = s.currentRoundTripEnd ∨ currentRoundTripEnd = s.lastSentPackno) ∧
      (s.ackState.hasLosses = false → s.recoveryState = .notInRecovery →
        recoveryState = .notInRecovery ∧ currentRoundTripEnd = s.currentRoundTripEnd) := by
  unfold updateRecoveryState
  dsimp only
  cases s.recoveryState with
  | notInRecovery =>
    dsimp only
    split_ifs with hlosses
    · exact ⟨_, _, _, _, rfl, .inr rfl, fun hnone => by simp [hnone] at hlosses⟩
    · exact ⟨_, _, _, _, rfl, .inl rfl, fun _ _ => ⟨rfl, rfl⟩⟩
  | conservation =>
    dsimp only
    split_ifs <;> exact ⟨_, _, _, _, rfl, .inl rfl, fun _ h => nomatch h⟩
  | growth =>
    dsimp only
    split_ifs <;> exact ⟨_, _, _, _, rfl, .inl rfl, fun _ h => nomatch h⟩

/-- The core of an ack with bytes is that of its round and its recovery. -/
theorem core_noteAckedBytes (s : Bbr) (bytesAcked : ℕ) :
    (s.noteAckedBytes F bytesAcked).1.core =
        s.noteRound.core.updateRecoveryState s.startsRound := by
  unfold noteAckedBytes
  dsimp only
  rw [core_updateAckAggregationBytes, core_updateRecoveryState, core_updateBandwidthAndMinRtt]

/-- The core after the model of the path is updated. A round may start, and recovery may begin or
end. -/
theorem endAckModel_spec (h : s.endAckModel F = .ok (s', o)) :
    s.flags.inAck = true ∧
      s'.core = (if 0 < s.ackState.ackBytes then
        s.leaveAck.noteRound.core.updateRecoveryState s.startsRound else s.leaveAck.core) ∧
      o.isRoundStart = (0 < s.ackState.ackBytes && s.startsRound) ∧
      o.bytesAcked = s.bwSampler.totalAcked - s.ackState.totalBytesAckedBefore := by
  unfold endAckModel at h
  split_ifs at h with hack
  obtain ⟨bytesAcked, hbytes, heq⟩ := Lib.map_eq_ok.mp h
  obtain rfl : bytesAcked = s.bwSampler.totalAcked - s.ackState.totalBytesAckedBefore := by
    unfold subtract at hbytes
    split_ifs at hbytes
    exact (Except.ok.inj hbytes).symm
  refine ⟨by simpa using hack, ?_⟩
  have hbefore : s.leaveAck.ackState.ackBytes = s.ackState.ackBytes := rfl
  rw [hbefore] at heq
  split_ifs at heq with hpos
  · obtain ⟨rfl, rfl⟩ := Prod.mk.inj heq
    rw [if_pos hpos, decide_eq_true hpos, Bool.true_and]
    exact ⟨core_noteAckedBytes s.leaveAck _, rfl, rfl⟩
  · obtain ⟨rfl, rfl⟩ := Prod.mk.inj heq
    rw [if_neg hpos, decide_eq_false hpos, Bool.false_and]
    exact ⟨rfl, rfl, rfl⟩

/-- The model of the path changes only rounds and recovery in the core. -/
theorem endAckModel_core (h : s.endAckModel F = .ok (s', o)) :
    ∃ roundCount recoveryState recoveryWindow currentRoundTripEnd endRecoveryAt,
      s'.core = { s.leaveAck.core with
        roundCount, recoveryState, recoveryWindow, currentRoundTripEnd, endRecoveryAt } := by
  obtain ⟨-, hcore, -, -⟩ := endAckModel_spec h
  rw [hcore]
  split_ifs
  · obtain ⟨_, _, _, _, heq, -, -⟩ := updateRecoveryState_eq s.leaveAck.noteRound.core s.startsRound
    rw [heq]
    unfold noteRound
    split_ifs <;> exact ⟨_, _, _, _, _, rfl⟩
  · exact ⟨_, _, _, _, _, rfl⟩

/-! ### Modes -/

/-- The phase of the gain cycle is about gains and times only. -/
theorem updateGainCyclePhase_eq (s : Bbr) (bytesInFlight : ℕ) :
    ∃ cycleCurrentOffset lastCycleStart pacingGain, s.updateGainCyclePhase F bytesInFlight =
      { s with cycleCurrentOffset, lastCycleStart, pacingGain } := by
  unfold updateGainCyclePhase
  dsimp only
  split_ifs <;> exact ⟨_, _, _, rfl⟩

theorem maybeUpdateGainCyclePhase_eq (s : Bbr) (bytesInFlight : ℕ) :
    ∃ cycleCurrentOffset lastCycleStart pacingGain, s.maybeUpdateGainCyclePhase F bytesInFlight =
      { s with cycleCurrentOffset, lastCycleStart, pacingGain } := by
  unfold maybeUpdateGainCyclePhase
  split_ifs
  · exact updateGainCyclePhase_eq s bytesInFlight
  · exact ⟨_, _, _, rfl⟩

@[simp] theorem core_maybeUpdateGainCyclePhase (s : Bbr) (bytesInFlight : ℕ) :
    (s.maybeUpdateGainCyclePhase F bytesInFlight).core = s.core := by
  obtain ⟨_, _, _, heq⟩ := maybeUpdateGainCyclePhase_eq (F := F) s bytesInFlight
  rw [heq]
  rfl

/-- A change of the mode, or none: the gain of the window may be another one of two. -/
def ModeChange (s s' : Bbr) : Prop :=
  ∃ gain, (gain = s.cwndGain ∨ gain = highCwndGain ∨ gain = kCwndGain) ∧
    s'.core = { s.core with cwndGain := gain }

theorem ModeChange.of_core_eq (h : s'.core = s.core) : ModeChange s s' := ⟨s.cwndGain, .inl rfl, h⟩

theorem ModeChange.trans {s₁ s₂ : Bbr} (h : ModeChange s s₁) (h' : ModeChange s₁ s₂) :
    ModeChange s s₂ := by
  obtain ⟨gain, hgain, hcore⟩ := h
  obtain ⟨gain', hgain', hcore'⟩ := h'
  have hone : s₁.cwndGain = gain := congrArg cwndGain hcore
  rw [hcore] at hcore'
  refine ⟨gain', ?_, hcore'⟩
  rcases hgain' with rfl | hgain'
  · rwa [hone]
  · exact .inr hgain'

private theorem modeChange_enterProbeBwMode (s : Bbr) (now random : ℕ) :
    ModeChange s (s.enterProbeBwMode now random) :=
  ⟨kCwndGain, .inr (.inr rfl), rfl⟩

theorem modeChange_maybeExitStartup (h : s.maybeExitStartup = .ok s') : ModeChange s s' := by
  unfold maybeExitStartup onExitStartup at h
  split_ifs at h
  · cases h
    exact ⟨highCwndGain, .inr (.inl rfl), rfl⟩
  · cases h
  · cases h
    exact .of_core_eq rfl

private theorem modeChange_maybeExitStartupOrDrain {now bytesInFlight random : ℕ}
    (h : s.maybeExitStartupOrDrain F now bytesInFlight random = .ok s') : ModeChange s s' := by
  obtain ⟨t, ht, rfl⟩ := Lib.map_eq_ok.mp h
  split_ifs
  · exact (modeChange_maybeExitStartup ht).trans (modeChange_enterProbeBwMode t now random)
  · exact modeChange_maybeExitStartup ht

private theorem core_maybeEnterProbeRtt {minRttExpired : Bool}
    (h : s.maybeEnterProbeRtt minRttExpired = .ok s') :
    s'.core = s.core := by
  unfold maybeEnterProbeRtt onExitStartup at h
  split_ifs at h <;> cases h <;> rfl

private theorem modeChange_maybeExitProbeRtt (s : Bbr) (now : ℕ) (isRoundStart : Bool)
    (bytesInFlight random : ℕ) :
    ModeChange s (s.maybeExitProbeRtt F now isRoundStart bytesInFlight random) := by
  unfold maybeExitProbeRtt
  dsimp only
  split
  · split
    · split_ifs <;> exact .of_core_eq rfl
    · split_ifs
      · exact ⟨kCwndGain, .inr (.inr rfl), rfl⟩
      · exact ⟨highCwndGain, .inr (.inl rfl), rfl⟩
      · exact .of_core_eq rfl
  · exact .of_core_eq rfl

private theorem modeChange_maybeEnterOrExitProbeRtt {now bytesInFlight random : ℕ}
    {isRoundStart minRttExpired : Bool}
    (h : s.maybeEnterOrExitProbeRtt F now isRoundStart minRttExpired bytesInFlight random =
      .ok s') :
    ModeChange s s' := by
  obtain ⟨t, ht, rfl⟩ := Lib.map_eq_ok.mp h
  have hexit := modeChange_maybeExitProbeRtt (F := F) t now isRoundStart bytesInFlight random
  exact ((ModeChange.of_core_eq (core_maybeEnterProbeRtt ht)).trans hexit).trans (.of_core_eq rfl)

/-- The modes change the core only by the check for full bandwidth, and the gain of the window. -/
theorem endAckMode_spec {bytesInFlight random : ℕ}
    (h : s.endAckMode F o bytesInFlight random = .ok s') :
    ∃ t, (s.maybeUpdateGainCyclePhase F bytesInFlight).checkRound F o.isRoundStart = .ok t ∧
      ModeChange t s' := by
  obtain ⟨t, hcheck, h⟩ := Lib.bind_eq_ok.mp h
  obtain ⟨u, hexit, h⟩ := Lib.bind_eq_ok.mp h
  exact ⟨t, hcheck,
    (modeChange_maybeExitStartupOrDrain hexit).trans (modeChange_maybeEnterOrExitProbeRtt h)⟩

private theorem core_calculatePacingRate (h : s.calculatePacingRate F = .ok s') :
    s'.core = s.core := by
  unfold calculatePacingRate at h
  dsimp only at h
  split_ifs at h
  · cases h
    rfl
  · cases h
    rfl
  · obtain ⟨rate, -, rfl⟩ := Lib.map_eq_ok.mp h
    rfl

/-- Only the check for full bandwidth, and the gain of the window, come between the model of the
path and the windows. -/
theorem beforeWindows_spec {bytesInFlight random : ℕ}
    (h : s.beforeWindows F bytesInFlight random = .ok (s', o)) :
    ∃ s₁ s₂, s.endAckModel F = .ok (s₁, o) ∧
      (s₁.maybeUpdateGainCyclePhase F bytesInFlight).checkRound F o.isRoundStart = .ok s₂ ∧
          ModeChange s₂ s' := by
  obtain ⟨⟨s₁, _⟩, hmodel, h⟩ := Lib.bind_eq_ok.mp h
  obtain ⟨s₃, hmode, h⟩ := Lib.bind_eq_ok.mp h
  obtain ⟨s₄, hrate, heq⟩ := Lib.map_eq_ok.mp h
  obtain ⟨rfl, rfl⟩ := Prod.mk.inj heq
  obtain ⟨s₂, hcheck, hchange⟩ := endAckMode_spec hmode
  exact ⟨s₁, s₂, hmodel, hcheck, hchange.trans (.of_core_eq (core_calculatePacingRate hrate))⟩

/-! ### The check for full bandwidth -/

/-- Counting a round changes the count, and whether the bandwidth is full. -/
theorem countRoundWoBwGain_spec (h : s.countRoundWoBwGain = .ok s') :
    s' = { s with
      roundWoBwGain := s.roundWoBwGain + 1
      flags := { s.flags with
        isAtFullBandwidth := s.flags.isAtFullBandwidth ||
          (numStartupRtts ≤ s.roundWoBwGain + 1 ∨ s.flags.exitStartupOnLoss ∧
              s.inRecovery) } } := by
  unfold countRoundWoBwGain at h
  dsimp only at h
  split_ifs at h with hfull
  · cases h
    have hfull' : numStartupRtts ≤ s.roundWoBwGain + 1 ∨ s.flags.exitStartupOnLoss ∧
      s.inRecovery := hfull
    rw [decide_eq_true hfull', Bool.or_true]
  · cases h
    have hfull' : ¬ (numStartupRtts ≤ s.roundWoBwGain + 1 ∨ s.flags.exitStartupOnLoss ∧
      s.inRecovery) := hfull
    rw [decide_eq_false hfull', Bool.or_false]

/-- The check for full bandwidth leaves everything else alone. -/
theorem checkRound_eq {isRoundStart : Bool} (h : s.checkRound F isRoundStart = .ok s') :
    ∃ roundWoBwGain bwAtLastRound maxAckHeight isAtFullBandwidth,
      s' = { s with
        roundWoBwGain, bwAtLastRound, maxAckHeight, flags :=
            { s.flags with isAtFullBandwidth } } := by
  unfold checkRound checkIfFullBwReached at h
  dsimp only at h
  split_ifs at h
  · cases h
    exact ⟨_, _, _, _, rfl⟩
  · cases h
    exact ⟨_, _, _, _, rfl⟩
  · rw [countRoundWoBwGain_spec h]
    exact ⟨_, _, _, _, rfl⟩
  · rw [countRoundWoBwGain_spec h]
    exact ⟨_, _, _, _, rfl⟩
  · cases h
    exact ⟨_, _, _, _, rfl⟩

end Dtp.Cc.Bbr
