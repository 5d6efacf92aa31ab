import Dtp.Cc.Bbr.State

/-!
# The end of an ack

Once all packets of an ack are reported, BBR takes stock: whether a round has started, what the
bandwidth and the round-trip time are, in which mode it is to be, and how large its windows are.

## Main definitions

* `Bbr.endAckModel` — rounds, bandwidth, round-trip time and recovery
* `Bbr.endAckMode` — the mode and its gains
* `Bbr.calculateCwnd`, `Bbr.calculateRecoveryWindow` — the windows
* `Bbr.bbrEndAck` — all of it
* `bbr` — BBR as a congestion controller
-/

namespace Dtp.Cc

/-- What an ack says about its round. -/
structure AckOutcome where
  isRoundStart : Bool
  minRttExpired : Bool
  bytesAcked : ℕ
  excessAcked : ℕ

namespace Bbr

variable (F : Floats)

/-! ### Rounds, bandwidth and recovery -/

/-- Whether an ack with these packets starts a round. -/
def startsRound (s : Bbr) : Bool :=
  s.currentRoundTripEnd < s.ackState.maxPackno ∨ ¬ s.currentRoundTripEnd < 2 ^ 61

/-- Counts a round, and notes where it ends. -/
def noteRound (s : Bbr) : Bbr :=
  if s.startsRound then
    { s with roundCount := s.roundCount + 1, currentRoundTripEnd := s.lastSentPackno }
  else s

/-- The minimum of the round-trip time need not be measured again yet. -/
def shouldExtendMinRttExpiry (s : Bbr) : Bool :=
  let increasedSinceLastProbe := F.exceeds s.minRttSinceLastProbe s.minRtt kSimilarMinRttThreshold
  -- Extend the current min_rtt if we've been app limited recently, and an rtt has been measured
  -- in that time that is similar.
  s.flags.appLimitedSinceLastProbeRtt ∧ s.flags.probeRttDisabledIfAppLimited ∨
    s.flags.appLimitedSinceLastProbeRtt ∧ s.flags.probeRttSkippedIfSimilarRtt ∧
      ¬ increasedSinceLastProbe

/-- Takes a sample into account, and its time if it is the smallest so far. -/
def observeSample (acc : Bbr × ℕ) (sample : BwSample) : Bbr × ℕ :=
  let (s, sampleMinRtt) := acc
  let flags :=
    if sample.isAppLimited then { s.flags with lastSampleAppLimited := true }
    else { s.flags with lastSampleAppLimited := false, hasNonAppLimited := true }
  let maxBandwidth :=
    if ¬ sample.isAppLimited ∨ s.maxBandwidth.minmaxGet < sample.bandwidth then
      s.maxBandwidth.minmaxUpmax s.roundCount sample.bandwidth
    else s.maxBandwidth
  ({ s with flags, maxBandwidth },
    if sampleMinRtt = maxDuration ∨ sample.rtt < sampleMinRtt then sample.rtt else sampleMinRtt)

/-- Updates the smallest round-trip time by that of the samples. Returns whether it has expired. -/
def updateMinRtt (s : Bbr) (sampleMinRtt : ℕ) : Bbr × Bool :=
  let s := { s with minRttSinceLastProbe := min s.minRttSinceLastProbe sampleMinRtt }
  let minRttExpired : Bool := s.minRtt ≠ 0 ∧ s.minRttTimestamp + kMinRttExpiry < s.ackState.ackTime
  if minRttExpired ∨ sampleMinRtt < s.minRtt ∨ s.minRtt = 0 then
    let extended := minRttExpired && s.shouldExtendMinRttExpiry F
    ({ s with
      minRtt := if extended then s.minRtt else sampleMinRtt
      minRttTimestamp := s.ackState.ackTime
      minRttSinceLastProbe := maxDuration
      flags := { s.flags with appLimitedSinceLastProbeRtt := false } },
      minRttExpired && !extended)
  else (s, minRttExpired)

/-- Updates the estimates by the samples of the ack, and says whether the minimum of the round-trip
time has expired. -/
def updateBandwidthAndMinRtt (s : Bbr) : Bbr × Bool :=
  let (s, sampleMinRtt) := s.ackState.samples.foldl observeSample (s, maxDuration)
  if sampleMinRtt = maxDuration then (s, false) else s.updateMinRtt F sampleMinRtt

/-- Losses start recovery, which ends after a round without losses. -/
def updateRecoveryState (s : Bbr) (isRoundStart : Bool) : Bbr :=
  -- Exit recovery when there are no losses for a round.
  let s := { s with
    endRecoveryAt := if s.ackState.hasLosses then s.lastSentPackno else s.endRecoveryAt }
  match s.recoveryState with
  | .notInRecovery =>
    if s.ackState.hasLosses then
      { s with
        recoveryState := .conservation, recoveryWindow := 0, currentRoundTripEnd :=
          s.lastSentPackno }
    else s
  | .conservation => if isRoundStart then { s with recoveryState := .growth } else s
  | .growth =>
    if ¬ s.ackState.hasLosses ∧ s.endRecoveryAt < s.ackState.maxPackno then
      { s with recoveryState := .notInRecovery }
    else s

/-- The bytes acked beyond what the bandwidth explains. -/
def updateAckAggregationBytes (s : Bbr) (newlyAckedBytes : ℕ) : Bbr × ℕ :=
  let ackTime := s.ackState.ackTime
  let expectedBytesAcked :=
    F.product s.maxBandwidth.minmaxGet (ackTime - s.aggregationEpochStartTime)
  if s.aggregationEpochBytes ≤ expectedBytesAcked then
    -- Reset to start measuring a new aggregation epoch.
    ({ s with aggregationEpochBytes := newlyAckedBytes, aggregationEpochStartTime := ackTime }, 0)
  else
    -- Include the bytes most recently acknowledged to account for stretch acks.
    let aggregationEpochBytes := s.aggregationEpochBytes + newlyAckedBytes
    let diff := aggregationEpochBytes - expectedBytesAcked
    ({ s with aggregationEpochBytes, maxAckHeight := s.maxAckHeight.minmaxUpmax s.roundCount diff },
      diff)

/-- What an ack that acks bytes changes in the model of the path. -/
def noteAckedBytes (s : Bbr) (bytesAcked : ℕ) : Bbr × AckOutcome :=
  let isRoundStart := s.startsRound
  let (s, minRttExpired) := s.noteRound.updateBandwidthAndMinRtt F
  let (s, excessAcked) :=
    (s.updateRecoveryState isRoundStart).updateAckAggregationBytes F bytesAcked
  (s, { isRoundStart, minRttExpired, bytesAcked, excessAcked })

/-- The ack has ended. -/
def leaveAck (s : Bbr) : Bbr := { s with flags := { s.flags with inAck := false } }

/-- What an ack changes in the model of the path. -/
def endAckModel (s : Bbr) : Except Fault (Bbr × AckOutcome) :=
  if ¬ s.flags.inAck then .error .panic
  else
    let s := s.leaveAck
    (subtract s.bwSampler.totalAcked s.ackState.totalBytesAckedBefore).map fun bytesAcked =>
      if 0 < s.ackState.ackBytes then s.noteAckedBytes F bytesAcked
      else (s, { isRoundStart := false, minRttExpired := false, bytesAcked, excessAcked := 0 })

/-! ### Modes -/

/-- Moves on to the next gain of the cycle, if it is time. -/
def updateGainCyclePhase (s : Bbr) (bytesInFlight : ℕ) : Bbr :=
  let now := s.ackState.ackTime
  -- In most cases, the cycle is advanced after an RTT passes.
  let advance : Bool := s.getMinRtt < now - s.lastCycleStart
  -- If the pacing gain is above 1.0, make sure that the bytes in flight actually reach the target.
  let advance : Bool :=
    advance ∧ ¬ (1 < s.pacingGain ∧ ¬ s.ackState.hasLosses ∧
      s.ackState.inFlight < s.getTargetCwnd F s.pacingGain)
  -- If the pacing gain is below 1.0, the queue may have been drained early.
  let advance : Bool := advance ∨ s.pacingGain < 1 ∧ bytesInFlight ≤ s.getTargetCwnd F 1
  if advance then
    let cycleCurrentOffset := (s.cycleCurrentOffset + 1) % kGainCycleLength
    let s := { s with cycleCurrentOffset, lastCycleStart := now }
    -- Stay in low gain mode until the target BDP is hit.
    if s.flags.drainToTarget ∧ s.pacingGain < 1 ∧ kPacingGain cycleCurrentOffset = 1 ∧
        s.getTargetCwnd F 1 < bytesInFlight then s
    else { s with pacingGain := kPacingGain cycleCurrentOffset }
  else s

/-- Whether the bandwidth has grown enough since the last time it did. -/
def hasGrown (s : Bbr) : Bool :=
  F.times s.bwAtLastRound kStartupGrowthTarget ≤ s.maxBandwidth.minmaxGet

/-- Counts a round without growth, the last one of which reaches full bandwidth. -/
def countRoundWoBwGain (s : Bbr) : Except Fault Bbr :=
  let s := { s with roundWoBwGain := s.roundWoBwGain + 1 }
  if numStartupRtts ≤ s.roundWoBwGain ∨ s.flags.exitStartupOnLoss ∧ s.inRecovery then
    if ¬ s.flags.hasNonAppLimited then .error .panic
    else .ok { s with flags := { s.flags with isAtFullBandwidth := true } }
  else .ok s

/-- Counts the rounds in which the bandwidth did not grow. -/
def checkIfFullBwReached (s : Bbr) : Except Fault Bbr :=
  if s.flags.lastSampleAppLimited then .ok s
  else if s.hasGrown F then
    let s := { s with bwAtLastRound := s.maxBandwidth.minmaxGet, roundWoBwGain := 0 }
    if s.flags.expireAckAggInStartup then
      -- Expire old excess delivery measurements now that bandwidth increased.
      .ok { s with maxAckHeight := s.maxAckHeight.minmaxReset ⟨s.roundCount, 0⟩ }
    else s.countRoundWoBwGain
  else s.countRoundWoBwGain

/-- Only STARTUP can be left. -/
def onExitStartup (s : Bbr) : Except Fault Bbr := if s.mode = .startUp then .ok s else .error .panic

/-- PROBE_BW begins at a random gain of the cycle, other than the low one. -/
def enterProbeBwMode (s : Bbr) (now random : ℕ) : Bbr :=
  -- Pick a random offset for the gain cycle out of {0, 2..7} range.
  let offset := random % (kGainCycleLength - 1)
  let offset := if 1 ≤ offset then offset + 1 else offset
  { s with
    mode := .probeBw
    cwndGain := kCwndGain
    cycleCurrentOffset := offset
    lastCycleStart := now
    pacingGain := kPacingGain offset }

/-- STARTUP begins. -/
def enterStartupMode (s : Bbr) : Bbr :=
  { s with mode := .startUp, pacingGain := highGain, cwndGain := highCwndGain }

/-- Leaves STARTUP once full bandwidth is reached. -/
def maybeExitStartup (s : Bbr) : Except Fault Bbr :=
  if s.mode = .startUp ∧ s.flags.isAtFullBandwidth then
    s.onExitStartup.map fun s =>
      { s with mode := .drain, pacingGain := drainGain, cwndGain := highCwndGain }
  else .ok s

/-- STARTUP ends with full bandwidth, and DRAIN when enough is drained. -/
def maybeExitStartupOrDrain (s : Bbr) (now bytesInFlight random : ℕ) : Except Fault Bbr :=
  s.maybeExitStartup.map fun s =>
    if s.mode = .drain ∧
      bytesInFlight ≤ s.getTargetCwnd F 1 then s.enterProbeBwMode now random else s

/-- Enters PROBE_RTT once the smallest round-trip time has expired. -/
def maybeEnterProbeRtt (s : Bbr) (minRttExpired : Bool) : Except Fault Bbr :=
  if minRttExpired ∧ ¬ s.flags.exitingQuiescence ∧ s.mode ≠ .probeRtt then
    (if s.mode = .startUp then s.onExitStartup else .ok s).map fun s =>
      { s with mode := .probeRtt, pacingGain := 1, exitProbeRttAt := none }
  else .ok s

/-- Leaves PROBE_RTT once a round has passed with few bytes in flight. -/
def maybeExitProbeRtt (s : Bbr) (now : ℕ) (isRoundStart : Bool) (bytesInFlight random : ℕ) : Bbr :=
  if s.mode = .probeRtt then
    let s := s.samplerAppLimited
    match s.exitProbeRttAt with
    | none =>
      -- If the window has reached the appropriate size, schedule exiting PROBE_RTT.
      if bytesInFlight < s.getProbeRttCwnd F + kMaxOutgoingPacketSize then
        { s with
          exitProbeRttAt := some (now + kProbeRttTime)
          flags := { s.flags with probeRttRoundPassed := false } }
      else s
    | some exitAt =>
      let flags :=
        { s.flags with probeRttRoundPassed := s.flags.probeRttRoundPassed || isRoundStart }
      let s : Bbr := { s with flags }
      if exitAt ≤ now ∧ s.flags.probeRttRoundPassed then
        let s : Bbr := { s with minRttTimestamp := now }
        if ¬ s.flags.isAtFullBandwidth then s.enterStartupMode else s.enterProbeBwMode now random
      else s
  else s

/-- PROBE_RTT begins when the minimum of the round-trip time expires, and ends some time after the
bytes in flight have become few. -/
def maybeEnterOrExitProbeRtt (s : Bbr) (now : ℕ) (isRoundStart minRttExpired : Bool)
    (bytesInFlight random : ℕ) : Except Fault Bbr :=
  (s.maybeEnterProbeRtt minRttExpired).map fun s =>
    let s := s.maybeExitProbeRtt F now isRoundStart bytesInFlight random
    { s with flags := { s.flags with exitingQuiescence := false } }

/-- Checks for full bandwidth when a round starts. -/
def checkRound (s : Bbr) (isRoundStart : Bool) : Except Fault Bbr :=
  if isRoundStart ∧ ¬ s.flags.isAtFullBandwidth then s.checkIfFullBwReached F else .ok s

/-- The phase of the gain cycle, in the mode that has one. -/
def maybeUpdateGainCyclePhase (s : Bbr) (bytesInFlight : ℕ) : Bbr :=
  if s.mode = .probeBw then s.updateGainCyclePhase F bytesInFlight else s

/-- What an ack changes in the mode. -/
def endAckMode (s : Bbr) (outcome : AckOutcome) (bytesInFlight random : ℕ) : Except Fault Bbr :=
  ((s.maybeUpdateGainCyclePhase F bytesInFlight).checkRound F outcome.isRoundStart).bind fun s =>
    (s.maybeExitStartupOrDrain F s.ackState.ackTime bytesInFlight random).bind fun s =>
      s.maybeEnterOrExitProbeRtt F s.ackState.ackTime outcome.isRoundStart outcome.minRttExpired
        bytesInFlight random

/-! ### The rate and the windows -/

/-- The pacing rate in STARTUP. -/
def startupPacingRate (s : Bbr) (bw targetRate : ℕ) : Except Fault ℕ :=
  -- Slow the pacing rate in STARTUP once loss has ever been detected.
  let hasEverDetectedLoss : Bool := s.endRecoveryAt ≠ 0
  if s.pacingRate = 0 ∧ rttStatsGetMinRtt ≠ 0 then
    -- Pace at the rate of initial_window / RTT as soon as RTT measurements are available.
    Bandwidth.bwFromBytesAndDelta initCwnd (asMicros rttStatsGetMinRtt)
  else if hasEverDetectedLoss ∧ s.flags.slowerStartup ∧ s.flags.hasNonAppLimited then
    .ok (F.times bw kStartupAfterLossGain)
  else if startupRateReductionMultiplier ≠ 0 ∧ hasEverDetectedLoss ∧ s.flags.hasNonAppLimited then
    -- The rate does not drop below the growth target times the bandwidth estimate.
    .ok (max (F.times bw kStartupGrowthTarget)
      (F.times targetRate (1 - s.startupBytesLost * startupRateReductionMultiplier / s.cwndGain)))
  else
    -- Do not decrease the pacing rate during startup.
    .ok (max s.pacingRate targetRate)

/-- The pacing rate from bandwidth and gain. In STARTUP it does not decrease. -/
def calculatePacingRate (s : Bbr) : Except Fault Bbr :=
  let bw := s.maxBandwidth.minmaxGet
  let targetRate := F.times bw s.pacingGain
  if bw = 0 then .ok s
  else if s.flags.isAtFullBandwidth then .ok { s with pacingRate := targetRate }
  else (s.startupPacingRate F bw targetRate).map fun pacingRate => { s with pacingRate }

/-- The window that an ack aims at. -/
def targetWindow (s : Bbr) (excessAcked : ℕ) : ℕ :=
  let target := s.getTargetCwnd F s.cwndGain
  if s.flags.isAtFullBandwidth then
    -- Add the max recently measured ack aggregation to CWND.
    target + s.maxAckHeight.minmaxGet
  else if s.flags.enableAckAggInStartup then
    -- Add the most recent excess acked.
    target + excessAcked
  else target

/-- The window before its limits are enforced. -/
def grownCwnd (s : Bbr) (bytesAcked excessAcked : ℕ) : ℕ :=
  let target := s.targetWindow F excessAcked
  let addBytesAcked : Bool := ¬ flagsQuicBbrNoBytesAckedInStartupRecovery ∨ ¬ s.inRecovery
  if s.flags.isAtFullBandwidth then min target (s.cwnd + bytesAcked)
  else if addBytesAcked ∧ (s.cwndGain < asF64 target ∨ s.bwSampler.totalAcked < initCwnd) then
    -- If the connection is not yet out of startup phase, do not decrease the window.
    s.cwnd + bytesAcked
  else s.cwnd

/-- The window grows towards its target, and stays within its limits. -/
def calculateCwnd (s : Bbr) (bytesAcked excessAcked : ℕ) : Bbr :=
  if s.mode = .probeRtt then s
  else
    let cwnd := s.grownCwnd F bytesAcked excessAcked
    -- Enforce the limits on the congestion window.
    { s with cwnd := if cwnd < minCwnd then minCwnd else if maxCwnd < cwnd then maxCwnd else cwnd }

/-- The recovery window without its losses, with the bytes acked in growth. -/
def shrunkRecoveryWindow (s : Bbr) (bytesAcked bytesLost : ℕ) : ℕ :=
  -- accounting for a potential integer underflow
  let window :=
    if bytesLost ≤ s.recoveryWindow then s.recoveryWindow - bytesLost else kMaxSegmentSize
  if s.recoveryState = .growth then window + bytesAcked else window

/-- In recovery, losses shrink the recovery window, and acks open it in growth. -/
def calculateRecoveryWindow (s : Bbr) (bytesAcked bytesLost bytesInFlight : ℕ) : Bbr :=
  if s.flags.rateBasedStartup ∧ s.mode = .startUp then s
  else if s.recoveryState = .notInRecovery then s
  else if s.recoveryWindow = 0 then
    -- Set up the initial recovery window.
    { s with recoveryWindow := max minCwnd (bytesInFlight + bytesAcked) }
  else
    let window := s.shrunkRecoveryWindow bytesAcked bytesLost
    -- Always allow to send at least an MSS or the bytes acked in response.
    { s with recoveryWindow := max (max window (bytesInFlight + bytesAcked)) minCwnd }

/-- The state in which the windows are calculated. -/
def beforeWindows (s : Bbr) (bytesInFlight random : ℕ) : Except Fault (Bbr × AckOutcome) :=
  (s.endAckModel F).bind fun (s, outcome) =>
    (s.endAckMode F outcome bytesInFlight random).bind fun s =>
      (s.calculatePacingRate F).map fun s => (s, outcome)

/-- The end of an ack: estimates, modes, pacing rate and windows, in this order. -/
def bbrEndAck (s : Bbr) (bytesInFlight random : ℕ) : Except Fault Bbr :=
  (s.beforeWindows F bytesInFlight random).map fun (s, outcome) =>
    (s.calculateCwnd F outcome.bytesAcked outcome.excessAcked).calculateRecoveryWindow
      outcome.bytesAcked s.ackState.lostBytes bytesInFlight

/-! ### BBR as a congestion controller -/

/-- A packet is sent and queued. -/
def onPacketSentCc (s : Bbr) (pkt : Sent) : Bbr :=
  let (s, packetOut) :=
    s.bbrSent F ⟨pkt.pktNum, pkt.time, pkt.size, none, pkt.time⟩ s.bytesInFlight false pkt.pktNum
  { s with packetOutQue := Lib.insertKey PacketOut.poPackno packetOut s.packetOutQue }

/-- The packet with a number, as it is queued. -/
def queued (s : Bbr) (pktNum : ℕ) : Option PacketOut :=
  s.packetOutQue.find? fun p => p.poPackno == pktNum

/-- A packet is acked. Its bytes are subtracted unchecked. -/
def onPacketAckedCc (s : Bbr) (packet : Sent) : Except Fault Bbr :=
  (subtract s.bytesInFlight packet.size).bind fun bytesInFlight =>
    let s := { s with bytesInFlight }
    match s.queued packet.pktNum with
    | none => .ok s
    | some packetOut =>
      { s with
        packetOutQue := s.packetOutQue.filter fun p => p.poPackno ≠ packet.pktNum }.bbrAck packetOut
          packet.size

/-- Bytes are subtracted unchecked. -/
def decreaseBytesInFlight (s : Bbr) (bytes : ℕ) : Except Fault Bbr :=
  (subtract s.bytesInFlight bytes).map fun bytesInFlight => { s with bytesInFlight }

/-- The window is the initial one again. -/
def collapseCwnd (s : Bbr) : Bbr := { s with cwnd := kInitialCongestionWindow * kDefaultTCPMSS }

end Bbr

/-- BBR does not react to a congestion event. -/
def bbr (F : Floats) : CongestionControl Bbr where
  cwnd s := s.bbrGetCwnd F
  bytesInFlight s := s.bytesInFlight
  decreaseBytesInFlight s bytes := s.decreaseBytesInFlight bytes
  collapseCwnd s := s.collapseCwnd
  onPacketSentCc s pkt _ := .ok (s.onPacketSentCc F pkt)
  onPacketAckedCc s a := s.onPacketAckedCc a.packet
  congestionEvent s _ := .ok s
  ccBbrBeginAck s ackTime := s.bbrBeginAck ackTime s.bytesInFlight
  ccBbrEndAck s random := s.bbrEndAck F s.bytesInFlight random

end Dtp.Cc
