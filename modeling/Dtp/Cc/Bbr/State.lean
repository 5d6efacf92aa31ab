import Mathlib.Algebra.Order.Ring.Unbundled.Rat
import Dtp.Lib.Keyed
import Dtp.Cc.BwSampler
import Dtp.Cc.Controller
import Dtp.Minmax

/-!
# BBR

The controller estimates the bandwidth of the path and its round-trip time, and derives from them
how much may be in flight. It looks for full bandwidth in `startUp`, drains what has piled up in
`drain`, then cycles through gains in `probeBw`, and from time to time measures the round-trip
time in `probeRtt`.

Fields that no function assigns are constants here. What floats make of a product is left open.

## Main definitions

* `Floats` — the products of floats that become integers again
* `Bbr`, `BbrFlags`, `BbrAckState` — the state of the controller
* `Bbr.bbrGetCwnd` — the window in each mode
* `Bbr.bbrSent`, `Bbr.bbrBeginAck`, `Bbr.bbrAck`, `Bbr.bbrLost` — what happens before the end of
  an ack
-/

namespace Dtp.Cc

/-! ### Constants -/

/-- The size of a segment, in bytes. -/
def kDefaultTCPMSS : ℕ := 1460

/-- The least that losses leave of the recovery window. -/
def kMaxSegmentSize : ℕ := kDefaultTCPMSS

/-- Constant based on TCP defaults: the smallest window. -/
def kDefaultMinimumCongestionWindow : ℕ := 4 * kDefaultTCPMSS

/-- 2/ln2 -/
def kDefaultHighGain : ℚ := 2885 / 1000

/-- The gain used in STARTUP after loss has been detected. -/
def kStartupAfterLossGain : ℚ := 3 / 2

/-- The initial window, in segments. -/
def kInitialCongestionWindow : ℕ := 32

/-- The largest window, in segments. -/
def kDefaultMaxCongestionWindowPackets : ℕ := 2000

/-- The time after which the current min_rtt value expires. -/
def kMinRttExpiry : ℕ := 10 * 10 ^ 9

/-- A round-trip time counts as similar up to this factor. -/
def kSimilarMinRttThreshold : ℚ := 9 / 8

/-- If the bandwidth does not increase by this factor within
`kRoundTripsWithoutGrowthBeforeExitingStartup` rounds, the connection will exit the STARTUP mode. -/
def kStartupGrowthTarget : ℚ := 5 / 4

/-- The rounds without growth after which STARTUP ends. -/
def kRoundTripsWithoutGrowthBeforeExitingStartup : ℕ := 3

/-- How strongly losses reduce the pacing rate of STARTUP: not at all. -/
def startupRateReductionMultiplier : ℕ := 0

/-- The length of the gain cycle. -/
def kGainCycleLength : ℕ := 8

/-- The cycle of gains used during the PROBE_BW stage. -/
def kPacingGain : ℕ → ℚ
  | 0 => 5 / 4
  | 1 => 3 / 4
  | _ => 1

/-- Coefficient of the target window to use when basing PROBE_RTT on BDP. -/
def kModerateProbeRttMultiplier : ℚ := 3 / 4

/-- The maximum outgoing packet size allowed. -/
def kMaxOutgoingPacketSize : ℕ := 1452

/-- The minimum time the connection can spend in PROBE_RTT mode. -/
def kProbeRttTime : ℕ := 200 * 10 ^ 6

/-- When in STARTUP and recovery, do not add the acked bytes to the window. -/
def flagsQuicBbrNoBytesAckedInStartupRecovery : Bool := false

/-- The gain of the window outside of STARTUP and DRAIN. -/
def kCwndGain : ℚ := 2

/-- The products of floats, as the integers that are made of them. -/
structure Floats where
  /-- `(value as f64 * factor) as u64`. -/
  times : ℕ → ℚ → ℕ
  /-- `(gain * (bytesPerSec as f64 * rtt.as_secs_f64())) as u64`. -/
  bdp : ℚ → ℕ → ℕ → ℕ
  /-- `(value as f64 * time.as_micros() as f64) as u64`. -/
  product : ℕ → ℕ → ℕ
  /-- `time.as_micros() as f64 > other.as_micros() as f64 * factor`. -/
  exceeds : ℕ → ℕ → ℚ → Bool

/-! ### The state -/

/-- What is collected between the beginning and the end of an ack. -/
structure BbrAckState where
  samples : List BwSample
  ackTime : ℕ
  maxPackno : ℕ
  ackBytes : ℕ
  lostBytes : ℕ
  totalBytesAckedBefore : ℕ
  inFlight : ℕ
  hasLosses : Bool

/-- The modes of the controller. -/
inductive BbrMode
  | startUp
  | drain
  | probeBw
  | probeRtt
  deriving DecidableEq

/-- Whether the controller is in recovery, and in which phase of it. -/
inductive BbrRecoveryState
  | notInRecovery
  | conservation
  | growth
  deriving DecidableEq

/-- The flags of the controller. -/
structure BbrFlags where
  /-- `bbrBeginAck` has been called. -/
  inAck : Bool
  lastSampleAppLimited : Bool
  hasNonAppLimited : Bool
  appLimitedSinceLastProbeRtt : Bool
  probeRttDisabledIfAppLimited : Bool
  probeRttSkippedIfSimilarRtt : Bool
  exitStartupOnLoss : Bool
  isAtFullBandwidth : Bool
  exitingQuiescence : Bool
  probeRttRoundPassed : Bool
  flexibleAppLimited : Bool
  /-- If true, will not exit low gain mode until bytes in flight drop below BDP or it's time for
  high gain mode. -/
  drainToTarget : Bool
  /-- When true, expire the windowed ack aggregation values in STARTUP when bandwidth increases more
  than 25%. -/
  expireAckAggInStartup : Bool
  /-- If true, use a window of 0.75 * BDP during probe_rtt instead of 4 packets. -/
  probeRttBasedOnBdp : Bool
  /-- When true, pace at 1.5x and disable packet conservation in STARTUP. -/
  slowerStartup : Bool
  /-- When true, add the most recent ack aggregation measurement during STARTUP. -/
  enableAckAggInStartup : Bool
  /-- When true, disables packet conservation in STARTUP. -/
  rateBasedStartup : Bool
  deriving DecidableEq

/-- No flag is set. -/
def BbrFlags.empty : BbrFlags :=
  ⟨false, false, false, false, false, false, false, false, false, false, false, false, false,
    false, false,
    false, false⟩

/-- The controller. -/
structure Bbr where
  bwSampler : BwSampler
  ackState : BbrAckState
  mode : BbrMode
  bytesInFlight : ℕ
  roundCount : ℕ
  maxBandwidth : Dtp.Bbr.Minmax
  maxAckHeight : Dtp.Bbr.Minmax
  aggregationEpochBytes : ℕ
  aggregationEpochStartTime : ℕ
  minRtt : ℕ
  minRttTimestamp : ℕ
  cwnd : ℕ
  pacingRate : ℕ
  pacingGain : ℚ
  cwndGain : ℚ
  cycleCurrentOffset : ℕ
  roundWoBwGain : ℕ
  bwAtLastRound : ℕ
  exitProbeRttAt : Option ℕ
  flags : BbrFlags
  recoveryWindow : ℕ
  lastSentPackno : ℕ
  recoveryState : BbrRecoveryState
  currentRoundTripEnd : ℕ
  endRecoveryAt : ℕ
  minRttSinceLastProbe : ℕ
  lastCycleStart : ℕ
  startupBytesLost : ℕ
  packetOutQue : List PacketOut

namespace Bbr

/-- The window of a new controller. -/
def initCwnd : ℕ := kInitialCongestionWindow * kDefaultTCPMSS

/-- The largest window. -/
def maxCwnd : ℕ := kDefaultMaxCongestionWindowPackets * kDefaultTCPMSS

/-- The smallest window. -/
def minCwnd : ℕ := kDefaultMinimumCongestionWindow

/-- The gain of the pacing rate in STARTUP. -/
def highGain : ℚ := kDefaultHighGain

/-- The gain of the window in STARTUP. -/
def highCwndGain : ℚ := kDefaultHighGain

/-- The gain of the pacing rate in DRAIN. -/
def drainGain : ℚ := 1 / kDefaultHighGain

/-- The rounds without growth after which the bandwidth is full. -/
def numStartupRtts : ℕ := kRoundTripsWithoutGrowthBeforeExitingStartup

/-- What `RttStatus` says, which is not updated. -/
def rttStatsGetMinRtt : ℕ := 0

/-- `Duration::from_micros(std::u64::MAX)`, which stands for no time. -/
def maxDuration : ℕ := u64Max * 1000

/-- A new controller is in STARTUP. -/
def new (now : ℕ) : Bbr where
  bwSampler := .new now
  ackState := ⟨[], now, 0, 0, 0, 0, 0, false⟩
  mode := .startUp
  bytesInFlight := 0
  roundCount := 0
  maxBandwidth := .new 10
  maxAckHeight := .new 10
  aggregationEpochBytes := 0
  aggregationEpochStartTime := now
  minRtt := 0
  minRttTimestamp := now
  cwnd := kInitialCongestionWindow * kDefaultTCPMSS
  pacingRate := 0
  pacingGain := kDefaultHighGain
  cwndGain := kDefaultHighGain
  cycleCurrentOffset := 0
  roundWoBwGain := 0
  bwAtLastRound := 0
  exitProbeRttAt := none
  flags := .empty
  recoveryWindow := 0
  lastSentPackno := 0
  recoveryState := .notInRecovery
  currentRoundTripEnd := 0
  endRecoveryAt := 0
  minRttSinceLastProbe := 0
  lastCycleStart := now
  startupBytesLost := 0
  packetOutQue := []

/-! ### The window -/

/-- The least round-trip time, or a default before there is one. -/
def getMinRtt (s : Bbr) : ℕ :=
  if 0 < s.minRtt then s.minRtt
  else if rttStatsGetMinRtt = 0 then 25000 * 1000
  else rttStatsGetMinRtt

variable (F : Floats)

/-- The product of bandwidth and delay, times a gain, and not less than the smallest window. -/
def getTargetCwnd (s : Bbr) (gain : ℚ) : ℕ :=
  let bytesPerSec := s.maxBandwidth.minmaxGet / 8
  let cwnd := F.bdp gain bytesPerSec s.getMinRtt
  let cwnd := if cwnd = 0 then F.times initCwnd gain else cwnd
  max cwnd minCwnd

/-- The controller is in recovery. -/
def inRecovery (s : Bbr) : Bool := s.recoveryState ≠ .notInRecovery

/-- The window while the round-trip time is probed. -/
def getProbeRttCwnd (s : Bbr) : ℕ :=
  if s.flags.probeRttBasedOnBdp then s.getTargetCwnd F kModerateProbeRttMultiplier else minCwnd

/-- The window of the current mode. In recovery it is bounded by the recovery window. -/
def bbrGetCwnd (s : Bbr) : ℕ :=
  if s.mode = .probeRtt then s.getProbeRttCwnd F
  else if s.inRecovery ∧
    ¬ (s.flags.rateBasedStartup ∧ s.mode = .startUp) then min s.cwnd s.recoveryWindow
  else s.cwnd

/-- There are enough bytes in flight to measure the bandwidth. -/
def isPipeSufficientlyFull (s : Bbr) (bytesInFlight : ℕ) : Bool :=
  if s.mode = .startUp then s.getTargetCwnd F (3 / 2) ≤ bytesInFlight
  else if 1 < s.pacingGain then s.getTargetCwnd F s.pacingGain ≤ bytesInFlight
  else s.getTargetCwnd F (11 / 10) ≤ bytesInFlight

/-! ### Sent, acked and lost packets -/

/-- The sampler enters its app-limited phase. -/
def samplerAppLimited (s : Bbr) : Bbr := { s with bwSampler := s.bwSampler.bwSamplerAppLimited }

/-- The application has nothing to send, while there is room for it. -/
def bbrAppLimited (s : Bbr) (bytesInFlight : ℕ) : Bbr :=
  if s.bbrGetCwnd F ≤ bytesInFlight then s
  else if s.flags.flexibleAppLimited ∧ s.isPipeSufficientlyFull F bytesInFlight then s
  else { s with flags := { s.flags with appLimitedSinceLastProbeRtt := true } }.samplerAppLimited

/-- A packet is sent, and leaves with the state of the sampler. -/
def bbrSent (s : Bbr) (packetOut : PacketOut) (inFlight : ℕ) (appLimit : Bool) (poPackno : ℕ) :
    Bbr × PacketOut :=
  let (bwSampler, packetOut) := s.bwSampler.packetSent packetOut inFlight
  let s := { s with
    bwSampler, lastSentPackno := poPackno, bytesInFlight := s.bytesInFlight + packetOut.size }
  (if appLimit then s.bbrAppLimited F inFlight else s, packetOut)

/-- An ack begins. It has to end before the next one begins. -/
def bbrBeginAck (s : Bbr) (ackTime bytesInFlight : ℕ) : Except Fault Bbr :=
  if s.flags.inAck then .error .panic
  else .ok { s with
    flags := { s.flags with inAck := true }
    ackState := ⟨[], ackTime, u64Max, 0, 0, s.bwSampler.totalAcked, bytesInFlight, false⟩ }

/-- A packet is acked, during an ack. -/
def bbrAck (s : Bbr) (packetOut : PacketOut) (packetSz : ℕ) : Except Fault Bbr :=
  if ¬ s.flags.inAck then .error .panic
  else
    (s.bwSampler.packetAcked packetOut s.ackState.ackTime).map fun (sample, bwSampler, packetOut) =>
      { s with
        bwSampler
        ackState := { s.ackState with
          samples := s.ackState.samples ++ sample.toList
          maxPackno := max s.ackState.maxPackno packetOut.poPackno
          ackBytes := s.ackState.ackBytes + packetSz } }

/-- A packet is lost. -/
def bbrLost (s : Bbr) (packetOut : PacketOut) (packetSz : ℕ) : Bbr × PacketOut :=
  let (bwSampler, packetOut) := s.bwSampler.packetLost packetOut
  ({ s with
    bwSampler
    ackState :=
      { s.ackState with hasLosses := true, lostBytes := s.ackState.lostBytes + packetSz } },
    packetOut)

end Bbr

end Dtp.Cc
