import Dtp.Cc.Controller

/-!
# HyStart++

Slow start ends when the delay grows. Time is cut into rounds: a round begins with a packet that
is sent, and ends when it or a later one is acked. If the smallest round-trip time of a round
exceeds that of the round before by a threshold, limited slow start is entered.

## Main definitions

* `Hystart` — the state of HyStart++
* `Hystart.startRound`, `Hystart.tryEnterLss` — the packets sent and acked
* `Hystart.rttThresh` — the threshold

## Main results

* `Hystart.tryEnterLss_of_none` — without a round before, there is no way out of slow start
-/

namespace Dtp.Cc

/-- The window from which on rounds are compared, in packets. -/
def lowCwnd : ℕ := 16

/-- 4 ms, in nanoseconds. -/
def minRttThresh : ℕ := 4000000

/-- 16 ms, in nanoseconds. -/
def maxRttThresh : ℕ := 16000000

/-- The samples of a round that are waited for. -/
def nRttSample : ℕ := 8

/-- RFC3465 Slow Start burst limit constant. -/
def abcL : ℕ := 2

/-- HyStart++. -/
structure Hystart where
  enabled : Bool
  windowEnd : Option ℕ
  lastRoundMinRtt : Option ℕ
  currentRoundMinRtt : Option ℕ
  rttSampleCount : ℕ
  lssStartTime : Option ℕ
  deriving DecidableEq

namespace Hystart

/-- No round was started. -/
def new (enabled : Bool) : Hystart := ⟨enabled, none, none, none, 0, none⟩

/-- Limited slow start was entered. -/
def inLss (h : Hystart) (epoch : Epoch) : Bool :=
  h.enabled && epoch = .application && h.lssStartTime.isSome

/-- Starts a round with a packet that is sent, unless one is going on. -/
def startRound (h : Hystart) (pktNum : ℕ) : Hystart :=
  if h.windowEnd.isNone then
    { enabled := h.enabled
      windowEnd := some pktNum
      lastRoundMinRtt := h.currentRoundMinRtt
      currentRoundMinRtt := none
      rttSampleCount := 0
      lssStartTime := none }
  else h

/-- clamp(min_rtt_thresh, last_round_min_rtt/8, max_rtt_thresh) -/
def rttThresh (lastRoundMinRtt : ℕ) : ℕ := min (max (lastRoundMinRtt / 8) minRttThresh) maxRttThresh

/-- The smallest of the round-trip times of the round. -/
def minRtt (currentRoundMinRtt : Option ℕ) (rtt : ℕ) : ℕ :=
  match currentRoundMinRtt with
  | some current => min current rtt
  | none => rtt

/-- Takes a round-trip time, and returns whether limited slow start was entered. -/
def tryEnterLss (h : Hystart) (packet : Sent) (rtt cwnd now maxDatagramSize : ℕ) : Bool × Hystart :=
  let h :=
    if h.lssStartTime.isNone then
      let h := { h with
        currentRoundMinRtt := some (minRtt h.currentRoundMinRtt rtt)
        rttSampleCount := h.rttSampleCount + 1 }
      let h :=
        match h.currentRoundMinRtt, h.lastRoundMinRtt with
        | some current, some last =>
          if lowCwnd * maxDatagramSize ≤ cwnd ∧ nRttSample ≤ h.rttSampleCount ∧
              last + rttThresh last ≤ current then
            { h with lssStartTime := some now }
          else h
        | _, _ => h
      -- Check if we reached the end of the round.
      match h.windowEnd with
      | some endPktNum => if endPktNum ≤ packet.pktNum then { h with windowEnd := none } else h
      | none => h
    else h
  (h.lssStartTime.isSome, h)

/-- A new window during limited slow start. The ratio `k` of the window to a quarter of the
threshold is given, since it is not a natural. -/
def lssCwnd (k : ℕ → ℕ → ℕ) (pktSize bytesAcked cwnd ssthresh maxDatagramSize : ℕ) :
    Except Fault ℕ :=
  if k cwnd ssthresh = 0 then .error .panic
  else
    let limit := maxDatagramSize * abcL
    .ok (cwnd + min pktSize (limit - min bytesAcked limit) / k cwnd ssthresh)

/-- Exits HyStart++ when entering congestion avoidance. -/
def congestionEvent (h : Hystart) : Hystart := { h with windowEnd := none, lssStartTime := none }

variable {h : Hystart}

theorem inLss_of_none (hnone : h.lssStartTime = none) (epoch : Epoch) : h.inLss epoch = false := by
  simp [inLss, hnone]

/-- Without a round before, limited slow start is not entered, and no round follows. -/
theorem tryEnterLss_of_none (hlss : h.lssStartTime = none) (hlast : h.lastRoundMinRtt = none)
    (packet : Sent) (rtt cwnd now maxDatagramSize : ℕ) :
    (h.tryEnterLss packet rtt cwnd now maxDatagramSize).1 = false ∧
      (h.tryEnterLss packet rtt cwnd now maxDatagramSize).2.lssStartTime = none ∧
      (h.tryEnterLss packet rtt cwnd now maxDatagramSize).2.lastRoundMinRtt = none := by
  unfold tryEnterLss
  rw [hlss]
  simp only [Option.isNone_none, if_true, hlast]
  split
  · split_ifs <;> exact ⟨rfl, rfl, rfl⟩
  · exact ⟨rfl, rfl, rfl⟩

end Hystart

end Dtp.Cc
