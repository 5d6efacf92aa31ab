import Mathlib.Order.Basic
import Dtp.Lib.Results
import Dtp.Lib.Runs
import Dtp.Error

/-!
# The bandwidth sampler of BBR

When a packet is sent, it is stamped with the bytes sent and acked so far, and with the last ack
as a point of reference. When it is acked, two rates follow: that of the bytes sent since the
reference, and that of the bytes acked since it. The smaller one is the sample.

Times are nanoseconds, but rates divide by whole microseconds. So two times that differ may be no
microsecond apart.

## Main definitions

* `BwSampler`, `BwSampler.packetSent`, `BwSampler.packetAcked` — the sampler
* `Sampling` — a sampler with the packets that are out
* `Sampling.Total` — an event does not fail, and a sample is at most the rate of acks
* `Sampling.Apart` — times that differ are at least a microsecond apart

## Main results

* `Sampling.total_iff` — no event of a run fails, exactly if its times are apart
-/

namespace Dtp.Cc

/-- `a - b`, which panics if it is negative. -/
def subtract (a b : ℕ) : Except Fault ℕ := if a < b then .error .underflow else .ok (a - b)

/-- A difference that is not negative. -/
theorem subtract_of_le {a b : ℕ} (h : b ≤ a) : subtract a b = .ok (a - b) := if_neg h.not_gt

/-- The whole microseconds of a duration, as a `u64`. -/
def asMicros (nanos : ℕ) : ℕ := nanos / 1000 % 2 ^ 64

namespace Bandwidth

/-- The bandwidth where no time has passed. -/
def bwInfinite : ℕ := u64Max

/-- Bits per second. The product wraps around, the division by zero panics. -/
def bwFromBytesAndDelta (bytes usecs : ℕ) : Except Fault ℕ :=
  if usecs = 0 then .error .panic else .ok (bytes * 8 * 1000000 % 2 ^ 64 / usecs)

end Bandwidth

/-- The counts of the sampler when a packet was sent. -/
structure BwpsSendState where
  totalBytesSent : ℕ
  totalBytesAcked : ℕ
  totalBytesLost : ℕ
  isAppLimited : Bool
  deriving DecidableEq

/-- What a packet remembers of the sampler. -/
structure BwpState where
  bwpsSendState : BwpsSendState
  bwpsSentAtLastAck : ℕ
  bwpsLastAckSentTime : Option ℕ
  bwpsLastAckAckTime : ℕ
  bwpsPacketSize : ℕ
  deriving DecidableEq

/-- A packet that was sent, with what it remembers. -/
structure PacketOut where
  poPackno : ℕ
  poSentTime : ℕ
  size : ℕ
  poBwpState : Option BwpState
  poSent : ℕ
  deriving DecidableEq

/-- A measurement of bandwidth and round-trip time. -/
structure BwSample where
  bandwidth : ℕ
  rtt : ℕ
  isAppLimited : Bool
  deriving DecidableEq

/-- The bandwidth sampler: counts of bytes, and the last packet that was acked. -/
structure BwSampler where
  totalSent : ℕ
  totalAcked : ℕ
  totalLost : ℕ
  lastAckedTotalSent : ℕ
  lastAckedSentTime : ℕ
  lastAckedPacketTime : ℕ
  lastSentPackno : ℕ
  endOfAppLimitedPhase : ℕ
  /-- The flag `BwsWarned`. -/
  warned : Bool
  /-- The flag `BwsAppLimited`. -/
  appLimited : Bool
  deriving DecidableEq

namespace BwSampler

/-- A new sampler has seen no packets. -/
def new (now : ℕ) : BwSampler := ⟨0, 0, 0, 0, now, now, 0, 0, false, false⟩

/-- From the packet that was sent last, measurements are limited by the application. -/
def bwSamplerAppLimited (s : BwSampler) : BwSampler :=
  { s with appLimited := true, endOfAppLimitedPhase := s.lastSentPackno }

/-- A warning is printed once. -/
def bwWarnOnce (s : BwSampler) : BwSampler := { s with warned := true }

/-- The sampler once it has counted a packet that is sent. After an idle time the packet is the new
point of reference. -/
def noteSent (s : BwSampler) (packetOut : PacketOut) (inFlight : ℕ) : BwSampler :=
  let s := if packetOut.poBwpState.isNone then s.bwWarnOnce else s
  let totalSent := s.totalSent + packetOut.size
  let s := { s with lastSentPackno := packetOut.poPackno, totalSent }
  if inFlight = 0 then
    { s with
      lastAckedPacketTime := packetOut.poSentTime
      lastAckedTotalSent := totalSent
      lastAckedSentTime := packetOut.poSentTime }
  else s

/-- The stamp of a packet. -/
def stamp (s : BwSampler) (packetSize : ℕ) : BwpState where
  bwpsSendState := ⟨s.totalSent, s.totalAcked, s.totalLost, s.appLimited⟩
  bwpsSentAtLastAck := s.lastAckedTotalSent
  bwpsLastAckSentTime := some s.lastAckedSentTime
  bwpsLastAckAckTime := s.lastAckedPacketTime
  bwpsPacketSize := packetSize

/-- Stamps a packet that is sent. -/
def packetSent (s : BwSampler) (packetOut : PacketOut) (inFlight : ℕ) : BwSampler × PacketOut :=
  let s := s.noteSent packetOut inFlight
  (s, { packetOut with poBwpState := some (s.stamp packetOut.size) })

/-- A packet is lost, and forgets the sampler. -/
def packetLost (s : BwSampler) (packetOut : PacketOut) : BwSampler × PacketOut :=
  match packetOut.poBwpState with
  | none => (s, packetOut)
  | some state =>
    ({ s with totalLost := s.totalLost + state.bwpsPacketSize },
      { packetOut with poBwpState := none })

/-- The sampler once it has counted an acked packet, which is the new point of reference. -/
def noteAcked (s : BwSampler) (packetOut : PacketOut) (state : BwpState) (ackTime : ℕ) :
    BwSampler :=
  let s := { s with
    totalAcked := s.totalAcked + packetOut.size
    lastAckedTotalSent := state.bwpsSendState.totalBytesSent
    lastAckedSentTime := packetOut.poSentTime
    lastAckedPacketTime := ackTime }
  -- Exit app-limited phase once a packet that was sent while the connection is not app-limited is
  -- acknowledged.
  if s.appLimited ∧
    s.endOfAppLimitedPhase < packetOut.poPackno then { s with appLimited := false } else s

/-- The rate of the bytes sent since the point of reference, infinite if that is not earlier. -/
def sendRate (packetOut : PacketOut) (state : BwpState) (lastAckSentTime : ℕ) : Except Fault ℕ :=
  if lastAckSentTime < packetOut.poSent then
    (subtract state.bwpsSendState.totalBytesSent state.bwpsSentAtLastAck).bind fun bytes =>
      Bandwidth.bwFromBytesAndDelta bytes (asMicros (packetOut.poSent - lastAckSentTime))
  else .ok Bandwidth.bwInfinite

/-- The rate of the bytes acked since the point of reference. -/
def ackRate (totalAcked : ℕ) (state : BwpState) (ackTime : ℕ) : Except Fault ℕ :=
  (subtract totalAcked state.bwpsSendState.totalBytesAcked).bind fun bytes =>
    Bandwidth.bwFromBytesAndDelta bytes (asMicros (ackTime - state.bwpsLastAckAckTime))

/-- Takes a sample from an acked packet. Its stamp is removed. -/
def packetAcked (s : BwSampler) (packetOut : PacketOut) (ackTime : ℕ) :
    Except Fault (Option BwSample × BwSampler × PacketOut) :=
  match packetOut.poBwpState with
  | none => .ok (none, s, packetOut)
  | some state =>
    let s := s.noteAcked packetOut state ackTime
    let packetOut := { packetOut with poBwpState := none }
    match state.bwpsLastAckSentTime with
    | none => .ok (none, s, packetOut)
    | some lastAckSentTime =>
      (sendRate packetOut state lastAckSentTime).bind fun sendRate =>
        -- The ack time of the current packet must be larger than that of the previous packet,
        -- otherwise division by zero or integer underflow can occur.
        if ackTime ≤ state.bwpsLastAckAckTime then .ok (none, s.bwWarnOnce, packetOut)
        else
          (ackRate s.totalAcked state ackTime).bind fun ackRate =>
            (subtract ackTime packetOut.poSent).map fun rtt =>
              (some ⟨if sendRate < ackRate then sendRate else ackRate, rtt,
                state.bwpsSendState.isAppLimited⟩, s, packetOut)

end BwSampler

/-! ### Runs -/

/-- A sampler with the packets that are out, and the time of the last event. -/
structure Sampling where
  sampler : BwSampler
  out : List PacketOut
  now : ℕ

/-- What happens to packets. An acked packet is one of those that are out. -/
inductive SamplerEvent
  | packetSent (packno size inFlight time : ℕ)
  | packetAcked (index ackTime : ℕ)
  | appLimited (time : ℕ)

/-- What the clock says at an event. -/
def SamplerEvent.time : SamplerEvent → ℕ
  | .packetSent _ _ _ time => time
  | .packetAcked _ ackTime => ackTime
  | .appLimited time => time

namespace Sampling

/-- What an event does to the sampler, if there is such an event: times do not decrease, and a
packet that is acked is out. -/
def handle (s : Sampling) (e : SamplerEvent) : Option (Except Fault (Option BwSample × Sampling)) :=
  if e.time < s.now then none
  else
    match e with
    | .packetSent packno size inFlight time =>
      let (sampler, packetOut) := s.sampler.packetSent ⟨packno, time, size, none, time⟩ inFlight
      some (.ok (none, ⟨sampler, packetOut :: s.out, time⟩))
    | .packetAcked index ackTime =>
      s.out[index]?.map fun packetOut =>
        (s.sampler.packetAcked packetOut ackTime).map fun (sample, sampler, _) =>
          (sample, ⟨sampler, s.out.eraseIdx index, ackTime⟩)
    | .appLimited time => some (.ok (none, ⟨s.sampler.bwSamplerAppLimited, s.out, time⟩))

/-- The state after an event, if it may happen and nothing fails. -/
def step (s : Sampling) (e : SamplerEvent) : Option Sampling :=
  (s.handle e).bind fun result => result.toOption.map Prod.snd

/-- Whether the later time is not later at all, or by a number of microseconds that is not zero. -/
def MicroApart (earlier later : ℕ) : Prop := later ≤ earlier ∨ asMicros (later - earlier) ≠ 0

instance (earlier later : ℕ) : Decidable (MicroApart earlier later) :=
  inferInstanceAs (Decidable (later ≤ earlier ∨ asMicros (later - earlier) ≠ 0))

/-- The event acks a packet that is out, with a stamp that has a point of reference. -/
structure Acks (s : Sampling) (e : SamplerEvent) (p : PacketOut) (state : BwpState)
    (lastAckSentTime ackTime : ℕ) :
    Prop where
  event : ∃ index, e = .packetAcked index ackTime ∧ s.out[index]? = some p
  time : s.now ≤ ackTime
  stamp : p.poBwpState = some state
  reference : state.bwpsLastAckSentTime = some lastAckSentTime

/-- The event does not fail, and the bandwidth of a sample is at most the rate of the bytes acked
between the last ack and this one. -/
def Total (s : Sampling) (e : SamplerEvent) : Prop :=
  ∀ result, s.handle e = some result → ∃ sample s', result = .ok (sample, s') ∧
    ∀ b ∈ sample, ∃ p state lastAckSentTime ackTime, Acks s e p state lastAckSentTime ackTime ∧
      b.bandwidth ≤ (s'.sampler.totalAcked - state.bwpsSendState.totalBytesAcked) * 8 * 1000000 /
        asMicros (ackTime - state.bwpsLastAckAckTime)

/-- If the event acks a packet, it was sent a microsecond after the packet of reference, or no
later, and it is acked a microsecond after that one, or no later. -/
def Apart (s : Sampling) (e : SamplerEvent) : Prop :=
  ∀ p state lastAckSentTime ackTime, Acks s e p state lastAckSentTime ackTime →
    MicroApart lastAckSentTime p.poSent ∧ MicroApart state.bwpsLastAckAckTime ackTime

/-! ### Stamps -/

/-- A stamp is older than the sampler. -/
structure Stamped (s : BwSampler) (now : ℕ) (p : PacketOut) : Prop where
  sent : p.poSent ≤ now
  reference {state} (h : p.poBwpState = some state) :
    state.bwpsSentAtLastAck ≤ state.bwpsSendState.totalBytesSent
  totalSent {state}
    (h : p.poBwpState = some state) : state.bwpsSendState.totalBytesSent ≤ s.totalSent
  totalAcked {state}
    (h : p.poBwpState = some state) : state.bwpsSendState.totalBytesAcked ≤ s.totalAcked

/-- All stamps are older than the sampler, and so is its point of reference. -/
structure WellStamped (s : Sampling) : Prop where
  reference : s.sampler.lastAckedTotalSent ≤ s.sampler.totalSent
  out {p} (h : p ∈ s.out) : Stamped s.sampler s.now p

/-- Counts and clock only grow. -/
theorem Stamped.mono {s s' : BwSampler} {now now' : ℕ} {p : PacketOut} (h : Stamped s now p)
    (hsent : s.totalSent ≤ s'.totalSent) (hacked : s.totalAcked ≤ s'.totalAcked)
    (hnow : now ≤ now') :
    Stamped s' now' p where
  sent := h.sent.trans hnow
  reference := h.reference
  totalSent hp := (h.totalSent hp).trans hsent
  totalAcked hp := (h.totalAcked hp).trans hacked

variable {s s' : Sampling} {e : SamplerEvent}

/-- The counts after a packet is sent. -/
theorem noteSent_spec (s : BwSampler) (p : PacketOut) (inFlight : ℕ) :
    (s.noteSent p inFlight).totalSent = s.totalSent + p.size ∧
      (s.noteSent p inFlight).totalAcked = s.totalAcked ∧
      ((s.noteSent p inFlight).lastAckedTotalSent = s.totalSent + p.size ∨
        (s.noteSent p inFlight).lastAckedTotalSent = s.lastAckedTotalSent) := by
  unfold BwSampler.noteSent BwSampler.bwWarnOnce
  dsimp only
  split_ifs
  · exact ⟨rfl, rfl, .inl rfl⟩
  · exact ⟨rfl, rfl, .inl rfl⟩
  · exact ⟨rfl, rfl, .inr rfl⟩
  · exact ⟨rfl, rfl, .inr rfl⟩

/-- A packet that is sent is stamped. -/
theorem packetSent_spec {s : BwSampler} (hreference : s.lastAckedTotalSent ≤ s.totalSent)
    (packno size inFlight time : ℕ) :
    let result := s.packetSent ⟨packno, time, size, none, time⟩ inFlight
    result.1.lastAckedTotalSent ≤ result.1.totalSent ∧ s.totalSent ≤ result.1.totalSent ∧
      result.1.totalAcked = s.totalAcked ∧ Stamped result.1 time result.2 := by
  obtain ⟨hsent, hacked, hlast⟩ := noteSent_spec s ⟨packno, time, size, none, time⟩ inFlight
  have hold : (s.noteSent ⟨packno, time, size, none, time⟩ inFlight).lastAckedTotalSent ≤
      (s.noteSent ⟨packno, time, size, none, time⟩ inFlight).totalSent := by
    dsimp only at hsent hlast
    omega
  refine ⟨hold, hsent ▸ Nat.le_add_right _ _, hacked, le_rfl, ?_, ?_, ?_⟩ <;> rintro state ⟨⟩
  · exact hold
  · exact le_rfl
  · exact le_rfl

@[simp] theorem noteAcked_totalSent (s : BwSampler) (p : PacketOut) (state : BwpState)
    (ackTime : ℕ) :
    (s.noteAcked p state ackTime).totalSent = s.totalSent := by
  unfold BwSampler.noteAcked
  dsimp only
  split_ifs <;> rfl

@[simp] theorem noteAcked_totalAcked (s : BwSampler) (p : PacketOut) (state : BwpState)
    (ackTime : ℕ) :
    (s.noteAcked p state ackTime).totalAcked = s.totalAcked + p.size := by
  unfold BwSampler.noteAcked
  dsimp only
  split_ifs <;> rfl

@[simp] theorem noteSent_totalLost (s : BwSampler) (p : PacketOut) (inFlight : ℕ) :
    (s.noteSent p inFlight).totalLost = s.totalLost := by
  unfold BwSampler.noteSent BwSampler.bwWarnOnce
  dsimp only
  split_ifs <;> rfl

@[simp] theorem noteAcked_totalLost (s : BwSampler) (p : PacketOut) (state : BwpState)
    (ackTime : ℕ) :
    (s.noteAcked p state ackTime).totalLost = s.totalLost := by
  unfold BwSampler.noteAcked
  dsimp only
  split_ifs <;> rfl

@[simp] theorem noteAcked_reference (s : BwSampler) (p : PacketOut) (state : BwpState)
    (ackTime : ℕ) :
    (s.noteAcked p state ackTime).lastAckedTotalSent = state.bwpsSendState.totalBytesSent := by
  unfold BwSampler.noteAcked
  dsimp only
  split_ifs <;> rfl

/-- A rate is taken exactly if the times are at least a microsecond apart. -/
theorem rate_isOk_iff {earlier later bytes : ℕ} (hlater : earlier < later) :
    (∃ rate, Bandwidth.bwFromBytesAndDelta bytes (asMicros (later - earlier)) = .ok rate) ↔
      MicroApart earlier later := by
  unfold Bandwidth.bwFromBytesAndDelta MicroApart
  by_cases hzero : asMicros (later - earlier) = 0
  · rw [if_pos hzero]
    exact iff_of_false (fun ⟨_, h⟩ => nomatch h) (by simp [hzero, hlater])
  · rw [if_neg hzero]
    exact iff_of_true ⟨_, rfl⟩ (.inr hzero)

variable {sampler : BwSampler} {now ackTime lastAckSentTime : ℕ} {p : PacketOut} {state : BwpState}

/-- The rate of the bytes sent is found exactly if the times are at least a microsecond apart. -/
theorem sendRate_isOk_iff
    (hreference : state.bwpsSentAtLastAck ≤ state.bwpsSendState.totalBytesSent) :
    (∃ rate, BwSampler.sendRate p state lastAckSentTime = .ok rate) ↔
      MicroApart lastAckSentTime p.poSent := by
  unfold BwSampler.sendRate
  rw [subtract_of_le hreference]
  by_cases hlater : lastAckSentTime < p.poSent
  · rw [if_pos hlater]
    exact rate_isOk_iff hlater
  · rw [if_neg hlater]
    exact iff_of_true ⟨_, rfl⟩ (.inl (not_lt.mp hlater))

/-- The rate of the bytes acked is that of a product that may have wrapped around. -/
theorem ackRate_le {totalAcked rate : ℕ}
    (hrate : BwSampler.ackRate totalAcked state ackTime = .ok rate) :
    rate ≤ (totalAcked - state.bwpsSendState.totalBytesAcked) * 8 * 1000000 /
      asMicros (ackTime - state.bwpsLastAckAckTime) := by
  obtain ⟨bytes, hbytes, hrate⟩ := Lib.bind_eq_ok.mp hrate
  unfold subtract at hbytes
  unfold Bandwidth.bwFromBytesAndDelta at hrate
  split_ifs at hbytes hrate
  cases hbytes
  cases hrate
  exact Nat.div_le_div_right (Nat.mod_le _ _)

/-- The rate of the bytes acked is found exactly if the times are at least a microsecond apart. -/
theorem ackRate_isOk_iff {totalAcked : ℕ}
    (hacked : state.bwpsSendState.totalBytesAcked ≤ totalAcked)
    (hlater : state.bwpsLastAckAckTime < ackTime) :
    (∃ rate, BwSampler.ackRate totalAcked state ackTime = .ok rate) ↔
      MicroApart state.bwpsLastAckAckTime ackTime := by
  unfold BwSampler.ackRate
  rw [subtract_of_le hacked]
  exact rate_isOk_iff hlater

/-- An ack gives a sample, or none, exactly if the times are at least a microsecond apart. -/
theorem packetAcked_isOk_iff (h : Stamped sampler now p) (hnow : now ≤ ackTime)
    (hstate : p.poBwpState = some state) (href : state.bwpsLastAckSentTime = some lastAckSentTime) :
    (∃ result, sampler.packetAcked p ackTime = .ok result) ↔
      MicroApart lastAckSentTime p.poSent ∧ MicroApart state.bwpsLastAckAckTime ackTime := by
  have hacked :
      state.bwpsSendState.totalBytesAcked ≤ (sampler.noteAcked p state ackTime).totalAcked := by
    rw [noteAcked_totalAcked]
    exact (h.totalAcked hstate).trans (Nat.le_add_right _ _)
  have hsend : _ ↔ MicroApart lastAckSentTime p.poSent :=
    sendRate_isOk_iff (p := { p with poBwpState := none }) (h.reference hstate)
  unfold BwSampler.packetAcked
  rw [hstate]
  dsimp only
  rw [href]
  dsimp only
  rw [← hsend]
  cases BwSampler.sendRate { p with poBwpState := none } state lastAckSentTime with
  | error fault => exact iff_of_false (fun ⟨_, h⟩ => nomatch h) fun ⟨⟨_, h⟩, _⟩ => nomatch h
  | ok sendRate =>
    rw [and_iff_right ⟨sendRate, rfl⟩]
    change (∃ result, (if ackTime ≤ state.bwpsLastAckAckTime then _ else _) = Except.ok result) ↔ _
    by_cases hlater : ackTime ≤ state.bwpsLastAckAckTime
    · rw [if_pos hlater]
      exact iff_of_true ⟨_, rfl⟩ (.inl hlater)
    · rw [if_neg hlater, ← ackRate_isOk_iff hacked (not_le.mp hlater),
        subtract_of_le (h.sent.trans hnow)]
      cases BwSampler.ackRate (sampler.noteAcked p state ackTime).totalAcked state ackTime with
      | error fault => exact iff_of_false (fun ⟨_, h⟩ => nomatch h) fun ⟨_, h⟩ => nomatch h
      | ok ackRate => exact iff_of_true ⟨_, rfl⟩ ⟨_, rfl⟩

/-- An acked packet with a stamp is counted, whether it gives a sample or not. -/
theorem packetAcked_eq {sample : Option BwSample} {sampler' : BwSampler} {p' : PacketOut}
    (hacked : sampler.packetAcked p ackTime = .ok (sample, sampler', p'))
    (hstate : p.poBwpState = some state) :
    sampler' = sampler.noteAcked p state ackTime ∨
        sampler' = (sampler.noteAcked p state ackTime).bwWarnOnce := by
  unfold BwSampler.packetAcked at hacked
  rw [hstate] at hacked
  dsimp only at hacked
  cases href : state.bwpsLastAckSentTime with
  | none =>
    rw [href] at hacked
    cases hacked
    exact .inl rfl
  | some lastAckSentTime =>
    rw [href] at hacked
    obtain ⟨sendRate, -, hacked⟩ := Lib.bind_eq_ok.mp hacked
    split_ifs at hacked
    · cases hacked
      exact .inr rfl
    · obtain ⟨ackRate, -, hacked⟩ := Lib.bind_eq_ok.mp hacked
      obtain ⟨rtt, -, heq⟩ := Lib.map_eq_ok.mp hacked
      cases heq
      exact .inl rfl

/-- An acked packet with a stamp counts as acked. -/
theorem packetAcked_totals {sample : Option BwSample} {sampler' : BwSampler} {p' : PacketOut}
    (hacked : sampler.packetAcked p ackTime = .ok (sample, sampler', p'))
    (hstamp : p.poBwpState.isSome = true) :
    sampler'.totalSent = sampler.totalSent ∧ sampler'.totalAcked = sampler.totalAcked + p.size ∧
      sampler'.totalLost = sampler.totalLost := by
  obtain ⟨state, hstate⟩ := Option.isSome_iff_exists.mp hstamp
  have hnoted := And.intro (noteAcked_totalSent sampler p state ackTime)
    (And.intro (noteAcked_totalAcked sampler p state ackTime)
      (noteAcked_totalLost sampler p state ackTime))
  rcases packetAcked_eq hacked hstate with rfl | rfl <;> exact hnoted

/-- An ack moves the reference below what was sent, and takes nothing back. -/
theorem packetAcked_grows (h : Stamped sampler now p)
    (hreference : sampler.lastAckedTotalSent ≤ sampler.totalSent)
    {sample : Option BwSample} {sampler' : BwSampler} {p' : PacketOut}
    (hacked : sampler.packetAcked p ackTime = .ok (sample, sampler', p')) :
    sampler'.lastAckedTotalSent ≤ sampler'.totalSent ∧ sampler.totalSent ≤ sampler'.totalSent ∧
      sampler.totalAcked ≤ sampler'.totalAcked := by
  cases hstate : p.poBwpState with
  | none =>
    unfold BwSampler.packetAcked at hacked
    rw [hstate] at hacked
    cases hacked
    exact ⟨hreference, le_rfl, le_rfl⟩
  | some state =>
    have hnoted : (sampler.noteAcked p state ackTime).lastAckedTotalSent ≤
        (sampler.noteAcked p state ackTime).totalSent := by
      rw [noteAcked_reference, noteAcked_totalSent]
      exact h.totalSent hstate
    have hgrown : sampler.totalAcked ≤ (sampler.noteAcked p state ackTime).totalAcked := by
      rw [noteAcked_totalAcked]
      exact Nat.le_add_right _ _
    have hsent : sampler.totalSent ≤ (sampler.noteAcked p state ackTime).totalSent := by
      rw [noteAcked_totalSent]
    rcases packetAcked_eq hacked hstate with rfl | rfl <;> exact ⟨hnoted, hsent, hgrown⟩

/-- The bandwidth of a sample is at most the rate of acks since the packet was sent. -/
theorem packetAcked_bandwidth {sample : Option BwSample} {sampler' : BwSampler} {p' : PacketOut}
    (hacked : sampler.packetAcked p ackTime = .ok (sample, sampler', p')) {b : BwSample}
    (hb : b ∈ sample) :
    ∃ state lastAckSentTime, p.poBwpState = some state ∧
      state.bwpsLastAckSentTime = some lastAckSentTime ∧
      b.bandwidth ≤ (sampler'.totalAcked - state.bwpsSendState.totalBytesAcked) * 8 * 1000000 /
        asMicros (ackTime - state.bwpsLastAckAckTime) := by
  unfold BwSampler.packetAcked at hacked
  cases hstate : p.poBwpState with
  | none =>
    rw [hstate] at hacked
    cases hacked
    cases hb
  | some state =>
    rw [hstate] at hacked
    dsimp only at hacked
    cases href : state.bwpsLastAckSentTime with
    | none =>
      rw [href] at hacked
      cases hacked
      cases hb
    | some lastAckSentTime =>
      rw [href] at hacked
      obtain ⟨sendRate, -, hacked⟩ := Lib.bind_eq_ok.mp hacked
      split_ifs at hacked
      · cases hacked
        cases hb
      · obtain ⟨ackRate, hrate, hacked⟩ := Lib.bind_eq_ok.mp hacked
        obtain ⟨rtt, -, heq⟩ := Lib.map_eq_ok.mp hacked
        cases heq
        cases hb
        refine ⟨state, lastAckSentTime, rfl, href, le_trans ?_ (ackRate_le hrate)⟩
        dsimp only
        split_ifs with hless
        · exact hless.le
        · exact le_rfl

/-- There is no packet yet. -/
theorem wellStamped_new (t0 : ℕ) : WellStamped ⟨.new t0, [], t0⟩ := ⟨le_rfl, nofun⟩

/-- Every event keeps all stamps older than the sampler. -/
theorem WellStamped.handle (h : WellStamped s) {sample : Option BwSample}
    (hhandle : s.handle e = some (.ok (sample, s'))) : WellStamped s' := by
  unfold Sampling.handle at hhandle
  split_ifs at hhandle with htime
  have hnow : s.now ≤ e.time := not_lt.mp htime
  cases e with
  | packetSent packno size inFlight time =>
    obtain ⟨hreference, hsent, hacked, hstamped⟩ :=
      packetSent_spec h.reference packno size inFlight time
    cases hhandle
    refine ⟨hreference, fun hp => ?_⟩
    rcases List.mem_cons.mp hp with rfl | hp
    · exact hstamped
    · exact (h.out hp).mono hsent hacked.ge hnow
  | packetAcked index ackTime =>
    obtain ⟨p, hget, hresult⟩ := Option.map_eq_some_iff.mp hhandle
    obtain ⟨⟨_, sampler, p'⟩, hack, heq⟩ := Lib.map_eq_ok.mp hresult
    cases heq
    obtain ⟨hreference, hsent, hacked⟩ :=
      packetAcked_grows (h.out (List.mem_of_getElem? hget)) h.reference hack
    exact ⟨hreference, fun hp => (h.out (List.mem_of_mem_eraseIdx hp)).mono hsent hacked hnow⟩
  | appLimited time =>
    cases hhandle
    exact ⟨h.reference, fun hp => (h.out hp).mono le_rfl le_rfl hnow⟩

/-- Every event keeps the packets stamped. -/
theorem WellStamped.step (h : WellStamped s) (hstep : Sampling.step s e = some s') :
    WellStamped s' := by
  obtain ⟨result, hhandle, hresult⟩ := Option.bind_eq_some_iff.mp hstep
  obtain ⟨⟨sample, _⟩, hok, rfl⟩ := Option.map_eq_some_iff.mp hresult
  rw [Lib.toOption_eq_some.mp hok] at hhandle
  exact h.handle hhandle

/-- The bandwidth of a sample is at most the rate of acks. -/
theorem bandwidth_le {sample : Option BwSample}
    (hhandle : s.handle e = some (.ok (sample, s'))) {b : BwSample} (hb : b ∈ sample) :
    ∃ p state lastAckSentTime ackTime, Acks s e p state lastAckSentTime ackTime ∧
      b.bandwidth ≤ (s'.sampler.totalAcked - state.bwpsSendState.totalBytesAcked) * 8 * 1000000 /
        asMicros (ackTime - state.bwpsLastAckAckTime) := by
  unfold Sampling.handle at hhandle
  split_ifs at hhandle with htime
  cases e with
  | packetSent packno size inFlight time =>
    cases hhandle
    nomatch hb
  | packetAcked index ackTime =>
    obtain ⟨p, hget, hresult⟩ := Option.map_eq_some_iff.mp hhandle
    obtain ⟨⟨_, sampler, p'⟩, hack, heq⟩ := Lib.map_eq_ok.mp hresult
    cases heq
    obtain ⟨state, lastAckSentTime, hstate, href, hle⟩ := packetAcked_bandwidth hack hb
    exact ⟨p, state, lastAckSentTime, ackTime, ⟨⟨index, rfl, hget⟩, not_lt.mp htime, hstate, href⟩,
      hle⟩
  | appLimited time =>
    cases hhandle
    nomatch hb

/-- A packet that is acked is handed to the sampler. -/
theorem handle_packetAcked {index : ℕ} (hget : s.out[index]? = some p) (hnow : s.now ≤ ackTime) :
    s.handle (.packetAcked index ackTime) =
      some ((s.sampler.packetAcked p ackTime).map fun (sample, sampler, _) =>
        (sample, ⟨sampler, s.out.eraseIdx index, ackTime⟩)) := by
  have htime : ¬ (SamplerEvent.packetAcked index ackTime).time < s.now := hnow.not_gt
  unfold Sampling.handle
  rw [if_neg htime]
  dsimp only
  rw [hget]
  rfl

/-- An event does not fail exactly if its times are apart. -/
theorem WellStamped.handles_iff (h : WellStamped s) (e : SamplerEvent) :
    (∀ result, s.handle e = some result → ∃ value, result = .ok value) ↔ Apart s e := by
  constructor
  · rintro hok p state lastAckSentTime ackTime ⟨⟨index, rfl, hget⟩, hnow, hstate, href⟩
    rw [← packetAcked_isOk_iff (h.out (List.mem_of_getElem? hget)) hnow hstate href]
    obtain ⟨value, hvalue⟩ := hok _ (handle_packetAcked hget hnow)
    obtain ⟨result, hresult, -⟩ := Lib.map_eq_ok.mp hvalue
    exact ⟨result, hresult⟩
  · intro hapart result hhandle
    unfold Sampling.handle at hhandle
    split_ifs at hhandle with htime
    have hnow := not_lt.mp htime
    cases e with
    | packetSent packno size inFlight time =>
      cases hhandle
      exact ⟨_, rfl⟩
    | packetAcked index ackTime =>
      obtain ⟨p, hget, rfl⟩ := Option.map_eq_some_iff.mp hhandle
      -- without a sample of its own, or an ack before it, nothing is divided
      have hacked : ∃ result, s.sampler.packetAcked p ackTime = .ok result := by
        cases hstate : p.poBwpState with
        | none =>
          unfold BwSampler.packetAcked
          rw [hstate]
          exact ⟨_, rfl⟩
        | some state =>
          cases href : state.bwpsLastAckSentTime with
          | none =>
            unfold BwSampler.packetAcked
            rw [hstate]
            dsimp only
            rw [href]
            exact ⟨_, rfl⟩
          | some lastAckSentTime =>
            exact (packetAcked_isOk_iff (h.out (List.mem_of_getElem? hget)) hnow hstate href).mpr
              (hapart p state lastAckSentTime ackTime ⟨⟨index, rfl, hget⟩, hnow, hstate, href⟩)
      obtain ⟨result, hresult⟩ := hacked
      rw [hresult]
      exact ⟨_, rfl⟩
    | appLimited time =>
      cases hhandle
      exact ⟨_, rfl⟩

/-- An event fails only for a lack of time between two packets. -/
theorem WellStamped.total_iff_apart (h : WellStamped s) (e : SamplerEvent) :
    Total s e ↔ Apart s e := by
  rw [← h.handles_iff]
  constructor
  · intro htotal result hresult
    obtain ⟨sample, s', hok, -⟩ := htotal result hresult
    exact ⟨(sample, s'), hok⟩
  · intro hok result hresult
    obtain ⟨⟨sample, s'⟩, rfl⟩ := hok result hresult
    exact ⟨sample, s', rfl, fun b hb => bandwidth_le hresult hb⟩

/-- Along every run the sampler does not fail, and its samples are at most the rate of acks, exactly
if whenever it takes a sample, times that differ are at least a microsecond apart. -/
theorem total_iff (t0 : ℕ) (es : List SamplerEvent) :
    Lib.AllSteps step Total ⟨.new t0, [], t0⟩ es ↔ Lib.AllSteps step Apart ⟨.new t0, [], t0⟩ es :=
  Lib.allSteps_iff (I := WellStamped) (fun _ _ _ h hstep => h.step hstep)
    (fun _ e h => h.total_iff_apart e) (wellStamped_new t0)

end Sampling

/-- Two packets are sent half a microsecond apart. The second one is acked after 20 milliseconds. -/
def halfMicrosecond : List SamplerEvent :=
  [.packetSent 0 1200 0 1000, .packetSent 1 1200 1200 1500, .packetAcked 0 20001500]

/-- The ack of the second packet divides by zero. -/
theorem not_total_halfMicrosecond :
    ¬ ∀ (t0 : ℕ) (es : List SamplerEvent), Lib.AllSteps Sampling.step Sampling.Total ⟨.new t0, [],
        t0⟩ es := by
  intro h
  obtain ⟨-, h⟩ := h 0 halfMicrosecond
  obtain ⟨-, h⟩ := h _ rfl
  obtain ⟨h, -⟩ := h _ rfl
  obtain ⟨sample, s', hok, -⟩ := h (.error .panic) rfl
  nomatch hok

end Dtp.Cc
