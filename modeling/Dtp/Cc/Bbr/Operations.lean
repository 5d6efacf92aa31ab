import Dtp.Cc.Bbr.Stages

/-!
# Runs of BBR

A run is any sequence of operations. Some of them are not operations of the controller: modes,
flags and the estimate of the bandwidth may be anything, and every ack may come with floats of its
own, so that target windows are arbitrary.

## Main definitions

* `Bbr.Operation`, `Bbr.step` — the operations and what they do
* `Bbr.ledger` — the core without the window and the search for full bandwidth

## Main results

* `Bbr.handle_spec` — what operations other than the end of an ack leave alone
* `Bbr.bbrEndAck_spec`, `Bbr.ledger_bbrEndAck` — the end of an ack in its parts, and what it does to
  rounds and losses
-/

namespace Dtp.Cc.Bbr

/-- The operations of the controller, and changes of its mode and flags. -/
inductive Operation
  | onPacketSentCc (F : Floats) (pkt : Sent)
  | onPacketAckedCc (packet : Sent)
  | decreaseBytesInFlight (bytes : ℕ)
  | collapseCwnd
  | bbrSent (F : Floats) (packetOut : PacketOut) (inFlight : ℕ) (appLimit : Bool) (poPackno : ℕ)
  | bbrBeginAck (ackTime bytesInFlight : ℕ)
  | bbrAck (packetOut : PacketOut) (packetSz : ℕ)
  | bbrLost (packetOut : PacketOut) (packetSz : ℕ)
  | bbrEndAck (F : Floats) (bytesInFlight random : ℕ)
  | setMode (mode : BbrMode)
  | setFlags (flags : BbrFlags)
  | setMaxBandwidth (maxBandwidth : Dtp.Bbr.Minmax)

/-- The state after an operation. -/
def handle (s : Bbr) : Operation → Except Fault Bbr
  | .onPacketSentCc F pkt => .ok (s.onPacketSentCc F pkt)
  | .onPacketAckedCc packet => s.onPacketAckedCc packet
  | .decreaseBytesInFlight bytes => s.decreaseBytesInFlight bytes
  | .collapseCwnd => .ok s.collapseCwnd
  | .bbrSent F packetOut inFlight appLimit poPackno =>
    .ok (s.bbrSent F packetOut inFlight appLimit poPackno).1
  | .bbrBeginAck ackTime bytesInFlight => s.bbrBeginAck ackTime bytesInFlight
  | .bbrAck packetOut packetSz => s.bbrAck packetOut packetSz
  | .bbrLost packetOut packetSz => .ok (s.bbrLost packetOut packetSz).1
  | .bbrEndAck F bytesInFlight random => s.bbrEndAck F bytesInFlight random
  | .setMode mode => .ok { s with mode }
  | .setFlags flags => .ok { s with flags }
  | .setMaxBandwidth maxBandwidth => .ok { s with maxBandwidth }

/-- The state after an operation, if nothing panics. -/
def step (s : Bbr) (op : Operation) : Option Bbr := (s.handle op).toOption

/-- Whether the operation is the end of an ack. -/
def Operation.endsAck : Operation → Bool
  | .bbrEndAck _ _ _ => true
  | _ => false

variable {F : Floats} {s s' : Bbr} {op : Operation} {o : AckOutcome}

/-- What only the end of an ack changes. -/
structure Waits (s s' : Bbr) : Prop where
  roundWoBwGain : s'.roundWoBwGain = s.roundWoBwGain
  bwAtLastRound : s'.bwAtLastRound = s.bwAtLastRound
  cwndGain : s'.cwndGain = s.cwndGain
  exitStartupOnLoss : s'.flags.exitStartupOnLoss = s.flags.exitStartupOnLoss
  isAtFullBandwidth : s'.flags.isAtFullBandwidth = s.flags.isAtFullBandwidth
  cwnd : s'.cwnd = s.cwnd ∨ s'.cwnd = initCwnd

private theorem waits_bbrAppLimited (s : Bbr) (bytesInFlight : ℕ) :
    Waits s (s.bbrAppLimited F bytesInFlight) := by
  unfold bbrAppLimited samplerAppLimited
  split_ifs <;> exact ⟨rfl, rfl, rfl, rfl, rfl, .inl rfl⟩

theorem waits_bbrSent (s : Bbr) (p : PacketOut) (inFlight : ℕ) (appLimit : Bool) (poPackno : ℕ) :
    Waits s (s.bbrSent F p inFlight appLimit poPackno).1 := by
  unfold bbrSent
  dsimp only
  split_ifs
  · obtain ⟨hcount, hbw, hgain, hexit, hfull, hcwnd⟩ := waits_bbrAppLimited (F := F) _ inFlight
    exact ⟨hcount, hbw, hgain, hexit, hfull, hcwnd⟩
  · exact ⟨rfl, rfl, rfl, rfl, rfl, .inl rfl⟩

theorem waits_bbrAck {p : PacketOut} {packetSz : ℕ} (h : s.bbrAck p packetSz = .ok s') :
    Waits s s' := by
  unfold bbrAck at h
  split_ifs at h
  obtain ⟨result, -, rfl⟩ := Lib.map_eq_ok.mp h
  exact ⟨rfl, rfl, rfl, rfl, rfl, .inl rfl⟩

private theorem waits_onPacketAckedCc {packet : Sent} (h : s.onPacketAckedCc packet = .ok s') :
    Waits s s' := by
  obtain ⟨bytesInFlight, -, h⟩ := Lib.bind_eq_ok.mp h
  dsimp only at h
  split at h
  · cases h
    exact ⟨rfl, rfl, rfl, rfl, rfl, .inl rfl⟩
  · obtain ⟨hcount, hbw, hgain, hexit, hfull, hcwnd⟩ := waits_bbrAck h
    exact ⟨hcount, hbw, hgain, hexit, hfull, hcwnd⟩

private theorem waits_onPacketSentCc (s : Bbr) (pkt : Sent) : Waits s (s.onPacketSentCc F pkt) := by
  obtain ⟨hcount, hbw, hgain, hexit, hfull, hcwnd⟩ := waits_bbrSent (F := F) s
    ⟨pkt.pktNum, pkt.time, pkt.size, none, pkt.time⟩ s.bytesInFlight false pkt.pktNum
  exact ⟨hcount, hbw, hgain, hexit, hfull, hcwnd⟩

/-- Operations other than the end of an ack set flags, or wait for it. -/
theorem handle_spec (h : s.handle op = .ok s') (hop : op.endsAck = false) :
    (∃ flags, op = .setFlags flags ∧ s' = { s with flags }) ∨ Waits s s' := by
  cases op with
  | onPacketSentCc F pkt =>
    cases h
    exact .inr (waits_onPacketSentCc s pkt)
  | onPacketAckedCc packet => exact .inr (waits_onPacketAckedCc h)
  | decreaseBytesInFlight bytes =>
    obtain ⟨bytesInFlight, -, rfl⟩ := Lib.map_eq_ok.mp h
    exact .inr ⟨rfl, rfl, rfl, rfl, rfl, .inl rfl⟩
  | collapseCwnd =>
    cases h
    exact .inr ⟨rfl, rfl, rfl, rfl, rfl, .inr rfl⟩
  | bbrSent F packetOut inFlight appLimit poPackno =>
    cases h
    exact .inr (waits_bbrSent s packetOut inFlight appLimit poPackno)
  | bbrBeginAck ackTime bytesInFlight =>
    change s.bbrBeginAck ackTime bytesInFlight = .ok s' at h
    unfold bbrBeginAck at h
    split_ifs at h
    cases h
    exact .inr ⟨rfl, rfl, rfl, rfl, rfl, .inl rfl⟩
  | bbrAck packetOut packetSz => exact .inr (waits_bbrAck h)
  | bbrLost packetOut packetSz =>
    cases h
    exact .inr ⟨rfl, rfl, rfl, rfl, rfl, .inl rfl⟩
  | bbrEndAck F bytesInFlight random => cases hop
  | setMode mode =>
    cases h
    exact .inr ⟨rfl, rfl, rfl, rfl, rfl, .inl rfl⟩
  | setFlags flags =>
    cases h
    exact .inl ⟨flags, rfl, rfl⟩
  | setMaxBandwidth maxBandwidth =>
    cases h
    exact .inr ⟨rfl, rfl, rfl, rfl, rfl, .inl rfl⟩

/-- The windows are calculated last, and the core changes by the window only. -/
theorem bbrEndAck_spec {bytesInFlight random : ℕ}
    (h : s.bbrEndAck F bytesInFlight random = .ok s') :
    ∃ t o, s.beforeWindows F bytesInFlight random = .ok (t, o) ∧
      s' = (t.calculateCwnd F o.bytesAcked o.excessAcked).calculateRecoveryWindow o.bytesAcked
        t.ackState.lostBytes bytesInFlight := by
  obtain ⟨⟨t, o⟩, hbefore, rfl⟩ := Lib.map_eq_ok.mp h
  exact ⟨t, o, hbefore, rfl⟩

/-- The core without the window and the search for full bandwidth: rounds, packets and losses. -/
def ledger (s : Bbr) : Bbr :=
  { s.core with
    cwnd := 0, cwndGain := 0, roundWoBwGain := 0, bwAtLastRound := 0
    flags := { BbrFlags.empty with inAck := s.flags.inAck } }

private theorem ledger_windows (s : Bbr) (bytesAcked excessAcked bytesLost bytesInFlight : ℕ) :
    ((s.calculateCwnd F bytesAcked excessAcked).calculateRecoveryWindow bytesAcked bytesLost
      bytesInFlight).ledger = s.ledger := by
  unfold calculateCwnd calculateRecoveryWindow
  dsimp only
  split_ifs <;> rfl

/-- In the ledger, the end of an ack is the start of a round, and recovery. -/
theorem ledger_bbrEndAck {bytesInFlight random : ℕ}
    (h : s.bbrEndAck F bytesInFlight random = .ok s') :
    s.flags.inAck = true ∧
      s'.ledger = (if 0 < s.ackState.ackBytes then
        s.leaveAck.noteRound.core.updateRecoveryState s.startsRound
          else s.leaveAck.core).ledger := by
  obtain ⟨t, o, hbefore, rfl⟩ := bbrEndAck_spec h
  obtain ⟨s₁, s₂, hmodel, hcheck, gain, -, hcore⟩ := beforeWindows_spec hbefore
  obtain ⟨hack, hcore₁, -, -⟩ := endAckModel_spec hmodel
  obtain ⟨_, _, _, _, rfl⟩ := checkRound_eq hcheck
  have hcycle := (core_maybeUpdateGainCyclePhase (F := F) s₁ bytesInFlight).trans hcore₁
  have hlast := congrArg ledger hcore
  refine ⟨hack, ?_⟩
  rw [ledger_windows, ← hcycle]
  exact hlast

/-- The end of an ack may start a round, and recovery. Where the round ends changes only then. -/
theorem ledger_bbrEndAck_cases {bytesInFlight random : ℕ}
    (h : s.bbrEndAck F bytesInFlight random = .ok s') :
    ∃ roundCount recoveryState currentRoundTripEnd endRecoveryAt,
      s'.ledger = { s.leaveAck.ledger with
        roundCount, recoveryState, currentRoundTripEnd, endRecoveryAt } ∧
      roundCount = s.roundCount + (if 0 < s.ackState.ackBytes ∧ s.startsRound then 1 else 0) ∧
      (currentRoundTripEnd = s.lastSentPackno ∨
        currentRoundTripEnd = s.currentRoundTripEnd ∧ roundCount = s.roundCount) ∧
      (s.ackState.hasLosses = false → s.recoveryState = .notInRecovery →
          recoveryState = .notInRecovery) := by
  obtain ⟨-, hledger⟩ := ledger_bbrEndAck h
  rw [hledger]
  by_cases hbytes : 0 < s.ackState.ackBytes
  · obtain ⟨state, _, tripEnd, recoveryEnd, heq, htrip, hquiet⟩ :=
      updateRecoveryState_eq s.leaveAck.noteRound.core s.startsRound
    have hsame : s.leaveAck.startsRound = s.startsRound := rfl
    rw [if_pos hbytes, heq]
    unfold noteRound at htrip hquiet ⊢
    rw [hsame] at htrip hquiet ⊢
    by_cases hround : s.startsRound = true
    · rw [if_pos hround] at htrip hquiet ⊢
      refine ⟨_, state, tripEnd, recoveryEnd, rfl, ?_, .inl ?_, ?_⟩
      · rw [if_pos ⟨hbytes, hround⟩]
        rfl
      · rcases htrip with htrip | htrip <;> exact htrip
      · exact fun hlosses hstate => (hquiet hlosses hstate).1
    · rw [if_neg hround] at htrip hquiet ⊢
      refine ⟨_, state, tripEnd, recoveryEnd, rfl, ?_, ?_, ?_⟩
      · rw [if_neg fun h => hround h.2]
        rfl
      · rcases htrip with htrip | htrip
        · exact .inr ⟨htrip, rfl⟩
        · exact .inl htrip
      · exact fun hlosses hstate => (hquiet hlosses hstate).1
  · rw [if_neg hbytes, if_neg fun h => hbytes h.1]
    exact ⟨_, _, _, _, rfl, rfl, .inr ⟨rfl, rfl⟩, fun _ hstate => hstate⟩

/-- What the end of an ack does to rounds, packets and losses. -/
structure EndsAck (s s' : Bbr) : Prop where
  ackState : s'.ackState = s.ackState
  bytesInFlight : s'.bytesInFlight = s.bytesInFlight
  totalSent : s'.bwSampler.totalSent = s.bwSampler.totalSent
  totalAcked : s'.bwSampler.totalAcked = s.bwSampler.totalAcked
  totalLost : s'.bwSampler.totalLost = s.bwSampler.totalLost
  lastSentPackno : s'.lastSentPackno = s.lastSentPackno
  packetOutQue : s'.packetOutQue = s.packetOutQue
  inAck : s'.flags.inAck = false
  roundCount : s'.roundCount = s.roundCount + if 0 < s.ackState.ackBytes ∧
    s.startsRound then 1 else 0
  currentRoundTripEnd : s'.currentRoundTripEnd = s.lastSentPackno ∨
    s'.currentRoundTripEnd = s.currentRoundTripEnd ∧ s'.roundCount = s.roundCount
  recoveryState : s.ackState.hasLosses = false → s.recoveryState = .notInRecovery →
    s'.recoveryState = .notInRecovery

theorem endsAck_bbrEndAck {bytesInFlight random : ℕ}
    (h : s.bbrEndAck F bytesInFlight random = .ok s') :
    EndsAck s s' := by
  obtain ⟨count, state, tripEnd, recoveryEnd, heq, hcount, htrip, hquiet⟩ :=
    ledger_bbrEndAck_cases h
  have hround := congrArg Bbr.roundCount heq
  have hend := congrArg Bbr.currentRoundTripEnd heq
  have hstate := congrArg Bbr.recoveryState heq
  change s'.roundCount = count at hround
  change s'.currentRoundTripEnd = tripEnd at hend
  change s'.recoveryState = state at hstate
  rw [← hround] at hcount htrip
  rw [← hend] at htrip
  rw [← hstate] at hquiet
  have hsampler := congrArg Bbr.bwSampler heq
  have hflags := congrArg Bbr.flags heq
  have hacks := congrArg Bbr.ackState heq
  have hbytes := congrArg Bbr.bytesInFlight heq
  have hsent := congrArg Bbr.lastSentPackno heq
  have hqueue := congrArg Bbr.packetOutQue heq
  have htotalSent := congrArg BwSampler.totalSent hsampler
  have htotalAcked := congrArg BwSampler.totalAcked hsampler
  have htotalLost := congrArg BwSampler.totalLost hsampler
  have hack := congrArg BbrFlags.inAck hflags
  exact ⟨hacks, hbytes, htotalSent, htotalAcked, htotalLost, hsent, hqueue, hack, hcount,
    htrip, hquiet⟩

/-- Until the windows are calculated, the window and what was acked stay. -/
theorem beforeWindows_window {bytesInFlight random : ℕ} {t : Bbr}
    (h : s.beforeWindows F bytesInFlight random = .ok (t, o)) :
    t.cwnd = s.cwnd ∧ (t.cwndGain = s.cwndGain ∨ t.cwndGain = highCwndGain ∨
        t.cwndGain = kCwndGain) := by
  obtain ⟨s₁, s₂, hmodel, hcheck, gain, hgain, hcore⟩ := beforeWindows_spec h
  obtain ⟨_, _, _, _, _, hcore₁⟩ := endAckModel_core hmodel
  obtain ⟨_, _, _, _, rfl⟩ := checkRound_eq hcheck
  have hcycle := (core_maybeUpdateGainCyclePhase (F := F) s₁ bytesInFlight).trans hcore₁
  have hcwnd := congrArg cwnd hcycle
  have hlast := congrArg cwnd hcore
  have hsame := congrArg cwndGain hcycle
  have hnew := congrArg cwndGain hcore
  change t.cwndGain = gain at hnew
  rw [hnew]
  refine ⟨hlast.trans hcwnd, ?_⟩
  rcases hgain with rfl | hgain
  · exact .inl hsame
  · exact .inr hgain

/-! ### Packets that are acked -/

theorem queued_spec {pktNum : ℕ} {p : PacketOut} (h : s.queued pktNum = some p) :
    p ∈ s.packetOutQue ∧ p.poPackno = pktNum :=
  ⟨List.mem_of_find?_eq_some h, by simpa using List.find?_some h⟩

private theorem queued_setBytesInFlight (s : Bbr) (bytes pktNum : ℕ) :
    ({ s with bytesInFlight := bytes } : Bbr).queued pktNum = s.queued pktNum := rfl

/-- A packet that is not queued only counts against the bytes in flight. Another one leaves the
queue and is reported. -/
theorem onPacketAckedCc_cases {packet : Sent} (h : s.onPacketAckedCc packet = .ok s') :
    packet.size ≤ s.bytesInFlight ∧
      (s.queued packet.pktNum = none ∧
        s' = { s with bytesInFlight := s.bytesInFlight - packet.size } ∨
        ∃ p sample bwSampler p', s.queued packet.pktNum = some p ∧ s.flags.inAck = true ∧
          s.bwSampler.packetAcked p s.ackState.ackTime = .ok (sample, bwSampler, p') ∧
          s' = { s with
            bytesInFlight := s.bytesInFlight - packet.size
            packetOutQue := s.packetOutQue.filter fun p => p.poPackno ≠ packet.pktNum
            bwSampler
            ackState := { s.ackState with
              samples := s.ackState.samples ++ sample.toList
              maxPackno := max s.ackState.maxPackno p'.poPackno
              ackBytes := s.ackState.ackBytes + packet.size } }) := by
  obtain ⟨bytesInFlight, hbytes, h⟩ := Lib.bind_eq_ok.mp h
  obtain ⟨hsize, rfl⟩ : packet.size ≤ s.bytesInFlight ∧
      s.bytesInFlight - packet.size = bytesInFlight := by
    unfold subtract at hbytes
    split_ifs at hbytes with hless
    exact ⟨not_lt.mp hless, Except.ok.inj hbytes⟩
  refine ⟨hsize, ?_⟩
  dsimp only at h
  rw [queued_setBytesInFlight] at h
  cases hqueued : s.queued packet.pktNum with
  | none =>
    rw [hqueued] at h
    cases h
    exact .inl ⟨rfl, rfl⟩
  | some p =>
    rw [hqueued] at h
    dsimp only at h
    unfold bbrAck at h
    split_ifs at h with hack
    obtain ⟨⟨sample, bwSampler, p'⟩, hacked, rfl⟩ := Lib.map_eq_ok.mp h
    exact .inr ⟨p, sample, bwSampler, p', rfl, by simpa using hack, hacked, rfl⟩

/-! ### Packets that are sent or lost -/

/-- A packet that is sent is queued. -/
theorem onPacketSentCc_eq (s : Bbr) (pkt : Sent) :
    ∃ bwSampler p, p.poPackno = pkt.pktNum ∧
      s.bwSampler.packetSent ⟨pkt.pktNum, pkt.time, pkt.size, none, pkt.time⟩ s.bytesInFlight =
        (bwSampler, p) ∧
      s.onPacketSentCc F pkt = { s with
        bwSampler
        lastSentPackno := pkt.pktNum
        bytesInFlight := s.bytesInFlight + pkt.size
        packetOutQue := Lib.insertKey PacketOut.poPackno p s.packetOutQue } :=
  ⟨_, _, rfl, rfl, rfl⟩

/-- Lost packets only count against the bytes in flight. -/
theorem decreased_eq (h : Driven.Decreased (bbr F) s s') :
    ∃ bytesInFlight, s' = { s with bytesInFlight } := by
  induction h with
  | refl => exact ⟨_, rfl⟩
  | tail _ hstep ih =>
    obtain ⟨bytes, hbytes⟩ := hstep
    obtain ⟨bytesInFlight, -, rfl⟩ := Lib.map_eq_ok.mp (show Except.map _ _ = _ from hbytes)
    obtain ⟨_, rfl⟩ := ih
    exact ⟨_, rfl⟩

/-- BBR learns of lost packets only by the bytes in flight. -/
theorem onPacketsLost_eq {d d' : Driven Bbr} {pkts : List Sent} {epoch : Epoch} {srtt now : ℕ}
    (h : d.onPacketsLost (bbr F) pkts epoch srtt now = .ok d') :
    ∃ bytesInFlight, d'.cc = { d.cc with bytesInFlight } := by
  obtain ⟨cc, hdecreased, -, hreport⟩ := Driven.lost_cases h
  have heq : d'.cc = cc := by
    rcases hreport with ⟨-, heq⟩ | ⟨p, -, hcc⟩
    · exact heq
    · exact (Except.ok.inj hcc).symm
  rw [heq]
  exact decreased_eq hdecreased

/-! ### Examples of runs -/

/-- Floats that do not round, on small numbers. -/
def exactFloats : Floats where
  times value factor := (value * factor).floor.toNat
  bdp gain bytesPerSec rtt := (gain * (bytesPerSec * (rtt / 10 ^ 9))).floor.toNat
  product value time := value * (time / 1000)
  exceeds time other factor := (other / 1000 : ℕ) * factor < (time / 1000 : ℕ)

/-- A packet of 1200 bytes. -/
def examplePacket (pktNum time : ℕ) : Sent := ⟨pktNum, [], time, 1200, true, true, .none⟩

/-- Packets are sent at once, and acked at once up to the end of the ack. -/
def exampleRound (pktNums : List ℕ) (sentTime ackTime : ℕ) : List Operation :=
  pktNums.map (fun n => .onPacketSentCc exactFloats (examplePacket n sentTime)) ++
    .bbrBeginAck ackTime (1200 * pktNums.length) ::
      pktNums.reverse.map fun n => .onPacketAckedCc (examplePacket n sentTime)

end Dtp.Cc.Bbr
