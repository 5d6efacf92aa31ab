import Dtp.Cc.Controller
import Dtp.Losses

/-!
# Loss recovery with its congestion controller

`Controlled` is `Recovery` with any congestion controller, which hears of packets when loss
recovery calls it. The controller has no say in which packets are acked or lost: a call that
returns does the same to the packets as it does without a controller. An ACK frame for packets
that were not sent is refused after the controller has begun the ack, and it does not hear of the
end of that ack.

The timer is not part of the state, see `LossDetection`.

## Main definitions

* `Controlled`, `ControlledCall` — loss recovery with a controller, and its calls
* `Controlled.report` — how the controller hears of an event
* `Controlled.Hears` — the controller gets from one state to another by hearing of events

## Main results

* `Controlled.call_toRecovery` — a call that returns is a call of `Recovery`
* `Controlled.hears_call` — the controller hears of a call as a list of events
* `CongestionControl.Preserves.call` — what all operations of a controller keep, calls keep
-/

namespace Dtp.Cc

/-- Loss recovery with its congestion controller. -/
structure Controlled (κ : Type) extends Recovery where
  cc : κ
  appLimited : Bool

/-- The round-trip times and the random number of a call. -/
structure Measured where
  srtt : ℕ
  minRtt : ℕ
  latestRtt : ℕ
  random : ℕ

/-- A call, with what the controller learns besides. -/
structure ControlledCall extends Measured where
  call : RecoveryCall

namespace Controlled

variable {κ : Type} (C : CongestionControl κ)

/-- No packet is sent yet. -/
def new (cc : κ) : Controlled κ := { Recovery.new with cc, appLimited := false }

/-- The controller as it is driven. -/
def driven (c : Controlled κ) : Driven κ := ⟨c.cc, c.lostCount⟩

/-- The controller hears of an event. -/
def report (c : Controlled κ) (e : Event) : Except Fault (Controlled κ) :=
  (c.driven.handle C e).map fun d => { c with cc := d.cc }

/-- A packet is sent. The controller hears of application packets in flight. -/
def onPacketSent (c : Controlled κ) (pkt : Sent) (epoch : Epoch) (t : Timing) :
    Except Fault (Controlled κ) :=
  let appLimited :=
    if pkt.inFlight then decide
      (C.bytesInFlight c.cc + pkt.size + 1350 < C.cwnd c.cc) else c.appLimited
  let c := { c with appLimited }
  (if pkt.inFlight ∧ epoch = .application then c.report C (.sent pkt t.now) else .ok c).map fun c =>
    { c with toRecovery := c.toRecovery.onPacketSent pkt epoch t.now }

/-- Removes an acked packet, unless it is not newly acked. Its frames are handed out before the
controller hears of it. -/
def onPacketAcked (c : Controlled κ) (pktNum : ℕ) (epoch : Epoch) (t : Timing) (m : Measured) :
    Except Fault (Bool × Controlled κ) :=
  let result := c.toRecovery.onPacketAcked pktNum epoch
  let c' := { c with toRecovery := result.2 }
  match (c.sent epoch).find? fun p => p.pktNum == pktNum with
  | none => .ok (result.1, c')
  | some p =>
    let event := .acked p.bare m.srtt m.minRtt m.latestRtt c.appLimited epoch t.now
    (if p.inFlight ∧ epoch = .application then c'.report C event else .ok c').map fun c =>
    (result.1, c)

/-- The loop over the acked packet numbers, from the largest down. -/
def ackLoop (epoch : Epoch) (t : Timing) (m : Measured) :
    List ℕ → Bool × Controlled κ → Except Fault (Bool × Controlled κ)
  | [], acc => .ok acc
  | pn :: pns, (newly, c) =>
    -- all that follow are acked already
    if (c.sent epoch).head?.any fun lowest => pn < lowest.pktNum then .ok (newly, c)
    else
      (c.onPacketAcked C pn epoch t m).bind fun result =>
        ackLoop epoch t m pns (newly || result.1, result.2)

/-- Declares packets lost. They are removed one by one, but the controller does not see the packets
that are left, and may as well hear of all of them first. -/
def detectLostPackets (c : Controlled κ) (epoch : Epoch) (t : Timing) (m : Measured) :
    Except Fault (Controlled κ) :=
  let lost := (c.sent epoch).filter (Recovery.isLost (c.largestAckedPkt epoch) t.now t.lossDelay)
  (c.report C (.lost lost epoch m.srtt t.now)).map fun c =>
    { c with toRecovery := c.toRecovery.detectLostPackets epoch t.now t.lossDelay }

/-- Processes the ranges of an ACK frame once the ack has begun. -/
def processRanges (c : Controlled κ) (ranges : RangeSet) (epoch : Epoch) (t : Timing)
    (m : Measured) :
    Except Fault (Except Error Unit × Controlled κ) :=
  match ranges.largest with
  | none => .error .panic
  | some largestAcked =>
    -- the peer acks a packet that was not sent
    if c.largestSentPkt epoch < largestAcked then .ok (.error .invalidPacket, c)
    else
      let c := { c with toRecovery := c.toRecovery.noteLargest epoch largestAcked }
      (ackLoop C epoch t m ranges.flatten.reverse (false, c)).bind fun acked =>
        (acked.2.report C (.endAck m.random)).bind fun c =>
          (if acked.1 then c.detectLostPackets C epoch t m else .ok c).map fun c => (.ok (), c)

/-- Processes the ranges of an ACK frame. -/
def onAckReceived (c : Controlled κ) (ranges : RangeSet) (epoch : Epoch) (t : Timing)
    (m : Measured) :
    Except Fault (Except Error Unit × Controlled κ) :=
  (c.report C (.beginAck t.now)).bind fun c => c.processRanges C ranges epoch t m

/-- Declares packets lost, or asks for probes. -/
def onLossDetectionTimeout (c : Controlled κ) (handshakeCompleted : Bool) (t : Timing)
    (m : Measured) :
    Except Fault (Controlled κ) :=
  let earliest := Recovery.earliestLossTime c.lossTime handshakeCompleted
  if earliest.1.isSome then c.detectLostPackets C earliest.2 t m
  else .ok { c with
    toRecovery := c.toRecovery.onLossDetectionTimeout handshakeCompleted t.now t.lossDelay }

/-- Forgets the packets of an epoch. -/
def dropUnackedData (c : Controlled κ) (epoch : Epoch) : Except Fault (Controlled κ) :=
  (if epoch = .application then c.report C (.dropped (LossDetection.unackedBytes (c.sent epoch)))
    else .ok c).map fun c => { c with toRecovery := c.toRecovery.dropUnackedData epoch }

/-- What a call returns, and the state after it. -/
def call (c : Controlled κ) (x : ControlledCall) :
    Except Fault (Except Error Unit × Controlled κ) :=
  match x.call with
  | .onPacketSent pkt epoch _ t => (c.onPacketSent C pkt epoch t).map fun c => (.ok (), c)
  | .onAckReceived ranges epoch _ t => c.onAckReceived C ranges epoch t x.toMeasured
  | .onLossDetectionTimeout handshakeCompleted t =>
    (c.onLossDetectionTimeout C handshakeCompleted t x.toMeasured).map fun c => (.ok (), c)
  | .dropUnackedData epoch => (c.dropUnackedData C epoch).map fun c => (.ok (), c)
  | .drainAcked epoch => .ok (.ok (), { c with toRecovery := c.toRecovery.drainAcked epoch })
  | .drainLost epoch => .ok (.ok (), { c with toRecovery := c.toRecovery.drainLost epoch })

/-- Whether a call may happen: packets have fresh numbers, and the ranges of ACK frames are
canonical. -/
def Permits (c : Controlled κ) : RecoveryCall → Prop
  | .onPacketSent pkt epoch _ _ => ∀ p ∈ c.sent epoch, p.pktNum ≠ pkt.pktNum
  | .onAckReceived ranges _ _ _ => ranges.Canonical
  | .onLossDetectionTimeout _ _ | .dropUnackedData _ | .drainAcked _ | .drainLost _ => True

instance (c : Controlled κ) : (call : RecoveryCall) → Decidable (c.Permits call)
  | .onPacketSent pkt epoch _ _ =>
    inferInstanceAs (Decidable (∀ p ∈ c.sent epoch, p.pktNum ≠ pkt.pktNum))
  | .onAckReceived ranges _ _ _ => inferInstanceAs (Decidable ranges.Canonical)
  | .onLossDetectionTimeout _ _ | .dropUnackedData _ | .drainAcked _ | .drainLost _ =>
    isTrue trivial

/-- The state after a call, if it may happen and nothing panics. -/
def step (c : Controlled κ) (x : ControlledCall) : Option (Controlled κ) :=
  if c.Permits x.call then (c.call C x).toOption.map Prod.snd else none

variable {C} {c c' : Controlled κ} {e : Event} {x : ControlledCall} {epoch : Epoch} {t : Timing}
    {m : Measured}
  {ranges : RangeSet} {pn : ℕ} {newly : Bool} {result : Except Error Unit}

/-! ### The packets of a call -/

/-- Only the controller changes when it hears of an event. -/
theorem report_eq (h : c.report C e = .ok c') :
    ∃ d, c.driven.handle C e = .ok d ∧ c' = { c with cc := d.cc } := by
  obtain ⟨d, hd, rfl⟩ := Lib.map_eq_ok.mp h
  exact ⟨d, hd, rfl⟩

theorem report_toRecovery (h : c.report C e = .ok c') : c'.toRecovery = c.toRecovery := by
  obtain ⟨d, -, rfl⟩ := report_eq h
  rfl

/-- The controller does not hear of all packets. -/
theorem ite_report_toRecovery {P : Prop} [Decidable P]
    (h : (if P then c.report C e else .ok c) = .ok c') :
    c'.toRecovery = c.toRecovery := by
  split_ifs at h
  · exact report_toRecovery h
  · cases h
    rfl

private theorem onPacketSent_toRecovery {pkt : Sent} (h : c.onPacketSent C pkt epoch t = .ok c') :
    c'.toRecovery = c.toRecovery.onPacketSent pkt epoch t.now := by
  obtain ⟨c₁, hreport, rfl⟩ := Lib.map_eq_ok.mp h
  rw [ite_report_toRecovery hreport]

theorem onPacketAcked_toRecovery (h : c.onPacketAcked C pn epoch t m = .ok (newly, c')) :
    c.toRecovery.onPacketAcked pn epoch = (newly, c'.toRecovery) := by
  unfold Controlled.onPacketAcked at h
  dsimp only at h
  cases hfind : (c.sent epoch).find? fun p => p.pktNum == pn with
  | none =>
    rw [hfind] at h
    obtain ⟨rfl, rfl⟩ := Prod.mk.inj (Except.ok.inj h)
    rfl
  | some p =>
    rw [hfind] at h
    obtain ⟨c₁, hreport, heq⟩ := Lib.map_eq_ok.mp h
    obtain ⟨rfl, rfl⟩ := Prod.mk.inj heq
    rw [ite_report_toRecovery hreport]

/-- What acking a packet keeps, the scan keeps. -/
theorem ackLoop_induct {P : Controlled κ → Prop} {pns : List ℕ} {acked : Bool × Controlled κ}
    (hacked : ∀ c, P c → ∀ pn newly c', c.onPacketAcked C pn epoch t m = .ok (newly, c') → P c')
    (hP : P c) (h : ackLoop C epoch t m pns (newly, c) = .ok acked) : P acked.2 := by
  induction pns generalizing c newly with
  | nil =>
    cases h
    exact hP
  | cons pn pns ih =>
    unfold ackLoop at h
    split_ifs at h
    · cases h
      exact hP
    · obtain ⟨result, hone, hrest⟩ := Lib.bind_eq_ok.mp h
      exact ih (hacked c hP pn result.1 result.2 hone) hrest

theorem ackLoop_toRecovery {pns : List ℕ} {acked : Bool × Controlled κ}
    (h : ackLoop C epoch t m pns (newly, c) = .ok acked) :
    Recovery.ackLoop epoch pns (newly, c.toRecovery) = (acked.1, acked.2.toRecovery) := by
  induction pns generalizing c newly with
  | nil =>
    cases h
    rfl
  | cons pn pns ih =>
    unfold ackLoop at h
    unfold Recovery.ackLoop
    split_ifs at h ⊢
    · cases h
      rfl
    · obtain ⟨result, hone, hrest⟩ := Lib.bind_eq_ok.mp h
      rw [onPacketAcked_toRecovery hone]
      exact ih hrest

theorem detectLostPackets_toRecovery (h : c.detectLostPackets C epoch t m = .ok c') :
    c'.toRecovery = c.toRecovery.detectLostPackets epoch t.now t.lossDelay := by
  obtain ⟨c₁, hreport, rfl⟩ := Lib.map_eq_ok.mp h
  rw [report_toRecovery hreport]

/-- An ACK frame begins an ack. It is refused then, or its packets are acked, the ack ends, and
losses are detected if a packet is newly acked. -/
theorem onAckReceived_cases (h : c.onAckReceived C ranges epoch t m = .ok (result, c')) :
    ∃ c₁ largest, c.report C (.beginAck t.now) = .ok c₁ ∧ ranges.largest = some largest ∧
      (c.largestSentPkt epoch < largest ∧ result = .error .invalidPacket ∧ c' = c₁ ∨
        largest ≤ c.largestSentPkt epoch ∧ result = .ok () ∧
          ∃ acked c₂, ackLoop C epoch t m ranges.flatten.reverse
              (false, { c₁ with toRecovery := c.toRecovery.noteLargest epoch largest }) =
                .ok acked ∧
            acked.2.report C (.endAck m.random) = .ok c₂ ∧
            (acked.1 = false ∧ c' = c₂ ∨ acked.1 = true ∧
                c₂.detectLostPackets C epoch t m = .ok c')) := by
  obtain ⟨c₁, hbegin, h⟩ := Lib.bind_eq_ok.mp h
  have hbase := report_toRecovery hbegin
  unfold processRanges at h
  cases hlargest : ranges.largest with
  | none =>
    rw [hlargest] at h
    cases h
  | some largest =>
    rw [hlargest] at h
    dsimp only at h
    rw [hbase] at h
    refine ⟨c₁, largest, hbegin, rfl, ?_⟩
    split_ifs at h with hunsent
    · obtain ⟨rfl, rfl⟩ := Prod.mk.inj (Except.ok.inj h)
      exact .inl ⟨hunsent, rfl, rfl⟩
    · obtain ⟨acked, hloop, h⟩ := Lib.bind_eq_ok.mp h
      obtain ⟨c₂, hend, h⟩ := Lib.bind_eq_ok.mp h
      obtain ⟨c₃, hdetect, heq⟩ := Lib.map_eq_ok.mp h
      obtain ⟨rfl, rfl⟩ := Prod.mk.inj heq
      refine .inr ⟨not_lt.mp hunsent, rfl, acked, c₂, hloop, hend, ?_⟩
      cases hnewly : acked.1 with
      | false =>
        rw [hnewly] at hdetect
        exact .inl ⟨rfl, (Except.ok.inj hdetect).symm⟩
      | true =>
        rw [hnewly] at hdetect
        exact .inr ⟨rfl, hdetect⟩

private theorem onLossDetectionTimeout_toRecovery {handshakeCompleted : Bool}
    (h : c.onLossDetectionTimeout C handshakeCompleted t m = .ok c') :
    c'.toRecovery = c.toRecovery.onLossDetectionTimeout handshakeCompleted t.now t.lossDelay := by
  unfold Controlled.onLossDetectionTimeout at h
  dsimp only at h
  split_ifs at h with hloss
  · rw [detectLostPackets_toRecovery h, Recovery.onLossDetectionTimeout]
    dsimp only
    rw [if_pos hloss]
  · cases h
    rfl

theorem dropUnackedData_toRecovery (h : c.dropUnackedData C epoch = .ok c') :
    c'.toRecovery = c.toRecovery.dropUnackedData epoch := by
  obtain ⟨c₁, hreport, rfl⟩ := Lib.map_eq_ok.mp h
  rw [ite_report_toRecovery hreport]

/-- A call that returns does to the packets what it does without a controller. -/
theorem call_toRecovery (h : c.call C x = .ok (result, c')) :
    c.toRecovery.step x.call = some c'.toRecovery := by
  obtain ⟨m, call⟩ := x
  unfold Controlled.call at h
  cases call with
  | onPacketSent pkt epoch handshakeCompleted t =>
    obtain ⟨c₁, hsent, heq⟩ := Lib.map_eq_ok.mp h
    obtain ⟨rfl, rfl⟩ := Prod.mk.inj heq
    exact congrArg some (onPacketSent_toRecovery hsent).symm
  | onAckReceived ranges epoch handshakeCompleted t =>
    -- reports to the controller come before and after the scan, and change no packet
    obtain ⟨c₁, largest, hbegin, hlargest, hcases⟩ := onAckReceived_cases h
    have hbase := report_toRecovery hbegin
    change afterCall _ (c.toRecovery.onAckReceived ranges epoch t.now t.lossDelay) = _
    rcases hcases with ⟨hunsent, rfl, rfl⟩ | ⟨hle, rfl, acked, c₂, hloop, hend, hdetect⟩
    · unfold Recovery.onAckReceived
      rw [hlargest, hbase]
      dsimp only
      rw [if_pos hunsent]
      rfl
    · have hscan := ackLoop_toRecovery hloop
      have hafter : c.toRecovery.onAckReceived ranges epoch t.now t.lossDelay =
          .ok c'.toRecovery := by
        apply Recovery.onAckReceived_eq_ok.mpr
        refine ⟨largest, hlargest, hle, ?_⟩
        dsimp only at hscan ⊢
        rw [hscan, ← report_toRecovery hend]
        rcases hdetect with ⟨hnewly, rfl⟩ | ⟨hnewly, hdetect⟩
        · rw [hnewly]
          rfl
        · rw [hnewly, detectLostPackets_toRecovery hdetect]
          rfl
      rw [hafter]
      rfl
  | onLossDetectionTimeout handshakeCompleted t =>
    obtain ⟨c₁, htimeout, heq⟩ := Lib.map_eq_ok.mp h
    obtain ⟨rfl, rfl⟩ := Prod.mk.inj heq
    exact congrArg some (onLossDetectionTimeout_toRecovery htimeout).symm
  | dropUnackedData epoch =>
    obtain ⟨c₁, hdrop, heq⟩ := Lib.map_eq_ok.mp h
    obtain ⟨rfl, rfl⟩ := Prod.mk.inj heq
    exact congrArg some (dropUnackedData_toRecovery hdrop).symm
  | drainAcked epoch =>
    cases h
    rfl
  | drainLost epoch =>
    cases h
    rfl

theorem step_eq_some :
    c.step C x = some c' ↔ c.Permits x.call ∧ ∃ result, c.call C x = .ok (result, c') := by
  unfold Controlled.step
  split_ifs with hpermits
  · simp only [hpermits, true_and, Option.map_eq_some_iff, Lib.toOption_eq_some, Prod.exists,
      exists_eq_right]
  · exact iff_of_false nofun fun h => hpermits h.1

/-! ### What the controller hears -/

/-- The controller gets from one state to the other by hearing of events. -/
def Hears (C : CongestionControl κ) (c c' : Controlled κ) : Prop :=
  ∃ events, Lib.run (Driven.step C) c.driven events = some c'.driven

theorem Hears.of_eq (hcc : c'.cc = c.cc) (hcount : c'.lostCount = c.lostCount) : Hears C c c' := by
  refine ⟨[], ?_⟩
  rw [Lib.run_nil, driven, driven, hcc, hcount]

theorem Hears.trans {c₁ : Controlled κ} (h : Hears C c c₁) (h' : Hears C c₁ c') : Hears C c c' := by
  obtain ⟨events, hrun⟩ := h
  obtain ⟨events', hrun'⟩ := h'
  refine ⟨events ++ events', ?_⟩
  rw [Lib.run_append, hrun]
  exact hrun'

/-- Only losses count as such. -/
theorem lostCount_handle {d d' : Driven κ} (h : d.handle C e = .ok d') :
    d'.lostCount = d.lostCount + e.lostPackets := by
  cases e with
  | lost pkts epoch srtt now =>
    obtain ⟨-, -, hcount, -⟩ := Driven.lost_cases h
    exact hcount
  | sent pkt now | beginAck now | endAck random | dropped bytes =>
    obtain ⟨cc, -, rfl⟩ := Lib.map_eq_ok.mp h
    rfl
  | acked packet srtt minRtt latestRtt appLimited epoch now =>
    obtain ⟨cc, -, rfl⟩ := Lib.map_eq_ok.mp h
    rfl

/-- Loss recovery and its controller count the same losses. -/
theorem Hears.of_report {c₁ : Controlled κ} (h : c.report C e = .ok c₁) (hcc : c'.cc = c₁.cc)
    (hcount : c'.lostCount = c.lostCount + e.lostPackets) : Hears C c c' := by
  obtain ⟨d, hd, rfl⟩ := report_eq h
  refine ⟨[e], ?_⟩
  have hsame : d = c'.driven := by
    have hlost := lostCount_handle hd
    rw [driven, hcc, hcount]
    exact congrArg (Driven.mk d.cc) hlost
  rw [Lib.run_cons, Driven.step, hd]
  exact congrArg some hsame

theorem Hears.of_ite_report {P : Prop} [Decidable P] {c₁ : Controlled κ}
    (h : (if P then c.report C e else .ok c) = .ok c₁) (hcc : c'.cc = c₁.cc)
    (hcount : c'.lostCount = c.lostCount) (he : e.lostPackets = 0) : Hears C c c' := by
  split_ifs at h
  · exact .of_report h hcc (by rw [hcount, he, Nat.add_zero])
  · cases h
    exact .of_eq hcc hcount

theorem hears_onPacketAcked (h : c.onPacketAcked C pn epoch t m = .ok (newly, c')) :
    Hears C c c' := by
  have hbase := onPacketAcked_toRecovery h
  have hcount := (Recovery.onPacketAcked_same c.toRecovery pn epoch).2
  unfold Controlled.onPacketAcked at h
  dsimp only at h
  cases hfind : (c.sent epoch).find? fun p => p.pktNum == pn with
  | none =>
    rw [hfind] at h
    cases h
    exact .of_eq rfl hcount
  | some p =>
    rw [hfind] at h
    obtain ⟨c₁, hreport, heq⟩ := Lib.map_eq_ok.mp h
    obtain ⟨rfl, rfl⟩ := Prod.mk.inj heq
    have hfirst : Hears C c { c with toRecovery := (c.toRecovery.onPacketAcked pn epoch).2 } :=
      .of_eq rfl hcount
    refine hfirst.trans (.of_ite_report hreport rfl ?_ rfl)
    rw [ite_report_toRecovery hreport]

theorem hears_detectLostPackets (h : c.detectLostPackets C epoch t m = .ok c') : Hears C c c' := by
  obtain ⟨c₁, hreport, rfl⟩ := Lib.map_eq_ok.mp h
  refine .of_report hreport rfl ?_
  rw [report_toRecovery hreport]
  exact Recovery.detectLostPackets_lostCount c.toRecovery epoch t.now t.lossDelay

/-- Every call is a list of events for the controller. -/
theorem hears_call (h : c.call C x = .ok (result, c')) : Hears C c c' := by
  obtain ⟨m, call⟩ := x
  unfold Controlled.call at h
  cases call with
  | onPacketSent pkt epoch handshakeCompleted t =>
    obtain ⟨c₁, hsent, heq⟩ := Lib.map_eq_ok.mp h
    obtain ⟨rfl, rfl⟩ := Prod.mk.inj heq
    obtain ⟨c₂, hreport, rfl⟩ := Lib.map_eq_ok.mp hsent
    change Hears C { c with appLimited := _ } _
    apply Hears.of_ite_report hreport
    · rfl
    · rw [ite_report_toRecovery hreport]
      exact (Recovery.modifyFecGroup_same _ _ _).2
    · rfl
  | onAckReceived ranges epoch handshakeCompleted t =>
    obtain ⟨c₁, largest, hbegin, hlargest, hcases⟩ := onAckReceived_cases h
    have hfirst : Hears C c c₁ := .of_report hbegin rfl (by rw [report_toRecovery hbegin]; rfl)
    rcases hcases with ⟨hunsent, rfl, rfl⟩ | ⟨hle, rfl, acked, c₂, hloop, hend, hdetect⟩
    · exact hfirst
    · -- the scan starts after the largest number is noted
      have hnoted : Hears C c₁
          { c₁ with toRecovery := c.toRecovery.noteLargest epoch largest } := by
        refine .of_eq rfl ?_
        rw [report_toRecovery hbegin]
        rfl
      have hscan := ackLoop_induct
        (fun _ hheard _ _ _ hacked => hheard.trans (hears_onPacketAcked hacked))
        (hfirst.trans hnoted) hloop
      have hended : Hears C acked.2 c₂ := .of_report hend rfl (by rw [report_toRecovery hend]; rfl)
      rcases hdetect with ⟨-, rfl⟩ | ⟨-, hdetect⟩
      · exact hscan.trans hended
      · exact (hscan.trans hended).trans (hears_detectLostPackets hdetect)
  | onLossDetectionTimeout handshakeCompleted t =>
    obtain ⟨c₁, htimeout, heq⟩ := Lib.map_eq_ok.mp h
    obtain ⟨rfl, rfl⟩ := Prod.mk.inj heq
    unfold Controlled.onLossDetectionTimeout at htimeout
    dsimp only at htimeout
    split_ifs at htimeout with hloss
    · exact hears_detectLostPackets htimeout
    · cases htimeout
      refine .of_eq rfl ?_
      unfold Recovery.onLossDetectionTimeout
      dsimp only
      rw [if_neg hloss]
  | dropUnackedData epoch =>
    obtain ⟨c₁, hdrop, heq⟩ := Lib.map_eq_ok.mp h
    obtain ⟨rfl, rfl⟩ := Prod.mk.inj heq
    obtain ⟨c₂, hreport, rfl⟩ := Lib.map_eq_ok.mp hdrop
    refine .of_ite_report hreport rfl ?_ rfl
    rw [ite_report_toRecovery hreport]
    rfl
  | drainAcked epoch =>
    cases h
    exact .of_eq rfl rfl
  | drainLost epoch =>
    cases h
    exact .of_eq rfl rfl

end Controlled

/-- What all operations of a controller keep, the calls of loss recovery keep. -/
theorem CongestionControl.Preserves.call {κ : Type} {C : CongestionControl κ} {I : κ → ℕ → Prop}
    (hI : C.Preserves I) {c c' : Controlled κ} (h : I c.cc c.lostCount) {x : ControlledCall}
    (hstep : c.step C x = some c') : I c'.cc c'.lostCount := by
  obtain ⟨-, result, hcall⟩ := Controlled.step_eq_some.mp hstep
  obtain ⟨events, hrun⟩ := Controlled.hears_call hcall
  have hkept (d : Driven κ) (e : Event) (d' : Driven κ) (hd : I d.cc d.lostCount)
      (hstep : d.step C e = some d') : I d'.cc d'.lostCount := hI.step hd hstep
  exact Lib.run_invariant hkept h hrun

end Dtp.Cc
