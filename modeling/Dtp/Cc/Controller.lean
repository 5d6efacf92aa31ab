import Mathlib.Logic.Relation
import Dtp.Lib.Results
import Dtp.Lib.Rounding
import Dtp.Lib.Runs
import Dtp.Recovery

/-!
# Congestion controllers

What loss recovery asks of a congestion controller, and the order in which it asks: packets are
sent, acked and lost, and losses are counted before the controller hears about them.

## Main definitions

* `CongestionControl` — the operations of a controller
* `Event`, `Driven.step` — what loss recovery reports to a controller
* `CongestionControl.Preserves` — an invariant that all operations keep

## Main results

* `Driven.lost_cases` — what a batch of losses does
* `CongestionControl.Preserves.step` — what all operations keep, all events keep
-/

namespace Dtp.Cc

/-! ### Constants -/

/-- The size of a datagram, in bytes. -/
def maxDatagramSize : ℕ := 1452

/-- The initial window, in datagrams. -/
def initialWindowPackets : ℕ := 10

/-- The smallest window, in datagrams. -/
def minimumWindowPackets : ℕ := 2

/-- The initial window. -/
def initialWindow : ℕ := initialWindowPackets * maxDatagramSize

/-- The smallest window. -/
def minimumWindow : ℕ := minimumWindowPackets * maxDatagramSize

/-- `n as f64`, which is a natural again. -/
def asF64 (n : ℕ) : ℕ := Lib.roundBits 53 n

/-! ### The operations of a controller -/

/-- What a controller learns of an acked packet. -/
structure Acked where
  packet : Sent
  srtt : ℕ
  minRtt : ℕ
  latestRtt : ℕ
  appLimited : Bool
  epoch : Epoch
  lostCount : ℕ
  /-- What the clock says. -/
  now : ℕ

/-- What a controller learns of lost packets. -/
structure Congestion where
  srtt : ℕ
  timeSent : ℕ
  now : ℕ
  packetId : ℕ
  epoch : Epoch
  lostCount : ℕ

/-- Congestion control algorithm. The clock and the random numbers are given to the operations that
ask for them. -/
structure CongestionControl (κ : Type) where
  cwnd : κ → ℕ
  bytesInFlight : κ → ℕ
  decreaseBytesInFlight : κ → ℕ → Except Fault κ
  collapseCwnd : κ → κ
  onPacketSentCc : κ → Sent → ℕ → Except Fault κ
  onPacketAckedCc : κ → Acked → Except Fault κ
  congestionEvent : κ → Congestion → Except Fault κ
  ccBbrBeginAck : κ → ℕ → Except Fault κ
  ccBbrEndAck : κ → ℕ → Except Fault κ

/-- A packet that was sent before a recovery period began is not counted against it. -/
def inCongestionRecovery (congestionRecoveryStartTime : Option ℕ) (sentTime : ℕ) : Prop :=
  ∃ start ∈ congestionRecoveryStartTime, sentTime ≤ start

instance (start : Option ℕ) (sentTime : ℕ) : Decidable (inCongestionRecovery start sentTime) :=
  match start with
  | none => isFalse (by simp [inCongestionRecovery])
  | some t => decidable_of_iff (sentTime ≤ t) (by simp [inCongestionRecovery])

/-- Persistent congestion is not detected. -/
def inPersistentCongestion (_ : Sent) : Bool := false

/-! ### What loss recovery reports -/

/-- A controller, with the number of packets that were lost so far. -/
structure Driven (κ : Type) where
  cc : κ
  lostCount : ℕ
  deriving DecidableEq

/-- What happens to packets. -/
inductive Event
  | sent (pkt : Sent) (now : ℕ)
  | beginAck (now : ℕ)
  | acked (packet : Sent) (srtt minRtt latestRtt : ℕ) (appLimited : Bool) (epoch : Epoch) (now : ℕ)
  | endAck (random : ℕ)
  | lost (pkts : List Sent) (epoch : Epoch) (srtt now : ℕ)
  | dropped (unackedBytes : ℕ)

/-- The number of packets that an event declares lost. -/
def Event.lostPackets : Event → ℕ
  | .lost pkts _ _ _ => pkts.length
  | _ => 0

namespace Driven

variable {κ : Type} (C : CongestionControl κ)

/-- Counts a lost packet. -/
def onPacketLost (epoch : Epoch) (d : Driven κ) (p : Sent) : Except Fault (Driven κ) :=
  let d := { d with lostCount := d.lostCount + 1 }
  if p.inFlight ∧ epoch = .application then
    (C.decreaseBytesInFlight d.cc p.size).map fun cc => { d with cc }
  else .ok d

/-- Counts the lost packets. -/
def countLost (epoch : Epoch) : List Sent → Driven κ → Except Fault (Driven κ)
  | [], d => .ok d
  | p :: ps, d => (d.onPacketLost C epoch p).bind (countLost epoch ps)

/-- Counts the lost packets, and reports the last of those that were in flight. -/
def onPacketsLost (d : Driven κ) (lostPkt : List Sent) (epoch : Epoch) (srtt now : ℕ) :
    Except Fault (Driven κ) :=
  (countLost C epoch lostPkt d).bind fun d =>
    match (lostPkt.filter Sent.inFlight).getLast? with
    | none => .ok d
    | some largestLostPkt =>
      (C.congestionEvent d.cc ⟨srtt, largestLostPkt.time, now, largestLostPkt.pktNum, epoch,
        d.lostCount⟩).map
        fun cc =>
          { d with cc := if inPersistentCongestion largestLostPkt then C.collapseCwnd cc else cc }

/-- The controller after an event. -/
def handle (d : Driven κ) : Event → Except Fault (Driven κ)
  | .sent pkt now => (C.onPacketSentCc d.cc pkt now).map fun cc => { d with cc }
  | .beginAck now => (C.ccBbrBeginAck d.cc now).map fun cc => { d with cc }
  | .acked packet srtt minRtt latestRtt appLimited epoch now =>
    (C.onPacketAckedCc d.cc ⟨packet, srtt, minRtt, latestRtt, appLimited, epoch, d.lostCount,
      now⟩).map
      fun cc => { d with cc }
  | .endAck random => (C.ccBbrEndAck d.cc random).map fun cc => { d with cc }
  | .lost pkts epoch srtt now => d.onPacketsLost C pkts epoch srtt now
  | .dropped unackedBytes => (C.decreaseBytesInFlight d.cc unackedBytes).map fun cc => { d with cc }

/-- The state after an event, if nothing panics. -/
def step (d : Driven κ) (e : Event) : Option (Driven κ) := (d.handle C e).toOption

variable {C} {d d' : Driven κ} {epoch : Epoch} {pkts : List Sent} {srtt now : ℕ}

/-- A controller after bytes in flight were subtracted, any number of times. -/
def Decreased (C : CongestionControl κ) : κ → κ → Prop :=
  Relation.ReflTransGen fun cc cc' => ∃ bytes, C.decreaseBytesInFlight cc bytes = .ok cc'

private theorem countLost_spec (hcount : countLost C epoch pkts d = .ok d') :
    Decreased C d.cc d'.cc ∧ d'.lostCount = d.lostCount + pkts.length := by
  induction pkts generalizing d with
  | nil =>
    obtain rfl : d = d' := Except.ok.inj hcount
    exact ⟨.refl, rfl⟩
  | cons p ps ih =>
    obtain ⟨d₁, hfirst, hrest⟩ := Lib.bind_eq_ok.mp hcount
    obtain ⟨hdecreased, hlost⟩ := ih hrest
    have hone : Decreased C d.cc d₁.cc ∧ d₁.lostCount = d.lostCount + 1 := by
      unfold onPacketLost at hfirst
      dsimp only at hfirst
      split_ifs at hfirst
      · obtain ⟨cc, hcc, rfl⟩ := Lib.map_eq_ok.mp hfirst
        exact ⟨.single ⟨_, hcc⟩, rfl⟩
      · cases hfirst
        exact ⟨.refl, rfl⟩
    refine ⟨hone.1.trans hdecreased, ?_⟩
    rw [hlost, hone.2, List.length_cons]
    omega

/-- Lost packets that the controller has not counted do not change it. -/
theorem countLost_of_not (hcount : countLost C epoch pkts d = .ok d')
    (hnot : ∀ p ∈ pkts, ¬ (p.inFlight = true ∧ epoch = .application)) : d'.cc = d.cc := by
  induction pkts generalizing d with
  | nil =>
    cases hcount
    rfl
  | cons p ps ih =>
    obtain ⟨d₁, hfirst, hrest⟩ := Lib.bind_eq_ok.mp hcount
    have hcc := ih hrest fun q hq => hnot q (List.mem_cons_of_mem p hq)
    unfold onPacketLost at hfirst
    dsimp only at hfirst
    rw [if_neg (hnot p List.mem_cons_self)] at hfirst
    cases hfirst
    exact hcc

/-- A batch of losses is counted first. Then the last packet of those in flight, if any, is
reported. -/
theorem lost_cases (hlost : d.onPacketsLost C pkts epoch srtt now = .ok d') :
    ∃ cc, Decreased C d.cc cc ∧ d'.lostCount = d.lostCount + pkts.length ∧
      ((pkts.filter Sent.inFlight).getLast? = none ∧ d'.cc = cc ∨
        ∃ p, (pkts.filter Sent.inFlight).getLast? = some p ∧
          C.congestionEvent cc ⟨srtt, p.time, now, p.pktNum, epoch, d'.lostCount⟩ = .ok d'.cc) := by
  obtain ⟨d₁, hcount, hreport⟩ := Lib.bind_eq_ok.mp hlost
  obtain ⟨hdecreased, hlostCount⟩ := countLost_spec hcount
  refine ⟨d₁.cc, hdecreased, ?_⟩
  cases hlast : (pkts.filter Sent.inFlight).getLast? with
  | none =>
    rw [hlast] at hreport
    cases hreport
    exact ⟨hlostCount, .inl ⟨rfl, rfl⟩⟩
  | some p =>
    rw [hlast] at hreport
    obtain ⟨cc, hcc, rfl⟩ := Lib.map_eq_ok.mp hreport
    exact ⟨hlostCount, .inr ⟨p, rfl, hcc⟩⟩

end Driven

/-- An invariant of a controller and the number of lost packets, which all operations keep. -/
structure CongestionControl.Preserves {κ : Type} (C : CongestionControl κ) (I : κ → ℕ → Prop) :
    Prop where
  count {cc n m} : I cc n → n ≤ m → I cc m
  decrease {cc n bytes cc'} : I cc n → C.decreaseBytesInFlight cc bytes = .ok cc' → I cc' n
  sent {cc n pkt now cc'} : I cc n → C.onPacketSentCc cc pkt now = .ok cc' → I cc' n
  acked {cc a cc'} : I cc a.lostCount → C.onPacketAckedCc cc a = .ok cc' → I cc' a.lostCount
  lost {cc e cc'} : I cc e.lostCount → C.congestionEvent cc e = .ok cc' → I cc' e.lostCount
  beginAck {cc n now cc'} : I cc n → C.ccBbrBeginAck cc now = .ok cc' → I cc' n
  endAck {cc n random cc'} : I cc n → C.ccBbrEndAck cc random = .ok cc' → I cc' n

namespace CongestionControl.Preserves

variable {κ : Type} {C : CongestionControl κ} {I : κ → ℕ → Prop} {d d' : Driven κ} {e : Event}

private theorem decreased (h : C.Preserves I) {cc cc' : κ} {n : ℕ} (hI : I cc n)
    (hdecreased : Driven.Decreased C cc cc') : I cc' n := by
  induction hdecreased with
  | refl => exact hI
  | tail _ hstep ih =>
    obtain ⟨bytes, hbytes⟩ := hstep
    exact h.decrease ih hbytes

/-- What all operations keep, all events keep. -/
theorem step (h : C.Preserves I) (hI : I d.cc d.lostCount) (hstep : d.step C e = some d') :
    I d'.cc d'.lostCount := by
  have hhandle := Lib.toOption_eq_some.mp hstep
  cases e with
  | sent pkt now =>
    obtain ⟨cc, hcc, rfl⟩ := Lib.map_eq_ok.mp hhandle
    exact h.sent hI hcc
  | beginAck now =>
    obtain ⟨cc, hcc, rfl⟩ := Lib.map_eq_ok.mp hhandle
    exact h.beginAck hI hcc
  | acked packet srtt minRtt latestRtt appLimited epoch now =>
    obtain ⟨cc, hcc, rfl⟩ := Lib.map_eq_ok.mp hhandle
    exact h.acked hI hcc
  | endAck random =>
    obtain ⟨cc, hcc, rfl⟩ := Lib.map_eq_ok.mp hhandle
    exact h.endAck hI hcc
  | lost pkts epoch srtt now =>
    obtain ⟨cc, hdecreased, hlostCount, hreport⟩ := Driven.lost_cases hhandle
    have hcounted : I cc d'.lostCount := h.count (h.decreased hI hdecreased) (by omega)
    rcases hreport with ⟨-, heq⟩ | ⟨p, -, hcc⟩
    · rwa [heq]
    · exact h.lost hcounted hcc
  | dropped unackedBytes =>
    obtain ⟨cc, hcc, rfl⟩ := Lib.map_eq_ok.mp hhandle
    exact h.decrease hI hcc

end CongestionControl.Preserves

end Dtp.Cc
