import Dtp.Lib.Keyed
import Dtp.Lib.Runs
import Dtp.Recovery

/-!
# The loss detection timer and congestion control

`LossDetection` adds to `Recovery` the timer that wakes it up and the bytes in flight that
a congestion controller counts. The controllers differ in how they subtract: where a
controller subtracts without saturating, too large a packet is an underflow. The delay after
which a packet counts as lost and the timeout of a probe come from the round-trip times,
and are given to the operations that need them.

## Main definitions

* `CongestionControl` — the bytes in flight of a controller
* `LossDetection` — loss recovery with its timer and its controller
* `RecoveryCall`, `Recovery.step`, `LossDetection.step` — the calls of a connection
* `LossDetection.Exact` — the controller counts the packets in flight

## Main results

* `LossDetection.Exact.call` — with an exact count, calls are those of `Recovery`
* `LossDetection.bytesInFlight_exact` — the count is exact along every run
-/

namespace Dtp

open Lib (Ascending)

/-- The congestion controllers. -/
inductive CongestionControlAlgorithm
  | reno
  | cubic
  | ccTrigger
  | bbr
  deriving DecidableEq

/-- What the congestion controllers have in common. -/
structure CongestionControl where
  algorithm : CongestionControlAlgorithm
  bytesInFlight : ℕ

namespace CongestionControl

/-- A new controller has nothing in flight. -/
def new (algorithm : CongestionControlAlgorithm) : CongestionControl := ⟨algorithm, 0⟩

/-- A subtraction that is not checked. -/
def subtract (cc : CongestionControl) (bytes : ℕ) : Except Fault CongestionControl :=
  if cc.bytesInFlight < bytes then .error .underflow
  else .ok { cc with bytesInFlight := cc.bytesInFlight - bytes }

/-- The bytes of a packet are in flight. -/
def onPacketSentCc (cc : CongestionControl) (bytesSent : ℕ) : CongestionControl :=
  { cc with bytesInFlight := cc.bytesInFlight + bytesSent }

/-- The bytes of an acked packet are not in flight any more. -/
def onPacketAckedCc (cc : CongestionControl) (size : ℕ) : Except Fault CongestionControl :=
  match cc.algorithm with
  | .cubic => .ok { cc with bytesInFlight := cc.bytesInFlight - size }
  | .reno | .ccTrigger | .bbr => cc.subtract size

/-- Bytes are not in flight any more. -/
def decreaseBytesInFlight (cc : CongestionControl) (bytes : ℕ) : Except Fault CongestionControl :=
  match cc.algorithm with
  | .reno | .cubic | .ccTrigger => .ok { cc with bytesInFlight := cc.bytesInFlight - bytes }
  | .bbr => cc.subtract bytes

/-- No controller faults on bytes that it has counted. -/
theorem subtract_of_le {cc : CongestionControl} {bytes : ℕ} (h : bytes ≤ cc.bytesInFlight) :
    cc.subtract bytes = .ok { cc with bytesInFlight := cc.bytesInFlight - bytes } :=
  if_neg h.not_gt

/-- The bytes of an acked packet are subtracted, if there are as many. -/
theorem onPacketAckedCc_of_le {cc : CongestionControl} {size : ℕ} (h : size ≤ cc.bytesInFlight) :
    cc.onPacketAckedCc size = .ok { cc with bytesInFlight := cc.bytesInFlight - size } := by
  unfold onPacketAckedCc
  split <;> first | rfl | exact subtract_of_le h

/-- Bytes are subtracted, if there are as many. -/
theorem decreaseBytesInFlight_of_le {cc : CongestionControl} {bytes : ℕ}
    (h : bytes ≤ cc.bytesInFlight) :
    cc.decreaseBytesInFlight bytes = .ok { cc with bytesInFlight := cc.bytesInFlight - bytes } := by
  unfold decreaseBytesInFlight
  split <;> first | rfl | exact subtract_of_le h

end CongestionControl

/-- What the clock and the round-trip times say when a call is made. -/
structure Timing where
  now : ℕ
  /-- The delay after which a packet counts as lost. -/
  lossDelay : ℕ
  /-- The time that a probe waits. -/
  timeout : ℕ

/-- Loss recovery with its timer and its congestion controller. -/
structure LossDetection extends Recovery where
  lossDetectionTimer : Option ℕ
  cc : CongestionControl

namespace LossDetection

/-- Nothing is sent, and the timer is not set. -/
def new (algorithm : CongestionControlAlgorithm) : LossDetection where
  toRecovery := .new
  lossDetectionTimer := none
  cc := .new algorithm

/-- Arms the timer for the next loss or probe, or stops it. -/
def setLossDetectionTimer (l : LossDetection) (handshakeCompleted : Bool) (timeout : ℕ) :
    LossDetection :=
  let earliest := Recovery.earliestLossTime l.lossTime handshakeCompleted
  if earliest.1.isSome then { l with lossDetectionTimer := earliest.1 }
  else if l.cc.bytesInFlight = 0 then { l with lossDetectionTimer := none }
  else
    match (Recovery.earliestLossTime l.timeOfLastSentAckElicitingPkt handshakeCompleted).1 with
    | some sentTime => { l with lossDetectionTimer := some (sentTime + timeout) }
    -- the timer stays as it was
    | none => l

/-- Records a packet that was sent. -/
def recordSent (l : LossDetection) (pkt : Sent) (epoch : Epoch) (t : Timing) : LossDetection :=
  { l with
    toRecovery := l.toRecovery.onPacketSent pkt epoch t.now
    cc := if pkt.inFlight ∧ epoch = .application then l.cc.onPacketSentCc pkt.size else l.cc }

/-- Records a packet that was sent. The timer does not depend on the packets that are
recorded, so it may be set last. -/
def onPacketSent (l : LossDetection) (pkt : Sent) (epoch : Epoch) (handshakeCompleted : Bool)
    (t : Timing) : LossDetection :=
  let l := l.recordSent pkt epoch t
  if pkt.inFlight then l.setLossDetectionTimer handshakeCompleted t.timeout else l

/-- Removes an acked packet, unless it is not newly acked. -/
def onPacketAcked (l : LossDetection) (pktNum : ℕ) (epoch : Epoch) :
    Except Fault (Bool × LossDetection) :=
  let result := l.toRecovery.onPacketAcked pktNum epoch
  let l' := { l with toRecovery := result.2 }
  match (l.sent epoch).find? fun p => p.pktNum == pktNum with
  | none => .ok (false, l')
  | some p =>
    let cc := if p.inFlight ∧ epoch = .application then l.cc.onPacketAckedCc p.size else .ok l.cc
    cc.map fun cc => (true, { l' with cc })

/-- The loop over the acked packet numbers, from the largest down. -/
def ackLoop (epoch : Epoch) : List ℕ → Bool × LossDetection → Except Fault (Bool × LossDetection)
  | [], acc => .ok acc
  | pn :: pns, (newly, l) =>
    -- all that follow are acked already
    if (l.sent epoch).head?.any fun lowest => pn < lowest.pktNum then .ok (newly, l)
    else
      match l.onPacketAcked pn epoch with
      | .ok result => ackLoop epoch pns (newly || result.1, result.2)
      | .error e => .error e

/-- Removes a lost packet. -/
def onPacketLost (epoch : Epoch) (l : LossDetection) (p : Sent) : Except Fault LossDetection :=
  let l' := { l with toRecovery := l.toRecovery.onPacketLost epoch p }
  let cc := if p.inFlight ∧
    epoch = .application then l.cc.decreaseBytesInFlight p.size else .ok l.cc
  cc.map fun cc => { l' with cc }

/-- The loop over the lost packets. -/
def onPacketsLost (epoch : Epoch) : List Sent → LossDetection → Except Fault LossDetection
  | [], l => .ok l
  | p :: ps, l =>
    match l.onPacketLost epoch p with
    | .ok l' => onPacketsLost epoch ps l'
    | .error e => .error e

/-- Declares packets lost, and sets the time when the next one may be. -/
def detectLostPackets (l : LossDetection) (epoch : Epoch) (now lossDelay : ℕ) :
    Except Fault LossDetection :=
  let largestAcked := l.largestAckedPkt epoch
  let lost := (l.sent epoch).filter (Recovery.isLost largestAcked now lossDelay)
  let kept := (l.sent epoch).filter fun p =>
    decide (p.pktNum ≤ largestAcked) && !Recovery.isLost largestAcked now lossDelay p
  onPacketsLost epoch lost { l with
    lossTime := Epoch.update l.lossTime epoch ((kept.map fun p => p.time + lossDelay).min?) }

/-- Processes the ranges of an ACK frame, up to the timer, which is set if packets are newly
acked. -/
def processAck (l : LossDetection) (ranges : RangeSet) (epoch : Epoch) (t : Timing) :
    Except Fault (Bool × LossDetection) :=
  match ranges.largest with
  | none => .error .panic
  | some largestAcked =>
    -- the peer acks a packet that was not sent
    if l.largestSentPkt epoch < largestAcked then .error (.error .invalidPacket)
    else
      let old := l.largestAckedPkt epoch
      let largest := if old = u64Max then largestAcked else max old largestAcked
      let l := { l with largestAckedPkt := Epoch.update l.largestAckedPkt epoch largest }
      match ackLoop epoch ranges.flatten.reverse (false, l) with
      | .error e => .error e
      | .ok (false, l) => .ok (false, l)
      | .ok (true, l) => (l.detectLostPackets epoch t.now t.lossDelay).map fun l => (true, l)

/-- Processes the ranges of an ACK frame. -/
def onAckReceived (l : LossDetection) (ranges : RangeSet) (epoch : Epoch)
    (handshakeCompleted : Bool) (t : Timing) : Except Fault LossDetection :=
  (l.processAck ranges epoch t).map fun (newly, l) =>
    if newly then l.setLossDetectionTimer handshakeCompleted t.timeout else l

/-- Declares packets lost, or asks for probes. -/
def processTimeout (l : LossDetection) (handshakeCompleted : Bool) (t : Timing) :
    Except Fault LossDetection :=
  let earliest := Recovery.earliestLossTime l.lossTime handshakeCompleted
  if earliest.1.isSome then l.detectLostPackets earliest.2 t.now t.lossDelay
  else .ok { l with
    toRecovery := l.toRecovery.onLossDetectionTimeout handshakeCompleted t.now t.lossDelay }

/-- Declares packets lost, or asks for probes, and sets the timer. -/
def onLossDetectionTimeout (l : LossDetection) (handshakeCompleted : Bool) (t : Timing) :
    Except Fault LossDetection :=
  (l.processTimeout handshakeCompleted t).map fun l =>
    l.setLossDetectionTimer handshakeCompleted t.timeout

/-- The bytes of the packets in flight. -/
def unackedBytes (sent : List Sent) : ℕ := ((sent.filter Sent.inFlight).map Sent.size).sum

/-- Forgets the packets of an epoch, and leaves the timer alone. -/
def dropUnackedData (l : LossDetection) (epoch : Epoch) : Except Fault LossDetection :=
  let l' := { l with toRecovery := l.toRecovery.dropUnackedData epoch }
  if epoch = .application then
    (l.cc.decreaseBytesInFlight (unackedBytes (l.sent epoch))).map fun cc => { l' with cc }
  else .ok l'

end LossDetection

/-- The calls of a connection, and the two that take frames from the lists of `Recovery`. -/
inductive RecoveryCall
  | onPacketSent (pkt : Sent) (epoch : Epoch) (handshakeCompleted : Bool) (t : Timing)
  | onAckReceived (ranges : RangeSet) (epoch : Epoch) (handshakeCompleted : Bool) (t : Timing)
  | onLossDetectionTimeout (handshakeCompleted : Bool) (t : Timing)
  | dropUnackedData (epoch : Epoch)
  | drainAcked (epoch : Epoch)
  | drainLost (epoch : Epoch)

namespace RecoveryCall

/-- What a call says about the handshake. -/
def handshakeCompleted : RecoveryCall → Option Bool
  | .onPacketSent _ _ completed _ | .onAckReceived _ _ completed _
  | .onLossDetectionTimeout completed _ => some completed
  | .dropUnackedData _ | .drainAcked _ | .drainLost _ => none

/-- The probe timeout of a call. -/
def timeout : RecoveryCall → ℕ
  | .onPacketSent _ _ _ t | .onAckReceived _ _ _ t | .onLossDetectionTimeout _ t => t.timeout
  | .dropUnackedData _ | .drainAcked _ | .drainLost _ => 0

end RecoveryCall

/-- The state after a call: an error leaves it as it was, and after a panic there is none. -/
def afterCall {σ : Type} (s : σ) : Except Fault σ → Option σ
  | .ok s' => some s'
  | .error (.error _) => some s
  | .error _ => none

namespace Recovery

/-- The frames of acked packets are taken. -/
def drainAcked (r : Recovery) (epoch : Epoch) : Recovery :=
  { r with acked := Epoch.update r.acked epoch [] }

/-- The frames of lost packets are taken. -/
def drainLost (r : Recovery) (epoch : Epoch) : Recovery :=
  { r with lost := Epoch.update r.lost epoch [] }

/-- What a call does to the packets. -/
def call (r : Recovery) : RecoveryCall → Except Fault Recovery
  | .onPacketSent pkt epoch _ t => .ok (r.onPacketSent pkt epoch t.now)
  | .onAckReceived ranges epoch _ t => r.onAckReceived ranges epoch t.now t.lossDelay
  | .onLossDetectionTimeout handshakeCompleted t =>
    .ok (r.onLossDetectionTimeout handshakeCompleted t.now t.lossDelay)
  | .dropUnackedData epoch => .ok (r.dropUnackedData epoch)
  | .drainAcked epoch => .ok (r.drainAcked epoch)
  | .drainLost epoch => .ok (r.drainLost epoch)

/-- The packets after a call that returns. -/
def step (r : Recovery) (call : RecoveryCall) : Option Recovery := afterCall r (r.call call)

end Recovery

namespace LossDetection

/-- What a call does to the packets, the bytes in flight and the timer. -/
def call (l : LossDetection) : RecoveryCall → Except Fault LossDetection
  | .onPacketSent pkt epoch handshakeCompleted t =>
    .ok (l.onPacketSent pkt epoch handshakeCompleted t)
  | .onAckReceived ranges epoch handshakeCompleted t =>
    l.onAckReceived ranges epoch handshakeCompleted t
  | .onLossDetectionTimeout handshakeCompleted t => l.onLossDetectionTimeout handshakeCompleted t
  | .dropUnackedData epoch => l.dropUnackedData epoch
  | .drainAcked epoch => .ok { l with toRecovery := l.toRecovery.drainAcked epoch }
  | .drainLost epoch => .ok { l with toRecovery := l.toRecovery.drainLost epoch }

/-- The state after a call that returns. -/
def step (l : LossDetection) (call : RecoveryCall) : Option LossDetection :=
    afterCall l (l.call call)

/-- The state of a call before it sets the timer, and whether it does. -/
def beforeTimer (l : LossDetection) : RecoveryCall → Except Fault (Bool × LossDetection)
  | .onPacketSent pkt epoch _ t => .ok (pkt.inFlight, l.recordSent pkt epoch t)
  | .onAckReceived ranges epoch _ t => l.processAck ranges epoch t
  | .onLossDetectionTimeout handshakeCompleted t =>
    (l.processTimeout handshakeCompleted t).map fun l => (true, l)
  | .dropUnackedData epoch => (l.dropUnackedData epoch).map fun l => (false, l)
  | .drainAcked epoch => .ok (false, { l with toRecovery := l.toRecovery.drainAcked epoch })
  | .drainLost epoch => .ok (false, { l with toRecovery := l.toRecovery.drainLost epoch })

end LossDetection

/-! ### Packets without their frames -/

/-- A packet without its frames. -/
def Sent.bare (p : Sent) : Sent := { p with frames := [] }

@[simp] theorem Sent.bare_pktNum (p : Sent) : p.bare.pktNum = p.pktNum := rfl

@[simp] theorem Sent.bare_size (p : Sent) : p.bare.size = p.size := rfl

@[simp] theorem Sent.bare_inFlight (p : Sent) : p.bare.inFlight = p.inFlight := rfl

namespace Recovery

/-- The packets that are outstanding, without their frames. -/
def bare (r : Recovery) (epoch : Epoch) : List Sent := (r.sent epoch).map Sent.bare

/-- Where the packets stay, they stay without their frames. -/
theorem bare_of_sent {r r' : Recovery} (h : r'.sent = r.sent) : r'.bare = r.bare := by
  funext epoch
  rw [bare, bare, h]

/-- Where the packets of an epoch change, they change without their frames. -/
theorem bare_update {r r' : Recovery} {epoch : Epoch} {sent : List Sent}
    (h : r'.sent = Epoch.update r.sent epoch sent) :
    r'.bare = Epoch.update r.bare epoch (sent.map Sent.bare) := by
  funext e
  rw [bare, h]
  rcases eq_or_ne e epoch with rfl | hne
  · rw [Epoch.update_same, Epoch.update_same]
  · rw [Epoch.update_of_ne hne, Epoch.update_of_ne hne, bare]

/-- Packets are chosen without regard to their frames. -/
theorem filter_bare (f : Sent → Bool) (hf : ∀ p, f p.bare = f p) (sent : List Sent) :
    (sent.filter f).map Sent.bare = (sent.map Sent.bare).filter f := by
  rw [List.filter_map]
  congr 2
  funext p
  exact (hf p).symm

@[simp] theorem modifyFecGroup_sent (r : Recovery) (info : FecStatus)
    (f : FecPacketNumbers → FecPacketNumbers) : (r.modifyFecGroup info f).sent = r.sent := by
  unfold modifyFecGroup
  split_ifs <;> rfl

@[simp] theorem modifyFecGroup_acked (r : Recovery) (info : FecStatus)
    (f : FecPacketNumbers → FecPacketNumbers) : (r.modifyFecGroup info f).acked = r.acked := by
  unfold modifyFecGroup
  split_ifs <;> rfl

@[simp] theorem modifyFecGroup_lost (r : Recovery) (info : FecStatus)
    (f : FecPacketNumbers → FecPacketNumbers) : (r.modifyFecGroup info f).lost = r.lost := by
  unfold modifyFecGroup
  split_ifs <;> rfl

/-- A packet that is sent is added. -/
theorem onPacketSent_bare (r : Recovery) (pkt : Sent) (epoch : Epoch) (now : ℕ) :
    (r.onPacketSent pkt epoch now).bare =
      Epoch.update r.bare epoch (insertSent (r.bare epoch) pkt.bare) := by
  have hsent : (r.onPacketSent pkt epoch now).sent =
      Epoch.update r.sent epoch (insertSent (r.sent epoch) pkt) := by simp [onPacketSent]
  rw [bare_update hsent]
  congr 1
  simp only [insertSent, bare, List.map_append, List.map_cons]
  congr 1
  · exact filter_bare _ (fun _ => rfl) _
  · congr 1
    exact filter_bare _ (fun _ => rfl) _

/-- A packet that is rebuilt stays until it is acked. -/
theorem onPacketRecovered_bare (r : Recovery) (pktNum : ℕ) :
    (r.onPacketRecovered pktNum).bare = r.bare := by
  unfold onPacketRecovered
  split
  · rfl
  · funext e
    rcases eq_or_ne e .application with rfl | hne
    · simp only [bare, Epoch.update_same, List.map_map]
      apply List.map_congr_left
      intro q _
      dsimp only [Function.comp]
      split_ifs <;> rfl
    · simp only [bare, Epoch.update_of_ne hne]

/-- A packet that is acked is removed. Packets that the peer can rebuild stay. -/
theorem onPacketAcked_bare (r : Recovery) (pktNum : ℕ) (epoch : Epoch) :
    (r.onPacketAcked pktNum epoch).2.bare =
      Epoch.update r.bare epoch ((r.bare epoch).filter fun p => p.pktNum ≠ pktNum) := by
  have hrecovered (pns : List ℕ) (r : Recovery) : (pns.foldl onPacketRecovered r).bare =
      r.bare := by
    induction pns generalizing r with
    | nil => rfl
    | cons pn pns ih => exact (ih _).trans (onPacketRecovered_bare r pn)
  unfold onPacketAcked
  cases hfind : (r.sent epoch).find? fun p => p.pktNum == pktNum with
  | none =>
    funext e
    rcases eq_or_ne e epoch with rfl | hne
    · rw [Epoch.update_same, eq_comm, List.filter_eq_self]
      intro q hq
      obtain ⟨p, hp, rfl⟩ := List.mem_map.mp hq
      exact decide_eq_true (by simpa using List.find?_eq_none.mp hfind p hp)
    · rw [Epoch.update_of_ne hne]
  | some p =>
    dsimp only
    rw [hrecovered, bare_of_sent (modifyFecGroup_sent _ _ _)]
    have hfilter : _ = Epoch.update r.bare epoch _ := congrArg (Epoch.update r.bare epoch)
      (filter_bare (fun q : Sent => q.pktNum ≠ pktNum) (fun _ => rfl) (r.sent epoch))
    exact (bare_update rfl).trans hfilter

/-- A packet that is lost is removed. -/
theorem onPacketLost_sent (epoch : Epoch) (r : Recovery) (p : Sent) :
    (r.onPacketLost epoch p).sent =
      Epoch.update r.sent epoch ((r.sent epoch).filter fun q => q.pktNum ≠ p.pktNum) := by
  unfold onPacketLost
  split_ifs
  · exact modifyFecGroup_sent _ _ _
  · rfl

theorem onPacketLost_bare (epoch : Epoch) (r : Recovery) (p : Sent) :
    (r.onPacketLost epoch p).bare =
      Epoch.update r.bare epoch ((r.bare epoch).filter fun q => q.pktNum ≠ p.pktNum) := by
  rw [bare_update (r.onPacketLost_sent epoch p), filter_bare _ fun _ => rfl, bare]

/-- The packets of an epoch are forgotten. -/
theorem dropUnackedData_bare (r : Recovery) (epoch : Epoch) :
    (r.dropUnackedData epoch).bare = Epoch.update r.bare epoch [] := by
  have hsent : (r.dropUnackedData epoch).sent = Epoch.update r.sent epoch [] := rfl
  exact bare_update hsent

end Recovery

/-! ### Counting the bytes in flight -/

namespace LossDetection

/-- Frames are not counted. -/
theorem unackedBytes_bare (sent : List Sent) :
    unackedBytes (sent.map Sent.bare) = unackedBytes sent := by
  rw [unackedBytes, unackedBytes, ← Recovery.filter_bare _ fun _ => rfl, List.map_map]
  rfl

@[simp] theorem unackedBytes_nil : unackedBytes [] = 0 := rfl

/-- Only packets in flight are counted. -/
theorem unackedBytes_cons (p : Sent) (sent : List Sent) :
    unackedBytes (p :: sent) = (if p.inFlight then p.size else 0) + unackedBytes sent := by
  unfold unackedBytes
  cases h : p.inFlight <;> simp [h]

/-- The order of the packets does not matter. -/
theorem unackedBytes_perm {sent sent' : List Sent} (h : sent.Perm sent') :
    unackedBytes sent = unackedBytes sent' := ((h.filter _).map _).sum_nat

/-- The outstanding packets are in the order of their numbers, and the controller has counted
those of the application epoch. -/
structure Exact (l : LossDetection) : Prop where
  ascending (epoch : Epoch) : Ascending Sent.pktNum (l.bare epoch)
  count : l.cc.bytesInFlight = unackedBytes (l.bare .application)

/-- Only the outstanding packets matter. -/
theorem Exact.congr {l l' : LossDetection} (h : l.Exact) (hcc : l'.cc = l.cc)
    (hbare : l'.bare = l.bare) : l'.Exact :=
  ⟨fun epoch => hbare ▸ h.ascending epoch, by rw [hcc, hbare, h.count]⟩

/-- The packets of one epoch change. -/
theorem Exact.update {l : LossDetection} (h : l.Exact) {epoch : Epoch} {r : Recovery}
    {sent : List Sent} (hbare : r.bare = Epoch.update l.bare epoch sent)
    (hascending : Ascending Sent.pktNum sent) {cc : CongestionControl}
    (hcc : cc.bytesInFlight = if epoch =
      .application then unackedBytes sent else l.cc.bytesInFlight) :
    Exact { l with toRecovery := r, cc } := by
  refine ⟨fun e => ?_, ?_⟩
  · dsimp only
    rw [hbare]
    rcases eq_or_ne e epoch with rfl | hne
    · rwa [Epoch.update_same]
    · rw [Epoch.update_of_ne hne]
      exact h.ascending e
  · dsimp only
    rw [hcc, hbare]
    by_cases hepoch : epoch = .application
    · rw [if_pos hepoch, hepoch, Epoch.update_same]
    · rw [if_neg hepoch, Epoch.update_of_ne (Ne.symm hepoch), h.count]

/-- A packet is removed, and uncounted if it was counted. -/
theorem Exact.remove {l : LossDetection} (h : l.Exact) {epoch : Epoch} {p : Sent}
    (hp : p.bare ∈ l.bare epoch) {r : Recovery}
    (hbare : r.bare = Epoch.update l.bare epoch ((l.bare epoch).filter fun q =>
      q.pktNum ≠ p.pktNum))
    {uncount : Except Fault CongestionControl} (huncount : p.size ≤ l.cc.bytesInFlight →
      uncount = .ok { l.cc with bytesInFlight := l.cc.bytesInFlight - p.size }) :
    ∃ cc, (if p.inFlight ∧ epoch = .application then uncount else .ok l.cc) = .ok cc ∧
      Exact { l with toRecovery := r, cc } := by
  have hascending := (h.ascending epoch).filter fun q => q.pktNum ≠ p.pktNum
  have hcount := unackedBytes_perm ((h.ascending epoch).perm_cons_filter hp)
  rw [unackedBytes_cons, Sent.bare_inFlight, Sent.bare_size, Sent.bare_pktNum] at hcount
  by_cases hboth : p.inFlight = true ∧ epoch = .application
  · obtain ⟨hflight, rfl⟩ := hboth
    rw [← h.count, if_pos hflight] at hcount
    rw [if_pos ⟨hflight, rfl⟩]
    refine ⟨_, huncount (by omega), h.update hbare hascending ?_⟩
    rw [if_pos rfl]
    exact Nat.sub_eq_of_eq_add' hcount
  · rw [if_neg hboth]
    refine ⟨_, rfl, h.update hbare hascending ?_⟩
    split_ifs with hepoch
    · subst hepoch
      rw [if_neg fun hflight => hboth ⟨hflight, rfl⟩, Nat.zero_add] at hcount
      exact h.count.trans hcount
    · rfl

/-- An acked packet is uncounted. -/
theorem Exact.onPacketAcked {l : LossDetection} (h : l.Exact) (pktNum : ℕ) (epoch : Epoch) :
    ∃ newly l', l.onPacketAcked pktNum epoch = .ok (newly, l') ∧
      l.toRecovery.onPacketAcked pktNum epoch = (newly, l'.toRecovery) ∧ l'.Exact := by
  have hbare := Recovery.onPacketAcked_bare l.toRecovery pktNum epoch
  unfold LossDetection.onPacketAcked
  cases hfind : (l.sent epoch).find? fun p => p.pktNum == pktNum with
  | none =>
    have hbase : l.toRecovery.onPacketAcked pktNum epoch = (false, l.toRecovery) := by
      unfold Recovery.onPacketAcked
      simp only [hfind]
    rw [hbase]
    exact ⟨false, l, rfl, rfl, h⟩
  | some p =>
    have hnewly : (l.toRecovery.onPacketAcked pktNum epoch).1 = true := by
      unfold Recovery.onPacketAcked
      simp only [hfind]
    have hp : p ∈ l.sent epoch := List.mem_of_find?_eq_some hfind
    obtain rfl : p.pktNum = pktNum := by simpa using List.find?_some hfind
    obtain ⟨cc, hcc, hexact⟩ := h.remove (List.mem_map_of_mem hp) hbare
      CongestionControl.onPacketAckedCc_of_le
    refine ⟨true, _, ?_, Prod.ext hnewly rfl, hexact⟩
    dsimp only
    rw [hcc]
    rfl

/-- The acked packets are uncounted. -/
theorem Exact.ackLoop {l : LossDetection} (h : l.Exact) (epoch : Epoch) (pns : List ℕ)
    (newly : Bool) :
    ∃ newly' l', LossDetection.ackLoop epoch pns (newly, l) = .ok (newly', l') ∧
      Recovery.ackLoop epoch pns (newly, l.toRecovery) = (newly', l'.toRecovery) ∧ l'.Exact := by
  induction pns generalizing newly l with
  | nil => exact ⟨newly, l, rfl, rfl, h⟩
  | cons pn pns ih =>
    unfold LossDetection.ackLoop Recovery.ackLoop
    by_cases hlow : ((l.sent epoch).head?.any fun lowest => pn < lowest.pktNum) = true
    · rw [if_pos hlow, if_pos hlow]
      exact ⟨newly, l, rfl, rfl, h⟩
    · rw [if_neg hlow, if_neg hlow]
      obtain ⟨newly', l', hacked, hbase, hexact⟩ := h.onPacketAcked pn epoch
      rw [hacked, hbase]
      exact ih hexact _

/-- A lost packet is uncounted. -/
theorem Exact.onPacketLost {l : LossDetection} (h : l.Exact) {epoch : Epoch} {p : Sent}
    (hp : p.bare ∈ l.bare epoch) : ∃ l', l.onPacketLost epoch p = .ok l' ∧
      l'.toRecovery = l.toRecovery.onPacketLost epoch p ∧ l'.Exact := by
  obtain ⟨cc, hcc, hexact⟩ := h.remove hp (Recovery.onPacketLost_bare epoch l.toRecovery p)
    CongestionControl.decreaseBytesInFlight_of_le
  refine ⟨_, ?_, rfl, hexact⟩
  unfold LossDetection.onPacketLost
  dsimp only
  rw [hcc]
  rfl

/-- The lost packets are uncounted. They differ in their numbers, so removing one leaves
the others. -/
theorem Exact.onPacketsLost {l : LossDetection} (h : l.Exact) {epoch : Epoch} {ps : List Sent}
    (hps : ∀ p ∈ ps, p.bare ∈ l.bare epoch) (hascending : Ascending Sent.pktNum ps) :
    ∃ l', LossDetection.onPacketsLost epoch ps l = .ok l' ∧
      l'.toRecovery = ps.foldl (Recovery.onPacketLost epoch) l.toRecovery ∧ l'.Exact := by
  induction ps generalizing l with
  | nil => exact ⟨l, rfl, rfl, h⟩
  | cons p ps ih =>
    obtain ⟨hp, hrest⟩ := List.pairwise_cons.mp hascending
    obtain ⟨l', hlost, hbase, hexact⟩ := h.onPacketLost (hps p List.mem_cons_self)
    have hmem (q : Sent) (hq : q ∈ ps) : q.bare ∈ l'.bare epoch := by
      rw [hbase, Recovery.onPacketLost_bare, Epoch.update_same]
      exact List.mem_filter.mpr ⟨hps q (List.mem_cons_of_mem p hq), decide_eq_true (hp q hq).ne'⟩
    obtain ⟨l'', hlosts, hbase', hexact'⟩ := ih hexact hmem hrest
    refine ⟨l'', ?_, ?_, hexact'⟩
    · rw [LossDetection.onPacketsLost, hlost]
      exact hlosts
    · rw [List.foldl_cons, ← hbase]
      exact hbase'

/-- Packets are in the order of their numbers. -/
theorem Exact.sent_ascending {l : LossDetection} (h : l.Exact) (epoch : Epoch) :
    Ascending Sent.pktNum (l.sent epoch) := by
  have := h.ascending epoch
  rwa [Recovery.bare, Ascending, List.pairwise_map] at this

/-- The bytes of lost packets are subtracted, and there are as many. -/
theorem Exact.detectLostPackets {l : LossDetection} (h : l.Exact) (epoch : Epoch)
    (now lossDelay : ℕ) : ∃ l', l.detectLostPackets epoch now lossDelay = .ok l' ∧
      l'.toRecovery = l.toRecovery.detectLostPackets epoch now lossDelay ∧ l'.Exact := by
  have htime (times : Epoch → Option ℕ) : Exact { l with lossTime := times } := h.congr rfl rfl
  refine (htime _).onPacketsLost (fun p hp => ?_) ((h.sent_ascending epoch).filter _)
  exact List.mem_map_of_mem (List.mem_filter.mp hp).1

@[simp] theorem setLossDetectionTimer_toRecovery (l : LossDetection) (handshakeCompleted : Bool)
    (timeout : ℕ) :
    (l.setLossDetectionTimer handshakeCompleted timeout).toRecovery = l.toRecovery := by
  unfold setLossDetectionTimer
  dsimp only
  split_ifs
  · rfl
  · rfl
  · split <;> rfl

@[simp] theorem setLossDetectionTimer_cc (l : LossDetection) (handshakeCompleted : Bool)
    (timeout : ℕ) : (l.setLossDetectionTimer handshakeCompleted timeout).cc = l.cc := by
  unfold setLossDetectionTimer
  dsimp only
  split_ifs
  · rfl
  · rfl
  · split <;> rfl

/-- With nothing in flight, the timer waits for the next loss alone. -/
theorem setLossDetectionTimer_of_idle {l : LossDetection} (h : l.cc.bytesInFlight = 0)
    (handshakeCompleted : Bool) (timeout : ℕ) :
    (l.setLossDetectionTimer handshakeCompleted timeout).lossDetectionTimer =
      (Recovery.earliestLossTime l.lossTime handshakeCompleted).1 := by
  unfold setLossDetectionTimer
  dsimp only
  split_ifs with hloss
  · rfl
  · exact (Option.not_isSome_iff_eq_none.mp hloss).symm

/-- The timer has no say in the count. -/
theorem Exact.setLossDetectionTimer {l : LossDetection} (h : l.Exact) (handshakeCompleted : Bool)
    (timeout : ℕ) : (l.setLossDetectionTimer handshakeCompleted timeout).Exact :=
  h.congr (setLossDetectionTimer_cc ..)
    (congrArg Recovery.bare (setLossDetectionTimer_toRecovery ..))

/-- What a call of loss recovery does, with an exact count: an error is one of `Recovery`. -/
def Counted (r : Except Fault Recovery) (x : Except Fault LossDetection) : Prop :=
  match x with
  | .ok l => r = .ok l.toRecovery ∧ l.Exact
  | .error e => r = .error e

/-- An ACK frame keeps the count exact. -/
theorem Exact.processAck {l : LossDetection} (h : l.Exact) (ranges : RangeSet) (epoch : Epoch)
    (t : Timing) : Counted (l.toRecovery.onAckReceived ranges epoch t.now t.lossDelay)
      ((l.processAck ranges epoch t).map Prod.snd) := by
  unfold LossDetection.processAck Recovery.onAckReceived
  cases ranges.largest with
  | none => rfl
  | some largestAcked =>
    dsimp only
    by_cases hlarge : l.largestSentPkt epoch < largestAcked
    · rw [if_pos hlarge, if_pos hlarge]
      rfl
    rw [if_neg hlarge, if_neg hlarge]
    have hlargest (acked : Epoch → ℕ) : Exact { l with largestAckedPkt := acked } := h.congr rfl rfl
    obtain ⟨newly, l₁, hloop, hbase, hexact⟩ :=
      (hlargest _).ackLoop epoch ranges.flatten.reverse false
    rw [hloop, hbase]
    cases newly with
    | false => exact ⟨rfl, hexact⟩
    | true =>
      obtain ⟨l₂, hdetect, hbase', hexact'⟩ := hexact.detectLostPackets epoch t.now t.lossDelay
      dsimp only
      rw [hdetect, ← hbase']
      exact ⟨rfl, hexact'⟩

/-- A timeout keeps the count exact. -/
theorem Exact.processTimeout {l : LossDetection} (h : l.Exact) (handshakeCompleted : Bool)
    (t : Timing) :
    Counted (.ok (l.toRecovery.onLossDetectionTimeout handshakeCompleted t.now t.lossDelay))
      (l.processTimeout handshakeCompleted t) := by
  unfold LossDetection.processTimeout
  dsimp only
  split_ifs with hloss
  · obtain ⟨l', hdetect, hbase, hexact⟩ := h.detectLostPackets _ t.now t.lossDelay
    rw [hdetect]
    refine ⟨?_, hexact⟩
    rw [hbase, Recovery.onLossDetectionTimeout]
    dsimp only
    rw [if_pos hloss]
  · refine ⟨rfl, h.congr rfl (Recovery.bare_of_sent ?_)⟩
    unfold Recovery.onLossDetectionTimeout
    dsimp only
    rw [if_neg hloss]

/-- Setting the timer changes nothing that is counted. -/
theorem Counted.setLossDetectionTimer {r : Except Fault Recovery}
    {x : Except Fault (Bool × LossDetection)} (h : Counted r (x.map Prod.snd))
    (handshakeCompleted : Bool) (timeout : ℕ) :
    Counted r (x.map fun (sets, l) =>
      if sets then l.setLossDetectionTimer handshakeCompleted timeout else l) := by
  cases x with
  | error e => exact h
  | ok result =>
    obtain ⟨sets, l⟩ := result
    obtain ⟨hbase, hexact⟩ : r = .ok l.toRecovery ∧ l.Exact := h
    cases sets with
    | false => exact ⟨hbase, hexact⟩
    | true => exact ⟨by simpa using hbase, hexact.setLossDetectionTimer _ _⟩

/-- The bytes of forgotten packets are subtracted, and there are as many. -/
theorem Exact.dropUnackedData {l : LossDetection} (h : l.Exact) (epoch : Epoch) :
    Counted (.ok (l.toRecovery.dropUnackedData epoch)) (l.dropUnackedData epoch) := by
  have hbare := Recovery.dropUnackedData_bare l.toRecovery epoch
  unfold LossDetection.dropUnackedData
  dsimp only
  split_ifs with hepoch
  · subst hepoch
    have hall : unackedBytes (l.sent .application) = l.cc.bytesInFlight := by
      rw [h.count, Recovery.bare, unackedBytes_bare]
    rw [hall, CongestionControl.decreaseBytesInFlight_of_le le_rfl]
    exact ⟨rfl, h.update hbare .nil (Nat.sub_self _)⟩
  · exact ⟨rfl, h.update hbare .nil (if_neg hepoch).symm⟩

/-- A packet number is fresh if no outstanding packet of the epoch has it. -/
def Fresh (l : LossDetection) (call : RecoveryCall) : Prop :=
  ∀ pkt epoch handshakeCompleted t, call = .onPacketSent pkt epoch handshakeCompleted t →
    ∀ p ∈ l.sent epoch, p.pktNum ≠ pkt.pktNum

/-- A packet with a fresh number keeps the count exact. -/
theorem Exact.recordSent {l : LossDetection} (h : l.Exact) {pkt : Sent} {epoch : Epoch}
    (hfresh : ∀ p ∈ l.sent epoch, p.pktNum ≠ pkt.pktNum) (t : Timing) :
    (l.recordSent pkt epoch t).Exact := by
  have hbare := Recovery.onPacketSent_bare l.toRecovery pkt epoch t.now
  have hascending := (h.ascending epoch).insertKey pkt.bare
  have hperm : (Recovery.insertSent (l.bare epoch) pkt.bare).Perm (pkt.bare :: l.bare epoch) := by
    refine Lib.insertKey_perm fun b hb => ?_
    obtain ⟨p, hp, rfl⟩ := List.mem_map.mp hb
    exact hfresh p hp
  have hbytes := unackedBytes_perm hperm
  rw [unackedBytes_cons, Sent.bare_inFlight, Sent.bare_size] at hbytes
  have hcount : (if pkt.inFlight ∧ epoch = .application then l.cc.onPacketSentCc pkt.size
      else l.cc).bytesInFlight =
        if epoch = .application then unackedBytes (Recovery.insertSent (l.bare epoch) pkt.bare)
        else l.cc.bytesInFlight := by
    by_cases hepoch : epoch = .application
    · subst hepoch
      rw [if_pos rfl, hbytes, ← h.count]
      by_cases hflight : pkt.inFlight = true
      · rw [if_pos ⟨hflight, rfl⟩, if_pos hflight]
        exact Nat.add_comm ..
      · rw [if_neg fun hboth => hflight hboth.1, if_neg hflight, Nat.zero_add]
    · rw [if_neg fun hboth => hepoch hboth.2, if_neg hepoch]
  exact h.update hbare hascending hcount

/-- A call sets the timer last, if at all. -/
theorem call_eq (l : LossDetection) (call : RecoveryCall) :
    l.call call = (l.beforeTimer call).map fun (sets, l) =>
      if sets then l.setLossDetectionTimer (call.handshakeCompleted.getD false)
          call.timeout else l := by
  cases call with
  | onPacketSent pkt epoch handshakeCompleted t => rfl
  | onAckReceived ranges epoch handshakeCompleted t => rfl
  | onLossDetectionTimeout handshakeCompleted t =>
    change (l.processTimeout handshakeCompleted t).map _ =
      ((l.processTimeout handshakeCompleted t).map _).map _
    cases l.processTimeout handshakeCompleted t <;> rfl
  | dropUnackedData epoch =>
    change l.dropUnackedData epoch = ((l.dropUnackedData epoch).map _).map _
    cases l.dropUnackedData epoch <;> rfl
  | drainAcked epoch => rfl
  | drainLost epoch => rfl

/-- Every call keeps the count exact, before it arms the timer. -/
theorem Exact.beforeTimer {l : LossDetection} (h : l.Exact) {call : RecoveryCall}
    (hfresh : l.Fresh call) :
    Counted (l.toRecovery.call call) ((l.beforeTimer call).map Prod.snd) := by
  cases call with
  | onPacketSent pkt epoch handshakeCompleted t => exact ⟨rfl, h.recordSent (hfresh _ _ _ _ rfl) t⟩
  | onAckReceived ranges epoch handshakeCompleted t => exact h.processAck ranges epoch t
  | onLossDetectionTimeout handshakeCompleted t =>
    have hcounted := h.processTimeout handshakeCompleted t
    change Counted _ (((l.processTimeout handshakeCompleted t).map _).map _)
    cases hresult : l.processTimeout handshakeCompleted t <;> rw [hresult] at hcounted <;>
      exact hcounted
  | dropUnackedData epoch =>
    have hcounted := h.dropUnackedData epoch
    change Counted _ (((l.dropUnackedData epoch).map _).map _)
    cases hresult : l.dropUnackedData epoch <;> rw [hresult] at hcounted <;> exact hcounted
  | drainAcked epoch => exact ⟨rfl, h.congr rfl rfl⟩
  | drainLost epoch => exact ⟨rfl, h.congr rfl rfl⟩

/-- A call with a fresh number keeps the count exact, and fails only as in `Recovery`. -/
theorem Exact.call {l : LossDetection} (h : l.Exact) {call : RecoveryCall} (hfresh : l.Fresh call) :
    Counted (l.toRecovery.call call) (l.call call) := by
  rw [call_eq]
  exact (h.beforeTimer hfresh).setLossDetectionTimer _ _

/-- Every call keeps the count exact. -/
theorem Exact.step {l l' : LossDetection} (h : l.Exact) {call : RecoveryCall}
    (hfresh : l.Fresh call)
    (hstep : l.step call = some l') : l'.Exact := by
  have hcall := h.call hfresh
  unfold LossDetection.step afterCall at hstep
  cases hresult : l.call call with
  | ok l₁ =>
    rw [hresult] at hstep hcall
    cases hstep
    exact hcall.2
  | error e =>
    rw [hresult] at hstep
    cases e <;> cases hstep
    exact h

/-- There is nothing to count yet. -/
theorem new_exact (algorithm : CongestionControlAlgorithm) : (new algorithm).Exact where
  ascending _ := List.Pairwise.nil
  count := rfl

/-- Without a count, there is no underflow. -/
theorem recovery_call_ne_underflow (r : Recovery) (call : RecoveryCall) :
    r.call call ≠ .error .underflow := by
  cases call with
  | onAckReceived ranges epoch handshakeCompleted t =>
    change r.onAckReceived ranges epoch t.now t.lossDelay ≠ _
    unfold Recovery.onAckReceived
    split
    · nofun
    · dsimp only
      split_ifs <;> nofun
  | _ => nofun

/-- With every controller and along every run with fresh packet numbers, the bytes in flight
are those of the outstanding packets in flight, and no subtraction underflows. -/
theorem bytesInFlight_exact (algorithm : CongestionControlAlgorithm) (calls : List RecoveryCall)
    (hfresh : Lib.AllSteps step Fresh (new algorithm) calls) :
    Lib.Always step (fun l => l.cc.bytesInFlight = unackedBytes (l.sent .application) ∧
      ∀ call, l.Fresh call → l.call call ≠ .error .underflow) (new algorithm) calls := by
  have hexact : Lib.Always step Exact (new algorithm) calls :=
    Lib.always_of_step (fun _ _ _ h hfresh hstep => h.step hfresh hstep)
      (new_exact algorithm) hfresh
  refine hexact.mono fun l h => ⟨?_, fun call hcall hunderflow => ?_⟩
  · rw [h.count, Recovery.bare, unackedBytes_bare]
  · have hcounted := h.call hcall
    rw [hunderflow] at hcounted
    exact recovery_call_ne_underflow _ _ hcounted

/-- A packet of 1200 bytes is sent and acked. -/
theorem bytesInFlight_exact_acked :
    Lib.Always step (fun l => l.cc.bytesInFlight = unackedBytes (l.sent .application) ∧
      ∀ call, l.Fresh call → l.call call ≠ .error .underflow) (new .bbr)
      [.onPacketSent ⟨0, [.ping], 0, 1200, true, true, .none⟩ .application true ⟨0, 0, 1000⟩,
        .onAckReceived ⟨[(0, 1)], List.pairwise_singleton _ _⟩ .application true ⟨50, 60,
            1000⟩] := by
  refine bytesInFlight_exact .bbr _ ⟨?_, fun _ _ => ⟨nofun, fun _ _ => trivial⟩⟩
  rintro pkt epoch handshakeCompleted t ⟨⟩ p hp
  cases hp

end LossDetection

end Dtp
