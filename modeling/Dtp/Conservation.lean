import Dtp.Lib.Ledger
import Dtp.LossDetection

/-!
# Conservation of frames

`Books` keeps a ledger beside `Recovery` for each epoch. Every call moves frames from one
place of the ledger to another, and the lists of `Recovery` are what the ledger shows of the
places for packets that are outstanding and frames that wait.

## Main definitions

* `FrameInstance`, `Sent.parcel` — the frames of a packet, told apart
* `Recovery.moves` — what a call moves in an epoch
* `Books`, `Shows` — the ledgers, and what they show

## Main results

* `Shows.call` — a call moves frames as its list of moves says
* `Books.conserved` — every frame of a packet in flight is in exactly one place
-/

namespace Dtp

open Lib (Ledger Parcel Ascending)
open Lib.Ledger (Move)

/-- A frame in its place in a packet. -/
structure FrameInstance where
  pktNum : ℕ
  index : ℕ
  frame : Frame
  deriving DecidableEq

namespace Sent

/-- The frames of a packet, each with its place. -/
def instances (p : Sent) : List FrameInstance := p.frames.mapIdx fun i f => ⟨p.pktNum, i, f⟩

/-- A packet as a parcel of its frames. -/
def parcel (p : Sent) : Parcel FrameInstance := ⟨p.pktNum, p.inFlight, p.instances⟩

/-- What a ledger shows of a packet. -/
def entry (p : Sent) : ℕ × Bool × List Frame := (p.pktNum, p.inFlight, p.frames)

private theorem frames_instances (p : Sent) : p.instances.map FrameInstance.frame = p.frames := by
  apply List.ext_getElem
  · simp [instances]
  · intro i hi hi'
    simp [instances]

/-- The frames of a packet know its number. -/
theorem pktNum_of_mem_instances {p : Sent} {a : FrameInstance} (h : a ∈ p.instances) :
    a.pktNum = p.pktNum := by
  obtain ⟨i, hi, rfl⟩ := List.mem_mapIdx.mp h
  rfl

private theorem instances_nodup (p : Sent) : p.instances.Nodup := by
  have hindex : p.instances.map FrameInstance.index = List.range p.frames.length := by
    apply List.ext_getElem
    · simp [instances]
    · intro i hi hi'
      simp [instances]
  exact List.Nodup.of_map _ (hindex ▸ List.nodup_range)

end Sent

/-- A parcel as the entry of a packet. -/
def parcelEntry (p : Parcel FrameInstance) : ℕ × Bool × List Frame :=
  (p.number, p.tracked, p.items.map FrameInstance.frame)

private theorem parcelEntry_parcel (p : Sent) : parcelEntry p.parcel = p.entry := by
  rw [parcelEntry, Sent.parcel, Sent.frames_instances, Sent.entry]

/-- The packets of a group that are rebuilt, once enough of them are acknowledged. -/
theorem FecPacketNumbers.mem_recoveredPns {g : FecPacketNumbers} {n : ℕ} :
    n ∈ g.recoveredPns ↔ g.m ≤ g.acked.length ∧ n ∈ g.sent.map Prod.snd ∧ n ∉ g.acked := by
  unfold recoveredPns
  split_ifs with henough
  · rw [List.mem_filter, decide_eq_true_iff]
    exact (and_iff_right henough).symm
  · exact iff_of_false List.not_mem_nil fun h => henough h.1

namespace Recovery

/-- The packets that the peer can rebuild once it has acked a packet. -/
def rebuilt (r : Recovery) (p : Sent) : List ℕ :=
  let r := r.modifyFecGroup p.fecInfo fun g => g.packetAcked p.pktNum
  if p.fecInfo.groupId = 0 then []
  else ((r.pnsInFecGroup p.fecInfo.groupId).map FecPacketNumbers.recoveredPns).getD []

/-- The packets that an acknowledgement rebuilds. -/
theorem mem_rebuilt {r : Recovery} {p : Sent} {n : ℕ} : n ∈ r.rebuilt p ↔ p.fecInfo.groupId ≠ 0 ∧
    ∃ g, (r.modifyFecGroup p.fecInfo fun g =>
      g.packetAcked p.pktNum).pnsInFecGroup p.fecInfo.groupId = some g ∧
      n ∈ g.recoveredPns := by
  unfold rebuilt
  dsimp only
  split_ifs with hgroup
  · simp [hgroup]
  · cases (r.modifyFecGroup p.fecInfo fun g =>
        g.packetAcked p.pktNum).pnsInFecGroup p.fecInfo.groupId with
    | none => simp
    | some g => simp [hgroup]

/-- What acking a packet moves: its frames, and those of packets that can be rebuilt. -/
def ackedMoves (r : Recovery) (pktNum : ℕ) (epoch e : Epoch) : List (Move FrameInstance) :=
  match (r.sent epoch).find? fun p => p.pktNum == pktNum with
  | none => []
  | some p =>
    (if e = epoch then [.deliver pktNum] else []) ++
      if e = .application then (r.rebuilt p).map .unpack else []

/-- The moves of the scan of an ACK frame. -/
def ackLoopMoves (epoch e : Epoch) : List ℕ → Recovery → List (Move FrameInstance)
  | [], _ => []
  | pn :: pns, r =>
    if (r.sent epoch).head?.any fun lowest => pn < lowest.pktNum then []
    else r.ackedMoves pn epoch e ++ ackLoopMoves epoch e pns (r.onPacketAcked pn epoch).2

/-- What detecting losses moves. -/
def lostMoves (r : Recovery) (epoch : Epoch) (now lossDelay : ℕ) (e : Epoch) :
    List (Move FrameInstance) :=
  if e = epoch then
    ((r.sent epoch).filter (isLost (r.largestAckedPkt epoch) now lossDelay)).map fun p =>
      .giveUp p.pktNum
  else []

/-- What a call moves in an epoch. -/
def moves (r : Recovery) (e : Epoch) : RecoveryCall → List (Move FrameInstance)
  | .onPacketSent pkt epoch _ _ => if e = epoch then [.send pkt.parcel] else []
  | .onAckReceived ranges epoch _ t =>
    match ranges.largest with
    | none => []
    | some largestAcked =>
      if r.largestSentPkt epoch < largestAcked then []
      else
        let old := r.largestAckedPkt epoch
        let largest := if old = u64Max then largestAcked else max old largestAcked
        let r := { r with largestAckedPkt := Epoch.update r.largestAckedPkt epoch largest }
        let acked := ackLoop epoch ranges.flatten.reverse (false, r)
        ackLoopMoves epoch e ranges.flatten.reverse r ++
          if acked.1 then acked.2.lostMoves epoch t.now t.lossDelay e else []
  | .onLossDetectionTimeout handshakeCompleted t =>
    let earliest := earliestLossTime r.lossTime handshakeCompleted
    if earliest.1.isSome then r.lostMoves earliest.2 t.now t.lossDelay e else []
  | .dropUnackedData epoch => if e = epoch then [.clear] else []
  | .drainAcked epoch => if e = epoch then [.takeDelivered] else []
  | .drainLost epoch => if e = epoch then [.takeReturned] else []

end Recovery

/-- `Recovery` has what the ledger of an epoch shows. -/
structure Shows (L : Ledger FrameInstance) (r : Recovery) (e : Epoch) : Prop where
  held : L.held.map parcelEntry = (r.sent e).map Sent.entry
  acked : L.delivered.waiting.map FrameInstance.frame = r.acked e
  lost : L.returned.waiting.map FrameInstance.frame = r.lost e

namespace Shows

variable {L : Ledger FrameInstance} {r : Recovery} {e : Epoch}

/-- Only the lists of the epoch matter. -/
theorem congr {r' : Recovery} (h : Shows L r e) (hsent : r'.sent e = r.sent e)
    (hacked : r'.acked e = r.acked e) (hlost : r'.lost e = r.lost e) : Shows L r' e :=
  ⟨hsent ▸ h.held, hacked ▸ h.acked, hlost ▸ h.lost⟩

/-- A packet is found where its parcel is. -/
theorem find (h : Shows L r e) (pktNum : ℕ) : (L.find pktNum).map parcelEntry =
    ((r.sent e).find? fun p => p.pktNum == pktNum).map Sent.entry := by
  have hfind := congrArg (List.find? fun x => x.1 == pktNum) h.held
  rw [List.find?_map, List.find?_map] at hfind
  exact hfind

private theorem find_none (h : Shows L r e) {pktNum : ℕ}
    (hfind : ((r.sent e).find? fun p => p.pktNum == pktNum) = none) : L.find pktNum = none := by
  have := h.find pktNum
  rw [hfind] at this
  simpa using this

/-- A packet that was sent is in the ledger. -/
theorem find_some (h : Shows L r e) {pktNum : ℕ} {p : Sent}
    (hfind : ((r.sent e).find? fun p => p.pktNum == pktNum) = some p) :
    ∃ q, L.find pktNum = some q ∧ q.tracked = p.inFlight ∧
        q.items.map FrameInstance.frame = p.frames := by
  have := h.find pktNum
  rw [hfind] at this
  obtain ⟨q, hq, heq⟩ := Option.map_eq_some_iff.mp this
  simp only [parcelEntry, Sent.entry, Prod.mk.injEq] at heq
  exact ⟨q, hq, heq.2⟩

/-- A packet that is removed is removed from the ledger. -/
theorem filter_ne (h : Shows L r e) (pktNum : ℕ) :
    (L.held.filter fun p => p.number ≠ pktNum).map parcelEntry =
      ((r.sent e).filter fun p => p.pktNum ≠ pktNum).map Sent.entry := by
  have hfilter := congrArg (List.filter fun x => x.1 ≠ pktNum) h.held
  rw [List.filter_map, List.filter_map] at hfilter
  exact hfilter

/-- A packet that is sent is entered. -/
theorem send (h : Shows L r e) (pkt : Sent) (now : ℕ) :
    Shows (L.apply (.send pkt.parcel)) (r.onPacketSent pkt e now) e := by
  have hsent : (r.onPacketSent pkt e now).sent e = Lib.insertKey Sent.pktNum pkt (r.sent e) := by
    simp only [Recovery.onPacketSent, Recovery.modifyFecGroup_sent, Epoch.update_same]
    rfl
  refine ⟨?_, ?_, ?_⟩
  · change (Lib.insertKey Parcel.number pkt.parcel L.held).map parcelEntry = _
    rw [hsent, Lib.map_insertKey Parcel.number Prod.fst parcelEntry fun _ => rfl,
      Lib.map_insertKey Sent.pktNum Prod.fst Sent.entry fun _ => rfl, h.held, parcelEntry_parcel]
  · simp only [Recovery.onPacketSent, Recovery.modifyFecGroup_acked]
    exact h.acked
  · simp only [Recovery.onPacketSent, Recovery.modifyFecGroup_lost]
    exact h.lost

/-- A packet that is acknowledged is delivered. -/
theorem deliver {r' : Recovery} {pktNum : ℕ} {p : Sent} (h : Shows L r e)
    (hfind : ((r.sent e).find? fun p => p.pktNum == pktNum) = some p)
    (hsent : r'.sent e = (r.sent e).filter fun q => q.pktNum ≠ pktNum)
    (hacked : r'.acked e = r.acked e ++ p.frames) (hlost : r'.lost e = r.lost e) :
    Shows (L.deliver pktNum) r' e := by
  obtain ⟨q, hq, _, hframes⟩ := h.find_some hfind
  rw [Ledger.deliver, hq]
  refine ⟨?_, ?_, ?_⟩
  · rw [hsent]
    exact h.filter_ne pktNum
  · rw [hacked, ← h.acked, ← hframes]
    exact List.map_append
  · rw [hlost]
    exact h.lost

/-- A packet that is lost is given up. -/
theorem giveUp {r' : Recovery} {pktNum : ℕ} {p : Sent} (h : Shows L r e)
    (hfind : ((r.sent e).find? fun p => p.pktNum == pktNum) = some p)
    (hsent : r'.sent e = (r.sent e).filter fun q => q.pktNum ≠ pktNum)
    (hacked : r'.acked e = r.acked e)
    (hlost : r'.lost e = if p.inFlight then r.lost e ++ p.frames else r.lost e) :
    Shows (L.giveUp pktNum) r' e := by
  obtain ⟨q, hq, htracked, hframes⟩ := h.find_some hfind
  simp only [Ledger.giveUp, hq, htracked]
  by_cases hflight : p.inFlight
  · rw [if_pos hflight] at hlost ⊢
    refine ⟨?_, ?_, ?_⟩
    · rw [hsent]
      exact h.filter_ne pktNum
    · rw [hacked]
      exact h.acked
    · rw [hlost, ← h.lost, ← hframes]
      exact List.map_append
  · rw [if_neg hflight] at hlost ⊢
    refine ⟨?_, ?_, ?_⟩
    · rw [hsent]
      exact h.filter_ne pktNum
    · rw [hacked]
      exact h.acked
    · rw [hlost]
      exact h.lost

/-- The frames of a packet that the peer can rebuild count as acked. -/
theorem unpack (h : Shows L r .application) (pktNum : ℕ) :
    Shows (L.unpack pktNum) (r.onPacketRecovered pktNum) .application := by
  unfold Recovery.onPacketRecovered
  cases hfind : (r.sent .application).find? fun p => p.pktNum == pktNum with
  | none =>
    rw [Ledger.unpack, h.find_none hfind]
    exact h
  | some p =>
    obtain ⟨q, hq, _, hframes⟩ := h.find_some hfind
    rw [Ledger.unpack, hq]
    refine ⟨?_, ?_, ?_⟩
    · have hmap := congrArg (List.map fun x => if x.1 = pktNum then (x.1, x.2.1, []) else x) h.held
      rw [List.map_map, List.map_map] at hmap
      simp only [Epoch.update_same, List.map_map]
      refine Eq.trans (List.map_congr_left fun x _ => ?_)
        (hmap.trans (List.map_congr_left fun x _ => ?_))
      · by_cases hx : x.number = pktNum <;> simp [parcelEntry, hx]
      · by_cases hx : x.pktNum = pktNum <;> simp [Sent.entry, hx]
    · simp only [Epoch.update_same]
      rw [← h.acked, ← hframes]
      exact List.map_append
    · exact h.lost

private theorem unpacks (h : Shows L r .application) (pktNums : List ℕ) :
    Shows (L.run (pktNums.map .unpack)) (pktNums.foldl Recovery.onPacketRecovered r)
        .application := by
  induction pktNums generalizing L r with
  | nil => exact h
  | cons pktNum pktNums ih => exact ih (h.unpack pktNum)

end Shows

namespace Recovery

/-- Only the frames of application packets are recovered. -/
theorem onPacketRecovered_of_ne {e : Epoch} (he : e ≠ .application) (r : Recovery) (pktNum : ℕ) :
    (r.onPacketRecovered pktNum).sent e = r.sent e ∧
    (r.onPacketRecovered pktNum).acked e = r.acked e ∧
      (r.onPacketRecovered pktNum).lost e = r.lost e := by
  unfold onPacketRecovered
  split
  · exact ⟨rfl, rfl, rfl⟩
  · exact ⟨Epoch.update_of_ne he, Epoch.update_of_ne he, rfl⟩

/-- Groups are changed without regard to anything else. -/
theorem modifyFecGroup_congr {r r' : Recovery} (h : r'.pnsInFecGroup = r.pnsInFecGroup)
    (info : FecStatus) (f : FecPacketNumbers → FecPacketNumbers) :
    (r'.modifyFecGroup info f).pnsInFecGroup = (r.modifyFecGroup info f).pnsInFecGroup := by
  unfold modifyFecGroup
  split_ifs
  · exact h
  · simp only [h]

/-- An acked packet is removed, before others are recovered. -/
theorem onPacketAcked_eq (r : Recovery) {pktNum : ℕ} {epoch : Epoch} {p : Sent}
    (hfind : ((r.sent epoch).find? fun p => p.pktNum == pktNum) = some p) :
    ∃ r' : Recovery, (r.onPacketAcked pktNum epoch).2 = (r.rebuilt p).foldl onPacketRecovered r' ∧
      r'.sent = Epoch.update r.sent epoch ((r.sent epoch).filter fun q => q.pktNum ≠ pktNum) ∧
      r'.acked = Epoch.update r.acked epoch (r.acked epoch ++ p.frames) ∧ r'.lost = r.lost ∧
      r'.pnsInFecGroup =
        (r.modifyFecGroup p.fecInfo fun g => g.packetAcked p.pktNum).pnsInFecGroup := by
  have hgroups (sent : Epoch → List Sent) (acked : Epoch → List Frame) (f) :
      (modifyFecGroup { r with sent, acked } p.fecInfo f).pnsInFecGroup =
        (r.modifyFecGroup p.fecInfo f).pnsInFecGroup := by
    apply modifyFecGroup_congr
    rfl
  unfold onPacketAcked
  simp only [hfind]
  refine ⟨_, congrArg (fun pns => List.foldl _ _ pns) ?_, ?_, ?_, ?_, hgroups _ _ _⟩
  · unfold rebuilt
    dsimp only
    split_ifs
    · rfl
    · exact congrArg (fun groups : ℕ → Option FecPacketNumbers =>
        ((groups p.fecInfo.groupId).map FecPacketNumbers.recoveredPns).getD []) (hgroups _ _ _)
  · rw [modifyFecGroup_sent]
  · rw [modifyFecGroup_acked]
  · rw [modifyFecGroup_lost]

end Recovery

namespace Shows

variable {L : Ledger FrameInstance} {r : Recovery} {e : Epoch}

/-- Only application packets are rebuilt. -/
theorem recovered_of_ne (he : e ≠ .application) (h : Shows L r e) (pktNums : List ℕ) :
    Shows L (pktNums.foldl Recovery.onPacketRecovered r) e := by
  induction pktNums generalizing r with
  | nil => exact h
  | cons pktNum pktNums ih =>
    obtain ⟨hsent, hacked, hlost⟩ := r.onPacketRecovered_of_ne he pktNum
    exact ih (h.congr hsent hacked hlost)

/-- An acked packet is delivered, and those that can be rebuilt with it. -/
theorem onPacketAcked (h : Shows L r e) (pktNum : ℕ) (epoch : Epoch) :
    Shows (L.run (r.ackedMoves pktNum epoch e)) (r.onPacketAcked pktNum epoch).2 e := by
  cases hfind : (r.sent epoch).find? fun p => p.pktNum == pktNum with
  | none =>
    simp only [Recovery.ackedMoves, Recovery.onPacketAcked, hfind]
    exact h
  | some p =>
    obtain ⟨r', hr', hsent, hacked, hlost, _⟩ := r.onPacketAcked_eq hfind
    rw [hr', Recovery.ackedMoves, hfind, Ledger.run_append]
    have hremoved : Shows (L.run (if e = epoch then [.deliver pktNum] else [])) r' e := by
      by_cases he : e = epoch
      · subst he
        rw [if_pos rfl]
        refine h.deliver hfind ?_ ?_ (congrFun hlost e)
        · rw [hsent, Epoch.update_same]
        · rw [hacked, Epoch.update_same]
      · rw [if_neg he]
        refine h.congr ?_ ?_ (congrFun hlost e)
        · rw [hsent, Epoch.update_of_ne he]
        · rw [hacked, Epoch.update_of_ne he]
    by_cases he : e = .application
    · subst he
      rw [if_pos rfl]
      exact hremoved.unpacks _
    · rw [if_neg he]
      exact hremoved.recovered_of_ne he _

/-- The packets of an ACK frame are delivered. -/
theorem ackLoop (h : Shows L r e) (epoch : Epoch) (pns : List ℕ) (newly : Bool) :
    Shows (L.run (Recovery.ackLoopMoves epoch e pns r))
        (Recovery.ackLoop epoch pns (newly, r)).2 e := by
  induction pns generalizing L r newly with
  | nil => exact h
  | cons pn pns ih =>
    unfold Recovery.ackLoopMoves Recovery.ackLoop
    by_cases hlow : ((r.sent epoch).head?.any fun lowest => pn < lowest.pktNum) = true
    · rw [if_pos hlow, if_pos hlow]
      exact h
    · rw [if_neg hlow, if_neg hlow, Ledger.run_append]
      exact ih (h.onPacketAcked pn epoch) _

/-- The numbers of the packets are in order where those of the parcels are. -/
theorem ascending (h : Shows L r e) (hL : L.Ordered) : Ascending Sent.pktNum (r.sent e) := by
  have hheld : (L.held.map parcelEntry).Pairwise fun x y => x.1 < y.1 := List.pairwise_map.mpr hL
  rw [h.held] at hheld
  exact (List.pairwise_map (f := Sent.entry)).mp hheld

/-- A packet that is given up takes no other packet with it. -/
theorem onPacketsLost (h : Shows L r e) (hL : L.Ordered) {ps : List Sent}
    (hps : ∀ p ∈ ps, p ∈ r.sent e)
    (hascending : Ascending Sent.pktNum ps) :
    Shows (L.run (ps.map fun p => .giveUp p.pktNum)) (ps.foldl (Recovery.onPacketLost e) r) e := by
  induction ps generalizing L r with
  | nil => exact h
  | cons p ps ih =>
    obtain ⟨hp, hrest⟩ := List.pairwise_cons.mp hascending
    have hfind := (h.ascending hL).find?_eq (hps p List.mem_cons_self)
    have hsent : (r.onPacketLost e p).sent e = (r.sent e).filter fun q => q.pktNum ≠ p.pktNum := by
      unfold Recovery.onPacketLost
      split_ifs <;> simp
    have hacked : (r.onPacketLost e p).acked e = r.acked e := by
      unfold Recovery.onPacketLost
      split_ifs <;> simp
    have hlost : (r.onPacketLost e p).lost e =
        if p.inFlight then r.lost e ++ p.frames else r.lost e := by
      unfold Recovery.onPacketLost
      split_ifs <;> simp
    refine ih (h.giveUp hfind hsent hacked hlost) (hL.apply (.giveUp p.pktNum))
      (fun q hq => ?_) hrest
    rw [hsent]
    exact List.mem_filter.mpr ⟨hps q (List.mem_cons_of_mem p hq), decide_eq_true (hp q hq).ne'⟩

/-- The packets of other epochs stay. -/
theorem onPacketsLost_of_ne {epoch : Epoch} (he : e ≠ epoch) (h : Shows L r e) (ps : List Sent) :
    Shows L (ps.foldl (Recovery.onPacketLost epoch) r) e := by
  induction ps generalizing r with
  | nil => exact h
  | cons p ps ih =>
    refine ih (h.congr ?_ ?_ ?_)
    all_goals
      unfold Recovery.onPacketLost
      split_ifs <;> simp [Epoch.update_of_ne he]

/-- The packets that are lost are given up. -/
theorem detectLostPackets (h : Shows L r e) (hL : L.Ordered) (epoch : Epoch) (now lossDelay : ℕ) :
    Shows (L.run (r.lostMoves epoch now lossDelay e))
        (r.detectLostPackets epoch now lossDelay) e := by
  have htimes (times : Epoch → Option ℕ) : Shows L { r with lossTime := times } e :=
    h.congr rfl rfl rfl
  unfold Recovery.lostMoves Recovery.detectLostPackets
  by_cases he : e = epoch
  · subst he
    rw [if_pos rfl]
    exact (htimes _).onPacketsLost hL (fun p hp => (List.mem_filter.mp hp).1)
      ((h.ascending hL).filter _)
  · rw [if_neg he]
    exact (htimes _).onPacketsLost_of_ne he _

/-- A call moves frames as its list of moves says. -/
theorem call {r' : Recovery} (h : Shows L r e) (hL : L.Ordered) {call : RecoveryCall}
    (hcall : r.call call = .ok r') : Shows (L.run (r.moves e call)) r' e := by
  -- one case per call: what it does to the lists is a list of moves
  cases call with
  | onPacketSent pkt epoch handshakeCompleted t =>
    cases hcall
    simp only [Recovery.moves]
    by_cases he : e = epoch
    · subst he
      rw [if_pos rfl]
      exact h.send pkt t.now
    · rw [if_neg he]
      refine h.congr ?_ ?_ ?_
      all_goals simp [Recovery.onPacketSent, Epoch.update_of_ne he]
  | onAckReceived ranges epoch handshakeCompleted t =>
    change r.onAckReceived ranges epoch t.now t.lossDelay = .ok r' at hcall
    unfold Recovery.onAckReceived at hcall
    simp only [Recovery.moves]
    cases hlargest : ranges.largest with
    | none =>
      rw [hlargest] at hcall
      cases hcall
    | some largestAcked =>
      simp only [hlargest] at hcall ⊢
      -- an ACK frame for packets that were not sent moves nothing
      by_cases hlarge : r.largestSentPkt epoch < largestAcked
      · rw [if_pos hlarge] at hcall
        cases hcall
      · rw [if_neg hlarge] at hcall ⊢
        generalize Epoch.update r.largestAckedPkt epoch _ = acked at hcall ⊢
        have hlargest : Shows L { r with largestAckedPkt := acked } e := h.congr rfl rfl rfl
        have hloop := hlargest.ackLoop epoch ranges.flatten.reverse false
        rw [Ledger.run_append]
        split_ifs at hcall ⊢
        · cases hcall
          exact hloop.detectLostPackets (Ledger.ordered_run hL _) _ _ _
        · cases hcall
          exact hloop
  | onLossDetectionTimeout handshakeCompleted t =>
    cases hcall
    simp only [Recovery.moves, Recovery.onLossDetectionTimeout]
    split_ifs
    · exact h.detectLostPackets hL _ _ _
    · exact h.congr rfl rfl rfl
  | dropUnackedData epoch =>
    cases hcall
    simp only [Recovery.moves, Recovery.dropUnackedData]
    by_cases he : e = epoch
    · subst he
      rw [if_pos rfl]
      refine ⟨?_, ?_, ?_⟩ <;> simp [Ledger.apply, Lib.Pile.clear]
    · rw [if_neg he]
      refine h.congr ?_ ?_ ?_ <;> simp [Epoch.update_of_ne he]
  | drainAcked epoch =>
    cases hcall
    simp only [Recovery.moves, Recovery.drainAcked]
    by_cases he : e = epoch
    · subst he
      rw [if_pos rfl]
      refine ⟨h.held, ?_, h.lost⟩
      simp [Ledger.apply, Lib.Pile.take]
    · rw [if_neg he]
      exact h.congr rfl (Epoch.update_of_ne he) rfl
  | drainLost epoch =>
    cases hcall
    simp only [Recovery.moves, Recovery.drainLost]
    by_cases he : e = epoch
    · subst he
      rw [if_pos rfl]
      refine ⟨h.held, h.acked, ?_⟩
      simp [Ledger.apply, Lib.Pile.take]
    · rw [if_neg he]
      exact h.congr rfl rfl (Epoch.update_of_ne he)

end Shows

/-! ### Runs -/

/-- `Recovery`, and a ledger of each epoch. -/
structure Books where
  recovery : Recovery
  ledger : Epoch → Ledger FrameInstance

namespace Books

/-- Nothing is sent yet. -/
def new : Books := ⟨.new, fun _ => .empty⟩

/-- Loss recovery and the ledger after a call. -/
def step (b : Books) (call : RecoveryCall) : Option Books :=
  (b.recovery.step call).map fun r => ⟨r, fun e => (b.ledger e).run (b.recovery.moves e call)⟩

/-- Keeping books changes nothing. -/
theorem exists_run {b : Books} {r : Recovery} {calls : List RecoveryCall}
    (hrun : Lib.run Recovery.step b.recovery calls = some r) :
    ∃ b', Lib.run step b calls = some b' ∧ b'.recovery = r := by
  induction calls generalizing b with
  | nil => exact ⟨b, rfl, by simpa using hrun⟩
  | cons call calls ih =>
    obtain ⟨r₁, hstep, hrest⟩ := Option.bind_eq_some_iff.mp hrun
    have hbooks : b.step call = some ⟨r₁, fun e => (b.ledger e).run (b.recovery.moves e call)⟩ := by
      rw [step, hstep, Option.map_some]
    obtain ⟨b', hrun', hrecovery⟩ := ih (b := ⟨r₁, _⟩) hrest
    refine ⟨b', ?_, hrecovery⟩
    rw [Lib.run_cons, hbooks]
    exact hrun'

end Books

/-- The packets that calls pass to an epoch. -/
def sentIn (e : Epoch) : List RecoveryCall → List Sent :=
  List.filterMap fun
    | .onPacketSent pkt epoch _ _ => if e = epoch then some pkt else none
    | _ => none

private theorem sentIn_cons (e : Epoch) (call : RecoveryCall) (calls : List RecoveryCall) :
    sentIn e (call :: calls) = sentIn e [call] ++ sentIn e calls :=
  List.filterMap_append (l := [call])

/-- The packets that calls pass to an epoch have different numbers. -/
def FreshNumbers (calls : List RecoveryCall) : Prop :=
  ∀ e, ((sentIn e calls).map Sent.pktNum).Nodup

namespace Recovery

open Lib.Ledger (sends sends_append)

private theorem sends_ackedMoves (r : Recovery) (pktNum : ℕ) (epoch e : Epoch) :
    sends (r.ackedMoves pktNum epoch e) = [] := by
  unfold ackedMoves
  split
  · rfl
  · rw [sends_append, List.append_eq_nil_iff]
    constructor
    · split_ifs <;> rfl
    · split_ifs
      · exact List.filterMap_eq_nil_iff.mpr fun m hm => by
          obtain ⟨pn, -, rfl⟩ := List.mem_map.mp hm
          rfl
      · rfl

private theorem sends_ackLoopMoves (epoch e : Epoch) (pns : List ℕ) (r : Recovery) :
    sends (ackLoopMoves epoch e pns r) = [] := by
  induction pns generalizing r with
  | nil => rfl
  | cons pn pns ih =>
    unfold ackLoopMoves
    split_ifs
    · rfl
    · rw [sends_append, sends_ackedMoves, ih, List.nil_append]

/-- Nothing is sent when packets are lost. -/
theorem sends_lostMoves (r : Recovery) (epoch : Epoch) (now lossDelay : ℕ) (e : Epoch) :
    sends (r.lostMoves epoch now lossDelay e) = [] := by
  unfold lostMoves
  split_ifs
  · exact List.filterMap_eq_nil_iff.mpr fun m hm => by
      obtain ⟨p, -, rfl⟩ := List.mem_map.mp hm
      rfl
  · rfl

/-- A call sends the packets that it is given. -/
theorem sends_moves (r : Recovery) (e : Epoch) (call : RecoveryCall) :
    sends (r.moves e call) = (sentIn e [call]).map Sent.parcel := by
  cases call with
  | onPacketSent pkt epoch handshakeCompleted t =>
    by_cases he : e = epoch <;> simp [moves, sentIn, sends, he]
  | onAckReceived ranges epoch handshakeCompleted t =>
    change _ = []
    simp only [moves]
    split
    · rfl
    · rename_i largestAcked _
      by_cases hlarge : r.largestSentPkt epoch < largestAcked
      · rw [if_pos hlarge]
        rfl
      · rw [if_neg hlarge, sends_append, sends_ackLoopMoves, List.nil_append]
        generalize Epoch.update r.largestAckedPkt epoch _ = acked
        split_ifs
        · exact sends_lostMoves ..
        · rfl
  | onLossDetectionTimeout handshakeCompleted t =>
    change _ = []
    simp only [moves]
    split_ifs
    · exact sends_lostMoves ..
    · rfl
  | dropUnackedData epoch =>
    change _ = []
    simp only [moves]
    split_ifs <;> rfl
  | drainAcked epoch =>
    change _ = []
    simp only [moves]
    split_ifs <;> rfl
  | drainLost epoch =>
    change _ = []
    simp only [moves]
    split_ifs <;> rfl

/-- A call that fails moves nothing. -/
theorem moves_of_error {r : Recovery} {call : RecoveryCall} {e : Epoch} {f : Fault}
    (h : r.call call = .error f) : r.moves e call = [] := by
  cases call with
  | onAckReceived ranges epoch handshakeCompleted t =>
    change r.onAckReceived ranges epoch t.now t.lossDelay = _ at h
    unfold onAckReceived at h
    simp only [moves]
    cases hlargest : ranges.largest with
    | none => rfl
    | some largestAcked =>
      simp only [hlargest] at h ⊢
      by_cases hlarge : r.largestSentPkt epoch < largestAcked
      · rw [if_pos hlarge]
      · rw [if_neg hlarge] at h
        split_ifs at h
  | _ => cases h

end Recovery

namespace Books

open Lib.Ledger (sends sends_append FreshSends)

/-- The books of an epoch are kept: its ledger has moved what was sent, and shows `Recovery`. -/
structure Kept (e : Epoch) (sent : List Sent) (b : Books) : Prop where
  shown : Shows (b.ledger e) b.recovery e
  moved : ∃ moves, b.ledger e = Ledger.empty.run moves ∧ sends moves = sent.map Sent.parcel

/-- A call keeps the ledger. -/
theorem Kept.step {e : Epoch} {sent : List Sent} {b b' : Books} {call : RecoveryCall}
    (h : Kept e sent b) (hstep : b.step call = some b') : Kept e (sent ++ sentIn e [call]) b' := by
  obtain ⟨moves, hledger, hsends⟩ := h.moved
  have hordered : (b.ledger e).Ordered := hledger ▸ Ledger.ordered_run Ledger.ordered_empty moves
  obtain ⟨r, hr, rfl⟩ := Option.map_eq_some_iff.mp hstep
  refine ⟨?_, moves ++ b.recovery.moves e call, ?_, ?_⟩
  · change Shows ((b.ledger e).run _) r e
    unfold Recovery.step afterCall at hr
    cases hcall : b.recovery.call call with
    | ok r' =>
      rw [hcall] at hr
      cases hr
      exact h.shown.call hordered hcall
    | error f =>
      rw [hcall] at hr
      rw [Recovery.moves_of_error hcall]
      cases f <;> cases hr
      exact h.shown
  · change (b.ledger e).run _ = _
    rw [hledger, Ledger.run_append]
  · rw [sends_append, hsends, Recovery.sends_moves, List.map_append]

/-- Calls keep the ledger. -/
theorem Kept.run {e : Epoch} {sent : List Sent} {b b' : Books} {calls : List RecoveryCall}
    (h : Kept e sent b) (hrun : Lib.run Books.step b calls = some b') :
    Kept e (sent ++ sentIn e calls) b' := by
  induction calls generalizing b sent with
  | nil =>
    obtain rfl : b = b' := by simpa using hrun
    simpa [sentIn] using h
  | cons call calls ih =>
    obtain ⟨b₁, hstep, hrest⟩ := Option.bind_eq_some_iff.mp hrun
    rw [sentIn_cons, ← List.append_assoc]
    exact ih (h.step hstep) hrest

/-- Nothing is sent yet. -/
theorem new_kept (e : Epoch) : Kept e [] new := ⟨⟨rfl, rfl, rfl⟩, [], rfl, rfl⟩

/-- The frames of packets with different numbers differ. -/
theorem instances_nodup_of_fresh {sent : List Sent} (h : (sent.map Sent.pktNum).Nodup) :
    (sent.flatMap Sent.instances).Nodup := by
  refine List.nodup_flatMap.mpr ⟨fun p _ => p.instances_nodup, ?_⟩
  refine (List.pairwise_map.mp h).imp fun hne => ?_
  intro a ha ha'
  exact hne ((Sent.pktNum_of_mem_instances ha).symm.trans (Sent.pktNum_of_mem_instances ha'))

/-- The place of a frame: where it is, and nowhere else. A frame of an outstanding packet is in
its own packet, and no frame of a packet in flight is dropped. -/
structure Placed (L : Ledger FrameInstance) (a : FrameInstance) (place : Ledger.Place) : Prop where
  once : (L.items place).count a = 1
  nowhere_else : ∀ other, other ≠ place → a ∉ L.items other
  kept : place ≠ .dropped
  own : place = .held → ∃ p ∈ L.held, p.number = a.pktNum ∧ a ∈ p.items

private theorem Kept.placed {e : Epoch} {sent : List Sent} {b : Books} (h : Kept e sent b)
    (hfresh : (sent.map Sent.pktNum).Nodup) {pkt : Sent} (hpkt : pkt ∈ sent)
    (hflight : pkt.inFlight = true) {a : FrameInstance} (ha : a ∈ pkt.instances) :
    ∃ place, Placed (b.ledger e) a place := by
  obtain ⟨moves, hledger, hsends⟩ := h.moved
  have hnumbers : FreshSends moves := by
    rw [FreshSends, hsends, List.map_map]
    exact hfresh
  have hitems : (sends moves).flatMap Parcel.items = sent.flatMap Sent.instances := by
    rw [hsends, List.flatMap_map]
    rfl
  have hcount : ((sends moves).flatMap Parcel.items).count a = 1 := by
    rw [hitems]
    exact List.count_eq_one_of_mem (instances_nodup_of_fresh hfresh)
      (List.mem_flatMap.mpr ⟨pkt, hpkt, ha⟩)
  obtain ⟨place, honce, helse⟩ := Ledger.exists_place hnumbers hcount
  have hmem : a ∈ (Ledger.empty.run moves).items place := List.one_le_count_iff.mp honce.ge
  rw [hledger]
  refine ⟨place, honce, helse, ?_, ?_⟩
  · rintro rfl
    obtain ⟨p, hp, huntracked, hap⟩ := Ledger.untracked_of_dropped moves a hmem
    rw [hsends] at hp
    obtain ⟨q, hq, rfl⟩ := List.mem_map.mp hp
    have hnumber := (Sent.pktNum_of_mem_instances ha).symm.trans (Sent.pktNum_of_mem_instances hap)
    obtain rfl := List.inj_on_of_nodup_map hfresh hpkt hq hnumber
    exact Bool.noConfusion (hflight.symm.trans huntracked)
  · rintro rfl
    obtain ⟨q, hq, haq⟩ := List.mem_flatMap.mp hmem
    obtain ⟨p, hp, hnumber, _, hp'⟩ := Ledger.sent_of_held moves q hq
    rw [hsends] at hp
    obtain ⟨s, _, rfl⟩ := List.mem_map.mp hp
    refine ⟨q, hq, ?_, haq⟩
    rcases hp' with heq | heq
    · rw [heq] at haq
      exact hnumber.trans (Sent.pktNum_of_mem_instances haq).symm
    · rw [heq] at haq
      cases haq

/-- Along every run with fresh packet numbers, every frame of every packet that was sent in flight
is in exactly one place: in its packet, acked and waiting or taken, lost and waiting or taken, or
discarded with its epoch. -/
theorem conserved {calls : List RecoveryCall} {r : Recovery} (hfresh : FreshNumbers calls)
    (hrun : Lib.run Recovery.step .new calls = some r) :
    ∃ b, Lib.run step new calls = some b ∧ b.recovery = r ∧ ∀ e, Shows (b.ledger e) r e ∧
      ∀ pkt ∈ sentIn e calls, pkt.inFlight = true → ∀ a ∈ pkt.instances,
        ∃ place, Placed (b.ledger e) a place := by
  obtain ⟨b, hbooks, rfl⟩ := exists_run (b := new) hrun
  refine ⟨b, hbooks, rfl, fun e => ?_⟩
  have hkept := (new_kept e).run hbooks
  rw [List.nil_append] at hkept
  exact ⟨hkept.shown, fun pkt hpkt hflight a ha => hkept.placed (hfresh e) hpkt hflight ha⟩

/-- The ranges of an ack of the first packet alone. -/
theorem sorted_firstAcked : List.Pairwise (fun a b : ℕ × ℕ => a.1 < b.1) [(0, 1)] :=
  List.pairwise_singleton _ _

/-- Two packets of a group that is rebuilt from one, of which the first is acked. -/
def recoveringCalls : List RecoveryCall :=
  [.onPacketSent ⟨0, [.ping], 0, 40, true, true, ⟨1, 1, 1, 0⟩⟩ .application true ⟨0, 0, 1000⟩,
    .onPacketSent ⟨1, [.ping, .ping], 1, 40, true, true, ⟨1, 1, 1, 1⟩⟩ .application true
      ⟨1, 0, 1000⟩,
    .onAckReceived ⟨[(0, 1)], sorted_firstAcked⟩ .application true ⟨50, 60, 1000⟩,
    .drainAcked .application]

theorem conserved_recovering : ∃ r, Lib.run Recovery.step .new recoveringCalls = some r ∧
    ∃ b, Lib.run step new recoveringCalls = some b ∧ b.recovery = r ∧ ∀ e, Shows (b.ledger e) r e ∧
      ∀ pkt ∈ sentIn e recoveringCalls, pkt.inFlight = true → ∀ a ∈ pkt.instances,
        ∃ place, Placed (b.ledger e) a place := by
  have hdefined : (Lib.run Recovery.step .new recoveringCalls).isSome = true := by decide +kernel
  obtain ⟨r, hrun⟩ := Option.isSome_iff_exists.mp hdefined
  have hfresh : FreshNumbers recoveringCalls := by
    intro e
    cases e <;> decide
  exact ⟨r, hrun, conserved hfresh hrun⟩

end Books

end Dtp
