import Dtp.Frame

/-!
# Loss recovery

`Recovery` remembers the packets that were sent until they are acked or declared
lost, and hands their frames back to the connection. Round-trip times, timers and
congestion control are not modelled: the delay after which a packet counts as lost is
given to the operations that need it.

## Main definitions

* `Recovery.onPacketSent`, `Recovery.onAckReceived`, `Recovery.onLossDetectionTimeout`
-/

namespace Dtp

/-- A packet that was sent. -/
structure Sent where
  pktNum : ℕ
  frames : List Frame
  /-- When the packet was sent. -/
  time : ℕ
  size : ℕ
  ackEliciting : Bool
  inFlight : Bool
  fecInfo : FecStatus
  deriving DecidableEq

/-- The packet numbers of a FEC group. -/
structure FecPacketNumbers where
  m : ℕ
  n : ℕ
  /-- The packet numbers that were sent, by index. -/
  sent : List (ℕ × ℕ)
  acked : List ℕ
  lost : List ℕ

namespace FecPacketNumbers

/-- A packet of the group is sent. -/
def packetSent (g : FecPacketNumbers) (index pn : ℕ) : FecPacketNumbers :=
  { g with sent := (index, pn) :: g.sent.filter fun p => p.1 ≠ index }

/-- A packet of the group is acked. -/
def packetAcked (g : FecPacketNumbers) (pn : ℕ) : FecPacketNumbers :=
  { g with acked := g.acked.insert pn }

/-- A packet of the group is lost. -/
def packetLost (g : FecPacketNumbers) (pn : ℕ) : FecPacketNumbers :=
  { g with lost := g.lost.insert pn }

/-- The packets that the peer has or can rebuild, once it has acked enough of them. -/
def recoveredPns (g : FecPacketNumbers) : List ℕ :=
  if g.m ≤ g.acked.length then (g.sent.map Prod.snd).filter fun pn => pn ∉ g.acked else []

end FecPacketNumbers

/-- A map from epochs, changed at one epoch. -/
def Epoch.update {α : Type} (f : Epoch → α) (epoch : Epoch) (a : α) : Epoch → α :=
  fun e => if e = epoch then a else f e

@[simp] theorem Epoch.update_same {α : Type} (f : Epoch → α) (epoch : Epoch) (a : α) :
    Epoch.update f epoch a epoch = a := if_pos rfl

theorem Epoch.update_of_ne {α : Type} {f : Epoch → α} {epoch e : Epoch} {a : α}
    (h : e ≠ epoch) : Epoch.update f epoch a e = f e := if_neg h

/-- How many packets later a packet counts as lost. -/
def packetThreshold : ℕ := 3

/-- Loss recovery: the packets that are not acked, and the frames of those that are acked or lost.
-/
structure Recovery where
  /-- The largest packet number acked, `u64Max` before the first. -/
  largestAckedPkt : Epoch → ℕ
  largestSentPkt : Epoch → ℕ
  timeOfLastSentAckElicitingPkt : Epoch → Option ℕ
  lossTime : Epoch → Option ℕ
  /-- The packets not yet acked or lost, in ascending order of their numbers. -/
  sent : Epoch → List Sent
  /-- Frames of lost packets that wait for `send`. -/
  lost : Epoch → List Frame
  /-- Frames of acked packets that wait for `recv`. -/
  acked : Epoch → List Frame
  totalPktNums : ℕ
  lostCount : ℕ
  lossProbes : Epoch → ℕ
  pnsInFecGroup : ℕ → Option FecPacketNumbers

namespace Recovery

/-- No packet is sent yet. -/
def new : Recovery where
  largestAckedPkt _ := u64Max
  largestSentPkt _ := 0
  timeOfLastSentAckElicitingPkt _ := none
  lossTime _ := none
  sent _ := []
  lost _ := []
  acked _ := []
  totalPktNums := 0
  lostCount := 0
  lossProbes _ := 0
  pnsInFecGroup _ := none

/-- Changes the FEC group of a sent packet, which exists since the packet was sent. -/
def modifyFecGroup (r : Recovery) (info : FecStatus) (f : FecPacketNumbers → FecPacketNumbers) :
    Recovery :=
  if info.groupId = 0 then r
  else
    let group := (r.pnsInFecGroup info.groupId).getD ⟨info.m, info.n, [], [], []⟩
    { r with
      pnsInFecGroup := fun id => if id = info.groupId then some (f group) else r.pnsInFecGroup id }

/-- Adds a packet to the map of sent packets, in place of one with the same number. -/
def insertSent (sent : List Sent) (pkt : Sent) : List Sent :=
  (sent.filter fun p => p.pktNum < pkt.pktNum) ++ pkt :: sent.filter fun p => pkt.pktNum < p.pktNum

/-- Records a packet that was sent. -/
def onPacketSent (r : Recovery) (pkt : Sent) (epoch : Epoch) (now : ℕ) : Recovery :=
  let r := r.modifyFecGroup pkt.fecInfo fun g => g.packetSent pkt.fecInfo.index pkt.pktNum
  { r with
    largestSentPkt := Epoch.update r.largestSentPkt epoch (max (r.largestSentPkt epoch) pkt.pktNum)
    totalPktNums := r.totalPktNums + 1
    timeOfLastSentAckElicitingPkt :=
      if pkt.inFlight && pkt.ackEliciting then
        Epoch.update r.timeOfLastSentAckElicitingPkt epoch (some now)
      else r.timeOfLastSentAckElicitingPkt
    sent := Epoch.update r.sent epoch (insertSent (r.sent epoch) pkt) }

/-- The peer can rebuild the packet: its frames count as acked. -/
def onPacketRecovered (r : Recovery) (pktNum : ℕ) : Recovery :=
  match (r.sent .application).find? fun p => p.pktNum == pktNum with
  | none => r
  | some p =>
    { r with
      acked := Epoch.update r.acked .application (r.acked .application ++ p.frames)
      sent := Epoch.update r.sent .application
        ((r.sent .application).map fun q =>
          if q.pktNum = pktNum then { q with frames := [] } else q) }

/-- Removes an acked packet and hands out its frames, unless it is not newly acked. -/
def onPacketAcked (r : Recovery) (pktNum : ℕ) (epoch : Epoch) : Bool × Recovery :=
  match (r.sent epoch).find? fun p => p.pktNum == pktNum with
  | none => (false, r)
  | some p =>
    let r :=
      { r with
        acked := Epoch.update r.acked epoch (r.acked epoch ++ p.frames)
        sent := Epoch.update r.sent epoch ((r.sent epoch).filter fun q => q.pktNum ≠ pktNum) }
    let r := r.modifyFecGroup p.fecInfo fun g => g.packetAcked p.pktNum
    let recovered :=
      if p.fecInfo.groupId = 0 then []
      else ((r.pnsInFecGroup p.fecInfo.groupId).map FecPacketNumbers.recoveredPns).getD []
    (true, recovered.foldl onPacketRecovered r)

/-- The loop over the acked packet numbers, from the largest down. -/
def ackLoop (epoch : Epoch) : List ℕ → Bool × Recovery → Bool × Recovery
  | [], acc => acc
  | pn :: pns, (newly, r) =>
    -- all that follow are acked already
    if (r.sent epoch).head?.any fun lowest => pn < lowest.pktNum then (newly, r)
    else
      let result := r.onPacketAcked pn epoch
      ackLoop epoch pns (newly || result.1, result.2)

/-- The packet is old enough, or followed by enough acked ones, to count as lost. -/
def isLost (largestAcked now lossDelay : ℕ) (p : Sent) : Bool :=
  decide (p.pktNum ≤ largestAcked)
    && (decide (p.time + lossDelay ≤ now) || decide (p.pktNum + packetThreshold ≤ largestAcked))

/-- Removes a lost packet and hands out its frames if it was in flight. -/
def onPacketLost (epoch : Epoch) (r : Recovery) (p : Sent) : Recovery :=
  let r :=
    { r with
      sent := Epoch.update r.sent epoch ((r.sent epoch).filter fun q => q.pktNum ≠ p.pktNum)
      lostCount := r.lostCount + 1 }
  if p.inFlight then
    let r := r.modifyFecGroup p.fecInfo fun g => g.packetLost p.pktNum
    { r with lost := Epoch.update r.lost epoch (r.lost epoch ++ p.frames) }
  else r

/-- Declares packets lost, and sets the time when the next one may be. -/
def detectLostPackets (r : Recovery) (epoch : Epoch) (now lossDelay : ℕ) : Recovery :=
  let largestAcked := r.largestAckedPkt epoch
  let lost := (r.sent epoch).filter (isLost largestAcked now lossDelay)
  let kept := (r.sent epoch).filter fun p =>
    decide (p.pktNum ≤ largestAcked) && !isLost largestAcked now lossDelay p
  let r := { r with
    lossTime := Epoch.update r.lossTime epoch ((kept.map fun p => p.time + lossDelay).min?) }
  lost.foldl (onPacketLost epoch) r

/-- Processes the ranges of an ACK frame. -/
def onAckReceived (r : Recovery) (ranges : RangeSet) (epoch : Epoch) (now lossDelay : ℕ) :
    Except Fault Recovery :=
  match ranges.largest with
  | none => .error .panic
  | some largestAcked =>
    -- the peer acks a packet that was not sent
    if r.largestSentPkt epoch < largestAcked then .error (.error .invalidPacket)
    else
      let old := r.largestAckedPkt epoch
      let largest := if old = u64Max then largestAcked else max old largestAcked
      let r := { r with largestAckedPkt := Epoch.update r.largestAckedPkt epoch largest }
      let acked := ackLoop epoch ranges.flatten.reverse (false, r)
      if acked.1 then .ok (acked.2.detectLostPackets epoch now lossDelay) else .ok acked.2

/-- The earliest of the times, and its epoch. -/
def earliestLossTime (times : Epoch → Option ℕ) (handshakeCompleted : Bool) : Option ℕ × Epoch :=
  let earlier (best : Option ℕ × Epoch) (e : Epoch) : Option ℕ × Epoch :=
    match times e, best.1 with
    | some t, some b => if t < b then (some t, e) else best
    | some t, none => (some t, e)
    | none, _ => best
  let best := earlier (times .initial, .initial) .handshake
  if handshakeCompleted then earlier best .application else best

/-- Declares packets lost, or asks for probes. -/
def onLossDetectionTimeout (r : Recovery) (handshakeCompleted : Bool) (now lossDelay : ℕ) :
    Recovery :=
  let earliest := earliestLossTime r.lossTime handshakeCompleted
  if earliest.1.isSome then r.detectLostPackets earliest.2 now lossDelay
  else
    let epoch := (earliestLossTime r.timeOfLastSentAckElicitingPkt handshakeCompleted).2
    { r with lossProbes := Epoch.update r.lossProbes epoch 2 }

/-- Forgets the packets of an epoch. -/
def dropUnackedData (r : Recovery) (epoch : Epoch) : Recovery :=
  { r with
    lossTime := Epoch.update r.lossTime epoch none
    lossProbes := Epoch.update r.lossProbes epoch 0
    timeOfLastSentAckElicitingPkt := Epoch.update r.timeOfLastSentAckElicitingPkt epoch none
    sent := Epoch.update r.sent epoch []
    lost := Epoch.update r.lost epoch []
    acked := Epoch.update r.acked epoch [] }

/-! ### What the loops keep -/

variable {P : Recovery → Prop} {r r' : Recovery} {epoch : Epoch} {now lossDelay : ℕ}

/-- What acking a packet keeps, the scan keeps. -/
theorem ackLoop_induct {pns : List ℕ}
    (hacked : ∀ r, P r → ∀ pn ∈ pns, P (r.onPacketAcked pn epoch).2)
    (h : P r) (newly : Bool) : P (ackLoop epoch pns (newly, r)).2 := by
  induction pns generalizing r newly with
  | nil => exact h
  | cons pn pns ih =>
    unfold ackLoop
    split_ifs
    · exact h
    · apply ih
      · intro r hr pn' hpn'
        exact hacked r hr pn' (List.mem_cons_of_mem pn hpn')
      · exact hacked r h pn List.mem_cons_self

/-- What the loss of a packet keeps, the detection of losses keeps. -/
theorem detectLostPackets_induct
    (hlost : ∀ r', P r' → ∀ p ∈ r.sent epoch, P (onPacketLost epoch r' p))
    (htime : ∀ lossTime, P { r with lossTime }) (now lossDelay : ℕ) :
    P (r.detectLostPackets epoch now lossDelay) := by
  apply List.foldlRecOn (motive := P)
  · exact htime _
  · intro r' hr' p hp
    exact hlost r' hr' p (List.mem_filter.mp hp).1

/-- The state in which the scan starts. -/
def noteLargest (r : Recovery) (epoch : Epoch) (largestAcked : ℕ) : Recovery :=
  let old := r.largestAckedPkt epoch
  { r with
    largestAckedPkt :=
      Epoch.update r.largestAckedPkt epoch
        (if old = u64Max then largestAcked else max old largestAcked) }

/-- The ranges of an ACK frame acknowledge a packet that was not acked before. -/
def newlyAcks (r : Recovery) (ranges : RangeSet) (epoch : Epoch) : Bool :=
  ranges.largest.any fun largest =>
    (ackLoop epoch ranges.flatten.reverse (false, r.noteLargest epoch largest)).1

/-- An ACK frame is accepted if its largest number was sent. -/
theorem onAckReceived_eq_ok {ranges : RangeSet} :
    r.onAckReceived ranges epoch now lossDelay = .ok r' ↔
    ∃ largest, ranges.largest = some largest ∧ largest ≤ r.largestSentPkt epoch ∧
      let acked := ackLoop epoch ranges.flatten.reverse (false, r.noteLargest epoch largest)
      r' = if acked.1 then acked.2.detectLostPackets epoch now lossDelay else acked.2 := by
  unfold onAckReceived
  cases ranges.largest with
  | none => simp
  | some largest =>
    dsimp only
    by_cases hunsent : r.largestSentPkt epoch < largest
    · rw [if_pos hunsent]
      constructor
      · nofun
      · rintro ⟨_, ⟨⟩, hle, -⟩
        exact absurd hunsent (not_lt.mpr hle)
    · rw [if_neg hunsent, ← apply_ite Except.ok, Except.ok.injEq]
      constructor
      · rintro rfl
        exact ⟨largest, rfl, not_lt.mp hunsent, rfl⟩
      · rintro ⟨_, ⟨⟩, -, heq⟩
        exact heq.symm

/-- What the scan and the detection of losses keep, an ACK frame keeps. -/
theorem onAckReceived_induct {ranges : RangeSet}
    (h : r.onAckReceived ranges epoch now lossDelay = .ok r')
    (hdetect : ∀ r, P r → P (r.detectLostPackets epoch now lossDelay))
    (hscan : ∀ r, P r → P (ackLoop epoch ranges.flatten.reverse (false, r)).2)
    (hlargest : ∀ largestAckedPkt, P { r with largestAckedPkt }) : P r' := by
  obtain ⟨largest, -, -, rfl⟩ := onAckReceived_eq_ok.mp h
  have hacked := hscan _ (hlargest (r.noteLargest epoch largest).largestAckedPkt)
  split_ifs
  · exact hdetect _ hacked
  · exact hacked

/-! ### Packets are forgotten -/

/-- Packets are only forgotten: no number is added to those that were sent. -/
structure Forgets (r r' : Recovery) : Prop where
  largestSentPkt : r'.largestSentPkt = r.largestSentPkt
  sent : ∀ e, ∀ p' ∈ r'.sent e, ∃ p ∈ r.sent e, p.pktNum = p'.pktNum

theorem Forgets.of_eq (hlargest : r'.largestSentPkt = r.largestSentPkt) (hsent : r'.sent = r.sent) :
    r.Forgets r' := by
  refine ⟨hlargest, fun e p' hp' => ⟨p', ?_, rfl⟩⟩
  rwa [← hsent]

instance : IsPreorder Recovery Forgets where
  refl _ := .of_eq rfl rfl
  trans := by
    intro r r' r'' h h'
    refine ⟨h'.largestSentPkt.trans h.largestSentPkt, fun e p'' hp'' => ?_⟩
    obtain ⟨p', hp', heq'⟩ := h'.sent e p'' hp''
    obtain ⟨p, hp, heq⟩ := h.sent e p' hp'
    exact ⟨p, hp, heq.trans heq'⟩

theorem Forgets.sent_eq_nil {e : Epoch} (h : r.Forgets r') (hsent : r.sent e = []) :
    r'.sent e = [] := by
  refine List.eq_nil_iff_forall_not_mem.mpr fun p' hp' => ?_
  obtain ⟨p, hp, -⟩ := h.sent e p' hp'
  rw [hsent] at hp
  cases hp

/-- In one epoch some packets are left out, and others lose frames. -/
theorem Forgets.of_update {l : List Sent} (hlargest : r'.largestSentPkt = r.largestSentPkt)
    (hsent : r'.sent = Epoch.update r.sent epoch l)
    (hl : ∀ p' ∈ l, ∃ p ∈ r.sent epoch, p.pktNum = p'.pktNum) : r.Forgets r' := by
  refine ⟨hlargest, fun e p' hp' => ?_⟩
  rw [hsent] at hp'
  rcases eq_or_ne e epoch with rfl | hne
  · rw [Epoch.update_same] at hp'
    exact hl p' hp'
  · rw [Epoch.update_of_ne hne] at hp'
    exact ⟨p', hp', rfl⟩

section Forgets

variable (r)

theorem modifyFecGroup_forgets (info : FecStatus) (f : FecPacketNumbers → FecPacketNumbers) :
    r.Forgets (r.modifyFecGroup info f) := by
  unfold modifyFecGroup
  split_ifs
  · exact refl_of Forgets r
  · exact .of_eq rfl rfl

private theorem onPacketRecovered_forgets (pktNum : ℕ) :
    r.Forgets (r.onPacketRecovered pktNum) := by
  unfold onPacketRecovered
  split
  · exact refl_of Forgets r
  · refine Forgets.of_update rfl rfl ?_
    intro p' hp'
    obtain ⟨p, hp, rfl⟩ := List.mem_map.mp hp'
    refine ⟨p, hp, ?_⟩
    split_ifs <;> rfl

private theorem foldl_onPacketRecovered_forgets (pns : List ℕ) :
    r.Forgets (pns.foldl onPacketRecovered r) := by
  induction pns generalizing r with
  | nil => exact refl_of Forgets r
  | cons pn pns ih => exact trans_of Forgets (onPacketRecovered_forgets r pn) (ih _)

private theorem onPacketAcked_forgets (pktNum : ℕ) (epoch : Epoch) :
    r.Forgets (r.onPacketAcked pktNum epoch).2 := by
  unfold onPacketAcked
  split
  · exact refl_of Forgets r
  · refine trans_of Forgets (trans_of Forgets ?_ (modifyFecGroup_forgets _ _ _))
      (foldl_onPacketRecovered_forgets _ _)
    refine Forgets.of_update rfl rfl ?_
    intro p hp
    exact ⟨p, (List.mem_filter.mp hp).1, rfl⟩

private theorem onPacketLost_forgets (epoch : Epoch) (p : Sent) :
    r.Forgets (onPacketLost epoch r p) := by
  have hremoved : r.Forgets { r with
      sent := Epoch.update r.sent epoch ((r.sent epoch).filter fun q => q.pktNum ≠ p.pktNum)
      lostCount := r.lostCount + 1 } := by
    refine Forgets.of_update rfl rfl ?_
    intro q hq
    exact ⟨q, (List.mem_filter.mp hq).1, rfl⟩
  unfold onPacketLost
  dsimp only
  split_ifs
  · have hgroup := trans_of Forgets hremoved (modifyFecGroup_forgets _ p.fecInfo fun g =>
      g.packetLost p.pktNum)
    exact ⟨hgroup.largestSentPkt, hgroup.sent⟩
  · exact hremoved

theorem detectLostPackets_forgets (epoch : Epoch) (now lossDelay : ℕ) :
    r.Forgets (r.detectLostPackets epoch now lossDelay) := by
  apply detectLostPackets_induct (P := Forgets r)
  · intro r' hr' p _
    exact trans_of Forgets hr' (onPacketLost_forgets r' epoch p)
  · intro lossTime
    exact .of_eq rfl rfl

theorem onLossDetectionTimeout_forgets (handshakeCompleted : Bool) (now lossDelay : ℕ) :
    r.Forgets (r.onLossDetectionTimeout handshakeCompleted now lossDelay) := by
  unfold onLossDetectionTimeout
  dsimp only
  split_ifs
  · exact detectLostPackets_forgets r _ now lossDelay
  · exact .of_eq rfl rfl

theorem dropUnackedData_forgets (epoch : Epoch) : r.Forgets (r.dropUnackedData epoch) := by
  refine Forgets.of_update rfl rfl ?_
  intro p hp
  cases hp

variable {r}

theorem onAckReceived_forgets {ranges : RangeSet}
    (h : r.onAckReceived ranges epoch now lossDelay = .ok r') : r.Forgets r' := by
  apply onAckReceived_induct (P := Forgets r) h
  · intro r₁ hr₁
    exact trans_of Forgets hr₁ (detectLostPackets_forgets r₁ epoch now lossDelay)
  · intro r₁ hr₁
    apply ackLoop_induct (P := Forgets r) _ hr₁
    intro r₂ hr₂ pn _
    exact trans_of Forgets hr₂ (onPacketAcked_forgets r₂ pn epoch)
  · intro largestAckedPkt
    exact .of_eq rfl rfl

end Forgets

end Recovery

end Dtp
