import Dtp.Conservation

/-!
# What the peer can rebuild

`Path` is a connection's loss recovery with the peer that receives its 1-RTT packets. The peer
acks what it received. Once enough packets of a FEC group are acked, the frames of the others
count as acked too.

## Main definitions

* `Path` — loss recovery, and the packets that were sent and received
* `Known` — what the FEC groups of `Recovery` say about them

## Main results

* `Known.rebuilt` — packets are recovered only if the peer has enough of their group
* `Path.sound` — along every run
-/

namespace Dtp

open Lib (Ledger)
open Lib.Ledger (Move)

/-- The packets of a group. -/
def groupOf (sent : List Sent) (groupId : ℕ) : List Sent :=
  sent.filter fun p => p.fecInfo.groupId = groupId

/-- The packets of a group. -/
theorem mem_groupOf {sent : List Sent} {groupId : ℕ} {p : Sent} :
    p ∈ groupOf sent groupId ↔ p ∈ sent ∧ p.fecInfo.groupId = groupId := by
  simp [groupOf]

/-- Groups are formed in the order in which packets are sent. -/
theorem groupOf_append (sent sent' : List Sent) (groupId : ℕ) :
    groupOf (sent ++ sent') groupId = groupOf sent groupId ++ groupOf sent' groupId :=
  List.filter_append _ _

/-- The packets of a group that is recorded were sent, and those acked were received. -/
structure GroupKnown (sent received : List Sent) (groupId : ℕ) (g : FecPacketNumbers) : Prop where
  first : ∃ p, (groupOf sent groupId).head? = some p ∧ g.m = p.fecInfo.m
  members : ∀ x ∈ g.sent, ∃ p ∈ groupOf sent groupId, p.pktNum = x.2
  nodup : g.acked.Nodup
  acked : ∀ n ∈ g.acked, ∃ p ∈ groupOf received groupId, p.pktNum = n

/-- What loss recovery knows of FEC groups was sent and received. -/
structure Known (sent received : List Sent) (r : Recovery) : Prop where
  outstanding : ∀ e, ∀ q ∈ r.bare e, q.fecInfo.groupId ≠ 0 → e = .application ∧
    q ∈ sent.map Sent.bare
  begun : ∀ p ∈ sent, p.fecInfo.groupId ≠ 0 → (r.pnsInFecGroup p.fecInfo.groupId).isSome
  groups : ∀ groupId g, groupId ≠ 0 → r.pnsInFecGroup groupId = some g →
    GroupKnown sent received groupId g

namespace GroupKnown

variable {sent received : List Sent} {groupId : ℕ} {g : FecPacketNumbers}

/-- A lost packet stays known. -/
theorem packetLost (h : GroupKnown sent received groupId g) (pn : ℕ) :
    GroupKnown sent received groupId (g.packetLost pn) :=
  ⟨h.first, h.members, h.nodup, h.acked⟩

/-- An acknowledged packet was received. -/
theorem packetAcked (h : GroupKnown sent received groupId g) {p : Sent}
    (hp : p ∈ groupOf received groupId) :
    GroupKnown sent received groupId (g.packetAcked p.pktNum) := by
  refine ⟨h.first, h.members, h.nodup.insert, fun n hn => ?_⟩
  rcases List.mem_insert_iff.mp hn with rfl | hn
  · exact ⟨p, hp, rfl⟩
  · exact h.acked n hn

/-- What the peer receives only adds to what is known. -/
theorem receive (h : GroupKnown sent received groupId g) (p : Sent) :
    GroupKnown sent (p :: received) groupId g := by
  refine ⟨h.first, h.members, h.nodup, fun n hn => ?_⟩
  obtain ⟨q, hq, hnum⟩ := h.acked n hn
  obtain ⟨hmem, hgroup⟩ := mem_groupOf.mp hq
  exact ⟨q, mem_groupOf.mpr ⟨List.mem_cons_of_mem p hmem, hgroup⟩, hnum⟩

/-- More packets are sent. -/
theorem send (h : GroupKnown sent received groupId g) (p : Sent) :
    GroupKnown (sent ++ [p]) received groupId g := by
  obtain ⟨first, hfirst, hm⟩ := h.first
  refine ⟨⟨first, ?_, hm⟩, fun x hx => ?_, h.nodup, h.acked⟩
  · rw [groupOf_append, List.head?_append, hfirst]
    rfl
  · obtain ⟨q, hq, hnum⟩ := h.members x hx
    rw [groupOf_append]
    exact ⟨q, List.mem_append_left _ hq, hnum⟩

/-- A packet of the group was sent. -/
theorem packetSent (h : GroupKnown sent received groupId g) {p : Sent}
    (hp : p ∈ groupOf sent groupId)
    (index : ℕ) : GroupKnown sent received groupId (g.packetSent index p.pktNum) := by
  refine ⟨h.first, fun x hx => ?_, h.nodup, h.acked⟩
  rcases List.mem_cons.mp hx with rfl | hx
  · exact ⟨p, hp, rfl⟩
  · exact h.members x (List.mem_filter.mp hx).1

/-- Where enough packets are acked, enough are received. They differ in their numbers, and so in
their indices. -/
theorem enough (h : GroupKnown sent received groupId g) (hreceived : received ⊆ sent)
    (hindices : ((groupOf sent groupId).map fun p => p.fecInfo.index).Nodup)
    (hm : g.m ≤ g.acked.length) : ∃ shards ⊆ groupOf received groupId,
      (shards.map fun p => p.fecInfo.index).Nodup ∧ g.m ≤ shards.length := by
  obtain ⟨shards, hshards, hnumbers⟩ : ∃ shards ⊆ groupOf received groupId, shards.map Sent.pktNum =
      g.acked :=
    Lib.exists_map_eq h.acked
  refine ⟨shards, hshards, ?_, ?_⟩
  · have hnodup : shards.Nodup := List.Nodup.of_map Sent.pktNum (hnumbers ▸ h.nodup)
    refine hnodup.map_on fun p hp q hq heq => List.inj_on_of_nodup_map hindices ?_ ?_ heq
    · obtain ⟨hmem, hgroup⟩ := mem_groupOf.mp (hshards hp)
      exact mem_groupOf.mpr ⟨hreceived hmem, hgroup⟩
    · obtain ⟨hmem, hgroup⟩ := mem_groupOf.mp (hshards hq)
      exact mem_groupOf.mpr ⟨hreceived hmem, hgroup⟩
  · rw [← List.length_map Sent.pktNum, hnumbers]
    exact hm

end GroupKnown

namespace Recovery

private theorem onPacketRecovered_pnsInFecGroup (r : Recovery) (pktNum : ℕ) :
    (r.onPacketRecovered pktNum).pnsInFecGroup = r.pnsInFecGroup := by
  unfold onPacketRecovered
  split <;> rfl

/-- Rebuilding packets does not change the groups. -/
theorem foldl_onPacketRecovered_pnsInFecGroup (r : Recovery) (pktNums : List ℕ) :
    (pktNums.foldl onPacketRecovered r).pnsInFecGroup = r.pnsInFecGroup := by
  induction pktNums generalizing r with
  | nil => rfl
  | cons pktNum pktNums ih => exact (ih _).trans (r.onPacketRecovered_pnsInFecGroup pktNum)

end Recovery

namespace Known

variable {sent received : List Sent} {r : Recovery}

/-- Packets go, and the groups stay. -/
theorem mono {r' : Recovery} (h : Known sent received r) (hbare : ∀ e, r'.bare e ⊆ r.bare e)
    (hgroups : r'.pnsInFecGroup = r.pnsInFecGroup) : Known sent received r' where
  outstanding e q hq := h.outstanding e q (hbare e hq)
  begun := hgroups ▸ h.begun
  groups := hgroups ▸ h.groups

/-- What the peer receives only adds to what is known. -/
theorem receive (h : Known sent received r) (p : Sent) : Known sent (p :: received) r where
  outstanding := h.outstanding
  begun := h.begun
  groups groupId g hgroup hg := (h.groups groupId g hgroup hg).receive p

/-- A group that has begun is changed. -/
theorem modify (h : Known sent received r) {info : FecStatus}
    {f : FecPacketNumbers → FecPacketNumbers}
    (hbegun : info.groupId ≠ 0 → (r.pnsInFecGroup info.groupId).isSome)
    (hf : ∀ g, info.groupId ≠ 0 → GroupKnown sent received info.groupId g →
      GroupKnown sent received info.groupId (f g)) : Known sent received
          (r.modifyFecGroup info f) := by
  by_cases hinfo : info.groupId = 0
  · rw [Recovery.modifyFecGroup, if_pos hinfo]
    exact h
  obtain ⟨g, hg⟩ := Option.isSome_iff_exists.mp (hbegun hinfo)
  have hgroups : (r.modifyFecGroup info f).pnsInFecGroup =
      fun id => if id = info.groupId then some (f g) else r.pnsInFecGroup id := by
    rw [Recovery.modifyFecGroup, if_neg hinfo, hg]
    rfl
  constructor
  · intro e q hq
    rw [Recovery.bare_of_sent (Recovery.modifyFecGroup_sent _ _ _)] at hq
    exact h.outstanding e q hq
  · intro p hp hgroup
    rw [hgroups]
    dsimp only
    split_ifs
    · rfl
    · exact h.begun p hp hgroup
  · intro groupId g' hgroup hg'
    rw [hgroups] at hg'
    dsimp only at hg'
    split_ifs at hg' with hsame
    · cases hg'
      exact hsame ▸ hf g hinfo (h.groups _ g hinfo hg)
    · exact h.groups groupId g' hgroup hg'

/-- What a ledger of numbers says of an outstanding packet of a group. -/
theorem of_outstanding (h : Known sent received r) {e : Epoch} {p : Sent} (hp : p ∈ r.sent e)
    (hgroup : p.fecInfo.groupId ≠ 0) : e = .application ∧
      (r.pnsInFecGroup p.fecInfo.groupId).isSome ∧
      ∃ q ∈ groupOf sent p.fecInfo.groupId, q.pktNum = p.pktNum := by
  obtain ⟨he, hmem⟩ := h.outstanding e p.bare (List.mem_map_of_mem hp) hgroup
  obtain ⟨q, hq, heq⟩ := List.mem_map.mp hmem
  have hinfo : q.bare.fecInfo = p.bare.fecInfo := congrArg Sent.fecInfo heq
  have hnum : q.bare.pktNum = p.bare.pktNum := congrArg Sent.pktNum heq
  change q.fecInfo = p.fecInfo at hinfo
  refine ⟨he, ?_, q, mem_groupOf.mpr ⟨hq, congrArg FecStatus.groupId hinfo⟩, hnum⟩
  have hbegun := h.begun q hq
  rw [hinfo] at hbegun
  exact hbegun hgroup

variable (hnumbers : (sent.map Sent.pktNum).Nodup) (hreceived : received ⊆ sent)

include hnumbers hreceived in
/-- A packet of a group with the number of one that was received is that one. -/
theorem received_of_outstanding (h : Known sent received r) {e : Epoch} {p : Sent}
    (hp : p ∈ r.sent e)
    (hgroup : p.fecInfo.groupId ≠ 0) (hacked : ∃ q ∈ received, q.pktNum = p.pktNum) :
    ∃ q ∈ groupOf received p.fecInfo.groupId, q.pktNum = p.pktNum := by
  obtain ⟨q, hq, hnum⟩ := hacked
  obtain ⟨_, _, q', hq', hnum'⟩ := h.of_outstanding hp hgroup
  obtain ⟨hmem, hgroup'⟩ := mem_groupOf.mp hq'
  obtain rfl := List.inj_on_of_nodup_map hnumbers (hreceived hq) hmem (hnum.trans hnum'.symm)
  exact ⟨q, mem_groupOf.mpr ⟨hq, hgroup'⟩, hnum⟩

include hnumbers hreceived in
/-- The group of a packet that is acked. -/
theorem ack (h : Known sent received r) {e : Epoch} {p : Sent} (hp : p ∈ r.sent e)
    (hacked : e = .application → ∃ q ∈ received, q.pktNum = p.pktNum) :
    Known sent received (r.modifyFecGroup p.fecInfo fun g => g.packetAcked p.pktNum) := by
  refine h.modify (fun hgroup => (h.of_outstanding hp hgroup).2.1) fun g hgroup hg => ?_
  obtain ⟨he, _, _⟩ := h.of_outstanding hp hgroup
  obtain ⟨q, hq, hnum⟩ := h.received_of_outstanding hnumbers hreceived hp hgroup (hacked he)
  rw [← hnum]
  exact hg.packetAcked hq

include hnumbers hreceived in

/-- An acknowledged packet was received. -/
theorem onPacketAcked (h : Known sent received r) {pktNum : ℕ} {epoch : Epoch}
    (hacked : epoch = .application → ∃ q ∈ received, q.pktNum = pktNum) :
    Known sent received (r.onPacketAcked pktNum epoch).2 := by
  have hbare := r.onPacketAcked_bare pktNum epoch
  cases hfind : (r.sent epoch).find? fun p => p.pktNum == pktNum with
  | none =>
    simp only [Recovery.onPacketAcked, hfind]
    exact h
  | some p =>
    obtain ⟨r', hr', _, _, _, hgroups⟩ := r.onPacketAcked_eq hfind
    have hp : p ∈ r.sent epoch := List.mem_of_find?_eq_some hfind
    obtain rfl : p.pktNum = pktNum := by simpa using List.find?_some hfind
    refine (h.ack hnumbers hreceived hp hacked).mono (fun e => ?_) ?_
    · rw [hbare, Recovery.bare_of_sent (Recovery.modifyFecGroup_sent _ _ _)]
      rcases eq_or_ne e epoch with rfl | hne
      · rw [Epoch.update_same]
        exact List.filter_subset_self _
      · rw [Epoch.update_of_ne hne]
        exact List.Subset.refl _
    · rw [hr', Recovery.foldl_onPacketRecovered_pnsInFecGroup, hgroups]

include hnumbers hreceived in

/-- The packets of an ACK frame were received. -/
theorem ackLoop (h : Known sent received r) {epoch : Epoch} {pns : List ℕ}
    (hacked : epoch = .application → ∀ n ∈ pns, ∃ q ∈ received, q.pktNum = n) (newly : Bool) :
    Known sent received (Recovery.ackLoop epoch pns (newly, r)).2 := by
  apply Recovery.ackLoop_induct (P := Known sent received)
  · intro r₁ h₁ pn hpn
    exact h₁.onPacketAcked hnumbers hreceived fun he => hacked he pn hpn
  · exact h

/-- A lost packet stays known. -/
theorem onPacketLost (h : Known sent received r) (epoch : Epoch) {p : Sent}
    (hbegun : p.fecInfo.groupId ≠ 0 → (r.pnsInFecGroup p.fecInfo.groupId).isSome) :
    Known sent received (r.onPacketLost epoch p) := by
  have hbare (e : Epoch) : (r.onPacketLost epoch p).bare e ⊆ r.bare e := by
    rw [Recovery.onPacketLost_bare]
    rcases eq_or_ne e epoch with rfl | hne
    · rw [Epoch.update_same]
      exact List.filter_subset_self _
    · rw [Epoch.update_of_ne hne]
      exact List.Subset.refl _
  by_cases hflight : p.inFlight = true
  · have hlost := h.modify hbegun fun g _ hg => hg.packetLost p.pktNum
    refine hlost.mono (fun e => ?_) ?_
    · rw [Recovery.bare_of_sent (Recovery.modifyFecGroup_sent r _ _)]
      exact hbare e
    · rw [Recovery.onPacketLost, if_pos hflight]
      apply Recovery.modifyFecGroup_congr
      rfl
  · refine h.mono hbare ?_
    rw [Recovery.onPacketLost, if_neg hflight]

/-- Lost packets stay known. -/
theorem detectLostPackets (h : Known sent received r) (epoch : Epoch) (now lossDelay : ℕ) :
    Known sent received (r.detectLostPackets epoch now lossDelay) := by
  apply Recovery.detectLostPackets_induct
  · intro r₁ h₁ p hp
    -- the group of a packet begins when it is sent
    apply h₁.onPacketLost epoch
    intro hgroup
    obtain ⟨_, _, q, hq, _⟩ := h.of_outstanding hp hgroup
    obtain ⟨hmem, heq⟩ := mem_groupOf.mp hq
    exact heq ▸ h₁.begun q hmem (heq ▸ hgroup)
  · intro lossTime
    exact h.mono (fun _ => List.Subset.refl _) rfl

/-- What is outstanding once a packet is sent. -/
theorem outstanding_send (h : Known sent received r) {pkt : Sent} {epoch e : Epoch} {now : ℕ}
    {q : Sent}
    (hq : q ∈ (r.onPacketSent pkt epoch now).bare e) (hgroup : q.fecInfo.groupId ≠ 0) :
    e = epoch ∧ q = pkt.bare ∨ e = .application ∧ q ∈ sent.map Sent.bare := by
  rw [Recovery.onPacketSent_bare] at hq
  rcases eq_or_ne e epoch with rfl | hne
  · rw [Epoch.update_same] at hq
    rcases Lib.mem_insertKey.mp hq with rfl | ⟨hq, _⟩
    · exact .inl ⟨rfl, rfl⟩
    · exact .inr (h.outstanding e q hq hgroup)
  · rw [Epoch.update_of_ne hne] at hq
    exact .inr (h.outstanding e q hq hgroup)

/-- A packet without a group is sent. -/
theorem send_ungrouped (h : Known sent received r) {pkt : Sent} (hgroup : pkt.fecInfo.groupId = 0)
    (epoch : Epoch) (now : ℕ) : Known sent received (r.onPacketSent pkt epoch now) := by
  have hgroups : (r.onPacketSent pkt epoch now).pnsInFecGroup = r.pnsInFecGroup := by
    rw [Recovery.onPacketSent, Recovery.modifyFecGroup, if_pos hgroup]
  refine ⟨fun e q hq hne => ?_, hgroups ▸ h.begun, hgroups ▸ h.groups⟩
  rcases h.outstanding_send hq hne with ⟨_, rfl⟩ | hold
  · exact absurd hgroup hne
  · exact hold

/-- A packet without group is sent. -/
theorem append (h : Known sent received r) {pkt : Sent} (hgroup : pkt.fecInfo.groupId = 0) :
    Known (sent ++ [pkt]) received r := by
  constructor
  · intro e q hq hne
    obtain ⟨he, hmem⟩ := h.outstanding e q hq hne
    rw [List.map_append]
    exact ⟨he, List.mem_append_left _ hmem⟩
  · intro p hp hne
    rcases List.mem_append.mp hp with hp | hp
    · exact h.begun p hp hne
    · obtain rfl := List.mem_singleton.mp hp
      exact absurd hgroup hne
  · exact fun groupId g hne hg => (h.groups groupId g hne hg).send pkt

/-- A packet of a group is sent. A group without packets begins with it. -/
theorem send_grouped (h : Known sent received r) {pkt : Sent} (hgroup : pkt.fecInfo.groupId ≠ 0)
    (now : ℕ) : Known (sent ++ [pkt]) received (r.onPacketSent pkt .application now) := by
  have hpkt : pkt ∈ groupOf (sent ++ [pkt]) pkt.fecInfo.groupId := mem_groupOf.mpr ⟨by simp, rfl⟩
  obtain ⟨g, hg, hgroups⟩ : ∃ g, GroupKnown (sent ++ [pkt]) received pkt.fecInfo.groupId g ∧
      (r.onPacketSent pkt .application now).pnsInFecGroup = fun id =>
        if id = pkt.fecInfo.groupId then some (g.packetSent pkt.fecInfo.index pkt.pktNum)
        else r.pnsInFecGroup id := by
    rw [Recovery.onPacketSent, Recovery.modifyFecGroup, if_neg hgroup]
    refine ⟨_, ?_, rfl⟩
    cases hg : r.pnsInFecGroup pkt.fecInfo.groupId with
    | some g => exact (h.groups _ g hgroup hg).send pkt
    | none =>
      -- the group is new, or it would be known
      have hempty : groupOf sent pkt.fecInfo.groupId = [] := by
        refine List.eq_nil_iff_forall_not_mem.mpr fun p hp => ?_
        obtain ⟨hmem, heq⟩ := mem_groupOf.mp hp
        have hbegun := h.begun p hmem (heq ▸ hgroup)
        rw [heq, hg] at hbegun
        cases hbegun
      refine ⟨⟨pkt, ?_, rfl⟩, by simp, List.nodup_nil, by simp⟩
      rw [groupOf_append, hempty]
      simp [groupOf]
  constructor
  · intro e q hq hne
    rw [List.map_append]
    rcases h.outstanding_send hq hne with ⟨he, rfl⟩ | ⟨he, hmem⟩
    · exact ⟨he, List.mem_append_right _ List.mem_cons_self⟩
    · exact ⟨he, List.mem_append_left _ hmem⟩
  · intro p hp hne
    rw [hgroups]
    dsimp only
    split_ifs with hsame
    · rfl
    · rcases List.mem_append.mp hp with hp | hp
      · exact h.begun p hp hne
      · obtain rfl := List.mem_singleton.mp hp
        exact absurd rfl hsame
  · intro groupId g' hne hg'
    rw [hgroups] at hg'
    dsimp only at hg'
    split_ifs at hg' with hsame
    · cases hg'
      exact hsame ▸ hg.packetSent hpkt _
    · exact (h.groups groupId g' hne hg').send pkt

include hnumbers hreceived in

/-- The packets of an ACK frame were received. -/
theorem onAckReceived (h : Known sent received r) {ranges : RangeSet} {epoch : Epoch}
    {now lossDelay : ℕ}
    (hacked : epoch = .application → ∀ n ∈ ranges.flatten, ∃ q ∈ received, q.pktNum = n)
    {r' : Recovery}
    (hcall : r.onAckReceived ranges epoch now lossDelay = .ok r') : Known sent received r' := by
  apply Recovery.onAckReceived_induct hcall
  · intro r₁ h₁
    exact h₁.detectLostPackets epoch now lossDelay
  · intro r₁ h₁
    exact h₁.ackLoop hnumbers hreceived (fun he n hn => hacked he n (List.mem_reverse.mp hn)) false
  · intro largestAckedPkt
    exact h.mono (fun _ => List.Subset.refl _) rfl

include hnumbers hreceived in

/-- What a call does, if ACK frames are honest. -/
theorem call {r' : Recovery} (h : Known sent received r) {call : RecoveryCall}
    (happlication : ∀ e, ∀ p ∈ sentIn e [call], p.fecInfo.groupId ≠ 0 → e = .application)
    (hhonest : ∀ ranges completed t, call = .onAckReceived ranges .application completed t →
      ∀ n ∈ ranges.flatten, ∃ q ∈ received, q.pktNum = n)
    (hcall : r.call call = .ok r') : Known (sent ++ sentIn .application [call]) received r' := by
  cases call with
  | onPacketSent pkt epoch handshakeCompleted t =>
    cases hcall
    -- only application packets are in groups
    have happlication := happlication epoch pkt (by simp [sentIn])
    by_cases hgroup : pkt.fecInfo.groupId = 0
    · have hsent := h.send_ungrouped hgroup epoch t.now
      by_cases hepoch : Epoch.application = epoch
      · simpa [sentIn, hepoch] using hsent.append hgroup
      · simpa [sentIn, hepoch] using hsent
    · obtain rfl := happlication hgroup
      exact h.send_grouped hgroup t.now
  | onAckReceived ranges epoch handshakeCompleted t =>
    rw [show sentIn .application [.onAckReceived ranges epoch handshakeCompleted t] = [] from rfl,
      List.append_nil]
    refine h.onAckReceived hnumbers hreceived (fun he => ?_) hcall
    subst he
    exact hhonest ranges handshakeCompleted t rfl
  | onLossDetectionTimeout handshakeCompleted t =>
    cases hcall
    rw [show sentIn .application [.onLossDetectionTimeout handshakeCompleted t] = [] from rfl,
      List.append_nil]
    unfold Recovery.onLossDetectionTimeout
    dsimp only
    split_ifs
    · exact h.detectLostPackets _ _ _
    · exact h.mono (fun _ => List.Subset.refl _) rfl
  | dropUnackedData epoch =>
    cases hcall
    rw [show sentIn .application [.dropUnackedData epoch] = [] from rfl, List.append_nil]
    refine h.mono (fun e => ?_) rfl
    rw [Recovery.dropUnackedData_bare]
    rcases eq_or_ne e epoch with rfl | hne
    · rw [Epoch.update_same]
      exact List.nil_subset _
    · rw [Epoch.update_of_ne hne]
      exact List.Subset.refl _
  | drainAcked epoch =>
    cases hcall
    rw [show sentIn .application [.drainAcked epoch] = [] from rfl, List.append_nil]
    exact h.mono (fun _ => List.Subset.refl _) rfl
  | drainLost epoch =>
    cases hcall
    rw [show sentIn .application [.drainLost epoch] = [] from rfl, List.append_nil]
    exact h.mono (fun _ => List.Subset.refl _) rfl

end Known

/-- The peer has received enough packets of the group of a packet, with different indices. How
many are enough, the first packet of the group says. -/
def Rebuildable (sent received : List Sent) (pktNum : ℕ) : Prop :=
  ∃ groupId ≠ 0, (∃ p ∈ groupOf sent groupId, p.pktNum = pktNum) ∧
    ∃ first, (groupOf sent groupId).head? = some first ∧ ∃ shards ⊆ groupOf received groupId,
      (shards.map fun p => p.fecInfo.index).Nodup ∧ first.fecInfo.m ≤ shards.length

namespace Known

variable {sent received : List Sent} {r : Recovery}
variable (hnumbers : (sent.map Sent.pktNum).Nodup) (hreceived : received ⊆ sent)
variable (hindices : ∀ groupId ≠ 0, ((groupOf sent groupId).map fun p => p.fecInfo.index).Nodup)

include hnumbers hreceived hindices in
/-- Packets are recovered only if the peer has enough packets of their group. -/
theorem rebuilt (h : Known sent received r) {e : Epoch} {p : Sent} (hp : p ∈ r.sent e)
    (hacked : e = .application → ∃ q ∈ received, q.pktNum = p.pktNum) {pktNum : ℕ}
    (hrebuilt : pktNum ∈ r.rebuilt p) : Rebuildable sent received pktNum := by
  have hknown := h.ack hnumbers hreceived hp hacked
  obtain ⟨hgroup, g, hg, hn⟩ := Recovery.mem_rebuilt.mp hrebuilt
  obtain ⟨hm, hmember, -⟩ := FecPacketNumbers.mem_recoveredPns.mp hn
  have hgknown := hknown.groups _ g hgroup hg
  obtain ⟨x, hx, rfl⟩ := List.mem_map.mp hmember
  obtain ⟨first, hfirst, hfirstm⟩ := hgknown.first
  obtain ⟨shards, hshards, hnodup, henough⟩ := hgknown.enough hreceived (hindices _ hgroup) hm
  exact ⟨_, hgroup, hgknown.members x hx, first, hfirst, shards, hshards, hnodup, hfirstm ▸ henough⟩

include hnumbers hreceived hindices in
private theorem unpack_ackedMoves (h : Known sent received r) {epoch : Epoch} {pn pktNum : ℕ}
    (hacked : epoch = .application → ∃ q ∈ received, q.pktNum = pn)
    (hmove : Move.unpack pktNum ∈ r.ackedMoves pn epoch .application) :
    Rebuildable sent received pktNum := by
  unfold Recovery.ackedMoves at hmove
  cases hfind : (r.sent epoch).find? fun p => p.pktNum == pn with
  | none =>
    rw [hfind] at hmove
    cases hmove
  | some p =>
    have hp : p ∈ r.sent epoch := List.mem_of_find?_eq_some hfind
    obtain rfl : p.pktNum = pn := by simpa using List.find?_some hfind
    rw [hfind] at hmove
    rcases List.mem_append.mp hmove with hmove | hmove
    · split_ifs at hmove <;> simp at hmove
    · rw [if_pos rfl] at hmove
      obtain ⟨n, hn, heq⟩ := List.mem_map.mp hmove
      cases heq
      exact h.rebuilt hnumbers hreceived hindices hp hacked hn

include hnumbers hreceived hindices in
private theorem unpack_ackLoopMoves (h : Known sent received r) {epoch : Epoch} {pns : List ℕ}
    {pktNum : ℕ}
    (hacked : epoch = .application → ∀ n ∈ pns, ∃ q ∈ received, q.pktNum = n)
    (hmove : Move.unpack pktNum ∈ Recovery.ackLoopMoves epoch .application pns r) :
    Rebuildable sent received pktNum := by
  induction pns generalizing r with
  | nil => cases hmove
  | cons pn pns ih =>
    unfold Recovery.ackLoopMoves at hmove
    split_ifs at hmove
    · cases hmove
    · have hpn (he : epoch = .application) := hacked he pn List.mem_cons_self
      rcases List.mem_append.mp hmove with hmove | hmove
      · exact h.unpack_ackedMoves hnumbers hreceived hindices hpn hmove
      · refine ih (h.onPacketAcked hnumbers hreceived hpn) (fun he n hn => ?_) hmove
        exact hacked he n (List.mem_cons_of_mem pn hn)

/-- No lost packet is rebuilt. -/
theorem unpack_not_mem_lostMoves (r : Recovery) (epoch : Epoch) (now lossDelay : ℕ) (e : Epoch)
    (pktNum : ℕ) : Move.unpack pktNum ∉ r.lostMoves epoch now lossDelay e := by
  unfold Recovery.lostMoves
  split_ifs <;> simp

include hnumbers hreceived hindices in
/-- A call that takes the frames of a packet as acked, without an ack of the packet. -/
theorem unpack_moves (h : Known sent received r) {call : RecoveryCall} {pktNum : ℕ}
    (hhonest : ∀ ranges completed t, call = .onAckReceived ranges .application completed t →
      ∀ n ∈ ranges.flatten, ∃ q ∈ received, q.pktNum = n)
    (hmove : Move.unpack pktNum ∈ r.moves .application call) :
    Rebuildable sent received pktNum := by
  cases call with
  | onAckReceived ranges epoch handshakeCompleted t =>
    simp only [Recovery.moves] at hmove
    split at hmove
    · cases hmove
    · rename_i largestAcked _
      by_cases hlarge : r.largestSentPkt epoch < largestAcked
      · rw [if_pos hlarge] at hmove
        cases hmove
      · rw [if_neg hlarge] at hmove
        generalize Epoch.update r.largestAckedPkt epoch _ = acked at hmove
        have hlargest : Known sent received { r with largestAckedPkt := acked } :=
          h.mono (fun _ => List.Subset.refl _) rfl
        rcases List.mem_append.mp hmove with hmove | hmove
        · refine hlargest.unpack_ackLoopMoves hnumbers hreceived hindices (fun he n hn => ?_) hmove
          subst he
          exact hhonest ranges handshakeCompleted t rfl n (List.mem_reverse.mp hn)
        · split_ifs at hmove
          · exact absurd hmove (unpack_not_mem_lostMoves _ _ _ _ _ _)
          · cases hmove
  | onPacketSent pkt epoch handshakeCompleted t =>
    simp only [Recovery.moves] at hmove
    split_ifs at hmove <;> simp at hmove
  | onLossDetectionTimeout handshakeCompleted t =>
    simp only [Recovery.moves] at hmove
    split_ifs at hmove
    · exact absurd hmove (unpack_not_mem_lostMoves _ _ _ _ _ _)
    · cases hmove
  | dropUnackedData epoch =>
    simp only [Recovery.moves] at hmove
    split_ifs at hmove <;> simp at hmove
  | drainAcked epoch =>
    simp only [Recovery.moves] at hmove
    split_ifs at hmove <;> simp at hmove
  | drainLost epoch =>
    simp only [Recovery.moves] at hmove
    split_ifs at hmove <;> simp at hmove

end Known

/-! ### Runs -/

/-- A call of the sender, or a 1-RTT packet that the peer receives. -/
inductive PathEvent
  | call (call : RecoveryCall)
  | deliver (pkt : Sent)

/-- Loss recovery, the packets that it was told of, and the 1-RTT packets that the peer has
received. -/
structure Path where
  books : Books
  sent : Epoch → List Sent
  received : List Sent

namespace Path

/-- Nothing is sent or received. -/
def new : Path := ⟨.new, fun _ => [], []⟩

/-- The path after an event that is allowed. -/
def step (s : Path) : PathEvent → Option Path
  | .call c =>
    (s.books.step c).map fun books => { s with books, sent := fun e => s.sent e ++ sentIn e [c] }
  | .deliver pkt => some { s with received := pkt :: s.received }

/-- Packets have fresh numbers, those of a group are 1-RTT packets with different indices, and
the peer receives what was sent and acks what it received. -/
def Allowed (s : Path) : PathEvent → Prop
  | .call (.onPacketSent pkt epoch _ _) =>
    (∀ p ∈ s.sent epoch, p.pktNum ≠ pkt.pktNum) ∧ (pkt.fecInfo.groupId ≠ 0 → epoch = .application ∧
      ∀ p ∈ groupOf (s.sent epoch) pkt.fecInfo.groupId, p.fecInfo.index ≠ pkt.fecInfo.index)
  | .call (.onAckReceived ranges epoch _ _) =>
    epoch = .application → ∀ n ∈ ranges.flatten, ∃ p ∈ s.received, p.pktNum = n
  | .call _ => True
  | .deliver pkt => pkt ∈ s.sent .application

/-- The books are sound, and the groups are known. -/
structure Sound (s : Path) : Prop where
  kept (e : Epoch) : Books.Kept e (s.sent e) s.books
  numbers (e : Epoch) : ((s.sent e).map Sent.pktNum).Nodup
  indices (groupId : ℕ) (h : groupId ≠ 0) :
    ((groupOf (s.sent .application) groupId).map fun p => p.fecInfo.index).Nodup
  received : s.received ⊆ s.sent .application
  known : Known (s.sent .application) s.received s.books.recovery

/-- Nothing is sent or received. -/
theorem new_sound : new.Sound where
  kept e := Books.new_kept e
  numbers _ := List.nodup_nil
  indices _ _ := List.nodup_nil
  received := List.Subset.refl _
  known := ⟨nofun, nofun, nofun⟩

/-- A packet is fresh among those of its epoch. -/
theorem numbers_call {s : Path} (h : s.Sound) {c : RecoveryCall} (hallowed : s.Allowed (.call c))
    (e : Epoch) : ((s.sent e ++ sentIn e [c]).map Sent.pktNum).Nodup := by
  have hold : ((s.sent e ++ []).map Sent.pktNum).Nodup := by
    rw [List.append_nil]
    exact h.numbers e
  cases c with
  | onPacketSent pkt epoch handshakeCompleted t =>
    by_cases he : e = epoch
    · subst he
      have hsent : sentIn e [.onPacketSent pkt e handshakeCompleted t] = [pkt] := by simp [sentIn]
      rw [hsent, List.map_append, List.nodup_append]
      refine ⟨h.numbers e, List.nodup_singleton _, fun n hn m hm => ?_⟩
      obtain ⟨p, hp, rfl⟩ := List.mem_map.mp hn
      obtain rfl := List.mem_singleton.mp hm
      exact hallowed.1 p hp
    · have hsent : sentIn e [.onPacketSent pkt epoch handshakeCompleted t] = [] := by
        simp [sentIn, he]
      rw [hsent]
      exact hold
  | _ => exact hold

/-- A packet differs in its index from those of its group. -/
theorem indices_call {s : Path} (h : s.Sound) {c : RecoveryCall} (hallowed : s.Allowed (.call c))
    {groupId : ℕ} (hgroup : groupId ≠ 0) :
    ((groupOf (s.sent .application ++ sentIn .application [c]) groupId).map
      fun p => p.fecInfo.index).Nodup := by
  have hold : ((groupOf (s.sent .application ++ []) groupId).map fun p =>
      p.fecInfo.index).Nodup := by
    rw [List.append_nil]
    exact h.indices groupId hgroup
  cases c with
  | onPacketSent pkt epoch handshakeCompleted t =>
    by_cases hmem : epoch = .application ∧ pkt.fecInfo.groupId = groupId
    · obtain ⟨rfl, rfl⟩ := hmem
      have hsent : groupOf
        (sentIn .application [.onPacketSent pkt .application handshakeCompleted t])
          pkt.fecInfo.groupId = [pkt] := by simp [sentIn, groupOf]
      rw [groupOf_append, hsent, List.map_append, List.nodup_append]
      refine ⟨h.indices _ hgroup, List.nodup_singleton _, fun n hn m hm => ?_⟩
      obtain ⟨p, hp, rfl⟩ := List.mem_map.mp hn
      obtain rfl := List.mem_singleton.mp hm
      exact (hallowed.2 hgroup).2 p hp
    · have hsent : groupOf
        (sentIn .application [.onPacketSent pkt epoch handshakeCompleted t]) groupId =
          [] := by
        by_cases he : Epoch.application = epoch
        · subst he
          simpa [sentIn, groupOf] using hmem
        · simp [sentIn, groupOf, he]
      rw [groupOf_append, hsent, List.append_nil]
      exact h.indices groupId hgroup
  | _ => exact hold

/-- Acks are of packets that were received. -/
theorem acked_received {s : Path} {c : RecoveryCall} (hallowed : s.Allowed (.call c)) :
    ∀ ranges completed t, c = .onAckReceived ranges .application completed t →
      ∀ n ∈ ranges.flatten, ∃ q ∈ s.received, q.pktNum = n := by
  rintro ranges completed t rfl
  exact hallowed rfl

private theorem grouped_application {s : Path} {c : RecoveryCall} (hallowed : s.Allowed (.call c)) :
    ∀ e, ∀ p ∈ sentIn e [c], p.fecInfo.groupId ≠ 0 → e = .application := by
  intro e p hp hgroup
  cases c with
  | onPacketSent pkt epoch handshakeCompleted t =>
    by_cases he : e = epoch
    · simp only [sentIn, List.filterMap_cons, if_pos he, List.filterMap_nil,
        List.mem_singleton] at hp
      subst hp
      exact he.trans (hallowed.2 hgroup).1
    · simp [sentIn, he] at hp
  | _ => cases hp

/-- Every event that is allowed keeps the path sound. -/
theorem Sound.step {s s' : Path} (h : s.Sound) {event : PathEvent} (hallowed : s.Allowed event)
    (hstep : s.step event = some s') : s'.Sound := by
  cases event with
  | deliver pkt =>
    cases hstep
    exact ⟨h.kept, h.numbers, h.indices, List.cons_subset.mpr ⟨hallowed, h.received⟩,
      h.known.receive pkt⟩
  | call c =>
    obtain ⟨books, hbooks, rfl⟩ := Option.map_eq_some_iff.mp hstep
    refine ⟨fun e => (h.kept e).step hbooks, numbers_call h hallowed,
      fun _ hgroup => indices_call h hallowed hgroup,
        List.subset_append_of_subset_left _ h.received, ?_⟩
    obtain ⟨r, hr, rfl⟩ := Option.map_eq_some_iff.mp hbooks
    change Known (s.sent .application ++ sentIn .application [c]) s.received r
    unfold Recovery.step afterCall at hr
    cases hcall : s.books.recovery.call c with
    | ok r' =>
      rw [hcall] at hr
      cases hr
      exact h.known.call (h.numbers .application) h.received (grouped_application hallowed)
        (acked_received hallowed) hcall
    | error f =>
      cases c with
      | onAckReceived ranges epoch handshakeCompleted t =>
        rw [hcall] at hr
        cases f <;> cases hr
        rw [show sentIn .application [.onAckReceived ranges epoch handshakeCompleted t] =
          [] from rfl,
          List.append_nil]
        exact h.known
      | _ => cases hcall

private theorem Sound.disjoint {s : Path} (h : s.Sound) {e : Epoch} {a : FrameInstance}
    (hdelivered : a ∈ (s.books.ledger e).delivered.all) : a ∉ (s.books.ledger e).returned.all := by
  obtain ⟨moves, hledger, hsends⟩ := (h.kept e).moved
  rw [hledger] at hdelivered ⊢
  refine Ledger.not_delivered_and_returned ?_ ?_ hdelivered
  · rw [Ledger.FreshSends, hsends, List.map_map]
    exact h.numbers e
  · rw [hsends, List.flatMap_map]
    exact Books.instances_nodup_of_fresh (h.numbers e)

/-- What was delivered or returned once stays so. -/
theorem step_grows {s s' : Path} {event : PathEvent} (hstep : s.step event = some s') (e : Epoch) :
    (s.books.ledger e).delivered.all ⊆ (s'.books.ledger e).delivered.all ∧
      (s.books.ledger e).returned.all ⊆ (s'.books.ledger e).returned.all := by
  cases event with
  | deliver pkt =>
    cases hstep
    exact ⟨List.Subset.refl _, List.Subset.refl _⟩
  | call c =>
    obtain ⟨books, hbooks, rfl⟩ := Option.map_eq_some_iff.mp hstep
    obtain ⟨r, _, rfl⟩ := Option.map_eq_some_iff.mp hbooks
    exact Ledger.grows_run _ _

/-- Along every run, a call takes the frames of an unacked packet as acked only if the peer has
received enough packets of its group. No frame is taken as acked and, before or after, as lost. -/
theorem recovers_received {events : List PathEvent} {s : Path}
    (hallowed : Lib.AllSteps step Allowed new events) (hrun : Lib.run step new events = some s) :
    (∀ c, s.Allowed (.call c) → ∀ pktNum, .unpack pktNum ∈ s.books.recovery.moves .application c →
      Rebuildable (s.sent .application) s.received pktNum) ∧
    ∀ e, Shows (s.books.ledger e) s.books.recovery e ∧
      (∀ a ∈ (s.books.ledger e).delivered.all, a ∉ (s.books.ledger e).returned.all) ∧
      ∀ event s', s.step event = some s' →
        (s.books.ledger e).delivered.all ⊆ (s'.books.ledger e).delivered.all ∧
          (s.books.ledger e).returned.all ⊆ (s'.books.ledger e).returned.all := by
  have hsound : s.Sound := (Lib.always_of_step (I := Sound) (fun _ _ _ h hallowed hstep =>
    h.step hallowed hstep) new_sound hallowed).last hrun
  refine ⟨fun c hcall pktNum hmove => ?_, fun e => ⟨(hsound.kept e).shown, fun a => hsound.disjoint,
    fun event s' hstep => step_grows hstep e⟩⟩
  exact hsound.known.unpack_moves (hsound.numbers .application) hsound.received
    (fun groupId hgroup => hsound.indices groupId hgroup) (acked_received hcall) hmove

/-- Two packets of a group that can be rebuilt from one, of which the peer receives the first. -/
def recoveringEvents : List PathEvent :=
  [.call (.onPacketSent ⟨0, [.ping], 0, 40, true, true, ⟨1, 1, 1, 0⟩⟩ .application true
    ⟨0, 0, 1000⟩),
    .call (.onPacketSent ⟨1, [.ping, .ping], 1, 40, true, true, ⟨1, 1, 1, 1⟩⟩ .application true
      ⟨1, 0, 1000⟩),
    .deliver ⟨0, [.ping], 0, 40, true, true, ⟨1, 1, 1, 0⟩⟩]

/-- The ack of the first packet. -/
def recoveringAck : RecoveryCall :=
  .onAckReceived ⟨[(0, 1)], Books.sorted_firstAcked⟩ .application true ⟨50, 60, 1000⟩

private theorem recoveringEvents_allowed : Lib.AllSteps step Allowed new recoveringEvents := by
  refine ⟨⟨nofun, fun _ => ⟨rfl, nofun⟩⟩, ?_⟩
  rintro s₁ ⟨⟩
  refine ⟨⟨?_, fun _ => ⟨rfl, ?_⟩⟩, ?_⟩
  · intro p hp
    obtain rfl := List.mem_singleton.mp hp
    decide
  · intro p hp
    obtain rfl := List.mem_singleton.mp hp
    decide
  rintro s₂ ⟨⟩
  exact ⟨List.mem_cons_self, fun _ _ => trivial⟩

theorem recovers_received_one : ∃ s, Lib.run step new recoveringEvents = some s ∧
    .unpack 1 ∈ s.books.recovery.moves .application recoveringAck ∧
    Rebuildable (s.sent .application) s.received 1 := by
  obtain ⟨s, hrun, hmove⟩ : ∃ s, Lib.run step new recoveringEvents = some s ∧
      .unpack 1 ∈ s.books.recovery.moves .application recoveringAck ∧
        s.received.map Sent.pktNum = [0] := by
    refine ⟨_, rfl, ?_, rfl⟩
    decide +kernel
  refine ⟨s, hrun, hmove.1,
    (recovers_received recoveringEvents_allowed hrun).1 recoveringAck ?_ 1 hmove.1⟩
  intro _ n hn
  have hn : n ∈ [0] := hn
  rw [← hmove.2] at hn
  exact List.mem_map.mp hn

end Path

end Dtp
