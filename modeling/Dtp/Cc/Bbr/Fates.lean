import Dtp.Cc.Controlled
import Dtp.Cc.Bbr.Operations

/-!
# What BBR learns of lost packets

BBR queues the packets that are sent, and counts the bytes that are sent, acked and lost. But it
has no ears for losses: loss recovery only subtracts their bytes, and it reports them after the
ack has ended, to an operation that does nothing. So a lost packet stays in the queue for good,
its bytes are not counted as lost, and no recovery begins.

## Main definitions

* `Bbr.queuedPackets`, `Bbr.outstanding` — the packets in the queue, and those that should be
* `Bbr.HearsFates` — a call keeps the queue and the counts, and an ACK frame with losses begins
  recovery
* `Bbr.Spares` — a call gives up no packet that BBR has queued, and an ACK frame gives up none at
  all

## Main results

* `Bbr.hearsFates_iff` — the packets' fates are heard of exactly as long as no packets are given up
-/

namespace Dtp.Cc.Bbr

open Lib (Ascending)

/-- The numbers and sizes of the packets in the queue. -/
def queuedPackets (s : Bbr) : List (ℕ × ℕ) := s.packetOutQue.map fun p => (p.poPackno, p.size)

/-- The numbers and sizes of the application packets in flight that are neither acked nor declared
lost. -/
def outstanding (r : Recovery) : List (ℕ × ℕ) :=
  ((r.sent .application).filter Sent.inFlight).map fun p => (p.pktNum, p.size)

/-- After a call, the queue holds exactly the outstanding packets, and the bytes that were sent are
acked, lost or in flight. If an ACK frame has declared packets lost, BBR is in recovery. -/
structure HearsFates (F : Floats) (c : Controlled Bbr) (x : ControlledCall) : Prop where
  queue {c' : Controlled Bbr} (hstep : c.step (bbr F) x = some c') :
    c'.cc.queuedPackets.Perm (outstanding c'.toRecovery)
  totals {c' : Controlled Bbr} (hstep : c.step (bbr F) x = some c') :
    c'.cc.bwSampler.totalSent =
      c'.cc.bwSampler.totalAcked + c'.cc.bwSampler.totalLost + c'.cc.bytesInFlight
  recovery {c' : Controlled Bbr} (hstep : c.step (bbr F) x = some c') {ranges : RangeSet}
    {epoch : Epoch}
    {handshakeCompleted : Bool} {t : Timing}
    (hack : x.call = .onAckReceived ranges epoch handshakeCompleted t)
    (hlost : c.lostCount < c'.lostCount) : c'.cc.recoveryState ≠ .notInRecovery

/-- An ACK frame declares no packet lost. A timeout declares no application packet in flight lost,
and no such packet is forgotten. -/
def Spares (r : Recovery) : RecoveryCall → Prop
  | .onAckReceived ranges epoch _ t => ∀ p, ¬ r.AckDeclaresLost ranges epoch t p
  | .onLossDetectionTimeout handshakeCompleted t =>
    let earliest := Recovery.earliestLossTime r.lossTime handshakeCompleted
    earliest.1.isSome → earliest.2 = .application → ∀ p ∈ r.sent .application, p.inFlight = true →
      Recovery.isLost (r.largestAckedPkt .application) t.now t.lossDelay p = false
  | .dropUnackedData epoch => epoch = .application → ∀ p ∈ r.sent .application, p.inFlight = false
  | .onPacketSent _ _ _ _ | .drainAcked _ | .drainLost _ => True

/-- BBR has heard of all packets, none of which was lost. -/
structure Informed (c : Controlled Bbr) : Prop where
  sorted : c.toRecovery.Sorted
  ascending : Ascending PacketOut.poPackno c.cc.packetOutQue
  stamped : ∀ p ∈ c.cc.packetOutQue, p.poBwpState.isSome = true
  queue : c.cc.queuedPackets.Perm (outstanding c.toRecovery)
  totals : c.cc.bwSampler.totalSent =
    c.cc.bwSampler.totalAcked + c.cc.bwSampler.totalLost + c.cc.bytesInFlight
  hasLosses : c.cc.ackState.hasLosses = false
  recoveryState : c.cc.recoveryState = .notInRecovery

variable {F : Floats} {c c' : Controlled Bbr} {r r' : Recovery} {epoch : Epoch} {t : Timing}
    {m : Measured}
  {x : ControlledCall} {n : ℕ}

private theorem informed_new (t0 : ℕ) : Informed (.new (Bbr.new t0)) :=
  ⟨Recovery.sorted_new, .nil, nofun, .nil, rfl, rfl, rfl⟩

/-! ### Outstanding packets -/

/-- Frames do not matter. -/
theorem outstanding_eq (r : Recovery) :
    outstanding r = ((r.bare .application).filter Sent.inFlight).map fun p =>
        (p.pktNum, p.size) := by
  rw [outstanding, Recovery.bare, ← Recovery.filter_bare _ fun _ => rfl, List.map_map]
  rfl

theorem mem_outstanding {a : ℕ × ℕ} :
    a ∈ outstanding r ↔ ∃ p ∈ r.sent .application, p.inFlight = true ∧ (p.pktNum, p.size) = a := by
  simp [outstanding, and_assoc]

theorem outstanding_of_ne {sent : List Sent} (hbare : r'.bare = Epoch.update r.bare epoch sent)
    (hne : epoch ≠ .application) : outstanding r' = outstanding r := by
  rw [outstanding_eq, outstanding_eq, hbare, Epoch.update_of_ne hne.symm]

/-- A packet that is removed is not outstanding. -/
theorem outstanding_filter (hbare : r'.bare = Epoch.update r.bare .application
    ((r.bare .application).filter fun p => p.pktNum ≠ n)) :
    outstanding r' = (outstanding r).filter fun a => a.1 ≠ n := by
  rw [outstanding_eq, outstanding_eq, hbare, Epoch.update_same, List.filter_map, List.filter_filter,
    List.filter_filter]
  congr 2
  funext p
  exact Bool.and_comm _ _

/-- The packet with a number is the only one. -/
theorem eq_of_mem_outstanding (h : r.Sorted) {p : Sent} (hp : p ∈ r.sent .application) {a : ℕ × ℕ}
    (ha : a ∈ outstanding r) (heq : a.1 = p.pktNum) :
    p.inFlight = true ∧ a = (p.pktNum, p.size) := by
  obtain ⟨q, hq, hflight, rfl⟩ := mem_outstanding.mp ha
  have hfind := (h .application).find?_eq hq
  obtain rfl : p = q := by
    rw [show q.pktNum = p.pktNum from heq, (h .application).find?_eq hp] at hfind
    exact Option.some.inj hfind
  exact ⟨hflight, rfl⟩

/-! ### What BBR hears -/

/-- Where BBR and the outstanding packets stay, nothing is to be heard. -/
theorem Informed.of_perm (h : Informed c) (hcc : c'.cc = c.cc) (hsorted : c'.toRecovery.Sorted)
    (hout : (outstanding c'.toRecovery).Perm (outstanding c.toRecovery)) : Informed c' where
  sorted := hsorted
  ascending := hcc ▸ h.ascending
  stamped := hcc ▸ h.stamped
  queue := by
    rw [hcc]
    exact h.queue.trans hout.symm
  totals := hcc ▸ h.totals
  hasLosses := hcc ▸ h.hasLosses
  recoveryState := hcc ▸ h.recoveryState

theorem Informed.of_eq (h : Informed c) (hcc : c'.cc = c.cc) (hsorted : c'.toRecovery.Sorted)
    (hout : outstanding c'.toRecovery = outstanding c.toRecovery) : Informed c' :=
  h.of_perm hcc hsorted (.of_eq hout)

theorem Informed.beginAck (h : Informed c) {now : ℕ}
    (hreport : c.report (bbr F) (.beginAck now) = .ok c') :
    Informed c' := by
  obtain ⟨d, hd, rfl⟩ := Controlled.report_eq hreport
  obtain ⟨s, hs, rfl⟩ := Lib.map_eq_ok.mp hd
  change c.cc.bbrBeginAck now c.cc.bytesInFlight = .ok s at hs
  unfold bbrBeginAck at hs
  split_ifs at hs
  cases hs
  exact ⟨h.sorted, h.ascending, h.stamped, h.queue, h.totals, rfl, h.recoveryState⟩

theorem Informed.endAck (h : Informed c) {random : ℕ}
    (hreport : c.report (bbr F) (.endAck random) = .ok c') :
    Informed c' := by
  obtain ⟨d, hd, rfl⟩ := Controlled.report_eq hreport
  obtain ⟨s, hs, rfl⟩ := Lib.map_eq_ok.mp hd
  have hends : EndsAck c.cc s := endsAck_bbrEndAck hs
  have hqueue : s.queuedPackets = c.cc.queuedPackets := by
    rw [queuedPackets, hends.packetOutQue, queuedPackets]
  refine ⟨h.sorted, ?_, ?_, ?_, ?_, ?_, hends.recoveryState h.hasLosses h.recoveryState⟩
  · rw [hends.packetOutQue]
    exact h.ascending
  · rw [hends.packetOutQue]
    exact h.stamped
  · rw [hqueue]
    exact h.queue
  · rw [hends.totalSent, hends.totalAcked, hends.totalLost, hends.bytesInFlight]
    exact h.totals
  · rw [hends.ackState]
    exact h.hasLosses

/-- What is queued is known by its number. -/
theorem queued_of_mem {s : Bbr} (h : Ascending PacketOut.poPackno s.packetOutQue) {a : ℕ × ℕ}
    (ha : a ∈ s.queuedPackets) : ∃ p ∈ s.packetOutQue, s.queued a.1 = some p ∧ p.size = a.2 := by
  obtain ⟨p, hp, rfl⟩ := List.mem_map.mp ha
  exact ⟨p, hp, h.find?_eq hp, rfl⟩

private theorem queuedPackets_filter (queue : List PacketOut) :
    ((queue.filter fun p => p.poPackno ≠ n).map fun p => (p.poPackno, p.size)) =
      (queue.map fun p => (p.poPackno, p.size)).filter fun a => a.1 ≠ n := by
  rw [List.filter_map]
  rfl

/-- A packet that is acked leaves the queue, and its bytes count as acked. -/
theorem Informed.acked (h : Informed c) {p : Sent} (hp : p ∈ c.sent .application)
    (hflight : p.inFlight = true)
    (hbare : r.bare = Epoch.update c.bare .application
      ((c.bare .application).filter fun q => q.pktNum ≠ p.pktNum)) (hsorted : r.Sorted) {s : Bbr}
    (hacked : c.cc.onPacketAckedCc p.bare = .ok s) :
    Informed { c with toRecovery := r, cc := s } := by
  have hqueued : (p.pktNum, p.size) ∈ c.cc.queuedPackets :=
    h.queue.mem_iff.mpr (mem_outstanding.mpr ⟨p, hp, hflight, rfl⟩)
  obtain ⟨q, hq, hfind, hsize⟩ := queued_of_mem h.ascending hqueued
  obtain ⟨hbytes, hcases⟩ := onPacketAckedCc_cases hacked
  rcases hcases with ⟨hnone, -⟩ | ⟨q', sample, bwSampler, q'', hfind', -, hsampler, rfl⟩
  · exact absurd (hfind.symm.trans hnone) nofun
  obtain rfl : q = q' := Option.some.inj (hfind.symm.trans hfind')
  obtain ⟨hsent, hackedBytes, hlost⟩ := Sampling.packetAcked_totals hsampler (h.stamped q hq)
  refine ⟨hsorted, h.ascending.filter _, fun q hq => h.stamped q (List.mem_filter.mp hq).1, ?_, ?_,
    h.hasLosses, h.recoveryState⟩
  · rw [outstanding_filter hbare, queuedPackets, queuedPackets_filter]
    exact h.queue.filter _
  · have htotals := h.totals
    dsimp only [Sent.bare_size] at hbytes hsize ⊢
    omega

theorem Informed.onPacketAcked {newly : Bool} (h : Informed c)
    (hacked : c.onPacketAcked (bbr F) n epoch t m = .ok (newly, c')) : Informed c' := by
  have hbase := Controlled.onPacketAcked_toRecovery hacked
  have hbare := Recovery.onPacketAcked_bare c.toRecovery n epoch
  have hsorted := h.sorted.onPacketAcked n epoch
  unfold Controlled.onPacketAcked at hacked
  dsimp only at hacked
  cases hfind : (c.sent epoch).find? fun p => p.pktNum == n with
  | none =>
    rw [hfind] at hacked
    cases hacked
    refine h.of_eq rfl hsorted ?_
    unfold Recovery.onPacketAcked
    rw [hfind]
  | some p =>
    have hp := List.mem_of_find?_eq_some hfind
    obtain rfl : p.pktNum = n := by simpa using List.find?_some hfind
    rw [hfind] at hacked
    obtain ⟨c₁, hreport, heq⟩ := Lib.map_eq_ok.mp hacked
    obtain ⟨-, rfl⟩ := Prod.mk.inj heq
    split_ifs at hreport with hboth
    · obtain ⟨hflight, rfl⟩ := hboth
      obtain ⟨d, hd, rfl⟩ := Controlled.report_eq hreport
      obtain ⟨s, hs, rfl⟩ := Lib.map_eq_ok.mp hd
      exact h.acked hp hflight hbare hsorted hs
    · cases hreport
      refine h.of_eq rfl hsorted ?_
      rcases eq_or_ne epoch .application with rfl | hne
      · -- BBR has not heard of the packet
        rw [outstanding_filter hbare, List.filter_eq_self]
        intro a ha
        refine decide_eq_true fun heq => hboth ⟨?_, rfl⟩
        exact (eq_of_mem_outstanding h.sorted hp ha heq).1
      · exact outstanding_of_ne hbare hne

/-- A packet that is sent is queued. -/
theorem Informed.sent (h : Informed c) {pkt : Sent} {s : Bbr} (hs : c.cc.onPacketSentCc F pkt = s)
    (hout : (outstanding r).Perm ((pkt.pktNum, pkt.size) :: outstanding c.toRecovery))
    (hsorted : r.Sorted)
    (hfresh : ∀ a ∈ outstanding c.toRecovery, a.1 ≠ pkt.pktNum) {appLimited : Bool} :
    Informed { toRecovery := r, cc := s, appLimited } := by
  obtain ⟨bwSampler, p, hnumber, hsampler, heq⟩ := onPacketSentCc_eq (F := F) c.cc pkt
  obtain ⟨rfl, rfl⟩ := Prod.mk.inj hsampler
  obtain ⟨htotalSent, htotalAcked, -⟩ := Sampling.noteSent_spec c.cc.bwSampler
    ⟨pkt.pktNum, pkt.time, pkt.size, none, pkt.time⟩ c.cc.bytesInFlight
  have htotalLost := Sampling.noteSent_totalLost c.cc.bwSampler
    ⟨pkt.pktNum, pkt.time, pkt.size, none, pkt.time⟩ c.cc.bytesInFlight
  rw [← hs, heq]
  refine ⟨hsorted, h.ascending.insertKey _, fun q hq => ?_, ?_, ?_, h.hasLosses, h.recoveryState⟩
  · rcases Lib.mem_insertKey.mp hq with rfl | ⟨hq, -⟩
    · rfl
    · exact h.stamped q hq
  · have hnew : ∀ q ∈ c.cc.packetOutQue, q.poPackno ≠ pkt.pktNum := fun q hq =>
      hfresh _ (h.queue.mem_iff.mp (List.mem_map_of_mem hq))
    exact (((Lib.insertKey_perm hnew).map _).trans (h.queue.cons _)).trans hout.symm
  · have htotals := h.totals
    dsimp only at htotalSent htotalAcked htotalLost ⊢
    omega

private theorem outstanding_onPacketSent {pkt : Sent} {now : ℕ}
    (hfresh : ∀ p ∈ r.sent epoch, p.pktNum ≠ pkt.pktNum) :
    (outstanding (r.onPacketSent pkt epoch now)).Perm
      (if pkt.inFlight ∧
          epoch = .application then (pkt.pktNum,
              pkt.size) :: outstanding r else outstanding r) := by
  have hbare := Recovery.onPacketSent_bare r pkt epoch now
  rcases eq_or_ne epoch .application with rfl | hne
  · have hperm : (Recovery.insertSent (r.bare .application) pkt.bare).Perm
        (pkt.bare :: r.bare .application) := by
      refine Lib.insertKey_perm fun b hb => ?_
      obtain ⟨p, hp, rfl⟩ := List.mem_map.mp hb
      exact hfresh p hp
    have hout := (hperm.filter Sent.inFlight).map fun p => (p.pktNum, p.size)
    rw [outstanding_eq, hbare, Epoch.update_same, outstanding_eq]
    by_cases hflight : pkt.bare.inFlight = true
    · rw [if_pos ⟨hflight, rfl⟩]
      rwa [List.filter_cons_of_pos hflight] at hout
    · rw [if_neg fun h => hflight h.1]
      rwa [List.filter_cons_of_neg hflight] at hout
  · rw [if_neg fun h => hne h.2, outstanding_of_ne hbare hne]

/-- Lost packets of which BBR has not heard do not change it. -/
theorem onPacketsLost_of_unheard {d d' : Driven Bbr} {pkts : List Sent} {srtt now : ℕ}
    (hlost : d.onPacketsLost (bbr F) pkts epoch srtt now = .ok d')
    (hunheard : ∀ p ∈ pkts, ¬ (p.inFlight = true ∧ epoch = .application)) : d'.cc = d.cc := by
  obtain ⟨d₁, hcount, hreport⟩ := Lib.bind_eq_ok.mp hlost
  have hsame := Driven.countLost_of_not hcount hunheard
  cases hlast : (pkts.filter Sent.inFlight).getLast? with
  | none =>
    rw [hlast] at hreport
    cases hreport
    exact hsame
  | some p =>
    rw [hlast] at hreport
    cases hreport
    exact hsame

/-- Packets may be lost of which BBR has not heard. -/
theorem Informed.detectLostPackets (h : Informed c)
    (hspared : epoch = .application → ∀ p ∈ c.sent .application, p.inFlight = true →
      Recovery.isLost (c.largestAckedPkt .application) t.now t.lossDelay p = false)
    (hdetect : c.detectLostPackets (bbr F) epoch t m = .ok c') : Informed c' := by
  have hbase := Controlled.detectLostPackets_toRecovery hdetect
  have hsorted := h.sorted.detectLostPackets epoch t.now t.lossDelay
  have hsent := Recovery.detectLostPackets_sent h.sorted epoch t.now t.lossDelay
  obtain ⟨c₁, hreport, rfl⟩ := Lib.map_eq_ok.mp hdetect
  obtain ⟨d, hd, rfl⟩ := Controlled.report_eq hreport
  have hcc := onPacketsLost_of_unheard hd fun p hp hboth => ?_
  · refine h.of_eq hcc hsorted ?_
    rw [hbase]
    rcases eq_or_ne epoch .application with rfl | hne
    · rw [outstanding, hsent, Epoch.update_same, List.filter_filter, outstanding]
      congr 1
      apply List.filter_congr
      intro p hp
      cases hflight : p.inFlight with
      | false => rfl
      | true => rw [hspared rfl p hp hflight]; rfl
    · rw [outstanding, hsent, Epoch.update_of_ne hne.symm, outstanding]
  · obtain ⟨hflight, rfl⟩ := hboth
    obtain ⟨hp, hlost⟩ := List.mem_filter.mp hp
    exact absurd (hspared rfl p hp hflight) (by rw [hlost]; nofun)

/-! ### Calls -/

/-- Lost packets leave the queue and the recovery state alone. -/
theorem detectLostPackets_cc (hdetect : c.detectLostPackets (bbr F) epoch t m = .ok c') :
    ∃ bytesInFlight, c'.cc = { c.cc with bytesInFlight } := by
  obtain ⟨c₁, hreport, rfl⟩ := Lib.map_eq_ok.mp hdetect
  obtain ⟨d, hd, rfl⟩ := Controlled.report_eq hreport
  exact onPacketsLost_eq hd

/-- An ACK frame declares no packet lost, and BBR has heard of all packets. Or it declares packets
lost, and no recovery begins. -/
theorem Informed.onAckReceived (h : Informed c) {ranges : RangeSet} (hranges : ranges.Canonical)
    {result : Except Error Unit}
    (hack : c.onAckReceived (bbr F) ranges epoch t m = .ok (result, c')) :
    ((∀ p, ¬ c.AckDeclaresLost ranges epoch t p) ∧ c'.lostCount = c.lostCount ∧ Informed c') ∨
      (∃ p, c.AckDeclaresLost ranges epoch t p) ∧ c.lostCount < c'.lostCount ∧
        c'.cc.recoveryState = .notInRecovery := by
  obtain ⟨c₁, largest, hbegin, hlargest, hcases⟩ := Controlled.onAckReceived_cases hack
  have hbase := Controlled.report_toRecovery hbegin
  have hinformed := h.beginAck hbegin
  rcases hcases with ⟨hunsent, -, rfl⟩ | ⟨hle, -, acked, c₂, hloop, hend, hdetect⟩
  · refine .inl ⟨?_, by rw [hbase], hinformed⟩
    rintro p ⟨-, -, -, largest', hlargest', hle, -⟩
    obtain rfl : largest = largest' := Option.some.inj (hlargest.symm.trans hlargest')
    omega
  · -- the ack begins, the packets are scanned, and the ack ends
    have hnoted : Informed { c₁ with toRecovery := c.toRecovery.noteLargest epoch largest } := by
      refine hinformed.of_eq rfl h.sorted ?_
      rw [hbase]
      rfl
    have hscanned := Controlled.ackLoop_induct
      (fun _ h _ _ _ hacked => h.onPacketAcked hacked) hnoted hloop
    have hended := hscanned.endAck hend
    have hscan := Controlled.ackLoop_toRecovery hloop
    have hsame := Recovery.ackLoop_same (c.toRecovery.noteLargest epoch largest) epoch
      ranges.flatten.reverse false
    have hlostIff := Recovery.exists_lost_iff h.sorted hranges hlargest hle hscan (t := t)
    have hcount : c₂.lostCount = c.lostCount := by
      dsimp only at hscan
      rw [hscan] at hsame
      rw [Controlled.report_toRecovery hend]
      exact hsame.2
    rw [← Controlled.report_toRecovery hend] at hlostIff
    rcases hdetect with ⟨hnewly, rfl⟩ | ⟨hnewly, hdetect⟩
    · refine .inl ⟨fun p hp => ?_, hcount, hended⟩
      have htrue := (hlostIff.mpr ⟨p, hp⟩).1
      rw [hnewly] at htrue
      cases htrue
    · have hcount' := Recovery.detectLostPackets_lostCount c₂.toRecovery epoch t.now t.lossDelay
      rw [← Controlled.detectLostPackets_toRecovery hdetect, hcount] at hcount'
      by_cases hlost : ∃ q ∈ c₂.sent epoch,
        Recovery.isLost (c₂.largestAckedPkt epoch) t.now t.lossDelay q = true
      · -- a loss is counted, and the controller does not enter recovery
        obtain ⟨q, hq, hqlost⟩ := hlost
        have hpos := List.length_pos_of_mem (List.mem_filter.mpr ⟨hq, hqlost⟩)
        obtain ⟨bytesInFlight, hcc⟩ := detectLostPackets_cc hdetect
        refine .inr ⟨hlostIff.mp ⟨hnewly, q, hq, hqlost⟩, by omega, ?_⟩
        rw [hcc]
        exact hended.recoveryState
      · have hnone (q : Sent) (hq : q ∈ c₂.sent epoch) :
            Recovery.isLost (c₂.largestAckedPkt epoch) t.now t.lossDelay q = false :=
          eq_false_of_ne_true fun hqlost => hlost ⟨q, hq, hqlost⟩
        have hempty : (c₂.sent epoch).filter
            (Recovery.isLost (c₂.largestAckedPkt epoch) t.now t.lossDelay) = [] := by
          rw [List.filter_eq_nil_iff]
          exact fun q hq hqlost => hlost ⟨q, hq, hqlost⟩
        refine .inl ⟨fun p hp => hlost (hlostIff.mpr ⟨p, hp⟩).2, ?_, ?_⟩
        · rw [hcount', hempty, List.length_nil, Nat.add_zero]
        · refine hended.detectLostPackets ?_ hdetect
          rintro rfl q hq -
          exact hnone q hq

/-- BBR still has a packet in its queue that loss recovery has given up. -/
theorem not_queue_of_gone (h : Informed c) (hqueue : c'.cc.packetOutQue = c.cc.packetOutQue)
    {p : Sent}
    (hp : p ∈ c.sent .application) (hflight : p.inFlight = true)
    (hgone : ∀ q ∈ c'.sent .application, q.pktNum ≠ p.pktNum) :
    ¬ c'.cc.queuedPackets.Perm (outstanding c'.toRecovery) := by
  intro hperm
  have hqueued : (p.pktNum, p.size) ∈ c'.cc.queuedPackets := by
    rw [queuedPackets, hqueue]
    exact h.queue.mem_iff.mpr (mem_outstanding.mpr ⟨p, hp, hflight, rfl⟩)
  obtain ⟨q, hq, -, heq⟩ := mem_outstanding.mp (hperm.mem_iff.mp hqueued)
  exact hgone q hq (Prod.mk.inj heq).1

/-- A timeout spares the packets of which BBR has heard, or leaves one of them in its queue. -/
theorem Informed.onLossDetectionTimeout (h : Informed c) {handshakeCompleted : Bool}
    (htimeout : c.onLossDetectionTimeout (bbr F) handshakeCompleted t m = .ok c') :
    (Spares c.toRecovery (.onLossDetectionTimeout handshakeCompleted t) → Informed c') ∧
      (¬ Spares c.toRecovery (.onLossDetectionTimeout handshakeCompleted t) →
        ¬ c'.cc.queuedPackets.Perm (outstanding c'.toRecovery)) := by
  unfold Controlled.onLossDetectionTimeout at htimeout
  dsimp only at htimeout
  split_ifs at htimeout with hloss
  · refine ⟨fun hspared => h.detectLostPackets (hspared hloss) htimeout, fun hlost hperm =>
      hlost ?_⟩
    intro _ happlication p hp hflight
    by_contra hgone
    rw [happlication] at htimeout
    have hbase := Controlled.detectLostPackets_toRecovery htimeout
    have hsent := Recovery.detectLostPackets_sent h.sorted .application t.now t.lossDelay
    obtain ⟨bytesInFlight, hcc⟩ := detectLostPackets_cc htimeout
    refine not_queue_of_gone h (by rw [hcc]) hp hflight (fun q hq heq => ?_) hperm
    rw [hbase, hsent, Epoch.update_same] at hq
    obtain ⟨hq, hkept⟩ := List.mem_filter.mp hq
    have hfind := (h.sorted .application).find?_eq hq
    rw [heq, (h.sorted .application).find?_eq hp] at hfind
    obtain rfl : p = q := Option.some.inj hfind
    exact hgone (by simpa using hkept)
  · cases htimeout
    have hspares : Spares c.toRecovery (.onLossDetectionTimeout handshakeCompleted t) :=
      fun hsome => absurd hsome hloss
    refine ⟨fun _ => h.of_eq rfl ?_ ?_, fun hlost => absurd hspares hlost⟩
    all_goals
      unfold Recovery.onLossDetectionTimeout
      dsimp only
      rw [if_neg hloss]
    · exact h.sorted
    · rfl

private theorem dropUnackedData_cc (hdrop : c.dropUnackedData (bbr F) .application = .ok c') :
    ∃ bytesInFlight,
      subtract c.cc.bytesInFlight (LossDetection.unackedBytes (c.sent .application)) =
        .ok bytesInFlight ∧
      c'.cc = { c.cc with bytesInFlight } := by
  obtain ⟨c₁, hreport, rfl⟩ := Lib.map_eq_ok.mp hdrop
  rw [if_pos rfl] at hreport
  obtain ⟨d, hd, rfl⟩ := Controlled.report_eq hreport
  obtain ⟨s, hs, rfl⟩ := Lib.map_eq_ok.mp hd
  obtain ⟨bytesInFlight, hbytes, rfl⟩ := Lib.map_eq_ok.mp hs
  exact ⟨bytesInFlight, hbytes, rfl⟩

/-- The packets that are forgotten are not those of which BBR has heard, or BBR has one of them in
its queue. -/
theorem Informed.dropUnackedData (h : Informed c)
    (hdrop : c.dropUnackedData (bbr F) epoch = .ok c') :
    (Spares c.toRecovery (.dropUnackedData epoch) → Informed c') ∧
      (¬ Spares c.toRecovery (.dropUnackedData epoch) →
        ¬ c'.cc.queuedPackets.Perm (outstanding c'.toRecovery)) := by
  have hbase := Controlled.dropUnackedData_toRecovery hdrop
  have hsorted : (c.toRecovery.dropUnackedData epoch).Sorted := h.sorted.update rfl .nil
  rw [← hbase] at hsorted
  rcases eq_or_ne epoch .application with rfl | hne
  · obtain ⟨bytesInFlight, hbytes, hcc⟩ := dropUnackedData_cc hdrop
    have hsent : c'.sent .application = [] := by
      rw [hbase]
      rfl
    refine ⟨fun hspared => ?_, fun hlost hperm => hlost fun _ p hp => ?_⟩
    · have hnone : (c.sent .application).filter Sent.inFlight = [] := by
        rw [List.filter_eq_nil_iff]
        intro p hp hflight
        rw [hspared rfl p hp] at hflight
        cases hflight
      rw [LossDetection.unackedBytes, hnone, List.map_nil, List.sum_nil,
        subtract_of_le (Nat.zero_le _)] at hbytes
      obtain rfl := Except.ok.inj hbytes
      refine h.of_eq hcc hsorted ?_
      rw [outstanding, hsent, outstanding, hnone]
      rfl
    · by_contra hflight
      refine not_queue_of_gone h (by rw [hcc]) hp (by simpa using hflight) (fun q hq => ?_) hperm
      rw [hsent] at hq
      cases hq
  · obtain ⟨c₁, hreport, rfl⟩ := Lib.map_eq_ok.mp hdrop
    rw [if_neg hne] at hreport
    cases hreport
    refine ⟨fun _ => h.of_eq rfl hsorted ?_, fun hlost => absurd (fun heq => absurd heq hne) hlost⟩
    exact outstanding_of_ne (Recovery.dropUnackedData_bare c.toRecovery epoch) hne

theorem Informed.onPacketSent (h : Informed c) {pkt : Sent}
    (hfresh : ∀ p ∈ c.sent epoch, p.pktNum ≠ pkt.pktNum)
    (hsent : c.onPacketSent (bbr F) pkt epoch t = .ok c') : Informed c' := by
  have hout : (outstanding (c.toRecovery.onPacketSent pkt epoch t.now)).Perm
      (if pkt.inFlight = true ∧
        epoch = .application then (pkt.pktNum, pkt.size) :: outstanding c.toRecovery
        else outstanding c.toRecovery) := outstanding_onPacketSent hfresh
  have hsorted : (c.toRecovery.onPacketSent pkt epoch t.now).Sorted :=
    h.sorted.step (show c.toRecovery.step (.onPacketSent pkt epoch false t) = some _ from rfl)
  obtain ⟨c₁, hreport, rfl⟩ := Lib.map_eq_ok.mp hsent
  rw [Controlled.ite_report_toRecovery hreport]
  by_cases hboth : pkt.inFlight = true ∧ epoch = .application
  · rw [if_pos hboth] at hout hreport
    obtain ⟨d, hd, rfl⟩ := Controlled.report_eq hreport
    obtain rfl : ⟨c.cc.onPacketSentCc F pkt, c.lostCount⟩ = d := Except.ok.inj hd
    refine h.sent rfl hout hsorted fun a ha heq => ?_
    obtain ⟨q, hq, -, rfl⟩ := mem_outstanding.mp ha
    obtain ⟨-, rfl⟩ := hboth
    exact hfresh q hq heq
  · rw [if_neg hboth] at hout hreport
    cases hreport
    exact h.of_perm rfl hsorted hout

/-- A call leaves BBR with all it should have heard of if it spares the packets, and only then has
BBR heard of the fates of the packets. -/
theorem Informed.call (h : Informed c) (hstep : c.step (bbr F) x = some c') :
    (Spares c.toRecovery x.call → Informed c' ∧ ∀ ranges epoch handshakeCompleted t,
      x.call = .onAckReceived ranges epoch handshakeCompleted t → c'.lostCount = c.lostCount) ∧
    (HearsFates F c x → Spares c.toRecovery x.call) := by
  obtain ⟨hpermits, result, hcall⟩ := Controlled.step_eq_some.mp hstep
  obtain ⟨m, call⟩ := x
  cases call with
  | onPacketSent pkt epoch handshakeCompleted t =>
    obtain ⟨c₁, hsent, heq⟩ := Lib.map_eq_ok.mp hcall
    obtain ⟨-, rfl⟩ := Prod.mk.inj heq
    exact ⟨fun _ => ⟨h.onPacketSent hpermits hsent, nofun⟩, fun _ => trivial⟩
  | onAckReceived ranges epoch handshakeCompleted t =>
    rcases h.onAckReceived hpermits hcall with ⟨hspared, hcount, hinformed⟩ | ⟨⟨p, hp⟩,
      hlost, hstate⟩
    · exact ⟨fun _ => ⟨hinformed, fun _ _ _ _ _ => hcount⟩, fun _ => hspared⟩
    · exact ⟨fun hspared => absurd hp (hspared p), fun hhears =>
        absurd hstate (hhears.recovery hstep rfl hlost)⟩
  | onLossDetectionTimeout handshakeCompleted t =>
    obtain ⟨c₁, htimeout, heq⟩ := Lib.map_eq_ok.mp hcall
    obtain ⟨-, rfl⟩ := Prod.mk.inj heq
    obtain ⟨hkeeps, hbreaks⟩ := h.onLossDetectionTimeout htimeout
    refine ⟨fun hspared => ⟨hkeeps hspared, nofun⟩, fun hhears => ?_⟩
    by_contra hlost
    exact hbreaks hlost (hhears.queue hstep)
  | dropUnackedData epoch =>
    obtain ⟨c₁, hdrop, heq⟩ := Lib.map_eq_ok.mp hcall
    obtain ⟨-, rfl⟩ := Prod.mk.inj heq
    obtain ⟨hkeeps, hbreaks⟩ := h.dropUnackedData hdrop
    refine ⟨fun hspared => ⟨hkeeps hspared, nofun⟩, fun hhears => ?_⟩
    by_contra hlost
    exact hbreaks hlost (hhears.queue hstep)
  | drainAcked epoch =>
    cases hcall
    exact ⟨fun _ => ⟨h.of_eq rfl h.sorted rfl, nofun⟩, fun _ => trivial⟩
  | drainLost epoch =>
    cases hcall
    exact ⟨fun _ => ⟨h.of_eq rfl h.sorted rfl, nofun⟩, fun _ => trivial⟩

private theorem Informed.hears_iff_spares (h : Informed c) (x : ControlledCall) :
    HearsFates F c x ↔ ((c.step (bbr F) x).isSome → Spares c.toRecovery x.call) := by
  constructor
  · intro hhears hdefined
    obtain ⟨c', hstep⟩ := Option.isSome_iff_exists.mp hdefined
    exact (h.call hstep).2 hhears
  · intro hspares
    have hcall {c' : Controlled Bbr} (hstep : c.step (bbr F) x = some c') :=
      (h.call hstep).1 (hspares (Option.isSome_of_mem hstep))
    refine ⟨fun hstep => (hcall hstep).1.queue, fun hstep => (hcall hstep).1.totals,
      fun hstep _ _ _ _ hack hlost => ?_⟩
    exact absurd ((hcall hstep).2 _ _ _ _ hack) hlost.ne'

/-- Along every run BBR hears of the fates of all packets exactly as long as the calls that return
give up no packet of which it has heard, and no ACK frame declares a packet lost. -/
theorem hearsFates_iff (F : Floats) (t0 : ℕ) (calls : List ControlledCall) :
    Lib.AllSteps (Controlled.step (bbr F)) (HearsFates F) (.new (Bbr.new t0)) calls ↔
      Lib.AllSteps (Controlled.step (bbr F))
        (fun c x => (c.step (bbr F) x).isSome → Spares c.toRecovery x.call)
            (.new (Bbr.new t0)) calls := by
  apply Lib.allSteps_iff_of_condition (I := Informed)
  · intro c x c' h hspares hstep
    exact ((h.call hstep).1 (hspares (Option.isSome_of_mem hstep))).1
  · intro c x h
    exact h.hears_iff_spares x
  · exact informed_new t0

/-- Four packets are sent, and the last one is acked. The first one is three packets older. -/
def lastOfFourAcked : List ControlledCall :=
  let sent (n : ℕ) : ControlledCall :=
    ⟨⟨0, 0, 0, 0⟩, .onPacketSent (examplePacket n 0) .application true ⟨0, 10 ^ 9, 10 ^ 9⟩⟩
  [sent 0, sent 1, sent 2, sent 3]

/-- The last of the packets is acked. -/
def ackOfLast : ControlledCall :=
  ⟨⟨1000000, 1000000, 1000000, 0⟩,
    .onAckReceived ⟨[(3, 4)], List.pairwise_singleton _ _⟩ .application true ⟨1000000, 10 ^ 9,
      10 ^ 9⟩⟩

/-- The first packet is declared lost. BBR has it in its queue, does not count its bytes as lost,
and is not in recovery. -/
theorem deaf_lastOfFourAcked :
    ((Lib.run (Controlled.step (bbr exactFloats)) (.new (Bbr.new 0)) lastOfFourAcked).bind fun c =>
      (c.step (bbr exactFloats) ackOfLast).map fun c' => (c, c')).any fun (c, c') =>
        c.lostCount < c'.lostCount ∧ c'.cc.recoveryState = .notInRecovery ∧
          c'.cc.queuedPackets = [(0, 1200), (1, 1200), (2, 1200)] ∧
          outstanding c'.toRecovery = [(1, 1200), (2, 1200)] ∧
          c'.cc.bwSampler.totalSent = 4800 ∧ c'.cc.bwSampler.totalAcked = 1200 ∧
          c'.cc.bwSampler.totalLost = 0 ∧ c'.cc.bytesInFlight = 2400 := by
  decide +kernel

/-- No recovery begins, though packets are lost. -/
theorem not_hearsFates_lastOfFourAcked :
    ¬ ∀ (F : Floats) (t0 : ℕ) (calls : List ControlledCall),
      Lib.AllSteps (Controlled.step (bbr F)) (HearsFates F) (.new (Bbr.new t0)) calls := by
  intro h
  obtain ⟨⟨c, c'⟩, hsome, hdeaf⟩ := (Option.any_eq_true _ _).mp deaf_lastOfFourAcked
  obtain ⟨_, hrun, hmap⟩ := Option.bind_eq_some_iff.mp hsome
  obtain ⟨_, hstep, heq⟩ := Option.map_eq_some_iff.mp hmap
  obtain ⟨rfl, rfl⟩ := Prod.mk.inj heq
  obtain ⟨hlost, hstate, -⟩ := of_decide_eq_true hdeaf
  have hhears := (h exactFloats 0 (lastOfFourAcked ++ [ackOfLast])).of_run hrun
  exact hhears.recovery hstep rfl hlost hstate

end Dtp.Cc.Bbr
