import Dtp.RangeRuns
import Dtp.Rebuilding

/-!
# The scan over acked packet numbers

The numbers of an ACK frame are taken from the largest down, and the scan stops in front of the
lowest packet that is outstanding. This packet changes while the scan removes packets, and an
acked packet may let the peer rebuild others, whose frames are handed out as well. The scan agrees
with one that processes every number.

## Main definitions

* `Recovery.ackEvery` — processes every number
* `Recovery.rebuiltBy` — the packets that the peer can rebuild meanwhile
* `Recovery.HandsOut` — packets are removed, and their frames and those of others are handed out
* `Recovery.Rebuilds` — which packets the peer can rebuild

## Main results

* `Recovery.ackLoop_eq_ackEvery` — it does no harm to stop
* `Recovery.ackEvery_handsOut` — what processing every number does
* `Recovery.onAckReceived_exact` — what an ACK frame does before losses are detected
-/

namespace Dtp

open Lib (Ascending)

namespace Recovery

/-- Processes every acked packet number. -/
def ackEvery (epoch : Epoch) : List ℕ → Bool × Recovery → Bool × Recovery
  | [], acc => acc
  | pn :: pns, (newly, r) =>
    let result := r.onPacketAcked pn epoch
    ackEvery epoch pns (newly || result.1, result.2)

/-- The packets that the peer can rebuild after one of the acked packets. -/
def rebuiltBy (epoch : Epoch) : List ℕ → Recovery → List ℕ
  | [], _ => []
  | pn :: pns, r =>
    (match (r.sent epoch).find? fun p => p.pktNum == pn with
      | some p => r.rebuilt p
      | none => []) ++ rebuiltBy epoch pns (r.onPacketAcked pn epoch).2

/-- A packet, without its frames if it is one of these. -/
def emptied (rebuilt : List ℕ) (p : Sent) : Sent := if p.pktNum ∈ rebuilt then p.bare else p

/-- In an epoch, the first packets are removed, and the second ones lose their frames. The frames of
both are handed out, each once. -/
structure HandsOut (e : Epoch) (acked rebuilt : List ℕ) (r r' : Recovery) : Prop where
  sent : r'.sent e = ((r.sent e).filter fun p => p.pktNum ∉ acked).map (emptied rebuilt)
  frames : ∃ handed, r'.acked e = r.acked e ++ handed ∧
    handed.Perm (((r.sent e).filter fun p => p.pktNum ∈ acked ∨
      p.pktNum ∈ rebuilt).flatMap Sent.frames)

/-- The packets are rebuilt from the groups of newly acked packets, and all are that can be in the
end. -/
structure Rebuilds (epoch : Epoch) (acked rebuilt : List ℕ) (r r' : Recovery) : Prop where
  enough : ∀ n ∈ rebuilt, ∃ q ∈ r.bare epoch, q.pktNum ∈ acked ∧ q.fecInfo.groupId ≠ 0 ∧
    ∃ g, r'.pnsInFecGroup q.fecInfo.groupId = some g ∧ n ∈ g.sent.map Prod.snd ∧
      g.m ≤ g.acked.length
  complete : ∀ q ∈ r.bare epoch, q.pktNum ∈ acked → q.fecInfo.groupId ≠ 0 →
    ∀ g, r'.pnsInFecGroup q.fecInfo.groupId = some g → ∀ n ∈ g.recoveredPns, n ∈ rebuilt

/-- The map of sent packets is in order. -/
def Sorted (r : Recovery) : Prop := ∀ e, Ascending Sent.pktNum (r.sent e)

variable {r r' r'' : Recovery} {e epoch : Epoch} {pn : ℕ} {pns : List ℕ} {newly : Bool}

/-! ### Where the scan stops -/

/-- Packets are sorted without regard to their frames. -/
theorem sorted_iff_bare : r.Sorted ↔ ∀ e, Ascending Sent.pktNum (r.bare e) := by
  refine forall_congr' fun e => ?_
  exact (List.pairwise_map (f := Sent.bare) (R := fun a b => a.pktNum < b.pktNum)).symm

/-- The map stays in order when it is changed in one epoch, to one that is in order. -/
theorem Sorted.update (h : r.Sorted) {sent : List Sent}
    (hsent : r'.sent = Epoch.update r.sent epoch sent)
    (hsorted : Ascending Sent.pktNum sent) : r'.Sorted := by
  intro e
  rw [hsent]
  rcases eq_or_ne e epoch with rfl | hne
  · rwa [Epoch.update_same]
  · rw [Epoch.update_of_ne hne]
    exact h e

/-- Packets that are rebuilt stay in order. -/
theorem Sorted.recovered (h : r.Sorted) (pns : List ℕ) :
    (pns.foldl onPacketRecovered r).Sorted := by
  induction pns generalizing r with
  | nil => exact h
  | cons pn pns ih =>
    apply ih
    rw [sorted_iff_bare, onPacketRecovered_bare]
    exact sorted_iff_bare.mp h

/-- The packets that are left stay in order. -/
theorem Sorted.onPacketAcked (h : r.Sorted) (pn : ℕ) (epoch : Epoch) :
    (r.onPacketAcked pn epoch).2.Sorted := by
  cases hfind : (r.sent epoch).find? fun p => p.pktNum == pn with
  | none =>
    rw [Recovery.onPacketAcked, hfind]
    exact h
  | some p =>
    obtain ⟨r', hr', hsent, -⟩ := r.onPacketAcked_eq hfind
    rw [hr']
    apply Sorted.recovered
    apply h.update hsent
    exact (h epoch).filter _

private theorem onPacketAcked_of_none (h : ∀ p ∈ r.sent epoch, p.pktNum ≠ pn) :
    r.onPacketAcked pn epoch = (false, r) := by
  have hfind : ((r.sent epoch).find? fun p => p.pktNum == pn) = none := by
    rw [List.find?_eq_none]
    intro p hp
    simpa using h p hp
  rw [onPacketAcked, hfind]

/-- Numbers that no packet has are not newly acked. -/
theorem ackEvery_of_none (h : ∀ pn ∈ pns, ∀ p ∈ r.sent epoch, p.pktNum ≠ pn) :
    ackEvery epoch pns (newly, r) = (newly, r) := by
  induction pns with
  | nil => rfl
  | cons pn pns ih =>
    rw [ackEvery, onPacketAcked_of_none (h pn List.mem_cons_self), Bool.or_false]
    exact ih fun pn hpn => h pn (List.mem_cons_of_mem _ hpn)

/-- Below the lowest packet that is left, there is nothing to ack. -/
theorem ackLoop_eq_ackEvery (h : r.Sorted) (hpns : pns.Pairwise (· > ·)) :
    ackLoop epoch pns (newly, r) = ackEvery epoch pns (newly, r) := by
  induction pns generalizing r newly with
  | nil => rfl
  | cons pn pns ih =>
    obtain ⟨hbelow, hpns⟩ := List.pairwise_cons.mp hpns
    rw [ackLoop]
    by_cases hlow : ((r.sent epoch).head?.any fun lowest => pn < lowest.pktNum) = true
    · -- the scan stops, and no packet has one of the numbers that are left
      rw [if_pos hlow]
      refine (ackEvery_of_none fun pn' hpn' p hp => ?_).symm
      obtain ⟨lowest, hlowest, hlt⟩ := (Option.any_eq_true _ _).mp hlow
      have hlt : pn < lowest.pktNum := of_decide_eq_true hlt
      have hle : pn' ≤ pn := by
        rcases List.mem_cons.mp hpn' with rfl | hpn'
        · exact le_rfl
        · exact (hbelow pn' hpn').le
      have hfirst : lowest.pktNum ≤ p.pktNum := by
        obtain ⟨rest, hrest⟩ := List.head?_eq_some_iff.mp hlowest
        have hsorted := h epoch
        rw [hrest] at hsorted hp
        rcases List.mem_cons.mp hp with rfl | hp
        · exact le_rfl
        · exact ((List.pairwise_cons.mp hsorted).1 p hp).le
      omega
    · rw [if_neg hlow, ackEvery]
      exact ih (h.onPacketAcked pn epoch) hpns

/-- Numbers are the same without frames. -/
theorem exists_bare {n : ℕ} : (∃ q ∈ r.bare epoch, q.pktNum = n) ↔
    ∃ q ∈ r.sent epoch, q.pktNum = n := by
  simp [bare]

/-- The numbers of the packets that are left. -/
theorem exists_sent_acked {n : ℕ} : (∃ q ∈ (r.onPacketAcked pn epoch).2.sent epoch, q.pktNum = n) ↔
    n ≠ pn ∧ ∃ q ∈ r.sent epoch, q.pktNum = n := by
  rw [← exists_bare, onPacketAcked_bare, Epoch.update_same, ← exists_bare]
  constructor
  · rintro ⟨q, hq, rfl⟩
    obtain ⟨hq, hne⟩ := List.mem_filter.mp hq
    exact ⟨of_decide_eq_true hne, q, hq, rfl⟩
  · rintro ⟨hne, q, hq, rfl⟩
    exact ⟨q, List.mem_filter.mpr ⟨hq, decide_eq_true hne⟩, rfl⟩

private theorem onPacketAcked_newly : (r.onPacketAcked pn epoch).1 = true ↔
    ∃ q ∈ r.sent epoch, q.pktNum = pn := by
  unfold onPacketAcked
  cases hfind : (r.sent epoch).find? fun p => p.pktNum == pn with
  | none => simpa using hfind
  | some p =>
    have hp := List.find?_some hfind
    exact iff_of_true rfl ⟨p, List.mem_of_find?_eq_some hfind, eq_of_beq hp⟩

/-- Whether one of the numbers is newly acked. -/
theorem ackEvery_newly : (ackEvery epoch pns (newly, r)).1 = true ↔
    newly = true ∨ ∃ pn ∈ pns, ∃ q ∈ r.sent epoch, q.pktNum = pn := by
  induction pns generalizing r newly with
  | nil => simp [ackEvery]
  | cons pn pns ih =>
    rw [ackEvery, ih, Bool.or_eq_true, onPacketAcked_newly, List.exists_mem_cons_iff, or_assoc]
    refine or_congr_right ?_
    simp only [exists_sent_acked]
    constructor
    · rintro (h | ⟨n, hn, -, h⟩)
      · exact .inl h
      · exact .inr ⟨n, hn, h⟩
    · rintro (h | ⟨n, hn, h⟩)
      · exact .inl h
      · by_cases heq : n = pn
        · exact .inl (heq ▸ h)
        · exact .inr ⟨n, hn, heq, h⟩

/-! ### What is handed out -/

@[simp] theorem emptied_pktNum (rebuilt : List ℕ) (p : Sent) :
    (emptied rebuilt p).pktNum = p.pktNum := by
  unfold emptied
  split_ifs <;> rfl

theorem emptied_nil : emptied [] = id := by
  funext p
  exact if_neg List.not_mem_nil

private theorem emptied_of_mem {rebuilt : List ℕ} {p : Sent} (h : p.pktNum ∈ rebuilt) :
    (emptied rebuilt p).frames = [] := by
  rw [emptied, if_pos h]
  rfl

theorem emptied_of_not_mem {rebuilt : List ℕ} {p : Sent} (h : p.pktNum ∉ rebuilt) :
    emptied rebuilt p = p := if_neg h

private theorem emptied_emptied (rebuilt rebuilt' : List ℕ) (p : Sent) :
    emptied rebuilt' (emptied rebuilt p) = emptied (rebuilt ++ rebuilt') p := by
  by_cases h : p.pktNum ∈ rebuilt <;> by_cases h' : p.pktNum ∈ rebuilt' <;> simp [emptied, h, h',
    Sent.bare]

/-- Nothing is handed out. -/
theorem handsOut_of_eq (hsent : r'.sent e = r.sent e) (hacked : r'.acked e = r.acked e) :
    HandsOut e [] [] r r' where
  sent := by
    rw [hsent, emptied_nil, List.map_id]
    simp
  frames := ⟨[], by rw [hacked, List.append_nil], by simp⟩

/-- What is handed out first and what is handed out then. -/
theorem handed_append (acked acked' rebuilt rebuilt' : List ℕ) (sent : List Sent) :
    ((sent.filter fun p => p.pktNum ∈ acked ∨ p.pktNum ∈ rebuilt).flatMap Sent.frames ++
      ((((sent.filter fun p => p.pktNum ∉ acked).map (emptied rebuilt)).filter fun p =>
        p.pktNum ∈ acked' ∨ p.pktNum ∈ rebuilt').flatMap Sent.frames)).Perm
      ((sent.filter fun p => p.pktNum ∈ acked ++ acked' ∨
          p.pktNum ∈ rebuilt ++ rebuilt').flatMap Sent.frames) := by
  induction sent with
  | nil => rfl
  | cons p sent ih =>
    have hfront := ih.append_left p.frames
    by_cases hacked : p.pktNum ∈ acked
    · simpa [hacked] using hfront
    · by_cases hrebuilt : p.pktNum ∈ rebuilt
      · by_cases hthen : p.pktNum ∈ acked' ∨ p.pktNum ∈ rebuilt'
        · simpa [hacked, hrebuilt, hthen, emptied_of_mem] using hfront
        · simpa [hacked, hrebuilt, hthen] using hfront
      · by_cases hthen : p.pktNum ∈ acked' ∨ p.pktNum ∈ rebuilt'
        · -- its frames come behind those that are handed out first
          have hlater := List.perm_append_comm_assoc
            ((sent.filter fun p => p.pktNum ∈ acked ∨ p.pktNum ∈ rebuilt).flatMap Sent.frames)
              p.frames
            ((((sent.filter fun p => p.pktNum ∉ acked).map (emptied rebuilt)).filter fun p =>
              p.pktNum ∈ acked' ∨ p.pktNum ∈ rebuilt').flatMap Sent.frames)
          have hall := hlater.trans hfront
          simpa [hacked, hrebuilt, hthen, emptied_of_not_mem] using hall
        · have hthen' : ¬ (p.pktNum ∈ acked ++ acked' ∨ p.pktNum ∈ rebuilt ++ rebuilt') := by
            simp only [List.mem_append]
            tauto
          simpa [hacked, hrebuilt, hthen] using ih

theorem HandsOut.trans {acked acked' rebuilt rebuilt' : List ℕ} (h : HandsOut e acked rebuilt r r')
    (h' : HandsOut e acked' rebuilt' r' r'') :
    HandsOut e (acked ++ acked') (rebuilt ++ rebuilt') r r'' where
  sent := by
    rw [h'.sent, h.sent, List.filter_map, List.map_map, List.filter_filter]
    have hmap : emptied rebuilt' ∘ emptied rebuilt = emptied (rebuilt ++ rebuilt') := by
      funext p
      exact emptied_emptied rebuilt rebuilt' p
    rw [hmap]
    congr 2
    funext p
    simp [Bool.and_comm, not_or]
  frames := by
    obtain ⟨handed, hacked, hperm⟩ := h.frames
    obtain ⟨handed', hacked', hperm'⟩ := h'.frames
    refine ⟨handed ++ handed', by rw [hacked', hacked, List.append_assoc], ?_⟩
    rw [h.sent] at hperm'
    exact (hperm.append hperm').trans (handed_append acked acked' rebuilt rebuilt' (r.sent e))

/-- The packet that is found has the number that was looked for. -/
theorem pktNum_of_find {sent : List Sent} {p : Sent}
    (hfind : (sent.find? fun p => p.pktNum == pn) = some p) :
    p.pktNum = pn := by
  simpa using List.find?_some hfind

/-- Only one packet has the number that was found. -/
theorem filter_eq_of_find {sent : List Sent} (h : Ascending Sent.pktNum sent) {p : Sent}
    (hfind : (sent.find? fun p => p.pktNum == pn) = some p) :
    (sent.filter fun q => q.pktNum = pn) = [p] := by
  obtain rfl := pktNum_of_find hfind
  have hperm := (h.perm_cons_filter (List.mem_of_find?_eq_some hfind)).filter fun q =>
    q.pktNum = p.pktNum
  have hnone : ((sent.filter fun q => q.pktNum ≠ p.pktNum).filter fun q => q.pktNum = p.pktNum) =
      [] := by
    rw [List.filter_filter, List.filter_eq_nil_iff]
    intro q _
    simp
  rw [List.filter_cons_of_pos (by simp), hnone] at hperm
  exact List.perm_singleton.mp hperm

/-- A number that is not found is not there. -/
theorem filter_eq_nil_of_find {sent : List Sent}
    (hfind : (sent.find? fun p => p.pktNum == pn) = none) :
    (sent.filter fun q => q.pktNum = pn) = [] := by
  rw [List.filter_eq_nil_iff]
  intro q hq
  simpa using List.find?_eq_none.mp hfind q hq

private theorem onPacketRecovered_handsOut (h : r.Sorted) (pn : ℕ) :
    HandsOut .application [] [pn] r (r.onPacketRecovered pn) := by
  have hall : ((r.sent .application).filter fun p => p.pktNum ∉ ([] : List ℕ)) =
    r.sent .application := by simp
  have hone : ((r.sent .application).filter fun p => p.pktNum ∈ ([] : List ℕ) ∨ p.pktNum ∈ [pn]) =
      (r.sent .application).filter fun p => p.pktNum = pn := by simp
  unfold onPacketRecovered
  cases hfind : (r.sent .application).find? fun p => p.pktNum == pn with
  | none =>
    -- an unknown packet, or one that was acked or lost before
    refine ⟨?_, [], (List.append_nil _).symm, ?_⟩
    · rw [hall]
      dsimp only
      conv_lhs => rw [← List.map_id (r.sent .application)]
      apply List.map_congr_left
      intro q hq
      have hne : q.pktNum ∉ [pn] := by simpa using List.find?_eq_none.mp hfind q hq
      exact (emptied_of_not_mem hne).symm
    · rw [hone, filter_eq_nil_of_find hfind, List.flatMap_nil]
  | some p =>
    dsimp only
    refine ⟨?_, p.frames, ?_, ?_⟩
    · dsimp only
      rw [hall, Epoch.update_same]
      apply List.map_congr_left
      intro q _
      simp [emptied, Sent.bare]
    · dsimp only
      rw [Epoch.update_same]
    · rw [hone, filter_eq_of_find (h .application) hfind, List.flatMap_singleton]

private theorem recovered_handsOut (h : r.Sorted) (pns : List ℕ) :
    HandsOut .application [] pns r (pns.foldl onPacketRecovered r) := by
  induction pns generalizing r with
  | nil => exact handsOut_of_eq rfl rfl
  | cons pn pns ih =>
    exact (onPacketRecovered_handsOut h pn).trans (ih (h.recovered [pn]))

/-- Rebuilding hands nothing out in other epochs. -/
theorem recovered_of_ne (he : e ≠ .application) (pns : List ℕ) :
    HandsOut e [] [] r (pns.foldl onPacketRecovered r) := by
  induction pns generalizing r with
  | nil => exact handsOut_of_eq rfl rfl
  | cons pn pns ih =>
    obtain ⟨hsent, hacked, -⟩ := r.onPacketRecovered_of_ne he pn
    exact (handsOut_of_eq hsent hacked).trans ih

/-- The packet with the number is removed, if there is one. -/
theorem removed_handsOut (hsent : r'.sent e = (r.sent e).filter fun q => q.pktNum ≠ pn)
    (hacked : r'.acked e = r.acked e ++ ((r.sent e).filter fun q =>
      q.pktNum = pn).flatMap Sent.frames) :
    HandsOut e [pn] [] r r' where
  sent := by
    rw [hsent, emptied_nil, List.map_id]
    simp
  frames := ⟨_, hacked, by simp⟩

/-- The packet with the number is removed, those that can be rebuilt stay. -/
theorem onPacketAcked_handsOut (h : r.Sorted) (pn : ℕ) (epoch e : Epoch) :
    HandsOut e (if e = epoch then [pn] else [])
      (if e = .application then
        match (r.sent epoch).find? fun p => p.pktNum == pn with
        | some p => r.rebuilt p
        | none => []
      else []) r (r.onPacketAcked pn epoch).2 := by
  cases hfind : (r.sent epoch).find? fun p => p.pktNum == pn with
  | none =>
    -- the packet is not outstanding, and nothing is handed out
    rw [onPacketAcked, hfind]
    dsimp only
    rw [ite_self]
    split_ifs with he
    · subst he
      apply removed_handsOut
      · rw [eq_comm, List.filter_eq_self]
        intro q hq
        simpa using List.find?_eq_none.mp hfind q hq
      · rw [filter_eq_nil_of_find hfind, List.flatMap_nil, List.append_nil]
    · exact handsOut_of_eq rfl rfl
  | some p =>
    dsimp only
    obtain ⟨r', hr', hsent, hacked, -, -⟩ := r.onPacketAcked_eq hfind
    -- the packet goes, then those that its group rebuilds
    have hremoved : HandsOut e (if e = epoch then [pn] else []) [] r r' := by
      split_ifs with he
      · subst he
        apply removed_handsOut
        · rw [hsent, Epoch.update_same]
        · rw [hacked, Epoch.update_same, filter_eq_of_find (h e) hfind, List.flatMap_singleton]
      · exact handsOut_of_eq (by rw [hsent, Epoch.update_of_ne he])
          (by rw [hacked, Epoch.update_of_ne he])
    have hsorted : r'.Sorted := h.update hsent ((h epoch).filter _)
    rw [hr']
    by_cases he : e = .application
    · subst he
      have hrest := hremoved.trans (recovered_handsOut hsorted (r.rebuilt p))
      rwa [List.append_nil, List.nil_append] at hrest
    · rw [if_neg he]
      have hrest := hremoved.trans (recovered_of_ne he (r.rebuilt p))
      rwa [List.append_nil, List.nil_append] at hrest

/-- What processing every number does in an epoch. -/
theorem ackEvery_handsOut (h : r.Sorted) (epoch e : Epoch) (pns : List ℕ) (newly : Bool) :
    HandsOut e (if e = epoch then pns else [])
      (if e = .application then rebuiltBy epoch pns r else []) r
      (ackEvery epoch pns (newly, r)).2 := by
  induction pns generalizing r newly with
  | nil =>
    rw [rebuiltBy, ite_self, ite_self]
    exact handsOut_of_eq rfl rfl
  | cons pn pns ih =>
    have hstep := (onPacketAcked_handsOut h pn epoch e).trans
      (ih (h.onPacketAcked pn epoch) (newly || (r.onPacketAcked pn epoch).1))
    rw [rebuiltBy, ackEvery]
    split_ifs at hstep ⊢ <;> exact hstep

/-! ### What can be rebuilt -/

/-- A group after some of its packets were acked. -/
structure Grown (g g' : FecPacketNumbers) : Prop where
  m : g'.m = g.m
  sent : g'.sent = g.sent
  acked : g.acked.length ≤ g'.acked.length

theorem Grown.refl (g : FecPacketNumbers) : Grown g g := ⟨rfl, rfl, le_rfl⟩

theorem Grown.trans {g g' g'' : FecPacketNumbers} (h : Grown g g') (h' : Grown g' g'') :
    Grown g g'' :=
  ⟨h'.m.trans h.m, h'.sent.trans h.sent, h.acked.trans h'.acked⟩

private theorem grown_packetAcked (g : FecPacketNumbers) (pn : ℕ) : Grown g (g.packetAcked pn) := by
  refine ⟨rfl, rfl, ?_⟩
  unfold FecPacketNumbers.packetAcked
  rw [List.length_insert]
  split_ifs <;> omega

/-- An acknowledged packet is noted in its group. -/
theorem onPacketAcked_groups {p : Sent}
    (hfind : ((r.sent epoch).find? fun p => p.pktNum == pn) = some p) :
    (r.onPacketAcked pn epoch).2.pnsInFecGroup =
      (r.modifyFecGroup p.fecInfo fun g => g.packetAcked p.pktNum).pnsInFecGroup := by
  obtain ⟨r', hr', -, -, -, hgroups⟩ := r.onPacketAcked_eq hfind
  rw [hr', foldl_onPacketRecovered_pnsInFecGroup, hgroups]

/-- Only the group of the acked packet grows. -/
theorem onPacketAcked_grown {id : ℕ} {g : FecPacketNumbers} (hg : r.pnsInFecGroup id = some g) :
    ∃ g', (r.onPacketAcked pn epoch).2.pnsInFecGroup id = some g' ∧ Grown g g' := by
  cases hfind : (r.sent epoch).find? fun p => p.pktNum == pn with
  | none =>
    rw [onPacketAcked, hfind]
    exact ⟨g, hg, .refl g⟩
  | some p =>
    rw [onPacketAcked_groups hfind, modifyFecGroup]
    split_ifs with hgroup
    · exact ⟨g, hg, .refl g⟩
    · dsimp only
      split_ifs with hid
      · subst hid
        rw [hg]
        exact ⟨_, rfl, grown_packetAcked g p.pktNum⟩
      · exact ⟨g, hg, .refl g⟩

private theorem ackEvery_grown {id : ℕ} {g : FecPacketNumbers} (hg : r.pnsInFecGroup id = some g) :
    ∃ g', (ackEvery epoch pns (newly, r)).2.pnsInFecGroup id = some g' ∧ Grown g g' := by
  induction pns generalizing r newly g with
  | nil => exact ⟨g, hg, .refl g⟩
  | cons pn pns ih =>
    obtain ⟨g', hg', hgrown⟩ := @onPacketAcked_grown r epoch pn id g hg
    obtain ⟨g'', hg'', hgrown'⟩ := ih hg'
    exact ⟨g'', hg'', hgrown.trans hgrown'⟩

/-- A group none of whose packets is acked. -/
theorem ackEvery_groups_of_none {id : ℕ} (h : ∀ q ∈ r.bare epoch, q.pktNum ∈ pns →
    q.fecInfo.groupId ≠ id) :
    (ackEvery epoch pns (newly, r)).2.pnsInFecGroup id = r.pnsInFecGroup id := by
  induction pns generalizing r newly with
  | nil => rfl
  | cons pn pns ih =>
    have hrest (q : Sent) (hq : q ∈ (r.onPacketAcked pn epoch).2.bare epoch)
      (hpn : q.pktNum ∈ pns) :
        q.fecInfo.groupId ≠ id := by
      rw [onPacketAcked_bare, Epoch.update_same] at hq
      exact h q (List.mem_filter.mp hq).1 (List.mem_cons_of_mem _ hpn)
    rw [ackEvery, ih hrest]
    cases hfind : (r.sent epoch).find? fun p => p.pktNum == pn with
    | none => rw [onPacketAcked, hfind]
    | some p =>
      have hpn : p.bare.pktNum ∈ pn :: pns := by
        rw [Sent.bare_pktNum, pktNum_of_find hfind]
        exact List.mem_cons_self
      have hne : p.fecInfo.groupId ≠ id :=
        h p.bare (List.mem_map_of_mem (List.mem_of_find?_eq_some hfind)) hpn
      rw [onPacketAcked_groups hfind, modifyFecGroup]
      split_ifs
      · rfl
      · exact if_neg hne.symm

/-- A packet is rebuilt from its group, of which a packet is newly acked and enough packets are
acked. -/
theorem enough_of_rebuiltBy {n : ℕ} (hn : n ∈ rebuiltBy epoch pns r) :
    ∃ q ∈ r.bare epoch, q.pktNum ∈ pns ∧
    q.fecInfo.groupId ≠ 0 ∧ ∃ g, (ackEvery epoch pns (newly, r)).2.pnsInFecGroup q.fecInfo.groupId =
      some g ∧
      n ∈ g.sent.map Prod.snd ∧ g.m ≤ g.acked.length := by
  induction pns generalizing r newly with
  | nil => cases hn
  | cons pn pns ih =>
    rw [rebuiltBy, List.mem_append] at hn
    rcases hn with hn | hn
    · cases hfind : (r.sent epoch).find? fun p => p.pktNum == pn with
      | none =>
        rw [hfind] at hn
        cases hn
      | some p =>
        rw [hfind] at hn
        obtain ⟨hgroup, g, hg, hn⟩ := mem_rebuilt.mp hn
        obtain ⟨henough, hmember, -⟩ := FecPacketNumbers.mem_recoveredPns.mp hn
        rw [← onPacketAcked_groups hfind] at hg
        obtain ⟨g', hg', hgrown⟩ :=
          @ackEvery_grown _ epoch pns (newly || (r.onPacketAcked pn epoch).1) _ g hg
        refine ⟨p.bare, List.mem_map_of_mem (List.mem_of_find?_eq_some hfind), ?_, hgroup, g',
          hg', ?_, ?_⟩
        · rw [Sent.bare_pktNum, pktNum_of_find hfind]
          exact List.mem_cons_self
        · rw [hgrown.sent]
          exact hmember
        · rw [hgrown.m]
          exact henough.trans hgrown.acked
    · obtain ⟨q, hq, hpn, hrest⟩ :=
        @ih (r.onPacketAcked pn epoch).2 (newly || (r.onPacketAcked pn epoch).1) hn
      rw [onPacketAcked_bare, Epoch.update_same] at hq
      exact ⟨q, (List.mem_filter.mp hq).1, List.mem_cons_of_mem _ hpn, hrest⟩

/-- All packets that can be rebuilt at the end have been rebuilt. -/
theorem mem_rebuiltBy (h : r.Sorted) {q : Sent} (hq : q ∈ r.bare epoch) (hpn : q.pktNum ∈ pns)
    (hgroup : q.fecInfo.groupId ≠ 0) {g : FecPacketNumbers}
    (hg : (ackEvery epoch pns (newly, r)).2.pnsInFecGroup q.fecInfo.groupId = some g) {n : ℕ}
    (hn : n ∈ g.recoveredPns) :
    n ∈ rebuiltBy epoch pns r := by
  induction pns generalizing r newly q with
  | nil => cases hpn
  | cons pn pns ih =>
    rw [rebuiltBy, List.mem_append]
    have hleft : (r.onPacketAcked pn epoch).2.bare epoch = (r.bare epoch).filter fun p =>
        p.pktNum ≠ pn := by
      rw [onPacketAcked_bare, Epoch.update_same]
    by_cases hlater : ∃ q' ∈ (r.onPacketAcked pn epoch).2.bare epoch, q'.pktNum ∈ pns ∧
        q'.fecInfo.groupId = q.fecInfo.groupId
    · obtain ⟨q', hq', hpn', hsame⟩ := hlater
      rw [← hsame] at hg hgroup
      exact .inr (ih (h.onPacketAcked pn epoch) hq' hpn' hgroup hg)
    · -- this is the last packet of the group that is acked
      have hlast : q.pktNum = pn := by
        by_contra hne
        have hpns : q.pktNum ∈ pns := (List.mem_cons.mp hpn).resolve_left hne
        have hq' : q ∈ (r.onPacketAcked pn epoch).2.bare epoch := by
          rw [hleft]
          exact List.mem_filter.mpr ⟨hq, decide_eq_true hne⟩
        exact hlater ⟨q, hq', hpns, rfl⟩
      obtain ⟨p, hp, rfl⟩ := List.mem_map.mp hq
      have hfind : ((r.sent epoch).find? fun p => p.pktNum == pn) = some p := by
        rw [← hlast]
        exact (h epoch).find?_eq hp
      have hfinal : (r.onPacketAcked pn epoch).2.pnsInFecGroup p.fecInfo.groupId = some g := by
        rw [← hg, ackEvery]
        refine (ackEvery_groups_of_none fun q' hq' hpn' hsame => ?_).symm
        exact hlater ⟨q', hq', hpn', hsame⟩
      left
      rw [hfind]
      apply mem_rebuilt.mpr
      refine ⟨hgroup, g, ?_, hn⟩
      rw [← onPacketAcked_groups hfind, hfinal]

/-! ### ACK frames -/

private theorem handsOut_noteLargest {acked rebuilt : List ℕ} {largest : ℕ}
    (h : HandsOut e acked rebuilt (r.noteLargest epoch largest) r') :
    HandsOut e acked rebuilt r r' := ⟨h.sent, h.frames⟩

private theorem handsOut_reverse {acked rebuilt : List ℕ}
    (h : HandsOut e acked.reverse rebuilt r r') :
    HandsOut e acked rebuilt r r' where
  sent := by simpa using h.sent
  frames := by simpa using h.frames

private theorem rebuilds_noteLargest {acked rebuilt : List ℕ} {largest : ℕ}
    (h : Rebuilds epoch acked.reverse rebuilt (r.noteLargest epoch largest) r') :
    Rebuilds epoch acked rebuilt r r' where
  enough n hn := by
    obtain ⟨q, hq, hpn, hgroup⟩ := h.enough n hn
    exact ⟨q, hq, List.mem_reverse.mp hpn, hgroup⟩
  complete q hq hpn := h.complete q hq (List.mem_reverse.mpr hpn)

/-- An ACK frame whose largest number was sent acks exactly the packets that it names: the iterator
yields the numbers from behind, and it makes no difference that the scan stops early. Their frames
are handed out, and those of the packets that can be rebuilt. Then losses are detected. -/
theorem onAckReceived_exact (h : r.Sorted) {ranges : RangeSet} (hranges : ranges.Canonical)
    {largest : ℕ}
    (hlargest : ranges.largest = some largest) (hsent : largest ≤ r.largestSentPkt epoch)
    (now lossDelay : ℕ) :
    RangeSet.Yields RangeSet.Flatten.stepBack ranges.iter ranges.flatten.reverse ∧
      ∃ newly r', ackLoop epoch ranges.flatten.reverse (false, r.noteLargest epoch largest) =
        (newly, r') ∧
        ackEvery epoch ranges.flatten.reverse (false, r.noteLargest epoch largest) = (newly, r') ∧
        r.onAckReceived ranges epoch now lossDelay =
          .ok (if newly then r'.detectLostPackets epoch now lossDelay else r') ∧
        (newly = true ↔ ∃ q ∈ r.sent epoch, ranges.Has q.pktNum) ∧
        ∃ rebuilt, Rebuilds epoch ranges.flatten rebuilt r r' ∧
          ∀ e, HandsOut e (if e = epoch then ranges.flatten else [])
              (if e = .application then rebuilt else []) r r' := by
  refine ⟨hranges.yields_stepBack, ?_⟩
  have hstart : (r.noteLargest epoch largest).Sorted := h
  -- the scan steps from the largest number down, so that no packet is met twice
  have hdescending : ranges.flatten.reverse.Pairwise (· > ·) :=
    List.pairwise_reverse.mpr hranges.sorted_flatten
  have hscan : ackLoop epoch ranges.flatten.reverse (false, r.noteLargest epoch largest) = _ :=
    ackLoop_eq_ackEvery hstart hdescending
  have hout (e : Epoch) := handsOut_noteLargest
    (ackEvery_handsOut hstart epoch e ranges.flatten.reverse false)
  have hnewly : (ackEvery epoch ranges.flatten.reverse (false, r.noteLargest epoch largest)).1 =
      true ↔ _ :=
    ackEvery_newly
  have hrebuilt : Rebuilds epoch ranges.flatten _ r
      (ackEvery epoch ranges.flatten.reverse (false, r.noteLargest epoch largest)).2 :=
    rebuilds_noteLargest ⟨fun n hn => enough_of_rebuiltBy hn,
      fun q hq hpn hgroup g hg n hn => mem_rebuiltBy hstart hq hpn hgroup hg hn⟩
  cases hresult : ackEvery epoch ranges.flatten.reverse (false, r.noteLargest epoch largest) with
  | mk newly r' =>
    rw [hresult] at hscan hnewly hrebuilt
    refine ⟨newly, r', hscan, rfl, ?_, ?_, _, hrebuilt, fun e => ?_⟩
    · apply onAckReceived_eq_ok.mpr
      refine ⟨largest, hlargest, hsent, ?_⟩
      rw [hscan]
    · rw [hnewly]
      simp only [Bool.false_eq_true, false_or, List.mem_reverse, RangeSet.mem_flatten]
      constructor
      · rintro ⟨pn, hpn, q, hq, rfl⟩
        exact ⟨q, hq, hpn⟩
      · rintro ⟨q, hq, hpn⟩
        exact ⟨q.pktNum, hpn, q, hq, rfl⟩
    · -- the scan hands out in descending order, the statement lists in ascending order
      have hall := hout e
      rw [hresult] at hall
      by_cases he : e = epoch
      · rw [if_pos he] at hall ⊢
        exact handsOut_reverse hall
      · rw [if_neg he] at hall ⊢
        exact hall

/-- Two packets of a group that is rebuilt from one. -/
def groupOfTwo : Recovery :=
  (Recovery.new.onPacketSent ⟨0, [.ping], 0, 40, true, true,
    ⟨1, 1, 1, 0⟩⟩ .application 0).onPacketSent
    ⟨1, [.ping, .ping], 1, 40, true, true, ⟨1, 1, 1, 1⟩⟩ .application 1

/-- The first packet is acked, and the second one is rebuilt from it. -/
theorem onAckReceived_exact_groupOfTwo :
    ∃ r', groupOfTwo.onAckReceived ⟨[(0, 1)], List.pairwise_singleton _ _⟩
      .application 50 60 = .ok (r'.detectLostPackets .application 50 60) ∧
    ∃ rebuilt, 1 ∈ rebuilt ∧ HandsOut .application [0] rebuilt groupOfTwo r' := by
  have hsorted : groupOfTwo.Sorted := by
    intro e
    unfold Ascending
    cases e <;> decide
  have hcanonical : (⟨[(0, 1)], List.pairwise_singleton _ _⟩ : RangeSet).Canonical := by
    constructor <;> decide
  obtain ⟨-, newly, r', hscan, -, hack, hnewly, rebuilt, hrebuilt, hout⟩ :=
    @onAckReceived_exact groupOfTwo .application hsorted _ hcanonical 0 rfl (by decide) 50 60
  have hnew : newly = true :=
    hnewly.mpr ⟨⟨0, [.ping], 0, 40, true, true, ⟨1, 1, 1, 0⟩⟩, by decide, (0, 1), by decide⟩
  rw [hnew, if_pos rfl] at hack
  have hgroup : r'.pnsInFecGroup 1 = some ⟨1, 1, [(1, 1), (0, 0)], [0], []⟩ := by
    rw [← (Prod.mk.inj hscan).2]
    rfl
  exact ⟨r', hack, rebuilt, hrebuilt.complete ⟨0, [], 0, 40, true, true, ⟨1, 1, 1, 0⟩⟩ (by decide)
    (by decide) (by decide)
    _ hgroup 1 (by decide), hout .application⟩

end Recovery

end Dtp
