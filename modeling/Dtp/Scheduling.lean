import Dtp.StreamMap
import Mathlib.Data.List.Induction
import Mathlib.Data.List.Perm.Basic

/-!
# Picking the block to send next

What `peekFlushable` does to the queue of a stream map, under the assumptions of its
callers: the queue names live streams and no stream twice, and no stream was created
in the future. Late blocks leave the queue, the scheduler picks one of the others,
and that one leaves the queue as well. The DTP scheduler picks among the blocks with
data; when none has any it falls back to the block it picked last, which may be gone
from the queue, or which may not exist.

## Main definitions

* `StreamMap.Schedulable` — the assumptions
* `StreamMap.Remaining` — the queued blocks that are not late
* `StreamMap.PicksCandidate` — the pick is a queued block and only that leaves the queue
* `StreamMap.HasCandidate` — the scheduler has something to pick from

## Main results

* `StreamMap.picksCandidate_iff_hasCandidate`
* `StreamMap.not_picksCandidate` — a queue with a block without data
-/

namespace Dtp

open Lib (Program Fault)

/-! ### The queue -/

/-- Removing the element in front of `t` permutes `t`. -/
theorem swapRemoveBack_perm (p t : List ℕ) (x : ℕ) :
    ∃ t', swapRemoveBack (p ++ x :: t) p.length = p ++ t' ∧ t'.Perm t := by
  rcases List.eq_nil_or_concat t with rfl | ⟨u, y, rfl⟩
  · exact ⟨[], by simp [swapRemoveBack], .refl _⟩
  · rw [List.concat_eq_append]
    refine ⟨y :: u, ?_, (List.perm_append_singleton y u).symm⟩
    have hsplit : p ++ x :: (u ++ [y]) = (p ++ x :: u) ++ [y] := by simp
    have hset : ((p ++ x :: u) ++ [y]).set p.length y = (p ++ y :: u) ++ [y] := by
      rw [List.append_assoc, List.set_append_right _ _ le_rfl, Nat.sub_self, List.cons_append,
        List.set_cons_zero, List.append_assoc, List.cons_append]
    rw [hsplit, swapRemoveBack, List.getLast?_concat]
    simp only
    rw [if_pos (by simp), hset, List.dropLast_concat]

/-- Removing the first occurrence of `x` from the front permutes what is left. -/
theorem swapRemoveFront_perm {l : List ℕ} {x : ℕ} (hx : x ∈ l) :
    (swapRemoveFront l (l.idxOf x)).Perm (l.erase x) := by
  have hlt := List.idxOf_lt_length_of_mem hx
  match l with
  | [] => cases hx
  | y :: u =>
    rw [swapRemoveFront, List.head?_cons]
    simp only [if_pos hlt]
    by_cases hxy : y = x
    · subst hxy
      simp
    · rw [List.idxOf_cons_ne _ hxy, List.set_cons_succ, List.tail_cons,
        List.erase_cons_tail (by simpa using hxy)]
      have hxu : x ∈ u := (List.mem_cons.mp hx).resolve_left (Ne.symm hxy)
      have hset := List.set_perm_cons_eraseIdx (List.idxOf_lt_length_of_mem hxu) y
      rwa [← List.erase_eq_eraseIdx_of_idxOf rfl] at hset

/-- The scheduler drops late blocks. The external one does not in a build without the `interface`
feature. -/
def DynScheduler.drops : DynScheduler → Bool
  | .dtp _ => true
  | _ => false

/-- A scheduler that drops nothing drops no block. -/
theorem DynScheduler.shouldDropBlock_eq {s : DynScheduler} (h : s.drops = false) (pace : Pace)
    (block : Block) :
    s.shouldDropBlock pace block = some false := by
  cases s with
  | dtp _ => cases h
  | basic _ | c => rfl

namespace StreamMap

/-! ### Late blocks -/

/-- The scheduler would drop the block. -/
def isLate (m : StreamMap) (pace : Pace) (id : ℕ) : Bool :=
  (m.getBlock id).bind (m.scheduler.shouldDropBlock pace) == some true

/-- The send side of the stream has been shut down. -/
def isShut (m : StreamMap) (id : ℕ) : Bool := (m.streams id).any fun s => s.send.isShutdown

/-- The assumptions on a stream map whose queue is about to be scheduled. -/
structure Schedulable (m : StreamMap) (pace : Pace) : Prop where
  nonempty : m.flushable ≠ []
  nodup : m.flushable.Nodup
  live : ∀ id ∈ m.flushable, ∃ s, m.streams id = some s ∧ s.send.startTime ≤ pace.currentTime

/-- The queued streams are live, and none of them was created in the future. -/
def AllLive (m : StreamMap) (pace : Pace) : Prop :=
  ∀ id ∈ m.flushable, ∃ s, m.streams id = some s ∧ s.send.startTime ≤ pace.currentTime

/-- The queued blocks that are not late, in the order in which they are looked at. -/
def Remaining (m : StreamMap) (pace : Pace) : List Block :=
  (m.flushable.reverse.filter fun id => !m.isLate pace id).filterMap m.getBlock

section Late

variable {m m' : StreamMap} {pace : Pace} {id : ℕ} {s : Stream}

/-- A block has the id of its stream. -/
theorem getBlock_id {block : Block} (h : m.getBlock id = some block) : block.blockId = id := by
  obtain ⟨s, -, rfl⟩ := Option.map_eq_some_iff.mp h
  rfl

/-- A block depends on its stream only. -/
theorem getBlock_congr (h : m'.streams id = m.streams id) : m'.getBlock id = m.getBlock id := by
  rw [getBlock, getBlock, h]

private theorem isLate_congr (h : m'.streams id = m.streams id) (hs : m'.scheduler = m.scheduler) :
    m'.isLate pace id = m.isLate pace id := by
  rw [isLate, isLate, getBlock_congr h, hs]

/-- Where a block is late, the scheduler drops late blocks. -/
theorem drops_of_isLate (h : m.isLate pace id = true) : m.scheduler.drops = true := by
  by_contra hdrops
  unfold isLate at h
  cases hblock : m.getBlock id with
  | none => simp [hblock] at h
  | some block => simp [hblock, DynScheduler.shouldDropBlock_eq (Bool.not_eq_true _ ▸ hdrops)] at h

/-- For a live stream from the past, the scheduler decides without a panic. -/
theorem shouldDrop_eq (hs : m.streams id = some s) (hpast : s.send.startTime ≤ pace.currentTime) :
    ∃ block, m.getBlock id = some block ∧
      m.scheduler.shouldDropBlock pace block = some (m.isLate pace id) := by
  refine ⟨_, by rw [getBlock, hs]; rfl, ?_⟩
  rw [isLate, getBlock, hs]
  cases m.scheduler with
  | dtp d =>
    simp only [Option.map_some, Option.bind_some, DynScheduler.shouldDropBlock,
      DtpScheduler.shouldDropBlock, if_neg hpast.not_gt]
    by_cases h : s.send.deadline < pace.currentTime - s.send.startTime <;> simp [h]
  | basic b => rfl
  | c => rfl

end Late

/-! ### The loop that drops late blocks -/

/-- The map after `id` has been cancelled. -/
def cancelled (m : StreamMap) (id : ℕ) (s : Stream) : StreamMap :=
  ({ m with
      canceled := m.canceled.insert id
      canceledDepend := m.canceledDepend.insert id }.putSend id s
    { s.send with isShutdown := true, data := .empty }).markWritable id false

/-- A block is canceled unless its stream is shut. -/
theorem cancelBlock_apply {m : StreamMap} {id : ℕ} {s : Stream} (hs : m.streams id = some s) :
    cancelBlock id m = if s.send.isShutdown then
        .error (.error .done)
          { m with canceled := m.canceled.insert id, canceledDepend := m.canceledDepend.insert id }
      else .ok () (m.cancelled id s) := by
  unfold cancelBlock
  cases h : s.send.isShutdown <;>
    simp [Program.bind_apply, hs, SendBuf.shutdown, h, cancelled]

/-- A relation is kept if it holds to the map that lists the block, and to the one in which the
block is cancelled. -/
theorem cancelBlock_keeps {R : StreamMap → StreamMap → Prop} {id : ℕ} {m : StreamMap}
    (hlisted : ∀ s, m.streams id = some s → s.send.isShutdown = true → R m
      { m with canceled := m.canceled.insert id, canceledDepend := m.canceledDepend.insert id })
    (hcancelled : ∀ s, m.streams id = some s → R m (m.cancelled id s)) :
    (cancelBlock id).Keeps R m := by
  cases live : m.streams id with
  | none => simp [Program.Keeps, cancelBlock, live]
  | some s =>
    simp only [Program.Keeps, Program.Ends, cancelBlock_apply live]
    by_cases hshut : s.send.isShutdown = true
    · rw [if_pos hshut]
      exact fun _ => hlisted s live hshut
    · rw [if_neg hshut]
      exact hcancelled s live

/-- What the loop leaves of a queue: the blocks of `p` that are late are shut down,
the others and `t` stay queued. -/
structure Dropped (m : StreamMap) (pace : Pace) (p t : List ℕ) (m' : StreamMap) : Prop where
  flushable : m'.flushable.Perm ((p.filter fun id => !m.isLate pace id) ++ t)
  scheduler : m'.scheduler = m.scheduler
  streams : ∀ id, m'.streams id =
    if id ∈ p ∧ m.isLate pace id = true then
      (m.streams id).map fun s =>
        { s with send := { s.send with isShutdown := true, data := .empty } }
    else m.streams id
  canceled : ∀ id, id ∈ m'.canceled ↔ id ∈ m.canceled ∨ id ∈ p ∧ m.isLate pace id = true

/-- One turn of the loop. -/
theorem dropLoop_succ {pace : Pace} {p t : List ℕ} {x : ℕ} {m : StreamMap} (blocks : List Block)
    {s : Stream} (hq : m.flushable = p ++ x :: t) (hs : m.streams x = some s)
    (hpast : s.send.startTime ≤ pace.currentTime) :
    ∃ block t', m.getBlock x = some block ∧ t'.Perm t ∧
      dropLoop pace (p.length + 1) blocks m =
        if m.isLate pace x then
          if s.send.isShutdown then
            .error (.error .done)
              { m with
                canceled := m.canceled.insert x, canceledDepend := m.canceledDepend.insert x }
          else dropLoop pace p.length blocks ((m.cancelled x s).setFlushable (p ++ t'))
        else dropLoop pace p.length (blocks ++ [block]) m := by
  obtain ⟨block, hblock, hdrop⟩ := shouldDrop_eq hs hpast
  obtain ⟨t', hswap, hperm⟩ := swapRemoveBack_perm p t x
  refine ⟨block, t', hblock, hperm, ?_⟩
  have hx : m.flushable[p.length]? = some x := by simp [hq]
  have hcancelled : (m.cancelled x s).flushable = p ++ x :: t := hq
  rw [dropLoop]
  simp only [Program.bind_apply, Program.get_apply, hx, Program.unwrap_some, Program.pure_apply,
    hblock, hdrop]
  cases m.isLate pace x
  · rfl
  · simp only [if_true, Program.bind_apply, cancelBlock_apply hs]
    cases s.send.isShutdown
    · simp only [Bool.false_eq_true, if_false, Program.modify_apply, hcancelled, hswap]
    · rfl

section CancelOne

variable {m : StreamMap} {x : ℕ} {s : Stream} {q : List ℕ}

/-- Other streams stay. -/
theorem cancelled_streams_of_ne {id : ℕ} (h : id ≠ x) :
    ((m.cancelled x s).setFlushable q).streams id = m.streams id := if_neg h

/-- Other blocks are as late as before. -/
theorem cancelled_isLate_of_ne {pace : Pace} {id : ℕ} (h : id ≠ x) :
    ((m.cancelled x s).setFlushable q).isLate pace id = m.isLate pace id :=
  isLate_congr (if_neg h) rfl

/-- Other streams are shut or not as before. -/
theorem cancelled_isShut_of_ne {id : ℕ} (h : id ≠ x) :
    ((m.cancelled x s).setFlushable q).isShut id = m.isShut id := by
  rw [isShut, isShut, cancelled_streams_of_ne h]

end CancelOne

/-- If a late block is already shut down, the loop stops with `Done`. -/
theorem dropLoop_error {pace : Pace} {p t : List ℕ} {m : StreamMap} (blocks : List Block)
    (hq : m.flushable = p ++ t) (hnodup : m.scheduler.drops = true → p.Nodup)
    (hlive : ∀ id ∈ p, ∃ s, m.streams id = some s ∧ s.send.startTime ≤ pace.currentTime)
    (hshut : ∃ id ∈ p, m.isLate pace id = true ∧ m.isShut id = true) :
    ∃ m', dropLoop pace p.length blocks m = .error (.error .done) m' := by
  induction p using List.reverseRecOn generalizing t m blocks with
  | nil =>
    obtain ⟨id, hid, -⟩ := hshut
    cases hid
  | append_singleton p x ih =>
    obtain ⟨s, hs, hpast⟩ := hlive x (by simp)
    rw [List.append_assoc, List.singleton_append] at hq
    obtain ⟨block, t', -, -, hstep⟩ := dropLoop_succ blocks hq hs hpast
    have hne (hdrops : m.scheduler.drops = true) : ∀ id ∈ p, id ≠ x := fun id hid h =>
      (List.nodup_append.mp (hnodup hdrops)).2.2 id hid x (by simp) h
    have hp (hdrops : m.scheduler.drops = true) : p.Nodup :=
      (List.nodup_append.mp (hnodup hdrops)).1
    rw [List.length_append, List.length_singleton, hstep]
    obtain ⟨id, hid, hlate, hidshut⟩ := hshut
    by_cases hx : m.isLate pace x = true
    · have hne := hne (drops_of_isLate hx)
      rw [if_pos hx]
      -- the late block is the one that is shut, or comes before it
      by_cases hsx : s.send.isShutdown = true
      · exact ⟨_, if_pos hsx⟩
      · rw [if_neg hsx]
        have hidp : id ∈ p := by
          rcases List.mem_append.mp hid with h | h
          · exact h
          · obtain rfl := List.mem_singleton.mp h
            simp [isShut, hs, hsx] at hidshut
        refine ih blocks rfl hp (fun i hi => ?_) ⟨id, hidp, ?_, ?_⟩
        · rw [cancelled_streams_of_ne (hne i hi)]
          exact hlive i (List.mem_append_left _ hi)
        · rw [cancelled_isLate_of_ne (hne id hidp)]
          exact hlate
        · rw [cancelled_isShut_of_ne (hne id hidp)]
          exact hidshut
    · rw [if_neg hx]
      have hidp : id ∈ p := by
        rcases List.mem_append.mp hid with h | h
        · exact h
        · obtain rfl := List.mem_singleton.mp h
          exact absurd hlate hx
      exact ih _ hq hp (fun i hi => hlive i (List.mem_append_left _ hi)) ⟨id, hidp, hlate, hidshut⟩

/-- If no late block is shut down already, the loop shuts the late ones down and
gathers the others. -/
theorem dropLoop_ok {pace : Pace} {p t : List ℕ} {m : StreamMap} (blocks : List Block)
    (hq : m.flushable = p ++ t) (hnodup : m.scheduler.drops = true → p.Nodup)
    (hlive : ∀ id ∈ p, ∃ s, m.streams id = some s ∧ s.send.startTime ≤ pace.currentTime)
    (hshut : ∀ id ∈ p, m.isLate pace id = true → m.isShut id = false) :
    ∃ m', dropLoop pace p.length blocks m =
        .ok (blocks ++ (p.reverse.filter fun id => !m.isLate pace id).filterMap m.getBlock) m' ∧
      Dropped m pace p t m' := by
  -- the queue is walked from its back
  induction p using List.reverseRecOn generalizing t m blocks with
  | nil =>
    refine ⟨m, by simp [dropLoop], ?_, rfl, ?_, ?_⟩ <;> simp [hq]
  | append_singleton p x ih =>
    obtain ⟨s, hs, hpast⟩ := hlive x (by simp)
    rw [List.append_assoc, List.singleton_append] at hq
    obtain ⟨block, t', hblock, hperm, hstep⟩ := dropLoop_succ blocks hq hs hpast
    have hne (hdrops : m.scheduler.drops = true) : ∀ id ∈ p, id ≠ x := fun id hid h =>
      (List.nodup_append.mp (hnodup hdrops)).2.2 id hid x (by simp) h
    have hp (hdrops : m.scheduler.drops = true) : p.Nodup :=
      (List.nodup_append.mp (hnodup hdrops)).1
    rw [List.length_append, List.length_singleton, hstep]
    by_cases hx : m.isLate pace x = true
    · -- the block is late: its stream is canceled, which changes no other one
      have hne := hne (drops_of_isLate hx)
      have hsx : s.send.isShutdown = false := by
        simpa [isShut, hs] using hshut x (by simp) hx
      rw [if_pos hx, if_neg (by simp [hsx])]
      obtain ⟨m', heq, hd⟩ := ih (m := ((m.cancelled x s).setFlushable (p ++ t')))
        blocks rfl hp
        (fun i hi => by
          rw [cancelled_streams_of_ne (hne i hi)]
          exact hlive i (List.mem_append_left _ hi))
        (fun i hi => by
          rw [cancelled_isLate_of_ne (hne i hi), cancelled_isShut_of_ne (hne i hi)]
          exact hshut i (List.mem_append_left _ hi))
      have hlate : ∀ i ∈ p, ((m.cancelled x s).setFlushable (p ++ t')).isLate pace i =
          m.isLate pace i := fun i hi => cancelled_isLate_of_ne (hne i hi)
      have hfilter : ∀ l : List ℕ, (∀ i ∈ l, i ∈ p) →
          (l.filter fun id => !((m.cancelled x s).setFlushable (p ++ t')).isLate pace id) =
            l.filter fun id => !m.isLate pace id := fun l hl =>
        List.filter_congr fun i hi => by rw [hlate i (hl i hi)]
      refine ⟨m', ?_, ?_, hd.scheduler, fun id => ?_, fun id => ?_⟩
      · rw [heq, hfilter p.reverse fun i hi => List.mem_reverse.mp hi]
        have hmap : (p.reverse.filter fun id => !m.isLate pace id).filterMap
            ((m.cancelled x s).setFlushable (p ++ t')).getBlock =
              (p.reverse.filter fun id => !m.isLate pace id).filterMap m.getBlock := by
          refine List.filterMap_congr fun i hi => getBlock_congr ?_
          exact cancelled_streams_of_ne (hne i (List.mem_reverse.mp (List.mem_filter.mp hi).1))
        rw [hmap]
        simp [hx]
      · have hrest := hd.flushable
        rw [hfilter p fun _ hi => hi] at hrest
        simpa [hx] using hrest.trans (hperm.append_left _)
      · rw [hd.streams]
        by_cases hid : id = x
        · subst hid
          have hnot : id ∉ p := fun h => hne id h rfl
          simp [hnot, hx, setFlushable, cancelled, markWritable, putSend, put, hs]
        · rw [cancelled_streams_of_ne hid, cancelled_isLate_of_ne hid]
          simp [hid]
      · rw [hd.canceled]
        by_cases hid : id = x
        · subst hid
          simp [setFlushable, cancelled, markWritable, putSend, put, hx]
        · rw [cancelled_isLate_of_ne hid]
          simp [setFlushable, cancelled, markWritable, putSend, put, hid]
    · rw [if_neg hx]
      -- the block is kept
      obtain ⟨m', heq, hd⟩ := ih (blocks ++ [block]) hq hp
        (fun i hi => hlive i (List.mem_append_left _ hi))
        (fun i hi => hshut i (List.mem_append_left _ hi))
      refine ⟨m', ?_, ?_, hd.scheduler, fun id => ?_, fun id => ?_⟩
      · rw [heq]
        simp [hx, hblock]
      · simpa [hx] using hd.flushable
      · rw [hd.streams]
        by_cases hid : id = x
        · subst hid
          simp [hx]
        · simp [hid]
      · rw [hd.canceled]
        by_cases hid : id = x
        · subst hid
          simp [hx]
        · simp [hid]

/-! ### The pick -/

private theorem lighter_eq (best : Option (Block × Float)) (block : Block) (w : Float) :
    DtpScheduler.lighter best block w = some (block, w) ∨
      best ≠ none ∧ DtpScheduler.lighter best block w = best := by
  cases best with
  | none => exact .inl rfl
  | some min =>
    rw [DtpScheduler.lighter]
    split_ifs
    · exact .inl rfl
    · exact .inr ⟨by simp, rfl⟩

/-- The DTP scheduler finds a block among those with data, if there is one. -/
theorem leastWeight_spec (d : DtpScheduler) {pace : Pace} (best : Option (Block × Float))
    {blocks : List Block} (hpast : ∀ b ∈ blocks, b.blockCreateTime ≤ pace.currentTime) :
    ∃ best', d.leastWeight pace best blocks = some best' ∧
      (best' = none ↔ best = none ∧ ∀ b ∈ blocks, b.remainingSize = 0) ∧
      ∀ p, best' = some p → p.1 ∈ blocks ∨ best = some p := by
  induction blocks generalizing best with
  | nil => exact ⟨best, rfl, by simp, fun p hp => .inr hp⟩
  | cons b blocks ih =>
    obtain ⟨hb, hrest⟩ := List.forall_mem_cons.mp hpast
    rw [DtpScheduler.leastWeight]
    split_ifs with hpos hfuture
    · omega
    · have hlight := lighter_eq best b (d.weight pace b (pace.currentTime - b.blockCreateTime))
      obtain ⟨best', heq, hnone, hmem⟩ :=
        ih (DtpScheduler.lighter best b
          (d.weight pace b (pace.currentTime - b.blockCreateTime))) hrest
      refine ⟨best', heq, ?_, fun p hp => ?_⟩
      · have hb0 : b.remainingSize ≠ 0 := by omega
        have hne : DtpScheduler.lighter best b
            (d.weight pace b (pace.currentTime - b.blockCreateTime)) ≠ none := by
          rcases hlight with h | ⟨h, heq⟩
          · simp [h]
          · rwa [heq]
        simp [hnone, hne, hb0]
      · rcases hmem p hp with h | h
        · exact .inl (List.mem_cons_of_mem _ h)
        · rcases hlight with h' | ⟨-, h'⟩
          · rw [h'] at h
            obtain rfl := Option.some.inj h
            exact .inl (List.mem_cons_self ..)
          · rw [h'] at h
            exact .inr h
    · obtain ⟨best', heq, hnone, hmem⟩ := ih best hrest
      refine ⟨best', heq, ?_, fun p hp => ?_⟩
      · have : b.remainingSize = 0 := by omega
        simp [hnone, this]
      · exact (hmem p hp).imp_left (List.mem_cons_of_mem _)

end StreamMap

/-- The scheduler has a block to pick: the basic one always, the DTP one a block that
has data or the one it picked last, the external one, in a build without the `interface` feature,
block 0. -/
def DynScheduler.HasPick (s : DynScheduler) (blocks : List Block) : Prop :=
  match s with
  | .basic _ => True
  | .dtp d =>
    (∃ b ∈ blocks, 0 < b.remainingSize) ∨ ∃ b ∈ blocks, d.lastBlockId = some b.blockId
  | .c => ∃ b ∈ blocks, b.blockId = 0

/-- The basic scheduler picks one of the blocks it is given. -/
theorem BasicScheduler.selectBlock_mem {s : BasicScheduler} {blocks : List Block}
    (hne : blocks ≠ []) : ∃ b ∈ blocks, ∃ s', s.selectBlock blocks = some (b.blockId, s') := by
  unfold selectBlock
  by_cases h : s.lastRemaining blocks = 0
  · obtain ⟨b, hb⟩ := Option.ne_none_iff_exists'.mp (mt List.head?_eq_none_iff.mp hne)
    exact ⟨b, List.mem_of_head? hb, _, by rw [if_pos h, hb]; rfl⟩
  · -- the last block is among the blocks, since it has data
    unfold lastRemaining at h
    cases hfind : blocks.find? fun block => some block.blockId == s.lastBlockId with
    | none => simp [hfind] at h
    | some b =>
      have hb : some b.blockId = s.lastBlockId := by simpa using List.find?_some hfind
      refine ⟨b, List.mem_of_find?_eq_some hfind, s, ?_⟩
      unfold lastRemaining
      rw [if_neg (by simpa [hfind] using h), ← hb]
      rfl

/-- The scheduler selects one of the blocks. -/
theorem DynScheduler.selectBlock_of_hasPick {s : DynScheduler} {pace : Pace}
    {blocks : List Block} (hne : blocks ≠ [])
    (hpast : ∀ b ∈ blocks, b.blockCreateTime ≤ pace.currentTime) (h : s.HasPick blocks) :
    ∃ b ∈ blocks, ∃ s', s.selectBlock pace blocks = some (b.blockId, s') := by
  cases s with
  | basic d =>
    obtain ⟨b, hb, s', heq⟩ := BasicScheduler.selectBlock_mem (s := d) hne
    exact ⟨b, hb, .basic s', by rw [selectBlock, heq]; rfl⟩
  | dtp d =>
    obtain ⟨best, heq, hnone, hmem⟩ := StreamMap.leastWeight_spec d none hpast
    cases best with
    | some p =>
      have hp := (hmem p rfl).resolve_right (by simp)
      exact ⟨p.1, hp, _, by simp [selectBlock, DtpScheduler.selectBlock, heq]; rfl⟩
    | none =>
      have hzero := (hnone.mp rfl).2
      rcases h with ⟨b, hb, hpos⟩ | ⟨b, hb, hlast⟩
      · have := hzero b hb
        omega
      · exact ⟨b, hb, _, by simp [selectBlock, DtpScheduler.selectBlock, heq, hlast]; rfl⟩
  | c =>
    obtain ⟨b, hb, h0⟩ := h
    exact ⟨b, hb, .c, by rw [selectBlock, h0]⟩

private theorem DynScheduler.selectBlock_of_not_hasPick {s : DynScheduler} {pace : Pace}
    {blocks : List Block} (hpast : ∀ b ∈ blocks, b.blockCreateTime ≤ pace.currentTime)
    (h : ¬ s.HasPick blocks) {id : ℕ} {s' : DynScheduler}
    (heq : s.selectBlock pace blocks = some (id, s')) : ∀ b ∈ blocks, b.blockId ≠ id := by
  rintro b hb rfl
  cases s with
  | basic d => exact h trivial
  | dtp d =>
    obtain ⟨best, hbest, hnone, -⟩ := StreamMap.leastWeight_spec d none hpast
    refine h (.inr ⟨b, hb, ?_⟩)
    have hzero : best = none := hnone.mpr ⟨rfl, fun c hc => ?_⟩
    · subst hzero
      simp only [selectBlock, DtpScheduler.selectBlock, hbest, Option.map_map,
        Option.map_eq_some_iff] at heq
      obtain ⟨last, hlast, hlast'⟩ := heq
      rw [hlast, ← (Prod.mk.inj hlast').1]
    · by_contra hpos
      exact h (.inl ⟨c, hc, by omega⟩)
  | c => exact h ⟨b, hb, (Prod.mk.inj (Option.some.inj heq)).1.symm⟩

namespace StreamMap

/-- The block was cancelled between `m` and `m'`. -/
def CancelledBy (m m' : StreamMap) (id : ℕ) : Bool := !m.isShut id && m'.isShut id

/-- What is expected of `peekFlushable`: a pick is a queued block that was not
cancelled, and the queue loses just the pick and the cancelled blocks; nothing is picked
only when every queued block was cancelled; it does not panic. -/
def PicksCandidate (m : StreamMap) (pace : Pace) : Prop :=
  match peekFlushable pace m with
  | .ok (some id) m' =>
    id ∈ m.flushable ∧ m.CancelledBy m' id = false ∧
      m'.flushable.Perm ((m.flushable.filter fun id => !m.CancelledBy m' id).erase id)
  | .ok none m' => (∀ id ∈ m.flushable, m.CancelledBy m' id = true) ∧ m'.flushable = []
  | .error (.error _) _ => True
  | .error _ _ => False

/-- The scheduler is not asked, or has something to pick: a late block was shut down
before, or all blocks are late, or one of the others can be picked. -/
def HasCandidate (m : StreamMap) (pace : Pace) : Prop :=
  (∃ id ∈ m.flushable, m.isLate pace id = true ∧ m.isShut id = true) ∨
    m.Remaining pace = [] ∨ m.scheduler.HasPick (m.Remaining pace)

/-- Looking at the blocks of live streams does nothing. -/
theorem forM_getBlock {m : StreamMap} (ids : List ℕ) (h : ∀ id ∈ ids, ∃ s, m.streams id = some s) :
    (forM ids fun id => (discard (Program.unwrap (m.getBlock id)) : Program Error StreamMap Unit)) m
      = .ok () m := by
  induction ids with
  | nil => rfl
  | cons id ids ih =>
    obtain ⟨⟨s, hs⟩, hrest⟩ := List.forall_mem_cons.mp h
    rw [List.forM_cons, Program.bind_apply, getBlock, hs]
    exact ih hrest

/-- Live streams, each queued once where late ones are dropped: an error when a late block is shut
down already, otherwise the late blocks are dropped and the scheduler picks from the others. -/
theorem peekFlushable_eq {m : StreamMap} {pace : Pace}
    (hnodup : m.scheduler.drops = true → m.flushable.Nodup) (h : m.AllLive pace) :
    ((∃ id ∈ m.flushable, m.isLate pace id = true ∧ m.isShut id = true) →
      ∃ m', peekFlushable pace m = .error (.error .done) m') ∧
    ((∀ id ∈ m.flushable, m.isLate pace id = true → m.isShut id = false) →
      ∃ m', Dropped m pace m.flushable [] m' ∧
        peekFlushable pace m =
          if m.Remaining pace = [] then .ok none m'
          else match m.scheduler.selectBlock pace (m.Remaining pace) with
            | none => .error .panic m'
            | some (id, scheduler) =>
              .ok (some id) ((m'.setScheduler scheduler).takeFlushable id)) := by
  by_cases hnil : m.flushable = []
  · refine ⟨fun ⟨id, hid, _⟩ => ?_, fun _ => ⟨m, ?_, ?_⟩⟩
    · rw [hnil] at hid
      cases hid
    · refine ⟨?_, rfl, ?_, ?_⟩ <;> simp [hnil]
    · have hremaining : m.Remaining pace = [] := by simp [Remaining, hnil]
      rw [if_pos hremaining, peekFlushable, Program.bind_apply, Program.get_apply]
      simp [hnil]
  have hq : m.flushable = m.flushable ++ [] := by simp
  have hlook := forM_getBlock (m := m) m.flushable.reverse fun id hid =>
    (h id (List.mem_reverse.mp hid)).imp fun _ hs => hs.1
  -- what follows the loop depends on its outcome alone
  have hrun : ∀ r, dropLoop pace m.flushable.length [] m = r →
      peekFlushable pace m = match r with
        | .error e m' => .error e m'
        | .ok blocks m' =>
          if blocks = [] then .ok none m'
          else match m'.scheduler.selectBlock pace blocks with
            | none => .error .panic m'
            | some (id, scheduler) =>
              .ok (some id) ((m'.setScheduler scheduler).takeFlushable id) := by
    rintro r rfl
    unfold peekFlushable
    rw [Program.bind_apply, Program.get_apply]
    simp only [List.isEmpty_iff, if_neg hnil, Program.bind_apply, hlook]
    cases dropLoop pace m.flushable.length [] m with
    | error e m' => rfl
    | ok blocks m' =>
      simp only
      split_ifs with hb
      · rfl
      · cases hpick : m'.scheduler.selectBlock pace blocks <;>
          simp [Program.bind_apply, Program.map_apply, hpick]
  constructor
  · intro hshut
    obtain ⟨m', heq⟩ := dropLoop_error [] hq hnodup h hshut
    exact ⟨m', hrun _ heq⟩
  · intro hshut
    obtain ⟨m', heq, hd⟩ := dropLoop_ok [] hq hnodup h hshut
    refine ⟨m', hd, ?_⟩
    rw [hrun _ heq, ← hd.scheduler]
    rfl

/-- The blocks that the scheduler is asked about are not from the future. -/
theorem AllLive.remaining_past {m : StreamMap} {pace : Pace} (h : m.AllLive pace) :
    ∀ b ∈ m.Remaining pace, b.blockCreateTime ≤ pace.currentTime := by
  intro b hb
  obtain ⟨id, hid, hblock⟩ := List.mem_filterMap.mp hb
  obtain ⟨s, hs, hpast⟩ := h id (List.mem_reverse.mp (List.mem_filter.mp hid).1)
  obtain ⟨s', hs', rfl⟩ := Option.map_eq_some_iff.mp hblock
  obtain rfl := Option.some.inj (hs.symm.trans hs')
  exact hpast

/-- The remaining blocks are the queued ones that are not late. -/
theorem AllLive.mem_remaining {m : StreamMap} {pace : Pace} (h : m.AllLive pace)
    {id : ℕ} : (∃ b ∈ m.Remaining pace, b.blockId = id) ↔
      id ∈ m.flushable ∧ m.isLate pace id = false := by
  constructor
  · rintro ⟨b, hb, rfl⟩
    obtain ⟨id, hid, hblock⟩ := List.mem_filterMap.mp hb
    rw [getBlock_id hblock]
    obtain ⟨hmem, hlate⟩ := List.mem_filter.mp hid
    exact ⟨List.mem_reverse.mp hmem, by simpa using hlate⟩
  · rintro ⟨hmem, hlate⟩
    obtain ⟨s, hs, -⟩ := h id hmem
    obtain ⟨b, hb⟩ : ∃ b, m.getBlock id = some b := ⟨_, by rw [getBlock, hs]; rfl⟩
    refine ⟨b, List.mem_filterMap.mpr ⟨id, List.mem_filter.mpr ⟨?_, ?_⟩, hb⟩, getBlock_id hb⟩
    · exact List.mem_reverse.mpr hmem
    · simp [hlate]

private theorem AllLive.remaining_eq_nil_iff {m : StreamMap} {pace : Pace} (h : m.AllLive pace) :
    m.Remaining pace = [] ↔ ∀ id ∈ m.flushable, m.isLate pace id = true := by
  rw [List.eq_nil_iff_forall_not_mem]
  constructor
  · intro hnil id hid
    by_contra hlate
    obtain ⟨b, hb, -⟩ := h.mem_remaining.mpr ⟨hid, by simpa using hlate⟩
    exact hnil b hb
  · intro hall b hb
    obtain ⟨hid, hlate⟩ := h.mem_remaining.mp ⟨b, hb, rfl⟩
    rw [hall _ hid] at hlate
    cases hlate

/-- The blocks that a call cancels are the late ones in the queue. -/
theorem Dropped.cancelledBy {m m' : StreamMap} {pace : Pace}
    (h : Dropped m pace m.flushable [] m')
    (hlive : ∀ id ∈ m.flushable, ∃ s, m.streams id = some s)
    (hshut : ∀ id ∈ m.flushable, m.isLate pace id = true → m.isShut id = false) (id : ℕ)
    (hid : id ∈ m.flushable) : m.CancelledBy m' id = m.isLate pace id := by
  obtain ⟨s, hs⟩ := hlive id hid
  have hstream := h.streams id
  unfold CancelledBy isShut
  by_cases hlate : m.isLate pace id = true
  · have hsx : s.send.isShutdown = false := by simpa [isShut, hs] using hshut id hid hlate
    rw [if_pos ⟨hid, hlate⟩, hs] at hstream
    simp [hstream, hs, hsx, hlate]
  · rw [if_neg (by simp [hlate]), hs] at hstream
    simp [hstream, hs, hlate]

/-- For live streams, each queued once where late ones are dropped, `peekFlushable` does what is
expected of it exactly when the scheduler is not asked or has something to pick. -/
theorem AllLive.picks_iff {m : StreamMap} {pace : Pace} (h : m.AllLive pace)
    (hnodup : m.scheduler.drops = true → m.flushable.Nodup) :
    m.PicksCandidate pace ↔ m.HasCandidate pace := by
  obtain ⟨herror, hok⟩ := peekFlushable_eq hnodup h
  unfold PicksCandidate HasCandidate
  by_cases hshut : ∃ id ∈ m.flushable, m.isLate pace id = true ∧ m.isShut id = true
  · -- a late stream that is shut ends the call with an error
    obtain ⟨m', heq⟩ := herror hshut
    rw [heq]
    exact iff_of_true trivial (.inl hshut)
  have hnshut : ∀ id ∈ m.flushable, m.isLate pace id = true → m.isShut id = false := by
    intro id hid hlate
    by_contra hs
    exact hshut ⟨id, hid, hlate, by simpa using hs⟩
  obtain ⟨m', hd, heq⟩ := hok hnshut
  have hcancel := fun id => hd.cancelledBy
    (fun i hi => (h i hi).imp fun _ hs => hs.1) hnshut id
  rw [heq, or_iff_right hshut]
  by_cases hnil : m.Remaining pace = []
  · rw [if_pos hnil]
    -- all blocks are late
    have hall := h.remaining_eq_nil_iff.mp hnil
    refine iff_of_true ⟨fun id hid => ?_, ?_⟩ (.inl hnil)
    · rw [hcancel id hid]
      exact hall id hid
    · have hflush := hd.flushable
      rw [List.append_nil, List.filter_eq_nil_iff.mpr fun id hid => by simp [hall id hid]] at hflush
      exact hflush.eq_nil
  rw [if_neg hnil, or_iff_right hnil]
  by_cases hpick : m.scheduler.HasPick (m.Remaining pace)
  · obtain ⟨b, hb, s', hsel⟩ :=
      DynScheduler.selectBlock_of_hasPick hnil h.remaining_past hpick
    obtain ⟨hid, hlate⟩ := h.mem_remaining.mp ⟨b, hb, rfl⟩
    -- the pick is taken out of what is left of the queue
    have hperm : m'.flushable.Perm (m.flushable.filter fun id => !m.isLate pace id) := by
      simpa using hd.flushable
    have hid' : b.blockId ∈ m'.flushable :=
      hperm.mem_iff.mpr (List.mem_filter.mpr ⟨hid, by simp [hlate]⟩)
    have htake : (m'.setScheduler s').takeFlushable b.blockId = (m'.setScheduler s').setFlushable
        (swapRemoveFront m'.flushable (m'.flushable.idxOf b.blockId)) := if_pos hid'
    simp only [hsel, htake]
    refine iff_of_true ⟨hid, (hcancel _ hid).trans hlate, ?_⟩ hpick
    have hfilter : (m.flushable.filter fun id => !m.CancelledBy ((m'.setScheduler s').setFlushable
        (swapRemoveFront m'.flushable (m'.flushable.idxOf b.blockId))) id) =
          m.flushable.filter fun id => !m.isLate pace id :=
      List.filter_congr fun id hid => congrArg (!·) (hcancel id hid)
    rw [hfilter]
    exact (swapRemoveFront_perm hid').trans (hperm.erase _)
  · refine iff_of_false ?_ hpick
    -- what the scheduler selects instead is not one of the blocks
    cases hsel : m.scheduler.selectBlock pace (m.Remaining pace) with
    | none => exact id
    | some p =>
      rintro ⟨hid, hncancel, -⟩
      have htake : ((m'.setScheduler p.2).takeFlushable p.1).streams = m'.streams := by
        unfold takeFlushable
        split_ifs <;> rfl
      have hsame : m.CancelledBy ((m'.setScheduler p.2).takeFlushable p.1) p.1 =
          m.CancelledBy m' p.1 := by
        rw [CancelledBy, CancelledBy, isShut, isShut, isShut, htake]
      rw [hsame, hcancel _ hid] at hncancel
      obtain ⟨b, hb, hbid⟩ := h.mem_remaining.mpr ⟨hid, hncancel⟩
      exact DynScheduler.selectBlock_of_not_hasPick h.remaining_past hpick hsel b hb hbid

/-- Under the assumptions on the queue, `peekFlushable` does what is expected of it
exactly when the scheduler is not asked or has something to pick. -/
theorem picksCandidate_iff_hasCandidate (m : StreamMap) (pace : Pace) (h : m.Schedulable pace) :
    m.PicksCandidate pace ↔ m.HasCandidate pace := by
  have hlive : m.AllLive pace := h.live
  exact hlive.picks_iff fun _ => h.nodup

/-- A stream that has nothing to send but the end of the stream. -/
def finOnly : Stream :=
  let s := Stream.newFull 0 100 false true 200 1 0
  { s with send := { s.send with finOff := some 0 } }

/-- A map whose queue holds one zero-length end of stream, and a DTP scheduler that has
picked no block yet. -/
def queuedFin : StreamMap :=
  (((StreamMap.new 0 0 (.dtp {})).put 2 finOnly).pushFlushable 2)

theorem queuedFin_schedulable : queuedFin.Schedulable ⟨100.0, 50.0, 0, 10⟩ where
  nonempty := by decide
  nodup := by decide
  live id hid := by
    obtain rfl := List.mem_singleton.mp hid
    exact ⟨finOnly, rfl, by decide⟩

/-- The DTP scheduler panics when the one queued block has no data. -/
theorem not_picksCandidate :
    ¬ ∀ m : StreamMap, ∀ pace, m.Schedulable pace → m.PicksCandidate pace := by
  intro h
  have hpick := h queuedFin _ queuedFin_schedulable
  have hpanic : ∃ m', peekFlushable ⟨100.0, 50.0, 0, 10⟩ queuedFin = .error .panic m' := ⟨_, rfl⟩
  obtain ⟨m', hm'⟩ := hpanic
  rw [PicksCandidate, hm'] at hpick
  exact hpick

/-- Once the scheduler has picked the block, it picks it again. -/
theorem picksCandidate_iff_again :
    ((queuedFin.setScheduler (.dtp { lastBlockId := some 2 })).PicksCandidate ⟨100.0, 50.0, 0, 10⟩ ↔
      (queuedFin.setScheduler (.dtp { lastBlockId := some 2 })).HasCandidate
        ⟨100.0, 50.0, 0, 10⟩) :=
  picksCandidate_iff_hasCandidate _ _ ⟨by decide, by decide, queuedFin_schedulable.live⟩

end StreamMap

end Dtp
