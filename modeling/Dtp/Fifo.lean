import Dtp.Lib.Runs
import Dtp.Scheduling

/-!
# The order in which the basic scheduler serves streams

The basic scheduler stays with a stream until nothing of it is left, and then begins the first of
the blocks that it is given. These are listed from the back of the queue to its front, so that the
stream pushed last is begun first, except that removing a stream from the middle of the queue
moves the foremost one to its place. Neither a queue nor a stack, the order depends on the whole
history.

## Main definitions

* `SendQueue` — a stream map, with a record of what was pushed, begun and sent
* `SendQueue.step` — a push, or a call of `peekFlushable` and the sending of what it picks
* `SendQueue.InOrder` — streams are begun in the order of their first pushes
* `SendQueue.BackIsNext` — the back of the queue is the stream whose turn it is

## Main results

* `SendQueue.inOrder_iff` — along every run
* `SendQueue.not_inOrder` — of two streams, the second is begun first
-/

namespace Dtp

open Lib (Program)

namespace StreamMap

/-- How much of a stream has not been sent. -/
def unsent (m : StreamMap) (id : ℕ) : ℕ := ((m.streams id).map fun s => s.send.len).getD 0

/-- The basic scheduler stays with the stream that it served last. -/
def Continues (m : StreamMap) : Prop := ∃ last ∈ m.flushable, m.scheduler = .basic ⟨some last⟩ ∧
    0 < m.unsent last

section Basic

variable {m : StreamMap} {b : BasicScheduler} {pace : Pace}

/-- With the basic scheduler the loop drops nothing. -/
theorem dropLoop_basic (pace : Pace) (h : m.scheduler = .basic b) {p t : List ℕ}
    (blocks : List Block) (hq : m.flushable = p ++ t)
    (hlive : ∀ id ∈ p, ∃ s, m.streams id = some s) :
    dropLoop pace p.length blocks m = .ok (blocks ++ p.reverse.filterMap m.getBlock) m := by
  induction p using List.reverseRecOn generalizing t blocks with
  | nil =>
    rw [List.reverse_nil, List.filterMap_nil, List.append_nil]
    rfl
  | append_singleton p x ih =>
    obtain ⟨s, hs⟩ := hlive x (by simp)
    rw [List.append_assoc, List.singleton_append] at hq
    have hx : m.flushable[p.length]? = some x := by simp [hq]
    obtain ⟨block, hblock⟩ : ∃ block, m.getBlock x = some block := ⟨_, by rw [getBlock, hs]; rfl⟩
    have hkeep : m.scheduler.shouldDropBlock pace block = some false := by
      rw [h]
      rfl
    rw [List.length_append, List.length_singleton, dropLoop, Program.bind_apply, Program.get_apply]
    dsimp only
    rw [hx, Program.unwrap_some, pure_bind, hblock, Program.unwrap_some, pure_bind, hkeep,
      Program.unwrap_some,
      pure_bind, if_neg Bool.false_ne_true, ih _ hq fun id hid =>
        hlive id (List.mem_append_left _ hid)]
    rw [List.reverse_append, List.reverse_singleton, List.singleton_append,
      List.filterMap_cons_some hblock,
      List.append_assoc, List.singleton_append]

private theorem lastRemaining_pos_iff {ids : List ℕ}
    (hlive : ∀ id ∈ ids, ∃ s, m.streams id = some s) :
    0 < b.lastRemaining (ids.filterMap m.getBlock) ↔ ∃ last ∈ ids, b.lastBlockId = some last ∧
        0 < m.unsent last := by
  induction ids with
  | nil => simp [BasicScheduler.lastRemaining]
  | cons id ids ih =>
    obtain ⟨⟨s, hs⟩, hrest⟩ := List.forall_mem_cons.mp hlive
    obtain ⟨block, hblock⟩ : ∃ block, m.getBlock id = some block := ⟨_, by rw [getBlock, hs]; rfl⟩
    have hid := getBlock_id hblock
    have hlen : block.remainingSize = m.unsent id := by
      obtain ⟨s', hs', rfl⟩ := Option.map_eq_some_iff.mp hblock
      rw [unsent, hs']
      rfl
    rw [List.filterMap_cons_some hblock, BasicScheduler.lastRemaining, List.find?_cons, hid]
    by_cases hlast : b.lastBlockId = some id
    · rw [hlast, beq_self_eq_true]
      simp only [Option.map_some, Option.getD_some, Option.some.injEq]
      rw [hlen]
      constructor
      · exact fun hpos => ⟨id, List.mem_cons_self, rfl, hpos⟩
      · rintro ⟨_, -, rfl, hpos⟩
        exact hpos
    · rw [beq_eq_false_iff_ne.mpr (Ne.symm hlast)]
      refine (ih hrest).trans ⟨?_, ?_⟩
      · rintro ⟨last, hmem, h⟩
        exact ⟨last, List.mem_cons_of_mem _ hmem, h⟩
      · rintro ⟨last, hmem, heq, hpos⟩
        refine ⟨last, (List.mem_cons.mp hmem).resolve_left ?_, heq, hpos⟩
        rintro rfl
        exact hlast heq

/-- The basic scheduler stays with the stream that it served last, or it begins with the one at the
back of the queue. -/
theorem peekFlushable_basic (h : m.scheduler = .basic b)
    (hlive : ∀ id ∈ m.flushable, ∃ s, m.streams id = some s)
    (hne : m.flushable ≠ []) (pace : Pace) :
    ∃ pick ∈ m.flushable, peekFlushable pace m =
        .ok (some pick) ((m.setScheduler (.basic ⟨some pick⟩)).takeFlushable pick) ∧
      (m.Continues ∧ b.lastBlockId = some pick ∨ ¬ m.Continues ∧
          m.flushable.getLast? = some pick) := by
  have hlive' : ∀ id ∈ m.flushable.reverse, ∃ s, m.streams id = some s := fun id hid =>
    hlive id (List.mem_reverse.mp hid)
  have hcontinues : m.Continues ↔ 0 < b.lastRemaining
      (m.flushable.reverse.filterMap m.getBlock) := by
    rw [lastRemaining_pos_iff hlive', Continues]
    refine exists_congr fun last => and_congr List.mem_reverse.symm (and_congr_left fun _ => ?_)
    rw [h, DynScheduler.basic.injEq]
    exact ⟨fun heq => heq ▸ rfl, fun heq => heq ▸ rfl⟩
  obtain ⟨init, back, hback⟩ := (List.eq_nil_or_concat m.flushable).resolve_left hne
  rw [List.concat_eq_append] at hback
  obtain ⟨s, hs⟩ := hlive back (by simp [hback])
  obtain ⟨block, hblock⟩ : ∃ block, m.getBlock back = some block := ⟨_, by rw [getBlock, hs]; rfl⟩
  have hblocks : m.flushable.reverse.filterMap m.getBlock =
      block :: init.reverse.filterMap m.getBlock := by
    rw [hback, List.reverse_append, List.reverse_singleton, List.singleton_append,
      List.filterMap_cons_some hblock]
  -- nothing is dropped, so the pick is that of the scheduler
  have hpeek (pick : ℕ)
    (hselect : b.selectBlock (m.flushable.reverse.filterMap m.getBlock) =
      some (pick, ⟨some pick⟩)) :
      peekFlushable pace m = .ok (some pick)
          ((m.setScheduler (.basic ⟨some pick⟩)).takeFlushable pick) := by
    have hdrop := dropLoop_basic pace h [] (List.append_nil _).symm hlive
    rw [List.nil_append] at hdrop
    have hsome : (m.flushable.reverse.filterMap m.getBlock).isEmpty = false := by rw [hblocks]; rfl
    have hpick : m.scheduler.selectBlock pace (m.flushable.reverse.filterMap m.getBlock) =
        some (pick, .basic ⟨some pick⟩) := by
      rw [h, DynScheduler.selectBlock, hselect]
      rfl
    rw [peekFlushable, Program.bind_apply, Program.get_apply]
    dsimp only
    rw [if_neg (by simpa using hne), Program.bind_apply, forM_getBlock _ hlive']
    dsimp only
    rw [Program.bind_apply, hdrop]
    dsimp only
    rw [hsome, if_neg Bool.false_ne_true, Program.bind_apply, Program.get_apply]
    dsimp only
    rw [hpick]
    rfl
  -- the last block goes on, or the block at the back is next
  by_cases hlast : m.Continues
  · obtain ⟨last, hmem, hsched, hpos⟩ := id hlast
    rw [h, DynScheduler.basic.injEq] at hsched
    subst hsched
    refine ⟨last, hmem, hpeek last ?_, .inl ⟨hlast, rfl⟩⟩
    rw [BasicScheduler.selectBlock, if_neg (hcontinues.mp hlast).ne']
    rfl
  · have hnone := mt hcontinues.mpr hlast
    refine ⟨back, by simp [hback], hpeek back ?_, .inr ⟨hlast, by rw [hback, List.getLast?_concat]⟩⟩
    rw [BasicScheduler.selectBlock, if_pos (by omega), hblocks, List.head?_cons, Option.map_some,
      getBlock_id hblock]

end Basic

end StreamMap

/-- A stream map, with a record of what happened to its queue. -/
structure SendQueue where
  map : StreamMap
  /-- The streams that were pushed, in order. -/
  pushed : List ℕ
  /-- The streams that were picked. -/
  started : List ℕ
  /-- The streams of which nothing was left after they had been served. -/
  sent : List ℕ

/-- What happens to the queue. -/
inductive QueueCall
  /-- A stream with new data is pushed. -/
  | push (id : ℕ) (s : Stream)
  /-- A stream is picked, and sent up to what is left. -/
  | serve (pace : Pace) (left : SendBuf)

namespace SendQueue

open StreamMap

/-- A queue without streams. -/
def new (maxStreamsBidi maxStreamsUni : ℕ) : SendQueue where
  map := .new maxStreamsBidi maxStreamsUni (.basic {})
  pushed := []
  started := []
  sent := []

/-- A stream with new data joins the queue. -/
def push (q : SendQueue) (id : ℕ) (s : Stream) : SendQueue :=
  { q with
    map := (q.map.put id s).pushFlushable id
    pushed := q.pushed ++ [id] }

/-- The stream `pick` has been taken from the queue and served. If something is left it is pushed
back. -/
def serve (q : SendQueue) (m : StreamMap) (pick : ℕ) (s : Stream) (left : SendBuf) : SendQueue :=
  { q with
    map := if left.len =
      0 then m.putSend pick s left else (m.putSend pick s left).pushFlushable pick
    started := q.started.insert pick
    sent := if left.len = 0 then q.sent.insert pick else q.sent }

/-- The queue after a call that returns. -/
def step (q : SendQueue) : QueueCall → Option SendQueue
  | .push id s => some (q.push id s)
  | .serve pace left =>
    match peekFlushable pace q.map with
    | .ok (some pick) m => (m.streams pick).map fun s => q.serve m pick s left
    | .ok none m => some { q with map := m }
    | .error _ _ => none

/-- A stream is begun only when all streams that were first pushed before it have been sent. -/
def InOrder (q : SendQueue) : QueueCall → Prop
  | .push _ _ => True
  | .serve pace _ => ∀ pick m, peekFlushable pace q.map = .ok (some pick) m → pick ∉ q.started →
    ∀ id ∈ q.pushed, q.pushed.idxOf id < q.pushed.idxOf pick → id ∈ q.sent

/-- The last stream is continued, or the stream at the back of the queue was begun already, or it
was first pushed before all others in the queue that have not been sent. -/
def BackIsNext (q : SendQueue) : QueueCall → Prop
  | .push _ _ => True
  | .serve _ _ =>
    q.map.Continues ∨ ∀ back, q.map.flushable.getLast? = some back → back ∈ q.started ∨
    ∀ id ∈ q.map.flushable, id ∉ q.sent → q.pushed.idxOf back ≤ q.pushed.idxOf id

/-- The queue holds streams that were pushed, among them all that have not been sent, and the
scheduler remembers a stream that was begun. -/
structure Recorded (q : SendQueue) : Prop where
  live : ∀ id ∈ q.map.flushable, ∃ s, q.map.streams id = some s
  scheduler : ∃ b, q.map.scheduler = .basic b ∧ ∀ last, b.lastBlockId = some last → last ∈ q.started
  pushed : ∀ id ∈ q.map.flushable, id ∈ q.pushed
  waiting : ∀ id ∈ q.pushed, id ∉ q.sent → id ∈ q.map.flushable

private theorem recorded_new (maxStreamsBidi maxStreamsUni : ℕ) :
    (new maxStreamsBidi maxStreamsUni).Recorded where
  live _ := nofun
  scheduler := ⟨{}, rfl, nofun⟩
  pushed _ := nofun
  waiting _ := nofun

section Steps

variable {q q' : SendQueue} {call : QueueCall}

theorem Recorded.push (h : q.Recorded) (id : ℕ) (s : Stream) : (q.push id s).Recorded := by
  have hflush : (q.push id s).map.flushable = q.map.flushable ++ [id] := rfl
  refine ⟨fun i hi => ?_, h.scheduler, fun i hi => ?_, fun i hi hsent => ?_⟩
  · rcases eq_or_ne i id with rfl | hne
    · exact ⟨s, if_pos rfl⟩
    · have hmem : i ∈ q.map.flushable := by simpa [hflush, hne] using hi
      obtain ⟨s', hs'⟩ := h.live i hmem
      exact ⟨s', (if_neg hne).trans hs'⟩
  · rw [hflush, List.mem_append] at hi
    exact List.mem_append.mpr (hi.imp_left (h.pushed i))
  · rw [hflush, List.mem_append]
    exact (List.mem_append.mp hi).imp_left fun hi => h.waiting i hi hsent

/-- What a served stream leaves of the queue. -/
theorem takeFlushable_perm {m : StreamMap} {pick : ℕ} (h : pick ∈ m.flushable) :
    (m.takeFlushable pick).flushable.Perm (m.flushable.erase pick) := by
  rw [takeFlushable, if_pos h]
  exact swapRemoveFront_perm h

private theorem takeFlushable_streams (m : StreamMap) (pick : ℕ) :
    (m.takeFlushable pick).streams = m.streams := by
  unfold takeFlushable
  split_ifs <;> rfl

private theorem takeFlushable_scheduler (m : StreamMap) (pick : ℕ) :
    (m.takeFlushable pick).scheduler = m.scheduler := by
  unfold takeFlushable
  split_ifs <;> rfl

theorem Recorded.serve (h : q.Recorded) {pick : ℕ} (hpick : pick ∈ q.map.flushable) {m : StreamMap}
    {s : Stream}
    {left : SendBuf} (hm : m = (q.map.setScheduler (.basic ⟨some pick⟩)).takeFlushable pick) :
    (q.serve m pick s left).Recorded := by
  subst hm
  have hperm : ((q.map.setScheduler (.basic ⟨some pick⟩)).takeFlushable pick).flushable.Perm
      (q.map.flushable.erase pick) := takeFlushable_perm hpick
  have hstreams := takeFlushable_streams (q.map.setScheduler (.basic ⟨some pick⟩)) pick
  have hsched := takeFlushable_scheduler (q.map.setScheduler (.basic ⟨some pick⟩)) pick
  generalize hm : (q.map.setScheduler (.basic ⟨some pick⟩)).takeFlushable pick = m at *
  have hmap : (q.serve m pick s left).map =
      if left.len = 0 then m.putSend pick s left else (m.putSend pick s left).pushFlushable pick :=
        rfl
  -- the stream goes to the back of the queue, if there is something left of it
  have hqueue (id : ℕ) : id ∈ (q.serve m pick s left).map.flushable ↔
      id ∈ q.map.flushable.erase pick ∨ id = pick ∧ left.len ≠ 0 := by
    rw [hmap]
    by_cases hlen : left.len = 0
    · rw [if_pos hlen]
      exact ⟨fun hid => .inl (hperm.mem_iff.mp hid), fun hid =>
        hperm.mem_iff.mpr (by simpa [hlen] using hid)⟩
    · rw [if_neg hlen]
      change id ∈ m.flushable ++ [pick] ↔ _
      rw [List.mem_append, hperm.mem_iff, List.mem_singleton]
      simp [hlen]
  have hqueued {id : ℕ} (hid : id ∈ (q.serve m pick s left).map.flushable) :
      id ∈ q.map.flushable := by
    rcases (hqueue id).mp hid with hid | ⟨rfl, -⟩
    · exact List.mem_of_mem_erase hid
    · exact hpick
  refine ⟨fun id hid => ?_, ⟨⟨some pick⟩, ?_, ?_⟩, fun id hid => h.pushed id (hqueued hid),
    fun id hid hsent => ?_⟩
  · have hput : (q.serve m pick s left).map.streams = (m.putSend pick s left).streams := by
      rw [hmap]
      split_ifs <;> rfl
    rw [hput]
    rcases eq_or_ne id pick with rfl | hne
    · exact ⟨_, if_pos rfl⟩
    · obtain ⟨s', hs'⟩ := h.live id (hqueued hid)
      exact ⟨s', (if_neg hne).trans ((congrFun hstreams id).trans hs')⟩
  · have hput : (q.serve m pick s left).map.scheduler = m.scheduler := by
      rw [hmap]
      split_ifs <;> rfl
    exact hput.trans hsched
  · -- the block that was selected last was pushed
    rintro last heq
    obtain rfl := Option.some.inj heq
    exact List.mem_insert_self
  · rw [hqueue]
    have hsent' : (q.serve m pick s left).sent = if left.len =
      0 then q.sent.insert pick else q.sent := rfl
    rw [hsent'] at hsent
    rcases eq_or_ne id pick with rfl | hne
    · refine .inr ⟨rfl, fun hlen => hsent ?_⟩
      rw [if_pos hlen]
      exact List.mem_insert_self
    · have hnot : id ∉ q.sent := by
        split_ifs at hsent
        · exact fun hid => hsent (List.mem_insert_of_mem hid)
        · exact hsent
      exact .inl ((List.mem_erase_of_ne hne).mpr (h.waiting id hid hnot))

theorem Recorded.step (h : q.Recorded) (hstep : q.step call = some q') : q'.Recorded := by
  cases call with
  | push id s =>
    cases hstep
    exact h.push id s
  | serve pace left =>
    obtain ⟨b, hb, -⟩ := h.scheduler
    by_cases hne : q.map.flushable = []
    · have hpeek : peekFlushable pace q.map = .ok none q.map := by
        rw [peekFlushable, Program.bind_apply, Program.get_apply]
        dsimp only
        rw [if_pos (by simpa using hne)]
        rfl
      rw [SendQueue.step, hpeek] at hstep
      cases hstep
      exact h
    · obtain ⟨pick, hpick, hpeek, -⟩ := peekFlushable_basic hb h.live hne pace
      rw [SendQueue.step, hpeek] at hstep
      obtain ⟨s, -, rfl⟩ := Option.map_eq_some_iff.mp hstep
      exact h.serve hpick rfl

/-- What is picked is begun in order exactly if its turn has come at the back of the queue. -/
theorem Recorded.inOrder_iff_backIsNext (h : q.Recorded) : q.InOrder call ↔ q.BackIsNext call := by
  cases call with
  | push => exact Iff.rfl
  | serve pace left =>
    obtain ⟨b, hb, hstarted⟩ := h.scheduler
    by_cases hne : q.map.flushable = []
    · refine iff_of_true (fun pick m hpeek => ?_) (.inr fun back hback => ?_)
      · rw [peekFlushable, Program.bind_apply, Program.get_apply] at hpeek
        dsimp only at hpeek
        rw [if_pos (by simpa using hne)] at hpeek
        cases hpeek
      · rw [hne] at hback
        cases hback
    · obtain ⟨pick, hpick, hpeek, hwhich⟩ := peekFlushable_basic hb h.live hne pace
      have hinOrder : q.InOrder (.serve pace left) ↔ (pick ∉ q.started →
          ∀ id ∈ q.pushed, q.pushed.idxOf id < q.pushed.idxOf pick → id ∈ q.sent) := by
        refine ⟨fun horder => horder pick _ hpeek, fun horder pick' m hpeek' => ?_⟩
        rw [hpeek] at hpeek'
        cases hpeek'
        exact horder
      rw [hinOrder]
      rcases hwhich with ⟨hcontinues, hlast⟩ | ⟨hbegins, hback⟩
      · exact iff_of_true (fun hnot => absurd (hstarted pick hlast) hnot) (.inl hcontinues)
      constructor
      · intro horder
        refine .inr fun back hback' => ?_
        obtain rfl := Option.some.inj (hback.symm.trans hback')
        by_cases hbegun : pick ∈ q.started
        · exact .inl hbegun
        refine .inr fun id hid hsent => ?_
        by_contra hlt
        exact hsent (horder hbegun id (h.pushed id hid) (not_le.mp hlt))
      · rintro hnext hbegun id hid hlt
        have hfirst := ((hnext.resolve_left hbegins) pick hback).resolve_left hbegun
        by_contra hsent
        exact absurd (hfirst id (h.waiting id hid hsent) hsent) (not_le.mpr hlt)

end Steps

/-- Along every run streams are begun in the order of their first pushes exactly if, whenever one is
begun, it is the turn of the one at the back of the queue. -/
theorem inOrder_iff (maxStreamsBidi maxStreamsUni : ℕ) (calls : List QueueCall) :
    Lib.AllSteps step InOrder (new maxStreamsBidi maxStreamsUni) calls ↔
      Lib.AllSteps step BackIsNext (new maxStreamsBidi maxStreamsUni) calls := by
  apply Lib.allSteps_iff (I := Recorded)
  · intro q call q' h hstep
    exact h.step hstep
  · intro q call h
    exact h.inOrder_iff_backIsNext
  · exact recorded_new maxStreamsBidi maxStreamsUni

/-- A stream with one byte to send. -/
def oneByte : Stream :=
  let s := Stream.newFull 0 100 false true 200 1 0
  match s.send.push ⟨[1], 0, false⟩ with
  | .ok send => { s with send := send }
  | .error _ => s

/-- Two streams are pushed, and one of them is served. -/
def twoPushed : List QueueCall :=
  [.push 0 oneByte, .push 4 oneByte, .serve ⟨100.0, 50.0, 0, 10⟩ (.newFull 100 200 1 0)]

/-- The stream that was pushed last is begun first. -/
theorem not_inOrder : ¬ ∀ calls : List QueueCall, Lib.AllSteps step InOrder (new 0 0) calls := by
  intro h
  have hserve := ((h twoPushed).2 _ rfl).2 _ rfl
  have hpeek : ∃ m, peekFlushable ⟨100.0, 50.0, 0, 10⟩
      (((new 0 0).push 0 oneByte).push 4 oneByte).map = .ok (some 4) m := ⟨_, rfl⟩
  obtain ⟨m, hm⟩ := hpeek
  have hsent := hserve.1 4 m hm nofun 0 (by decide) (by decide)
  cases hsent

end SendQueue

end Dtp
