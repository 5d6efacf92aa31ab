import Dtp.H3.Polling
import Dtp.H3.Sending

/-!
# The end of a request

When all the data of a request has been read, its end is queued, and a later poll returns it.
Every visit of the stream and every read of its body queues it then. An end that arrives in an
empty chunk of its own, before the data in front of it, is left behind when that data is read:
the stream is at its end, and is visited or read from once more.

## Main definitions

* `H3.Session.FinishedOnce` — the end is returned once, behind everything else
* `H3.Session.Step.Spares` — a step does not come back to a stream whose end is queued
* `H3.Session.Tracked` — the invariant: how far the end of the stream has come

## Main results

* `H3.Session.always_finishedOnce` — the end is returned once, if no step comes back
-/

namespace Dtp.H3

open Lib (Program)

/-- The application sees it: an event, or a byte of a body. -/
def Item.isSeen : Item → Bool
  | .byte _ | .event _ => true
  | .frame _ | .failed _ => false

namespace Session

/-- Once the end of the stream is returned, all its data has been read, and the application sees
nothing more of it. -/
def FinishedOnce (id : ℕ) (s : Session) : Prop :=
  ∀ before after, s.itemsOf id = before ++ .event .finished :: after →
    s.streamFinished id = true ∧ ∀ item ∈ after, item.isSeen = false

/-- Nothing has arrived on the bidirectional stream yet. -/
structure Fresh (id : ℕ) (s : Session) : Prop where
  isBidi : isBidi id = true
  sane : s.http3.Sane
  nodup : s.conn.streams.readable.Nodup
  absent : s.conn.streams.streams id = none
  unread : id ∉ s.conn.streams.readable
  queue : id ∉ s.http3.finishedStreams
  items : s.itemsOf id = []

/-- The end of the stream has been queued or returned, and the empty chunk with it is still to
be read. -/
def Lingers (id : ℕ) (s : Session) : Prop :=
  (id ∈ s.http3.finishedStreams ∨ .event .finished ∈ s.itemsOf id) ∧ s.conn.drained id = true ∧
    s.conn.streams.readsAt id = true

instance (id : ℕ) (s : Session) : Decidable (s.Lingers id) := inferInstanceAs (Decidable (_ ∧ _))

/-- The step does not come back to the stream after its end: a poll that looks for data does not,
and a read of its body does not. -/
def Step.Spares (id : ℕ) (s : Session) : Step → Prop
  | .arrive .. => True
  | .poll .. => s.http3.finishedStreams = [] → ¬ s.Lingers id
  | .recvBody i _ =>
    i = id → (s.http3.streams id).any (fun stream => stream.state = .data) = true → ¬ s.Lingers id

instance (id : ℕ) (s : Session) : DecidablePred (Step.Spares id s)
  | .arrive .. => isTrue trivial
  | .poll .. => inferInstanceAs (Decidable (_ → _))
  | .recvBody .. => inferInstanceAs (Decidable (_ → _))

/-- How far the end of the stream has come. -/
inductive Stage (id : ℕ) (s : Session) : Prop
  | reading (queue : id ∉ s.http3.finishedStreams) (items : .event .finished ∉ s.itemsOf id)
  | queued (drained : s.conn.drained id = true) (queue : s.http3.finishedStreams.count id = 1)
      (items : .event .finished ∉ s.itemsOf id)
  | returned (drained : s.conn.drained id = true) (queue : id ∉ s.http3.finishedStreams)
      (before : List Item)
      (items : s.itemsOf id = before ++ [.event .finished]) (first : .event .finished ∉ before)

/-- The invariant of a bidirectional stream of the peer. -/
structure Tracked (id : ℕ) (s : Session) : Prop where
  sane : s.http3.Sane
  receiving : s.conn.Receiving id
  nodup : s.conn.streams.readable.Nodup
  stage : Stage id s

variable {s s' : Session} {id i : ℕ}

/-- On a new connection, nothing has arrived on any stream. -/
theorem fresh_new (hbidi : isBidi id = true) (config : Dtp.Connection.Config)
    (isServer afterRetry : Bool) (now : ℕ)
    (settings : Settings) :
    Fresh id ⟨.new isServer settings, .new config isServer afterRetry now, []⟩ where
  isBidi := hbidi
  sane := ⟨nofun, nofun, by rintro i (h | h | h) <;> cases h⟩
  nodup := List.nodup_nil
  absent := rfl
  unread := List.not_mem_nil
  queue := List.not_mem_nil
  items := rfl

theorem Fresh.tracked (h : Fresh id s) : Tracked id s where
  sane := h.sane
  receiving :=
    { isBidi := h.isBidi
      wf := fun t ht => by rw [h.absent] at ht; cases ht
      bidi := fun t ht => by rw [h.absent] at ht; cases ht
      unsent := fun t ht => by rw [h.absent] at ht; cases ht
      readsAt := fun hmem => absurd hmem h.unread }
  nodup := h.nodup
  stage := .reading h.queue (by rw [h.items]; exact List.not_mem_nil)

private theorem streamFinished_of_drained (h : s.conn.drained id = true) :
    s.streamFinished id = true := by
  obtain ⟨t, live, hfin⟩ := (Option.any_eq_true _ _).mp h
  rw [streamFinished, live]
  exact hfin

private theorem streamFinished_live (h : (s.conn.streams.streams id).isSome) :
    s.streamFinished id = s.conn.drained id := by
  obtain ⟨t, live⟩ := Option.isSome_iff_exists.mp h
  rw [streamFinished, Connection.drained, live]
  rfl

/-- What is tracked has the property. -/
theorem Tracked.finishedOnce (h : Tracked id s) : FinishedOnce id s := by
  intro before after hitems
  have hmem : .event .finished ∈ s.itemsOf id := by
    rw [hitems]
    exact List.mem_append_right _ List.mem_cons_self
  rcases h.stage with ⟨_, hnot⟩ | ⟨_, _, hnot⟩ | ⟨hdrained, _, before', hlast, hfirst⟩
  · exact absurd hmem hnot
  · exact absurd hmem hnot
  · refine ⟨streamFinished_of_drained hdrained, ?_⟩
    rw [hlast] at hitems
    rcases List.eq_nil_or_concat after with rfl | ⟨after', last, rfl⟩
    · exact nofun
    · -- the end would have been returned before
      refine absurd ?_ hfirst
      rw [List.concat_eq_append, ← List.cons_append, ← List.append_assoc] at hitems
      rw [(List.append_inj' hitems rfl).1]
      exact List.mem_append_right _ List.mem_cons_self

/-! ### Programs on other streams -/

/-- Nothing changes for the stream `id`. -/
structure Spared (id : ℕ) (s s' : Session) : Prop where
  sane : s'.http3.Sane
  streams : s'.conn.streams.streams id = s.conn.streams.streams id
  readable : id ∈ s'.conn.streams.readable ↔ id ∈ s.conn.streams.readable
  nodup : s.conn.streams.readable.Nodup → s'.conn.streams.readable.Nodup
  queue : s'.http3.finishedStreams = s.http3.finishedStreams
  items : s'.itemsOf id = s.itemsOf id

/-- The session spares a stream, as far as it is sane. -/
def KeepsOut (id : ℕ) (s s' : Session) : Prop := s.http3.Sane → Spared id s s'

theorem Spared.refl (sane : s.http3.Sane) : Spared id s s := ⟨sane, rfl, .rfl, fun h => h, rfl, rfl⟩

theorem Spared.trans {s'' : Session} (h : Spared id s s') (hs' : KeepsOut id s' s'') :
    Spared id s s'' :=
  let h' := hs' h.sane
  { sane := h'.sane
    streams := h'.streams.trans h.streams
    readable := h'.readable.trans h.readable
    nodup := fun hnodup => h'.nodup (h.nodup hnodup)
    queue := h'.queue.trans h.queue
    items := h'.items.trans h.items }

instance : IsPreorder Session (KeepsOut id) where
  refl _ := .refl
  trans _ _ _ h h' sane := (h sane).trans h'

theorem Visited.spared (h : Visited i s s') (hi : id ≠ i) : Spared id s s' :=
  ⟨h.sane, h.acts.streams id hi, h.acts.readable id hi, h.acts.nodup, h.queue, h.items id hi⟩

private theorem Visits.keepsOut (h : Visits i s s') (hi : id ≠ i) :
    KeepsOut id s s' := fun sane => (h sane).spared hi

theorem Spared.drained (h : Spared id s s') : s'.conn.drained id = s.conn.drained id := by
  rw [Connection.drained, Connection.drained, h.streams]

theorem Spared.readsAt (h : Spared id s s') :
    s'.conn.streams.readsAt id = s.conn.streams.readsAt id := by
  rw [StreamMap.readsAt, StreamMap.readsAt, h.streams]

/-- What is known of the stream carries over to a state with the same queue and items. -/
theorem Stage.congr (h : Stage id s)
    (hdrained : s.conn.drained id = true → s'.conn.drained id = true)
    (hqueue : s'.http3.finishedStreams.count id = s.http3.finishedStreams.count id)
    (hitems : s'.itemsOf id = s.itemsOf id) : Stage id s' := by
  have hmem : id ∈ s'.http3.finishedStreams ↔ id ∈ s.http3.finishedStreams := by
    rw [← List.count_pos_iff, hqueue, List.count_pos_iff]
  rcases h with ⟨queue, items⟩ | ⟨drained, queue, items⟩ | ⟨drained, queue, before, items, first⟩
  · exact .reading (hmem.not.mpr queue) (hitems ▸ items)
  · exact .queued (hdrained drained) (hqueue.trans queue) (hitems ▸ items)
  · exact .returned (hdrained drained) (hmem.not.mpr queue) before (hitems.trans items) first

theorem Tracked.spared (h : Tracked id s) (hs : Spared id s s') : Tracked id s' where
  sane := hs.sane
  receiving :=
    { isBidi := h.receiving.isBidi
      wf := fun t ht => h.receiving.wf t (hs.streams ▸ ht)
      bidi := fun t ht => h.receiving.bidi t (hs.streams ▸ ht)
      unsent := fun t ht => h.receiving.unsent t (hs.streams ▸ ht)
      readsAt := fun hmem => hs.readsAt ▸ h.receiving.readsAt (hs.readable.mp hmem) }
  nodup := hs.nodup h.nodup
  stage := h.stage.congr (fun hd => hs.drained.trans hd) (by rw [hs.queue]) hs.items

/-- The end of another stream may be queued. -/
theorem Tracked.queueFinished_of_ne (h : Tracked id s) (hi : id ≠ i) :
    (queueFinished i).Ends s (fun _ s' => Tracked id s' ∧ s'.conn = s.conn ∧
      s'.http3.streams = s.http3.streams ∧
      (id ∉ s.http3.finishedStreams → id ∉ s'.http3.finishedStreams) ∧ s'.itemsOf id = s.itemsOf id)
          fun _ _ => False := by
  refine Program.ends_modify.mpr ?_
  split_ifs
  · have hcount : (s.http3.finishedStreams ++ [i]).count id = s.http3.finishedStreams.count id := by
      rw [List.count_append, List.count_singleton, if_neg (by simpa using hi.symm), Nat.add_zero]
    refine ⟨⟨⟨h.sane.own, h.sane.ty, h.sane.critical⟩, h.receiving, h.nodup,
      h.stage.congr (fun hd => hd) hcount rfl⟩,
      rfl, rfl, fun hnot hmem => ?_, rfl⟩
    rcases List.mem_append.mp hmem with hmem | hmem
    · exact hnot hmem
    · exact hi (List.mem_singleton.mp hmem)
  · exact ⟨h, rfl, rfl, fun hnot => hnot, rfl⟩

private theorem processCritical_keepsOut {stream : Connection → Option ℕ}
    (hcritical : ∀ h i, stream h = some i → h.IsCritical i)
    (hbidi : isBidi id = true) (env : Env) (s : Session) : (processCritical stream env).Keeps
    (KeepsOut id) s := by
  refine .of_imp (R := Spared id) (p := fun s => s.http3.Sane) fun sane => ?_
  rw [processCritical, Program.keeps_get_bind]
  cases hi : stream s.http3 with
  | none => exact refl_of (KeepsOut id) s
  | some i =>
    refine (processControlStream_visits env s).mono fun s' hs' => hs'.keepsOut ?_
    rintro rfl
    have huni := sane.critical id (hcritical _ _ hi)
    rw [hbidi] at huni
    cases huni

/-! ### Programs on the stream -/

/-- The end of the stream is not queued yet, and was not returned. -/
structure Reading (id : ℕ) (s : Session) : Prop where
  tracked : Tracked id s
  queue : id ∉ s.http3.finishedStreams
  items : .event .finished ∉ s.itemsOf id
  live : (s.conn.streams.streams id).isSome

theorem Reading.visited (h : Reading id s) (v : Visited id s s') : Reading id s' := by
  have hqueue : id ∉ s'.http3.finishedStreams := by
    rw [v.queue]
    exact h.queue
  have hitems : .event .finished ∉ s'.itemsOf id := fun hmem => h.items (v.finished hmem)
  exact ⟨⟨v.sane, v.acts.receiving h.tracked.receiving, v.acts.nodup h.tracked.nodup,
    .reading hqueue hitems⟩,
    hqueue, hitems, v.acts.live h.tracked.receiving h.live⟩

/-- The end of the stream is queued, if all its data has been read. -/
theorem Reading.queueFinished (h : Reading id s) :
    (queueFinished id).Ends s (fun _ s' => Tracked id s' ∧ s'.conn = s.conn ∧
      .event .finished ∉ s'.itemsOf id)
      fun _ _ => False := by
  refine Program.ends_modify.mpr ?_
  split_ifs with hfin
  · rw [streamFinished_live h.live] at hfin
    have hcount : (s.http3.finishedStreams ++ [id]).count id = 1 := by
      rw [List.count_append, List.count_eq_zero.mpr h.queue, List.count_singleton_self]
    refine ⟨⟨⟨h.tracked.sane.own, h.tracked.sane.ty, h.tracked.sane.critical⟩, h.tracked.receiving,
      h.tracked.nodup, ?_⟩,
      rfl, h.items⟩
    exact .queued hfin hcount h.items
  · exact ⟨h.tracked, rfl, h.items⟩

/-- A visit of a stream, up to the end that may be queued then. -/
theorem visit_ends (env : Env) (s : Session) :
    (eventOrDone i (processReadableStream i env)).Ends s
    (fun ev s' => Visits i s s' ∧ ∀ e ∈ ev, FoundOn i e)
      fun e s' => (∃ err, e = .error err) → Visits i s s' := by
  have hvisits := eventOrDone_visits (@processReadableStream_visits i env s)
  have hfound := eventOrDone_found (@processReadableStream_found i env)
  unfold Program.Keeps Program.Ends at *
  split at hvisits
  · exact ⟨hvisits, hfound s _ _ ‹_›⟩
  · exact hvisits

/-- The streams are visited one after the other; the stream `id` is visited at most once, and only
if its end is not queued yet. -/
theorem processReadable_tracked (env : Env) {ids : List ℕ} (hnodup : ids.Nodup) (h : Tracked id s)
    (hvisit : id ∈ ids → Reading id s) :
    (processReadable env ids).Ends s
      (fun ev s' => Tracked id s' ∧ ev.2 ≠ .finished ∧
        (ev.1 = id → .event .finished ∉ s'.itemsOf id))
      fun e s' => (∃ err, e = .error err) → Tracked id s' := by
  induction ids generalizing s with
  | nil => exact fun _ => h
  | cons i ids ih =>
    obtain ⟨hfirst, hrest⟩ := List.nodup_cons.mp hnodup
    rw [processReadable]
    rcases eq_or_ne id i with rfl | hi
    · -- the stream is visited, and not again after it
      have hreading := hvisit List.mem_cons_self
      refine (Program.Ends.mono (visit_ends env s) ?_ fun e s' hs' he => ?_).bind fun ev s₁ hs₁ =>
        hs₁
      swap
      · exact (hreading.visited (hs' he h.sane)).tracked
      rintro ev s₁ ⟨hs₁, hev⟩
      refine ((hreading.visited (hs₁ h.sane)).queueFinished.mono (fun _ _ hs₂ => hs₂) fun _ _ hf =>
        hf.elim).bind
        fun _ s₂ hs₂ => ?_
      obtain ⟨htracked, -, hitems⟩ := hs₂
      cases ev with
      | some ev => exact ⟨htracked, (hev ev rfl).2, fun _ => hitems⟩
      | none => exact ih hrest htracked fun hmem => absurd hmem hfirst
    · refine (Program.Ends.mono (visit_ends env s) ?_ fun e s' hs' he => ?_).bind fun ev s₁ hs₁ =>
        hs₁
      swap
      · exact h.spared ((hs' he h.sane).spared hi)
      rintro ev s₁ ⟨hs₁, hev⟩
      -- another stream is visited
      have hspared := (hs₁ h.sane).spared hi
      have htracked := h.spared hspared
      refine ((htracked.queueFinished_of_ne hi).mono (fun _ _ hs₂ => hs₂) fun _ _ hf =>
        hf.elim).bind fun _ s₂ hs₂ => ?_
      obtain ⟨htracked₂, hconn, -, hqueue, hitems⟩ := hs₂
      cases ev with
      | some ev =>
        exact ⟨htracked₂, (hev ev rfl).2, fun heq => absurd (heq.symm.trans (hev ev rfl).1) hi⟩
      | none =>
        refine ih hrest htracked₂ fun hmem => ?_
        have hreading := hvisit (List.mem_cons_of_mem i hmem)
        refine ⟨htracked₂, hqueue ?_, ?_, ?_⟩
        · rw [hspared.queue]
          exact hreading.queue
        · rw [hitems, hspared.items]
          exact hreading.items
        · rw [hconn, hspared.streams]
          exact hreading.live

/-- An event is returned, which for this stream is not its end. -/
theorem Tracked.record (h : Tracked id s) {ev : ℕ × Event} (hev : ev.2 ≠ .finished)
    (hitems : ev.1 = id → .event .finished ∉ s.itemsOf id) :
    Tracked id { s with log := s.log ++ [(ev.1, .event ev.2)] } := by
  refine ⟨h.sane, h.receiving, h.nodup, ?_⟩
  by_cases hid : ev.1 = id
  · have hnot : .event .finished ∉
        { s with log := s.log ++ [(ev.1, .event ev.2)] : Session }.itemsOf id := by
      rw [itemsOf_append, if_pos hid, List.mem_append, List.mem_singleton, not_or]
      refine ⟨hitems hid, fun heq => hev ?_⟩
      exact (Item.event.inj heq).symm
    rcases h.stage with ⟨queue, _⟩ | ⟨drained, queue, _⟩ | ⟨_, _, before, hlast, _⟩
    · exact .reading queue hnot
    · exact .queued drained queue hnot
    · refine absurd ?_ (hitems hid)
      rw [hlast]
      exact List.mem_append_right _ List.mem_cons_self
  · refine h.stage.congr (fun hd => hd) rfl ?_
    rw [itemsOf_append, if_neg hid]

/-- The end of a stream that is first in the queue is returned. -/
theorem Tracked.dequeue (h : Tracked id s) {ids : List ℕ}
    (hqueue : s.http3.finishedStreams = i :: ids) :
    Tracked id { s with
      http3 := { s.http3 with finishedStreams := ids }
      log := s.log ++ [(i, .event .finished)] } := by
  refine ⟨⟨h.sane.own, h.sane.ty, h.sane.critical⟩, h.receiving, h.nodup, ?_⟩
  have hitems : { s with
      http3 := { s.http3 with finishedStreams := ids }
      log := s.log ++ [(i, .event .finished)] : Session }.itemsOf id =
        if i = id then s.itemsOf id ++ [.event .finished] else s.itemsOf id := itemsOf_append _
  rcases eq_or_ne i id with rfl | hi
  · rw [if_pos rfl] at hitems
    have hmem : i ∈ s.http3.finishedStreams := hqueue ▸ List.mem_cons_self
    rcases h.stage with ⟨hnot, _⟩ | ⟨drained, hcount, hfirst⟩ | ⟨_, hnot, _, _, _⟩
    · exact absurd hmem hnot
    · rw [hqueue, List.count_cons_self] at hcount
      exact .returned drained (List.count_eq_zero.mp (Nat.succ.inj hcount)) _ hitems hfirst
    · exact absurd hmem hnot
  · rw [if_neg hi] at hitems
    refine h.stage.congr (fun hd => hd) ?_ hitems
    rw [hqueue, List.count_cons_of_ne hi]

theorem mem_inOrder {order set : List ℕ} : i ∈ inOrder order set ↔ i ∈ set := by
  unfold inOrder
  split_ifs with h
  · exact h.mem_iff
  · rfl

private theorem inOrder_nodup {order set : List ℕ} (h : set.Nodup) : (inOrder order set).Nodup := by
  unfold inOrder
  split_ifs with hperm
  · exact hperm.nodup_iff.mpr h
  · exact h

/-- Behind a critical stream, nothing has changed for the stream. -/
theorem Spared.critical (h : Spared id s s') (hbidi : isBidi id = true)
    {stream : Connection → Option ℕ}
    (hcritical : ∀ h i, stream h = some i → h.IsCritical i) {env : Env}
    {f : Unit → Program Error Session (ℕ × Event)}
    {Q : ℕ × Event → Session → Prop} {P : Session → Prop} (hP : ∀ t, Spared id s t → P t)
    (hf : ∀ t, Spared id s t → (f ()).Ends t Q fun e t' => (∃ err, e = .error err) → P t') :
    (processCritical stream env >>= f).Ends s' Q fun e t' => (∃ err, e = .error err) → P t' := by
  have hkeeps := processCritical_keepsOut hcritical hbidi env s'
  refine (Program.Ends.mono hkeeps (fun _ t ht => h.trans ht) fun e t ht he => ?_).bind
    fun _ t ht => hf t ht
  exact hP t (h.trans (ht he))

/-- A poll that does not come back to the stream. -/
theorem poll_tracked (h : Tracked id s) (order : List ℕ) (env : Env)
    (hspares : (Step.poll order env).Spares id s) :
    (discard (poll order env)).Keeps (fun _ => Tracked id) s := by
  have hbidi := h.receiving.isBidi
  suffices hpoll : (pollEvent order env).Ends s
      (fun ev s' => Tracked id { s' with log := s'.log ++ [(ev.1, .event ev.2)] })
      fun e s' => (∃ err, e = .error err) → Tracked id s' from
    Program.Keeps.discard (hpoll.bind fun ev s' hs' => hs')
  unfold pollEvent
  rw [Program.ends_bind, Program.ends_get]
  split_ifs
  · exact fun _ => h
  refine (Spared.refl h.sane).critical hbidi (fun _ _ => .inl) (fun t ht => h.spared ht)
    fun s₁ hs₁ => ?_
  refine hs₁.critical hbidi (fun _ _ hi => .inr (.inl hi)) (fun t ht => h.spared ht)
    fun s₂ hs₂ => ?_
  refine hs₂.critical hbidi (fun _ _ hi => .inr (.inr hi)) (fun t ht => h.spared ht)
    fun s₃ hs₃ => ?_
  have htracked := h.spared hs₃
  rw [Program.ends_bind, Program.ends_get]
  cases hqueue : s₃.http3.finishedStreams with
  | cons i ids => exact htracked.dequeue hqueue
  | nil =>
    refine (processReadable_tracked env (inOrder_nodup htracked.nodup) htracked fun hmem => ?_).mono
      (fun ev s' hs' => hs'.1.record hs'.2.1 hs'.2.2) fun _ _ hs' => hs'
    have hreads := htracked.receiving.readsAt (mem_inOrder.mp hmem)
    have hlive : (s₃.conn.streams.streams id).isSome := by
      obtain ⟨t, ht, -⟩ := (Option.any_eq_true _ _).mp hreads
      rw [ht]
      rfl
    have hnot : id ∉ s₃.http3.finishedStreams := by
      rw [hqueue]
      exact List.not_mem_nil
    refine ⟨htracked, hnot, fun hitems => ?_, hlive⟩
    -- otherwise the stream is at its end, and the poll comes back to it
    refine hspares (hs₃.queue.symm.trans hqueue) ⟨.inr (hs₃.items ▸ hitems), ?_,
      hs₃.readsAt ▸ hreads⟩
    rw [← hs₃.drained]
    rcases htracked.stage with ⟨_, hnone⟩ | ⟨hdrained, _, _⟩ | ⟨hdrained, _, _, _, _⟩
    · exact absurd hitems hnone
    · exact hdrained
    · exact hdrained

/-- From a stream with nothing to read, nothing is read. -/
theorem streamRecv_idle {c : Dtp.Connection} (h : c.streams.readsAt id = false) (cap : ℕ) :
    ∃ e, Dtp.Connection.streamRecv id cap c = .error (.error e) c := by
  unfold Dtp.Connection.streamRecv
  rw [Program.bind_apply, Program.get_apply]
  dsimp only
  split_ifs
  · exact ⟨_, rfl⟩
  cases live : c.streams.streams id with
  | none => exact ⟨_, rfl⟩
  | some t =>
    rw [StreamMap.readsAt_live live] at h
    dsimp only
    rw [h]
    exact ⟨_, rfl⟩

private theorem recvBody_idle (sane : s.http3.Sane) (h : s.conn.streams.readsAt id = false)
    (cap : ℕ) :
    (recvBody id cap).Keeps (fun t t' => t' = t) s := by
  rw [recvBody, Program.keeps_get_bind]
  cases hstream : s.http3.streams id with
  | none => exact Program.keeps_fail.mpr rfl
  | some stream =>
    refine .ite (fun _ => Program.keeps_fail.mpr rfl) fun _ => ?_
    rw [tryConsumeData, bind_assoc, Program.keeps_get_bind, hstream, Program.unwrap_some, pure_bind]
    split_ifs
    · exact Program.keeps_underflow
    rw [Program.unwrapSub_some, pure_bind, sane.own id stream hstream]
    obtain ⟨e, he⟩ := streamRecv_idle h (min cap (stream.stateLen - stream.stateOff))
    unfold Program.Keeps Program.Ends
    rw [bind_assoc, Program.bind_apply, transport_apply, he]
    exact fun _ => rfl

/-- Reads of a body work on one stream, up to the end that may be queued then. -/
theorem readBody_visits (cap : ℕ) (s : Session) :
    (do
      let data ← tryConsumeData id cap
      forM data fun b => record id (.byte b)
      pure data).Keeps (Visits id) s := by
  refine .bind (tryConsumeData_visits cap s) fun data s _ => ?_
  refine .bind (.forM (fun b s => record_visits (by simp) s) data s) fun _ s _ => ?_
  exact refl_of (Visits id) s

/-- A read of a body that does not come back to the stream. -/
theorem recvBody_tracked (h : Tracked id s) (i cap : ℕ)
    (hspares : (Step.recvBody i cap).Spares id s) :
    (discard (recvBody i cap)).Keeps (fun _ => Tracked id) s := by
  refine Program.Keeps.discard ?_
  -- a stream with nothing to read is left alone
  by_cases hidle : i = id ∧ s.conn.streams.readsAt id = false
  · obtain ⟨rfl, hreads⟩ := hidle
    refine (recvBody_idle h.sane hreads cap).mono ?_
    rintro s' rfl
    exact h
  rw [recvBody, Program.keeps_get_bind]
  cases hstream : s.http3.streams i with
  | none => exact Program.keeps_fail.mpr h
  | some stream =>
    refine .ite (fun _ => Program.keeps_fail.mpr h) fun hstate => ?_
    have hsplit : (do
        let data ← tryConsumeData i cap
        forM data fun b => record i (.byte b)
        queueFinished i
        pure data : Program Error Session (List UInt8)) = (do
          let data ← tryConsumeData i cap
          forM data fun b => record i (.byte b)
          pure data) >>= fun data => queueFinished i >>= fun _ => pure data := by
      simp only [bind_assoc, pure_bind]
    rw [hsplit]
    have hvisits := @readBody_visits i cap s
    rcases eq_or_ne id i with rfl | hi
    · have hreads : s.conn.streams.readsAt id = true := by simpa using hidle
      -- its Finished event is not out: it would linger otherwise
      have hreading : Reading id s := by
        have hlingers := hspares rfl (by simpa [hstream] using hstate)
        rcases h.stage with ⟨hqueue, hitems⟩ | ⟨hdrained, hcount, _⟩ | ⟨hdrained, _, before,
          hitems, _⟩
        · obtain ⟨t, ht, -⟩ := (Option.any_eq_true _ _).mp hreads
          exact ⟨h, hqueue, hitems, by rw [ht]; rfl⟩
        · have hmem : id ∈ s.http3.finishedStreams := List.count_pos_iff.mp (by omega)
          exact absurd ⟨.inl hmem, hdrained, hreads⟩ hlingers
        · have hmem : .event .finished ∈ s.itemsOf id := by
            rw [hitems]
            exact List.mem_append_right _ List.mem_cons_self
          exact absurd ⟨.inr hmem, hdrained, hreads⟩ hlingers
      refine (Program.Ends.mono hvisits (fun _ s₁ hs₁ => hreading.visited (hs₁ h.sane))
        fun e s₁ hs₁ he => ?_).bind
        fun _ s₁ hs₁ => ?_
      · exact (hreading.visited (hs₁ he h.sane)).tracked
      · exact (hs₁.queueFinished.mono (fun _ _ hs₂ => hs₂.1) fun _ _ hf => hf.elim).bind
          fun _ _ hs₂ => hs₂
    · refine (Program.Ends.mono hvisits (fun _ s₁ hs₁ => h.spared ((hs₁ h.sane).spared hi))
        fun e s₁ hs₁ he => ?_).bind
        fun _ s₁ hs₁ => ?_
      · exact h.spared ((hs₁ he h.sane).spared hi)
      · exact ((hs₁.queueFinished_of_ne hi).mono (fun _ _ hs₂ => hs₂.1) fun _ _ hf => hf.elim).bind
          fun _ _ hs₂ => hs₂

/-- What arrives changes nothing for the end of the stream. -/
theorem arrive_tracked (h : Tracked id s) (i : ℕ) (data : RangeBuf) (epoch : Epoch)
    (env : Dtp.Env) :
    (Step.arrive i data epoch env).program.Keeps (fun _ => Tracked id) s := by
  refine .embed (arrive_acts i data epoch env s.conn) fun c hc => ?_
  rcases eq_or_ne id i with rfl | hi
  · refine ⟨h.sane, hc.receiving h.receiving, hc.nodup h.nodup, ?_⟩
    exact h.stage.congr (fun hd => hc.drained h.receiving hd) rfl rfl
  · refine ⟨h.sane, hc.receiving_of_ne hi h.receiving, hc.nodup h.nodup, ?_⟩
    exact h.stage.congr (fun hd => (hc.drained_of_ne hi).trans hd) rfl rfl

/-- A step that does not come back to the stream. -/
theorem step_tracked (h : Tracked id s) {label : Step} (hspares : label.Spares id s)
    (hstep : step s label = some s') :
    Tracked id s' := by
  suffices hkeeps : label.program.Keeps (fun _ =>
    Tracked id) s from Program.keeps_iff_after.mp hkeeps s' hstep
  cases label with
  | arrive i data epoch env => exact arrive_tracked h i data epoch env
  | poll order env => exact poll_tracked h order env hspares
  | recvBody i cap => exact recvBody_tracked h i cap hspares

/-- In a run that does not come back to the stream, its end is returned once. -/
theorem always_finishedOnce (h : Fresh id s) {labels : List Step}
    (hspares : Lib.AllSteps step (fun s label => label.Spares id s) s labels) :
    Lib.Always step (FinishedOnce id) s labels :=
  (Lib.always_of_step (fun _ _ _ htracked hlabel =>
    step_tracked htracked hlabel) h.tracked hspares).mono
    fun _ => Tracked.finishedOnce

end Session

namespace Sample

/-- A new connection of a server. -/
def server : Session :=
  ⟨.new true ⟨none, none, none⟩, .new (Dtp.Sample.config (.basic {})) true false 0, []⟩

/-- A STREAM frame arrives on the first request stream. -/
def arrive (off : ℕ) (data : List UInt8) (fin : Bool) : Session.Step :=
  .arrive 0 ⟨data, off, fin⟩ .application (Dtp.Sample.env 1)

/-- The application polls. -/
def poll : Session.Step := .poll [] env

/-- A HEADERS frame. -/
def headersBytes : List UInt8 := [1, 3, 0, 0, 209]

end Sample

namespace Session

/-- A request arrives with its end. -/
theorem always_finishedOnce_headers :
    Lib.Always step (FinishedOnce 0) Sample.server
      [Sample.arrive 0 Sample.headersBytes true, Sample.poll, Sample.poll, Sample.poll] :=
  always_finishedOnce (fresh_new rfl _ _ _ _ _) (by decide +kernel)

/-- The end of a request arrives in front of its data. -/
theorem not_always_finishedOnce : ¬ ∀ id s labels, Fresh id s → Lib.Always step
    (FinishedOnce id) s labels := by
  intro hall
  let labels := [Sample.arrive 5 [] true, Sample.arrive 0 Sample.headersBytes false, Sample.poll,
    Sample.poll,
    Sample.poll, Sample.poll]
  let before : List Item :=
    [.frame (.headers [0, 0, 209]), .event (.headers [⟨":method", "GET"⟩] false)]
  have hrun : (Lib.run step Sample.server labels).any (fun s =>
      decide (s.itemsOf 0 = before ++ .event .finished :: [.event .finished])) = true := by
    decide +kernel
  obtain ⟨s, hs, hitems⟩ := (Option.any_eq_true _ _).mp hrun
  have hfinished :=
    ((hall 0 _ labels (fresh_new rfl _ _ _ _ _)).last hs _ _ (of_decide_eq_true hitems)).2
  exact absurd (hfinished _ List.mem_cons_self) (by decide)

end Session

end Dtp.H3
