import Dtp.Actions

/-!
# What the actions do to the streams

Most actions concern one stream: they look it up or create it, change one of its
buffers, and may queue or collect it. For each of them one theorem says which state it
leads to, errors included; the invariants of later modules are proved from these.

## Main definitions

* `StreamMap.Origin` — a stream that exists, or that may be created
* `StreamMap.Updated` — a map in which one stream is changed

## Main results

* `Connection.streamSendFull_effect` and the other theorems of this form
-/

namespace Dtp

open Lib (Program run)

namespace StreamMap

/-- The stream `id` exists and is `s`, or it may be created and is `s` then. -/
inductive Origin (m : StreamMap) (id : ℕ) (s : Stream) : Prop
  | live (h : m.streams id = some s)
  | fresh (hlive : m.streams id = none) (hcollected : id ∉ m.collected)
      (hrecv : ∃ maxData, s.recv = .new maxData)
      (hsend : ∃ maxData deadline priority now, s.send = .newFull maxData deadline priority now)

/-- The limits for streams that either side has announced are the same. -/
structure SameLimits (m m' : StreamMap) : Prop where
  peerMaxBidi : m'.peerMaxStreamsBidi = m.peerMaxStreamsBidi
  peerMaxUni : m'.peerMaxStreamsUni = m.peerMaxStreamsUni
  localMaxBidi : m'.localMaxStreamsBidi = m.localMaxStreamsBidi
  localMaxUni : m'.localMaxStreamsUni = m.localMaxStreamsUni
  localNextBidi : m'.localMaxStreamsBidiNext = m.localMaxStreamsBidiNext
  localNextUni : m'.localMaxStreamsUniNext = m.localMaxStreamsUniNext

theorem SameLimits.refl (m : StreamMap) : m.SameLimits m := ⟨rfl, rfl, rfl, rfl, rfl, rfl⟩

instance : IsPreorder StreamMap SameLimits where
  refl := .refl
  trans _ _ _ h h' :=
    ⟨h'.peerMaxBidi.trans h.peerMaxBidi, h'.peerMaxUni.trans h.peerMaxUni,
      h'.localMaxBidi.trans h.localMaxBidi, h'.localMaxUni.trans h.localMaxUni,
      h'.localNextBidi.trans h.localNextBidi, h'.localNextUni.trans h.localNextUni⟩

/-- Counting a stream changes the counters alone. -/
theorem countOpened_eq {m m' : StreamMap} {local_ bidi : Bool}
    (h : m.countOpened local_ bidi = .ok m') : ∃ localBidi localUni peerBidi peerUni,
      m' =
        { m with
          localOpenedStreamsBidi := localBidi
          localOpenedStreamsUni := localUni
          peerOpenedStreamsBidi := peerBidi
          peerOpenedStreamsUni := peerUni } := by
  unfold countOpened at h
  split at h <;> split_ifs at h <;> cases h <;> exact ⟨_, _, _, _, rfl⟩

/-- A stream is not counted because the limit is reached. -/
theorem countOpened_error {m : StreamMap} {local_ bidi : Bool} {e : Error}
    (h : m.countOpened local_ bidi = .error e) : e = .streamLimit := by
  unfold countOpened at h
  split at h <;> split_ifs at h <;> cases h <;> rfl

/-- The map `m'` is `m` with `s` for the stream `id`, which is appended to the queue if
`queued` holds. -/
structure Updated (m : StreamMap) (id : ℕ) (s : Stream) (queued : Bool) (m' : StreamMap) :
    Prop where
  streams : m'.streams = (m.put id s).streams
  collected : m'.collected = m.collected
  flushable : m'.flushable = if queued then m.flushable ++ [id] else m.flushable
  canceled : m'.canceled = m.canceled
  scheduler : m'.scheduler = m.scheduler
  limits : m.SameLimits m'

/-- The receiving side of a stream changes, if anything does. -/
inductive Receives (m : StreamMap) : StreamMap → Prop
  | same : Receives m m
  | updated {id : ℕ} {s : Stream} {recv : RecvBuf} {m' : StreamMap} (origin : m.Origin id s)
      (updated : m.Updated id { s with recv := recv } false m') : Receives m m'

section Fields

variable (m : StreamMap) (id i : ℕ) (s : Stream) (b : Bool)

@[simp] theorem put_streams_self : (m.put id s).streams id = some s := if_pos rfl

/-- Other streams stay. -/
theorem put_streams_of_ne {id i : ℕ} (h : i ≠ id) : (m.put id s).streams i = m.streams i := if_neg h

@[simp] theorem put_put (s' : Stream) : (m.put id s).put id s' = m.put id s' := by
  unfold put
  congr 1
  funext j
  dsimp only
  split_ifs <;> rfl

/-- A stream is put. -/
theorem put_updated : Updated m id s false (m.put id s) :=
  ⟨rfl, rfl, rfl, rfl, rfl, { SameLimits.refl m with }⟩

end Fields

namespace Updated

variable {m m' m'' : StreamMap} {id : ℕ} {s s' : Stream} {queued queued' : Bool}

/-- What else changes does not matter. -/
theorem of_same (h : Updated m id s queued m') (hstreams : m''.streams = m'.streams)
    (hcollected : m''.collected = m'.collected) (hflushable : m''.flushable = m'.flushable)
    (hcanceled : m''.canceled = m'.canceled) (hscheduler : m''.scheduler = m'.scheduler)
    (hlimits : m'.SameLimits m'') : Updated m id s queued m'' :=
  ⟨hstreams.trans h.streams, hcollected.trans h.collected, hflushable.trans h.flushable,
    hcanceled.trans h.canceled, hscheduler.trans h.scheduler,
    trans_of SameLimits h.limits hlimits⟩

/-- Readable marks do not matter. -/
theorem markReadable (h : Updated m id s queued m') (i : ℕ) (b : Bool) :
    Updated m id s queued (m'.markReadable i b) :=
  h.of_same rfl rfl rfl rfl rfl { SameLimits.refl m' with }

/-- Writable marks do not matter. -/
theorem markWritable (h : Updated m id s queued m') (i : ℕ) (b : Bool) :
    Updated m id s queued (m'.markWritable i b) :=
  h.of_same rfl rfl rfl rfl rfl { SameLimits.refl m' with }

/-- Marks of almost full streams do not matter. -/
theorem markAlmostFull (h : Updated m id s queued m') (i : ℕ) (b : Bool) :
    Updated m id s queued (m'.markAlmostFull i b) :=
  h.of_same rfl rfl rfl rfl rfl { SameLimits.refl m' with }

/-- Both branches update the stream. -/
theorem ite {c : Prop} [Decidable c] (h : Updated m id s queued m')
    (h' : Updated m id s queued m'') : Updated m id s queued (if c then m' else m'') := by
  split_ifs
  · exact h
  · exact h'

/-- The stream is queued. -/
theorem pushFlushable (h : Updated m id s false m') :
    Updated m id s true (m'.pushFlushable id) :=
  ⟨h.streams, h.collected, by simp [StreamMap.pushFlushable, h.flushable], h.canceled, h.scheduler,
    { h.limits with }⟩

/-- The stream is queued, if it is to be. -/
theorem pushFlushableIf (h : Updated m id s false m') (c : Bool) :
    Updated m id s c (if c then m'.pushFlushable id else m') := by
  cases c
  · exact h
  · exact h.pushFlushable

/-- The stream is put once more. -/
theorem put (h : Updated m id s queued m') (s' : Stream) :
    Updated m id s' queued (m'.put id s') := by
  refine ⟨?_, h.collected, h.flushable, h.canceled, h.scheduler,
    { h.limits with }⟩
  have : (m'.put id s').streams = ((m.put id s).put id s').streams := by
    unfold StreamMap.put
    rw [h.streams]
    rfl
  rw [this, put_put]

end Updated

/-- How `getOrCreate` comes by a stream: it is there, or it is counted and created. -/
inductive Opening (m : StreamMap) (id : ℕ) (args : OpenArgs) : Stream → StreamMap → Prop
  | live {s : Stream} (live : m.streams id = some s) :
      Opening m id args s (if s.isWritable then m.markWritable id true else m)
  | fresh {s : Stream} {counted : StreamMap} (vacant : m.streams id = none)
      (side : args.isLocal = isLocal id args.isServer) (uncollected : id ∉ m.collected)
      (count : m.countOpened (isLocal id args.isServer) (isBidi id) = .ok counted)
      (stream : s = .newFull
        (initialLimits args.localParams args.peerParams args.isLocal (isBidi id)).1
        (initialLimits args.localParams args.peerParams args.isLocal (isBidi id)).2
        (isBidi id) args.isLocal args.deadline args.priority args.now) :
      Opening m id args s
        (if s.isWritable then (counted.put id s).markWritable id true else counted.put id s)

/-- What `getOrCreate` returns. -/
theorem getOrCreate_opening {m m' : StreamMap} {id : ℕ} {args : OpenArgs} {s : Stream}
    (h : m.getOrCreate id args = .ok (s, m')) : m.Opening id args s m' := by
  unfold getOrCreate at h
  split at h
  · rename_i live
    cases h
    exact .live live
  · rename_i vacant
    split_ifs at h with hside hcollected
    dsimp only at h
    split at h
    · cases h
    · rename_i count
      cases h
      exact .fresh vacant (not_not.mp hside) hcollected count rfl

/-- A stream that is there is returned, and marked if it is writable. -/
theorem getOrCreate_live {m m' : StreamMap} {id : ℕ} {args : OpenArgs} {s s₀ : Stream}
    (live : m.streams id = some s₀) (h : m.getOrCreate id args = .ok (s, m')) :
    s = s₀ ∧ m' = if s₀.isWritable then m.markWritable id true else m := by
  cases getOrCreate_opening h with
  | live live' =>
    cases live.symm.trans live'
    exact ⟨rfl, rfl⟩
  | fresh vacant => cases live.symm.trans vacant

/-- Why a stream is neither found nor created. -/
theorem getOrCreate_error {m : StreamMap} {id : ℕ} {args : OpenArgs} {e : Error}
    (h : m.getOrCreate id args = .error e) : m.streams id = none ∧
      (args.isLocal ≠ isLocal id args.isServer ∧ e = .invalidStreamState ∨
        id ∈ m.collected ∧ e = .done ∨
        args.isLocal = isLocal id args.isServer ∧ id ∉ m.collected ∧ e = .streamLimit ∧
          m.countOpened (isLocal id args.isServer) (isBidi id) = .error e) := by
  unfold getOrCreate at h
  split at h
  · cases h
  · rename_i vacant
    refine ⟨vacant, ?_⟩
    split_ifs at h with hside hcollected
    · cases h
      exact .inl ⟨hside, rfl⟩
    · cases h
      exact .inr (.inl ⟨hcollected, rfl⟩)
    · dsimp only at h
      split at h
      · rename_i count
        cases h
        exact .inr (.inr ⟨not_not.mp hside, hcollected, countOpened_error count, count⟩)
      · cases h

/-- The stream that `getOrCreate` returns, and the map with it. -/
theorem getOrCreate_spec {m m' : StreamMap} {id : ℕ} {args : OpenArgs} {s : Stream}
    (h : m.getOrCreate id args = .ok (s, m')) : Origin m id s ∧ Updated m id s false m' := by
  cases getOrCreate_opening h with
  | live live =>
    have hput : Updated m id s false m := by
      refine ⟨funext fun i => ?_, rfl, rfl, rfl, rfl, .refl m⟩
      rcases eq_or_ne i id with rfl | hne
      · rw [put_streams_self, live]
      · rw [put_streams_of_ne _ _ hne]
    exact ⟨.live live, (hput.markWritable id true).ite hput⟩
  | fresh vacant _ uncollected count stream =>
    obtain ⟨_, _, _, _, rfl⟩ := countOpened_eq count
    subst stream
    refine ⟨.fresh vacant uncollected ⟨_, rfl⟩ ⟨_, _, _, _, rfl⟩, ?_⟩
    refine .ite (.markWritable ?_ id true) ?_
    all_goals exact ⟨rfl, rfl, rfl, rfl, rfl, { SameLimits.refl m with }⟩

end StreamMap

namespace Connection

/-- A stream is there, or it is created. -/
theorem getOrCreateStream_spec {c : Connection} {id deadline priority now : ℕ} {byLocal : Bool}
    {s : Stream} {m : StreamMap}
    (h : c.getOrCreateStream id byLocal deadline priority now = .ok (s, m)) :
    c.streams.Origin id s ∧ c.streams.Updated id s false m := StreamMap.getOrCreate_spec h

/-- The stream `id` is looked up or opened, by the application or for a frame, and is `s`. -/
def Opens (c : Connection) (byLocal : Bool) (id : ℕ) (s : Stream) : Prop :=
  ∃ deadline priority now m, c.getOrCreateStream id byLocal deadline priority now = .ok (s, m)

/-- What `streamSendFull` does. -/
inductive Wrote (id : ℕ) (data : List UInt8) (fin : Bool) (c : Connection) : Connection → Prop
  | refused : Wrote id data fin c c
  | failed {s : Stream} {send : SendBuf} {e : Fault} {m : StreamMap}
      (origin : c.streams.Origin id s) (push : SendBuf.pushSlice data fin s.send = .error e send)
      (updated : c.streams.Updated id { s with send := send } false m) (opens : c.Opens true id s) :
      Wrote id data fin c (c.setStreams m)
  | stored {s s' : Stream} {send : SendBuf} {n : ℕ} {m : StreamMap}
      (origin : c.streams.Origin id s) (push : SendBuf.pushSlice data fin s.send = .ok n send)
      (stream : s' = { s with send := send })
      (updated : c.streams.Updated id s'
        ((s'.isFlushable || (data.isEmpty && fin)) && !s.isFlushable) m)
      (opens : c.Opens true id s) :
      Wrote id data fin c (c.setStreams m)

theorem streamSendFull_effect (id : ℕ) (data : List UInt8) (fin : Bool) (deadline priority now : ℕ)
    (c : Connection) :
    (streamSendFull id data fin deadline priority now).Keeps (Wrote id data fin) c := by
  rw [streamSendFull, Program.keeps_get_bind]
  refine .ite (fun _ => Program.keeps_fail.mpr .refused) fun _ => ?_
  cases hopen : c.getOrCreateStream id true deadline priority now with
  | error e => exact Program.keeps_fail.mpr .refused
  | ok r =>
    obtain ⟨s, m⟩ := r
    obtain ⟨origin, updated⟩ := getOrCreateStream_spec hopen
    simp only [Program.Keeps, Program.ofExcept_ok, pure_bind, Program.ends_bind, Program.ends_set]
    cases hpush : SendBuf.pushSlice data fin s.send with
    | error e send =>
      simp only [Program.ends_bind, Program.ends_set, Program.ends_throw]
      exact fun _ => .failed origin hpush (updated.put _) ⟨_, _, _, _, hopen⟩
    | ok n send =>
      simp only [Program.ends_bind, Program.ends_set, Program.ends_pure]
      refine .stored origin hpush rfl ?_ ⟨_, _, _, _, hopen⟩
      have h := (updated.put { s with send := send }).pushFlushableIf
        (({ s with send := send : Stream }.isFlushable || (data.isEmpty && fin)) && !s.isFlushable)
      exact h.ite (h.markWritable id false)

/-- What `streamRecv` does. -/
inductive ReadFrom (id cap : ℕ) (c : Connection) : Connection → Prop
  | refused : ReadFrom id cap c c
  | got {s s' : Stream} {recv : RecvBuf} {out : List UInt8} {fin : Bool} {m : StreamMap}
      (live : c.streams.streams id = some s) (pop : s.recv.pop cap = .ok (out, fin, recv))
      (stream : s' = { s with recv := recv }) (updated : c.streams.Updated id s' false m) :
      ReadFrom id cap c
        { c.setStreams (if s'.isComplete then m.collect id s'.isLocal else m) with
          maxRxDataNext := saturatingAdd c.maxRxDataNext out.length }

theorem streamRecv_effect (id cap : ℕ) (c : Connection) :
    (streamRecv id cap).Keeps (ReadFrom id cap) c := by
  rw [streamRecv, Program.keeps_get_bind]
  refine .ite (fun _ => Program.keeps_fail.mpr .refused) fun _ => ?_
  cases live : c.streams.streams id with
  | none => exact Program.keeps_fail.mpr .refused
  | some s =>
    refine .ite (fun _ => Program.keeps_fail.mpr .refused) fun _ => ?_
    cases hpop : s.recv.pop cap with
    | error e => exact Program.keeps_fail.mpr .refused
    | ok r =>
      obtain ⟨out, fin, recv⟩ := r
      simp only [Program.Keeps, Program.ofExcept_ok, pure_bind, Program.ends_bind, Program.ends_set,
        Program.ends_pure]
      refine .got live hpop rfl ?_
      have h := c.streams.put_updated id { s with recv := recv }
      have h' := (h.markAlmostFull id true).ite (c := recv.almostFull = true) h
      exact h'.ite (h'.markReadable id false)

/-- What `streamShutdown` does. -/
inductive ShutDown (id : ℕ) (c : Connection) : Shutdown → Connection → Prop
  | refused {direction : Shutdown} : ShutDown id c direction c
  | read {s : Stream} {recv : RecvBuf} {m : StreamMap} (live : c.streams.streams id = some s)
      (shutdown : s.recv.shutdown = .ok recv)
      (updated : c.streams.Updated id { s with recv := recv } false m) :
      ShutDown id c .read (c.setStreams m)
  | write {s : Stream} {send : SendBuf} {m : StreamMap} (live : c.streams.streams id = some s)
      (shutdown : s.send.shutdown = .ok send)
      (updated : c.streams.Updated id { s with send := send } false m) :
      ShutDown id c .write (c.setStreams m)

theorem streamShutdown_effect (id : ℕ) (direction : Shutdown) (c : Connection) :
    (streamShutdown id direction).Keeps (fun c => ShutDown id c direction) c := by
  rw [streamShutdown, Program.keeps_get_bind]
  cases live : c.streams.streams id with
  | none => exact Program.keeps_fail.mpr .refused
  | some s =>
    cases direction with
    | read =>
      dsimp only
      cases hshut : s.recv.shutdown with
      | error e => exact Program.keeps_fail.mpr .refused
      | ok recv => exact .read live hshut ((c.streams.put_updated id _).markReadable id false)
    | write =>
      dsimp only
      cases hshut : s.send.shutdown with
      | error e => exact Program.keeps_fail.mpr .refused
      | ok send => exact .write live hshut ((c.streams.put_updated id _).markWritable id false)

/-- What a frame does that concerns the receiving side of a stream. -/
structure Receives (c c' : Connection) : Prop where
  streams : c.streams.Receives c'.streams
  recovery : c'.recovery = c.recovery

/-- What a BLOCK_INFO frame does. -/
inductive GotBlockInfo (id : ℕ) (c : Connection) : Connection → Prop
  | refused : GotBlockInfo id c c
  | stored {s : Stream} {m : StreamMap} (size priority deadline startTime : ℕ)
      (origin : c.streams.Origin id s)
      (updated : c.streams.Updated id
        { s with recv := s.recv.setBlockInfo size priority deadline startTime } false m)
      (opens : c.Opens false id s) :
      GotBlockInfo id c (c.setStreams m)

theorem GotBlockInfo.receives {id : ℕ} {c c' : Connection} (h : c.GotBlockInfo id c') :
    c.Receives c' := by
  cases h with
  | refused => exact ⟨.same, rfl⟩
  | stored _ _ _ _ origin updated => exact ⟨.updated origin updated, rfl⟩

theorem processBlockInfo_effect (id size priority deadline startTime : ℕ) (env : Env)
    (c : Connection) :
    (processBlockInfo id size priority deadline startTime env).Keeps (GotBlockInfo id) c := by
  rw [processBlockInfo, Program.keeps_get_bind]
  refine .ite (fun _ => Program.keeps_fail.mpr .refused) fun _ => ?_
  cases hopen : c.peerStream id env.wall with
  | error e => exact Program.keeps_fail.mpr .refused
  | ok r =>
    obtain ⟨origin, updated⟩ := getOrCreateStream_spec hopen
    exact .stored size priority deadline startTime origin (updated.put _) ⟨_, _, _, _, hopen⟩

/-- What a MAX_STREAM_DATA frame does. -/
inductive GotMaxStreamData (id max : ℕ) (c : Connection) : Connection → Prop
  | refused : GotMaxStreamData id max c c
  | raised {s s' : Stream} {m : StreamMap} (origin : c.streams.Origin id s)
      (stream : s' = { s with send := s.send.updateMaxData max })
      (updated : c.streams.Updated id s' (s'.isFlushable && !s.isFlushable) m)
      (opens : c.Opens false id s) :
      GotMaxStreamData id max c (c.setStreams m)

theorem processMaxStreamData_effect (id max : ℕ) (env : Env) (c : Connection) :
    (processMaxStreamData id max env).Keeps (GotMaxStreamData id max) c := by
  rw [processMaxStreamData, Program.keeps_get_bind]
  cases hopen : c.peerStream id env.wall with
  | error e =>
    cases e
    case done => exact .refused
    all_goals exact Program.keeps_fail.mpr .refused
  | ok r =>
    obtain ⟨s, m⟩ := r
    obtain ⟨origin, updated⟩ := getOrCreateStream_spec hopen
    refine .raised origin rfl ?_ ⟨_, _, _, _, hopen⟩
    have h := (updated.put { s with send := s.send.updateMaxData max }).pushFlushableIf
      ({ s with send := s.send.updateMaxData max : Stream }.isFlushable && !s.isFlushable)
    exact (h.markWritable id true).ite h

/-- What an accepted STREAM frame does. -/
inductive StreamAccepted (id : ℕ) (data : RangeBuf) (now : ℕ) (c : Connection) : Connection → Prop
  | ignored (h : c.peerStream id now = .error .done) : StreamAccepted id data now c c
  | stored {s : Stream} {recv : RecvBuf} {m : StreamMap} (origin : c.streams.Origin id s)
      (room : c.rxData + data.len ≤ c.maxRxData) (push : s.recv.pushEvaluation data now = .ok recv)
      (updated : c.streams.Updated id { s with recv := recv } false m)
      (opens : c.Opens false id s) :
      StreamAccepted id data now c { c.setStreams m with rxData := c.rxData + data.len }

/-- What a rejected STREAM frame does. -/
inductive StreamRejected (id : ℕ) (c : Connection) : Connection → Prop
  | refused : StreamRejected id c c
  | opened {s : Stream} {m : StreamMap} (origin : c.streams.Origin id s)
      (updated : c.streams.Updated id s false m) (opens : c.Opens false id s) :
      StreamRejected id c (c.setStreams m)

/-- Data that is accepted is received. -/
theorem StreamAccepted.receives {id now : ℕ} {data : RangeBuf} {c c' : Connection}
    (h : c.StreamAccepted id data now c') : c.Receives c' := by
  cases h with
  | ignored => exact ⟨.same, rfl⟩
  | stored origin _ _ updated => exact ⟨.updated origin updated, rfl⟩

/-- Data that is rejected creates its stream at most. -/
theorem StreamRejected.receives {id : ℕ} {c c' : Connection} (h : c.StreamRejected id c') :
    c.Receives c' := by
  cases h with
  | refused => exact ⟨.same, rfl⟩
  | opened origin updated => exact ⟨.updated origin updated, rfl⟩

theorem processStream_effect (id : ℕ) (data : RangeBuf) (env : Env) (c : Connection) :
    (processStream id data env).Ends c (fun _ => StreamAccepted id data env.wall c)
      fun _ => StreamRejected id c := by
  rw [processStream, Program.ends_bind, Program.ends_get, Program.ends_ite]
  refine ⟨fun _ => .refused, fun _ => ?_⟩
  rw [Program.ends_ite]
  refine ⟨fun _ => .refused, fun room => ?_⟩
  cases hopen : c.peerStream id env.wall with
  | error e =>
    cases e
    case done => exact .ignored hopen
    all_goals exact .refused
  | ok r =>
    obtain ⟨s, m⟩ := r
    obtain ⟨origin, updated⟩ := getOrCreateStream_spec hopen
    simp only [Program.ends_bind, Program.ends_set]
    cases hpush : s.recv.pushEvaluation data env.wall with
    | error e => exact .opened origin updated ⟨_, _, _, _, hopen⟩
    | ok recv =>
      have h := updated.put { s with recv := recv }
      exact .stored origin (not_lt.mp room) hpush ((h.markReadable id true).ite h)
        ⟨_, _, _, _, hopen⟩

/-- What an accepted RESET_STREAM frame does. -/
inductive ResetAccepted (id code finalSize now : ℕ) (c : Connection) : Connection → Prop
  | ignored (h : c.peerStream id now = .error .done) : ResetAccepted id code finalSize now c c
  | stored {s : Stream} {recv recv' : RecvBuf} {credit : ℕ} {m : StreamMap}
      (origin : c.streams.Origin id s) (room : c.rxData + credit ≤ c.maxRxData)
      (shutdown : (if code = 1 then s.recv.shutdown else .ok s.recv) = .ok recv)
      (reset : recv.reset finalSize = .ok (credit, recv'))
      (updated : c.streams.Updated id { s with recv := recv' } false m)
      (opens : c.Opens false id s) :
      ResetAccepted id code finalSize now c { c.setStreams m with rxData := c.rxData + credit }

/-- What a rejected RESET_STREAM frame does. -/
inductive ResetRejected (id code finalSize : ℕ) (c : Connection) : Connection → Prop
  | refused : ResetRejected id code finalSize c c
  | opened {s : Stream} {m : StreamMap} (origin : c.streams.Origin id s)
      (updated : c.streams.Updated id s false m) (opens : c.Opens false id s) :
      ResetRejected id code finalSize c (c.setStreams m)
  | drained {s : Stream} {recv : RecvBuf} {m : StreamMap} (origin : c.streams.Origin id s)
      (shutdown : (if code = 1 then s.recv.shutdown else .ok s.recv) = .ok recv)
      (updated : c.streams.Updated id { s with recv := recv } false m)
      (opens : c.Opens false id s) :
      ResetRejected id code finalSize c (c.setStreams m)
  | charged {s : Stream} {recv recv' : RecvBuf} {credit : ℕ} {m : StreamMap}
      (origin : c.streams.Origin id s) (excess : c.maxRxData < c.rxData + credit)
      (shutdown : (if code = 1 then s.recv.shutdown else .ok s.recv) = .ok recv)
      (reset : recv.reset finalSize = .ok (credit, recv'))
      (updated : c.streams.Updated id { s with recv := recv' } false m)
      (opens : c.Opens false id s) :
      ResetRejected id code finalSize c { c.setStreams m with rxData := c.rxData + credit }

/-- A reset that is accepted is received. -/
theorem ResetAccepted.receives {id code finalSize now : ℕ} {c c' : Connection}
    (h : c.ResetAccepted id code finalSize now c') : c.Receives c' := by
  cases h with
  | ignored => exact ⟨.same, rfl⟩
  | stored origin _ _ _ updated => exact ⟨.updated origin updated, rfl⟩

/-- A reset that is rejected creates its stream at most. -/
theorem ResetRejected.receives {id code finalSize : ℕ} {c c' : Connection}
    (h : c.ResetRejected id code finalSize c') : c.Receives c' := by
  cases h with
  | refused => exact ⟨.same, rfl⟩
  | opened origin updated => exact ⟨.updated origin updated, rfl⟩
  | drained origin _ updated => exact ⟨.updated origin updated, rfl⟩
  | charged origin _ _ _ updated => exact ⟨.updated origin updated, rfl⟩

theorem processResetStream_effect (id code finalSize : ℕ) (env : Env) (c : Connection) :
    (processResetStream id code finalSize env).Ends c
      (fun _ => ResetAccepted id code finalSize env.wall c)
      fun _ => ResetRejected id code finalSize c := by
  rw [processResetStream, Program.ends_bind, Program.ends_get, Program.ends_ite]
  refine ⟨fun _ => .refused, fun _ => ?_⟩
  cases hopen : c.peerStream id env.wall with
  | error e =>
    cases e
    case done => exact .ignored hopen
    all_goals exact .refused
  | ok r =>
    obtain ⟨s, m⟩ := r
    obtain ⟨origin, updated⟩ := getOrCreateStream_spec hopen
    simp only [Program.ends_bind, Program.ends_set, Program.ends_ofExcept]
    have opens : c.Opens false id s := ⟨_, _, _, _, hopen⟩
    refine ⟨fun recv hshut => ⟨?_, fun _ _ => .drained origin hshut (updated.put _) opens⟩,
      fun _ _ => .opened origin updated opens⟩
    rintro ⟨credit, recv'⟩ hreset
    have h := updated.put { s with recv := recv' }
    simp only [Program.ends_ite, Program.ends_fail, Program.ends_pure]
    exact ⟨fun excess => .charged origin excess hshut hreset h opens,
      fun room => .stored origin (not_lt.mp room) hshut hreset h opens⟩

end Connection

/-! ### Recovery -/

namespace Recovery

/-- The frames of an epoch, in packets, lost or acked. -/
def Has (r : Recovery) (e : Epoch) (f : Frame) : Prop :=
  (∃ p ∈ r.sent e, f ∈ p.frames) ∨ f ∈ r.lost e ∨ f ∈ r.acked e

/-- Frames only move, or are forgotten. -/
def Moves (r r' : Recovery) : Prop := ∀ e f, r'.Has e f → r.Has e f

instance : IsPreorder Recovery Moves where
  refl _ _ _ := id
  trans _ _ _ h h' e f := fun hf => h e f (h' e f hf)

/-- No frame is moved. -/
theorem moves_of_eq {r r' : Recovery} (hsent : r'.sent = r.sent) (hlost : r'.lost = r.lost)
    (hacked : r'.acked = r.acked) : r.Moves r' := by
  intro e f h
  unfold Has at *
  rwa [hsent, hlost, hacked] at h

theorem modifyFecGroup_moves (r : Recovery) (info : FecStatus)
    (f : FecPacketNumbers → FecPacketNumbers) : r.Moves (r.modifyFecGroup info f) := by
  unfold modifyFecGroup
  split_ifs
  · exact refl_of Moves r
  · exact moves_of_eq rfl rfl rfl

/-- A change of one epoch moves frames if it does there. -/
theorem moves_at {r r' : Recovery} (epoch : Epoch) (h : ∀ f, r'.Has epoch f → r.Has epoch f)
    (hne : ∀ e, e ≠ epoch → r'.sent e = r.sent e ∧ r'.lost e = r.lost e ∧ r'.acked e = r.acked e) :
    r.Moves r' := by
  intro e f hf
  rcases eq_or_ne e epoch with rfl | he
  · exact h f hf
  · obtain ⟨hsent, hlost, hacked⟩ := hne e he
    unfold Has at *
    rwa [hsent, hlost, hacked] at hf

private theorem onPacketRecovered_moves (r : Recovery) (pktNum : ℕ) :
    r.Moves (r.onPacketRecovered pktNum) := by
  unfold onPacketRecovered
  cases hfind : (r.sent .application).find? fun p => p.pktNum == pktNum with
  | none => exact refl_of Moves r
  | some p =>
    have hp : p ∈ r.sent .application := List.mem_of_find?_eq_some hfind
    refine moves_at .application (fun f hf => ?_) fun e he => ?_
    · simp only [Has, Epoch.update_same, List.mem_append, List.mem_map] at hf
      rcases hf with ⟨q, ⟨q', hq', rfl⟩, hf⟩ | hf | hf | hf
      · split_ifs at hf
        · cases hf
        · exact .inl ⟨q', hq', hf⟩
      · exact .inr (.inl hf)
      · exact .inr (.inr hf)
      · exact .inl ⟨p, hp, hf⟩
    · exact ⟨Epoch.update_of_ne he, rfl, Epoch.update_of_ne he⟩

private theorem onPacketAcked_moves (r : Recovery) (pktNum : ℕ) (epoch : Epoch) :
    r.Moves (r.onPacketAcked pktNum epoch).2 := by
  unfold onPacketAcked
  cases hfind : (r.sent epoch).find? fun p => p.pktNum == pktNum with
  | none => exact refl_of Moves r
  | some p =>
    have hp : p ∈ r.sent epoch := List.mem_of_find?_eq_some hfind
    have hrecovered (pns : List ℕ) (r : Recovery) : r.Moves (pns.foldl onPacketRecovered r) := by
      induction pns generalizing r with
      | nil => exact refl_of Moves r
      | cons pn pns ih => exact trans_of Moves (onPacketRecovered_moves r pn) (ih _)
    refine trans_of Moves (trans_of Moves ?_ (modifyFecGroup_moves _ p.fecInfo _)) (hrecovered _ _)
    refine moves_at epoch (fun f hf => ?_) fun e he => ?_
    · simp only [Has, Epoch.update_same, List.mem_append, List.mem_filter] at hf
      rcases hf with ⟨q, ⟨hq, _⟩, hf⟩ | hf | hf | hf
      · exact .inl ⟨q, hq, hf⟩
      · exact .inr (.inl hf)
      · exact .inr (.inr hf)
      · exact .inl ⟨p, hp, hf⟩
    · exact ⟨Epoch.update_of_ne he, rfl, Epoch.update_of_ne he⟩

private theorem ackLoop_moves (epoch : Epoch) (pns : List ℕ) (newly : Bool) (r : Recovery) :
    r.Moves (ackLoop epoch pns (newly, r)).2 := by
  apply ackLoop_induct (P := r.Moves)
  · intro r₁ h pn _
    exact trans_of Moves h (onPacketAcked_moves r₁ pn epoch)
  · exact refl_of Moves r

private theorem onPacketLost_moves {epoch : Epoch} {r₀ r : Recovery} {p : Sent} (h : r₀.Moves r)
    (hp : ∀ f ∈ p.frames, r₀.Has epoch f) : r₀.Moves (onPacketLost epoch r p) := by
  have hsent : r.Moves
      { r with
        sent := Epoch.update r.sent epoch ((r.sent epoch).filter fun q => q.pktNum ≠ p.pktNum)
        lostCount := r.lostCount + 1 } := by
    refine moves_at epoch (fun f hf => ?_) fun e he => ⟨Epoch.update_of_ne he, rfl, rfl⟩
    simp only [Has, Epoch.update_same, List.mem_filter] at hf
    rcases hf with ⟨q, ⟨hq, _⟩, hf⟩ | hf
    · exact .inl ⟨q, hq, hf⟩
    · exact .inr hf
  have hmoves := trans_of Moves h hsent
  unfold onPacketLost
  split_ifs
  · have hgroup := trans_of Moves hmoves
      (modifyFecGroup_moves _ p.fecInfo fun g => g.packetLost p.pktNum)
    intro e f hf
    rcases eq_or_ne e epoch with rfl | he
    · simp only [Has, Epoch.update_same, List.mem_append] at hf
      rcases hf with hf | (hf | hf) | hf
      · exact hgroup e f (.inl hf)
      · exact hgroup e f (.inr (.inl hf))
      · exact hp f hf
      · exact hgroup e f (.inr (.inr hf))
    · refine hgroup e f ?_
      simpa only [Has, Epoch.update_of_ne he] using hf
  · exact hmoves

theorem detectLostPackets_moves (r : Recovery) (epoch : Epoch) (now lossDelay : ℕ) :
    r.Moves (r.detectLostPackets epoch now lossDelay) := by
  apply detectLostPackets_induct
  · intro r' h p hp
    exact onPacketLost_moves h fun f hf => .inl ⟨p, hp, hf⟩
  · intro lossTime
    exact moves_of_eq rfl rfl rfl

theorem onAckReceived_moves {r r' : Recovery} {ranges : RangeSet} {epoch : Epoch}
    {now lossDelay : ℕ} (h : r.onAckReceived ranges epoch now lossDelay = .ok r') : r.Moves r' := by
  apply onAckReceived_induct h
  · intro r₁ h₁
    exact trans_of Moves h₁ (detectLostPackets_moves r₁ epoch now lossDelay)
  · intro r₁ h₁
    exact trans_of Moves h₁ (ackLoop_moves epoch _ false r₁)
  · intro largestAckedPkt
    exact moves_of_eq rfl rfl rfl

theorem onLossDetectionTimeout_moves (r : Recovery) (handshakeCompleted : Bool)
    (now lossDelay : ℕ) : r.Moves (r.onLossDetectionTimeout handshakeCompleted now lossDelay) := by
  unfold onLossDetectionTimeout
  dsimp only
  split_ifs
  · exact detectLostPackets_moves r _ now lossDelay
  · exact moves_of_eq rfl rfl rfl

theorem dropUnackedData_moves (r : Recovery) (epoch : Epoch) :
    r.Moves (r.dropUnackedData epoch) := by
  refine moves_at epoch (fun f hf => ?_) fun e he =>
    ⟨Epoch.update_of_ne he, Epoch.update_of_ne he, Epoch.update_of_ne he⟩
  simp [Has, dropUnackedData] at hf

/-- Nothing is added in other epochs. -/
theorem has_onPacketSent_of_ne {r : Recovery} {pkt : Sent} {epoch e : Epoch} {now : ℕ} {f : Frame}
    (he : e ≠ epoch) (h : (r.onPacketSent pkt epoch now).Has e f) : r.Has e f := by
  have hgroup := modifyFecGroup_moves r pkt.fecInfo fun g =>
    g.packetSent pkt.fecInfo.index pkt.pktNum
  unfold onPacketSent at h
  refine hgroup e f ?_
  simpa only [Has, Epoch.update_of_ne he] using h

/-- Only the frames of the packet are added. -/
theorem has_onPacketSent {r : Recovery} {pkt : Sent} {epoch e : Epoch} {now : ℕ} {f : Frame}
    (h : (r.onPacketSent pkt epoch now).Has e f) : r.Has e f ∨ f ∈ pkt.frames := by
  rcases eq_or_ne e epoch with rfl | he
  · have hgroup := modifyFecGroup_moves r pkt.fecInfo fun g =>
      g.packetSent pkt.fecInfo.index pkt.pktNum
    unfold onPacketSent at h
    simp only [Has, Epoch.update_same, insertSent, List.mem_append, List.mem_cons,
      List.mem_filter] at h
    rcases h with ⟨q, ⟨hq, _⟩ | rfl | ⟨hq, _⟩, hf⟩ | hf
    · exact .inl (hgroup e f (.inl ⟨q, hq, hf⟩))
    · exact .inr hf
    · exact .inl (hgroup e f (.inl ⟨q, hq, hf⟩))
    · exact .inl (hgroup e f (.inr hf))
  · exact .inl (has_onPacketSent_of_ne he h)

end Recovery

/-! ### Actions that leave the streams alone -/

/-- The frame concerns no single stream. -/
def Frame.isCalm : Frame → Bool
  | .stream _ _ | .resetStream _ _ _ | .blockInfo _ _ _ _ _ | .maxStreamData _ _ => false
  | _ => true

namespace Connection

/-- No handshake data ends: no crypto stream has a final offset, and no CRYPTO frame that
was sent carries a `fin` flag. -/
def CryptoOpen (c : Connection) : Prop :=
  (∀ e, (c.pktNumSpaces e).cryptoStream.send.finOff = none) ∧
    ∀ e data, c.recovery.Has e (.crypto data) → data.fin = false

/-- The streams and the parameters of both sides are the same. -/
structure Unmoved (c c' : Connection) : Prop where
  streams : c'.streams = c.streams
  isServer : c'.isServer = c.isServer
  localParams : c'.localTransportParams = c.localTransportParams
  peerParams : c'.peerTransportParams = c.peerTransportParams

theorem Unmoved.refl (c : Connection) : c.Unmoved c := ⟨rfl, rfl, rfl, rfl⟩

instance : IsPreorder Connection Unmoved where
  refl := .refl
  trans _ _ _ h h' :=
    ⟨h'.streams.trans h.streams, h'.isServer.trans h.isServer,
      h'.localParams.trans h.localParams, h'.peerParams.trans h.peerParams⟩

/-- Where neither streams nor flow control change, nothing moves. -/
theorem Quiet.unmoved {c c' : Connection} (h : c.Quiet c') : c.Unmoved c' :=
  ⟨h.streams, h.isServer, h.localParams, h.peerParams⟩

theorem dropEpochState_unmoved (c : Connection) (epoch : Epoch) (now : ℕ) :
    c.Unmoved (c.dropEpochState epoch now) := by
  unfold dropEpochState
  split_ifs
  · exact { Unmoved.refl c with }
  · exact .refl c

theorem onTimeout_unmoved (c : Connection) (env : Env) : c.Unmoved (c.onTimeout env) := by
  unfold onTimeout
  split_ifs
  · exact .refl c
  · exact { Unmoved.refl c with }
  · exact .refl c

theorem received_unmoved (pkt : RxPacket) (epoch : Epoch) (c : Connection) :
    c.Unmoved (received pkt epoch c) := by
  unfold received
  dsimp only
  split_ifs
  · have h := dropEpochState_unmoved
      { c.modifySpace epoch pkt.record with recvCount := c.recvCount + 1 } .initial pkt.now
    exact ⟨h.streams, h.isServer, h.localParams, h.peerParams⟩
  · exact { Unmoved.refl c with }

/-- The streams, their queue and the counters of data are the same, and frames of sent
packets only move. -/
structure Calm (c c' : Connection) : Prop where
  streams : c'.streams.streams = c.streams.streams
  collected : c'.streams.collected = c.streams.collected
  flushable : c'.streams.flushable = c.streams.flushable
  scheduler : c'.streams.scheduler = c.streams.scheduler
  canceled : ∀ id ∈ c'.streams.canceled, id ∈ c.streams.canceled
  isServer : c'.isServer = c.isServer
  localParams : c'.localTransportParams = c.localTransportParams
  rxData : c'.rxData = c.rxData
  maxRxData : c'.maxRxData = c.maxRxData
  maxRxDataNext : c'.maxRxDataNext = c.maxRxDataNext
  txData : c'.txData = c.txData
  moves : c.recovery.Moves c'.recovery
  cryptoOpen : c.CryptoOpen → c'.CryptoOpen

theorem Calm.refl (c : Connection) : c.Calm c where
  streams := rfl
  collected := rfl
  flushable := rfl
  scheduler := rfl
  canceled _ := id
  isServer := rfl
  localParams := rfl
  rxData := rfl
  maxRxData := rfl
  maxRxDataNext := rfl
  txData := rfl
  moves _ _ := id
  cryptoOpen := id

instance : IsPreorder Connection Calm where
  refl := .refl
  trans _ _ _ h h' :=
    { streams := h'.streams.trans h.streams
      collected := h'.collected.trans h.collected
      flushable := h'.flushable.trans h.flushable
      scheduler := h'.scheduler.trans h.scheduler
      canceled := fun id hid => h.canceled id (h'.canceled id hid)
      isServer := h'.isServer.trans h.isServer
      localParams := h'.localParams.trans h.localParams
      rxData := h'.rxData.trans h.rxData
      maxRxData := h'.maxRxData.trans h.maxRxData
      maxRxDataNext := h'.maxRxDataNext.trans h.maxRxDataNext
      txData := h'.txData.trans h.txData
      moves := trans_of Recovery.Moves h.moves h'.moves
      cryptoOpen := fun hc => h'.cryptoOpen (h.cryptoOpen hc) }

theorem Calm.congr {c c' c'' : Connection} (h : c.Calm c') (streams : c''.streams = c'.streams)
    (recovery : c''.recovery = c'.recovery) (isServer : c''.isServer = c'.isServer)
    (localParams : c''.localTransportParams = c'.localTransportParams)
    (rxData : c''.rxData = c'.rxData) (maxRxData : c''.maxRxData = c'.maxRxData)
    (maxRxDataNext : c''.maxRxDataNext = c'.maxRxDataNext) (txData : c''.txData = c'.txData)
    (cryptoStream : ∀ e, (c''.pktNumSpaces e).cryptoStream = (c'.pktNumSpaces e).cryptoStream) :
    c.Calm c'' where
  streams := by rw [streams, h.streams]
  collected := by rw [streams, h.collected]
  flushable := by rw [streams, h.flushable]
  scheduler := by rw [streams, h.scheduler]
  canceled id hid := by
    rw [streams] at hid
    exact h.canceled id hid
  isServer := isServer.trans h.isServer
  localParams := localParams.trans h.localParams
  rxData := rxData.trans h.rxData
  maxRxData := maxRxData.trans h.maxRxData
  maxRxDataNext := maxRxDataNext.trans h.maxRxDataNext
  txData := txData.trans h.txData
  moves := by
    rw [recovery]
    exact h.moves
  cryptoOpen hc := by
    unfold CryptoOpen
    simp only [cryptoStream, recovery]
    exact h.cryptoOpen hc

/-- Where neither streams nor flow control change, streams are left alone. -/
theorem Quiet.calm {c c' : Connection} (h : c.Quiet c') : c.Calm c' where
  streams := by rw [h.streams]
  collected := by rw [h.streams]
  flushable := by rw [h.streams]
  scheduler := by rw [h.streams]
  canceled id hid := by rwa [h.streams] at hid
  isServer := h.isServer
  localParams := h.localParams
  rxData := h.rxData
  maxRxData := h.maxRxData
  maxRxDataNext := h.maxRxDataNext
  txData := h.txData
  moves := Recovery.moves_of_eq h.sent h.lost h.acked
  cryptoOpen hc := by
    refine ⟨fun e => ?_, fun e data hdata => ?_⟩
    · rw [h.cryptoStream]
      exact hc.1 e
    · exact hc.2 e data (Recovery.moves_of_eq h.sent h.lost h.acked e _ hdata)

theorem setRecovery_calm {c : Connection} {r : Recovery} (h : c.recovery.Moves r) :
    c.Calm (c.setRecovery r) :=
  { Calm.refl c with
    moves := h
    cryptoOpen := fun hc => ⟨hc.1, fun e data hdata => hc.2 e data (h e _ hdata)⟩ }

theorem modifySpace_calm (c : Connection) (epoch : Epoch) {f : PktNumSpace → PktNumSpace}
    (h : ∀ s, c.CryptoOpen → s.cryptoStream.send.finOff = none →
      (f s).cryptoStream.send.finOff = none) : c.Calm (c.modifySpace epoch f) :=
  { Calm.refl c with
    cryptoOpen := by
      intro hc
      refine ⟨fun e => ?_, hc.2⟩
      unfold modifySpace
      dsimp only
      rcases eq_or_ne e epoch with rfl | hne
      · rw [Epoch.update_same]
        exact h _ hc (hc.1 e)
      · rw [Epoch.update_of_ne hne]
        exact hc.1 e }

theorem dropEpochState_calm (c : Connection) (epoch : Epoch) (now : ℕ) :
    c.Calm (c.dropEpochState epoch now) := by
  unfold dropEpochState
  split_ifs
  · refine trans_of Calm (modifySpace_calm c epoch fun _ _ _ => rfl) (setRecovery_calm ?_)
    exact Recovery.dropUnackedData_moves c.recovery epoch
  · exact .refl c

theorem doHandshake_calm (step : HandshakeStep) (c : Connection) :
    (doHandshake step).Keeps Calm c := by
  have hmoves {c' c'' : Connection} (h : c.Calm c') (hcalm : c'.Calm c'') : c.Calm c'' :=
    trans_of Calm h hcalm
  exact doHandshake_keeps
    { write := fun epoch data _ _ c' hpush h => hmoves h <|
        modifySpace_calm c' epoch fun _ hc _ =>
          (SendBuf.pushSlice_open data (hc.1 epoch)).ok hpush
      full := fun _ h _ => h
      keys := fun c' h => hmoves h { Calm.refl c' with }
      failed := fun _ _ _ h _ => h
      noProtocol := fun c' h _ => hmoves h { Calm.refl c' with }
      refused := fun _ _ _ h _ => h
      params := fun _ c' _ h => hmoves h { Calm.refl c' with } }

private theorem readCrypto_calm (epoch : Epoch) (fuel : ℕ) (c : Connection) :
    (readCrypto epoch fuel).Keeps Calm c := by
  induction fuel generalizing c with
  | zero => exact .refl c
  | succ fuel ih =>
    rw [readCrypto, Program.keeps_get_bind]
    dsimp only
    split
    · exact .refl c
    · exact .bind (modifySpace_calm c epoch fun _ hc _ => hc.1 epoch) fun _ c _ => ih c

private theorem processCrypto_calm (data : RangeBuf) (epoch : Epoch) (env : Env) (c : Connection) :
    (processCrypto data epoch env).Keeps Calm c := by
  rw [processCrypto, Program.keeps_get_bind]
  dsimp only
  split
  · simp only [Program.Keeps, Program.ends_throw]
    exact fun _ => .refl c
  · refine .bind (modifySpace_calm c epoch fun _ hc _ => hc.1 epoch) fun _ c _ => ?_
    exact .bind (readCrypto_calm epoch _ c) fun _ c _ => doHandshake_calm env.handshake c

private theorem processAck_calm (packetTime ackDelay : ℕ) (ranges : RangeSet) (epoch : Epoch)
    (env : Env)
    (c : Connection) : (processAck packetTime ackDelay ranges epoch env).Keeps Calm c := by
  rw [processAck, Program.keeps_get_bind]
  refine .ite (fun _ => Program.keeps_fail.mpr (.refl c)) fun _ => ?_
  cases hack : c.recovery.onAckReceived ranges epoch env.instant env.lossDelay with
  | error e =>
    simp only [Program.Keeps, Program.ends_throw]
    exact fun _ => .refl c
  | ok r =>
    have h : c.Calm (c.setRecovery r) := setRecovery_calm (Recovery.onAckReceived_moves hack)
    refine .ite (fun _ => ?_) fun _ => { h with }
    refine trans_of Calm (trans_of Calm h ?_) (dropEpochState_calm _ _ _)
    exact { Calm.refl _ with }

theorem processFrame_calm {frame : Frame} (h : frame.isCalm) (epoch : Epoch) (env : Env)
    (c : Connection) : (processFrame frame epoch env).Keeps Calm c := by
  cases frame with
  | stream _ _ => cases h
  | resetStream _ _ _ => cases h
  | blockInfo _ _ _ _ _ => cases h
  | maxStreamData _ _ => cases h
  | ack packetTime ackDelay ranges => exact processAck_calm packetTime ackDelay ranges epoch env c
  | crypto data => exact processCrypto_calm data epoch env c
  | stopSending streamId _ =>
    refine Program.keeps_get_bind.mpr (.ite (fun _ => ?_) fun _ => .refl c)
    exact Program.keeps_fail.mpr (.refl c)
  | maxStreamsBidi max =>
    refine .ite (fun _ => Program.keeps_fail.mpr (.refl c)) fun _ => ?_
    exact { Calm.refl c with }
  | maxStreamsUni max =>
    refine .ite (fun _ => Program.keeps_fail.mpr (.refl c)) fun _ => ?_
    exact { Calm.refl c with }
  | handshakeDone =>
    refine Program.keeps_get_bind.mpr (.ite (fun _ => Program.keeps_fail.mpr (.refl c)) fun _ => ?_)
    refine .ite (fun _ => Program.keeps_fail.mpr (.refl c)) fun _ => ?_
    refine trans_of Calm ?_ (dropEpochState_calm _ _ _)
    exact { Calm.refl c with }
  | maxData _ | pathChallenge _ | connectionClose _ _ _ | applicationClose _ _ =>
    exact { Calm.refl c with }
  | padding _ | ping | newToken _ | dataBlocked _ | streamDataBlocked _ _ | streamsBlockedBidi _
  | streamsBlockedUni _ | newConnectionId _ _ _ _ | retireConnectionId _ | pathResponse _
  | fec _ _ => exact .refl c

theorem onTimeout_calm (c : Connection) (env : Env) : c.Calm (c.onTimeout env) := by
  unfold onTimeout
  split_ifs
  · exact .refl c
  · have h := setRecovery_calm (c := c) (Recovery.onLossDetectionTimeout_moves c.recovery
      c.isEstablished env.instant env.lossDelay)
    exact { h with }
  · exact .refl c

theorem received_calm (pkt : RxPacket) (epoch : Epoch) (c : Connection) :
    c.Calm (received pkt epoch c) := by
  have h : c.Calm { c.modifySpace epoch pkt.record with recvCount := c.recvCount + 1 } :=
    (modifySpace_calm c epoch (f := pkt.record) fun _ _ h =>
      h).congr rfl rfl rfl rfl rfl rfl rfl rfl fun _ => rfl
  unfold received
  dsimp only
  split_ifs
  · exact (trans_of Calm h (dropEpochState_calm _ .initial pkt.now)).congr rfl rfl rfl rfl rfl rfl
      rfl rfl fun _ => rfl
  · exact h.congr rfl rfl rfl rfl rfl rfl rfl rfl fun _ => rfl

theorem clearLost_calm (epoch : Epoch) (c : Connection) : c.Calm (clearLost epoch c) := by
  refine setRecovery_calm (Recovery.moves_at epoch (fun f hf => ?_) fun e he =>
    ⟨rfl, Epoch.update_of_ne he, rfl⟩)
  simp only [Recovery.Has, Epoch.update_same] at hf
  rcases hf with hf | hf | hf
  · exact .inl hf
  · cases hf
  · exact .inr (.inr hf)

end Connection

end Dtp
