import Dtp.Atomicity
import Dtp.Written

/-!
# A block that misses its deadline

`peekFlushable` shuts down the late blocks of the queue before it picks one of the others.
It fails where such a block is shut down already, and the late block stays in the queue, so
that every later call fails as well. A stream that is shut down can be in the queue: the
application may shut down a queued stream, an empty chunk with a `fin` flag queues a stream
that is shut down, and a stream that is queued twice is shut down when its deadline is missed
while it is still queued once.

## Main definitions

* `StreamMap.Schedules` — late blocks do not keep the others from being scheduled
* `StreamMap.CanPick` — the scheduler has a block that is not late to pick
* `Packing.Queues`, `Packing.Shuts` — the streams that an action queues or shuts down
* `Packing.KeepsClean` — these are not in the queue, and what is queued is not shut down

## Main results

* `StreamMap.schedules_iff` — a queue of live streams that are not shut down is scheduled exactly
  when there is a block to pick
* `Packing.always_schedules` — and that is the queue along runs of actions that keep it clean
-/

namespace Dtp

open Lib (Fault Program run)

private theorem DynScheduler.selectBlock_drops {s : DynScheduler} {pace : Pace}
    {blocks : List Block}
    {r : ℕ × DynScheduler} (h : s.selectBlock pace blocks = some r) : r.2.drops = s.drops := by
  unfold selectBlock at h
  cases s with
  | basic s =>
    obtain ⟨_, _, rfl⟩ := Option.map_eq_some_iff.mp h
    rfl
  | dtp s =>
    obtain ⟨_, _, rfl⟩ := Option.map_eq_some_iff.mp h
    rfl
  | c =>
    cases h
    rfl

namespace StreamMap

/-- Looking for a stream to send from does not fail: where a block misses its deadline, one of the
others is picked, and these stay in the queue but for the picked one. -/
structure Schedules (m : StreamMap) (pace : Pace) : Prop where
  noError : ∀ e m', peekFlushable pace m ≠ .error (.error e) m'
  picks : m.PicksCandidate pace

/-- All queued blocks are late, or the scheduler has one of the others to pick. -/
def CanPick (m : StreamMap) (pace : Pace) : Prop :=
  m.Remaining pace = [] ∨ m.scheduler.HasPick (m.Remaining pace)

/-- While queued streams are open, the scheduler fails with no error. -/
theorem Clean.noError {m : StreamMap} (h : m.Clean) (pace : Pace) (e : Error) (m' : StreamMap) :
    peekFlushable pace m ≠ .error (.error e) m' :=
  fun hpeek => (peekFlushable_clean pace h).error hpeek e rfl

/-- Where nothing is dropped, the loop over the queue does not fail. -/
theorem dropLoop_noError {m : StreamMap} (h : m.scheduler.drops = false) (pace : Pace) (n : ℕ)
    (blocks : List Block) :
    (dropLoop pace n blocks).Ends m (fun _ m' => m' = m) noError := by
  induction n generalizing blocks with
  | zero => exact rfl
  | succ n ih =>
    rw [dropLoop, Program.ends_bind, Program.ends_get, Program.ends_bind, Program.ends_unwrap]
    refine ⟨fun id _ => ?_, fun _ => Fault.panic_ne_error⟩
    rw [Program.ends_bind, Program.ends_unwrap]
    refine ⟨fun block _ => ?_, fun _ => Fault.panic_ne_error⟩
    rw [DynScheduler.shouldDropBlock_eq h]
    exact ih _

private theorem noError_of_keeps {m : StreamMap} (h : m.scheduler.drops = false) (pace : Pace)
    (e : Error)
    (m' : StreamMap) : peekFlushable pace m ≠ .error (.error e) m' := by
  have hends : (peekFlushable pace).Ends m (fun _ _ => True) noError := by
    rw [peekFlushable, Program.ends_bind, Program.ends_get]
    refine Program.ends_ite.mpr ⟨fun _ => trivial, fun _ => ?_⟩
    have hblock (id : ℕ) : Program.Maintains (· = m) noError
        (discard (Program.unwrap (m.getBlock id)) : Program Error StreamMap PUnit) :=
      .bind (Program.maintains_unwrap fun _ _ => Fault.panic_ne_error) fun _ =>
        Program.maintains_pure _
    refine Program.Ends.bind (Program.Maintains.forM hblock _ m rfl) fun _ m₁ h₁ => ?_
    subst h₁
    refine (dropLoop_noError h pace _ _).bind fun blocks m₂ h₂ => ?_
    refine Program.ends_ite.mpr ⟨fun _ => trivial, fun _ => ?_⟩
    rw [Program.ends_bind, Program.ends_get, Program.ends_bind, Program.ends_unwrap]
    exact ⟨fun _ _ => trivial, fun _ => Fault.panic_ne_error⟩
  exact fun hpeek => hends.error hpeek e rfl

/-- In a queue of live streams that are not shut down, where late ones are dropped, a block is
scheduled exactly when there is one to pick. -/
theorem schedules_iff {m : StreamMap} {pace : Pace}
    (hunshut : m.scheduler.drops = true → m.Unshut) (hlive : m.AllLive pace)
    (hno : ∀ e m', peekFlushable pace m ≠ .error (.error e) m') :
    m.Schedules pace ↔ m.CanPick pace := by
  have hcandidate : m.HasCandidate pace ↔ m.CanPick pace := by
    refine or_iff_right ?_
    rintro ⟨id, hid, hlate, hshut⟩
    rw [(hunshut (drops_of_isLate hlate)).unshut id hid] at hshut
    cases hshut
  have hpicks := hlive.picks_iff fun hdrops => (hunshut hdrops).nodup
  exact ⟨fun h => hcandidate.mp (hpicks.mp h.picks),
    fun h => ⟨hno, hpicks.mpr (hcandidate.mpr h)⟩⟩

/-- The stream is neither queued nor shut down. -/
def Idle (m : StreamMap) (id : ℕ) : Prop := id ∉ m.flushable ∧ m.isShut id = false

/-- A stream that is not there yet is not shut. -/
theorem Origin.isShut {m : StreamMap} {id : ℕ} {s : Stream} (h : m.Origin id s) :
    m.isShut id = s.send.isShutdown := by
  unfold StreamMap.isShut
  cases h with
  | live hlive =>
    rw [hlive]
    rfl
  | fresh hlive _ _ hsend =>
    obtain ⟨maxData, deadline, priority, now, hsend⟩ := hsend
    rw [hlive, hsend]
    rfl

variable {m m' : StreamMap}

theorem Unshut.of_eq (h : m.Unshut) (hstreams : m'.streams = m.streams)
    (hflush : m'.flushable = m.flushable) :
    m'.Unshut where
  nodup := hflush ▸ h.nodup
  unshut id hid := by
    rw [StreamMap.isShut, hstreams]
    exact h.unshut id (hflush ▸ hid)

/-- A stream is replaced that is not shut down by that, or is not queued. -/
theorem Unshut.updated (h : m.Unshut) {id : ℕ} {s s' : Stream} {queued : Bool}
    (origin : m.Origin id s)
    (hm : m.Updated id s' queued m')
    (hshut : s'.send.isShutdown = s.send.isShutdown ∨ id ∉ m.flushable ∧ queued = false)
    (hqueued : queued = true → m.Idle id) : m'.Unshut := by
  have hother {i : ℕ} (hne : i ≠ id) : m'.isShut i = m.isShut i := by
    rw [StreamMap.isShut, StreamMap.isShut, hm.streams, put_streams_of_ne _ _ hne]
  have hself : m'.isShut id = s'.send.isShutdown := by
    rw [StreamMap.isShut, hm.streams, put_streams_self]
    rfl
  have hflush := hm.flushable
  cases queued with
  | false =>
    -- the queue stays as it is
    rw [if_neg Bool.false_ne_true] at hflush
    refine ⟨hflush ▸ h.nodup, fun i hi => ?_⟩
    rw [hflush] at hi
    rcases eq_or_ne i id with rfl | hne
    · rcases hshut with hsame | ⟨hnot, -⟩
      · rw [hself, hsame, ← origin.isShut]
        exact h.unshut i hi
      · exact absurd hi hnot
    · rw [hother hne]
      exact h.unshut i hi
  | true =>
    -- the stream is appended, and was not in the queue
    obtain ⟨hnot, hidle⟩ := hqueued rfl
    rw [if_pos rfl] at hflush
    refine ⟨?_, fun i hi => ?_⟩
    · rw [hflush, List.nodup_append]
      refine ⟨h.nodup, List.nodup_singleton id, fun i hi j hj heq => hnot ?_⟩
      rw [List.mem_singleton.mp hj] at heq
      exact heq ▸ hi
    · rw [hflush, List.mem_append, List.mem_singleton] at hi
      rcases eq_or_ne i id with rfl | hne
      · rw [hself]
        rcases hshut with hsame | ⟨-, hfalse⟩
        · rw [hsame, ← origin.isShut]
          exact hidle
        · cases hfalse
      · rw [hother hne]
        exact h.unshut i (hi.resolve_right hne)

/-- A stream that is collected is not queued. -/
theorem Unshut.collect (h : m.Unshut) (id : ℕ) (local_ : Bool) : (m.collect id local_).Unshut where
  nodup := by
    rw [collect_flushable]
    exact h.nodup
  unshut i hi := by
    rw [collect_flushable] at hi
    rw [StreamMap.isShut, collect_streams]
    split_ifs
    · rfl
    · exact h.unshut i hi

theorem Unshut.collectIf (h : m.Unshut) (done : Bool) (id : ℕ) (local_ : Bool) :
    (if done then m.collect id local_ else m).Unshut := by
  cases done
  · exact h
  · exact h.collect id local_

/-- Frames of the peer shut no queued stream. -/
theorem Unshut.receives (h : m.Unshut) (hm : m.Receives m') : m'.Unshut := by
  cases hm with
  | same => exact h
  | updated origin updated => exact h.updated origin updated (.inl rfl) nofun

/-- Queued streams that are open are clean. -/
theorem Sound.clean {sent : ℕ → RangeBuf → Prop} (h : m.Sound sent) (hm : m.Unshut) : m.Clean :=
  ⟨hm, h.wf⟩

end StreamMap

/-! ### What an action does to the queue -/

/-- A map whose scheduler is of the same kind. -/
def StreamMap.SameKind (m m' : StreamMap) : Prop := m'.scheduler.drops = m.scheduler.drops

instance : IsPreorder StreamMap StreamMap.SameKind where
  refl _ := rfl
  trans _ _ _ h h' := Eq.trans h' h

/-- The scheduler stays when a stream changes. -/
theorem StreamMap.Updated.sameKind {m m' : StreamMap} {id : ℕ} {s : Stream} {queued : Bool}
    (h : m.Updated id s queued m') : m.SameKind m' := congrArg _ h.scheduler

private theorem StreamMap.peekFlushable_sameKind (pace : Pace) (m : StreamMap) :
    (peekFlushable pace).Keeps SameKind m :=
  peekFlushable_keeps (fun _ _ => cancelBlock_keeps (fun _ _ _ => rfl) fun _ _ => rfl)
    (fun _ _ => rfl) (fun _ _ _ _ h => DynScheduler.selectBlock_drops h) pace m

/-- The scheduler stays when a stream is collected. -/
theorem StreamMap.collectIf_sameKind (m : StreamMap) (done : Bool) (id : ℕ) (local_ : Bool) :
    m.SameKind (if done then m.collect id local_ else m) := by
  unfold SameKind collect
  split_ifs <;> rfl

/-- The scheduler stays when data comes in. -/
theorem StreamMap.Receives.sameKind {m m' : StreamMap} (h : m.Receives m') : m.SameKind m' := by
  cases h with
  | same => rfl
  | updated _ updated => exact updated.sameKind

theorem Connection.Calm.sameKind {c c' : Connection} (h : c.Calm c') :
    c.streams.SameKind c'.streams := congrArg _ h.scheduler

/-- The scheduler stays when acknowledged frames are taken. -/
theorem Connection.TookAcked.sameKind {epoch : Epoch} {c c' : Connection}
    (h : c.TookAcked epoch c') : c.streams.SameKind c'.streams := by
  cases h with
  | other calm => exact calm.sameKind
  | stream _ _ _ _ updated =>
    exact trans_of StreamMap.SameKind updated.sameKind (StreamMap.collectIf_sameKind _ _ _ _)

/-- The scheduler stays when lost frames are taken. -/
theorem Connection.TookLost.sameKind {epoch : Epoch} {c c' : Connection}
    (h : c.TookLost epoch c') : c.streams.SameKind c'.streams := by
  cases h with
  | other calm => exact calm.sameKind
  | failed => rfl
  | blockInfo _ _ _ updated | stored _ _ _ _ _ updated => exact updated.sameKind

/-- The turn of a stream changes the scheduler, not its kind. -/
theorem Packing.Turned.sameKind {id : ℕ} {p p' : Packing} (h : Turned id p p') :
    p.conn.streams.SameKind p'.conn.streams := by
  cases h with
  | full _ _ _ updated conn => exact conn ▸ updated.sameKind
  | tooLarge _ _ _ _ updated conn => exact conn ▸ updated.sameKind
  | nothing _ _ _ _ _ updated conn => exact conn ▸ updated.sameKind
  | sent _ _ _ _ _ _ _ updated conn => exact conn ▸ updated.sameKind

/-- A turn of the loop changes the scheduler, not its kind. -/
theorem Packing.Stepped.sameKind {env : SendEnv} {p p' : Packing} (h : Stepped env p p') :
    p.conn.streams.SameKind p'.conn.streams := by
  have hpeek := StreamMap.peekFlushable_sameKind env.pace p.conn.streams
  cases h with
  | stopped peek conn =>
    rw [conn]
    exact Program.keeps_iff_after.mp hpeek _ peek
  | turned peek turn => exact trans_of StreamMap.SameKind (hpeek.ok peek) turn.sameKind

/-- No action changes the kind of the scheduler. -/
theorem Action.Effect.sameKind {p p' : Packing} {action : Action} (h : action.Effect p p') :
    p.conn.streams.SameKind p'.conn.streams := by
  cases h with
  | wrote h =>
    cases h with
    | refused => rfl
    | failed _ _ updated | stored _ _ _ updated => exact updated.sameKind
  | readFrom h =>
    cases h with
    | refused => rfl
    | got _ _ _ updated =>
      exact trans_of StreamMap.SameKind updated.sameKind (StreamMap.collectIf_sameKind _ _ _ _)
  | shutDown h =>
    cases h with
    | refused => rfl
    | read _ _ updated | write _ _ updated => exact updated.sameKind
  | streamAccepted h => exact h.receives.streams.sameKind
  | streamRejected h => exact h.receives.streams.sameKind
  | resetAccepted h => exact h.receives.streams.sameKind
  | resetRejected h => exact h.receives.streams.sameKind
  | gotBlockInfo h => exact h.receives.streams.sameKind
  | gotMaxStreamData h =>
    cases h with
    | refused => rfl
    | raised _ _ updated => exact updated.sameKind
  | tookAcked h => exact h.sameKind
  | tookLost h => exact h.sameKind
  | stepped h => exact h.sameKind
  | wroteReset h =>
    cases h with
    | skipped conn | written _ conn => rw [conn]; rfl
  | wroteMaxStreamData h =>
    cases h with
    | skipped conn => rw [conn]; rfl
    | raised _ _ updated conn => rw [conn]; exact updated.sameKind
  | wroteMaxData h =>
    cases h with
    | skipped conn | raised conn => rw [conn]; rfl
  | wroteCrypto h => exact h.conn.sameKind
  | recorded h =>
    obtain ⟨r, hc, -⟩ := h.conn
    exact congrArg _ hc.scheduler
  | started => rfl
  | calm h => exact h.conn.sameKind

namespace Packing

/-- The action appends the stream to the queue. -/
def Queues (p : Packing) (id : ℕ) : Action → Prop
  | .write streamId data fin _ _ _ => streamId = id ∧ ∃ s n send, p.conn.streams.Origin id s ∧
      SendBuf.pushSlice data fin s.send = .ok n send ∧
      (({ s with send := send : Stream }.isFlushable || (data.isEmpty && fin)) && !s.isFlushable) =
        true
  | .lost epoch => ∃ data frames s send, p.conn.recovery.lost epoch = .stream id data :: frames ∧
      p.conn.streams.streams id = some s ∧ s.send.push data = .ok send ∧
      (({ s with send := send : Stream }.isFlushable || (data.isEmpty && data.fin)) &&
          !s.isFlushable) = true
  | .frame (.maxStreamData streamId max) _ _ => streamId = id ∧ ∃ s, p.conn.streams.Origin id s ∧
      ({ s with send := s.send.updateMaxData max : Stream }.isFlushable && !s.isFlushable) = true
  | _ => False

/-- The application shuts down writing to the stream. -/
def Shuts (id : ℕ) (action : Action) : Prop := action = .shutdown id .write

/-- The action queues streams that are neither queued nor shut down, and shuts down streams that
are not queued. -/
structure KeepsClean (p : Packing) (action : Action) : Prop where
  queues : ∀ id, p.Queues id action → p.conn.streams.Idle id
  shuts : ∀ id, Shuts id action → id ∉ p.conn.streams.flushable

section Unshut

variable {p : Packing} {c : Connection}

/-- Frames of other kinds shut no stream. -/
theorem Unshut.calm (h : p.conn.streams.Unshut) (hc : p.conn.Calm c) : c.streams.Unshut :=
  h.of_eq hc.streams hc.flushable

/-- A write queues no stream that is shut. -/
theorem Unshut.wrote (h : p.conn.streams.Unshut) (hsound : p.Sound) {id deadline priority now : ℕ}
    {data : List UInt8} {fin : Bool} (hw : p.conn.Wrote id data fin c)
    (hqueues : ∀ i, p.Queues i (.write id data fin deadline priority now) →
      p.conn.streams.Idle i) : c.streams.Unshut := by
  cases hw with
  | refused => exact h
  | failed origin push updated =>
    obtain ⟨-, rfl, -⟩ := (SendBuf.pushSlice_ends _ _ (hsound.origin_wf origin).fin).error push
    exact h.updated origin updated (.inl rfl) nofun
  | stored origin push stream updated =>
    subst stream
    refine h.updated origin updated (.inl ?_) fun hq => hqueues _ ⟨rfl, _, _, _, origin, push, hq⟩
    cases (SendBuf.pushSlice_ends _ _ (hsound.origin_wf origin).fin).ok push with
    | dropped => rfl
    | stored _ _ extended => exact extended.rest.isShutdown

/-- What is acknowledged shuts no stream. -/
theorem Unshut.tookAcked (h : p.conn.streams.Unshut) {epoch : Epoch}
    (ha : p.conn.TookAcked epoch c) : c.streams.Unshut := by
  cases ha with
  | other calm => exact Unshut.calm h calm
  | stream _ live stream _ updated =>
    subst stream
    exact (h.updated (.live live) updated (.inl rfl) nofun).collectIf _ _ _

/-- Lost data queues no stream that is shut, unless it comes back for one. -/
theorem Unshut.tookLost (h : p.conn.streams.Unshut) {epoch : Epoch} (hl : p.conn.TookLost epoch c)
    (hqueues : ∀ i, p.Queues i (.lost epoch) → p.conn.streams.Idle i) : c.streams.Unshut := by
  cases hl with
  | other calm => exact Unshut.calm h calm
  | blockInfo _ _ live updated => exact h.updated (.live live) updated (.inl rfl) nofun
  | failed => exact h
  | stored lost live push stream _ updated =>
    subst stream
    refine h.updated (.live live) updated (.inl ?_) fun hq =>
      hqueues _ ⟨_, _, _, _, lost, live, push, hq⟩
    exact (SendBuf.push_spec push).2.rest.isShutdown

/-- A turn of the loop shuts no stream that stays queued. -/
theorem Unshut.stepped {p' : Packing} (h : p.conn.streams.Unshut) (hsound : p.Sound)
    {env : SendEnv} (hstep : Action.step p (.stream env) = some p') : p'.conn.streams.Unshut := by
  have hkeeps : (discard (streamStep env) : Program Error Packing PUnit).Keeps
      (fun _ p' => p'.conn.streams.Clean) p :=
    (Program.Keeps.of_ends (streamStep_clean (hsound.clean h)) (fun _ _ hp => hp.1)
      fun err _ hno => absurd rfl (hno err)).discard
  exact (Program.keeps_iff_after.mp hkeeps p' hstep).toUnshut

/-- Actions that keep the queue clean leave no stream in it that is shut down. -/
theorem Unshut.step {p' : Packing} {action : Action} (h : p.conn.streams.Unshut) (hsound : p.Sound)
    (hkeeps : p.KeepsClean action) (hstep : Action.step p action = some p') :
    p'.conn.streams.Unshut := by
  cases Action.effect hstep with
  | stepped _ => exact Unshut.stepped h hsound hstep
  | wrote hw => exact Unshut.wrote h hsound hw hkeeps.queues
  | readFrom hr =>
    cases hr with
    | refused => exact h
    | got live _ stream updated =>
      subst stream
      exact (h.updated (.live live) updated (.inl rfl) nofun).collectIf _ _ _
  | shutDown hs =>
    cases hs with
    | refused => exact h
    | read live _ updated => exact h.updated (.live live) updated (.inl rfl) nofun
    | write live _ updated =>
      -- only a stream that is not queued is shut down
      exact h.updated (.live live) updated (.inr ⟨hkeeps.shuts _ rfl, rfl⟩) nofun
  | streamAccepted hs => exact h.receives hs.receives.streams
  | streamRejected hs => exact h.receives hs.receives.streams
  | resetAccepted hr => exact h.receives hr.receives.streams
  | resetRejected hr => exact h.receives hr.receives.streams
  | gotBlockInfo hb => exact h.receives hb.receives.streams
  | gotMaxStreamData hm =>
    cases hm with
    | refused => exact h
    | raised origin stream updated =>
      subst stream
      exact h.updated origin updated (.inl rfl) fun hq => hkeeps.queues _ ⟨rfl, _, origin, hq⟩
  | tookAcked ha => exact Unshut.tookAcked h ha
  | tookLost hl => exact Unshut.tookLost h hl hkeeps.queues
  | wroteReset hr =>
    cases hr with
    | skipped conn | written _ conn => rw [conn]; exact h.of_eq rfl rfl
  | wroteMaxStreamData hm =>
    cases hm with
    | skipped conn => rw [conn]; exact h.of_eq rfl rfl
    | raised live _ updated conn => rw [conn]; exact h.updated (.live live) updated (.inl rfl) nofun
  | wroteMaxData hm =>
    cases hm with
    | skipped conn | raised conn => rw [conn]; exact h
  | wroteCrypto hw => exact Unshut.calm h hw.conn
  | recorded hr =>
    obtain ⟨r, hc, -⟩ := hr.conn
    exact h.of_eq hc.streams hc.flushable
  | started => exact h
  | calm hc => exact Unshut.calm h hc.conn

end Unshut

/-- Along runs whose actions keep the queue clean, where the scheduler drops blocks at all, looking
for a stream to send from never fails. While the queued streams are live, late blocks do not keep
the others from being scheduled, if and only if the scheduler has one of them to pick. -/
theorem always_schedules (config : Connection.Config) (isServer afterRetry : Bool) (now : ℕ)
    {actions : List Action}
    (h : Lib.AllSteps Action.step (fun p action => p.conn.streams.scheduler.drops = true →
      p.KeepsClean action)
      ⟨.new config isServer afterRetry now, .new 0⟩ actions) :
    Lib.Always Action.step (fun p => ∀ pace : Pace,
      (∀ e m', StreamMap.peekFlushable pace p.conn.streams ≠ .error (.error e) m') ∧
        (p.conn.streams.AllLive pace →
          (p.conn.streams.Schedules pace ↔ p.conn.streams.CanPick pace)))
      ⟨.new config isServer afterRetry now, .new 0⟩
      actions := by
  have hnew : Packing.Sound ⟨.new config isServer afterRetry now, .new 0⟩ :=
    (Connection.new_sound config isServer afterRetry now).1
  have halways := Lib.always_of_step
    (I := fun p : Packing => p.Sound ∧ (p.conn.streams.scheduler.drops = true →
      p.conn.streams.Unshut))
    (fun p action p' hI hkeeps hstep => ⟨(Action.effect hstep).sound hI.1, fun hdrops => ?_⟩)
    ⟨hnew, fun _ => ⟨List.nodup_nil, nofun⟩⟩ h
  · refine halways.mono fun p hp pace => ?_
    have hno (e : Error) (m' : StreamMap) :
        StreamMap.peekFlushable pace p.conn.streams ≠ .error (.error e) m' := by
      by_cases hdrops : p.conn.streams.scheduler.drops = true
      · exact (hp.1.clean (hp.2 hdrops)).noError pace e m'
      · exact StreamMap.noError_of_keeps (Bool.not_eq_true _ |>.mp hdrops) pace e m'
    exact ⟨hno, fun hlive => StreamMap.schedules_iff hp.2 hlive hno⟩
  · have hsame : p'.conn.streams.scheduler.drops = p.conn.streams.scheduler.drops :=
      (Action.effect hstep).sameKind
    rw [hsame] at hdrops
    exact Unshut.step (hI.2 hdrops) hI.1 (hkeeps hdrops) hstep

/-- A client that writes a block. -/
def writing : List Action := [.handshake (Sample.env 0).handshake, .write 0 [1] false 100 1 0]

theorem always_schedules_writing : Lib.Always Action.step (fun p => ∀ pace : Pace,
      (∀ e m', StreamMap.peekFlushable pace p.conn.streams ≠ .error (.error e) m') ∧
        (p.conn.streams.AllLive pace →
          (p.conn.streams.Schedules pace ↔ p.conn.streams.CanPick pace)))
    ⟨.new (Sample.config (.dtp {})) false false 0, .new 0⟩ writing := by
  refine always_schedules _ _ _ _ ⟨fun _ => ⟨nofun, nofun⟩, fun p hp =>
    ⟨fun _ => ⟨?_, nofun⟩, fun _ _ => trivial⟩⟩
  rintro id ⟨rfl, -⟩
  have hidle : (Action.step ⟨.new (Sample.config (.dtp {})) false false 0, .new 0⟩
      (.handshake (Sample.env 0).handshake)).map (fun p =>
        (p.conn.streams.flushable, p.conn.streams.isShut 0)) =
      some ([], false) := by decide +kernel
  rw [hp, Option.map_some, Option.some.injEq, Prod.mk.injEq] at hidle
  exact ⟨hidle.1 ▸ List.not_mem_nil, hidle.2⟩

end Packing

namespace Connection

/-- A client with two blocks, of which it shuts down the first. -/
def shutDown : List Call :=
  [.streamSend 0 [1] false 100 1 0, .streamSend 4 [2] false 5000 1 0, .streamShutdown 0 .write]

/-- When the first block misses its deadline, the second is not scheduled either. -/
theorem not_schedules : ¬ ∀ c : Connection, c.Reachable → ∀ pace, c.streams.Schedules pace := by
  intro hall
  have hfails : (Sample.client (.dtp {}) shutDown).any (fun c =>
      (StreamMap.peekFlushable (Sample.sendEnv 1000).pace).failsWith c.streams fun e m =>
        e = .done && (m.flushable, m.canceled) = ([0, 4], [0])) = true := by decide +kernel
  obtain ⟨c, hc, hfail⟩ := (Option.any_eq_true _ _).mp hfails
  obtain ⟨e, m, hpeek, -⟩ := Program.failsWith_iff.mp hfail
  exact (hall c (Sample.client_reachable hc) (Sample.sendEnv 1000).pace).noError e m hpeek

end Connection

end Dtp
