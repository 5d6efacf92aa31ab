import Dtp.Effects
import Dtp.Scheduling

/-!
# What the actions of `send` do

The effects of taking back lost frames, of picking a stream and sending from it, and of
recording the packet.

## Main definitions

* `Connection.TookLost`, `Connection.TookAcked` — a lost, an acked frame
* `StreamMap.Cancels` — some blocks are cancelled
* `Packing.Turned` — one turn of the loop over the streams

## Main results

* `Packing.streamStep_effect`, `Packing.recordSent_effect` and the others of this form
-/

namespace Dtp

open Lib (Fault Program run)

namespace Connection

/-! ### Acked and lost frames -/

/-- What processing the next acked frame does. -/
inductive TookAcked (epoch : Epoch) (c : Connection) : Connection → Prop
  | other {c' : Connection} (calm : c.Calm c') (unmoved : c.Unmoved c') : TookAcked epoch c c'
  | stream {id : ℕ} {data : RangeBuf} {frames : List Frame} {s s' : Stream} {r : Recovery}
      {m : StreamMap} (acked : c.recovery.acked epoch = .stream id data :: frames)
      (live : c.streams.streams id = some s)
      (stream : s' = { s with send := s.send.ack data.off data.len })
      (recovery : r = { c.recovery with acked := Epoch.update c.recovery.acked epoch frames })
      (updated : c.streams.Updated id s' false m) :
      TookAcked epoch c
        ((c.setRecovery r).setStreams (if s'.isComplete then m.collect id s'.isLocal else m))

theorem popAcked_calm {epoch : Epoch} {c : Connection} {frame : Frame} {frames : List Frame}
    (h : c.recovery.acked epoch = frame :: frames) :
    c.Calm (c.setRecovery
      { c.recovery with acked := Epoch.update c.recovery.acked epoch frames }) := by
  refine setRecovery_calm (Recovery.moves_at epoch (fun f hf => ?_) fun e he =>
    ⟨rfl, rfl, Epoch.update_of_ne he⟩)
  simp only [Recovery.Has, Epoch.update_same] at hf
  refine hf.imp_right (Or.imp_right fun hf => ?_)
  rw [h]
  exact List.mem_cons_of_mem _ hf

theorem takeAcked_effect (epoch : Epoch) (c : Connection) :
    c.TookAcked epoch (takeAcked epoch c) := by
  unfold takeAcked
  cases hacked : c.recovery.acked epoch with
  | nil => exact .other (.refl c) (.refl c)
  | cons frame frames =>
    have calm := popAcked_calm hacked
    have unmoved : c.Unmoved (c.setRecovery
        { c.recovery with acked := Epoch.update c.recovery.acked epoch frames }) :=
      { Unmoved.refl c with }
    dsimp only
    cases frame with
    | ack _ _ ranges =>
      unfold processAcked
      dsimp only
      split
      · refine .other (trans_of Calm calm (modifySpace_calm _ _ ?_)) { unmoved with }
        exact fun _ _ h => h
      · exact .other calm unmoved
    | crypto data =>
      unfold processAcked
      refine .other (trans_of Calm calm (modifySpace_calm _ _ ?_)) { unmoved with }
      exact fun _ _ h => h
    | stream id data =>
      cases live : c.streams.streams id with
      | none =>
        simp only [processAcked, setRecovery, live]
        exact .other calm unmoved
      | some s =>
        have h := TookAcked.stream hacked live rfl rfl
          (c.streams.put_updated id { s with send := s.send.ack data.off data.len })
        simpa only [processAcked, setRecovery, live] using h
    | _ => exact .other calm unmoved

/-- What taking back the next lost frame does. -/
inductive TookLost (epoch : Epoch) (c : Connection) : Connection → Prop
  | other {c' : Connection} (calm : c.Calm c') (unmoved : c.Unmoved c') : TookLost epoch c c'
  | blockInfo {id : ℕ} {s : Stream} {c₁ : Connection} {m : StreamMap} (calm : c.Calm c₁)
      (same : c₁.streams = c.streams) (live : c.streams.streams id = some s)
      (updated : c.streams.Updated id { s with send := { s.send with isNew := true } } false m)
      (unmoved : c.Unmoved c₁) :
      TookLost epoch c (c₁.setStreams m)
  | failed {id : ℕ} {data : RangeBuf} {frames : List Frame} {s : Stream} {e : Error} {r : Recovery}
      (lost : c.recovery.lost epoch = .stream id data :: frames)
      (live : c.streams.streams id = some s) (push : s.send.push data = .error e)
      (recovery : r = { c.recovery with lost := Epoch.update c.recovery.lost epoch frames }) :
      TookLost epoch c { c.setRecovery r with txData := c.txData - data.len }
  | stored {id : ℕ} {data : RangeBuf} {frames : List Frame} {s s' : Stream} {send : SendBuf}
      {r : Recovery} {m : StreamMap}
      (lost : c.recovery.lost epoch = .stream id data :: frames)
      (live : c.streams.streams id = some s) (push : s.send.push data = .ok send)
      (stream : s' = { s with send := send })
      (recovery : r = { c.recovery with lost := Epoch.update c.recovery.lost epoch frames })
      (updated : c.streams.Updated id s'
        ((s'.isFlushable || (data.isEmpty && data.fin)) && !s.isFlushable) m) :
      TookLost epoch c { (c.setRecovery r).setStreams m with txData := c.txData - data.len }

theorem popLost_calm {epoch : Epoch} {c : Connection} {frame : Frame} {frames : List Frame}
    (h : c.recovery.lost epoch = frame :: frames) :
    c.Calm (c.setRecovery
      { c.recovery with lost := Epoch.update c.recovery.lost epoch frames }) := by
  refine setRecovery_calm (Recovery.moves_at epoch (fun f hf => ?_) fun e he =>
    ⟨rfl, Epoch.update_of_ne he, rfl⟩)
  simp only [Recovery.Has, Epoch.update_same] at hf
  refine hf.imp_right (Or.imp_left fun hf => ?_)
  rw [h]
  exact List.mem_cons_of_mem _ hf

theorem takeLost_effect (epoch : Epoch) (c : Connection) :
    (takeLost epoch).Keeps (TookLost epoch) c := by
  rw [takeLost, Program.keeps_get_bind]
  cases hlost : c.recovery.lost epoch with
  | nil => exact .other (.refl c) (.refl c)
  | cons frame frames =>
    have calm := popLost_calm hlost
    have unmoved : c.Unmoved (c.setRecovery
        { c.recovery with lost := Epoch.update c.recovery.lost epoch frames }) :=
      { Unmoved.refl c with }
    simp only [Program.Keeps, Program.ends_bind, Program.ends_set]
    unfold drainLostFrame
    rw [Program.ends_bind, Program.ends_get]
    cases frame with
    | crypto data =>
      simp only [Program.ends_bind, Program.ends_ofExcept, Program.ends_set]
      refine ⟨fun send hpush => .other ?_ { unmoved with }, fun e _ _ => .other calm unmoved⟩
      -- CRYPTO data has no end, so that taking it back cannot set one
      have hopen (hc : c.CryptoOpen) : send.finOff = none :=
        SendBuf.push_open hpush (hc.1 epoch) (hc.2 epoch data (.inr (.inl (by simp [hlost]))))
      refine { calm with cryptoOpen := fun hc => ⟨fun e => ?_, (calm.cryptoOpen hc).2⟩ }
      unfold modifySpace
      dsimp only
      rcases eq_or_ne e epoch with rfl | hne
      · rw [Epoch.update_same]
        exact hopen hc
      · rw [Epoch.update_of_ne hne]
        exact hc.1 e
    | blockInfo id _ _ _ _ =>
      simp only [setRecovery]
      cases live : c.streams.streams id with
      | none => exact .other calm unmoved
      | some s => exact .blockInfo calm rfl live (c.streams.put_updated id _) unmoved
    | stream id data =>
      simp only [setRecovery]
      cases live : c.streams.streams id with
      | none => exact .other calm unmoved
      | some s =>
        simp only [Program.ends_bind, Program.ends_set, Program.ends_ofExcept]
        refine ⟨fun send hpush => ?_, fun e hpush _ => .failed hlost live hpush rfl⟩
        exact .stored hlost live hpush rfl rfl
          ((c.streams.put_updated id { s with send := send }).pushFlushableIf _)
    | ack _ _ _ =>
      refine .other (trans_of Calm calm (modifySpace_calm _ _ ?_)) { unmoved with }
      exact fun _ _ h => h
    | handshakeDone =>
      exact .other (calm.congr rfl rfl rfl rfl rfl rfl rfl rfl fun _ => rfl) { unmoved with }
    | _ => exact .other calm unmoved

end Connection

/-! ### Picking a stream -/

namespace StreamMap

/-- Some blocks are cancelled, and the queue and the scheduler may change. -/
structure Cancels (m m' : StreamMap) : Prop where
  streams : ∀ id, m'.streams id = m.streams id ∨ ∃ s, m.streams id = some s ∧
    m'.streams id = some { s with send := { s.send with isShutdown := true, data := .empty } }
  collected : m'.collected = m.collected
  limits : m.SameLimits m'

theorem cancels_of_eq {m m' : StreamMap} (hstreams : m'.streams = m.streams)
    (hcollected : m'.collected = m.collected) (hlimits : m.SameLimits m') : m.Cancels m' :=
  ⟨fun _ => .inl (by rw [hstreams]), hcollected, hlimits⟩

instance : IsPreorder StreamMap Cancels where
  refl m := cancels_of_eq rfl rfl (.refl m)
  trans m m' m'' h h' := by
    refine ⟨fun id => ?_, h'.collected.trans h.collected, trans_of SameLimits h.limits h'.limits⟩
    rcases h'.streams id with hid' | ⟨s', hs', hid'⟩
    · rw [hid']
      exact h.streams id
    · refine .inr ?_
      rcases h.streams id with hid | ⟨s, hs, hid⟩
      · exact ⟨s', hid ▸ hs', hid'⟩
      · rw [hid] at hs'
        cases hs'
        exact ⟨s, hs, hid'⟩

private theorem cancelBlock_cancels (id : ℕ) (m : StreamMap) :
    (cancelBlock id).Keeps Cancels m := by
  refine cancelBlock_keeps
    (fun _ _ _ => cancels_of_eq rfl rfl ⟨rfl, rfl, rfl, rfl, rfl, rfl⟩) fun s live => ?_
  refine ⟨fun i => ?_, rfl, ⟨rfl, rfl, rfl, rfl, rfl, rfl⟩⟩
  rcases eq_or_ne i id with rfl | hne
  · exact .inr ⟨s, live, by simp [cancelled, putSend, markWritable]⟩
  · exact .inl (by simp [cancelled, putSend, markWritable, put, hne])

section Peek

variable {R : StreamMap → StreamMap → Prop} [IsPreorder StreamMap R]

private theorem dropLoop_keeps (hcancel : ∀ id m, (cancelBlock id).Keeps R m)
    (hqueue : ∀ m l, R m (m.setFlushable l)) (pace : Pace) (n : ℕ) (blocks : List Block)
    (m : StreamMap) : (dropLoop pace n blocks).Keeps R m := by
  induction n generalizing blocks m with
  | zero => exact refl_of R m
  | succ n ih =>
    rw [dropLoop, Program.keeps_get_bind]
    refine .bind (.unwrap _) fun id m₁ h₁ => ?_
    refine .bind (.unwrap _) fun block m₂ h₂ => ?_
    refine .bind (.unwrap _) fun drop m₃ h₃ => ?_
    refine .ite (fun _ => ?_) fun _ => ih _ _
    refine .bind (hcancel id m₃) fun _ m₄ _ => ?_
    refine .bind (Program.keeps_modify.mpr (hqueue _ _)) fun _ m₅ _ => ih _ _

/-- Picking a stream cancels blocks, and changes the queue and the scheduler. -/
theorem peekFlushable_keeps (hcancel : ∀ id m, (cancelBlock id).Keeps R m)
    (hqueue : ∀ m l, R m (m.setFlushable l))
    (hscheduler : ∀ m pace blocks r, m.scheduler.selectBlock pace blocks = some r →
      R m (m.setScheduler r.2))
    (pace : Pace) (m : StreamMap) : (peekFlushable pace).Keeps R m := by
  rw [peekFlushable, Program.keeps_get_bind]
  refine .ite (fun _ => refl_of R m) fun _ => ?_
  refine .bind (.forM (fun id m => .discard (.unwrap _)) _ m) fun _ m _ => ?_
  refine .bind (dropLoop_keeps hcancel hqueue pace _ _ m) fun blocks m _ => ?_
  refine .ite (fun _ => refl_of R m) fun _ => Program.keeps_get_bind.mpr ?_
  refine .bind (.unwrap _) fun r m' hm' => ?_
  obtain ⟨hr, rfl⟩ : m.scheduler.selectBlock pace blocks = some r ∧ m' = m := by
    cases h : m.scheduler.selectBlock pace blocks with
    | none => rw [h] at hm'; cases hm'
    | some r' => rw [h] at hm'; cases hm'; exact ⟨rfl, rfl⟩
  refine .bind (Program.keeps_set.mpr (trans_of R (hscheduler m' pace blocks r hr) ?_)) fun _ m _ =>
    refl_of R m
  unfold takeFlushable
  split_ifs
  · exact hqueue _ _
  · exact refl_of R _

end Peek

theorem peekFlushable_cancels (pace : Pace) (m : StreamMap) :
    (peekFlushable pace).Keeps Cancels m :=
  peekFlushable_keeps cancelBlock_cancels
    (fun _ _ => cancels_of_eq rfl rfl ⟨rfl, rfl, rfl, rfl, rfl, rfl⟩)
    (fun _ _ _ _ _ => cancels_of_eq rfl rfl ⟨rfl, rfl, rfl, rfl, rfl, rfl⟩) pace m

end StreamMap

/-! ### Sending from a stream -/

namespace Packing

/-- What `addFrame` does, if it does not panic. -/
theorem addFrame_ends (frame : Frame) (ackEliciting : Bool) (p : Packing) :
    (addFrame frame ackEliciting).Ends p
      (fun _ p' => p'.conn = p.conn ∧ p'.draft.frames = p.draft.frames ++ [frame])
      fun e _ => ∀ err, e ≠ .error err := by
  rw [addFrame, Program.ends_bind, Program.ends_get, Program.ends_ite, Program.ends_ite]
  exact ⟨fun _ => Fault.panic_ne_error, fun _ =>
    ⟨fun _ => ⟨rfl, rfl⟩, fun _ => Fault.underflow_ne_error⟩⟩

/-- What `tryFrame` does, if it does not panic. -/
theorem tryFrame_ends (frame : Frame) (ackEliciting : Bool) (p : Packing) :
    (tryFrame frame ackEliciting).Ends p
      (fun fits p' => p'.conn = p.conn ∧
        p'.draft.frames = if fits then p.draft.frames ++ [frame] else p.draft.frames)
      fun e _ => ∀ err, e ≠ .error err := by
  rw [tryFrame, Program.ends_bind, Program.ends_get]
  simp only [Program.ends_ite, Program.ends_crash, Program.ends_bind, Program.ends_pure]
  refine ⟨fun _ _ h => (by cases h), fun _ => ⟨fun _ => ?_, fun _ => by simp⟩⟩
  exact (addFrame_ends frame ackEliciting p).mono (fun _ _ h => by simpa using h) fun _ _ h => h

/-- The first part of a turn: a BLOCK_INFO frame may be written for the stream. -/
structure Introduced (id : ℕ) (s : Stream) (p : Packing) (s' : Stream) (p' : Packing) : Prop where
  stream : ∃ isNew, s' = { s with send := { s.send with isNew := isNew } }
  conn : ∃ m, p.conn.streams.Updated id s' false m ∧ p'.conn = p.conn.setStreams m
  frames : ∃ fs, (∀ f ∈ fs, ∃ size priority deadline startTime,
    f = .blockInfo id size priority deadline startTime) ∧ p'.draft.frames = p.draft.frames ++ fs

theorem writeBlockInfo_effect {id : ℕ} {s : Stream} {p : Packing}
    (live : p.conn.streams.streams id = some s) :
    (writeBlockInfo id s).Ends p (fun s' p' => Introduced id s p s' p')
      fun e _ => ∀ err, e ≠ .error err := by
  have same : p.conn.streams.Updated id s false p.conn.streams := by
    refine ⟨funext fun i => ?_, rfl, rfl, rfl, rfl, .refl _⟩
    rcases eq_or_ne i id with rfl | hne
    · rw [StreamMap.put_streams_self, live]
    · rw [StreamMap.put_streams_of_ne _ _ hne]
  rw [writeBlockInfo, Program.ends_bind, Program.ends_get, Program.ends_ite]
  refine ⟨fun _ => ?_, fun _ => ?_⟩
  · rw [Program.ends_bind]
    refine (tryFrame_ends _ _ p).mono ?_ fun _ _ h => h
    rintro fits p' ⟨hconn, hframes⟩
    simp only [Program.ends_ite, Program.ends_bind, Program.ends_pure]
    refine ⟨fun hfits => ?_, fun hfits => ?_⟩
    · rw [hfits] at hframes
      refine ⟨⟨false, rfl⟩, ⟨_, p.conn.streams.put_updated id _, ?_⟩, _, ?_, hframes⟩
      · simp only [hconn]
      · intro f hf
        exact ⟨_, _, _, _, List.mem_singleton.mp hf⟩
    · refine ⟨⟨s.send.isNew, rfl⟩, ⟨_, same, hconn⟩, [], by simp, ?_⟩
      simpa [hfits] using hframes
  · exact ⟨⟨s.send.isNew, rfl⟩, ⟨_, same, rfl⟩, [], by simp, by simp⟩

/-- What one turn of the loop does for the picked stream. -/
inductive Turned (id : ℕ) (p p' : Packing) : Prop
  -- the BLOCK_INFO frame fills the packet
  | full {s s₁ : Stream} {p₁ : Packing} {m : StreamMap} (live : p.conn.streams.streams id = some s)
      (introduced : Introduced id s p s₁ p₁) (noRoom : p₁.draft.left ≤ maxStreamOverhead)
      (updated : p.conn.streams.Updated id s₁ s₁.isFlushable m)
      (conn : p'.conn = p.conn.setStreams m) (frames : p'.draft.frames = p₁.draft.frames)
  -- there is no credit left for the header
  | tooLarge {s s₁ : Stream} {p₁ : Packing} {room : ℕ} {m : StreamMap}
      (live : p.conn.streams.streams id = some s) (introduced : Introduced id s p s₁ p₁)
      (roomFor : p₁.streamRoom id = some room) (noRoom : room < streamOverhead id s₁ room)
      (updated : p.conn.streams.Updated id s₁ false m)
      (conn : p'.conn = p.conn.setStreams m) (frames : p'.draft.frames = p₁.draft.frames)
  -- the stream has nothing to send
  | nothing {s s₁ : Stream} {p₁ : Packing} {room : ℕ} {data : RangeBuf} {send : SendBuf}
      {m : StreamMap} (live : p.conn.streams.streams id = some s)
      (introduced : Introduced id s p s₁ p₁) (roomFor : p₁.streamRoom id = some room)
      (pop : s₁.send.pop (room - streamOverhead id s₁ room) = (data, send))
      (empty : (data.isEmpty && !data.fin) = true)
      (updated : p.conn.streams.Updated id { s₁ with send := send } false m)
      (conn : p'.conn = p.conn.setStreams m) (frames : p'.draft.frames = p₁.draft.frames)
  | sent {s s₁ s₂ : Stream} {p₁ : Packing} {room : ℕ} {data : RangeBuf} {send : SendBuf}
      {m : StreamMap} (live : p.conn.streams.streams id = some s)
      (introduced : Introduced id s p s₁ p₁) (roomFor : p₁.streamRoom id = some room)
      (fits : streamOverhead id s₁ room ≤ room)
      (pop : s₁.send.pop (room - streamOverhead id s₁ room) = (data, send))
      (nonempty : (data.isEmpty && !data.fin) = false) (stream : s₂ = { s₁ with send := send })
      (updated : p.conn.streams.Updated id s₂ s₂.isFlushable m)
      (conn : p'.conn = { p.conn.setStreams m with txData := p.conn.txData + data.len })
      (frames : p'.draft.frames = p₁.draft.frames ++ [.stream id data])

theorem chooseRedundancy_effect (env : SendEnv) (block : Block) (tail : ℕ) (p : Packing) :
    (chooseRedundancy env block tail).Ends p
      (fun _ p' => p'.conn = p.conn ∧ p'.draft.frames = p.draft.frames) fun _ _ => False := by
  unfold chooseRedundancy
  rw [Program.ends_modify]
  split
  · exact ⟨rfl, rfl⟩
  · split_ifs <;> exact ⟨rfl, rfl⟩

theorem requeue_effect {id : ℕ} {s : Stream} {p : Packing} {m m₀ : StreamMap}
    (hp : p.conn.streams = m) (updated : m₀.Updated id s false m) :
    (requeue id s).Ends p (fun _ p' => (∃ m', m₀.Updated id s s.isFlushable m' ∧
      p'.conn = p.conn.setStreams m') ∧ p'.draft = p.draft) fun _ _ => False := by
  unfold requeue
  rw [Program.ends_ite]
  refine ⟨fun h => ?_, fun h => ?_⟩
  · rw [h]
    exact ⟨⟨_, (hp ▸ updated).pushFlushable, rfl⟩, rfl⟩
  · rw [Bool.not_eq_true _ |>.mp h]
    exact ⟨⟨p.conn.streams, hp ▸ updated, rfl⟩, rfl⟩

private theorem streamTurn_effect (env : SendEnv) (id : ℕ) (p : Packing) :
    (streamTurn env id).Keeps (Turned id) p := by
  rw [streamTurn, Program.keeps_get_bind]
  dsimp only
  cases live : p.conn.streams.streams id with
  | none => simp [Program.Keeps, StreamMap.getBlock, live]
  | some s =>
    unfold Program.Keeps
    simp only [StreamMap.getBlock, live, Option.map_some, Program.unwrap_some, pure_bind,
      Program.ends_bind]
    -- first BLOCK_INFO, then data, then the stream is queued again
    refine (writeBlockInfo_effect live).mono ?_ fun _ _ => Fault.absurd_error
    intro s₁ p₁ introduced
    obtain ⟨m₁, updated, hconn⟩ := introduced.conn
    have hstreams : p₁.conn.streams = m₁ := by rw [hconn]; rfl
    rw [Program.ends_get, Program.ends_ite]
    refine ⟨fun noRoom => ?_, fun _ => ?_⟩
    · rw [Program.ends_bind]
      refine (requeue_effect hstreams updated).mono ?_ fun _ _ => False.elim
      rintro _ p₂ ⟨⟨m₂, updated₂, hconn₂⟩, hdraft⟩
      exact .full live introduced noRoom updated₂ (by rw [hconn₂, hconn]; rfl) (by rw [hdraft])
    · rw [Program.ends_bind, Program.ends_unwrapSub]
      refine ⟨fun room roomFor => ?_, fun _ h => ?_⟩
      · unfold sendData
        rw [Program.ends_ite]
        refine ⟨fun noRoom => ?_, fun fits => ?_⟩
        · exact .tooLarge live introduced roomFor noRoom updated hconn rfl
        · obtain ⟨⟨data, send⟩, hpop⟩ : ∃ r, s₁.send.pop (room - streamOverhead id s₁ room) = r :=
            ⟨_, rfl⟩
          have updated₂ := updated.put { s₁ with send := send }
          rw [hpop]
          simp only [modifyStreams, modifyConn, Program.ends_bind, Program.ends_modify,
            Program.ends_ite, Program.ends_pure, hstreams]
          refine ⟨fun empty => ?_, fun nonempty => ?_⟩
          · exact .nothing live introduced roomFor hpop empty updated₂ (by rw [hconn]; rfl) rfl
          · refine (chooseRedundancy_effect env _ send.len _).mono ?_ fun _ _ => False.elim
            rintro _ p₂ ⟨hconn₂, hframes₂⟩
            refine (addFrame_ends (.stream id data) true p₂).mono ?_ fun _ _ => Fault.absurd_error
            rintro _ p₃ ⟨hconn₃, hframes₃⟩
            have hstreams₃ : p₃.conn.streams = m₁.put id { s₁ with send := send } := by
              rw [hconn₃, hconn₂]
              rfl
            refine (requeue_effect hstreams₃ updated₂).mono ?_ fun _ _ => False.elim
            rintro _ p₄ ⟨⟨m₄, updated₄, hconn₄⟩, hdraft₄⟩
            refine .sent live introduced roomFor (not_lt.mp fits) hpop
              (by simpa using nonempty) rfl updated₄ ?_ ?_
            · rw [hconn₄, hconn₃, hconn₂, hconn]
              rfl
            · rw [hdraft₄, hframes₃, hframes₂]
      · obtain ⟨err, h⟩ := h
        cases h

/-- What `streamStep` does. -/
inductive Stepped (env : SendEnv) (p p' : Packing) : Prop
  | stopped {m : StreamMap}
      (peek : (StreamMap.peekFlushable env.pace).after p.conn.streams = some m)
      (conn : p'.conn = p.conn.setStreams m) (draft : p'.draft = p.draft)
  | turned {id : ℕ} {m : StreamMap}
      (peek : StreamMap.peekFlushable env.pace p.conn.streams = .ok (some id) m)
      (turn : Turned id { p with conn := p.conn.setStreams m } p')

theorem streamStep_effect (env : SendEnv) (p : Packing) :
    (streamStep env).Keeps (Stepped env) p := by
  have hpeek := Program.keeps_after (StreamMap.peekFlushable env.pace) p.conn.streams
  unfold Program.Keeps streamStep onStreams
  rw [Program.ends_bind, Program.ends_zoom]
  unfold Program.Keeps at hpeek
  refine Program.ends_iff.mpr ⟨fun picked m hm => ?_, fun e m hm he => ?_⟩
  · cases picked with
    | none => exact .stopped (hpeek.ok hm) rfl rfl
    | some id =>
      refine Program.Ends.mono (streamTurn_effect env id _) (fun _ _ turn => .turned hm turn) ?_
      exact fun _ _ turn he => .turned hm (turn he)
  · obtain ⟨err, rfl⟩ := he
    exact .stopped (hpeek.error hm ⟨err, rfl⟩) rfl rfl

/-! ### The other frames -/

/-- What `writeReset` does. -/
inductive WroteReset (id : ℕ) (p p' : Packing) : Prop
  | skipped (conn : p'.conn = p.conn.setStreams (p.conn.streams.markCanceled id false))
      (frames : p'.draft.frames = p.draft.frames)
  | written {s : Stream} (live : p.conn.streams.streams id = some s)
      (conn : p'.conn = p.conn.setStreams (p.conn.streams.markCanceled id false))
      (frames : p'.draft.frames = p.draft.frames ++ [.resetStream id 1 s.send.blockSize])

theorem writeReset_effect (id : ℕ) (p : Packing) : (writeReset id).Keeps (WroteReset id) p := by
  rw [writeReset, Program.keeps_get_bind]
  simp only [Program.Keeps, modifyStreams, modifyConn, Program.ends_bind, Program.ends_modify]
  cases live : p.conn.streams.streams id with
  | none => exact .skipped rfl rfl
  | some s =>
    refine (tryFrame_ends _ _ _).mono ?_ fun _ _ => Fault.absurd_error
    rintro fits p' ⟨hconn, hframes⟩
    cases fits with
    | false => exact .skipped hconn hframes
    | true => exact .written live hconn hframes

/-- What `writeMaxStreamData` does. -/
inductive WroteMaxStreamData (id : ℕ) (p p' : Packing) : Prop
  | skipped (conn : p'.conn = p.conn.setStreams (p.conn.streams.markAlmostFull id false))
      (frames : p'.draft.frames = p.draft.frames)
  | raised {s : Stream} {max : ℕ} {recv : RecvBuf} {m : StreamMap}
      (live : p.conn.streams.streams id = some s) (update : s.recv.updateMaxData = (max, recv))
      (updated : p.conn.streams.Updated id { s with recv := recv } false m)
      (conn : p'.conn = p.conn.setStreams m)
      (frames : p'.draft.frames = p.draft.frames ∨
        p'.draft.frames = p.draft.frames ++ [.maxStreamData id max])

theorem writeMaxStreamData_effect (id : ℕ) (p : Packing) :
    (writeMaxStreamData id).Keeps (WroteMaxStreamData id) p := by
  rw [writeMaxStreamData, Program.keeps_get_bind]
  cases live : p.conn.streams.streams id with
  | none => exact .skipped rfl rfl
  | some s =>
    simp only [Program.Keeps, modifyStreams, modifyConn, Program.ends_bind, Program.ends_modify]
    refine (tryFrame_ends _ _ _).mono ?_ fun _ _ => Fault.absurd_error
    rintro fits p' ⟨hconn, hframes⟩
    have updated := (p.conn.streams.put_updated id
      { s with recv := s.recv.updateMaxData.2 }).markAlmostFull id false
    refine .raised live rfl updated hconn ?_
    cases fits with
    | false => exact .inl hframes
    | true => exact .inr hframes

/-- What `writeMaxData` does. -/
inductive WroteMaxData (p p' : Packing) : Prop
  | skipped (conn : p'.conn = p.conn) (frames : p'.draft.frames = p.draft.frames)
  | raised (conn : p'.conn = { p.conn with maxRxData := p.conn.maxRxDataNext })
      (frames : p'.draft.frames = p.draft.frames ++ [.maxData p.conn.maxRxDataNext])

theorem writeMaxData_effect (p : Packing) : writeMaxData.Keeps WroteMaxData p := by
  rw [writeMaxData, Program.keeps_get_bind]
  refine .ite (fun _ => ?_) fun _ => .skipped rfl rfl
  unfold Program.Keeps
  rw [Program.ends_bind]
  refine (tryFrame_ends _ _ _).mono ?_ fun e _ he => fun ⟨err, h⟩ => absurd h (he err)
  rintro fits p' ⟨hconn, hframes⟩
  rw [Program.ends_ite]
  refine ⟨fun h => ?_, fun h => ?_⟩
  · refine .raised ?_ (by simpa [h] using hframes)
    simp only [hconn]
  · exact .skipped hconn (by simpa [h] using hframes)

/-- What `writeCrypto` does. -/
structure WroteCrypto (p p' : Packing) : Prop where
  conn : p.conn.Calm p'.conn
  unmoved : p.conn.Unmoved p'.conn
  frames : p'.draft.frames = p.draft.frames ∨ ∃ data, (p.conn.CryptoOpen → data.fin = false) ∧
    p'.draft.frames = p.draft.frames ++ [.crypto data]

theorem writeCrypto_effect (epoch : Epoch) (p : Packing) :
    (writeCrypto epoch).Keeps WroteCrypto p := by
  rw [writeCrypto, Program.keeps_get_bind]
  refine .ite (fun _ => ?_) fun _ => ⟨.refl _, .refl _, .inl rfl⟩
  simp only [Program.Keeps, modifyConn, Program.ends_bind, Program.ends_modify]
  refine (addFrame_ends _ _ _).mono ?_ fun _ _ => Fault.absurd_error
  rintro _ p' ⟨hconn, hframes⟩
  refine ⟨?_, ?_, .inr ⟨_, fun hc => (SendBuf.pop_open (hc.1 epoch) _).1, hframes⟩⟩
  swap
  · rw [hconn]
    exact { Connection.Unmoved.refl p.conn with }
  rw [hconn]
  dsimp only
  refine Connection.modifySpace_calm p.conn epoch ?_
  exact fun _ hc _ => (SendBuf.pop_open (hc.1 epoch) _).2

/-- The connection changes calmly, and quiet frames are appended. -/
structure Calm (p p' : Packing) : Prop where
  conn : p.conn.Calm p'.conn
  frames : ∃ fs, fs.all Frame.isQuiet ∧ p'.draft.frames = p.draft.frames ++ fs

theorem Quiet.calm {p p' : Packing} (h : p.Quiet p') : p.Calm p' := by
  obtain ⟨fs, hfs, hframes⟩ := h.frames
  refine ⟨h.conn.calm, fs, List.all_eq_true.mpr fun f hf => ?_, hframes⟩
  exact Frame.isQuiet_of_isSilent (List.all_eq_true.mp hfs f hf)

theorem writeMaxStreamsBidi_effect (p : Packing) : writeMaxStreamsBidi.Keeps Calm p := by
  rw [writeMaxStreamsBidi, Program.keeps_get_bind]
  refine .ite (fun _ => ?_) fun _ => ⟨.refl _, [], rfl, (List.append_nil _).symm⟩
  simp only [Program.Keeps, modifyStreams, modifyConn, Program.ends_bind, Program.ends_modify]
  refine (addFrame_ends _ _ _).mono ?_ fun _ _ => Fault.absurd_error
  rintro _ p' ⟨hconn, hframes⟩
  refine ⟨?_, _, ?_, hframes⟩
  · rw [hconn]
    exact { Connection.Calm.refl p.conn with }
  · rfl

theorem writeMaxStreamsUni_effect (p : Packing) : writeMaxStreamsUni.Keeps Calm p := by
  rw [writeMaxStreamsUni, Program.keeps_get_bind]
  refine .ite (fun _ => ?_) fun _ => ⟨.refl _, [], rfl, (List.append_nil _).symm⟩
  simp only [Program.Keeps, modifyStreams, modifyConn, Program.ends_bind, Program.ends_modify]
  refine (addFrame_ends _ _ _).mono ?_ fun _ _ => Fault.absurd_error
  rintro _ p' ⟨hconn, hframes⟩
  refine ⟨?_, _, ?_, hframes⟩
  · rw [hconn]
    exact { Connection.Calm.refl p.conn with }
  · rfl

/-- What `recordSent` does: the packet joins the packets that were sent. -/
structure Recorded (p p' : Packing) : Prop where
  conn : ∃ r, (p.conn.setRecovery r).Calm p'.conn ∧
    ∀ e f, r.Has e f → p.conn.recovery.Has e f ∨ f ∈ p.draft.frames
  draft : p'.draft = p.draft
  unmoved : p.conn.Unmoved p'.conn

private theorem counted_calm (epoch : Epoch) (written : ℕ) (env : SendEnv) (p : Packing) :
    (p.conn.setRecovery (p.conn.recovery.onPacketSent (p.toSent epoch written env.instant) epoch
      env.instant)).Calm (p.counted epoch written env) := by
  have hnumber := Connection.modifySpace_calm
    (p.conn.setRecovery (p.conn.recovery.onPacketSent (p.toSent epoch written env.instant) epoch
      env.instant)) epoch (f := fun s => { s with nextPktNum := s.nextPktNum + 1 })
    fun _ _ h => h
  exact { hnumber with }

theorem recordSent_effect (epoch : Epoch) (written : ℕ) (env : SendEnv) (p : Packing) :
    (recordSent epoch written env).Keeps Recorded p := by
  have hunmoved : p.conn.Unmoved (p.counted epoch written env) := ⟨rfl, rfl, rfl, rfl⟩
  have hsettled : (p.counted epoch written env).Calm (p.settled epoch written env) ∧
      (p.counted epoch written env).Unmoved (p.settled epoch written env) := by
    unfold settled
    dsimp only
    split_ifs
    · exact ⟨Connection.dropEpochState_calm _ .initial env.wall,
        Connection.dropEpochState_unmoved _ .initial env.wall⟩
    · exact ⟨.refl _, .refl _⟩
  have hcalm := trans_of Connection.Calm (counted_calm epoch written env p) hsettled.1
  rw [Program.Keeps, Program.Ends, recordSent_eq]
  exact ⟨⟨_, { hcalm with }, fun _ _ => Recovery.has_onPacketSent⟩, rfl,
    { trans_of Connection.Unmoved hunmoved hsettled.2 with }⟩

end Packing

/-! ### Every action -/

namespace Action

/-- What an action does, by what it concerns. -/
inductive Effect (p : Packing) : Action → Packing → Prop
  | wrote {id deadline priority now : ℕ} {data : List UInt8} {fin : Bool} {c : Connection}
      (h : p.conn.Wrote id data fin c) :
      Effect p (.write id data fin deadline priority now) { p with conn := c }
  | readFrom {id cap : ℕ} {c : Connection} (h : p.conn.ReadFrom id cap c) :
      Effect p (.read id cap) { p with conn := c }
  | shutDown {id : ℕ} {direction : Connection.Shutdown} {c : Connection}
      (h : p.conn.ShutDown id direction c) : Effect p (.shutdown id direction) { p with conn := c }
  | streamAccepted {id : ℕ} {data : RangeBuf} {epoch : Epoch} {env : Env} {c : Connection}
      (h : p.conn.StreamAccepted id data env.wall c) :
      Effect p (.frame (.stream id data) epoch env) { p with conn := c }
  | streamRejected {id : ℕ} {data : RangeBuf} {epoch : Epoch} {env : Env} {c : Connection}
      (h : p.conn.StreamRejected id c) :
      Effect p (.frame (.stream id data) epoch env) { p with conn := c }
  | resetAccepted {id code finalSize : ℕ} {epoch : Epoch} {env : Env} {c : Connection}
      (h : p.conn.ResetAccepted id code finalSize env.wall c) :
      Effect p (.frame (.resetStream id code finalSize) epoch env) { p with conn := c }
  | resetRejected {id code finalSize : ℕ} {epoch : Epoch} {env : Env} {c : Connection}
      (h : p.conn.ResetRejected id code finalSize c) :
      Effect p (.frame (.resetStream id code finalSize) epoch env) { p with conn := c }
  | gotBlockInfo {id size priority deadline startTime : ℕ} {epoch : Epoch} {env : Env}
      {c : Connection} (h : p.conn.GotBlockInfo id c) :
      Effect p (.frame (.blockInfo id size priority deadline startTime) epoch env)
        { p with conn := c }
  | gotMaxStreamData {id max : ℕ} {epoch : Epoch} {env : Env} {c : Connection}
      (h : p.conn.GotMaxStreamData id max c) :
      Effect p (.frame (.maxStreamData id max) epoch env) { p with conn := c }
  | tookAcked {epoch : Epoch} {c : Connection} (h : p.conn.TookAcked epoch c) :
      Effect p (.acked epoch) { p with conn := c }
  | tookLost {epoch : Epoch} {c : Connection} (h : p.conn.TookLost epoch c) :
      Effect p (.lost epoch) { p with conn := c }
  | stepped {env : SendEnv} {p' : Packing} (h : Packing.Stepped env p p') :
      Effect p (.stream env) p'
  | wroteReset {id : ℕ} {p' : Packing} (h : Packing.WroteReset id p p') : Effect p (.reset id) p'
  | wroteMaxStreamData {id : ℕ} {p' : Packing} (h : Packing.WroteMaxStreamData id p p') :
      Effect p (.maxStreamData id) p'
  | wroteMaxData {p' : Packing} (h : Packing.WroteMaxData p p') : Effect p .maxData p'
  | wroteCrypto {epoch : Epoch} {p' : Packing} (h : Packing.WroteCrypto p p') :
      Effect p (.crypto epoch) p'
  | recorded {epoch : Epoch} {written : ℕ} {env : SendEnv} {p' : Packing}
      (h : Packing.Recorded p p') : Effect p (.record epoch written env) p'
  | started {left : ℕ} : Effect p (.start left) { p with draft := .new left }
  | calm {action : Action} {p' : Packing} (h : p.Calm p') : Effect p action p'

/-- The effect of an action that is a program on the connection. -/
theorem onConn_effect {α : Type} {x : Program Error Connection α}
    {R : Connection → Connection → Prop} {p p' : Packing} (h : x.Keeps R p.conn)
    (hstep : (Packing.onConn x).after p = some p') :
    ∃ c, R p.conn c ∧ p' = { p with conn := c } := by
  rw [Connection.onConn_after, Option.map_eq_some_iff] at hstep
  obtain ⟨c, hc, rfl⟩ := hstep
  exact ⟨c, Program.keeps_iff_after.mp h c hc, rfl⟩

private theorem calm_of_conn {p : Packing} {c : Connection} (h : p.conn.Calm c) :
    p.Calm { p with conn := c } := ⟨h, [], rfl, (List.append_nil _).symm⟩

private theorem frame_effect {frame : Frame} {epoch : Epoch} {env : Env} {p p' : Packing}
    (h : step p (.frame frame epoch env) = some p') : Effect p (.frame frame epoch env) p' := by
  have hstep : (Packing.onConn (Connection.processFrame frame epoch env)).after p = some p' := h
  by_cases hcalm : frame.isCalm = true
  · obtain ⟨c, hc, rfl⟩ := onConn_effect (Connection.processFrame_calm hcalm epoch env p.conn) hstep
    exact .calm (calm_of_conn hc)
  cases frame with
  | stream id data =>
    have heffect := Connection.processStream_effect id data env p.conn
    obtain ⟨c, hc, rfl⟩ := onConn_effect (R := fun c c' =>
      c.StreamAccepted id data env.wall c' ∨ c.StreamRejected id c')
      (heffect.mono (fun _ _ => .inl) fun _ _ h _ => .inr h) hstep
    exact hc.elim .streamAccepted .streamRejected
  | resetStream id code finalSize =>
    have heffect := Connection.processResetStream_effect id code finalSize env p.conn
    obtain ⟨c, hc, rfl⟩ := onConn_effect (R := fun c c' =>
      c.ResetAccepted id code finalSize env.wall c' ∨ c.ResetRejected id code finalSize c')
      (heffect.mono (fun _ _ => .inl) fun _ _ h _ => .inr h) hstep
    exact hc.elim .resetAccepted .resetRejected
  | blockInfo id size priority deadline startTime =>
    obtain ⟨c, hc, rfl⟩ := onConn_effect
      (Connection.processBlockInfo_effect id size priority deadline startTime env p.conn) hstep
    exact .gotBlockInfo hc
  | maxStreamData id max =>
    obtain ⟨c, hc, rfl⟩ := onConn_effect
      (Connection.processMaxStreamData_effect id max env p.conn) hstep
    exact .gotMaxStreamData hc
  | _ => exact absurd rfl hcalm

/-- Every action has its effect. -/
theorem effect {p p' : Packing} {action : Action} (h : step p action = some p') :
    Effect p action p' := by
  cases action with
  | write id data fin deadline priority now =>
    obtain ⟨c, hc, rfl⟩ := onConn_effect (Connection.streamSendFull_effect id data fin deadline
      priority now p.conn).discard h
    exact .wrote hc
  | read id cap =>
    obtain ⟨c, hc, rfl⟩ := onConn_effect (Connection.streamRecv_effect id cap p.conn).discard h
    exact .readFrom hc
  | shutdown id direction =>
    obtain ⟨c, hc, rfl⟩ := onConn_effect (Connection.streamShutdown_effect id direction p.conn) h
    exact .shutDown hc
  | timeout env =>
    cases h
    exact .calm (calm_of_conn (Connection.onTimeout_calm p.conn env))
  | frame frame epoch env => exact frame_effect h
  | acked epoch =>
    cases h
    exact .tookAcked (Connection.takeAcked_effect epoch p.conn)
  | received pkt epoch =>
    cases h
    exact .calm (calm_of_conn (Connection.received_calm pkt epoch p.conn))
  | handshake hs =>
    obtain ⟨c, hc, rfl⟩ := onConn_effect (Connection.doHandshake_calm hs p.conn) h
    exact .calm (calm_of_conn hc)
  | lost epoch =>
    obtain ⟨c, hc, rfl⟩ := onConn_effect (Connection.takeLost_effect epoch p.conn) h
    exact .tookLost hc
  | clearLost epoch =>
    cases h
    exact .calm (calm_of_conn (Connection.clearLost_calm epoch p.conn))
  | start left =>
    cases h
    exact .started
  | reset id =>
    exact .wroteReset (Program.keeps_iff_after.mp (Packing.writeReset_effect id p).discard p' h)
  | maxStreamsBidi =>
    exact .calm (Program.keeps_iff_after.mp (Packing.writeMaxStreamsBidi_effect p) p' h)
  | maxStreamsUni =>
    exact .calm (Program.keeps_iff_after.mp (Packing.writeMaxStreamsUni_effect p) p' h)
  | maxData => exact .wroteMaxData (Program.keeps_iff_after.mp (Packing.writeMaxData_effect p) p' h)
  | maxStreamData id =>
    exact .wroteMaxStreamData
      (Program.keeps_iff_after.mp (Packing.writeMaxStreamData_effect id p).discard p' h)
  | crypto epoch =>
    exact .wroteCrypto (Program.keeps_iff_after.mp (Packing.writeCrypto_effect epoch p) p' h)
  | stream env =>
    exact .stepped (Program.keeps_iff_after.mp (Packing.streamStep_effect env p).discard p' h)
  | record epoch written env =>
    exact .recorded
      (Program.keeps_iff_after.mp (Packing.recordSent_effect epoch written env p) p' h)
  | quiet q =>
    simp only [step] at h
    split_ifs at h with hquiet
    cases h
    exact .calm hquiet.calm

end Action

end Dtp
