import Dtp.Packets

/-!
# What the frames of a packet change

Most kinds of frames are written in one way: if a frame is due, it is appended to the
packet, and the connection notes that it was sent; if not, nothing happens. Neither the
streams nor the FEC state change. What holds of every such step is proved once.

## Main definitions

* `Connection.SameWork` — a change that leaves streams and FEC state alone
* `Packing.Advances` — a frame is appended, or nothing happens
* `Packing.SendLoop`, `Packing.LoopRel` — the steps of the loop over the streams stay within a
  relation
* `Packing.SameFec` — what all frames leave alone

## Main results

* `Packing.writeAck_advances` and its like — the frames that are written in this way
* `Packing.SendLoop.writeStream` — and then the whole loop does
* `Packing.writeFrames_sameFec` — the FEC state while frames are written
-/

namespace Dtp

open Lib (Fault Program)

/-- The connection changes neither in its streams nor in its FEC state. -/
structure Connection.SameWork (c c' : Connection) : Prop where
  streams : c'.streams.streams = c.streams.streams
  collected : c'.streams.collected = c.streams.collected
  flushable : c'.streams.flushable = c.streams.flushable
  canceled : c'.streams.canceled = c.streams.canceled
  almostFull : c'.streams.almostFull = c.streams.almostFull
  fec : c'.fec = c.fec
  fecEncoded : c'.fecEncoded = c.fecEncoded
  nextFecGroupId : c'.nextFecGroupId = c.nextFecGroupId
  tailSize : c'.tailSize = c.tailSize
  cryptoSeal : ∀ e, (c'.pktNumSpaces e).cryptoSeal = (c.pktNumSpaces e).cryptoSeal

theorem Connection.SameWork.refl (c : Connection) : c.SameWork c := by
  constructor <;> intros <;> rfl

/-- As long as keys stay, the work of an epoch does. -/
theorem Connection.sameWork_modifySpace (c : Connection) (epoch : Epoch)
    {f : PktNumSpace → PktNumSpace}
    (hf : ∀ s, (f s).cryptoSeal = s.cryptoSeal) : c.SameWork (c.modifySpace epoch f) := by
  refine { Connection.SameWork.refl c with cryptoSeal := fun e => ?_ }
  rw [Connection.modifySpace]
  rcases eq_or_ne e epoch with rfl | hne
  · simp only [Epoch.update_same, hf]
  · simp only [Epoch.update_of_ne hne]

/-- The packet asks for the same FEC group, and has as much room as before. -/
structure Draft.SameAsk (d d' : Draft) : Prop where
  m : d'.m = d.m
  n : d'.n = d.n
  balance : d'.left + d'.payloadLen = d.left + d.payloadLen

namespace Packing

/-- A frame is appended to the packet, and the connection changes in other respects than
its streams and its FEC state; or nothing happens. -/
def Advances (p p' : Packing) : Prop :=
  p' = p ∨ p.conn.SameWork p'.conn ∧ (∃ f, p'.draft.frames = p.draft.frames ++ [f]) ∧
    p.draft.SameAsk p'.draft

/-- The program returns no error, though it may panic. -/
abbrev noError : Lib.Fault Error → Packing → Prop := fun e _ => ∀ err, e ≠ .error err

section Advance

variable {p : Packing} {epoch : Epoch} {frame : Frame} {flag : Bool} {f : Connection → Connection}

theorem Advances.refl (p : Packing) : p.Advances p := .inl rfl

/-- Appending a frame asks for no FEC group. -/
theorem addFrame_sameAsk (frame : Frame) (flag : Bool) (p : Packing) : (addFrame frame flag).Ends p
    (fun _ p' => p.draft.SameAsk p'.draft) noError := by
  rw [addFrame, Program.ends_bind, Program.ends_get, Program.ends_ite, Program.ends_ite]
  refine ⟨fun _ => Fault.panic_ne_error,
    fun _ => ⟨fun hfits => ⟨rfl, rfl, ?_⟩, fun _ => Fault.underflow_ne_error⟩⟩
  change p.draft.left - frame.wireLen + (p.draft.payloadLen + frame.wireLen) = _
  omega

/-- What `addFrame` does to a connection and a packet. -/
theorem addFrame_writes (frame : Frame) (flag : Bool) (p : Packing) : (addFrame frame flag).Ends p
    (fun _ p' => p'.conn = p.conn ∧ (∃ f, p'.draft.frames = p.draft.frames ++ [f]) ∧
      p.draft.SameAsk p'.draft) noError :=
  ((addFrame_ends frame flag p).and (addFrame_sameAsk frame flag p)).mono
    (fun _ _ h => ⟨h.1.1, ⟨frame, h.1.2⟩, h.2⟩) fun _ _ h => h.2

/-- A frame is appended, and then the connection changes. -/
theorem addFrame_then_advances (hf : ∀ c : Connection, c.SameWork (f c)) :
    (do addFrame frame flag; modifyConn f : Program Error Packing Unit).Ends p
      (fun _ => p.Advances) noError := by
  refine (addFrame_writes frame flag p).bind fun _ p' hp' => .inr ⟨?_, hp'.2⟩
  rw [← hp'.1]
  exact hf p'.conn

/-- The connection changes, and then a frame is appended. -/
theorem then_addFrame_advances {c : Connection} (hc : p.conn.SameWork c) :
    (addFrame frame flag).Ends { p with conn := c } (fun _ => p.Advances) noError := by
  refine (addFrame_writes frame flag { p with conn := c }).mono (fun _ p' hp' => ?_) fun _ _ h => h
  exact .inr ⟨hp'.1 ▸ hc, hp'.2⟩

/-- A frame is tried, and the connection changes if it fits. -/
theorem tryFrame_when_advances (hf : ∀ c : Connection, c.SameWork (f c)) :
    (do if ← tryFrame frame flag then modifyConn f : Program Error Packing Unit).Ends p
      (fun _ => p.Advances) noError := by
  rw [Program.ends_bind, tryFrame, Program.ends_bind, Program.ends_get, Program.ends_ite,
    Program.ends_ite]
  refine ⟨fun _ => Fault.panic_ne_error, fun _ => ⟨fun _ => ?_, fun _ => .refl p⟩⟩
  refine (addFrame_writes frame flag p).bind fun _ p' hp' => .inr ⟨?_, hp'.2⟩
  rw [← hp'.1]
  exact hf p'.conn

theorem writeAck_advances (epoch : Epoch) (env : SendEnv) (p : Packing) :
    (writeAck epoch env).Ends p (fun _ => p.Advances) noError := by
  rw [writeAck, Program.ends_bind, Program.ends_get, Program.ends_ite]
  exact ⟨fun _ => tryFrame_when_advances fun c => c.sameWork_modifySpace epoch fun _ => rfl,
    fun _ => .refl p⟩

theorem writeHandshakeDone_advances (p : Packing) :
    writeHandshakeDone.Ends p (fun _ => p.Advances) noError := by
  rw [writeHandshakeDone, Program.ends_bind, Program.ends_get, Program.ends_ite]
  exact ⟨fun _ => addFrame_then_advances fun c => { Connection.SameWork.refl c with },
    fun _ => .refl p⟩

theorem writeMaxStreamsBidi_advances (p : Packing) :
    writeMaxStreamsBidi.Ends p (fun _ => p.Advances) noError := by
  rw [writeMaxStreamsBidi, Program.ends_bind, Program.ends_get, Program.ends_ite]
  exact ⟨fun _ => then_addFrame_advances { Connection.SameWork.refl p.conn with }, fun _ => .refl p⟩

theorem writeMaxStreamsUni_advances (p : Packing) :
    writeMaxStreamsUni.Ends p (fun _ => p.Advances) noError := by
  rw [writeMaxStreamsUni, Program.ends_bind, Program.ends_get, Program.ends_ite]
  exact ⟨fun _ => then_addFrame_advances { Connection.SameWork.refl p.conn with }, fun _ => .refl p⟩

theorem writeMaxData_advances (p : Packing) :
    writeMaxData.Ends p (fun _ => p.Advances) noError := by
  rw [writeMaxData, Program.ends_bind, Program.ends_get, Program.ends_ite]
  exact ⟨fun _ => tryFrame_when_advances fun c => { Connection.SameWork.refl c with },
    fun _ => .refl p⟩

theorem writeConnectionClose_advances (p : Packing) :
    writeConnectionClose.Ends p (fun _ => p.Advances) noError := by
  rw [writeConnectionClose, Program.ends_bind, Program.ends_get]
  cases p.conn.error with
  | none => exact .refl p
  | some err => exact tryFrame_when_advances fun c => { Connection.SameWork.refl c with }

theorem writeApplicationClose_advances (epoch : Epoch) (p : Packing) :
    (writeApplicationClose epoch).Ends p (fun _ => p.Advances) noError := by
  rw [writeApplicationClose, Program.ends_bind, Program.ends_get]
  dsimp only
  cases p.conn.appError with
  | none => exact .refl p
  | some err =>
    refine Program.ends_ite.mpr ⟨fun _ => ?_, fun _ => .refl p⟩
    exact addFrame_then_advances fun c => { Connection.SameWork.refl c with }

theorem writePathResponse_advances (p : Packing) :
    writePathResponse.Ends p (fun _ => p.Advances) noError := by
  rw [writePathResponse, Program.ends_bind, Program.ends_get]
  cases p.conn.challenge with
  | none => exact .refl p
  | some data =>
    refine Program.ends_ite.mpr ⟨fun _ => ?_, fun _ => .refl p⟩
    exact addFrame_then_advances fun c => { Connection.SameWork.refl c with }

theorem writeCrypto_advances (epoch : Epoch) (p : Packing) :
    (writeCrypto epoch).Ends p (fun _ => p.Advances) noError := by
  rw [writeCrypto, Program.ends_bind, Program.ends_get, Program.ends_ite]
  refine ⟨fun _ => ?_, fun _ => .refl p⟩
  simp only [modifyConn, Program.ends_bind, Program.ends_modify]
  exact then_addFrame_advances (p.conn.sameWork_modifySpace epoch fun _ => rfl)

theorem writePing_advances (epoch : Epoch) (p : Packing) :
    (writePing epoch).Ends p (fun _ => p.Advances) noError := by
  rw [writePing, Program.ends_bind, Program.ends_get, Program.ends_ite]
  exact ⟨fun _ => then_addFrame_advances (.refl p.conn), fun _ => .refl p⟩

end Advance

end Packing

/-! ### The loop over the streams -/

namespace Packing

/-- The steps of the loop over the streams stay within a relation, which may know that only
the send buffer of a stream changes. -/
structure SendLoop (env : SendEnv) (R : Packing → Packing → Prop) : Prop where
  peek : ∀ p m, (StreamMap.peekFlushable env.pace).after p.conn.streams = some m →
    R p { p with conn := p.conn.setStreams m }
  send : ∀ id s send, ∀ p : Packing, p.conn.streams.streams id = some s →
    R p { p with conn := p.conn.setStreams (p.conn.streams.putSend id s send) }
  push : ∀ id, ∀ p : Packing,
    R p { p with conn := p.conn.setStreams (p.conn.streams.pushFlushable id) }
  txData : ∀ n, ∀ p : Packing, R p { p with conn := { p.conn with txData := n } }
  frame : ∀ frame flag p, (addFrame frame flag).Keeps R p
  redundancy : ∀ block tail p, (chooseRedundancy env block tail).Keeps R p

namespace SendLoop

variable {env : SendEnv} {R : Packing → Packing → Prop} [IsPreorder Packing R]

/-- A frame that may be added keeps what the loop keeps. -/
theorem tryFrame (h : SendLoop env R) (frame : Frame) (flag : Bool) (p : Packing) :
    (tryFrame frame flag).Keeps R p := by
  rw [Packing.tryFrame, Program.keeps_get_bind]
  refine .ite (fun _ => Program.keeps_crash) fun _ => .ite (fun _ => ?_) fun _ => refl_of R p
  exact .bind (h.frame frame flag p) fun _ p' _ => refl_of R p'

theorem writeBlockInfo (h : SendLoop env R) {id : ℕ} {s : Stream} {p : Packing}
    (live : p.conn.streams.streams id = some s) : (writeBlockInfo id s).Keeps R p := by
  rw [Packing.writeBlockInfo, Program.keeps_get_bind]
  refine .ite (fun _ => ?_) fun _ => refl_of R p
  have hconn := tryFrame_ends (.blockInfo id s.send.blockSize s.send.priority s.send.deadline
    ((s.send.startTime - p.conn.bctOffset) % 2 ^ 64).toNat) true p
  refine .bind (h.tryFrame _ _ p) fun fits p' hp' => .ite (fun _ => ?_) fun _ => refl_of R p'
  have live' : p'.conn.streams.streams id = some s := (hconn.ok hp').1 ▸ live
  exact .bind (Program.keeps_modify.mpr (h.send id s _ p' live')) fun _ p'' _ => refl_of R p''

/-- The change of the queue keeps what the loop keeps. -/
theorem requeue (h : SendLoop env R) (id : ℕ) (s : Stream) (p : Packing) :
    (requeue id s).Keeps R p :=
  .ite (fun _ => Program.keeps_modify.mpr (h.push id p)) fun _ => refl_of R p

/-- The data of a stream keeps what the loop keeps. -/
theorem sendData (h : SendLoop env R) {id : ℕ} {s : Stream} {p : Packing}
    (live : p.conn.streams.streams id = some s) (block : Block) (size : ℕ) :
    (sendData env id block s size).Keeps R p := by
  refine .ite (fun _ => refl_of R p) fun _ => ?_
  dsimp only
  refine .bind (Program.keeps_modify.mpr (h.send id s _ p live)) fun _ p₁ _ =>
    .ite (fun _ => refl_of R p₁) fun _ => ?_
  refine .bind (Program.keeps_modify.mpr (h.txData _ p₁)) fun _ p₂ _ => ?_
  refine .bind (h.redundancy block _ p₂) fun _ p₃ _ => ?_
  refine .bind (h.frame _ _ p₃) fun _ p₄ _ => ?_
  exact .bind (h.requeue id _ p₄) fun _ p₅ _ => refl_of R p₅

/-- A turn keeps what the loop keeps. -/
theorem streamTurn (h : SendLoop env R) (id : ℕ) (p : Packing) : (streamTurn env id).Keeps R p := by
  rw [Packing.streamTurn, Program.keeps_get_bind]
  refine .bind (.unwrap _) fun block p₁ hp₁ => ?_
  obtain rfl : p = p₁ := by
    cases hblock : p.conn.streams.getBlock id with
    | none => simp [hblock] at hp₁
    | some block' =>
      rw [hblock] at hp₁
      cases hp₁
      rfl
  cases live : p.conn.streams.streams id with
  | none => exact refl_of R p
  | some s =>
    refine .bind (h.writeBlockInfo live) fun s₁ p₂ hp₂ => ?_
    obtain ⟨m, updated, hconn⟩ := ((writeBlockInfo_effect live).ok hp₂).conn
    have live₂ : p₂.conn.streams.streams id = some s₁ := by
      rw [hconn]
      change m.streams id = _
      rw [updated.streams]
      exact StreamMap.put_streams_self _ _ _
    refine Program.keeps_get_bind.mpr (.ite (fun _ => ?_) fun _ => ?_)
    · exact .bind (h.requeue id s₁ p₂) fun _ p₃ _ => refl_of R p₃
    · cases hroom : p₂.streamRoom id with
      | none => exact .bind Program.keeps_underflow fun _ _ h => by simp at h
      | some size => exact h.sendData live₂ block size

/-- The loop keeps what its parts keep. -/
theorem writeStream (h : SendLoop env R) (fuel : ℕ) (p : Packing) :
    (writeStream env fuel).Keeps R p := by
  induction fuel generalizing p with
  | zero => simp [Packing.writeStream, Program.Keeps]
  | succ fuel ih =>
    refine .bind (.bind ?_ fun picked p₁ _ => ?_) fun stop p₂ _ =>
      .ite (fun _ => refl_of R p₂) fun _ => ih p₂
    · exact .zoom (Program.keeps_after (StreamMap.peekFlushable env.pace) p.conn.streams)
        fun m hm => h.peek p m hm
    · cases picked with
      | none => exact refl_of R p₁
      | some id => exact h.streamTurn id p₁

end SendLoop

/-- The steps of the loop over the streams stay within a relation. -/
structure LoopRel (env : SendEnv) (R : Packing → Packing → Prop) : Prop where
  peek : ∀ p m, (StreamMap.peekFlushable env.pace).after p.conn.streams = some m →
    R p { p with conn := p.conn.setStreams m }
  put : ∀ id s s', ∀ p : Packing, p.conn.streams.streams id = some s → s'.recv = s.recv →
    R p { p with conn := p.conn.setStreams (p.conn.streams.put id s') }
  push : ∀ id, ∀ p : Packing,
    R p { p with conn := p.conn.setStreams (p.conn.streams.pushFlushable id) }
  txData : ∀ n, ∀ p : Packing, R p { p with conn := { p.conn with txData := n } }
  frame : ∀ frame flag p, (addFrame frame flag).Keeps R p
  redundancy : ∀ block tail p, (chooseRedundancy env block tail).Keeps R p

namespace LoopRel

variable {env : SendEnv} {R : Packing → Packing → Prop}

private theorem sendLoop (h : LoopRel env R) : SendLoop env R where
  peek := h.peek
  send id s send p live := h.put id s { s with send := send } p live rfl
  push := h.push
  txData := h.txData
  frame := h.frame
  redundancy := h.redundancy

/-- The loop keeps the relation. -/
theorem writeStream [IsPreorder Packing R] (h : LoopRel env R) (fuel : ℕ) (p : Packing) :
    (writeStream env fuel).Keeps R p := h.sendLoop.writeStream fuel p

end LoopRel

end Packing

/-! ### The FEC state -/

/-- How many packets the rest of a block takes, up to the largest FEC group. -/
def groupSize (tail : ℕ) : ℕ := min 20 (((tail - 1) / 1350 + 1) % 256)

/-- A packet of `room` bytes may start a FEC group: it may leave `tail` bytes of a block to be
sent, that is few enough, and there are redundant packets for them. -/
structure Connection.StartsGroup (c : Connection) (room : ℕ) (env : SendEnv) (block : Block)
    (tail : ℕ) : Prop where
  isClosing : c.isClosing = false
  waits : c.streams.hasFlushable = true
  fec : c.fec = none
  live : c.streams.getBlock block.blockId = some block
  tail_le : tail ≤ block.remainingSize
  le_tail : block.remainingSize ≤ tail + room
  short : ∃ threshold, c.tailSize = some threshold ∧ tail ≤ threshold
  nonempty : 1 ≤ tail
  redundant : groupSize tail ≠ 0 ∧ env.redundancy block (groupSize tail) ≠ 0

/-- If a packet asks for a new FEC group, the numbers of packets are chosen for some block. -/
def Draft.Chosen (c : Connection) (room : ℕ) (env : SendEnv) (d : Draft) : Prop :=
  d.m = 0 ∨ d.n = 0 ∨ ∃ block tail, c.StartsGroup room env block tail ∧
    d.m = groupSize tail ∧ d.n = env.redundancy block (groupSize tail)

/-- What a packet asks for is all that counts. -/
theorem Draft.Chosen.of_sameAsk {c : Connection} {room : ℕ} {env : SendEnv} {d d' : Draft}
    (h : d.Chosen c room env) (hask : d.SameAsk d') : d'.Chosen c room env := by
  unfold Draft.Chosen at *
  rw [hask.m, hask.n]
  exact h

namespace Packing

/-- Neither the FEC state changes nor the keys, and the room of the packet is accounted for. If
no stream waits, none comes to wait. -/
structure SameFec (c : Connection) (p p' : Packing) : Prop where
  fec : p'.conn.fec = p.conn.fec
  fecEncoded : p'.conn.fecEncoded = p.conn.fecEncoded
  nextFecGroupId : p'.conn.nextFecGroupId = p.conn.nextFecGroupId
  tailSize : p'.conn.tailSize = p.conn.tailSize
  cryptoSeal : ∀ e, (p'.conn.pktNumSpaces e).cryptoSeal = (p.conn.pktNumSpaces e).cryptoSeal
  balance : p'.draft.left + p'.draft.payloadLen = p.draft.left + p.draft.payloadLen
  idle : c.streams.flushable = [] → p.conn.streams.flushable = [] → p'.conn.streams.flushable = []

instance (c : Connection) : IsPreorder Packing (SameFec c) where
  refl _ := ⟨rfl, rfl, rfl, rfl, fun _ => rfl, rfl, fun _ h => h⟩
  trans _ _ _ h h' := ⟨h'.fec.trans h.fec, h'.fecEncoded.trans h.fecEncoded,
    h'.nextFecGroupId.trans h.nextFecGroupId, h'.tailSize.trans h.tailSize,
    fun e => (h'.cryptoSeal e).trans (h.cryptoSeal e), h'.balance.trans h.balance,
    fun hc hp => h'.idle hc (h.idle hc hp)⟩

section Fec

variable {α : Type} {c : Connection} {epoch : Epoch} {env : SendEnv}

private theorem Advances.sameFec {p p' : Packing} (h : p.Advances p') : p.SameFec c p' := by
  rcases h with rfl | ⟨hconn, -, hask⟩
  · exact refl_of (SameFec c) p'
  · exact ⟨hconn.fec, hconn.fecEncoded, hconn.nextFecGroupId, hconn.tailSize, hconn.cryptoSeal,
      hask.balance, fun _ hp => hconn.flushable.trans hp⟩

/-- Programs that only add frames ask for no group. -/
theorem keeps_sameFec_of_advances {x : Program Error Packing α} {p : Packing}
    (h : x.Ends p (fun _ => p.Advances) noError) : x.Keeps (SameFec c) p :=
  .of_ends h (fun _ _ => Advances.sameFec) fun e _ he => absurd rfl (he e)

/-- A frame asks for no group. -/
theorem addFrame_sameFec (frame : Frame) (flag : Bool) (p : Packing) :
    (addFrame frame flag).Keeps (SameFec c) p :=
  keeps_sameFec_of_advances (then_addFrame_advances (.refl p.conn))

theorem tryFrame_sameFec (frame : Frame) (flag : Bool) (p : Packing) :
    (tryFrame frame flag).Keeps (SameFec c) p := by
  rw [tryFrame, Program.keeps_get_bind]
  refine .ite (fun _ => Program.keeps_crash) fun _ => .ite (fun _ => ?_) fun _ =>
    refl_of (SameFec c) p
  exact .bind (addFrame_sameFec frame flag p) fun _ p' _ => refl_of (SameFec c) p'

/-- Streams ask for no group. -/
theorem modifyStreams_sameFec {f : StreamMap → StreamMap} {p : Packing}
    (hf : c.streams.flushable = [] → (f p.conn.streams).flushable = p.conn.streams.flushable) :
    (modifyStreams f).Keeps (SameFec c) p :=
  ⟨rfl, rfl, rfl, rfl, fun _ => rfl, rfl, fun hc hp => (hf hc).trans hp⟩

private theorem writeReset_sameFec (id : ℕ) (p : Packing) : (writeReset id).Keeps
    (SameFec c) p := by
  rw [writeReset, Program.keeps_get_bind]
  refine .bind (modifyStreams_sameFec fun _ => rfl) fun _ p' _ => ?_
  cases p.conn.streams.streams id with
  | none => exact refl_of (SameFec c) p'
  | some s => exact tryFrame_sameFec _ _ p'

private theorem writeMaxStreamData_sameFec (id : ℕ) (p : Packing) :
    (writeMaxStreamData id).Keeps (SameFec c) p := by
  rw [writeMaxStreamData, Program.keeps_get_bind]
  cases p.conn.streams.streams id with
  | none =>
    exact .bind (modifyStreams_sameFec fun _ => rfl) fun _ p' _ => refl_of (SameFec c) p'
  | some s => exact .bind (modifyStreams_sameFec fun _ => rfl) fun _ p' _ => tryFrame_sameFec _ _ p'

/-- If no stream waits, nothing is written. -/
theorem writeStream_idle {p : Packing} (env : SendEnv) (hidle : p.conn.streams.flushable = [])
    (fuel : ℕ) :
    writeStream env (fuel + 1) p = .ok () p := by
  have hpeek : StreamMap.peekFlushable env.pace p.conn.streams = .ok none p.conn.streams := by
    rw [StreamMap.peekFlushable, Program.bind_apply, Program.get_apply]
    dsimp only
    rw [hidle]
    rfl
  rw [writeStream, streamStep, Program.bind_apply, Program.bind_apply]
  simp only [onStreams, Program.zoom, hpeek]
  rfl

/-- If streams wait, the loop over them leaves the FEC state alone. -/
theorem loopRel_sameFec (hflush : c.streams.flushable ≠ []) : LoopRel env (SameFec c) where
  put id _ s' p _ _ := Program.keeps_modify.mp
    (modifyStreams_sameFec (f := fun m => m.put id s') fun hc => absurd hc hflush)
  push id p := Program.keeps_modify.mp
    (modifyStreams_sameFec (f := fun m => m.pushFlushable id) fun hc => absurd hc hflush)
  peek p m _ := ⟨rfl, rfl, rfl, rfl, fun _ => rfl, rfl, fun hc => absurd hc hflush⟩
  txData n p := ⟨rfl, rfl, rfl, rfl, fun _ => rfl, rfl, fun _ h => h⟩
  frame := addFrame_sameFec
  redundancy block tail p := by
    refine Program.keeps_modify.mpr ?_
    cases p.conn.tailSize with
    | none => exact refl_of (SameFec c) p
    | some threshold =>
      dsimp only
      split_ifs <;> exact ⟨rfl, rfl, rfl, rfl, fun _ => rfl, rfl, fun _ h => h⟩

/-- Writing the frames of a packet leaves the FEC state alone, also if it fails. -/
theorem writeFrames_sameFec (epoch : Epoch) (d : Draft) :
    (writeFrames epoch env).Keeps (SameFec c) ⟨c, d⟩ := by
  have hadvances {x : Program Error Packing Unit}
      (h : ∀ p : Packing, x.Ends p (fun _ => p.Advances) noError) :
      Program.Maintains (SameFec c ⟨c, d⟩)
        (fun e p => (∃ err, e = .error err) → SameFec c ⟨c, d⟩ p) x :=
    .of_keeps fun p => keeps_sameFec_of_advances (h p)
  rw [writeFrames, Program.keeps_get_bind]
  refine Program.Maintains.bind (.when fun _ => hadvances (writeAck_advances epoch env))
    (fun _ => ?_) ⟨c, d⟩ (refl_of (SameFec c) _)
  refine .bind (.of_keeps (Program.Keeps.forWhile writeReset_sameFec _)) fun _ => ?_
  refine .bind (.when fun _ => ?_) fun _ => ?_
  · refine .bind (hadvances writeHandshakeDone_advances) fun _ => ?_
    refine .bind (hadvances writeMaxStreamsBidi_advances) fun _ => ?_
    refine .bind (hadvances writeMaxStreamsUni_advances) fun _ => ?_
    refine .bind (hadvances writeMaxData_advances) fun _ => ?_
    exact .of_keeps (Program.Keeps.forWhile writeMaxStreamData_sameFec _)
  refine .bind (hadvances writeConnectionClose_advances) fun _ => ?_
  refine .bind (hadvances (writeApplicationClose_advances epoch)) fun _ => ?_
  refine .bind (hadvances writePathResponse_advances) fun _ => ?_
  refine .bind (.when fun _ => hadvances (writeCrypto_advances epoch)) fun _ => ?_
  refine Program.maintains_get_bind fun p hp => ?_
  refine Program.Maintains.bind (I := SameFec c ⟨c, d⟩) ?_ (fun _ => ?_) p hp
  · refine .when fun _ => ?_
    -- the loop does nothing, or there are streams that wait
    by_cases hflush : c.streams.flushable = []
    · intro p' hp'
      rw [Program.Ends, writeStream_idle env (hp'.idle hflush hflush)]
      exact hp'
    · exact .of_keeps ((loopRel_sameFec hflush).writeStream _)
  · exact .when fun _ => hadvances (writePing_advances epoch)

end Fec

/-! ### Asking for a FEC group -/

/-- The packet asks for no FEC group yet, and has no data of streams: what the scheduler sees of
them is as it was in `c`. -/
structure Unasked (c : Connection) (room : ℕ) (p : Packing) : Prop where
  block : ∀ id, p.conn.streams.getBlock id = c.streams.getBlock id
  fec : p.conn.fec = c.fec
  tailSize : p.conn.tailSize = c.tailSize
  idle : c.streams.flushable = [] → p.conn.streams.flushable = []
  balance : p.draft.left + p.draft.payloadLen = room
  m : p.draft.m = 0

section Ask

variable {c : Connection} {room : ℕ} {env : SendEnv} {p p' : Packing}

private theorem unasked_new (c : Connection) (room : ℕ) : Unasked c room ⟨c, .new room⟩ :=
  ⟨fun _ => rfl, rfl, rfl, id, rfl, rfl⟩

private theorem Unasked.left_le (h : Unasked c room p) : p.draft.left ≤ room :=
  h.balance ▸ Nat.le_add_right _ _

/-- The packet changes, and its connection in nothing that matters here. -/
theorem Unasked.congr (h : Unasked c room p)
    (block : ∀ id, p'.conn.streams.getBlock id = p.conn.streams.getBlock id)
    (fec : p'.conn.fec = p.conn.fec) (tailSize : p'.conn.tailSize = p.conn.tailSize)
    (idle : c.streams.flushable = [] → p'.conn.streams.flushable = p.conn.streams.flushable)
    (ask : p.draft.SameAsk p'.draft) : Unasked c room p' where
  block id := (block id).trans (h.block id)
  fec := fec.trans h.fec
  tailSize := tailSize.trans h.tailSize
  idle hc := (idle hc).trans (h.idle hc)
  balance := ask.balance.trans h.balance
  m := ask.m.trans h.m

/-- The streams may change where their blocks do not. -/
theorem Unasked.setStreams (h : Unasked c room p) {m : StreamMap}
    (block : ∀ id, m.getBlock id = p.conn.streams.getBlock id)
    (idle : c.streams.flushable = [] → m.flushable = p.conn.streams.flushable) :
    Unasked c room { p with conn := p.conn.setStreams m } :=
  h.congr block rfl rfl idle ⟨rfl, rfl, rfl⟩

/-- Frames are added, and no group is asked for. -/
theorem Unasked.advances (h : Unasked c room p) (hp : p.Advances p') : Unasked c room p' := by
  rcases hp with rfl | ⟨hconn, -, hask⟩
  · exact h
  · refine h.congr (fun id => ?_) hconn.fec hconn.tailSize (fun _ => hconn.flushable) hask
    exact StreamMap.getBlock_congr (congrFun hconn.streams id)

theorem Unasked.tryFrame (h : Unasked c room p) (frame : Frame) (flag : Bool) :
    (tryFrame frame flag).Ends p (fun _ p' => Unasked c room p' ∧ p'.conn = p.conn) anyFault := by
  rw [Packing.tryFrame, Program.ends_bind, Program.ends_get]
  refine Program.ends_ite.mpr ⟨fun _ => trivial, fun _ => Program.ends_ite.mpr ⟨fun _ => ?_,
    fun _ => ⟨h, rfl⟩⟩⟩
  refine ((addFrame_writes frame flag p).mono (fun _ p' hp' => ?_) fun _ _ _ => trivial).bind
    fun _ p' (hp' : Unasked c room p' ∧ p'.conn = p.conn) => hp'
  exact ⟨h.advances (.inr ⟨hp'.1 ▸ .refl _, hp'.2⟩), hp'.1⟩

/-- A stream is replaced by one that looks the same to the scheduler. -/
theorem getBlock_put {m : StreamMap} {id : ℕ} {s s' : Stream} (live : m.streams id = some s)
    (hs : ∃ data isNew isShutdown,
      s'.send = { s.send with data := data, isNew := isNew, isShutdown := isShutdown })
    (i : ℕ) : (m.put id s').getBlock i = m.getBlock i := by
  obtain ⟨data, isNew, isShutdown, hs⟩ := hs
  rcases eq_or_ne i id with rfl | hne
  · rw [StreamMap.getBlock, StreamMap.getBlock, StreamMap.put_streams_self, live, Option.map_some,
      Option.map_some, hs]
    rfl
  · exact StreamMap.getBlock_congr (StreamMap.put_streams_of_ne _ _ hne)

/-- Picking a stream changes nothing that the scheduler sees of the streams. -/
theorem peekFlushable_getBlock (pace : Pace) (m : StreamMap) :
    (StreamMap.peekFlushable pace).Keeps
      (fun m m' => ∀ id, m'.getBlock id = m.getBlock id) m := by
  refine (StreamMap.peekFlushable_cancels pace m).mono fun m' h id => ?_
  rcases h.streams id with heq | ⟨s, hs, heq⟩
  · exact StreamMap.getBlock_congr heq
  · rw [StreamMap.getBlock, StreamMap.getBlock, hs, heq]
    rfl

theorem Unasked.writeReset (h : Unasked c room p) (id : ℕ) :
    (writeReset id).Ends p (fun _ => Unasked c room) anyFault := by
  rw [Packing.writeReset, Program.ends_bind, Program.ends_get, modifyStreams, modifyConn,
    Program.ends_bind, Program.ends_modify]
  have hmark := h.setStreams (m := p.conn.streams.markCanceled id false) (fun _ => rfl)
    fun _ => rfl
  cases p.conn.streams.streams id with
  | none => exact hmark
  | some s => exact (hmark.tryFrame _ _).mono (fun _ _ hp' => hp'.1) fun _ _ _ => trivial

theorem Unasked.writeMaxStreamData (h : Unasked c room p) (id : ℕ) :
    (writeMaxStreamData id).Ends p (fun _ => Unasked c room) anyFault := by
  rw [Packing.writeMaxStreamData, Program.ends_bind, Program.ends_get]
  cases live : p.conn.streams.streams id with
  | none => exact h.setStreams (fun _ => rfl) fun _ => rfl
  | some s =>
    simp only [modifyStreams, modifyConn, Program.ends_bind, Program.ends_modify]
    have hmark := h.setStreams
      (m := (p.conn.streams.putRecv id s s.recv.updateMaxData.2).markAlmostFull id false)
      (fun i => by
        change (p.conn.streams.put id { s with recv := s.recv.updateMaxData.2 }).getBlock i = _
        refine getBlock_put live ?_ i
        exact ⟨_, _, _, rfl⟩) fun _ => rfl
    exact (hmark.tryFrame _ _).mono (fun _ _ hp' => hp'.1) fun _ _ _ => trivial

theorem Unasked.writeBlockInfo (h : Unasked c room p) {id : ℕ} {s : Stream}
    (live : p.conn.streams.streams id = some s) :
    (writeBlockInfo id s).Ends p
      (fun s' p' => Unasked c room p' ∧ p'.conn.streams.streams id = some s') anyFault := by
  rw [Packing.writeBlockInfo, Program.ends_bind, Program.ends_get]
  refine Program.ends_ite.mpr ⟨fun _ => ?_, fun _ => ⟨h, live⟩⟩
  refine (h.tryFrame _ _).bind fun fits p' hp' => ?_
  obtain ⟨hp', hconn⟩ := hp'
  have live' : p'.conn.streams.streams id = some s := hconn ▸ live
  refine Program.ends_ite.mpr ⟨fun _ => ⟨hp'.setStreams (fun i => ?_) fun _ => rfl, ?_⟩,
    fun _ => ⟨hp', live'⟩⟩
  · refine getBlock_put live' ?_ i
    exact ⟨_, _, _, rfl⟩
  · exact StreamMap.put_streams_self _ _ _

/-- The numbers are chosen for the rest that is left of the block. -/
theorem chooseRedundancy_chosen (hclosing : c.isClosing = false)
    (waits : c.streams.hasFlushable = true) {block : Block} {tail : ℕ}
    (live : c.streams.getBlock block.blockId = some block) (tail_le : tail ≤ block.remainingSize)
    (le_tail : block.remainingSize ≤ tail + room) (hfec : p.conn.fec = c.fec)
    (htail : p.conn.tailSize = c.tailSize) (hm : p.draft.m = 0) :
    (chooseRedundancy env block tail).Ends p (fun _ p' => p'.draft.Chosen c room env)
      anyFault := by
  rw [chooseRedundancy, Program.ends_modify, htail, hfec]
  cases hsize : c.tailSize with
  | none => exact .inl hm
  | some threshold =>
    dsimp only
    by_cases hle : tail ≤ threshold
    · rw [if_pos hle]
      by_cases hnew : c.fec.isNone = true ∧ 1 ≤ tail
      · have hthreshold : threshold ≠ 0 := by
          have := hnew.2
          omega
        have hgroup : min 20 (((tail - 1) / 1350 + 1) % 256) = groupSize tail := rfl
        simp only [if_pos hnew, if_neg hthreshold, hgroup, Draft.Chosen]
        by_cases hboth : groupSize tail ≠ 0 ∧ env.redundancy block (groupSize tail) ≠ 0
        · rw [if_pos hboth, if_pos hboth]
          refine .inr (.inr ⟨block, tail, ?_, rfl, rfl⟩)
          exact ⟨hclosing, waits, by simpa using hnew.1, live, tail_le, le_tail,
            ⟨threshold, hsize, hle⟩, hnew.2, hboth⟩
        · exact .inl (if_neg hboth)
      · simp only [if_neg hnew, Draft.Chosen]
        exact .inl (if_neg fun hboth => hboth.1 rfl)
    · rw [if_neg hle]
      exact .inl hm

/-- The data of a stream asks for a group as is chosen for its block. -/
theorem Unasked.sendData (h : Unasked c room p) (hclosing : c.isClosing = false)
    (waits : c.streams.hasFlushable = true) {id size : ℕ} {block : Block} {s : Stream}
    (hblock : p.conn.streams.getBlock id = some block)
    (live : p.conn.streams.streams id = some s) (hsize : size ≤ p.draft.left) :
    (sendData env id block s size).Ends p (fun stop p' => p'.draft.Chosen c room env ∧
      (stop = false → Unasked c room p')) anyFault := by
  refine Program.ends_ite.mpr ⟨fun _ => ⟨.inl h.m, fun _ => h⟩, fun _ => ?_⟩
  obtain ⟨data, len, hpop, hle, hge⟩ := s.send.pop_len (size - streamOverhead id s size)
  have hout := (s.send.pop_bounds (size - streamOverhead id s size)).1
  dsimp only
  generalize (s.send.pop (size - streamOverhead id s size)).1 = out at hge hout ⊢
  rw [hpop, modifyStreams, modifyConn, Program.ends_bind, Program.ends_modify]
  refine Program.ends_ite.mpr ⟨fun hempty => ?_, fun _ => ?_⟩
  · -- nothing was taken out of the stream
    have hlen : len = s.send.len := by
      have : out.len = 0 := RangeBuf.isEmpty_iff.mp (Bool.and_eq_true_iff.mp hempty).1
      omega
    have hput := h.setStreams (m := p.conn.streams.put id
      { s with send := { s.send with data := data, len := len } }) (fun i => by
        rw [hlen]
        refine getBlock_put live ?_ i
        exact ⟨_, _, _, rfl⟩) fun _ => rfl
    exact ⟨.inl hput.m, fun _ => hput⟩
  · rw [modifyConn, Program.ends_bind, Program.ends_modify]
    have hid := StreamMap.getBlock_id hblock
    have hremaining : block.remainingSize = s.send.len := by
      rw [StreamMap.getBlock, live] at hblock
      cases hblock
      rfl
    have hleft := h.left_le
    have hlive : c.streams.getBlock block.blockId = some block := by
      rw [hid, ← h.block]
      exact hblock
    refine (chooseRedundancy_chosen hclosing waits hlive (hle.trans hremaining.ge) ?_ ?_ ?_ ?_).bind
      fun _ p₁ (hchosen : p₁.draft.Chosen c room env) => ?_
    · rw [hremaining]
      exact hge.trans (Nat.add_le_add_left (by omega) _)
    · exact h.fec
    · exact h.tailSize
    · exact h.m
    refine ((addFrame_sameAsk _ _ p₁).mono (fun _ p₂ hask => ?_) fun _ _ _ => trivial).bind
      fun _ p₂ (hp₂ : p₂.draft.Chosen c room env) => ?_
    · exact hchosen.of_sameAsk hask
    · refine Program.Ends.bind (R := fun _ p₃ => p₃.draft.Chosen c room env) ?_ fun _ p₃ hp₃ =>
        ⟨hp₃, Bool.noConfusion⟩
      exact Program.ends_ite.mpr ⟨fun _ => hp₂, fun _ => hp₂⟩

private theorem streamRoom_le {id size : ℕ} (h : p.streamRoom id = some size) :
    size ≤ p.draft.left := by
  unfold streamRoom at h
  dsimp only at h
  split at h
  · cases h
    exact min_le_left _ _
  · split_ifs at h
    cases h
    exact (min_le_right _ _).trans (min_le_left _ _)

/-- A turn asks for a group as is chosen for some block, or the loop goes on. -/
theorem Unasked.streamTurn (h : Unasked c room p) (hclosing : c.isClosing = false)
    (waits : c.streams.hasFlushable = true) (id : ℕ) :
    (streamTurn env id).Ends p (fun stop p' => p'.draft.Chosen c room env ∧
      (stop = false → Unasked c room p')) anyFault := by
  rw [Packing.streamTurn, Program.ends_bind, Program.ends_get, Program.ends_bind,
    Program.ends_unwrap]
  refine ⟨fun block hblock => ?_, fun _ => trivial⟩
  cases live : p.conn.streams.streams id with
  | none => exact ⟨.inl h.m, fun _ => h⟩
  | some s =>
    refine (h.writeBlockInfo live).bind fun s₁ p₁ hp₁ => ?_
    obtain ⟨h₁, live₁⟩ := hp₁
    rw [Program.ends_bind, Program.ends_get]
    refine Program.ends_ite.mpr ⟨fun _ => ?_, fun _ => ?_⟩
    · refine Program.Ends.bind (R := fun _ p₂ => p₂.draft.Chosen c room env) ?_ fun _ p₂ hp₂ =>
        ⟨hp₂, Bool.noConfusion⟩
      exact Program.ends_ite.mpr ⟨fun _ => .inl h₁.m, fun _ => .inl h₁.m⟩
    · rw [Program.ends_bind, Program.ends_unwrapSub]
      refine ⟨fun size hsize => ?_, fun _ => trivial⟩
      have hblock₁ : p₁.conn.streams.getBlock id = some block := by
        rw [h₁.block, ← h.block]
        exact hblock
      exact h₁.sendData hclosing waits hblock₁ live₁ (streamRoom_le hsize)

/-- The loop asks for a group as is chosen for some block, if at all. -/
theorem Unasked.writeStream (h : Unasked c room p) (hclosing : c.isClosing = false)
    (waits : c.streams.hasFlushable = true) (fuel : ℕ) :
    (writeStream env fuel).Ends p (fun _ p' => p'.draft.Chosen c room env) anyFault := by
  induction fuel generalizing p with
  | zero => trivial
  | succ fuel ih =>
    refine Program.Ends.bind (R := fun stop p' => p'.draft.Chosen c room env ∧
      (stop = false → Unasked c room p')) ?_ fun stop p₁ hp₁ => ?_
    · rw [streamStep, Program.ends_bind, onStreams, Program.ends_zoom]
      have hpeek := peekFlushable_getBlock env.pace p.conn.streams
      refine Program.ends_iff.mpr ⟨fun picked m hm => ?_, fun _ _ _ => trivial⟩
      have hset := h.setStreams (m := m) (hpeek.ok hm) fun hidle => by
        simp [StreamMap.hasFlushable, hidle] at waits
      cases picked with
      | none => exact ⟨.inl hset.m, Bool.noConfusion⟩
      | some id => exact hset.streamTurn hclosing waits id
    · refine Program.ends_ite.mpr ⟨fun _ => hp₁.1, fun hstop => ?_⟩
      exact ih (hp₁.2 (by simpa using hstop))

/-- The frames of a packet ask for a FEC group as is chosen for some block. -/
theorem writeFrames_chosen (epoch : Epoch) (env : SendEnv) :
    (writeFrames epoch env).Ends ⟨c, .new room⟩ (fun _ p => p.draft.Chosen c room env)
      anyFault := by
  have hadvances {x : Program Error Packing Unit}
      (h : ∀ p : Packing, x.Ends p (fun _ => p.Advances) noError) :
      Program.Maintains (Unasked c room) anyFault x := fun p hp =>
    (h p).mono (fun _ _ => hp.advances) fun _ _ _ => trivial
  have hlive (hclosing : (!c.isClosing) = true) : c.isClosing = false := by simpa using hclosing
  rw [writeFrames, Program.ends_bind, Program.ends_get]
  dsimp only
  refine Program.Ends.bind (Program.Maintains.when (fun _ =>
    hadvances (writeAck_advances epoch env)) _ (unasked_new c room)) fun _ p₁ h₁ => ?_
  refine Program.Ends.bind (Program.Maintains.forWhile (fun id _ p h => h.writeReset id) _ h₁)
    fun _ p₂ h₂ => ?_
  refine Program.Ends.bind (Program.Maintains.when (fun _ => ?_) _ h₂) fun _ p₃ h₃ => ?_
  · refine .bind (hadvances writeHandshakeDone_advances) fun _ => ?_
    refine .bind (hadvances writeMaxStreamsBidi_advances) fun _ => ?_
    refine .bind (hadvances writeMaxStreamsUni_advances) fun _ => ?_
    refine .bind (hadvances writeMaxData_advances) fun _ => ?_
    exact .forWhile fun id _ p h => h.writeMaxStreamData id
  refine (hadvances writeConnectionClose_advances p₃ h₃).bind fun _ p₄ h₄ => ?_
  refine (hadvances (writeApplicationClose_advances epoch) p₄ h₄).bind fun _ p₅ h₅ => ?_
  refine (hadvances writePathResponse_advances p₅ h₅).bind fun _ p₆ h₆ => ?_
  refine Program.Ends.bind (Program.Maintains.when (fun _ =>
    hadvances (writeCrypto_advances epoch)) _ h₆) fun _ p₇ h₇ => ?_
  rw [Program.ends_bind, Program.ends_get]
  refine Program.Ends.bind (R := fun _ p => p.draft.Chosen c room env) (.when (fun hc => ?_)
    fun _ => .inl h₇.m) fun _ p₈ h₈ => ?_
  · cases hwaits : c.streams.hasFlushable with
    | true => exact h₇.writeStream (hlive (Bool.and_eq_true_iff.mp hc).2) hwaits _
    | false =>
      have hidle := h₇.idle (by simpa [StreamMap.hasFlushable] using hwaits)
      rw [Program.Ends, writeStream_idle env hidle]
      exact .inl h₇.m
  · refine .when (fun _ => ?_) fun _ => h₈
    refine (writePing_advances epoch p₈).mono (fun _ p₉ hp₉ => ?_) fun _ _ _ => trivial
    rcases hp₉ with rfl | ⟨-, -, hask⟩
    · exact h₈
    · exact h₈.of_sameAsk hask

end Ask

end Packing

end Dtp
