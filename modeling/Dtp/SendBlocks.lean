import Dtp.Send

/-!
# Sending packets, with a list of the blocks

`send_with_blocks` is a second copy of `send`, which also tells the caller which blocks
the scheduler picked. Nothing of what it sends depends on that list.

## Main definitions

* `Connection.sendWithBlocks`

## Main results

* `Connection.sendWithBlocks_eq_send` — the two are the same up to the list
-/

namespace Dtp

open Lib (Program)
open Lib.Program (lift)

/-- The list of blocks that a caller may ask for. -/
abbrev Blocks := Option (List Block)

namespace Packing

/-- One turn of the loop for the picked stream, which is added to the list. -/
def streamTurnWithBlocks (env : SendEnv) (id : ℕ) : Program Error (Packing × Blocks) Bool := do
  let m := (← get).1.conn.streams
  let block ← Program.unwrap (m.getBlock id)
  modify fun s => (s.1, s.2.map (· ++ [block]))
  match m.streams id with
  | none => pure false
  | some s =>
    let s ← lift (writeBlockInfo id s)
    let p := (← get).1
    if p.draft.left ≤ maxStreamOverhead then
      lift (requeue id s)
      pure true
    else
      let room ← Program.unwrapSub (p.streamRoom id)
      lift (sendData env id block s room)

/-- One turn of the loop for whatever stream the scheduler picks. -/
def streamStepWithBlocks (env : SendEnv) : Program Error (Packing × Blocks) Bool := do
  match ← lift (onStreams (StreamMap.peekFlushable env.pace)) with
  | none => pure true
  | some id => streamTurnWithBlocks env id

/-- The loop that looks for a stream to send from. -/
def writeStreamWithBlocks (env : SendEnv) : ℕ → Program Error (Packing × Blocks) Unit
  | 0 => throw .hang
  | fuel + 1 => do if ← streamStepWithBlocks env then pure () else writeStreamWithBlocks env fuel

/-- The frames of a packet, in the order in which they are tried. -/
def writeFramesWithBlocks (epoch : Epoch) (env : SendEnv) :
    Program Error (Packing × Blocks) Unit := do
  let c := (← get).1.conn
  let short := PacketType.fromEpoch epoch == .short
  Program.when (!c.isClosing) (lift (writeAck epoch env))
  lift (Program.forWhile writeReset (inOrder env.canceledOrder c.streams.canceled))
  Program.when (short && !c.isClosing) do
    lift writeHandshakeDone
    lift writeMaxStreamsBidi
    lift writeMaxStreamsUni
    lift writeMaxData
    lift (Program.forWhile writeMaxStreamData (inOrder env.almostFullOrder c.streams.almostFull))
  lift writeConnectionClose
  lift (writeApplicationClose epoch)
  lift writePathResponse
  Program.when (!c.isClosing) (lift (writeCrypto epoch))
  let p := (← get).1
  let sendsData := decide (p.conn.txData < p.conn.maxTxData ∧ maxStreamOverhead < p.draft.left)
  Program.when (short && sendsData && !c.isClosing)
    (writeStreamWithBlocks env (p.conn.streams.flushable.length + 2))
  Program.when (!c.isClosing) (lift (writePing epoch))

/-- Fills a packet with frames, unless a redundant packet is waiting. -/
def fillPacketWithBlocks (epoch : Epoch) (env : SendEnv) :
    Program Error (Packing × Blocks) Unit := do
  let p := (← get).1
  match p.conn.fecEncoded with
  | (info, len) :: rest =>
    if len ≤ p.draft.left then
      lift (modifyConn fun c => { c with fecEncoded := rest })
      lift (addFrame (.fec info len) true)
      lift (modifyDraft fun d => { d with fecInfo := info })
    else Program.fail .done
  | [] => writeFramesWithBlocks epoch env

/-- Puts together a packet of at most `avail` bytes and records it as sent. -/
def packetWithBlocks (epoch : Epoch) (headerLen pnLen avail : ℕ) (env : SendEnv) :
    Program Error (Packing × Blocks) ℕ := do
  fillPacketWithBlocks epoch env
  lift (countProbe epoch)
  if (← get).1.draft.frames.isEmpty then Program.fail .done
  else
    lift (padInitial epoch pnLen)
    lift (padPayload epoch)
    let written ← lift (sealPacket epoch headerLen pnLen avail)
    lift (recordSent epoch written env)
    pure written

/-! ### The copies agree -/

private theorem streamTurnWithBlocks_erases (env : SendEnv) (id : ℕ) :
    (streamTurnWithBlocks env id).Erases (streamTurn env id) := by
  refine Program.erases_get_bind fun p t => ?_
  refine .bind (Program.erases_unwrap _) fun block => ?_
  refine Program.erases_write (Option.map (· ++ [block])) ?_
  dsimp only
  cases p.conn.streams.streams id with
  | none => exact Program.erases_pure false
  | some s =>
    refine .bind (Program.erases_lift _) fun s => ?_
    refine Program.erases_get_bind fun p t => .ite ?_ ?_
    · exact .bind (Program.erases_lift _) fun _ => Program.erases_pure true
    · exact .bind (Program.erases_unwrapSub _) fun room => Program.erases_lift _

private theorem writeStreamWithBlocks_erases (env : SendEnv) (fuel : ℕ) :
    (writeStreamWithBlocks env fuel).Erases (writeStream env fuel) := by
  induction fuel with
  | zero => exact Program.erases_throw .hang
  | succ fuel ih =>
    refine .bind (.bind (Program.erases_lift _) fun picked => ?_) fun done => ?_
    · cases picked with
      | none => exact Program.erases_pure true
      | some id => exact streamTurnWithBlocks_erases env id
    · exact .ite (Program.erases_pure _) ih

private theorem writeFramesWithBlocks_erases (epoch : Epoch) (env : SendEnv) :
    (writeFramesWithBlocks epoch env).Erases (writeFrames epoch env) := by
  refine Program.erases_get_bind fun p t => ?_
  refine .bind (.when (Program.erases_lift _)) fun _ => ?_
  refine .bind (Program.erases_lift _) fun _ => ?_
  refine .bind (.when ?_) fun _ => ?_
  · refine .bind (Program.erases_lift _) fun _ => .bind (Program.erases_lift _) fun _ => ?_
    refine .bind (Program.erases_lift _) fun _ => .bind (Program.erases_lift _) fun _ => ?_
    exact Program.erases_lift _
  refine .bind (Program.erases_lift _) fun _ => .bind (Program.erases_lift _) fun _ => ?_
  refine .bind (Program.erases_lift _) fun _ => .bind (.when (Program.erases_lift _)) fun _ => ?_
  refine Program.erases_get_bind fun p t => ?_
  refine .bind (.when (writeStreamWithBlocks_erases env _)) fun _ => ?_
  exact .when (Program.erases_lift _)

theorem fillPacketWithBlocks_erases (epoch : Epoch) (env : SendEnv) :
    (fillPacketWithBlocks epoch env).Erases (fillPacket epoch env) := by
  refine Program.erases_get_bind fun p t => ?_
  dsimp only
  rcases p.conn.fecEncoded with _ | ⟨⟨info, len⟩, rest⟩
  · exact writeFramesWithBlocks_erases epoch env
  · refine .ite ?_ (Program.erases_fail _)
    refine .bind (Program.erases_lift _) fun _ => .bind (Program.erases_lift _) fun _ => ?_
    exact Program.erases_lift _

private theorem packetWithBlocks_erases (epoch : Epoch) (headerLen pnLen avail : ℕ)
    (env : SendEnv) :
    (packetWithBlocks epoch headerLen pnLen avail env).Erases
      (packet epoch headerLen pnLen avail env) := by
  refine .bind (fillPacketWithBlocks_erases epoch env) fun _ => ?_
  refine .bind (Program.erases_lift _) fun _ => ?_
  refine Program.erases_get_bind fun p t => .ite (Program.erases_fail _) ?_
  refine .bind (Program.erases_lift _) fun _ => .bind (Program.erases_lift _) fun _ => ?_
  refine .bind (Program.erases_lift _) fun written => .bind (Program.erases_lift _) fun _ => ?_
  exact Program.erases_pure written

end Packing

namespace Connection

/-- Writes a packet into a buffer of `outLen` bytes, returns its length, and appends the
blocks that were picked to the list. -/
def sendWithBlocks (outLen : ℕ) (env : SendEnv) : Program Error (Connection × Blocks) ℕ := do
  let c := (← get).1
  if outLen = 0 then Program.fail .bufferTooShort
  else if c.draining then Program.fail .done
  else if !c.derivedInitialSecrets then Program.fail .done
  else
    Program.when (!c.isClosing) (lift (doHandshake env.handshake))
    let c := (← get).1
    let maxPktLen := if c.isEstablished then min 16383 c.peerTransportParams.maxPacketSize else 1200
    let avail := min maxPktLen outLen
    let epoch ← Program.ofExcept c.writeEpoch
    lift (drainLost epoch)
    let c := (← get).1
    match pktNumLen (c.pktNumSpaces epoch).nextPktNum with
    | none => Program.fail .invalidPacket
    | some pnLen =>
      let header := c.headerLen epoch pnLen
      let lengthLen := if PacketType.fromEpoch epoch = .short then 0 else 2
      let overhead := header + pnLen + tagLen + lengthLen
      let left := c.packetRoom epoch avail env
      if !(c.pktNumSpaces epoch).cryptoSeal then Program.fail .done
      else if avail < header then Program.fail .bufferTooShort
      else if left < overhead then Program.fail .done
      else
        Program.zoom (fun s => ((⟨s.1, .new (left - overhead)⟩ : Packing), s.2))
          (fun p _ => (p.1.conn, p.2)) (Packing.packetWithBlocks epoch header pnLen avail env)

/-- What `sendWithBlocks` does apart from the list is what `send` does. -/
theorem sendWithBlocks_erases (outLen : ℕ) (env : SendEnv) :
    Program.Erases (sendWithBlocks outLen env) (send outLen env) := by
  refine Program.erases_get_bind fun c t => ?_
  refine .ite (Program.erases_fail _)
    (.ite (Program.erases_fail _) (.ite (Program.erases_fail _) ?_))
  refine .bind (.when (Program.erases_lift _)) fun _ => ?_
  refine Program.erases_get_bind fun c t => ?_
  refine .bind (Program.erases_ofExcept _) fun epoch => .bind (Program.erases_lift _) fun _ => ?_
  refine Program.erases_get_bind fun c t => ?_
  dsimp only
  cases pktNumLen (c.pktNumSpaces epoch).nextPktNum with
  | none => exact Program.erases_fail _
  | some pnLen =>
    refine .ite (Program.erases_fail _)
      (.ite (Program.erases_fail _) (.ite (Program.erases_fail _) ?_))
    exact Program.erases_zoom (fun c => (⟨c, .new _⟩ : Packing)) (fun p _ => p.conn)
      (Packing.packetWithBlocks_erases epoch _ pnLen _ env)

/-- For every state and every list, `sendWithBlocks` returns the same result and leads to
the same state as `send`. -/
theorem sendWithBlocks_eq_send (outLen : ℕ) (env : SendEnv) (c : Connection) (blocks : Blocks) :
    ∃ blocks', sendWithBlocks outLen env (c, blocks) = Program.tell blocks' (send outLen env c) :=
  (sendWithBlocks_erases outLen env).apply c blocks

end Connection

end Dtp
