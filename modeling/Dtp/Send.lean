import Dtp.Connection

/-!
# Sending packets

`Connection.send` puts together one packet: it queues again what was lost, and then
fills the room that the congestion window leaves with frames, one kind after another.
What follows in a packet is decided by the room that is left.

## Main definitions

* `Connection.drainLost` — takes back the frames of lost packets
* `Draft`, `Packing` — the packet that is put together, and the state meanwhile
* `Packing.writeStream` — the stream frame of a packet
* `Connection.send`
-/

namespace Dtp

open Lib (Program)

/-- What `send` learns from its environment. -/
structure SendEnv extends Env where
  /-- The room that congestion control leaves when nothing has to be probed. -/
  cwnd : ℕ
  /-- The measurements that the scheduler is given. -/
  pace : Pace
  /-- The times in an ACK frame. -/
  packetTime : ℕ
  ackDelay : ℕ
  /-- The orders in which the hash sets of ids are visited. -/
  canceledOrder : List ℕ
  almostFullOrder : List ℕ
  /-- The number of redundant packets for a block that takes `m` more packets, from
  the redundancy rate. -/
  redundancy : Block → ℕ → ℕ

/-- The elements of a set in the given order, if that is an order of them. -/
def inOrder (order set : List ℕ) : List ℕ := if order.Perm set then order else set

theorem mem_inOrder {order set : List ℕ} {id : ℕ} (h : id ∈ inOrder order set) : id ∈ set := by
  unfold inOrder at h
  split_ifs at h with hperm
  · exact hperm.mem_iff.mp h
  · exact h

/-- The packet that is put together. -/
structure Draft where
  /-- The room that is left for frames. -/
  left : ℕ
  payloadLen : ℕ
  frames : List Frame
  ackEliciting : Bool
  inFlight : Bool
  /-- The size of the FEC group that the packet asks for. -/
  m : ℕ
  n : ℕ
  fecInfo : FecStatus

/-- An empty packet. -/
def Draft.new (left : ℕ) : Draft where
  left := left
  payloadLen := 0
  frames := []
  ackEliciting := false
  inFlight := false
  m := 0
  n := 0
  fecInfo := .none

/-- A connection that puts together a packet. -/
structure Packing where
  conn : Connection
  draft : Draft

/-- The number of bytes that a client's Initial packet takes at least. -/
def minClientInitialLen : ℕ := 1200

/-- The number of bytes that a payload takes at least. -/
def payloadMinLen : ℕ := 4

/-! ### Frames of a packet -/

namespace Packing

/-- Changes the connection. -/
def modifyConn (f : Connection → Connection) : Program Error Packing Unit :=
  modify fun p => { p with conn := f p.conn }

/-- Changes the streams. -/
def modifyStreams (f : StreamMap → StreamMap) : Program Error Packing Unit :=
  modifyConn fun c => c.setStreams (f c.streams)

/-- Changes the packet that is put together. -/
def modifyDraft (f : Draft → Draft) : Program Error Packing Unit :=
  modify fun p => { p with draft := f p.draft }

/-- A program on the stream map. -/
def onStreams {α : Type} (x : Program Error StreamMap α) : Program Error Packing α :=
  Program.zoom (fun p => p.conn.streams) (fun m p => { p with conn := p.conn.setStreams m }) x

/-- Appends a frame to the packet; the room that is left must not become negative. -/
def addFrame (frame : Frame) (ackEliciting : Bool) : Program Error Packing Unit := do
  let p ← get
  if !frame.measurable then Program.crash
  else if frame.wireLen ≤ p.draft.left then
    modifyDraft fun d =>
      { d with
        left := d.left - frame.wireLen
        payloadLen := d.payloadLen + frame.wireLen
        frames := d.frames ++ [frame]
        ackEliciting := d.ackEliciting || ackEliciting
        inFlight := d.inFlight || ackEliciting }
  else Program.underflow

/-- Appends a frame to the packet if it fits. -/
def tryFrame (frame : Frame) (ackEliciting : Bool) : Program Error Packing Bool := do
  let p ← get
  if !frame.measurable then Program.crash
  else if frame.wireLen ≤ p.draft.left then do
    addFrame frame ackEliciting
    pure true
  else pure false

/-- An ACK frame, if one is due. -/
def writeAck (epoch : Epoch) (env : SendEnv) : Program Error Packing Unit := do
  let p ← get
  let space := p.conn.pktNumSpaces epoch
  let ratio := if 0 < p.conn.initDataAckRatio then p.conn.initDataAckRatio else 4
  if space.ackElicited ∨ !space.recvPktNeedAck.isEmpty ∧ space.nextPktNum % ratio = 0 then
    if ← tryFrame (.ack env.packetTime env.ackDelay space.recvPktNeedAck) false then
      modifyConn fun c => c.modifySpace epoch fun s => { s with ackElicited := false }

/-- A RESET_STREAM frame for a canceled block. Returns false if it does not fit. -/
def writeReset (id : ℕ) : Program Error Packing Bool := do
  let p ← get
  modifyStreams fun m => m.markCanceled id false
  match p.conn.streams.streams id with
  -- the stream doesn't exist anymore
  | none => pure true
  | some s => tryFrame (.resetStream id 1 s.send.blockSize) true

/-- HANDSHAKE_DONE, from a server that has not sent it. -/
def writeHandshakeDone : Program Error Packing Unit := do
  let c := (← get).conn
  if c.isEstablished ∧ !c.handshakeDoneSent ∧ c.isServer ∧ protocolVersionDraft25 ≤ c.version then
    addFrame .handshakeDone false
    modifyConn fun c => { c with handshakeDoneSent := true }

/-- MAX_STREAMS_BIDI, as needed. -/
def writeMaxStreamsBidi : Program Error Packing Unit := do
  let m := (← get).conn.streams
  if m.shouldUpdateMaxStreamsBidi then
    modifyStreams fun m => { m with localMaxStreamsBidi := m.localMaxStreamsBidiNext }
    addFrame (.maxStreamsBidi m.localMaxStreamsBidiNext) true

/-- MAX_STREAMS_UNI, as needed. -/
def writeMaxStreamsUni : Program Error Packing Unit := do
  let m := (← get).conn.streams
  if m.shouldUpdateMaxStreamsUni then
    modifyStreams fun m => { m with localMaxStreamsUni := m.localMaxStreamsUniNext }
    addFrame (.maxStreamsUni m.localMaxStreamsUniNext) true

/-- MAX_DATA, as needed and if it fits. -/
def writeMaxData : Program Error Packing Unit := do
  let c := (← get).conn
  if c.shouldUpdateMaxData then
    if ← tryFrame (.maxData c.maxRxDataNext) true then
      modifyConn fun c => { c with maxRxData := c.maxRxDataNext }

/-- A MAX_STREAM_DATA frame. Returns false if it does not fit. -/
def writeMaxStreamData (id : ℕ) : Program Error Packing Bool := do
  let p ← get
  match p.conn.streams.streams id with
  | none =>
    modifyStreams fun m => m.markAlmostFull id false
    pure true
  | some s =>
    let (max, recv) := s.recv.updateMaxData
    modifyStreams fun m => (m.putRecv id s recv).markAlmostFull id false
    tryFrame (.maxStreamData id max) true

/-- CONNECTION_CLOSE, if it fits. -/
def writeConnectionClose : Program Error Packing Unit := do
  match (← get).conn.error with
  | none => pure ()
  | some err =>
    if ← tryFrame (.connectionClose err 0 []) true then
      modifyConn fun c => { c with challenge := none, draining := true }

/-- APPLICATION_CLOSE. -/
def writeApplicationClose (epoch : Epoch) : Program Error Packing Unit := do
  let c := (← get).conn
  match c.appError with
  | none => pure ()
  | some err =>
    if PacketType.fromEpoch epoch = .short then
      addFrame (.applicationClose err c.appReason) true
      modifyConn fun c => { c with draining := true }

/-- PATH_RESPONSE, if there is more room than it takes. -/
def writePathResponse : Program Error Packing Unit := do
  let p ← get
  match p.conn.challenge with
  | none => pure ()
  | some data =>
    if (Frame.pathResponse data).wireLen < p.draft.left then
      addFrame (.pathResponse data) true
      modifyConn fun c => { c with challenge := none }

/-- A CRYPTO frame, if there is handshake data. -/
def writeCrypto (epoch : Epoch) : Program Error Packing Unit := do
  let p ← get
  let s := (p.conn.pktNumSpaces epoch).cryptoStream
  if s.isFlushable ∧ maxCryptoOverhead < p.draft.left then
    let (data, send) := s.send.pop (p.draft.left - maxCryptoOverhead)
    modifyConn fun c => c.modifySpace epoch fun sp =>
      { sp with cryptoStream := { s with send := send } }
    addFrame (.crypto data) true

/-- PING, when a probe is due and nothing else asks for an acknowledgement. -/
def writePing (epoch : Epoch) : Program Error Packing Unit := do
  let p ← get
  if 0 < p.conn.recovery.lossProbes epoch ∧ !p.draft.ackEliciting ∧ 1 ≤ p.draft.left then
    addFrame .ping true

/-! ### The stream frame -/

/-- BLOCK_INFO goes into the first packet of a block, if it fits. -/
def writeBlockInfo (id : ℕ) (s : Stream) : Program Error Packing Stream := do
  let c := (← get).conn
  if s.send.isNew then
    -- the start time is relative to the clock of the peer, and wraps around
    let startTime := ((s.send.startTime - c.bctOffset) % 2 ^ 64).toNat
    let frame := Frame.blockInfo id s.send.blockSize s.send.priority s.send.deadline startTime
    if ← tryFrame frame true then
      let s := { s with send := { s.send with isNew := false } }
      modifyStreams fun m => m.put id s
      pure s
    else pure s
  else pure s

/-- The room for a STREAM frame, header included: what is left in the packet, in the
connection's credit, and in the shards of a FEC group. -/
def streamRoom (id : ℕ) (p : Packing) : Option ℕ :=
  let room := min p.draft.left (p.conn.maxTxData - p.conn.txData)
  match p.conn.fec with
  | none => some room
  | some group =>
    let used := p.draft.payloadLen + 1 + varintLen id + 8 * 2
    if group.shardSize < used then none else some (min (group.shardSize - used) room)

/-- The overhead of a STREAM frame that fills `room`. -/
def streamOverhead (id : ℕ) (s : Stream) (room : ℕ) : ℕ :=
  1 + varintLen id + varintLen s.send.lowOff + varintLen room

/-- Decides how many redundant packets are added for the tail of a block. -/
def chooseRedundancy (env : SendEnv) (block : Block) (tail : ℕ) : Program Error Packing Unit :=
  modify fun p =>
    match p.conn.tailSize with
    | none => p
    | some threshold =>
      if tail ≤ threshold then
        let m :=
          if p.conn.fec.isNone ∧ 1 ≤ tail then min 20 (((tail - 1) / 1350 + 1) % 256) else 0
        let n := if threshold = 0 then 0 else env.redundancy block m
        let both := m ≠ 0 ∧ n ≠ 0
        { p with draft := { p.draft with m := if both then m else 0, n := if both then n else 0 } }
      else p

/-- Queues a stream again that has more data to send. -/
def requeue (id : ℕ) (s : Stream) : Program Error Packing Unit :=
  if s.isFlushable then modifyStreams fun m => m.pushFlushable id else pure ()

/-- Takes data out of a stream for a frame of at most `room` bytes. Returns false if
there is nothing to send. -/
def sendData (env : SendEnv) (id : ℕ) (block : Block) (s : Stream) (room : ℕ) :
    Program Error Packing Bool := do
  if room < streamOverhead id s room then pure false
  else
    let (data, send) := s.send.pop (room - streamOverhead id s room)
    let s := { s with send := send }
    modifyStreams fun m => m.put id s
    if data.isEmpty && !data.fin then pure false
    else
      modifyConn fun c => { c with txData := c.txData + data.len }
      chooseRedundancy env block send.len
      addFrame (.stream id data) true
      requeue id s
      pure true

/-- One turn of the loop for the picked stream. Returns true when the loop ends. -/
def streamTurn (env : SendEnv) (id : ℕ) : Program Error Packing Bool := do
  let m := (← get).conn.streams
  let block ← Program.unwrap (m.getBlock id)
  match m.streams id with
  | none => pure false
  | some s =>
    let s ← writeBlockInfo id s
    let p ← get
    if p.draft.left ≤ maxStreamOverhead then
      requeue id s
      pure true
    else
      let room ← Program.unwrapSub (p.streamRoom id)
      sendData env id block s room

/-- One turn of the loop for whatever stream the scheduler picks. -/
def streamStep (env : SendEnv) : Program Error Packing Bool := do
  match ← onStreams (StreamMap.peekFlushable env.pace) with
  | none => pure true
  | some id => streamTurn env id

/-- The loop that looks for a stream to send from. A turn that takes no id from the
queue and does not end the loop leaves everything as it is for the next one, so a
longer loop never ends. -/
def writeStream (env : SendEnv) : ℕ → Program Error Packing Unit
  | 0 => throw .hang
  | fuel + 1 => do if ← streamStep env then pure () else writeStream env fuel

/-! ### The packet -/

/-- The frames of a packet, in the order in which they are tried. -/
def writeFrames (epoch : Epoch) (env : SendEnv) : Program Error Packing Unit := do
  let c := (← get).conn
  let short := PacketType.fromEpoch epoch == .short
  Program.when (!c.isClosing) (writeAck epoch env)
  Program.forWhile writeReset (inOrder env.canceledOrder c.streams.canceled)
  Program.when (short && !c.isClosing) do
    writeHandshakeDone
    writeMaxStreamsBidi
    writeMaxStreamsUni
    writeMaxData
    Program.forWhile writeMaxStreamData (inOrder env.almostFullOrder c.streams.almostFull)
  writeConnectionClose
  writeApplicationClose epoch
  writePathResponse
  Program.when (!c.isClosing) (writeCrypto epoch)
  let p ← get
  let sendsData := decide (p.conn.txData < p.conn.maxTxData ∧ maxStreamOverhead < p.draft.left)
  Program.when (short && sendsData && !c.isClosing)
    (writeStream env (p.conn.streams.flushable.length + 2))
  Program.when (!c.isClosing) (writePing epoch)

/-- Fills a packet with frames, unless a redundant packet is waiting. -/
def fillPacket (epoch : Epoch) (env : SendEnv) : Program Error Packing Unit := do
  let p ← get
  match p.conn.fecEncoded with
  | (info, len) :: rest =>
    if len ≤ p.draft.left then
      modifyConn fun c => { c with fecEncoded := rest }
      addFrame (.fec info len) true
      modifyDraft fun d => { d with fecInfo := info }
    else Program.fail .done
  | [] => writeFrames epoch env

/-- Appends padding, for which no room is left free. -/
def addPadding (len : ℕ) : Program Error Packing Unit :=
  modifyDraft fun d =>
    { d with
      payloadLen := d.payloadLen + len
      frames := d.frames ++ [.padding len]
      inFlight := true }

/-- The number of bytes to which a payload is padded. -/
def minPayload (epoch : Epoch) (p : Packing) : ℕ :=
  if PacketType.fromEpoch epoch = .short then
    match p.conn.fec with
    | some group => group.shardSize
    | none => if p.draft.m ≠ 0 ∧ p.draft.n ≠ 0 then 1301 else payloadMinLen
  else payloadMinLen

/-- Pads a client's Initial packet. -/
def padInitial (epoch : Epoch) (pnLen : ℕ) : Program Error Packing Unit := do
  let p ← get
  if !p.conn.isServer ∧ PacketType.fromEpoch epoch = .initial then
    let pktLen := pnLen + p.draft.payloadLen + tagLen
    if minClientInitialLen < pktLen then Program.underflow
    else addPadding (min (minClientInitialLen - pktLen) p.draft.left)

/-- Pads a payload that is too short. -/
def padPayload (epoch : Epoch) : Program Error Packing Unit := do
  let p ← get
  let minLen := p.minPayload epoch
  if p.draft.payloadLen < minLen then addPadding (minLen - p.draft.payloadLen)

/-- The packet joins the FEC group that is being filled, or starts a new one. -/
def joinFecGroup : Program Error Packing Unit := do
  let p ← get
  let group : FecGroup := p.conn.fec.getD
    { info := ⟨p.draft.m, p.draft.n, p.conn.nextFecGroupId, 0⟩
      shardSize := p.draft.payloadLen
      nextIndex := 0 }
  let info : FecStatus := { group.info with index := group.nextIndex }
  let next := group.nextIndex + 1
  -- there is a code for at most 256 shards, the packets of a group have one length, each
  -- has its index, and the indices of the redundant packets are bytes
  if p.conn.fec.isNone ∧ 256 < info.m + info.n ∨ p.draft.payloadLen ≠ group.shardSize
      ∨ info.m + info.n < next ∨ info.m ≤ next ∧ 255 < info.m + info.n then
    Program.crash
  else
    let redundant := (List.range' info.m info.n).map fun i =>
      ({ info with index := i }, group.shardSize)
    modifyConn fun c =>
      { c with
        nextFecGroupId := if c.fec.isNone then c.nextFecGroupId + 1 else c.nextFecGroupId
        fec := if info.m ≤ next then none else some ⟨info, group.shardSize, next⟩
        fecEncoded := if info.m ≤ next then c.fecEncoded ++ redundant else c.fecEncoded }
    modifyDraft fun d => { d with fecInfo := info }

/-- Encodes and seals the packet in `avail` bytes, and returns its length. -/
def sealPacket (epoch : Epoch) (headerLen pnLen avail : ℕ) : Program Error Packing ℕ := do
  let p ← get
  let payloadLen := p.draft.payloadLen
  -- Only long header packets have an explicit length field.
  let lengthLen :=
    if PacketType.fromEpoch epoch = .short then 0 else varintLen (pnLen + payloadLen + tagLen)
  let payloadOffset := headerLen + lengthLen + pnLen
  if avail < payloadOffset + payloadLen then Program.fail .bufferTooShort
  else
    Program.when (p.draft.m ≠ 0 ∧ p.draft.n ≠ 0 ∨ p.conn.fec.isSome) joinFecGroup
    if !(p.conn.pktNumSpaces epoch).cryptoSeal then Program.fail .invalidState
    else if avail < payloadOffset + payloadLen + tagLen then Program.fail .bufferTooShort
    else pure (payloadOffset + payloadLen + tagLen)

/-- The packet as it is remembered until it is acked or lost. -/
def toSent (p : Packing) (epoch : Epoch) (written now : ℕ) : Sent where
  pktNum := (p.conn.pktNumSpaces epoch).nextPktNum
  frames := p.draft.frames
  time := now
  size := if p.draft.ackEliciting then written else 0
  ackEliciting := p.draft.ackEliciting
  inFlight := p.draft.inFlight
  fecInfo := p.draft.fecInfo

/-- Records that a packet of `written` bytes was sent. -/
def recordSent (epoch : Epoch) (written : ℕ) (env : SendEnv) : Program Error Packing Unit := do
  let p ← get
  modifyConn fun c =>
    (c.setRecovery (c.recovery.onPacketSent (p.toSent epoch written env.instant) epoch env.instant))
      |>.modifySpace epoch fun s => { s with nextPktNum := s.nextPktNum + 1 }
  modifyConn fun c => c.setLossDetectionTimer p.draft.inFlight env.toEnv
  modifyConn fun c => { c with sentCount := c.sentCount + 1 }
  -- On the client, drop initial state after sending an Handshake packet.
  modifyConn fun c =>
    if !c.isServer ∧ PacketType.fromEpoch epoch = .handshake then c.dropEpochState .initial env.wall
    else c
  modifyConn fun c => { c with maxSendBytes := c.maxSendBytes - written }
  if p.draft.ackEliciting then modifyConn fun c => { c with ackElicitingSent := true }

/-- The connection once a packet is counted among the sent ones. -/
def counted (epoch : Epoch) (written : ℕ) (env : SendEnv) (p : Packing) : Connection :=
  let r := p.conn.recovery.onPacketSent (p.toSent epoch written env.instant) epoch env.instant
  let c := (p.conn.setRecovery r).modifySpace epoch fun s =>
    { s with nextPktNum := s.nextPktNum + 1 }
  { c.setLossDetectionTimer p.draft.inFlight env.toEnv with sentCount := p.conn.sentCount + 1 }

/-- The connection once a client has dropped its Initial state. -/
def settled (epoch : Epoch) (written : ℕ) (env : SendEnv) (p : Packing) : Connection :=
  let c := p.counted epoch written env
  if !c.isServer ∧ PacketType.fromEpoch epoch = .handshake then c.dropEpochState .initial env.wall
  else c

/-- The connection after a packet was recorded. -/
def recorded (epoch : Epoch) (written : ℕ) (env : SendEnv) (p : Packing) : Connection :=
  let c := p.settled epoch written env
  { c with
    maxSendBytes := c.maxSendBytes - written
    ackElicitingSent := if p.draft.ackEliciting then true else c.ackElicitingSent }

theorem recordSent_eq (epoch : Epoch) (written : ℕ) (env : SendEnv) (p : Packing) :
    recordSent epoch written env p = .ok () { p with conn := p.recorded epoch written env } := by
  let c := p.settled epoch written env
  change (if p.draft.ackEliciting = true then modifyConn fun c =>
    { c with ackElicitingSent := true }
    else pure () : Program Error Packing Unit)
      { p with conn := { c with maxSendBytes := c.maxSendBytes - written } } = _
  unfold recorded
  cases p.draft.ackEliciting
  · rfl
  · rfl

/-- Uses up a probe, for a packet that must be acknowledged. -/
def countProbe (epoch : Epoch) : Program Error Packing Unit := do
  let p ← get
  if p.draft.ackEliciting then
    modifyConn fun c => c.setRecovery
      { c.recovery with
        lossProbes := Epoch.update c.recovery.lossProbes epoch (c.recovery.lossProbes epoch - 1) }

/-- Puts together a packet of at most `avail` bytes and records it as sent. -/
def packet (epoch : Epoch) (headerLen pnLen avail : ℕ) (env : SendEnv) :
    Program Error Packing ℕ := do
  fillPacket epoch env
  countProbe epoch
  if (← get).draft.frames.isEmpty then Program.fail .done
  else
    padInitial epoch pnLen
    padPayload epoch
    let written ← sealPacket epoch headerLen pnLen avail
    recordSent epoch written env
    pure written

end Packing

namespace Connection

/-- The epoch of the next packet, if there is something to send. -/
def writeEpoch (c : Connection) : Except Error Epoch :=
  -- On error send packet in the latest epoch available, but only send 1-RTT ones when
  -- the handshake is completed.
  if c.error.isSome then
    .ok (if c.writeLevel = .application ∧ !c.isEstablished then .handshake else c.writeLevel)
  else
    let due (e : Epoch) : Bool :=
      (e != .application || c.isEstablished) &&
        ((c.pktNumSpaces e).ready || !(c.recovery.lost e).isEmpty
          || decide (0 < c.recovery.lossProbes e))
    match [Epoch.initial, .handshake, .application].find? due with
    | some e => .ok e
    | none =>
      let m := c.streams
      if c.isEstablished &&
          (c.shouldUpdateMaxData || m.shouldUpdateMaxStreamsBidi || m.shouldUpdateMaxStreamsUni
            || m.hasFlushable || !m.almostFull.isEmpty) then .ok .application
      else .error .done

/-- Takes back a frame of a lost packet. -/
def drainLostFrame (epoch : Epoch) (frame : Frame) : Program Error Connection Unit := do
  let c ← get
  match frame with
  | .crypto data =>
    let s := (c.pktNumSpaces epoch).cryptoStream
    let send ← Program.ofExcept (s.send.push data)
    set (c.modifySpace epoch fun p => { p with cryptoStream := { s with send := send } })
  | .blockInfo id _ _ _ _ =>
    match c.streams.streams id with
    | none => pure ()
    | some s => set (c.setStreams (c.streams.putSend id s { s.send with isNew := true }))
  | .stream id data =>
    match c.streams.streams id with
    | none => pure ()
    | some s =>
      set { c with txData := c.txData - data.len }
      let send ← Program.ofExcept (s.send.push data)
      let s' := { s with send := send }
      let emptyFin := data.isEmpty && data.fin
      let m := c.streams.put id s'
      -- Only queue the stream if it was not flushable before.
      let m := if (s'.isFlushable || emptyFin) && !s.isFlushable then m.pushFlushable id else m
      set { c with txData := c.txData - data.len, streams := m }
  | .ack _ _ _ => set (c.modifySpace epoch fun p => { p with ackElicited := true })
  | .handshakeDone => set { c with handshakeDoneSent := false }
  | _ => pure ()

/-- Takes back the next frame of the lost packets. -/
def takeLost (epoch : Epoch) : Program Error Connection Unit := do
  let c ← get
  match c.recovery.lost epoch with
  | [] => pure ()
  | frame :: frames =>
    let r := c.recovery
    set (c.setRecovery { r with lost := Epoch.update r.lost epoch frames })
    drainLostFrame epoch frame

/-- Forgets the lost frames that were not taken back. -/
def clearLost (epoch : Epoch) (c : Connection) : Connection :=
  let r := c.recovery
  c.setRecovery { r with lost := Epoch.update r.lost epoch [] }

/-- Takes back the frames of lost packets. An error drops the frames that follow. -/
def drainLost (epoch : Epoch) : Program Error Connection Unit := fun c =>
  match (forM (c.recovery.lost epoch) fun _ =>
      takeLost epoch : Program Error Connection Unit) c with
  | .ok _ c' => .ok () c'
  | .error e c' => .error e (c'.clearLost epoch)

/-- The room that the congestion window and the address validation leave in a buffer of
`avail` bytes. -/
def packetRoom (c : Connection) (epoch : Epoch) (avail : ℕ) (env : SendEnv) : ℕ :=
  let probes := c.recovery.lossProbes
  let cwnd :=
    if 0 < probes .initial ∨ 0 < probes .handshake ∨ 0 < probes .application then u64Max
    else env.cwnd
  let left := if 0 < probes epoch ∧ !c.isClosing then avail else min cwnd avail
  if !c.verifiedPeerAddress && c.isServer then min left c.maxSendBytes else left

/-- The length of a packet header, up to the length field or the packet number. -/
def headerLen (c : Connection) (epoch : Epoch) (pnLen : ℕ) : ℕ :=
  let long := 1 + 4 + 1 + c.dcidLen + 1 + c.scidLen
  match epoch with
  | .application => 1 + c.dcidLen + 4 + 1 + 1 + 1 + 1 + (4 - pnLen)
  | .initial => long + varintLen (c.tokenLen.getD 0) + c.tokenLen.getD 0
  | .handshake => long

/-- Writes a packet into a buffer of `outLen` bytes, and returns its length. -/
def send (outLen : ℕ) (env : SendEnv) : Program Error Connection ℕ := do
  let c ← get
  if outLen = 0 then Program.fail .bufferTooShort
  else if c.draining then Program.fail .done
  else if !c.derivedInitialSecrets then Program.fail .done
  else
    Program.when (!c.isClosing) (doHandshake env.handshake)
    let c ← get
    let maxPktLen := if c.isEstablished then min 16383 c.peerTransportParams.maxPacketSize else 1200
    let avail := min maxPktLen outLen
    let epoch ← Program.ofExcept c.writeEpoch
    drainLost epoch
    let c ← get
    match pktNumLen (c.pktNumSpaces epoch).nextPktNum with
    | none => Program.fail .invalidPacket
    | some pnLen =>
      let header := c.headerLen epoch pnLen
      let lengthLen := if PacketType.fromEpoch epoch = .short then 0 else 2
      let overhead := header + pnLen + tagLen + lengthLen
      let left := c.packetRoom epoch avail env
      if !(c.pktNumSpaces epoch).cryptoSeal then Program.fail .done
      else if avail < header then Program.fail .bufferTooShort
      else if left < overhead then Program.fail .done
      else
        Program.zoom (fun c => (⟨c, .new (left - overhead)⟩ : Packing)) (fun p _ => p.conn)
          (Packing.packet epoch header pnLen avail env)

end Connection

end Dtp
