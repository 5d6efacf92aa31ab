import Dtp.LossDetection
import Dtp.StreamMap

/-!
# Connections

The state of a connection, the calls of its application, and what it does with the
frames it receives. The TLS handshake, the clocks and the measurements of round-trip
times are inputs of the operations that consult them.

## Main definitions

* `Connection` — the state
* `Connection.processFrame` — one received frame
* `Connection.recvSingle`, `Connection.recv` — a packet, a datagram
* `Connection.streamSendFull`, `Connection.streamRecv`, `Connection.streamShutdown`
-/

namespace Dtp

open Lib (Program)

/-- A packet number space. -/
structure PktNumSpace where
  largestRxPktNum : ℕ
  nextPktNum : ℕ
  recvPktNeedAck : RangeSet
  recvPktNum : PktNumWindow
  ackElicited : Bool
  /-- Whether there are keys to open and to seal packets. -/
  cryptoOpen : Bool
  cryptoSeal : Bool
  cryptoStream : Stream

namespace PktNumSpace

/-- The stream of handshake data of a new packet number space. -/
def newCryptoStream (now : ℕ) : Stream := Stream.new u64Max u64Max true true now

/-- A new packet number space has no keys. -/
def new (now : ℕ) : PktNumSpace where
  largestRxPktNum := 0
  nextPktNum := 0
  recvPktNeedAck := .empty
  recvPktNum := ⟨0, 0⟩
  ackElicited := false
  cryptoOpen := false
  cryptoSeal := false
  cryptoStream := newCryptoStream now

/-- There is something to send in this packet number space. -/
def ready (s : PktNumSpace) : Bool := s.cryptoStream.isFlushable || s.ackElicited

end PktNumSpace

/-- A FEC group that is being filled, without the data of its shards. -/
structure FecGroup where
  info : FecStatus
  shardSize : ℕ
  nextIndex : ℕ

/-- A QUIC connection. -/
structure Connection where
  version : ℕ
  dcidLen : ℕ
  scidLen : ℕ
  tokenLen : Option ℕ
  pktNumSpaces : Epoch → PktNumSpace
  peerTransportParams : TransportParams
  localTransportParams : TransportParams
  /-- Whether the TLS handshake is complete. -/
  isEstablished : Bool
  /-- The epoch in which TLS writes. -/
  writeLevel : Epoch
  recovery : Recovery
  /-- When loss recovery is to be woken up. The source keeps the timer with `recovery`. -/
  lossDetectionTimer : Option ℕ
  recvCount : ℕ
  sentCount : ℕ
  /-- Total number of bytes received over the connection. -/
  rxData : ℕ
  /-- Local flow control limit for the connection. -/
  maxRxData : ℕ
  /-- Updated local flow control limit for the connection. -/
  maxRxDataNext : ℕ
  /-- Total number of bytes sent over the connection. -/
  txData : ℕ
  /-- Peer's flow control limit for the connection. -/
  maxTxData : ℕ
  /-- Bytes the server can send before the peer's address is verified. -/
  maxSendBytes : ℕ
  streams : StreamMap
  /-- Error code to be sent to the peer in CONNECTION_CLOSE. -/
  error : Option ℕ
  /-- Error code to be sent to the peer in APPLICATION_CLOSE. -/
  appError : Option ℕ
  appReason : List UInt8
  /-- Received path challenge. -/
  challenge : Option (List UInt8)
  /-- Whether the draining timer is set. -/
  draining : Bool
  isServer : Bool
  derivedInitialSecrets : Bool
  didVersionNegotiation : Bool
  verifiedPeerAddress : Bool
  parsedPeerTransportParams : Bool
  handshakeDoneSent : Bool
  handshakeConfirmed : Bool
  ackElicitingSent : Bool
  bctOffset : ℤ
  initDataAckRatio : ℕ
  /-- The FEC group that is being filled. -/
  fec : Option FecGroup
  /-- Redundant packets that wait to be sent, with their lengths. -/
  fecEncoded : List (FecStatus × ℕ)
  nextFecGroupId : ℕ
  tailSize : Option ℕ

/-- The version from which on there is a HANDSHAKE_DONE frame. -/
def protocolVersionDraft25 : ℕ := 0xff000019

/-- The version of draft 24. -/
def protocolVersionDraft24 : ℕ := 0xff000018

/-- The oldest version that is supported. -/
def protocolVersionDraft23 : ℕ := 0xff000017

/-- Returns true if the given protocol version is supported. -/
def versionIsSupported (version : ℕ) : Bool :=
  version ∈ [protocolVersionDraft25, protocolVersionDraft24, protocolVersionDraft23]

/-- The length of the authentication tag of every cipher suite. -/
def tagLen : ℕ := 16

/-- How a step of the TLS handshake ends. -/
inductive HandshakeOutcome
  | waiting
  | failed (e : Error)
  | noProtocol
  | finished (peerParams : Except Error TransportParams)

/-- What TLS does in one step of the handshake. -/
structure HandshakeStep where
  /-- Handshake data that TLS writes. -/
  writes : List (Epoch × List UInt8)
  /-- The keys to open and to seal packets that there are afterwards. -/
  keys : Epoch → Bool × Bool
  isEstablished : Bool
  writeLevel : Epoch
  outcome : HandshakeOutcome

/-- What a call learns from its environment: the clocks, the delay after which packets
count as lost, the time that a probe waits, and the handshake. -/
structure Env where
  /-- The monotonic clock. -/
  instant : ℕ
  /-- The wall clock in millis. -/
  wall : ℕ
  lossDelay : ℕ
  timeout : ℕ
  handshake : HandshakeStep

namespace Connection

/-- The parameters of a peer that has not announced any. -/
def defaultParams : TransportParams where
  initialMaxData := 0
  initialMaxStreamDataBidiLocal := 0
  initialMaxStreamDataBidiRemote := 0
  initialMaxStreamDataUni := 0
  initialMaxStreamsBidi := 0
  initialMaxStreamsUni := 0
  maxPacketSize := 65527
  ackDelayExponent := 3

/-- What an endpoint is configured with. -/
structure Config where
  version : ℕ
  localTransportParams : TransportParams
  scheduler : DynScheduler
  bctOffset : ℤ
  initDataAckRatio : ℕ
  tailSize : Option ℕ
  scidLen : ℕ
  dcidLen : ℕ

/-- A new connection. -/
def new (config : Config) (isServer afterRetry : Bool) (now : ℕ) : Connection where
  version := config.version
  dcidLen := config.dcidLen
  scidLen := config.scidLen
  tokenLen := none
  pktNumSpaces e :=
    -- the client derives the Initial secrets at once
    let keys := e == .initial && !isServer
    { PktNumSpace.new now with cryptoOpen := keys, cryptoSeal := keys }
  peerTransportParams := defaultParams
  localTransportParams := config.localTransportParams
  isEstablished := false
  writeLevel := .initial
  recovery := .new
  lossDetectionTimer := none
  recvCount := 0
  sentCount := 0
  rxData := 0
  maxRxData := config.localTransportParams.initialMaxData
  maxRxDataNext := config.localTransportParams.initialMaxData
  txData := 0
  maxTxData := 0
  maxSendBytes := 0
  streams := .new config.localTransportParams.initialMaxStreamsBidi
    config.localTransportParams.initialMaxStreamsUni config.scheduler
  error := none
  appError := none
  appReason := []
  challenge := none
  draining := false
  isServer := isServer
  derivedInitialSecrets := !isServer
  didVersionNegotiation := false
  verifiedPeerAddress := afterRetry
  parsedPeerTransportParams := false
  handshakeDoneSent := false
  handshakeConfirmed := false
  ackElicitingSent := false
  bctOffset := config.bctOffset
  initDataAckRatio := config.initDataAckRatio
  fec := none
  fecEncoded := []
  nextFecGroupId := 1
  tailSize := config.tailSize

/-! ### Parts of the state -/

/-- Changes the streams. -/
def setStreams (c : Connection) (m : StreamMap) : Connection := { c with streams := m }

/-- Changes loss recovery. -/
def setRecovery (c : Connection) (r : Recovery) : Connection := { c with recovery := r }

/-- The connection is being closed. -/
def isClosing (c : Connection) : Bool := c.error.isSome || c.appError.isSome

/-- Changes the packet number space of an epoch. -/
def modifySpace (c : Connection) (epoch : Epoch) (f : PktNumSpace → PktNumSpace) : Connection :=
  { c with pktNumSpaces := Epoch.update c.pktNumSpaces epoch (f (c.pktNumSpaces epoch)) }

/-- Loss recovery with its timer. Every controller counts the packets in flight, as
`LossDetection.bytesInFlight_exact` says, so it does not matter here which one does. -/
def lossDetection (c : Connection) : LossDetection where
  toRecovery := c.recovery
  lossDetectionTimer := c.lossDetectionTimer
  cc := ⟨.cubic, LossDetection.unackedBytes (c.recovery.sent .application)⟩

/-- Arms the timer for the next loss or probe, or stops it, if packets have come or gone. -/
def setLossDetectionTimer (c : Connection) (changed : Bool) (env : Env) : Connection :=
  let l := c.lossDetection.setLossDetectionTimer c.isEstablished env.timeout
  { c with lossDetectionTimer := if changed then l.lossDetectionTimer else c.lossDetectionTimer }

/-- Drops the keys and recovery state for the given epoch. The timer stays as it is. -/
def dropEpochState (c : Connection) (epoch : Epoch) (now : ℕ) : Connection :=
  if (c.pktNumSpaces epoch).cryptoOpen then
    (c.modifySpace epoch fun s =>
      { s with
        cryptoOpen := false
        cryptoSeal := false
        cryptoStream := PktNumSpace.newCryptoStream now
        ackElicited := false }).setRecovery (c.recovery.dropUnackedData epoch)
  else c

/-- Queues handshake data that TLS writes. -/
def writeCrypto (epoch : Epoch) (data : List UInt8) : Program Error Connection Unit := do
  let c ← get
  let s := (c.pktNumSpaces epoch).cryptoStream
  match SendBuf.pushSlice data false s.send with
  | .ok _ send =>
    set (c.modifySpace epoch fun p => { p with cryptoStream := { s with send := send } })
  | .error _ _ => Program.fail .tlsFail

/-- Continues the handshake, unless it is complete. -/
def doHandshake (hs : HandshakeStep) : Program Error Connection Unit := do
  let c ← get
  if c.isEstablished then pure ()
  else
    forM hs.writes fun w => writeCrypto w.1 w.2
    modify fun c =>
      { c with
        isEstablished := hs.isEstablished
        writeLevel := hs.writeLevel
        pktNumSpaces := fun e =>
          { c.pktNumSpaces e with cryptoOpen := (hs.keys e).1, cryptoSeal := (hs.keys e).2 } }
    match hs.outcome with
    | .waiting => pure ()
    | .failed e => Program.fail e
    | .noProtocol =>
      -- Send no_application_proto TLS alert when no protocol can be negotiated.
      modify fun c => { c with error := some 0x178 }
      Program.fail .tlsFail
    | .finished peerParams =>
      let c ← get
      if c.parsedPeerTransportParams then pure ()
      else
        let params ← Program.ofExcept peerParams
        let m := c.streams
        set { c with
          maxTxData := params.initialMaxData
          streams :=
            { m with
              peerMaxStreamsBidi := max m.peerMaxStreamsBidi params.initialMaxStreamsBidi
              peerMaxStreamsUni := max m.peerMaxStreamsUni params.initialMaxStreamsUni }
          peerTransportParams := params
          parsedPeerTransportParams := true }

/-! ### Received frames -/

/-- Neither our unidirectional streams carry data of the peer, nor the peer's ours. -/
def sendsOnly (c : Connection) (id : ℕ) (byLocal : Bool) : Bool :=
  !isBidi id && isLocal id c.isServer == byLocal

/-- Returns the stream with the given id if it exists, or creates a new one. -/
def getOrCreateStream (c : Connection) (id : ℕ) (byLocal : Bool) (deadline priority now : ℕ) :
    Except Error (Stream × StreamMap) :=
  c.streams.getOrCreate id
    { localParams := c.localTransportParams
      peerParams := c.peerTransportParams
      isLocal := byLocal
      isServer := c.isServer
      deadline := deadline
      priority := priority
      now := now }

/-- The stream that a received frame names. -/
def peerStream (c : Connection) (id now : ℕ) : Except Error (Stream × StreamMap) :=
  c.getOrCreateStream id false maxDeadline defaultPriority now

/-- BLOCK_INFO: the size, the deadline and the start time of a block. -/
def processBlockInfo (streamId blockSize blockPriority blockDeadline startTime : ℕ) (env : Env) :
    Program Error Connection Unit := do
  let c ← get
  -- Peer can't send on our unidirectional streams.
  if c.sendsOnly streamId true then Program.fail .invalidStreamState
  else
    let (s, m) ← Program.ofExcept (c.peerStream streamId env.wall)
    let recv := s.recv.setBlockInfo blockSize blockPriority blockDeadline startTime
    set (c.setStreams (m.putRecv streamId s recv))

/-- RESET_STREAM: the peer gives up a stream, error code 1 because of its deadline. -/
def processResetStream (streamId errorCode finalSize : ℕ) (env : Env) :
    Program Error Connection Unit := do
  let c ← get
  if c.sendsOnly streamId true then Program.fail .invalidStreamState
  else
    match c.peerStream streamId env.wall with
    -- the stream has already been closed and collected
    | .error .done => pure ()
    | .error e => Program.fail e
    | .ok (s, m) =>
      set (c.setStreams m)
      let recv ← Program.ofExcept (if errorCode = 1 then s.recv.shutdown else .ok s.recv)
      set (c.setStreams (m.putRecv streamId s recv))
      let (credit, recv) ← Program.ofExcept (recv.reset finalSize)
      set { c.setStreams (m.putRecv streamId s recv) with rxData := c.rxData + credit }
      if c.maxRxData < c.rxData + credit then Program.fail .flowControl else pure ()

/-- STREAM: data of a stream. -/
def processStream (streamId : ℕ) (data : RangeBuf) (env : Env) : Program Error Connection Unit := do
  let c ← get
  if c.sendsOnly streamId true then Program.fail .invalidStreamState
  -- Check for flow control limits.
  else if c.maxRxData < c.rxData + data.len then Program.fail .flowControl
  else
    match c.peerStream streamId env.wall with
    | .error .done => pure ()
    | .error e => Program.fail e
    | .ok (s, m) =>
      set (c.setStreams m)
      match s.recv.pushEvaluation data env.wall with
      | .error e => throw e
      | .ok recv =>
        let m := m.putRecv streamId s recv
        let m := if recv.ready then m.markReadable streamId true else m
        set { c.setStreams m with rxData := c.rxData + data.len }

/-- MAX_STREAM_DATA: the peer's limit for a stream. -/
def processMaxStreamData (streamId max : ℕ) (env : Env) : Program Error Connection Unit := do
  let c ← get
  match c.peerStream streamId env.wall with
  | .error .done => pure ()
  | .error e => Program.fail e
  | .ok (s, m) =>
    let s' := { s with send := s.send.updateMaxData max }
    let m := m.put streamId s'
    let m := if s'.isFlushable && !s.isFlushable then m.pushFlushable streamId else m
    let m := if s'.isWritable then m.markWritable streamId true else m
    set (c.setStreams m)

/-- The loop that feeds handshake data to TLS. -/
def readCrypto (epoch : Epoch) : ℕ → Program Error Connection Unit
  | 0 => pure ()
  | fuel + 1 => do
    let c ← get
    let s := (c.pktNumSpaces epoch).cryptoStream
    match s.recv.pop 512 with
    | .error _ => pure ()
    | .ok (_, _, recv) =>
      set (c.modifySpace epoch fun p => { p with cryptoStream := { s with recv := recv } })
      readCrypto epoch fuel

/-- CRYPTO: handshake data. -/
def processCrypto (data : RangeBuf) (epoch : Epoch) (env : Env) :
    Program Error Connection Unit := do
  let c ← get
  let s := (c.pktNumSpaces epoch).cryptoStream
  match s.recv.push data env.wall with
  | .error e => throw e
  | .ok recv =>
    set (c.modifySpace epoch fun p => { p with cryptoStream := { s with recv := recv } })
    -- every turn of the loop reads a byte or removes a chunk
    readCrypto epoch (recv.len + recv.data.toList.length + 1)
    doHandshake env.handshake

/-- ACK: acknowledged packets. -/
def processAck (packetTime ackDelay : ℕ) (ranges : RangeSet) (epoch : Epoch) (env : Env) :
    Program Error Connection Unit := do
  let c ← get
  let scale := 2 ^ c.peerTransportParams.ackDelayExponent
  if u64Max < ackDelay * scale ∨ u64Max < packetTime * scale then Program.fail .invalidFrame
  else
    match c.recovery.onAckReceived ranges epoch env.instant env.lossDelay with
    | .error e => throw e
    | .ok recovery =>
      let newlyAcked := c.recovery.newlyAcks ranges epoch
      let c := (c.setRecovery recovery).setLossDetectionTimer newlyAcked env
      -- An ACK for a 1-RTT packet confirms the handshake.
      if epoch = .application ∧ c.isEstablished then
        set ({ c with handshakeConfirmed := true }.dropEpochState .handshake env.wall)
      else set c

/-- Processes one received frame. -/
def processFrame (frame : Frame) (epoch : Epoch) (env : Env) : Program Error Connection Unit :=
  match frame with
  | .ack packetTime ackDelay ranges => processAck packetTime ackDelay ranges epoch env
  | .blockInfo streamId blockSize blockPriority blockDeadline startTime =>
    processBlockInfo streamId blockSize blockPriority blockDeadline startTime env
  | .resetStream streamId errorCode finalSize =>
    processResetStream streamId errorCode finalSize env
  | .stopSending streamId _ => do
    let c ← get
    -- STOP_SENDING on a receive-only stream is a fatal error.
    if c.sendsOnly streamId false then Program.fail .invalidStreamState else pure ()
  | .crypto data => processCrypto data epoch env
  | .stream streamId data => processStream streamId data env
  | .maxData max => modify fun c => { c with maxTxData := Nat.max c.maxTxData max }
  | .maxStreamData streamId max => processMaxStreamData streamId max env
  | .maxStreamsBidi max =>
    if 2 ^ 60 < max then Program.fail .streamLimit
    else modify fun c => c.setStreams
      { c.streams with peerMaxStreamsBidi := Nat.max c.streams.peerMaxStreamsBidi max }
  | .maxStreamsUni max =>
    if 2 ^ 60 < max then Program.fail .streamLimit
    else modify fun c => c.setStreams
      { c.streams with peerMaxStreamsUni := Nat.max c.streams.peerMaxStreamsUni max }
  | .pathChallenge data => modify fun c => { c with challenge := some data }
  | .connectionClose _ _ _ => modify fun c => { c with draining := true }
  | .applicationClose _ _ => modify fun c => { c with draining := true }
  | .handshakeDone => do
    let c ← get
    if c.version < protocolVersionDraft25 then Program.fail .invalidFrame
    else if c.isServer then Program.fail .invalidPacket
    else set ({ c with handshakeConfirmed := true }.dropEpochState .handshake env.wall)
  | .padding _ | .ping | .newToken _ | .dataBlocked _ | .streamDataBlocked _ _
  | .streamsBlockedBidi _ | .streamsBlockedUni _ | .newConnectionId _ _ _ _
  | .retireConnectionId _ | .pathResponse _ | .fec _ _ => pure ()

/-! ### Received packets -/

/-- A packet that was decrypted: its frames, each with what processing it learns from
the environment, and the error at the end of the payload, if parsing fails there. A
redundant packet has no frames; the packets that it helped to rebuild come first. -/
structure RxPacket where
  ty : PacketType
  /-- The version and the length of the source id in a long header. -/
  version : ℕ
  scidLen : ℕ
  pktNum : ℕ
  fecInfo : FecStatus
  restored : List (Frame × Env)
  restoredError : Option Error
  frames : List (Frame × Env)
  framesError : Option Error
  now : ℕ

/-- Processes frames up to the end of a payload or to its first error. -/
def processFrames (frames : List (Frame × Env)) (error : Option Error) (epoch : Epoch) :
    Program Error Connection Unit := do
  forM frames fun f => processFrame f.1 epoch f.2
  match error with
  | none => pure ()
  | some e => Program.fail e

/-- Processes an acked frame. -/
def processAcked (epoch : Epoch) (frame : Frame) (c : Connection) : Connection :=
  match frame with
  | .ack _ _ ranges =>
    -- Stop acknowledging packets that the peer knows to be acknowledged.
    match ranges.largest with
    | some largest =>
      c.modifySpace epoch fun s => { s with recvPktNeedAck := s.recvPktNeedAck.removeUntil largest }
    | none => c
  | .crypto data =>
    c.modifySpace epoch fun s =>
      { s with cryptoStream :=
        { s.cryptoStream with send := s.cryptoStream.send.ack data.off data.len } }
  | .stream streamId data =>
    match c.streams.streams streamId with
    | none => c
    | some s =>
      let s := { s with send := s.send.ack data.off data.len }
      let m := c.streams.put streamId s
      c.setStreams (if s.isComplete then m.collect streamId s.isLocal else m)
  | _ => c

/-- Processes the next acked frame of an epoch. -/
def takeAcked (epoch : Epoch) (c : Connection) : Connection :=
  match c.recovery.acked epoch with
  | [] => c
  | frame :: frames =>
    let r := c.recovery
    processAcked epoch frame
      (c.setRecovery { r with acked := Epoch.update r.acked epoch frames })

/-- Hands the acked frames of an epoch to their streams. -/
def drainAcked (epoch : Epoch) : Program Error Connection Unit := do
  let c ← get
  forM (c.recovery.acked epoch) fun _ => modify (takeAcked epoch)

/-- Remembers the number of the packet, and whether it must be acknowledged. -/
def RxPacket.record (pkt : RxPacket) (s : PktNumSpace) : PktNumSpace :=
  let ackElicited := pkt.fecInfo.groupId != 0 || pkt.frames.any fun f => f.1.ackEliciting
  { s with
    recvPktNum := s.recvPktNum.insert pkt.pktNum
    recvPktNeedAck := s.recvPktNeedAck.pushItem pkt.pktNum
    ackElicited := s.ackElicited || ackElicited
    largestRxPktNum := max s.largestRxPktNum pkt.pktNum }

/-- Records a packet whose frames were processed. -/
def received (pkt : RxPacket) (epoch : Epoch) (c : Connection) : Connection :=
  let c := { c.modifySpace epoch pkt.record with recvCount := c.recvCount + 1 }
  -- A Handshake packet of the client verifies its address.
  let c :=
    if c.isServer && pkt.ty == .handshake then
      { c.dropEpochState .initial pkt.now with verifiedPeerAddress := true }
    else c
  { c with ackElicitingSent := false }

/-- Agrees on the version, and derives the Initial secrets on the server. -/
def acceptHeader (pkt : RxPacket) : Program Error Connection Unit := do
  let c ← get
  let negotiates := c.isServer && !c.didVersionNegotiation
  if negotiates && !versionIsSupported pkt.version then Program.fail .unknownVersion
  else
    Program.when negotiates <| modify fun c =>
      { c with version := pkt.version, didVersionNegotiation := true }
    let c ← get
    if pkt.ty ≠ .short ∧ pkt.version ≠ c.version then Program.fail .unknownVersion
    else if c.derivedInitialSecrets then pure ()
    else
      modify fun c => c.modifySpace .initial fun s =>
        { s with cryptoOpen := true, cryptoSeal := true }
      modify fun c =>
        { c with derivedInitialSecrets := true, dcidLen := c.dcidLen + pkt.scidLen }

/-- Processes a packet, unless its number was seen before. -/
def recvSingle (pkt : RxPacket) : Program Error Connection Unit := do
  let c ← get
  if c.draining || c.isClosing then Program.fail .done
  else
    match pkt.ty.toEpoch with
    -- Version Negotiation and Retry packets start the handshake over
    | none => Program.fail .done
    | some epoch =>
      -- Discard 1-RTT packets received before handshake is completed.
      if pkt.ty = .short ∧ !c.isEstablished then pure ()
      else
        acceptHeader pkt
        let c ← get
        -- Ignore packets that can't be decrypted.
        if pkt.ty ≠ .zeroRTT ∧ !(c.pktNumSpaces epoch).cryptoOpen then pure ()
        else if (c.pktNumSpaces epoch).recvPktNum.contains pkt.pktNum then Program.fail .done
        else
          processFrames pkt.restored pkt.restoredError epoch
          processFrames pkt.frames pkt.framesError epoch
          drainAcked epoch
          modify (received pkt epoch)

/-- What a datagram holds: packets, with those that fail decryption left out, and the
error that ends the datagram early, if any. -/
structure Datagram where
  packets : List RxPacket
  error : Option Error
  len : ℕ

/-- Starts to close the connection, unless it is closing. -/
def close (c : Connection) (app : Bool) (err : ℕ) (reason : List UInt8) :
    Except Error Connection :=
  if c.draining then .error .done
  else if c.error.isSome ∨ c.appError.isSome then .error .done
  else if app then
    .ok { c with appError := some err, appReason := c.appReason ++ reason }
  else .ok { c with error := some err }

/-- In case of an error other than `Done`, closes the connection. -/
def closeOnError (x : Program Error Connection Unit) : Program Error Connection Unit := fun c =>
  match x c with
  | .error (.error e) c' =>
    if e = .done then .error (.error e) c'
    else .error (.error e)
      (match c'.close false e.toWire [] with
        | .ok c'' => c''
        | .error _ => c')
  | result => result

/-- Processes the packets of a datagram. -/
def recv (d : Datagram) : Program Error Connection Unit := do
  closeOnError do
    forM d.packets recvSingle
    match d.error with
    | none => pure ()
    | some e => Program.fail e
  modify fun c =>
    if c.verifiedPeerAddress then c else { c with maxSendBytes := c.maxSendBytes + d.len * 3 }

/-! ### Calls of the application -/

/-- Writes data to a stream, and returns how many bytes were stored. -/
def streamSendFull (streamId : ℕ) (data : List UInt8) (fin : Bool) (deadline priority now : ℕ) :
    Program Error Connection ℕ := do
  let c ← get
  -- We can't write on the peer's unidirectional streams.
  if c.sendsOnly streamId false then Program.fail .invalidStreamState
  else
    let (s, m) ← Program.ofExcept (c.getOrCreateStream streamId true deadline priority now)
    set (c.setStreams m)
    match SendBuf.pushSlice data fin s.send with
    | .error e send =>
      set (c.setStreams (m.putSend streamId s send))
      throw e
    | .ok sent send =>
      let s' := { s with send := send }
      let emptyFin := data.isEmpty && fin
      let m := m.put streamId s'
      -- Only queue the stream if it was not flushable before.
      let m := if (s'.isFlushable || emptyFin) && !s.isFlushable then m.pushFlushable
        streamId else m
      let m := if s'.isWritable then m else m.markWritable streamId false
      set (c.setStreams m)
      pure sent

/-- Reads at most `cap` bytes from a stream. -/
def streamRecv (streamId cap : ℕ) : Program Error Connection (List UInt8 × Bool) := do
  let c ← get
  -- We can't read on our own unidirectional streams.
  if c.sendsOnly streamId true then Program.fail .invalidStreamState
  else
    match c.streams.streams streamId with
    | none => Program.fail .invalidStreamState
    | some s =>
      if !s.isReadable then Program.fail .done
      else
        let (out, fin, recv) ← Program.ofExcept (s.recv.pop cap)
        let s' := { s with recv := recv }
        let m := c.streams.put streamId s'
        let m := if recv.almostFull then m.markAlmostFull streamId true else m
        let m := if s'.isReadable then m else m.markReadable streamId false
        let m := if s'.isComplete then m.collect streamId s'.isLocal else m
        set { c.setStreams m with maxRxDataNext := saturatingAdd c.maxRxDataNext out.length }
        pure (out, fin)

/-- The directions in which a stream can be shut down. -/
inductive Shutdown
  | read
  | write
  deriving DecidableEq

/-- Shuts down reading from or writing to a stream. -/
def streamShutdown (streamId : ℕ) (direction : Shutdown) : Program Error Connection Unit := do
  let c ← get
  match c.streams.streams streamId with
  | none => Program.fail .done
  | some s =>
    match direction with
    | .read =>
      let recv ← Program.ofExcept s.recv.shutdown
      set (c.setStreams ((c.streams.putRecv streamId s recv).markReadable streamId false))
    | .write =>
      let send ← Program.ofExcept s.send.shutdown
      set (c.setStreams ((c.streams.putSend streamId s send).markWritable streamId false))

/-- The loss detection timer is set, and its time has come. -/
def timerExpired (c : Connection) (now : ℕ) : Bool := c.lossDetectionTimer.any (· ≤ now)

/-- Processes a timeout event. -/
def onTimeout (c : Connection) (env : Env) : Connection :=
  -- The draining timer takes precedence over all other timers.
  if c.draining then c
  else if c.timerExpired env.instant then
    let r := c.recovery.onLossDetectionTimeout c.isEstablished env.instant env.lossDelay
    (c.setRecovery r).setLossDetectionTimer true env
  else c

/-- The connection-level flow control limit needs to be updated. -/
def shouldUpdateMaxData (c : Connection) : Bool :=
  c.maxRxDataNext != c.maxRxData && decide (c.maxRxData - c.rxData < c.maxRxDataNext / 2)

end Connection

end Dtp
