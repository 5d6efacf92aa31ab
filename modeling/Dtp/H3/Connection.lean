import Dtp.H3.Stream
import Dtp.H3.Qpack.Codec
import Dtp.Send

/-!
# Connections of HTTP/3

An HTTP/3 connection sits on a QUIC connection. It writes requests, responses and bodies as frames
to the streams of the transport, and parses what arrives on them. What the parser makes of the
bytes is recorded: the frames it processes, the bytes it hands out, the events and the errors.

## Main definitions

* `H3.Connection`, `H3.Session` — the state, and that with the transport and the record
* `H3.Session.sendRequestFull`, `H3.Session.sendResponseFull`, `H3.Session.sendBodyFull` — writing
* `H3.Session.processReadableStream` — the parser
* `H3.Session.poll`, `H3.Session.recvBody` — reading
-/

namespace Dtp.H3

open Lib (Program)

/-- An HTTP/3 connection event. -/
inductive Event
  | headers (list : List Header) (hasBody : Bool)
  | data
  | finished
  deriving DecidableEq, Repr

/-- An HTTP/3 connection. -/
structure Connection where
  isServer : Bool
  highestRequestStreamId : ℕ
  streams : ℕ → Option Stream
  localSettings : Settings
  peerSettings : Settings
  peerControlStreamId : Option ℕ
  /-- The streams of the peer for QPACK. -/
  peerEncoderStreamId : Option ℕ
  peerDecoderStreamId : Option ℕ
  maxPushId : ℕ
  finishedStreams : List ℕ
  framesGreased : Bool

/-- Creates a connection without streams. -/
def Connection.new (isServer : Bool) (localSettings : Settings) : Connection where
  isServer := isServer
  highestRequestStreamId := 0
  streams _ := none
  localSettings := localSettings
  peerSettings := ⟨none, none, none⟩
  peerControlStreamId := none
  peerEncoderStreamId := none
  peerDecoderStreamId := none
  maxPushId := 0
  finishedStreams := []
  framesGreased := false

/-- What is recorded of a stream. -/
inductive Item
  /-- A frame was processed. -/
  | frame (f : Frame)
  /-- A byte of a body was handed out. -/
  | byte (b : UInt8)
  /-- Parsing failed. -/
  | failed (e : Error)
  /-- An event was returned. -/
  | event (ev : Event)
  deriving DecidableEq, Repr

/-- An HTTP/3 connection with its transport, and what happened on its streams so far. -/
structure Session where
  http3 : Connection
  conn : Dtp.Connection
  log : List (ℕ × Item)

/-- The range of the random numbers that reserved values are made of. -/
abbrev GreaseSeed : Type := Fin 148764065110560899

/-- What a call learns from its environment. -/
structure Env where
  /-- `str::to_lowercase`. -/
  toLowercase : String → String
  /-- Whether the transport is configured to send reserved values. -/
  grease : Bool
  /-- The random numbers that the reserved values are made of. -/
  greaseSeeds : GreaseSeed × GreaseSeed
  /-- The wall clock. -/
  now : ℕ

/-- Generates a reserved integer from a random number. -/
def greaseValue (n : GreaseSeed) : ℕ := 31 * n + 33

namespace Session

/-! ### Parts of the state -/

/-- A program on the transport. -/
def transport {α : Type} (x : Program Dtp.Error Dtp.Connection α) : Program Error Session α :=
  Program.embed Error.ofTransport conn (fun c s => { s with conn := c }) x

/-- The state with the HTTP/3 stream `id` replaced. -/
def putStream (s : Session) (id : ℕ) (stream : Stream) : Session :=
  { s with
    http3 := { s.http3 with
      streams := fun i => if i = id then some stream else s.http3.streams i } }

/-- The state without the HTTP/3 stream `id`. -/
def removeStream (s : Session) (id : ℕ) : Session :=
  { s with
    http3 := { s.http3 with streams := fun i => if i = id then none else s.http3.streams i } }

/-- A program on the HTTP/3 stream `id`. -/
def onStream {α : Type} (id : ℕ) (x : Program Error Stream α) : Program Error Session α := do
  let s ← get
  let stream ← Program.unwrap (s.http3.streams id)
  Program.zoom (fun _ => stream) (fun stream s => s.putStream id stream) x

/-- Records what happens on a stream. -/
def record (id : ℕ) (item : Item) : Program Error Session Unit :=
  modify fun s => { s with log := s.log ++ [(id, item)] }

/-- Returns true if all the data has been read from the stream. -/
def streamFinished (s : Session) (id : ℕ) : Bool :=
  match s.conn.streams.streams id with
  | some stream => stream.recv.isFin
  | none => true

/-- Queues the `Finished` event of a stream, if all its data has been read. -/
def queueFinished (id : ℕ) : Program Error Session Unit :=
  modify fun s =>
    if s.streamFinished id then
      { s with http3 := { s.http3 with finishedStreams := s.http3.finishedStreams ++ [id] } }
    else s

/-- Closes the transport with an error, and fails with it. -/
def closeWith {α : Type} (e : Error) (reason : String) : Program Error Session α := do
  transport do
    let c ← get
    let c ← Program.ofExcept (c.close true e.toWire (utf8 reason))
    set c
  Program.fail e

/-! ### Writing -/

/-- The bytes that `put_varint` writes, and the buffer behind them. -/
def putVarint (v : ℕ) (b : Octets) : Program Error Session (List UInt8 × Octets) :=
  match Octets.putVarint v b with
  | .ok _ b' => pure (b'.before.drop b.before.length, b')
  | .error (.error _) _ => Program.fail .bufferTooShort
  | .error _ _ => Program.crash

/-- Writes to a stream of the transport with the default priority. -/
def streamSendFull (streamId : ℕ) (data : List UInt8) (fin : Bool) (deadline : ℕ) (env : Env) :
    Program Error Session ℕ :=
  transport (Dtp.Connection.streamSendFull streamId data fin deadline defaultPriority env.now)

/-- Writes to a stream of the transport without a deadline. -/
def streamSend (streamId : ℕ) (data : List UInt8) (fin : Bool) (env : Env) :
    Program Error Session ℕ :=
  streamSendFull streamId data fin maxDeadline env

/-- Allocates a new request stream ID for the local endpoint to use. -/
def getAvailableRequestStream : Program Error Session ℕ := do
  let s ← get
  let id := s.http3.highestRequestStreamId
  if id < u64Max then
    set { s with http3 := { s.http3 with highestRequestStreamId := id + 4 } }
    pure id
  else Program.fail .idError

/-- The header block of headers. -/
def encodeHeaderBlock (headers : List Header) : Program Error Session (List UInt8) :=
  let headersLen := (headers.map fun h => (utf8 h.value).length + (utf8 h.name).length + 32).sum
  match Qpack.encode headers ⟨[], List.replicate headersLen 0⟩ with
  | .ok len b => pure ((b.before ++ b.after).take len)
  | .error (.error _) _ => Program.fail .internalError
  | .error _ _ => Program.crash

/-- Sends reserved frames on a stream: an empty one, and one with a payload. -/
def sendGreaseFrames (streamId : ℕ) (env : Env) : Program Error Session Unit := do
  let b : Octets := ⟨[], List.replicate 128 42⟩
  let (ty, b) ← putVarint (greaseValue env.greaseSeeds.1) b
  discard (streamSend streamId ty false env)
  let (len, b) ← putVarint 0 b
  discard (streamSend streamId len false env)
  let (ty, b) ← putVarint (greaseValue env.greaseSeeds.2) b
  discard (streamSend streamId ty false env)
  let (len, _) ← putVarint 18 b
  discard (streamSend streamId len false env)
  discard (streamSend streamId (utf8 "GREASE is the word") false env)

/-- Sends a HEADERS frame: its type, its length and its header block. -/
def sendHeaders (streamId : ℕ) (headers : List Header) (fin : Bool) (deadline : ℕ) (env : Env) :
    Program Error Session Unit := do
  let b : Octets := ⟨[], List.replicate 10 42⟩
  let headerBlock ← encodeHeaderBlock headers
  let s ← get
  Program.when (!s.http3.framesGreased && env.grease) do
    sendGreaseFrames streamId env
    modify fun s => { s with http3 := { s.http3 with framesGreased := true } }
  let (ty, b) ← putVarint headersFrameTypeId b
  discard (streamSendFull streamId ty false deadline env)
  let (len, _) ← putVarint headerBlock.length b
  discard (streamSendFull streamId len false deadline env)
  discard (streamSendFull streamId headerBlock fin deadline env)
  modify fun s => if fin && s.streamFinished streamId then s.removeStream streamId else s

/-- Sends a request on a new stream, and returns the stream's id. -/
def sendRequestFull (headers : List Header) (fin : Bool) (deadline : ℕ) (env : Env) :
    Program Error Session ℕ := do
  let streamId ← getAvailableRequestStream
  modify fun s => s.putStream streamId (Stream.new streamId true)
  sendHeaders streamId headers fin deadline env
  pure streamId

/-- Sends a response on the specified stream. -/
def sendResponseFull (streamId : ℕ) (headers : List Header) (fin : Bool) (deadline : ℕ)
    (env : Env) :
    Program Error Session Unit :=
  sendHeaders streamId headers fin deadline env

/-- Returns the stream's outgoing flow control capacity. -/
def streamCapacity (s : Session) (id : ℕ) : Except Error ℕ :=
  match s.conn.streams.streams id with
  | some stream => .ok stream.send.cap
  | none => .error (.ofTransport .invalidStreamState)

/-- Sends a body chunk on the stream, and returns how many bytes of it were written. -/
def sendBodyFull (streamId : ℕ) (body : List UInt8) (fin : Bool) (deadline : ℕ) (env : Env) :
    Program Error Session ℕ := do
  let b : Octets := ⟨[], List.replicate 10 42⟩
  let s ← get
  -- Validate that it is sane to send data on the stream.
  if (s.http3.streams streamId).isNone ∨ streamId % 4 ≠ 0 then Program.fail .frameUnexpected
  else
    -- there is no encoding for a larger length
    Program.when (2 ^ 62 ≤ body.length) Program.crash
    let overhead := varintLen dataFrameTypeId + varintLen body.length
    let streamCap ← Program.ofExcept (s.streamCapacity streamId)
    -- There has to be room for the header and at least one byte of payload.
    if streamCap ≤ overhead then Program.fail .done
    else
      -- Cap the frame payload length to the stream's capacity.
      let bodyLen := min body.length (streamCap - overhead)
      -- The application can try again later, if not the entire body can be sent.
      let fin := if bodyLen ≠ body.length then false else fin
      let (ty, b) ← putVarint dataFrameTypeId b
      discard (streamSendFull streamId ty false deadline env)
      let (len, _) ← putVarint bodyLen b
      discard (streamSendFull streamId len false deadline env)
      let written ← streamSendFull streamId (body.take bodyLen) fin deadline env
      modify fun s =>
        if fin && written == body.length && s.streamFinished streamId then s.removeStream
          streamId else s
      pure written

/-! ### Reading -/

/-- Tries to fill the state buffer of a stream with data of the transport. -/
def tryFillBuffer (id : ℕ) : Program Error Session Unit := do
  let s ← get
  let stream ← Program.unwrap (s.http3.streams id)
  -- a slice of the state buffer
  if stream.stateLen < stream.stateOff ∨ stream.stateBuf.length < stream.stateLen then Program.crash
  else
    let (data, _) ← transport
      (Dtp.Connection.streamRecv stream.id (stream.stateLen - stream.stateOff))
    let stream := stream.fill data
    modify fun s => s.putStream id stream
    if stream.stateBufferComplete then pure () else Program.fail .done

/-- Tries to read DATA payload from the transport. -/
def tryConsumeData (id cap : ℕ) : Program Error Session (List UInt8) := do
  let s ← get
  let stream ← Program.unwrap (s.http3.streams id)
  let left ← Program.unwrapSub
    (if stream.stateLen < stream.stateOff then none else some
      (min cap (stream.stateLen - stream.stateOff)))
  let (data, _) ← transport (Dtp.Connection.streamRecv stream.id left)
  let stream := { stream with stateOff := stream.stateOff + data.length }
  modify fun s => s.putStream id stream
  Program.when stream.stateBufferComplete (onStream id (Stream.stateTransition .frameType 1 true))
  pure data

/-- Decodes the header block of a HEADERS frame. -/
def decodeHeaderBlock (headerBlock : List UInt8) (maxSize : ℕ) (env : Env) :
    Except Error (List Header) :=
  match Qpack.decode env.toLowercase maxSize ⟨[], headerBlock⟩ with
  | .ok headers _ => .ok headers
  | .error (.error .headerListTooLarge) _ => .error .excessiveLoad
  | .error _ _ => .error .qpackDecompressionFailed

/-- Processes a frame: most have no event. -/
def processFrame (id : ℕ) (frame : Frame) (env : Env) :
    Program Error Session (Option (ℕ × Event)) := do
  record id (.frame frame)
  let s ← get
  let onControl := s.http3.peerControlStreamId = some id
  match frame with
  | .settings settings =>
    set { s with http3 := { s.http3 with peerSettings := settings } }
    pure none
  | .headers headerBlock =>
    if onControl then closeWith .frameUnexpected "HEADERS received on control stream"
    else
      -- "infinite" by default
      let maxSize := s.http3.localSettings.maxHeaderListSize.getD u64Max
      let headers ← Program.ofExcept (decodeHeaderBlock headerBlock maxSize env)
      pure (some (id, .headers headers (!s.streamFinished id)))
  | .data _ =>
    if onControl then closeWith .frameUnexpected "DATA received on control stream" else pure none
  | .goAway goawayStreamId =>
    if s.http3.isServer then closeWith .frameUnexpected "GOWAY received on server"
    else if ¬ onControl then closeWith .frameUnexpected "GOAWAY received on non-control stream"
    else if goawayStreamId % 4 ≠ 0 then
      closeWith .frameUnexpected "GOAWAY received with ID of non-request stream"
    else pure none
  | .maxPushId pushId =>
    if ¬ onControl then closeWith .frameUnexpected "MAX_PUSH_ID received on non-control stream"
    else if !s.http3.isServer then closeWith .frameUnexpected "MAX_PUSH_ID received by client"
    else if pushId < s.http3.maxPushId then closeWith .idError "MAX_PUSH_ID reduced limit"
    else
      set { s with http3 := { s.http3 with maxPushId := pushId } }
      pure none
  | .pushPromise _ _ =>
    if s.http3.isServer then closeWith .frameUnexpected "PUSH_PROMISE received by server"
    else if id % 4 ≠ 0 then closeWith .frameUnexpected "PUSH_PROMISE received on non-request stream"
    else pure none
  | .duplicatePush _ =>
    if s.http3.isServer then closeWith .frameUnexpected "DUPLICATE_PUSH received by server"
    else if id % 4 ≠ 0 then
      closeWith .frameUnexpected "DUPLICATE_PUSH received on non-request stream"
    else pure none
  | .cancelPush _ =>
    if ¬ onControl then closeWith .frameUnexpected "CANCEL_PUSH received on non-control stream"
    else pure none
  | .unknown => pure none

/-- Opens a stream of the peer: there is one of each type, but any number of unknown ones. -/
def openStream (id : ℕ) (ty : StreamType) : Program Error Session Unit := do
  let s ← get
  match ty with
  | .control =>
    if s.http3.peerControlStreamId.isSome then
      closeWith .streamCreationError "Received multiple control streams"
    else set { s with http3 := { s.http3 with peerControlStreamId := some id } }
  | .push =>
    -- Only clients can receive push stream.
    if s.http3.isServer then closeWith .streamCreationError "Server received push stream."
    else pure ()
  | .qpackEncoder =>
    if s.http3.peerEncoderStreamId.isSome then
      closeWith .streamCreationError "Received multiple QPACK encoder streams"
    else set { s with http3 := { s.http3 with peerEncoderStreamId := some id } }
  | .qpackDecoder =>
    if s.http3.peerDecoderStreamId.isSome then
      closeWith .streamCreationError "Received multiple QPACK decoder streams"
    else set { s with http3 := { s.http3 with peerDecoderStreamId := some id } }
  | .unknown => pure ()
  | .request => Program.crash

/-- Runs a transition of the stream `id`; in case of an error, closes the transport. -/
def orClose (id : ℕ) (x : Program Error Stream Unit) (reason : Error → String) :
    Program Error Session Unit := do
  match ← Program.attempt (onStream id x) with
  | .ok () => pure ()
  | .error e => closeWith e (reason e)

/-- Fills the buffer and goes on with the integer in it, if it is complete. -/
def withVarint (id : ℕ) (f : ℕ → Program Error Session Unit) : Program Error Session Unit := do
  tryFillBuffer id
  match ← Program.attempt (onStream id Stream.tryConsumeVarint) with
  | .ok v => f v
  | .error _ => pure ()

/-- One turn of the parser's loop. -/
def processState (id : ℕ) (state : State) (env : Env) :
    Program Error Session (Option (ℕ × Event)) :=
  match state with
  | .streamType => do
    withVarint id fun v => do
      let ty := StreamType.deserialize v
      orClose id (Stream.setTy ty) fun _ => ""
      openStream id ty
    pure none
  | .pushId => do
    withVarint id fun v => orClose id (Stream.setPushId v) fun _ => ""
    pure none
  | .frameType => do
    withVarint id fun v => orClose id (Stream.setFrameType v) fun e =>
      if e = .frameUnexpected then "Unexpected frame type " ++ toString v
      else "Error handling frame."
    pure none
  | .framePayloadLen => do
    withVarint id fun v => orClose id (Stream.setFramePayloadLen v) fun _ => ""
    pure none
  | .framePayload => do
    tryFillBuffer id
    match ← Program.attempt (onStream id Stream.tryConsumeFrame) with
    | .ok frame =>
      match ← Program.attempt (processFrame id frame env) with
      | .ok ev => pure ev
      -- the transport is closed already
      | .error .done => pure none
      | .error e => Program.fail e
    | .error .done => Program.fail .done
    | .error e => closeWith e "Error handling frame."
  | .data => pure (some (id, .data))
  | .qpackInstruction => do
    -- Read data from the stream and discard immediately.
    discard (transport (Dtp.Connection.streamRecv id 4096))
    pure none
  | .drain => do
    -- Discard incoming data on the stream.
    transport (Dtp.Connection.streamShutdown id .read)
    Program.fail .done

/-- The parser's loop, with a bound on its turns. -/
def processLoop (id : ℕ) (env : Env) : ℕ → Program Error Session (ℕ × Event)
  | 0 => throw .hang
  | fuel + 1 => do
    let s ← get
    match s.http3.streams id with
    | none => Program.fail .done
    | some stream =>
      match ← processState id stream.state env with
      | some ev => pure ev
      | none => processLoop id env fuel

/-- The bytes that the transport holds of a stream. -/
def unread (s : Session) (id : ℕ) : ℕ :=
  match s.conn.streams.streams id with
  | some stream => stream.recv.len - stream.recv.off
  | none => 0

/-- Parses what has arrived on a stream, up to the first event. -/
def processReadableStream (id : ℕ) (env : Env) : Program Error Session (ℕ × Event) := do
  modify fun s => if (s.http3.streams id).isSome then s else s.putStream id (Stream.new id false)
  -- at most one turn in two reads nothing, and one reads the end of the stream
  processLoop id env (2 * (← get).unread id + 3)

/-- The event, if there is one. Other errors than `Done` are passed on. -/
def eventOrDone (id : ℕ) (x : Program Error Session (ℕ × Event)) :
    Program Error Session (Option (ℕ × Event)) := do
  match ← Program.attempt x with
  | .ok ev => pure (some ev)
  | .error .done => pure none
  | .error e => do
    record id (.failed e)
    Program.fail e

/-- Parses a stream of the peer that must not be closed. -/
def processControlStream (id : ℕ) (env : Env) : Program Error Session Unit := do
  if (← get).streamFinished id then closeWith .closedCriticalStream "Critical stream closed."
  else
    discard (eventOrDone id (processReadableStream id env))
    if (← get).streamFinished id then
      closeWith .closedCriticalStream "Critical stream closed."
    else pure ()

/-- Parses the stream of the peer, if there is one. -/
def processCritical (stream : Connection → Option ℕ) (env : Env) : Program Error Session Unit := do
  match stream (← get).http3 with
  | some id => processControlStream id env
  | none => pure ()

/-- Parses some streams, up to the first event. -/
def processReadable (env : Env) : List ℕ → Program Error Session (ℕ × Event)
  | [] => Program.fail .done
  | id :: ids => do
    let ev ← eventOrDone id (processReadableStream id env)
    queueFinished id
    match ev with
    | some ev => pure ev
    | none => processReadable env ids

/-- Processes HTTP/3 data received from the peer. Readable streams are visited in the given order,
if it is an order of them. -/
def pollEvent (order : List ℕ) (env : Env) : Program Error Session (ℕ × Event) := do
  let s ← get
  -- The connection might be in a broken state, so return early.
  if s.conn.isClosing then Program.fail .done
  else
    -- Process control streams first.
    processCritical Connection.peerControlStreamId env
    processCritical Connection.peerEncoderStreamId env
    processCritical Connection.peerDecoderStreamId env
    let s ← get
    match s.http3.finishedStreams with
    -- Process finished streams list.
    | id :: ids =>
      set { s with http3 := { s.http3 with finishedStreams := ids } }
      pure (id, .finished)
    -- Process HTTP/3 data from readable streams.
    | [] => processReadable env (inOrder order s.conn.streams.readable)

/-- Processes received data, and records the event. -/
def poll (order : List ℕ) (env : Env) : Program Error Session (ℕ × Event) := do
  let ev ← pollEvent order env
  record ev.1 (.event ev.2)
  pure ev

/-- Reads request or response body data. -/
def recvBody (id cap : ℕ) : Program Error Session (List UInt8) := do
  match (← get).http3.streams id with
  | none => Program.fail .done
  | some stream =>
    if stream.state ≠ .data then Program.fail .done
    else
      let data ← tryConsumeData id cap
      forM data fun b => record id (.byte b)
      -- The stream is finished only when all data is read by the application.
      queueFinished id
      pure data

/-! ### Writing the parts of a frame -/

variable {s : Session}

theorem transport_apply {α : Type} (x : Program Dtp.Error Dtp.Connection α) (s : Session) :
    transport x s = match x s.conn with
      | .ok a c => .ok a { s with conn := c }
      | .error e c => .error (e.map Error.ofTransport) { s with conn := c } := by
  unfold transport Program.embed
  cases x s.conn <;> rfl

private theorem putVarint_apply {v : ℕ} (hv : v < 2 ^ 62) {b : Octets}
    (hroom : varintLen v ≤ b.after.length) (s : Session) :
    putVarint v b s =
      .ok (varintBytes v, ⟨b.before ++ varintBytes v, b.after.drop (varintLen v)⟩) s := by
  have hwrites := Octets.putVarint_writes hv b.before b.after (by rwa [varintBytes_length])
  unfold putVarint
  rw [hwrites, varintBytes_length]
  dsimp only
  rw [List.drop_left]
  rfl

theorem ends_putVarint_bind {α : Type} {v : ℕ} (hv : v < 2 ^ 62) {b : Octets}
    (hroom : varintLen v ≤ b.after.length) {f : List UInt8 × Octets → Program Error Session α}
    {Q : α → Session → Prop} {E : Lib.Fault Error → Session → Prop} :
    (putVarint v b >>= f).Ends s Q E ↔
      (f (varintBytes v, ⟨b.before ++ varintBytes v, b.after.drop (varintLen v)⟩)).Ends s Q E := by
  unfold Program.Ends
  rw [Program.bind_apply, putVarint_apply hv hroom]

end Session

end Dtp.H3
