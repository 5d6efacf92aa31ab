import Dtp.H3.Frame
import Dtp.Stream

/-!
# Streams of HTTP/3

A stream is parsed in states: its type, the type and the length of a frame, and the payload of
the frame. The bytes of a state are collected in a buffer until there are enough of them.

## Main definitions

* `H3.Stream` — what is known of a stream, and the buffer for the current state
* `H3.Stream.setTy`, `H3.Stream.setFrameType`, `H3.Stream.setFramePayloadLen` — the transitions
* `H3.Stream.tryConsumeVarint`, `H3.Stream.tryConsumeFrame` — what a full buffer holds
-/

namespace Dtp.H3

open Lib (Program)

/-- The types of streams. -/
inductive StreamType
  | control
  | request
  | push
  | qpackEncoder
  | qpackDecoder
  | unknown
  deriving DecidableEq, Repr

/-- The type that is sent at the start of a unidirectional stream. -/
def StreamType.deserialize : ℕ → StreamType
  | 0x0 => .control
  | 0x1 => .push
  | 0x2 => .qpackEncoder
  | 0x3 => .qpackDecoder
  | _ => .unknown

/-- What a stream is read for. -/
inductive State
  /-- Reading the stream's type. -/
  | streamType
  /-- Reading the stream's current frame's type. -/
  | frameType
  /-- Reading the stream's current frame's payload length. -/
  | framePayloadLen
  /-- Reading the stream's current frame's payload. -/
  | framePayload
  /-- Reading DATA payload. -/
  | data
  /-- Reading the push ID. -/
  | pushId
  /-- Reading a QPACK instruction. -/
  | qpackInstruction
  /-- Reading and discarding data. -/
  | drain
  deriving DecidableEq, Repr

/-- The longest payload that is buffered. -/
def maxStateBufSize : ℕ := 1 <<< 24 - 1

/-- An HTTP/3 stream. -/
structure Stream where
  id : ℕ
  /-- The stream's type, if known. -/
  ty : Option StreamType
  state : State
  /-- The buffer holding partial data for the current state. -/
  stateBuf : List UInt8
  /-- The amount of bytes required to complete the state, and how many were read. -/
  stateLen : ℕ
  stateOff : ℕ
  /-- The type of the frame being parsed. -/
  frameType : Option ℕ
  isLocal : Bool
  initialized : Bool
  deriving DecidableEq, Repr

/-- `Vec::resize` with zeros. -/
def resize (buf : List UInt8) (len : ℕ) : List UInt8 :=
  buf.take len ++ List.replicate (len - buf.length) 0

namespace Stream

/-- A stream of which nothing is read. The type of a request stream is known. -/
def new (id : ℕ) (isLocal : Bool) : Stream where
  id := id
  ty := if isBidi id then some .request else none
  state := if isBidi id then .frameType else .streamType
  stateBuf := List.replicate 16 0
  -- Expect one byte for the initial state, to parse the initial varint length.
  stateLen := 1
  stateOff := 0
  frameType := none
  isLocal := isLocal
  initialized := false

/-- Transitions the stream to a new state, and optionally resets the state buffer. -/
def stateTransition (newState : State) (expectedLen : ℕ) (reset : Bool) :
    Program Error Stream Unit := do
  modify fun s => { s with state := newState, stateOff := 0, stateLen := expectedLen }
  -- A peer can influence the size of the state buffer, so we need to limit it.
  if reset ∧ expectedLen > maxStateBufSize then Program.fail .internalError
  else if reset then modify fun s => { s with stateBuf := resize s.stateBuf expectedLen }
  else pure ()

/-- `assert_eq!` on the state. -/
def assertState (state : State) : Program Error Stream Unit := do
  if (← get).state = state then pure () else Program.crash

/-- Sets the stream's type and transitions to the next state. -/
def setTy (ty : StreamType) : Program Error Stream Unit := do
  assertState .streamType
  modify fun s => { s with ty := some ty }
  match ty with
  | .control | .request => stateTransition .frameType 1 true
  | .push => stateTransition .pushId 1 true
  | .qpackEncoder | .qpackDecoder => do
    modify fun s => { s with initialized := true }
    stateTransition .qpackInstruction 1 true
  | .unknown => stateTransition .drain 1 true

/-- Sets the push ID and transitions to the next state. -/
def setPushId (_id : ℕ) : Program Error Stream Unit := do
  assertState .pushId
  stateTransition .frameType 1 true

/-- Whether a frame of the type may come on the stream, and whether the stream is initialized then.
-/
def checkFrameType (s : Stream) (ty : ℕ) : Except Error Bool :=
  match s.ty with
  | some .control =>
    match ty, s.initialized with
    -- Initialize control stream.
    | settingsFrameTypeId, false => .ok true
    -- Non-SETTINGS frames not allowed on control stream before initialization.
    | _, false => .error .missingSettings
    -- Additional SETTINGS frame.
    | settingsFrameTypeId, true => .error .frameUnexpected
    -- Frames that can't be received on control stream after initialization.
    | dataFrameTypeId, true => .error .frameUnexpected
    | headersFrameTypeId, true => .error .frameUnexpected
    | pushPromiseFrameTypeId, true => .error .frameUnexpected
    | duplicatePushFrameTypeId, true => .error .frameUnexpected
    -- All other frames are ignored after initialization.
    | _, true => .ok s.initialized
  | some .request =>
    if s.isLocal then .ok s.initialized
    else
      match ty, s.initialized with
      | headersFrameTypeId, false => .ok true
      | cancelPushFrameTypeId, _ => .error .frameUnexpected
      | settingsFrameTypeId, _ => .error .frameUnexpected
      | goawayFrameTypeId, _ => .error .frameUnexpected
      | maxPushFrameTypeId, _ => .error .frameUnexpected
      -- All other frames can be ignored regardless of stream state.
      | _, _ => .ok s.initialized
  | some .push =>
    match ty with
    | cancelPushFrameTypeId => .error .frameUnexpected
    | settingsFrameTypeId => .error .frameUnexpected
    | pushPromiseFrameTypeId => .error .frameUnexpected
    | goawayFrameTypeId => .error .frameUnexpected
    | maxPushFrameTypeId => .error .frameUnexpected
    | duplicatePushFrameTypeId => .error .frameUnexpected
    | _ => .ok s.initialized
  | _ => .error .frameUnexpected

/-- Sets the frame type and transitions to the next state. -/
def setFrameType (ty : ℕ) : Program Error Stream Unit := do
  assertState .frameType
  let s ← get
  let initialized ← Program.ofExcept (s.checkFrameType ty)
  set { s with initialized := initialized, frameType := some ty }
  stateTransition .framePayloadLen 1 true

/-- Sets the frame's payload length and transitions to the next state. -/
def setFramePayloadLen (len : ℕ) : Program Error Stream Unit := do
  assertState .framePayloadLen
  let s ← get
  -- Only expect frames on Control, Request and Push streams.
  if s.ty = some .control ∨ s.ty = some .request ∨ s.ty = some .push then
    match s.frameType with
    | some dataFrameTypeId => stateTransition .data len false
    | _ => stateTransition .framePayload len true
  else Program.fail .internalError

/-- Returns true if the state buffer has enough data to complete the state. -/
def stateBufferComplete (s : Stream) : Bool := s.stateOff == s.stateLen

/-- Stores what was read into the buffer for the state. -/
def fill (data : List UInt8) (s : Stream) : Stream :=
  { s with
    stateBuf := s.stateBuf.take s.stateOff ++ data ++ s.stateBuf.drop (s.stateOff + data.length)
    stateOff := s.stateOff + data.length }

/-- Tries to parse an integer of variable length from the state buffer. -/
def tryConsumeVarint : Program Error Stream ℕ := do
  modify fun s =>
    if s.stateOff = 1 then
      let len := varintParseLen (s.stateBuf.headD 0)
      { s with stateLen := len, stateBuf := resize s.stateBuf len }
    else s
  let s ← get
  -- Return early if we don't have enough data in the state buffer.
  if !s.stateBufferComplete then Program.fail .done
  else
    match Octets.getVarint ⟨[], s.stateBuf⟩ with
    | .ok v _ => pure v
    | .error (.error _) _ => Program.fail .bufferTooShort
    | .error e _ => throw (match e with | .underflow => .underflow | .hang => .hang | _ => .panic)

/-- Tries to parse a frame from the state buffer. -/
def tryConsumeFrame : Program Error Stream Frame := do
  let s ← get
  let frameType ← Program.unwrap s.frameType
  match Frame.fromBytes frameType s.stateLen ⟨[], s.stateBuf⟩ with
  | .ok frame _ => do
    stateTransition .frameType 1 true
    pure frame
  | .error (.error _) _ => Program.fail .bufferTooShort
  | .error e _ => throw (match e with | .underflow => .underflow | .hang => .hang | _ => .panic)

end Stream

end Dtp.H3
