import Dtp.Octets
import Dtp.PacketTypes

/-!
# Encoding frames

Frames are written field by field, and read back in the same order. The type of a frame comes
first, and all but the data of a redundant packet have one. An ACK frame lists its ranges in
descending order, the first by its largest number and the others by the gaps between them.

## Main definitions

* `Frame.fromBytes`, `Frame.toBytes` — reading and writing a frame
* `Frame.bytes` — the encoding of a frame
* `Frame.WellFormed` — the fields of a frame have encodings
* `Frame.parseAll` — the loop over the frames of a payload
-/

namespace Dtp

open Lib (Program Cursor beBytes)
open Lib.Cursor (Reads Writes Parses)

/-- A sum of `u64` integers, which panics if it overflows. -/
def addU64 {σ : Type} (a b : ℕ) : Program Error σ ℕ :=
  if a + b ≤ u64Max then pure (a + b) else Program.crash

/-- A difference of unsigned integers, which panics if it underflows. -/
def subU64 {σ : Type} (a b : ℕ) : Program Error σ ℕ :=
  Program.unwrapSub (if b ≤ a then some (a - b) else none)

theorem addU64_of_le {σ : Type} {a b : ℕ} (h : a + b ≤ u64Max) :
    (addU64 a b : Program Error σ ℕ) = pure (a + b) := if_pos h

theorem subU64_of_le {σ : Type} {a b : ℕ} (h : b ≤ a) : (subU64 a b : Program Error σ ℕ) = pure
    (a - b) := by
  rw [subU64, if_pos h, Program.unwrapSub_some]

namespace Frame

open Octets

/-- The end of the data of a stream. -/
def maxStreamSize : ℕ := 2 ^ 62

/-! ### Reading -/

/-- PADDING, of which one byte was read: all zero bytes that follow belong to it. -/
def parsePadding : Program Error Octets Frame := do
  let b ← get
  let zeros ← getBytes (b.after.takeWhile fun v => v == 0).length
  pure (.padding (1 + zeros.length))

/-- The ACK blocks after the first one. -/
def parseAckBlocks : ℕ → ℕ → RangeSet → Program Error Octets RangeSet
  | 0, _, ranges => pure ranges
  | count + 1, smallestAck, ranges => do
    let gap ← getVarint
    if smallestAck < (← addU64 2 gap) then Program.fail .invalidFrame
    else
      let largestAck ← subU64 (← subU64 smallestAck gap) 2
      let ackBlock ← getVarint
      if largestAck < ackBlock then Program.fail .invalidFrame
      else
        let smallestAck ← subU64 largestAck ackBlock
        parseAckBlocks count smallestAck (ranges.insert (smallestAck, ← addU64 largestAck 1))

/-- Parses the ranges of an ACK frame, from the largest down. -/
def parseAckFrame : Program Error Octets Frame := do
  let largestAck ← getVarint
  let packetTime ← getVarint
  let ackDelay ← getVarint
  let blockCount ← getVarint
  let ackBlock ← getVarint
  if largestAck < ackBlock then Program.fail .invalidFrame
  else
    let smallestAck ← subU64 largestAck ackBlock
    let first := RangeSet.empty.insert (smallestAck, ← addU64 largestAck 1)
    let ranges ← parseAckBlocks blockCount smallestAck first
    pure (.ack packetTime ackDelay ranges)

/-- STREAM: the type says whether there are an offset and a length. -/
def parseStreamFrame (ty : ℕ) : Program Error Octets Frame := do
  let first := ty % 256
  let streamId ← getVarint
  let offset ← (if first &&& 0x04 ≠ 0 then getVarint else pure 0)
  let len ← (if first &&& 0x02 ≠ 0 then getVarint else cap <$> get)
  if maxStreamSize ≤ (← addU64 offset len) then Program.fail .invalidFrame
  else
    let data ← getBytes len
    pure (.stream streamId ⟨data, offset, decide (first &&& 0x01 ≠ 0)⟩)

/-- The frame whose type was read. -/
def parse (frameType : ℕ) : Program Error Octets Frame :=
  match frameType with
  | 0x00 => parsePadding
  | 0x01 => pure .ping
  | 0x02 => parseAckFrame
  | 0x04 => do
    let streamId ← getVarint
    let errorCode ← getU16
    let finalSize ← getVarint
    pure (.resetStream streamId errorCode finalSize)
  | 0x05 => do
    let streamId ← getVarint
    let errorCode ← getVarint
    pure (.stopSending streamId errorCode)
  | 0x06 => do
    let offset ← getVarint
    let data ← getBytesWithVarintLength
    pure (.crypto ⟨data, offset, false⟩)
  | 0x07 => do
    let token ← getBytesWithVarintLength
    pure (.newToken token)
  | 0x10 => do
    let max ← getVarint
    pure (.maxData max)
  | 0x11 => do
    let streamId ← getVarint
    let max ← getVarint
    pure (.maxStreamData streamId max)
  | 0x12 => do
    let max ← getVarint
    pure (.maxStreamsBidi max)
  | 0x13 => do
    let max ← getVarint
    pure (.maxStreamsUni max)
  | 0x14 => do
    let limit ← getVarint
    pure (.dataBlocked limit)
  | 0x15 => do
    let streamId ← getVarint
    let limit ← getVarint
    pure (.streamDataBlocked streamId limit)
  | 0x16 => do
    let limit ← getVarint
    pure (.streamsBlockedBidi limit)
  | 0x17 => do
    let limit ← getVarint
    pure (.streamsBlockedUni limit)
  | 0x18 => do
    let seqNum ← getVarint
    let retirePriorTo ← getVarint
    let connId ← getBytesWithU8Length
    let resetToken ← getBytes 16
    pure (.newConnectionId seqNum retirePriorTo connId resetToken)
  | 0x19 => do
    let seqNum ← getVarint
    pure (.retireConnectionId seqNum)
  | 0x1a => do
    let data ← getBytes 8
    pure (.pathChallenge data)
  | 0x1b => do
    let data ← getBytes 8
    pure (.pathResponse data)
  | 0x1c => do
    let errorCode ← getVarint
    let frameType ← getVarint
    let reason ← getBytesWithVarintLength
    pure (.connectionClose errorCode frameType reason)
  | 0x1d => do
    let errorCode ← getVarint
    let reason ← getBytesWithVarintLength
    pure (.applicationClose errorCode reason)
  | 0x1e => pure .handshakeDone
  | 0x20 => do
    let streamId ← getVarint
    let blockSize ← getVarint
    let blockPriority ← getVarint
    let blockDeadline ← getVarint
    let startTime ← getVarint
    pure (.blockInfo streamId blockSize blockPriority blockDeadline startTime)
  | ty => if 0x08 ≤ ty ∧ ty ≤ 0x0f then parseStreamFrame ty else Program.fail .invalidFrame

/-- Reads a frame of a packet of the given type. -/
def fromBytes (pkt : PacketType) : Program Error Octets Frame := do
  let frameType ← getVarint
  let frame ← parse frameType
  if frame.allowed pkt then pure frame else Program.fail .invalidPacket

/-- The loop over the frames of a payload: the frames before the first error, and the error. -/
def parseAll (pkt : PacketType) (payload : List UInt8) : List Frame × Option Fault :=
  Cursor.collect (fromBytes pkt) payload.length ⟨[], payload⟩

/-! ### Writing -/

/-- The ACK blocks after the first one, in descending order. -/
def putAckBlocks : ℕ → List (ℕ × ℕ) → Program Error Octets Unit
  | _, [] => pure ()
  | smallestAck, block :: blocks => do
    let gap ← subU64 (← subU64 smallestAck block.2) 1
    let ackBlock ← subU64 (← subU64 block.2 1) block.1
    putVarint gap
    putVarint ackBlock
    putAckBlocks block.1 blocks

/-- Writes a frame; `shard` is the data of a redundant packet, which its frame knows by its length.
-/
def put (shard : List UInt8) : Frame → Program Error Octets Unit
  | .padding len => putVarints (List.replicate len 0x00)
  | .ping => putVarint 0x01
  | .ack packetTime ackDelay ranges => do
    putVarint 0x02
    match ranges.inner.reverse with
    | [] => Program.crash
    | first :: blocks => do
      let largestAck ← subU64 first.2 1
      let ackBlock ← subU64 largestAck first.1
      putVarints [largestAck, packetTime, ackDelay, blocks.length, ackBlock]
      putAckBlocks first.1 blocks
  | .blockInfo streamId blockSize blockPriority blockDeadline startTime => do
    putVarint 0x20
    putVarints [streamId, blockSize, blockPriority, blockDeadline, startTime]
  | .resetStream streamId errorCode finalSize => do
    putVarint 0x04
    putVarint streamId
    putU16 errorCode
    putVarint finalSize
  | .stopSending streamId errorCode => do
    putVarint 0x05
    putVarints [streamId, errorCode]
  | .crypto data => do
    putVarint 0x06
    putVarints [data.off, data.len]
    putBytes data.data
  | .newToken token => do
    putVarint 0x07
    putVarints [token.length]
    putBytes token
  | .stream streamId data => do
    -- Always encode offset and length
    putVarint (0x08 ||| 0x04 ||| 0x02 ||| if data.fin then 0x01 else 0)
    putVarints [streamId, data.off, data.len]
    putBytes data.data
  | .maxData max => do
    putVarint 0x10
    putVarints [max]
  | .maxStreamData streamId max => do
    putVarint 0x11
    putVarints [streamId, max]
  | .maxStreamsBidi max => do
    putVarint 0x12
    putVarints [max]
  | .maxStreamsUni max => do
    putVarint 0x13
    putVarints [max]
  | .dataBlocked limit => do
    putVarint 0x14
    putVarints [limit]
  | .streamDataBlocked streamId limit => do
    putVarint 0x15
    putVarints [streamId, limit]
  | .streamsBlockedBidi limit => do
    putVarint 0x16
    putVarints [limit]
  | .streamsBlockedUni limit => do
    putVarint 0x17
    putVarints [limit]
  | .newConnectionId seqNum retirePriorTo connId resetToken => do
    putVarint 0x18
    putVarints [seqNum, retirePriorTo]
    putU8 connId.length
    putBytes connId
    putBytes resetToken
  | .retireConnectionId seqNum => do
    putVarint 0x19
    putVarints [seqNum]
  | .pathChallenge data => do
    putVarint 0x1a
    putBytes data
  | .pathResponse data => do
    putVarint 0x1b
    putBytes data
  | .connectionClose errorCode frameType reason => do
    putVarint 0x1c
    putVarints [errorCode, frameType, reason.length]
    putBytes reason
  | .applicationClose errorCode reason => do
    putVarint 0x1d
    putVarints [errorCode, reason.length]
    putBytes reason
  | .handshakeDone => putVarint 0x1e
  | .fec _ _ => putBytes shard

/-- Writes a frame, and returns how many bytes were written. -/
def toBytes (shard : List UInt8) (f : Frame) : Program Error Octets ℕ := do
  let before ← get
  put shard f
  let after ← get
  pure (before.cap - after.cap)

/-! ### Encodings -/

/-- The type that a frame starts with. -/
def tag : Frame → ℕ
  | .padding _ => 0x00
  | .ping => 0x01
  | .ack _ _ _ => 0x02
  | .resetStream _ _ _ => 0x04
  | .stopSending _ _ => 0x05
  | .crypto _ => 0x06
  | .newToken _ => 0x07
  | .stream _ data => 0x08 ||| 0x04 ||| 0x02 ||| if data.fin then 0x01 else 0
  | .maxData _ => 0x10
  | .maxStreamData _ _ => 0x11
  | .maxStreamsBidi _ => 0x12
  | .maxStreamsUni _ => 0x13
  | .dataBlocked _ => 0x14
  | .streamDataBlocked _ _ => 0x15
  | .streamsBlockedBidi _ => 0x16
  | .streamsBlockedUni _ => 0x17
  | .newConnectionId _ _ _ _ => 0x18
  | .retireConnectionId _ => 0x19
  | .pathChallenge _ => 0x1a
  | .pathResponse _ => 0x1b
  | .connectionClose _ _ _ => 0x1c
  | .applicationClose _ _ => 0x1d
  | .handshakeDone => 0x1e
  | .blockInfo _ _ _ _ _ => 0x20
  | .fec _ _ => 0x00

/-- The ACK blocks after the first one, in descending order. -/
def ackBlocksBytes : ℕ → List (ℕ × ℕ) → List UInt8
  | _, [] => []
  | smallestAck, block :: blocks =>
    varintBytes (smallestAck - block.2 - 1) ++
      (varintBytes (block.2 - 1 - block.1) ++ ackBlocksBytes block.1 blocks)

/-- What follows the type of a frame. -/
def body : Frame → List UInt8
  | .padding len => List.replicate (len - 1) 0
  | .ack packetTime ackDelay ranges =>
    match ranges.inner.reverse with
    | [] => []
    | first :: blocks =>
      [first.2 - 1, packetTime, ackDelay, blocks.length,
        first.2 - 1 - first.1].flatMap varintBytes ++
        ackBlocksBytes first.1 blocks
  | .resetStream streamId errorCode finalSize =>
    varintBytes streamId ++ (beBytes 2 errorCode ++ varintBytes finalSize)
  | .stopSending streamId errorCode => [streamId, errorCode].flatMap varintBytes
  | .crypto data => [data.off, data.len].flatMap varintBytes ++ data.data
  | .newToken token => [token.length].flatMap varintBytes ++ token
  | .stream streamId data => [streamId, data.off, data.len].flatMap varintBytes ++ data.data
  | .maxData v | .maxStreamsBidi v | .maxStreamsUni v | .dataBlocked v | .streamsBlockedBidi v
  | .streamsBlockedUni v | .retireConnectionId v => [v].flatMap varintBytes
  | .maxStreamData streamId v | .streamDataBlocked streamId v => [streamId, v].flatMap varintBytes
  | .newConnectionId seqNum retirePriorTo connId resetToken =>
    [seqNum, retirePriorTo].flatMap varintBytes ++
    (beBytes 1 connId.length ++ (connId ++ resetToken))
  | .pathChallenge data | .pathResponse data => data
  | .connectionClose errorCode frameType reason =>
    [errorCode, frameType, reason.length].flatMap varintBytes ++ reason
  | .applicationClose errorCode reason => [errorCode, reason.length].flatMap varintBytes ++ reason
  | .blockInfo streamId blockSize blockPriority blockDeadline startTime =>
    [streamId, blockSize, blockPriority, blockDeadline, startTime].flatMap varintBytes
  | .ping | .handshakeDone | .fec _ _ => []

/-- The encoding of a frame, redundant data excepted. -/
def bytes (f : Frame) : List UInt8 := varintBytes f.tag ++ f.body

/-- The fields of the frame have encodings. A frame of PADDING has a byte at least, and redundant
data is no frame on the wire. -/
def WellFormed : Frame → Prop
  | .padding len => 1 ≤ len
  | .ack packetTime ackDelay ranges => packetTime < 2 ^ 62 ∧ ackDelay < 2 ^ 62 ∧
    ranges.isEmpty = false ∧ ranges.Canonical ∧ ∀ x, ranges.Has x → x < 2 ^ 62
  | .resetStream streamId errorCode finalSize =>
    streamId < 2 ^ 62 ∧ errorCode < 2 ^ 16 ∧ finalSize < 2 ^ 62
  | .stopSending streamId errorCode => streamId < 2 ^ 62 ∧ errorCode < 2 ^ 62
  | .crypto data => data.off < 2 ^ 62 ∧ data.len < 2 ^ 62
  | .newToken token => token.length < 2 ^ 62
  | .stream streamId data => streamId < 2 ^ 62 ∧ data.off + data.len < 2 ^ 62
  | .maxData v | .maxStreamsBidi v | .maxStreamsUni v | .dataBlocked v | .streamsBlockedBidi v
  | .streamsBlockedUni v | .retireConnectionId v => v < 2 ^ 62
  | .maxStreamData streamId v | .streamDataBlocked streamId v => streamId < 2 ^ 62 ∧ v < 2 ^ 62
  | .newConnectionId seqNum retirePriorTo connId resetToken =>
    seqNum < 2 ^ 62 ∧ retirePriorTo < 2 ^ 62 ∧ connId.length ≤ 255 ∧ resetToken.length = 16
  | .pathChallenge data | .pathResponse data => data.length = 8
  | .connectionClose errorCode frameType reason =>
    errorCode < 2 ^ 62 ∧ frameType < 2 ^ 62 ∧ reason.length < 2 ^ 62
  | .applicationClose errorCode reason => errorCode < 2 ^ 62 ∧ reason.length < 2 ^ 62
  | .blockInfo streamId blockSize blockPriority blockDeadline startTime =>
    streamId < 2 ^ 62 ∧ blockSize < 2 ^ 62 ∧ blockPriority < 2 ^ 62 ∧ blockDeadline < 2 ^ 62 ∧
      startTime < 2 ^ 62
  | .ping | .handshakeDone => True
  | .fec _ _ => False

/-- The frame as it is read back: CRYPTO frames have no FIN flag. -/
def readBack : Frame → Frame
  | .crypto data => .crypto { data with fin := false }
  | f => f

/-- `PartialEq` for frames, which compares the data of streams by its offset. -/
def eq : Frame → Frame → Bool
  | .crypto data, .crypto data' => data.off == data'.off
  | .stream streamId data, .stream streamId' data' => streamId == streamId' && data.off == data'.off
  | f, g => decide (f = g)

theorem eq_readBack (f : Frame) : f.eq f.readBack = true := by
  cases f <;> simp [eq, readBack]

end Frame

end Dtp
