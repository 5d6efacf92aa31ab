import Dtp.Error
import Dtp.RangeBuf
import Dtp.Ranges

/-!
# Frames and packets

The frames that packets carry, with the number of bytes they take, and the packet
number spaces in which packets are counted.

## Main definitions

* `Frame`, `Frame.wireLen`, `Frame.ackEliciting`
* `Epoch`, `PacketType`, `PktNumWindow`
* `Frame.allowed` — the frames that `Frame::from_bytes` lets into a packet of a type
-/

namespace Dtp

/-- Where a packet stands in its FEC group; group 0 is none. -/
structure FecStatus where
  m : ℕ
  n : ℕ
  groupId : ℕ
  index : ℕ
  deriving DecidableEq, Repr

/-- The status of a packet without FEC. -/
def FecStatus.none : FecStatus := ⟨0, 0, 0, 0⟩

/-- The frames of a packet. The data of redundant packets is known by its length. -/
inductive Frame
  | padding (len : ℕ)
  | ping
  | ack (packetTime ackDelay : ℕ) (ranges : RangeSet)
  | blockInfo (streamId blockSize blockPriority blockDeadline startTime : ℕ)
  | resetStream (streamId errorCode finalSize : ℕ)
  | stopSending (streamId errorCode : ℕ)
  | crypto (data : RangeBuf)
  | newToken (token : List UInt8)
  | stream (streamId : ℕ) (data : RangeBuf)
  | maxData (max : ℕ)
  | maxStreamData (streamId max : ℕ)
  | maxStreamsBidi (max : ℕ)
  | maxStreamsUni (max : ℕ)
  | dataBlocked (limit : ℕ)
  | streamDataBlocked (streamId limit : ℕ)
  | streamsBlockedBidi (limit : ℕ)
  | streamsBlockedUni (limit : ℕ)
  | newConnectionId (seqNum retirePriorTo : ℕ) (connId resetToken : List UInt8)
  | retireConnectionId (seqNum : ℕ)
  | pathChallenge (data : List UInt8)
  | pathResponse (data : List UInt8)
  | connectionClose (errorCode frameType : ℕ) (reason : List UInt8)
  | applicationClose (errorCode : ℕ) (reason : List UInt8)
  | handshakeDone
  | fec (info : FecStatus) (dataLen : ℕ)
  deriving DecidableEq

/-- How long the encoding of `v` as a variable-length integer is, for `v < 2 ^ 62`. -/
def varintLen (v : ℕ) : ℕ :=
  if v ≤ 63 then 1 else if v ≤ 16383 then 2 else if v ≤ 1073741823 then 4 else 8

theorem varintLen_pos (v : ℕ) : 1 ≤ varintLen v := by
  unfold varintLen
  split_ifs <;> omega

theorem varintLen_le (v : ℕ) : varintLen v ≤ 8 := by
  unfold varintLen
  split_ifs <;> omega

theorem varintLen_mono {v w : ℕ} (h : v ≤ w) : varintLen v ≤ varintLen w := by
  unfold varintLen
  split_ifs <;> omega

theorem varintLen_le_two {v : ℕ} (h : v < 2 ^ 14) : varintLen v ≤ 2 := by
  unfold varintLen
  split_ifs <;> omega

theorem varintLen_le_four {v : ℕ} (h : v < 2 ^ 30) : varintLen v ≤ 4 := by
  unfold varintLen
  split_ifs <;> omega

/-- The largest overhead of a CRYPTO frame. -/
def maxCryptoOverhead : ℕ := 8

/-- The largest overhead of a STREAM frame, as far as `send` allows for it. -/
def maxStreamOverhead : ℕ := 12

namespace Frame

/-- The length of the ACK blocks after the first, in descending order. -/
def ackBlocksLen : ℕ → List (ℕ × ℕ) → ℕ
  | _, [] => 0
  | smallestAck, block :: blocks =>
    varintLen (smallestAck - block.2 - 1) + varintLen (block.2 - 1 - block.1)
      + ackBlocksLen block.1 blocks

/-- The number of bytes that the frame takes in a packet. -/
def wireLen : Frame → ℕ
  | .padding len => len
  | .ping => 1
  | .ack packetTime ackDelay ranges =>
    match ranges.inner.reverse with
    | [] => 0
    | first :: rest =>
      1 + varintLen (first.2 - 1) + varintLen packetTime + varintLen ackDelay
        + varintLen rest.length + varintLen (first.2 - 1 - first.1) + ackBlocksLen first.1 rest
  | .blockInfo streamId blockSize blockPriority blockDeadline startTime =>
    1 + varintLen streamId + varintLen blockSize + varintLen blockPriority
      + varintLen blockDeadline + varintLen startTime
  | .resetStream streamId _ finalSize => 1 + varintLen streamId + 2 + varintLen finalSize
  | .stopSending streamId errorCode => 1 + varintLen streamId + varintLen errorCode
  | .crypto data => 1 + varintLen data.off + varintLen data.len + data.len
  | .newToken token => 1 + varintLen token.length + token.length
  | .stream streamId data =>
    1 + varintLen streamId + varintLen data.off + varintLen data.len + data.len
  | .maxData max => 1 + varintLen max
  | .maxStreamData streamId max => 1 + varintLen streamId + varintLen max
  | .maxStreamsBidi max => 1 + varintLen max
  | .maxStreamsUni max => 1 + varintLen max
  | .dataBlocked limit => 1 + varintLen limit
  | .streamDataBlocked streamId limit => 1 + varintLen streamId + varintLen limit
  | .streamsBlockedBidi limit => 1 + varintLen limit
  | .streamsBlockedUni limit => 1 + varintLen limit
  | .newConnectionId seqNum retirePriorTo connId resetToken =>
    1 + varintLen seqNum + varintLen retirePriorTo + 1 + connId.length + resetToken.length
  | .retireConnectionId seqNum => 1 + varintLen seqNum
  | .pathChallenge _ => 1 + 8
  | .pathResponse _ => 1 + 8
  | .connectionClose errorCode frameType reason =>
    1 + varintLen errorCode + varintLen frameType + varintLen reason.length + reason.length
  | .applicationClose errorCode reason =>
    1 + varintLen errorCode + varintLen reason.length + reason.length
  | .handshakeDone => 1
  | .fec _ dataLen => dataLen

/-- The integers that the frame encodes with variable length, as far as a value that
has no such encoding can arise. -/
def varints : Frame → List ℕ
  | .blockInfo streamId blockSize blockPriority blockDeadline startTime =>
    [streamId, blockSize, blockPriority, blockDeadline, startTime]
  | .resetStream streamId _ finalSize => [streamId, finalSize]
  | .stream streamId data => [streamId, data.off]
  | .maxData max | .maxStreamsBidi max | .maxStreamsUni max => [max]
  | .maxStreamData streamId max => [streamId, max]
  | _ => []

/-- The frame has a length: its integers have an encoding, and an ACK frame acks
something. Otherwise computing the length panics. -/
def measurable : Frame → Bool
  | .ack _ _ ranges => !ranges.isEmpty
  | frame => frame.varints.all (· < 2 ^ 62)

/-- Returns true if a packet with the frame must be acknowledged. -/
def ackEliciting : Frame → Bool
  | .padding _ | .ack _ _ _ | .applicationClose _ _ | .connectionClose _ _ _ => false
  | _ => true

end Frame

/-- A packet number space. -/
inductive Epoch
  | initial
  | handshake
  | application
  deriving DecidableEq, Repr

/-- The types of packets. -/
inductive PacketType
  | initial
  | retry
  | handshake
  | zeroRTT
  | versionNegotiation
  | short
  deriving DecidableEq, Repr

/-- The type of the packets that are sent in an epoch. -/
def PacketType.fromEpoch : Epoch → PacketType
  | .initial => .initial
  | .handshake => .handshake
  | .application => .short

/-- The epoch of a packet, if its type has one. -/
def PacketType.toEpoch : PacketType → Option Epoch
  | .initial => some .initial
  | .zeroRTT => some .application
  | .handshake => some .handshake
  | .short => some .application
  | .retry | .versionNegotiation => none

/-- The frames that are allowed in a packet of a type. -/
def Frame.allowed : PacketType → Frame → Bool
  | _, .padding _ | _, .ping => true
  | .zeroRTT, .ack _ _ _ | .zeroRTT, .crypto _ | .zeroRTT, .handshakeDone | .zeroRTT, .newToken _
  | .zeroRTT, .pathResponse _ | .zeroRTT, .retireConnectionId _
  | .zeroRTT, .connectionClose _ _ _ => false
  | _, .ack _ _ _ | _, .crypto _ | _, .connectionClose _ _ _ => true
  | .short, _ | .zeroRTT, _ => true
  | _, _ => false

theorem Frame.allowed_short (f : Frame) : f.allowed .short = true := by cases f <;> rfl

/-- The window of packet numbers in which duplicates are recognised. -/
structure PktNumWindow where
  lower : ℕ
  /-- Bit `i` stands for the packet number `i` below the upper end. -/
  window : ℕ
  deriving DecidableEq, Repr

namespace PktNumWindow

/-- The largest number in the window. -/
def upper (w : PktNumWindow) : ℕ := saturatingAdd w.lower 128 - 1

/-- Records a packet number; a `u32` shift beyond the width empties the window. -/
def insert (w : PktNumWindow) (seq : ℕ) : PktNumWindow :=
  if seq < w.lower then w
  else
    let w : PktNumWindow :=
      if w.upper < seq then
        let diff := seq - w.upper
        let shift := diff % 2 ^ 32
        { lower := w.lower + diff
          window := if shift < 128 then (w.window <<< shift) % 2 ^ 128 else 0 }
      else w
    { w with window := w.window ||| 1 <<< (w.upper - seq) }

/-- Whether the packet number counts as a duplicate. -/
def contains (w : PktNumWindow) (seq : ℕ) : Bool :=
  if w.upper < seq then false
  else if seq < w.lower then true
  else w.window.testBit (w.upper - seq)

end PktNumWindow

/-- How many bytes the packet number takes, if it can be encoded. -/
def pktNumLen (pn : ℕ) : Option ℕ :=
  if pn < 255 then some 1 else if pn < 65535 then some 2 else if pn < 4294967295 then some 4
  else none

end Dtp
