import Dtp.RecvBuf
import Dtp.SendBuf

/-!
# Streams

A `Stream` is a receive buffer and a send buffer with the stream's direction and
initiator, both of which its id encodes in its two lowest bits.
-/

namespace Dtp

/-- A QUIC stream. -/
structure Stream where
  recv : RecvBuf
  send : SendBuf
  /-- Whether the stream is bidirectional. -/
  bidi : Bool
  /-- Whether the stream was created by the local endpoint. -/
  isLocal : Bool

namespace Stream

/-- Creates a new stream with the given flow control limits, deadline and priority. -/
def newFull (maxRxData maxTxData : ℕ) (bidi isLocal : Bool) (deadline priority now : ℕ) :
    Stream where
  recv := .new maxRxData
  send := .newFull maxTxData deadline priority now
  bidi := bidi
  isLocal := isLocal

/-- Creates a new stream with the given flow control limits. -/
def new (maxRxData maxTxData : ℕ) (bidi isLocal : Bool) (now : ℕ) : Stream where
  recv := .new maxRxData
  send := .new maxTxData now
  bidi := bidi
  isLocal := isLocal

/-- Returns true if the stream has data to read. -/
def isReadable (s : Stream) : Bool := s.recv.ready

/-- Returns true if the stream has enough flow control capacity to be written to, and
is not finished. -/
def isWritable (s : Stream) : Bool :=
  !s.send.isShutdown && !s.send.isFin && decide (s.send.off < s.send.maxData)

/-- Returns true if the stream has data to send and is allowed to send at least some
of it. -/
def isFlushable (s : Stream) : Bool := s.send.ready && decide (s.send.lowOff < s.send.maxData)

/-- Returns true if the stream is complete: both sides of a bidirectional stream, the
one side that a unidirectional stream has. -/
def isComplete (s : Stream) : Bool :=
  match s.bidi, s.isLocal with
  | true, _ => s.recv.isFin && s.send.isComplete
  | false, true => s.send.isComplete
  | false, false => s.recv.isFin

end Stream

/-- Returns true if the stream was created locally. -/
def isLocal (streamId : ℕ) (isServer : Bool) : Bool := streamId % 2 == isServer.toNat

/-- Returns true if the stream is bidirectional. -/
def isBidi (streamId : ℕ) : Bool := streamId / 2 % 2 == 0

end Dtp
