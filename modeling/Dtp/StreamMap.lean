import Dtp.Scheduler
import Dtp.Stream

/-!
# The stream map

`StreamMap` keeps track of the streams of a connection and enforces the stream
limits. The ids of streams that have something to send wait in a queue, from which
the scheduler picks.

## Main definitions

* `StreamMap.getOrCreate`, `StreamMap.collect` — the life of a stream
* `StreamMap.peekFlushable` — drops late blocks and picks the one to send next
-/

namespace Dtp

open Lib (Program)

/-- The transport parameters that set the initial flow control limits of streams. -/
structure TransportParams where
  initialMaxData : ℕ
  initialMaxStreamDataBidiLocal : ℕ
  initialMaxStreamDataBidiRemote : ℕ
  initialMaxStreamDataUni : ℕ
  initialMaxStreamsBidi : ℕ
  initialMaxStreamsUni : ℕ
  maxPacketSize : ℕ
  ackDelayExponent : ℕ

/-- Keeps track of QUIC streams and enforces stream limits. -/
structure StreamMap where
  /-- Map of streams indexed by stream id. -/
  streams : ℕ → Option Stream
  /-- Ids of streams that were completed and garbage collected. -/
  collected : List ℕ
  peerMaxStreamsBidi : ℕ
  peerMaxStreamsUni : ℕ
  peerOpenedStreamsBidi : ℕ
  peerOpenedStreamsUni : ℕ
  localMaxStreamsBidi : ℕ
  localMaxStreamsBidiNext : ℕ
  localMaxStreamsUni : ℕ
  localMaxStreamsUniNext : ℕ
  localOpenedStreamsBidi : ℕ
  localOpenedStreamsUni : ℕ
  /-- Queue of stream ids that have buffered data ready to be sent. -/
  flushable : List ℕ
  /-- Ids of streams that have outstanding data to read. -/
  readable : List ℕ
  /-- Ids of streams that can be written to. -/
  writable : List ℕ
  /-- Ids of blocks that were canceled and need a RESET_STREAM frame. -/
  canceled : List ℕ
  /-- Ids of blocks that were ever canceled. -/
  canceledDepend : List ℕ
  /-- Ids of streams that need to send MAX_STREAM_DATA. -/
  almostFull : List ℕ
  scheduler : DynScheduler

/-- Adds `id` to a set of ids, or removes it. -/
def mark (ids : List ℕ) (id : ℕ) (present : Bool) : List ℕ :=
  if present then ids.insert id else ids.filter (· ≠ id)

/-- `VecDeque::swap_remove_back`: the last element takes the place of the one at `i`. -/
def swapRemoveBack (l : List ℕ) (i : ℕ) : List ℕ :=
  match l.getLast? with
  | some last => if i < l.length then (l.set i last).dropLast else l
  | none => l

/-- `VecDeque::swap_remove_front`: the first element takes the place of the one at `i`. -/
def swapRemoveFront (l : List ℕ) (i : ℕ) : List ℕ :=
  match l.head? with
  | some first => if i < l.length then (l.set i first).tail else l
  | none => l

namespace StreamMap

/-- A map without streams. -/
def new (maxStreamsBidi maxStreamsUni : ℕ) (scheduler : DynScheduler) : StreamMap where
  streams _ := none
  collected := []
  peerMaxStreamsBidi := 0
  peerMaxStreamsUni := 0
  peerOpenedStreamsBidi := 0
  peerOpenedStreamsUni := 0
  localMaxStreamsBidi := maxStreamsBidi
  localMaxStreamsBidiNext := maxStreamsBidi
  localMaxStreamsUni := maxStreamsUni
  localMaxStreamsUniNext := maxStreamsUni
  localOpenedStreamsBidi := 0
  localOpenedStreamsUni := 0
  flushable := []
  readable := []
  writable := []
  canceled := []
  canceledDepend := []
  almostFull := []
  scheduler := scheduler

/-- The map with the stream `id` replaced. -/
def put (m : StreamMap) (id : ℕ) (s : Stream) : StreamMap :=
  { m with streams := fun i => if i = id then some s else m.streams i }

/-- Replaces the send buffer of the stream `id`. -/
def putSend (m : StreamMap) (id : ℕ) (s : Stream) (send : SendBuf) : StreamMap :=
  m.put id { s with send := send }

/-- Replaces the receive buffer of the stream `id`. -/
def putRecv (m : StreamMap) (id : ℕ) (s : Stream) (recv : RecvBuf) : StreamMap :=
  m.put id { s with recv := recv }

/-- Adds or removes the stream to or from the readable ones. -/
def markReadable (m : StreamMap) (id : ℕ) (readable : Bool) : StreamMap :=
  { m with readable := mark m.readable id readable }

/-- Adds or removes the stream to or from the writable ones. -/
def markWritable (m : StreamMap) (id : ℕ) (writable : Bool) : StreamMap :=
  { m with writable := mark m.writable id writable }

/-- Adds or removes the stream to or from the canceled ones. -/
def markCanceled (m : StreamMap) (id : ℕ) (canceled : Bool) : StreamMap :=
  { m with canceled := mark m.canceled id canceled }

/-- Adds or removes the stream to or from the almost full ones. -/
def markAlmostFull (m : StreamMap) (id : ℕ) (almostFull : Bool) : StreamMap :=
  { m with almostFull := mark m.almostFull id almostFull }

/-- Pushes the stream id to the back of the flushable streams queue. -/
def pushFlushable (m : StreamMap) (id : ℕ) : StreamMap :=
  { m with flushable := m.flushable ++ [id] }

/-- Replaces the queue. -/
def setFlushable (m : StreamMap) (ids : List ℕ) : StreamMap := { m with flushable := ids }

/-- Changes the scheduler. -/
def setScheduler (m : StreamMap) (scheduler : DynScheduler) : StreamMap :=
  { m with scheduler := scheduler }

/-- The receive and the send limit of a new stream. -/
def initialLimits (localParams peerParams : TransportParams) (local_ bidi : Bool) : ℕ × ℕ :=
  match local_, bidi with
  | true, true =>
    (localParams.initialMaxStreamDataBidiLocal, peerParams.initialMaxStreamDataBidiRemote)
  | true, false => (0, peerParams.initialMaxStreamDataUni)
  | false, true =>
    (localParams.initialMaxStreamDataBidiRemote, peerParams.initialMaxStreamDataBidiLocal)
  | false, false => (localParams.initialMaxStreamDataUni, 0)

/-- Counts one more stream, unless the limit is reached. -/
def countOpened (m : StreamMap) (local_ bidi : Bool) : Except Error StreamMap :=
  match local_, bidi with
  | true, true =>
    if m.peerMaxStreamsBidi ≤ m.localOpenedStreamsBidi then .error .streamLimit
    else .ok { m with localOpenedStreamsBidi := m.localOpenedStreamsBidi + 1 }
  | true, false =>
    if m.peerMaxStreamsUni ≤ m.localOpenedStreamsUni then .error .streamLimit
    else .ok { m with localOpenedStreamsUni := m.localOpenedStreamsUni + 1 }
  | false, true =>
    if m.localMaxStreamsBidi ≤ m.peerOpenedStreamsBidi then .error .streamLimit
    else .ok { m with peerOpenedStreamsBidi := m.peerOpenedStreamsBidi + 1 }
  | false, false =>
    if m.localMaxStreamsUni ≤ m.peerOpenedStreamsUni then .error .streamLimit
    else .ok { m with peerOpenedStreamsUni := m.peerOpenedStreamsUni + 1 }

/-- What is asked of a stream that may have to be created. -/
structure OpenArgs where
  localParams : TransportParams
  peerParams : TransportParams
  /-- Whether the application asks, not the peer. -/
  isLocal : Bool
  isServer : Bool
  deadline : ℕ
  priority : ℕ
  now : ℕ

/-- Returns the stream with the given id if it exists, or creates a new one. -/
def getOrCreate (m : StreamMap) (id : ℕ) (args : OpenArgs) : Except Error (Stream × StreamMap) :=
  match m.streams id with
  | some s => .ok (s, if s.isWritable then m.markWritable id true else m)
  | none =>
    if args.isLocal ≠ isLocal id args.isServer then .error .invalidStreamState
    -- Stream has already been closed and garbage collected.
    else if id ∈ m.collected then .error .done
    else
      let limits := initialLimits args.localParams args.peerParams args.isLocal (isBidi id)
      match m.countOpened (isLocal id args.isServer) (isBidi id) with
      | .error e => .error e
      | .ok m =>
        let s := Stream.newFull limits.1 limits.2 (isBidi id) args.isLocal args.deadline
          args.priority args.now
        let m := m.put id s
        .ok (s, if s.isWritable then m.markWritable id true else m)

/-- Drops a completed stream. -/
def collect (m : StreamMap) (id : ℕ) (local_ : Bool) : StreamMap :=
  -- If the stream was created by the peer, give back a max streams credit.
  let m :=
    if local_ then m
    else if isBidi id then
      { m with localMaxStreamsBidiNext := saturatingAdd m.localMaxStreamsBidiNext 1 }
    else { m with localMaxStreamsUniNext := saturatingAdd m.localMaxStreamsUniNext 1 }
  { m with
    streams := fun i => if i = id then none else m.streams i
    collected := m.collected.insert id }

/-- Cancels a block that has missed its deadline. -/
def cancelBlock (id : ℕ) : Program Error StreamMap Unit := do
  let m ← get
  let s ← Program.unwrap (m.streams id)
  set { m with canceled := m.canceled.insert id, canceledDepend := m.canceledDepend.insert id }
  let send ← Program.ofExcept s.send.shutdown
  -- Once shutdown, the stream is guaranteed to be non-writable.
  modify fun m => (m.putSend id s send).markWritable id false

/-- What the scheduler sees of a stream; `none` for one that does not exist. -/
def getBlock (m : StreamMap) (id : ℕ) : Option Block :=
  (m.streams id).map fun s =>
    { blockId := id
      blockDeadline := s.send.deadline
      blockPriority := s.send.priority
      blockCreateTime := s.send.startTime
      blockSize := s.send.blockSize
      remainingSize := s.send.len }

/-- The loop that drops late blocks, from the queue's back to its front, and gathers
the others. -/
def dropLoop (pace : Pace) : ℕ → List Block → Program Error StreamMap (List Block)
  | 0, blocks => pure blocks
  | i + 1, blocks => do
    let m ← get
    let id ← Program.unwrap m.flushable[i]?
    let block ← Program.unwrap (m.getBlock id)
    let drop ← Program.unwrap (m.scheduler.shouldDropBlock pace block)
    if drop then
      cancelBlock id
      modify fun m => m.setFlushable (swapRemoveBack m.flushable i)
      dropLoop pace i blocks
    else dropLoop pace i (blocks ++ [block])

/-- Removes the first occurrence of `id` from the queue, if any. -/
def takeFlushable (m : StreamMap) (id : ℕ) : StreamMap :=
  if id ∈ m.flushable then
    m.setFlushable (swapRemoveFront m.flushable (m.flushable.idxOf id))
  else m

/-- Drops the late blocks, and removes from the queue the block to send next. -/
def peekFlushable (pace : Pace) : Program Error StreamMap (Option ℕ) := do
  let m ← get
  if m.flushable.isEmpty then pure none
  else
    -- the blocks that the scheduler may look through before it decides
    forM m.flushable.reverse fun id => discard (Program.unwrap (m.getBlock id))
    let blocks ← dropLoop pace m.flushable.length []
    if blocks.isEmpty then pure none
    else
      let m ← get
      let (id, scheduler) ← Program.unwrap (m.scheduler.selectBlock pace blocks)
      set ((m.setScheduler scheduler).takeFlushable id)
      pure (some id)

/-- Returns true if there are any streams that have data to write. -/
def hasFlushable (m : StreamMap) : Bool := !m.flushable.isEmpty

/-- Returns true if the max streams counts need to be updated by a frame to the peer. -/
def shouldUpdateMaxStreamsBidi (m : StreamMap) : Bool :=
  m.localMaxStreamsBidiNext != m.localMaxStreamsBidi
    && decide (m.localMaxStreamsBidi - m.peerOpenedStreamsBidi < m.localMaxStreamsBidiNext / 2)

/-- Whether the peer is to learn of more unidirectional streams. -/
def shouldUpdateMaxStreamsUni (m : StreamMap) : Bool :=
  m.localMaxStreamsUniNext != m.localMaxStreamsUni
    && decide (m.localMaxStreamsUni - m.peerOpenedStreamsUni < m.localMaxStreamsUniNext / 2)

end StreamMap

end Dtp
