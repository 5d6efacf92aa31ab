import Dtp.Error

/-!
# Schedulers

A scheduler decides which of the blocks that wait to be sent goes next, and which
blocks are dropped because they are late. Weights are floating point numbers; only
comparisons of them decide, so nothing below depends on their values.

## Main definitions

* `DynScheduler` — one of the basic, the DTP and the external scheduler
* `DynScheduler.selectBlock`, `DynScheduler.shouldDropBlock`
-/

namespace Dtp

/-- What a scheduler sees of a stream. -/
structure Block where
  blockId : ℕ
  blockDeadline : ℕ
  blockPriority : ℕ
  /-- Creation time in millis. -/
  blockCreateTime : ℕ
  blockSize : ℕ
  remainingSize : ℕ
  deriving DecidableEq, Repr

/-- The measurements that a scheduler is given. -/
structure Pace where
  pacingRate : Float
  rtt : Float
  nextPacketId : ℕ
  /-- The wall clock in millis. -/
  currentTime : ℕ

/-- The scheduler of the protocol: the block with the least weight goes next. -/
structure DtpScheduler where
  ddl : ℕ := 0
  size : ℕ := 0
  prio : ℕ := 999999999
  lastBlockId : Option ℕ := none
  maxPrio : ℕ := 2
  alpha : Float := 0.5
  beta : Float := 100000.0

/-- `f64::min`, which ignores a NaN. -/
def floatMin (a b : Float) : Float :=
  if a.isNaN then b else if b.isNaN then a else if a < b then a else b

namespace DtpScheduler

/-- The weight of a block that has been waiting for `passedTime`. -/
def weight (s : DtpScheduler) (pace : Pace) (block : Block) (passedTime : ℕ) : Float :=
  let tempddl := Float.ofNat block.blockDeadline
  let oneWayDelay := pace.rtt / 2.0
  let tempsize := Float.ofNat block.remainingSize
  let remainingTime := tempddl - Float.ofNat passedTime - oneWayDelay
    - tempsize / (pace.pacingRate * 1024.0) * 1000.0
  let remainingTimeWeight :=
    if remainingTime > 0.0 then remainingTime / tempddl
    else floatMin 1.0 (-remainingTime / tempddl) + s.beta
  let unsentRatio := tempsize / Float.ofNat block.blockSize
  ((1.0 - s.alpha) * remainingTimeWeight
    + s.alpha * Float.ofNat block.blockPriority / Float.ofNat s.maxPrio) * unsentRatio

/-- The lighter one of the best block so far and `block`, the smaller one on a tie. -/
def lighter (best : Option (Block × Float)) (block : Block) (weight : Float) :
    Option (Block × Float) :=
  match best with
  | none => some (block, weight)
  | some (minBlock, minWeight) =>
    if minWeight > weight ∨
        (minWeight == weight) = true ∧ block.remainingSize < minBlock.remainingSize then
      some (block, weight)
    else best

/-- The loop of `selectBlock`: the block with the least weight among those that have
data. The outer option is the overflow panic that a block from the future causes. -/
def leastWeight (s : DtpScheduler) (pace : Pace) :
    Option (Block × Float) → List Block → Option (Option (Block × Float))
  | best, [] => some best
  | best, block :: blocks =>
    if 0 < block.remainingSize then
      if pace.currentTime < block.blockCreateTime then none
      else
        let passedTime := pace.currentTime - block.blockCreateTime
        leastWeight s pace (lighter best block (s.weight pace block passedTime)) blocks
    else leastWeight s pace best blocks

/-- Decides which block to send next; without one that has data, the last one. -/
def selectBlock (s : DtpScheduler) (pace : Pace) (blocks : List Block) :
    Option (ℕ × DtpScheduler) :=
  match s.leastWeight pace none blocks with
  | none => none
  | some (some (block, _)) =>
    some (block.blockId,
      { s with
        ddl := block.blockDeadline
        size := block.remainingSize
        prio := block.blockPriority
        lastBlockId := some block.blockId })
  | some none => s.lastBlockId.map fun id => (id, { s with ddl := 0, size := 0, prio := 0 })

/-- A block is dropped when it has missed its deadline. -/
def shouldDropBlock (pace : Pace) (block : Block) : Option Bool :=
  if pace.currentTime < block.blockCreateTime then none
  else some (decide (block.blockDeadline < pace.currentTime - block.blockCreateTime))

end DtpScheduler

/-- The basic scheduler: the last block until it has no more data, then the first. -/
structure BasicScheduler where
  lastBlockId : Option ℕ := none

/-- The size of what the last block still has to send, if it is among `blocks`. -/
def BasicScheduler.lastRemaining (s : BasicScheduler) (blocks : List Block) : ℕ :=
  ((blocks.find? fun block => some block.blockId == s.lastBlockId).map Block.remainingSize).getD 0

/-- The block that was selected last, as long as there is something left of it, and else the first
one. -/
def BasicScheduler.selectBlock (s : BasicScheduler) (blocks : List Block) :
    Option (ℕ × BasicScheduler) :=
  if s.lastRemaining blocks = 0 then
    -- begin new block transmission
    blocks.head?.map fun block => (block.blockId, ⟨some block.blockId⟩)
  else s.lastBlockId.map fun id => (id, s)

/-- The scheduler of a connection. The external one is that of a build without the `interface`
feature, which is not among the default ones: it always selects block 0 and drops nothing. With
the feature both decisions are those of foreign functions, and nothing is said about them here. -/
inductive DynScheduler
  | basic (s : BasicScheduler)
  | dtp (s : DtpScheduler)
  | c

namespace DynScheduler

/-- Decides which block to send next, or panics. -/
def selectBlock (s : DynScheduler) (pace : Pace) (blocks : List Block) :
    Option (ℕ × DynScheduler) :=
  match s with
  | .basic s => (s.selectBlock blocks).map fun r => (r.1, .basic r.2)
  | .dtp s => (s.selectBlock pace blocks).map fun r => (r.1, .dtp r.2)
  | .c => some (0, .c)

/-- Decides whether a block should be dropped by the sender, or panics. -/
def shouldDropBlock (s : DynScheduler) (pace : Pace) (block : Block) : Option Bool :=
  match s with
  | .basic _ => some false
  | .dtp _ => DtpScheduler.shouldDropBlock pace block
  | .c => some false

end DynScheduler

end Dtp
