import Mathlib.Algebra.Order.Ring.Nat
import Mathlib.Data.Nat.Basic
import Dtp.Lib.Program

/-!
# Errors and integers

The error codes every operation may return, and the one arithmetic operation on
`u64` whose behaviour at the end of its range the source asks for by name. Other
counters are unbounded naturals; where the source subtracts without a check and
nothing rules out a negative result, the model panics.
-/

namespace Dtp

/-- A QUIC error. -/
inductive Error
  | done
  | bufferTooShort
  | unknownVersion
  | invalidFrame
  | invalidPacket
  | invalidState
  | invalidStreamState
  | invalidTransportParam
  | cryptoFail
  | tlsFail
  | flowControl
  | streamLimit
  | finalSize
  | congestionControl
  | schedulerType
  deriving DecidableEq, Repr, Inhabited

/-- The code that CONNECTION_CLOSE carries for an error. -/
def Error.toWire : Error → ℕ
  | .done => 0x0
  | .invalidFrame => 0x7
  | .invalidStreamState => 0x5
  | .invalidTransportParam => 0x8
  | .cryptoFail => 0x100
  | .tlsFail => 0x100
  | .flowControl => 0x3
  | .streamLimit => 0x4
  | .finalSize => 0x6
  | _ => 0xa

/-- How an operation can stop without a result. -/
abbrev Fault := Lib.Fault Error

/-- The largest `u64`. -/
def u64Max : ℕ := 2 ^ 64 - 1

/-- `u64::saturating_add`. -/
def saturatingAdd (a b : ℕ) : ℕ := min (a + b) u64Max

end Dtp
