import Mathlib.Logic.Basic

/-!
# Results that may be errors

How a computation of several steps came to its value.

## Main results

* `bind_eq_ok`, `map_eq_ok`, `toOption_eq_some` — what a value says about the steps before it
-/

namespace Dtp.Lib

variable {ε α β : Type*} {x : Except ε α} {a : α} {b : β}

theorem bind_eq_ok {f : α → Except ε β} : x.bind f = .ok b ↔ ∃ a, x = .ok a ∧ f a = .ok b := by
  cases x <;> simp [Except.bind]

theorem map_eq_ok {f : α → β} : x.map f = .ok b ↔ ∃ a, x = .ok a ∧ f a = b := by
  cases x <;> simp [Except.map]

theorem toOption_eq_some : x.toOption = some a ↔ x = .ok a := by
  cases x <;> simp [Except.toOption]

end Dtp.Lib
