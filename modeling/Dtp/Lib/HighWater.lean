import Mathlib.Algebra.BigOperators.Group.Finset.Basic
import Mathlib.Data.List.Basic

/-!
# High-water marks

A log of values recorded under keys, the largest value of each key, and the sum of
these over all keys.

## Main definitions

* `highWater` — the largest value recorded under a key, zero if there is none
* `highWaterSum` — the sum of the largest values

## Main results

* `highWaterSum_cons` — one more value adds what exceeds the mark of its key
-/

namespace Dtp.Lib

variable {κ : Type*} [DecidableEq κ]

/-- The largest value recorded under `k`. -/
def highWater : List (κ × ℕ) → κ → ℕ
  | [], _ => 0
  | (k', n) :: l, k => if k' = k then max n (highWater l k) else highWater l k

/-- The sum of the largest values of all keys. -/
def highWaterSum (l : List (κ × ℕ)) : ℕ := ∑ k ∈ (l.map Prod.fst).toFinset, highWater l k

@[simp] theorem highWater_nil (k : κ) : highWater [] k = 0 := rfl

@[simp] theorem highWater_cons_same (k : κ) (n : ℕ) (l : List (κ × ℕ)) :
    highWater ((k, n) :: l) k = max n (highWater l k) := if_pos rfl

theorem highWater_cons_of_ne {k k' : κ} (h : k' ≠ k) (n : ℕ) (l : List (κ × ℕ)) :
    highWater ((k', n) :: l) k = highWater l k := if_neg h

@[simp] theorem highWaterSum_nil : highWaterSum ([] : List (κ × ℕ)) = 0 := rfl

theorem highWater_eq_zero {k : κ} {l : List (κ × ℕ)} (h : k ∉ (l.map Prod.fst).toFinset) :
    highWater l k = 0 := by
  induction l with
  | nil => rfl
  | cons e l ih =>
    obtain ⟨k', n⟩ := e
    simp only [List.map_cons, List.toFinset_cons, Finset.mem_insert, not_or] at h
    rw [highWater_cons_of_ne (Ne.symm h.1), ih h.2]

/-- One more value adds what exceeds the mark of its key. -/
theorem highWaterSum_cons (k : κ) (n : ℕ) (l : List (κ × ℕ)) :
    highWaterSum ((k, n) :: l) + highWater l k = highWaterSum l + max n (highWater l k) := by
  set keys := (l.map Prod.fst).toFinset with hkeys
  have hold : highWaterSum l = ∑ k' ∈ insert k keys, highWater l k' :=
    (Finset.sum_insert_of_eq_zero_if_notMem highWater_eq_zero).symm
  have hrest : ∑ k' ∈ (insert k keys).erase k, highWater ((k, n) :: l) k' =
      ∑ k' ∈ (insert k keys).erase k, highWater l k' :=
    Finset.sum_congr rfl fun k' hk' => highWater_cons_of_ne (Finset.ne_of_mem_erase hk').symm n l
  have hmem : k ∈ insert k keys := Finset.mem_insert_self k keys
  have hnew : highWaterSum ((k, n) :: l) = ∑ k' ∈ insert k keys, highWater ((k, n) :: l) k' := by
    rw [highWaterSum, List.map_cons, List.toFinset_cons]
  rw [hold, hnew, ← Finset.add_sum_erase _ _ hmem, ← Finset.add_sum_erase _ _ hmem, hrest,
    highWater_cons_same]
  omega

end Dtp.Lib
