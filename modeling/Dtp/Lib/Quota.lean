import Mathlib.Data.Nat.Basic

/-!
# Quotas

A quota limits how many items may ever be taken. An item that is given back raises the
limit, up to a cap, but only once the raise is committed. However takes, returns and
commits alternate, no more items are out at a time than the quota allowed at first.

## Main definitions

* `Quota` — how many items were taken, and the limits
* `Quota.Balanced` — the invariant, which knows the number of items given back

## Main results

* `Quota.Balanced.take`, `Quota.Balanced.giveBack`, `Quota.Balanced.commit` — the
  operations keep it
* `Quota.Balanced.taken_le_add` — no more than the first limit is out
-/

namespace Dtp.Lib

/-- How many items were taken, how many may be taken, and the limit that comes next. -/
structure Quota where
  taken : ℕ
  limit : ℕ
  next : ℕ
  deriving DecidableEq

namespace Quota

/-- A quota from which nothing was taken. -/
def new (initial : ℕ) : Quota := ⟨0, initial, initial⟩

/-- Takes an item, unless the limit is reached. -/
def take (q : Quota) : Option Quota :=
  if q.limit ≤ q.taken then none else some { q with taken := q.taken + 1 }

/-- Gives an item back. -/
def giveBack (cap : ℕ) (q : Quota) : Quota := { q with next := min (q.next + 1) cap }

/-- Makes the next limit the limit. -/
def commit (q : Quota) : Quota := { q with limit := q.next }

/-- What the quota is after `returned` items were given back. -/
structure Balanced (cap initial returned : ℕ) (q : Quota) : Prop where
  taken_le : q.taken ≤ q.limit
  limit_le : q.limit ≤ q.next
  next_eq : q.next = min (initial + returned) cap

variable {cap initial returned : ℕ} {q q' : Quota}

theorem balanced_new (h : initial ≤ cap) : (new initial).Balanced cap initial 0 where
  taken_le := Nat.zero_le initial
  limit_le := le_refl initial
  next_eq := (Nat.min_eq_left h).symm

namespace Balanced

theorem take (h : q.Balanced cap initial returned) (htake : q.take = some q') :
    q'.Balanced cap initial returned := by
  unfold Quota.take at htake
  split_ifs at htake with hlimit
  cases htake
  exact { h with taken_le := Nat.lt_of_not_le hlimit }

theorem giveBack (h : q.Balanced cap initial returned) :
    (q.giveBack cap).Balanced cap initial (returned + 1) := by
  have hnext := h.next_eq
  have hlimit := h.limit_le
  refine ⟨h.taken_le, ?_, ?_⟩ <;> simp only [Quota.giveBack] <;> omega

theorem commit (h : q.Balanced cap initial returned) : q.commit.Balanced cap initial returned where
  taken_le := Nat.le_trans h.taken_le h.limit_le
  limit_le := le_refl q.next
  next_eq := h.next_eq

/-- What was taken and not given back was allowed from the start. -/
theorem taken_le_add (h : q.Balanced cap initial returned) : q.taken ≤ initial + returned := by
  have hnext := h.next_eq
  have htaken := Nat.le_trans h.taken_le h.limit_le
  omega

end Balanced

end Quota

end Dtp.Lib
