import Mathlib.Algebra.Order.Ring.Nat
import Mathlib.Data.Nat.Log

/-!
# Rounding to significant bits

A binary floating-point number with `p` significant bits stands for a natural exactly if the natural
has at most `p` bits. A longer one is rounded to the nearest, and to the even one of two.

## Main definitions

* `roundBits` — a natural, rounded to `p` significant bits

## Main results

* `roundBits_of_lt` — short naturals are exact
* `roundBits_le`, `le_two_mul_roundBits` — rounding at most doubles, and at most halves
-/

namespace Dtp.Lib

/-- The number of bits that do not fit. -/
def excessBits (p n : ℕ) : ℕ := n.log2 + 1 - p

/-- The natural, rounded to the nearest with `p` significant bits, ties to even. -/
def roundBits (p n : ℕ) : ℕ :=
  let unit := 2 ^ excessBits p n
  let quotient := n / unit
  let rest := n % unit
  if unit < 2 * rest ∨ unit = 2 * rest ∧ quotient % 2 = 1 then (quotient + 1) * unit
  else quotient * unit

theorem excessBits_of_lt {p n : ℕ} (hp : 0 < p) (h : n < 2 ^ p) : excessBits p n = 0 := by
  rcases Nat.eq_zero_or_pos n with rfl | hpos
  · exact Nat.sub_eq_zero_of_le hp
  · exact Nat.sub_eq_zero_of_le ((Nat.log2_lt hpos.ne').mpr h)

/-- A natural that fits is not changed. -/
theorem roundBits_of_lt {p n : ℕ} (hp : 0 < p) (h : n < 2 ^ p) : roundBits p n = n := by
  simp [roundBits, excessBits_of_lt hp h, Nat.mod_one]

/-- One unit of the last place is at most the natural, if there are excess bits. -/
theorem two_pow_excessBits_le {p n : ℕ} (hp : 0 < p) (hn : n ≠ 0) : 2 ^ excessBits p n ≤ n := by
  calc
    2 ^ excessBits p n ≤ 2 ^ n.log2 :=
      Nat.pow_le_pow_right (by decide) (by unfold excessBits; omega)
    _ ≤ n := Nat.log2_self_le hn

/-- Rounding at most doubles a natural. -/
theorem roundBits_le {p : ℕ} (hp : 0 < p) (n : ℕ) : roundBits p n ≤ 2 * n := by
  rcases eq_or_ne n 0 with rfl | hn
  · rw [roundBits_of_lt hp (Nat.two_pow_pos p)]
  · have hunit := two_pow_excessBits_le hp hn
    have hquotient := Nat.div_mul_le_self n (2 ^ excessBits p n)
    unfold roundBits
    dsimp only
    split_ifs
    · rw [Nat.succ_mul]
      omega
    · omega

/-- Rounding at most halves a natural. -/
theorem le_two_mul_roundBits {p : ℕ} (hp : 0 < p) (n : ℕ) : n ≤ 2 * roundBits p n := by
  rcases eq_or_ne n 0 with rfl | hn
  · exact Nat.zero_le _
  · have hunit := two_pow_excessBits_le hp hn
    have hquotient : 2 ^ excessBits p n ≤ n / 2 ^ excessBits p n * 2 ^ excessBits p n :=
      Nat.le_mul_of_pos_left _ (Nat.div_pos hunit (Nat.two_pow_pos _))
    have hrest := Nat.lt_div_mul_add (a := n) (Nat.two_pow_pos (excessBits p n))
    unfold roundBits
    dsimp only
    split_ifs
    · rw [Nat.add_mul, Nat.one_mul]
      omega
    · omega

end Dtp.Lib
