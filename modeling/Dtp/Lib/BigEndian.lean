import Mathlib.Data.List.Induction
import Mathlib.Data.Nat.Basic
import Mathlib.Data.Nat.Bitwise
import Mathlib.Tactic.Ring
import Mathlib.Tactic.SplitIfs

/-!
# Numbers in network byte order

The bytes of a number at a fixed width, most significant byte first. Two bits of the
first byte can be taken for a tag, if the number leaves them free.

## Main definitions

* `beBytes` — the bytes of a number at a width
* `beValue` — the number that some bytes stand for
* `tagFirst`, `untagFirst` — setting and clearing the upper bits of the first byte

## Main results

* `beValue_beBytes` — a number that fits is read back
* `beValue_untagFirst` — also with a tag
-/

namespace Dtp.Lib

/-- The last `width` bytes of a number. -/
def beBytes : ℕ → ℕ → List UInt8
  | 0, _ => []
  | width + 1, v => beBytes width (v / 256) ++ [UInt8.ofNat v]

/-- The number that the bytes stand for. -/
def beValue (bytes : List UInt8) : ℕ := bytes.foldl (fun v b => v * 256 + b.toNat) 0

@[simp] theorem beBytes_length (width v : ℕ) : (beBytes width v).length = width := by
  induction width generalizing v with
  | zero => rfl
  | succ width ih => simp [beBytes, ih]

@[simp] theorem beValue_nil : beValue [] = 0 := rfl

theorem beValue_append_singleton (bytes : List UInt8) (b : UInt8) :
    beValue (bytes ++ [b]) = beValue bytes * 256 + b.toNat := by
  simp [beValue]

theorem beValue_beBytes_mod (width v : ℕ) : beValue (beBytes width v) = v % 256 ^ width := by
  induction width generalizing v with
  | zero => simp [beBytes, Nat.mod_one]
  | succ width ih =>
    have hpow : 256 ^ (width + 1) = 256 * 256 ^ width := Nat.pow_succ'
    rw [beBytes, beValue_append_singleton, ih, UInt8.toNat_ofNat', hpow, Nat.mod_mul]
    omega

/-- A number that fits the width is read back. -/
theorem beValue_beBytes {width v : ℕ} (h : v < 256 ^ width) : beValue (beBytes width v) = v := by
  rw [beValue_beBytes_mod, Nat.mod_eq_of_lt h]

theorem beValue_lt (bytes : List UInt8) : beValue bytes < 256 ^ bytes.length := by
  induction bytes using List.reverseRecOn with
  | nil => simp
  | append_singleton bytes b ih =>
    have hb := b.toNat_lt
    rw [beValue_append_singleton, List.length_append, List.length_singleton, Nat.pow_succ]
    omega

theorem beValue_cons (b : UInt8) (bytes : List UInt8) :
    beValue (b :: bytes) = b.toNat * 256 ^ bytes.length + beValue bytes := by
  induction bytes using List.reverseRecOn with
  | nil => simp [beValue]
  | append_singleton bytes c ih =>
    rw [← List.cons_append, beValue_append_singleton, ih, beValue_append_singleton,
      List.length_append,
      List.length_singleton, Nat.pow_succ]
    ring

/-- The bytes of a number start with its quotient. -/
theorem beBytes_succ (width v : ℕ) :
    beBytes (width + 1) v = UInt8.ofNat (v / 256 ^ width) :: beBytes width v := by
  induction width generalizing v with
  | zero => simp [beBytes]
  | succ width ih =>
    rw [beBytes, ih, beBytes, Nat.div_div_eq_div_mul, ← Nat.pow_succ', List.cons_append]

/-! ### Tags -/

/-- Sets bits of the first byte. -/
def tagFirst (tag : UInt8) : List UInt8 → List UInt8
  | [] => []
  | b :: bytes => (b ||| tag) :: bytes

/-- Clears the two upper bits of the first byte. -/
def untagFirst : List UInt8 → List UInt8
  | [] => []
  | b :: bytes => (b &&& 0x3f) :: bytes

@[simp] theorem tagFirst_length (tag : UInt8) (bytes : List UInt8) :
    (tagFirst tag bytes).length = bytes.length := by
  cases bytes <;> rfl

theorem and_mask_toNat (b : UInt8) : (b &&& 0x3f).toNat = b.toNat % 64 := by
  rw [UInt8.toNat_and]
  exact Nat.and_two_pow_sub_one_eq_mod b.toNat 6

theorem shiftRight_toNat (b : UInt8) : (b >>> 6).toNat = b.toNat / 64 := by
  rw [UInt8.toNat_shiftRight]
  exact Nat.shiftRight_eq_div_pow b.toNat 6

/-- A tag is added to a byte that leaves the upper bits free. -/
theorem or_tag_toNat {b : UInt8} (h : b.toNat < 64) {k : ℕ} (hk : k < 4) :
    (b ||| UInt8.ofNat (64 * k)).toNat = b.toNat + 64 * k := by
  have htag : (UInt8.ofNat (64 * k)).toNat = 2 ^ 6 * k := by
    rw [UInt8.toNat_ofNat']
    omega
  rw [UInt8.toNat_or, htag, Nat.or_comm, ← Nat.two_pow_add_eq_or_of_lt h]
  omega

theorem beValue_untagFirst_lt (bytes : List UInt8) :
    beValue (untagFirst bytes) < 64 * 256 ^ (bytes.length - 1) := by
  cases bytes with
  | nil => simp [untagFirst]
  | cons b bytes =>
    have hlt := beValue_lt bytes
    have hb : b.toNat % 64 + 1 ≤ 64 := Nat.mod_lt _ (by omega)
    rw [untagFirst, beValue_cons, and_mask_toNat, List.length_cons, Nat.add_sub_cancel]
    calc b.toNat % 64 * 256 ^ bytes.length + beValue bytes
        < b.toNat % 64 * 256 ^ bytes.length + 256 ^ bytes.length := Nat.add_lt_add_left hlt _
      _ = (b.toNat % 64 + 1) * 256 ^ bytes.length := by ring
      _ ≤ 64 * 256 ^ bytes.length := Nat.mul_le_mul_right _ hb

/-- Clearing the two upper bits takes the remainder. -/
theorem beValue_untagFirst_mod (bytes : List UInt8) :
    beValue (untagFirst bytes) = beValue bytes % (256 ^ (bytes.length - 1) * 64) := by
  cases bytes with
  | nil => simp [untagFirst]
  | cons b bytes =>
    have hlt := beValue_lt bytes
    have hmod : (b.toNat * 256 ^ bytes.length + beValue bytes) % 256 ^ bytes.length =
        beValue bytes := by
      rw [Nat.mul_comm, Nat.mul_add_mod, Nat.mod_eq_of_lt hlt]
    have hdiv : (b.toNat * 256 ^ bytes.length + beValue bytes) / 256 ^ bytes.length = b.toNat := by
      rw [Nat.mul_comm, Nat.mul_add_div (Nat.pow_pos (by decide)), Nat.div_eq_of_lt hlt,
        Nat.add_zero]
    rw [untagFirst, beValue_cons, and_mask_toNat, beValue_cons, List.length_cons,
      Nat.add_sub_cancel,
      Nat.mod_mul, hmod, hdiv, Nat.mul_comm, Nat.add_comm]

/-- The first byte of a number that leaves two bits free. -/
theorem first_lt {width v : ℕ} (h : v < 64 * 256 ^ width) : v / 256 ^ width < 64 :=
  Nat.div_lt_of_lt_mul (by rwa [Nat.mul_comm])

/-- The bytes of a number that leaves two bits free, with a tag. -/
theorem tagFirst_beBytes {width v k : ℕ} (h : v < 64 * 256 ^ width) (hk : k < 4) :
    ∃ b : UInt8, tagFirst (UInt8.ofNat (64 * k)) (beBytes (width + 1) v) = b :: beBytes width v ∧
      b.toNat = v / 256 ^ width + 64 * k := by
  have hfirst := first_lt h
  have hbyte : (UInt8.ofNat (v / 256 ^ width)).toNat = v / 256 ^ width := by
    rw [UInt8.toNat_ofNat']
    exact Nat.mod_eq_of_lt (hfirst.trans (by decide))
  refine ⟨_, by rw [beBytes_succ]; rfl, ?_⟩
  rw [or_tag_toNat (hbyte.trans_lt hfirst) hk, hbyte]

/-- A number with a tag is read back. -/
theorem beValue_untagFirst {width v k : ℕ} (h : v < 64 * 256 ^ width) (hk : k < 4) :
    beValue (untagFirst (tagFirst (UInt8.ofNat (64 * k)) (beBytes (width + 1) v))) = v := by
  obtain ⟨b, hbytes, hb⟩ := tagFirst_beBytes h hk
  rw [hbytes, untagFirst, beValue_cons, and_mask_toNat, beBytes_length, beValue_beBytes_mod, hb,
    Nat.add_mul_mod_self_left, Nat.mod_eq_of_lt (first_lt h), Nat.mul_comm]
  exact Nat.div_add_mod v _

end Dtp.Lib
