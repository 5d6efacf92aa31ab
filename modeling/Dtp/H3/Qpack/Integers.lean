import Mathlib.Data.Nat.Digits.Defs
import Dtp.H3.Qpack.Codec

/-!
# Integers of header blocks

The first byte of an integer has room for some bits. If these are all set, bytes with seven bits
each follow, lowest first. The decoder adds them up in 64 bits, and checks the sum and how far
each of the bytes is shifted, but not which of their bits are shifted out.

## Main definitions

* `prefixInt` — the integer at the start of some bytes
* `DecodesExactly` — the decoder reads that integer, or fails
* `Truncates` — the tenth byte behind the first has bits that are shifted out

## Main results

* `decodeInt_exact_iff` — the integers that are not decoded exactly
-/

namespace Dtp.H3.Qpack

open Lib (Program)
open Lib.Cursor (Fills Reads)

/-! ### The integer -/

/-- The lower bits of some bytes, lowest first. -/
def groups (tail : List UInt8) : ℕ := Nat.ofDigits 128 (tail.map fun b => b.toNat % 128)

/-- What follows the first byte of an integer, and what is behind it. -/
def tailInt : List UInt8 → Option (ℕ × List UInt8)
  | [] => none
  | b :: input =>
    if b.toNat < 128 then some (b.toNat, input)
    else (tailInt input).map fun (v, rest) => (b.toNat % 128 + 128 * v, rest)

/-- The integer at the start of some bytes, and what is behind it. -/
def prefixInt (bits : ℕ) : List UInt8 → Option (ℕ × List UInt8)
  | [] => none
  | b :: input =>
    let val := b.toNat % 2 ^ bits
    if val < 2 ^ bits - 1 then some (val, input)
    else (tailInt input).map fun (v, rest) => (val + v, rest)

/-- If the decoder reads a number, it is that at the start of the input, and all of it is read. -/
def DecodesExactly (bits : ℕ) (input : List UInt8) : Prop :=
  ∀ before v b, decodeInt bits ⟨before, input⟩ = .ok v b → prefixInt bits input = some (v, b.after)

/-- All bits of the first byte are set, and the last one of ten more bytes has more than the bit
that is left of 64, while the others are in range. -/
def Truncates (bits : ℕ) (input : List UInt8) : Prop :=
  ∃ first tail last rest, input = first :: (tail ++ last :: rest) ∧
    first.toNat % 2 ^ bits = 2 ^ bits - 1 ∧
    (∀ b ∈ tail, 128 ≤ b.toNat) ∧ tail.length = 9 ∧ 2 ≤ last.toNat ∧ last.toNat < 128 ∧
    2 ^ bits - 1 + groups tail + last.toNat % 2 * 2 ^ 63 < 2 ^ 64

@[simp] theorem groups_nil : groups [] = 0 := rfl

@[simp] theorem groups_cons (b : UInt8) (tail : List UInt8) :
    groups (b :: tail) = b.toNat % 128 + 128 * groups tail := by
  unfold groups
  rw [List.map_cons, Nat.ofDigits_cons]

private theorem tailInt_append {tail rest : List UInt8} {last : UInt8}
    (htail : ∀ b ∈ tail, 128 ≤ b.toNat)
    (hlast : last.toNat < 128) :
    tailInt (tail ++ last :: rest) = some (groups tail + last.toNat * 128 ^ tail.length, rest) := by
  induction tail with
  | nil =>
    rw [List.nil_append, tailInt, if_pos hlast, groups_nil, List.length_nil, pow_zero, mul_one,
      zero_add]
  | cons b tail ih =>
    have hrest := ih fun b hb => htail b (List.mem_cons_of_mem _ hb)
    have hmore : ¬ b.toNat < 128 := not_lt.mpr (htail b List.mem_cons_self)
    rw [List.cons_append, tailInt, if_neg hmore, hrest, groups_cons, List.length_cons, pow_succ]
    dsimp only [Option.map_some]
    rw [mul_add, ← add_assoc, mul_left_comm, mul_comm 128 (128 ^ tail.length)]

/-! ### The decoder -/

private theorem byte_bits (b : UInt8) : b.toNat &&& 0x7f = b.toNat % 128 ∧
    (b.toNat &&& 0x80 = 0 ↔ b.toNat < 128) := by
  refine ⟨Nat.and_two_pow_sub_one_eq_mod b.toNat 7, ?_⟩
  by_cases hlast : b.toNat < 128
  · exact iff_of_true (seven_bits _ hlast).2.1 hlast
  · have hlt := b.toNat_lt
    have hmore := (seven_bits (b.toNat - 128) (by omega)).2.2.2
    rw [Nat.sub_add_cancel (not_lt.mp hlast)] at hmore
    exact iff_of_false hmore hlast

/-- A byte behind the first. -/
theorem decodeIntLoop_cons {fuel val k : ℕ} (before input : List UInt8) (b : UInt8)
    (hshift : 7 * k < 64) :
    decodeIntLoop (fuel + 1) val (7 * k) ⟨before, b :: input⟩ =
      if 2 ^ 64 ≤ val + b.toNat % 128 * 2 ^ (7 * k) % 2 ^ 64 then
        .error (.error .bufferTooShort) ⟨before ++ [b], input⟩
      else if b.toNat < 128 then
        .ok (val + b.toNat % 128 * 2 ^ (7 * k) % 2 ^ 64) ⟨before ++ [b], input⟩
      else decodeIntLoop fuel (val + b.toNat % 128 * 2 ^ (7 * k) % 2 ^ 64) (7 * (k + 1))
          ⟨before ++ [b], input⟩ := by
  obtain ⟨hlow, hmore⟩ := byte_bits b
  have hcap : ¬ Octets.cap ⟨before, b :: input⟩ = 0 := by simp [Octets.cap]
  have hread := getU8_reads b input before
  rw [List.singleton_append] at hread
  rw [decodeIntLoop, Program.bind_apply, Program.get_apply]
  dsimp only
  rw [if_neg hcap, Program.bind_apply, hread]
  dsimp only
  rw [if_neg (not_le.mpr hshift), hlow, Nat.shiftLeft_eq, ← Nat.mul_succ]
  split_ifs with hover hlast hbyte hbyte
  · rfl
  · rfl
  · exact absurd (hmore.mp hlast) hbyte
  · exact absurd (hmore.mpr hbyte) hlast
  · rfl

private theorem decodeIntLoop_stops {fuel val k : ℕ} (b : Octets) (hshift : ¬ 7 * k < 64) :
    ∃ b', decodeIntLoop fuel val (7 * k) b = .error (.error .bufferTooShort) b' := by
  cases fuel with
  | zero => exact ⟨b, rfl⟩
  | succ fuel =>
    obtain ⟨before, after⟩ := b
    cases after with
    | nil => exact ⟨_, rfl⟩
    | cons first input =>
      have hread := getU8_reads first input before
      rw [List.singleton_append] at hread
      refine ⟨⟨before ++ [first], input⟩, ?_⟩
      have hcap : ¬ Octets.cap ⟨before, first :: input⟩ = 0 := by simp [Octets.cap]
      rw [decodeIntLoop, Program.bind_apply, Program.get_apply]
      dsimp only
      rw [if_neg hcap, Program.bind_apply, hread]
      dsimp only
      rw [if_pos (not_lt.mp hshift)]
      rfl

/-- The bytes behind the first that the decoder reads as a number: of the tenth, it only has the
lowest bit. -/
structure ReadsTail (fuel val k : ℕ) (before input : List UInt8) (v : ℕ) (b' : Octets)
    (tail : List UInt8) (last : UInt8)
    (rest : List UInt8) : Prop where
  splits : input = tail ++ last :: rest
  more : ∀ b ∈ tail, 128 ≤ b.toNat
  ends : last.toNat < 128
  enough : tail.length < fuel
  short : k + tail.length ≤ 9
  value : v = val + groups tail * 2 ^ (7 * k) + last.toNat * 2 ^ (7 * (k + tail.length)) % 2 ^ 64
  bounded : v < 2 ^ 64
  buffer : b' = ⟨before ++ tail ++ [last], rest⟩

/-- The first nine bytes are not truncated. -/
theorem shift_lt {x k : ℕ} (hx : x < 128) (hk : k ≤ 8) : x * 2 ^ (7 * k) % 2 ^ 64 = x * 2 ^
    (7 * k) := by
  apply Nat.mod_eq_of_lt
  calc x * 2 ^ (7 * k) ≤ 127 * 2 ^ (7 * 8) :=
        Nat.mul_le_mul (by omega) (Nat.pow_le_pow_right (by decide) (by omega))
    _ < 2 ^ 64 := by decide

/-- The sum with a byte more in front. -/
theorem groups_shifted (val k : ℕ) (b : UInt8) (tail : List UInt8) :
    val + b.toNat % 128 * 2 ^ (7 * k) + groups tail * 2 ^ (7 * (k + 1)) =
      val + groups (b :: tail) * 2 ^ (7 * k) := by
  have hseven : (128 : ℕ) = 2 ^ 7 := rfl
  rw [groups_cons, Nat.mul_succ, pow_add, add_mul, add_assoc, mul_comm (2 ^ (7 * k)) (2 ^ 7),
    ← mul_assoc,
    mul_comm (groups tail) (2 ^ 7), ← hseven]

section Tail

variable {fuel val k v : ℕ} {before input : List UInt8} {b : UInt8} {b' : Octets}

/-- A byte below 128 is the last one. -/
theorem readsTail_last (hshift : 7 * k < 64) (hlast : b.toNat < 128) :
    (∃ tail last rest, ReadsTail (fuel + 1) val k before (b :: input) v b' tail last rest) ↔
      v = val + b.toNat * 2 ^ (7 * k) % 2 ^ 64 ∧ v < 2 ^ 64 ∧ b' = ⟨before ++ [b], input⟩ := by
  constructor
  · rintro ⟨tail, last, rest, h⟩
    cases tail with
    | nil =>
      have hsplits := h.splits
      have hvalue := h.value
      have hbuffer := h.buffer
      rw [List.nil_append] at hsplits
      cases hsplits
      rw [groups_nil, zero_mul, add_zero] at hvalue
      rw [List.append_nil] at hbuffer
      exact ⟨hvalue, h.bounded, hbuffer⟩
    | cons first tail =>
      have hsplits := h.splits
      rw [List.cons_append] at hsplits
      cases hsplits
      exact absurd hlast (not_lt.mpr (h.more b List.mem_cons_self))
  · rintro ⟨hvalue, hbounded, hbuffer⟩
    refine ⟨[], b, input, rfl, nofun, hlast, Nat.succ_pos _, by dsimp only [List.length_nil]; omega,
      ?_, hbounded, ?_⟩
    · rw [groups_nil, zero_mul, add_zero]
      exact hvalue
    · rw [List.append_nil, hbuffer]

/-- Behind a byte from 128 on, the others are read into the sum. -/
theorem readsTail_more (hmore : ¬ b.toNat < 128) :
    (∃ tail last rest, ReadsTail (fuel + 1) val k before (b :: input) v b' tail last rest) ↔
      ∃ tail last rest, ReadsTail fuel (val + b.toNat % 128 * 2 ^ (7 * k)) (k + 1) (before ++ [b])
        input v b' tail last rest := by
  constructor
  · rintro ⟨tail, last, rest, h⟩
    cases tail with
    | nil =>
      have hsplits := h.splits
      rw [List.nil_append] at hsplits
      cases hsplits
      -- the byte says that more follow, so it is not the last one
      exact absurd h.ends hmore
    | cons first tail =>
      have hsplits := h.splits
      have hshort := h.short
      have hvalue := h.value
      have hbuffer := h.buffer
      rw [List.cons_append] at hsplits
      cases hsplits
      rw [List.length_cons] at hshort hvalue
      have hnext : k + (tail.length + 1) = k + 1 + tail.length := by omega
      rw [← groups_shifted, hnext] at hvalue
      refine ⟨tail, last, rest, rfl, fun x hx => h.more x (List.mem_cons_of_mem _ hx), h.ends,
        Nat.lt_of_succ_lt_succ h.enough, by omega, hvalue, h.bounded, ?_⟩
      rw [hbuffer, List.append_cons before b tail]
  · rintro ⟨tail, last, rest, h⟩
    have hshort := h.short
    have hvalue := h.value
    have hbuffer := h.buffer
    rw [groups_shifted, Nat.add_right_comm k 1] at hvalue
    refine ⟨b :: tail, last, rest, ?_, ?_, h.ends, Nat.succ_lt_succ h.enough, ?_, hvalue,
      h.bounded, ?_⟩
    · rw [h.splits, List.cons_append]
    · intro x hx
      rcases List.mem_cons.mp hx with rfl | hx
      · exact not_lt.mp hmore
      · exact h.more x hx
    · rw [List.length_cons]
      omega
    · rw [hbuffer, List.append_cons before b tail]

/-- Nothing is read from an empty buffer, nor with a shift that is too large. -/
theorem not_readsTail (h : input = [] ∨ ¬ 7 * k < 64) :
    ¬ ∃ tail last rest, ReadsTail fuel val k before input v b' tail last rest := by
  rintro ⟨tail, last, rest, hreads⟩
  rcases h with rfl | hshift
  · exact List.append_ne_nil_of_right_ne_nil _ (List.cons_ne_nil _ _) hreads.splits.symm
  · have := hreads.short
    omega

theorem ReadsTail.val_le {tail rest : List UInt8} {last : UInt8}
    (h : ReadsTail fuel val k before input v b' tail last rest) : val < 2 ^ 64 ∧ k ≤ 9 := by
  have hshort := h.short
  have hvalue := h.value
  have hbounded := h.bounded
  omega

end Tail

theorem decodeIntLoop_eq_ok {fuel val k v : ℕ} {before input : List UInt8} {b' : Octets} :
    decodeIntLoop fuel val (7 * k) ⟨before, input⟩ = .ok v b' ↔
      ∃ tail last rest, ReadsTail fuel val k before input v b' tail last rest := by
  induction fuel generalizing val k before input with
  | zero =>
    refine iff_of_false nofun ?_
    rintro ⟨tail, last, rest, h⟩
    exact Nat.not_lt_zero _ h.enough
  | succ fuel ih =>
    cases input with
    | nil => exact iff_of_false nofun (not_readsTail (.inl rfl))
    | cons b input =>
      by_cases hshift : 7 * k < 64
      swap
      · obtain ⟨b'', hstops⟩ := @decodeIntLoop_stops (fuel + 1) val k ⟨before, b :: input⟩ hshift
        rw [hstops]
        exact iff_of_false nofun (not_readsTail (.inr hshift))
      rw [decodeIntLoop_cons before input b hshift]
      by_cases hlast : b.toNat < 128
      · rw [if_pos hlast, readsTail_last hshift hlast, Nat.mod_eq_of_lt hlast]
        split_ifs with hover
        · refine iff_of_false nofun ?_
          rintro ⟨rfl, hbounded, -⟩
          exact absurd hbounded (not_lt.mpr hover)
        · constructor
          · intro h
            cases h
            exact ⟨rfl, not_le.mp hover, rfl⟩
          · rintro ⟨rfl, -, rfl⟩
            rfl
      · have hgroup : b.toNat % 128 < 128 := Nat.mod_lt _ (by decide)
        rw [if_neg hlast, readsTail_more hlast]
        -- where a tenth byte follows, nothing of this one is cut off
        constructor
        · intro h
          split_ifs at h
          obtain ⟨tail, last, rest, h⟩ := ih.mp h
          have hle := h.val_le.2
          rw [shift_lt hgroup (by omega)] at h
          exact ⟨tail, last, rest, h⟩
        · rintro ⟨tail, last, rest, h⟩
          obtain ⟨hlt, hle⟩ := h.val_le
          rw [shift_lt hgroup (by omega), if_neg (not_le.mpr hlt)]
          exact ih.mpr ⟨tail, last, rest, h⟩

theorem decodeInt_cons (bits : ℕ) (before input : List UInt8) (first : UInt8) :
    decodeInt bits ⟨before, first :: input⟩ =
      if first.toNat % 2 ^ bits < 2 ^ bits - 1 then .ok (first.toNat % 2 ^ bits)
        ⟨before ++ [first], input⟩
      else decodeIntLoop input.length (first.toNat % 2 ^ bits) (7 * 0) ⟨before ++ [first],
          input⟩ := by
  have hread := getU8_reads first input before
  rw [List.singleton_append] at hread
  unfold decodeInt
  dsimp only
  rw [Program.bind_apply, hread]
  dsimp only
  rw [Nat.and_two_pow_sub_one_eq_mod]
  split_ifs with hshort
  · rfl
  · rfl

theorem prefixInt_long {bits : ℕ} {first last : UInt8} {tail rest : List UInt8}
    (hfirst : ¬ first.toNat % 2 ^ bits < 2 ^ bits - 1) (hmore : ∀ b ∈ tail, 128 ≤ b.toNat)
    (hlast : last.toNat < 128) :
    prefixInt bits (first :: (tail ++ last :: rest)) =
      some (first.toNat % 2 ^ bits + (groups tail + last.toNat * 2 ^ (7 * tail.length)), rest) := by
  rw [prefixInt]
  dsimp only
  rw [if_neg hfirst, tailInt_append hmore hlast, pow_mul]
  rfl

/-- All but the lowest bit of the tenth byte are lost. -/
theorem tenth_byte (x : ℕ) : x * 2 ^ (7 * 9) % 2 ^ 64 = x % 2 * 2 ^ 63 := Nat.mul_mod_mul_right
    (2 ^ 63) x 2

/-- An integer is decoded exactly, or not at all, unless the tenth byte behind the first has bits
that are shifted out; and every integer of 64 bits is read back. -/
theorem decodeInt_exact_iff {bits : ℕ} (hbits : bits ≤ 8) :
    (∀ input, DecodesExactly bits input ↔ ¬ Truncates bits input) ∧
      ∀ v < 2 ^ 64, ∀ first < 256, first % 2 ^ bits = 0 → ∃ output,
        Fills .bufferTooShort (encodeInt v first bits) output ∧
            ∀ rest, Reads (decodeInt bits) output rest v := by
  refine ⟨fun input => ⟨?_, ?_⟩, ?_⟩
  · rintro hexact ⟨first, tail, last, rest, rfl, hfirst, hmore, hlen, hlarge, hlast, hbounded⟩
    have hlong : ¬ first.toNat % 2 ^ bits < 2 ^ bits - 1 := by omega
    have hreads : ReadsTail (tail ++ last :: rest).length (2 ^ bits - 1) 0 [first]
      (tail ++ last :: rest)
        (2 ^ bits - 1 + groups tail + last.toNat % 2 * 2 ^ 63) ⟨[first] ++ tail ++ [last],
            rest⟩ tail last rest := by
      refine ⟨rfl, hmore, hlast, ?_, by omega, ?_, hbounded, rfl⟩
      · rw [List.length_append, List.length_cons]
        omega
      · rw [Nat.zero_add, hlen, tenth_byte, Nat.mul_zero, pow_zero, Nat.mul_one]
    have hdecode := decodeIntLoop_eq_ok.mpr ⟨tail, last, rest, hreads⟩
    -- of the tenth byte the decoder keeps one bit
    have hwrong := hexact [] _ _ (by rw [decodeInt_cons, if_neg hlong, hfirst]; exact hdecode)
    rw [prefixInt_long hlong hmore hlast, hlen, hfirst] at hwrong
    injection hwrong with hwrong
    injection hwrong with hvalue
    omega
  · intro hfits before v b' hdecode
    cases input with
    | nil => cases hdecode
    | cons first input =>
      rw [decodeInt_cons] at hdecode
      split_ifs at hdecode with hshort
      · cases hdecode
        rw [prefixInt]
        dsimp only
        rw [if_pos hshort]
      · obtain ⟨tail, last, rest, h⟩ := decodeIntLoop_eq_ok.mp hdecode
        have hlen := h.short
        have hvalue := h.value
        rw [Nat.zero_add, Nat.mul_zero, pow_zero, Nat.mul_one] at hvalue
        rw [Nat.zero_add] at hlen
        rw [h.splits, prefixInt_long hshort h.more h.ends, h.buffer, hvalue, ← Nat.add_assoc]
        suffices hkept : last.toNat * 2 ^ (7 * tail.length) % 2 ^ 64 = last.toNat * 2 ^
            (7 * tail.length) by
          rw [hkept]
        -- up to nine bytes nothing is shifted out
        by_cases hnine : tail.length ≤ 8
        · exact shift_lt h.ends hnine
        have hnine : tail.length = 9 := by omega
        rw [hnine, tenth_byte] at hvalue ⊢
        by_cases hsmall : last.toNat < 2
        · rw [Nat.mod_eq_of_lt hsmall]
        have hfirst : first.toNat % 2 ^ bits = 2 ^ bits - 1 := by
          have := Nat.mod_lt first.toNat (Nat.two_pow_pos bits)
          omega
        refine absurd ⟨first, tail, last, rest, ?_, hfirst, h.more, hnine, not_lt.mp hsmall,
          h.ends, ?_⟩ hfits
        · rw [h.splits]
        · rw [← hfirst, ← hvalue]
          exact h.bounded
  · intro v hv first hfirst hlower
    obtain ⟨low, tail, -, hfills, -, hreads⟩ := encodeInt_fills v hbits hfirst hlower
    exact ⟨_, hfills, hreads hv⟩

/-- The number 127 is decoded from a single byte behind the first, and from nine more. -/
theorem decodeInt_exact_seven : DecodesExactly 7 [0x7f, 0x00] ∧
    ¬ DecodesExactly 7 (0x7f :: (List.replicate 9 0x80 ++ [0x02])) := by
  have h := (@decodeInt_exact_iff 7 (by decide)).1
  refine ⟨(h _).mpr ?_, fun hexact => (h _).mp hexact ?_⟩
  · rintro ⟨first, tail, last, rest, hinput, -, -, hlen, -⟩
    have hlength := congrArg List.length hinput
    simp only [List.length_cons, List.length_append, List.length_nil] at hlength
    omega
  · exact ⟨0x7f, List.replicate 9 0x80, 0x02, [], rfl, by decide, by decide +kernel,
      List.length_replicate,
      by decide +kernel, by decide +kernel, by decide +kernel⟩

/-- Ten bytes with the number 2^64 behind a full prefix are read as the prefix alone. -/
theorem not_decodesExactly : ¬ ∀ bits input, 1 ≤ bits → bits ≤ 8 → DecodesExactly bits input := by
  intro hall
  have hexact := hall 8 (0xff :: (List.replicate 9 0x80 ++ [0x02])) (by decide) (by decide)
  have hdecode : decodeInt 8 ⟨[], 0xff :: (List.replicate 9 0x80 ++ [0x02])⟩ =
      .ok 255 ⟨0xff :: (List.replicate 9 0x80 ++ [0x02]), []⟩ := by rfl
  have hvalue : prefixInt 8 (0xff :: (List.replicate 9 0x80 ++ [0x02])) = some
    (2 ^ 64 + 255, []) := by decide +kernel
  have hwrong := hexact [] _ _ hdecode
  rw [hvalue] at hwrong
  injection hwrong with hwrong
  injection hwrong with hwrong
  exact absurd hwrong (by decide)

end Dtp.H3.Qpack
