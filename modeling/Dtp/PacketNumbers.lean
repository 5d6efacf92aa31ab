import Mathlib.Data.Nat.Bitwise
import Mathlib.Tactic.IntervalCases
import Dtp.Connection
import Dtp.Lib.BigEndian
import Dtp.Lib.Runs

/-!
# Numbering packets

Only the last bytes of a packet number are sent. How many of them depends on the number alone;
the receiver completes them to the number closest to the one behind the largest that it knows.
Packets that arrive late count as duplicates once the window of numbers has moved past them.

## Main definitions

* `decodePktNum` — completing a packet number
* `Nearest` — a number is the nearest one to the number expected next
* `PktNumWindow.Recognises` — the numbers that a window stands for
* `PktNumSpace.arrive` — what a packet does to the space that it arrives in
* `PktNumSpace.FirstArrival` — a packet that is neither a duplicate nor too old

## Main results

* `decodePktNum_eq_iff` — which numbers are completed correctly
* `decodePktNum_nearest` — a number is completed to the nearest candidate
* `PktNumWindow.insertAll_exact` — what counts as a duplicate
* `PktNumSpace.decodes_iff` — in which runs every first arrival gets its number
-/

namespace Dtp

open Lib (beBytes beValue)
open Connection (RxPacket)

/-- The full number of a packet, from its last bytes and the largest number received. -/
def decodePktNum (largestPn truncatedPn pnLen : ℕ) : ℕ :=
  let pnNbits := pnLen * 8
  let expectedPn := largestPn + 1
  let pnWin := 1 <<< pnNbits
  let pnHwin := pnWin / 2
  let pnMask := pnWin - 1
  let candidatePn := (expectedPn &&& (u64Max - pnMask)) ||| truncatedPn
  if candidatePn + pnHwin ≤ expectedPn ∧ candidatePn < 1 <<< 62 - pnWin then candidatePn + pnWin
  else if candidatePn > expectedPn + pnHwin ∧ candidatePn ≥ pnWin then candidatePn - pnWin
  else candidatePn

/-! ### Completing a number -/

/-- Masking the lower bits of a `u64`. -/
theorem and_not_mask {x : ℕ} (h : x < 2 ^ 64) (k : ℕ) (hk : k ≤ 64) :
    x &&& (u64Max - (1 <<< k - 1)) = 2 ^ k * (x / 2 ^ k) := by
  have hpos : 0 < 2 ^ k := Nat.two_pow_pos k
  have hpow : 2 ^ k ≤ 2 ^ 64 := Nat.pow_le_pow_right (by decide) hk
  have hmask : u64Max - (1 <<< k - 1) = 2 ^ 64 - ((2 ^ k - 1) + 1) := by
    rw [Nat.one_shiftLeft, u64Max]
    omega
  have hshift : 2 ^ k * (x / 2 ^ k) = x >>> k <<< k := by
    rw [Nat.shiftLeft_eq, Nat.shiftRight_eq_div_pow, Nat.mul_comm]
  rw [hmask, hshift]
  refine Nat.eq_of_testBit_eq fun i => ?_
  rw [Nat.testBit_and, Nat.testBit_two_pow_sub_succ (by omega), Nat.testBit_two_pow_sub_one,
    Nat.testBit_shiftLeft, Nat.testBit_shiftRight]
  by_cases hi : i < 64
  · by_cases hik : i < k
    · simp [hik, Nat.not_le.mpr hik]
    · rw [Nat.add_sub_cancel' (Nat.not_lt.mp hik)]
      simp [hi, hik, Nat.not_lt.mp hik]
  · have hle : k ≤ i := by omega
    have hx : x.testBit i = false :=
      Nat.testBit_lt_two_pow (h.trans_le (Nat.pow_le_pow_right (by decide) (Nat.not_lt.mp hi)))
    rw [Nat.add_sub_cancel' hle, hx, Bool.false_and, Bool.and_false]

/-- The candidate has the upper bits of the expected number. -/
theorem candidate_eq {expected truncated : ℕ} (h : expected < 2 ^ 64) {k : ℕ} (hk : k ≤ 64)
    (htruncated : truncated < 2 ^ k) :
    (expected &&& (u64Max - (1 <<< k - 1))) ||| truncated =
        2 ^ k * (expected / 2 ^ k) + truncated := by
  rw [and_not_mask h k hk, Nat.two_pow_add_eq_or_of_lt htruncated]

/-- A number that is sent fits the bytes it takes. -/
theorem pktNumLen_spec {pn len : ℕ} (h : pktNumLen pn = some len) :
    (len = 1 ∧ pn < 255) ∨ (len = 2 ∧ 255 ≤ pn ∧ pn < 65535) ∨ len = 4 ∧ 65535 ≤ pn ∧
        pn < 4294967295 := by
  unfold pktNumLen at h
  split_ifs at h <;> cases h <;> omega

/-- Where the window has not moved past a number, it is completed correctly unless it takes one byte
and is half of the range of a byte behind the number expected. -/
theorem decodePktNum_eq_iff {largest pn len : ℕ} (h : pktNumLen pn = some len)
    (hlargest : largest < 2 ^ 32)
    (hrecent : largest ≤ pn + 127) : decodePktNum largest (beValue (beBytes len pn)) len = pn ↔
      ¬ (pn < 255 ∧ largest = pn + 127) := by
  have hexpected : largest + 1 < 2 ^ 64 := by omega
  unfold decodePktNum
  dsimp only
  obtain ⟨rfl, hpn⟩ | ⟨rfl, hge, hlt⟩ | ⟨rfl, hge, hlt⟩ := pktNumLen_spec h
  · have hfits : pn < 256 ^ 1 := by omega
    rw [Lib.beValue_beBytes hfits, candidate_eq hexpected (by decide) (by omega)]
    norm_num only [Nat.one_shiftLeft]
    split_ifs <;> omega
  · have hfits : pn < 256 ^ 2 := by omega
    rw [Lib.beValue_beBytes hfits, candidate_eq hexpected (by decide) (by omega)]
    norm_num only [Nat.one_shiftLeft]
    split_ifs <;> omega
  · have hfits : pn < 256 ^ 4 := by omega
    rw [Lib.beValue_beBytes hfits, candidate_eq hexpected (by decide) (by omega)]
    norm_num only [Nat.one_shiftLeft]
    split_ifs <;> omega

/-- The candidate in plain arithmetic, where `w` is the size of the window of `k` bits. -/
theorem decodePktNum_eq {largest truncated len w h : ℕ} (hlargest : largest + 1 < 2 ^ 64)
    (hlen : len ≤ 4)
    (hw : 2 ^ (len * 8) = w) (hh : w / 2 = h) (htruncated : truncated < w) :
    decodePktNum largest truncated len =
      if w * ((largest + 1) / w) + truncated + h ≤ largest + 1 ∧
          w * ((largest + 1) / w) + truncated < 2 ^ 62 - w then
        w * ((largest + 1) / w) + truncated + w
      else if w * ((largest + 1) / w) + truncated > largest + 1 + h ∧
          w * ((largest + 1) / w) + truncated ≥ w then
        w * ((largest + 1) / w) + truncated - w
      else w * ((largest + 1) / w) + truncated := by
  unfold decodePktNum
  dsimp only
  rw [candidate_eq hlargest (by omega) (by rwa [hw]), Nat.one_shiftLeft, Nat.one_shiftLeft, hw, hh]

/-- Whether a number is at most half of the window of `k` bits away from the one expected. -/
def Nearest (largest k : ℕ) (p : ℤ) : Prop :=
  (largest + 1 : ℤ) - 2 ^ (k - 1) < p ∧ p ≤ (largest + 1 : ℤ) + 2 ^ (k - 1)

/-- What is completed ends with the bytes that were sent, and is the number closest to the one
expected, unless no packet has that number. -/
theorem decodePktNum_congr {largest truncated len : ℕ} (hlargest : largest < 2 ^ 62 - 1)
    (hpos : 1 ≤ len)
    (hlen : len ≤ 4) (htruncated : truncated < 2 ^ (8 * len)) :
    decodePktNum largest truncated len % 2 ^ (8 * len) = truncated ∧
      (Nearest largest (8 * len) (decodePktNum largest truncated len) ∨
        ∀ p : ℤ, Nearest largest (8 * len) p → p % 2 ^ (8 * len) = truncated → p < 0 ∨
            2 ^ 62 ≤ p) := by
  have hexpected : largest + 1 < 2 ^ 64 := by omega
  unfold Nearest
  interval_cases len
  all_goals
    rw [decodePktNum_eq hexpected (by decide) rfl rfl htruncated]
    norm_num only at *
    split_ifs with hup hdown
    · exact ⟨by omega, .inl (by omega)⟩
    · exact ⟨by omega, .inl (by omega)⟩
    · refine ⟨by omega, ?_⟩
      -- Where the candidate is too far away, the one next to it is out of range.
      rw [or_iff_not_imp_left]
      rintro hfar p ⟨hlow, hhigh⟩ hmod
      omega

/-- Two numbers in the window that end with the same bytes are one. -/
theorem Nearest.unique {largest k : ℕ} {p q : ℤ} (hk : 1 ≤ k) (hp : Nearest largest k p)
    (hq : Nearest largest k q)
    (hmod : p % 2 ^ k = q % 2 ^ k) : p = q := by
  have hwindow : (2 : ℤ) ^ k = 2 * 2 ^ (k - 1) := by
    rw [← pow_succ', Nat.sub_add_cancel hk]
  obtain ⟨hplow, hphigh⟩ := hp
  obtain ⟨hqlow, hqhigh⟩ := hq
  have hdvd : (2 : ℤ) ^ k ∣ p - q := Int.dvd_of_emod_eq_zero
    (Int.emod_eq_emod_iff_emod_sub_eq_zero.mp hmod)
  have hclose : |p - q| < 2 ^ k := by
    rw [abs_lt, hwindow]
    constructor <;> omega
  exact sub_eq_zero.mp (Int.eq_zero_of_abs_lt_dvd hdvd hclose)

/-- The nearest candidate is found for all bytes that can be sent, so a packet number that is close
enough to the one expected is recovered from its last bytes. -/
theorem decodePktNum_nearest {largest len : ℕ} (hlargest : largest < 2 ^ 62 - 1) (hpos : 1 ≤ len)
    (hlen : len ≤ 4) :
    (∀ truncated < 2 ^ (8 * len),
      decodePktNum largest truncated len % 2 ^ (8 * len) = truncated ∧
        (Nearest largest (8 * len) (decodePktNum largest truncated len) ∨
          ∀ p : ℤ, Nearest largest (8 * len) p → p % 2 ^ (8 * len) = truncated → p < 0 ∨
            2 ^ 62 ≤ p)) ∧
      ∀ p : ℕ, p < 2 ^ 62 → Nearest largest (8 * len) p →
          decodePktNum largest (p % 2 ^ (8 * len)) len = p := by
  refine ⟨fun truncated => decodePktNum_congr hlargest hpos hlen, fun p hp hnear => ?_⟩
  have hmod : p % 2 ^ (8 * len) < 2 ^ (8 * len) := Nat.mod_lt p (Nat.two_pow_pos _)
  obtain ⟨hcongr, hfound | hnone⟩ := decodePktNum_congr hlargest hpos hlen hmod
  · have hsame := hfound.unique (by omega) hnear (by exact_mod_cast hcongr)
    exact_mod_cast hsame
  · have := hnone p hnear (by norm_cast)
    omega

/-- After packet 1000, the byte 0xe9 is that of packet 1001. -/
theorem decodePktNum_nearest_second : decodePktNum 1000 (1001 % 2 ^ (8 * 1)) 1 = 1001 :=
  (@decodePktNum_nearest 1000 1 (by decide) le_rfl (by decide)).2 1001
    (by decide) ⟨by decide, by decide⟩

namespace PktNumWindow

/-! ### Duplicates -/

variable {w : PktNumWindow}

theorem upper_eq (h : w.lower + 128 ≤ u64Max) : w.upper = w.lower + 127 := by
  unfold upper saturatingAdd
  omega

/-- A number is the last one of the window once it is recorded, or the window is beyond it. -/
theorem insert_lower (h : w.lower + 128 ≤ u64Max) (seq : ℕ) : (w.insert seq).lower = max w.lower
    (seq - 127) := by
  rw [insert, upper_eq h]
  by_cases hold : seq < w.lower
  · rw [if_pos hold]
    omega
  · rw [if_neg hold]
    by_cases hmoves : w.lower + 127 < seq
    · rw [if_pos hmoves]
      dsimp only
      omega
    · rw [if_neg hmoves]
      dsimp only
      omega

theorem contains_iff (h : w.lower + 128 ≤ u64Max) (s : ℕ) : w.contains s = true ↔
    s < w.lower ∨ s ≤ w.lower + 127 ∧ w.window.testBit (w.lower + 127 - s) = true := by
  rw [contains, upper_eq h]
  by_cases hnew : w.lower + 127 < s
  · rw [if_pos hnew]
    simp only [Bool.false_eq_true, false_iff]
    omega
  · rw [if_neg hnew]
    by_cases hold : s < w.lower
    · rw [if_pos hold]
      exact iff_of_true rfl (.inl hold)
    · rw [if_neg hold, or_iff_right hold, and_iff_right (not_lt.mp hnew)]

/-- Moving the window by less than 2^32 keeps the bits that do not fall out of it. -/
theorem testBit_shifted (window : ℕ) {diff i : ℕ} (hdiff : diff < 2 ^ 32) (hi : i < 128) :
    (if diff % 2 ^ 32 < 128 then (window <<< (diff % 2 ^ 32)) % 2 ^ 128 else 0).testBit i =
      (decide (diff ≤ i) && window.testBit (i - diff)) := by
  rw [Nat.mod_eq_of_lt hdiff]
  by_cases hwidth : diff < 128
  · rw [if_pos hwidth, Nat.testBit_mod_two_pow, Nat.testBit_shiftLeft, decide_eq_true hi,
      Bool.true_and]
  · rw [if_neg hwidth, Nat.zero_testBit, decide_eq_false (by omega), Bool.false_and]

private theorem insert_of_lt {seq : ℕ} (hold : seq < w.lower) : w.insert seq = w := if_pos hold

/-- A number inside the window is marked. -/
theorem insert_contains_inside {seq : ℕ} (h : w.lower + 128 ≤ u64Max) (hold : ¬ seq < w.lower)
    (hinside : ¬ w.lower + 127 < seq) (s : ℕ) :
    (w.insert seq).contains s = true ↔ s = seq ∨ w.contains s = true := by
  have hlower := insert_lower h seq
  rw [contains_iff (by omega), contains_iff h, hlower, max_eq_left (by omega), insert, if_neg hold,
    upper_eq h, if_neg hinside]
  dsimp only
  rw [upper_eq h]
  by_cases hgone : s < w.lower
  · exact iff_of_true (.inl hgone) (.inr (.inl hgone))
  rw [or_iff_right hgone, or_iff_right hgone]
  by_cases hnew : w.lower + 127 < s
  · refine iff_of_false (fun hs => absurd hs.1 (not_le.mpr hnew)) ?_
    rintro (rfl | hs)
    · exact hinside hnew
    · exact absurd hs.1 (not_le.mpr hnew)
  rw [and_iff_right (not_lt.mp hnew), and_iff_right (not_lt.mp hnew), Nat.testBit_or,
    Nat.one_shiftLeft,
    Nat.testBit_two_pow, Bool.or_eq_true, decide_eq_true_iff, or_comm]
  apply or_congr_left
  omega

/-- The window moves up to a number beyond it, and keeps the marks that do not fall out of it. -/
theorem insert_contains_beyond {seq : ℕ} (h : w.lower + 128 ≤ u64Max) (hseq : seq + 128 ≤ u64Max)
    (hbeyond : w.lower + 127 < seq) (hjump : seq < w.lower + 127 + 2 ^ 32) (s : ℕ) :
    (w.insert seq).contains s = true ↔ s < seq - 127 ∨ s = seq ∨ w.contains s = true := by
  have hlower := insert_lower h seq
  rw [contains_iff (by omega), contains_iff h, hlower, max_eq_right (by omega), insert,
    if_neg (by omega), upper_eq h, if_pos hbeyond]
  set diff := seq - (w.lower + 127) with hdiff
  have hupper : upper ⟨w.lower + diff,
      if diff % 2 ^ 32 < 128 then (w.window <<< (diff % 2 ^ 32)) % 2 ^ 128 else 0⟩ = seq := by
    rw [upper_eq (by dsimp only; omega)]
    dsimp only
    omega
  dsimp only
  rw [hupper, Nat.sub_self, Nat.sub_add_cancel (by omega : 127 ≤ seq), Nat.shiftLeft_zero]
  by_cases hgone : s < seq - 127
  · exact iff_of_true (.inl hgone) (.inl hgone)
  rw [or_iff_right hgone, or_iff_right hgone, or_iff_right (by omega : ¬ s < w.lower)]
  by_cases hnew : seq < s
  · refine iff_of_false (fun hs => absurd hs.1 (not_le.mpr hnew)) ?_
    rintro (rfl | hs)
    · exact hnew.false
    · omega
  rw [and_iff_right (not_lt.mp hnew), Nat.testBit_or, testBit_shifted _ (by omega) (by omega),
    Bool.or_eq_true, Bool.and_eq_true, decide_eq_true_iff, Nat.testBit_one_eq_true_iff_self_eq_zero]
  -- a number that was in the window before is as many places further up
  have hplace (hs : s ≤ w.lower + 127) : seq - s - diff = w.lower + 127 - s := by omega
  constructor
  · rintro (⟨hle, hbit⟩ | hzero)
    · rw [hplace (by omega)] at hbit
      exact .inr ⟨by omega, hbit⟩
    · exact .inl (by omega)
  · rintro (rfl | ⟨hs, hbit⟩)
    · exact .inr (Nat.sub_self s)
    · rw [hplace hs]
      exact .inl ⟨by omega, hbit⟩

/-- Inserting a number adds it to those that are recognised, and whatever the window moves past. -/
theorem insert_contains {seq : ℕ} (h : w.lower + 128 ≤ u64Max) (hseq : seq + 128 ≤ u64Max)
    (hjump : seq < w.upper + 2 ^ 32) (s : ℕ) : (w.insert seq).contains s = true ↔
      s < (w.insert seq).lower ∨ s = seq ∨ w.contains s = true := by
  rw [upper_eq h] at hjump
  rw [insert_lower h seq]
  have hbelow (hlt : s < w.lower) : w.contains s = true := (contains_iff h s).mpr (.inl hlt)
  by_cases hold : seq < w.lower
  · rw [insert_of_lt hold, max_eq_left (by omega)]
    constructor
    · intro hs
      exact .inr (.inr hs)
    · rintro (hs | rfl | hs)
      · exact hbelow hs
      · exact hbelow hold
      · exact hs
  by_cases hbeyond : w.lower + 127 < seq
  · rw [insert_contains_beyond h hseq hbeyond hjump, max_eq_right (by omega)]
  · rw [insert_contains_inside h hold hbeyond, max_eq_left (by omega)]
    constructor
    · intro hs
      exact .inr hs
    · rintro (hs | hs)
      · exact .inr (hbelow hs)
      · exact hs

private theorem insert_window (h : w.lower + 128 ≤ u64Max) (hwindow : w.window < 2 ^ 128) {seq : ℕ}
    (hseq : seq + 128 ≤ u64Max) : (w.insert seq).window < 2 ^ 128 := by
  have hmark {upper seq : ℕ} (hle : upper - seq < 128) : 1 <<< (upper - seq) < 2 ^ 128 := by
    rw [Nat.one_shiftLeft]
    exact Nat.pow_lt_pow_right (by decide) hle
  unfold insert
  rw [upper_eq h]
  by_cases hold : seq < w.lower
  · rw [if_pos hold]
    exact hwindow
  · rw [if_neg hold]
    by_cases hmoves : w.lower + 127 < seq
    · rw [if_pos hmoves]
      dsimp only
      rw [upper_eq (by dsimp only; omega)]
      apply Nat.or_lt_two_pow
      · split_ifs
        · exact Nat.mod_lt _ (Nat.two_pow_pos _)
        · exact Nat.two_pow_pos _
      · exact hmark (by dsimp only; omega)
    · rw [if_neg hmoves]
      dsimp only
      rw [upper_eq h]
      exact Nat.or_lt_two_pow hwindow (hmark (by omega))

/-- The numbers inserted one after the other. -/
def insertAll (w : PktNumWindow) (seqs : List ℕ) : PktNumWindow := seqs.foldl insert w

/-- Each of the numbers is less than 2^32 above the window that it comes to. -/
def InReach : PktNumWindow → List ℕ → Prop
  | _, [] => True
  | w, seq :: seqs => seq < 2 ^ 62 ∧ seq < w.upper + 2 ^ 32 ∧ InReach (w.insert seq) seqs

/-- The largest of the numbers, or zero. -/
def largest (seqs : List ℕ) : ℕ := seqs.foldr max 0

private theorem largest_append (seqs seqs' : List ℕ) : largest (seqs ++ seqs') = max (largest seqs)
    (largest seqs') := by
  induction seqs with
  | nil => exact (Nat.zero_max _).symm
  | cons seq seqs ih => exact (congrArg (max seq) ih).trans (Nat.max_assoc _ _ _).symm

/-- The window recognises some numbers, and those below its lower end. -/
structure Recognises (w : PktNumWindow) (seqs : List ℕ) : Prop where
  lower : w.lower = largest seqs - 127
  bounded : largest seqs < 2 ^ 62
  window : w.window < 2 ^ 128
  contains : ∀ s, w.contains s = true ↔ s < w.lower ∨ s ∈ seqs

private theorem recognises_default : Recognises ⟨0, 0⟩ [] where
  lower := rfl
  bounded := Nat.two_pow_pos 62
  window := Nat.two_pow_pos 128
  contains s := by
    rw [contains_iff (by decide), Nat.zero_testBit]
    simp

theorem Recognises.insert {seqs : List ℕ} (h : w.Recognises seqs) {seq : ℕ} (hseq : seq < 2 ^ 62)
    (hjump : seq < w.upper + 2 ^ 32) : (w.insert seq).Recognises (seqs ++ [seq]) := by
  have hlower := h.lower
  have hbounded := h.bounded
  have hroom : w.lower + 128 ≤ u64Max := by
    unfold u64Max
    omega
  have hseq' : seq + 128 ≤ u64Max := by
    unfold u64Max
    omega
  have hlargest : largest (seqs ++ [seq]) = max (largest seqs) seq := by
    rw [largest_append]
    exact congrArg (max _) (Nat.max_zero seq)
  have hmoved := insert_lower hroom seq
  constructor
  · rw [hmoved, hlargest, hlower]
    omega
  · rw [hlargest]
    omega
  · exact insert_window hroom h.window hseq'
  · intro s
    rw [insert_contains hroom hseq' hjump, h.contains, List.mem_append, List.mem_singleton]
    constructor
    · rintro (hs | rfl | hs | hs)
      · exact .inl hs
      · exact .inr (.inr rfl)
      · exact .inl (by omega)
      · exact .inr (.inl hs)
    · rintro (hs | hs | rfl)
      · exact .inl hs
      · exact .inr (.inr (.inr hs))
      · exact .inr (.inl rfl)

theorem Recognises.insertAll {seqs seqs' : List ℕ} (h : w.Recognises seqs)
    (hreach : w.InReach seqs') :
    (w.insertAll seqs').Recognises (seqs ++ seqs') := by
  induction seqs' generalizing w seqs with
  | nil =>
    rw [List.append_nil]
    exact h
  | cons seq seqs' ih =>
    obtain ⟨hseq, hjump, hreach⟩ := hreach
    have hrest := ih (h.insert hseq hjump) hreach
    rw [List.append_assoc] at hrest
    exact hrest

/-- Whatever is inserted stays recognised, nothing else is from the lower end on, and all below it
is. -/
theorem insertAll_exact {seqs : List ℕ} (hreach : InReach ⟨0, 0⟩ seqs) :
    (insertAll ⟨0, 0⟩ seqs).lower = largest seqs - 127 ∧ (insertAll ⟨0, 0⟩ seqs).window < 2 ^ 128 ∧
      (∀ s ∈ seqs, (insertAll ⟨0, 0⟩ seqs).contains s = true) ∧
      (∀ s ∉ seqs, largest seqs - 127 ≤ s → (insertAll ⟨0, 0⟩ seqs).contains s = false) ∧
      ∀ s < largest seqs - 127, (insertAll ⟨0, 0⟩ seqs).contains s = true := by
  have h := recognises_default.insertAll hreach
  rw [List.nil_append] at h
  refine ⟨h.lower, h.window, fun s hs => (h.contains s).mpr (.inr hs), fun s hs hle => ?_,
    fun s hs => ?_⟩
  · rw [Bool.eq_false_iff]
    intro hcontains
    rcases (h.contains s).mp hcontains with hlt | hmem
    · rw [h.lower] at hlt
      omega
    · exact hs hmem
  · apply (h.contains s).mpr
    rw [h.lower]
    exact .inl hs

/-- A number comes late, and another one moves the window past both. -/
theorem insertAll_exact_late : (insertAll ⟨0, 0⟩ [130, 5, 500]).lower = 373 ∧
    (insertAll ⟨0, 0⟩ [130, 5, 500]).contains 5 = true ∧
    (insertAll ⟨0, 0⟩ [130, 5, 500]).contains 499 = false := by
  have h := @insertAll_exact [130, 5, 500]
    ⟨by decide, by decide, by decide, by decide, by decide, by decide, trivial⟩
  exact ⟨h.1, h.2.2.1 5 (by decide), h.2.2.2.1 499 (by decide) (by decide)⟩

end PktNumWindow

namespace PktNumSpace

/-! ### Packets that arrive -/

/-- The number that a packet gets where it arrives, if it can be sent. -/
def decoded (s : PktNumSpace) (pkt : RxPacket) : Option ℕ :=
  (pktNumLen pkt.pktNum).map fun len =>
    decodePktNum s.largestRxPktNum (beValue (beBytes len pkt.pktNum)) len

/-- A packet arrives. It does not decrypt under a number other than its own, and duplicates are
ignored. -/
def arrive (s : PktNumSpace) (pkt : RxPacket) : Option PktNumSpace :=
  (s.decoded pkt).map fun pn =>
    if pn ≠ pkt.pktNum then s
    else if s.recvPktNum.contains pn then s
    else pkt.record s

/-- The window ends at the largest number received, once it has moved. -/
structure Numbered (s : PktNumSpace) : Prop where
  lower : s.recvPktNum.lower = s.largestRxPktNum - 127
  bounded : s.largestRxPktNum < 2 ^ 32

theorem numbered_new (now : ℕ) : (new now).Numbered where
  lower := by simp only [new, Nat.zero_sub]
  bounded := Nat.two_pow_pos 32

theorem Numbered.record {s : PktNumSpace} (h : s.Numbered) {pkt : RxPacket}
    (hpkt : pkt.pktNum < 2 ^ 32) :
    (pkt.record s).Numbered := by
  have hlower := h.lower
  have hbounded := h.bounded
  constructor
  · simp only [RxPacket.record]
    rw [PktNumWindow.insert_lower (by unfold u64Max; omega)]
    omega
  · simp only [RxPacket.record]
    omega

theorem Numbered.arrive {s s' : PktNumSpace} (h : s.Numbered) {pkt : RxPacket}
    (harrive : s.arrive pkt = some s') :
    s'.Numbered := by
  obtain ⟨pn, hdecoded, rfl⟩ := Option.map_eq_some_iff.mp harrive
  obtain ⟨len, hlen, -⟩ := Option.map_eq_some_iff.mp hdecoded
  have hpkt : pkt.pktNum < 2 ^ 32 := by
    have := pktNumLen_spec hlen
    omega
  split_ifs
  · exact h
  · exact h
  · exact h.record hpkt

/-- In a run, a packet arrives for the first time, and the window has not moved past its number. -/
structure FirstArrival (now : ℕ) (pkts before : List RxPacket) (pkt : RxPacket) (s : PktNumSpace) :
    Prop where
  splits : ∃ after, pkts = before ++ pkt :: after
  first : ∀ p ∈ before, p.pktNum ≠ pkt.pktNum
  run : Lib.run arrive (new now) before = some s
  sent : (pktNumLen pkt.pktNum).isSome = true
  recent : s.recvPktNum.lower ≤ pkt.pktNum

/-- A first arrival gets its number unless that takes one byte and is 127 behind the largest. -/
theorem FirstArrival.decoded_iff {now : ℕ} {pkts before : List RxPacket} {pkt : RxPacket}
    {s : PktNumSpace}
    (h : FirstArrival now pkts before pkt s) : s.decoded pkt = some pkt.pktNum ↔
      ¬ (pkt.pktNum < 255 ∧ s.largestRxPktNum = pkt.pktNum + 127) := by
  have hnumbered : s.Numbered :=
    Lib.run_invariant (fun _ _ _ hs hstep => hs.arrive hstep) (numbered_new now) h.run
  obtain ⟨len, hlen⟩ := Option.isSome_iff_exists.mp h.sent
  have hrecent : s.largestRxPktNum ≤ pkt.pktNum + 127 := by
    have := hnumbered.lower
    have := h.recent
    omega
  rw [decoded, hlen, Option.map_some, Option.some_inj]
  exact decodePktNum_eq_iff hlen hnumbered.bounded hrecent

/-- In a run, every first arrival gets its number exactly if none of them takes one byte and is 127
behind the largest number received. -/
theorem decodes_iff (now : ℕ) (pkts : List RxPacket) :
    (∀ before pkt s, FirstArrival now pkts before pkt s → s.decoded pkt = some pkt.pktNum) ↔
      ∀ before pkt s, FirstArrival now pkts before pkt s →
        ¬ (pkt.pktNum < 255 ∧ s.largestRxPktNum = pkt.pktNum + 127) :=
  forall₄_congr fun _ _ _ h => h.decoded_iff

/-- A packet with a number and nothing else. -/
def numberedPacket (pktNum : ℕ) : RxPacket := ⟨.short, 0, 0, pktNum, .none, [], none, [], none, 0⟩

/-- When packet 127 comes first, packet 0 counts as packet 256. -/
theorem not_decodes : ¬ ∀ now pkts before pkt s, FirstArrival now pkts before pkt s →
    s.decoded pkt = some pkt.pktNum := by
  intro hall
  have hfirst : FirstArrival 0 [numberedPacket 127, numberedPacket 0] [numberedPacket 127]
    (numberedPacket 0)
      ((numberedPacket 127).record (new 0)) := by
    refine ⟨⟨[], rfl⟩, ?_, rfl, rfl, by decide⟩
    intro p hp
    rw [List.mem_singleton.mp hp]
    decide
  have hdecoded := hall _ _ _ _ _ hfirst
  have hwrong : ((numberedPacket 127).record (new 0)).decoded (numberedPacket 0) = some 256 := by
    decide +kernel
  rw [hwrong] at hdecoded
  cases hdecoded

end PktNumSpace

end Dtp
