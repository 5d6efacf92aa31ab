import Mathlib.Data.List.Basic
import Mathlib.Data.Nat.Basic
import Mathlib.Tactic.Ring

/-!
# Prefix codes

A code assigns a word to every symbol. If no word is a prefix of another one, a text can be
read back from its encoding, also by a machine that reads several letters at a time: its states
stand for what it has read of the next word. The last word may be padded with letters that start
a word of their own, which stands for the end of the text.

## Main definitions

* `bits` — the last bits of a number, most significant bit first
* `PrefixFree` — a code whose words are told apart by their first letters
* `Machine`, `Machine.run` — a machine that decodes
* `Machine.Reads` — the machine reads a code, up to the end of the text

## Main results

* `Machine.run_encoded` — the machine decodes what was encoded
-/

namespace Dtp.Lib

/-- The last `width` bits of a number. -/
def bits : ℕ → ℕ → List Bool
  | 0, _ => []
  | width + 1, v => bits width (v / 2) ++ [v % 2 == 1]

@[simp] theorem bits_length (width v : ℕ) : (bits width v).length = width := by
  induction width generalizing v with
  | zero => rfl
  | succ width ih => rw [bits, List.length_append, ih, List.length_singleton]

theorem bits_append (n a m b : ℕ) (h : b < 2 ^ m) :
    bits (n + m) (a * 2 ^ m + b) = bits n a ++ bits m b := by
  induction m generalizing b with
  | zero =>
    obtain rfl : b = 0 := by omega
    rw [bits, List.append_nil]
    simp
  | succ m ih =>
    have hpow : a * 2 ^ (m + 1) = 2 * (a * 2 ^ m) := by ring
    have hhalf : (a * 2 ^ (m + 1) + b) / 2 = a * 2 ^ m + b / 2 := by omega
    have hodd : (a * 2 ^ (m + 1) + b) % 2 = b % 2 := by omega
    have hb : b / 2 < 2 ^ m := by
      rw [Nat.pow_succ] at h
      omega
    rw [← Nat.add_assoc, bits, bits, hhalf, hodd, ih _ hb, List.append_assoc]

theorem bits_injective {width a b : ℕ} (ha : a < 2 ^ width) (hb : b < 2 ^ width)
    (h : bits width a = bits width b) :
    a = b := by
  induction width generalizing a b with
  | zero => omega
  | succ width ih =>
    rw [Nat.pow_succ] at ha hb
    obtain ⟨hhalf, hlast⟩ := List.append_inj' h rfl
    have hhalves := ih (by omega) (by omega) hhalf
    have hodd : (a % 2 == 1) = (b % 2 == 1) := List.head_eq_of_cons_eq hlast
    have hiff : a % 2 = 1 ↔ b % 2 = 1 := by
      rw [← beq_iff_eq, hodd, beq_iff_eq]
    omega

/-- If a word is a prefix of another one, its bits are the upper bits of that. -/
theorem upper_of_isPrefix {n m a b : ℕ} (ha : a < 2 ^ n) (hb : b < 2 ^ m)
    (h : bits n a <+: bits m b) :
    n ≤ m ∧ b / 2 ^ (m - n) = a := by
  have hle : n ≤ m := by simpa using h.length_le
  obtain ⟨k, rfl⟩ := Nat.exists_eq_add_of_le hle
  have hsplit : bits (n + k) b = bits n (b / 2 ^ k) ++ bits k (b % 2 ^ k) := by
    rw [← bits_append _ _ _ _ (Nat.mod_lt b (Nat.two_pow_pos k)), Nat.div_add_mod']
  have hupper : b / 2 ^ k < 2 ^ n := by
    rw [Nat.div_lt_iff_lt_mul (Nat.two_pow_pos k), ← Nat.pow_add]
    exact hb
  have hsame : bits n a = bits n (b / 2 ^ k) := by
    rw [hsplit] at h
    exact (List.prefix_of_prefix_length_le h (List.prefix_append _ _) (by simp)).eq_of_length
      (by simp)
  rw [Nat.add_sub_cancel_left]
  exact ⟨hle, (bits_injective ha hupper hsame).symm⟩

theorem prefix_of_upper {n m b : ℕ} (h : n ≤ m) : bits n (b / 2 ^ (m - n)) <+: bits m b := by
  obtain ⟨k, rfl⟩ := Nat.exists_eq_add_of_le h
  have hsplit : bits (n + k) b = bits n (b / 2 ^ k) ++ bits k (b % 2 ^ k) := by
    rw [← bits_append _ _ _ _ (Nat.mod_lt b (Nat.two_pow_pos k)), Nat.div_add_mod']
  rw [Nat.add_sub_cancel_left, hsplit]
  exact List.prefix_append _ _

theorem bits_ones (width : ℕ) : bits width (2 ^ width - 1) = List.replicate width true := by
  induction width with
  | zero => rfl
  | succ width ih =>
    have hpos := Nat.two_pow_pos width
    have hhalf : (2 ^ (width + 1) - 1) / 2 = 2 ^ width - 1 := by
      rw [Nat.pow_succ]
      omega
    have hodd : (2 ^ (width + 1) - 1) % 2 = 1 := by
      rw [Nat.pow_succ]
      omega
    rw [bits, hhalf, hodd, ih, List.replicate_succ']
    rfl

variable {α β σ ι : Type}

/-- No word is a prefix of another one. -/
def PrefixFree (code : α → List β) : Prop := ∀ a b, code a <+: code b → a = b

/-- Two texts that start with words start with the same word. -/
theorem PrefixFree.eq_of_append {code : α → List β} (h : PrefixFree code) {a b : α} {s t : List β}
    (heq : code a ++ s = code b ++ t) : a = b ∧ s = t := by
  have hab : a = b := by
    have hleft : code a <+: code b ++ t := heq ▸ List.prefix_append _ _
    obtain hstart | hstart := List.prefix_or_prefix_of_prefix hleft (List.prefix_append _ _)
    · exact h a b hstart
    · exact (h b a hstart).symm
  subst hab
  exact ⟨rfl, List.append_cancel_left heq⟩

/-- A machine that reads a letter of `ι` in each step, and may then return a symbol. -/
structure Machine (σ ι α : Type) where
  step : σ → ι → Option (σ × Option α)

namespace Machine

variable (M : Machine σ ι α)

/-- The symbols that the machine returns, and the state that it ends in. -/
def run : σ → List ι → Option (σ × List α)
  | q, [] => some (q, [])
  | q, x :: xs => do
    let (q', symbol) ← M.step q x
    let (last, symbols) ← run q' xs
    some (last, symbol.toList ++ symbols)

/-- The machine reads a code, in the states with `inv`. A state is reached by a part of a word, and
the machine stops only at the word `none` for the end of the text. -/
structure Reads (code : Option α → List β) (letters : ι → List β) (path : σ → List β)
    (inv : σ → Prop) : Prop where
  prefixFree : PrefixFree code
  inner : ∀ {q}, inv q → ∀ a, ¬ code a <+: path q
  step : ∀ {q x q' symbol}, inv q → M.step q x = some (q', symbol) →
    inv q' ∧ path q ++ letters x = (symbol.elim [] fun a => code (some a)) ++ path q'
  stop : ∀ {q x}, inv q → M.step q x = none → code none <+: path q ++ letters x

variable {M}

variable {code : Option α → List β} {letters : ι → List β} {path : σ → List β}
  {inv : σ → Prop}

/-- Whatever the machine returns, the words of that were read, and a part of one more. -/
theorem Reads.run_sound (h : M.Reads code letters path inv) {input : List ι} {q last : σ}
    {text : List α} (hq : inv q)
    (hrun : M.run q input = some (last, text)) :
    path q ++ input.flatMap letters = text.flatMap (fun a => code (some a)) ++ path last ∧
        inv last := by
  induction input generalizing q text with
  | nil =>
    cases hrun
    exact ⟨List.append_nil _, hq⟩
  | cons x input ih =>
    simp only [run, Option.bind_eq_bind, Option.bind_eq_some_iff] at hrun
    obtain ⟨⟨q', symbol⟩, hstep, ⟨last', symbols⟩, hrest, heq⟩ := hrun
    cases heq
    obtain ⟨hq', hpath⟩ := h.step hq hstep
    obtain ⟨hread, hlast⟩ := ih hq' hrest
    refine ⟨?_, hlast⟩
    rw [List.flatMap_cons, ← List.append_assoc, hpath, List.append_assoc, hread,
      List.flatMap_append,
      List.append_assoc]
    cases symbol with
    | none => rfl
    | some a => rw [Option.elim_some, Option.toList_some, List.flatMap_singleton]

/-- The states may have more in common. -/
theorem Reads.strengthen (h : M.Reads code letters path inv) {inv' : σ → Prop}
    (hstep : ∀ {q x q' symbol}, inv q → M.step q x = some (q', symbol) → inv' q') :
    M.Reads code letters path fun q => inv q ∧ inv' q where
  prefixFree := h.prefixFree
  inner hq := h.inner hq.1
  step hq heq := ⟨⟨(h.step hq.1 heq).1, hstep hq.1 heq⟩, (h.step hq.1 heq).2⟩
  stop hq := h.stop hq.1

/-- From any state, the machine decodes the rest of a text. -/
theorem Reads.run_encoded (h : M.Reads code letters path inv) {text : List α} {pad : List β}
    (hpad : pad <+: code none) (hproper : pad ≠ code none) {input : List ι} {q : σ} (hq : inv q)
    (heq : path q ++ input.flatMap letters = text.flatMap (fun a => code (some a)) ++ pad) :
    ∃ last, M.run q input = some (last, text) ∧ path last = pad ∧ inv last := by
  have hshort : ¬ code none <+: pad := by
    intro hstart
    exact hproper (hpad.eq_of_length (le_antisymm hpad.length_le hstart.length_le))
  induction input generalizing q text with
  | nil =>
    rw [List.flatMap_nil, List.append_nil] at heq
    cases text with
    | nil => exact ⟨q, rfl, heq, hq⟩
    | cons a text =>
      rw [List.flatMap_cons, List.append_assoc] at heq
      exact absurd (heq ▸ List.prefix_append _ _) (h.inner hq (some a))
  | cons x input ih =>
    rw [List.flatMap_cons, ← List.append_assoc] at heq
    cases hstep : M.step q x with
    | none =>
      -- The word for the end would be at the start of what is left.
      obtain ⟨t, ht⟩ := h.stop hq hstep
      rw [← ht, List.append_assoc] at heq
      cases text with
      | nil => exact absurd ⟨_, heq⟩ hshort
      | cons a text =>
        rw [List.flatMap_cons, List.append_assoc] at heq
        exact nomatch (h.prefixFree.eq_of_append heq).1
    | some next =>
      obtain ⟨q', symbol⟩ := next
      obtain ⟨hq', hpath⟩ := h.step hq hstep
      cases symbol with
      | none =>
        rw [hpath] at heq
        obtain ⟨last, hrun, hlast⟩ := ih hq' heq
        exact ⟨last, by simp [run, hstep, hrun], hlast⟩
      | some b =>
        rw [hpath, Option.elim_some, List.append_assoc] at heq
        cases text with
        | nil =>
          have hword : code (some b) <+: pad := ⟨_, heq⟩
          have hstart : code (some b) <+: code none := hword.trans hpad
          exact nomatch h.prefixFree _ _ hstart
        | cons a text =>
          rw [List.flatMap_cons, List.append_assoc] at heq
          obtain ⟨hsame, hrest⟩ := h.prefixFree.eq_of_append heq
          obtain rfl := Option.some.inj hsame
          obtain ⟨last, hrun, hlast⟩ := ih hq' hrest
          exact ⟨last, by simp [run, hstep, hrun], hlast⟩

end Machine

end Dtp.Lib
