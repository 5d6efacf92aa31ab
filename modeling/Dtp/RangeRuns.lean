import Mathlib.Data.List.Induction
import Mathlib.Data.List.Sort
import Mathlib.Order.Interval.Set.Defs
import Dtp.Lib.Runs
import Dtp.Ranges

/-!
# Runs of a set of ranges

The canonical form of a `RangeSet` is determined by its members: its ranges are the
maximal runs of consecutive numbers. The operations on `u64` numbers keep that form,
and act on the members as union and difference, unless the number after their argument
does not fit.

## Main definitions

* `RangeSet.Flatten` — the iterator over the numbers, from both of its ends
* `RangeSet.Op`, `RangeSet.Op.apply`, `RangeSet.Op.image` — an operation and its effect, in `u64`
  arithmetic
* `RangeSet.Represents` — what ties a set of ranges to the set of its numbers

## Main results

* `RangeSet.Canonical.ext` — canonical sets with the same members are equal
* `RangeSet.Canonical.yields_step`, `RangeSet.Canonical.yields_stepBack` — what the iterator
  enumerates
* `RangeSet.always_represents_iff` — which runs of operations keep the representation
-/

namespace Dtp.RangeSet

variable {s s' : RangeSet}

/-! ### The canonical form -/

/-- The ranges of a canonical set are the maximal runs of its members. -/
theorem Canonical.mem_inner_iff (h : s.Canonical) {r : ℕ × ℕ} : r ∈ s.inner ↔
    r.1 < r.2 ∧ (∀ x, r.1 ≤ x → x < r.2 → s.Has x) ∧ ¬ s.Has r.2 ∧ ∀ x, x + 1 = r.1 →
        ¬ s.Has x := by
  constructor
  · intro hr
    refine ⟨h.nonempty r hr, fun x hle hlt => ⟨r, hr, hle, hlt⟩, ?_, ?_⟩
    · rintro ⟨r', hr', hle, hlt⟩
      have hend := h.nonempty r hr
      rcases lt_trichotomy r.1 r'.1 with hbefore | heq | hbehind
      · exact absurd (h.gap r hr r' hr' hbefore) hle.not_gt
      · rw [eq_of_start_eq hr hr' heq] at hlt
        exact lt_irrefl _ hlt
      · have := h.gap r' hr' r hr hbehind
        omega
    · rintro x hx ⟨r', hr', hle, hlt⟩
      have := h.gap r' hr' r hr (by omega)
      omega
  · rintro ⟨hnonempty, hall, hend, hstart⟩
    obtain ⟨r', hr', hle, hlt⟩ := hall r.1 le_rfl hnonempty
    have hfirst : r'.1 = r.1 := by
      by_contra hne
      have hpred : r.1 - 1 + 1 = r.1 := by omega
      exact hstart (r.1 - 1) hpred ⟨r', hr', by omega, by omega⟩
    have hlast : r'.2 = r.2 := by
      rcases lt_trichotomy r'.2 r.2 with hshort | heq | hlong
      · -- the member behind `r'` would lie in another range, too close to `r'`
        obtain ⟨q, hq, hqle, hqlt⟩ := hall r'.2 hlt.le hshort
        rcases lt_trichotomy r'.1 q.1 with hbefore | heq | hbehind
        · exact absurd (h.gap r' hr' q hq hbefore) hqle.not_gt
        · rw [eq_of_start_eq hr' hq heq] at hqlt
          exact absurd hqlt (lt_irrefl _)
        · have := h.gap q hq r' hr' hbehind
          omega
      · exact heq
      · exact absurd ⟨r', hr', by omega, hlong⟩ hend
    have heq : r' = r := Prod.ext hfirst hlast
    exact heq ▸ hr'

/-- Canonical sets with the same members are equal. -/
theorem Canonical.ext (h : s.Canonical) (h' : s'.Canonical) (hhas : ∀ x, s.Has x ↔ s'.Has x) :
    s = s' := by
  have hmem (r : ℕ × ℕ) : r ∈ s.inner ↔ r ∈ s'.inner := by
    simp only [h.mem_inner_iff, h'.mem_inner_iff, hhas]
  have hinner : s.inner = s'.inner :=
    ((List.Perm.eq_of_pairwise (fun a b _ _ hab hba => absurd hba hab.asymm) s.sorted s'.sorted)
      ((List.perm_ext_iff_of_nodup (s.sorted.imp fun hab => by rintro rfl; exact lt_irrefl _ hab)
        (s'.sorted.imp fun hab => by rintro rfl; exact lt_irrefl _ hab)).mpr hmem))
  cases s
  cases s'
  cases hinner
  rfl

theorem mem_flatten {x : ℕ} : x ∈ s.flatten ↔ s.Has x := by
  simp only [flatten, List.mem_flatMap, List.mem_range'_1, Has]
  refine exists_congr fun r => and_congr_right fun _ => ?_
  omega

/-- The numbers of a canonical set come in ascending order. -/
theorem Canonical.sorted_flatten (h : s.Canonical) : s.flatten.Pairwise (· < ·) := by
  rw [flatten, List.pairwise_flatMap]
  refine ⟨fun r _ => List.pairwise_lt_range', ?_⟩
  refine s.sorted.imp_of_mem fun {r r'} hr hr' hlt x hx y hy => ?_
  have := h.gap r hr r' hr' hlt
  rw [List.mem_range'_1] at hx hy
  omega

/-! ### The iterator over the numbers -/

/-- An iterator over the numbers: the ranges ahead, and the rest of the current one. -/
structure Flatten where
  inner : List (ℕ × ℕ)
  next : ℕ
  stop : ℕ

/-- The iterator in front of all numbers, or behind them. -/
def iter (s : RangeSet) : Flatten := ⟨s.inner, 0, 0⟩

/-- The next number in ascending order. -/
def Flatten.step (it : Flatten) : Option (ℕ × Flatten) :=
  if it.next = it.stop then
    match it.inner with
    | [] => none
    | (start, stop) :: rest => some (start, ⟨rest, start + 1, stop⟩)
  else some (it.next, { it with next := it.next + 1 })

/-- The next number in descending order. -/
def Flatten.stepBack (it : Flatten) : Option (ℕ × Flatten) :=
  if it.next = it.stop then
    match it.inner.getLast? with
    | none => none
    | some (start, stop) => some (stop - 1, ⟨it.inner.dropLast, start, stop - 1⟩)
  else some (it.stop - 1, { it with stop := it.stop - 1 })

/-- Taking elements with `step` gives these, and then no more. -/
def Yields {σ α : Type*} (step : σ → Option (α × σ)) : σ → List α → Prop
  | it, [] => step it = none
  | it, x :: xs => ∃ it', step it = some (x, it') ∧ Yields step it' xs

private theorem yields_step {inner : List (ℕ × ℕ)} (hinner : ∀ r ∈ inner, r.1 < r.2)
    (length next : ℕ) :
    Yields Flatten.step ⟨inner, next, next + length⟩
      (List.range' next length ++ inner.flatMap fun r => List.range' r.1 (r.2 - r.1)) := by
  induction inner generalizing length next with
  | nil =>
    induction length generalizing next with
    | zero => simp [Yields, Flatten.step]
    | succ length ih =>
      rw [List.range'_succ, List.cons_append]
      refine ⟨⟨[], next + 1, next + (length + 1)⟩, by simp [Flatten.step], ?_⟩
      rw [show next + (length + 1) = next + 1 + length by omega]
      exact ih (next + 1)
  | cons r rest ihinner =>
    have hlt := hinner r List.mem_cons_self
    induction length generalizing next with
    | zero =>
      rw [List.range'_zero, List.nil_append, List.flatMap_cons,
        show r.2 - r.1 = r.2 - r.1 - 1 + 1 by omega, List.range'_succ, List.cons_append]
      refine ⟨⟨rest, r.1 + 1, r.2⟩, by simp [Flatten.step], ?_⟩
      have hrest := ihinner (fun q hq => hinner q (List.mem_cons_of_mem r hq)) (r.2 - r.1 - 1)
        (r.1 + 1)
      rwa [show r.1 + 1 + (r.2 - r.1 - 1) = r.2 by omega] at hrest
    | succ length ih =>
      rw [List.range'_succ, List.cons_append]
      refine ⟨⟨r :: rest, next + 1, next + (length + 1)⟩, by simp [Flatten.step], ?_⟩
      rw [show next + (length + 1) = next + 1 + length by omega]
      exact ih (next + 1)

private theorem yields_stepBack {inner : List (ℕ × ℕ)} (hinner : ∀ r ∈ inner, r.1 < r.2)
    (length next : ℕ) : Yields Flatten.stepBack ⟨inner, next, next + length⟩
      ((inner.flatMap fun r => List.range' r.1 (r.2 - r.1)) ++
        List.range' next length).reverse := by
  induction inner using List.reverseRecOn generalizing length next with
  | nil =>
    induction length with
    | zero => simp [Yields, Flatten.stepBack]
    | succ length ih =>
      rw [List.range'_1_concat, ← List.append_assoc, List.reverse_append]
      exact ⟨⟨[], next, next + length⟩, if_neg (by dsimp only; omega), ih⟩
  | append_singleton rest r ihrest =>
    have hlt := hinner r (by simp)
    induction length with
    | zero =>
      rw [List.range'_zero, List.append_nil, List.flatMap_append, List.flatMap_cons,
        List.flatMap_nil,
        List.append_nil, show r.2 - r.1 = r.2 - r.1 - 1 + 1 by omega, List.range'_1_concat,
        ← List.append_assoc, List.reverse_append]
      refine ⟨⟨rest, r.1, r.1 + (r.2 - r.1 - 1)⟩, ?_,
        ihrest (fun q hq => hinner q (by simp [hq])) _ _⟩
      have hstop : r.1 + (r.2 - r.1 - 1) = r.2 - 1 := by omega
      simp [Flatten.stepBack, hstop]
    | succ length ih =>
      rw [List.range'_1_concat, ← List.append_assoc, List.reverse_append]
      exact ⟨⟨rest ++ [r], next, next + length⟩, if_neg (by dsimp only; omega), ih⟩

/-- `flatten()` enumerates the numbers in ascending order. -/
theorem Canonical.yields_step (h : s.Canonical) : Yields Flatten.step s.iter s.flatten := by
  simpa [iter, flatten] using RangeSet.yields_step h.nonempty 0 0

/-- `flatten().rev()` enumerates the numbers in descending order. -/
theorem Canonical.yields_stepBack (h : s.Canonical) :
    Yields Flatten.stepBack s.iter s.flatten.reverse := by
  simpa [iter, flatten] using RangeSet.yields_stepBack h.nonempty 0 0

/-! ### Operations on `u64` numbers -/

/-- An operation that changes the set. -/
inductive Op
  | insert (start stop : UInt64) (nonempty : start < stop)
  | pushItem (item : UInt64)
  | removeUntil (largest : UInt64)

/-- Removes the numbers up to `largest`, where the number after it wraps around. -/
def removeUntil64 (s : RangeSet) (largest : UInt64) : RangeSet :=
  (s.inner.filter fun r => r.1 ≤ largest.toNat).foldl
    (fun s r =>
      if (largest + 1).toNat < r.2 then (s.removeKey r.1).insert ((largest + 1).toNat, r.2)
      else s.removeKey r.1)
    s

/-- The set after an operation. -/
def Op.apply (s : RangeSet) : Op → RangeSet
  | .insert start stop _ => s.insert (start.toNat, stop.toNat)
  | .pushItem item => s.insert (item.toNat, (item + 1).toNat)
  | .removeUntil largest => s.removeUntil64 largest

/-- The numbers after an operation. -/
def Op.image (numbers : Set ℕ) : Op → Set ℕ
  | .insert start stop _ => numbers ∪ Set.Ico start.toNat stop.toNat
  | .pushItem item => numbers ∪ {item.toNat}
  | .removeUntil largest => numbers \ Set.Iic largest.toNat

/-- The number after the argument is a `u64`, or there is nothing to remove. -/
def Op.Fits (s : RangeSet) : Op → Prop
  | .insert _ _ _ => True
  | .pushItem item => item.toNat + 1 < 2 ^ 64
  | .removeUntil largest => largest.toNat + 1 < 2 ^ 64 ∨ s.isEmpty = true

/-- The set of ranges stands for a set of numbers. -/
structure Represents (s : RangeSet) (numbers : Set ℕ) : Prop where
  /-- The ranges are sorted by their type, and neither empty nor adjacent. -/
  canonical : s.Canonical
  has_iff : ∀ x, s.Has x ↔ x ∈ numbers
  ascending : ∃ xs : List ℕ, Yields Flatten.step s.iter xs ∧
    Yields Flatten.stepBack s.iter xs.reverse ∧
    xs.Pairwise (· < ·) ∧ ∀ x, x ∈ xs ↔ x ∈ numbers
  /-- No other canonical set stands for the same numbers. -/
  unique : ∀ s' : RangeSet, s'.Canonical → (∀ x, s'.Has x ↔ x ∈ numbers) → s' = s

theorem Represents.of_canonical {numbers : Set ℕ} (h : s.Canonical)
    (hhas : ∀ x, s.Has x ↔ x ∈ numbers) :
    s.Represents numbers where
  canonical := h
  has_iff := hhas
  ascending := ⟨s.flatten, h.yields_step, h.yields_stepBack, h.sorted_flatten,
    fun x => mem_flatten.trans (hhas x)⟩
  unique _ h' hhas' := h'.ext h fun x => (hhas' x).trans (hhas x).symm

/-! ### The ends of the ranges -/

/-- The ends of the ranges are at most `b`. -/
def Bounded (s : RangeSet) (b : ℕ) : Prop := ∀ r ∈ s.inner, r.2 ≤ b

variable {b : ℕ}

theorem Bounded.removeKey (h : s.Bounded b) (start : ℕ) : (s.removeKey start).Bounded b :=
  fun r hr => h r (mem_removeKey.mp hr).1

theorem Bounded.insertKey (h : s.Bounded b) (start : ℕ) {stop : ℕ} (hstop : stop ≤ b) :
    (s.insertKey start stop).Bounded b := by
  intro r hr
  rcases mem_insertKey.mp hr with rfl | ⟨hr, _⟩
  · exact hstop
  · exact h r hr

theorem Bounded.mergeLoop {item : ℕ × ℕ} {fuel start stop : ℕ} (h : s.Bounded b)
    (hstop : stop ≤ b) :
    (mergeLoop item fuel s start stop).Bounded b := by
  induction fuel generalizing s start stop with
  | zero => exact h.insertKey start hstop
  | succ fuel ih =>
    rw [RangeSet.mergeLoop]
    cases hnext : s.nextTo start with
    | none => exact h.insertKey start hstop
    | some r =>
      dsimp only
      split_ifs
      · exact ih (h.removeKey r.1) hstop
      · exact ih (h.removeKey r.1) (max_le hstop (h r (nextTo_mem hnext)))
      · exact h.insertKey start hstop

theorem Bounded.insert (h : s.Bounded b) {item : ℕ × ℕ} (hitem : item.2 ≤ b) :
    (s.insert item).Bounded b := by
  unfold RangeSet.insert
  cases hprev : s.prevTo item.1 with
  | none => exact h.mergeLoop hitem
  | some r =>
    dsimp only
    split_ifs
    · exact (h.removeKey r.1).mergeLoop (max_le hitem (h r (prevTo_mem hprev)))
    · exact h.mergeLoop hitem

/-- Removing never makes an end larger. -/
theorem Bounded.removeUntil64 (h : s.Bounded b) (largest : UInt64) :
    (s.removeUntil64 largest).Bounded b := by
  have hloop (rs : List (ℕ × ℕ)) (hrs : ∀ r ∈ rs, r.2 ≤ b) (t : RangeSet) (ht : t.Bounded b) :
      (rs.foldl (fun s r => if (largest + 1).toNat < r.2
        then (s.removeKey r.1).insert ((largest + 1).toNat, r.2) else s.removeKey r.1)
            t).Bounded b := by
    induction rs generalizing t with
    | nil => exact ht
    | cons r rs ih =>
      apply ih fun r' hr' => hrs r' (List.mem_cons_of_mem r hr')
      dsimp only
      split_ifs
      · exact (ht.removeKey r.1).insert (hrs r List.mem_cons_self)
      · exact ht.removeKey r.1
  exact hloop _ (fun r hr => h r (List.mem_filter.mp hr).1) s h

/-- The ends of the ranges stay `u64` numbers. -/
theorem Bounded.apply (h : s.Bounded (2 ^ 64 - 1)) (op : Op) :
    (op.apply s).Bounded (2 ^ 64 - 1) := by
  have hsize (n : UInt64) : n.toNat ≤ 2 ^ 64 - 1 := Nat.le_pred_of_lt n.toNat_lt
  cases op with
  | insert start stop _ => exact h.insert (hsize stop)
  | pushItem item => exact h.insert (hsize (item + 1))
  | removeUntil largest => exact h.removeUntil64 largest

/-! ### Runs of operations -/

theorem toNat_succ {n : UInt64} (h : n.toNat + 1 < 2 ^ 64) : (n + 1).toNat = n.toNat + 1 := by
  rw [UInt64.toNat_add]
  exact Nat.mod_eq_of_lt h

theorem toNat_succ_wraps {n : UInt64} (h : ¬ n.toNat + 1 < 2 ^ 64) :
    n.toNat = 2 ^ 64 - 1 ∧ (n + 1).toNat = 0 := by
  have hlast : n.toNat = 2 ^ 64 - 1 := by
    have := n.toNat_lt
    omega
  refine ⟨hlast, ?_⟩
  rw [UInt64.toNat_add, hlast]
  rfl

private theorem removeUntil64_eq {largest : UInt64} (h : largest.toNat + 1 < 2 ^ 64) :
    s.removeUntil64 largest = s.removeUntil largest.toNat := by
  rw [removeUntil64, toNat_succ h]
  rfl

/-- Where the last number wraps around, a range comes back that begins at zero. -/
theorem Canonical.has_zero_of_removeUntil64 (h : s.Canonical) {largest : UInt64}
    (hwraps : ¬ largest.toNat + 1 < 2 ^ 64) (hbounded : s.Bounded (2 ^ 64 - 1))
    (hs : s.isEmpty = false) :
    (s.removeUntil64 largest).Has 0 := by
  obtain ⟨hlast, hzero⟩ := toNat_succ_wraps hwraps
  have hall : (s.inner.filter fun r => r.1 ≤ largest.toNat) = s.inner := by
    refine List.filter_eq_self.mpr fun r hr => ?_
    have hlt := h.nonempty r hr
    have hle := hbounded r hr
    simp only [decide_eq_true_eq]
    omega
  -- every turn of the loop inserts a range that begins at zero
  have hloop (rs : List (ℕ × ℕ)) (hrs : ∀ r ∈ rs, r.1 < r.2) (t : RangeSet) (ht : t.Canonical)
      (hstart : t.Has 0 ∨ rs ≠ []) : (rs.foldl (fun s r => if (largest + 1).toNat < r.2
        then (s.removeKey r.1).insert ((largest + 1).toNat, r.2) else s.removeKey r.1)
            t).Has 0 := by
    induction rs generalizing t with
    | nil => exact hstart.resolve_right (absurd rfl)
    | cons r rs ih =>
      have hlt : 0 < r.2 := (Nat.zero_le _).trans_lt (hrs r List.mem_cons_self)
      rw [List.foldl_cons, hzero, if_pos hlt]
      rw [hzero] at ih
      obtain ⟨hcanonical, hhas⟩ := @Canonical.insert _ (ht.removeKey r.1) (0, r.2) hlt
      exact ih (fun r' hr' => hrs r' (List.mem_cons_of_mem r hr')) _ hcanonical
        (.inl ((hhas 0).mpr (.inr ⟨le_rfl, hlt⟩)))
  rw [removeUntil64, hall]
  rw [isEmpty, List.isEmpty_eq_false_iff] at hs
  exact hloop s.inner h.nonempty s h (.inr hs)

/-- An operation keeps the representation exactly when the number after its argument fits. -/
theorem Represents.apply_iff {numbers : Set ℕ} (h : s.Represents numbers)
    (hbounded : s.Bounded (2 ^ 64 - 1))
    (op : Op) : (op.apply s).Represents (op.image numbers) ↔ op.Fits s := by
  cases op with
  | insert start stop hlt =>
    refine iff_of_true ?_ trivial
    obtain ⟨hcanonical, hhas⟩ := @Canonical.insert _ h.canonical (start.toNat, stop.toNat)
      (UInt64.lt_iff_toNat_lt.mp hlt)
    exact .of_canonical hcanonical fun x => (hhas x).trans (or_congr_left (h.has_iff x))
  | pushItem item =>
    constructor
    · intro hrep
      by_contra hwraps
      -- the end of the range wraps to 0, so that nothing is inserted
      obtain ⟨hlast, hzero⟩ := toNat_succ_wraps hwraps
      obtain ⟨r, hr, hle, hlt⟩ := (hrep.has_iff item.toNat).mpr (.inr rfl)
      have := hbounded.apply (.pushItem item) r hr
      omega
    · intro hfits
      change item.toNat + 1 < 2 ^ 64 at hfits
      obtain ⟨hcanonical, hhas⟩ := h.canonical.pushItem item.toNat
      rw [Op.apply, toNat_succ hfits]
      exact .of_canonical hcanonical fun x => (hhas x).trans (or_congr_left (h.has_iff x))
  | removeUntil largest =>
    by_cases hfits : largest.toNat + 1 < 2 ^ 64
    · refine iff_of_true ?_ (.inl hfits)
      obtain ⟨hcanonical, hhas⟩ := h.canonical.removeUntil largest.toNat
      rw [Op.apply, removeUntil64_eq hfits]
      refine .of_canonical hcanonical fun x => (hhas x).trans ?_
      rw [h.has_iff x]
      exact and_congr_right fun _ => not_le.symm
    · cases hempty : s.isEmpty with
      | true =>
        refine iff_of_true ?_ (.inr hempty)
        have hnone := (h.canonical.isEmpty_iff).mp hempty
        have hinner : s.inner = [] := List.isEmpty_iff.mp hempty
        rw [Op.apply, removeUntil64, hinner, List.filter_nil, List.foldl_nil]
        refine .of_canonical h.canonical fun x => iff_of_false (hnone x) ?_
        rintro ⟨hx, _⟩
        exact hnone x ((h.has_iff x).mpr hx)
      | false =>
        refine iff_of_false (fun hrep => ?_) (not_or.mpr ⟨hfits, by simp [hempty]⟩)
        -- the bound wraps to 0, so that nothing is removed
        have hzero := h.canonical.has_zero_of_removeUntil64 hfits hbounded hempty
        obtain ⟨_, hnot⟩ := (hrep.has_iff 0).mp hzero
        exact hnot (Nat.zero_le _)

/-- A step of a set of ranges beside the numbers it stands for. -/
def step (s : RangeSet × Set ℕ) (op : Op) : Option (RangeSet × Set ℕ) :=
  some (op.apply s.1, op.image s.2)

/-- A run keeps the representation in every state exactly when the number after the argument of
each step fits. -/
theorem always_represents_iff (ops : List Op) :
    Lib.Always step (fun s => s.1.Represents s.2) (empty, ∅) ops ↔
      Lib.AllSteps step (fun s op => op.Fits s.1) (empty, ∅) ops := by
  have hdefined : (fun (s : RangeSet × Set ℕ) (op : Op) => (step s op).isSome = true →
    op.Fits s.1) =
      fun s op => op.Fits s.1 := by
    funext s op
    simp [step]
  have hempty : empty.Bounded (2 ^ 64 - 1) := fun r hr => absurd hr List.not_mem_nil
  rw [← hdefined]
  refine Lib.always_iff_allSteps (I := fun s => s.1.Bounded (2 ^ 64 - 1)) ?_ ?_ hempty ?_
  · rintro s op _ hbounded ⟨⟩
    exact hbounded.apply op
  · rintro s op _ hbounded hrep ⟨⟩
    exact hrep.apply_iff hbounded op
  · exact .of_canonical canonical_empty fun x => iff_of_false (not_has_empty x) (Set.notMem_empty x)

/-- Removing everything brings numbers back: `4..7` becomes `0..7`. -/
theorem not_always_represents : ¬ ∀ ops : List Op,
    Lib.Always step (fun s => s.1.Represents s.2) (empty, ∅) ops := by
  intro hall
  have hlast := (hall [.insert 4 7 (by decide), .removeUntil (2 ^ 64 - 1)]).last rfl
  have hinner :
    (Op.apply (Op.apply empty (.insert 4 7 (by decide))) (.removeUntil (2 ^ 64 - 1))).inner =
      [(0, 7)] := by decide +kernel
  obtain ⟨_, hnot⟩ := (hlast.has_iff 0).mp ⟨(0, 7), by simp [hinner], by decide⟩
  exact hnot (Nat.zero_le _)

end Dtp.RangeSet
