import Mathlib.Algebra.Order.Ring.Nat
import Mathlib.Data.List.Basic
import Mathlib.Data.List.Nodup
import Mathlib.Data.List.Pairwise
import Mathlib.Data.Nat.Basic
import Mathlib.Order.Basic
import Mathlib.Tactic.SplitIfs

/-!
# Sets of ranges

A `RangeSet` keeps half open ranges of numbers in a map from starts to ends, and
merges a new range with those it touches. The map is a list in ascending order of
starts.

## Main definitions

* `RangeSet`, `RangeSet.insert`, `RangeSet.removeUntil`
* `RangeSet.Has` — membership of a number
* `RangeSet.Canonical` — the ranges are not empty and do not touch

## Main results

* `RangeSet.has_of_insert` — inserting a range adds no number outside it
* `RangeSet.Canonical.insert`, `RangeSet.Canonical.removeUntil` — what sets of canonical ranges
  have after an operation
-/

namespace Dtp

/-- A map from the starts of ranges to their ends. -/
structure RangeSet where
  /-- The ranges in ascending order of their starts. -/
  inner : List (ℕ × ℕ)
  /-- The starts are distinct and in order. -/
  sorted : inner.Pairwise fun a b => a.1 < b.1
  deriving DecidableEq

namespace RangeSet

/-- The set without ranges. -/
def empty : RangeSet := ⟨[], .nil⟩

instance : Inhabited RangeSet := ⟨empty⟩

/-- Removes the range that starts at `start`. -/
def removeKey (s : RangeSet) (start : ℕ) : RangeSet :=
  ⟨s.inner.filter fun r => r.1 ≠ start, s.sorted.filter _⟩

/-- Adds a range, in place of one with the same start. -/
def insertKey (s : RangeSet) (start stop : ℕ) : RangeSet where
  inner := (s.inner.filter fun r => r.1 < start) ++
    (start, stop) :: s.inner.filter fun r => start < r.1
  sorted := by
    refine List.pairwise_append.mpr ⟨s.sorted.filter _, ?_, ?_⟩
    · refine List.pairwise_cons.mpr ⟨fun r hr => ?_, s.sorted.filter _⟩
      simpa using (List.mem_filter.mp hr).2
    · intro a ha b hb
      have halt : a.1 < start := by simpa using (List.mem_filter.mp ha).2
      rcases List.mem_cons.mp hb with rfl | hb
      · exact halt
      · have hblt : start < b.1 := by simpa using (List.mem_filter.mp hb).2
        exact halt.trans hblt

/-- The last range that starts at or before `item`. -/
def prevTo (s : RangeSet) (item : ℕ) : Option (ℕ × ℕ) :=
  (s.inner.filter fun r => r.1 ≤ item).getLast?

/-- The first range that starts at or after `item`. -/
def nextTo (s : RangeSet) (item : ℕ) : Option (ℕ × ℕ) :=
  s.inner.find? fun r => item ≤ r.1

/-- One end of `other` lies in `r` or touches it. -/
def rangeOverlaps (r other : ℕ × ℕ) : Bool :=
  (r.1 ≤ other.1 && other.1 ≤ r.2) || (r.1 ≤ other.2 && other.2 ≤ r.2)

/-- The loop that merges the ranges following `start` that overlap with `item`. -/
def mergeLoop (item : ℕ × ℕ) : ℕ → RangeSet → ℕ → ℕ → RangeSet
  | 0, s, start, stop => s.insertKey start stop
  | fuel + 1, s, start, stop =>
    match s.nextTo start with
    | none => s.insertKey start stop
    | some r =>
      -- Existing range is fully contained in the new range, remove it.
      if (item.1 ≤ r.1 ∧ r.1 < item.2) ∧ item.1 ≤ r.2 ∧ r.2 < item.2 then
        mergeLoop item fuel (s.removeKey r.1) start stop
      -- New range doesn't overlap anymore, we are done.
      else if ¬ rangeOverlaps r item then s.insertKey start stop
      else mergeLoop item fuel (s.removeKey r.1) (min start r.1) (max stop r.2)

/-- Adds the range `item`, merged with the ranges it touches. -/
def insert (s : RangeSet) (item : ℕ × ℕ) : RangeSet :=
  match s.prevTo item.1 with
  | none => mergeLoop item (s.inner.length + 1) s item.1 item.2
  | some r =>
    if rangeOverlaps r item then
      mergeLoop item (s.inner.length + 1) (s.removeKey r.1) (min item.1 r.1) (max item.2 r.2)
    else mergeLoop item (s.inner.length + 1) s item.1 item.2

/-- Removes the numbers up to `largest`. -/
def removeUntil (s : RangeSet) (largest : ℕ) : RangeSet :=
  (s.inner.filter fun r => r.1 ≤ largest).foldl
    (fun s r =>
      if largest + 1 < r.2 then (s.removeKey r.1).insert (largest + 1, r.2) else s.removeKey r.1)
    s

/-- Adds one number. -/
def pushItem (s : RangeSet) (item : ℕ) : RangeSet := s.insert (item, item + 1)

/-- The largest number, for a set whose last range is not empty. -/
def largest (s : RangeSet) : Option ℕ := s.inner.getLast?.map fun r => r.2 - 1

/-- There are no ranges. -/
def isEmpty (s : RangeSet) : Bool := s.inner.isEmpty

/-- The numbers in ascending order, for a set without empty ranges. -/
def flatten (s : RangeSet) : List ℕ := s.inner.flatMap fun r => List.range' r.1 (r.2 - r.1)

/-- The set consists of the one range `other`. -/
def eqRange (s : RangeSet) (other : ℕ × ℕ) : Bool := s.inner == [other]

/-! ### Membership -/

/-- `x` lies in one of the ranges. -/
def Has (s : RangeSet) (x : ℕ) : Prop := ∃ r ∈ s.inner, r.1 ≤ x ∧ x < r.2

@[simp] theorem not_has_empty (x : ℕ) : ¬ empty.Has x := by
  rintro ⟨r, hr, _⟩
  cases hr

/-- Fewer ranges hold fewer numbers. -/
theorem Has.of_removeKey {s : RangeSet} {start x : ℕ} (h : (s.removeKey start).Has x) :
    s.Has x := by
  obtain ⟨r, hr, hx⟩ := h
  exact ⟨r, (List.mem_filter.mp hr).1, hx⟩

/-- A number is in the new range or in an old one. -/
theorem Has.of_insertKey {s : RangeSet} {start stop x : ℕ} (h : (s.insertKey start stop).Has x) :
    s.Has x ∨ start ≤ x ∧ x < stop := by
  obtain ⟨r, hr, hx⟩ := h
  rcases List.mem_append.mp hr with hr | hr
  · exact .inl ⟨r, (List.mem_filter.mp hr).1, hx⟩
  · rcases List.mem_cons.mp hr with rfl | hr
    · exact .inr hx
    · exact .inl ⟨r, (List.mem_filter.mp hr).1, hx⟩

/-- The next range is in the set. -/
theorem nextTo_mem {s : RangeSet} {item : ℕ} {r : ℕ × ℕ} (h : s.nextTo item = some r) :
    r ∈ s.inner := List.mem_of_find?_eq_some h

/-- The previous range is in the set. -/
theorem prevTo_mem {s : RangeSet} {item : ℕ} {r : ℕ × ℕ} (h : s.prevTo item = some r) :
    r ∈ s.inner := (List.mem_filter.mp (List.mem_of_getLast? h)).1

/-- A range that touches `item`, which lies inside `[start, stop)`, leaves no gap. -/
private theorem between_of_overlaps {r item : ℕ × ℕ} {start stop x : ℕ}
    (h : rangeOverlaps r item = true) (hstart : start ≤ item.1) (hstop : item.2 ≤ stop)
    (hitem : item.1 ≤ item.2) (hx : min start r.1 ≤ x ∧ x < max stop r.2) :
    (start ≤ x ∧ x < stop) ∨ r.1 ≤ x ∧ x < r.2 := by
  simp only [rangeOverlaps, Bool.or_eq_true, Bool.and_eq_true, decide_eq_true_eq] at h
  omega

/-- Merging adds no numbers besides the new ones. -/
theorem Has.of_mergeLoop {item : ℕ × ℕ} (hitem : item.1 ≤ item.2) {fuel : ℕ} {s : RangeSet}
    {start stop x : ℕ} (hstart : start ≤ item.1) (hstop : item.2 ≤ stop)
    (h : (mergeLoop item fuel s start stop).Has x) : s.Has x ∨ start ≤ x ∧ x < stop := by
  induction fuel generalizing s start stop with
  | zero => exact h.of_insertKey
  | succ fuel ih =>
    rw [mergeLoop] at h
    cases hnext : s.nextTo start with
    | none =>
      rw [hnext] at h
      exact h.of_insertKey
    | some r =>
      rw [hnext] at h
      dsimp only at h
      split_ifs at h with hin hover
      · exact (ih hstart hstop h).imp_left Has.of_removeKey
      · have hmin : min start r.1 ≤ item.1 := (min_le_left _ _).trans hstart
        have hmax : item.2 ≤ max stop r.2 := hstop.trans (le_max_left _ _)
        rcases ih hmin hmax h with hx | hx
        · exact .inl hx.of_removeKey
        · rcases between_of_overlaps hover hstart hstop hitem hx with hx | hx
          · exact .inr hx
          · exact .inl ⟨r, nextTo_mem hnext, hx⟩
      · exact h.of_insertKey

/-- Inserting a range adds no number outside it. -/
theorem has_of_insert {s : RangeSet} {item : ℕ × ℕ} (hitem : item.1 ≤ item.2) {x : ℕ}
    (h : (s.insert item).Has x) : s.Has x ∨ item.1 ≤ x ∧ x < item.2 := by
  unfold insert at h
  cases hprev : s.prevTo item.1 with
  | none =>
    rw [hprev] at h
    exact h.of_mergeLoop hitem le_rfl le_rfl
  | some r =>
    rw [hprev] at h
    dsimp only at h
    split_ifs at h with hover
    · rcases h.of_mergeLoop hitem (min_le_left _ _) (le_max_left _ _) with hx | hx
      · exact .inl hx.of_removeKey
      · rcases between_of_overlaps hover le_rfl le_rfl hitem hx with hx | hx
        · exact .inr hx
        · exact .inl ⟨r, prevTo_mem hprev, hx⟩
    · exact h.of_mergeLoop hitem le_rfl le_rfl

/-! ### Canonical sets -/

/-- The ranges are not empty, and there is a gap between two of them. -/
structure Canonical (s : RangeSet) : Prop where
  nonempty : ∀ r ∈ s.inner, r.1 < r.2
  gap : ∀ r ∈ s.inner, ∀ r' ∈ s.inner, r.1 < r'.1 → r.2 < r'.1

instance (s : RangeSet) : Decidable s.Canonical :=
  decidable_of_iff ((∀ r ∈ s.inner, r.1 < r.2) ∧ ∀ r ∈ s.inner, ∀ r' ∈ s.inner, r.1 < r'.1 →
    r.2 < r'.1)
    ⟨fun h => ⟨h.1, h.2⟩, fun h => ⟨h.nonempty, h.gap⟩⟩

/-- The empty set is canonical. -/
theorem canonical_empty : empty.Canonical := ⟨nofun, nofun⟩

variable {s : RangeSet}

/-- Starts are distinct. -/
theorem eq_of_start_eq {r r' : ℕ × ℕ} (hr : r ∈ s.inner) (hr' : r' ∈ s.inner) (h : r.1 = r'.1) :
    r = r' := by
  have hnodup : (s.inner.map Prod.fst).Nodup := List.pairwise_map.mpr
    (s.sorted.imp fun hab => hab.ne)
  exact List.inj_on_of_nodup_map hnodup hr hr' h

/-- A range is removed by its start. -/
theorem mem_removeKey {start : ℕ} {r : ℕ × ℕ} :
    r ∈ (s.removeKey start).inner ↔ r ∈ s.inner ∧ r.1 ≠ start := by
  simp [removeKey]

/-- A range replaces the one with its start. -/
theorem mem_insertKey {start stop : ℕ} {r : ℕ × ℕ} :
    r ∈ (s.insertKey start stop).inner ↔ r = (start, stop) ∨ r ∈ s.inner ∧ r.1 ≠ start := by
  simp only [insertKey, List.mem_append, List.mem_cons, List.mem_filter, decide_eq_true_eq,
    ne_iff_lt_or_gt (a := r.1)]
  tauto

private theorem nextTo_none {item : ℕ} (h : s.nextTo item = none) {r : ℕ × ℕ} (hr : r ∈ s.inner) :
    r.1 < item := by
  simpa using List.find?_eq_none.mp h r hr

/-- The first range that starts at or after a number. -/
theorem nextTo_first {item : ℕ} {r : ℕ × ℕ} (h : s.nextTo item = some r) : item ≤ r.1 ∧
    ∀ r' ∈ s.inner, item ≤ r'.1 → r.1 ≤ r'.1 := by
  obtain ⟨hle, before, behind, hinner, hbefore⟩ := List.find?_eq_some_iff_append.mp h
  refine ⟨by simpa using hle, fun r' hr' hle' => ?_⟩
  have hsorted := s.sorted
  rw [hinner] at hr' hsorted
  rcases List.mem_append.mp hr' with hr' | hr'
  · exact absurd hle' (by simpa using hbefore r' hr')
  · rcases List.mem_cons.mp hr' with rfl | hr'
    · exact le_rfl
    · exact ((List.pairwise_cons.mp (List.pairwise_append.mp hsorted).2.1).1 r' hr').le

/-- Without previous range, all ranges are later. -/
theorem prevTo_none {item : ℕ} (h : s.prevTo item = none) {r : ℕ × ℕ} (hr : r ∈ s.inner) :
    item < r.1 := by
  have hempty := List.getLast?_eq_none_iff.mp h
  by_contra hle
  exact List.filter_eq_nil_iff.mp hempty r hr (by simpa using hle)

/-- The last range that starts at or before a number. -/
theorem prevTo_last {item : ℕ} {r : ℕ × ℕ} (h : s.prevTo item = some r) : r.1 ≤ item ∧
    ∀ r' ∈ s.inner, r'.1 ≤ item → r'.1 ≤ r.1 := by
  have hmem := List.mem_filter.mp (List.mem_of_getLast? h)
  refine ⟨by simpa using hmem.2, fun r' hr' hle => ?_⟩
  obtain ⟨l, hl⟩ := List.getLast?_eq_some_iff.mp h
  have hr' : r' ∈ l ++ [r] := hl ▸ List.mem_filter.mpr ⟨hr', by simpa using hle⟩
  have hsorted : (l ++ [r]).Pairwise fun a b => a.1 < b.1 := hl ▸ s.sorted.filter _
  rcases List.mem_append.mp hr' with hr' | hr'
  · exact ((List.pairwise_append.mp hsorted).2.2 r' hr' r List.mem_cons_self).le
  · rw [List.mem_singleton.mp hr']

/-- Removing a range keeps the set canonical. -/
theorem Canonical.removeKey (h : s.Canonical) (start : ℕ) : (s.removeKey start).Canonical where
  nonempty r hr := h.nonempty r (mem_removeKey.mp hr).1
  gap r hr r' hr' := h.gap r (mem_removeKey.mp hr).1 r' (mem_removeKey.mp hr').1

/-- What goes with a range. -/
theorem Canonical.has_removeKey (h : s.Canonical) {r : ℕ × ℕ} (hr : r ∈ s.inner) {x : ℕ} :
    (s.removeKey r.1).Has x ↔ s.Has x ∧ ¬ (r.1 ≤ x ∧ x < r.2) := by
  constructor
  · rintro ⟨r', hr', hx⟩
    obtain ⟨hmem, hne⟩ := mem_removeKey.mp hr'
    refine ⟨⟨r', hmem, hx⟩, fun hx' => ?_⟩
    rcases lt_or_gt_of_ne hne with hlt | hgt
    · have := h.gap r' hmem r hr hlt
      omega
    · have := h.gap r hr r' hmem hgt
      omega
  · rintro ⟨⟨r', hr', hx⟩, hnot⟩
    refine ⟨r', mem_removeKey.mpr ⟨hr', fun heq => hnot ?_⟩, hx⟩
    rw [← eq_of_start_eq hr' hr heq]
    exact hx

/-- A set that `item` is being merged into: the ranges before `start` leave a gap, and those after
it begin after `item` does, behind `stop` if a range was merged already. -/
structure Merging (item : ℕ × ℕ) (s : RangeSet) (start stop : ℕ) : Prop where
  canonical : s.Canonical
  start_le : start ≤ item.1
  le_stop : item.2 ≤ stop
  left : ∀ r ∈ s.inner, r.1 < start → r.2 < start
  right : ∀ r ∈ s.inner, start ≤ r.1 → item.1 < r.1 ∧ (stop = item.2 ∨ stop < r.1)

section Merging

variable {item : ℕ × ℕ} {start stop : ℕ}

/-- A range is removed, and the merged range may grow by it. -/
theorem Merging.removeKey (h : Merging item s start stop) {r : ℕ × ℕ} {stop' : ℕ}
    (hstop : item.2 ≤ stop') (hright : ∀ r' ∈ s.inner, r'.1 ≠ r.1 → start ≤ r'.1 →
      stop' = item.2 ∨ stop' < r'.1) : Merging item (s.removeKey r.1) start stop' where
  canonical := h.canonical.removeKey _
  start_le := h.start_le
  le_stop := hstop
  left r' hr' := h.left r' (mem_removeKey.mp hr').1
  right r' hr' hle := by
    obtain ⟨hmem, hne⟩ := mem_removeKey.mp hr'
    exact ⟨(h.right r' hmem hle).1, hright r' hmem hne hle⟩

/-- The merged range is added where no range touches it. -/
theorem Merging.insertKey (h : Merging item s start stop) (hlt : start < stop)
    (hright : ∀ r ∈ s.inner, start ≤ r.1 → stop < r.1) : (s.insertKey start stop).Canonical ∧
      ∀ x, (s.insertKey start stop).Has x ↔ s.Has x ∨ start ≤ x ∧ x < stop := by
  refine ⟨⟨fun r hr => ?_, fun r hr r' hr' hlt' => ?_⟩, fun x => ⟨Has.of_insertKey, ?_⟩⟩
  · rcases mem_insertKey.mp hr with rfl | ⟨hr, _⟩
    · exact hlt
    · exact h.canonical.nonempty r hr
  · rcases mem_insertKey.mp hr with rfl | ⟨hr, hne⟩ <;> rcases mem_insertKey.mp hr' with rfl | ⟨hr',
      hne'⟩
    · exact absurd hlt' (lt_irrefl _)
    · exact hright r' hr' hlt'.le
    · exact h.left r hr hlt'
    · exact h.canonical.gap r hr r' hr' hlt'
  · rintro (⟨r, hr, hx⟩ | hx)
    · refine ⟨r, mem_insertKey.mpr (.inr ⟨hr, fun heq => ?_⟩), hx⟩
      have := hright r hr heq.ge
      omega
    · exact ⟨(start, stop), mem_insertKey.mpr (.inl rfl), hx⟩

/-- Merging keeps the set canonical, and adds the new numbers. -/
theorem Merging.mergeLoop (h : Merging item s start stop) (hitem : item.1 < item.2) {fuel : ℕ}
    (hfuel : s.inner.length < fuel) : (mergeLoop item fuel s start stop).Canonical ∧
      ∀ x, (mergeLoop item fuel s start stop).Has x ↔ s.Has x ∨ start ≤ x ∧ x < stop := by
  induction fuel generalizing s stop with
  | zero => exact absurd hfuel (Nat.not_lt_zero _)
  | succ fuel ih =>
    have hlt : start < stop := (h.start_le.trans_lt hitem).trans_le h.le_stop
    have hstart := h.start_le
    rw [RangeSet.mergeLoop]
    cases hnext : s.nextTo start with
    | none => exact h.insertKey hlt fun r hr hle => absurd (nextTo_none hnext hr) hle.not_gt
    | some r =>
      have hr := nextTo_mem hnext
      obtain ⟨hle, hfirst⟩ := nextTo_first hnext
      obtain ⟨hafter, hstop⟩ := h.right r hr hle
      have hnonempty := h.canonical.nonempty r hr
      have hlength : (s.removeKey r.1).inner.length < fuel := by
        have : (s.removeKey r.1).inner.length < s.inner.length :=
          List.length_filter_lt_length_iff_exists.mpr ⟨r, hr, by simp⟩
        omega
      dsimp only
      split_ifs with hin hover
      · -- the range lies inside of `item`
        have hmerging := h.removeKey (r := r) h.le_stop fun r' hr' _ hle' => (h.right r' hr' hle').2
        obtain ⟨hcanonical, hhas⟩ := ih hmerging hlength
        refine ⟨hcanonical, fun x => ?_⟩
        have hlestop := h.le_stop
        rw [hhas, h.canonical.has_removeKey hr]
        by_cases hx : r.1 ≤ x ∧ x < r.2
        · have hcover : start ≤ x ∧ x < stop := by omega
          simp [hcover]
        · simp [hx]
      · -- the range touches `item` at its end, and no range was merged before
        simp only [rangeOverlaps, Bool.or_eq_true, Bool.and_eq_true, decide_eq_true_eq] at hover
        have hends : r.1 ≤ item.2 ∧ item.2 ≤ r.2 := by omega
        have hlestop := h.le_stop
        obtain rfl : stop = item.2 := by omega
        rw [min_eq_left hle, max_eq_right hends.2]
        have hmerging := h.removeKey (r := r) hends.2 fun r' hr' hne hle' => by
          rcases lt_or_gt_of_ne hne with hlt' | hgt
          · exact absurd (hfirst r' hr' hle') hlt'.not_ge
          · exact .inr (h.canonical.gap r hr r' hr' hgt)
        obtain ⟨hcanonical, hhas⟩ := ih hmerging hlength
        refine ⟨hcanonical, fun x => ?_⟩
        rw [hhas, h.canonical.has_removeKey hr]
        by_cases hx : r.1 ≤ x ∧ x < r.2
        · have hhas : s.Has x := ⟨r, hr, hx⟩
          have hcover : start ≤ x ∧ x < r.2 := by omega
          simp [hcover, hhas]
        · have hcover : start ≤ x ∧ x < r.2 ↔ start ≤ x ∧ x < item.2 := by omega
          simp [hx, hcover]
      · refine h.insertKey hlt fun r' hr' hle' => ?_
        have := hfirst r' hr' hle'
        simp only [rangeOverlaps, Bool.or_eq_true, Bool.and_eq_true, decide_eq_true_eq] at hover
        omega

end Merging

/-- What a set has after a range is inserted. -/
theorem Canonical.insert (h : s.Canonical) {item : ℕ × ℕ} (hitem : item.1 < item.2) :
    (s.insert item).Canonical ∧ ∀ x, (s.insert item).Has x ↔ s.Has x ∨ item.1 ≤ x ∧ x < item.2 := by
  unfold RangeSet.insert
  cases hprev : s.prevTo item.1 with
  | none =>
    refine Merging.mergeLoop ⟨h, le_rfl, le_rfl, fun r hr hlt => ?_, fun r hr _ => ?_⟩ hitem
      (Nat.lt_succ_self _)
    · exact absurd (prevTo_none hprev hr) hlt.not_gt
    · exact ⟨prevTo_none hprev hr, .inl rfl⟩
  | some r =>
    have hr := prevTo_mem hprev
    obtain ⟨hle, hlast⟩ := prevTo_last hprev
    have hnonempty := h.nonempty r hr
    -- the ranges behind `r` begin behind the item
    have hafter (r' : ℕ × ℕ) (hr' : r' ∈ s.inner) (hlt : r.1 < r'.1) : item.1 < r'.1 := by
      by_contra hge
      exact absurd (hlast r' hr' (not_lt.mp hge)) hlt.not_ge
    dsimp only
    by_cases hover : rangeOverlaps r item = true
    · -- `r` and the item are merged
      rw [if_pos hover, min_eq_right hle]
      simp only [rangeOverlaps, Bool.or_eq_true, Bool.and_eq_true, decide_eq_true_eq] at hover
      have hmerging : Merging item (s.removeKey r.1) r.1 (max item.2 r.2) := by
        refine ⟨h.removeKey _, hle, le_max_left _ _, fun r' hr' hlt => ?_, fun r' hr' hge => ?_⟩
        · exact h.gap r' (mem_removeKey.mp hr').1 r hr hlt
        · obtain ⟨hmem, hne⟩ := mem_removeKey.mp hr'
          have hlt := lt_of_le_of_ne hge (Ne.symm hne)
          have := h.gap r hr r' hmem hlt
          exact ⟨hafter r' hmem hlt, by omega⟩
      have hlength : (s.removeKey r.1).inner.length < s.inner.length + 1 :=
        Nat.lt_succ_of_le (List.length_filter_le _ _)
      obtain ⟨hcanonical, hhas⟩ := hmerging.mergeLoop hitem hlength
      refine ⟨hcanonical, fun x => ?_⟩
      rw [hhas, h.has_removeKey hr]
      by_cases hx : r.1 ≤ x ∧ x < r.2
      · have hhas : s.Has x := ⟨r, hr, hx⟩
        have hcover : r.1 ≤ x ∧ x < max item.2 r.2 := by omega
        exact iff_of_true (.inr hcover) (.inl hhas)
      · have hcover : r.1 ≤ x ∧ x < max item.2 r.2 ↔ item.1 ≤ x ∧ x < item.2 := by omega
        rw [hcover, and_iff_left hx]
    · -- `r` ends before the item begins
      rw [if_neg hover]
      simp only [rangeOverlaps, Bool.or_eq_true, Bool.and_eq_true, decide_eq_true_eq] at hover
      refine Merging.mergeLoop ⟨h, le_rfl, le_rfl, fun r' hr' hlt => ?_, fun r' hr' hge => ?_⟩ hitem
        (Nat.lt_succ_self _)
      · rcases lt_or_ge r.1 r'.1 with hgt | hge
        · exact absurd (hafter r' hr' hgt) hlt.not_gt
        · rcases hge.lt_or_eq with hlt' | heq
          · have := h.gap r' hr' r hr hlt'
            omega
          · rw [eq_of_start_eq hr' hr heq]
            omega
      · refine ⟨lt_of_le_of_ne hge fun heq => ?_, .inl rfl⟩
        have := hlast r' hr' heq.ge
        have := hafter r' hr'
        omega

/-- A number is added. -/
theorem Canonical.pushItem (h : s.Canonical) (item : ℕ) : (s.pushItem item).Canonical ∧
    ∀ x, (s.pushItem item).Has x ↔ s.Has x ∨ x = item := by
  obtain ⟨hcanonical, hhas⟩ := @Canonical.insert _ h (item, item + 1) (Nat.lt_succ_self item)
  refine ⟨hcanonical, fun x => (hhas x).trans (or_congr_right ?_)⟩
  dsimp only
  omega

/-- The loop that removes ranges up to a number. Only the last of them can go on after it. -/
theorem Canonical.removeLoop {largest : ℕ} {rs : List (ℕ × ℕ)} (h : s.Canonical)
    (hrs : ∀ r, r ∈ rs ↔ r ∈ s.inner ∧ r.1 ≤ largest) (hsorted : rs.Pairwise fun a b => a.1 < b.1) :
    let s' := rs.foldl (fun s r =>
      if largest + 1 < r.2 then (s.removeKey r.1).insert (largest + 1, r.2) else s.removeKey r.1) s
    s'.Canonical ∧ ∀ x, s'.Has x ↔ s.Has x ∧ largest < x := by
  -- over the ranges that begin up to the largest number
  induction rs generalizing s with
  | nil =>
    refine ⟨h, fun x => ⟨fun hx => ⟨hx, ?_⟩, And.left⟩⟩
    obtain ⟨r, hr, hle, _⟩ := hx
    by_contra hge
    exact absurd ((hrs r).mpr ⟨hr, hle.trans (not_lt.mp hge)⟩) List.not_mem_nil
  | cons r rs ih =>
    obtain ⟨hlt, hsorted⟩ := List.pairwise_cons.mp hsorted
    obtain ⟨hr, hle⟩ := (hrs r).mp List.mem_cons_self
    have hremoved (r' : ℕ × ℕ) : r' ∈ rs ↔ r' ∈ (s.removeKey r.1).inner ∧ r'.1 ≤ largest := by
      rw [mem_removeKey]
      constructor
      · intro hr'
        obtain ⟨hmem, hle'⟩ := (hrs r').mp (List.mem_cons_of_mem r hr')
        exact ⟨⟨hmem, (hlt r' hr').ne'⟩, hle'⟩
      · rintro ⟨⟨hmem, hne⟩, hle'⟩
        rcases List.mem_cons.mp ((hrs r').mpr ⟨hmem, hle'⟩) with rfl | hr'
        · exact absurd rfl hne
        · exact hr'
    dsimp only
    rw [List.foldl_cons]
    by_cases hlast : largest + 1 < r.2
    · -- a range that goes beyond the largest number is the last one
      have hnil : rs = [] := by
        refine List.eq_nil_iff_forall_not_mem.mpr fun r' hr' => ?_
        obtain ⟨hmem, hle'⟩ := (hrs r').mp (List.mem_cons_of_mem r hr')
        have := h.gap r hr r' hmem (hlt r' hr')
        omega
      subst hnil
      rw [if_pos hlast, List.foldl_nil]
      obtain ⟨hcanonical, hhas⟩ := @Canonical.insert _ (h.removeKey r.1) (largest + 1, r.2) hlast
      refine ⟨hcanonical, fun x => ?_⟩
      rw [hhas, h.has_removeKey hr]
      constructor
      · rintro (⟨⟨r', hr', hx⟩, hnot⟩ | hx)
        · refine ⟨⟨r', hr', hx⟩, ?_⟩
          by_contra hge
          have heq := (hrs r').mpr ⟨hr', hx.1.trans (not_lt.mp hge)⟩
          rw [List.mem_singleton.mp heq] at hx
          exact hnot hx
        · exact ⟨⟨r, hr, by omega⟩, by omega⟩
      · rintro ⟨hx, hgt⟩
        by_cases hin : r.1 ≤ x ∧ x < r.2
        · exact .inr ⟨hgt, hin.2⟩
        · exact .inl ⟨hx, hin⟩
    · -- the range is removed as a whole
      rw [if_neg hlast]
      obtain ⟨hcanonical, hhas⟩ := ih (h.removeKey r.1) hremoved hsorted
      refine ⟨hcanonical, fun x => ?_⟩
      rw [hhas, h.has_removeKey hr]
      constructor
      · rintro ⟨⟨hx, _⟩, hgt⟩
        exact ⟨hx, hgt⟩
      · rintro ⟨hx, hgt⟩
        exact ⟨⟨hx, by omega⟩, hgt⟩

/-- What a set has after the numbers up to `largest` are removed. -/
theorem Canonical.removeUntil (h : s.Canonical) (largest : ℕ) : (s.removeUntil largest).Canonical ∧
    ∀ x, (s.removeUntil largest).Has x ↔ s.Has x ∧ largest < x :=
  h.removeLoop (fun r => by simp) (s.sorted.filter _)

/-- A canonical set is empty if it has no number. -/
theorem Canonical.isEmpty_iff (h : s.Canonical) : s.isEmpty = true ↔ ∀ x, ¬ s.Has x := by
  rw [isEmpty, List.isEmpty_iff]
  constructor
  · rintro hnil x ⟨r, hr, _⟩
    rw [hnil] at hr
    cases hr
  · intro hnone
    refine List.eq_nil_iff_forall_not_mem.mpr fun r hr => ?_
    exact hnone r.1 ⟨r, hr, le_rfl, h.nonempty r hr⟩

/-- A range in front of all others, which it does not touch, becomes the first one. -/
theorem insert_front {item : ℕ × ℕ} (hitem : item.1 ≤ item.2)
    (hfront : ∀ r ∈ s.inner, item.2 < r.1) :
    (s.insert item).inner = item :: s.inner := by
  have hbehind (r : ℕ × ℕ) (hr : r ∈ s.inner) : item.1 < r.1 := hitem.trans_lt (hfront r hr)
  have hkey : (s.insertKey item.1 item.2).inner = item :: s.inner := by
    have hnone : (s.inner.filter fun r => r.1 < item.1) = [] :=
      List.filter_eq_nil_iff.mpr fun r hr => by simpa using (hbehind r hr).le
    have hall : (s.inner.filter fun r => item.1 < r.1) = s.inner :=
      List.filter_eq_self.mpr fun r hr => by simpa using hbehind r hr
    change (s.inner.filter fun r => r.1 < item.1) ++ item :: (s.inner.filter fun r =>
      item.1 < r.1) = _
    rw [hnone, hall, List.nil_append]
  have hprev : s.prevTo item.1 = none := by
    cases hprev : s.prevTo item.1 with
    | none => rfl
    | some r => exact absurd (prevTo_last hprev).1 (hbehind r (prevTo_mem hprev)).not_ge
  unfold insert
  rw [hprev]
  dsimp only
  unfold mergeLoop
  cases hnext : s.nextTo item.1 with
  | none => exact hkey
  | some r =>
    have hlt := hfront r (nextTo_mem hnext)
    have hstart := hbehind r (nextTo_mem hnext)
    dsimp only
    rw [if_neg (by omega), if_pos]
    · exact hkey
    · simp only [rangeOverlaps, Bool.or_eq_true, Bool.and_eq_true, decide_eq_true_eq]
      omega

/-- A set that is not empty has a largest number. -/
theorem largest_isSome (h : s.isEmpty = false) : s.largest.isSome = true := by
  rw [isEmpty, List.isEmpty_eq_false_iff] at h
  rw [largest, Option.isSome_map, List.getLast?_isSome]
  exact h

end RangeSet

end Dtp
