import Mathlib.Algebra.Order.Ring.Nat
import Mathlib.Data.List.Perm.Basic
import Mathlib.Data.Nat.Basic
import Mathlib.Order.Basic
import Mathlib.Tactic.SplitIfs

/-!
# Array-backed binary heaps with an observable layout

A priority queue kept in a level-order array, smallest key first. Clients may
walk the array in its own order, so the layout after each operation matters and
not only the multiset of elements: `push` appends and sifts up, `pop` moves the
last element to the root, sifts it all the way to the bottom along the smaller
children and then sifts it back up.

## Main definitions

* `IsHeap` — no element's key is below its parent's
* `BinaryHeap` — an array together with the proof that it is a heap

## Main results

* `BinaryHeap.toList_push`, `BinaryHeap.toList_pop` — the operations add and
  remove exactly one element
* `BinaryHeap.peek_le` — the root has the smallest key
-/

namespace Dtp.Lib

variable {α κ : Type*} [LinearOrder κ] {key : α → κ}

/-- No element's key is below its parent's. -/
def IsHeap (key : α → κ) (data : Array α) : Prop :=
  ∀ i (_ : i < data.size), 0 < i → key data[(i - 1) / 2] ≤ key data[i]

/-- Swap the element at `pos` with its parent while it is strictly smaller. -/
def siftUp (key : α → κ) : ℕ → Array α → ℕ → Array α
  | 0, data, _ => data
  | fuel + 1, data, pos =>
    if h : 0 < pos ∧ pos < data.size then
      if key (data[(pos - 1) / 2]) ≤ key (data[pos]) then data
      else siftUp key fuel (data.swap pos ((pos - 1) / 2)) ((pos - 1) / 2)
    else data

/-- Swap the element at `pos` with its smaller child (the right one on ties)
until it has no children, and report where it ended. -/
def siftDownToBottom (key : α → κ) : ℕ → Array α → ℕ → Array α × ℕ
  | 0, data, pos => (data, pos)
  | fuel + 1, data, pos =>
    if h : 2 * pos + 2 < data.size then
      if key data[2 * pos + 2] ≤ key data[2 * pos + 1] then
        siftDownToBottom key fuel (data.swap pos (2 * pos + 2)) (2 * pos + 2)
      else
        siftDownToBottom key fuel (data.swap pos (2 * pos + 1)) (2 * pos + 1)
    else if h' : 2 * pos + 1 < data.size then
      (data.swap pos (2 * pos + 1), 2 * pos + 1)
    else (data, pos)

/-! ### Sifting permutes the array -/

/-- Sifting up keeps the items. -/
theorem siftUp_perm (fuel : ℕ) (data : Array α) (pos : ℕ) :
    (siftUp key fuel data pos).Perm data := by
  induction fuel generalizing data pos with
  | zero => exact .refl _
  | succ fuel ih =>
    rw [siftUp]
    split_ifs
    · exact .refl _
    · exact (ih _ _).trans (Array.swap_perm _ _)
    · exact .refl _

/-- Sifting down keeps the items. -/
theorem siftDownToBottom_perm (fuel : ℕ) (data : Array α) (pos : ℕ) :
    (siftDownToBottom key fuel data pos).1.Perm data := by
  induction fuel generalizing data pos with
  | zero => exact .refl _
  | succ fuel ih =>
    rw [siftDownToBottom]
    split_ifs
    · exact (ih _ _).trans (Array.swap_perm _ _)
    · exact (ih _ _).trans (Array.swap_perm _ _)
    · exact Array.swap_perm _ _
    · exact .refl _

/-! ### Sifting restores the heap order -/

/-- Only the edge entering `pos` may be out of order, and the parent of `pos` is
in order with the children of `pos`. -/
structure SiftReady (key : α → κ) (data : Array α) (pos : ℕ) : Prop where
  edges : ∀ i (hi : i < data.size), 0 < i → i ≠ pos →
    key (data[(i - 1) / 2]) ≤ key data[i]
  children : ∀ i (hi : i < data.size), 0 < i → (_ : (i - 1) / 2 = pos) → 0 < pos →
    key (data[(pos - 1) / 2]) ≤ key data[i]

/-- Where no edge is out of order, there is a heap. -/
theorem SiftReady.isHeap {data : Array α} {pos : ℕ} (ready : SiftReady key data pos)
    (done : ∀ h : pos < data.size, 0 < pos →
      key (data[(pos - 1) / 2]) ≤ key data[pos]) : IsHeap key data := by
  intro i hi ipos
  by_cases hip : i = pos
  · subst hip
    exact done hi ipos
  · exact ready.edges i hi ipos hip

/-- The disorder moves towards the root. -/
theorem SiftReady.swap_parent {data : Array α} {pos : ℕ} (ready : SiftReady key data pos)
    (hpos : 0 < pos) (hlt : pos < data.size)
    (hbelow : ¬ key (data[(pos - 1) / 2]) ≤ key data[pos]) :
    SiftReady key (data.swap pos ((pos - 1) / 2) hlt (by omega)) ((pos - 1) / 2) := by
  have hbelow := (not_le.mp hbelow).le
  have hedge := ready.edges
  have hchild := ready.children
  constructor
  · intro i hi ipos hne
    simp only [Array.size_swap] at hi
    simp only [Array.getElem_swap]
    by_cases hip : i = pos
    · grind
    · by_cases hpar : (i - 1) / 2 = pos
      · have := hchild i hi ipos hpar hpos
        grind
      · have := hedge i hi ipos hip
        grind
  · intro i hi ipos hpar qpos
    simp only [Array.size_swap] at hi
    simp only [Array.getElem_swap]
    have hq := hedge ((pos - 1) / 2) (by omega) qpos (by omega)
    by_cases hip : i = pos
    · grind
    · have := hedge i hi ipos hip
      grind

/-- Sifting up repairs the heap. -/
theorem siftUp_isHeap (fuel : ℕ) (data : Array α) (pos : ℕ) (enough : pos ≤ fuel)
    (ready : SiftReady key data pos) : IsHeap key (siftUp key fuel data pos) := by
  induction fuel generalizing data pos with
  | zero => exact ready.isHeap (by omega)
  | succ fuel ih =>
    rw [siftUp]
    split_ifs with h hle
    · exact ready.isHeap fun _ _ => hle
    · exact ih _ _ (by omega) (ready.swap_parent h.1 h.2 hle)
    · exact ready.isHeap fun hlt hpos => absurd ⟨hpos, hlt⟩ h

/-- Only the edges leaving `pos` may be out of order. -/
structure SinkReady (key : α → κ) (data : Array α) (pos : ℕ) : Prop where
  edges : ∀ i (hi : i < data.size), 0 < i → i ≠ pos → (i - 1) / 2 ≠ pos →
    key (data[(i - 1) / 2]) ≤ key data[i]
  children : ∀ i (hi : i < data.size), 0 < i → (_ : (i - 1) / 2 = pos) → 0 < pos →
    key (data[(pos - 1) / 2]) ≤ key data[i]

/-- The disorder moves towards the leaves. -/
theorem SinkReady.swap_child {data : Array α} {pos c : ℕ} (ready : SinkReady key data pos)
    (hc : c < data.size) (cpos : 0 < c) (hpar : (c - 1) / 2 = pos)
    (smallest : ∀ i (hi : i < data.size), 0 < i → (i - 1) / 2 = pos →
      key data[c] ≤ key data[i]) :
    SinkReady key (data.swap pos c (by omega) hc) c := by
  have hedge := ready.edges
  have hchild := ready.children
  constructor
  · intro i hi ipos hne hparc
    simp only [Array.size_swap] at hi
    simp only [Array.getElem_swap]
    by_cases hip : i = pos
    · have := hchild c hc cpos hpar (by omega)
      grind
    · by_cases hpi : (i - 1) / 2 = pos
      · have := smallest i hi ipos hpi
        grind
      · have := hedge i hi ipos hip hpi
        grind
  · intro i hi ipos hparc _
    simp only [Array.size_swap] at hi
    simp only [Array.getElem_swap]
    have := hedge i hi ipos (by omega) (by omega)
    grind

/-- At a leaf, only the edge above may be out of order. -/
theorem SinkReady.siftReady {data : Array α} {pos : ℕ} (ready : SinkReady key data pos)
    (leaf : data.size ≤ 2 * pos + 1) : SiftReady key data pos where
  edges i hi ipos hne := ready.edges i hi ipos hne (by omega)
  children i hi _ _ _ := by omega

/-- After sifting down, sifting up repairs the heap. -/
theorem siftDownToBottom_ready (fuel : ℕ) (data : Array α) (pos : ℕ)
    (enough : data.size ≤ fuel + pos) (ready : SinkReady key data pos) :
    SiftReady key (siftDownToBottom key fuel data pos).1
      (siftDownToBottom key fuel data pos).2 := by
  induction fuel generalizing data pos with
  | zero => exact ready.siftReady (by omega)
  | succ fuel ih =>
    rw [siftDownToBottom]
    split_ifs with h hle h'
    · refine ih _ _ (by simp only [Array.size_swap]; omega)
        (ready.swap_child h (by omega) (by omega) ?_)
      intro i hi ipos hpi
      have : i = 2 * pos + 1 ∨ i = 2 * pos + 2 := by omega
      rcases this with rfl | rfl
      · exact hle
      · exact le_rfl
    · refine ih _ _ (by simp only [Array.size_swap]; omega)
        (ready.swap_child (by omega) (by omega) (by omega) ?_)
      intro i hi ipos hpi
      have : i = 2 * pos + 1 ∨ i = 2 * pos + 2 := by omega
      rcases this with rfl | rfl
      · exact le_rfl
      · exact (not_le.mp hle).le
    · refine (ready.swap_child h' (by omega) (by omega) ?_).siftReady
        (by simp only [Array.size_swap]; omega)
      intro i hi ipos hpi
      obtain rfl : i = 2 * pos + 1 := by omega
      exact le_rfl
    · exact ready.siftReady (by omega)

/-! ### The heap -/

/-- An array in heap order. -/
structure BinaryHeap (key : α → κ) where
  /-- The level-order array. -/
  data : Array α
  /-- The array is in heap order. -/
  ordered : IsHeap key data

namespace BinaryHeap

/-- The heap with no elements. -/
def empty : BinaryHeap key := ⟨#[], fun _ hi => absurd hi (Nat.not_lt_zero _)⟩

/-- The elements in array order, the order in which an iterator visits them. -/
def toList (h : BinaryHeap key) : List α := h.data.toList

/-- The root, if any. -/
def peek (h : BinaryHeap key) : Option α := h.data[0]?

/-- Append `x` and sift it up. -/
def push (h : BinaryHeap key) (x : α) : BinaryHeap key where
  data := siftUp key h.data.size (h.data.push x) h.data.size
  ordered := by
    refine siftUp_isHeap _ _ _ le_rfl ⟨?_, ?_⟩
    · intro i hi ipos hne
      simp only [Array.size_push] at hi
      rw [Array.getElem_push_lt (by omega), Array.getElem_push_lt (by omega)]
      exact h.ordered i (by omega) ipos
    · intro i hi ipos hpar _
      simp only [Array.size_push] at hi
      omega

/-- The array left when the last element replaces the root and is sifted to the
bottom and back up. -/
def popData (key : α → κ) (data : Array α) (last : α) : Array α :=
  let rest := (data.pop).setIfInBounds 0 last
  let sunk := siftDownToBottom key rest.size rest 0
  siftUp key sunk.2 sunk.1 sunk.2

/-- After a pop, there is a heap. -/
theorem popData_isHeap (h : BinaryHeap key) (last : α) :
    IsHeap key (popData key h.data last) := by
  refine siftUp_isHeap _ _ _ le_rfl (siftDownToBottom_ready _ _ _ (by simp) ⟨?_, ?_⟩)
  · intro i hi ipos hne hpar
    simp only [Array.size_setIfInBounds, Array.size_pop] at hi
    rw [Array.getElem_setIfInBounds_ne (by simp; omega) (by omega),
      Array.getElem_setIfInBounds_ne (by simp; omega) (by omega), Array.getElem_pop,
      Array.getElem_pop]
    exact h.ordered i (by omega) ipos
  · intro i hi ipos hpar hpos
    omega

/-- Remove the root. -/
def pop (h : BinaryHeap key) : Option (α × BinaryHeap key) :=
  match h.data[0]?, h.data.back? with
  | some root, some last => some (root, ⟨popData key h.data last, popData_isHeap h last⟩)
  | _, _ => none

@[simp] theorem toList_empty : (empty : BinaryHeap key).toList = [] := rfl

/-- A push adds one item. -/
theorem toList_push (h : BinaryHeap key) (x : α) : (h.push x).toList.Perm (x :: h.toList) := by
  have hp : (h.push x).toList.Perm (h.data.push x).toList :=
    Array.perm_iff_toList_perm.mp (siftUp_perm _ _ _)
  rw [Array.toList_push] at hp
  exact hp.trans (List.perm_append_singleton _ _)

@[simp] theorem mem_push {h : BinaryHeap key} {x y : α} :
    y ∈ (h.push x).toList ↔ y = x ∨ y ∈ h.toList := by
  rw [(toList_push h x).mem_iff, List.mem_cons]

theorem peek_eq_head? (h : BinaryHeap key) : h.peek = h.toList.head? := by
  simp [peek, toList, List.head?_eq_getElem?]

/-- The first item is one of the items. -/
theorem peek_mem {h : BinaryHeap key} {x : α} (hx : h.peek = some x) : x ∈ h.toList := by
  rw [peek_eq_head?] at hx
  exact List.mem_of_head? hx

/-- Only an empty heap has no first item. -/
theorem peek_eq_none_iff {h : BinaryHeap key} : h.peek = none ↔ h.toList = [] := by
  rw [peek_eq_head?, List.head?_eq_none_iff]

/-- No key is less than that of the root. -/
theorem key_root_le (h : BinaryHeap key) (i : ℕ) (hi : i < h.data.size) :
    key (h.data[0]) ≤ key h.data[i] := by
  induction i using Nat.strong_induction_on with
  | _ i ih =>
    by_cases hpos : 0 < i
    · exact (ih ((i - 1) / 2) (by omega) (by omega)).trans (h.ordered i hi hpos)
    · obtain rfl : i = 0 := by omega
      exact le_rfl

/-- The root has the smallest key. -/
theorem peek_le {h : BinaryHeap key} {x y : α} (hx : h.peek = some x) (hy : y ∈ h.toList) :
    key x ≤ key y := by
  obtain ⟨i, hi, rfl⟩ := List.getElem_of_mem hy
  obtain ⟨hpos, rfl⟩ := Array.getElem?_eq_some_iff.mp hx
  exact h.key_root_le i (by simpa [toList] using hi)

/-- Nothing is popped from an empty heap only. -/
theorem pop_eq_none_iff {h : BinaryHeap key} : h.pop = none ↔ h.toList = [] := by
  rw [← peek_eq_none_iff, pop, peek]
  cases hroot : h.data[0]? with
  | none => simp
  | some root =>
    have : h.data.back? ≠ none := by
      rw [Ne, Array.back?_eq_none_iff]
      rintro hempty
      simp [hempty] at hroot
    obtain ⟨last, hlast⟩ := Option.ne_none_iff_exists'.mp this
    simp [hlast]

/-- The first item is popped. -/
theorem peek_of_pop {h h' : BinaryHeap key} {x : α} (hpop : h.pop = some (x, h')) :
    h.peek = some x := by
  rw [pop] at hpop
  split at hpop
  · rename_i root last hroot _
    cases hpop
    exact hroot
  · cases hpop

private theorem perm_set_dropLast {l : List α} {root last : α} (hroot : l.head? = some root)
    (hlast : l.getLast? = some last) : l.Perm (root :: l.dropLast.set 0 last) := by
  match l with
  | [] => simp at hroot
  | [a] =>
    obtain rfl : a = root := by simpa using hroot
    exact .refl _
  | a :: b :: t =>
    obtain rfl : a = root := by simpa using hroot
    have hsplit : (b :: t).dropLast ++ [last] = b :: t :=
      List.dropLast_append_getLast? last (by simpa using hlast)
    rw [List.dropLast_cons_cons, List.set_cons_zero]
    refine .cons a ?_
    calc b :: t = (b :: t).dropLast ++ [last] := hsplit.symm
      List.Perm _ (last :: (b :: t).dropLast) := List.perm_append_singleton _ _

/-- Removing the root removes exactly that element. -/
theorem toList_pop {h h' : BinaryHeap key} {x : α} (hpop : h.pop = some (x, h')) :
    h.toList.Perm (x :: h'.toList) := by
  rw [pop] at hpop
  split at hpop
  · rename_i root last hroot hlast
    cases hpop
    have hperm : (popData key h.data last).toList.Perm (h.data.pop.setIfInBounds 0 last).toList :=
      Array.perm_iff_toList_perm.mp ((siftUp_perm _ _ _).trans (siftDownToBottom_perm _ _ _))
    rw [Array.toList_setIfInBounds, Array.toList_pop] at hperm
    refine .trans (perm_set_dropLast (?_ : _ = some x) (?_ : _ = some last)) (.cons x hperm.symm)
    · simpa [toList, List.head?_eq_getElem?] using hroot
    · simpa [toList] using hlast
  · cases hpop

/-- A pop removes one item. -/
theorem mem_of_mem_pop {h h' : BinaryHeap key} {x y : α} (hpop : h.pop = some (x, h')) :
    y ∈ h.toList ↔ y = x ∨ y ∈ h'.toList := by
  rw [(toList_pop hpop).mem_iff, List.mem_cons]

end BinaryHeap

end Dtp.Lib
