import Mathlib.Algebra.Order.Group.Nat
import Mathlib.Algebra.Order.Ring.Nat
import Mathlib.Data.List.Basic

/-!
# Lists in the order of keys

A map with numbers as keys, as the list of its values in ascending order of their keys.

## Main definitions

* `Ascending`, `insertKey` — the order, and how a value is added

## Main results

* `insertKey_perm`, `Ascending.perm_cons_filter` — what adding and removing a value changes
-/

namespace Dtp.Lib

variable {α : Type*} (key : α → ℕ)

/-- The keys increase along the list. -/
def Ascending (l : List α) : Prop := l.Pairwise fun a b => key a < key b

/-- Adds an element in place of one with the same key. -/
def insertKey (a : α) (l : List α) : List α :=
  (l.filter fun b => key b < key a) ++ a :: l.filter fun b => key a < key b

variable {key} {l : List α} {a : α}

theorem mem_insertKey {b : α} : b ∈ insertKey key a l ↔ b = a ∨ b ∈ l ∧ key b ≠ key a := by
  simp only [insertKey, List.mem_append, List.mem_cons, List.mem_filter, decide_eq_true_eq,
    ne_iff_lt_or_gt (a := key b)]
  tauto

theorem Ascending.filter (h : Ascending key l) (p : α → Bool) : Ascending key (l.filter p) :=
  List.Pairwise.filter p h

theorem Ascending.insertKey (h : Ascending key l) (a : α) : Ascending key (insertKey key a l) := by
  refine List.pairwise_append.mpr ⟨h.filter _, List.pairwise_cons.mpr ⟨?_, h.filter _⟩, ?_⟩
  · intro b hb
    simpa using (List.mem_filter.mp hb).2
  · intro b hb c hc
    have hba : key b < key a := by simpa using (List.mem_filter.mp hb).2
    rcases List.mem_cons.mp hc with rfl | hc
    · exact hba
    · have hac : key a < key c := by simpa using (List.mem_filter.mp hc).2
      exact hba.trans hac

/-- An element with a fresh key only is added. -/
theorem insertKey_perm (hfresh : ∀ b ∈ l, key b ≠ key a) : (insertKey key a l).Perm (a :: l) := by
  have hgreater : (l.filter fun b => key a < key b) = l.filter fun b => !decide
      (key b < key a) := by
    apply List.filter_congr
    intro b hb
    have := hfresh b hb
    simp only [decide_eq_decide, ← decide_not]
    omega
  rw [insertKey, hgreater]
  exact List.perm_middle.trans ((List.filter_append_perm _ l).cons a)

/-- Where keys are kept, so is the place of an element. -/
theorem map_insertKey {β : Type*} (key : α → ℕ) (key' : β → ℕ) (f : α → β)
    (hkey : ∀ b, key' (f b) = key b) (a : α) (l : List α) :
    (insertKey key a l).map f = insertKey key' (f a) (l.map f) := by
  simp only [insertKey, List.map_append, List.map_cons, List.filter_map, Function.comp_def, hkey]

/-- The element with a key is the only one that goes when its key does. -/
theorem Ascending.perm_cons_filter (h : Ascending key l) (ha : a ∈ l) :
    l.Perm (a :: l.filter fun b => key b ≠ key a) := by
  induction l with
  | nil => cases ha
  | cons c l ih =>
    obtain ⟨hc, hl⟩ := List.pairwise_cons.mp h
    rcases List.mem_cons.mp ha with rfl | ha
    · rw [List.filter_cons_of_neg (by simp), List.filter_eq_self.mpr]
      intro b hb
      simpa using (hc b hb).ne'
    · rw [List.filter_cons_of_pos (by simpa using (hc a ha).ne)]
      exact ((ih hl ha).cons c).trans (List.Perm.swap a c _)

/-- An element is found under its key. -/
theorem Ascending.find?_eq (h : Ascending key l) (ha : a ∈ l) :
    (l.find? fun b => key b == key a) = some a := by
  induction l with
  | nil => cases ha
  | cons c l ih =>
    obtain ⟨hc, hl⟩ := List.pairwise_cons.mp h
    rcases List.mem_cons.mp ha with rfl | ha
    · exact List.find?_cons_of_pos (beq_self_eq_true _)
    · rw [List.find?_cons_of_neg (by simpa using (hc a ha).ne)]
      exact ih hl ha

/-- Keys that elements have are the keys of some of the elements. -/
theorem exists_map_eq {keys : List ℕ} (h : ∀ k ∈ keys, ∃ a ∈ l, key a = k) :
    ∃ as ⊆ l, as.map key = keys := by
  induction keys with
  | nil => exact ⟨[], List.nil_subset l, rfl⟩
  | cons k keys ih =>
    obtain ⟨a, ha, rfl⟩ := h k List.mem_cons_self
    obtain ⟨as, has, rfl⟩ := ih fun k hk => h k (List.mem_cons_of_mem _ hk)
    exact ⟨a :: as, List.cons_subset.mpr ⟨ha, has⟩, rfl⟩

end Dtp.Lib
