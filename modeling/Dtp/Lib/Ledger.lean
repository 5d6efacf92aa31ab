import Dtp.Lib.Keyed
import Mathlib.Algebra.BigOperators.Group.Finset.Basic
import Mathlib.Algebra.Order.BigOperators.Group.Finset
import Mathlib.Data.Fintype.Basic

/-!
# A ledger of items that travel in parcels

Items are sent in parcels, which have numbers. A parcel is delivered or given up, and then
no longer held; its items can also be delivered while the empty parcel is still held. A
parcel that is given up returns its items if it is tracked. The ledger says of every item
in which place it is.

## Main definitions

* `Parcel`, `Ledger`, `Ledger.Move` — parcels, places, and what moves items
* `Ledger.Place`, `Ledger.items` — the places, and the items of a place

## Main results

* `Ledger.count_run` — moves lose no items and make none, if the numbers are fresh
* `Ledger.exists_place` — an item that was sent once is in exactly one place
-/

namespace Dtp.Lib

variable {α β : Type*}

/-- Items that are sent together, under a number. -/
structure Parcel (α : Type*) where
  number : ℕ
  tracked : Bool
  items : List α
  deriving DecidableEq

/-- Items that wait until they are taken. -/
structure Pile (α : Type*) where
  waiting : List α
  taken : List α
  discarded : List α

namespace Pile

/-- Items come to wait. -/
def add (p : Pile α) (items : List α) : Pile α := { p with waiting := p.waiting ++ items }

/-- All that waits is taken. -/
def take (p : Pile α) : Pile α := { p with waiting := [], taken := p.taken ++ p.waiting }

/-- All that waits is discarded. -/
def clear (p : Pile α) : Pile α := { p with waiting := [], discarded := p.discarded ++ p.waiting }

/-- Everything that was ever added. -/
def all (p : Pile α) : List α := p.waiting ++ (p.taken ++ p.discarded)

/-- Nothing on a pile is forgotten. -/
theorem add_grows (p : Pile α) (items : List α) : p.all ⊆ (p.add items).all := by
  intro a ha
  simp only [all, add, List.mem_append] at ha ⊢
  tauto

theorem take_grows (p : Pile α) : p.all ⊆ p.take.all := by
  intro a ha
  simp only [all, take, List.mem_append] at ha ⊢
  tauto

theorem clear_grows (p : Pile α) : p.all ⊆ p.clear.all := by
  intro a ha
  simp only [all, clear, List.mem_append] at ha ⊢
  tauto

end Pile

/-- Where the items of all parcels are. -/
structure Ledger (α : Type*) where
  /-- The parcels on the way, in ascending order of their numbers. -/
  held : List (Parcel α)
  delivered : Pile α
  returned : Pile α
  /-- Items that were on the way when the ledger was cleared. -/
  discarded : List α
  /-- Items of parcels that were given up and not tracked. -/
  dropped : List α

namespace Ledger

/-- No parcel was sent. -/
def empty : Ledger α := ⟨[], ⟨[], [], []⟩, ⟨[], [], []⟩, [], []⟩

/-- The places where an item can be. -/
inductive Place
  | held
  | delivered
  | deliveredTaken
  | deliveredDiscarded
  | returned
  | returnedTaken
  | returnedDiscarded
  | discarded
  | dropped
  deriving DecidableEq

/-- All places. -/
def places : Finset Place :=
  {.held, .delivered, .deliveredTaken, .deliveredDiscarded, .returned, .returnedTaken,
    .returnedDiscarded, .discarded, .dropped}

theorem mem_places (place : Place) : place ∈ places := by
  cases place <;> decide

/-- The items of a place. -/
def items (L : Ledger α) : Place → List α
  | .held => L.held.flatMap Parcel.items
  | .delivered => L.delivered.waiting
  | .deliveredTaken => L.delivered.taken
  | .deliveredDiscarded => L.delivered.discarded
  | .returned => L.returned.waiting
  | .returnedTaken => L.returned.taken
  | .returnedDiscarded => L.returned.discarded
  | .discarded => L.discarded
  | .dropped => L.dropped

/-- What happens to parcels. -/
inductive Move (α : Type*)
  | send (p : Parcel α)
  | deliver (number : ℕ)
  /-- The items of a parcel are delivered, and the parcel is still held. -/
  | unpack (number : ℕ)
  | giveUp (number : ℕ)
  | takeDelivered
  | takeReturned
  | clear
  deriving DecidableEq

/-- The parcel with a number that is held. -/
def find (L : Ledger α) (number : ℕ) : Option (Parcel α) := L.held.find? fun p => p.number == number

/-- The parcel is not held any more. -/
def remove (L : Ledger α) (number : ℕ) : Ledger α :=
  { L with held := L.held.filter fun p => p.number ≠ number }

/-- The items of a parcel are delivered. -/
def deliver (L : Ledger α) (number : ℕ) : Ledger α :=
  match L.find number with
  | none => L
  | some p => { L.remove number with delivered := L.delivered.add p.items }

/-- The items of a parcel are delivered, and the parcel stays. -/
def unpack (L : Ledger α) (number : ℕ) : Ledger α :=
  match L.find number with
  | none => L
  | some p =>
    { L with
      held := L.held.map fun q => if q.number = number then { q with items := [] } else q
      delivered := L.delivered.add p.items }

/-- The items of a parcel are returned. -/
def giveUp (L : Ledger α) (number : ℕ) : Ledger α :=
  match L.find number with
  | none => L
  | some p =>
    if p.tracked then { L.remove number with returned := L.returned.add p.items }
    else { L.remove number with dropped := L.dropped ++ p.items }

/-- The ledger after a move. -/
def apply (L : Ledger α) : Move α → Ledger α
  | .send p => { L with held := insertKey Parcel.number p L.held }
  | .deliver number => L.deliver number
  | .unpack number => L.unpack number
  | .giveUp number => L.giveUp number
  | .takeDelivered => { L with delivered := L.delivered.take }
  | .takeReturned => { L with returned := L.returned.take }
  | .clear =>
    { L with
      held := []
      delivered := L.delivered.clear
      returned := L.returned.clear
      discarded := L.discarded ++ L.held.flatMap Parcel.items }

/-- The ledger after moves, in order. -/
def run (L : Ledger α) (moves : List (Move α)) : Ledger α := moves.foldl apply L

@[simp] theorem run_nil (L : Ledger α) : L.run [] = L := rfl

@[simp] theorem run_cons (L : Ledger α) (m : Move α) (moves : List (Move α)) :
    L.run (m :: moves) = (L.apply m).run moves := rfl

/-- Runs in a row are a run. -/
theorem run_append (L : Ledger α) (moves moves' : List (Move α)) :
    L.run (moves ++ moves') = (L.run moves).run moves' := List.foldl_append

/-- The parcels that moves send. -/
def sends : List (Move α) → List (Parcel α) :=
  List.filterMap fun
    | .send p => some p
    | _ => none

/-- What was delivered or returned once stays so. -/
theorem grows_apply (L : Ledger α) (m : Move α) : L.delivered.all ⊆ (L.apply m).delivered.all ∧
    L.returned.all ⊆ (L.apply m).returned.all := by
  cases m with
  | send p => exact ⟨List.Subset.refl _, List.Subset.refl _⟩
  | deliver number =>
    simp only [apply, deliver]
    split
    · exact ⟨List.Subset.refl _, List.Subset.refl _⟩
    · exact ⟨L.delivered.add_grows _, List.Subset.refl _⟩
  | unpack number =>
    simp only [apply, unpack]
    split
    · exact ⟨List.Subset.refl _, List.Subset.refl _⟩
    · exact ⟨L.delivered.add_grows _, List.Subset.refl _⟩
  | giveUp number =>
    simp only [apply, giveUp]
    split
    · exact ⟨List.Subset.refl _, List.Subset.refl _⟩
    · split_ifs
      · exact ⟨List.Subset.refl _, L.returned.add_grows _⟩
      · exact ⟨List.Subset.refl _, List.Subset.refl _⟩
  | takeDelivered => exact ⟨L.delivered.take_grows, List.Subset.refl _⟩
  | takeReturned => exact ⟨List.Subset.refl _, L.returned.take_grows⟩
  | clear => exact ⟨L.delivered.clear_grows, L.returned.clear_grows⟩

/-- What was delivered or returned stays so. -/
theorem grows_run (L : Ledger α) (moves : List (Move α)) :
    L.delivered.all ⊆ (L.run moves).delivered.all ∧
        L.returned.all ⊆ (L.run moves).returned.all := by
  induction moves generalizing L with
  | nil => exact ⟨List.Subset.refl _, List.Subset.refl _⟩
  | cons m moves ih =>
    have hm := L.grows_apply m
    have hmoves := ih (L.apply m)
    exact ⟨List.Subset.trans hm.1 hmoves.1, List.Subset.trans hm.2 hmoves.2⟩

/-! ### Conservation -/

variable [DecidableEq α]

/-- How often an item is in the ledger. -/
def count (L : Ledger α) (a : α) : ℕ := ∑ place ∈ places, (L.items place).count a

/-- The count of an item is the sum over the places. -/
theorem count_eq (L : Ledger α) (a : α) : L.count a =
    (L.held.flatMap Parcel.items).count a +
      (L.delivered.waiting.count a + (L.delivered.taken.count a +
      (L.delivered.discarded.count a + (L.returned.waiting.count a + (L.returned.taken.count a +
        (L.returned.discarded.count a + (L.discarded.count a + L.dropped.count a))))))) := by
  simp [count, places, items]

/-- The parcels that are held are in the order of their numbers. -/
def Ordered (L : Ledger α) : Prop := Ascending Parcel.number L.held

omit [DecidableEq α] in

/-- What is found is held. -/
theorem mem_of_find {L : Ledger α} {number : ℕ} {p : Parcel α} (h : L.find number = some p) :
    p ∈ L.held ∧ p.number = number :=
  ⟨List.mem_of_find?_eq_some h, by simpa using List.find?_some h⟩

/-- A parcel that goes takes its items with it. -/
theorem count_of_find {L : Ledger α} (hL : L.Ordered) {number : ℕ} {p : Parcel α}
    (h : L.find number = some p) (a : α) : (L.held.flatMap Parcel.items).count a =
      p.items.count a + ((L.remove number).held.flatMap Parcel.items).count a := by
  obtain ⟨hp, rfl⟩ := mem_of_find h
  rw [((hL.perm_cons_filter hp).flatMap_right _).count_eq, List.flatMap_cons, List.count_append]
  rfl

omit [DecidableEq α] in
/-- An empty parcel is no parcel. -/
theorem flatMap_unpack (held : List (Parcel α)) (number : ℕ) :
    (held.map fun q =>
      if q.number = number then { q with items := [] } else q).flatMap Parcel.items =
      (held.filter fun q => q.number ≠ number).flatMap Parcel.items := by
  induction held with
  | nil => rfl
  | cons q held ih =>
    rw [List.map_cons, List.flatMap_cons, ih]
    by_cases hq : q.number = number
    · rw [if_pos hq, List.filter_cons_of_neg (by simpa using hq), List.nil_append]
    · rw [if_neg hq, List.filter_cons_of_pos (by simpa using hq), List.flatMap_cons]

omit [DecidableEq α] in

/-- Moves keep the parcels in order. -/
theorem Ordered.apply {L : Ledger α} (h : L.Ordered) (m : Move α) : (L.apply m).Ordered := by
  cases m with
  | send p => exact Ascending.insertKey h p
  | deliver number =>
    change (L.deliver number).Ordered
    cases hfind : L.find number with
    | none => simpa only [deliver, hfind] using h
    | some p =>
      simp only [deliver, hfind]
      exact Ascending.filter h _
  | unpack number =>
    change (L.unpack number).Ordered
    cases hfind : L.find number with
    | none => simpa only [unpack, hfind] using h
    | some p =>
      simp only [unpack, hfind]
      refine List.pairwise_map.mpr (List.Pairwise.imp ?_ h)
      intro q r hqr
      split_ifs <;> exact hqr
  | giveUp number =>
    change (L.giveUp number).Ordered
    cases hfind : L.find number with
    | none => simpa only [giveUp, hfind] using h
    | some p =>
      simp only [giveUp, hfind]
      split_ifs <;> exact Ascending.filter h _
  | takeDelivered => exact h
  | takeReturned => exact h
  | clear => exact List.Pairwise.nil

theorem count_sends_nil {m : Move α} (h : sends [m] = []) (n : ℕ) (a : α) :
    n + ((sends [m]).flatMap Parcel.items).count a = n := by
  rw [h, List.flatMap_nil, List.count_nil, Nat.add_zero]

/-- A move loses no items and makes none: those it sends are added. -/
theorem count_apply {L : Ledger α} (hL : L.Ordered) (m : Move α)
    (hfresh : ∀ p ∈ sends [m], ∀ q ∈ L.held, q.number ≠ p.number) (a : α) :
    (L.apply m).count a = L.count a + ((sends [m]).flatMap Parcel.items).count a := by
  cases m with
  | send p =>
    -- the number is new, so no parcel is replaced
    have hperm : (insertKey Parcel.number p L.held).Perm (p :: L.held) :=
      insertKey_perm (hfresh p List.mem_cons_self)
    have hcount := (hperm.flatMap_right Parcel.items).count_eq a
    simp only [List.flatMap_cons, List.count_append] at hcount
    simp only [count_eq, Ledger.apply, sends, List.filterMap_cons, List.filterMap_nil,
      List.flatMap_cons, List.flatMap_nil, List.append_nil]
    omega
  | deliver number =>
    rw [count_sends_nil rfl, apply]
    cases hfind : L.find number with
    | none => simp only [deliver, hfind]
    | some p =>
      have := count_of_find hL hfind a
      simp only [deliver, hfind, count_eq, Pile.add, List.count_append, remove] at this ⊢
      omega
  | unpack number =>
    rw [count_sends_nil rfl, apply]
    cases hfind : L.find number with
    | none => simp only [unpack, hfind]
    | some p =>
      have := count_of_find hL hfind a
      simp only [unpack, hfind, count_eq, Pile.add, List.count_append, remove,
        flatMap_unpack] at this ⊢
      omega
  | giveUp number =>
    rw [count_sends_nil rfl, apply]
    cases hfind : L.find number with
    | none => simp only [giveUp, hfind]
    | some p =>
      have := count_of_find hL hfind a
      simp only [giveUp, hfind]
      split_ifs <;> simp only [count_eq, Pile.add, List.count_append, remove] at this ⊢ <;> omega
  | takeDelivered =>
    rw [count_sends_nil rfl]
    simp only [count_eq, Ledger.apply, Pile.take, List.count_append, List.count_nil]
    omega
  | takeReturned =>
    rw [count_sends_nil rfl]
    simp only [count_eq, Ledger.apply, Pile.take, List.count_append, List.count_nil]
    omega
  | clear =>
    rw [count_sends_nil rfl]
    simp only [count_eq, Ledger.apply, Pile.clear, List.count_append, List.count_nil,
      List.flatMap_nil]
    omega

/-! ### Runs -/

omit [DecidableEq α] in

/-- What is sent in a row is sent. -/
theorem sends_append (moves moves' : List (Move α)) :
    sends (moves ++ moves') = sends moves ++ sends moves' := List.filterMap_append

omit [DecidableEq α] in
/-- A parcel that is held was sent, and holds all its items or none. -/
theorem sent_of_held (moves : List (Move α)) : ∀ q ∈ (empty.run moves).held, ∃ p ∈ sends moves,
    q.number = p.number ∧ q.tracked = p.tracked ∧ (q.items = p.items ∨ q.items = []) := by
  induction moves using List.reverseRecOn with
  | nil => exact fun q hq => absurd hq (List.not_mem_nil)
  | append_singleton moves m ih =>
    intro q hq
    rw [run_append, run_cons, run_nil] at hq
    rw [sends_append]
    generalize empty.run moves = L at ih hq
    have hold {q : Parcel α} (hq : q ∈ L.held) : ∃ p ∈ sends moves ++ sends [m],
        q.number = p.number ∧ q.tracked = p.tracked ∧ (q.items = p.items ∨ q.items = []) := by
      obtain ⟨p, hp, h⟩ := ih q hq
      exact ⟨p, List.mem_append_left _ hp, h⟩
    cases m with
    | send p =>
      rcases mem_insertKey.mp hq with rfl | ⟨hq, _⟩
      · exact ⟨q, List.mem_append_right _ List.mem_cons_self, rfl, rfl, .inl rfl⟩
      · exact hold hq
    | deliver number =>
      change q ∈ (L.deliver number).held at hq
      cases hfind : L.find number with
      | none =>
        simp only [deliver, hfind] at hq
        exact hold hq
      | some p =>
        simp only [deliver, hfind] at hq
        exact hold (List.mem_filter.mp hq).1
    | unpack number =>
      change q ∈ (L.unpack number).held at hq
      cases hfind : L.find number with
      | none =>
        simp only [unpack, hfind] at hq
        exact hold hq
      | some p =>
        simp only [unpack, hfind] at hq
        -- unpacked, a parcel is held without its items
        obtain ⟨q, hheld, rfl⟩ := List.mem_map.mp hq
        obtain ⟨p, hp, hnumber, htracked, hitems⟩ := hold hheld
        split_ifs
        · exact ⟨p, hp, hnumber, htracked, .inr rfl⟩
        · exact ⟨p, hp, hnumber, htracked, hitems⟩
    | giveUp number =>
      change q ∈ (L.giveUp number).held at hq
      cases hfind : L.find number with
      | none =>
        simp only [giveUp, hfind] at hq
        exact hold hq
      | some p =>
        simp only [giveUp, hfind] at hq
        split_ifs at hq <;> exact hold (List.mem_filter.mp hq).1
    | takeDelivered => exact hold hq
    | takeReturned => exact hold hq
    | clear => exact absurd hq List.not_mem_nil

/-- The parcels that moves send have different numbers. -/
def FreshSends (moves : List (Move α)) : Prop := ((sends moves).map Parcel.number).Nodup

omit [DecidableEq α] in

/-- Runs keep the parcels in order. -/
theorem ordered_run {L : Ledger α} (h : L.Ordered) (moves : List (Move α)) :
    (L.run moves).Ordered := by
  induction moves generalizing L with
  | nil => exact h
  | cons m moves ih => exact ih (h.apply m)

omit [DecidableEq α] in
theorem ordered_empty : (empty : Ledger α).Ordered := List.Pairwise.nil

/-- The ledger has what was sent. -/
theorem count_run {moves : List (Move α)} (hfresh : FreshSends moves) (a : α) :
    (empty.run moves).count a = ((sends moves).flatMap Parcel.items).count a := by
  induction moves using List.reverseRecOn with
  | nil => simp [count_eq, empty, sends]
  | append_singleton moves m ih =>
    rw [FreshSends, sends_append, List.map_append] at hfresh
    obtain ⟨hmoves, _, hdisjoint⟩ := List.nodup_append.mp hfresh
    rw [run_append, run_cons, run_nil, count_apply (ordered_run ordered_empty moves), ih hmoves,
      sends_append, List.flatMap_append, List.count_append]
    intro p hp q hq
    obtain ⟨p', hp', hnumber, _⟩ := sent_of_held moves q hq
    rw [hnumber]
    exact hdisjoint _ (List.mem_map_of_mem hp') _ (List.mem_map_of_mem hp)

/-- An item that was sent once is in exactly one place, once. -/
theorem exists_place {moves : List (Move α)} (hfresh : FreshSends moves) {a : α}
    (ha : ((sends moves).flatMap Parcel.items).count a = 1) :
    ∃ place, ((empty.run moves).items place).count a = 1 ∧
      ∀ other, other ≠ place → a ∉ (empty.run moves).items other := by
  rw [← count_run hfresh] at ha
  obtain ⟨place, hmem, hplace⟩ := Finset.exists_ne_zero_of_sum_ne_zero (ha.trans_ne one_ne_zero)
  have hsum : ((empty.run moves).items place).count a +
      ∑ other ∈ places.erase place, ((empty.run moves).items other).count a = 1 :=
    (Finset.add_sum_erase _ _ hmem).trans ha
  have hrest : ∑ other ∈ places.erase place, ((empty.run moves).items other).count a = 0 := by omega
  refine ⟨place, by omega, fun other hne => ?_⟩
  exact List.count_eq_zero.mp
    (Finset.sum_eq_zero_iff.mp hrest other (Finset.mem_erase.mpr ⟨hne, mem_places other⟩))

omit [DecidableEq α] in
/-- No item is both delivered and returned. -/
theorem not_delivered_and_returned {moves : List (Move α)} (hfresh : FreshSends moves)
    (hitems : ((sends moves).flatMap Parcel.items).Nodup) {a : α}
    (hdelivered : a ∈ (empty.run moves).delivered.all) : a ∉ (empty.run moves).returned.all := by
  classical
  intro hreturned
  have hcount := (count_run hfresh a).trans_le (List.nodup_iff_count_le_one.mp hitems a)
  have hdelivered := List.one_le_count_iff.mpr hdelivered
  have hreturned := List.one_le_count_iff.mpr hreturned
  simp only [count_eq, Pile.all, List.count_append] at hcount hdelivered hreturned
  omega

omit [DecidableEq α] in
/-- Only parcels that are not tracked drop items. -/
theorem untracked_of_dropped (moves : List (Move α)) :
    ∀ a ∈ (empty.run moves).dropped, ∃ p ∈ sends moves, p.tracked = false ∧ a ∈ p.items := by
  induction moves using List.reverseRecOn with
  | nil => exact fun a ha => absurd ha List.not_mem_nil
  | append_singleton moves m ih =>
    intro a ha
    have hheld := sent_of_held moves
    rw [run_append, run_cons, run_nil] at ha
    rw [sends_append]
    generalize empty.run moves = L at ih ha hheld
    have hold (ha : a ∈ L.dropped) : ∃ p ∈ sends moves ++ sends [m], p.tracked = false ∧
        a ∈ p.items := by
      obtain ⟨p, hp, h⟩ := ih a ha
      exact ⟨p, List.mem_append_left _ hp, h⟩
    cases m with
    | deliver number =>
      change a ∈ (L.deliver number).dropped at ha
      unfold deliver at ha
      split at ha <;> exact hold ha
    | unpack number =>
      change a ∈ (L.unpack number).dropped at ha
      unfold unpack at ha
      split at ha <;> exact hold ha
    | giveUp number =>
      change a ∈ (L.giveUp number).dropped at ha
      cases hfind : L.find number with
      | none =>
        simp only [giveUp, hfind] at ha
        exact hold ha
      | some q =>
        simp only [giveUp, hfind] at ha
        split_ifs at ha with htracked
        · exact hold ha
        · -- only giving up an untracked parcel drops items
          rcases List.mem_append.mp ha with ha | ha
          · exact hold ha
          · obtain ⟨p, hp, _, hp', hitems⟩ := hheld q (mem_of_find hfind).1
            refine ⟨p, List.mem_append_left _ hp, hp' ▸ eq_false_of_ne_true htracked, ?_⟩
            rcases hitems with heq | heq
            · exact heq ▸ ha
            · rw [heq] at ha
              cases ha
    | send p => exact hold ha
    | takeDelivered => exact hold ha
    | takeReturned => exact hold ha
    | clear => exact hold ha

end Ledger

end Dtp.Lib
