import Mathlib.Algebra.Order.Ring.Nat
import Mathlib.Data.List.Basic
import Mathlib.Order.RelClasses

/-!
# Windowed filters

The best value of a stream over a window of time, in constant space. Three samples are kept,
the best and two that may follow it. Whatever is at least as good as a kept sample makes it
useless, since it is newer. A best sample that leaves the window is followed by the next.

Which of two values is at least as good as the other is said by a relation, so that the filter
serves for minima and for maxima.

## Main definitions

* `Sample` — a value and its time
* `Estimates` — the three samples, the best first
* `Estimates.observe` — what a new sample changes
* `Estimates.Chain` — the estimates are ordered, in time and in value, and a sample bounds them
* `Estimates.Kept` — the invariant of a stream: the order, and that all estimates were observed

## Main results

* `Estimates.Kept.observe`, `Estimates.Kept.foldl` — newer samples keep the invariant
* `Estimates.fresh_observe` — after a new sample the best is in the window
-/

namespace Dtp.Lib

/-- A value that was measured, and when. -/
structure Sample (τ α : Type*) where
  time : τ
  value : α
  deriving DecidableEq

/-- The three samples that are kept. -/
structure Estimates (τ α : Type*) where
  best : Sample τ α
  second : Sample τ α
  third : Sample τ α
  deriving DecidableEq

variable {τ α : Type*} {r : α → α → Prop} {s s' s'' : Sample τ α} {e : Estimates τ α}

/-- A sample is no newer than another, and at least as good. -/
structure Sample.Precedes [LE τ] (r : α → α → Prop) (s s' : Sample τ α) : Prop where
  time_le : s.time ≤ s'.time
  value_le : r s.value s'.value

namespace Sample.Precedes

variable [Preorder τ]

theorem refl [Std.Refl r] (s : Sample τ α) : s.Precedes r s := ⟨le_rfl, Std.Refl.refl s.value⟩

theorem trans [IsTrans α r] (h : s.Precedes r s') (h' : s'.Precedes r s'') : s.Precedes r s'' :=
  ⟨h.time_le.trans h'.time_le, IsTrans.trans _ _ _ h.value_le h'.value_le⟩

end Sample.Precedes

namespace Estimates

/-- The sample is one of the three. -/
def Mem (e : Estimates τ α) (s : Sample τ α) : Prop := s = e.best ∨ s = e.second ∨ s = e.third

/-- All three are the sample. -/
def restart (s : Sample τ α) : Estimates τ α := ⟨s, s, s⟩

/-- The sample is the second choice, and the third. -/
def renewSecond (e : Estimates τ α) (s : Sample τ α) : Estimates τ α := ⟨e.best, s, s⟩

/-- The sample is the third choice. -/
def renewThird (e : Estimates τ α) (s : Sample τ α) : Estimates τ α := ⟨e.best, e.second, s⟩

/-- The best is dropped, the others move up. -/
def shift (e : Estimates τ α) (s : Sample τ α) : Estimates τ α := ⟨e.second, e.third, s⟩

/-- A sample makes those useless that are not better. -/
def note (r : α → α → Prop) [DecidableRel r] (e : Estimates τ α) (s : Sample τ α) : Estimates τ α :=
  if r s.value e.second.value then e.renewSecond s
  else if r s.value e.third.value then e.renewThird s
  else e

section Windows

variable [DecidableEq τ] (expired quarter half : τ → Prop) [DecidablePred expired]
  [DecidablePred quarter] [DecidablePred half]

/-- What passes with time: a best sample that has expired is dropped, and one that stands for long
gets other samples to follow it. -/
def advance (e : Estimates τ α) (s : Sample τ α) : Estimates τ α :=
  if expired e.best.time then
    if expired e.second.time then (e.shift s).shift s else e.shift s
  else if e.second.time = e.best.time ∧ quarter e.best.time then e.renewSecond s
  else if e.third.time = e.second.time ∧ half e.best.time then e.renewThird s
  else e

/-- Takes a new sample, and forgets all that is not better or that has expired. -/
def observe (r : α → α → Prop) [DecidableRel r] (e : Estimates τ α) (s : Sample τ α) :
    Estimates τ α :=
  if r s.value e.best.value ∨ expired e.third.time then restart s
  else (e.note r s).advance expired quarter half s

end Windows

/-! ### Order -/

/-- The estimates are ordered in time and in value, up to the sample. -/
structure Chain [LE τ] (r : α → α → Prop) (e : Estimates τ α) (s : Sample τ α) : Prop where
  best : e.best.Precedes r e.second
  second : e.second.Precedes r e.third
  third : e.third.Precedes r s

section Chain

variable [Preorder τ]

theorem chain_restart [Std.Refl r] (s : Sample τ α) : (restart s).Chain r s :=
  ⟨.refl s, .refl s, .refl s⟩

theorem chain_renewSecond [Std.Refl r] (hbest : e.best.Precedes r s) :
    (e.renewSecond s).Chain r s :=
  ⟨hbest, .refl s, .refl s⟩

theorem chain_renewThird [Std.Refl r] (hbest : e.best.Precedes r e.second)
    (hsecond : e.second.Precedes r s) : (e.renewThird s).Chain r s :=
  ⟨hbest, hsecond, .refl s⟩

theorem Chain.shift [Std.Refl r] (h : e.Chain r s) : (e.shift s).Chain r s :=
  ⟨h.second, h.third, .refl s⟩

variable [IsTrans α r]

theorem Chain.second_bound (h : e.Chain r s) : e.second.Precedes r s := h.second.trans h.third

theorem Chain.best_bound (h : e.Chain r s) : e.best.Precedes r s := h.best.trans h.second_bound

theorem Chain.advance [Std.Refl r] [DecidableEq τ] {expired quarter half : τ → Prop}
    [DecidablePred expired] [DecidablePred quarter] [DecidablePred half] (h : e.Chain r s) :
    (e.advance expired quarter half s).Chain r s := by
  unfold Estimates.advance
  split_ifs
  · exact h.shift.shift
  · exact h.shift
  · exact chain_renewSecond h.best_bound
  · exact chain_renewThird h.best h.second_bound
  · exact h

/-- A sample that is newer, and not better than the best, bounds what is left of the estimates. -/
theorem Chain.note [Std.Total r] [DecidableRel r] (h : e.Chain r s') (htime : s'.time ≤ s.time)
    (hbest : r e.best.value s.value) : (e.note r s).Chain r s := by
  have hnewer {t : Sample τ α} (ht : t.Precedes r s') (hvalue : r t.value s.value) :
      t.Precedes r s :=
    ⟨ht.time_le.trans htime, hvalue⟩
  have hworse {t : Sample τ α} (ht : ¬ r s.value t.value) : r t.value s.value :=
    (Std.Total.total s.value t.value).resolve_left ht
  unfold Estimates.note
  split_ifs with hsecond hthird
  · exact chain_renewSecond (hnewer h.best_bound hbest)
  · exact chain_renewThird h.best (hnewer h.second_bound (hworse hsecond))
  · exact ⟨h.best, h.second, hnewer h.third (hworse hthird)⟩

end Chain

/-! ### A new sample -/

section Observe

variable {expired quarter half : τ → Prop} [DecidablePred expired] [DecidablePred quarter]
  [DecidablePred half] [DecidableEq τ]

theorem mem_advance (h : (e.advance expired quarter half s).Mem s') : s' = s ∨ e.Mem s' := by
  unfold advance at h
  unfold Mem
  split_ifs at h <;> rcases h with rfl | rfl | rfl <;> simp [renewSecond, renewThird, shift]

/-- If the third choice is in the window, a best one that is not has two that may follow it. -/
theorem fresh_advance (hthird : ¬ expired e.third.time) :
    ¬ expired (e.advance expired quarter half s).best.time := by
  unfold advance
  split_ifs with hbest hsecond
  · exact hthird
  · exact hsecond
  · exact hbest
  · exact hbest
  · exact hbest

variable [DecidableRel r]

omit [DecidableEq τ] in
theorem mem_note (h : (e.note r s).Mem s') : s' = s ∨ e.Mem s' := by
  unfold note at h
  unfold Mem
  split_ifs at h <;> rcases h with rfl | rfl | rfl <;> simp [renewSecond, renewThird]

omit [DecidableEq τ] in
theorem third_note (r : α → α → Prop) [DecidableRel r] (e : Estimates τ α) (s : Sample τ α) :
    (e.note r s).third = s ∨ (e.note r s).third = e.third := by
  unfold note
  split_ifs
  · exact .inl rfl
  · exact .inl rfl
  · exact .inr rfl

/-- Nothing is kept but the new sample and what was kept before. -/
theorem mem_observe (h : (e.observe expired quarter half r s).Mem s') : s' = s ∨ e.Mem s' := by
  unfold observe at h
  split_ifs at h
  · rcases h with rfl | rfl | rfl <;> exact .inl rfl
  · rcases mem_advance h with rfl | hnote
    · exact .inl rfl
    · exact mem_note hnote

/-- After a new sample the best one is in the window. -/
theorem fresh_observe (hs : ¬ expired s.time) :
    ¬ expired (e.observe expired quarter half r s).best.time := by
  unfold observe
  split_ifs with hrestart
  · exact hs
  · apply fresh_advance
    rcases third_note r e s with heq | heq <;> rw [heq]
    · exact hs
    · exact fun hthird => hrestart (.inr hthird)

end Observe

/-- The estimates after a stream of samples, with the last one that was observed. -/
structure Kept [LE τ] (r : α → α → Prop) (observed : List (Sample τ α)) (last : Sample τ α)
    (e : Estimates τ α) : Prop where
  chain : e.Chain r last
  mem {t : Sample τ α} (ht : e.Mem t) : t ∈ observed

section Kept

variable [Preorder τ] [IsTrans α r] [Std.Total r]

omit [IsTrans α r] in
theorem kept_restart (s : Sample τ α) : (restart s).Kept r [s] s where
  chain := chain_restart s
  mem ht := by
    rcases ht with rfl | rfl | rfl <;> exact List.mem_singleton_self _

/-- A newer sample keeps the invariant, whatever the windows are. -/
theorem Kept.observe [DecidableEq τ] {observed : List (Sample τ α)} [DecidableRel r]
    {expired quarter half : τ → Prop}
    [DecidablePred expired] [DecidablePred quarter] [DecidablePred half] (h : e.Kept r observed s')
    (htime : s'.time ≤ s.time) : (e.observe expired quarter half r s).Kept r
    (observed ++ [s]) s where
  chain := by
    unfold Estimates.observe
    split_ifs with hrestart
    · exact chain_restart s
    · have hbest := (Std.Total.total s.value e.best.value).resolve_left fun hr => hrestart (.inl hr)
      exact (h.chain.note htime hbest).advance
  mem ht := by
    rcases mem_observe ht with rfl | hold
    · exact List.mem_append_right observed (List.mem_singleton_self _)
    · exact List.mem_append_left [s] (h.mem hold)

omit [IsTrans α r] [Std.Total r] in
/-- What every newer sample keeps, a stream in the order of its times keeps. -/
theorem Kept.foldl {ι : Type*} {step : Estimates τ α → ι → Estimates τ α} {sample : ι → Sample τ α}
    (hstep : ∀ e observed last i, e.Kept r observed last → last.time ≤ (sample i).time →
      (step e i).Kept r (observed ++ [sample i]) (sample i))
    {observed : List (Sample τ α)} (h : e.Kept r observed s) {is : List ι}
    (hmono : (s :: is.map sample).Pairwise fun a b => a.time ≤ b.time) :
    (is.foldl step e).Kept r (observed ++ is.map sample) ((is.map sample).getLastD s) := by
  induction is generalizing e observed s with
  | nil =>
    rw [List.map_nil, List.append_nil]
    exact h
  | cons i is ih =>
    obtain ⟨hfirst, hrest⟩ := List.pairwise_cons.mp hmono
    have hkept := hstep e observed s i h (hfirst _ List.mem_cons_self)
    rw [List.foldl_cons, List.map_cons, List.append_cons, List.getLastD_cons]
    exact ih hkept hrest

end Kept

end Estimates

end Dtp.Lib
