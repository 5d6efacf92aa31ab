import Mathlib.Data.List.Basic
import Mathlib.Logic.Basic

/-!
# Runs of a partial step function

A system is a partial step function on states, driven by a list of labels (calls,
frames, the answers of the environment). A run follows the labels until they are
used up or a step is undefined.

## Main definitions

* `run` — the state after a list of labels
* `AllSteps` — a condition on state and label that every step taken meets
* `Always` — a property that every visited state has
* `Trace` — a run with a record of what happened in it

## Main results

* `allSteps_iff`, `allSteps_iff_of_condition` — conditions that are the same under an invariant
* `always_of_step` — an invariant that steps meeting a condition preserve
* `always_iff_allSteps` — the case where the condition is exact
* `run_isSome_iff` — which runs are defined
* `Trace.invariant` — what holds of a state and its record
-/

namespace Dtp.Lib

variable {σ ι : Type*}

/-- The state reached from `s` by the labels in order, if every step is defined. -/
def run (step : σ → ι → Option σ) : σ → List ι → Option σ
  | s, [] => some s
  | s, i :: is => (step s i).bind fun s' => run step s' is

/-- Every step taken from `s` along the labels meets `C`. -/
def AllSteps (step : σ → ι → Option σ) (C : σ → ι → Prop) : σ → List ι → Prop
  | _, [] => True
  | s, i :: is => C s i ∧ ∀ s', step s i = some s' → AllSteps step C s' is

/-- Whether every step meets `C` is decided by taking the steps. -/
instance decidableAllSteps {step : σ → ι → Option σ} {C : σ → ι → Prop} [∀ s i, Decidable (C s i)] :
    ∀ s is, Decidable (AllSteps step C s is)
  | _, [] => isTrue trivial
  | s, i :: is =>
    match h : step s i with
    | none => decidable_of_iff (C s i) (by simp [AllSteps, h])
    | some s' =>
      have : Decidable (AllSteps step C s' is) := decidableAllSteps s' is
      decidable_of_iff (C s i ∧ AllSteps step C s' is) (by simp [AllSteps, h])

/-- Every state visited from `s` along the labels has `P`. -/
def Always (step : σ → ι → Option σ) (P : σ → Prop) : σ → List ι → Prop
  | s, [] => P s
  | s, i :: is => P s ∧ ∀ s', step s i = some s' → Always step P s' is

variable {step : σ → ι → Option σ} {C C' : σ → ι → Prop} {P Q I : σ → Prop}

@[simp] theorem run_nil (s : σ) : run step s [] = some s := rfl

@[simp] theorem run_cons (s : σ) (i : ι) (is : List ι) :
    run step s (i :: is) = (step s i).bind fun s' => run step s' is := rfl

theorem run_append (s : σ) (is js : List ι) :
    run step s (is ++ js) = (run step s is).bind fun s' => run step s' js := by
  induction is generalizing s with
  | nil => rfl
  | cons i is ih =>
    rw [List.cons_append, run_cons, run_cons, Option.bind_assoc]
    congr 1
    funext s'
    exact ih s'

theorem allSteps_of_forall (hC : ∀ s i, C s i) (s : σ) (is : List ι) : AllSteps step C s is := by
  induction is generalizing s with
  | nil => trivial
  | cons i is ih => exact ⟨hC s i, fun s' _ => ih s'⟩

/-- Where, under an invariant that steps meeting a condition keep, another condition on a step is
the same, it is the same for a run. -/
theorem allSteps_iff_of_condition (hI : ∀ s i s', I s → C' s i → step s i = some s' → I s')
    (hCC' : ∀ s i, I s → (C s i ↔ C' s i)) {s : σ} {is : List ι} (hs : I s) :
    AllSteps step C s is ↔ AllSteps step C' s is := by
  induction is generalizing s with
  | nil => exact Iff.rfl
  | cons i is ih =>
    constructor
    · rintro ⟨hC, h⟩
      have hC' := (hCC' s i hs).mp hC
      exact ⟨hC', fun s' hs' => (ih (hI s i s' hs hC' hs')).mp (h s' hs')⟩
    · rintro ⟨hC', h⟩
      exact ⟨(hCC' s i hs).mpr hC', fun s' hs' => (ih (hI s i s' hs hC' hs')).mpr (h s' hs')⟩

/-- Where, under an invariant that steps meeting a condition keep, the condition on a step implies
another one, it does so for a run. -/
theorem AllSteps.imp (hI : ∀ s i s', I s → C s i → step s i = some s' → I s')
    (hCC' : ∀ s i, I s → C s i → C' s i) {s : σ} {is : List ι} (hs : I s)
    (h : AllSteps step C s is) : AllSteps step C' s is := by
  induction is generalizing s with
  | nil => trivial
  | cons i is ih => exact ⟨hCC' s i hs h.1, fun s' hs' => ih (hI s i s' hs h.1 hs') (h.2 s' hs')⟩

/-- Where, under an invariant, two conditions on a step are the same, they are the same for a run.
-/
theorem allSteps_iff (hI : ∀ s i s', I s → step s i = some s' → I s')
    (hCC' : ∀ s i, I s → (C s i ↔ C' s i)) {s : σ} {is : List ι} (hs : I s) :
    AllSteps step C s is ↔ AllSteps step C' s is :=
  allSteps_iff_of_condition (fun s i s' h _ => hI s i s' h) hCC' hs

/-- What holds of a step under an invariant holds of all steps. -/
theorem allSteps_of_invariant (hI : ∀ s i s', I s → step s i = some s' → I s')
    (hC : ∀ s i, I s → C s i) {s : σ} {is : List ι} (hs : I s) : AllSteps step C s is :=
  (allSteps_iff hI (fun s i h => iff_true_intro (hC s i h)) hs).mpr
    (allSteps_of_forall (fun _ _ => trivial) s is)

/-- What all steps of a run meet, the step after a part of it does. -/
theorem AllSteps.of_run {s s' : σ} {is : List ι} {i : ι} {js : List ι}
    (h : AllSteps step C s (is ++ i :: js))
    (hrun : run step s is = some s') : C s' i := by
  induction is generalizing s with
  | nil =>
    obtain rfl : s = s' := by simpa using hrun
    exact h.1
  | cons k is ih =>
    obtain ⟨t, ht, hrest⟩ := Option.bind_eq_some_iff.mp hrun
    exact ih (h.2 t ht) hrest

theorem Always.head {s : σ} {is : List ι} (h : Always step P s is) : P s := by
  cases is with
  | nil => exact h
  | cons i is => exact h.1

/-- A property of every visited state holds of the last one. -/
theorem Always.last {s s' : σ} {is : List ι} (h : Always step P s is)
    (hrun : run step s is = some s') : P s' := by
  induction is generalizing s with
  | nil =>
    obtain rfl : s = s' := by simpa using hrun
    exact h
  | cons i is ih =>
    obtain ⟨t, hstep, hrest⟩ := Option.bind_eq_some_iff.mp hrun
    exact ih (h.2 t hstep) hrest

theorem Always.mono (hPQ : ∀ s, P s → Q s) {s : σ} {is : List ι} (h : Always step P s is) :
    Always step Q s is := by
  induction is generalizing s with
  | nil => exact hPQ s h
  | cons i is ih => exact ⟨hPQ s h.1, fun s' hs' => ih (h.2 s' hs')⟩

/-- An invariant that every step meeting `C` preserves holds along a run whose
steps all meet `C`. -/
theorem always_of_step (hstep : ∀ s i s', I s → C s i → step s i = some s' → I s')
    {s : σ} {is : List ι} (hs : I s) (h : AllSteps step C s is) : Always step I s is := by
  induction is generalizing s with
  | nil => exact hs
  | cons i is ih => exact ⟨hs, fun s' hs' => ih (hstep s i s' hs h.1 hs') (h.2 s' hs')⟩

/-- An invariant that every step preserves holds of every state a run reaches. -/
theorem run_invariant (hstep : ∀ s i s', I s → step s i = some s' → I s')
    {s s' : σ} {is : List ι} (hs : I s) (hrun : run step s is = some s') : I s' := by
  induction is generalizing s with
  | nil =>
    obtain rfl : s = s' := by simpa using hrun
    exact hs
  | cons i is ih =>
    obtain ⟨t, ht, hrest⟩ := Option.bind_eq_some_iff.mp hrun
    exact ih (hstep s i t hs ht) hrest

/-- Where, under an unconditional invariant `I`, a step keeps `P` exactly when it
meets `C`, a run keeps `P` exactly when all its defined steps meet `C`. -/
theorem always_iff_allSteps (hI : ∀ s i s', I s → step s i = some s' → I s')
    (hexact : ∀ s i s', I s → P s → step s i = some s' → (P s' ↔ C s i))
    {s : σ} {is : List ι} (hs : I s) (hP : P s) :
    Always step P s is ↔ AllSteps step (fun s i => (step s i).isSome → C s i) s is := by
  induction is generalizing s with
  | nil => exact ⟨fun _ => trivial, fun _ => hP⟩
  | cons i is ih =>
    constructor
    · rintro ⟨_, h⟩
      refine ⟨fun hdef => ?_, fun s' hs' => ?_⟩
      · obtain ⟨s', hs'⟩ := Option.isSome_iff_exists.mp hdef
        exact (hexact s i s' hs hP hs').mp (h s' hs').head
      · exact (ih (hI s i s' hs hs') (h s' hs').head).mp (h s' hs')
    · rintro ⟨hC, h⟩
      refine ⟨hP, fun s' hs' => ?_⟩
      have hP' : P s' := (hexact s i s' hs hP hs').mpr (hC (by rw [hs']; rfl))
      exact (ih (hI s i s' hs hs') hP').mpr (h s' hs')

/-- Where, under an invariant `I` that knows the labels so far, a step is defined exactly
when its label meets `C`, a run is defined exactly when all its labels do. -/
theorem run_isSome_iff {I : List ι → σ → Prop} {C : List ι → ι → Prop}
    (hstep : ∀ pre s i s', I pre s → step s i = some s' → I (pre ++ [i]) s')
    (hexact : ∀ pre s i, I pre s → ((step s i).isSome ↔ C pre i))
    {pre : List ι} {s : σ} {is : List ι} (hs : I pre s) :
    (run step s is).isSome ↔ ∀ js i ks, is = js ++ i :: ks → C (pre ++ js) i := by
  induction is generalizing pre s with
  | nil => simp
  | cons i is ih =>
    cases hi : step s i with
    | none =>
      have hC : ¬ C pre i := by rw [← hexact pre s i hs, hi]; simp
      rw [run_cons, hi]
      refine iff_of_false (by simp) fun h => hC ?_
      simpa using h [] i is rfl
    | some s' =>
      have hC : C pre i := (hexact pre s i hs).mp (by rw [hi]; rfl)
      rw [run_cons, hi, Option.bind_some, ih (hstep pre s i s' hs hi)]
      constructor
      · rintro h (_ | ⟨j, js⟩) k ks heq
        · cases heq
          rwa [List.append_nil]
        · cases heq
          simpa using h js k ks rfl
      · rintro h js k ks rfl
        simpa using h (i :: js) k ks rfl

/-! ### Runs with a record -/

/-- The states that are reached from a start, with a record of the events on the way. -/
inductive Trace {ε : Type*} (init : σ → Prop) (next : σ → List ε → σ → Prop) : σ → List ε → Prop
  | start {s : σ} (h : init s) : Trace init next s []
  | snoc {s s' : σ} {log events : List ε} (h : Trace init next s log) (hnext : next s events s') :
      Trace init next s' (log ++ events)

namespace Trace

variable {ε : Type*} {init : σ → Prop} {next : σ → List ε → σ → Prop}

/-- An invariant that knows the record holds in every state. -/
theorem invariant {I : σ → List ε → Prop} (hinit : ∀ s, init s → I s [])
    (hnext : ∀ s log events s', I s log → next s events s' → I s' (log ++ events))
    {s : σ} {log : List ε} (h : Trace init next s log) : I s log := by
  induction h with
  | start h => exact hinit _ h
  | snoc _ hstep ih => exact hnext _ _ _ _ ih hstep

/-- A run has a record, if every step that meets `C` has events. -/
theorem exists_of_run (hnext : ∀ s i s', C s i → step s i = some s' → ∃ events, next s events s')
    {s s' : σ} {log : List ε} {is : List ι} (h : Trace init next s log) (hC : AllSteps step C s is)
    (hrun : run step s is = some s') : ∃ log', Trace init next s' log' := by
  induction is generalizing s log with
  | nil =>
    obtain rfl : s = s' := by simpa using hrun
    exact ⟨log, h⟩
  | cons i is ih =>
    obtain ⟨t, ht, hrest⟩ := Option.bind_eq_some_iff.mp hrun
    obtain ⟨events, hevents⟩ := hnext s i t hC.1 ht
    exact ih (h.snoc hevents) (hC.2 t ht) hrest

end Trace

end Dtp.Lib
