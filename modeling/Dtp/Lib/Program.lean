import Dtp.Lib.Runs
import Mathlib.Order.Defs.Unbundled
import Mathlib.Tactic.SplitIfs

/-!
# Stateful programs that may stop early

A program acts on a state and returns a value, or stops with a fault: an error its
caller sees, a panic, a subtraction below zero (which panics too where overflow is
checked), or a loop that never ends. An error leaves the state as it was when the error
arose, and the caller may go on with that state.

## Main definitions

* `Fault`, `Program` — the faults and the programs
* `Program.Ends` — the pre- and postcondition of one run
* `Program.Keeps` — one run stays within a relation on states, whether it returns
  a value or an error
* `Program.Returns` — a property of the values that a program returns
* `Program.Maintains` — an invariant of a program
* `Program.returned` — the state in which a program returns
* `Program.zoom`, `Program.embed` — a program on a part of the state
* `Program.attempt` — an error as a value
* `Program.Erases` — a program is another one that also writes an output
* `Program.Mirrors` — a program does the same whatever a part of the state is

## Main results

* `Program.ends_bind` — the rule of sequential composition
* `Program.Keeps.bind`, `Program.Keeps.forM` — a relation that composes is kept by
  sequences and loops whose parts keep it
* `Program.Ends.forM_of_allSteps` — an invariant of a loop whose turns meet a condition on the
  states in which they start
-/

namespace Dtp.Lib

/-- How a program can stop without a value. -/
inductive Fault (ε : Type)
  | error (e : ε)
  | panic
  | underflow
  | hang
  deriving DecidableEq, Repr

/-- The fault with its error converted. -/
def Fault.map {ε ε' : Type} (f : ε → ε') : Fault ε → Fault ε'
  | .error e => .error (f e)
  | .panic => .panic
  | .underflow => .underflow
  | .hang => .hang

namespace Fault

variable {ε : Type}

theorem panic_ne_error (err : ε) : panic ≠ error err := nofun

theorem underflow_ne_error (err : ε) : underflow ≠ error err := nofun

theorem error_ne_underflow (err : ε) : error err ≠ underflow := nofun

/-- A fault that is no error is not an error. -/
theorem absurd_error {e : Fault ε} {P : Prop} (he : ∀ err, e ≠ error err)
    (herr : ∃ err, e = error err) : P :=
  absurd herr (not_exists.mpr he)

theorem panic_ne_underflow : (panic : Fault ε) ≠ underflow := nofun

end Fault

/-- A program on states `σ` with values `α`. -/
abbrev Program (ε σ α : Type) := EStateM (Fault ε) σ α

namespace Program

variable {ε σ τ α β : Type}

/-- Stop with an error. -/
def fail (e : ε) : Program ε σ α := throw (.error e)

/-- Stop with a panic. -/
def crash : Program ε σ α := throw .panic

/-- Stop because a subtraction goes below zero. -/
def underflow : Program ε σ α := throw .underflow

/-- The value of `o`, or a panic. -/
def unwrap : Option α → Program ε σ α
  | some a => pure a
  | none => crash

/-- The difference `o`, unless it is below zero. -/
def unwrapSub : Option α → Program ε σ α
  | some a => pure a
  | none => underflow

/-- The value of `r`, or its error. -/
def ofExcept : Except ε α → Program ε σ α
  | .ok a => pure a
  | .error e => fail e

/-- Run `x` on the part of the state that `part` reads and `put` writes. -/
def zoom (part : τ → σ) (put : σ → τ → τ) (x : Program ε σ α) : Program ε τ α := fun t =>
  match x (part t) with
  | .ok a s => .ok a (put s t)
  | .error e s => .error e (put s t)

/-- Run `x` on the part of the state that `part` reads and `put` writes, and convert its errors. -/
def embed {ε' : Type} (f : ε → ε') (part : τ → σ) (put : σ → τ → τ) (x : Program ε σ α) :
    Program ε' τ α :=
  fun t => match x (part t) with
  | .ok a s => .ok a (put s t)
  | .error e s => .error (e.map f) (put s t)

/-- Run `x`, and go on after an error. -/
def attempt (x : Program ε σ α) : Program ε σ (Except ε α) := fun s =>
  match x s with
  | .ok a s => .ok (.ok a) s
  | .error (.error e) s => .ok (.error e) s
  | .error e s => .error e s

/-- Run `x` if `c` holds. -/
def when (c : Prop) [Decidable c] (x : Program ε σ Unit) : Program ε σ Unit :=
  if c then x else pure ()

/-- Run `f` on the elements of a list, up to the first one that says to stop. -/
def forWhile (f : β → Program ε σ Bool) : List β → Program ε σ Unit
  | [] => pure ()
  | b :: bs => do if ← f b then forWhile f bs else pure ()

/-- Whether `x` stops with the fault `e`. -/
def stopsWith [DecidableEq ε] (x : Program ε σ α) (s : σ) (e : Fault ε) : Bool :=
  match x s with
  | .error e' _ => decide (e' = e)
  | .ok _ _ => false

/-- Whether `x` stops with an error and `p` holds of the error and the state. -/
def failsWith (x : Program ε σ α) (s : σ) (p : ε → σ → Bool) : Bool :=
  match x s with
  | .error (.error e) s' => p e s'
  | _ => false

/-- Whether `x` returns and `p` holds of the value and the state. -/
def returnsWith (x : Program ε σ α) (s : σ) (p : α → σ → Bool) : Bool :=
  match x s with
  | .ok a s' => p a s'
  | .error _ _ => false

/-! ### Running the parts of a program -/

section Apply

variable (s s' : σ)

@[simp] theorem pure_apply (a : α) : (pure a : Program ε σ α) s = .ok a s := rfl

@[simp] theorem get_apply : (get : Program ε σ σ) s = .ok s s := rfl

@[simp] theorem set_apply : (set s' : Program ε σ PUnit) s = .ok ⟨⟩ s' := rfl

@[simp] theorem modify_apply (f : σ → σ) : (modify f : Program ε σ PUnit) s = .ok ⟨⟩ (f s) := rfl

@[simp] theorem fail_apply (e : ε) : (fail e : Program ε σ α) s = .error (.error e) s := rfl

@[simp] theorem crash_apply : (crash : Program ε σ α) s = .error .panic s := rfl

@[simp] theorem underflow_apply :
    (underflow : Program ε σ α) s = .error .underflow s := rfl

@[simp] theorem unwrap_some (a : α) : (unwrap (some a) : Program ε σ α) = pure a := rfl

@[simp] theorem unwrap_none : (unwrap none : Program ε σ α) = crash := rfl

@[simp] theorem unwrapSub_some (a : α) : (unwrapSub (some a) : Program ε σ α) = pure a := rfl

@[simp] theorem unwrapSub_none : (unwrapSub none : Program ε σ α) = underflow := rfl

@[simp] theorem ofExcept_ok (a : α) : (ofExcept (.ok a) : Program ε σ α) = pure a := rfl

@[simp] theorem ofExcept_error (e : ε) : (ofExcept (.error e) : Program ε σ α) = fail e := rfl

/-- A sequence runs its second program where the first one returned. -/
theorem bind_apply (x : Program ε σ β) (f : β → Program ε σ α) :
    (x >>= f) s = match x s with
      | .ok b s' => f b s'
      | .error e s' => .error e s' := by
  change EStateM.bind x f s = _
  unfold EStateM.bind
  cases x s <;> rfl

/-- A sequence returns when both programs do. -/
theorem bind_eq_ok {x : Program ε σ β} {f : β → Program ε σ α} {s s' : σ} {a : α} :
    (x >>= f) s = .ok a s' ↔ ∃ b t, x s = .ok b t ∧ f b t = .ok a s' := by
  rw [bind_apply]
  cases hx : x s with
  | ok b t =>
    refine ⟨fun h => ⟨b, t, rfl, h⟩, ?_⟩
    rintro ⟨b', t', heq, h⟩
    cases heq
    exact h
  | error e t => exact ⟨nofun, fun ⟨_, _, heq, _⟩ => nomatch heq⟩

/-- A function of the result leaves the state alone. -/
theorem map_apply (x : Program ε σ β) (f : β → α) :
    (f <$> x) s = match x s with
      | .ok b s' => .ok (f b) s'
      | .error e s' => .error e s' := by
  change EStateM.map f x s = _
  unfold EStateM.map
  cases x s <;> rfl

theorem discard_apply (x : Program ε σ β) :
    (discard x : Program ε σ PUnit) s = match x s with
      | .ok _ s' => .ok ⟨⟩ s'
      | .error e s' => .error e s' := by
  change EStateM.map (fun _ => ()) x s = _
  unfold EStateM.map
  cases x s <;> rfl

/-- The test says whether the program ends with the fault. -/
theorem stopsWith_iff [DecidableEq ε] {x : Program ε σ α} {s : σ} {e : Fault ε} :
    x.stopsWith s e = true ↔ ∃ s', x s = .error e s' := by
  unfold stopsWith
  cases x s <;> simp

/-- The test says whether the program fails, in a state that satisfies it. -/
theorem failsWith_iff {x : Program ε σ α} {s : σ} {p : ε → σ → Bool} :
    x.failsWith s p = true ↔ ∃ e s', x s = .error (.error e) s' ∧ p e s' = true := by
  unfold failsWith
  cases x s with
  | ok a s' => simp
  | error e s' =>
    cases e
    case error e => exact ⟨fun h => ⟨e, s', rfl, h⟩, by rintro ⟨_, _, ⟨⟩, h⟩; exact h⟩
    all_goals simp

/-- The test says whether the program returns, in a state that satisfies it. -/
theorem returnsWith_iff {x : Program ε σ α} {s : σ} {p : α → σ → Bool} :
    x.returnsWith s p = true ↔ ∃ a s', x s = .ok a s' ∧ p a s' = true := by
  unfold returnsWith
  cases x s with
  | ok a s' => exact ⟨fun h => ⟨a, s', rfl, h⟩, by rintro ⟨_, _, ⟨⟩, h⟩; exact h⟩
  | error e s' => simp

end Apply

/-! ### Pre- and postconditions -/

/-- Run from `s`, the program returns a value and a state with `Q`, or stops with a
fault and a state with `E`. -/
def Ends (x : Program ε σ α) (s : σ) (Q : α → σ → Prop) (E : Fault ε → σ → Prop) : Prop :=
  match x s with
  | .ok a s' => Q a s'
  | .error e s' => E e s'

section Ends

variable {s : σ} {Q Q' : α → σ → Prop} {E E' : Fault ε → σ → Prop}

theorem Ends.mono {x : Program ε σ α} (h : x.Ends s Q E) (hQ : ∀ a s', Q a s' → Q' a s')
    (hE : ∀ e s', E e s' → E' e s') : x.Ends s Q' E' := by
  unfold Ends at *
  split at h
  · exact hQ _ _ h
  · exact hE _ _ h

/-- What two proofs show of a program holds together. -/
theorem Ends.and {x : Program ε σ α} (h : x.Ends s Q E) (h' : x.Ends s Q' E') :
    x.Ends s (fun a s' => Q a s' ∧ Q' a s') fun e s' => E e s' ∧ E' e s' := by
  unfold Ends at *
  split at h
  · rename_i heq
    rw [heq] at h'
    exact ⟨h, h'⟩
  · rename_i heq
    rw [heq] at h'
    exact ⟨h, h'⟩

/-- The rule of sequential composition, with the condition in between. -/
theorem Ends.bind {x : Program ε σ β} {f : β → Program ε σ α} {R : β → σ → Prop}
    (hx : x.Ends s R E) (hf : ∀ b s', R b s' → (f b).Ends s' Q E) : (x >>= f).Ends s Q E := by
  unfold Ends at *
  rw [bind_apply]
  cases hxs : x s with
  | ok b s' =>
    rw [hxs] at hx
    exact hf b s' hx
  | error e s' => rwa [hxs] at hx

/-- A program that may be left out. -/
theorem Ends.when {c : Prop} [Decidable c] {x : Program ε σ Unit} {Q : Unit → σ → Prop}
    (hx : c → x.Ends s Q E) (hpure : ¬ c → Q () s) : (Program.when c x).Ends s Q E := by
  unfold Program.when
  split_ifs with h
  · exact hx h
  · exact hpure h

/-- What holds when a program returns. -/
theorem Ends.ok {x : Program ε σ α} (h : x.Ends s Q E) {a : α} {s' : σ}
    (hx : x s = .ok a s') : Q a s' := by
  unfold Ends at h
  rwa [hx] at h

/-- What holds when a program fails. -/
theorem Ends.error {x : Program ε σ α} (h : x.Ends s Q E) {e : Fault ε} {s' : σ}
    (hx : x s = .error e s') : E e s' := by
  unfold Ends at h
  rwa [hx] at h

/-- A program without a fault returns a value. -/
theorem Ends.exists_ok {x : Program ε σ α} (h : x.Ends s Q fun _ _ => False) :
    ∃ a s', x s = .ok a s' ∧ Q a s' := by
  unfold Ends at h
  cases hx : x s with
  | ok a s' =>
    rw [hx] at h
    exact ⟨a, s', rfl, h⟩
  | error e s' =>
    rw [hx] at h
    exact h.elim

/-- A program ends well when it returns well and fails well. -/
theorem ends_iff {x : Program ε σ α} : x.Ends s Q E ↔
    (∀ a s', x s = .ok a s' → Q a s') ∧ ∀ e s', x s = .error e s' → E e s' := by
  constructor
  · exact fun h => ⟨fun _ _ => h.ok, fun _ _ => h.error⟩
  · rintro ⟨hok, herror⟩
    unfold Ends
    split
    · exact hok _ _ ‹_›
    · exact herror _ _ ‹_›

/-- A condition that decides about each end decides about the program. -/
theorem Ends.iff_of {x : Program ε σ α} {p : Prop}
    (h : x.Ends s (fun a s' => Q a s' ↔ p) fun e s' => E e s' ↔ p) :
    x.Ends s Q E ↔ p := by
  unfold Ends at h ⊢
  split at h
  · exact h
  · exact h

@[simp] theorem ends_pure {a : α} : (pure a : Program ε σ α).Ends s Q E ↔ Q a s := .rfl

@[simp] theorem ends_throw {e : Fault ε} : (throw e : Program ε σ α).Ends s Q E ↔ E e s := .rfl

@[simp] theorem ends_fail {e : ε} : (fail e : Program ε σ α).Ends s Q E ↔ E (.error e) s := .rfl

@[simp] theorem ends_crash : (crash : Program ε σ α).Ends s Q E ↔ E .panic s := .rfl

@[simp] theorem ends_underflow :
    (underflow : Program ε σ α).Ends s Q E ↔ E .underflow s := .rfl

@[simp] theorem ends_get {Q : σ → σ → Prop} :
    (get : Program ε σ σ).Ends s Q E ↔ Q s s := .rfl

@[simp] theorem ends_set {s' : σ} {Q : PUnit → σ → Prop} :
    (set s' : Program ε σ PUnit).Ends s Q E ↔ Q ⟨⟩ s' := .rfl

@[simp] theorem ends_modify {f : σ → σ} {Q : PUnit → σ → Prop} :
    (modify f : Program ε σ PUnit).Ends s Q E ↔ Q ⟨⟩ (f s) := .rfl

/-- Sequential composition. -/
@[simp] theorem ends_bind {x : Program ε σ β} {f : β → Program ε σ α} :
    (x >>= f).Ends s Q E ↔ x.Ends s (fun b s' => (f b).Ends s' Q E) E := by
  unfold Ends
  rw [bind_apply]
  cases x s <;> rfl

@[simp] theorem ends_map {x : Program ε σ β} {f : β → α} :
    (f <$> x).Ends s Q E ↔ x.Ends s (fun b s' => Q (f b) s') E := by
  rw [← bind_pure_comp, ends_bind]
  rfl

@[simp] theorem ends_ite {c : Prop} [Decidable c] {x y : Program ε σ α} :
    (if c then x else y).Ends s Q E ↔ (c → x.Ends s Q E) ∧ (¬ c → y.Ends s Q E) := by
  split_ifs with h <;> simp [h]

@[simp] theorem ends_when {c : Prop} [Decidable c] {x : Program ε σ Unit} {Q : Unit → σ → Prop} :
    (when c x).Ends s Q E ↔ (c → x.Ends s Q E) ∧ (¬ c → Q ⟨⟩ s) := by
  rw [when, ends_ite, ends_pure]

@[simp] theorem ends_unwrap {o : Option α} :
    (unwrap o : Program ε σ α).Ends s Q E ↔ (∀ a, o = some a → Q a s) ∧
    (o = none → E .panic s) := by
  cases o <;> simp [unwrap]

@[simp] theorem ends_unwrapSub {o : Option α} :
    (unwrapSub o : Program ε σ α).Ends s Q E ↔
      (∀ a, o = some a → Q a s) ∧ (o = none → E .underflow s) := by
  cases o <;> simp [unwrapSub]

@[simp] theorem ends_ofExcept {r : Except ε α} :
    (ofExcept r : Program ε σ α).Ends s Q E ↔
      (∀ a, r = .ok a → Q a s) ∧ ∀ e, r = .error e → E (.error e) s := by
  cases r <;> simp [ofExcept]

@[simp] theorem ends_zoom {part : τ → σ} {put : σ → τ → τ} {x : Program ε σ α} {t : τ}
    {Q : α → τ → Prop} {E : Fault ε → τ → Prop} :
    (zoom part put x).Ends t Q E ↔
      x.Ends (part t) (fun a s' => Q a (put s' t)) fun e s' => E e (put s' t) := by
  unfold Ends zoom
  cases x (part t) <;> rfl

@[simp] theorem ends_embed {ε' : Type} {f : ε → ε'} {part : τ → σ} {put : σ → τ → τ}
    {x : Program ε σ α} {t : τ}
    {Q : α → τ → Prop} {E : Fault ε' → τ → Prop} :
    (embed f part put x).Ends t Q E ↔
      x.Ends (part t) (fun a s' => Q a (put s' t)) fun e s' => E (e.map f) (put s' t) := by
  unfold Ends embed
  cases x (part t) <;> rfl

@[simp] theorem ends_attempt {x : Program ε σ α} {Q : Except ε α → σ → Prop} :
    (attempt x).Ends s Q E ↔ x.Ends s (fun a s' => Q (.ok a) s') fun e s' =>
      match e with
      | .error err => Q (.error err) s'
      | e => E e s' := by
  unfold Ends attempt
  rcases x s with ⟨a, s'⟩ | ⟨_ | _ | _ | _, s'⟩ <;> rfl

end Ends

/-! ### Relations that a program keeps -/

/-- Run from `s`, the program ends in a state that `R` relates to `s`, unless it
panics or does not end. -/
def Keeps (R : σ → σ → Prop) (x : Program ε σ α) (s : σ) : Prop :=
  x.Ends s (fun _ s' => R s s') fun e s' => (∃ err, e = .error err) → R s s'

section Keeps

variable {R R' : σ → σ → Prop} {s : σ}

/-- An invariant, as a relation that programs may keep. -/
instance (I : σ → Prop) : IsPreorder σ fun s s' => I s → I s' where
  refl _ := id
  trans _ _ _ h h' := h' ∘ h

/-- The state after a program that returns a value or an error. -/
def after (x : Program ε σ α) (s : σ) : Option σ :=
  match x s with
  | .ok _ s' => some s'
  | .error (.error _) s' => some s'
  | .error _ _ => none

/-- A program keeps a relation to every state that it leaves. -/
theorem keeps_iff_after {x : Program ε σ α} :
    x.Keeps R s ↔ ∀ s', x.after s = some s' → R s s' := by
  unfold Keeps Ends after
  rcases x s with ⟨a, s'⟩ | ⟨_ | _ | _ | _, s'⟩ <;> simp

/-- Every program keeps the relation to the state after it. -/
theorem keeps_after (x : Program ε σ α) (s : σ) :
    x.Keeps (fun t t' => x.after t = some t') s := keeps_iff_after.mpr fun _ => id

/-- A condition that decides about each end but the panics decides about the program. -/
theorem ends_iff_after {x : Program ε σ α} {Q : α → σ → Prop} {F : σ → Prop} {p : Prop}
    (h : x.Ends s (fun a s' => Q a s' ↔ p) fun e s' => (∃ err, e = .error err) → (F s' ↔ p)) :
    x.Ends s Q (fun e s' => (∃ err, e = .error err) → F s') ↔ ((x.after s).isSome → p) := by
  unfold Ends after at *
  generalize x s = r at *
  rcases r with ⟨a, s'⟩ | ⟨e | _ | _ | _, s'⟩
  · simpa using h
  · simpa using h
  all_goals simp

@[simp] theorem discard_after (x : Program ε σ α) (s : σ) :
    (discard x : Program ε σ PUnit).after s = x.after s := by
  unfold after
  rw [discard_apply]
  rcases x s with ⟨a, s'⟩ | ⟨_ | _ | _ | _, s'⟩ <;> rfl

theorem Keeps.of_discard {x : Program ε σ α} (h : (discard x : Program ε σ PUnit).Keeps R s) :
    x.Keeps R s :=
  keeps_iff_after.mpr fun s' hs' => keeps_iff_after.mp h s' (by rwa [discard_after])

theorem Keeps.discard {x : Program ε σ α} (h : x.Keeps R s) :
    (discard x : Program ε σ PUnit).Keeps R s :=
  keeps_iff_after.mpr fun s' hs' => keeps_iff_after.mp h s' (by rwa [discard_after] at hs')

/-- The relation holds to the state in which a program returns. -/
theorem Keeps.ok {x : Program ε σ α} (h : x.Keeps R s) {a : α} {s' : σ}
    (hx : x s = .ok a s') : R s s' := Ends.ok h hx

/-- The relation holds to the state in which a program fails with an error. -/
theorem Keeps.error {x : Program ε σ α} (h : x.Keeps R s) {e : ε} {s' : σ}
    (hx : x s = .error (.error e) s') : R s s' := Ends.error h hx ⟨e, rfl⟩

theorem Keeps.mono {x : Program ε σ α} (h : x.Keeps R s) (hR : ∀ s', R s s' → R' s s') :
    x.Keeps R' s :=
  Ends.mono h (fun _ s' => hR s') fun _ s' hE he => hR s' (hE he)

/-- A postcondition that implies the relation. -/
theorem Keeps.of_ends {x : Program ε σ α} {Q : α → σ → Prop} {E : Fault ε → σ → Prop}
    (h : x.Ends s Q E) (hQ : ∀ a s', Q a s' → R s s')
    (hE : ∀ e s', E (.error e) s' → R s s') : x.Keeps R s := by
  refine Ends.mono h hQ ?_
  rintro _ s' hE' ⟨e, rfl⟩
  exact hE e s' hE'

@[simp] theorem keeps_pure {a : α} : (pure a : Program ε σ α).Keeps R s ↔ R s s := .rfl

@[simp] theorem keeps_get : (get : Program ε σ σ).Keeps R s ↔ R s s := .rfl

@[simp] theorem keeps_set {s' : σ} : (set s' : Program ε σ PUnit).Keeps R s ↔ R s s' := .rfl

@[simp] theorem keeps_modify {f : σ → σ} :
    (modify f : Program ε σ PUnit).Keeps R s ↔ R s (f s) := .rfl

@[simp] theorem keeps_get_bind {f : σ → Program ε σ α} :
    (get >>= f).Keeps R s ↔ (f s).Keeps R s := .rfl

@[simp] theorem keeps_fail {e : ε} : (fail e : Program ε σ α).Keeps R s ↔ R s s := by
  simp [Keeps]

@[simp] theorem keeps_crash : (crash : Program ε σ α).Keeps R s := by
  simp [Keeps]

@[simp] theorem keeps_underflow : (underflow : Program ε σ α).Keeps R s := by
  simp [Keeps]

/-- What follows a kept start keeps a transitive relation. -/
theorem Keeps.bind [IsTrans σ R] {x : Program ε σ β} {f : β → Program ε σ α}
    (hx : x.Keeps R s) (hf : ∀ b s', x s = .ok b s' → (f b).Keeps R s') :
    (x >>= f).Keeps R s := by
  unfold Keeps Ends at *
  rw [bind_apply]
  cases hxs : x s with
  | error e s' =>
    rw [hxs] at hx
    exact hx
  | ok b s' =>
    rw [hxs] at hx
    have hfs := hf b s' hxs
    dsimp only at hx ⊢
    split
    · rename_i heq
      rw [heq] at hfs
      exact IsTrans.trans _ _ _ hx hfs
    · rename_i heq
      rw [heq] at hfs
      exact fun he => IsTrans.trans _ _ _ hx (hfs he)

/-- Both branches keep the relation. -/
theorem Keeps.ite {c : Prop} [Decidable c] {x y : Program ε σ α} (hx : c → x.Keeps R s)
    (hy : ¬ c → y.Keeps R s) : (if c then x else y).Keeps R s := by
  split_ifs with h
  · exact hx h
  · exact hy h

theorem Keeps.when [Std.Refl R] {c : Prop} [Decidable c] {x : Program ε σ Unit}
    (hx : c → x.Keeps R s) : (when c x).Keeps R s :=
  .ite hx fun _ => Std.Refl.refl s

theorem Keeps.unwrap [Std.Refl R] (o : Option α) : (unwrap o : Program ε σ α).Keeps R s := by
  cases o
  · exact keeps_crash
  · exact Std.Refl.refl s

/-- A result is returned where it is there, and the state stays. -/
theorem ofExcept_eq_ok {r : Except ε α} {a : α} {s s' : σ} :
    (ofExcept r : Program ε σ α) s = .ok a s' ↔ r = .ok a ∧ s = s' := by
  cases r with
  | error e => exact ⟨nofun, fun h => absurd h.1 nofun⟩
  | ok b =>
    rw [ofExcept_ok, pure_apply]
    constructor
    · rintro ⟨⟩
      exact ⟨rfl, rfl⟩
    · rintro ⟨⟨⟩, rfl⟩
      rfl

theorem Keeps.ofExcept [Std.Refl R] (r : Except ε α) :
    (ofExcept r : Program ε σ α).Keeps R s := by
  cases r
  · exact keeps_fail.mpr (Std.Refl.refl s)
  · exact Std.Refl.refl s

/-- A loop keeps what its turns keep. -/
theorem Keeps.forM_mem [IsPreorder σ R] {f : β → Program ε σ PUnit} {l : List β}
    (hf : ∀ b ∈ l, ∀ s, (f b).Keeps R s) (s : σ) : (forM l f : Program ε σ PUnit).Keeps R s := by
  induction l generalizing s with
  | nil => exact Std.Refl.refl s
  | cons b l ih =>
    rw [List.forM_cons]
    exact (hf b List.mem_cons_self s).bind fun _ s' _ =>
      ih (fun b' hb' => hf b' (List.mem_cons_of_mem b hb')) s'

/-- A loop keeps what its body keeps. -/
theorem Keeps.forM [IsPreorder σ R] {f : β → Program ε σ PUnit}
    (hf : ∀ b s, (f b).Keeps R s) (l : List β) (s : σ) :
    (forM l f : Program ε σ PUnit).Keeps R s := .forM_mem (fun b _ => hf b) s

theorem Keeps.forWhile_mem [IsPreorder σ R] {f : β → Program ε σ Bool} {l : List β}
    (hf : ∀ b ∈ l, ∀ s, (f b).Keeps R s) (s : σ) : (forWhile f l).Keeps R s := by
  induction l generalizing s with
  | nil => exact Std.Refl.refl s
  | cons b l ih =>
    refine (hf b List.mem_cons_self s).bind fun more s' _ => ?_
    cases more with
    | true => exact ih (fun b' hb' => hf b' (List.mem_cons_of_mem b hb')) s'
    | false => exact Std.Refl.refl s'

/-- A loop keeps what its body keeps. -/
theorem Keeps.forWhile [IsPreorder σ R] {f : β → Program ε σ Bool}
    (hf : ∀ b s, (f b).Keeps R s) (l : List β) (s : σ) : (forWhile f l).Keeps R s :=
  .forWhile_mem (fun b _ => hf b) s

/-- A program whose error is caught keeps what it keeps. -/
theorem Keeps.attempt {x : Program ε σ α} (h : x.Keeps R s) : (attempt x).Keeps R s := by
  refine keeps_iff_after.mpr fun s' hs' => keeps_iff_after.mp h s' ?_
  rw [← hs', after, after, Program.attempt]
  rcases x s with ⟨a, s'⟩ | ⟨_ | _ | _ | _, s'⟩ <;> rfl

/-- What is kept only from states with `p` may be shown with it. -/
theorem Keeps.of_imp {p : σ → Prop} {x : Program ε σ α}
    (h : p s → x.Keeps (fun t t' => p t → R t t') s) :
    x.Keeps (fun t t' => p t → R t t') s := by
  by_cases hp : p s
  · exact h hp
  · unfold Keeps Ends
    split
    · exact fun hps => absurd hps hp
    · exact fun _ hps => absurd hps hp

/-- A program on a part of the state keeps of the whole what it keeps of the part. -/
theorem Keeps.zoom {part : τ → σ} {put : σ → τ → τ} {x : Program ε σ α} {t : τ}
    {S : τ → τ → Prop} (h : x.Keeps R (part t)) (hS : ∀ s', R (part t) s' → S t (put s' t)) :
    (zoom part put x).Keeps S t := by
  unfold Keeps at *
  rw [ends_zoom]
  exact Ends.mono h (fun _ s' => hS s') fun _ s' hE he => hS s' (hE he)

/-- A program on a part of the state, with errors of its own. -/
theorem Keeps.embed {ε' : Type} {f : ε → ε'} {part : τ → σ} {put : σ → τ → τ}
    {x : Program ε σ α} {t : τ}
    {S : τ → τ → Prop} (h : x.Keeps R (part t)) (hS : ∀ s', R (part t) s' → S t (put s' t)) :
    (embed f part put x).Keeps S t := by
  refine keeps_iff_after.mpr fun t' ht' => ?_
  have hafter : (Program.embed f part put x).after t = (x.after (part t)).map fun s' =>
      put s' t := by
    unfold after Program.embed
    rcases x (part t) with ⟨a, s'⟩ | ⟨_ | _ | _ | _, s'⟩ <;> rfl
  rw [hafter] at ht'
  obtain ⟨s', hs', rfl⟩ := Option.map_eq_some_iff.mp ht'
  exact hS s' (keeps_iff_after.mp h s' hs')

end Keeps

/-! ### Values -/

/-- The values that the program returns have `P`. -/
def Returns (P : α → Prop) (x : Program ε σ α) : Prop := ∀ s a s', x s = .ok a s' → P a

section Returns

variable {P Q : α → Prop}

theorem returns_true (x : Program ε σ α) : x.Returns fun _ => True := fun _ _ _ _ => trivial

theorem returns_pure {a : α} (h : P a) : (pure a : Program ε σ α).Returns P := by
  rintro s b s' ⟨⟩
  exact h

theorem returns_throw (e : Fault ε) : (throw e : Program ε σ α).Returns P := nofun

theorem returns_fail (e : ε) : (fail e : Program ε σ α).Returns P := nofun

/-- What the second program returns, given what the first one returns. -/
theorem Returns.bind {R : β → Prop} {x : Program ε σ β} {f : β → Program ε σ α} (hx : x.Returns R)
    (hf : ∀ b, R b → (f b).Returns P) : (x >>= f).Returns P := by
  intro s a s' h
  obtain ⟨b, t, hb, hrest⟩ := bind_eq_ok.mp h
  exact hf b (hx s b t hb) t a s' hrest

/-- What comes last decides what is returned. -/
theorem Returns.last {x : Program ε σ β} {f : β → Program ε σ α} (hf : ∀ b, (f b).Returns P) :
    (x >>= f).Returns P := (returns_true x).bind fun b _ => hf b

theorem Returns.attempt {x : Program ε σ α} (h : x.Returns P) :
    x.attempt.Returns fun r => ∀ a, r = .ok a → P a := by
  rintro s r s' hr a rfl
  refine h s a s' ?_
  unfold Program.attempt at hr
  rcases hx : x s with ⟨b, t⟩ | ⟨_ | _ | _ | _, t⟩ <;> rw [hx] at hr <;> cases hr
  rfl

/-- Both branches return what is asked for. -/
theorem Returns.ite {c : Prop} [Decidable c] {x y : Program ε σ α} (hx : c → x.Returns P)
    (hy : ¬ c → y.Returns P) : (if c then x else y).Returns P := by
  split_ifs with h
  · exact hx h
  · exact hy h

end Returns

/-! ### Invariants -/

/-- From every state with `I`, the program ends in a state with `I`, or stops with a
fault and a state that `E` relates. -/
def Maintains (I : σ → Prop) (E : Fault ε → σ → Prop) (x : Program ε σ α) : Prop :=
  ∀ s, I s → x.Ends s (fun _ => I) E

section Maintains

variable {I : σ → Prop} {E : Fault ε → σ → Prop}

theorem maintains_pure (a : α) : Maintains I E (pure a : Program ε σ α) := fun _ => id

/-- Reading the state, of which the invariant is known. -/
theorem maintains_get_bind {f : σ → Program ε σ α} (h : ∀ s, I s → (f s).Ends s (fun _ => I) E) :
    Maintains I E (get >>= f) := h

theorem maintains_modify {f : σ → σ} (h : ∀ s, I s → I (f s)) :
    Maintains I E (modify f : Program ε σ PUnit) := h

/-- Invariants are kept by sequences. -/
theorem Maintains.bind {x : Program ε σ β} {f : β → Program ε σ α} (hx : Maintains I E x)
    (hf : ∀ b, Maintains I E (f b)) : Maintains I E (x >>= f) := by
  intro s hs
  rw [ends_bind]
  exact (hx s hs).mono (fun b s' hs' => hf b s' hs') fun _ _ h => h

/-- Invariants are kept by branches. -/
theorem Maintains.ite {c : Prop} [Decidable c] {x y : Program ε σ α} (hx : c → Maintains I E x)
    (hy : ¬ c → Maintains I E y) : Maintains I E (if c then x else y) := by
  split_ifs with h
  · exact hx h
  · exact hy h

theorem Maintains.when {c : Prop} [Decidable c] {x : Program ε σ Unit}
    (hx : c → Maintains I E x) : Maintains I E (when c x) :=
  .ite hx fun _ => maintains_pure ()

/-- What is kept in every step remains related to the state at the start. -/
theorem Maintains.of_keeps {R : σ → σ → Prop} [IsTrans σ R] {x : Program ε σ α} {s₀ : σ}
    (h : ∀ s, x.Keeps R s) :
    Maintains (R s₀) (fun e s => (∃ err, e = .error err) → R s₀ s) x := fun s hs =>
  Ends.mono (h s) (fun _ _ hR => IsTrans.trans _ _ _ hs hR) fun _ _ hR he =>
    IsTrans.trans _ _ _ hs (hR he)

theorem maintains_unwrap {o : Option α} (hE : ∀ s, I s → E .panic s) :
    Maintains I E (unwrap o : Program ε σ α) := by
  intro s hs
  exact ends_unwrap.mpr ⟨fun _ _ => hs, fun _ => hE s hs⟩

theorem maintains_ofExcept {r : Except ε α} (hE : ∀ e s, I s → E (.error e) s) :
    Maintains I E (ofExcept r : Program ε σ α) := by
  intro s hs
  exact ends_ofExcept.mpr ⟨fun _ _ => hs, fun e _ => hE e s hs⟩

/-- Invariants are kept by loops. -/
theorem Maintains.forM {f : β → Program ε σ PUnit} (hf : ∀ b, Maintains I E (f b)) (l : List β) :
    Maintains I E (forM l f : Program ε σ PUnit) := by
  induction l with
  | nil => exact maintains_pure _
  | cons b l ih =>
    rw [List.forM_cons]
    exact (hf b).bind fun _ => ih

/-- Invariants are kept by loops that may be left. -/
theorem Maintains.forWhile {f : β → Program ε σ Bool} {l : List β}
    (hf : ∀ b ∈ l, Maintains I E (f b)) : Maintains I E (forWhile f l) := by
  induction l with
  | nil => exact maintains_pure ()
  | cons b l ih =>
    refine (hf b List.mem_cons_self).bind fun more => .ite (fun _ => ?_) fun _ => maintains_pure ()
    exact ih fun b' hb' => hf b' (List.mem_cons_of_mem b hb')

end Maintains

/-! ### Loops whose turns meet a condition -/

/-- The state in which a program returns a value. -/
def returned (x : Program ε σ α) (s : σ) : Option σ :=
  match x s with
  | .ok _ s' => some s'
  | .error _ _ => none

/-- The state in which a program returns. -/
theorem returned_eq_some {x : Program ε σ α} {s s' : σ} :
    x.returned s = some s' ↔ ∃ a, x s = .ok a s' := by
  unfold returned
  cases x s <;> simp

/-- The relation holds to the state in which a program returns. -/
theorem Keeps.returned {R : σ → σ → Prop} {x : Program ε σ α} {s s' : σ} (h : x.Keeps R s)
    (hx : x.returned s = some s') : R s s' := by
  obtain ⟨_, hok⟩ := returned_eq_some.mp hx
  exact h.ok hok

/-- A turn of the loop is only taken in the state in which the turns before it returned. -/
theorem Ends.forM_of_allSteps {f : β → Program ε σ PUnit} {C : σ → β → Prop} {I : σ → Prop}
    {E : Fault ε → σ → Prop} {l : List β}
    (hf : ∀ b ∈ l, ∀ s, I s → C s b → (f b).Ends s (fun _ => I) E)
    {s : σ} (hs : I s) (h : AllSteps (fun s b => (f b).returned s) C s l) :
    (forM l f : Program ε σ PUnit).Ends s (fun _ => I) E := by
  induction l generalizing s with
  | nil => exact hs
  | cons b l ih =>
    rw [List.forM_cons, ends_bind, ends_iff]
    have hturn := hf b List.mem_cons_self s hs h.1
    constructor
    · intro a s' hok
      refine ih (fun b' hb' => hf b' (List.mem_cons_of_mem b hb')) (hturn.ok hok) (h.2 s' ?_)
      exact returned_eq_some.mpr ⟨a, hok⟩
    · exact fun e s' => hturn.error

/-! ### Programs that also write an output -/

/-- The outcome without the output. -/
def forget : EStateM.Result (Fault ε) (σ × τ) α → EStateM.Result (Fault ε) σ α
  | .ok a s => .ok a s.1
  | .error e s => .error e s.1

/-- The outcome with the output `t`. -/
def tell (t : τ) : EStateM.Result (Fault ε) σ α → EStateM.Result (Fault ε) (σ × τ) α
  | .ok a s => .ok a (s, t)
  | .error e s => .error e (s, t)

/-- Whatever the output, `x` does on the rest of the state what `y` does. -/
def Erases (x : Program ε (σ × τ) α) (y : Program ε σ α) : Prop := ∀ s t, forget (x (s, t)) = y s

/-- A program that leaves the output alone. -/
def lift (x : Program ε σ α) : Program ε (σ × τ) α := zoom Prod.fst (fun s p => (s, p.2)) x

section Erases

variable {y : Program ε σ α}

/-- What is lifted does nothing besides. -/
theorem erases_lift (x : Program ε σ α) : Erases (lift x : Program ε (σ × τ) α) x := by
  intro s t
  unfold lift zoom forget
  cases x s <;> rfl

theorem lift_apply (x : Program ε σ α) (s : σ) (t : τ) : lift x (s, t) = tell t (x s) := by
  unfold lift zoom tell
  cases x s <;> rfl

/-- Sequences are lifted one program at a time. -/
theorem lift_bind (x : Program ε σ β) (f : β → Program ε σ α) :
    (lift (x >>= f) : Program ε (σ × τ) α) = lift x >>= fun b => lift (f b) := by
  funext p
  obtain ⟨s, t⟩ := p
  rw [bind_apply, lift_apply, lift_apply, bind_apply]
  cases x s with
  | ok b s' => exact (lift_apply (f b) s' t).symm
  | error e s' => rfl

theorem lift_get_bind (f : σ → Program ε σ α) :
    (lift (get >>= f) : Program ε (σ × τ) α) = get >>= fun p => lift (f p.1) := rfl

theorem lift_pure (a : α) : (lift (pure a) : Program ε (σ × τ) α) = pure a := rfl

theorem lift_when (c : Prop) [Decidable c] (x : Program ε σ Unit) :
    (lift (when c x) : Program ε (σ × τ) Unit) = when c (lift x) := by
  unfold when
  split_ifs <;> rfl

@[simp] theorem ends_lift {x : Program ε σ α} {p : σ × τ} {Q : α → σ × τ → Prop}
    {E : Fault ε → σ × τ → Prop} :
    (lift x).Ends p Q E ↔ x.Ends p.1 (fun a s => Q a (s, p.2)) fun e s => E e (s, p.2) := ends_zoom

/-- The outcome of a program that leaves an output behind. -/
theorem ends_of_apply_eq_tell {x : Program ε (σ × τ) α} {y : Program ε σ α} {s : σ} {t t' : τ}
    {Q : α → σ × τ → Prop} {E : Fault ε → σ × τ → Prop} (h : x (s, t) = tell t' (y s)) :
    x.Ends (s, t) Q E ↔ y.Ends s (fun a s' => Q a (s', t')) fun e s' => E e (s', t') := by
  unfold Ends
  rw [h]
  cases y s <;> rfl

theorem erases_pure (a : α) : Erases (pure a : Program ε (σ × τ) α) (pure a) := fun _ _ => rfl

theorem erases_throw (e : Fault ε) : Erases (throw e : Program ε (σ × τ) α) (throw e) :=
  fun _ _ => rfl

theorem erases_fail (e : ε) : Erases (fail e : Program ε (σ × τ) α) (fail e) := fun _ _ => rfl

theorem erases_unwrap (o : Option α) : Erases (unwrap o : Program ε (σ × τ) α) (unwrap o) := by
  cases o <;> exact fun _ _ => rfl

theorem erases_unwrapSub (o : Option α) :
    Erases (unwrapSub o : Program ε (σ × τ) α) (unwrapSub o) := by
  cases o <;> exact fun _ _ => rfl

theorem erases_ofExcept (r : Except ε α) :
    Erases (ofExcept r : Program ε (σ × τ) α) (ofExcept r) := by
  cases r <;> exact fun _ _ => rfl

/-- Sequences erase to sequences. -/
theorem Erases.bind {x : Program ε (σ × τ) β} {z : Program ε σ β}
    {f : β → Program ε (σ × τ) α} {g : β → Program ε σ α} (hx : Erases x z)
    (hf : ∀ b, Erases (f b) (g b)) : Erases (x >>= f) (z >>= g) := by
  intro s t
  rw [bind_apply, bind_apply, ← hx s t]
  cases x (s, t) with
  | ok b s' => exact hf b s'.1 s'.2
  | error e s' => rfl

/-- Reading the state, of which the program does not use the output. -/
theorem erases_get_bind {f : σ × τ → Program ε (σ × τ) α} {g : σ → Program ε σ α}
    (h : ∀ s t, Erases (f (s, t)) (g s)) : Erases (get >>= f) (get >>= g) := fun s t => h s t s t

/-- Writing output. -/
theorem erases_write {f : PUnit → Program ε (σ × τ) α} (write : τ → τ) (h : Erases (f ⟨⟩) y) :
    Erases ((modify fun s => (s.1, write s.2)) >>= f) y := fun s t => h s (write t)

/-- Branches erase to branches. -/
theorem Erases.ite {c : Prop} [Decidable c] {x x' : Program ε (σ × τ) α} {y' : Program ε σ α}
    (hx : Erases x y) (hx' : Erases x' y') :
    Erases (if c then x else x') (if c then y else y') := by
  split_ifs
  · exact hx
  · exact hx'

theorem Erases.when {c : Prop} [Decidable c] {x : Program ε (σ × τ) Unit} {z : Program ε σ Unit}
    (hx : Erases x z) : Erases (when c x) (when c z) := hx.ite (erases_pure _)

/-- A program on a part of the state erases to one on a part of the state. -/
theorem erases_zoom {ρ : Type} (part : ρ → σ) (put : σ → ρ → ρ) {x : Program ε (σ × τ) α}
    (h : Erases x y) :
    Erases (zoom (fun s => (part s.1, s.2)) (fun s r => (put s.1 r.1, s.2)) x)
        (zoom part put y) := by
  intro s t
  unfold Program.zoom
  rw [← h (part s) t]
  dsimp only
  cases x (part s, t) <;> rfl

/-- The outcome of a program that writes output, up to the output. -/
theorem Erases.apply {x : Program ε (σ × τ) α} (h : Erases x y) (s : σ) (t : τ) :
    ∃ t', x (s, t) = tell t' (y s) := by
  rw [← h s t]
  cases x (s, t) with
  | ok a s' => exact ⟨s'.2, rfl⟩
  | error e s' => exact ⟨s'.2, rfl⟩

/-- A program ends where its erasure ends. -/
theorem Erases.after_isSome {x : Program ε (σ × τ) α} (h : Erases x y) (s : σ) (t : τ) :
    (x.after (s, t)).isSome = (y.after s).isSome := by
  rw [after, after, ← h s t]
  rcases x (s, t) with ⟨a, s'⟩ | ⟨_ | _ | _ | _, s'⟩ <;> rfl

end Erases

/-! ### Parts of the state that do not matter -/

/-- The outcome with `g` applied to the state. -/
def mapState (g : σ → σ) : EStateM.Result (Fault ε) σ α → EStateM.Result (Fault ε) σ α
  | .ok a s => .ok a (g s)
  | .error e s => .error e (g s)

/-- On `g s`, the program `y` does what `x` does on `s`, up to `g`. -/
def Mirrors (g : σ → σ) (y x : Program ε σ α) (s : σ) : Prop := y (g s) = mapState g (x s)

section Mirrors

variable {g : σ → σ} {s : σ}

theorem mirrors_pure (a : α) : Mirrors g (pure a : Program ε σ α) (pure a) s := rfl

theorem mirrors_throw (e : Fault ε) : Mirrors g (throw e : Program ε σ α) (throw e) s := rfl

theorem mirrors_fail (e : ε) : Mirrors g (fail e : Program ε σ α) (fail e) s := rfl

theorem mirrors_set {t' t : σ} (h : t' = g t) :
    Mirrors g (set t' : Program ε σ PUnit) (set t) s := by
  rw [Mirrors, set_apply, set_apply, h]
  rfl

theorem mirrors_modify {f : σ → σ} (h : f (g s) = g (f s)) :
    Mirrors g (modify f : Program ε σ PUnit) (modify f) s := by
  rw [Mirrors, modify_apply, modify_apply, h]
  rfl

theorem mirrors_ofExcept (r : Except ε α) :
    Mirrors g (ofExcept r : Program ε σ α) (ofExcept r) s := by
  cases r <;> rfl

/-- Reading the state. -/
theorem mirrors_get_bind {f' f : σ → Program ε σ α} (h : Mirrors g (f' (g s)) (f s) s) :
    Mirrors g (get >>= f') (get >>= f) s := h

/-- Sequences mirror sequences. -/
theorem Mirrors.bind {y x : Program ε σ β} {f' f : β → Program ε σ α} (hx : Mirrors g y x s)
    (hf : ∀ b t, Mirrors g (f' b) (f b) t) : Mirrors g (y >>= f') (x >>= f) s := by
  unfold Mirrors at *
  rw [bind_apply, bind_apply, hx]
  cases x s with
  | ok b t => exact hf b t
  | error e t => rfl

/-- Branches mirror branches. -/
theorem Mirrors.ite {c : Prop} [Decidable c] {y y' x x' : Program ε σ α}
    (hx : c → Mirrors g y x s) (hx' : ¬ c → Mirrors g y' x' s) :
    Mirrors g (if c then y else y') (if c then x else x') s := by
  split_ifs with h
  · exact hx h
  · exact hx' h

theorem Mirrors.when {c : Prop} [Decidable c] {y x : Program ε σ Unit}
    (hx : Mirrors g y x s) : Mirrors g (when c y) (when c x) s :=
  .ite (fun _ => hx) fun _ => mirrors_pure ()

/-- Loops mirror loops. -/
theorem Mirrors.forM {f : β → Program ε σ PUnit} (hf : ∀ b t, Mirrors g (f b) (f b) t)
    (l : List β) (s : σ) : Mirrors g (forM l f : Program ε σ PUnit) (forM l f) s := by
  induction l generalizing s with
  | nil => exact mirrors_pure _
  | cons b l ih =>
    rw [List.forM_cons]
    exact (hf b s).bind fun _ t => ih t

end Mirrors

end Program

end Dtp.Lib
