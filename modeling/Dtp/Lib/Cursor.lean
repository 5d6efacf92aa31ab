import Mathlib.Data.List.Basic
import Mathlib.Data.Nat.Basic
import Mathlib.Order.Basic
import Dtp.Lib.Program

/-!
# Reading and writing a buffer in sequence

A cursor stands at a place of a buffer. Programs read what follows it, or overwrite that, and
move it along. A reader and a writer fit together if the reader reads what the writer writes;
readers of unknown input are followed by how far they come.

## Main definitions

* `Cursor` — a buffer with a place in it
* `Cursor.take`, `Cursor.overwrite` — reading and writing
* `Cursor.Reads` — a program reads an input, in front of a rest, as a value
* `Cursor.Writes`, `Cursor.Fills`, `Cursor.FillsAs` — a program writes an output, if there is room
* `Cursor.Parses` — on every input, a program reads some elements or fails in order
* `Cursor.collect` — the loop that reads until nothing is left

## Main results

* `Cursor.Reads.bind`, `Cursor.Writes.bind`, `Cursor.Parses.bind` — sequences
* `Cursor.Parses.collect` — the loop ends
-/

namespace Dtp.Lib

/-- A buffer with a place in it. -/
structure Cursor (α : Type) where
  before : List α
  after : List α

namespace Cursor

variable {ε α β γ : Type}

/-- Reads the next `n` elements. -/
def take (short : ε) (n : ℕ) : Program ε (Cursor α) (List α) := do
  let b ← get
  if b.after.length < n then Program.fail short
  else
    set (⟨b.before ++ b.after.take n, b.after.drop n⟩ : Cursor α)
    pure (b.after.take n)

/-- Overwrites the next elements. -/
def overwrite (short : ε) (output : List α) : Program ε (Cursor α) Unit := do
  let b ← get
  if b.after.length < output.length then Program.fail short
  else set (⟨b.before ++ output, b.after.drop output.length⟩ : Cursor α)

/-! ### Reading what was written -/

/-- In front of `rest`, the program reads `input` as `b`. -/
def Reads (x : Program ε (Cursor α) β) (input rest : List α) (b : β) : Prop :=
  ∀ before, x ⟨before, input ++ rest⟩ = .ok b ⟨before ++ input, rest⟩

section Reads

variable {x : Program ε (Cursor α) β} {input rest : List α} {b : β}

theorem Reads.pure (rest : List α) (b : β) : Reads (pure b : Program ε (Cursor α) β) [] rest b := by
  intro before
  rw [List.append_nil]
  rfl

/-- What is read in a row. -/
theorem Reads.bind {f : β → Program ε (Cursor α) γ} {input' : List α} {c : γ}
    (hx : Reads x input (input' ++ rest) b) (hf : Reads (f b) input' rest c) :
    Reads (x >>= f) (input ++ input') rest c := by
  intro before
  rw [List.append_assoc, Program.bind_apply, hx before, ← List.append_assoc]
  exact hf _

/-- A function of what is read. -/
theorem Reads.map {f : β → γ} (hx : Reads x input rest b) : Reads (f <$> x) input rest (f b) := by
  intro before
  rw [Program.map_apply, hx before]

/-- The last part of a reader. -/
theorem Reads.last {f : β → γ} (hx : Reads x input rest b) :
    Reads (do let b ← x; Pure.pure (f b)) input rest (f b) := by
  intro before
  rw [Program.bind_apply, hx before]
  rfl

/-- As many items are read as there are. -/
theorem reads_take (short : ε) (input rest : List α) :
    Reads (take short input.length) input rest input := by
  intro before
  have hroom : ¬ (input ++ rest).length < input.length := by simp
  rw [take, Program.bind_apply, Program.get_apply]
  dsimp only
  rw [if_neg hroom]
  simp [Program.bind_apply]

theorem reads_take_of_eq (short : ε) {n : ℕ} (h : input.length = n) (rest : List α) :
    Reads (take short n) input rest input := h ▸ reads_take short input rest

end Reads

/-- The program writes `output` over what follows, if there is room. -/
def Writes (x : Program ε (Cursor α) Unit) (output : List α) : Prop :=
  ∀ before after, output.length ≤ after.length →
    x ⟨before, after⟩ = .ok () ⟨before ++ output, after.drop output.length⟩

section Writes

variable {x y : Program ε (Cursor α) Unit} {output output' : List α}

theorem Writes.pure : Writes (pure () : Program ε (Cursor α) Unit) ([] : List α) := by
  intro before after _
  rw [List.append_nil]
  rfl

/-- What is written in a row. -/
theorem Writes.bind (hx : Writes x output) (hy : Writes y output') :
    Writes (do x; y) (output ++ output') := by
  intro before after hroom
  rw [List.length_append] at hroom
  rw [Program.bind_apply, hx before after (by omega)]
  dsimp only
  rw [hy _ _ (by rw [List.length_drop]; omega), List.append_assoc, List.drop_drop,
    List.length_append]

/-- The last part of a writer, where the output ends with an empty part. -/
theorem Writes.last (hx : Writes x output) : Writes x (output ++ []) := by rwa [List.append_nil]

/-- Items are written as they are. -/
theorem writes_overwrite (short : ε) (output : List α) :
    Writes (overwrite short output) output := by
  intro before after hroom
  simp [overwrite, Program.bind_apply, Nat.not_lt.mpr hroom]

/-- What a loop writes. -/
theorem Writes.forM {f : β → Program ε (Cursor α) PUnit} {g : β → List α} {l : List β}
    (h : ∀ b ∈ l, Writes (f b) (g b)) : Writes (forM l f) (l.flatMap g) := by
  induction l with
  | nil => exact .pure
  | cons b l ih =>
    have hrest := ih fun c hc => h c (List.mem_cons_of_mem b hc)
    exact (h b List.mem_cons_self).bind hrest

end Writes

/-- The program writes `output` over what follows, or fails where there is no room. -/
structure Fills (short : ε) (x : Program ε (Cursor α) Unit) (output : List α) : Prop where
  writes : Writes x output
  fails : ∀ before after, after.length < output.length →
    ∃ b, x ⟨before, after⟩ = .error (.error short) b

section Fills

variable {short : ε} {x y : Program ε (Cursor α) Unit} {output output' : List α}

theorem Fills.pure : Fills short (pure () : Program ε (Cursor α) Unit) ([] : List α) where
  writes := .pure
  fails _ _ hroom := absurd hroom (Nat.not_lt_zero _)

/-- What is filled in a row, as far as there is room. -/
theorem Fills.bind (hx : Fills short x output) (hy : Fills short y output') :
    Fills short (do x; y) (output ++ output') where
  writes := hx.writes.bind hy.writes
  fails before after hroom := by
    rw [List.length_append] at hroom
    rw [Program.bind_apply]
    by_cases hfits : output.length ≤ after.length
    · rw [hx.writes before after hfits]
      exact hy.fails _ _ (by rw [List.length_drop]; omega)
    · obtain ⟨b, hb⟩ := hx.fails before after (by omega)
      exact ⟨b, by rw [hb]⟩

/-- Items are written, or there is no room for them. -/
theorem fills_overwrite (short : ε) (output : List α) :
    Fills short (overwrite short output) output where
  writes := writes_overwrite short output
  fails before after hroom := ⟨⟨before, after⟩, by simp [overwrite, Program.bind_apply, hroom]⟩

/-- What may be left out. -/
theorem Fills.when {c : Prop} [Decidable c] (h : c → Fills short x output) :
    Fills short (Program.when c x) (if c then output else []) := by
  unfold Program.when
  split_ifs with hc
  · exact h hc
  · exact .pure

/-- What a loop fills. -/
theorem Fills.forM {f : β → Program ε (Cursor α) PUnit} {g : β → List α} {l : List β}
    (h : ∀ b ∈ l, Fills short (f b) (g b)) : Fills short (forM l f) (l.flatMap g) := by
  induction l with
  | nil => exact .pure
  | cons b l ih =>
    have hrest := ih fun c hc => h c (List.mem_cons_of_mem b hc)
    exact (h b List.mem_cons_self).bind hrest

end Fills

/-- The program writes `output` over what follows and returns `b`, or fails where there is no room.
-/
structure FillsAs (short : ε) (x : Program ε (Cursor α) β) (output : List α) (b : β) : Prop where
  writes : ∀ before after, output.length ≤ after.length →
    x ⟨before, after⟩ = .ok b ⟨before ++ output, after.drop output.length⟩
  fails : ∀ before after, after.length < output.length →
    ∃ b, x ⟨before, after⟩ = .error (.error short) b

section FillsAs

variable {short : ε} {x : Program ε (Cursor α) β} {output output' : List α} {b : β}

theorem FillsAs.pure (b : β) : FillsAs short (pure b : Program ε (Cursor α) β) [] b where
  writes before after _ := by
    rw [List.append_nil]
    rfl
  fails _ _ hroom := absurd hroom (Nat.not_lt_zero _)

/-- What is filled and returned in a row. -/
theorem FillsAs.bind {f : β → Program ε (Cursor α) γ} {c : γ} (hx : FillsAs short x output b)
    (hf : FillsAs short (f b) output' c) : FillsAs short (x >>= f) (output ++ output') c where
  writes before after hroom := by
    rw [List.length_append] at hroom
    rw [Program.bind_apply, hx.writes before after (by omega)]
    dsimp only
    rw [hf.writes _ _ (by rw [List.length_drop]; omega), List.append_assoc, List.drop_drop,
      List.length_append]
  fails before after hroom := by
    rw [List.length_append] at hroom
    rw [Program.bind_apply]
    by_cases hfits : output.length ≤ after.length
    · rw [hx.writes before after hfits]
      exact hf.fails _ _ (by rw [List.length_drop]; omega)
    · obtain ⟨b', hb⟩ := hx.fails before after (by omega)
      exact ⟨b', by rw [hb]⟩

/-- A program that returns nothing fills. -/
theorem FillsAs.fills {x : Program ε (Cursor α) Unit} (h : FillsAs short x output ()) :
    Fills short x output :=
  ⟨h.writes, h.fails⟩

/-- A program that returns nothing fills as well. -/
theorem Fills.fillsAs {x : Program ε (Cursor α) Unit} (h : Fills short x output) :
    FillsAs short x output () :=
  ⟨h.writes, h.fails⟩

/-- A writer that returns how much was written. -/
theorem Fills.counted {x : Program ε (Cursor α) Unit} (h : Fills short x output) :
    FillsAs short (do
      let b ← get
      x
      let b' ← get
      Pure.pure (b.after.length - b'.after.length)) output output.length where
  writes before after hroom := by
    rw [Program.bind_apply, Program.get_apply]
    dsimp only
    rw [Program.bind_apply, h.writes before after hroom]
    dsimp only
    rw [Program.bind_apply, Program.get_apply]
    dsimp only
    rw [Program.pure_apply, List.length_drop, Nat.sub_sub_self hroom]
  fails before after hroom := by
    obtain ⟨b', hb⟩ := h.fails before after hroom
    rw [Program.bind_apply, Program.get_apply]
    dsimp only
    rw [Program.bind_apply, hb]
    exact ⟨b', rfl⟩

/-- The output of a writer is determined. -/
theorem FillsAs.unique {c : β} (h : FillsAs short x output b) (h' : FillsAs short x output' c) :
    output = output' ∧ b = c := by
  have hout := h.writes [] (output ++ output') (by rw [List.length_append]; omega)
  rw [h'.writes [] (output ++ output') (by rw [List.length_append]; omega)] at hout
  injection hout with hvalue hcursor
  injection hcursor with hbefore
  exact ⟨hbefore.symm, hvalue.symm⟩

end FillsAs

/-! ### Reading unknown input -/

/-- The cursor moves on, by at least `n` elements, and the buffer stays. -/
def Advances (n : ℕ) (b b' : Cursor α) : Prop :=
  ∃ taken, n ≤ taken.length ∧ b.after = taken ++ b'.after ∧ b'.before = b.before ++ taken

theorem Advances.refl (b : Cursor α) : b.Advances 0 b := ⟨[], le_rfl, rfl, (List.append_nil _).symm⟩

theorem Advances.trans {n m : ℕ} {b b' b'' : Cursor α} (h : b.Advances n b')
    (h' : b'.Advances m b'') :
    b.Advances (n + m) b'' := by
  obtain ⟨taken, hlen, hafter, hbefore⟩ := h
  obtain ⟨taken', hlen', hafter', hbefore'⟩ := h'
  refine ⟨taken ++ taken', ?_, ?_, ?_⟩
  · rw [List.length_append]
    omega
  · rw [hafter, hafter', List.append_assoc]
  · rw [hbefore', hbefore, List.append_assoc]

theorem Advances.mono {n m : ℕ} {b b' : Cursor α} (h : b.Advances n b') (hle : m ≤ n) :
    b.Advances m b' := by
  obtain ⟨taken, hlen, h⟩ := h
  exact ⟨taken, hle.trans hlen, h⟩

/-- The cursor comes closer to the end. -/
theorem Advances.length {n : ℕ} {b b' : Cursor α} (h : b.Advances n b') :
    b'.after.length + n ≤ b.after.length := by
  obtain ⟨taken, hlen, hafter, -⟩ := h
  rw [hafter, List.length_append]
  omega

/-- On every input of at most `max` elements, the program reads at least `n` of them as a value with
`Q`, or fails with an error; it neither panics nor hangs. -/
def Parses (max : ℕ) (x : Program ε (Cursor α) β) (n : ℕ) (Q : β → Prop) : Prop :=
  ∀ b : Cursor α, b.after.length ≤ max →
    x.Ends b (fun a b' => Q a ∧ b.Advances n b') fun e b' => (∃ err, e = .error err) ∧
      b.Advances 0 b'

section Parses

variable {x : Program ε (Cursor α) β} {max n m : ℕ} {Q : β → Prop}

theorem Parses.pure {b : β} (h : Q b) : Parses max (pure b : Program ε (Cursor α) β) 0 Q :=
  fun b _ => ⟨h, .refl b⟩

/-- A program that fails parses anything. -/
theorem Parses.fail (e : ε) : Parses max (Program.fail e : Program ε (Cursor α) β) n Q :=
  fun b _ => ⟨⟨e, rfl⟩, .refl b⟩

theorem Parses.mono (h : Parses max x n Q) {Q' : β → Prop} (hQ : ∀ b, Q b → Q' b) (hle : m ≤ n) :
    Parses max x m Q' := fun b hmax =>
  (h b hmax).mono (fun a _ ha => ⟨hQ a ha.1, ha.2.mono hle⟩) fun _ _ he => he

/-- What is parsed in a row. -/
theorem Parses.bind {f : β → Program ε (Cursor α) γ} {R : γ → Prop} (hx : Parses max x n Q)
    (hf : ∀ b, Q b → Parses max (f b) m R) : Parses max (x >>= f) (n + m) R := by
  intro b hmax
  rw [Program.ends_bind]
  refine (hx b hmax).mono (fun a b' ha => ?_) fun _ _ he => he
  have hmax' : b'.after.length ≤ max := by
    have := ha.2.length
    omega
  refine (hf a ha.1 b' hmax').mono (fun c b'' hc => ⟨hc.1, ha.2.trans hc.2⟩) fun e b'' he =>
    ⟨he.1, ?_⟩
  exact (ha.2.trans he.2).mono (Nat.zero_le _)

/-- A sequence, where it does not matter how far it comes. -/
theorem Parses.andThen {f : β → Program ε (Cursor α) γ} {R : γ → Prop} (hx : Parses max x n Q)
    (hf : ∀ b, Q b → Parses max (f b) m R) : Parses max (x >>= f) 0 R :=
  (hx.bind hf).mono (fun _ hc => hc) (Nat.zero_le _)

/-- A function of what is parsed. -/
theorem Parses.map {f : β → γ} {R : γ → Prop} (hx : Parses max x n Q) (hf : ∀ b, Q b → R (f b)) :
    Parses max (f <$> x) n R := by
  intro b hmax
  rw [Program.ends_map]
  exact (hx b hmax).mono (fun a _ ha => ⟨hf a ha.1, ha.2⟩) fun _ _ he => he

/-- Both branches parse. -/
theorem Parses.ite {c : Prop} [Decidable c] {y : Program ε (Cursor α) β} (hx : c → Parses max x n Q)
    (hy : ¬ c → Parses max y n Q) : Parses max (if c then x else y) n Q := by
  split_ifs with h
  · exact hx h
  · exact hy h

theorem parses_get : Parses max (get : Program ε (Cursor α) (Cursor α)) 0 fun b =>
    b.after.length ≤ max :=
  fun b hmax => ⟨hmax, .refl b⟩

/-- As many items are parsed as asked for. -/
theorem parses_take (short : ε) (n : ℕ) :
    Parses max (take short n : Program ε (Cursor α) (List α)) n fun l => l.length = n := by
  intro b _
  rw [take, Program.ends_bind, Program.ends_get]
  refine Program.ends_ite.mpr ⟨fun _ => ⟨⟨short, rfl⟩, .refl b⟩, fun hroom => ?_⟩
  have hlen : (b.after.take n).length = n := by
    rw [List.length_take]
    omega
  exact ⟨hlen, b.after.take n, hlen.ge, (List.take_append_drop n _).symm, rfl⟩

/-- Reads values until nothing is left, and returns them with the fault that ended this early. -/
def collect (x : Program ε (Cursor α) β) : ℕ → Cursor α → List β × Option (Fault ε)
  | 0, b => ([], if b.after.isEmpty then none else some .hang)
  | fuel + 1, b =>
    if b.after.isEmpty then ([], none)
    else
      match x b with
      | .ok a b' =>
        let (as, fault) := collect x fuel b'
        (a :: as, fault)
      | .error e _ => ([], some e)

/-- If every value takes an element, the loop ends, after the last value or with an error. -/
theorem Parses.collect (h : Parses max x (n + 1) Q) {fuel : ℕ} {b : Cursor α}
    (hmax : b.after.length ≤ max)
    (hfuel : b.after.length ≤ fuel) :
    (∀ a ∈ (collect x fuel b).1, Q a) ∧
      ∀ fault, (Cursor.collect x fuel b).2 = some fault → ∃ err, fault = .error err := by
  induction fuel generalizing b with
  | zero =>
    have hnil : b.after = [] := List.length_eq_zero_iff.mp (Nat.le_zero.mp hfuel)
    simp [Cursor.collect, hnil]
  | succ fuel ih =>
    unfold Cursor.collect
    split_ifs
    · simp
    · cases hx : x b with
      | ok a b' =>
        obtain ⟨hQ, hadvances⟩ := (h b hmax).ok hx
        have hshorter := hadvances.length
        have hrest := @ih b' (by omega) (by omega)
        dsimp only
        exact ⟨List.forall_mem_cons.mpr ⟨hQ, hrest.1⟩, hrest.2⟩
      | error e b' => exact ⟨nofun, fun fault heq => Option.some.inj heq ▸ ((h b hmax).error hx).1⟩

end Parses

end Cursor

end Dtp.Lib
