import Dtp.H3.Stream

/-!
# The order of frames on a stream

On the control stream of the peer SETTINGS comes first, and only once. On a request stream
HEADERS should come first, but the check is missing: frames of other types are let through.

## Main definitions

* `H3.Stream.Opened` — a control or request stream that the peer has opened
* `H3.Stream.Accepts` — frames of these types may arrive on the stream
* `H3.OrderedControl`, `H3.OrderedRequest` — the rules for the two streams

## Main results

* `H3.Stream.accepts_control_iff` — the rule for the control stream is the one that is checked
* `H3.Stream.accepts_request_iff` — what is checked on a request stream
* `H3.Stream.accepts_iff_ordered_iff` — where the two agree
-/

namespace Dtp.H3

open Lib (Program)

/-- The streams that the rules are about. -/
inductive StreamKind
  | control
  | request
  deriving DecidableEq

/-- The types of frames that are never allowed on a request stream. -/
def neverOnRequest (ty : ℕ) : Bool :=
  ty == cancelPushFrameTypeId || ty == settingsFrameTypeId || ty == goawayFrameTypeId || ty ==
    maxPushFrameTypeId

/-- The types of frames that are not allowed behind SETTINGS on the control stream. -/
def neverOnControl (ty : ℕ) : Bool :=
  ty == settingsFrameTypeId || ty == dataFrameTypeId || ty == headersFrameTypeId ||
    ty == pushPromiseFrameTypeId || ty == duplicatePushFrameTypeId

/-- The type of a frame that is not reserved or unknown. -/
def knownType (ty : ℕ) : Bool :=
  ty == dataFrameTypeId || ty == headersFrameTypeId || ty == cancelPushFrameTypeId ||
    ty == settingsFrameTypeId || ty == pushPromiseFrameTypeId || ty == goawayFrameTypeId ||
    ty == maxPushFrameTypeId || ty == duplicatePushFrameTypeId

/-- SETTINGS comes first and only once, and nothing follows that belongs on other streams. -/
def OrderedControl : List ℕ → Prop
  | [] => True
  | ty :: tys => ty = settingsFrameTypeId ∧ ∀ t ∈ tys, neverOnControl t = false

/-- The first frame of a known type is HEADERS, and nothing comes that belongs on other streams. -/
def OrderedRequest (tys : List ℕ) : Prop :=
  (∀ t ∈ tys, neverOnRequest t = false) ∧ ∀ t, tys.find? knownType = some t → t = headersFrameTypeId

/-- The rule for a stream. -/
def Ordered : StreamKind → List ℕ → Prop
  | .control => OrderedControl
  | .request => OrderedRequest

namespace Stream

/-- A stream that the peer has opened, before the first frame. -/
def Opened (kind : StreamKind) (s : Stream) : Prop :=
  match kind with
  | .control => ∃ id, isBidi id = false ∧ setTy .control (new id false) = .ok () s
  | .request => ∃ id, isBidi id = true ∧ s = new id false

/-- A frame of the type arrives and is consumed. -/
def arrive (ty : ℕ) : Program Error Stream Unit := do
  setFrameType ty
  stateTransition .frameType 1 true

/-- Frames of these types may arrive one after the other. -/
def Accepts (s : Stream) (tys : List ℕ) : Prop := ∃ s', forM tys arrive s = .ok () s'

/-- A stream between two frames. -/
structure Between (ty : StreamType) (initialized : Bool) (s : Stream) : Prop where
  state : s.state = .frameType
  ty : s.ty = some ty
  initialized : s.initialized = initialized
  remote : s.isLocal = false

/-- The stream behind a frame. -/
def behind (s : Stream) (ty : ℕ) (initialized : Bool) : Stream :=
  { s with
    initialized := initialized, frameType := some ty, state := .frameType, stateOff :=
      0, stateLen := 1,
    stateBuf := resize (resize s.stateBuf 1) 1 }

section Between

variable {ty : StreamType} {initialized : Bool} {s : Stream}

theorem Between.assertState (h : s.Between ty initialized) :
    assertState .frameType s = .ok () s := by
  rw [Stream.assertState, Program.bind_apply, Program.get_apply]
  dsimp only
  rw [if_pos h.state]
  rfl

/-- A frame whose type fails the check is not accepted. -/
theorem Between.rejects (h : s.Between ty initialized) {t : ℕ} {err : Error}
    (hcheck : s.checkFrameType t = .error err) (tys : List ℕ) : ¬ s.Accepts (t :: tys) := by
  rintro ⟨s', hrun⟩
  have harrive : arrive t s = .error (.error err) s := by
    simp only [arrive, setFrameType, Program.bind_apply, h.assertState, Program.get_apply, hcheck,
      Program.ofExcept_error, Program.fail_apply]
  change (arrive t >>= fun _ => forM tys arrive) s = _ at hrun
  rw [Program.bind_apply, harrive] at hrun
  cases hrun

/-- Behind a frame whose type passes the check, the stream is again between two frames. -/
theorem Between.passes (h : s.Between ty initialized) {t : ℕ} {initialized' : Bool}
    (hcheck : s.checkFrameType t = .ok initialized') : ∃ s' : Stream, s'.Between ty initialized' ∧
      ∀ tys, s.Accepts (t :: tys) ↔ s'.Accepts tys := by
  have harrive : arrive t s = .ok () (s.behind t initialized') := by
    simp only [arrive, setFrameType, Program.bind_apply, h.assertState, Program.get_apply, hcheck,
      Program.ofExcept_ok, Program.pure_apply, Program.set_apply]
    rfl
  refine ⟨s.behind t initialized', ⟨rfl, h.ty, rfl, h.remote⟩, fun tys => ?_⟩
  have hrun : forM (t :: tys) arrive s = forM tys arrive (s.behind t initialized') := by
    change (arrive t >>= fun _ => forM tys arrive) s = _
    rw [Program.bind_apply, harrive]
  rw [Accepts, hrun]
  exact Iff.rfl

theorem Between.accepts_nil (_ : s.Between ty initialized) : s.Accepts [] := ⟨s, rfl⟩

/-- Where the check is the same for all frames, it is the rule for their sequence. -/
theorem Between.accepts_iff_forall (h : s.Between ty initialized) {never : ℕ → Bool}
    (hcheck : ∀ {i : Bool} {s : Stream} t, Between ty i s → (initialized = true → i = true) →
      (never t = true →
      ∃ err, s.checkFrameType t = .error err) ∧ (never t = false →
        ∃ i', s.checkFrameType t = .ok i' ∧ (i = true → i' = true))) (tys : List ℕ) :
    s.Accepts tys ↔ ∀ t ∈ tys, never t = false := by
  suffices hall : ∀ {i : Bool} {s : Stream}, Between ty i s → (initialized = true → i = true) →
      (s.Accepts tys ↔ ∀ t ∈ tys, never t = false) from hall h fun hinit => hinit
  induction tys with
  | nil => exact fun hbetween _ => iff_of_true hbetween.accepts_nil nofun
  | cons t tys ih =>
    intro i s hbetween hi
    obtain ⟨hrejects, hpasses⟩ := hcheck t hbetween hi
    rw [List.forall_mem_cons]
    cases hnever : never t with
    | true =>
      obtain ⟨err, herr⟩ := hrejects hnever
      exact iff_of_false (hbetween.rejects herr tys) (by simp)
    | false =>
      obtain ⟨i', hok, hi'⟩ := hpasses hnever
      obtain ⟨s', hbetween', hrest⟩ := hbetween.passes hok
      rw [hrest, ih hbetween' fun hinit => hi' (hi hinit)]
      simp

/-- Behind SETTINGS, the check on the control stream. -/
theorem Between.accepts_control_iff (h : s.Between .control true) (tys : List ℕ) :
    s.Accepts tys ↔ ∀ t ∈ tys, neverOnControl t = false := by
  refine h.accepts_iff_forall (fun {i s} t hbetween hi => ?_) tys
  have hcheck : s.checkFrameType t =
      if neverOnControl t then .error .frameUnexpected else .ok true := by
    unfold checkFrameType
    rw [hbetween.ty, hbetween.initialized, hi rfl]
    dsimp only
    split <;> simp_all [neverOnControl]
  rw [hcheck]
  exact ⟨fun hnever => ⟨_, if_pos hnever⟩, fun hnever =>
    ⟨true, if_neg (by simp [hnever]), fun _ => rfl⟩⟩

/-- The check on a request stream does not depend on what came before. -/
theorem Between.accepts_request_iff (h : s.Between .request initialized) (tys : List ℕ) :
    s.Accepts tys ↔ ∀ t ∈ tys, neverOnRequest t = false := by
  refine h.accepts_iff_forall (fun {i s} t hbetween hi => ?_) tys
  have hcheck : ∃ i', s.checkFrameType t =
    (if neverOnRequest t then .error .frameUnexpected else .ok i') ∧
      (i = true → i' = true) := by
    unfold checkFrameType
    rw [hbetween.ty, hbetween.initialized, hbetween.remote]
    dsimp only
    rw [if_neg Bool.false_ne_true]
    cases i with
    | true =>
      refine ⟨true, ?_, fun _ => rfl⟩
      split <;> simp_all [neverOnRequest]
    | false =>
      refine ⟨t == headersFrameTypeId, ?_, nofun⟩
      split <;> simp_all [neverOnRequest]
  obtain ⟨i', hcheck, hi'⟩ := hcheck
  rw [hcheck]
  exact ⟨fun hnever => ⟨_, if_pos hnever⟩, fun hnever => ⟨i', if_neg (by simp [hnever]), hi'⟩⟩

end Between

section Opened

variable {s : Stream}

theorem Opened.control (h : Opened .control s) : s.Between .control false := by
  obtain ⟨id, huni, hset⟩ := h
  have hstate : (new id false).state = .streamType := by simp [new, huni]
  have hassert : assertState .streamType (new id false) = .ok () (new id false) := by
    rw [assertState, Program.bind_apply, Program.get_apply]
    dsimp only
    rw [if_pos hstate]
    rfl
  rw [setTy, Program.bind_apply, hassert] at hset
  cases hset
  exact ⟨rfl, rfl, rfl, rfl⟩

theorem Opened.request (h : Opened .request s) : s.Between .request false := by
  obtain ⟨id, hbidi, rfl⟩ := h
  exact ⟨by simp [new, hbidi], by simp [new, hbidi], rfl, rfl⟩

/-- What is checked on the control stream is its rule. -/
theorem accepts_control_iff (h : Opened .control s) (tys : List ℕ) :
    s.Accepts tys ↔ OrderedControl tys := by
  have hbetween := h.control
  cases tys with
  | nil => exact iff_of_true hbetween.accepts_nil trivial
  | cons t tys =>
    have hcheck : s.checkFrameType t = if t =
        settingsFrameTypeId then .ok true else .error .missingSettings := by
      unfold checkFrameType
      rw [hbetween.ty, hbetween.initialized]
      dsimp only
      split <;> simp_all
    by_cases hsettings : t = settingsFrameTypeId
    · rw [if_pos hsettings] at hcheck
      obtain ⟨s', hbetween', hrest⟩ := hbetween.passes hcheck
      rw [hrest, hbetween'.accepts_control_iff, OrderedControl]
      exact (and_iff_right hsettings).symm
    · rw [if_neg hsettings] at hcheck
      exact iff_of_false (hbetween.rejects hcheck tys) fun hordered => hsettings hordered.1

/-- What is checked on a request stream does not include the type of the first frame. -/
theorem accepts_request_iff (h : Opened .request s) (tys : List ℕ) :
    s.Accepts tys ↔ ∀ t ∈ tys, neverOnRequest t = false :=
  h.request.accepts_request_iff tys

/-- The rule is checked exactly, except on a request stream where no frame is unexpected but the
first one of a known type is not HEADERS. -/
theorem accepts_iff_ordered_iff {kind : StreamKind} (h : Opened kind s) (tys : List ℕ) :
    (s.Accepts tys ↔ Ordered kind tys) ↔
      ¬ (kind = .request ∧ (∀ t ∈ tys, neverOnRequest t = false) ∧
      ∃ t, tys.find? knownType = some t ∧ t ≠ headersFrameTypeId) := by
  cases kind with
  | control => exact iff_of_true (accepts_control_iff h tys) (by simp)
  | request =>
    rw [accepts_request_iff h, Ordered, OrderedRequest]
    simp only [iff_self_and, true_and, not_and, not_exists, not_not]

/-- A request stream that starts with HEADERS. -/
theorem accepts_headers : ∃ s :
    Stream, (s.Accepts [headersFrameTypeId] ↔ Ordered .request [headersFrameTypeId]) ↔
    ¬ (StreamKind.request = .request ∧ (∀ t ∈ [headersFrameTypeId], neverOnRequest t = false) ∧
      ∃ t, [headersFrameTypeId].find? knownType = some t ∧ t ≠ headersFrameTypeId) :=
  ⟨new 0 false, @accepts_iff_ordered_iff _ .request ⟨0, rfl, rfl⟩ [headersFrameTypeId]⟩

/-- DATA in front of HEADERS is accepted. -/
theorem not_accepts_iff_ordered : ¬ ∀ (kind : StreamKind) (s : Stream)
    (tys : List ℕ), Opened kind s →
    (s.Accepts tys ↔ Ordered kind tys) := by
  intro hall
  have haccepts : (new 0 false).Accepts [dataFrameTypeId] := ⟨_, rfl⟩
  obtain ⟨-, hfirst⟩ := (hall .request (new 0 false) [dataFrameTypeId] ⟨0, rfl, rfl⟩).mp haccepts
  exact absurd (hfirst dataFrameTypeId rfl) (by decide)

end Opened

end Stream

end Dtp.H3
