import Dtp.Cc.Bbr.Operations

/-!
# How BBR leaves STARTUP

BBR looks for full bandwidth in rounds. A round in which the bandwidth has grown enough is meant
to start the count anew, from zero. But the check returns there only if old measurements of acks
are expired too; else the round of growth counts as one without growth.

## Main definitions

* `Bbr.Search`, `Bbr.Search.observe` — the search for full bandwidth and what a round does to it
* `Bbr.Searching` — BBR with a record of its rounds
* `Bbr.Searching.OnPlateau` — full bandwidth is reached on a plateau, and growth resets the count
* `Bbr.Searching.ExpiresOnGrowth` — old measurements are expired in every round of growth

## Main results

* `Bbr.search_bbrEndAck` — what the end of an ack does to the search
* `Bbr.Searching.onPlateau_iff` — the rule is kept exactly if every round of growth expires old
  measurements
-/

namespace Dtp.Cc.Bbr

/-! ### The search for full bandwidth -/

/-- The part of the state that is about full bandwidth. -/
structure Search where
  roundWoBwGain : ℕ
  bwAtLastRound : ℕ
  isAtFullBandwidth : Bool

/-- The search for full bandwidth. -/
def search (s : Bbr) : Search := ⟨s.roundWoBwGain, s.bwAtLastRound, s.flags.isAtFullBandwidth⟩

/-- Whether a bandwidth has grown enough beyond another one. -/
def Grown (F : Floats) (before bw : ℕ) : Prop := F.times before kStartupGrowthTarget ≤ bw

instance (F : Floats) (before bw : ℕ) : Decidable (Grown F before bw) :=
  inferInstanceAs (Decidable (F.times before kStartupGrowthTarget ≤ bw))

/-- Counts a round. The last one reaches full bandwidth. -/
def Search.count (q : Search) : Search :=
  ⟨q.roundWoBwGain + 1, q.bwAtLastRound,
    q.isAtFullBandwidth || numStartupRtts ≤ q.roundWoBwGain + 1⟩

/-- What a round with a bandwidth does. A round of growth is not counted if it expires old
measurements. -/
def Search.observe (F : Floats) (q : Search) (expires : Bool) (bw : ℕ) : Search :=
  if Grown F q.bwAtLastRound bw then
    let q : Search := ⟨0, bw, q.isAtFullBandwidth⟩
    if expires then q else q.count
  else q.count

/-- The bandwidth of the round that an operation checks, if it does. -/
def checkedRound (s : Bbr) : Operation → Option (Floats × ℕ)
  | .bbrEndAck F _ _ =>
    match s.endAckModel F with
    | .ok (t, o) =>
      if o.isRoundStart ∧ ¬ t.flags.isAtFullBandwidth ∧ ¬ t.flags.lastSampleAppLimited then
        some (F, t.maxBandwidth.minmaxGet)
      else none
    | .error _ => none
  | _ => none

variable {F : Floats} {s s' t : Bbr} {op : Operation} {o : AckOutcome}

theorem search_countRoundWoBwGain (h : s.countRoundWoBwGain = .ok s')
    (hexit : s.flags.exitStartupOnLoss = false) :
    s'.search = s.search.count := by
  have hlast : (numStartupRtts ≤ s.roundWoBwGain + 1 ∨ s.flags.exitStartupOnLoss ∧ s.inRecovery) ↔
      numStartupRtts ≤ s.roundWoBwGain + 1 := by simp [hexit]
  rw [countRoundWoBwGain_spec h]
  unfold search Search.count
  dsimp only
  rw [decide_eq_decide.mpr hlast]

/-- What the check for full bandwidth does to the search. -/
theorem search_checkRound {isRoundStart : Bool} (h : s.checkRound F isRoundStart = .ok s')
    (hexit : s.flags.exitStartupOnLoss = false) :
    s'.search =
      if isRoundStart ∧ ¬ s.flags.isAtFullBandwidth ∧ ¬ s.flags.lastSampleAppLimited then
        s.search.observe F s.flags.expireAckAggInStartup s.maxBandwidth.minmaxGet
      else s.search := by
  unfold checkRound at h
  split_ifs at h with hcheck
  · unfold checkIfFullBwReached at h
    dsimp only at h
    split_ifs at h with happ hgrown hexpires
    · cases h
      rw [if_neg fun hround => hround.2.2 happ]
    · cases h
      have hgrown' : Grown F s.bwAtLastRound s.maxBandwidth.minmaxGet := of_decide_eq_true hgrown
      rw [if_pos ⟨hcheck.1, hcheck.2, happ⟩, hexpires]
      exact (if_pos hgrown').symm
    · have hgrown' : Grown F s.bwAtLastRound s.maxBandwidth.minmaxGet := of_decide_eq_true hgrown
      rw [if_pos ⟨hcheck.1, hcheck.2, happ⟩, Bool.eq_false_of_not_eq_true hexpires,
        search_countRoundWoBwGain h hexit]
      exact (if_pos hgrown').symm
    · have hgrown' : ¬ Grown F s.bwAtLastRound s.maxBandwidth.minmaxGet := fun h => hgrown
        (decide_eq_true h)
      rw [if_pos ⟨hcheck.1, hcheck.2, happ⟩, search_countRoundWoBwGain h hexit]
      exact (if_neg hgrown').symm
  · cases h
    rw [if_neg fun hround => hcheck ⟨hround.1, hround.2.1⟩]

/-- What the windows leave alone. -/
theorem search_windows (s : Bbr) (bytesAcked excessAcked bytesLost bytesInFlight : ℕ) :
    let s' := (s.calculateCwnd F bytesAcked excessAcked).calculateRecoveryWindow bytesAcked
      bytesLost bytesInFlight
    s'.search = s.search ∧ s'.flags = s.flags := by
  unfold calculateCwnd calculateRecoveryWindow
  dsimp only
  split_ifs <;> exact ⟨rfl, rfl⟩

/-- The model of the path is not about full bandwidth. -/
theorem search_endAckModel (h : s.endAckModel F = .ok (s', o)) :
    s'.search = s.search ∧ s'.flags.exitStartupOnLoss = s.flags.exitStartupOnLoss ∧
      s'.flags.expireAckAggInStartup = s.flags.expireAckAggInStartup := by
  obtain ⟨_, _, _, _, _, hcore⟩ := endAckModel_core h
  have hsearch := congrArg search hcore
  have hflags := congrArg flags hcore
  have hexit := congrArg BbrFlags.exitStartupOnLoss hflags
  have hexpires := congrArg BbrFlags.expireAckAggInStartup hflags
  exact ⟨hsearch, hexit, hexpires⟩

/-- What the end of an ack does to the search. -/
theorem search_bbrEndAck {bytesInFlight random : ℕ}
    (h : s.bbrEndAck F bytesInFlight random = .ok s')
    (hexit : s.flags.exitStartupOnLoss = false) :
    s'.flags.exitStartupOnLoss = false ∧
      s'.search =
        match s.checkedRound (.bbrEndAck F bytesInFlight random) with
        | some (F, bw) => s.search.observe F s.flags.expireAckAggInStartup bw
        | none => s.search := by
  obtain ⟨t, o, hbefore, rfl⟩ := bbrEndAck_spec h
  obtain ⟨hsearch, hflags⟩ :=
    search_windows (F := F) t o.bytesAcked o.excessAcked t.ackState.lostBytes
    bytesInFlight
  obtain ⟨s₁, s₂, hmodel, hcheck, gain, -, hcore⟩ := beforeWindows_spec hbefore
  obtain ⟨hsearch₁, hexit₁, hexpires₁⟩ := search_endAckModel hmodel
  obtain ⟨_, _, _, hcycle⟩ := maybeUpdateGainCyclePhase_eq (F := F) s₁ bytesInFlight
  have hround : s.checkedRound (.bbrEndAck F bytesInFlight random) =
      if o.isRoundStart ∧ ¬ s₁.flags.isAtFullBandwidth ∧ ¬ s₁.flags.lastSampleAppLimited then
        some (F, s₁.maxBandwidth.minmaxGet)
      else none := by
    unfold checkedRound
    dsimp only
    rw [hmodel]
  have hlast := congrArg search hcore
  have hlastFlags := congrArg (fun s => s.flags.exitStartupOnLoss) hcore
  change t.search = s₂.search at hlast
  change t.flags.exitStartupOnLoss = s₂.flags.exitStartupOnLoss at hlastFlags
  rw [hcycle] at hcheck
  have hsame : s₂.flags.exitStartupOnLoss = s₁.flags.exitStartupOnLoss := by
    obtain ⟨_, _, _, _, rfl⟩ := checkRound_eq hcheck
    rfl
  have hchecked := search_checkRound hcheck (hexit₁.trans hexit)
  change s₂.search = if o.isRoundStart ∧ ¬ s₁.flags.isAtFullBandwidth ∧
      ¬ s₁.flags.lastSampleAppLimited then
    s₁.search.observe F s₁.flags.expireAckAggInStartup s₁.maxBandwidth.minmaxGet
      else s₁.search at hchecked
  refine ⟨?_, ?_⟩
  · rw [hflags, hlastFlags, hsame, hexit₁, hexit]
  · rw [hsearch, hlast, hchecked, hround, hsearch₁, hexpires₁]
    split_ifs <;> rfl

/-! ### Runs -/

/-- BBR, with the bandwidth when it last grew, and the rounds without growth since then. -/
structure Searching where
  bbr : Bbr
  grownTo : ℕ
  plateau : ℕ

namespace Searching

/-- The record after an operation. -/
def record (w : Searching) (op : Operation) (bbr : Bbr) : Searching :=
  match w.bbr.checkedRound op with
  | some (F, bw) =>
    if Grown F w.grownTo bw then { bbr, grownTo := bw, plateau := 0 }
    else { w with bbr, plateau := w.plateau + 1 }
  | none => { w with bbr }

/-- Loss does not trigger the exit from STARTUP, and full bandwidth is not set from outside. -/
def permits (w : Searching) : Operation → Bool
  | .setFlags flags =>
    flags.exitStartupOnLoss = false ∧ flags.isAtFullBandwidth = w.bbr.flags.isAtFullBandwidth
  | _ => true

/-- The state and the record after an operation, if it is permitted and nothing panics. -/
def step (w : Searching) (op : Operation) : Option Searching :=
  if w.permits op then (Bbr.step w.bbr op).map (w.record op) else none

/-- No round has ended. -/
def new (t0 : ℕ) : Searching := ⟨Bbr.new t0, 0, 0⟩

/-- The bandwidth is full only after enough rounds without growth, and a round of growth resets the
count. -/
structure OnPlateau (w : Searching) (op : Operation) : Prop where
  exit {w' : Searching} (hstep : w.step op = some w')
    (hbefore : w.bbr.flags.isAtFullBandwidth = false)
    (hafter : w'.bbr.flags.isAtFullBandwidth = true) : numStartupRtts ≤ w'.plateau
  reset {w' : Searching} (hstep : w.step op = some w') {F : Floats} {bw : ℕ}
    (hround : w.bbr.checkedRound op = some (F, bw)) (hgrown : Grown F w.grownTo bw) :
    w'.bbr.roundWoBwGain = 0

/-- A round of growth expires old measurements. -/
def ExpiresOnGrowth (w : Searching) (op : Operation) : Prop :=
  ∀ w', w.step op = some w' → ∀ F bw, w.bbr.checkedRound op = some (F, bw) → Grown F w.grownTo bw →
    w.bbr.flags.expireAckAggInStartup = true

/-- The controller counts what the record does. -/
structure Tracks (w : Searching) : Prop where
  count : w.bbr.roundWoBwGain = w.plateau
  reference : w.bbr.bwAtLastRound = w.grownTo
  exitStartupOnLoss : w.bbr.flags.exitStartupOnLoss = false

variable {w w' : Searching}

private theorem tracks_new (t0 : ℕ) : Tracks (new t0) := ⟨rfl, rfl, rfl⟩

/-- What a step does to the search. -/
theorem Tracks.search_step (h : Tracks w) (hstep : w.step op = some w') :
    w'.bbr.flags.exitStartupOnLoss = false ∧ w' = w.record op w'.bbr ∧
      w'.bbr.search =
        match w.bbr.checkedRound op with
        | some (F, bw) => w.bbr.search.observe F w.bbr.flags.expireAckAggInStartup bw
        | none => w.bbr.search := by
  unfold step at hstep
  split_ifs at hstep with hpermits
  obtain ⟨bbr, hbbr, rfl⟩ := Option.map_eq_some_iff.mp hstep
  have hsame : (w.record op bbr).bbr = bbr := by
    unfold record
    split
    · split_ifs <;> rfl
    · rfl
  rw [hsame]
  have hhandle := Lib.toOption_eq_some.mp hbbr
  cases hends : op.endsAck with
  | true =>
    cases op with
    | bbrEndAck F bytesInFlight random =>
      obtain ⟨hexit, hsearch⟩ := search_bbrEndAck hhandle h.exitStartupOnLoss
      exact ⟨hexit, rfl, hsearch⟩
    | _ => cases hends
  | false =>
    have hnone : w.bbr.checkedRound op = none := by
      cases op <;> first | rfl | cases hends
    rw [hnone]
    rcases handle_spec hhandle hends with ⟨flags, rfl, rfl⟩ | hwaits
    · obtain ⟨hexit, hfull⟩ := of_decide_eq_true hpermits
      refine ⟨hexit, rfl, ?_⟩
      unfold search
      dsimp only
      rw [hfull]
    · refine ⟨hwaits.exitStartupOnLoss.trans h.exitStartupOnLoss, rfl, ?_⟩
      unfold search
      rw [hwaits.roundWoBwGain, hwaits.bwAtLastRound, hwaits.isAtFullBandwidth]

/-- Without a round, search and record stay. -/
theorem Tracks.search_of_none (h : Tracks w) (hstep : w.step op = some w')
    (hround : w.bbr.checkedRound op = none) :
    w'.bbr.search = w.bbr.search ∧ w'.grownTo = w.grownTo ∧ w'.plateau = w.plateau := by
  obtain ⟨-, hrecord, hsearch⟩ := h.search_step hstep
  rw [hround] at hsearch
  unfold record at hrecord
  rw [hround] at hrecord
  rw [hrecord]
  exact ⟨hsearch, rfl, rfl⟩

/-- A round of growth starts both counts anew, that of the controller at zero or one. -/
theorem Tracks.search_of_grown (h : Tracks w) (hstep : w.step op = some w')
    {bw : ℕ} (hround : w.bbr.checkedRound op = some (F, bw)) (hgrown : Grown F w.grownTo bw) :
    let q : Search := ⟨0, bw, w.bbr.flags.isAtFullBandwidth⟩
    w'.bbr.search = (if w.bbr.flags.expireAckAggInStartup then q else q.count) ∧ w'.grownTo = bw ∧
      w'.plateau = 0 := by
  obtain ⟨-, hrecord, hsearch⟩ := h.search_step hstep
  have hsame : Grown F w.bbr.search.bwAtLastRound bw := by
    change Grown F w.bbr.bwAtLastRound bw
    rwa [h.reference]
  rw [hround] at hsearch
  unfold record at hrecord
  rw [hround] at hrecord
  dsimp only at hrecord
  rw [if_pos hgrown] at hrecord
  rw [hrecord]
  exact ⟨hsearch.trans (if_pos hsame), rfl, rfl⟩

/-- A round without growth is counted by both. -/
theorem Tracks.search_of_not_grown (h : Tracks w) (hstep : w.step op = some w')
    {bw : ℕ} (hround : w.bbr.checkedRound op = some (F, bw)) (hgrown : ¬ Grown F w.grownTo bw) :
    w'.bbr.search = w.bbr.search.count ∧ w'.grownTo = w.grownTo ∧ w'.plateau = w.plateau + 1 := by
  obtain ⟨-, hrecord, hsearch⟩ := h.search_step hstep
  have hsame : ¬ Grown F w.bbr.search.bwAtLastRound bw := by
    change ¬ Grown F w.bbr.bwAtLastRound bw
    rwa [h.reference]
  rw [hround] at hsearch
  unfold record at hrecord
  rw [hround] at hrecord
  dsimp only at hrecord
  rw [if_neg hgrown] at hrecord
  rw [hrecord]
  exact ⟨hsearch.trans (if_neg hsame), rfl, rfl⟩

/-- While every round of growth expires old measurements, the controller counts what the record
does. -/
theorem Tracks.step (h : Tracks w) (hexpires : ExpiresOnGrowth w op) (hstep : w.step op = some w') :
    Tracks w' := by
  have hexit := (h.search_step hstep).1
  rcases hround : w.bbr.checkedRound op with _ | ⟨F, bw⟩
  · obtain ⟨hsearch, hgrownTo, hplateau⟩ := h.search_of_none hstep hround
    have hcount := congrArg Search.roundWoBwGain hsearch
    have hreference := congrArg Search.bwAtLastRound hsearch
    exact ⟨(hcount.trans h.count).trans hplateau.symm,
      (hreference.trans h.reference).trans hgrownTo.symm,
      hexit⟩
  · by_cases hgrown : Grown F w.grownTo bw
    · obtain ⟨hsearch, hgrownTo, hplateau⟩ := h.search_of_grown hstep hround hgrown
      rw [if_pos (hexpires w' hstep F bw hround hgrown)] at hsearch
      have hcount := congrArg Search.roundWoBwGain hsearch
      have hreference := congrArg Search.bwAtLastRound hsearch
      exact ⟨hcount.trans hplateau.symm, hreference.trans hgrownTo.symm, hexit⟩
    · obtain ⟨hsearch, hgrownTo, hplateau⟩ := h.search_of_not_grown hstep hround hgrown
      have hcount := congrArg Search.roundWoBwGain hsearch
      have hreference := congrArg Search.bwAtLastRound hsearch
      refine ⟨hcount.trans ?_, (hreference.trans h.reference).trans hgrownTo.symm, hexit⟩
      rw [hplateau, ← h.count]
      rfl

/-- With the right count, the bandwidth is full only on a plateau. -/
theorem Tracks.exit (h : Tracks w) (hexpires : ExpiresOnGrowth w op) (hstep : w.step op = some w')
    (hbefore : w.bbr.flags.isAtFullBandwidth = false)
    (hafter : w'.bbr.flags.isAtFullBandwidth = true) :
    numStartupRtts ≤ w'.plateau := by
  rcases hround : w.bbr.checkedRound op with _ | ⟨F, bw⟩
  · have hsame := congrArg Search.isAtFullBandwidth (h.search_of_none hstep hround).1
    exact absurd (hafter.symm.trans (hsame.trans hbefore)) (by decide)
  · by_cases hgrown : Grown F w.grownTo bw
    · have hsearch := (h.search_of_grown hstep hround hgrown).1
      rw [if_pos (hexpires w' hstep F bw hround hgrown)] at hsearch
      have hsame := congrArg Search.isAtFullBandwidth hsearch
      exact absurd (hafter.symm.trans (hsame.trans hbefore)) (by decide)
    · obtain ⟨hsearch, -, hplateau⟩ := h.search_of_not_grown hstep hround hgrown
      have hfull := hafter.symm.trans (congrArg Search.isAtFullBandwidth hsearch)
      rw [hplateau, ← h.count]
      simpa [Search.count, search, hbefore] using hfull.symm

/-- Where the count is right, the rule is kept exactly if old measurements are expired. -/
theorem Tracks.onPlateau_iff_expires (h : Tracks w) (op : Operation) :
    OnPlateau w op ↔ ExpiresOnGrowth w op := by
  constructor
  · intro hplateau w' hstep F bw hround hgrown
    have hreset := hplateau.reset hstep hround hgrown
    have hsearch := (h.search_of_grown hstep hround hgrown).1
    by_contra hexpires
    rw [if_neg hexpires] at hsearch
    have hone := congrArg Search.roundWoBwGain hsearch
    exact absurd (hreset.symm.trans hone) Nat.zero_ne_one
  · intro hexpires
    refine ⟨fun hstep hbefore hafter => h.exit hexpires hstep hbefore hafter,
      fun hstep F bw hround hgrown => ?_⟩
    have hsearch := (h.search_of_grown hstep hround hgrown).1
    rw [if_pos (hexpires _ hstep F bw hround hgrown)] at hsearch
    exact congrArg Search.roundWoBwGain hsearch

/-- Along every run in which loss does not trigger the exit from STARTUP, the bandwidth is full only
on a plateau, and growth resets the count, exactly if every round of growth expires old
measurements. -/
theorem onPlateau_iff (t0 : ℕ) (ops : List Operation) :
    Lib.AllSteps step OnPlateau (new t0) ops ↔ Lib.AllSteps step ExpiresOnGrowth (new t0) ops :=
  Lib.allSteps_iff_of_condition (I := Tracks) (fun _ _ _ h hexpires hstep => h.step hexpires hstep)
    (fun _ op h => h.onPlateau_iff_expires op) (tracks_new t0)

end Searching

/-- The first round always grows. Without the option, it counts as a round without growth. -/
theorem counts_firstRound :
    ((Lib.run Searching.step (.new 0) (exampleRound [0] 0 1000000)).bind fun w =>
      (w.step (.bbrEndAck exactFloats 0 0)).map fun w' => (w, w')).any fun (w, w') =>
        (w.bbr.checkedRound (.bbrEndAck exactFloats 0 0)).any
          (fun (F, bw) => Grown F w.grownTo bw) ∧
          w'.bbr.roundWoBwGain = 1 := by
  decide +kernel

/-- A round of growth does not reset the count. -/
theorem not_onPlateau_firstRound :
    ¬ ∀ (t0 : ℕ) (ops : List Operation), Lib.AllSteps Searching.step Searching.OnPlateau
        (.new t0) ops := by
  intro h
  obtain ⟨⟨w, w'⟩, hsome, hcounts⟩ := (Option.any_eq_true _ _).mp counts_firstRound
  obtain ⟨_, hrun, hmap⟩ := Option.bind_eq_some_iff.mp hsome
  obtain ⟨_, hstep, heq⟩ := Option.map_eq_some_iff.mp hmap
  obtain ⟨rfl, rfl⟩ := Prod.mk.inj heq
  obtain ⟨hany, hone⟩ := of_decide_eq_true hcounts
  obtain ⟨⟨F, bw⟩, hround, hgrown⟩ := (Option.any_eq_true _ _).mp hany
  have hplateau := (h 0 (exampleRound [0] 0 1000000 ++ [.bbrEndAck exactFloats 0 0])).of_run hrun
  have hreset := hplateau.reset hstep hround (of_decide_eq_true hgrown)
  exact absurd (hreset.symm.trans hone) Nat.zero_ne_one

end Dtp.Cc.Bbr
