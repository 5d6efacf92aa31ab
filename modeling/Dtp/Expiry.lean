import Dtp.Scheduling

/-!
# Blocks that have missed their deadline

The DTP scheduler drops a queued block that is older than its deadline allows. Ages are differences
of readings of the wall clock, which fail for a block that was created later than now, as it happens
when the clock steps back. The loop also stops at a late block that is shut down already, which it
does for a block that is queued twice; what is in front of that one stays in the queue.

## Main definitions

* `StreamMap.CancelsExactly` — some blocks are cancelled, the others stay
* `StreamMap.DropsExactlyLate` — a call drops exactly the late blocks of the queue
* `StreamMap.Datable` — the queued blocks have ages, and the late ones can be shut down once

## Main results

* `StreamMap.dropsExactlyLate_iff`
* `StreamMap.not_dropsExactlyLate` — a block from the future
-/

namespace Dtp

open Lib (Program Fault)

namespace StreamMap

/-- The block is older than its deadline allows. -/
def overdue (m : StreamMap) (pace : Pace) (id : ℕ) : Bool :=
  (m.streams id).any fun s => decide (s.send.startTime + s.send.deadline < pace.currentTime)

/-- Exactly the blocks in `late` are cancelled: they are shut down without data, and are no longer
writable. -/
structure CancelsExactly (m : StreamMap) (late : ℕ → Bool) (m' : StreamMap) : Prop where
  streams : ∀ id, m'.streams id =
    if late id then (m.streams id).map fun s =>
      { s with send := { s.send with isShutdown := true, data := .empty } }
    else m.streams id
  canceled : ∀ id, id ∈ m'.canceled ↔ id ∈ m.canceled ∨ late id = true
  canceledDepend : ∀ id, id ∈ m'.canceledDepend ↔ id ∈ m.canceledDepend ∨ late id = true
  writable : ∀ id, id ∈ m'.writable ↔ id ∈ m.writable ∧ late id = false
  readable : m'.readable = m.readable
  almostFull : m'.almostFull = m.almostFull
  collected : m'.collected = m.collected

/-- A queued block that is late. -/
def queuedLate (m : StreamMap) (pace : Pace) (id : ℕ) :
    Bool := decide (id ∈ m.flushable) && m.overdue pace id

/-- The late blocks of the queue are cancelled and leave it. The others stay as they are, and as
often in the queue, but for the one that is picked, which leaves it once. -/
structure DropsLate (m : StreamMap) (pace : Pace) (pick : Option ℕ) (m' : StreamMap) : Prop where
  cancels : m.CancelsExactly (m.queuedLate pace) m'
  flushable : ∀ id, m'.flushable.count id =
    if m.queuedLate pace id then 0 else m.flushable.count id - if pick = some id then 1 else 0

/-- All ages were computed: late blocks have been dropped, and the weights of the others have been
compared. -/
def AgesComputed (m : StreamMap) (pace : Pace) (m' : StreamMap) : Prop :=
  ∃ d blocks best, m.scheduler = .dtp d ∧ dropLoop pace m.flushable.length [] m = .ok blocks m' ∧
    d.leastWeight pace none blocks = some best

/-- A call drops exactly the late blocks of the queue; it stops with an error, or else when it has
computed the ages. -/
def DropsExactlyLate (m : StreamMap) (pace : Pace) : Prop :=
  (peekFlushable pace).Ends m (fun pick m' => m.DropsLate pace pick m') fun e m' =>
    m.DropsLate pace none m' ∧ ((∃ err, e = .error err) ∨ m.AgesComputed pace m')

/-- The blocks were created before now, and each late one is queued once and not shut down yet. -/
def Datable (m : StreamMap) (pace : Pace) (ids : List ℕ) : Prop :=
  ∀ id ∈ ids, ∃ s, m.streams id = some s ∧ s.send.startTime ≤ pace.currentTime ∧
    (m.overdue pace id = true → s.send.isShutdown = false ∧ ids.count id = 1)

section Overdue

variable {m m' : StreamMap} {pace : Pace} {id x : ℕ} {s : Stream} {q : List ℕ}

private theorem overdue_congr (h : m'.streams id = m.streams id) :
    m'.overdue pace id = m.overdue pace id := by
  rw [overdue, overdue, h]

/-- The DTP scheduler drops the blocks that are older than their deadlines allow. -/
theorem isLate_dtp {d : DtpScheduler} (h : m.scheduler = .dtp d) :
    m.isLate pace id = m.overdue pace id := by
  unfold isLate overdue getBlock
  cases m.streams id with
  | none => rfl
  | some s =>
    rw [h]
    simp only [Option.map_some, Option.bind_some, Option.any_some, DynScheduler.shouldDropBlock,
      DtpScheduler.shouldDropBlock]
    split_ifs with hfuture
    · symm
      rw [decide_eq_false (by omega)]
      rfl
    · rw [Bool.eq_iff_iff]
      simp only [beq_iff_eq, Option.some.injEq, decide_eq_true_eq]
      omega

/-- A block that is cancelled keeps its age. -/
theorem cancelled_overdue (hs : m.streams x = some s) :
    ((m.cancelled x s).setFlushable q).overdue pace id = m.overdue pace id := by
  rcases eq_or_ne id x with rfl | hne
  · have hself : ((m.cancelled id s).setFlushable q).streams id =
        some { s with send := { s.send with isShutdown := true, data := .empty } } := if_pos rfl
    rw [overdue, overdue, hself, hs]
    rfl
  · exact overdue_congr (cancelled_streams_of_ne hne)

end Overdue

/-! ### Cancelling one more -/

theorem CancelsExactly.refl (m : StreamMap) : m.CancelsExactly (fun _ => false) m where
  streams _ := rfl
  canceled _ := by simp
  canceledDepend _ := by simp
  writable _ := by simp
  readable := rfl
  almostFull := rfl
  collected := rfl

theorem CancelsExactly.congr {m m' : StreamMap} {late late' : ℕ → Bool}
    (h : m.CancelsExactly late m')
    (hlate : ∀ id, late' id = late id) : m.CancelsExactly late' m' := by
  obtain rfl : late' = late := funext hlate
  exact h

theorem CancelsExactly.cons {m m' : StreamMap} {late : ℕ → Bool} {x : ℕ} {s : Stream} {q : List ℕ}
    (hs : m.streams x = some s) (h : ((m.cancelled x s).setFlushable q).CancelsExactly late m') :
    m.CancelsExactly (fun id => decide (id = x) || late id) m' where
  streams id := by
    rw [h.streams]
    rcases eq_or_ne id x with rfl | hne
    · have hself : ((m.cancelled id s).setFlushable q).streams id =
          some { s with send := { s.send with isShutdown := true, data := .empty } } := if_pos rfl
      rw [hself, hs]
      cases late id <;> simp
    · rw [cancelled_streams_of_ne hne]
      simp [hne]
  canceled id := by
    rw [h.canceled]
    have hinsert : id ∈ ((m.cancelled x s).setFlushable q).canceled ↔ id = x ∨ id ∈ m.canceled :=
      List.mem_insert_iff
    rw [hinsert, Bool.or_eq_true, decide_eq_true_eq, or_comm (a := id = x), or_assoc]
  canceledDepend id := by
    rw [h.canceledDepend]
    have hinsert : id ∈ ((m.cancelled x s).setFlushable q).canceledDepend ↔ id = x ∨
        id ∈ m.canceledDepend :=
      List.mem_insert_iff
    rw [hinsert, Bool.or_eq_true, decide_eq_true_eq, or_comm (a := id = x), or_assoc]
  writable id := by
    rw [h.writable]
    have hfilter : id ∈ ((m.cancelled x s).setFlushable q).writable ↔ id ∈ m.writable ∧ id ≠ x := by
      change id ∈ m.writable.filter _ ↔ _
      rw [List.mem_filter, decide_eq_true_eq]
    rw [hfilter, Bool.or_eq_false_iff, decide_eq_false_iff_not, and_assoc]
  readable := h.readable
  almostFull := h.almostFull
  collected := h.collected

/-! ### The loop -/

/-- What the loop has done when it has looked at the blocks of `p`, with `t` behind them in the
queue. -/
structure Drops (m : StreamMap) (pace : Pace) (p t : List ℕ) (m' : StreamMap) : Prop where
  cancels : m.CancelsExactly (fun id => decide (id ∈ p) && m.overdue pace id) m'
  flushable : m'.flushable.Perm ((p.filter fun id => !m.overdue pace id) ++ t)
  scheduler : m'.scheduler = m.scheduler

section Turn

variable {m m' : StreamMap} {pace : Pace} {p t t' : List ℕ} {x : ℕ} {s : Stream}

theorem Drops.late (hs : m.streams x = some s) (hx : m.overdue pace x = true) (ht : t'.Perm t)
    (h : ((m.cancelled x s).setFlushable (p ++ t')).Drops pace p t' m') :
    m.Drops pace (p ++ [x]) t m' where
  cancels := by
    refine (h.cancels.cons hs).congr fun id => ?_
    rw [cancelled_overdue hs]
    rcases eq_or_ne id x with rfl | hne
    · simp [hx]
    · simp [hne]
  flushable := by
    have hfilter :
      (p.filter fun id => !((m.cancelled x s).setFlushable (p ++ t')).overdue pace id) =
        p.filter fun id => !m.overdue pace id :=
      List.filter_congr fun id _ => by rw [cancelled_overdue hs]
    have hperm := h.flushable
    rw [hfilter] at hperm
    rw [List.filter_append, List.filter_singleton, hx]
    simpa using hperm.trans (ht.append_left _)
  scheduler := h.scheduler

theorem Drops.kept (hx : m.overdue pace x = false) (h : m.Drops pace p (x :: t) m') :
    m.Drops pace (p ++ [x]) t m' where
  cancels := by
    refine h.cancels.congr fun id => ?_
    rcases eq_or_ne id x with rfl | hne
    · simp [hx]
    · simp [hne]
  flushable := by
    rw [List.filter_append, List.filter_singleton, hx]
    simpa using h.flushable
  scheduler := h.scheduler

private theorem datable_late (hs : m.streams x = some s)
    (hpast : s.send.startTime ≤ pace.currentTime)
    (hx : m.overdue pace x = true) (hshut : s.send.isShutdown = false) :
    ((m.cancelled x s).setFlushable (p ++ t')).Datable pace p ↔ m.Datable pace (p ++ [x]) := by
  have hself : ((m.cancelled x s).setFlushable (p ++ t')).streams x =
      some { s with send := { s.send with isShutdown := true, data := .empty } } := if_pos rfl
  have hcount {id : ℕ} (hne : id ≠ x) : (p ++ [x]).count id = p.count id := by
    rw [List.count_append, List.count_singleton, if_neg (by simpa using hne.symm), Nat.add_zero]
  constructor
  · intro h
    -- a block that is still in front of itself would be shut down already
    have hnot : x ∉ p := fun hmem => by
      obtain ⟨s', hs', -, hlate⟩ := h x hmem
      rw [hself] at hs'
      obtain rfl := Option.some.inj hs'
      exact nomatch (hlate (by rwa [cancelled_overdue hs])).1
    intro id hid
    rcases eq_or_ne id x with rfl | hne
    · refine ⟨s, hs, hpast, fun _ => ⟨hshut, ?_⟩⟩
      rw [List.count_append, List.count_eq_zero_of_not_mem hnot, List.count_singleton_self]
    · have hidp : id ∈ p := by simpa [hne] using hid
      obtain ⟨s', hs', hpast', hlate⟩ := h id hidp
      rw [cancelled_streams_of_ne hne] at hs'
      rw [cancelled_overdue hs] at hlate
      exact ⟨s', hs', hpast', by rwa [hcount hne]⟩
  · intro h id hid
    have hne : id ≠ x := by
      rintro rfl
      obtain ⟨s', -, -, hlate⟩ := h id (List.mem_append_left _ hid)
      have honce := (hlate hx).2
      rw [List.count_append, List.count_singleton_self] at honce
      have := List.count_pos_iff.mpr hid
      omega
    obtain ⟨s', hs', hpast', hlate⟩ := h id (List.mem_append_left _ hid)
    rw [hcount hne] at hlate
    exact ⟨s', by rwa [cancelled_streams_of_ne hne], hpast', by rwa [cancelled_overdue hs]⟩

private theorem datable_kept (hs : m.streams x = some s)
    (hpast : s.send.startTime ≤ pace.currentTime)
    (hx : m.overdue pace x = false) : m.Datable pace p ↔ m.Datable pace (p ++ [x]) := by
  have hcount {id : ℕ} (hlate : m.overdue pace id = true) : (p ++ [x]).count id = p.count id := by
    have hne : x ≠ id := by
      rintro rfl
      rw [hx] at hlate
      cases hlate
    rw [List.count_append, List.count_singleton, if_neg (by simpa using hne), Nat.add_zero]
  constructor
  · intro h id hid
    rcases List.mem_append.mp hid with hidp | hidx
    · obtain ⟨s', hs', hpast', hlate⟩ := h id hidp
      exact ⟨s', hs', hpast', fun ho => by rw [hcount ho]; exact hlate ho⟩
    · obtain rfl := List.mem_singleton.mp hidx
      exact ⟨s, hs, hpast, fun ho => absurd ho (by simp [hx])⟩
  · intro h id hid
    obtain ⟨s', hs', hpast', hlate⟩ := h id (List.mem_append_left _ hid)
    exact ⟨s', hs', hpast', fun ho => by rw [← hcount ho]; exact hlate ho⟩

end Turn

/-- A turn of the loop panics at a block without an age. -/
theorem dropLoop_panics {m : StreamMap} {d : DtpScheduler} {pace : Pace} {p t : List ℕ} {x : ℕ}
    (hdtp : m.scheduler = .dtp d) (hq : m.flushable = p ++ x :: t)
    (hx : ¬ ∃ s, m.streams x = some s ∧ s.send.startTime ≤ pace.currentTime) (blocks : List Block) :
    dropLoop pace (p.length + 1) blocks m = .error .panic m := by
  have hget : m.flushable[p.length]? = some x := by simp [hq]
  rw [dropLoop, Program.bind_apply, Program.get_apply]
  dsimp only
  rw [hget, Program.unwrap_some, pure_bind]
  cases hs : m.streams x with
  | none =>
    rw [getBlock, hs]
    rfl
  | some s =>
    have hfuture : pace.currentTime < s.send.startTime := by
      by_contra hle
      exact hx ⟨s, hs, not_lt.mp hle⟩
    rw [getBlock, hs, Option.map_some, Program.unwrap_some, pure_bind, hdtp]
    dsimp only [DynScheduler.shouldDropBlock, DtpScheduler.shouldDropBlock]
    rw [if_pos hfuture]
    rfl

/-- The loop drops the late blocks if the blocks are datable. Otherwise it panics, or it stops at a
late block, which stays in the queue. -/
theorem dropLoop_ends {m : StreamMap} {d : DtpScheduler} (pace : Pace) {p t : List ℕ}
    (blocks : List Block)
    (hdtp : m.scheduler = .dtp d) (hq : m.flushable = p ++ t)
    (hblocks : ∀ b ∈ blocks, b.blockCreateTime ≤ pace.currentTime) :
    (dropLoop pace p.length blocks).Ends m
      (fun blocks' m' => m.Datable pace p ∧ m.Drops pace p t m' ∧
        ∀ b ∈ blocks', b.blockCreateTime ≤ pace.currentTime)
      fun e m' => ¬ m.Datable pace p ∧ ∀ err, e = .error err → ∃ id ∈ p, m.overdue pace id = true ∧
        id ∈ m'.flushable := by
  -- the queue is walked from its back
  induction p using List.reverseRecOn generalizing t m blocks with
  | nil => exact ⟨nofun, ⟨(CancelsExactly.refl m).congr fun _ => rfl, by simp [hq], rfl⟩, hblocks⟩
  | append_singleton p x ih =>
    rw [List.append_assoc, List.singleton_append] at hq
    rw [List.length_append, List.length_singleton]
    by_cases hlive : ∃ s, m.streams x = some s ∧ s.send.startTime ≤ pace.currentTime
    · obtain ⟨s, hs, hpast⟩ := hlive
      obtain ⟨block, t', hblock, hperm, hturn⟩ := dropLoop_succ blocks hq hs hpast
      rw [isLate_dtp hdtp] at hturn
      unfold Program.Ends
      rw [hturn]
      cases hx : m.overdue pace x with
      | true =>
        rw [if_pos rfl]
        cases hshut : s.send.isShutdown with
        | true =>
          rw [if_pos rfl]
          -- the late stream is shut, so that it cannot be canceled
          refine ⟨fun h => ?_, fun _ _ => ⟨x, by simp, hx, ?_⟩⟩
          · obtain ⟨s', hs', -, hlate⟩ := h x (by simp)
            obtain rfl := Option.some.inj (hs.symm.trans hs')
            rw [(hlate hx).1] at hshut
            cases hshut
          · change x ∈ m.flushable
            simp [hq]
        | false =>
          rw [if_neg Bool.false_ne_true]
          -- the late stream is canceled
          have hrest := ih (m := (m.cancelled x s).setFlushable (p ++ t'))
            (t := t') blocks hdtp rfl hblocks
          rw [datable_late hs hpast hx hshut] at hrest
          refine hrest.mono (fun blocks' m' h => ⟨h.1, h.2.1.late hs hx hperm, h.2.2⟩) fun e m' h =>
            ⟨h.1, ?_⟩
          intro err herr
          obtain ⟨id, hid, hlate, hqueued⟩ := h.2 err herr
          exact ⟨id, List.mem_append_left _ hid, by rwa [cancelled_overdue hs] at hlate, hqueued⟩
      | false =>
        rw [if_neg Bool.false_ne_true]
        -- the block is in time
        have hpast' : block.blockCreateTime ≤ pace.currentTime := by
          obtain ⟨s', hs', rfl⟩ := Option.map_eq_some_iff.mp hblock
          obtain rfl := Option.some.inj (hs.symm.trans hs')
          exact hpast
        have hrest := ih (blocks ++ [block]) hdtp hq fun b hb =>
          (List.mem_append.mp hb).elim (hblocks b) fun hb => List.mem_singleton.mp hb ▸ hpast'
        rw [datable_kept hs hpast hx] at hrest
        refine hrest.mono (fun blocks' m' h => ⟨h.1, h.2.1.kept hx, h.2.2⟩) fun e m' h => ⟨h.1, ?_⟩
        intro err herr
        obtain ⟨id, hid, h⟩ := h.2 err herr
        exact ⟨id, List.mem_append_left _ hid, h⟩
    · unfold Program.Ends
      -- there is no stream, or it is younger than the clock says
      rw [dropLoop_panics hdtp hq hlive]
      refine ⟨fun h => ?_, fun err => nofun⟩
      obtain ⟨s, hs, hpast, -⟩ := h x (by simp)
      exact hlive ⟨s, hs, hpast⟩

/-! ### The call -/

section Call

variable {m m' : StreamMap} {pace : Pace} {scheduler : DynScheduler}

theorem Drops.count (h : m.Drops pace m.flushable [] m') (id : ℕ) :
    m'.flushable.count id = if m.queuedLate pace id then 0 else m.flushable.count id := by
  have hperm := h.flushable.count_eq id
  rw [List.append_nil] at hperm
  rw [hperm]
  unfold queuedLate
  cases hlate : m.overdue pace id with
  | true =>
    rw [List.count_eq_zero_of_not_mem (by simp [hlate])]
    by_cases hid : id ∈ m.flushable
    · simp [hid]
    · simp [List.count_eq_zero_of_not_mem hid]
  | false =>
    rw [List.count_filter (by simp [hlate]), Bool.and_false, if_neg Bool.false_ne_true]

theorem Drops.dropsLate (h : m.Drops pace m.flushable [] m') : m.DropsLate pace none m' where
  cancels := h.cancels
  flushable id := by simpa using h.count id

private theorem takeFlushable_count (m : StreamMap) (id i : ℕ) :
    (m.takeFlushable id).flushable.count i = m.flushable.count i - if some id =
        some i then 1 else 0 := by
  unfold takeFlushable
  by_cases hid : id ∈ m.flushable
  · have hperm := (swapRemoveFront_perm hid).count_eq i
    rw [if_pos hid]
    change (swapRemoveFront m.flushable (m.flushable.idxOf id)).count i = _
    rw [hperm, List.count_erase]
    simp
  · rw [if_neg hid]
    rcases eq_or_ne id i with rfl | hne
    · rw [List.count_eq_zero_of_not_mem hid, Nat.zero_sub]
    · rw [if_neg (by simpa using hne), Nat.sub_zero]

private theorem Drops.dropsLate_pick (h : m.Drops pace m.flushable [] m') (id : ℕ) :
    m.DropsLate pace (some id) ((m'.setScheduler scheduler).takeFlushable id) where
  cancels := by
    unfold takeFlushable
    split_ifs
    · exact ⟨h.cancels.streams, h.cancels.canceled, h.cancels.canceledDepend, h.cancels.writable,
        h.cancels.readable,
        h.cancels.almostFull, h.cancels.collected⟩
    · exact ⟨h.cancels.streams, h.cancels.canceled, h.cancels.canceledDepend, h.cancels.writable,
        h.cancels.readable,
        h.cancels.almostFull, h.cancels.collected⟩
  flushable i := by
    have hcount : (m'.setScheduler scheduler).flushable.count i = _ := h.count i
    rw [takeFlushable_count, hcount]
    split_ifs <;> rfl

/-- Looking at the blocks panics if one of the streams is missing. -/
theorem forM_getBlock_ends (m : StreamMap) (ids : List ℕ) :
    (forM ids fun id =>
      (discard (Program.unwrap (m.getBlock id)) : Program Error StreamMap Unit)).Ends m
      (fun _ m' => m' = m) fun e m' => e = .panic ∧ m' = m ∧ ∃ id ∈ ids, m.streams id = none := by
  induction ids with
  | nil => exact rfl
  | cons id ids ih =>
    unfold Program.Ends
    rw [List.forM_cons, Program.bind_apply, getBlock]
    cases hs : m.streams id with
    | none => exact ⟨rfl, rfl, id, List.mem_cons_self, hs⟩
    | some s =>
      refine ih.mono (fun _ _ h => h) fun e m' h => ?_
      obtain ⟨hpanic, hm, i, hi, hnone⟩ := h
      exact ⟨hpanic, hm, i, List.mem_cons_of_mem _ hi, hnone⟩

end Call

/-- A call drops exactly the late blocks if and only if the queued blocks are datable. -/
theorem dropsExactlyLate_iff (m : StreamMap) (pace : Pace) {d : DtpScheduler}
    (h : m.scheduler = .dtp d) :
    m.DropsExactlyLate pace ↔ m.Datable pace m.flushable := by
  have hq : m.flushable = m.flushable ++ [] := (List.append_nil _).symm
  have hloop := dropLoop_ends pace [] h hq nofun
  have hages {m' : StreamMap} : m.AgesComputed pace m' → m.Datable pace m.flushable := by
    rintro ⟨_, blocks, _, -, hok, -⟩
    exact (hloop.ok hok).1
  refine Program.Ends.iff_of ?_
  rw [peekFlushable, Program.ends_bind, Program.ends_get, Program.ends_ite]
  constructor
  · intro hempty
    -- nothing is queued
    have hnil : m.flushable = [] := List.isEmpty_iff.mp hempty
    rw [Program.ends_pure]
    refine iff_of_true ⟨(CancelsExactly.refl m).congr fun id => ?_, fun id => ?_⟩ ?_
    · simp [queuedLate, hnil]
    · simp [queuedLate, hnil]
    · rw [hnil]
      exact fun _ hid => absurd hid List.not_mem_nil
  intro _
  rw [Program.ends_bind]
  refine (forM_getBlock_ends m m.flushable.reverse).mono (fun _ m₁ h₁ => ?_) fun e m₁ h₁ => ?_
  · subst h₁
    rw [Program.ends_bind]
    refine Program.ends_iff.mpr ⟨fun blocks m' hok => ?_, fun e m' herror => ?_⟩
    · -- all ages are computed, and a block may be picked
      obtain ⟨hdatable, hdrops, hpast⟩ := hloop.ok hok
      refine Program.ends_ite.mpr ⟨fun _ => iff_of_true hdrops.dropsLate hdatable, fun _ => ?_⟩
      obtain ⟨best, hbest, -⟩ := leastWeight_spec d none hpast
      rw [Program.ends_bind, Program.ends_get, Program.ends_bind, Program.ends_unwrap]
      refine ⟨fun r hr => iff_of_true (hdrops.dropsLate_pick r.1) hdatable, fun hnone => ?_⟩
      exact iff_of_true ⟨hdrops.dropsLate, .inr ⟨d, blocks, best, h, hok, hbest⟩⟩ hdatable
    · -- the loop ends early: a late block stays queued, or no age is computed
      obtain ⟨hnot, hqueued⟩ := hloop.error herror
      refine iff_of_false ?_ hnot
      rintro ⟨hdrops, ⟨err, rfl⟩ | hcomputed⟩
      · obtain ⟨id, hid, hlate, hid'⟩ := hqueued err rfl
        have hcount := hdrops.flushable id
        rw [if_pos (by simp [queuedLate, hid, hlate])] at hcount
        have := List.count_pos_iff.mpr hid'
        omega
      · exact hnot (hages hcomputed)
  · obtain ⟨rfl, rfl, id, hid, hnone⟩ := h₁
    refine iff_of_false ?_ fun hdatable => ?_
    · rintro ⟨-, ⟨_, herr⟩ | hcomputed⟩
      · cases herr
      · obtain ⟨s, hs, -⟩ := hages hcomputed id (List.mem_reverse.mp hid)
        rw [hnone] at hs
        cases hs
    · obtain ⟨s, hs, -⟩ := hdatable id (List.mem_reverse.mp hid)
      rw [hnone] at hs
      cases hs

/-- A block that missed its deadline 100 ms ago is dropped. -/
theorem dropsExactlyLate_iff_queuedFin : queuedFin.DropsExactlyLate ⟨100.0, 50.0, 0, 300⟩ := by
  refine (dropsExactlyLate_iff queuedFin ⟨100.0, 50.0, 0, 300⟩ (d := {}) rfl).mpr fun id hid => ?_
  obtain rfl := List.mem_singleton.mp hid
  exact ⟨finOnly, rfl, by decide, fun _ => ⟨rfl, by decide⟩⟩

/-- A map whose queue holds one block, created at the time 20. -/
def queuedAt20 : StreamMap :=
  ((StreamMap.new 0 0 (.dtp {})).put 2 (Stream.newFull 0 100 false true 200 1 20)).pushFlushable 2

/-- When the clock has stepped back to 10, the age of the block is a negative number. -/
theorem not_dropsExactlyLate :
    ¬ ∀ (m : StreamMap) (pace : Pace) (d : DtpScheduler), m.scheduler = .dtp d →
        m.DropsExactlyLate pace := by
  intro h
  have hdrops := h queuedAt20 ⟨100.0, 50.0, 0, 10⟩ {} rfl
  have hpeek : peekFlushable ⟨100.0, 50.0, 0, 10⟩ queuedAt20 = .error .panic queuedAt20 := rfl
  have hloop : dropLoop ⟨100.0, 50.0, 0, 10⟩ queuedAt20.flushable.length
      [] queuedAt20 = .error .panic queuedAt20 :=
    rfl
  obtain ⟨-, ⟨_, herr⟩ | ⟨_, _, _, -, hok, -⟩⟩ := Program.Ends.error hdrops hpeek
  · cases herr
  · rw [hloop] at hok
    cases hok

end StreamMap

end Dtp
