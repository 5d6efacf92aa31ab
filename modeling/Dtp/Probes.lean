import Dtp.LossDetection

/-!
# Waking up loss recovery

The loss detection timer is set after most calls of loss recovery. It is stopped if the
congestion controller counts no bytes in flight, but the controller counts the packets of
the application epoch only: packets of the handshake that are outstanding are overlooked.
When the timer fires and no loss time is set, probes are asked for in the epoch that sent
an ack-eliciting packet first, whether or not that packet is still outstanding.

## Main definitions

* `Recovery.outstanding` — an ack-eliciting packet of an epoch is in flight
* `Monitor` — loss recovery, and what the connection said of the handshake
* `Monitor.Awake` — the timer is set if a packet is outstanding
* `Monitor.Attends` — a call does not overlook outstanding packets

## Main results

* `Monitor.awake_iff_attends` — loss recovery stays awake exactly along runs that attend
-/

namespace Dtp

namespace Recovery

/-- The epochs that the timer takes into account. -/
def considered (handshakeCompleted : Bool) : List Epoch :=
  if handshakeCompleted then [.application, .handshake, .initial] else [.handshake, .initial]

/-- An ack-eliciting packet of the epoch is in flight. -/
def outstanding (r : Recovery) (epoch : Epoch) : Bool :=
  (r.sent epoch).any fun p => p.inFlight && p.ackEliciting

/-- Packets are outstanding without regard to their frames. -/
theorem outstanding_iff_bare {r : Recovery} {epoch : Epoch} :
    r.outstanding epoch = true ↔ ∃ p ∈ r.bare epoch, p.inFlight = true ∧ p.ackEliciting = true := by
  simp [outstanding, bare, Sent.bare]

/-- The earliest time of some epochs, and its epoch; the Initial epoch if there is no time. -/
structure Earliest (times : Epoch → Option ℕ) (epochs : List Epoch) (best : Option ℕ × Epoch) :
    Prop where
  time : best.1 = times best.2
  default : best.1 = none → best.2 = .initial
  mem : best.2 ∈ epochs
  le : ∀ epoch ∈ epochs, ∀ t, times epoch = some t → ∃ b, best.1 = some b ∧ b ≤ t

/-- The earlier one of the best time so far and the time of an epoch. -/
def earlier (times : Epoch → Option ℕ) (best : Option ℕ × Epoch) (e : Epoch) : Option ℕ × Epoch :=
  match times e, best.1 with
  | some t, some b => if t < b then (some t, e) else best
  | some t, none => (some t, e)
  | none, _ => best

/-- The earlier of two times is the earliest. -/
theorem Earliest.earlier {times : Epoch → Option ℕ} {epochs : List Epoch} {best : Option ℕ × Epoch}
    (h : Earliest times epochs best) (e : Epoch) :
    Earliest times (e :: epochs) (earlier times best e) := by
  obtain ⟨b, epoch⟩ := best
  have hkeep (hle : ∀ t, times e = some t → ∃ b', b = some b' ∧ b' ≤ t) :
      Earliest times (e :: epochs) (b, epoch) :=
    ⟨h.time, h.default, List.mem_cons_of_mem _ h.mem, List.forall_mem_cons.mpr ⟨hle, h.le⟩⟩
  have hreplace {t : ℕ} (ht : times e = some t) (hle : ∀ b', b = some b' → t ≤ b') :
      Earliest times (e :: epochs) (some t, e) := by
    refine ⟨ht.symm, nofun, List.mem_cons_self, List.forall_mem_cons.mpr ⟨fun t' ht' => ?_, ?_⟩⟩
    · exact ⟨t, rfl, by rw [ht] at ht'; cases ht'; exact le_rfl⟩
    · intro e' he' t' ht'
      obtain ⟨b', hb', hle'⟩ := h.le e' he' t' ht'
      exact ⟨t, rfl, (hle b' hb').trans hle'⟩
  unfold Recovery.earlier
  cases ht : times e with
  | none => exact hkeep fun t ht' => by rw [ht] at ht'; cases ht'
  | some t =>
    cases b with
    | none => exact hreplace ht nofun
    | some b =>
      dsimp only
      split_ifs with hlt
      · exact hreplace ht fun b' hb' => by cases hb'; exact hlt.le
      · refine hkeep fun t' ht' => ⟨b, rfl, ?_⟩
        rw [ht] at ht'
        cases ht'
        exact not_lt.mp hlt

/-- The earliest time of all epochs is found. -/
theorem earliestLossTime_earliest (times : Epoch → Option ℕ) (handshakeCompleted : Bool) :
    Earliest times (considered handshakeCompleted) (earliestLossTime times handshakeCompleted) := by
  have hinitial : Earliest times [.initial] (times .initial, .initial) :=
    ⟨rfl, fun _ => rfl, List.mem_cons_self, fun e he t ht => by
      rw [List.mem_singleton.mp he] at ht
      exact ⟨t, ht, le_rfl⟩⟩
  have hhandshake := hinitial.earlier .handshake
  cases handshakeCompleted with
  | false => exact hhandshake
  | true => exact hhandshake.earlier .application

/-- There is an earliest time where there is one. -/
theorem Earliest.isSome_iff {times : Epoch → Option ℕ} {epochs : List Epoch}
    {best : Option ℕ × Epoch} (h : Earliest times epochs best) :
    best.1.isSome = true ↔ ∃ epoch ∈ epochs, (times epoch).isSome = true := by
  constructor
  · intro hsome
    exact ⟨best.2, h.mem, h.time ▸ hsome⟩
  · rintro ⟨epoch, hmem, hsome⟩
    obtain ⟨t, ht⟩ := Option.isSome_iff_exists.mp hsome
    obtain ⟨b, hb, _⟩ := h.le epoch hmem t ht
    rw [hb]
    rfl

/-- Packets go, and none come. -/
structure Settles (r r' : Recovery) : Prop where
  bare (epoch : Epoch) : r'.bare epoch ⊆ r.bare epoch
  time : r'.timeOfLastSentAckElicitingPkt = r.timeOfLastSentAckElicitingPkt

theorem Settles.refl (r : Recovery) : r.Settles r := ⟨fun _ => List.Subset.refl _, rfl⟩

theorem Settles.trans {r r' r'' : Recovery} (h : r.Settles r') (h' : r'.Settles r'') :
    r.Settles r'' :=
  ⟨fun epoch => List.Subset.trans (h'.bare epoch) (h.bare epoch), h'.time.trans h.time⟩

/-- Packets are removed from an epoch. -/
theorem settles_of_update {r r' : Recovery} {epoch : Epoch} {f : Sent → Bool}
    (hbare : r'.bare = Epoch.update r.bare epoch ((r.bare epoch).filter f))
    (htime : r'.timeOfLastSentAckElicitingPkt = r.timeOfLastSentAckElicitingPkt) :
    r.Settles r' := by
  refine ⟨fun e => ?_, htime⟩
  rw [hbare]
  rcases eq_or_ne e epoch with rfl | hne
  · rw [Epoch.update_same]
    exact List.filter_subset_self _
  · rw [Epoch.update_of_ne hne]
    exact List.Subset.refl _

@[simp] theorem modifyFecGroup_time (r : Recovery) (info : FecStatus)
    (f : FecPacketNumbers → FecPacketNumbers) :
    (r.modifyFecGroup info f).timeOfLastSentAckElicitingPkt = r.timeOfLastSentAckElicitingPkt := by
  unfold modifyFecGroup
  split_ifs <;> rfl

private theorem onPacketAcked_settles (r : Recovery) (pktNum : ℕ) (epoch : Epoch) :
    r.Settles (r.onPacketAcked pktNum epoch).2 := by
  refine settles_of_update (onPacketAcked_bare r pktNum epoch) ?_
  have hrecovered (pns : List ℕ)
    (r : Recovery) : (pns.foldl onPacketRecovered r).timeOfLastSentAckElicitingPkt =
      r.timeOfLastSentAckElicitingPkt := by
    induction pns generalizing r with
    | nil => rfl
    | cons pn pns ih =>
      refine (ih _).trans ?_
      unfold onPacketRecovered
      split <;> rfl
  unfold onPacketAcked
  split
  · rfl
  · dsimp only
    rw [hrecovered, modifyFecGroup_time]

private theorem onPacketLost_settles (epoch : Epoch) (r : Recovery) (p : Sent) :
    r.Settles (r.onPacketLost epoch p) := by
  refine settles_of_update (onPacketLost_bare epoch r p) ?_
  unfold onPacketLost
  split_ifs
  · exact modifyFecGroup_time _ _ _
  · rfl

/-- An epoch with a packet outstanding has sent an ack-eliciting one. -/
def Dated (r : Recovery) : Prop :=
  ∀ epoch, r.outstanding epoch = true → (r.timeOfLastSentAckElicitingPkt epoch).isSome = true

/-- When packets are removed, the time of the last one stays. -/
theorem Dated.settles {r r' : Recovery} (h : r.Dated) (hs : r.Settles r') : r'.Dated := by
  intro epoch hout
  rw [hs.time]
  obtain ⟨p, hp, hflags⟩ := outstanding_iff_bare.mp hout
  exact h epoch (outstanding_iff_bare.mpr ⟨p, hs.bare epoch hp, hflags⟩)

/-- The time of a packet is noted. -/
theorem Dated.onPacketSent {r : Recovery} (h : r.Dated) (pkt : Sent) (epoch : Epoch) (now : ℕ) :
    (r.onPacketSent pkt epoch now).Dated := by
  intro e hout
  obtain ⟨p, hp, hflight, heliciting⟩ := outstanding_iff_bare.mp hout
  have htime : (r.onPacketSent pkt epoch now).timeOfLastSentAckElicitingPkt =
      if pkt.inFlight && pkt.ackEliciting then
        Epoch.update r.timeOfLastSentAckElicitingPkt epoch (some now)
      else r.timeOfLastSentAckElicitingPkt := by
    simp [Recovery.onPacketSent]
  rw [onPacketSent_bare] at hp
  rw [htime]
  have hold (hp : p ∈ r.bare e) : (r.timeOfLastSentAckElicitingPkt e).isSome = true :=
    h e (outstanding_iff_bare.mpr ⟨p, hp, hflight, heliciting⟩)
  rcases eq_or_ne e epoch with rfl | hne
  · rw [Epoch.update_same] at hp
    rcases Lib.mem_insertKey.mp hp with rfl | ⟨hp, _⟩
    · have hboth : (pkt.inFlight && pkt.ackEliciting) = true := by
        rw [Bool.and_eq_true]
        exact ⟨hflight, heliciting⟩
      rw [if_pos hboth, Epoch.update_same]
      rfl
    · split_ifs
      · rw [Epoch.update_same]
        rfl
      · exact hold hp
  · rw [Epoch.update_of_ne hne] at hp
    split_ifs
    · rw [Epoch.update_of_ne hne]
      exact hold hp
    · exact hold hp

/-- A dropped epoch has no packets. -/
theorem Dated.dropUnackedData {r : Recovery} (h : r.Dated) (epoch : Epoch) :
    (r.dropUnackedData epoch).Dated := by
  intro e hout
  obtain ⟨p, hp, hflags⟩ := outstanding_iff_bare.mp hout
  rw [dropUnackedData_bare] at hp
  rcases eq_or_ne e epoch with rfl | hne
  · rw [Epoch.update_same] at hp
    cases hp
  · rw [Epoch.update_of_ne hne] at hp
    have htime : (r.dropUnackedData epoch).timeOfLastSentAckElicitingPkt e =
        r.timeOfLastSentAckElicitingPkt e := Epoch.update_of_ne hne
    rw [htime]
    exact h e (outstanding_iff_bare.mpr ⟨p, hp, hflags⟩)

private theorem ackLoop_settles (epoch : Epoch) (pns : List ℕ) (newly : Bool) (r : Recovery) :
    r.Settles (ackLoop epoch pns (newly, r)).2 := by
  apply ackLoop_induct (P := r.Settles)
  · intro r₁ h pn _
    exact h.trans (onPacketAcked_settles r₁ pn epoch)
  · exact .refl r

theorem detectLostPackets_settles (r : Recovery) (epoch : Epoch) (now lossDelay : ℕ) :
    r.Settles (r.detectLostPackets epoch now lossDelay) := by
  apply detectLostPackets_induct
  · intro r₁ h p _
    exact h.trans (onPacketLost_settles epoch r₁ p)
  · intro lossTime
    exact ⟨fun _ => List.Subset.refl _, rfl⟩

private theorem onAckReceived_settles {r r' : Recovery} {ranges : RangeSet} {epoch : Epoch}
    {now lossDelay : ℕ} (h : r.onAckReceived ranges epoch now lossDelay = .ok r') :
    r.Settles r' := by
  apply onAckReceived_induct h
  · intro r₁ h₁
    exact h₁.trans (detectLostPackets_settles r₁ epoch now lossDelay)
  · intro r₁ h₁
    exact h₁.trans (ackLoop_settles epoch _ false r₁)
  · intro largestAckedPkt
    exact ⟨fun _ => List.Subset.refl _, rfl⟩

private theorem onLossDetectionTimeout_settles (r : Recovery) (handshakeCompleted : Bool)
    (now lossDelay : ℕ) :
    r.Settles (r.onLossDetectionTimeout handshakeCompleted now lossDelay) := by
  unfold onLossDetectionTimeout
  dsimp only
  split_ifs
  · exact detectLostPackets_settles _ _ _ _
  · exact ⟨fun _ => List.Subset.refl _, rfl⟩

/-- Calls keep the times noted. -/
theorem Dated.call {r r' : Recovery} (h : r.Dated) {call : RecoveryCall}
    (hcall : r.call call = .ok r') : r'.Dated := by
  cases call with
  | onPacketSent pkt epoch handshakeCompleted t =>
    cases hcall
    exact h.onPacketSent pkt epoch t.now
  | onAckReceived ranges epoch handshakeCompleted t => exact h.settles (onAckReceived_settles hcall)
  | onLossDetectionTimeout handshakeCompleted t =>
    cases hcall
    exact h.settles (onLossDetectionTimeout_settles r handshakeCompleted t.now t.lossDelay)
  | dropUnackedData epoch =>
    cases hcall
    exact h.dropUnackedData epoch
  | drainAcked epoch =>
    cases hcall
    exact h
  | drainLost epoch =>
    cases hcall
    exact h

/-- Calls keep the times noted. -/
theorem Dated.step {r r' : Recovery} (h : r.Dated) {call : RecoveryCall}
    (hstep : r.step call = some r') : r'.Dated := by
  unfold Recovery.step afterCall at hstep
  split at hstep
  · rename_i hcall
    cases hstep
    exact h.call hcall
  · cases hstep
    exact h
  · cases hstep

end Recovery

/-! ### Without the controller -/

namespace LossDetection

theorem map_eq_ok {α β : Type} {f : α → β} {x : Except Fault α} {b : β} (h : x.map f = .ok b) :
    ∃ a, x = .ok a ∧ f a = b := by
  cases x with
  | error e => cases h
  | ok a => exact ⟨a, rfl, Except.ok.inj h⟩

/-- The timer stays, and without it and the controller the state is the one of `Recovery`. -/
structure Erases (l : LossDetection) (r : Recovery) (l' : LossDetection) : Prop where
  base : r = l'.toRecovery
  timer : l'.lossDetectionTimer = l.lossDetectionTimer

private theorem onPacketAcked_erases {l l' : LossDetection} {pktNum : ℕ} {epoch : Epoch}
    {newly : Bool}
    (h : l.onPacketAcked pktNum epoch = .ok (newly, l')) :
    l.Erases (l.toRecovery.onPacketAcked pktNum epoch).2 l' ∧
      (l.toRecovery.onPacketAcked pktNum epoch).1 = newly := by
  unfold LossDetection.onPacketAcked at h
  dsimp only at h
  unfold Recovery.onPacketAcked at h ⊢
  cases hfind : (l.sent epoch).find? fun p => p.pktNum == pktNum with
  | none =>
    rw [hfind] at h
    cases h
    exact ⟨⟨rfl, rfl⟩, rfl⟩
  | some p =>
    rw [hfind] at h
    obtain ⟨cc, _, heq⟩ := map_eq_ok h
    cases heq
    exact ⟨⟨rfl, rfl⟩, rfl⟩

theorem ackLoop_erases {epoch : Epoch} {pns : List ℕ} {newly newly' : Bool} {l l' : LossDetection}
    (h : ackLoop epoch pns (newly, l) = .ok (newly', l')) :
    l.Erases (Recovery.ackLoop epoch pns (newly, l.toRecovery)).2 l' ∧
      (Recovery.ackLoop epoch pns (newly, l.toRecovery)).1 = newly' := by
  induction pns generalizing newly l with
  | nil =>
    cases h
    exact ⟨⟨rfl, rfl⟩, rfl⟩
  | cons pn pns ih =>
    unfold ackLoop at h
    unfold Recovery.ackLoop
    split_ifs at h ⊢
    · cases h
      exact ⟨⟨rfl, rfl⟩, rfl⟩
    · cases hacked : l.onPacketAcked pn epoch with
      | error e =>
        rw [hacked] at h
        cases h
      | ok result =>
        rw [hacked] at h
        obtain ⟨hbase, hnewly⟩ := onPacketAcked_erases hacked
        obtain ⟨hloop, hnewly'⟩ := ih h
        dsimp only
        rw [hbase.base, hnewly]
        exact ⟨⟨hloop.base, hloop.timer.trans hbase.timer⟩, hnewly'⟩

private theorem onPacketsLost_erases {epoch : Epoch} {ps : List Sent} {l l' : LossDetection}
    (h : onPacketsLost epoch ps l = .ok l') :
    l.Erases (ps.foldl (Recovery.onPacketLost epoch) l.toRecovery) l' := by
  induction ps generalizing l with
  | nil =>
    cases h
    exact ⟨rfl, rfl⟩
  | cons p ps ih =>
    unfold onPacketsLost at h
    cases hlost : l.onPacketLost epoch p with
    | error e =>
      rw [hlost] at h
      cases h
    | ok l₁ =>
      rw [hlost] at h
      obtain ⟨cc, _, heq⟩ := map_eq_ok hlost
      have hrest := ih h
      rw [← heq] at hrest
      exact ⟨hrest.base, hrest.timer⟩

theorem detectLostPackets_erases {l l' : LossDetection} {epoch : Epoch} {now lossDelay : ℕ}
    (h : l.detectLostPackets epoch now lossDelay = .ok l') :
    l.Erases (l.toRecovery.detectLostPackets epoch now lossDelay) l' := by
  have hlost := onPacketsLost_erases h
  exact ⟨hlost.base, hlost.timer⟩

private theorem processAck_erases {l l' : LossDetection} {ranges : RangeSet} {epoch : Epoch}
    {t : Timing}
    {newly : Bool} (h : l.processAck ranges epoch t = .ok (newly, l')) :
    ∃ r, l.toRecovery.onAckReceived ranges epoch t.now t.lossDelay = .ok r ∧ l.Erases r l' := by
  unfold processAck at h
  unfold Recovery.onAckReceived
  cases hlargest : ranges.largest with
  | none =>
    rw [hlargest] at h
    cases h
  | some largestAcked =>
    rw [hlargest] at h
    dsimp only at h ⊢
    by_cases hlarge : l.largestSentPkt epoch < largestAcked
    · rw [if_pos hlarge] at h
      cases h
    rw [if_neg hlarge] at h ⊢
    split at h
    · cases h
    · rename_i hloop
      cases h
      obtain ⟨hbase, hnewly⟩ := ackLoop_erases hloop
      dsimp only at hbase hnewly ⊢
      rw [hnewly]
      exact ⟨_, rfl, hbase.base, hbase.timer⟩
    · rename_i hloop
      obtain ⟨l₁, hdetect, heq⟩ := map_eq_ok h
      cases heq
      obtain ⟨hbase, hnewly⟩ := ackLoop_erases hloop
      have hlost := detectLostPackets_erases hdetect
      dsimp only at hbase hnewly ⊢
      rw [hnewly, hbase.base]
      exact ⟨_, rfl, hlost.base, hlost.timer.trans hbase.timer⟩

private theorem processTimeout_erases {l l' : LossDetection} {handshakeCompleted : Bool}
    {t : Timing}
    (h : l.processTimeout handshakeCompleted t = .ok l') :
    l.Erases (l.toRecovery.onLossDetectionTimeout handshakeCompleted t.now t.lossDelay) l' := by
  unfold processTimeout at h
  dsimp only at h
  split_ifs at h with hloss
  · have hlost := detectLostPackets_erases h
    refine ⟨?_, hlost.timer⟩
    unfold Recovery.onLossDetectionTimeout
    dsimp only
    rw [if_pos hloss]
    exact hlost.base
  · cases h
    exact ⟨rfl, rfl⟩

private theorem dropUnackedData_erases {l l' : LossDetection} {epoch : Epoch}
    (h : l.dropUnackedData epoch = .ok l') : l.Erases (l.toRecovery.dropUnackedData epoch) l' := by
  unfold dropUnackedData at h
  dsimp only at h
  split_ifs at h
  · obtain ⟨cc, _, heq⟩ := map_eq_ok h
    cases heq
    exact ⟨rfl, rfl⟩
  · cases h
    exact ⟨rfl, rfl⟩

/-- Without the controller, and up to the timer, a call is one of `Recovery`. -/
theorem beforeTimer_erases {l l' : LossDetection} {call : RecoveryCall} {sets : Bool}
    (h : l.beforeTimer call = .ok (sets, l')) :
    ∃ r, l.toRecovery.call call = .ok r ∧ l.Erases r l' := by
  cases call with
  | onPacketSent pkt epoch handshakeCompleted t =>
    cases h
    exact ⟨_, rfl, rfl, rfl⟩
  | onAckReceived ranges epoch handshakeCompleted t => exact processAck_erases h
  | onLossDetectionTimeout handshakeCompleted t =>
    obtain ⟨l₁, hresult, heq⟩ := map_eq_ok h
    cases heq
    exact ⟨_, rfl, processTimeout_erases hresult⟩
  | dropUnackedData epoch =>
    obtain ⟨l₁, hresult, heq⟩ := map_eq_ok h
    cases heq
    exact ⟨_, rfl, dropUnackedData_erases hresult⟩
  | drainAcked epoch =>
    cases h
    exact ⟨_, rfl, rfl, rfl⟩
  | drainLost epoch =>
    cases h
    exact ⟨_, rfl, rfl, rfl⟩

private theorem beforeTimer_dated {l l' : LossDetection} (h : l.Dated) {call : RecoveryCall}
    {sets : Bool}
    (hcall : l.beforeTimer call = .ok (sets, l')) :
    l'.Dated ∧ l'.lossDetectionTimer = l.lossDetectionTimer := by
  obtain ⟨r, hbase, herases⟩ := beforeTimer_erases hcall
  exact ⟨herases.base ▸ Recovery.Dated.call h hbase, herases.timer⟩

/-! ### Stopping the timer -/

/-- A packet of an epoch that the timer takes into account is outstanding. -/
def Waits (l : LossDetection) (handshakeCompleted : Bool) : Prop :=
  ∃ epoch ∈ Recovery.considered handshakeCompleted, l.outstanding epoch = true

/-- Setting the timer would stop it while a packet is outstanding: there is no loss time, and
the controller counts no bytes. -/
def Overlooks (l : LossDetection) (handshakeCompleted : Bool) : Prop :=
  (∀ epoch ∈ Recovery.considered handshakeCompleted, l.lossTime epoch = none) ∧
    l.cc.bytesInFlight = 0 ∧ l.Waits handshakeCompleted

/-- After the timer was set, it is stopped exactly if packets were overlooked. -/
theorem setLossDetectionTimer_isSome_iff {l : LossDetection} (h : l.Dated)
    {handshakeCompleted : Bool}
    (hwaits : l.Waits handshakeCompleted) (timeout : ℕ) :
    (l.setLossDetectionTimer handshakeCompleted timeout).lossDetectionTimer.isSome = true ↔
      ¬ l.Overlooks handshakeCompleted := by
  have hloss := (Recovery.earliestLossTime_earliest l.lossTime handshakeCompleted).isSome_iff
  unfold setLossDetectionTimer
  dsimp only
  by_cases hsome : (Recovery.earliestLossTime l.lossTime handshakeCompleted).1.isSome = true
  · rw [if_pos hsome]
    refine iff_of_true hsome fun hoverlooks => ?_
    obtain ⟨epoch, hmem, htime⟩ := hloss.mp hsome
    rw [hoverlooks.1 epoch hmem] at htime
    cases htime
  rw [if_neg hsome]
  have hnone : ∀ epoch ∈ Recovery.considered handshakeCompleted, l.lossTime epoch = none := by
    intro epoch hmem
    by_contra htime
    exact hsome (hloss.mpr ⟨epoch, hmem, Option.isSome_iff_ne_none.mpr htime⟩)
  by_cases hbytes : l.cc.bytesInFlight = 0
  · rw [if_pos hbytes]
    exact iff_of_false (by simp) fun hnot => hnot ⟨hnone, hbytes, hwaits⟩
  rw [if_neg hbytes]
  refine iff_of_true ?_ fun hoverlooks => hbytes hoverlooks.2.1
  -- the epoch that waits has sent an ack-eliciting packet, so there is a time to wait for
  obtain ⟨epoch, hmem, hout⟩ := hwaits
  have htime := (Recovery.earliestLossTime_earliest l.timeOfLastSentAckElicitingPkt
    handshakeCompleted).isSome_iff.mpr ⟨epoch, hmem, h epoch hout⟩
  obtain ⟨sentTime, hsent⟩ := Option.isSome_iff_exists.mp htime
  rw [hsent]
  rfl

end LossDetection

/-! ### Staying awake -/

/-- Loss recovery, and whether the connection last said that the handshake is complete. -/
structure Monitor where
  loss : LossDetection
  handshakeCompleted : Bool

namespace Monitor

/-- Nothing is sent, and the handshake is not complete. -/
def new (algorithm : CongestionControlAlgorithm) : Monitor := ⟨.new algorithm, false⟩

/-- What the connection says of the handshake with a call. -/
def completed (m : Monitor) (call : RecoveryCall) : Bool :=
  call.handshakeCompleted.getD m.handshakeCompleted

/-- The state after a call that returns. -/
def step (m : Monitor) (call : RecoveryCall) : Option Monitor :=
  (m.loss.step call).map fun loss => ⟨loss, m.completed call⟩

/-- The timer is set if a packet is outstanding. -/
def Awake (m : Monitor) : Prop :=
  m.loss.Waits m.handshakeCompleted → m.loss.lossDetectionTimer.isSome = true

/-- A call does not leave the timer stopped while a packet is outstanding: where it sets the
timer, no packet is overlooked, and where it does not, it leaves none waiting that was not. -/
def Attends (m : Monitor) (call : RecoveryCall) : Prop :=
  match m.loss.beforeTimer call with
  | .ok (true, l) => ¬ l.Overlooks (m.completed call)
  | .ok (false, l) => m.loss.lossDetectionTimer = none → ¬ l.Waits (m.completed call)
  | .error _ => m.loss.lossDetectionTimer = none → ¬ m.loss.Waits (m.completed call)

/-- Only calls that say something of the handshake set the timer. -/
theorem completed_of_sets {m : Monitor} {call : RecoveryCall} {l : LossDetection}
    (h : m.loss.beforeTimer call = .ok (true, l)) :
    call.handshakeCompleted.getD false = m.completed call := by
  cases call with
  | onPacketSent pkt epoch handshakeCompleted t => rfl
  | onAckReceived ranges epoch handshakeCompleted t => rfl
  | onLossDetectionTimeout handshakeCompleted t => rfl
  | dropUnackedData epoch =>
    obtain ⟨_, _, heq⟩ := LossDetection.map_eq_ok h
    cases heq
  | drainAcked epoch => cases h
  | drainLost epoch => cases h

/-- After a call, loss recovery is awake exactly if the call attends to the packets. -/
theorem awake_step_iff {m m' : Monitor} {call : RecoveryCall} (h : m.loss.Dated)
    (hstep : m.step call = some m') : m'.loss.Dated ∧ (m'.Awake ↔ m.Attends call) := by
  obtain ⟨loss, hloss, rfl⟩ := Option.map_eq_some_iff.mp hstep
  rw [LossDetection.step, LossDetection.call_eq] at hloss
  unfold Awake Attends
  cases hbefore : m.loss.beforeTimer call with
  | error e =>
    rw [hbefore] at hloss
    have heq : m.loss = loss := by cases e <;> first | exact Option.some.inj hloss | cases hloss
    rw [← heq, ← not_imp_not, Bool.not_eq_true, Option.isSome_eq_false_iff,
      Option.isNone_iff_eq_none]
    exact ⟨h, .rfl⟩
  | ok result =>
    obtain ⟨sets, l⟩ := result
    obtain ⟨hdated, htimer⟩ := LossDetection.beforeTimer_dated h hbefore
    rw [hbefore] at hloss
    cases sets with
    | false =>
      have heq : l = loss := Option.some.inj hloss
      rw [← heq, ← not_imp_not, Bool.not_eq_true, Option.isSome_eq_false_iff,
        Option.isNone_iff_eq_none, htimer]
      exact ⟨hdated, .rfl⟩
    | true =>
      have heq : l.setLossDetectionTimer (m.completed call) call.timeout = loss := by
        rw [← completed_of_sets hbefore]
        exact Option.some.inj hloss
      have hbase := LossDetection.setLossDetectionTimer_toRecovery l (m.completed call) call.timeout
      dsimp only
      rw [← heq, LossDetection.Waits, hbase]
      refine ⟨hdated, fun hawake hoverlooks => ?_, fun hattends hwaits => ?_⟩
      · have hwaits := hoverlooks.2.2
        exact (LossDetection.setLossDetectionTimer_isSome_iff hdated hwaits _).mp
          (hawake hwaits) hoverlooks
      · exact (LossDetection.setLossDetectionTimer_isSome_iff hdated hwaits _).mpr hattends

/-- Loss recovery stays awake along a run exactly if all calls attend to the packets. -/
theorem awake_iff_attends (algorithm : CongestionControlAlgorithm) (calls : List RecoveryCall) :
    Lib.Always step Awake (new algorithm) calls ↔
      Lib.AllSteps step (fun m call => (m.step call).isSome →
          m.Attends call) (new algorithm) calls := by
  refine Lib.always_iff_allSteps (I := fun m => m.loss.Dated) ?_ ?_ nofun ?_
  · intro m call m' h hstep
    exact (awake_step_iff h hstep).1
  · intro m call m' h _ hstep
    exact (awake_step_iff h hstep).2
  · rintro ⟨epoch, _, hout⟩
    cases hout

/-- The first packet of a handshake. -/
def clientHello : RecoveryCall :=
  .onPacketSent ⟨0, [.crypto ⟨List.replicate 300 0, 0, false⟩], 0, 1200, true, true, .none⟩
    .initial false ⟨0, 0, 1000⟩

/-- The first packet of a handshake is overlooked. -/
theorem not_awake : ¬ ∀ algorithm calls, Lib.Always step Awake (new algorithm) calls := by
  intro hall
  have hawake : Awake _ := (hall .reno [clientHello]).2 _ rfl
  have htimer := hawake ⟨.initial, List.mem_cons_of_mem _ List.mem_cons_self, rfl⟩
  cases htimer

end Monitor

/-! ### Probing -/

/-- Loss recovery, and the epochs that were dropped. -/
structure Dropping where
  recovery : Recovery
  dropped : List Epoch

namespace Dropping

/-- Nothing is sent, and no epoch was dropped. -/
def new : Dropping := ⟨.new, []⟩

/-- The state after a call that returns. -/
def step (d : Dropping) (call : RecoveryCall) : Option Dropping :=
  (d.recovery.step call).map fun r =>
    ⟨r, match call with
      | .dropUnackedData epoch => epoch :: d.dropped
      | _ => d.dropped⟩

/-- A timeout sets the probes of an epoch, whatever they were. -/
def Probes (r : Recovery) (handshakeCompleted : Bool) (epoch : Epoch) : Prop :=
  ∀ now lossDelay probes,
    ({ r with lossProbes := probes }.onLossDetectionTimeout
      handshakeCompleted now lossDelay).lossProbes =
      Epoch.update probes epoch 2

/-- A timeout declares packets lost, or sets the probes of an epoch that has an ack-eliciting
packet outstanding and was not dropped. -/
def ProbesWell (d : Dropping) (handshakeCompleted : Bool) : Prop :=
  (∃ epoch ∈ Recovery.considered handshakeCompleted,
      (d.recovery.lossTime epoch).isSome = true ∧ ∀ now lossDelay,
        d.recovery.onLossDetectionTimeout handshakeCompleted now lossDelay =
          d.recovery.detectLostPackets epoch now lossDelay) ∨
    ∃ epoch, Probes d.recovery handshakeCompleted epoch ∧ d.recovery.outstanding epoch = true ∧
      epoch ∉ d.dropped

/-- An epoch that the timer takes into account has a loss time, or else some have sent an
ack-eliciting packet, and the one that did so first has one outstanding and was not dropped. -/
def Due (d : Dropping) (handshakeCompleted : Bool) : Prop :=
  (∃ epoch ∈ Recovery.considered handshakeCompleted, (d.recovery.lossTime epoch).isSome = true) ∨
    ∃ epoch t, Recovery.earliestLossTime d.recovery.timeOfLastSentAckElicitingPkt
      handshakeCompleted =
      (some t, epoch) ∧ d.recovery.outstanding epoch = true ∧ epoch ∉ d.dropped

/-- Probes are sent where the earliest packet is. -/
theorem probes_iff {r : Recovery} {handshakeCompleted : Bool}
    (hloss : ¬ ∃ epoch ∈ Recovery.considered handshakeCompleted, (r.lossTime epoch).isSome = true)
    (epoch : Epoch) : Probes r handshakeCompleted epoch ↔
      (Recovery.earliestLossTime r.timeOfLastSentAckElicitingPkt handshakeCompleted).2 = epoch := by
  have hnone :=
    mt (Recovery.earliestLossTime_earliest r.lossTime handshakeCompleted).isSome_iff.mp hloss
  unfold Probes Recovery.onLossDetectionTimeout
  dsimp only
  simp only [if_neg hnone]
  constructor
  · intro hprobes
    by_contra hne
    have := congrFun (hprobes 0 0 fun _ => 0) epoch
    rw [Epoch.update_same, Epoch.update_of_ne (Ne.symm hne)] at this
    cases this
  · rintro rfl now lossDelay probes
    rfl

/-- A timeout probes an epoch that has something to probe exactly if one is due. -/
theorem probesWell_iff {d : Dropping} (h : d.recovery.Dated) (handshakeCompleted : Bool) :
    d.ProbesWell handshakeCompleted ↔ d.Due handshakeCompleted := by
  have hearliest := Recovery.earliestLossTime_earliest d.recovery.lossTime handshakeCompleted
  by_cases hloss : ∃ epoch ∈ Recovery.considered handshakeCompleted,
      (d.recovery.lossTime epoch).isSome = true
  · have hsome := hearliest.isSome_iff.mpr hloss
    refine iff_of_true (.inl ⟨_, hearliest.mem, hearliest.time ▸ hsome, fun now lossDelay => ?_⟩)
      (.inl hloss)
    unfold Recovery.onLossDetectionTimeout
    dsimp only
    rw [if_pos hsome]
  have htimes := Recovery.earliestLossTime_earliest d.recovery.timeOfLastSentAckElicitingPkt
    handshakeCompleted
  constructor
  · rintro (⟨epoch, hmem, hsome, _⟩ | ⟨epoch, hprobes, hout, hdropped⟩)
    · exact absurd ⟨epoch, hmem, hsome⟩ hloss
    · have hepoch := (probes_iff hloss epoch).mp hprobes
      obtain ⟨t, ht⟩ := Option.isSome_iff_exists.mp (h epoch hout)
      refine .inr ⟨epoch, t, Prod.ext ?_ hepoch, hout, hdropped⟩
      rw [htimes.time, hepoch, ht]
  · rintro (hloss' | ⟨epoch, t, htime, hout, hdropped⟩)
    · exact absurd hloss' hloss
    · exact .inr ⟨epoch, (probes_iff hloss epoch).mpr (by rw [htime]), hout, hdropped⟩

/-- In every state that calls reach, a timeout probes an epoch that has something to probe
exactly if one is due. -/
theorem run_probesWell_iff {calls : List RecoveryCall} {d : Dropping}
    (hrun : Lib.run step new calls = some d) (handshakeCompleted : Bool) :
    d.ProbesWell handshakeCompleted ↔ d.Due handshakeCompleted := by
  refine probesWell_iff (Lib.run_invariant (I := fun d => d.recovery.Dated) ?_ nofun hrun) _
  intro d call d' hdated hstep
  obtain ⟨r, hr, rfl⟩ := Option.map_eq_some_iff.mp hstep
  exact hdated.step hr

end Dropping

end Dtp
