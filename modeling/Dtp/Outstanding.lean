import Dtp.Recovery

/-!
# The weight of outstanding frames

The frames of packets that were sent, and are neither acked nor lost, and the frames of lost
packets that wait to be sent again, counted with weights. Only a packet that is sent adds to
the weight: what is acked or recovered is taken away, and what is lost is moved.

## Main definitions

* `Recovery.load` — the weight of the frames of an epoch
* `Recovery.Lightens` — no weight grows

## Main results

* `Recovery.load_onPacketSent` — a packet adds no more than its frames
* `Recovery.onAckReceived_lightens`, `Recovery.detectLostPackets_lightens`
-/

namespace Dtp

/-- The weight of some frames. -/
def framesLoad (w : Frame → ℕ) (frames : List Frame) : ℕ := (frames.map w).sum

/-- The weight of the frames of some packets. -/
def sentLoad (w : Frame → ℕ) (sent : List Sent) : ℕ := (sent.map fun p => framesLoad w p.frames).sum

/-- The length of the data of a STREAM frame. -/
def Frame.streamLen : Frame → ℕ
  | .stream _ data => data.len
  | _ => 0

section Load

variable {w : Frame → ℕ}

@[simp] theorem framesLoad_nil : framesLoad w [] = 0 := rfl

@[simp] theorem framesLoad_cons (f : Frame) (fs : List Frame) :
    framesLoad w (f :: fs) = w f + framesLoad w fs := rfl

@[simp] theorem framesLoad_append (fs gs : List Frame) :
    framesLoad w (fs ++ gs) = framesLoad w fs + framesLoad w gs := by
  simp [framesLoad]

theorem framesLoad_eq_zero {fs : List Frame} (h : ∀ f ∈ fs, w f = 0) : framesLoad w fs = 0 := by
  induction fs with
  | nil => rfl
  | cons f fs ih =>
    rw [framesLoad_cons, h f List.mem_cons_self, ih fun g hg => h g (List.mem_cons_of_mem f hg)]

@[simp] theorem sentLoad_nil : sentLoad w [] = 0 := rfl

@[simp] theorem sentLoad_cons (p : Sent) (sent : List Sent) :
    sentLoad w (p :: sent) = framesLoad w p.frames + sentLoad w sent := rfl

@[simp] theorem sentLoad_append (sent sent' : List Sent) :
    sentLoad w (sent ++ sent') = sentLoad w sent + sentLoad w sent' := by
  simp [sentLoad]

private theorem sentLoad_filter_le (P : Sent → Bool) (sent : List Sent) :
    sentLoad w (sent.filter P) ≤ sentLoad w sent := by
  induction sent with
  | nil => exact le_rfl
  | cons p sent ih =>
    by_cases hp : P p = true
    · rw [List.filter_cons_of_pos hp]
      simpa using ih
    · rw [List.filter_cons_of_neg hp, sentLoad_cons]
      omega

/-- Packets that are picked by two tests, of which no packet passes both. -/
theorem sentLoad_filter_add (P Q : Sent → Bool) (sent : List Sent)
    (h : ∀ p ∈ sent, P p = true → Q p = false) :
    sentLoad w (sent.filter P) + sentLoad w (sent.filter Q) ≤ sentLoad w sent := by
  induction sent with
  | nil => exact le_rfl
  | cons p sent ih =>
    have ih := ih fun q hq => h q (List.mem_cons_of_mem p hq)
    have hp := h p List.mem_cons_self
    cases hP : P p with
    | true =>
      rw [List.filter_cons_of_pos hP, List.filter_cons_of_neg (by simp [hp hP]), sentLoad_cons,
        sentLoad_cons]
      omega
    | false =>
      rw [List.filter_cons_of_neg (by simp [hP]), sentLoad_cons]
      cases hQ : Q p with
      | true =>
        rw [List.filter_cons_of_pos hQ, sentLoad_cons]
        omega
      | false =>
        rw [List.filter_cons_of_neg (by simp [hQ])]
        omega

private theorem sentLoad_map_le {f : Sent → Sent}
    (hf : ∀ p, framesLoad w (f p).frames ≤ framesLoad w p.frames)
    (sent : List Sent) : sentLoad w (sent.map f) ≤ sentLoad w sent := by
  induction sent with
  | nil => exact le_rfl
  | cons p sent ih =>
    have := hf p
    rw [List.map_cons, sentLoad_cons, sentLoad_cons]
    omega

end Load

namespace Recovery

/-- The weight of the frames of an epoch that are outstanding or lost. -/
def load (w : Frame → ℕ) (r : Recovery) (e : Epoch) : ℕ :=
  sentLoad w (r.sent e) + framesLoad w (r.lost e)

/-- No frames are added to the outstanding and lost ones. -/
def Lightens (r r' : Recovery) : Prop := ∀ w e, r'.load w e ≤ r.load w e

instance : IsPreorder Recovery Lightens where
  refl _ _ _ := le_rfl
  trans _ _ _ h h' w e := (h' w e).trans (h w e)

theorem lightens_of_eq {r r' : Recovery} (hsent : r'.sent = r.sent) (hlost : r'.lost = r.lost) :
    r.Lightens r' := fun w e => by rw [load, load, hsent, hlost]

/-- A change of one epoch. -/
theorem lightens_at {r r' : Recovery} (epoch : Epoch) (h : ∀ w, r'.load w epoch ≤ r.load w epoch)
    (hne : ∀ e, e ≠ epoch → r'.sent e = r.sent e ∧ r'.lost e = r.lost e) : r.Lightens r' := by
  intro w e
  rcases eq_or_ne e epoch with rfl | he
  · exact h w
  · rw [load, load, (hne e he).1, (hne e he).2]

theorem modifyFecGroup_lightens (r : Recovery) (info : FecStatus)
    (f : FecPacketNumbers → FecPacketNumbers) :
    r.Lightens (r.modifyFecGroup info f) := by
  unfold modifyFecGroup
  split_ifs
  · exact refl_of Lightens r
  · exact lightens_of_eq rfl rfl

private theorem onPacketRecovered_lightens (r : Recovery) (pktNum : ℕ) :
    r.Lightens (r.onPacketRecovered pktNum) := by
  unfold onPacketRecovered
  cases (r.sent .application).find? fun p => p.pktNum == pktNum with
  | none => exact refl_of Lightens r
  | some p =>
    refine lightens_at .application (fun w => ?_) fun e he => ⟨Epoch.update_of_ne he, rfl⟩
    simp only [load, Epoch.update_same]
    refine Nat.add_le_add_right (sentLoad_map_le (fun q => ?_) _) _
    split_ifs
    · exact Nat.zero_le _
    · exact le_rfl

private theorem onPacketAcked_lightens (r : Recovery) (pktNum : ℕ) (epoch : Epoch) :
    r.Lightens (r.onPacketAcked pktNum epoch).2 := by
  unfold onPacketAcked
  cases (r.sent epoch).find? fun p => p.pktNum == pktNum with
  | none => exact refl_of Lightens r
  | some p =>
    have hrecovered (pns : List ℕ) (r : Recovery) : r.Lightens (pns.foldl onPacketRecovered r) := by
      induction pns generalizing r with
      | nil => exact refl_of Lightens r
      | cons pn pns ih => exact trans_of Lightens (onPacketRecovered_lightens r pn) (ih _)
    refine trans_of Lightens (trans_of Lightens ?_ (modifyFecGroup_lightens _ p.fecInfo _))
      (hrecovered _ _)
    refine lightens_at epoch (fun w => ?_) fun e he => ⟨Epoch.update_of_ne he, rfl⟩
    simp only [load, Epoch.update_same]
    exact Nat.add_le_add_right (sentLoad_filter_le _ _) _

private theorem ackLoop_lightens (epoch : Epoch) (pns : List ℕ) (newly : Bool) (r : Recovery) :
    r.Lightens (ackLoop epoch pns (newly, r)).2 := by
  apply ackLoop_induct (P := r.Lightens)
  · intro r₁ h pn _
    exact trans_of Lightens h (onPacketAcked_lightens r₁ pn epoch)
  · exact refl_of Lightens r

/-- What losing a packet does to the lists of its epoch. -/
theorem onPacketLost_lists (epoch : Epoch) (r : Recovery) (p : Sent) :
    (onPacketLost epoch r p).sent = Epoch.update r.sent epoch
    ((r.sent epoch).filter fun q => q.pktNum ≠ p.pktNum) ∧
      (onPacketLost epoch r p).lost = if p.inFlight then Epoch.update r.lost epoch
        (r.lost epoch ++ p.frames)
        else r.lost := by
  have hgroup (r : Recovery) (f : FecPacketNumbers → FecPacketNumbers) :
      (r.modifyFecGroup p.fecInfo f).sent = r.sent ∧
          (r.modifyFecGroup p.fecInfo f).lost = r.lost := by
    unfold modifyFecGroup
    split_ifs
    · exact ⟨rfl, rfl⟩
    · exact ⟨rfl, rfl⟩
  unfold onPacketLost
  split_ifs
  · dsimp only
    rw [(hgroup _ _).1, (hgroup _ _).2]
    exact ⟨rfl, rfl⟩
  · exact ⟨rfl, rfl⟩

/-- Lost packets are removed, and their frames are moved. -/
theorem onPacketsLost_load (w : Frame → ℕ) (epoch : Epoch) (ps : List Sent) (r : Recovery) :
    ((ps.foldl (onPacketLost epoch) r).sent epoch =
        (r.sent epoch).filter fun q => ps.all fun p => q.pktNum ≠ p.pktNum) ∧
      framesLoad w ((ps.foldl (onPacketLost epoch) r).lost epoch) ≤ framesLoad w
          (r.lost epoch) + sentLoad w ps := by
  induction ps generalizing r with
  | nil => simp
  | cons p ps ih =>
    obtain ⟨hsent, hlost⟩ := onPacketLost_lists epoch r p
    obtain ⟨ihsent, ihlost⟩ := ih (onPacketLost epoch r p)
    rw [List.foldl_cons]
    constructor
    · rw [ihsent, hsent, Epoch.update_same, List.filter_filter]
      congr 1
      funext q
      rw [List.all_cons, Bool.and_comm]
    · refine ihlost.trans ?_
      rw [hlost, sentLoad_cons]
      split_ifs
      · rw [Epoch.update_same, framesLoad_append]
        omega
      · omega

theorem onPacketsLost_of_ne {epoch e : Epoch} (he : e ≠ epoch) (ps : List Sent) (r : Recovery) :
    (ps.foldl (onPacketLost epoch) r).sent e = r.sent e ∧
    (ps.foldl (onPacketLost epoch) r).lost e = r.lost e := by
  induction ps generalizing r with
  | nil => exact ⟨rfl, rfl⟩
  | cons p ps ih =>
    obtain ⟨hsent, hlost⟩ := onPacketLost_lists epoch r p
    obtain ⟨ihsent, ihlost⟩ := ih (onPacketLost epoch r p)
    rw [List.foldl_cons, ihsent, ihlost, hsent, hlost, Epoch.update_of_ne he]
    refine ⟨rfl, ?_⟩
    split_ifs
    · exact Epoch.update_of_ne he
    · rfl

theorem detectLostPackets_lightens (r : Recovery) (epoch : Epoch) (now lossDelay : ℕ) :
    r.Lightens (r.detectLostPackets epoch now lossDelay) := by
  unfold detectLostPackets
  dsimp only
  refine lightens_at epoch (fun w => ?_) fun e he => onPacketsLost_of_ne he _ _
  generalize isLost (r.largestAckedPkt epoch) now lossDelay = lost
  obtain ⟨hsent, hlost⟩ := onPacketsLost_load w epoch ((r.sent epoch).filter lost)
    { r with lossTime := Epoch.update r.lossTime epoch (((r.sent epoch).filter fun p =>
        decide (p.pktNum ≤ r.largestAckedPkt epoch) && !lost p).map fun p =>
          p.time + lossDelay).min? }
  -- a packet that stays is not lost
  have hsplit := sentLoad_filter_add (w := w)
    (fun q => ((r.sent epoch).filter lost).all fun p => q.pktNum ≠ p.pktNum) lost (r.sent epoch)
    fun q hq hkept => by
      refine Bool.eq_false_iff.mpr fun hlost => ?_
      have hne := List.all_eq_true.mp hkept q (List.mem_filter.mpr ⟨hq, hlost⟩)
      simp at hne
  rw [load, hsent, load]
  dsimp only at hlost ⊢
  omega

theorem onAckReceived_lightens {r r' : Recovery} {ranges : RangeSet} {epoch : Epoch}
    {now lossDelay : ℕ}
    (h : r.onAckReceived ranges epoch now lossDelay = .ok r') : r.Lightens r' := by
  apply onAckReceived_induct h
  · intro r₁ h₁
    exact trans_of Lightens h₁ (detectLostPackets_lightens r₁ epoch now lossDelay)
  · intro r₁ h₁
    exact trans_of Lightens h₁ (ackLoop_lightens epoch _ false r₁)
  · intro largestAckedPkt
    exact lightens_of_eq rfl rfl

theorem onLossDetectionTimeout_lightens (r : Recovery) (handshakeCompleted : Bool)
    (now lossDelay : ℕ) :
    r.Lightens (r.onLossDetectionTimeout handshakeCompleted now lossDelay) := by
  unfold onLossDetectionTimeout
  dsimp only
  split_ifs
  · exact detectLostPackets_lightens r _ now lossDelay
  · exact lightens_of_eq rfl rfl

theorem dropUnackedData_lightens (r : Recovery) (epoch : Epoch) :
    r.Lightens (r.dropUnackedData epoch) := by
  refine lightens_at epoch (fun w => ?_) fun e he => ⟨Epoch.update_of_ne he, Epoch.update_of_ne he⟩
  simp [load, dropUnackedData]

/-- Frames of lost packets are taken off the list. -/
theorem load_takeLost (w : Frame → ℕ) {r : Recovery} {epoch : Epoch} {frame : Frame}
    {frames : List Frame}
    (h : r.lost epoch = frame :: frames) :
    Recovery.load w { r with lost := Epoch.update r.lost epoch frames } epoch + w frame =
        r.load w epoch := by
  simp only [load, Epoch.update_same, h, framesLoad_cons]
  omega

theorem takeLost_lightens {r : Recovery} {epoch : Epoch} {frame : Frame} {frames : List Frame}
    (h : r.lost epoch = frame :: frames) :
    r.Lightens { r with lost := Epoch.update r.lost epoch frames } :=
  lightens_at epoch (fun w => (Nat.le_add_right _ _).trans (load_takeLost w h).le) fun _ he =>
    ⟨rfl, Epoch.update_of_ne he⟩

theorem clearLost_lightens (r : Recovery) (epoch : Epoch) :
    r.Lightens { r with lost := Epoch.update r.lost epoch [] } := by
  refine lightens_at epoch (fun w => ?_) fun _ he => ⟨rfl, Epoch.update_of_ne he⟩
  simp only [load, Epoch.update_same, framesLoad_nil]
  omega

/-- A packet adds its frames to those of its epoch. -/
theorem load_onPacketSent (w : Frame → ℕ) (r : Recovery) (pkt : Sent) (epoch : Epoch) (now : ℕ)
    (e : Epoch) :
    (r.onPacketSent pkt epoch now).load w e ≤
      r.load w e + if e = epoch then framesLoad w pkt.frames else 0 := by
  have hgroup := modifyFecGroup_lightens r pkt.fecInfo
    (fun g => g.packetSent pkt.fecInfo.index pkt.pktNum) w e
  unfold onPacketSent
  dsimp only
  generalize r.modifyFecGroup pkt.fecInfo (fun g => g.packetSent pkt.fecInfo.index pkt.pktNum) =
    r₁ at hgroup ⊢
  refine le_trans ?_ (Nat.add_le_add_right hgroup _)
  rcases eq_or_ne e epoch with rfl | he
  · have hsplit := sentLoad_filter_add (w := w) (fun p => p.pktNum < pkt.pktNum)
      (fun p => pkt.pktNum < p.pktNum)
      (r₁.sent e) fun p _ hp => by
        simp only [decide_eq_true_eq, decide_eq_false_iff_not] at hp ⊢
        omega
    simp only [load, Epoch.update_same, insertSent, sentLoad_append, sentLoad_cons, if_true]
    omega
  · simp only [load, Epoch.update_of_ne he, if_neg he]
    exact le_rfl

end Recovery

end Dtp
