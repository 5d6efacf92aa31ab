import Dtp.Probes
import Dtp.Spaces

/-!
# Epochs of which nothing is left

The keys of the Initial and the Handshake epoch are discarded during a connection, and with
them the packets of the epoch and the data that waits in it. From then on, no call brings
anything back into the epoch; only the timer of loss recovery may still ask for probes.

## Main definitions

* `Recovery.Barren` — nothing of an epoch is outstanding, lost, or to be probed
* `Connection.Cleared` — and nothing else in the epoch asks for a packet
* `Connection.Fades` — keys are only discarded with all that is left of their epoch

## Main results

* `Recovery.Barren.onLossDetectionTimeout` — a timeout that is due leaves other epochs alone
* `Connection.processFrame_fades` and the other theorems of this form
-/

namespace Dtp

open Lib (Program)

namespace Recovery

/-- Nothing of the epoch is outstanding, waits to be sent again, or is to be probed. -/
structure Barren (r : Recovery) (e : Epoch) : Prop where
  sent : r.sent e = []
  lost : r.lost e = []
  lossProbes : r.lossProbes e = 0

variable {r r' : Recovery} {e : Epoch}

theorem Barren.of_eq (h : r.Barren e) (hsent : r'.sent e = r.sent e) (hlost : r'.lost e = r.lost e)
    (hprobes : r'.lossProbes e = r.lossProbes e) : r'.Barren e :=
  ⟨hsent.trans h.sent, hlost.trans h.lost, hprobes.trans h.lossProbes⟩

/-- Groups hold no frames. -/
theorem Barren.modifyFecGroup (h : r.Barren e) (info : FecStatus)
    (f : FecPacketNumbers → FecPacketNumbers) : (r.modifyFecGroup info f).Barren e := by
  unfold Recovery.modifyFecGroup
  split_ifs
  · exact h
  · exact h.of_eq rfl rfl rfl

/-- What is empty cannot be rebuilt. -/
theorem Barren.onPacketRecovered (h : r.Barren e) (pktNum : ℕ) :
    (r.onPacketRecovered pktNum).Barren e := by
  unfold Recovery.onPacketRecovered
  cases hfind : (r.sent .application).find? fun p => p.pktNum == pktNum with
  | none => exact h
  | some p =>
    refine h.of_eq (Epoch.update_of_ne ?_) rfl rfl
    rintro rfl
    rw [h.sent] at hfind
    cases hfind

/-- Nothing is acknowledged where nothing was sent. -/
theorem Barren.onPacketAcked (h : r.Barren e) (pktNum : ℕ) (epoch : Epoch) :
    (r.onPacketAcked pktNum epoch).2.Barren e := by
  have hrecovered (pns : List ℕ) {r : Recovery} (h : r.Barren e) :
      (pns.foldl Recovery.onPacketRecovered r).Barren e := by
    induction pns generalizing r with
    | nil => exact h
    | cons pn pns ih => exact ih (h.onPacketRecovered pn)
  unfold Recovery.onPacketAcked
  cases hfind : (r.sent epoch).find? fun p => p.pktNum == pktNum with
  | none => exact h
  | some p =>
    have hne : e ≠ epoch := by
      rintro rfl
      rw [h.sent] at hfind
      cases hfind
    have hremoved : Barren { r with
        acked := Epoch.update r.acked epoch (r.acked epoch ++ p.frames)
        sent := Epoch.update r.sent epoch ((r.sent epoch).filter fun q => q.pktNum ≠ pktNum) } e :=
      h.of_eq (Epoch.update_of_ne hne) rfl rfl
    exact hrecovered _ (hremoved.modifyFecGroup _ _)

/-- A packet of another epoch is sent. -/
theorem Barren.onPacketSent (h : r.Barren e) {epoch : Epoch} (hne : e ≠ epoch) (pkt : Sent)
    (now : ℕ) : (r.onPacketSent pkt epoch now).Barren e :=
  (h.modifyFecGroup pkt.fecInfo _).of_eq (Epoch.update_of_ne hne) rfl rfl

/-- Packets of other epochs are lost. -/
theorem Barren.onPacketLost (h : r.Barren e) {epoch : Epoch} (hne : e ≠ epoch) (p : Sent) :
    (Recovery.onPacketLost epoch r p).Barren e := by
  have hremoved : Barren { r with
      sent := Epoch.update r.sent epoch ((r.sent epoch).filter fun q => q.pktNum ≠ p.pktNum)
      lostCount := r.lostCount + 1 } e := h.of_eq (Epoch.update_of_ne hne) rfl rfl
  unfold Recovery.onPacketLost
  split_ifs
  · exact (hremoved.modifyFecGroup _ _).of_eq rfl (Epoch.update_of_ne hne) rfl
  · exact hremoved

/-- Nothing is lost where nothing was sent. -/
theorem Barren.detectLostPackets (h : r.Barren e) (epoch : Epoch) (now lossDelay : ℕ) :
    (r.detectLostPackets epoch now lossDelay).Barren e := by
  apply detectLostPackets_induct (P := fun r' => r'.Barren e)
  · intro r' hr' p hp
    refine hr'.onPacketLost ?_ p
    rintro rfl
    rw [h.sent] at hp
    cases hp
  · exact fun _ => h.of_eq rfl rfl rfl

/-- An ACK frame finds nothing where nothing was sent. -/
theorem Barren.onAckReceived (h : r.Barren e) {ranges : RangeSet} {epoch : Epoch}
    {now lossDelay : ℕ} (hack : r.onAckReceived ranges epoch now lossDelay = .ok r') :
    r'.Barren e := by
  apply onAckReceived_induct (P := fun r => r.Barren e) hack
  · exact fun _ hr => hr.detectLostPackets epoch now lossDelay
  · intro r₁ h₁
    exact ackLoop_induct (P := fun r => r.Barren e) (fun _ h₂ pn _ => h₂.onPacketAcked pn epoch) h₁
      false
  · exact fun _ => h.of_eq rfl rfl rfl

/-- After it is dropped, an epoch is empty. -/
theorem barren_dropUnackedData (r : Recovery) (epoch : Epoch) :
    (r.dropUnackedData epoch).Barren epoch :=
  ⟨Epoch.update_same _ _ _, Epoch.update_same _ _ _, Epoch.update_same _ _ _⟩

/-- What is empty stays so when another epoch is dropped. -/
theorem Barren.dropUnackedData (h : r.Barren e) (epoch : Epoch) :
    (r.dropUnackedData epoch).Barren e := by
  rcases eq_or_ne e epoch with rfl | hne
  · exact barren_dropUnackedData r e
  · exact h.of_eq (Epoch.update_of_ne hne) (Epoch.update_of_ne hne) (Epoch.update_of_ne hne)

/-- A timeout that is due does not probe an epoch in which nothing is outstanding. -/
theorem Barren.onLossDetectionTimeout (h : r.Barren e) {handshakeCompleted : Bool}
    {dropped : List Epoch} (hdue : (⟨r, dropped⟩ : Dropping).Due handshakeCompleted)
    (now lossDelay : ℕ) : (r.onLossDetectionTimeout handshakeCompleted now lossDelay).Barren e := by
  have hearliest := earliestLossTime_earliest r.lossTime handshakeCompleted
  unfold Recovery.onLossDetectionTimeout
  dsimp only
  split_ifs with hloss
  · exact h.detectLostPackets _ now lossDelay
  · refine h.of_eq rfl rfl (Epoch.update_of_ne ?_)
    rcases hdue with hloss' | ⟨epoch, t, htime, hout, _⟩
    · exact absurd (hearliest.isSome_iff.mpr hloss') hloss
    · intro heq
      obtain rfl : e = epoch := heq.trans (congrArg Prod.snd htime)
      rw [outstanding, h.sent] at hout
      cases hout

end Recovery

namespace Connection

/-- An epoch without keys to seal packets, in which nothing asks for one. -/
structure Cleared (s : PktNumSpace) (r : Recovery) (e : Epoch) : Prop where
  cryptoSeal : s.cryptoSeal = false
  ready : s.ready = false
  barren : r.Barren e

/-- The keys of the epoch may be discarded: those of the Initial epoch once there are
Handshake keys, and those once the handshake is complete. -/
def MayDiscard (c : Connection) : Epoch → Prop
  | .initial => (c.pktNumSpaces .handshake).cryptoOpen = true
  | .handshake => c.isEstablished = true
  | .application => False

/-- The handshake is as far as before, cleared epochs stay so, and keys are only discarded when
they may be, with everything that is left of their epoch. -/
structure Fades (c c' : Connection) : Prop where
  derivedInitialSecrets : c'.derivedInitialSecrets = c.derivedInitialSecrets
  isEstablished : c'.isEstablished = c.isEstablished
  writeLevel : c'.writeLevel = c.writeLevel
  cleared : ∀ e, e ≠ .application → (c.pktNumSpaces e).cryptoOpen = false →
    Cleared (c.pktNumSpaces e) c.recovery e → Cleared (c'.pktNumSpaces e) c'.recovery e
  keys : ∀ e, (c'.pktNumSpaces e).cryptoOpen = (c.pktNumSpaces e).cryptoOpen ∧
      (c'.pktNumSpaces e).cryptoSeal = (c.pktNumSpaces e).cryptoSeal ∨
    c.MayDiscard e ∧ (c'.pktNumSpaces e).cryptoOpen = false ∧
      Cleared (c'.pktNumSpaces e) c'.recovery e

theorem Fades.refl (c : Connection) : c.Fades c :=
  ⟨rfl, rfl, rfl, fun _ _ _ => id, fun _ => .inl ⟨rfl, rfl⟩⟩

section Fades

variable {c c' c'' : Connection}

/-- No keys to open packets come to be there. -/
theorem Fades.cryptoOpen (h : c.Fades c') {e : Epoch} (he : (c'.pktNumSpaces e).cryptoOpen = true) :
    (c.pktNumSpaces e).cryptoOpen = true := by
  rcases h.keys e with ⟨hopen, -⟩ | ⟨-, hopen, -⟩
  · exact hopen ▸ he
  · rw [he] at hopen
    cases hopen

private theorem Fades.mayDiscard (h : c.Fades c') {e : Epoch} (he : c'.MayDiscard e) :
    c.MayDiscard e := by
  cases e with
  | initial => exact h.cryptoOpen he
  | handshake => exact h.isEstablished.symm.trans he
  | application => exact he

private theorem MayDiscard.ne_application {e : Epoch} (h : c.MayDiscard e) : e ≠ .application := by
  rintro rfl
  exact h

theorem Fades.trans (h : c.Fades c') (h' : c'.Fades c'') : c.Fades c'' where
  derivedInitialSecrets := h'.derivedInitialSecrets.trans h.derivedInitialSecrets
  isEstablished := h'.isEstablished.trans h.isEstablished
  writeLevel := h'.writeLevel.trans h.writeLevel
  cleared e he hopen hclear := by
    have hopen' : (c'.pktNumSpaces e).cryptoOpen = false :=
      Bool.eq_false_iff.mpr fun ht => Bool.eq_false_iff.mp hopen (h.cryptoOpen ht)
    exact h'.cleared e he hopen' (h.cleared e he hopen hclear)
  keys e := by
    rcases h'.keys e with ⟨hopen', hseal'⟩ | ⟨hmay, hgone⟩
    · rcases h.keys e with ⟨hopen, hseal⟩ | ⟨hmay, hopen, hclear⟩
      · exact .inl ⟨hopen'.trans hopen, hseal'.trans hseal⟩
      · exact .inr ⟨hmay, hopen'.trans hopen, h'.cleared e hmay.ne_application hopen hclear⟩
    · exact .inr ⟨h.mayDiscard hmay, hgone⟩

theorem fades_modifySpace (c : Connection) (epoch : Epoch) {f : PktNumSpace → PktNumSpace}
    (hopen : ∀ s, (f s).cryptoOpen = s.cryptoOpen) (hseal : ∀ s, (f s).cryptoSeal = s.cryptoSeal)
    (hready : epoch ≠ .application → (c.pktNumSpaces epoch).cryptoOpen = false →
      Cleared (c.pktNumSpaces epoch) c.recovery epoch → (f (c.pktNumSpaces epoch)).ready = false) :
    c.Fades (c.modifySpace epoch f) := by
  refine { Fades.refl c with cleared := fun e he hclosed hclear => ?_, keys := fun e => .inl ?_ }
  all_goals rcases eq_or_ne e epoch with rfl | hne
  · rw [modifySpace_same]
    exact ⟨(hseal _).trans hclear.cryptoSeal, hready he hclosed hclear, hclear.barren⟩
  · rw [modifySpace_of_ne c f hne]
    exact hclear
  · rw [modifySpace_same]
    exact ⟨hopen _, hseal _⟩
  · rw [modifySpace_of_ne c f hne]
    exact ⟨rfl, rfl⟩

/-- Loss recovery may change where empty epochs stay empty. -/
theorem fades_setRecovery {c : Connection} {r : Recovery}
    (h : ∀ e, e ≠ .application → c.recovery.Barren e → r.Barren e) : c.Fades (c.setRecovery r) :=
  { Fades.refl c with
    cleared := fun e he _ hclear => ⟨hclear.cryptoSeal, hclear.ready, h e he hclear.barren⟩
    keys := fun _ => .inl ⟨rfl, rfl⟩ }

/-- Dropping the state of an epoch clears it. -/
theorem dropEpochState_fades (epoch : Epoch) (h : c.MayDiscard epoch) (now : ℕ) :
    c.Fades (c.dropEpochState epoch now) := by
  unfold dropEpochState
  split_ifs
  · have hspace (e : Epoch) (hne : e ≠ epoch) : ((c.modifySpace epoch fun s =>
        { s with
          cryptoOpen := false
          cryptoSeal := false
          cryptoStream := PktNumSpace.newCryptoStream now
          ackElicited := false }).pktNumSpaces e) = c.pktNumSpaces e := c.modifySpace_of_ne _ hne
    have hclear : Cleared ((c.modifySpace epoch fun s =>
        { s with
          cryptoOpen := false
          cryptoSeal := false
          cryptoStream := PktNumSpace.newCryptoStream now
          ackElicited := false }).pktNumSpaces epoch) (c.recovery.dropUnackedData epoch) epoch := by
      rw [modifySpace_same]
      exact ⟨rfl, rfl, Recovery.barren_dropUnackedData _ _⟩
    refine { Fades.refl c with cleared := fun e he hclosed hc => ?_, keys := fun e => ?_ }
    all_goals rcases eq_or_ne e epoch with rfl | hne
    · exact hclear
    · refine ⟨?_, ?_, hc.barren.dropUnackedData epoch⟩
      · exact (congrArg PktNumSpace.cryptoSeal (hspace e hne)).trans hc.cryptoSeal
      · exact (congrArg PktNumSpace.ready (hspace e hne)).trans hc.ready
    · refine .inr ⟨h, ?_, hclear⟩
      change (Epoch.update c.pktNumSpaces e _ e).cryptoOpen = false
      rw [Epoch.update_same]
    · exact .inl ⟨congrArg PktNumSpace.cryptoOpen (hspace e hne),
        congrArg PktNumSpace.cryptoSeal (hspace e hne)⟩
  · exact .refl c

end Fades

/-! ### What the parts of a call do to the keys -/

/-- The program changes the connection as `Fades` says, whether or not it fails. -/
abbrev Fading {α : Type} (x : Program Error Connection α) : Prop :=
  ∀ c : Connection, Program.Maintains c.Fades (fun _ => c.Fades) x

/-- What a program that fades does from its start. -/
theorem Fading.keeps {α : Type} {x : Program Error Connection α} (h : Fading x) (c : Connection) :
    x.Keeps Fades c := (h c c (.refl c)).mono (fun _ _ hc => hc) fun _ _ hc _ => hc

private theorem fades_of_sameTransport {c c' : Connection} (h : c.SameTransport c') :
    c.Fades c' := by
  cases h
  exact { Fades.refl c with }

/-- What only changes streams discards no keys. -/
theorem Streaming.fading {α : Type} {x : Program Error Connection α} (h : Streaming x) :
    Fading x := fun _ => h.maintains fun _ _ hc hsame => hc.trans (fades_of_sameTransport hsame)

theorem close_fades {c c' : Connection} {app : Bool} {err : ℕ} {reason : List UInt8}
    (h : c.close app err reason = .ok c') : c.Fades c' := by
  unfold close at h
  split_ifs at h <;> cases h <;> exact { Fades.refl c with }

/-- A change as `Fades` says that leaves all keys alone. -/
structure Reads (c c' : Connection) : Prop extends c.Fades c' where
  cryptoOpen : ∀ e, (c'.pktNumSpaces e).cryptoOpen = (c.pktNumSpaces e).cryptoOpen
  cryptoSeal : ∀ e, (c'.pktNumSpaces e).cryptoSeal = (c.pktNumSpaces e).cryptoSeal

theorem Reads.trans {c c' c'' : Connection} (h : c.Reads c') (h' : c'.Reads c'') : c.Reads c'' where
  toFades := h.toFades.trans h'.toFades
  cryptoOpen e := (h'.cryptoOpen e).trans (h.cryptoOpen e)
  cryptoSeal e := (h'.cryptoSeal e).trans (h.cryptoSeal e)

/-- Handshake data is received. -/
theorem reads_modifySpace (c : Connection) (epoch : Epoch) (recv : RecvBuf) :
    c.Reads (c.modifySpace epoch fun p =>
      { p with cryptoStream := { (c.pktNumSpaces epoch).cryptoStream with recv := recv } }) where
  toFades := c.fades_modifySpace epoch (fun _ => rfl) (fun _ => rfl) fun _ _ h => h.ready
  cryptoOpen e := by
    rcases eq_or_ne e epoch with rfl | hne
    · rw [modifySpace_same]
    · rw [modifySpace_of_ne _ _ hne]
  cryptoSeal e := by
    rcases eq_or_ne e epoch with rfl | hne
    · rw [modifySpace_same]
    · rw [modifySpace_of_ne _ _ hne]

/-- Reading crypto data leaves keys alone. -/
theorem readCrypto_reads (epoch : Epoch) (fuel : ℕ) (c₀ : Connection) :
    Program.Maintains c₀.Reads (fun _ => c₀.Reads) (readCrypto epoch fuel) := by
  induction fuel with
  | zero => exact Program.maintains_pure ()
  | succ fuel ih =>
    refine Program.maintains_get_bind fun c h => ?_
    dsimp only
    split
    · exact h
    · rw [Program.ends_bind, Program.ends_set]
      exact ih _ (h.trans (c.reads_modifySpace epoch _))

/-- Frames other than CRYPTO frames, and HANDSHAKE_DONE once the handshake is complete. -/
theorem processFrame_fades {frame : Frame} (hcrypto : ∀ data, frame ≠ .crypto data)
    (epoch : Epoch) (env : Env) {c₀ : Connection}
    (hdone : frame = .handshakeDone → c₀.isEstablished = true) :
    Program.Maintains c₀.Fades (fun _ => c₀.Fades) (processFrame frame epoch env) := by
  cases frame with
  | crypto data => exact absurd rfl (hcrypto data)
  | ack packetTime ackDelay ranges =>
    refine Program.maintains_get_bind fun c h => Program.ends_ite.mpr ⟨fun _ => h, fun _ => ?_⟩
    split
    · exact h
    · rename_i recovery hack
      have h' : c₀.Fades (c.setRecovery recovery) :=
        h.trans (fades_setRecovery fun e _ hbarren => hbarren.onAckReceived hack)
      refine Program.ends_ite.mpr ⟨fun hest => ?_, fun _ => { h' with }⟩
      refine Fades.trans ?_ (dropEpochState_fades .handshake ?_ _)
      · exact { h' with }
      · exact hest.2
  | handshakeDone =>
    refine Program.maintains_get_bind fun c h => Program.ends_ite.mpr ⟨fun _ => h, fun _ =>
      Program.ends_ite.mpr ⟨fun _ => h, fun _ => ?_⟩⟩
    have h' : c₀.Fades { c with handshakeConfirmed := true } := { h with }
    refine h'.trans (dropEpochState_fades .handshake ?_ _)
    exact h.isEstablished.trans (hdone rfl)
  | _ => exact (processFrame_streaming rfl epoch env).fading c₀

theorem takeAcked_fades (epoch : Epoch) (c : Connection) : c.Fades (takeAcked epoch c) := by
  have hparts : AckedParts c.Fades epoch :=
    { pop := fun _ _ h => h.trans (fades_setRecovery fun _ _ h => h.of_eq rfl rfl rfl)
      ack := fun _ c' h => h.trans <|
        c'.fades_modifySpace epoch (fun _ => rfl) (fun _ => rfl) fun _ _ h => h.ready
      crypto := fun _ c' h => h.trans <|
        c'.fades_modifySpace epoch (fun _ => rfl) (fun _ => rfl) fun _ _ h => h.ready
      stream := fun _ _ _ _ _ _ _ h => { h with } }
  exact hparts.takeAcked (.refl c)

theorem clearLost_fades (epoch : Epoch) (c : Connection) : c.Fades (clearLost epoch c) := by
  refine fades_setRecovery fun e _ h => ?_
  rcases eq_or_ne e epoch with rfl | hne
  · exact ⟨h.sent, Epoch.update_same _ _ _, h.lossProbes⟩
  · exact h.of_eq rfl (Epoch.update_of_ne hne) rfl

/-- Frames are only taken back in an epoch that is not cleared. -/
theorem takeLost_fades (epoch : Epoch) (c : Connection) : (takeLost epoch).Keeps Fades c := by
  rw [takeLost, Program.keeps_get_bind]
  cases hlost : c.recovery.lost epoch with
  | nil => exact .refl c
  | cons frame frames =>
    -- an epoch that is empty has no lost frame
    have hpop : c.Fades
        (c.setRecovery { c.recovery with lost := Epoch.update c.recovery.lost epoch frames }) := by
      refine fades_setRecovery fun e _ h => h.of_eq rfl (Epoch.update_of_ne ?_) rfl
      rintro rfl
      rw [h.lost] at hlost
      cases hlost
    have hspace {f : PktNumSpace → PktNumSpace} (hopen : ∀ s, (f s).cryptoOpen = s.cryptoOpen)
        (hseal : ∀ s, (f s).cryptoSeal = s.cryptoSeal) : c.Fades
        ((c.setRecovery { c.recovery with
          lost := Epoch.update c.recovery.lost epoch frames }).modifySpace epoch f) := by
      refine { hpop with cleared := fun e he hclosed hclear => ?_, keys := fun e => .inl ?_ }
      all_goals rcases eq_or_ne e epoch with rfl | hne
      · rw [hclear.barren.lost] at hlost
        cases hlost
      · rw [modifySpace_of_ne _ f hne]
        exact hpop.cleared e he hclosed hclear
      · rw [modifySpace_same]
        exact ⟨hopen _, hseal _⟩
      · rw [modifySpace_of_ne _ f hne]
        exact ⟨rfl, rfl⟩
    change (drainLostFrame epoch frame).Ends _ _ _
    rw [drainLostFrame, Program.ends_bind, Program.ends_get]
    cases frame with
    | crypto data =>
      rw [Program.ends_bind, Program.ends_ofExcept]
      exact ⟨fun send _ => hspace (fun _ => rfl) fun _ => rfl, fun _ _ _ => hpop⟩
    | blockInfo id _ _ _ _ =>
      dsimp only
      split
      · exact hpop
      · exact { hpop with }
    | stream id data =>
      dsimp only
      split
      · exact hpop
      · rw [Program.ends_bind, Program.ends_set, Program.ends_bind, Program.ends_ofExcept]
        exact ⟨fun send _ => { hpop with }, fun _ _ _ => { hpop with }⟩
    | ack _ _ _ => exact hspace (fun _ => rfl) fun _ => rfl
    | handshakeDone => exact { hpop with }
    | _ => exact hpop

section Packets

variable {c c' : Connection} {epoch : Epoch}

/-- A packet is put together in an epoch that is not cleared. -/
theorem SameSpaces.fades (h : c.SameSpaces epoch c')
    (hseal : (c.pktNumSpaces epoch).cryptoSeal = true) : c.Fades c' where
  derivedInitialSecrets := h.derivedInitialSecrets
  isEstablished := h.isEstablished
  writeLevel := h.writeLevel
  cleared e _ _ hclear := by
    have hne : e ≠ epoch := by
      rintro rfl
      rw [hclear.cryptoSeal] at hseal
      cases hseal
    rw [h.other e hne]
    refine ⟨hclear.cryptoSeal, hclear.ready, ?_, ?_, ?_⟩
    · rw [h.recovery]
      exact hclear.barren.sent
    · rw [h.recovery]
      exact hclear.barren.lost
    · exact Nat.le_zero.mp (hclear.barren.lossProbes ▸ h.lossProbes e)
  keys e := by
    rcases eq_or_ne e epoch with rfl | hne
    · exact .inl ⟨h.cryptoOpen, h.cryptoSeal⟩
    · exact .inl (by rw [h.other e hne]; exact ⟨rfl, rfl⟩)

theorem counted_fades {written : ℕ} {env : SendEnv} {q : Packing}
    (hseal : q.CanSeal epoch) : q.conn.Fades (q.counted epoch written env) where
  derivedInitialSecrets := rfl
  isEstablished := rfl
  writeLevel := rfl
  cleared e _ _ hclear := by
    have hne : e ≠ epoch := by
      rintro rfl
      have hkey := hclear.cryptoSeal
      rw [show (q.conn.pktNumSpaces e).cryptoSeal = true from hseal] at hkey
      cases hkey
    have hspace : (q.counted epoch written env).pktNumSpaces e = q.conn.pktNumSpaces e :=
      Epoch.update_of_ne hne
    rw [hspace]
    exact ⟨hclear.cryptoSeal, hclear.ready, hclear.barren.onPacketSent hne _ _⟩
  keys e := by
    refine .inl ?_
    change (Epoch.update q.conn.pktNumSpaces epoch _ e).cryptoOpen = _ ∧
      (Epoch.update q.conn.pktNumSpaces epoch _ e).cryptoSeal = _
    rcases eq_or_ne e epoch with rfl | hne
    · rw [Epoch.update_same]
      exact ⟨rfl, rfl⟩
    · rw [Epoch.update_of_ne hne]
      exact ⟨rfl, rfl⟩

end Packets

end Connection

end Dtp
