import Dtp.CheckedParts

/-!
# Keys that were discarded

A client discards the Initial keys when it sends its first Handshake packet, and a server when
it receives one; the Handshake keys go when the handshake is confirmed. The timer of loss
recovery goes on. If it fires when no loss time is set any more and no ack-eliciting packet is
remembered, it asks for probes of the Initial epoch. These can not be sent without keys, but as
long as they are asked for, no packet of a later epoch is sent.

## Main definitions

* `Connection.discarded` — the keys of an epoch were discarded
* `Connection.ChoosesWell` — the next packet does not belong to such an epoch
* `Call.Timely` — if the timer fires, there is something to declare lost or to probe
* `Connection.Swept` — what is left of an epoch whose keys were discarded

## Main results

* `Connection.probes_and_chooses` — timeouts probe well exactly if they are due, and as long as
  they are, every packet belongs to an epoch with keys
* `Connection.probes_and_stuck` — a handshake after which nothing is sent any more
-/

namespace Dtp

open Lib (Program run)

namespace Connection

/-- The epoch has had keys: the Initial secrets were derived, and TLS gives the keys of the
Handshake epoch before it completes the handshake. -/
def hadKeys (c : Connection) : Epoch → Bool
  | .initial => c.derivedInitialSecrets
  | .handshake => c.isEstablished
  | .application => false

/-- The keys of the epoch were discarded. Those of the application epoch never are. -/
def discarded (c : Connection) (epoch : Epoch) : Bool :=
  c.hadKeys epoch && !(c.pktNumSpaces epoch).cryptoOpen

/-- The next packet does not belong to an epoch whose keys were discarded. -/
def ChoosesWell (c : Connection) : Prop :=
  ∀ epoch, c.writeEpoch = .ok epoch → c.discarded epoch = false

/-- Loss recovery, and the epochs that were discarded. -/
def dropping (c : Connection) : Dropping := ⟨c.recovery, [.initial, .handshake].filter c.discarded⟩

end Connection

namespace Call

/-- If the loss detection timer fires, there is something to declare lost or to probe. -/
def Timely (c : Connection) : Call → Prop
  | .onTimeout env => c.draining = true ∨ c.timerExpired env.instant = false ∨
    c.dropping.Due c.isEstablished
  | _ => True

/-- What is asked of a call: its packets are as they are parsed, TLS is orderly, and if the timer
fires, it is due. -/
structure Regular (c : Connection) (call : Call) : Prop where
  parsed : call.Parsed
  orderly : call.Handshakes Connection.OrderlyTls c
  timely : call.Timely c

/-- The epoch that `send` chooses after it has gone on with the handshake has not lost its keys. -/
def ChoosesWell (c : Connection) : Call → Prop
  | .send _ env => ∀ c', Program.when (!c.isClosing) (Connection.doHandshake env.handshake) c =
      .ok () c' → c'.ChoosesWell
  | _ => True

end Call

namespace Connection

/-! ### What is left of a discarded epoch -/

/-- Nothing is left of an epoch whose keys were discarded. The Initial keys go once there are
Handshake keys, and those stay until the handshake is complete. -/
structure Swept (c : Connection) : Prop where
  cleared : ∀ e, c.discarded e = true → Cleared (c.pktNumSpaces e) c.recovery e
  handshake : c.discarded .initial = true → c.isEstablished = false →
    (c.pktNumSpaces .handshake).cryptoOpen = true
  seals : (c.pktNumSpaces .handshake).cryptoSeal = true →
    (c.pktNumSpaces .handshake).cryptoOpen = true
  level : c.isEstablished = false → (c.pktNumSpaces .handshake).cryptoOpen = true →
    c.writeLevel ≠ .initial
  finished : c.isEstablished = true → c.writeLevel = .application

section Swept

variable {c c' : Connection}

/-- Keys are discarded that were there and are not. -/
theorem discarded_iff {e : Epoch} : c.discarded e = true ↔
    c.hadKeys e = true ∧ (c.pktNumSpaces e).cryptoOpen = false := by
  rw [discarded, Bool.and_eq_true, Bool.not_eq_true']

/-- What was there stays so. -/
theorem Fades.hadKeys (h : c.Fades c') (e : Epoch) : c'.hadKeys e = c.hadKeys e := by
  cases e with
  | initial => exact h.derivedInitialSecrets
  | handshake => exact h.isEstablished
  | application => rfl

/-- Application keys are not discarded. -/
theorem ne_application_of_discarded {e : Epoch} (h : c.discarded e = true) : e ≠ .application := by
  rintro rfl
  cases h

/-- Where keys go, what is left of their epoch goes with them. -/
theorem Swept.fades (hc : c.Swept) (h : c.Fades c') : c'.Swept where
  cleared e he := by
    obtain ⟨hhad, hclosed⟩ := discarded_iff.mp he
    rcases h.keys e with ⟨hopen, -⟩ | ⟨-, -, hclear⟩
    · have hclosed₀ : (c.pktNumSpaces e).cryptoOpen = false := hopen.symm.trans hclosed
      have hdiscarded := discarded_iff.mpr ⟨(h.hadKeys e).symm.trans hhad, hclosed₀⟩
      exact h.cleared e (ne_application_of_discarded he) hclosed₀ (hc.cleared e hdiscarded)
    · exact hclear
  handshake he hest := by
    obtain ⟨hhad, hclosed⟩ := discarded_iff.mp he
    rw [h.isEstablished] at hest
    have hopen : (c.pktNumSpaces .handshake).cryptoOpen = true := by
      rcases h.keys .initial with ⟨hopen, -⟩ | ⟨hmay, -⟩
      · exact hc.handshake (discarded_iff.mpr ⟨(h.hadKeys .initial).symm.trans hhad,
          hopen.symm.trans hclosed⟩) hest
      · exact hmay
    rcases h.keys .handshake with ⟨hsame, -⟩ | ⟨hmay, -⟩
    · exact hsame.trans hopen
    · rw [show c.isEstablished = true from hmay] at hest
      cases hest
  seals hseal := by
    rcases h.keys .handshake with ⟨hopen, hsame⟩ | ⟨-, -, hclear⟩
    · exact hopen.trans (hc.seals (hsame.symm.trans hseal))
    · rw [hclear.cryptoSeal] at hseal
      cases hseal
  level hest hopen := by
    rw [h.writeLevel]
    exact hc.level (h.isEstablished.symm.trans hest) (h.cryptoOpen hopen)
  finished hest := h.writeLevel.trans (hc.finished (h.isEstablished.symm.trans hest))

/-- A new connection has discarded no keys. -/
theorem discarded_new (config : Config) (isServer afterRetry : Bool) (now : ℕ) (e : Epoch) :
    (new config isServer afterRetry now).discarded e = false := by
  cases e with
  | initial => cases isServer <;> rfl
  | handshake => rfl
  | application => rfl

private theorem swept_new (config : Config) (isServer afterRetry : Bool) (now : ℕ) :
    (new config isServer afterRetry now).Swept where
  cleared e he := absurd he (by simp [discarded_new])
  handshake he := absurd he (by simp [discarded_new])
  seals hseal := by cases hseal
  level _ hopen := by cases hopen
  finished hest := by cases hest

/-- An epoch of which nothing is left is not chosen. -/
theorem Swept.choosesWell (h : c.Swept) : c.ChoosesWell := by
  intro epoch hepoch
  by_contra hdiscarded
  rw [Bool.not_eq_false] at hdiscarded
  obtain ⟨hhad, hclosed⟩ := discarded_iff.mp hdiscarded
  have hclear := h.cleared epoch hdiscarded
  unfold writeEpoch at hepoch
  split_ifs at hepoch with herror hlevel
  · -- an error is reported in the epoch in which TLS writes, or in the Handshake epoch
    obtain rfl := Except.ok.inj hepoch
    rw [show c.isEstablished = true from hhad] at hlevel
    exact absurd hlevel.2 (by simp)
  · have hchosen := Except.ok.inj hepoch
    cases hest : c.isEstablished with
    | true =>
      rw [h.finished hest] at hchosen
      exact ne_application_of_discarded hdiscarded hchosen.symm
    | false =>
      cases epoch with
      | initial => exact h.level hest (h.handshake hdiscarded hest) hchosen
      | handshake =>
        rw [show c.isEstablished = true from hhad] at hest
        cases hest
      | application => cases hhad
  · dsimp only at hepoch
    split at hepoch
    · rename_i e hfind
      obtain rfl := Except.ok.inj hepoch
      have hdue := List.find?_some hfind
      rw [hclear.ready, hclear.barren.lost, hclear.barren.lossProbes] at hdue
      simp at hdue
    · split_ifs at hepoch
      exact ne_application_of_discarded hdiscarded (Except.ok.inj hepoch).symm

/-! ### The parts of a call -/

/-- The Initial keys come to be there. -/
theorem Swept.of_initialKeys (hc : c.Swept)
    (hinitial : (c'.pktNumSpaces .initial).cryptoOpen = true)
    (hhandshake : c'.pktNumSpaces .handshake = c.pktNumSpaces .handshake)
    (hrecovery : c'.recovery = c.recovery) (hest : c'.isEstablished = c.isEstablished)
    (hlevel : c'.writeLevel = c.writeLevel) : c'.Swept where
  cleared e he := by
    obtain ⟨hhad, hclosed⟩ := discarded_iff.mp he
    cases e with
    | initial =>
      rw [hinitial] at hclosed
      cases hclosed
    | handshake =>
      rw [hhandshake] at hclosed ⊢
      rw [hrecovery]
      exact hc.cleared .handshake (discarded_iff.mpr ⟨hest.symm.trans hhad, hclosed⟩)
    | application => cases hhad
  handshake he := by
    rw [discarded, hinitial, Bool.not_true, Bool.and_false] at he
    cases he
  seals := by
    rw [hhandshake]
    exact hc.seals
  level := by
    rw [hest, hhandshake, hlevel]
    exact hc.level
  finished := by
    rw [hest, hlevel]
    exact hc.finished

/-- The Initial secrets are derived together with the keys. -/
theorem Swept.acceptHeader (hc : c.Swept) (pkt : RxPacket) :
    (acceptHeader pkt).Ends c (fun _ => Swept) fun _ => Swept := by
  rw [Connection.acceptHeader, Program.ends_bind, Program.ends_get]
  refine Program.ends_ite.mpr ⟨fun _ => hc, fun _ => ?_⟩
  refine Program.Ends.bind (R := fun _ => Swept) ?_ fun _ c₁ hc₁ => ?_
  · exact Program.Ends.when (fun _ => hc.fades { Fades.refl c with }) fun _ => hc
  rw [Program.ends_bind, Program.ends_get]
  refine Program.ends_ite.mpr ⟨fun _ => hc₁, fun _ =>
    Program.ends_ite.mpr ⟨fun _ => hc₁, fun _ => ?_⟩⟩
  rw [Program.ends_bind, Program.ends_modify, Program.ends_modify]
  exact hc₁.of_initialKeys rfl rfl rfl rfl rfl

/-- While TLS writes before the handshake is complete, nothing is added to what is left of a
discarded epoch. -/
theorem Swept.queued (hc : c.Swept) (hest : c.isEstablished = false) (h : c.Queued c') :
    c'.Swept := by
  have hdiscarded (e : Epoch) (he : c'.discarded e = true) : e = .initial ∧
      c.discarded .initial = true := by
    obtain ⟨hhad, hclosed⟩ := discarded_iff.mp he
    cases e with
    | initial =>
      exact ⟨rfl, discarded_iff.mpr ⟨h.derivedInitialSecrets.symm.trans hhad,
        (h.cryptoOpen _).symm.trans hclosed⟩⟩
    | handshake =>
      rw [← h.isEstablished] at hest
      rw [show c'.isEstablished = true from hhad] at hest
      cases hest
    | application => cases hhad
  exact
    { cleared := fun e he => by
        obtain ⟨rfl, hgone⟩ := hdiscarded e he
        rw [h.initial (hc.handshake hgone hest), h.recovery]
        exact hc.cleared .initial hgone
      handshake := fun he _ =>
        (h.cryptoOpen _).trans (hc.handshake (hdiscarded .initial he).2 hest)
      seals := fun hseal =>
        (h.cryptoOpen _).trans (hc.seals ((h.cryptoSeal _).symm.trans hseal))
      level := fun _ hopen => by
        rw [h.writeLevel]
        exact hc.level hest ((h.cryptoOpen _).symm.trans hopen)
      finished := fun hest' => by
        rw [h.isEstablished, hest] at hest'
        cases hest' }

/-- The keys are those that an orderly TLS gives. -/
theorem Swept.of_keys {hs : HandshakeStep} {c₁ : Connection} (hc : c.Swept)
    (hest : c.isEstablished = false) (horderly : hs.Orderly c) (h : c.Queued c₁)
    (hspaces : ∀ e, c'.pktNumSpaces e =
      { c₁.pktNumSpaces e with cryptoOpen := (hs.keys e).1, cryptoSeal := (hs.keys e).2 })
    (hderived : c'.derivedInitialSecrets = c₁.derivedInitialSecrets)
    (hrecovery : c'.recovery = c₁.recovery) (hest' : c'.isEstablished = hs.isEstablished)
    (hlevel : c'.writeLevel = hs.writeLevel) : c'.Swept := by
  have hopen (e : Epoch) : (c'.pktNumSpaces e).cryptoOpen = (hs.keys e).1 := by rw [hspaces]
  have hseal (e : Epoch) : (c'.pktNumSpaces e).cryptoSeal = (hs.keys e).2 := by rw [hspaces]
  -- TLS gives and keeps Handshake keys, so only the Initial ones can be gone
  have hgone (e : Epoch) (he : c'.discarded e = true) :
      e = .initial ∧ c.discarded .initial = true := by
    obtain ⟨hhad, hclosed⟩ := discarded_iff.mp he
    cases e with
    | initial =>
      refine ⟨rfl, discarded_iff.mpr ⟨?_, ?_⟩⟩
      · exact h.derivedInitialSecrets.symm.trans (hderived.symm.trans hhad)
      · rw [hopen, horderly.initial] at hclosed
        exact hclosed
    | handshake =>
      rw [hopen, (horderly.finished (hest'.symm.trans hhad)).1] at hclosed
      cases hclosed
    | application => cases hhad
  exact
    { cleared := fun e he => by
        obtain ⟨rfl, hdiscarded⟩ := hgone e he
        have hclear := hc.cleared .initial hdiscarded
        have hsame := h.initial (hc.handshake hdiscarded hest)
        refine ⟨?_, ?_, ?_⟩
        · rw [hseal, horderly.initial]
          exact hclear.cryptoSeal
        · rw [hspaces, hsame]
          exact hclear.ready
        · rw [hrecovery, h.recovery]
          exact hclear.barren
      handshake := fun he _ => by
        rw [hopen]
        exact horderly.keeps (hc.handshake (hgone .initial he).2 hest)
      seals := fun hkey => by
        rw [hseal, horderly.together] at hkey
        rwa [hopen]
      level := fun _ hkey => by
        rw [hopen] at hkey
        rw [hlevel]
        exact horderly.level hkey
      finished := fun hdone => hlevel.trans (horderly.finished (hest'.symm.trans hdone)).2 }

/-- An orderly handshake brings back no keys. -/
theorem Swept.doHandshake {hs : HandshakeStep} (hc : c.Swept)
    (horderly : c.isEstablished = false → hs.Orderly c) :
    (doHandshake hs).Ends c (fun _ => Swept) fun _ => Swept := by
  rw [Connection.doHandshake, Program.ends_bind, Program.ends_get]
  refine Program.ends_ite.mpr ⟨fun _ => hc, fun hopen => ?_⟩
  have hest : c.isEstablished = false := by simpa using hopen
  have horderly := horderly hest
  have hwrites := forM_writeCrypto_queued horderly.writes c
    ⟨rfl, rfl, rfl, rfl, fun _ => rfl, fun _ => rfl, fun _ => rfl⟩
  rw [Program.ends_bind]
  refine hwrites.mono (fun _ c₁ hc₁ => ?_) fun _ _ hc₁ => hc.queued hest hc₁
  rw [Program.ends_bind, Program.ends_modify]
  have hkeys : Swept
      { c₁ with
        isEstablished := hs.isEstablished
        writeLevel := hs.writeLevel
        pktNumSpaces := fun e =>
          { c₁.pktNumSpaces e with cryptoOpen := (hs.keys e).1, cryptoSeal := (hs.keys e).2 } } :=
    hc.of_keys hest horderly hc₁ (fun _ => rfl) rfl rfl rfl rfl
  cases hs.outcome with
  | waiting => exact hkeys
  | failed e => exact hkeys
  | noProtocol => exact hkeys.fades { Fades.refl _ with }
  | finished peerParams =>
    dsimp only
    rw [Program.ends_bind, Program.ends_get]
    refine Program.ends_ite.mpr ⟨fun _ => hkeys, fun _ => ?_⟩
    rw [Program.ends_bind, Program.ends_ofExcept]
    exact ⟨fun _ _ => hkeys.fades { Fades.refl _ with }, fun _ _ => hkeys⟩

/-- Crypto frames bring back no keys. -/
theorem Swept.processCrypto (hc : c.Swept) (data : RangeBuf) (epoch : Epoch) {env : Env}
    (horderly : c.isEstablished = false → env.handshake.Orderly c) :
    (processCrypto data epoch env).Ends c (fun _ => Swept) fun _ => Swept := by
  rw [Connection.processCrypto, Program.ends_bind, Program.ends_get]
  dsimp only
  split
  · exact hc
  · rename_i recv _
    rw [Program.ends_bind, Program.ends_set, Program.ends_bind]
    have hreads := readCrypto_reads epoch (recv.len + recv.data.toList.length + 1) c _
      (c.reads_modifySpace epoch recv)
    refine hreads.mono (fun _ c₁ h => ?_) fun _ _ h => hc.fades h.toFades
    refine (hc.fades h.toFades).doHandshake fun hest => h.orderly (horderly ?_)
    exact h.isEstablished.symm.trans hest

/-- Frames bring back no keys. -/
theorem Swept.processFrame (hc : c.Swept) {frame : Frame} {epoch : Epoch} {env : Env}
    (hchecked : (Part.frame frame epoch env).Checked c)
    (horderly : (Part.frame frame epoch env).Orderly c) :
    (processFrame frame epoch env).Ends c (fun _ => Swept) fun _ => Swept := by
  by_cases hcrypto : ∃ data, frame = .crypto data
  · obtain ⟨data, rfl⟩ := hcrypto
    exact hc.processCrypto data epoch horderly
  · have hdone (h : frame = .handshakeDone) : c.isEstablished = true := by
      subst h
      exact hchecked
    have hfades := processFrame_fades (fun data h => hcrypto ⟨data, h⟩) epoch env hdone c (.refl c)
    exact hfades.mono (fun _ _ h => hc.fades h) fun _ _ h => hc.fades h

/-- A packet is recorded in an epoch that has keys. -/
theorem received_fades {pkt : RxPacket} {epoch : Epoch} (h : (Part.received pkt epoch).Checked c) :
    c.Fades (received pkt epoch c) := by
  obtain ⟨htype, hkeys⟩ := h
  have hrecord : c.Fades { c.modifySpace epoch pkt.record with recvCount := c.recvCount + 1 } := by
    have h := c.fades_modifySpace epoch (f := pkt.record) (fun _ => rfl) (fun _ => rfl)
      fun hne hclosed _ => by
        rw [hkeys.resolve_left hne] at hclosed
        cases hclosed
    exact { h with }
  unfold received
  dsimp only
  split_ifs with hverifies
  · have hty : pkt.ty = .handshake := by
      rw [Bool.and_eq_true, beq_iff_eq] at hverifies
      exact hverifies.2
    rw [hty] at htype
    obtain rfl := Option.some.inj htype
    have hdrop := hrecord.trans (dropEpochState_fades .initial ?_ pkt.now)
    · exact { hdrop with }
    · change (Epoch.update c.pktNumSpaces .handshake _ .handshake).cryptoOpen = true
      rw [Epoch.update_same]
      exact hkeys.resolve_left (by decide)
  · exact { hrecord with }

private theorem onTimeout_fades {env : Env} (h : (Call.onTimeout env).Timely c) :
    c.Fades (c.onTimeout env) := by
  unfold onTimeout
  split_ifs with hdraining
  · exact .refl c
  · rename_i hexpired
    have hdue := (h.resolve_left hdraining).resolve_left (by simpa using hexpired)
    have hfades : c.Fades (c.setRecovery (c.recovery.onLossDetectionTimeout c.isEstablished
        env.instant env.lossDelay)) :=
      fades_setRecovery fun e _ hbarren => hbarren.onLossDetectionTimeout hdue _ _
    exact { hfades with }
  · exact .refl c

/-- A client discards the Initial keys when it has Handshake keys. -/
theorem recorded_fades {epoch : Epoch} {written : ℕ} {env : SendEnv} {q : Packing}
    (hq : q.conn.Swept) (hseal : q.CanSeal epoch) :
    q.conn.Fades (q.recorded epoch written env) := by
  have hcounted : q.conn.Fades (q.counted epoch written env) := counted_fades hseal
  have hsettled : q.conn.Fades (q.settled epoch written env) := by
    unfold Packing.settled
    dsimp only
    split_ifs with hclient
    · have hepoch : epoch = .handshake := by
        cases epoch with
        | handshake => rfl
        | initial => cases hclient.2
        | application => cases hclient.2
      subst hepoch
      refine hcounted.trans (dropEpochState_fades .initial ?_ env.wall)
      change (Epoch.update q.conn.pktNumSpaces .handshake _ .handshake).cryptoOpen = true
      rw [Epoch.update_same]
      exact hq.seals hseal
    · exact hcounted
  exact { hsettled with }

/-- A packet is sent in an epoch whose keys are there. -/
theorem Swept.packet (hc : c.Swept) {epoch : Epoch} {room headerLen pnLen avail : ℕ}
    {env : SendEnv} (h : (Part.packet epoch room headerLen pnLen avail env).Checked c) :
    (Program.zoom (fun c => (⟨c, .new room⟩ : Packing)) (fun p _ => p.conn)
      (Packing.packet epoch headerLen pnLen avail env)).Keeps (fun _ => Swept) c := by
  refine (packet_putTogether epoch room headerLen pnLen avail env c).mono fun c' hput => ?_
  cases hput with
  | unsent within => exact hc.fades (within.conn.fades h)
  | @sent _ written env q within canSeal =>
    have hq := hc.fades (within.conn.fades h)
    exact hq.fades (recorded_fades hq canSeal)

/-- A part of a call leaves nothing in the epochs whose keys are discarded. -/
theorem swept_keptByParts : KeptByParts Swept := by
  intro c part hc hchecked horderly hcall
  have hfades {α : Type} {x : Program Error Connection α} (hx : x.Keeps Fades c) :
      (discard x : Program Error Connection Unit).Keeps (fun _ => Swept) c :=
    (hx.mono fun _ h => hc.fades h).discard
  have hends {x : Program Error Connection Unit}
      (hx : x.Ends c (fun _ => Swept) fun _ => Swept) : x.Keeps (fun _ => Swept) c :=
    hx.mono (fun _ _ h => h) fun _ _ h _ => h
  cases part with
  | write streamId data fin deadline priority now =>
    exact hfades ((streamSendFull_streaming streamId data fin deadline priority now).fading.keeps c)
  | read streamId cap => exact hfades ((streamRecv_streaming streamId cap).fading.keeps c)
  | shutdown streamId direction =>
    exact ((streamShutdown_streaming streamId direction).fading.keeps c).mono fun _ h => hc.fades h
  | close app err reason =>
    rw [Part.program, Program.keeps_get_bind]
    change Program.Ends _ _ _ _
    rw [Program.ends_bind, Program.ends_ofExcept]
    exact ⟨fun c' hclose => hc.fades (close_fades hclose), fun _ _ _ => hc⟩
  | setTail tailSize => exact Program.keeps_modify.mpr (hc.fades { Fades.refl c with })
  | timeout env => cases hcall
  | header pkt => exact hends (hc.acceptHeader pkt)
  | frame f epoch env => exact hends (hc.processFrame hchecked horderly)
  | acked epoch => exact Program.keeps_modify.mpr (hc.fades (takeAcked_fades epoch c))
  | received pkt epoch => exact Program.keeps_modify.mpr (hc.fades (received_fades hchecked))
  | credit len =>
    refine Program.keeps_modify.mpr ?_
    split_ifs
    · exact hc
    · exact hc.fades { Fades.refl c with }
  | handshake hs => exact hends (hc.doHandshake horderly)
  | lost epoch => exact (takeLost_fades epoch c).mono fun _ h => hc.fades h
  | clearLost epoch => exact Program.keeps_modify.mpr (hc.fades (clearLost_fades epoch c))
  | packet epoch room headerLen pnLen avail env => exact (hc.packet hchecked).discard

/-- Calls keep discarded epochs empty. -/
theorem Swept.call (hc : c.Swept) {call : Call} (hregular : call.Regular c)
    (hstep : Call.step c call = some c') : c'.Swept := by
  refine swept_keptByParts.call hc hregular.parsed hregular.orderly ?_ hstep
  rintro env rfl
  exact hc.fades (onTimeout_fades hregular.timely)

private theorem Swept.callChoosesWell (hc : c.Swept) {call : Call}
    (horderly : call.Handshakes OrderlyTls c) : call.ChoosesWell c := by
  cases call with
  | send outLen env =>
    intro c' hhandshake
    refine Swept.choosesWell ?_
    have hswept : (Program.when (!c.isClosing) (Connection.doHandshake env.handshake)).Ends c
        (fun _ => Swept) fun _ => Swept :=
      .when (fun hopen => hc.doHandshake (horderly (by simpa using hopen))) fun _ => hc
    exact hswept.ok hhandshake
  | _ => trivial

end Swept

/-! ### Probes of a discarded epoch -/

/-- A timeout probes an epoch that has something to probe exactly if one is due, and as long as
the timeouts of a connection are due, its next packet belongs to an epoch with keys, between the
calls and where `send` chooses it. -/
theorem probes_and_chooses (recoveryCalls : List RecoveryCall) (config : Config)
    (isServer afterRetry : Bool) (now : ℕ) (calls : List Call) :
    (∀ d, run Dropping.step .new recoveryCalls = some d →
      ∀ handshakeCompleted, d.ProbesWell handshakeCompleted ↔ d.Due handshakeCompleted) ∧
    (Lib.AllSteps Call.step (fun c call => call.Regular c)
        (.new config isServer afterRetry now) calls →
      Lib.Always Call.step ChoosesWell (.new config isServer afterRetry now) calls ∧
      Lib.AllSteps Call.step (fun c call => call.ChoosesWell c)
        (.new config isServer afterRetry now) calls) := by
  refine ⟨fun _ hrun => Dropping.run_probesWell_iff hrun, fun hregular => ?_⟩
  have hstep (c : Connection) (call : Call) (c' : Connection) (hc : c.Swept)
      (hregular : call.Regular c) (h : Call.step c call = some c') : c'.Swept :=
    hc.call hregular h
  have hnew := swept_new config isServer afterRetry now
  constructor
  · exact (Lib.always_of_step hstep hnew hregular).mono fun _ hc => hc.choosesWell
  · exact hregular.imp hstep (fun _ _ hc hregular => hc.callChoosesWell hregular.orderly) hnew

/-- Every packet would belong to an epoch whose keys were discarded: nothing is sent any more. -/
def Stuck (c : Connection) : Prop :=
  ∃ epoch, c.discarded epoch = true ∧ c.writeEpoch = .ok epoch ∧
    ∀ outLen env, 0 < outLen → send outLen env c = .error (.error .done) c

private theorem Stuck.not_choosesWell {c : Connection} (h : c.Stuck) : ¬ c.ChoosesWell := by
  obtain ⟨epoch, hdiscarded, hepoch, -⟩ := h
  intro hwell
  rw [hwell epoch hepoch] at hdiscarded
  cases hdiscarded

/-- After the handshake, a probe of an epoch without keys is never sent. -/
theorem send_of_noKeys {c : Connection} {epoch : Epoch} (hest : c.isEstablished = true)
    (hopen : c.draining = false) (hderived : c.derivedInitialSecrets = true)
    (hepoch : c.writeEpoch = .ok epoch) (hlost : c.recovery.lost epoch = [])
    (hnumber : (pktNumLen (c.pktNumSpaces epoch).nextPktNum).isSome = true)
    (hkey : (c.pktNumSpaces epoch).cryptoSeal = false) {outLen : ℕ} (hout : 0 < outLen)
    (env : SendEnv) : send outLen env c = .error (.error .done) c := by
  have hdone : doHandshake env.handshake c = .ok () c := by
    rw [doHandshake, Program.bind_apply, Program.get_apply]
    dsimp only
    rw [if_pos hest, Program.pure_apply]
  have hhandshake : Program.when (!c.isClosing) (doHandshake env.handshake) c = .ok () c := by
    unfold Program.when
    split_ifs
    · exact hdone
    · rfl
  have hdrain : drainLost epoch c = .ok () c := by
    unfold drainLost
    rw [hlost]
    rfl
  obtain ⟨pnLen, hpn⟩ := Option.isSome_iff_exists.mp hnumber
  rw [send, Program.bind_apply, Program.get_apply]
  dsimp only
  rw [if_neg hout.ne', hopen, hderived]
  simp only [Bool.false_eq_true, if_false, Bool.not_true, Program.bind_apply, hhandshake,
    Program.get_apply, hepoch, Program.ofExcept_ok, Program.pure_apply, hdrain, hpn, hkey,
    Bool.not_false, if_true, Program.fail_apply]

/-- A step of a client's handshake, after which there are keys for some epochs. -/
def clientStep (writes : List (Epoch × List UInt8)) (keys : List Epoch) (level : Epoch)
    (outcome : HandshakeOutcome) : HandshakeStep where
  writes := writes
  keys e := (keys.contains e, keys.contains e)
  isEstablished := level == .application
  writeLevel := level
  outcome := outcome

/-- TLS writes the first message of the handshake, which needs two packets. -/
def helloStep : HandshakeStep :=
  clientStep [(.initial, List.replicate 1400 1)] [.initial] .initial .waiting

/-- The clocks at time `now`; packets count as lost after 112 ms. -/
def clientEnv (now : ℕ) (step : HandshakeStep) : Env := ⟨now, now, 112, 1000, step⟩

/-- An environment in which everything may be sent, with a step of the handshake. -/
def clientSendEnv (now : ℕ) (step : HandshakeStep) : SendEnv :=
  { Sample.sendEnv now with toEnv := clientEnv now step }

/-- A packet of the server's handshake. -/
def serverPacket (ty : PacketType) (pktNum : ℕ) (frames : List Frame) (now : ℕ)
    (step : HandshakeStep) : RxPacket where
  ty := ty
  version := protocolVersionDraft25
  scidLen := 16
  pktNum := pktNum
  fecInfo := .none
  restored := []
  restoredError := none
  frames := frames.map fun f => (f, clientEnv now step)
  framesError := none
  now := now

/-- The handshake of a client whose first packet gets lost on its way. -/
def lossyHandshake : List Call :=
  let waiting := clientStep [] [.initial] .initial .waiting
  let keyed := clientStep [] [.initial, .handshake] .handshake .waiting
  let finished := clientStep [(.handshake, List.replicate 52 2)] [.handshake, .application]
    .application (.finished (.ok Sample.params))
  [.send 1350 (clientSendEnv 0 helloStep), .send 1350 (clientSendEnv 1 waiting),
    -- the server has the second packet only
    .recv ⟨[serverPacket .initial 0
        [.ack 0 0 (Sample.range 1 2), .crypto ⟨List.replicate 90 3, 0, false⟩] 101 keyed,
      serverPacket .handshake 0 [.crypto ⟨List.replicate 100 4, 0, false⟩] 101 keyed], none, 400⟩,
    -- both packets are acknowledged, and the Initial keys are discarded
    .send 1350 (clientSendEnv 102 keyed), .send 1350 (clientSendEnv 102 keyed),
    -- the timer was set for the packet that got lost
    .onTimeout (clientEnv 112 keyed),
    .recv ⟨[serverPacket .handshake 1 [.crypto ⟨List.replicate 50 4, 100, false⟩] 120 finished],
      none, 100⟩]

/-- What loss recovery sees of the handshake up to the timeout. -/
def lossyCalls : List RecoveryCall :=
  let hello (pktNum now : ℕ) : RecoveryCall := .onPacketSent
    ⟨pktNum, [.crypto ⟨List.replicate 700 1, 700 * pktNum, false⟩], now, 1200, true, true, .none⟩
    .initial false ⟨now, 112, 1000⟩
  [hello 0 0, hello 1 1, .onAckReceived (Sample.range 1 2) .initial false ⟨101, 112, 1000⟩,
    .dropUnackedData .initial]

private theorem exists_stuck : ∃ c : Connection, c.Reachable ∧ c.Stuck := by
  have hrun : (run Call.step (.new (Sample.config (.basic {})) false false 0) lossyHandshake).any
      (fun c => c.isEstablished && !c.draining && c.derivedInitialSecrets &&
        c.writeEpoch.toOption == some .initial && (c.recovery.lost .initial).isEmpty &&
        (pktNumLen (c.pktNumSpaces .initial).nextPktNum).isSome &&
        !(c.pktNumSpaces .initial).cryptoSeal && c.discarded .initial) = true := by decide +kernel
  obtain ⟨c, hc, h⟩ := (Option.any_eq_true _ _).mp hrun
  simp only [Bool.and_eq_true, Bool.not_eq_true', beq_iff_eq, List.isEmpty_iff] at h
  obtain ⟨⟨⟨⟨⟨⟨⟨hest, hopen⟩, hderived⟩, hepoch⟩, hlost⟩, hnumber⟩, hkey⟩, hdiscarded⟩ := h
  have hepoch : c.writeEpoch = .ok .initial := by
    cases hchosen : c.writeEpoch with
    | error e => simp [hchosen, Except.toOption] at hepoch
    | ok e => simpa [hchosen, Except.toOption] using hepoch
  refine ⟨c, ⟨_, _, _, _, _, hc⟩, .initial, hdiscarded, hepoch, fun outLen env hout => ?_⟩
  exact send_of_noKeys hest hopen hderived hepoch hlost hnumber hkey hout env

private theorem exists_not_probesWell :
    ∃ calls d, run Dropping.step .new calls = some d ∧ ¬ d.ProbesWell false := by
  have hrun : (run Dropping.step .new lossyCalls).any (fun d =>
      (Recovery.considered false).all (fun e => (d.recovery.lossTime e).isNone) &&
        (Recovery.earliestLossTime d.recovery.timeOfLastSentAckElicitingPkt false).1.isNone) =
      true := by decide +kernel
  obtain ⟨d, hd, h⟩ := (Option.any_eq_true _ _).mp hrun
  simp only [Bool.and_eq_true, List.all_eq_true, Option.isNone_iff_eq_none] at h
  refine ⟨lossyCalls, d, hd, ?_⟩
  rw [Dropping.run_probesWell_iff hd]
  rintro (⟨epoch, hmem, hsome⟩ | ⟨epoch, t, htime, -⟩)
  · rw [h.1 epoch hmem] at hsome
    cases hsome
  · rw [htime] at h
    cases h.2

/-- The timer was set for a packet that is forgotten with the Initial keys. When it fires, the
Initial epoch is probed, and after the handshake nothing is sent any more. -/
theorem probes_and_stuck :
    (∃ calls d, run Dropping.step .new calls = some d ∧ ¬ d.ProbesWell false) ∧
      ∃ c : Connection, c.Reachable ∧ c.Stuck ∧ ¬ c.ChoosesWell := by
  obtain ⟨c, hc, hstuck⟩ := exists_stuck
  exact ⟨exists_not_probesWell, c, hc, hstuck, hstuck.not_choosesWell⟩

/-- The first packet of a client gets lost, which the timer finds out. -/
def lostFlight : List Call :=
  let waiting := clientStep [] [.initial] .initial .waiting
  [.send 1350 (clientSendEnv 0 helloStep), .send 1350 (clientSendEnv 1 waiting),
    .recv ⟨[serverPacket .initial 0 [.ack 0 0 (Sample.range 1 2)] 101 waiting], none, 100⟩,
    .onTimeout (clientEnv 112 waiting), .send 1350 (clientSendEnv 113 waiting)]

/-- TLS is orderly in `send`, and when the timer fires, there is a loss to declare. -/
def handlesLoss (c : Connection) : Call → Bool
  | .send _ env => decide (env.handshake.Orderly c)
  | .onTimeout env => c.timerExpired env.instant && (c.recovery.lossTime .initial).isSome
  | _ => true

private theorem lostFlight_regular : Lib.AllSteps Call.step (fun c call => call.Regular c)
    (.new (Sample.config (.basic {})) false false 0) lostFlight := by
  have horderly {outLen : ℕ} {env : SendEnv} {c : Connection}
      (h : c.handlesLoss (.send outLen env) = true) : (Call.send outLen env).Regular c :=
    ⟨trivial, fun _ _ => of_decide_eq_true h, trivial⟩
  have hsteps : Lib.AllSteps Call.step (fun c call => c.handlesLoss call = true)
      (.new (Sample.config (.basic {})) false false 0) lostFlight := by decide +kernel
  obtain ⟨hfirst, hsteps⟩ := hsteps
  refine ⟨horderly hfirst, fun c₁ h₁ => ?_⟩
  obtain ⟨hsecond, hsteps⟩ := hsteps c₁ h₁
  refine ⟨horderly hsecond, fun c₂ h₂ => ⟨⟨?_, ?_, trivial⟩, fun c₃ h₃ => ?_⟩⟩
  · intro pkt hpkt
    obtain rfl := List.mem_singleton.mp hpkt
    exact ⟨by decide, fun _ => ⟨rfl, rfl⟩, by decide⟩
  · -- the packet has no handshake data
    exact ⟨fun _ _ _ _ _ => ⟨nofun, fun _ _ => trivial⟩, fun _ _ => trivial⟩
  · obtain ⟨hloss, hsteps⟩ := (hsteps c₂ h₂).2 c₃ h₃
    rw [handlesLoss, Bool.and_eq_true] at hloss
    have hdue : c₃.dropping.Due c₃.isEstablished :=
      .inl ⟨.initial, by cases c₃.isEstablished <;> decide, hloss.2⟩
    refine ⟨⟨trivial, trivial, .inr (.inr hdue)⟩, fun c₄ h₄ => ?_⟩
    exact ⟨horderly (hsteps c₄ h₄).1, fun _ _ => trivial⟩

theorem probes_and_chooses_lostFlight :
    (∃ d, run Dropping.step .new [Monitor.clientHello] = some d ∧
      (d.ProbesWell false ↔ d.Due false)) ∧
    Lib.Always Call.step ChoosesWell (.new (Sample.config (.basic {})) false false 0) lostFlight ∧
    Lib.AllSteps Call.step (fun c call => call.ChoosesWell c)
      (.new (Sample.config (.basic {})) false false 0) lostFlight := by
  have hboth := probes_and_chooses [Monitor.clientHello] (Sample.config (.basic {})) false false 0
    lostFlight
  exact ⟨⟨_, rfl, hboth.1 _ rfl false⟩, hboth.2 lostFlight_regular⟩

end Connection

end Dtp
