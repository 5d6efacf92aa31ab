import Dtp.Acknowledgements

/-!
# Credit for sent data

What is sent in STREAM frames is taken out of the credit of the connection, and what was lost
is given back before it is sent again. The credit that is in use covers all STREAM frames that
are outstanding or lost, because a frame is only recorded after it was charged, and only leaves
the lost frames when it is given back or forgotten. Frames of acked, recovered and dropped
packets, and those of streams that are gone, stay charged.

## Main definitions

* `Connection.Charged` — what is outstanding or lost is charged, within the limit
* `Connection.CreditSound` — what follows for a call of `send`

## Main results

* `Connection.Reachable.creditSound` — the credit never goes negative in a reachable state
-/

namespace Dtp

open Lib (Program)

namespace Connection

/-- The data of the STREAM frames that are outstanding or lost is charged, within the limit. There
is no such data outside the application's packets, and none before the handshake is complete. -/
structure Charged (c : Connection) : Prop where
  outstanding : ∀ e, c.recovery.load Frame.streamLen e ≤ if e = .application then c.txData else 0
  limit : c.txData ≤ c.maxTxData
  unused : c.isEstablished = false → c.txData = 0

section Charged

variable {c c' : Connection} {epoch : Epoch}

theorem Charged.of_eq (h : c.Charged) (hrecovery : c'.recovery = c.recovery)
    (htx : c'.txData = c.txData)
    (hmax : c'.maxTxData = c.maxTxData) (hest : c'.isEstablished = c.isEstablished) :
    c'.Charged := by
  refine ⟨fun e => ?_, ?_, ?_⟩
  · rw [hrecovery, htx]
    exact h.outstanding e
  · rw [htx, hmax]
    exact h.limit
  · rw [htx, hest]
    exact h.unused

theorem Charged.rests (h : c.Charged) (hc : c.Rests c') : c'.Charged where
  outstanding e := (hc.lightens _ e).trans (hc.txData ▸ h.outstanding e)
  limit := by
    rw [hc.txData]
    cases hest : c.isEstablished with
    | true => exact h.limit.trans (hc.maxTxData hest)
    | false => exact (h.unused hest).trans_le (Nat.zero_le _)
  unused hopen := by
    rw [hc.txData]
    refine h.unused (Bool.eq_false_iff.mpr fun hest => ?_)
    exact Bool.eq_false_iff.mp hopen (hc.isEstablished hest)

/-- The data of the lost frame that is taken back next is charged. -/
theorem Charged.refund (h : c.Charged) {id : ℕ} {data : RangeBuf} {frames : List Frame}
    (hlost : c.recovery.lost epoch = .stream id data :: frames) :
    data.len ≤ if epoch = .application then c.txData else 0 := by
  refine le_trans ?_ (h.outstanding epoch)
  rw [← Recovery.load_takeLost Frame.streamLen hlost]
  exact Nat.le_add_left _ _

private theorem Charged.tookBack (h : c.Charged) (hc : TookBack epoch c c') : c'.Charged := by
  cases hc with
  | rests hc => exact h.rests hc
  | ack _ hc => exact (h.rests hc).of_eq rfl rfl rfl rfl
  | @stream id data frames _ hlost hc hrecovery htx =>
    have hrests := h.rests hc
    have hrefund := h.refund hlost
    refine ⟨fun e => ?_, ?_, fun hopen => ?_⟩
    · rcases eq_or_ne e epoch with rfl | hne
      · -- the frame leaves the lost ones, and its data the credit
        have hload := Recovery.load_takeLost Frame.streamLen hlost
        have hcharged := h.outstanding e
        rw [← hrecovery] at hload
        simp only [Frame.streamLen] at hload
        rw [htx]
        split_ifs at hcharged ⊢ <;> omega
      · refine (hrests.outstanding e).trans ?_
        split_ifs with he
        · rw [if_neg fun hepoch => hne (he.trans hepoch.symm)] at hrefund
          rw [htx]
          dsimp only
          omega
        · exact le_rfl
    · rw [htx]
      exact (Nat.sub_le _ _).trans hrests.limit
    · have hunused : c.txData = 0 := hrests.unused hopen
      rw [htx, hunused, Nat.zero_sub]

/-- What a packet takes out of the credit is what it adds to the frames. -/
theorem Charged.within {room : ℕ} {q : Packing} (h : c.Charged)
    (hq : Packing.Within epoch ⟨c, .new room⟩ q)
    (hest : epoch = .application → c.isEstablished = true) : q.conn.Charged ∧ ∀ e,
      q.conn.recovery.load Frame.streamLen e + (if e =
        epoch then framesLoad Frame.streamLen q.draft.frames else 0) ≤
        if e = .application then q.conn.txData else 0 := by
  obtain ⟨fs, hframes, -, htx⟩ := hq.frames
  obtain rfl : q.draft.frames = fs := hframes
  have hload (e : Epoch) : q.conn.recovery.load Frame.streamLen e =
      c.recovery.load Frame.streamLen e := by
    rw [hq.conn.recovery]
    rfl
  have hidle : epoch ≠ .application → q.conn.txData = c.txData := hq.idle
  have hsum (e : Epoch) : q.conn.recovery.load Frame.streamLen e +
      (if e = epoch then framesLoad Frame.streamLen q.draft.frames else 0) ≤
        if e = .application then q.conn.txData else 0 := by
    have hcharged := h.outstanding e
    have htx : q.conn.txData = c.txData + framesLoad Frame.streamLen q.draft.frames := htx
    rw [hload]
    split_ifs at hcharged ⊢ with hsame happ happ
    · omega
    · have := hidle (hsame ▸ happ)
      omega
    · omega
    · omega
  refine ⟨⟨fun e => (Nat.le_add_right _ _).trans (hsum e), ?_, fun hopen => ?_⟩, hsum⟩
  · rw [hq.conn.maxTxData]
    exact hq.limit h.limit
  · have hopen : c.isEstablished = false := hq.conn.isEstablished ▸ hopen
    rw [hidle fun he => by simp [hest he] at hopen]
    exact h.unused hopen

theorem Charged.recorded {room : ℕ} {q : Packing} (h : c.Charged)
    (hq : Packing.Within epoch ⟨c, .new room⟩ q)
    (hest : epoch = .application → c.isEstablished = true) (written : ℕ) (env : SendEnv) :
    (q.recorded epoch written env).Charged := by
  obtain ⟨hconn, hsum⟩ := h.within hq hest
  have hsent :
    (q.conn.setRecovery (q.conn.recovery.onPacketSent (q.toSent epoch written env.instant)
      epoch env.instant)).Charged := by
    refine { hconn with outstanding := fun e => ?_ }
    exact (Recovery.load_onPacketSent Frame.streamLen _ _ epoch _ e).trans (hsum e)
  exact (hsent.rests (recorded_rests epoch written env q)).of_eq rfl rfl rfl rfl

private theorem takeAcked_charged (h : c.Charged) : (takeAcked epoch c).Charged := by
  obtain ⟨c₁, spaces, hc₁, heq⟩ := takeAcked_upToNeedAck epoch c
  rw [heq]
  exact (h.rests hc₁).of_eq rfl rfl rfl rfl

private theorem received_charged (h : c.Charged) (pkt : RxPacket) :
    (received pkt epoch c).Charged := by
  have hrecorded : (c.modifySpace epoch pkt.record).Charged := h.of_eq rfl rfl rfl rfl
  exact (hrecorded.rests (received_rests pkt epoch c)).of_eq rfl rfl rfl rfl

theorem maintains_charged {α : Type} {x : Program Error Connection α} (h : Resting x) :
    Program.Maintains Charged (fun _ => Charged) x := fun c hc =>
  (h c c (.refl c)).mono (fun _ _ hs => hc.rests hs) fun _ _ hs => hc.rests hs

private theorem parts_charged : Parts Charged where
  write _ _ _ _ _ _ := maintains_charged (streamSendFull_streaming _ _ _ _ _ _).resting
  read _ _ := maintains_charged (streamRecv_streaming _ _).resting
  shutdown _ _ := maintains_charged (streamShutdown_streaming _ _).resting
  header pkt := maintains_charged (acceptHeader_resting pkt)
  frame frame epoch env := maintains_charged (processFrame_resting frame epoch env)
  acked _ _ := takeAcked_charged
  received pkt _ _ h := received_charged h pkt
  timeout env c h := h.rests (onTimeout_rests c env)
  other _ _ _ _ _ _ h := h.of_eq rfl rfl rfl rfl

theorem sendParts_charged : SendParts fun c c' => c.Charged → c'.Charged where
  handshake hs c := ((doHandshake_resting hs).keeps c).mono fun _ hs h => h.rests hs
  lost epoch c := (takeLost_tookBack epoch c).mono fun _ hc h => h.tookBack hc
  clearLost epoch c h := h.rests (clearLost_rests epoch c)
  packet epoch room headerLen pnLen avail env c hest := by
    refine (packet_putTogether epoch room headerLen pnLen avail env c).mono fun c' hc h => ?_
    cases hc with
    | unsent within => exact (h.within within hest).1
    | sent within _ => exact h.recorded within hest _ _

private theorem new_charged (config : Config) (isServer afterRetry : Bool) (now : ℕ) :
    (new config isServer afterRetry now).Charged :=
  ⟨fun _ => Nat.zero_le _, le_rfl, fun _ => rfl⟩

theorem Reachable.charged (h : c.Reachable) : c.Charged :=
  parts_charged.calls.reachable sendParts_charged.send new_charged h

end Charged

/-- The credit for sent data covers what is outstanding or lost, and is within its limit. -/
structure CreditSound (c : Connection) : Prop where
  outstanding : c.recovery.load Frame.streamLen .application ≤ c.txData
  limit : c.txData ≤ c.maxTxData
  /-- When `send` has taken back some lost frames and comes to a STREAM frame, there is enough
  credit in use to take back its data. -/
  refund : ∀ (env : SendEnv) (c₀ : Connection) (epoch : Epoch) (n : ℕ) (c₁ : Connection) (id : ℕ)
    (data : RangeBuf)
    (frames : List Frame),
    Program.when (!c.isClosing) (doHandshake env.handshake) c = .ok () c₀ →
      c₀.writeEpoch = .ok epoch →
      (forM ((c₀.recovery.lost epoch).take n) fun _ =>
        takeLost epoch : Program Error Connection PUnit) c₀ =
        .ok ⟨⟩ c₁ →
      c₁.recovery.lost epoch = .stream id data :: frames → data.len ≤ c₁.txData

/-- The credit for sent data never goes negative. -/
theorem Reachable.creditSound {c : Connection} (h : c.Reachable) : c.CreditSound where
  outstanding := h.charged.outstanding .application
  limit := h.charged.limit
  refund env c₀ epoch n c₁ id data frames hhandshake _ hloop hlost := by
    have hkeeps : (Program.when (!c.isClosing) (doHandshake env.handshake)).Keeps
        (fun c c' => c.Charged → c'.Charged) c :=
          .when fun _ => sendParts_charged.handshake env.handshake c
    have h₀ : c₀.Charged := hkeeps.ok hhandshake h.charged
    have hlosts : (forM ((c₀.recovery.lost epoch).take n) fun _ => takeLost epoch).Keeps
        (fun c c' => c.Charged → c'.Charged) c₀ :=
          .forM (fun _ c => sendParts_charged.lost epoch c) _ c₀
    refine ((hlosts.ok hloop h₀).refund hlost).trans ?_
    split_ifs
    · exact le_rfl
    · exact Nat.zero_le _

/-- A client that acknowledgements have told that data was lost, before it is taken back. -/
theorem creditSound_client : ∃ c : Connection, c.Reachable ∧ c.CreditSound ∧
    (c.recovery.lost .application).map Frame.streamLen = [0, 5] ∧ c.txData = 8 := by
  let calls : List Call :=
    [Sample.write 0 [1, 2, 3, 4, 5] false, Sample.send 1, Sample.write 0 [1] false, Sample.send 2,
      Sample.write 0 [1] false, Sample.send 3, Sample.write 0 [1] false, Sample.send 4,
      Sample.recv 0 [.ack 0 0 (Sample.range 3 4)] 5]
  let lost (c : Connection) : Bool :=
    (c.recovery.lost .application).map Frame.streamLen = [0, 5] ∧ c.txData = 8
  have hrun : (Sample.client (.basic {}) calls).any lost = true := by decide +kernel
  obtain ⟨c, hc, hlost⟩ := (Option.any_eq_true _ _).mp hrun
  have hreachable := Sample.client_reachable hc
  exact ⟨c, hreachable, hreachable.creditSound, of_decide_eq_true hlost⟩

end Connection

end Dtp
