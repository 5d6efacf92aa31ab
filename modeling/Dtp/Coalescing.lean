import Dtp.Datagrams

/-!
# Ignored packets

Some packets of a datagram are ignored. Those for which there are no keys are skipped; those
that fail decryption and those seen before end the loop over the datagram, so that the packets
behind them are lost, although they would be processed in a datagram of their own. To compare
the two, nothing that `recv` does may depend on the credit of an unverified address, which is
only raised between datagrams.

## Main definitions

* `Connection.WirePacket.Ignored` — the packets that `recvSingle` ignores
* `Connection.Independent` — it makes no difference whether packets share a datagram

## Main results

* `Connection.recvSingle_ignoresCredit` — a packet is processed whatever the credit is
* `Connection.WirePacket.Ignored.independent_iff` — which ignored packets do not hold up the next
-/

namespace Dtp

open Lib (Program)

namespace Connection

/-! ### Receiving does not look at the credit -/

/-- The connection with another budget for an unverified address. -/
def withCredit (n : ℕ) (c : Connection) : Connection := { c with maxSendBytes := n }

/-- The program does the same whatever the budget is. -/
abbrev IgnoresCredit {α : Type} (x : Program Error Connection α) : Prop :=
  ∀ n c, Program.Mirrors (withCredit n) x x c

section IgnoresCredit

theorem dropEpochState_withCredit (c : Connection) (epoch : Epoch) (now n : ℕ) :
    (c.withCredit n).dropEpochState epoch now = (c.dropEpochState epoch now).withCredit n := by
  unfold dropEpochState
  by_cases h : (c.pktNumSpaces epoch).cryptoOpen = true
  · rw [if_pos h]
    exact if_pos h
  · rw [if_neg h]
    exact if_neg h

theorem peerStream_withCredit (c : Connection) (n id now : ℕ) :
    (c.withCredit n).peerStream id now = c.peerStream id now := rfl

private theorem acceptVersion_ignoresCredit (pkt : RxPacket) :
    IgnoresCredit (acceptVersion pkt) := by
  refine fun n c => Program.mirrors_get_bind (.ite (fun _ => Program.mirrors_fail _) fun _ => ?_)
  refine .bind (.when (Program.mirrors_modify rfl)) fun _ c => Program.mirrors_get_bind ?_
  exact .ite (fun _ => Program.mirrors_fail _) fun _ => Program.mirrors_pure _

private theorem deriveSecrets_ignoresCredit (pkt : RxPacket) :
    IgnoresCredit (deriveSecrets pkt) := by
  refine fun n c => Program.mirrors_get_bind (.ite (fun _ => Program.mirrors_pure _) fun _ => ?_)
  exact .bind (Program.mirrors_modify rfl) fun _ _ => Program.mirrors_modify rfl

private theorem writeCrypto_ignoresCredit (epoch : Epoch) (data : List UInt8) :
    IgnoresCredit (writeCrypto epoch data) := by
  refine fun n c => Program.mirrors_get_bind ?_
  dsimp only [withCredit]
  cases SendBuf.pushSlice data false (c.pktNumSpaces epoch).cryptoStream.send with
  | ok sent send => exact Program.mirrors_set rfl
  | error e send => exact Program.mirrors_fail _

private theorem doHandshake_ignoresCredit (hs : HandshakeStep) :
    IgnoresCredit (doHandshake hs) := by
  refine fun n c => Program.mirrors_get_bind (.ite (fun _ => Program.mirrors_pure _) fun _ => ?_)
  refine .bind (.forM (fun w => writeCrypto_ignoresCredit w.1 w.2 n) _ _) fun _ c => ?_
  refine .bind (Program.mirrors_modify rfl) fun _ c => ?_
  cases hs.outcome with
  | waiting => exact Program.mirrors_pure _
  | failed e => exact Program.mirrors_fail _
  | noProtocol => exact .bind (Program.mirrors_modify rfl) fun _ _ => Program.mirrors_fail _
  | finished peerParams =>
    refine Program.mirrors_get_bind (.ite (fun _ => Program.mirrors_pure _) fun _ => ?_)
    exact .bind (Program.mirrors_ofExcept _) fun _ _ => Program.mirrors_set rfl

private theorem readCrypto_ignoresCredit (epoch : Epoch) (fuel : ℕ) :
    IgnoresCredit (readCrypto epoch fuel) := by
  induction fuel with
  | zero => exact fun _ _ => Program.mirrors_pure _
  | succ fuel ih =>
    refine fun n c => Program.mirrors_get_bind ?_
    dsimp only [withCredit]
    cases (c.pktNumSpaces epoch).cryptoStream.recv.pop 512 with
    | error e => exact Program.mirrors_pure _
    | ok r => exact .bind (Program.mirrors_set rfl) fun _ c => ih n c

private theorem processAck_ignoresCredit (packetTime ackDelay : ℕ) (ranges : RangeSet)
    (epoch : Epoch)
    (env : Env) : IgnoresCredit (processAck packetTime ackDelay ranges epoch env) := by
  refine fun n c => Program.mirrors_get_bind (.ite (fun _ => Program.mirrors_fail _) fun _ => ?_)
  dsimp only [withCredit]
  cases c.recovery.onAckReceived ranges epoch env.instant env.lossDelay with
  | error e => exact Program.mirrors_throw _
  | ok recovery =>
    refine .ite (fun _ => Program.mirrors_set ?_) fun _ => Program.mirrors_set rfl
    exact dropEpochState_withCredit
      { (c.setRecovery recovery).setLossDetectionTimer (c.recovery.newlyAcks ranges epoch) env with
        handshakeConfirmed := true } _ _ n

private theorem processResetStream_ignoresCredit (streamId errorCode finalSize : ℕ) (env : Env) :
    IgnoresCredit (processResetStream streamId errorCode finalSize env) := by
  refine fun n c => Program.mirrors_get_bind (.ite (fun _ => Program.mirrors_fail _) fun _ => ?_)
  dsimp only
  rw [peerStream_withCredit]
  rcases c.peerStream streamId env.wall with e | ⟨s, m⟩
  · cases e <;> first | exact Program.mirrors_pure _ | exact Program.mirrors_fail _
  · refine .bind (Program.mirrors_set rfl) fun _ _ =>
      .bind (Program.mirrors_ofExcept _) fun recv _ => ?_
    refine .bind (Program.mirrors_set rfl) fun _ _ =>
      .bind (Program.mirrors_ofExcept _) fun r _ => ?_
    refine .bind (Program.mirrors_set rfl) fun _ _ => ?_
    exact .ite (fun _ => Program.mirrors_fail _) fun _ => Program.mirrors_pure _

private theorem processStream_ignoresCredit (streamId : ℕ) (data : RangeBuf) (env : Env) :
    IgnoresCredit (processStream streamId data env) := by
  refine fun n c => Program.mirrors_get_bind (.ite (fun _ => Program.mirrors_fail _) fun _ =>
    .ite (fun _ => Program.mirrors_fail _) fun _ => ?_)
  dsimp only
  rw [peerStream_withCredit]
  rcases c.peerStream streamId env.wall with e | ⟨s, m⟩
  · cases e <;> first | exact Program.mirrors_pure _ | exact Program.mirrors_fail _
  · refine .bind (Program.mirrors_set rfl) fun _ _ => ?_
    cases s.recv.pushEvaluation data env.wall with
    | error e => exact Program.mirrors_throw _
    | ok recv => exact Program.mirrors_set rfl

private theorem processMaxStreamData_ignoresCredit (streamId max : ℕ) (env : Env) :
    IgnoresCredit (processMaxStreamData streamId max env) := by
  refine fun n c => Program.mirrors_get_bind ?_
  dsimp only
  rw [peerStream_withCredit]
  rcases c.peerStream streamId env.wall with e | ⟨s, m⟩
  · cases e <;> first | exact Program.mirrors_pure _ | exact Program.mirrors_fail _
  · exact Program.mirrors_set rfl

private theorem processFrame_ignoresCredit (frame : Frame) (epoch : Epoch) (env : Env) :
    IgnoresCredit (processFrame frame epoch env) := by
  cases frame with
  | ack packetTime ackDelay ranges =>
    exact processAck_ignoresCredit packetTime ackDelay ranges epoch env
  | blockInfo streamId size priority deadline startTime =>
    refine fun n c => Program.mirrors_get_bind (.ite (fun _ => Program.mirrors_fail _) fun _ => ?_)
    exact .bind (Program.mirrors_ofExcept _) fun _ _ => Program.mirrors_set rfl
  | resetStream streamId errorCode finalSize =>
    exact processResetStream_ignoresCredit streamId errorCode finalSize env
  | stopSending streamId code =>
    exact fun n c => Program.mirrors_get_bind
      (.ite (fun _ => Program.mirrors_fail _) fun _ => Program.mirrors_pure _)
  | crypto data =>
    refine fun n c => Program.mirrors_get_bind ?_
    dsimp only [withCredit]
    cases (c.pktNumSpaces epoch).cryptoStream.recv.push data env.wall with
    | error e => exact Program.mirrors_throw _
    | ok recv =>
      refine .bind (Program.mirrors_set rfl) fun _ c => ?_
      exact .bind (readCrypto_ignoresCredit _ _ n c) fun _ c => doHandshake_ignoresCredit _ n c
  | stream streamId data => exact processStream_ignoresCredit streamId data env
  | maxData max => exact fun n c => Program.mirrors_modify rfl
  | maxStreamData streamId max => exact processMaxStreamData_ignoresCredit streamId max env
  | maxStreamsBidi max =>
    exact fun n c => .ite (fun _ => Program.mirrors_fail _) fun _ => Program.mirrors_modify rfl
  | maxStreamsUni max =>
    exact fun n c => .ite (fun _ => Program.mirrors_fail _) fun _ => Program.mirrors_modify rfl
  | pathChallenge data => exact fun n c => Program.mirrors_modify rfl
  | connectionClose => exact fun n c => Program.mirrors_modify rfl
  | applicationClose => exact fun n c => Program.mirrors_modify rfl
  | handshakeDone =>
    refine fun n c => Program.mirrors_get_bind (.ite (fun _ => Program.mirrors_fail _) fun _ =>
      .ite (fun _ => Program.mirrors_fail _) fun _ => Program.mirrors_set ?_)
    exact dropEpochState_withCredit { c with handshakeConfirmed := true } _ _ n
  | _ => exact fun n c => Program.mirrors_pure _

theorem processFrames_ignoresCredit (frames : List (Frame × Env)) (error : Option Error)
    (epoch : Epoch) : IgnoresCredit (processFrames frames error epoch) := by
  intro n c
  refine .bind (.forM (fun f => processFrame_ignoresCredit f.1 epoch f.2 n) _ _) fun _ c => ?_
  cases error with
  | none => exact Program.mirrors_pure _
  | some e => exact Program.mirrors_fail _

private theorem processAcked_withCredit (epoch : Epoch) (frame : Frame) (c : Connection) (n : ℕ) :
    processAcked epoch frame (c.withCredit n) = (processAcked epoch frame c).withCredit n := by
  cases frame with
  | ack packetTime ackDelay ranges =>
    unfold processAcked
    dsimp only
    cases ranges.largest <;> rfl
  | stream streamId data =>
    unfold processAcked
    dsimp only [withCredit]
    cases c.streams.streams streamId <;> rfl
  | _ => rfl

private theorem takeAcked_recvCount (epoch : Epoch) (c : Connection) :
    (takeAcked epoch c).recvCount = c.recvCount := by
  have hparts : AckedParts (fun c' => c'.recvCount = c.recvCount) epoch :=
    { pop := fun _ _ h => h
      ack := fun _ _ h => h
      crypto := fun _ _ h => h
      stream := fun _ _ _ _ _ _ _ h => h }
  exact hparts.takeAcked rfl

private theorem takeAcked_withCredit (epoch : Epoch) (c : Connection) (n : ℕ) :
    takeAcked epoch (c.withCredit n) = (takeAcked epoch c).withCredit n := by
  cases hacked : c.recovery.acked epoch with
  | nil =>
    have hsame : (c.withCredit n).recovery.acked epoch = [] := hacked
    simp only [takeAcked, hacked, hsame]
  | cons frame frames =>
    have hsame : (c.withCredit n).recovery.acked epoch = frame :: frames := hacked
    simp only [takeAcked, hacked, hsame]
    exact processAcked_withCredit epoch frame
      (c.setRecovery { c.recovery with acked := Epoch.update c.recovery.acked epoch frames }) n

private theorem verifyPeer_withCredit (pkt : RxPacket) (c : Connection) (n : ℕ) :
    verifyPeer pkt (c.withCredit n) = (verifyPeer pkt c).withCredit n := by
  have hserver : (c.withCredit n).isServer = c.isServer := rfl
  unfold verifyPeer
  rw [hserver, dropEpochState_withCredit]
  split_ifs
  · rfl
  · rfl

private theorem received_withCredit (pkt : RxPacket) (epoch : Epoch) (c : Connection) (n : ℕ) :
    received pkt epoch (c.withCredit n) = (received pkt epoch c).withCredit n :=
  congrArg (fun c : Connection => { c with ackElicitingSent := false }) <|
    verifyPeer_withCredit pkt { c.modifySpace epoch pkt.record with recvCount := c.recvCount + 1 } n

private theorem handle_ignoresCredit (pkt : RxPacket) (epoch : Epoch) :
    IgnoresCredit (handle pkt epoch) := by
  intro n c
  refine .bind (processFrames_ignoresCredit _ _ epoch n c) fun _ c => ?_
  refine .bind (processFrames_ignoresCredit _ _ epoch n c) fun _ c => ?_
  refine .bind ?_ fun _ c => Program.mirrors_modify (received_withCredit pkt epoch c n)
  refine Program.mirrors_get_bind (.forM (fun _ c => ?_) _ _)
  exact Program.mirrors_modify (takeAcked_withCredit epoch c n)

private theorem decrypt_ignoresCredit (p : WirePacket) (epoch : Epoch) :
    IgnoresCredit (p.decrypt epoch) := by
  refine fun n c => Program.mirrors_get_bind (.ite (fun _ => Program.mirrors_pure _) fun _ => ?_)
  cases p.body with
  | garbled e => exact Program.mirrors_fail _
  | _ => exact .ite (fun _ => Program.mirrors_fail _) fun _ => Program.mirrors_pure _

private theorem openPacket_ignoresCredit (p : WirePacket) : IgnoresCredit p.openPacket := by
  refine fun n c => Program.mirrors_get_bind (.ite (fun _ => Program.mirrors_fail _) fun _ => ?_)
  cases p.packet.ty.toEpoch with
  | none => exact Program.mirrors_fail _
  | some epoch =>
    refine .ite (fun _ => Program.mirrors_pure _) fun _ => ?_
    refine .bind (acceptVersion_ignoresCredit p.packet n c) fun _ c => ?_
    cases p.body with
    | truncated e => exact Program.mirrors_fail _
    | _ =>
      exact .bind (deriveSecrets_ignoresCredit p.packet n c) fun _ c =>
        decrypt_ignoresCredit p epoch n c

theorem recvSingle_ignoresCredit (p : WirePacket) : IgnoresCredit p.recvSingle := by
  refine fun n c => .bind (openPacket_ignoresCredit p n c) fun epoch c => ?_
  cases epoch with
  | none => exact Program.mirrors_pure _
  | some epoch => exact handle_ignoresCredit p.packet epoch n c

private theorem close_withCredit (c : Connection) (app : Bool) (err : ℕ) (reason : List UInt8)
    (n : ℕ) :
    (c.withCredit n).close app err reason = (c.close app err reason).map (withCredit n) := by
  rw [close, close]
  by_cases hdraining : c.draining = true
  · rw [if_pos hdraining, if_pos (show (c.withCredit n).draining = true from hdraining)]
    rfl
  rw [if_neg hdraining, if_neg (show ¬ (c.withCredit n).draining = true from hdraining)]
  by_cases hclosing : c.error.isSome = true ∨ c.appError.isSome = true
  · rw [if_pos hclosing]
    exact if_pos hclosing
  · rw [if_neg hclosing]
    refine (if_neg hclosing).trans ?_
    cases app <;> rfl

private theorem closeOnError_ignoresCredit {x : Program Error Connection Unit}
    (h : IgnoresCredit x) :
    IgnoresCredit (closeOnError x) := by
  intro n c
  have hx := h n c
  unfold Program.Mirrors at *
  unfold closeOnError
  rw [hx]
  rcases x c with ⟨_, c₁⟩ | ⟨e | _ | _ | _, c₁⟩
  · rfl
  · simp only [Program.mapState, close_withCredit]
    split_ifs
    · rfl
    · cases c₁.close false e.toWire [] <;> rfl
  all_goals rfl

end IgnoresCredit

/-! ### Ignored packets and those behind them -/

/-- A packet with a short header takes up the rest of its datagram. -/
def Delimited (ps : List WirePacket) : Prop := ps.Pairwise fun p _ => p.packet.ty ≠ .short

/-- Delivering some packets together does, up to the credit, what it does to deliver them in
two datagrams. -/
def Independent (front rest : List WirePacket) (c : Connection) : Prop :=
  ((Coalesced.ofPackets (front ++ rest)).recv.after c).map (withCredit 0) =
    (((Coalesced.ofPackets front).recv.after c).bind (Coalesced.ofPackets rest).recv.after).map
      (withCredit 0)

namespace WirePacket

/-- The header of a packet is accepted: it gets an epoch, and the state its header leads to. -/
structure Accepts (p : WirePacket) (c : Connection) (epoch : Epoch) (c' : Connection) : Prop where
  open_ : (c.draining || c.isClosing) = false
  epoch : p.packet.ty.toEpoch = some epoch
  ready : ¬ (p.packet.ty = .short ∧ (!c.isEstablished) = true)
  header : acceptHeader p.packet c = .ok () c'
  whole : ∀ e, p.body ≠ .truncated e

theorem Accepts.openPacket {p : WirePacket} {c c' : Connection} {epoch : Epoch}
    (h : p.Accepts c epoch c') :
    p.openPacket c = p.decrypt epoch c' := by
  obtain ⟨_, c₁, hversion, hsecrets⟩ := Program.bind_eq_ok.mp (acceptHeader_eq p.packet ▸ h.header)
  unfold WirePacket.openPacket
  simp only [Program.bind_apply, Program.get_apply]
  rw [if_neg (by simp [h.open_]), h.epoch]
  simp only [if_neg h.ready, Program.bind_apply, hversion]
  cases hbody : p.body with
  | truncated e => exact absurd hbody (h.whole e)
  | garbled e => simp only [Program.bind_apply, hsecrets]
  | readable => simp only [Program.bind_apply, hsecrets]

/-- In the state `c`, the packet is ignored: before the handshake is complete, because there
are no keys, because decryption fails and another packet was processed, or because its number
was seen before. Its header leads to the state `c'`. -/
inductive Ignored (p : WirePacket) (c : Connection) : Connection → Prop
  | early (open_ : (c.draining || c.isClosing) = false) (short : p.packet.ty = .short)
      (ready : c.isEstablished = false) : p.Ignored c c
  | noKey {epoch : Epoch} {c' : Connection} (accepts : p.Accepts c epoch c')
      (key : p.openable epoch c' = false) : p.Ignored c c'
  | garbled {epoch : Epoch} {c' : Connection} {e : Error} (accepts : p.Accepts c epoch c')
      (key : p.openable epoch c' = true) (body : p.body = .garbled e) (count : c'.recvCount ≠ 0) :
      p.Ignored c c'
  | duplicate {epoch : Epoch} {c' : Connection} (accepts : p.Accepts c epoch c')
      (key : p.openable epoch c' = true) (body : p.body = .readable)
      (seen : (c'.pktNumSpaces epoch).recvPktNum.contains p.packet.pktNum = true) : p.Ignored c c'

/-- There are no keys for the packet. -/
def LacksKey (p : WirePacket) (c : Connection) : Prop :=
  ∃ epoch c', p.Accepts c epoch c' ∧ p.openable epoch c' = false

theorem Accepts.unique {p : WirePacket} {c c₁ c₂ : Connection} {e₁ e₂ : Epoch}
    (h₁ : p.Accepts c e₁ c₁) (h₂ : p.Accepts c e₂ c₂) : e₁ = e₂ ∧ c₁ = c₂ := by
  have hheader := h₁.header.symm.trans h₂.header
  exact ⟨Option.some.inj (h₁.epoch.symm.trans h₂.epoch), by injection hheader⟩

private theorem Accepts.not_lacksKey {p : WirePacket} {c c' : Connection} {epoch : Epoch}
    (h : p.Accepts c epoch c') (hkey : p.openable epoch c' = true) : ¬ p.LacksKey c := by
  rintro ⟨e, c₂, h', hkey'⟩
  obtain ⟨rfl, rfl⟩ := h.unique h'
  rw [hkey] at hkey'
  cases hkey'

/-- Packets for which there are no keys are skipped; the others end the datagram. -/
theorem Ignored.recvSingle {p : WirePacket} {c c' : Connection} (h : p.Ignored c c') :
    (p.packet.ty = .short ∨ p.LacksKey c) ∧ p.recvSingle c = .ok () c' ∨
      (∃ epoch, p.Accepts c epoch c' ∧ p.openable epoch c' = true) ∧
        p.recvSingle c = .error (.error .done) c' := by
  cases h with
  | early open_ short ready =>
    refine .inl ⟨.inl short, ?_⟩
    obtain ⟨hdraining, hclosing⟩ := Bool.or_eq_false_iff.mp open_
    unfold WirePacket.recvSingle openPacket
    simp [Program.bind_apply, Program.get_apply, hdraining, hclosing, short, ready,
      PacketType.toEpoch]
  | noKey accepts key =>
    refine .inl ⟨.inr ⟨_, _, accepts, key⟩, ?_⟩
    unfold WirePacket.recvSingle
    rw [Program.bind_apply, accepts.openPacket]
    simp [decrypt, Program.bind_apply, Program.get_apply, key]
  | garbled accepts key body count =>
    refine .inr ⟨⟨_, accepts, key⟩, ?_⟩
    unfold WirePacket.recvSingle
    rw [Program.bind_apply, accepts.openPacket]
    simp [decrypt, Program.bind_apply, Program.get_apply, key, body, count]
  | duplicate accepts key body seen =>
    refine .inr ⟨⟨_, accepts, key⟩, ?_⟩
    unfold WirePacket.recvSingle
    rw [Program.bind_apply, accepts.openPacket]
    simp [decrypt, Program.bind_apply, Program.get_apply, key, body, seen]

end WirePacket

theorem ofPackets_recvAll (ps : List WirePacket) (c : Connection) :
    (Coalesced.ofPackets ps).recvAll c = forM ps WirePacket.recvSingle c := by
  change (do forM ps WirePacket.recvSingle; pure () : Program Error Connection Unit) c = _
  rw [Program.bind_apply]
  cases (forM ps WirePacket.recvSingle : Program Error Connection Unit) c <;> rfl

/-- The credit at the end of `recv`. -/
theorem credit_withCredit (c : Connection) (n : ℕ) :
    (if c.verifiedPeerAddress then c
      else { c with maxSendBytes := c.maxSendBytes + n }).withCredit 0 =
      c.withCredit 0 := by
  split_ifs <;> rfl

/-- What is left of `recv`, if the credit does not matter. -/
theorem Coalesced.recv_after_withCredit (d : Coalesced) (c : Connection) :
    (d.recv.after c).map (withCredit 0) = ((closeOnError d.recvAll).after c).map
    (withCredit 0) := by
  rw [d.recv_after c, Program.after]
  rcases closeOnError d.recvAll c with ⟨_, c₁⟩ | ⟨_ | _ | _ | _, c₁⟩
  · exact congrArg some (credit_withCredit c₁ _)
  all_goals rfl

private theorem ofPackets_ignoresCredit (ps : List WirePacket) :
    IgnoresCredit (Coalesced.ofPackets ps).recvAll := by
  refine fun n c => .bind (.forM (fun p => recvSingle_ignoresCredit p n) _ _) fun _ c => ?_
  exact Program.mirrors_pure _

/-- The credit before does not matter either. -/
theorem ofPackets_after_withCredit (ps : List WirePacket) (c : Connection) (n : ℕ) :
    ((Coalesced.ofPackets ps).recv.after (c.withCredit n)).map (withCredit 0) =
      ((Coalesced.ofPackets ps).recv.after c).map (withCredit 0) := by
  have hsame := closeOnError_ignoresCredit (ofPackets_ignoresCredit ps) n c
  rw [Coalesced.recv_after_withCredit, Coalesced.recv_after_withCredit]
  unfold Program.Mirrors at hsame
  unfold Program.after
  rw [hsame]
  rcases closeOnError (Coalesced.ofPackets ps).recvAll c with ⟨_, c₁⟩ | ⟨_ | _ | _ | _, c₁⟩ <;> rfl

/-- The packets behind those that `recvSingle` accepts are processed as in their own datagram. -/
theorem independent_of_ok {front : List WirePacket} {c c' : Connection}
    (h : forM front WirePacket.recvSingle c = .ok () c') (rest : List WirePacket) :
    Independent front rest c := by
  have hfront : closeOnError (Coalesced.ofPackets front).recvAll c = .ok () c' :=
    closeOnError_eq_ok.mpr ((ofPackets_recvAll front c).trans h)
  have hall : (Coalesced.ofPackets (front ++ rest)).recvAll c =
      (Coalesced.ofPackets rest).recvAll c' := by
    rw [ofPackets_recvAll, ofPackets_recvAll, List.forM_append, Program.bind_apply, h]
  have hclose : closeOnError (Coalesced.ofPackets (front ++ rest)).recvAll c =
      closeOnError (Coalesced.ofPackets rest).recvAll c' := by
    unfold closeOnError
    rw [hall]
  obtain ⟨n, hcredit⟩ : ∃ n, (Coalesced.ofPackets front).recv.after c = some (c'.withCredit n) := by
    rw [Coalesced.recv_after, hfront]
    dsimp only
    split_ifs
    · exact ⟨c'.maxSendBytes, rfl⟩
    · exact ⟨_, rfl⟩
  unfold Independent
  rw [hcredit, Option.bind_some, ofPackets_after_withCredit, Coalesced.recv_after_withCredit,
    Coalesced.recv_after_withCredit]
  unfold Program.after
  rw [hclose]

/-- The packets behind one that ends the datagram with `Done` are not processed. -/
theorem independent_iff_of_done {front : List WirePacket} {c c' : Connection}
    (h : forM front WirePacket.recvSingle c = .error (.error .done) c') (rest : List WirePacket) :
    Independent front rest c ↔
      ((Coalesced.ofPackets rest).recv.after c').map (withCredit 0) = some (c'.withCredit 0) := by
  have hdone (ps : List WirePacket)
    (hps : forM ps WirePacket.recvSingle c = .error (.error .done) c') :
      (Coalesced.ofPackets ps).recv.after c = some c' := by
    rw [Coalesced.recv_after, closeOnError, ofPackets_recvAll, hps]
    rfl
  have hall : forM (front ++ rest) WirePacket.recvSingle c = .error (.error .done) c' := by
    rw [List.forM_append, Program.bind_apply, h]
  unfold Independent
  rw [hdone front h, hdone (front ++ rest) hall, Option.map_some, Option.bind_some]
  exact eq_comm

/-- What there is to decide about the headers of one type and version is decided. -/
structure Settled (ty : PacketType) (version : ℕ) (c : Connection) : Prop where
  negotiated : (c.isServer && !c.didVersionNegotiation) = false
  version : ty ≠ .short → version = c.version
  derived : c.derivedInitialSecrets = true

private theorem acceptHeader_settles (pkt : RxPacket) (c : Connection) : (acceptHeader pkt).Ends c
    (fun _ c' => Settled pkt.ty pkt.version c' ∧
      (c'.draining || c'.isClosing) = (c.draining || c.isClosing))
    fun _ _ => True := by
  rw [acceptHeader, Program.ends_bind, Program.ends_get]
  refine Program.ends_ite.mpr ⟨fun _ => trivial, fun _ => ?_⟩
  refine Program.Ends.bind (R := fun _ c₁ => (c₁.isServer && !c₁.didVersionNegotiation) = false ∧
    (c₁.draining || c₁.isClosing) = (c.draining || c.isClosing)) ?_ ?_
  · refine Program.Ends.when (fun _ => ⟨?_, rfl⟩) fun h => ⟨by simpa using h, rfl⟩
    simp
  rintro _ c₁ ⟨hnegotiated, hopen⟩
  rw [Program.ends_bind, Program.ends_get]
  refine Program.ends_ite.mpr ⟨fun _ => trivial, fun hversion => ?_⟩
  have hversion (hlong : pkt.ty ≠ .short) : pkt.version = c₁.version := by
    by_contra hne
    exact hversion ⟨hlong, hne⟩
  refine Program.ends_ite.mpr ⟨fun hderived => ⟨⟨hnegotiated, hversion, hderived⟩, hopen⟩,
    fun _ => ?_⟩
  exact ⟨⟨hnegotiated, hversion, rfl⟩, hopen⟩

theorem Settled.acceptHeader {pkt : RxPacket} {c : Connection} (h : Settled pkt.ty pkt.version c) :
    acceptHeader pkt c = .ok () c := by
  have hversion : ¬ (pkt.ty ≠ .short ∧ pkt.version ≠ c.version) := fun hne => hne.2
    (h.version hne.1)
  unfold Connection.acceptHeader
  simp only [Program.bind_apply, Program.get_apply]
  rw [if_neg (by simp [h.negotiated]), Program.bind_apply, h.negotiated]
  change (if pkt.ty ≠ .short ∧ pkt.version ≠ c.version then _ else _ :
    Program Error Connection Unit) c = _
  rw [if_neg hversion, if_pos h.derived, Program.pure_apply]

namespace WirePacket

/-- A PING packet of the type of `p`. -/
def pingLike (p : WirePacket) (pktNum : ℕ) : WirePacket where
  packet :=
    { p.packet with
      pktNum := pktNum
      restored := []
      restoredError := none
      frames := [(.ping, Sample.env p.packet.now)]
      framesError := none }
  body := .readable
  zeroRTTKey := p.zeroRTTKey
  len := 40
  len_pos := by decide

/-- A PING packet with a new number behind a packet that there are keys for is processed. -/
theorem Accepts.pingLike {p : WirePacket} {c c' : Connection} {epoch : Epoch}
    (h : p.Accepts c epoch c') (hlong : p.packet.ty ≠ .short) (hkey : p.openable epoch c' = true)
    {pktNum : ℕ} (hnew : (c'.pktNumSpaces epoch).recvPktNum.contains pktNum = false) :
    ∃ c'', (p.pingLike pktNum).recvSingle c' = .ok () c'' ∧ c''.recvCount = c'.recvCount + 1 := by
  obtain ⟨hsettled, hopen⟩ := (acceptHeader_settles p.packet c).ok h.header
  have hping : acceptHeader (p.pingLike pktNum).packet c' = .ok () c' :=
    Settled.acceptHeader hsettled
  have haccepts : (p.pingLike pktNum).Accepts c' epoch c' :=
    ⟨hopen.trans h.open_, h.epoch, fun hshort => hlong hshort.1, hping, nofun⟩
  have hopened : (p.pingLike pktNum).openPacket c' = .ok (some epoch) c' := by
    have hopenable : (p.pingLike pktNum).openable epoch c' = true := hkey
    rw [haccepts.openPacket, decrypt, Program.bind_apply, Program.get_apply]
    dsimp only
    rw [hopenable, if_neg (by decide)]
    change (if (c'.pktNumSpaces epoch).recvPktNum.contains pktNum = true then _ else _ :
      Program Error Connection (Option Epoch)) c' = _
    rw [hnew, if_neg Bool.false_ne_true, Program.pure_apply]
  have hdrain : (drainAcked epoch).Ends c' (fun _ c₁ => c₁.recvCount = c'.recvCount) fun _ _ =>
      False := by
    rw [drainAcked, Program.ends_bind, Program.ends_get]
    refine Program.Maintains.forM (I := fun c₁ => c₁.recvCount = c'.recvCount)
      (fun _ => ?_) _ c' rfl
    exact Program.maintains_modify fun c₁ h₁ => (takeAcked_recvCount epoch c₁).trans h₁
  obtain ⟨_, c₁, hdrained, hcount⟩ := hdrain.exists_ok
  refine ⟨received (p.pingLike pktNum).packet epoch c₁, ?_, ?_⟩
  · unfold recvSingle
    rw [Program.bind_apply, hopened]
    change (drainAcked epoch >>= fun _ => modify (received (p.pingLike pktNum).packet epoch)) c' = _
    rw [Program.bind_apply, hdrained]
    rfl
  · rw [received_recvCount, hcount]

end WirePacket

private theorem exists_new (w : PktNumWindow) : ∃ pktNum, w.contains pktNum = false :=
  ⟨w.upper + 1, if_pos (Nat.lt_succ_self _)⟩

/-- An ignored packet leaves the packets behind it alone, whatever they are, exactly if there
are no keys for it, or nothing can follow it because its header is short. -/
theorem WirePacket.Ignored.independent_iff {front : List WirePacket} {p : WirePacket}
    {c c₁ c₂ : Connection} (hfront : forM front WirePacket.recvSingle c = .ok () c₁)
    (hdelimited : Delimited (front ++ [p])) (hignored : p.Ignored c₁ c₂) :
    (∀ rest, Delimited (front ++ [p] ++ rest) → Independent (front ++ [p]) rest c) ↔
      p.LacksKey c₁ ∨ p.packet.ty = .short := by
  have hsingle (r : EStateM.Result Fault Connection Unit) (hr : p.recvSingle c₁ = r) :
      forM (front ++ [p]) WirePacket.recvSingle c = r := by
    rw [List.forM_append, Program.bind_apply, hfront]
    change (do p.recvSingle; pure ⟨⟩ : Program Error Connection Unit) c₁ = r
    rw [Program.bind_apply, hr]
    cases r <;> rfl
  rcases hignored.recvSingle with ⟨hwhy, hok⟩ | ⟨⟨epoch, haccepts, hkey⟩, hdone⟩
  · exact ⟨fun _ => hwhy.symm, fun _ rest _ => independent_of_ok (hsingle _ hok) rest⟩
  have hstop := independent_iff_of_done (hsingle _ hdone)
  constructor
  · intro hall
    right
    by_contra hlong
    -- a PING behind the packet would be processed in a datagram of its own
    obtain ⟨pktNum, hnew⟩ := exists_new (c₂.pktNumSpaces epoch).recvPktNum
    obtain ⟨c₃, hping, hcount⟩ := haccepts.pingLike hlong hkey hnew
    have hlongs (q : WirePacket) (hq : q ∈ front ++ [p]) : q.packet.ty ≠ .short := by
      rcases List.mem_append.mp hq with hq | hq
      · exact (List.pairwise_append.mp hdelimited).2.2 q hq p List.mem_cons_self
      · rwa [List.mem_singleton.mp hq]
    have hrest : Delimited (front ++ [p] ++ [p.pingLike pktNum]) :=
      List.pairwise_append.mpr ⟨hdelimited, List.pairwise_singleton _ _, fun q hq _ _ =>
        hlongs q hq⟩
    have hsame := (hstop [p.pingLike pktNum]).mp (hall _ hrest)
    have hown : closeOnError (Coalesced.ofPackets [p.pingLike pktNum]).recvAll c₂ = .ok () c₃ := by
      rw [closeOnError_eq_ok, ofPackets_recvAll, List.forM_cons, Program.bind_apply, hping]
      rfl
    rw [Coalesced.recv_after_withCredit, Program.after, hown] at hsame
    have hstates : c₃.withCredit 0 = c₂.withCredit 0 := Option.some.inj hsame
    have hcounts := congrArg recvCount hstates
    change c₃.recvCount = c₂.recvCount at hcounts
    omega
  · rintro (hlacks | hshort) rest hrest
    · exact absurd hlacks (haccepts.not_lacksKey hkey)
    · cases rest with
      | nil => exact (hstop []).mpr (by rw [Coalesced.recv_after_withCredit]; rfl)
      | cons q qs =>
        have hlast := (List.pairwise_append.mp hrest).2.2 p
          (List.mem_append_right _ List.mem_cons_self) q List.mem_cons_self
        exact absurd hshort hlast

/-- The packet with which the TLS of the server completes the handshake. -/
def helloPacket : WirePacket :=
  { pingPacket .initial .readable with
    packet :=
      { (pingPacket .initial .readable).packet with
        frames := [(.crypto ⟨[1], 0, false⟩, Sample.env 0)] } }

/-- A server that has received `helloPacket` ignores it when it comes again, and loses the
Handshake packet behind it. -/
theorem exists_duplicate : ∃ c, helloPacket.Ignored c c ∧
    ((Coalesced.ofPackets ([helloPacket] ++ [pingPacket .handshake .readable])).recv.after c).map
      recvCount ≠
      (((Coalesced.ofPackets [helloPacket]).recv.after c).bind
        (Coalesced.ofPackets [pingPacket .handshake .readable]).recv.after).map recvCount := by
  let settled (c : Connection) : Bool :=
    !(c.draining || c.isClosing) && !(c.isServer && !c.didVersionNegotiation) &&
      c.version == protocolVersionDraft25 && c.derivedInitialSecrets
  let loses (c : Connection) : Bool := decide
    (((Coalesced.ofPackets ([helloPacket] ++ [pingPacket .handshake .readable])).recv.after c).map
      recvCount ≠
      (((Coalesced.ofPackets [helloPacket]).recv.after c).bind
        (Coalesced.ofPackets [pingPacket .handshake .readable]).recv.after).map recvCount)
  have hrun : ((Coalesced.ofPackets [helloPacket]).recv.after newServer).any (fun c => settled c &&
      helloPacket.openable .initial c &&
          (c.pktNumSpaces .initial).recvPktNum.contains 0 && loses c) = true := by
    decide +kernel
  obtain ⟨c, -, hcond⟩ := (Option.any_eq_true _ _).mp hrun
  simp only [settled, loses, Bool.and_eq_true, Bool.not_eq_true', beq_iff_eq,
    decide_eq_true_eq] at hcond
  obtain ⟨⟨⟨⟨⟨⟨hopen, hnegotiated⟩, hversion⟩, hderived⟩, hkey⟩, hseen⟩, hloses⟩ := hcond
  have hsettled : Settled helloPacket.packet.ty helloPacket.packet.version c :=
    ⟨hnegotiated, fun _ => hversion.symm, hderived⟩
  refine ⟨c, .duplicate ⟨hopen, rfl, ?_, hsettled.acceptHeader, nofun⟩ hkey rfl hseen, hloses⟩
  exact fun hshort => nomatch hshort.1

/-- A duplicate makes the server lose the packet behind it. -/
theorem WirePacket.Ignored.not_independent : ¬ ∀ (front rest : List WirePacket) (p : WirePacket)
    (c c₁ c₂ : Connection), forM front WirePacket.recvSingle c = .ok () c₁ → p.Ignored c₁ c₂ →
      Delimited (front ++ [p] ++ rest) → Independent (front ++ [p]) rest c := by
  intro hall
  obtain ⟨c, hignored, hloses⟩ := exists_duplicate
  have hdelimited : Delimited ([] ++ [helloPacket] ++ [pingPacket .handshake .readable]) := by
    simp [Delimited, helloPacket, pingPacket]
  have hsame := hall [] [pingPacket .handshake .readable] helloPacket c c c rfl hignored hdelimited
  have hcounts := congrArg (Option.map recvCount) hsame
  rw [Option.map_map, Option.map_map] at hcounts
  exact hloses hcounts

/-- What `independent_iff` says about that duplicate. -/
theorem WirePacket.Ignored.independent_duplicate : ∃ c,
    ((∀ rest, Delimited ([] ++ [helloPacket] ++ rest) → Independent ([] ++ [helloPacket]) rest c) ↔
      helloPacket.LacksKey c ∨ helloPacket.packet.ty = .short) := by
  obtain ⟨c, hignored, -⟩ := exists_duplicate
  have hfront : forM [] WirePacket.recvSingle c = .ok () c := rfl
  exact ⟨c, hignored.independent_iff hfront (List.pairwise_singleton _ _)⟩

end Connection

end Dtp
