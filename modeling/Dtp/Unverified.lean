import Dtp.Acknowledgements
import Dtp.CheckedParts
import Dtp.FecGroups

/-!
# Servers with an unverified address

Until a server has read a Handshake packet of its client, its handshake is not complete: all
that it sends are Initial and Handshake packets, which the congestion controllers do not count.
So its timer is set for losses alone, it is never asked for a probe, and it forms no FEC group.
If reading the Handshake packet fails, the server closes the connection.

## Main definitions

* `HandshakeStep.AwaitsClient` — a server completes the handshake with a Handshake packet
* `Connection.Handshaking` — the handshake is not complete, and there is nothing to probe
* `Connection.Curbed` — what an unverified server is restricted to

## Main results

* `Connection.Curbed.call` — calls keep the restrictions
-/

namespace Dtp

open Lib (Program AllSteps)

/-! ### Credit and debit -/

namespace Connection

/-- The address of the peer does not cease to be verified, and the credit does not grow. -/
structure Debits (c c' : Connection) : Prop where
  isServer : c'.isServer = c.isServer
  verified : c'.verifiedPeerAddress = false → c.verifiedPeerAddress = false
  maxSendBytes : c'.maxSendBytes ≤ c.maxSendBytes

instance : IsPreorder Connection Debits where
  refl _ := ⟨rfl, id, le_rfl⟩
  trans _ _ _ h h' := ⟨h'.isServer.trans h.isServer, h.verified ∘ h'.verified,
    h'.maxSendBytes.trans h.maxSendBytes⟩

theorem Steady.debits {c c' : Connection} (h : c.Steady c') : c.Debits c' :=
  ⟨h.isServer, h.verifiedPeerAddress.symm.trans, h.maxSendBytes.le⟩

/-- What sends and counts nothing takes nothing from the budget. -/
theorem debits_of_resting {α : Type} {x : Program Error Connection α} (h : Resting x)
    (c : Connection) :
    x.Keeps Debits c := (h.keeps c).mono fun _ hc => hc.debits

private theorem takeAcked_debits (epoch : Epoch) (c : Connection) :
    c.Debits (takeAcked epoch c) := by
  obtain ⟨c₁, spaces, hc₁, heq⟩ := takeAcked_upToNeedAck epoch c
  rw [heq]
  exact { hc₁.debits with }

private theorem received_debits (pkt : RxPacket) (epoch : Epoch) (c : Connection) :
    c.Debits (received pkt epoch c) := by
  have hsteady := (received_rests pkt epoch c).toSteady
  refine ⟨hsteady.isServer, fun hverified => ?_, hsteady.maxSendBytes.le⟩
  unfold received at hverified
  dsimp only at hverified
  split_ifs at hverified
  exact hverified

theorem recvParts_debits : RecvParts Debits where
  header pkt := debits_of_resting (acceptHeader_resting pkt)
  frame frame epoch env := debits_of_resting (processFrame_resting frame epoch env)
  acked := takeAcked_debits
  received := received_debits
  close _ _ _ _ _ h := (close_rests h).debits

/-- `recv` gives credit for what it was passed, if it returns. -/
theorem recv_credits (d : Datagram) (c : Connection) : (recv d).Keeps
    (fun c c' => Debits { c with maxSendBytes := c.maxSendBytes + 3 * d.len } c') c := by
  have hcredit {c' : Connection} (h : c.Debits c') (n : ℕ) (hn : n ≤ c'.maxSendBytes + 3 * d.len) :
      Debits { c with maxSendBytes := c.maxSendBytes + 3 * d.len } { c' with maxSendBytes := n } :=
    ⟨h.isServer, h.verified, hn.trans (Nat.add_le_add_right h.maxSendBytes _)⟩
  have hpackets := recvParts_debits.packets d c
  unfold recv Program.Keeps
  rw [Program.ends_bind]
  refine Program.Ends.mono hpackets (fun _ c' h => ?_) fun e c' h he => ?_
  · rw [Program.ends_modify]
    split_ifs
    · exact hcredit h c'.maxSendBytes (Nat.le_add_right _ _)
    · exact hcredit h _ (by rw [Nat.mul_comm])
  · exact hcredit (h he) c'.maxSendBytes (Nat.le_add_right _ _)

/-- A recorded packet is taken out of the credit. -/
theorem recorded_debits {epoch : Epoch} {room : ℕ} {q : Packing} {c : Connection}
    (h : Packing.Within epoch ⟨c, .new room⟩ q) (written : ℕ) (env : SendEnv) :
    c.Debits (q.recorded epoch written env) ∧
      (q.recorded epoch written env).maxSendBytes = c.maxSendBytes - written := by
  have hrecorded := (recorded_rests epoch written env q).toSteady
  have hsettled := trans_of Rests (counted_rests epoch written env q)
    (settled_rests epoch written env q)
  have hbudget : (q.recorded epoch written env).maxSendBytes = c.maxSendBytes - written := by
    change (q.settled epoch written env).maxSendBytes - written = _
    rw [hsettled.maxSendBytes]
    exact congrArg (· - written) h.conn.maxSendBytes
  refine ⟨⟨hrecorded.isServer.trans h.conn.isServer, fun hverified => ?_, ?_⟩, hbudget⟩
  · exact h.conn.verifiedPeerAddress.symm.trans (hrecorded.verifiedPeerAddress.symm.trans hverified)
  · rw [hbudget]
    exact Nat.sub_le _ _

theorem sendParts_debits : SendParts Debits where
  handshake hs := debits_of_resting (doHandshake_resting hs)
  lost epoch c := by
    refine (takeLost_tookBack epoch c).mono fun c' h => ?_
    cases h with
    | rests h => exact h.debits
    | stream _ h => exact { h.debits with }
    | ack _ h => exact { h.debits with }
  clearLost epoch c := (clearLost_rests epoch c).debits
  packet epoch room headerLen pnLen avail env c _ := by
    refine (packet_putTogether epoch room headerLen pnLen avail env c).mono fun c' h => ?_
    cases h with
    | unsent within => exact within.conn.steady.debits
    | sent within _ => exact (recorded_debits within _ _).1

/-- The calls other than `recv` give no credit. -/
theorem call_debits {c c' : Connection} {call : Call} (hrecv : ∀ d, call ≠ .recv d)
    (hstep : Call.step c call = some c') : c.Debits c' := by
  refine Program.keeps_iff_after.mp ?_ c' hstep
  cases call with
  | streamSend id data fin deadline priority now =>
    have hwrite := streamSendFull_streaming id data fin deadline priority now
    exact (debits_of_resting hwrite.resting c).discard
  | streamRecv id cap => exact (debits_of_resting (streamRecv_streaming id cap).resting c).discard
  | streamShutdown id direction =>
    exact debits_of_resting (streamShutdown_streaming id direction).resting c
  | recv d => exact absurd rfl (hrecv d)
  | send outLen env => exact (sendParts_debits.send outLen env c).discard
  | onTimeout env => exact (onTimeout_rests c env).debits
  | setTail tailSize => exact { refl_of Debits c with }
  | close app err reason =>
    change (get >>= fun c => Program.ofExcept (c.close app err reason) >>= set).Keeps Debits c
    rw [Program.keeps_get_bind]
    cases hclose : c.close app err reason with
    | ok c' => exact (close_rests hclose).debits
    | error e => exact Program.keeps_fail.mpr (refl_of Debits c)

/-- Servers stay servers, and verified addresses stay verified. -/
theorem call_verified {c c' : Connection} {call : Call} (hstep : Call.step c call = some c') :
    c'.isServer = c.isServer ∧
      (c'.verifiedPeerAddress = false → c.verifiedPeerAddress = false) := by
  by_cases hrecv : ∃ d, call = .recv d
  · obtain ⟨d, rfl⟩ := hrecv
    have hcredits := Program.keeps_iff_after.mp (recv_credits d c) c' hstep
    exact ⟨hcredits.isServer, hcredits.verified⟩
  · have hdebits := call_debits (fun d heq => hrecv ⟨d, heq⟩) hstep
    exact ⟨hdebits.isServer, hdebits.verified⟩

end Connection

/-! ### Loss recovery without probes -/

namespace Recovery

variable {r r' : Recovery} {epoch : Epoch} {now lossDelay : ℕ}

/-- Neither the times of possible losses change nor the probes that are due. -/
def SameTimes (r r' : Recovery) : Prop := r'.lossTime = r.lossTime ∧ r'.lossProbes = r.lossProbes

/-- Groups have nothing to do with times. -/
theorem SameTimes.modifyFecGroup (h : r.SameTimes r') (info : FecStatus)
    (f : FecPacketNumbers → FecPacketNumbers) : r.SameTimes (r'.modifyFecGroup info f) := by
  unfold Recovery.modifyFecGroup
  split_ifs
  · exact h
  · exact h

/-- Rebuilding has nothing to do with times. -/
theorem SameTimes.recovered (h : r.SameTimes r') (pns : List ℕ) :
    r.SameTimes (pns.foldl onPacketRecovered r') := by
  induction pns generalizing r' with
  | nil => exact h
  | cons pn pns ih =>
    apply ih
    unfold onPacketRecovered
    split
    · exact h
    · exact h

/-- An acknowledgement has nothing to do with the time of the last packet. -/
theorem SameTimes.acked (h : r.SameTimes r') (pktNum : ℕ) :
    r.SameTimes (r'.onPacketAcked pktNum epoch).2 := by
  unfold onPacketAcked
  split
  · exact h
  · apply SameTimes.recovered
    apply SameTimes.modifyFecGroup
    exact h

/-- The detection of losses asks for no probes. -/
theorem detectLostPackets_lossProbes (r : Recovery) (epoch : Epoch) (now lossDelay : ℕ) :
    (r.detectLostPackets epoch now lossDelay).lossProbes = r.lossProbes := by
  apply detectLostPackets_induct (P := fun r' => r'.lossProbes = r.lossProbes)
  · intro r' hr' p _
    unfold onPacketLost modifyFecGroup
    dsimp only
    split_ifs
    all_goals exact hr'
  · intro lossTime
    rfl

/-- An ACK frame asks for no probes. -/
theorem onAckReceived_lossProbes {ranges : RangeSet}
    (h : r.onAckReceived ranges epoch now lossDelay = .ok r') : r'.lossProbes = r.lossProbes := by
  apply onAckReceived_induct (P := fun r' => r'.lossProbes = r.lossProbes) h
  · intro r₁ hr₁
    exact (detectLostPackets_lossProbes r₁ epoch now lossDelay).trans hr₁
  · intro r₁ hr₁
    exact (ackLoop_induct (P := SameTimes r₁) (fun _ h pn _ => h.acked pn) ⟨rfl, rfl⟩ false).2.trans
      hr₁
  · intro largestAckedPkt
    rfl

/-- An ACK frame that acknowledges nothing new sets no time of a loss. -/
theorem onAckReceived_lossTime {ranges : RangeSet}
    (h : r.onAckReceived ranges epoch now lossDelay = .ok r')
    (hnew : r.newlyAcks ranges epoch = false) : r'.lossTime = r.lossTime := by
  obtain ⟨largest, hlargest, -, rfl⟩ := onAckReceived_eq_ok.mp h
  rw [newlyAcks, hlargest, Option.any_some] at hnew
  rw [if_neg (by simp [hnew])]
  exact (ackLoop_induct (P := SameTimes (r.noteLargest epoch largest)) (fun _ h pn _ => h.acked pn)
    ⟨rfl, rfl⟩ false).1

end Recovery

/-! ### What TLS of a server does -/

/-- The error that a step of the handshake ends with, if any. -/
def HandshakeOutcome.error : HandshakeOutcome → Option Error
  | .failed e => some e
  | .finished (.error e) => some e
  | _ => none

/-- A server completes the handshake when it reads the end of it in a Handshake packet. A step
that has to wait is not an error. -/
structure HandshakeStep.AwaitsClient (hs : HandshakeStep) (epoch : Option Epoch) : Prop where
  incomplete : epoch ≠ some .handshake → hs.isEstablished = false
  error : hs.outcome.error ≠ some .done

instance (hs : HandshakeStep) (epoch : Option Epoch) : Decidable (hs.AwaitsClient epoch) :=
  decidable_of_iff ((epoch ≠ some .handshake → hs.isEstablished = false) ∧
    hs.outcome.error ≠ some .done)
    ⟨fun ⟨incomplete, error⟩ => ⟨incomplete, error⟩, fun h => ⟨h.incomplete, h.error⟩⟩

namespace Connection

/-- TLS of a server awaits the client whose address is not verified. -/
def ServerTls (c : Connection) (epoch : Option Epoch) (hs : HandshakeStep) : Prop :=
  c.isServer = true → c.verifiedPeerAddress = false → hs.AwaitsClient epoch

/-- Neither the handshake goes on, nor does loss recovery come to wait for anything else. -/
structure SameWait (c c' : Connection) : Prop where
  isServer : c'.isServer = c.isServer
  isEstablished : c'.isEstablished = c.isEstablished
  verifiedPeerAddress : c'.verifiedPeerAddress = c.verifiedPeerAddress
  error : c'.error = c.error
  appError : c'.appError = c.appError
  draining : c.draining = true → c'.draining = true
  sent : c'.recovery.sent = c.recovery.sent
  lossTime : c'.recovery.lossTime = c.recovery.lossTime
  lossProbes : ∀ e, c'.recovery.lossProbes e ≤ c.recovery.lossProbes e
  lossDetectionTimer : c'.lossDetectionTimer = c.lossDetectionTimer

theorem SameWait.refl (c : Connection) : c.SameWait c :=
  ⟨rfl, rfl, rfl, rfl, rfl, id, rfl, rfl, fun _ => le_rfl, rfl⟩

section SameWait

variable {c c' : Connection} {epoch : Epoch}

/-- Where keys and loss recovery stay, so does the wait. -/
theorem sameWait_of_sameTransport (h : c.SameTransport c') : c.SameWait c' := by
  cases h with
  | intro streams rxData maxRxDataNext maxTxData challenge draining limit drains =>
    exact { SameWait.refl c with draining := drains }

theorem SameSpaces.sameWait (h : c.SameSpaces epoch c') : c.SameWait c' where
  isServer := h.isServer
  isEstablished := h.isEstablished
  verifiedPeerAddress := h.verifiedPeerAddress
  error := h.error
  appError := h.appError
  draining := h.draining
  sent := by rw [h.recovery]
  lossTime := by rw [h.recovery]
  lossProbes := h.lossProbes
  lossDetectionTimer := h.lossDetectionTimer

private theorem readCrypto_sameWait (epoch : Epoch) (fuel : ℕ) :
    Program.Maintains c.SameWait (fun _ => c.SameWait) (readCrypto epoch fuel) := by
  induction fuel with
  | zero => exact Program.maintains_pure ()
  | succ fuel ih =>
    refine Program.maintains_get_bind fun c₁ h => ?_
    dsimp only
    split
    · exact h
    · rw [Program.ends_bind, Program.ends_set]
      exact ih _ { h with }

theorem acceptHeader_sameWait (pkt : RxPacket) :
    Program.Maintains c.SameWait (fun _ => c.SameWait) (acceptHeader pkt) := by
  refine Program.maintains_get_bind fun c₁ h => Program.ends_ite.mpr ⟨fun _ => h, fun _ => ?_⟩
  refine Program.Maintains.bind (.when fun _ => Program.maintains_modify fun c h => { h with })
    (fun _ => Program.maintains_get_bind fun c h => ?_) c₁ h
  refine Program.ends_ite.mpr ⟨fun _ => h, fun _ => Program.ends_ite.mpr ⟨fun _ => h, fun _ => ?_⟩⟩
  rw [Program.ends_bind, Program.ends_modify, Program.ends_modify]
  exact { h with }

theorem drainAcked_sameWait (epoch : Epoch) (c : Connection) :
    (drainAcked epoch).Ends c (fun _ => c.SameWait) fun _ _ => False := by
  have hparts : AckedParts c.SameWait epoch :=
    { pop := fun _ _ h => { h with }
      ack := fun _ _ h => { h with }
      crypto := fun _ _ h => { h with }
      stream := fun _ _ _ _ _ _ _ h => { h with } }
  rw [drainAcked, Program.ends_bind, Program.ends_get]
  exact Program.Maintains.forM (fun _ => Program.maintains_modify fun _ h => hparts.takeAcked h) _ c
    (.refl c)

theorem drainLost_sameWait (epoch : Epoch) (c : Connection) :
    (drainLost epoch).Keeps SameWait c := by
  have hparts : LostParts c.SameWait (fun _ => c.SameWait) epoch :=
    { pop := fun _ _ h => { h with }
      crypto := fun _ _ _ _ h => { h with }
      blockInfo := fun _ _ _ _ h => { h with }
      stream := fun _ _ _ _ _ _ _ _ h => { h with }
      ack := fun _ h => { h with }
      handshakeDone := fun _ h => { h with }
      refused := fun _ _ _ h => { h with } }
  have hdrain := maintains_drainLost hparts.takeLost (fun _ _ h => { h with }) c (.refl c)
  exact hdrain.mono (fun _ _ h => h) fun _ _ h _ => h

end SameWait

/-- The timer is set for the time of a loss. -/
def WaitsForLoss (c : Connection) : Prop :=
  c.lossDetectionTimer.isSome = true →
    (Recovery.earliestLossTime c.recovery.lossTime false).1.isSome = true

/-- The handshake of a server is not complete: nothing was sent in the application epoch, and no
probe is due. -/
structure Handshaking (c : Connection) : Prop where
  isServer : c.isServer = true
  unverified : c.verifiedPeerAddress = false
  isEstablished : c.isEstablished = false
  sent : c.recovery.sent .application = []
  lossProbes : ∀ e, c.recovery.lossProbes e = 0
  timer : c.WaitsForLoss

section Handshaking

variable {c c' : Connection} {epoch : Epoch}

/-- A new server waits for its client. -/
theorem Handshaking.new (config : Config) (now : ℕ) :
    (Connection.new config true false now).Handshaking :=
  ⟨rfl, rfl, rfl, rfl, fun _ => rfl, nofun⟩

theorem Handshaking.of_sameWait (h : c.Handshaking) (hsame : c.SameWait c') : c'.Handshaking where
  isServer := hsame.isServer.trans h.isServer
  unverified := hsame.verifiedPeerAddress.trans h.unverified
  isEstablished := hsame.isEstablished.trans h.isEstablished
  sent := (congrFun hsame.sent _).trans h.sent
  lossProbes e := Nat.le_zero.mp ((hsame.lossProbes e).trans (h.lossProbes e).le)
  timer := by
    unfold WaitsForLoss
    rw [hsame.lossDetectionTimer, hsame.lossTime]
    exact h.timer

/-- As nothing is counted as in flight, the timer is only set for a loss. -/
theorem Handshaking.setLossDetectionTimer (h : c.Handshaking) {r : Recovery}
    (hsent : r.sent .application = []) (hprobes : r.lossProbes = c.recovery.lossProbes)
    {changed : Bool} (htime : changed = false → r.lossTime = c.recovery.lossTime) (env : Env) :
    ((c.setRecovery r).setLossDetectionTimer changed env).Handshaking := by
  refine ⟨h.isServer, h.unverified, h.isEstablished, hsent, fun e => ?_, ?_⟩
  · exact (congrFun hprobes e).trans (h.lossProbes e)
  cases changed with
  | false =>
    intro hset
    change (Recovery.earliestLossTime r.lossTime false).1.isSome = true
    rw [htime rfl]
    exact h.timer hset
  | true =>
    have hflight : (c.setRecovery r).lossDetection.cc.bytesInFlight = 0 :=
      congrArg LossDetection.unackedBytes hsent
    have htimer := LossDetection.setLossDetectionTimer_of_idle hflight c.isEstablished env.timeout
    rw [h.isEstablished] at htimer
    intro hset
    change
      (LossDetection.setLossDetectionTimer _ c.isEstablished env.timeout).lossDetectionTimer.isSome
      = true at hset
    rw [h.isEstablished, htimer] at hset
    exact hset

/-- An ACK frame does not end the wait. -/
theorem Handshaking.ack (h : c.Handshaking) {ranges : RangeSet} {now lossDelay : ℕ} {r : Recovery}
    (hack : c.recovery.onAckReceived ranges epoch now lossDelay = .ok r) (env : Env) :
    ((c.setRecovery r).setLossDetectionTimer (c.recovery.newlyAcks ranges epoch) env).Handshaking :=
  h.setLossDetectionTimer ((Recovery.onAckReceived_forgets hack).sent_eq_nil h.sent)
    (Recovery.onAckReceived_lossProbes hack) (Recovery.onAckReceived_lossTime hack) env

/-- The timer of a handshake fires only to detect losses. -/
theorem Handshaking.onTimeout (h : c.Handshaking) (env : Env) : (c.onTimeout env).Handshaking := by
  unfold Connection.onTimeout
  split_ifs with hdraining hexpired
  · exact h
  · have hset : c.lossDetectionTimer.isSome = true := by
      obtain ⟨t, ht, -⟩ := (Option.any_eq_true _ _).mp hexpired
      rw [ht]
      rfl
    have hloss := h.timer hset
    refine h.setLossDetectionTimer ?_ ?_ (fun hnot => Bool.noConfusion hnot) env
    · exact (Recovery.onLossDetectionTimeout_forgets _ _ _ _).sent_eq_nil h.sent
    · rw [h.isEstablished, Recovery.onLossDetectionTimeout]
      dsimp only
      rw [if_pos hloss]
      exact Recovery.detectLostPackets_lossProbes _ _ _ _
  · exact h

end Handshaking

/-! ### Packets of the handshake -/

section Frames

variable {epoch : Epoch} {env : Env}

/-- TLS does not complete the handshake. -/
theorem doHandshake_handshaking {hs : HandshakeStep} (htls : hs.isEstablished = false) :
    Program.Maintains Handshaking (fun _ => Handshaking) (doHandshake hs) :=
  HandshakeParts.maintains
    { write := fun _ _ _ _ _ _ h => { h with }
      full := fun _ h => h
      keys := fun _ h => { h with isEstablished := htls }
      failed := fun _ _ _ h => h
      noProtocol := fun _ h => { h with }
      refused := fun _ _ _ h => h
      params := fun _ _ _ h => { h with } }

private theorem processFrame_handshaking {frame : Frame}
    (htls : ∀ data, frame = .crypto data → env.handshake.isEstablished = false) :
    Program.Maintains Handshaking (fun _ => Handshaking) (processFrame frame epoch env) := by
  cases frame with
  | ack packetTime ackDelay ranges =>
    refine Program.maintains_get_bind fun c h => Program.ends_ite.mpr ⟨fun _ => h, fun _ => ?_⟩
    split
    · exact h
    · rename_i recovery hack
      refine Program.ends_ite.mpr ⟨fun hlate => ?_, fun _ => h.ack hack env⟩
      exact absurd (h.isEstablished.symm.trans hlate.2) Bool.false_ne_true
  | crypto data =>
    refine Program.maintains_get_bind fun c h => ?_
    dsimp only
    split
    · exact h
    · rename_i recv _
      rw [Program.ends_bind, Program.ends_set, Program.ends_bind]
      have hstored : c.SameWait (c.modifySpace epoch fun p =>
        { p with cryptoStream := { (c.pktNumSpaces epoch).cryptoStream with recv := recv } }) :=
        { SameWait.refl c with }
      refine (readCrypto_sameWait epoch _ _ hstored).mono (fun _ c₁ h₁ => ?_) fun _ _ h₁ =>
        h.of_sameWait h₁
      exact doHandshake_handshaking (htls data rfl) c₁ (h.of_sameWait h₁)
  | handshakeDone =>
    refine Program.maintains_get_bind fun c h => Program.ends_ite.mpr ⟨fun _ => h, fun _ => ?_⟩
    exact Program.ends_ite.mpr ⟨fun _ => h, fun hclient => absurd h.isServer hclient⟩
  | _ =>
    exact (processFrame_streaming rfl epoch env).maintains fun c c' h hsame =>
      h.of_sameWait (sameWait_of_sameTransport hsame)

/-- An unverified server, which may have completed its handshake. -/
structure Unsettled (c : Connection) : Prop where
  isServer : c.isServer = true
  unverified : c.verifiedPeerAddress = false
  appError : c.appError = none

/-- A program that leaves the server unsettled, and does not fail with `Done`. -/
abbrev Unsettling {α : Type} (x : Program Error Connection α) : Prop :=
  Program.Maintains Unsettled (fun e c => e ≠ .error .done ∧ c.Unsettled) x

private theorem readCrypto_unsettling (epoch : Epoch) (fuel : ℕ) :
    Unsettling (readCrypto epoch fuel) := by
  induction fuel with
  | zero => exact Program.maintains_pure ()
  | succ fuel ih =>
    refine Program.maintains_get_bind fun c₁ h => ?_
    dsimp only
    split
    · exact h
    · rw [Program.ends_bind, Program.ends_set]
      exact ih _ { h with }

private theorem doHandshake_unsettling {hs : HandshakeStep} (htls : hs.outcome.error ≠ some .done) :
    Unsettling (doHandshake hs) :=
  HandshakeParts.maintains
    { write := fun _ _ _ _ _ _ h => { h with }
      full := fun _ h => ⟨nofun, h⟩
      keys := fun _ h => { h with }
      failed := fun e _ houtcome h => by
        rw [houtcome] at htls
        exact ⟨fun heq => htls (congrArg some (Lib.Fault.error.inj heq)), h⟩
      noProtocol := fun _ h => ⟨nofun, { h with }⟩
      refused := fun e _ houtcome h => by
        rw [houtcome] at htls
        exact ⟨fun heq => htls (congrArg some (Lib.Fault.error.inj heq)), h⟩
      params := fun _ _ _ h => { h with } }

/-- The frames of a Handshake packet. -/
theorem processFrame_unsettling {frame : Frame} (hallowed : frame.allowed .handshake = true)
    (htls : ∀ data, frame = .crypto data → env.handshake.outcome.error ≠ some .done) :
    Unsettling (processFrame frame epoch env) := by
  cases frame with
  | padding | ping => exact Program.maintains_pure ()
  | connectionClose => exact Program.maintains_modify fun c h => { h with }
  | ack packetTime ackDelay ranges =>
    refine Program.maintains_get_bind fun c h => Program.ends_ite.mpr ⟨fun _ => ⟨nofun, h⟩,
      fun _ => ?_⟩
    split
    · rename_i e hack
      refine ⟨?_, h⟩
      unfold Recovery.onAckReceived at hack
      split at hack
      · cases hack
        exact nofun
      · dsimp only at hack
        split_ifs at hack
        cases hack
        exact nofun
    · refine Program.ends_ite.mpr ⟨fun _ => ?_, fun _ => { h with }⟩
      rw [Program.ends_set]
      unfold dropEpochState
      split_ifs
      · exact { h with }
      · exact { h with }
  | crypto data =>
    refine Program.maintains_get_bind fun c h => ?_
    dsimp only
    split
    · rename_i e hpush
      exact ⟨RecvBuf.pushWith_ne_done hpush, h⟩
    · rename_i recv _
      rw [Program.ends_bind, Program.ends_set, Program.ends_bind]
      have hstored : (c.modifySpace epoch fun p => { p with cryptoStream :=
        { (c.pktNumSpaces epoch).cryptoStream with recv := recv } }).Unsettled := { h with }
      refine (readCrypto_unsettling epoch _ _ hstored).mono (fun _ c₁ h₁ => ?_) fun _ _ h => h
      exact doHandshake_unsettling (htls data rfl) c₁ h₁
  | _ => cases hallowed

end Frames

section Packets

variable {c c' : Connection} {epoch : Epoch} {pkt : RxPacket}

/-- The server has failed, and closes the connection. -/
structure Failed (c : Connection) : Prop where
  error : c.error.isSome = true
  appError : c.appError = none

/-- A server whose client is not verified waits for it, unless it closes the connection. -/
def Curbed (c : Connection) : Prop :=
  c.isServer = true → c.verifiedPeerAddress = false →
    c.draining = true ∨ c.Handshaking ∨ c.Failed

theorem Curbed.of_sameWait (h : c.Curbed) (hsame : c.SameWait c') : c'.Curbed := by
  intro hserver hverified
  rcases h (hsame.isServer.symm.trans hserver) (hsame.verifiedPeerAddress.symm.trans hverified) with
    hdraining | hwaits | hfailed
  · exact .inl (hsame.draining hdraining)
  · exact .inr (.inl (hwaits.of_sameWait hsame))
  · exact .inr (.inr ⟨hsame.error ▸ hfailed.error, hsame.appError.trans hfailed.appError⟩)

/-- What `recv` makes of an error, whichever it is. -/
def Refusable (c : Connection) (e : Error) : Prop := c.Curbed ∨ e ≠ .done ∧ c.appError = none

/-- The frames of a packet that is no Handshake packet do not complete the handshake. -/
theorem Handshaking.frames {frames : List (Frame × Env)} (h : c.Handshaking)
    (hepoch : epoch ≠ .handshake) (error : Option Error)
    (htls : AllSteps (fun c f => (processFrame f.1 epoch f.2).returned c)
      (FrameHandshakes ServerTls epoch) c frames) :
    (processFrames frames error epoch).Ends c (fun _ => Handshaking) (orError Handshaking) := by
  have hloop :
      (forM frames fun f => processFrame f.1 epoch f.2 : Program Error Connection Unit).Ends
      c (fun _ => Handshaking) (orError Handshaking) := by
    refine Program.Ends.forM_of_allSteps (fun f _ c hc hstep => ?_) h htls
    refine (processFrame_handshaking (fun data hdata => ?_) c hc).mono (fun _ _ h => h)
      fun _ _ h _ => h
    refine (hstep data hdata hc.isServer hc.unverified).incomplete ?_
    exact fun heq => hepoch (Option.some.inj heq)
  refine hloop.bind fun _ c₁ hc₁ => ?_
  cases error with
  | none => exact hc₁
  | some e => exact fun _ => hc₁

/-- The frames of a Handshake packet may complete the handshake, and fail with any error but
`Done`. -/
theorem Unsettled.frames {frames : List (Frame × Env)} (h : c.Unsettled) {error : Option Error}
    (hallowed : ∀ f ∈ frames, f.1.allowed .handshake = true) (herror : error ≠ some .done)
    (htls : AllSteps (fun c f => (processFrame f.1 epoch f.2).returned c)
      (FrameHandshakes ServerTls epoch) c frames) :
    (processFrames frames error epoch).Ends c (fun _ => Unsettled)
      fun e c => e ≠ .error .done ∧ c.Unsettled := by
  have hloop :
      (forM frames fun f => processFrame f.1 epoch f.2 : Program Error Connection Unit).Ends
      c (fun _ => Unsettled) fun e c => e ≠ .error .done ∧ c.Unsettled := by
    refine Program.Ends.forM_of_allSteps (fun f hf c hc hstep => ?_) h htls
    refine processFrame_unsettling (hallowed f hf) (fun data hdata => ?_) c hc
    exact (hstep data hdata hc.isServer hc.unverified).error
  refine hloop.bind fun _ c₁ hc₁ => ?_
  cases error with
  | none => exact hc₁
  | some e => exact ⟨fun heq => herror (congrArg some (Lib.Fault.error.inj heq)), hc₁⟩

/-- An Initial packet does not end the wait. -/
theorem Handshaking.received (h : c.Handshaking) (hty : pkt.ty ≠ .handshake) (epoch : Epoch) :
    (received pkt epoch c).Handshaking := by
  unfold Connection.received
  have hno : ¬ ((c.isServer && pkt.ty == .handshake) = true) := by simp [hty]
  dsimp only
  split_ifs with hverifies
  · exact absurd hverifies hno
  · exact { h with }

/-- A packet that is no Handshake packet, as it is read. -/
theorem Handshaking.payload (h : c.Handshaking) (hepoch : pkt.ty.toEpoch = some epoch)
    (hty : pkt.ty ≠ .handshake)
    (htls : AllSteps (fun c f => (processFrame f.1 epoch f.2).returned c)
      (FrameHandshakes ServerTls epoch) c pkt.frames) :
    (do
      processFrames pkt.frames pkt.framesError epoch
      drainAcked epoch
      modify (Connection.received pkt epoch) : Program Error Connection Unit).Ends c
      (fun _ => Handshaking) (orError Handshaking) := by
  have hne : epoch ≠ .handshake := by
    rintro rfl
    cases hpkt : pkt.ty <;> rw [hpkt] at hepoch hty <;> first | exact absurd rfl hty | cases hepoch
  refine (h.frames hne pkt.framesError htls).bind fun _ c₁ h₁ => ?_
  rw [Program.ends_bind]
  refine (drainAcked_sameWait epoch c₁).mono (fun _ c₂ h₂ => ?_) fun _ _ h₂ => h₂.elim
  exact (h₁.of_sameWait h₂).received hty epoch

/-- A Handshake packet, as it is read. -/
theorem Unsettled.payload (h : c.Unsettled) (hty : pkt.ty = .handshake) (hparsed : pkt.Parsed)
    (htls : AllSteps (fun c f => (processFrame f.1 epoch f.2).returned c)
      (FrameHandshakes ServerTls epoch) c pkt.frames) :
    (do
      processFrames pkt.frames pkt.framesError epoch
      drainAcked epoch
      modify (Connection.received pkt epoch) : Program Error Connection Unit).Ends c
      (fun _ c' => c'.verifiedPeerAddress = true) fun e c' => ∀ err, e = .error err →
        err ≠ .done ∧ c'.appError = none := by
  rw [Program.ends_bind]
  refine (h.frames (hty ▸ hparsed.frames) hparsed.error.1 htls).mono (fun _ c₁ h₁ => ?_) ?_
  · rw [Program.ends_bind]
    refine (drainAcked_sameWait epoch c₁).mono (fun _ c₂ h₂ => ?_) fun _ _ h₂ => h₂.elim
    have hverifies : (c₂.isServer && pkt.ty == .handshake) = true := by
      rw [h₂.isServer, h₁.isServer, hty]
      rfl
    rw [Program.ends_modify, Connection.received]
    exact if_pos hverifies ▸ rfl
  · rintro e c₁ ⟨hne, h₁⟩ err rfl
    exact ⟨fun hdone => hne (congrArg _ hdone), h₁.appError⟩

/-- What a packet does to a server that waits for its client. -/
theorem Handshaking.single (h : c.Handshaking) (hclosing : c.isClosing = false)
    (hparsed : pkt.Parsed) (htls : pkt.Handshakes ServerTls c) :
    (recvSingle pkt).Ends c (fun _ => Curbed) fun e c' => ∀ err, e = .error err →
      c'.Refusable err := by
  have hcurbed {c : Connection} (h : c.Handshaking) : c.Curbed := fun _ _ => .inr (.inl h)
  rw [recvSingle, Program.ends_bind, Program.ends_get]
  refine Program.ends_ite.mpr ⟨fun _ _ _ => .inl (hcurbed h), fun _ => ?_⟩
  cases hty : pkt.ty.toEpoch with
  | none => exact fun _ _ => .inl (hcurbed h)
  | some epoch =>
    refine Program.ends_ite.mpr ⟨fun _ => hcurbed h, fun hearly => ?_⟩
    have hlong : pkt.ty ≠ .short := fun hshort => hearly ⟨hshort, by simp [h.isEstablished]⟩
    rw [Program.ends_bind]
    refine Program.ends_iff.mpr ⟨fun _ c₁ haccept => ?_, fun e c₁ herror _ _ => ?_⟩
    · have hsame := (acceptHeader_sameWait pkt c (.refl c)).ok haccept
      have hc₁ := h.of_sameWait hsame
      have htls := htls epoch c₁ hlong hty haccept
      rw [Program.ends_bind, Program.ends_get]
      refine Program.ends_ite.mpr ⟨fun _ => hcurbed hc₁, fun _ => ?_⟩
      refine Program.ends_ite.mpr ⟨fun _ _ _ => .inl (hcurbed hc₁), fun _ => ?_⟩
      -- a packet with a long header restores no packets
      rw [(hparsed.restored hlong).1, (hparsed.restored hlong).2]
      change (do
        processFrames pkt.frames pkt.framesError epoch
        drainAcked epoch
        modify (Connection.received pkt epoch) : Program Error Connection Unit).Ends _ _ _
      by_cases hhandshake : pkt.ty = .handshake
      · have happError : c.appError = none := by
          rw [isClosing, Bool.or_eq_false_iff] at hclosing
          simpa using hclosing.2
        have hunsettled : c₁.Unsettled :=
          ⟨hc₁.isServer, hc₁.unverified, hsame.appError.trans happError⟩
        refine (hunsettled.payload hhandshake hparsed htls).mono (fun _ c₂ h₂ => ?_)
          fun e c₂ h₂ err herr => .inr (h₂ err herr)
        exact fun _ hverified => absurd (hverified.symm.trans h₂) Bool.false_ne_true
      · refine (hc₁.payload hty hhandshake htls).mono (fun _ _ h₂ => hcurbed h₂)
          fun e c₂ h₂ err herr => .inl (hcurbed (h₂ ⟨err, herr⟩))
    · have hsame := (acceptHeader_sameWait pkt c (.refl c)).error herror
      exact .inl (hcurbed (h.of_sameWait hsame))

/-- Clients, and servers whose client is verified, are not curbed. -/
theorem Curbed.of_debits (hfree : ¬ (c.isServer = true ∧ c.verifiedPeerAddress = false))
    (h : c.Debits c') : c'.Curbed := fun hserver hverified =>
  absurd ⟨h.isServer.symm.trans hserver, h.verified hverified⟩ hfree

/-- A packet is processed. -/
theorem Curbed.single (h : c.Curbed) (hparsed : pkt.Parsed) (htls : pkt.Handshakes ServerTls c) :
    (recvSingle pkt).Ends c (fun _ => Curbed) fun e c' => ∀ err, e = .error err →
      c'.Refusable err := by
  by_cases hcurbed : c.isServer = true ∧ c.verifiedPeerAddress = false
  · by_cases hdone : (c.draining || c.isClosing) = true
    · rw [recvSingle, Program.ends_bind, Program.ends_get]
      exact Program.ends_ite.mpr ⟨fun _ _ _ => .inl h, absurd hdone⟩
    · rw [Bool.or_eq_true, not_or, Bool.not_eq_true, Bool.not_eq_true] at hdone
      rcases h hcurbed.1 hcurbed.2 with hdraining | hwaits | hfailed
      · exact absurd (hdone.1.symm.trans hdraining) Bool.false_ne_true
      · exact hwaits.single hdone.2 hparsed htls
      · have hclosing := hdone.2
        rw [isClosing, hfailed.error] at hclosing
        cases hclosing
  · have hdebits := recvParts_debits.single pkt c
    refine Program.Ends.mono hdebits (fun _ c' hc' => .of_debits hcurbed hc')
      fun e c' hc' err he => ?_
    exact .inl (.of_debits hcurbed (hc' ⟨err, he⟩))

/-- The connection is closed. -/
theorem Curbed.close (h : c.Curbed) {app : Bool} {err : ℕ} {reason : List UInt8}
    (hclose : c.close app err reason = .ok c') : c'.Curbed := by
  unfold Connection.close at hclose
  split_ifs at hclose with hdraining hclosing happ <;> cases hclose
  all_goals
    intro hserver hverified
    rcases h hserver hverified with hdrains | hwaits | hfailed
    · exact absurd hdrains hdraining
    · exact .inr (.inl { hwaits with })
    · exact absurd (.inl hfailed.error) hclosing

/-- After an error, a server closes the connection. -/
theorem Curbed.closeOnError {x : Program Error Connection Unit}
    (h : x.Ends c (fun _ => Curbed) fun e c' => ∀ err, e = .error err → c'.Refusable err) :
    (Connection.closeOnError x).Ends c (fun _ => Curbed) (orError Curbed) := by
  unfold Program.Ends Connection.closeOnError at *
  rcases heq : x c with ⟨a, c₁⟩ | ⟨e | _ | _ | _, c₁⟩
  · rwa [heq] at h
  · rw [heq] at h
    have hrefused : c₁.Refusable e := h e rfl
    dsimp only
    split_ifs with hdone
    · exact fun _ => hrefused.resolve_right fun hnot => hnot.1 hdone
    · intro _
      rcases hrefused with hcurbed | ⟨-, happ⟩
      · split
        · exact hcurbed.close ‹_›
        · exact hcurbed
      · intro hserver hverified
        unfold Connection.close
        split_ifs with hdraining hclosing hfalse
        · exact .inl hdraining
        · refine .inr (.inr ⟨hclosing.resolve_right ?_, happ⟩)
          rw [happ]
          exact Bool.false_ne_true
        · exact hfalse.elim
        · exact .inr (.inr ⟨rfl, happ⟩)
  all_goals
    rintro ⟨_, h⟩
    cases h

/-- What a datagram does. -/
theorem Curbed.packets (h : c.Curbed) {d : Datagram} (hparsed : ∀ pkt ∈ d.packets, pkt.Parsed)
    (htls : d.Handshakes ServerTls c) :
    (do
      forM d.packets recvSingle
      match d.error with
      | none => pure ()
      | some e => Program.fail e : Program Error Connection Unit).Ends c (fun _ => Curbed)
        fun e c' => ∀ err, e = .error err → c'.Refusable err := by
  rw [Program.ends_bind]
  refine (Program.Ends.forM_of_allSteps (fun pkt hpkt c hc hstep => ?_) h htls).mono
    (fun _ c₁ hc₁ => ?_) fun _ _ he => he
  · exact hc.single (hparsed pkt hpkt) hstep
  · cases d.error with
    | none => exact hc₁
    | some e => exact fun _ _ => .inl hc₁

/-- A datagram is processed. -/
theorem Curbed.recv (h : c.Curbed) {d : Datagram} (hparsed : ∀ pkt ∈ d.packets, pkt.Parsed)
    (htls : d.Handshakes ServerTls c) : (recv d).Ends c (fun _ => Curbed) (orError Curbed) := by
  rw [Connection.recv, Program.ends_bind]
  refine (Curbed.closeOnError (h.packets hparsed htls)).mono (fun _ c₁ hc₁ => ?_) fun _ _ he => he
  rw [Program.ends_modify]
  split_ifs
  · exact hc₁
  · exact hc₁.of_sameWait { SameWait.refl c₁ with }

end Packets

/-! ### Packets that are sent -/

section Sends

variable {outLen written : ℕ} {env : SendEnv} {c c' c₀ c₁ : Connection} {epoch : Epoch}

/-- Before a packet is sent, the handshake goes on. -/
theorem Curbed.handshake (h : c.Curbed) (hopen : c.draining = false)
    (htls : c.isClosing = false → ServerTls c none env.handshake) :
    (Program.when (!c.isClosing) (doHandshake env.handshake)).Ends c (fun _ => Curbed)
      fun _ => Curbed := by
  refine .when (fun hlive => ?_) fun _ => h
  rw [Bool.not_eq_true'] at hlive
  by_cases hcurbed : c.isServer = true ∧ c.verifiedPeerAddress = false
  · rcases h hcurbed.1 hcurbed.2 with hdraining | hwaits | hfailed
    · exact absurd (hopen.symm.trans hdraining) Bool.false_ne_true
    · have hincomplete := (htls hlive hcurbed.1 hcurbed.2).incomplete nofun
      exact (doHandshake_handshaking hincomplete c hwaits).mono (fun _ _ h _ _ => .inr (.inl h))
        fun _ _ h _ _ => .inr (.inl h)
    · rw [isClosing, hfailed.error] at hlive
      cases hlive
  · exact (doHandshake_resting env.handshake c c (.refl c)).mono
      (fun _ _ h => .of_debits hcurbed h.debits) fun _ _ h => .of_debits hcurbed h.debits

/-- Only a client drops its Initial state when it sends. -/
theorem settled_of_isServer {q : Packing} (h : q.conn.isServer = true) (epoch : Epoch)
    (written : ℕ) (env : SendEnv) :
    q.settled epoch written env = q.counted epoch written env := by
  have hcounted : (q.counted epoch written env).isServer = true := h
  exact if_neg (by simp [hcounted])

/-- A packet of a server that waits for its client is not counted as in flight. -/
theorem Handshaking.recorded {q : Packing} (h : q.conn.Handshaking) (hepoch : epoch ≠ .application)
    (written : ℕ) (env : SendEnv) : (q.recorded epoch written env).Handshaking := by
  let space := q.conn.modifySpace epoch fun s => { s with nextPktNum := s.nextPktNum + 1 }
  have hspace : space.Handshaking := { h with }
  have hsent (r : Recovery) (pkt : Sent) (now : ℕ) :
      (r.onPacketSent pkt epoch now).sent .application = r.sent .application := by
    refine (Epoch.update_of_ne hepoch.symm).trans ?_
    unfold Recovery.modifyFecGroup
    split_ifs <;> rfl
  have htimes (r : Recovery) (pkt : Sent) (now : ℕ) : r.SameTimes (r.onPacketSent pkt epoch now) :=
    Recovery.SameTimes.modifyFecGroup (r := r) ⟨rfl, rfl⟩ _ _
  have hcounted : (q.counted epoch written env).Handshaking := by
    let pkt := q.toSent epoch written env.instant
    have hempty : (q.conn.recovery.onPacketSent pkt epoch env.instant).sent .application = [] :=
      (hsent q.conn.recovery pkt env.instant).trans h.sent
    have htime : q.draft.inFlight = false →
        (q.conn.recovery.onPacketSent pkt epoch env.instant).lossTime = q.conn.recovery.lossTime :=
      fun _ => (htimes _ _ _).1
    have htimer := hspace.setLossDetectionTimer hempty (htimes _ _ _).2 htime env.toEnv
    exact { htimer with }
  unfold Packing.recorded
  rw [settled_of_isServer h.isServer]
  exact { hcounted with }

/-- A packet is recorded as sent. -/
theorem Curbed.recorded {q : Packing} (h : q.conn.Curbed)
    (hepoch : epoch = .application → q.conn.isEstablished = true) (written : ℕ) (env : SendEnv) :
    (q.recorded epoch written env).Curbed := by
  intro hserver hverified
  have hsteady := (recorded_rests epoch written env q).toSteady
  have hserver₀ : q.conn.isServer = true := hsteady.isServer.symm.trans hserver
  have hverified₀ : q.conn.verifiedPeerAddress = false :=
    hsteady.verifiedPeerAddress.symm.trans hverified
  rcases h hserver₀ hverified₀ with hdraining | hwaits | hfailed
  · refine .inl ?_
    unfold Packing.recorded
    rw [settled_of_isServer hserver₀]
    exact hdraining
  · refine .inr (.inl (hwaits.recorded (fun happ => ?_) written env))
    exact absurd (hwaits.isEstablished.symm.trans (hepoch happ)) Bool.false_ne_true
  · refine .inr (.inr ?_)
    unfold Packing.recorded
    rw [settled_of_isServer hserver₀]
    exact { hfailed with }

/-- What `send` does. -/
theorem Curbed.send (h : c.Curbed)
    (htls : c.isClosing = false → ServerTls c none env.handshake) :
    (send outLen env).Ends c (fun _ => Curbed) (orError Curbed) := by
  by_cases hdraining : c.draining = true
  · rw [Connection.send, Program.ends_bind, Program.ends_get]
    exact Program.ends_ite.mpr ⟨fun _ _ => h, fun _ =>
      Program.ends_ite.mpr ⟨fun _ _ => h, absurd hdraining⟩⟩
  have hhandshake := h.handshake (by simpa using hdraining) htls
  have hlost {c₀ : Connection} {epoch : Epoch} (h₀ : c₀.Curbed) :
      (drainLost epoch).Ends c₀ (fun _ => Curbed) (orError Curbed) :=
    Program.Ends.mono (drainLost_sameWait epoch c₀) (fun _ _ hsame => h₀.of_sameWait hsame)
      fun _ _ hsame he => h₀.of_sameWait (hsame he)
  -- `send` stops before it fills a packet, or it fills one
  rcases send_cases outLen env c with ⟨e, c', heq, hstops⟩ | ⟨c₀, epoch, pnLen, c₁, hprep, heq⟩
  · rw [Program.Ends, heq]
    rintro ⟨err, rfl⟩
    cases hstops with
    | refused => exact h
    | handshake handshake => exact hhandshake.error handshake
    | idle _ handshake => exact hhandshake.ok handshake
    | drain handshake chosen drain => exact (hlost (hhandshake.ok handshake)).error drain ⟨err, rfl⟩
    | noRoom _ handshake chosen drain => exact (hlost (hhandshake.ok handshake)).ok drain
  · have h₀ : c₀.Curbed := hhandshake.ok hprep.handshake
    have hsame : c₀.SameWait c₁ := (drainLost_sameWait epoch c₀).ok hprep.drain
    have hest : epoch = .application → c₁.isEstablished = true := by
      rintro rfl
      exact hsame.isEstablished.trans (writeEpoch_isEstablished hprep.chosen)
    have hpacket : (sendPacket outLen env c₀ epoch pnLen).Ends c₁ (fun _ => Curbed)
        (orError Curbed) := by
      have hput {c' : Connection} (hc' : PutTogether epoch c₁ c') : c'.Curbed := by
        have h₁ := h₀.of_sameWait hsame
        cases hc' with
        | unsent within => exact h₁.of_sameWait within.conn.sameWait
        | sent within _ =>
          refine (h₁.of_sameWait within.conn.sameWait).recorded (fun happ => ?_) _ _
          exact within.conn.isEstablished.trans (hest happ)
      rw [sendPacket, Program.ends_bind, Program.ends_get]
      exact Program.Ends.mono (packet_putTogether _ _ _ _ _ _ _) (fun _ _ hc' => hput hc')
        fun _ _ hc' he => hput (hc' he)
    exact Program.ends_iff.mpr ⟨fun _ _ hok => hpacket.ok (heq.symm.trans hok),
      fun _ _ herror => hpacket.error (heq.symm.trans herror)⟩

/-- Before a server that waits for its client fills a packet, it has chosen the Initial or the
Handshake epoch. -/
theorem Curbed.prepares {pnLen : ℕ} (h : c.Curbed)
    (htls : c.isClosing = false → ServerTls c none env.handshake) (hserver : c.isServer = true)
    (hverified : c.verifiedPeerAddress = false) (hprep : c.Prepares outLen env c₀ epoch pnLen c₁) :
    c₁.Handshaking ∧ epoch ≠ .application ∨ c₁.Failed := by
  have h₀ : c₀.Curbed := (h.handshake hprep.open_ htls).ok hprep.handshake
  have hsame : c₀.SameWait c₁ := (drainLost_sameWait epoch c₀).ok hprep.drain
  have htask := hprep.sameTask
  rcases h₀.of_sameWait hsame (htask.isServer.trans hserver)
      (htask.verifiedPeerAddress.trans hverified) with hdraining | hwaits | hfailed
  · have hopen := htask.draining.trans hprep.open_
    exact absurd (hopen.symm.trans hdraining) Bool.false_ne_true
  · refine .inl ⟨hwaits, ?_⟩
    rintro rfl
    have hest := hsame.isEstablished.trans (writeEpoch_isEstablished hprep.chosen)
    exact absurd (hwaits.isEstablished.symm.trans hest) Bool.false_ne_true
  · exact .inr hfailed

/-- A server whose client is not verified has no FEC group and no redundant packets. -/
def Groupless (c : Connection) : Prop :=
  c.isServer = true → c.verifiedPeerAddress = false → c.fec = none ∧ c.fecEncoded = []

private theorem Curbed.not_joins {p : Packing} (h : c.Curbed)
    (htls : c.isClosing = false → ServerTls c none env.handshake) (hserver : c.isServer = true)
    (hverified : c.verifiedPeerAddress = false) (hfec : c.fec = none) :
    ¬ c.Joins outLen env epoch p := by
  rintro ⟨prepares, -, load, -, joins⟩
  rename_i c₀ c₁ pnLen
  have hdrawn := Packing.load_draws.ok load
  have hnone : p.conn.fec = none :=
    hdrawn.unqueues.fec.trans (prepares.sameGroups.fec.trans hfec)
  obtain ⟨hm, hn⟩ : p.draft.m ≠ 0 ∧ p.draft.n ≠ 0 := joins.resolve_right (by simp [hnone])
  obtain ⟨block, tail, hstarts, -⟩ := (hdrawn.chosen.resolve_left hm).resolve_left hn
  rcases h.prepares htls hserver hverified prepares with ⟨-, hepoch⟩ | hfailed
  · exact hepoch (hdrawn.plain hm).2
  · have hopen := hstarts.isClosing
    rw [isClosing, hfailed.error] at hopen
    cases hopen

end Sends

/-! ### Calls -/

section Call

variable {c c' : Connection}

/-- A timeout finds no timer, while the server waits. -/
theorem Curbed.onTimeout (h : c.Curbed) (env : Env) : (c.onTimeout env).Curbed := by
  intro hserver hverified
  have hsteady := (onTimeout_rests c env).toSteady
  rcases h (hsteady.isServer.symm.trans hserver)
      (hsteady.verifiedPeerAddress.symm.trans hverified) with hdraining | hwaits | hfailed
  · refine .inl ?_
    unfold Connection.onTimeout
    rwa [if_pos hdraining]
  · exact .inr (.inl (hwaits.onTimeout env))
  · refine .inr (.inr ?_)
    unfold Connection.onTimeout
    split_ifs
    · exact hfailed
    · exact { hfailed with }
    · exact hfailed

/-- What the calls of the application do. -/
theorem Curbed.call (h : c.Curbed) {call : Call} (hparsed : call.Parsed)
    (htls : call.Handshakes ServerTls c)
    (hstep : Call.step c call = some c') : c'.Curbed := by
  have hstreaming {α : Type} {x : Program Error Connection α} (hx : Streaming x) :
      x.Keeps (fun _ => Curbed) c := by
    have hends := hx.maintains (fun _ _ h hsame => Curbed.of_sameWait h
      (sameWait_of_sameTransport hsame)) c h
    exact hends.mono (fun _ _ h => h) fun _ _ h _ => h
  suffices hcall : call.program.Keeps (fun _ => Curbed) c from
    Program.keeps_iff_after.mp hcall c' hstep
  cases call with
  | streamSend id data fin deadline priority now =>
    exact (hstreaming (streamSendFull_streaming id data fin deadline priority now)).discard
  | streamRecv id cap => exact (hstreaming (streamRecv_streaming id cap)).discard
  | streamShutdown id direction => exact hstreaming (streamShutdown_streaming id direction)
  | recv d => exact h.recv hparsed htls
  | send outLen env => exact Program.Keeps.discard (h.send htls)
  | onTimeout env => exact Program.keeps_modify.mpr (h.onTimeout env)
  | setTail tailSize => exact Program.keeps_modify.mpr (h.of_sameWait { SameWait.refl c with })
  | close app err reason =>
    change (get >>= fun c => Program.ofExcept (c.close app err reason) >>= set).Keeps _ c
    rw [Program.keeps_get_bind]
    cases hclose : c.close app err reason with
    | ok c' => exact h.close hclose
    | error e => exact Program.keeps_fail.mpr h

/-- No call of a server that waits opens a group. -/
theorem Groupless.call (h : c.Groupless) (hcurbed : c.Curbed) {call : Call}
    (htls : call.Handshakes ServerTls c) (hstep : Call.step c call = some c') : c'.Groupless := by
  intro hserver hverified
  obtain ⟨hsame, hstays⟩ := call_verified hstep
  have hserver₀ : c.isServer = true := hsame.symm.trans hserver
  obtain ⟨hfec, hencoded⟩ := h hserver₀ (hstays hverified)
  by_cases hsend : ∃ outLen env, call = .send outLen env
  · obtain ⟨outLen, env, rfl⟩ := hsend
    rcases send_groups hstep with ⟨epoch, p, p', hjoins, -⟩ | ⟨-, hunqueues⟩
    · exact absurd hjoins (hcurbed.not_joins htls hserver₀ (hstays hverified) hfec)
    · refine ⟨hunqueues.fec.trans hfec, List.suffix_nil.mp ?_⟩
      exact hencoded ▸ hunqueues.fecEncoded
  · have hkeeps := call_keepsGroups (c := c) fun outLen env heq => hsend ⟨outLen, env, heq⟩
    have hgroups : call.program.Keeps (fun _ => c.SameGroups) c :=
      (hkeeps c (.refl c)).mono (fun _ _ h => h) fun _ _ h _ => h
    have hsame := Program.keeps_iff_after.mp hgroups c' hstep
    exact ⟨hsame.fec.trans hfec, hsame.fecEncoded.trans hencoded⟩

end Call

end Connection

end Dtp
