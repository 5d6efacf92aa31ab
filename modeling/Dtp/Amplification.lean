import Dtp.Unverified

/-!
# The credit of an unverified address

Until the address of a client is verified, a server may send three times as many bytes as it
received. What `send` writes is cut to the credit before the frames of a packet are chosen, and
the credit is lowered by what was written, with a subtraction that saturates. The padding of a
short payload is not counted. But a server whose client is not verified has no probe to send,
and its other frames are no shorter than the padding makes them: where there is no room for the
padding, there is none for a frame.

## Main definitions

* `Traffic`, `Traffic.step` — a connection with the bytes that were received and written
* `Traffic.Conforms` — datagrams are as they are parsed, and TLS awaits the client
* `Traffic.Limited` — no more than three times the received bytes were written

## Main results

* `Traffic.always_limited` — no more than that is written in any run
-/

namespace Dtp

open Lib (Program run)

namespace Packing

variable {epoch : Epoch} {headerLen pnLen avail room : ℕ} {env : SendEnv} {c : Connection}

/-- What is filled into a packet fits into its room. -/
theorem fillPacket_balance : (fillPacket epoch env).Ends ⟨c, .new room⟩
    (fun _ p => p.draft.payloadLen ≤ room) anyFault := by
  have hbalance {d : Draft} (h : d.left + d.payloadLen = room + 0) : d.payloadLen ≤ room := by omega
  rw [fillPacket, Program.ends_bind, Program.ends_get]
  dsimp only
  rcases c.fecEncoded with _ | ⟨⟨info, len⟩, rest⟩
  · refine Program.Ends.mono (writeFrames_sameFec epoch (.new room)) (fun _ _ h =>
      hbalance h.balance) ?_
    exact fun _ _ _ => trivial
  · refine Program.ends_ite.mpr ⟨fun _ => ?_, fun _ => trivial⟩
    rw [modifyConn, Program.ends_bind, Program.ends_modify, Program.ends_bind]
    exact (addFrame_sameAsk _ _ _).mono (fun _ _ h => hbalance h.balance) fun _ _ _ => trivial

/-! ### Packets without room -/

/-- Nothing was written into a packet of `room` bytes. -/
structure Blank (c : Connection) (room : ℕ) (p : Packing) : Prop where
  draft : p.draft = .new room
  lossProbes : p.conn.recovery.lossProbes = c.recovery.lossProbes
  appError : p.conn.appError = c.appError

section Blank

variable {p : Packing}

/-- A blank packet has all of its room. -/
theorem Blank.left (h : Blank c room p) : p.draft.left = room := by
  rw [h.draft]
  rfl

/-- A frame that needs no padding does not fit where there is no room for the padding. -/
theorem tryFrame_blank {frame : Frame}
    (hlen : frame.measurable = true → payloadMinLen ≤ frame.wireLen) (flag : Bool)
    (hroom : room < payloadMinLen) (h : Blank c room p) :
    (tryFrame frame flag).Ends p (fun fits p' => fits = false ∧ Blank c room p') anyFault := by
  have hleft := h.left
  rw [tryFrame, Program.ends_bind, Program.ends_get]
  refine Program.ends_ite.mpr ⟨fun _ => trivial, fun hmeasurable => ?_⟩
  refine Program.ends_ite.mpr ⟨fun hfits => ?_, fun _ => ⟨rfl, h⟩⟩
  have := hlen (by simpa using hmeasurable)
  omega

/-- A frame is tried, and the connection changes if it fits. -/
theorem tryFrame_when_blank {frame : Frame}
    (hlen : frame.measurable = true → payloadMinLen ≤ frame.wireLen) (flag : Bool)
    (f : Connection → Connection) (hroom : room < payloadMinLen) (h : Blank c room p) :
    (do if ← tryFrame frame flag then modifyConn f : Program Error Packing Unit).Ends p
      (fun _ => Blank c room) anyFault := by
  refine (tryFrame_blank hlen flag hroom h).bind fun fits p' ⟨hfits, h'⟩ => ?_
  rw [hfits]
  exact h'

private theorem ack_wireLen {packetTime ackDelay : ℕ} {ranges : RangeSet}
    (h : (Frame.ack packetTime ackDelay ranges).measurable = true) :
    payloadMinLen ≤ (Frame.ack packetTime ackDelay ranges).wireLen := by
  have hne : ranges.inner.reverse ≠ [] := by
    simpa [Frame.measurable, RangeSet.isEmpty] using h
  cases hranges : ranges.inner.reverse with
  | nil => exact absurd hranges hne
  | cons first rest =>
    have := varintLen_pos (first.2 - 1)
    have := varintLen_pos packetTime
    have := varintLen_pos ackDelay
    simp only [Frame.wireLen, hranges, payloadMinLen]
    omega

private theorem writeAck_blank (hroom : room < payloadMinLen) (env : SendEnv) :
    Program.Maintains (Blank c room) anyFault (writeAck epoch env) := by
  refine Program.maintains_get_bind fun p h => Program.ends_ite.mpr ⟨fun _ => ?_, fun _ => h⟩
  exact tryFrame_when_blank ack_wireLen _ _ hroom h

private theorem writeReset_blank (hroom : room < payloadMinLen) (id : ℕ) :
    Program.Maintains (Blank c room) anyFault (writeReset id) := by
  refine Program.maintains_get_bind fun p h => ?_
  rw [Program.ends_bind, modifyStreams, modifyConn, Program.ends_modify]
  have h' : Blank c room ⟨p.conn.setStreams (p.conn.streams.markCanceled id false), p.draft⟩ :=
    { h with }
  cases p.conn.streams.streams id with
  | none => exact h'
  | some s =>
    refine (tryFrame_blank (fun _ => ?_) _ hroom h').mono (fun _ _ h => h.2) fun _ _ h => h
    have := varintLen_pos id
    change 4 ≤ 1 + varintLen id + 2 + varintLen s.send.blockSize
    omega

private theorem writeConnectionClose_blank (hroom : room < payloadMinLen) :
    Program.Maintains (Blank c room) anyFault writeConnectionClose := by
  refine Program.maintains_get_bind fun p h => ?_
  cases p.conn.error with
  | none => exact h
  | some err =>
    refine tryFrame_when_blank (fun _ => ?_) _ _ hroom h
    have := varintLen_pos err
    have := varintLen_pos 0
    change 4 ≤ 1 + varintLen err + varintLen 0 + varintLen 0 + 0
    omega

/-- APPLICATION_CLOSE, which is only written into 1-RTT packets. -/
theorem writeApplicationClose_blank (h : epoch ≠ .application ∨ c.appError = none) :
    Program.Maintains (Blank c room) anyFault (writeApplicationClose epoch) := by
  refine Program.maintains_get_bind fun p hp => ?_
  dsimp only
  cases herr : p.conn.appError with
  | none => exact hp
  | some err =>
    refine Program.ends_ite.mpr ⟨fun hshort => ?_, fun _ => hp⟩
    rw [hp.appError] at herr
    rcases h with hepoch | hnone
    · exact absurd (eq_application (by simpa using hshort)) hepoch
    · rw [hnone] at herr
      cases herr

private theorem writePathResponse_blank (hroom : room < payloadMinLen) :
    Program.Maintains (Blank c room) anyFault writePathResponse := by
  refine Program.maintains_get_bind fun p h => ?_
  cases p.conn.challenge with
  | none => exact h
  | some data =>
    refine Program.ends_ite.mpr ⟨fun hfits => ?_, fun _ => h⟩
    rw [h.left] at hfits
    unfold payloadMinLen at hroom
    change 1 + 8 < room at hfits
    omega

private theorem writeCrypto_blank (hroom : room < payloadMinLen) :
    Program.Maintains (Blank c room) anyFault (writeCrypto epoch) := by
  refine Program.maintains_get_bind fun p h => Program.ends_ite.mpr ⟨fun hfits => ?_, fun _ => h⟩
  rw [h.left] at hfits
  unfold payloadMinLen at hroom
  exact absurd hfits.2 (by unfold maxCryptoOverhead; omega)

private theorem writePing_blank (h : c.recovery.lossProbes epoch = 0) :
    Program.Maintains (Blank c room) anyFault (writePing epoch) := by
  refine Program.maintains_get_bind fun p hp => Program.ends_ite.mpr ⟨fun hdue => ?_, fun _ => hp⟩
  rw [hp.lossProbes, h] at hdue
  exact absurd hdue.1 (lt_irrefl 0)

end Blank

/-- Where there is no room for the padding, a server that waits for its client or has failed
writes nothing. -/
theorem fillPacket_blank (hroom : room < payloadMinLen) (hencoded : c.fecEncoded = [])
    (hcurbed : c.Handshaking ∧ epoch ≠ .application ∨ c.Failed) (env : SendEnv) :
    (fillPacket epoch env).Ends ⟨c, .new room⟩ (fun _ => Blank c room) anyFault := by
  have hlong (hopen : (!c.isClosing) = true) :
      epoch ≠ .application ∧ c.recovery.lossProbes epoch = 0 := by
    refine hcurbed.elim (fun h => ⟨h.2, h.1.lossProbes epoch⟩) fun hfailed => ?_
    simp [Connection.isClosing, hfailed.error] at hopen
  have hclose : epoch ≠ .application ∨ c.appError = none :=
    hcurbed.imp And.right fun h => h.appError
  have hopen {b : Bool}
      (hshort : (PacketType.fromEpoch epoch == .short && b && !c.isClosing) = true) :
      False := by
    rw [Bool.and_eq_true, Bool.and_eq_true] at hshort
    exact (hlong hshort.2).1 (eq_application hshort.1.1)
  rw [fillPacket, Program.ends_bind, Program.ends_get]
  dsimp only
  rw [hencoded]
  change (writeFrames epoch env).Ends _ _ _
  rw [writeFrames, Program.ends_bind, Program.ends_get]
  dsimp only
  refine Program.Maintains.bind (I := Blank c room) (.when fun _ => writeAck_blank hroom env)
    (fun _ => ?_) _ ⟨rfl, rfl, rfl⟩
  refine .bind (.forWhile fun id _ => writeReset_blank hroom id) fun _ => ?_
  refine .bind (.when fun hshort => (hopen (b := true) (by simpa using hshort)).elim) fun _ => ?_
  refine .bind (writeConnectionClose_blank hroom) fun _ => ?_
  refine .bind (writeApplicationClose_blank hclose) fun _ => ?_
  refine .bind (writePathResponse_blank hroom) fun _ => ?_
  refine .bind (.when fun _ => writeCrypto_blank hroom) fun _ => ?_
  refine Program.maintains_get_bind fun p h => ?_
  exact Program.Maintains.bind (.when fun hshort => (hopen hshort).elim)
    (fun _ => .when fun hlive => writePing_blank (hlong hlive).2) p h

/-! ### The length of a packet -/

/-- A server that waits for its client or has failed starts no FEC group, so that its packets are
only padded to the minimum. -/
theorem fillPacket_minPayload (hfec : c.fec = none)
    (hcurbed : c.Handshaking ∧ epoch ≠ .application ∨ c.Failed) (env : SendEnv) :
    (fillPacket epoch env).Ends ⟨c, .new room⟩
      (fun _ p => p.conn.fec = none ∧ p.minPayload epoch = payloadMinLen) anyFault := by
  refine fillPacket_draws.mono (fun _ p hp => ?_) fun _ _ _ => trivial
  have hnone : p.conn.fec = none := hp.unqueues.fec.trans hfec
  refine ⟨hnone, ?_⟩
  have hstarts : ¬ (p.draft.m ≠ 0 ∧ p.draft.n ≠ 0) := by
    rintro ⟨hm, hn⟩
    obtain ⟨block, tail, hstarts, -⟩ := (hp.chosen.resolve_left hm).resolve_left hn
    rcases hcurbed with ⟨-, hepoch⟩ | hfailed
    · exact hepoch (hp.plain hm).2
    · have hopen := hstarts.isClosing
      rw [Connection.isClosing, hfailed.error] at hopen
      cases hopen
  unfold minPayload
  rw [hnone]
  dsimp only
  rw [if_neg hstarts, ite_self]

/-- The padding of such a packet fits into its room. -/
theorem Built.payloadLen {filled padded sealed p' : Packing} {written : ℕ}
    (h : Built epoch headerLen pnLen avail env ⟨c, .new room⟩ filled padded sealed written p')
    (hserver : c.isServer = true) (hfec : c.fec = none) (hencoded : c.fecEncoded = [])
    (hcurbed : c.Handshaking ∧ epoch ≠ .application ∨ c.Failed) :
    padded.draft.payloadLen ≤ room := by
  have hfill : filled.draft.payloadLen ≤ room := fillPacket_balance.ok h.fill
  have hmin := (fillPacket_minPayload hfec hcurbed env).ok h.fill
  have hroom : payloadMinLen ≤ room := by
    by_contra hshort
    refine h.nonempty ?_
    rw [((fillPacket_blank (not_le.mp hshort) hencoded hcurbed env).ok h.fill).draft]
    rfl
  have hisServer : filled.conn.isServer = true := h.filling.isServer.trans hserver
  have hpad : (do
      countProbe epoch
      padInitial epoch pnLen
      padPayload epoch : Program Error Packing Unit).Ends filled
        (fun _ p => p.draft.payloadLen ≤ room) anyFault := by
    have hcount : (countProbe epoch).Ends filled
        (fun _ p => p.draft = filled.draft ∧ p.conn.isServer = true ∧
            p.conn.fec = filled.conn.fec) anyFault := by
      rw [countProbe, Program.ends_bind, Program.ends_get]
      exact Program.ends_ite.mpr ⟨fun _ => ⟨rfl, hisServer, rfl⟩, fun _ => ⟨rfl, hisServer, rfl⟩⟩
    refine hcount.bind ?_
    rintro _ p₁ ⟨hdraft, hserver₁, hfec₁⟩
    have hinitial : padInitial epoch pnLen p₁ = .ok () p₁ := by
      simp [padInitial, Program.bind_apply, Program.get_apply, hserver₁, Program.pure_apply]
    have hmin₁ : p₁.minPayload epoch = payloadMinLen := by
      rw [← hmin.2, Packing.minPayload, Packing.minPayload, hfec₁, hdraft]
    rw [Program.ends_bind, Program.Ends, hinitial]
    dsimp only
    rw [padPayload, Program.ends_bind, Program.ends_get, Program.ends_ite]
    refine ⟨fun hshort => ?_, fun _ => ?_⟩
    · change p₁.draft.payloadLen + (p₁.minPayload epoch - p₁.draft.payloadLen) ≤ _
      omega
    · change p₁.draft.payloadLen ≤ room
      rwa [hdraft]
  exact hpad.ok h.pad

end Packing

namespace Connection

/-- Such a packet takes no more than the room that was found for it. -/
theorem Prepares.written_le {outLen pnLen written : ℕ} {env : SendEnv} {c c₀ c₁ : Connection}
    {epoch : Epoch} {filled padded sealed p' : Packing}
    (h : c.Prepares outLen env c₀ epoch pnLen c₁)
    (built : Packing.Built epoch (c₁.headerLen epoch pnLen) pnLen (c₀.packetCap outLen) env
      ⟨c₁, .new (c₁.frameRoom epoch pnLen (c₀.packetCap outLen) env)⟩
        filled padded sealed written p')
    (hserver : c₁.isServer = true) (hfec : c₁.fec = none) (hencoded : c₁.fecEncoded = [])
    (hcurbed : c₁.Handshaking ∧ epoch ≠ .application ∨ c₁.Failed) :
    written ≤ c₁.packetRoom epoch (c₀.packetCap outLen) env := by
  have hwritten := ((Packing.sealPacket_ends padded).ok built.sealing).written_eq
  have hoverhead := h.overhead
  have hroom := packetRoom_lt c₁ c₀ epoch outLen env
  have hlen := built.payloadLen hserver hfec hencoded hcurbed
  unfold frameRoom at hlen
  rw [hwritten, Packing.payloadOffset]
  simp only [packetOverhead] at *
  by_cases hshort : PacketType.fromEpoch epoch = .short
  · rw [if_pos hshort] at *
    omega
  · rw [if_neg hshort] at *
    have := varintLen_le_two (v := pnLen + padded.draft.payloadLen + tagLen) (by omega)
    omega

/-- What is written to an unverified address is taken out of the credit. -/
theorem send_ok_debits {outLen written : ℕ} {env : SendEnv} {c c' : Connection}
    (hok : send outLen env c = .ok written c') (hcurbed : c.Curbed) (hgroupless : c.Groupless)
    (htls : c.isClosing = false → ServerTls c none env.handshake)
    (hserver : c.isServer = true) (hverified : c.verifiedPeerAddress = false) :
    c'.maxSendBytes + written = c.maxSendBytes := by
  rcases send_cases outLen env c with ⟨e, c'', heq, -⟩ | ⟨c₀, epoch, pnLen, c₁, hprep, -⟩
  · rw [heq] at hok
    cases hok
  · obtain ⟨filled, padded, sealed, p', built, rfl⟩ := hprep.built hok
    have hsame := hprep.sameTask
    have hserver₁ : c₁.isServer = true := hsame.isServer.trans hserver
    have hverified₁ : c₁.verifiedPeerAddress = false := hsame.verifiedPeerAddress.trans hverified
    obtain ⟨hfec, hencoded⟩ := hgroupless hserver hverified
    have hwritten := hprep.written_le built hserver₁ (hsame.fec.trans hfec)
      (hsame.fecEncoded.trans hencoded) (hcurbed.prepares htls hserver hverified hprep)
    have hroom := packetRoom_le_maxSendBytes hserver₁ hverified₁ epoch (c₀.packetCap outLen) env
    rw [hsame.maxSendBytes] at hroom
    have hconn : p'.conn = sealed.recorded epoch written env := by
      have hrecord := built.record
      rw [Packing.recordSent_eq] at hrecord
      cases hrecord
      rfl
    rw [hconn, (recorded_debits built.within written env).2, hsame.maxSendBytes]
    exact Nat.sub_add_cancel (hwritten.trans hroom)

end Connection

/-! ### Runs -/

/-- A connection with the numbers of bytes that were passed to `recv` and that were written. -/
structure Traffic where
  conn : Connection
  received : ℕ
  written : ℕ

namespace Traffic

/-- A call, or the copy of `send` that lists the blocks. -/
inductive Event
  | call (call : Call)
  | sendWithBlocks (outLen : ℕ) (env : SendEnv) (blocks : Blocks)

/-- The call without the list of blocks. -/
def Event.toCall : Event → Call
  | .call c => c
  | .sendWithBlocks outLen env _ => .send outLen env

/-- The state after a packet was asked for. -/
def sent (t : Traffic) : EStateM.Result (Lib.Fault Error) Connection ℕ → Option Traffic
  | .ok written c => some { t with conn := c, written := t.written + written }
  | .error (.error _) c => some { t with conn := c }
  | .error _ _ => none

/-- The traffic after an event. -/
def step (t : Traffic) : Event → Option Traffic
  | .call (.send outLen env) => t.sent (Connection.send outLen env t.conn)
  | .sendWithBlocks outLen env blocks =>
    t.sent (Program.forget (Connection.sendWithBlocks outLen env (t.conn, blocks)))
  | .call (.recv d) =>
    (Call.step t.conn (.recv d)).map fun c => { t with conn := c, received := t.received + d.len }
  | .call call => (Call.step t.conn call).map fun c => { t with conn := c }

/-- A connection that has received nothing. -/
def new (config : Connection.Config) (isServer afterRetry : Bool) (now : ℕ) : Traffic :=
  ⟨.new config isServer afterRetry now, 0, 0⟩

/-- To an unverified address, no more is written than three times what was received. -/
def Limited (t : Traffic) : Prop :=
  t.conn.isServer = true → t.conn.verifiedPeerAddress = false → t.written ≤ 3 * t.received

/-- Received packets are as they are parsed, and TLS of a server awaits the client. -/
def Conforms (t : Traffic) (event : Event) : Prop :=
  event.toCall.Parsed ∧ event.toCall.Handshakes Connection.ServerTls t.conn

/-- What is left of the credit was received, and was not written. -/
def Balanced (t : Traffic) : Prop :=
  t.conn.isServer = true → t.conn.verifiedPeerAddress = false →
    t.written + t.conn.maxSendBytes ≤ 3 * t.received

/-- The credit is balanced, and the restrictions of an unverified server are kept. -/
structure Guarded (t : Traffic) : Prop where
  balanced : t.Balanced
  curbed : t.conn.Curbed
  groupless : t.conn.Groupless

section Limit

variable {t t' : Traffic}

/-- Where the books are balanced, the limit is kept. -/
theorem Balanced.limited (h : t.Balanced) : t.Limited := fun hserver hverified =>
  (Nat.le_add_right _ _).trans (h hserver hverified)

theorem Balanced.of_debits (h : t.Balanced) {c : Connection} (hc : t.conn.Debits c) :
    Balanced { t with conn := c } := fun hserver hverified => by
  have := h (hc.isServer.symm.trans hserver) (hc.verified hverified)
  have := hc.maxSendBytes
  dsimp only
  omega

/-- A datagram pays for three times its bytes. -/
theorem Balanced.recv (h : t.Balanced) {d : Connection.Datagram} {c : Connection}
    (hstep : Call.step t.conn (.recv d) = some c) :
    Balanced { t with conn := c, received := t.received + d.len } := fun hserver hverified => by
  have hc := Program.keeps_iff_after.mp (Connection.recv_credits d t.conn) c hstep
  have := h (hc.isServer.symm.trans hserver) (hc.verified hverified)
  have := hc.maxSendBytes
  dsimp only at *
  omega

/-- A datagram is sent from the budget. -/
theorem Guarded.sent (h : t.Guarded) {outLen : ℕ} {env : SendEnv}
    (htls : (Call.send outLen env).Handshakes Connection.ServerTls t.conn)
    (hsent : t.sent (Connection.send outLen env t.conn) = some t') : t'.Balanced := by
  have hdebits := Connection.sendParts_debits.send outLen env t.conn
  cases hsend : Connection.send outLen env t.conn with
  | ok written c =>
    rw [hsend] at hsent
    cases hsent
    have hc := hdebits.ok hsend
    intro hserver hverified
    have hserver₀ := hc.isServer.symm.trans hserver
    have hverified₀ := hc.verified hverified
    have := h.balanced hserver₀ hverified₀
    have := Connection.send_ok_debits hsend h.curbed h.groupless htls hserver₀ hverified₀
    dsimp only
    omega
  | error e c =>
    rw [hsend] at hsent
    cases e with
    | error err =>
      cases hsent
      exact h.balanced.of_debits (hdebits.error hsend)
    | _ => cases hsent

/-- An event is a call of the connection, whether or not the blocks are listed. -/
theorem step_cases {event : Event} (h : t.step event = some t') :
    Call.step t.conn event.toCall = some t'.conn ∧
      ((∃ outLen env, event.toCall = .send outLen env ∧
          t.sent (Connection.send outLen env t.conn) = some t') ∨
        (∃ d, event.toCall = .recv d ∧
          t' = { t with conn := t'.conn, received := t.received + d.len }) ∨
        (∀ d, event.toCall ≠ .recv d) ∧ t' = { t with conn := t'.conn }) := by
  have hsent {outLen : ℕ} {env : SendEnv}
      (h : t.sent (Connection.send outLen env t.conn) = some t') :
      Call.step t.conn (.send outLen env) = some t'.conn := by
    rw [Call.step, Call.program, Program.discard_after, Program.after]
    rcases hsend : Connection.send outLen env t.conn with ⟨written, c⟩ | ⟨_ | _ | _ | _, c⟩ <;>
      rw [hsend] at h <;> cases h <;> rfl
  cases event with
  | sendWithBlocks outLen env blocks =>
    have hsend : t.sent (Connection.send outLen env t.conn) = some t' := by
      rw [← Connection.sendWithBlocks_erases outLen env t.conn blocks]
      exact h
    exact ⟨hsent hsend, .inl ⟨_, _, rfl, hsend⟩⟩
  | call call =>
    by_cases hsend : ∃ outLen env, call = .send outLen env
    · obtain ⟨outLen, env, rfl⟩ := hsend
      exact ⟨hsent h, .inl ⟨_, _, rfl, h⟩⟩
    by_cases hrecv : ∃ d, call = .recv d
    · obtain ⟨d, rfl⟩ := hrecv
      obtain ⟨c, hc, rfl⟩ := Option.map_eq_some_iff.mp h
      exact ⟨hc, .inr (.inl ⟨d, rfl, rfl⟩)⟩
    have hother : (Call.step t.conn call).map (fun c => { t with conn := c }) = some t' := by
      cases call with
      | send outLen env => exact absurd ⟨outLen, env, rfl⟩ hsend
      | recv d => exact absurd ⟨d, rfl⟩ hrecv
      | _ => exact h
    obtain ⟨c, hc, rfl⟩ := Option.map_eq_some_iff.mp hother
    exact ⟨hc, .inr (.inr ⟨fun d heq => hrecv ⟨d, heq⟩, rfl⟩)⟩

/-- Every event keeps the books balanced. -/
theorem Guarded.step (h : t.Guarded) {event : Event} (hconforms : t.Conforms event)
    (hstep : t.step event = some t') : t'.Guarded := by
  obtain ⟨hcall, hcases⟩ := step_cases hstep
  refine ⟨?_, h.curbed.call hconforms.1 hconforms.2 hcall,
    h.groupless.call h.curbed hconforms.2 hcall⟩
  rcases hcases with ⟨outLen, env, hsend, hsent⟩ | ⟨d, hrecv, ht'⟩ | ⟨hother, ht'⟩
  · exact h.sent (hsend ▸ hconforms.2) hsent
  · rw [ht']
    exact h.balanced.recv (hrecv ▸ hcall)
  · rw [ht']
    exact h.balanced.of_debits (Connection.call_debits hother hcall)

/-- No more than three times the received bytes is written to an unverified address, whatever
is received and called. -/
theorem always_limited (config : Connection.Config) (isServer afterRetry : Bool) (now : ℕ)
    {events : List Event}
    (hconforms : Lib.AllSteps step Conforms (new config isServer afterRetry now) events) :
    Lib.Always step Limited (new config isServer afterRetry now) events := by
  have hnew : (new config isServer afterRetry now).Guarded := by
    refine ⟨fun _ _ => Nat.zero_le _, ?_, fun _ _ => ⟨rfl, rfl⟩⟩
    rintro rfl hverified
    obtain rfl : afterRetry = false := hverified
    exact .inr (.inl (.new config now))
  have hguarded := Lib.always_of_step
    (fun t event t' (h : t.Guarded) hC hstep => h.step hC hstep) hnew hconforms
  exact hguarded.mono fun _ h => h.balanced.limited

end Limit

/-- TLS of a server, which writes its first handshake data and waits for the client. -/
def hello (now : ℕ) (data : List UInt8) : Env where
  instant := now
  wall := now
  lossDelay := 100
  timeout := 300
  handshake :=
    { writes := [(.initial, data)]
      keys := fun e => (e == .initial, e == .initial)
      isEstablished := false
      writeLevel := .initial
      outcome := .waiting }

/-- The first packet of a client, which TLS answers with `data`. -/
def firstPacket (data : List UInt8) : Event :=
  .call (.recv
    { packets :=
        [{ ty := .initial
           version := protocolVersionDraft25
           scidLen := 16
           pktNum := 0
           fecInfo := .none
           restored := []
           restoredError := none
           frames := [(.crypto ⟨[1, 2, 3, 4, 5], 0, false⟩, hello 1 data)]
           framesError := none
           now := 1 }]
      error := none
      len := 66 })

/-- A server. -/
def server : Traffic := new { Sample.config (.basic {}) with dcidLen := 0 } true false 0

/-- `send` at time `now`. -/
def sendAt (now : ℕ) : Event :=
  .call (.send 1200 { Sample.sendEnv now with toEnv := hello now [] })

/-- The server answers the first packet until its credit is used up. -/
def answer : List Event := [firstPacket (List.replicate 400 0), sendAt 2, sendAt 3]

theorem always_limited_answer :
    Lib.Always step Limited server answer ∧
      ((run step server answer).any fun t => 190 < t.written) = true := by
  have hwaits (now : ℕ) (data : List UInt8) (epoch : Option Epoch) :
      (hello now data).handshake.AwaitsClient epoch := ⟨fun _ => rfl, nofun⟩
  have hsend (t : Traffic) (now : ℕ) : t.Conforms (sendAt now) :=
    ⟨trivial, fun _ _ _ => hwaits now [] none⟩
  refine ⟨always_limited _ _ _ _ ⟨⟨?_, ?_⟩, fun t₁ _ => ⟨hsend t₁ 2, fun t₂ _ => ⟨hsend t₂ 3,
    fun _ _ => trivial⟩⟩⟩, by decide +kernel⟩
  · intro pkt hpkt
    obtain rfl := List.mem_singleton.mp hpkt
    exact ⟨by decide, fun _ => ⟨rfl, rfl⟩, by decide⟩
  · refine ⟨fun epoch c _ _ _ => ?_, fun _ _ => trivial⟩
    exact ⟨fun data _ _ _ => hwaits 1 _ _, fun _ _ => trivial⟩

end Traffic

end Dtp
