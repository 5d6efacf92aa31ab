import Dtp.Writers

/-!
# The room of a packet

Every frame takes its length out of the room that is left in a packet. Most kinds of
frames are written only if they fit; HANDSHAKE_DONE, the MAX_STREAMS frames and
APPLICATION_CLOSE are written without a test, the tests for CRYPTO and STREAM frames
allow for less than these can take, and the padding is not counted at all.

## Main definitions

* `Connection.controlLen` — a bound on the control frames that are due
* `Connection.FitsBudget` — the frames that are written without a test fit, and the padding
* `Connection.WithinBudget` — no subtraction goes below zero, and no packet is too long

## Main results

* `Connection.withinBudget` — the one implies the other
-/

namespace Dtp

open Lib (Fault Program)

/-! ### The control frames that are due -/

namespace Connection

/-- The length of the ACK frame that is due. -/
def ackLen (c : Connection) (epoch : Epoch) (env : SendEnv) : ℕ :=
  let space := c.pktNumSpaces epoch
  let ratio := if 0 < c.initDataAckRatio then c.initDataAckRatio else 4
  if !c.isClosing ∧
      (space.ackElicited ∨ !space.recvPktNeedAck.isEmpty ∧ space.nextPktNum % ratio = 0) then
    (Frame.ack env.packetTime env.ackDelay space.recvPktNeedAck).wireLen
  else 0

/-- The largest length of the frames that end the connection. -/
def closeLen (c : Connection) (epoch : Epoch) : ℕ :=
  (if c.error.isSome then 11 else 0) +
    match c.appError with
    | some err =>
      if epoch = .application then (Frame.applicationClose err c.appReason).wireLen else 0
    | none => 0

/-- CRYPTO frames may take all the room that is left. -/
def cryptoLen (c : Connection) (epoch : Epoch) (room : ℕ) : ℕ :=
  if !c.isClosing ∧ (c.pktNumSpaces epoch).cryptoStream.isFlushable then room else 0

/-- A bound on the length of the frames that come before the data of a stream. -/
def controlLen (c : Connection) (epoch : Epoch) (room : ℕ) (env : SendEnv) : ℕ :=
  c.ackLen epoch env + 19 * c.streams.canceled.length
    + (if epoch = .application ∧ !c.isClosing then 28 + 17 * c.streams.almostFull.length else 0)
    + c.closeLen epoch + 9 + c.cryptoLen epoch room

/-- A bound on a payload with data of streams, which leaves room for a PING frame. -/
def dataCap (c : Connection) (room : ℕ) : ℕ :=
  match c.fec with
  | none => room
  | some group => min room (group.shardSize - 1)

private theorem dataCap_le (c : Connection) (room : ℕ) : c.dataCap room ≤ room := by
  unfold dataCap
  split <;> omega

/-- The frames of a packet of `room` bytes fit where `send` does not test that they do. -/
structure FitsFrames (c : Connection) (epoch : Epoch) (room : ℕ) (env : SendEnv) : Prop where
  /-- HANDSHAKE_DONE and the MAX_STREAMS frames come after ACK and RESET_STREAM. -/
  untested : epoch = .application → c.isClosing = false →
    c.handshakeDoneDue ∨ c.streams.shouldUpdateMaxStreamsBidi ∨
      c.streams.shouldUpdateMaxStreamsUni →
      c.ackLen epoch env + 19 * c.streams.canceled.length + 19 ≤ room
  /-- APPLICATION_CLOSE comes after RESET_STREAM and CONNECTION_CLOSE. -/
  appClose : ∀ err, epoch = .application → c.appError = some err →
    19 * c.streams.canceled.length + (if c.error.isSome then 11 else 0)
      + (Frame.applicationClose err c.appReason).wireLen ≤ room
  crypto : c.isClosing = false → (c.pktNumSpaces epoch).cryptoStream.send.off < 2 ^ 30 ∧
    (c.pktNumSpaces epoch).cryptoStream.send.lowOff < 2 ^ 30
  finished : ∀ id s f, c.streams.streams id = some s → s.send.finOff = some f →
    varintLen id + varintLen f ≤ 11
  /-- The shards of an open FEC group are longer than what comes before stream data. -/
  shard : ∀ group, epoch = .application → c.isClosing = false → c.streams.hasFlushable →
    c.fec = some group →
      c.controlLen epoch room env + 41 * (c.streams.flushable.length + 2) + 25 ≤ group.shardSize

/-- A bound on a payload without data of streams, before it is padded. -/
def loadLen (c : Connection) (epoch : Epoch) (room : ℕ) (env : SendEnv) : ℕ :=
  match c.fecEncoded with
  | [] => c.controlLen epoch room env + 1
  | (_, len) :: _ => len

/-- The length to which a payload is padded, unless the packet starts a FEC group. -/
def paddedLen (c : Connection) (epoch : Epoch) : ℕ :=
  if epoch = .application then
    match c.fec with
    | some group => group.shardSize
    | none => payloadMinLen
  else payloadMinLen

/-- There is room for the padding, also for that of a packet that starts a FEC group. -/
structure FitsPadding (c : Connection) (epoch : Epoch) (room : ℕ) (env : SendEnv) : Prop where
  padded : c.paddedLen epoch ≤ room
  group : epoch = .application → c.fecEncoded = [] →
    ∀ block tail, c.StartsGroup room env block tail → 1301 ≤ room

/-- The frames fit where `send` does not test it, and so does the padding. -/
structure FitsBudget (c : Connection) (epoch : Epoch) (pnLen room : ℕ) (env : SendEnv) : Prop where
  frames : c.fecEncoded = [] → c.FitsFrames epoch room env
  initial : c.isServer = false → epoch = .initial →
    pnLen + min room (c.loadLen epoch room env) + tagLen ≤ minClientInitialLen
  padding : c.FitsPadding epoch room env

end Connection

/-! ### Picking a stream -/

namespace StreamMap

private theorem cancelBlock_noUnderflow (id : ℕ) :
    Program.Maintains (fun _ => True) (fun e _ => e ≠ .underflow) (cancelBlock id) := by
  refine Program.maintains_get_bind fun m _ => ?_
  refine Program.Maintains.bind (Program.maintains_unwrap fun _ _ => nofun) (fun s => ?_) m trivial
  refine .bind (fun _ _ => trivial) fun _ => ?_
  exact .bind (Program.maintains_ofExcept fun _ _ _ => nofun) fun _ =>
    Program.maintains_modify fun _ _ => trivial

private theorem dropLoop_noUnderflow (pace : Pace) (n : ℕ) (blocks : List Block) :
    Program.Maintains (fun _ => True) (fun e _ => e ≠ .underflow) (dropLoop pace n blocks) := by
  induction n generalizing blocks with
  | zero => exact Program.maintains_pure blocks
  | succ n ih =>
    refine Program.maintains_get_bind fun m _ => ?_
    refine Program.Maintains.bind (Program.maintains_unwrap fun _ _ => nofun)
      (fun id => ?_) m trivial
    refine .bind (Program.maintains_unwrap fun _ _ => nofun) fun block => ?_
    refine .bind (Program.maintains_unwrap fun _ _ => nofun) fun drop => ?_
    refine .ite (fun _ => .bind (cancelBlock_noUnderflow id) fun _ => ?_) fun _ => ih _
    exact .bind (Program.maintains_modify fun _ _ => trivial) fun _ => ih _

private theorem peekFlushable_noUnderflow (pace : Pace) :
    Program.Maintains (fun _ => True) (fun e _ => e ≠ .underflow) (peekFlushable pace) := by
  refine Program.maintains_get_bind fun m _ => Program.ends_ite.mpr ⟨fun _ => trivial, fun _ => ?_⟩
  have hblock (id : ℕ) : Program.Maintains (fun _ => True) (fun e _ => e ≠ .underflow)
      (discard (Program.unwrap (m.getBlock id)) : Program Error StreamMap PUnit) :=
    .bind (Program.maintains_unwrap fun _ _ => nofun) fun _ => Program.maintains_pure _
  refine Program.Maintains.bind (.forM hblock _) (fun _ => ?_) m trivial
  refine .bind (dropLoop_noUnderflow pace _ _) fun blocks => ?_
  refine .ite (fun _ => Program.maintains_pure _) fun _ => ?_
  refine Program.maintains_get_bind fun m₁ _ => ?_
  refine Program.Maintains.bind (Program.maintains_unwrap fun _ _ => nofun) (fun _ => ?_) m₁ trivial
  exact .bind (fun _ _ => trivial) fun _ => Program.maintains_pure _

end StreamMap

namespace Packing

/-- No subtraction goes below zero. -/
private abbrev noUnderflow : Lib.Fault Error → Packing → Prop := fun e _ => e ≠ .underflow

/-- A packet of which at most `b` of `room` bytes are used. No stream with a large id has
a large final size. -/
structure Spends (c : Connection) (epoch : Epoch) (room b : ℕ) (p : Packing) : Prop where
  filling : p.Filling (c.Writes epoch) c room
  balance : p.draft.left + p.draft.payloadLen = room
  payloadLen : p.draft.payloadLen ≤ b
  tailSize : p.conn.tailSize = c.tailSize
  finished : ∀ id s f, p.conn.streams.streams id = some s → s.send.finOff = some f →
    varintLen id + varintLen f ≤ 11

/-- Neither the handshake data nor data of streams is sent yet. -/
structure SpendsEarly (c : Connection) (epoch : Epoch) (room b : ℕ) (p : Packing) : Prop
    extends Spends c epoch room b p where
  bidi : p.conn.streams.shouldUpdateMaxStreamsBidi = true →
    c.streams.shouldUpdateMaxStreamsBidi = true
  uni : p.conn.streams.shouldUpdateMaxStreamsUni = true → c.streams.shouldUpdateMaxStreamsUni = true
  flushable : p.conn.streams.flushable = c.streams.flushable
  cryptoStream : ∀ e, (p.conn.pktNumSpaces e).cryptoStream = (c.pktNumSpaces e).cryptoStream

section Spend

variable {c : Connection} {epoch : Epoch} {room b n : ℕ} {p : Packing} {env : SendEnv}

theorem Spends.mono (h : Spends c epoch room b p) {b' : ℕ} (hb : b ≤ b') :
    Spends c epoch room b' p := { h with payloadLen := h.payloadLen.trans hb }

theorem SpendsEarly.mono (h : SpendsEarly c epoch room b p) {b' : ℕ} (hb : b ≤ b') :
    SpendsEarly c epoch room b' p := { h with payloadLen := h.payloadLen.trans hb }

/-- The bytes of the packet bound themselves. -/
theorem Spends.tight (h : Spends c epoch room b p) : Spends c epoch room p.draft.payloadLen p :=
  { h with payloadLen := le_rfl }

/-- Every packet keeps within its room as long as nothing is padded. -/
theorem Spends.le_room (h : Spends c epoch room b p) : Spends c epoch room room p :=
  { h with payloadLen := by have := h.balance; omega }

/-- What is spent is less than a shard, hence within the limit. -/
theorem Spends.le_cap (h : Spends c epoch room b p)
    (hshard : ∀ group, c.fec = some group → b < group.shardSize) :
    Spends c epoch room (c.dataCap room) p := by
  refine { h with payloadLen := ?_ }
  have := h.balance
  have := h.payloadLen
  unfold Connection.dataCap
  cases hfec : c.fec with
  | none =>
    dsimp only
    omega
  | some group =>
    have := hshard group hfec
    dsimp only
    omega

/-- There is room for what was counted. -/
theorem Spends.le_left (h : Spends c epoch room b p) (hn : b + n ≤ room) : n ≤ p.draft.left := by
  have := h.balance
  have := h.payloadLen
  omega

/-- A frame spends its length. -/
theorem Spends.addFrame {frame : Frame} {flag : Bool} (h : Spends c epoch room b p)
    (writes : c.Writes epoch frame) (hflag : flag = frame.flagged) (hpad : frame.isPadding = false)
    (hlen : frame.wireLen ≤ n) (hfits : frame.wireLen ≤ p.draft.left) :
    (addFrame frame flag).Ends p (fun _ p' => Spends c epoch room (b + n) p' ∧ p'.conn = p.conn)
      noUnderflow := by
  have hfilling := addFrame_filling h.filling writes hflag hpad
  have hspent : (Packing.addFrame frame flag).Ends p (fun _ p' => p'.conn = p.conn ∧
      p'.draft.left + p'.draft.payloadLen = room ∧ p'.draft.payloadLen ≤ b + n) noUnderflow := by
    rw [Packing.addFrame, Program.ends_bind, Program.ends_get, Program.ends_ite, Program.ends_ite]
    refine ⟨fun _ => Fault.panic_ne_underflow,
      fun _ => ⟨fun _ => ⟨rfl, ?_, ?_⟩, fun hnot => absurd hfits hnot⟩⟩
    · have := h.balance
      simp only
      omega
    · have := h.payloadLen
      simp only
      omega
  refine (hfilling.and hspent).mono (fun _ p' h' => ?_) fun _ _ h' => h'.2
  obtain ⟨hfilling, hconn, hbalance, hpayload⟩ := h'
  exact ⟨⟨hfilling, hbalance, hpayload, hconn ▸ h.tailSize, hconn ▸ h.finished⟩, hconn⟩

/-- A frame spends its length, if it fits. -/
theorem Spends.tryFrame {frame : Frame} {flag : Bool} (h : Spends c epoch room b p)
    (writes : c.Writes epoch frame) (hflag : flag = frame.flagged) (hpad : frame.isPadding = false)
    (hlen : frame.wireLen ≤ n) :
    (tryFrame frame flag).Ends p (fun _ p' => Spends c epoch room (b + n) p' ∧ p'.conn = p.conn)
      noUnderflow := by
  rw [Packing.tryFrame, Program.ends_bind, Program.ends_get, Program.ends_ite, Program.ends_ite]
  refine ⟨fun _ => Fault.panic_ne_underflow, fun _ =>
    ⟨fun hfits => ?_, fun _ => ⟨h.mono (by omega), rfl⟩⟩⟩
  exact (h.addFrame writes hflag hpad hlen hfits).bind fun _ p' hp' => hp'

/-- The connection may change where frames and finished streams stay. -/
theorem Spends.modifyConn (h : Spends c epoch room b p) {d : Connection}
    (filling : Filling (c.Writes epoch) c room { p with conn := d })
    (tailSize : d.tailSize = p.conn.tailSize)
    (finished : ∀ id s f, d.streams.streams id = some s → s.send.finOff = some f →
      varintLen id + varintLen f ≤ 11) : Spends c epoch room b { p with conn := d } :=
  ⟨filling, h.balance, h.payloadLen, tailSize.trans h.tailSize, finished⟩

/-- Streams may change where the ends of streams stay encodable. -/
theorem Spends.setStreams (h : Spends c epoch room b p) {m : StreamMap}
    (finished : ∀ id s f, m.streams id = some s → s.send.finOff = some f →
      varintLen id + varintLen f ≤ 11) :
    Spends c epoch room b { p with conn := p.conn.setStreams m } :=
  h.modifyConn (h.filling.setStreams m) rfl finished

/-- A stream is replaced by one with the same final size. -/
theorem Spends.put (h : Spends c epoch room b p) {id : ℕ} {s : Stream}
    (hs : ∀ f, s.send.finOff = some f → varintLen id + varintLen f ≤ 11) :
    Spends c epoch room b { p with conn := p.conn.setStreams (p.conn.streams.put id s) } := by
  refine h.setStreams fun i s' f hs' hf => ?_
  change (if i = id then some s else p.conn.streams.streams i) = some s' at hs'
  split_ifs at hs' with hi
  · cases hs'
    exact hi ▸ hs f hf
  · exact h.finished i s' f hs' hf

/-- The same connection with another packet. -/
theorem SpendsEarly.of_spends (h : SpendsEarly c epoch room b p) {p' : Packing} {b' : ℕ}
    (h' : Spends c epoch room b' p') (conn : p'.conn = p.conn) : SpendsEarly c epoch room b' p' :=
  { h' with
    bidi := conn ▸ h.bidi
    uni := conn ▸ h.uni
    flushable := conn ▸ h.flushable
    cryptoStream := conn ▸ h.cryptoStream }

/-- The streams change in nothing that is looked at later. -/
theorem SpendsEarly.setStreams (h : SpendsEarly c epoch room b p) {m : StreamMap}
    (send : ∀ id s, m.streams id = some s →
      ∃ s₀, p.conn.streams.streams id = some s₀ ∧ s.send = s₀.send)
    (bidi : m.shouldUpdateMaxStreamsBidi = true → p.conn.streams.shouldUpdateMaxStreamsBidi = true)
    (uni : m.shouldUpdateMaxStreamsUni = true → p.conn.streams.shouldUpdateMaxStreamsUni = true)
    (flushable : m.flushable = p.conn.streams.flushable) :
    SpendsEarly c epoch room b { p with conn := p.conn.setStreams m } where
  filling := h.filling.setStreams m
  balance := h.balance
  payloadLen := h.payloadLen
  tailSize := h.tailSize
  finished id s f hs hf := by
    obtain ⟨s₀, hs₀, hsend⟩ := send id s hs
    exact h.finished id s₀ f hs₀ (hsend ▸ hf)
  bidi hdue := h.bidi (bidi hdue)
  uni hdue := h.uni (uni hdue)
  flushable := flushable.trans h.flushable
  cryptoStream := h.cryptoStream

/-- A frame is tried, and the connection changes if it fits. -/
theorem SpendsEarly.tryFrame_when {frame : Frame} {flag : Bool} {f : Connection → Connection}
    (h : SpendsEarly c epoch room b p) (writes : c.Writes epoch frame)
    (hflag : flag = frame.flagged)
    (hpad : frame.isPadding = false) (hlen : frame.wireLen ≤ n)
    (hf : ∀ (p : Packing) b, SpendsEarly c epoch room b p →
      SpendsEarly c epoch room b { p with conn := f p.conn }) :
    (do
      if ← Packing.tryFrame frame flag then
        Packing.modifyConn f : Program Error Packing Unit).Ends p
      (fun _ => SpendsEarly c epoch room (b + n)) noUnderflow := by
  refine (h.toSpends.tryFrame writes hflag hpad hlen).bind fun fits p' hp' => ?_
  have h' := h.of_spends hp'.1 hp'.2
  exact Program.ends_ite.mpr ⟨fun _ => hf p' _ h', fun _ => h'⟩

/-- A loop that writes at most `n` bytes in each turn. -/
theorem SpendsEarly.forWhile {f : ℕ → Program Error Packing Bool} {l : List ℕ}
    (hf : ∀ id ∈ l, ∀ (p : Packing) b, SpendsEarly c epoch room b p →
      (f id).Ends p (fun _ => SpendsEarly c epoch room (b + n)) noUnderflow)
    (h : SpendsEarly c epoch room b p) :
    (Program.forWhile f l).Ends p (fun _ => SpendsEarly c epoch room (b + n * l.length))
      noUnderflow := by
  induction l generalizing p b with
  | nil => exact h
  | cons id l ih =>
    refine (hf id List.mem_cons_self p b h).bind fun more p' hp' => ?_
    have hlen : b + n * (id :: l).length = b + n + n * l.length := by
      rw [List.length_cons, Nat.mul_succ]
      omega
    rw [hlen]
    refine Program.ends_ite.mpr ⟨fun _ => ?_, fun _ => hp'.mono (Nat.le_add_right _ _)⟩
    exact ih (fun id' hid' => hf id' (List.mem_cons_of_mem _ hid')) hp'

private theorem writeAck_spends (h : SpendsEarly c epoch room b p) (conn : p.conn = c)
    (live : c.isClosing = false) (env : SendEnv) : (writeAck epoch env).Ends p
      (fun _ => SpendsEarly c epoch room (b + c.ackLen epoch env)) noUnderflow := by
  rw [writeAck, Program.ends_bind, Program.ends_get, Program.ends_ite]
  refine ⟨fun hdue => ?_, fun _ => h.mono (Nat.le_add_right _ _)⟩
  have hlen : c.ackLen epoch env = (Frame.ack env.packetTime env.ackDelay
      (c.pktNumSpaces epoch).recvPktNeedAck).wireLen := by
    rw [conn] at hdue
    exact if_pos ⟨by rw [live]; rfl, hdue⟩
  rw [hlen, conn]
  refine h.tryFrame_when (.ack live) rfl rfl le_rfl fun p b hp => ?_
  refine { hp with
    filling := hp.filling.modifySpace _ fun _ => rfl
    cryptoStream := fun e => ?_ }
  rw [← hp.cryptoStream e, Connection.modifySpace]
  rcases eq_or_ne e epoch with rfl | hne
  · simp only [Epoch.update_same]
  · simp only [Epoch.update_of_ne hne]

private theorem writeReset_spends {id : ℕ} (canceled : id ∈ c.streams.canceled)
    (h : SpendsEarly c epoch room b p) :
    (writeReset id).Ends p (fun _ => SpendsEarly c epoch room (b + 19)) noUnderflow := by
  have hmark := h.setStreams (m := p.conn.streams.markCanceled id false)
    (fun _ s hs => ⟨s, hs, rfl⟩) (fun hdue => hdue) (fun hdue => hdue) rfl
  rw [writeReset, Program.ends_bind, Program.ends_get, modifyStreams, Packing.modifyConn,
    Program.ends_bind, Program.ends_modify]
  cases p.conn.streams.streams id with
  | none => exact hmark.mono (Nat.le_add_right _ _)
  | some s =>
    have hlen : (Frame.resetStream id 1 s.send.blockSize).wireLen ≤ 19 := by
      have := varintLen_le id
      have := varintLen_le s.send.blockSize
      simp only [Frame.wireLen]
      omega
    refine (hmark.toSpends.tryFrame (.resetStream canceled) rfl rfl hlen).mono
      (fun _ p' hp' => hmark.of_spends hp'.1 hp'.2) fun _ _ hp' => hp'

private theorem writeHandshakeDone_spends (short : epoch = .application)
    (live : c.isClosing = false)
    (hroom : c.handshakeDoneDue → b + 1 ≤ room) (h : SpendsEarly c epoch room b p) :
    writeHandshakeDone.Ends p (fun _ => SpendsEarly c epoch room (b + 1)) noUnderflow := by
  rw [writeHandshakeDone, Program.ends_bind, Program.ends_get, Program.ends_ite]
  refine ⟨fun hdue => ?_, fun _ => h.mono (Nat.le_add_right _ _)⟩
  have due := h.filling.handshakeDoneDue hdue
  refine (h.toSpends.addFrame (.handshakeDone short live due) rfl rfl le_rfl
    (h.toSpends.le_left (hroom due))).bind fun _ p' hp' => ?_
  have h' := h.of_spends hp'.1 hp'.2
  exact { h' with
    filling := h'.filling.modifyConn rfl rfl rfl rfl rfl rfl rfl (fun _ => rfl) (.inr rfl) fun _ =>
      rfl }

private theorem writeMaxStreamsBidi_spends (short : epoch = .application)
    (hroom : c.streams.shouldUpdateMaxStreamsBidi → b + 9 ≤ room)
    (h : SpendsEarly c epoch room b p) :
    writeMaxStreamsBidi.Ends p (fun _ => SpendsEarly c epoch room (b + 9)) noUnderflow := by
  rw [writeMaxStreamsBidi, Program.ends_bind, Program.ends_get, Program.ends_ite]
  refine ⟨fun hdue => ?_, fun _ => h.mono (Nat.le_add_right _ _)⟩
  have hset := h.setStreams
    (m := { p.conn.streams with localMaxStreamsBidi := p.conn.streams.localMaxStreamsBidiNext })
    (fun _ s hs => ⟨s, hs, rfl⟩) (fun _ => hdue) id rfl
  have hlen : (Frame.maxStreamsBidi p.conn.streams.localMaxStreamsBidiNext).wireLen ≤ 9 := by
    have := varintLen_le p.conn.streams.localMaxStreamsBidiNext
    simp only [Frame.wireLen]
    omega
  have hfits := hlen.trans (h.toSpends.le_left (hroom (h.bidi hdue)))
  rw [modifyStreams, Packing.modifyConn, Program.ends_bind, Program.ends_modify]
  exact (hset.toSpends.addFrame (.maxStreamsBidi short) rfl rfl hlen hfits).mono
    (fun _ p' hp' => hset.of_spends hp'.1 hp'.2) fun _ _ hp' => hp'

private theorem writeMaxStreamsUni_spends (short : epoch = .application)
    (hroom : c.streams.shouldUpdateMaxStreamsUni → b + 9 ≤ room)
    (h : SpendsEarly c epoch room b p) :
    writeMaxStreamsUni.Ends p (fun _ => SpendsEarly c epoch room (b + 9)) noUnderflow := by
  rw [writeMaxStreamsUni, Program.ends_bind, Program.ends_get, Program.ends_ite]
  refine ⟨fun hdue => ?_, fun _ => h.mono (Nat.le_add_right _ _)⟩
  have hset := h.setStreams
    (m := { p.conn.streams with localMaxStreamsUni := p.conn.streams.localMaxStreamsUniNext })
    (fun _ s hs => ⟨s, hs, rfl⟩) id (fun _ => hdue) rfl
  have hlen : (Frame.maxStreamsUni p.conn.streams.localMaxStreamsUniNext).wireLen ≤ 9 := by
    have := varintLen_le p.conn.streams.localMaxStreamsUniNext
    simp only [Frame.wireLen]
    omega
  have hfits := hlen.trans (h.toSpends.le_left (hroom (h.uni hdue)))
  rw [modifyStreams, Packing.modifyConn, Program.ends_bind, Program.ends_modify]
  exact (hset.toSpends.addFrame (.maxStreamsUni short) rfl rfl hlen hfits).mono
    (fun _ p' hp' => hset.of_spends hp'.1 hp'.2) fun _ _ hp' => hp'

private theorem writeMaxData_spends (short : epoch = .application)
    (h : SpendsEarly c epoch room b p) :
    writeMaxData.Ends p (fun _ => SpendsEarly c epoch room (b + 9)) noUnderflow := by
  rw [writeMaxData, Program.ends_bind, Program.ends_get, Program.ends_ite]
  refine ⟨fun _ => ?_, fun _ => h.mono (Nat.le_add_right _ _)⟩
  have hlen : (Frame.maxData p.conn.maxRxDataNext).wireLen ≤ 9 := by
    have := varintLen_le p.conn.maxRxDataNext
    simp only [Frame.wireLen]
    omega
  refine h.tryFrame_when (.maxData short) rfl rfl hlen fun p b hp => ?_
  exact { hp with
    filling := hp.filling.modifyConn rfl rfl rfl rfl rfl rfl rfl id (.inr rfl) fun _ => rfl }

private theorem writeMaxStreamData_spends (short : epoch = .application) {id : ℕ}
    (h : SpendsEarly c epoch room b p) :
    (writeMaxStreamData id).Ends p (fun _ => SpendsEarly c epoch room (b + 17)) noUnderflow := by
  rw [writeMaxStreamData, Program.ends_bind, Program.ends_get]
  cases hs : p.conn.streams.streams id with
  | none =>
    have hmark := h.setStreams (m := p.conn.streams.markAlmostFull id false)
      (fun _ s hs => ⟨s, hs, rfl⟩) (fun hdue => hdue) (fun hdue => hdue) rfl
    exact hmark.mono (Nat.le_add_right _ _)
  | some s =>
    have hmark := h.setStreams
      (m := (p.conn.streams.putRecv id s s.recv.updateMaxData.2).markAlmostFull id false)
      (fun i s' hs' => ?_) (fun hdue => hdue) (fun hdue => hdue) rfl
    · simp only [modifyStreams, Packing.modifyConn, Program.ends_bind, Program.ends_modify]
      have hlen : (Frame.maxStreamData id s.recv.updateMaxData.1).wireLen ≤ 17 := by
        have := varintLen_le id
        have := varintLen_le s.recv.updateMaxData.1
        simp only [Frame.wireLen]
        omega
      exact (hmark.toSpends.tryFrame (.maxStreamData short) rfl rfl hlen).mono
        (fun _ p' hp' => hmark.of_spends hp'.1 hp'.2) fun _ _ hp' => hp'
    · change (if i = id then some _ else p.conn.streams.streams i) = some s' at hs'
      split_ifs at hs' with hi
      · cases hs'
        exact ⟨s, hi ▸ hs, rfl⟩
      · exact ⟨s', hs', rfl⟩

private theorem writeConnectionClose_spends (h : SpendsEarly c epoch room b p) :
    writeConnectionClose.Ends p
      (fun _ => SpendsEarly c epoch room (b + if c.error.isSome then 11 else 0)) noUnderflow := by
  rw [writeConnectionClose, Program.ends_bind, Program.ends_get, ← h.filling.error]
  cases herr : p.conn.error with
  | none => exact h
  | some err =>
    have hlen : (Frame.connectionClose err 0 []).wireLen ≤ 11 := by
      have := varintLen_le err
      have hzero : varintLen 0 = 1 := rfl
      simp only [Frame.wireLen, List.length_nil, hzero]
      omega
    have writes : c.Writes epoch (.connectionClose err 0 []) :=
      .connectionClose (h.filling.error ▸ herr)
    refine h.tryFrame_when writes rfl rfl hlen fun p b hp => ?_
    exact { hp with
      filling := hp.filling.modifyConn rfl rfl rfl rfl rfl rfl rfl id (.inl rfl) fun _ => rfl }

private theorem writeApplicationClose_spends {n : ℕ}
    (hroom : ∀ err, epoch = .application → c.appError = some err →
      (Frame.applicationClose err c.appReason).wireLen ≤ n ∧ b + n ≤ room)
    (h : SpendsEarly c epoch room b p) :
    (writeApplicationClose epoch).Ends p (fun _ => SpendsEarly c epoch room (b + n))
      noUnderflow := by
  rw [writeApplicationClose, Program.ends_bind, Program.ends_get]
  dsimp only
  cases herr : p.conn.appError with
  | none => exact h.mono (Nat.le_add_right _ _)
  | some err =>
    refine Program.ends_ite.mpr ⟨fun hshort => ?_, fun _ => h.mono (Nat.le_add_right _ _)⟩
    have short : epoch = .application := by
      cases epoch <;> first | rfl | cases hshort
    have happ := h.filling.appError ▸ herr
    obtain ⟨hlen, hfits⟩ := hroom err short happ
    rw [h.filling.appReason]
    refine (h.toSpends.addFrame (.applicationClose short happ) rfl rfl hlen
      (hlen.trans (h.toSpends.le_left hfits))).bind fun _ p' hp' => ?_
    have h' := h.of_spends hp'.1 hp'.2
    exact { h' with
      filling := h'.filling.modifyConn rfl rfl rfl rfl rfl rfl rfl id (.inr rfl) fun _ => rfl }

private theorem writePathResponse_spends (h : SpendsEarly c epoch room b p) :
    writePathResponse.Ends p (fun _ => SpendsEarly c epoch room (b + 9)) noUnderflow := by
  rw [writePathResponse, Program.ends_bind, Program.ends_get]
  cases hdata : p.conn.challenge with
  | none => exact h.mono (Nat.le_add_right _ _)
  | some data =>
    refine Program.ends_ite.mpr ⟨fun hfits => ?_, fun _ => h.mono (Nat.le_add_right _ _)⟩
    have writes : c.Writes epoch (.pathResponse data) :=
      .pathResponse (h.filling.challenge_eq hdata)
    refine (h.toSpends.addFrame writes rfl rfl le_rfl hfits.le).bind fun _ p' hp' => ?_
    have h' := h.of_spends hp'.1 hp'.2
    exact { h' with
      filling := h'.filling.modifyConn rfl rfl rfl rfl rfl rfl rfl id (.inl rfl) fun _ => rfl }

private theorem writeCrypto_spends (live : c.isClosing = false) (hroom : room < 2 ^ 14)
    (hoff : (c.pktNumSpaces epoch).cryptoStream.send.off < 2 ^ 30)
    (hlow : (c.pktNumSpaces epoch).cryptoStream.send.lowOff < 2 ^ 30)
    (h : SpendsEarly c epoch room b p) : (writeCrypto epoch).Ends p
      (fun _ p' => Spends c epoch room (b + c.cryptoLen epoch room) p' ∧
        p'.conn.streams = p.conn.streams) noUnderflow := by
  rw [writeCrypto, Program.ends_bind, Program.ends_get, h.cryptoStream epoch]
  refine Program.ends_ite.mpr ⟨fun hdue => ?_, fun _ =>
    ⟨h.toSpends.mono (Nat.le_add_right _ _), rfl⟩⟩
  have hcrypto : c.cryptoLen epoch room = room := if_pos ⟨by rw [live]; rfl, hdue.1⟩
  have hbalance := h.balance
  obtain ⟨hlen, -, hfrom, -⟩ := SendBuf.pop_bounds (c.pktNumSpaces epoch).cryptoStream.send
    (p.draft.left - maxCryptoOverhead)
  generalize (c.pktNumSpaces epoch).cryptoStream.send.pop (p.draft.left - maxCryptoOverhead) =
    popped
    at hlen hfrom ⊢
  -- the overhead that is tested has room for an offset of four bytes and a length of three
  have hfits : (Frame.crypto popped.1).wireLen ≤ p.draft.left := by
    have hoff4 : varintLen popped.1.off ≤ 4 := varintLen_le_four (by omega)
    have hlen2 : varintLen popped.1.len ≤ 2 := varintLen_le_two (by omega)
    have := hdue.2
    simp only [Frame.wireLen, maxCryptoOverhead] at *
    omega
  rw [hcrypto]
  simp only [Packing.modifyConn, Program.ends_bind, Program.ends_modify]
  have hmodify := h.toSpends.modifyConn (h.filling.modifySpace epoch
    (f := fun s => { s with
      cryptoStream := { (c.pktNumSpaces epoch).cryptoStream with send := popped.2 } })
    fun _ => rfl) rfl h.finished
  refine (hmodify.addFrame (.crypto live) rfl rfl (n := room) (by omega) hfits).mono
    (fun _ p' hp' => ⟨hp'.1, hp'.2 ▸ rfl⟩) fun _ _ hp' => hp'

/-! ### The stream frame -/

theorem requeue_spends (h : Spends c epoch room b p) (id : ℕ) (s : Stream) :
    (requeue id s).Ends p (fun _ => Spends c epoch room b) noUnderflow :=
  Program.ends_ite.mpr ⟨fun _ => h.setStreams h.finished, fun _ => h⟩

private theorem writeBlockInfo_spends (short : epoch = .application) {id : ℕ} {s : Stream}
    (hs : p.conn.streams.streams id = some s) (h : Spends c epoch room b p) :
    (writeBlockInfo id s).Ends p
      (fun s' p' => Spends c epoch room (b + 41) p' ∧
          s'.send.finOff = s.send.finOff) noUnderflow := by
  rw [writeBlockInfo, Program.ends_bind, Program.ends_get]
  refine Program.ends_ite.mpr ⟨fun _ => ?_, fun _ => ⟨h.mono (Nat.le_add_right _ _), rfl⟩⟩
  dsimp only
  generalize ((s.send.startTime - p.conn.bctOffset) % 2 ^ 64).toNat = startTime
  have hlen :
    (Frame.blockInfo id s.send.blockSize s.send.priority s.send.deadline startTime).wireLen
      ≤ 41 := by
    have := varintLen_le id
    have := varintLen_le s.send.blockSize
    have := varintLen_le s.send.priority
    have := varintLen_le s.send.deadline
    have := varintLen_le startTime
    simp only [Frame.wireLen]
    omega
  refine (h.tryFrame (.blockInfo short) rfl rfl hlen).bind fun fits p' hp' => ?_
  refine Program.ends_ite.mpr ⟨fun _ => ⟨hp'.1.put fun f hf => ?_, rfl⟩, fun _ => ⟨hp'.1, rfl⟩⟩
  exact h.finished id s f hs hf

private theorem chooseRedundancy_spends (env : SendEnv) (block : Block) (tail : ℕ)
    (short : epoch = .application) (h : Spends c epoch room b p) :
    (chooseRedundancy env block tail).Ends p
      (fun _ p' => Spends c epoch room b p' ∧ p'.draft.left = p.draft.left) noUnderflow := by
  have hfilling := chooseRedundancy_filling short env block tail p h.filling
  have hrest : (chooseRedundancy env block tail).Ends p (fun _ p' => p'.conn = p.conn ∧
      p'.draft.left = p.draft.left ∧ p'.draft.payloadLen = p.draft.payloadLen) noUnderflow := by
    rw [chooseRedundancy, Program.ends_modify]
    cases p.conn.tailSize with
    | none => exact ⟨rfl, rfl, rfl⟩
    | some threshold =>
      dsimp only
      split_ifs <;> exact ⟨rfl, rfl, rfl⟩
  refine (hfilling.and hrest).mono (fun _ p' hp' => ?_) fun _ _ hp' => hp'.2
  obtain ⟨hfilling, hconn, hleft, hpayload⟩ := hp'
  exact ⟨⟨hfilling, by rw [hleft, hpayload, h.balance], hpayload ▸ h.payloadLen,
    hconn ▸ h.tailSize, hconn ▸ h.finished⟩, hleft⟩

/-- A STREAM frame takes no more than the room for which its data was cut, or than the
overhead that is tested. -/
theorem streamFrame_fits {id size left : ℕ} {s : Stream} (hsize : size ≤ left)
    (hleft : maxStreamOverhead < left)
    (hfin : ∀ f, s.send.finOff = some f → varintLen id + varintLen f ≤ 11)
    (hroom : streamOverhead id s size ≤ size) {data : RangeBuf} {send : SendBuf}
    (hpop : s.send.pop (size - streamOverhead id s size) = (data, send))
    (hdata : ¬ (data.isEmpty && !data.fin) = true) : (Frame.stream id data).wireLen ≤ left := by
  obtain ⟨hlen, hoff, -, hfinal, -⟩ := SendBuf.pop_bounds s.send (size - streamOverhead id s size)
  rw [hpop] at hlen hoff hfinal
  dsimp only at hlen hoff hfinal
  simp only [Frame.wireLen]
  rcases Nat.eq_zero_or_pos data.len with h0 | hpos
  · -- an empty frame carries the FIN flag
    have hfinOff : s.send.finOff = some data.off := by
      have hfinTrue : data.fin = true := by
        simpa [RangeBuf.isEmpty_iff.mpr h0] using hdata
      rw [hfinTrue, eq_comm, beq_iff_eq, RangeBuf.maxOff, h0] at hfinal
      exact hfinal
    have := hfin _ hfinOff
    have hzero : varintLen 0 = 1 := rfl
    rw [h0, hzero]
    simp only [maxStreamOverhead] at hleft
    omega
  · have hmono : varintLen data.len ≤ varintLen size := varintLen_mono (by omega)
    rw [hoff hpos]
    simp only [streamOverhead] at *
    omega

private theorem streamFrame_le {id size : ℕ} {s : Stream} (hroom : streamOverhead id s size ≤ size)
    {data : RangeBuf} {send : SendBuf}
    (hpop : s.send.pop (size - streamOverhead id s size) = (data, send)) :
    (Frame.stream id data).wireLen ≤ max size (varintLen id + 10) := by
  obtain ⟨hlen, hoff, -⟩ := SendBuf.pop_bounds s.send (size - streamOverhead id s size)
  rw [hpop] at hlen hoff
  dsimp only at hlen hoff
  simp only [Frame.wireLen]
  rcases Nat.eq_zero_or_pos data.len with h0 | hpos
  · have := varintLen_le data.off
    have hzero : varintLen 0 = 1 := rfl
    rw [h0, hzero]
    omega
  · have hmono : varintLen data.len ≤ varintLen size := varintLen_mono (by omega)
    rw [hoff hpos]
    simp only [streamOverhead] at *
    omega

theorem sendData_spends (short : epoch = .application) (env : SendEnv) {id : ℕ} (block : Block)
    {s : Stream} {size : ℕ}
    (hfin : ∀ f, s.send.finOff = some f → varintLen id + varintLen f ≤ 11)
    (hsize : size ≤ p.draft.left) (hleft : maxStreamOverhead < p.draft.left)
    (hshard : ∀ group, c.fec = some group →
      p.draft.payloadLen + 1 + varintLen id + 8 * 2 + size ≤ group.shardSize ∧ b < group.shardSize)
    (h : Spends c epoch room b p) : (sendData env id block s size).Ends p
      (fun stop p' => Spends c epoch room (c.dataCap room) p' ∧
        (stop = false → Spends c epoch room b p')) noUnderflow := by
  have hb : ∀ group, c.fec = some group → b < group.shardSize := fun group hfec =>
    (hshard group hfec).2
  refine Program.ends_ite.mpr ⟨fun _ => ⟨h.le_cap hb, fun _ => h⟩, fun hroom => ?_⟩
  rcases hpop : s.send.pop (size - streamOverhead id s size) with ⟨data, send⟩
  have hfinOff : send.finOff = s.send.finOff := by
    have := (SendBuf.pop_bounds s.send (size - streamOverhead id s size)).2.2.2.2
    rwa [hpop] at this
  dsimp only
  rw [modifyStreams, Packing.modifyConn, Program.ends_bind, Program.ends_modify]
  have hput := h.put (s := { s with send := send }) fun f hf => hfin f (hfinOff ▸ hf)
  refine Program.ends_ite.mpr ⟨fun _ => ⟨hput.le_cap hb, fun _ => hput⟩, fun hdata => ?_⟩
  have hfits := streamFrame_fits hsize hleft hfin (not_lt.mp hroom) hpop hdata
  have hle := streamFrame_le (not_lt.mp hroom) hpop
  rw [Packing.modifyConn, Program.ends_bind, Program.ends_modify]
  have htx := (hput.modifyConn (d :=
      let c := p.conn.setStreams (p.conn.streams.put id { s with send := send })
      { c with txData := c.txData + data.len })
    (hput.filling.modifyConn rfl rfl rfl rfl rfl rfl rfl (fun hsent => hsent) (.inr rfl)
      fun _ => rfl) rfl hput.finished).tight
  refine (chooseRedundancy_spends env block send.len short htx).bind fun _ p₁ hp₁ => ?_
  refine (hp₁.1.addFrame (.stream short) rfl rfl le_rfl (hp₁.2 ▸ hfits)).bind fun _ p₂ hp₂ => ?_
  refine (requeue_spends hp₂.1 id _).bind fun _ p₃ hp₃ =>
    ⟨hp₃.le_cap fun group hfec => ?_, fun hstop => Bool.noConfusion hstop⟩
  have := (hshard group hfec).1
  change p.draft.payloadLen + (Frame.stream id data).wireLen < group.shardSize
  omega

private theorem streamTurn_spends (short : epoch = .application) (env : SendEnv) (id : ℕ)
    (hshard : ∀ group, c.fec = some group → b + 66 ≤ group.shardSize)
    (h : Spends c epoch room b p) : (streamTurn env id).Ends p
      (fun stop p' => Spends c epoch room (c.dataCap room) p' ∧
        (stop = false → Spends c epoch room (b + 41) p')) noUnderflow := by
  have hb {n : ℕ} (hn : n < 66) : ∀ group, c.fec = some group → b + n < group.shardSize :=
    fun group hfec => by have := hshard group hfec; omega
  rw [streamTurn, Program.ends_bind, Program.ends_get, Program.ends_bind, Program.ends_unwrap]
  refine ⟨fun block _ => ?_, fun _ => Fault.panic_ne_underflow⟩
  cases hs : p.conn.streams.streams id with
  | none =>
    exact ⟨h.le_cap (hb (n := 0) (by omega)), fun _ => h.mono (Nat.le_add_right _ _)⟩
  | some s =>
    refine (writeBlockInfo_spends short hs h).bind fun s₁ p₁ hp₁ => ?_
    obtain ⟨h₁, hfinOff⟩ := hp₁
    rw [Program.ends_bind, Program.ends_get]
    refine Program.ends_ite.mpr ⟨fun _ => ?_, fun hleft => ?_⟩
    · exact (requeue_spends h₁ id s₁).bind fun _ p₂ h₂ =>
        ⟨h₂.le_cap (hb (by omega)), fun hstop => Bool.noConfusion hstop⟩
    · rw [Program.ends_bind, Program.ends_unwrapSub]
      have hfin (f : ℕ) (hf : s₁.send.finOff = some f) : varintLen id + varintLen f ≤ 11 :=
        h.finished id s f hs (hfinOff ▸ hf)
      unfold streamRoom
      rw [h₁.filling.fec]
      cases hfec : c.fec with
      | none =>
        refine ⟨fun size hroom => ?_, fun hroom => absurd hroom (Option.some_ne_none _)⟩
        cases hroom
        refine sendData_spends short env block hfin (min_le_left _ _) (not_le.mp hleft) ?_ h₁
        rw [hfec]
        rintro _ ⟨⟩
      | some group =>
        -- the shard has room for the header of a STREAM frame
        have hused : ¬ group.shardSize < p₁.draft.payloadLen + 1 + varintLen id + 8 * 2 := by
          have := hshard group hfec
          have := h₁.payloadLen
          have := varintLen_le id
          omega
        simp only [if_neg hused]
        refine ⟨fun size hroom => ?_, fun hroom => absurd hroom (Option.some_ne_none _)⟩
        cases hroom
        refine sendData_spends short env block hfin
          ((min_le_right _ _).trans (min_le_left _ _)) (not_le.mp hleft) (fun group' hfec' => ?_) h₁
        rw [hfec] at hfec'
        cases hfec'
        exact ⟨by omega, hb (by omega) group hfec⟩

private theorem streamStep_spends (short : epoch = .application) (env : SendEnv)
    (hshard : ∀ group, c.fec = some group → b + 66 ≤ group.shardSize)
    (h : Spends c epoch room b p) : (streamStep env).Ends p
      (fun stop p' => Spends c epoch room (c.dataCap room) p' ∧
        (stop = false → Spends c epoch room (b + 41) p')) noUnderflow := by
  rw [streamStep, Program.ends_bind, onStreams, Program.ends_zoom]
  have hpeek := StreamMap.peekFlushable_noUnderflow env.pace p.conn.streams trivial
  refine Program.ends_iff.mpr ⟨fun picked m hm => ?_, fun e m hm => hpeek.error hm⟩
  have hset : Spends c epoch room b { p with conn := p.conn.setStreams m } := by
    refine h.setStreams fun id s f hs hf => ?_
    rcases ((StreamMap.peekFlushable_cancels env.pace p.conn.streams).ok hm).streams id with
      heq | ⟨s₀, hs₀, heq⟩
    · exact h.finished id s f (heq ▸ hs) hf
    · rw [heq] at hs
      cases hs
      exact h.finished id s₀ f hs₀ hf
  cases picked with
  | none =>
    exact ⟨hset.le_cap fun group hfec => by have := hshard group hfec; omega, fun hstop =>
      Bool.noConfusion hstop⟩
  | some id => exact streamTurn_spends short env id hshard hset

private theorem writeStream_spends (short : epoch = .application) (env : SendEnv) {fuel : ℕ}
    (hshard : ∀ group, c.fec = some group → b + 41 * fuel + 25 ≤ group.shardSize)
    (h : Spends c epoch room b p) :
    (writeStream env fuel).Ends p (fun _ => Spends c epoch room (c.dataCap room)) noUnderflow := by
  induction fuel generalizing p b with
  | zero => exact nofun
  | succ fuel ih =>
    refine (streamStep_spends short env (fun group hfec => ?_) h).bind fun stop p' hp' => ?_
    · have := hshard group hfec
      omega
    · refine Program.ends_ite.mpr ⟨fun _ => hp'.1, fun hstop => ?_⟩
      refine ih (fun group hfec => ?_) (hp'.2 (by simpa using hstop))
      have := hshard group hfec
      omega

/-- Without a stream in the queue there is nothing to look for. -/
theorem writePing_spends (live : c.isClosing = false) (h : Spends c epoch room room p) :
    (writePing epoch).Ends p (fun _ p' => Spends c epoch room room p' ∧
      p'.draft.payloadLen ≤ p.draft.payloadLen + 1) noUnderflow := by
  rw [writePing, Program.ends_bind, Program.ends_get]
  refine Program.ends_ite.mpr ⟨fun hdue => ?_, fun _ => ⟨h, Nat.le_succ _⟩⟩
  exact (h.tight.addFrame (.ping live) rfl rfl le_rfl hdue.2.2).mono
    (fun _ p' hp' => ⟨hp'.1.le_room, hp'.1.payloadLen⟩) fun _ _ hp' => hp'

/-! ### The packet -/

/-- Every mark has one turn. -/
theorem inOrder_length (order set : List ℕ) : (inOrder order set).length = set.length := by
  unfold inOrder
  split_ifs with hperm
  · exact hperm.length_eq
  · rfl

private theorem spendsEarly_new
    (hfin : ∀ id s f, c.streams.streams id = some s → s.send.finOff = some f →
    varintLen id + varintLen f ≤ 11) : SpendsEarly c epoch room 0 ⟨c, .new room⟩ where
  filling := filling_new _ c room
  balance := rfl
  payloadLen := le_rfl
  tailSize := rfl
  finished := hfin
  bidi := id
  uni := id
  flushable := rfl
  cryptoStream _ := rfl

/-- The frames that announce new limits. -/
theorem writeLimits_spends (short : epoch = .application) (live : c.isClosing = false)
    (env : SendEnv)
    (hroom : c.handshakeDoneDue ∨ c.streams.shouldUpdateMaxStreamsBidi ∨
      c.streams.shouldUpdateMaxStreamsUni → b + 19 ≤ room) (h : SpendsEarly c epoch room b p) :
    (do
      writeHandshakeDone
      writeMaxStreamsBidi
      writeMaxStreamsUni
      writeMaxData
      Program.forWhile writeMaxStreamData (inOrder env.almostFullOrder c.streams.almostFull)).Ends p
      (fun _ => SpendsEarly c epoch room (b + (28 + 17 * c.streams.almostFull.length)))
      noUnderflow := by
  refine (writeHandshakeDone_spends short live (fun due => ?_) h).bind fun _ p₁ h₁ => ?_
  · have := hroom (.inl due)
    omega
  refine (writeMaxStreamsBidi_spends short (fun due => ?_) h₁).bind fun _ p₂ h₂ => ?_
  · have := hroom (.inr (.inl due))
    omega
  refine (writeMaxStreamsUni_spends short (fun due => ?_) h₂).bind fun _ p₃ h₃ => ?_
  · have := hroom (.inr (.inr due))
    omega
  refine (writeMaxData_spends short h₃).bind fun _ p₄ h₄ => ?_
  have hloop := SpendsEarly.forWhile
    (l := inOrder env.almostFullOrder c.streams.almostFull) (f := writeMaxStreamData)
    (fun _ _ p b h => writeMaxStreamData_spends short h) h₄
  rw [inOrder_length] at hloop
  exact hloop.mono (fun _ _ h₅ => h₅.mono (by omega)) fun _ _ h₅ => h₅

theorem writeFrames_spends (hroom : room < 2 ^ 14) (env : SendEnv)
    (hfits : c.FitsFrames epoch room env) : (writeFrames epoch env).Ends ⟨c, .new room⟩
      (fun _ p => Spends c epoch room room p ∧
        (p.draft.payloadLen ≤ c.controlLen epoch room env + 1 ∨
          epoch = .application ∧ p.draft.payloadLen ≤ c.dataCap room + 1)) noUnderflow := by
  have hlive (hclosing : (!c.isClosing) = true) : c.isClosing = false := by simpa using hclosing
  have hnew : SpendsEarly c epoch room 0 ⟨c, .new room⟩ := spendsEarly_new hfits.finished
  rw [writeFrames, Program.ends_bind, Program.ends_get]
  dsimp only
  -- ACK and RESET_STREAM
  have hack : (Program.when (!c.isClosing) (writeAck epoch env)).Ends ⟨c, .new room⟩
      (fun _ => SpendsEarly c epoch room (c.ackLen epoch env)) noUnderflow :=
    .when (fun hc => by simpa using writeAck_spends hnew rfl (hlive hc) env)
      fun _ => hnew.mono (Nat.zero_le _)
  refine hack.bind fun _ p₁ h₁ => ?_
  refine (SpendsEarly.forWhile (fun id hid p b h => writeReset_spends (mem_inOrder hid) h) h₁).bind
    fun _ p₂ h₂ => ?_
  rw [inOrder_length] at h₂
  -- the new limits
  let limits := if epoch = .application ∧
    !c.isClosing then 28 + 17 * c.streams.almostFull.length else 0
  refine Program.Ends.bind (R := fun _ => SpendsEarly c epoch room
    (c.ackLen epoch env + 19 * c.streams.canceled.length + limits)) (.when (fun hc => ?_) fun _ =>
      h₂.mono (Nat.le_add_right _ _)) fun _ p₃ h₃ => ?_
  · rw [Bool.and_eq_true] at hc
    have short := eq_application hc.1
    have hlimits : limits = 28 + 17 * c.streams.almostFull.length := if_pos ⟨short, hc.2⟩
    rw [hlimits]
    exact writeLimits_spends short (hlive hc.2) env (hfits.untested short (hlive hc.2)) h₂
  -- the frames that end the connection
  have hclosing (err : ℕ) (happ : c.appError = some err) : c.ackLen epoch env = 0 ∧ limits = 0 := by
    have : c.isClosing = true := by simp [Connection.isClosing, happ]
    simp [limits, Connection.ackLen, this]
  refine (writeConnectionClose_spends h₃).bind fun _ p₄ h₄ => ?_
  have hclose : (writeApplicationClose epoch).Ends p₄ (fun _ => SpendsEarly c epoch room
      (c.ackLen epoch env + 19 * c.streams.canceled.length + limits + c.closeLen epoch))
      noUnderflow := by
    rw [Connection.closeLen, ← Nat.add_assoc]
    refine writeApplicationClose_spends (fun err hepoch herr => ?_) h₄
    have := hfits.appClose err hepoch herr
    obtain ⟨hack, hlimits⟩ := hclosing err herr
    rw [herr]
    dsimp only
    rw [if_pos hepoch]
    exact ⟨le_rfl, by omega⟩
  refine hclose.bind fun _ p₅ h₅ => (writePathResponse_spends h₅).bind fun _ p₆ h₆ => ?_
  -- the data
  refine Program.Ends.bind (R := fun _ p => Spends c epoch room (c.controlLen epoch room env) p ∧
    p.conn.streams = p₆.conn.streams) (.when (fun hc => ?_) fun _ => ?_) fun _ p₇ h₇ => ?_
  · have hoff := hfits.crypto (hlive hc)
    exact writeCrypto_spends (hlive hc) hroom hoff.1 hoff.2 h₆
  · exact ⟨h₆.toSpends.mono (Nat.le_add_right _ _), rfl⟩
  -- the blocks of the streams, and PING at the end
  rw [Program.ends_bind, Program.ends_get]
  have hflushable : p₇.conn.streams.flushable = c.streams.flushable := by rw [h₇.2, h₆.flushable]
  refine Program.Ends.bind (R := fun _ p => Spends c epoch room room p ∧
    (p.draft.payloadLen ≤ c.controlLen epoch room env ∨
      epoch = .application ∧ p.draft.payloadLen ≤ c.dataCap room)) (.when (fun hc => ?_)
        fun _ => ⟨h₇.1.le_room, .inl h₇.1.payloadLen⟩) fun _ p₈ h₈ => ?_
  · rw [Bool.and_eq_true, Bool.and_eq_true] at hc
    have short := eq_application hc.1.1
    cases hflush : c.streams.hasFlushable with
    | true =>
      refine (writeStream_spends short env (fun group hfec => ?_) h₇.1).mono
        (fun _ _ h => ⟨h.mono (c.dataCap_le room), .inr ⟨short, h.payloadLen⟩⟩) fun _ _ h => h
      rw [hflushable]
      exact hfits.shard group short (hlive hc.2) hflush hfec
    | false =>
      rw [Program.Ends,
        writeStream_idle env (by simpa [StreamMap.hasFlushable, hflushable] using hflush)]
      exact ⟨h₇.1.le_room, .inl h₇.1.payloadLen⟩
  refine .when (fun hc => ?_) fun _ => ⟨h₈.1, h₈.2.imp (fun h => h.trans (Nat.le_succ _))
    (And.imp_right fun h => h.trans (Nat.le_succ _))⟩
  refine (writePing_spends (hlive hc) h₈.1).mono (fun _ p₉ h₉ => ⟨h₉.1, ?_⟩) fun _ _ h => h
  have := h₉.2
  exact h₈.2.imp (fun h => by omega) (And.imp_right fun h => by omega)

/-- A packet that is filled, and not padded yet. -/
structure Loaded (c : Connection) (epoch : Epoch) (room : ℕ) (env : SendEnv) (p : Packing) :
    Prop where
  balance : p.draft.left + p.draft.payloadLen = room
  load : epoch ≠ .application → p.draft.payloadLen ≤ c.loadLen epoch room env
  isServer : p.conn.isServer = c.isServer
  minPayload : c.FitsPadding epoch room env → p.minPayload epoch ≤ room

/-- A packet is padded to a length that fits. -/
theorem minPayload_le (fec : p.conn.fec = c.fec)
    (group : p.draft.m ≠ 0 → p.draft.n ≠ 0 →
      c.fecEncoded = [] ∧ ∃ block tail, c.StartsGroup room env block tail)
    (hfits : c.FitsPadding epoch room env) : p.minPayload epoch ≤ room := by
  have hpadded := hfits.padded
  have hshort : PacketType.fromEpoch epoch = .short ↔ epoch = .application := by
    cases epoch <;> decide
  unfold Connection.paddedLen at hpadded
  unfold minPayload
  rw [fec]
  simp only [hshort]
  by_cases happ : epoch = .application
  · rw [if_pos happ] at hpadded ⊢
    cases hfec : c.fec with
    | some g =>
      rw [hfec] at hpadded
      exact hpadded
    | none =>
      rw [hfec] at hpadded
      dsimp only
      split_ifs with hmn
      · obtain ⟨hencoded, block, tail, hstarts⟩ := group hmn.1 hmn.2
        exact hfits.group happ hencoded block tail hstarts
      · exact hpadded
  · rw [if_neg happ] at hpadded ⊢
    exact hpadded

private theorem fillPacket_loads (hroom : room < 2 ^ 14) (env : SendEnv)
    (hfits : c.fecEncoded = [] → c.FitsFrames epoch room env) :
    (fillPacket epoch env).Ends ⟨c, .new room⟩
      (fun _ => Loaded c epoch room env) noUnderflow := by
  rw [fillPacket, Program.ends_bind, Program.ends_get]
  dsimp only
  cases hfec : c.fecEncoded with
  | nil =>
    refine ((writeFrames_spends hroom env (hfits hfec)).and (writeFrames_chosen epoch env)).mono
      (fun _ p hp => ?_) fun _ _ h => h.1
    obtain ⟨hp, hchosen⟩ := hp
    refine ⟨hp.1.balance, fun hne => ?_, hp.1.filling.isServer, minPayload_le hp.1.filling.fec ?_⟩
    · simp only [Connection.loadLen, hfec]
      exact hp.2.resolve_right fun h => hne h.1
    · intro hm hn
      obtain ⟨block, tail, hstarts, -⟩ := (hchosen.resolve_left hm).resolve_left hn
      exact ⟨hfec, block, tail, hstarts⟩
  | cons head rest =>
    obtain ⟨info, len⟩ := head
    refine Program.ends_ite.mpr ⟨fun hlen => ?_, fun _ => Fault.error_ne_underflow _⟩
    rw [modifyConn, Program.ends_bind, Program.ends_modify, addFrame, Program.ends_bind,
      Program.ends_bind, Program.ends_get, Program.ends_ite, Program.ends_ite]
    refine ⟨fun _ => Fault.panic_ne_underflow, fun _ => ⟨fun _ => ?_, fun hnot => absurd hlen hnot⟩⟩
    refine ⟨?_, fun _ => ?_, rfl, minPayload_le rfl (absurd rfl)⟩
    · exact (Nat.add_comm _ _).trans
        (by simpa [Frame.wireLen, Draft.new] using Nat.add_sub_cancel' hlen)
    · simp [Connection.loadLen, hfec, Frame.wireLen, Draft.new]

private theorem countProbe_loads (h : Loaded c epoch room env p) :
    (countProbe epoch).Ends p (fun _ => Loaded c epoch room env) noUnderflow := by
  rw [countProbe, Program.ends_bind, Program.ends_get]
  exact Program.ends_ite.mpr ⟨fun _ => { h with }, fun _ => h⟩

/-- Padding brings the packet to a length that it may have. -/
theorem pad_fits {pnLen : ℕ} (hinitial : c.isServer = false → epoch = .initial →
      pnLen + min room (c.loadLen epoch room env) + tagLen ≤ minClientInitialLen)
    (hpadding : c.FitsPadding epoch room env) (h : Loaded c epoch room env p) :
    (do padInitial epoch pnLen; padPayload epoch : Program Error Packing Unit).Ends p
      (fun _ p' => p'.draft.payloadLen ≤ room) noUnderflow := by
  have hbalance := h.balance
  have hpad : (padInitial epoch pnLen).Ends p
      (fun _ p' => p'.draft.payloadLen ≤ room ∧ p'.minPayload epoch = p.minPayload epoch)
      noUnderflow := by
    rw [padInitial, Program.ends_bind, Program.ends_get]
    refine Program.ends_ite.mpr ⟨fun hc => ?_, fun _ => ⟨by omega, rfl⟩⟩
    have hepoch : epoch = .initial := by
      have := hc.2
      cases epoch <;> first | rfl | cases this
    have hserver : c.isServer = false := by simpa [h.isServer] using hc.1
    have hmin := hinitial hserver hepoch
    have hload := h.load (by simp [hepoch])
    refine Program.ends_ite.mpr ⟨fun hlong => ?_, fun _ => ⟨?_, rfl⟩⟩
    · omega
    · dsimp only
      omega
  refine hpad.bind fun _ p₁ hp₁ => ?_
  rw [padPayload, Program.ends_bind, Program.ends_get]
  refine Program.ends_ite.mpr ⟨fun hshort => ?_, fun _ => hp₁.1⟩
  have := h.minPayload hpadding
  rw [hp₁.2] at hshort ⊢
  change p₁.draft.payloadLen + (p.minPayload epoch - p₁.draft.payloadLen) ≤ room
  omega

/-- A packet with at most `room` bytes of payload takes no more than was set aside. -/
theorem sealPacket_fits {headerLen pnLen avail : ℕ} (hpayload : p.draft.payloadLen ≤ room)
    (hlong : epoch ≠ .application → pnLen + room + tagLen < 2 ^ 14) :
    (sealPacket epoch headerLen pnLen avail).Ends p
      (fun written _ => written ≤ avail ∧ written ≤
        headerLen + pnLen + tagLen + (if PacketType.fromEpoch epoch = .short then 0 else 2) + room)
      noUnderflow := by
  have hfaults : (sealPacket epoch headerLen pnLen avail).Ends p (fun _ _ => True) noUnderflow := by
    rw [sealPacket, Program.ends_bind, Program.ends_get]
    refine Program.ends_ite.mpr ⟨fun _ => Fault.error_ne_underflow _, fun _ => ?_⟩
    refine Program.Ends.bind (R := fun _ _ => True) (.when (fun _ => ?_) fun _ => trivial)
      fun _ p₁ _ => ?_
    · rw [joinFecGroup, Program.ends_bind, Program.ends_get, Program.ends_ite]
      exact ⟨fun _ => Fault.panic_ne_underflow, fun _ => trivial⟩
    · refine Program.ends_ite.mpr ⟨fun _ => Fault.error_ne_underflow _, fun _ => ?_⟩
      exact Program.ends_ite.mpr ⟨fun _ => Fault.error_ne_underflow _, fun _ => trivial⟩
  refine ((sealPacket_ends p).and hfaults).mono (fun written p' h => ⟨h.1.written_le, ?_⟩)
    fun _ _ h => h.2
  rw [h.1.written_eq, payloadOffset]
  by_cases hshort : PacketType.fromEpoch epoch = .short
  · rw [if_pos hshort, if_pos hshort]
    omega
  · rw [if_neg hshort, if_neg hshort]
    have hepoch : epoch ≠ .application := by
      rintro rfl
      exact hshort rfl
    have := varintLen_le_two (v := pnLen + p.draft.payloadLen + tagLen)
      (by have := hlong hepoch; omega)
    omega

private theorem recordSent_noUnderflow (written : ℕ) (env : SendEnv) :
    Program.Maintains (fun _ => True) noUnderflow (recordSent epoch written env) := by
  refine Program.maintains_get_bind fun p _ => ?_
  simp only [modifyConn, Program.ends_bind, Program.ends_modify, Program.ends_ite,
    Program.ends_pure]
  exact ⟨fun _ => trivial, fun _ => trivial⟩

/-- A packet that fits takes no more room than there is. -/
theorem packet_fits {headerLen pnLen avail : ℕ} (hroom : room < 2 ^ 14)
    (hlong : epoch ≠ .application → pnLen + room + tagLen < 2 ^ 14)
    (hfits : c.FitsBudget epoch pnLen room env) :
    (packet epoch headerLen pnLen avail env).Ends ⟨c, .new room⟩
      (fun written _ => written ≤ avail ∧ written ≤
        headerLen + pnLen + tagLen + (if PacketType.fromEpoch epoch = .short then 0 else 2) + room)
      noUnderflow := by
  refine (fillPacket_loads hroom env hfits.frames).bind fun _ p₁ h₁ => ?_
  refine (countProbe_loads h₁).bind fun _ p₂ h₂ => ?_
  rw [Program.ends_bind, Program.ends_get]
  refine Program.ends_ite.mpr ⟨fun _ => nofun, fun _ => ?_⟩
  have hpad := pad_fits hfits.initial hfits.padding h₂
  rw [Program.ends_bind] at hpad ⊢
  refine hpad.mono (fun _ p₃ h₃ => ?_) fun _ _ h => h
  refine h₃.bind fun _ p₄ h₄ => ?_
  refine (sealPacket_fits h₄ hlong).bind fun written p₅ h₅ => ?_
  exact Program.Ends.bind (recordSent_noUnderflow written env p₅ trivial) fun _ _ _ => h₅

end Spend

end Packing

namespace Connection

/-- The packet that is written next fits where `send` does not test it. -/
def Fits (outLen : ℕ) (env : SendEnv) (c : Connection) : Prop :=
  ∀ c₀ epoch pnLen c₁, c.Prepares outLen env c₀ epoch pnLen c₁ →
    c₁.FitsBudget epoch pnLen (c₁.frameRoom epoch pnLen (c₀.packetCap outLen) env) env

/-- No subtraction goes below zero, and no packet is longer than it may be. A peer that
has announced its parameters accepts packets of 1200 bytes. -/
structure WithinBudget (outLen : ℕ) (env : SendEnv) (c : Connection) : Prop where
  noUnderflow : ∀ c', send outLen env c ≠ .error .underflow c'
  buffer : ∀ written c', send outLen env c = .ok written c' → written ≤ outLen
  maxPacketSize : ∀ written c', send outLen env c = .ok written c' →
    ∃ c₀, Program.when (!c.isClosing) (doHandshake env.handshake) c = .ok () c₀ ∧
      (1200 ≤ c₀.peerTransportParams.maxPacketSize → written ≤ c₀.peerTransportParams.maxPacketSize)
  cwnd : (∀ e, c.recovery.lossProbes e = 0) → ∀ written c', send outLen env c = .ok written c' →
    written ≤ env.cwnd
  maxSendBytes : c.isServer = true → c.verifiedPeerAddress = false →
    ∀ written c', send outLen env c = .ok written c' → written ≤ c.maxSendBytes

section Room

variable {outLen : ℕ} {env : SendEnv} {c c₀ c₁ : Connection} {epoch : Epoch} {pnLen : ℕ}

/-- The room is what is available at most. -/
theorem packetRoom_le (c : Connection) (epoch : Epoch) (avail : ℕ) (env : SendEnv) :
    c.packetRoom epoch avail env ≤ avail := by
  unfold packetRoom
  dsimp only
  split_ifs <;> omega

private theorem packetRoom_le_cwnd (hprobes : ∀ e, c.recovery.lossProbes e = 0) (epoch : Epoch)
    (avail : ℕ)
    (env : SendEnv) : c.packetRoom epoch avail env ≤ env.cwnd := by
  simp only [packetRoom, hprobes, lt_self_iff_false, or_self, false_and, if_false]
  split_ifs <;> omega

/-- Before the peer is verified, the room is the budget at most. -/
theorem packetRoom_le_maxSendBytes (hserver : c.isServer = true)
    (hverified : c.verifiedPeerAddress = false) (epoch : Epoch) (avail : ℕ) (env : SendEnv) :
    c.packetRoom epoch avail env ≤ c.maxSendBytes := by
  unfold packetRoom
  rw [hserver, hverified]
  exact min_le_right _ _

/-- The room is that of a datagram at most. -/
theorem packetRoom_lt (c c₀ : Connection) (epoch : Epoch) (outLen : ℕ) (env : SendEnv) :
    c.packetRoom epoch (c₀.packetCap outLen) env < 2 ^ 14 := by
  have := packetRoom_le c epoch (c₀.packetCap outLen) env
  have hcap : c₀.packetCap outLen ≤ 16383 := by
    unfold packetCap
    split_ifs <;> omega
  omega

/-- A packet that fits takes no more than the room that `send` finds. -/
theorem Prepares.sendPacket_fits (h : c.Prepares outLen env c₀ epoch pnLen c₁)
    (hfits : c₁.FitsBudget epoch pnLen (c₁.frameRoom epoch pnLen (c₀.packetCap outLen) env) env) :
    (sendPacket outLen env c₀ epoch pnLen).Ends c₁
      (fun written _ => written ≤ c₁.packetRoom epoch (c₀.packetCap outLen) env)
      fun e _ => e ≠ .underflow := by
  have hoverhead := h.overhead
  have hroom := packetRoom_lt c₁ c₀ epoch outLen env
  rw [sendPacket, Program.ends_bind, Program.ends_get, Program.ends_zoom]
  refine (Packing.packet_fits ?_ (fun hepoch => ?_) hfits).mono (fun written _ hwritten => ?_)
    fun _ _ he => he
  · unfold frameRoom
    omega
  · unfold frameRoom
    simp only [packetOverhead] at *
    omega
  · have := hwritten.2
    unfold frameRoom at this
    simp only [packetOverhead] at *
    omega

end Room

/-- A client that owes an acknowledgement and gives a long reason for closing. -/
def closingLate : Option Connection :=
  Sample.client (.basic {}) [Sample.recv 0 [.ping] 1, .close true 1 (List.replicate 20 0)]

/-- A client that owes an acknowledgement and has no streams. -/
def acking : Connection :=
  { Connection.new (Sample.config (.basic {})) false false 0 with
    isEstablished := true
    peerTransportParams := Sample.params
    pktNumSpaces := fun _ =>
      { PktNumSpace.new 0 with
        cryptoOpen := true, cryptoSeal := true, ackElicited := true
        recvPktNeedAck := Sample.range 0 1 } }

end Connection

end Dtp
