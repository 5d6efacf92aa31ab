import Dtp.SendBlocks
import Dtp.SendEffects

/-!
# What `send` puts into a packet

`send` fills a packet frame by frame. Each kind of frame has its own gate, a condition on
the connection, and `send` notes beside each frame whether the peer must acknowledge it.
Here the frames of a finished packet are collected with their gates, and what `send`
notes about the packet is read off its frames.

## Main definitions

* `Connection.Writes` — the frames that the gates of a connection let into a packet
* `Draft.Accounts` — what is noted about a packet agrees with its frames
* `Connection.Prepares` — what `send` does before it fills a packet
* `Connection.Sends` — `send` returns, and remembers a packet

## Main results

* `Connection.Sends.packed` — the packets that `send` remembers
-/

namespace Dtp

open Lib (Program)

namespace Frame

/-- Whether `send` notes that the peer must acknowledge the frame. -/
def flagged : Frame → Bool
  | .padding _ | .ack _ _ _ | .handshakeDone => false
  | _ => true

/-- The number of bytes that are padding. -/
def paddingLen : Frame → ℕ
  | .padding len => len
  | _ => 0

/-- The frame is padding. -/
def isPadding : Frame → Bool
  | .padding _ => true
  | _ => false

end Frame

/-- A HANDSHAKE_DONE frame is due. -/
def Connection.handshakeDoneDue (c : Connection) : Bool :=
  c.isEstablished && !c.handshakeDoneSent && c.isServer
    && decide (protocolVersionDraft25 ≤ c.version)

/-- The frames that may be written in an epoch, each with its gate. -/
inductive Connection.Writes (c : Connection) (epoch : Epoch) : Frame → Prop
  | ack {packetTime ackDelay : ℕ} {ranges : RangeSet} (live : c.isClosing = false) :
      Writes c epoch (.ack packetTime ackDelay ranges)
  | resetStream {id size : ℕ} (canceled : id ∈ c.streams.canceled) :
      Writes c epoch (.resetStream id 1 size)
  | handshakeDone (short : epoch = .application) (live : c.isClosing = false)
      (due : c.handshakeDoneDue) : Writes c epoch .handshakeDone
  | maxStreamsBidi {max : ℕ} (short : epoch = .application) : Writes c epoch (.maxStreamsBidi max)
  | maxStreamsUni {max : ℕ} (short : epoch = .application) : Writes c epoch (.maxStreamsUni max)
  | maxData {max : ℕ} (short : epoch = .application) : Writes c epoch (.maxData max)
  | maxStreamData {id max : ℕ} (short : epoch = .application) :
      Writes c epoch (.maxStreamData id max)
  | connectionClose {err : ℕ} (error : c.error = some err) :
      Writes c epoch (.connectionClose err 0 [])
  | applicationClose {err : ℕ} (short : epoch = .application) (appError : c.appError = some err) :
      Writes c epoch (.applicationClose err c.appReason)
  | pathResponse {data : List UInt8} (challenge : c.challenge = some data) :
      Writes c epoch (.pathResponse data)
  | crypto {data : RangeBuf} (live : c.isClosing = false) : Writes c epoch (.crypto data)
  | blockInfo {id size priority deadline startTime : ℕ} (short : epoch = .application) :
      Writes c epoch (.blockInfo id size priority deadline startTime)
  | stream {id : ℕ} {data : RangeBuf} (short : epoch = .application) :
      Writes c epoch (.stream id data)
  | ping (live : c.isClosing = false) : Writes c epoch .ping
  | padding {len : ℕ} : Writes c epoch (.padding len)

/-- What is noted about a packet, which had `room` bytes for its frames, agrees with its
frames. -/
structure Draft.Accounts (room : ℕ) (d : Draft) : Prop where
  ackEliciting : d.ackEliciting = d.frames.any Frame.flagged
  inFlight : d.inFlight = d.frames.any fun f => f.flagged || f.isPadding
  payloadLen : d.payloadLen = (d.frames.map Frame.wireLen).sum
  left : d.left + d.payloadLen = room + (d.frames.map Frame.paddingLen).sum

namespace Packing

/-- A packet with `room` bytes for frames that have `P`, of a connection that was `c`
before. -/
structure Filling (P : Frame → Prop) (c : Connection) (room : ℕ) (p : Packing) : Prop where
  error : p.conn.error = c.error
  appError : p.conn.appError = c.appError
  appReason : p.conn.appReason = c.appReason
  isServer : p.conn.isServer = c.isServer
  version : p.conn.version = c.version
  isEstablished : p.conn.isEstablished = c.isEstablished
  fec : p.conn.fec = c.fec
  handshakeDoneSent : c.handshakeDoneSent = true → p.conn.handshakeDoneSent = true
  challenge : p.conn.challenge = none ∨ p.conn.challenge = c.challenge
  nextPktNum : ∀ e, (p.conn.pktNumSpaces e).nextPktNum = (c.pktNumSpaces e).nextPktNum
  frames : ∀ f ∈ p.draft.frames, P f
  /-- Only a packet with data of a stream asks for a FEC group. -/
  group : p.draft.m ≠ 0 → ∀ id data, P (.stream id data)
  fecInfo : p.draft.fecInfo = .none ∨ ∃ len, P (.fec p.draft.fecInfo len)
  accounts : p.draft.Accounts room

namespace Filling

variable {P : Frame → Prop} {c : Connection} {room : ℕ} {p : Packing}

/-- The connection changes in nothing that a gate asks for. -/
theorem modifyConn (h : p.Filling P c room) {c' : Connection} (error : c'.error = p.conn.error)
    (appError : c'.appError = p.conn.appError) (appReason : c'.appReason = p.conn.appReason)
    (isServer : c'.isServer = p.conn.isServer) (version : c'.version = p.conn.version)
    (isEstablished : c'.isEstablished = p.conn.isEstablished) (fec : c'.fec = p.conn.fec)
    (handshakeDoneSent : p.conn.handshakeDoneSent = true → c'.handshakeDoneSent = true)
    (challenge : c'.challenge = none ∨ c'.challenge = p.conn.challenge)
    (nextPktNum : ∀ e, (c'.pktNumSpaces e).nextPktNum = (p.conn.pktNumSpaces e).nextPktNum) :
    Filling P c room { p with conn := c' } where
  error := error.trans h.error
  appError := appError.trans h.appError
  appReason := appReason.trans h.appReason
  isServer := isServer.trans h.isServer
  version := version.trans h.version
  isEstablished := isEstablished.trans h.isEstablished
  fec := fec.trans h.fec
  handshakeDoneSent hsent := handshakeDoneSent (h.handshakeDoneSent hsent)
  challenge := challenge.elim .inl fun heq => h.challenge.imp heq.trans heq.trans
  nextPktNum e := (nextPktNum e).trans (h.nextPktNum e)
  frames := h.frames
  group := h.group
  fecInfo := h.fecInfo
  accounts := h.accounts

/-- Streams do not matter. -/
theorem setStreams (h : p.Filling P c room) (m : StreamMap) :
    Filling P c room { p with conn := p.conn.setStreams m } :=
  h.modifyConn rfl rfl rfl rfl rfl rfl rfl id (.inr rfl) fun _ => rfl

/-- Numbers matter, and nothing else of a space. -/
theorem modifySpace (h : p.Filling P c room) (e : Epoch) {f : PktNumSpace → PktNumSpace}
    (hf : ∀ s, (f s).nextPktNum = s.nextPktNum) :
    Filling P c room { p with conn := p.conn.modifySpace e f } := by
  refine h.modifyConn rfl rfl rfl rfl rfl rfl rfl id (.inr rfl) fun e' => ?_
  rw [Connection.modifySpace]
  rcases eq_or_ne e' e with rfl | hne
  · dsimp only
    rw [Epoch.update_same, hf]
  · dsimp only
    rw [Epoch.update_of_ne hne]

/-- The challenge is not forgotten while the packet is filled. -/
theorem challenge_eq (h : p.Filling P c room) {data : List UInt8}
    (hdata : p.conn.challenge = some data) : c.challenge = some data := by
  rcases h.challenge with hnone | heq
  · rw [hnone] at hdata
    cases hdata
  · rw [← heq, hdata]

/-- A HANDSHAKE_DONE frame that is due now was due before. -/
theorem handshakeDoneDue (h : p.Filling P c room)
    (hdue : p.conn.isEstablished ∧ !p.conn.handshakeDoneSent ∧ p.conn.isServer ∧
      protocolVersionDraft25 ≤ p.conn.version) : c.handshakeDoneDue = true := by
  rw [h.isEstablished, h.isServer, h.version] at hdue
  have hsent : c.handshakeDoneSent = false := by
    by_contra hsent
    have := h.handshakeDoneSent (by simpa using hsent)
    simp [this] at hdue
  simp [Connection.handshakeDoneDue, hdue.1, hsent, hdue.2.2.1, hdue.2.2.2]

end Filling

/-- Faults are not looked at. -/
abbrev anyFault : Lib.Fault Error → Packing → Prop := fun _ _ => True

section Fill

variable {P : Frame → Prop} {c : Connection} {epoch : Epoch} {room : ℕ}

theorem addFrame_filling {frame : Frame} {flag : Bool} {p : Packing} (h : p.Filling P c room)
    (writes : P frame) (hflag : flag = frame.flagged) (hpad : frame.isPadding = false) :
    (addFrame frame flag).Ends p (fun _ => Filling P c room) anyFault := by
  have hlen : frame.paddingLen = 0 := by
    cases frame <;> first | rfl | cases hpad
  rw [addFrame, Program.ends_bind, Program.ends_get, Program.ends_ite, Program.ends_ite]
  refine ⟨fun _ => trivial, fun _ => ⟨fun hfits => ?_, fun _ => trivial⟩⟩
  have hleft := h.accounts.left
  refine { h with frames := fun f hf => ?_, accounts := ⟨?_, ?_, ?_, ?_⟩ }
  · rcases List.mem_append.mp hf with hf | hf
    · exact h.frames f hf
    · exact List.mem_singleton.mp hf ▸ writes
  · simp [h.accounts.ackEliciting, hflag]
  · simp [h.accounts.inFlight, hflag, hpad]
  · simp [h.accounts.payloadLen]
  · simp only [List.map_append, List.sum_append, List.map_cons, List.map_nil, List.sum_cons,
      List.sum_nil, hlen]
    omega

theorem tryFrame_filling {frame : Frame} {flag : Bool} {p : Packing} (h : p.Filling P c room)
    (writes : P frame) (hflag : flag = frame.flagged) (hpad : frame.isPadding = false) :
    (tryFrame frame flag).Ends p (fun _ => Filling P c room) anyFault := by
  rw [tryFrame, Program.ends_bind, Program.ends_get, Program.ends_ite, Program.ends_ite]
  refine ⟨fun _ => trivial, fun _ => ⟨fun _ => ?_, fun _ => h⟩⟩
  rw [Program.ends_bind]
  exact addFrame_filling h writes hflag hpad

/-- A frame is tried, and the connection changes if it fits. -/
theorem tryFrame_when_filling {frame : Frame} {flag : Bool} {p : Packing}
    {f : Connection → Connection}
    (h : p.Filling P c room) (writes : P frame) (hflag : flag = frame.flagged)
    (hpad : frame.isPadding = false)
    (hf : ∀ p : Packing, p.Filling P c room → Filling P c room { p with conn := f p.conn }) :
    (do if ← tryFrame frame flag then modifyConn f : Program Error Packing Unit).Ends p
      (fun _ => Filling P c room) anyFault := by
  rw [Program.ends_bind]
  refine (tryFrame_filling h writes hflag hpad).mono (fun fits p' hp' => ?_) fun _ _ _ => trivial
  rw [Program.ends_ite]
  exact ⟨fun _ => hf p' hp', fun _ => hp'⟩

private theorem writeAck_filling (live : c.isClosing = false) (env : SendEnv) :
    Program.Maintains (Filling (c.Writes epoch) c room) anyFault (writeAck epoch env) := by
  refine Program.maintains_get_bind fun p h => Program.ends_ite.mpr ⟨fun _ => ?_, fun _ => h⟩
  exact tryFrame_when_filling h (.ack live) rfl rfl fun p hp => hp.modifySpace _ fun _ => rfl

private theorem writeReset_filling {id : ℕ} (canceled : id ∈ c.streams.canceled) :
    Program.Maintains (Filling (c.Writes epoch) c room) anyFault (writeReset id) := by
  refine Program.maintains_get_bind fun p h => ?_
  rw [modifyStreams, modifyConn, Program.ends_bind, Program.ends_modify]
  cases p.conn.streams.streams id with
  | none => exact h.setStreams _
  | some s => exact tryFrame_filling (h.setStreams _) (.resetStream canceled) rfl rfl

private theorem writeHandshakeDone_filling (short : epoch = .application)
    (live : c.isClosing = false) :
    Program.Maintains (Filling (c.Writes epoch) c room) anyFault writeHandshakeDone := by
  refine Program.maintains_get_bind fun p h => ?_
  refine Program.ends_ite.mpr ⟨fun hdue => ?_, fun _ => h⟩
  have due := h.handshakeDoneDue hdue
  rw [Program.ends_bind]
  refine (addFrame_filling h (.handshakeDone short live due) rfl rfl).mono (fun _ p' hp' => ?_)
    fun _ _ _ => trivial
  exact hp'.modifyConn rfl rfl rfl rfl rfl rfl rfl (fun _ => rfl) (.inr rfl) fun _ => rfl

private theorem writeMaxStreamsBidi_filling (short : epoch = .application) :
    Program.Maintains (Filling (c.Writes epoch) c room) anyFault writeMaxStreamsBidi := by
  refine Program.maintains_get_bind fun p h => Program.ends_ite.mpr ⟨fun _ => ?_, fun _ => h⟩
  rw [modifyStreams, modifyConn, Program.ends_bind, Program.ends_modify]
  exact addFrame_filling (h.setStreams _) (.maxStreamsBidi short) rfl rfl

private theorem writeMaxStreamsUni_filling (short : epoch = .application) :
    Program.Maintains (Filling (c.Writes epoch) c room) anyFault writeMaxStreamsUni := by
  refine Program.maintains_get_bind fun p h => Program.ends_ite.mpr ⟨fun _ => ?_, fun _ => h⟩
  rw [modifyStreams, modifyConn, Program.ends_bind, Program.ends_modify]
  exact addFrame_filling (h.setStreams _) (.maxStreamsUni short) rfl rfl

private theorem writeMaxData_filling (short : epoch = .application) :
    Program.Maintains (Filling (c.Writes epoch) c room) anyFault writeMaxData := by
  refine Program.maintains_get_bind fun p h => Program.ends_ite.mpr ⟨fun _ => ?_, fun _ => h⟩
  refine tryFrame_when_filling h (.maxData short) rfl rfl fun p hp => ?_
  exact hp.modifyConn rfl rfl rfl rfl rfl rfl rfl id (.inr rfl) fun _ => rfl

private theorem writeMaxStreamData_filling (short : epoch = .application) (id : ℕ) :
    Program.Maintains (Filling (c.Writes epoch) c room) anyFault (writeMaxStreamData id) := by
  refine Program.maintains_get_bind fun p h => ?_
  cases p.conn.streams.streams id with
  | none => exact h.setStreams _
  | some s =>
    simp only [modifyStreams, modifyConn, Program.ends_bind, Program.ends_modify]
    exact tryFrame_filling (h.setStreams _) (.maxStreamData short) rfl rfl

private theorem writeConnectionClose_filling :
    Program.Maintains (Filling (c.Writes epoch) c room) anyFault writeConnectionClose := by
  refine Program.maintains_get_bind fun p h => ?_
  cases herr : p.conn.error with
  | none => exact h
  | some err =>
    refine tryFrame_when_filling h (.connectionClose (h.error ▸ herr)) rfl rfl fun p hp => ?_
    exact hp.modifyConn rfl rfl rfl rfl rfl rfl rfl id (.inl rfl) fun _ => rfl

private theorem writeApplicationClose_filling :
    Program.Maintains (Filling (c.Writes epoch) c room) anyFault (writeApplicationClose epoch) := by
  refine Program.maintains_get_bind fun p h => ?_
  dsimp only
  cases herr : p.conn.appError with
  | none => exact h
  | some err =>
    refine Program.ends_ite.mpr ⟨fun hshort => ?_, fun _ => h⟩
    have short : epoch = .application := by
      cases epoch <;> first | rfl | cases hshort
    rw [Program.ends_bind, h.appReason]
    refine (addFrame_filling h (.applicationClose short (h.appError ▸ herr)) rfl rfl).mono
      (fun _ p' hp' => ?_) fun _ _ _ => trivial
    exact hp'.modifyConn rfl rfl rfl rfl rfl rfl rfl id (.inr rfl) fun _ => rfl

private theorem writePathResponse_filling :
    Program.Maintains (Filling (c.Writes epoch) c room) anyFault writePathResponse := by
  refine Program.maintains_get_bind fun p h => ?_
  cases hdata : p.conn.challenge with
  | none => exact h
  | some data =>
    refine Program.ends_ite.mpr ⟨fun _ => ?_, fun _ => h⟩
    rw [Program.ends_bind]
    refine (addFrame_filling h (.pathResponse (h.challenge_eq hdata)) rfl rfl).mono
      (fun _ p' hp' => ?_)
      fun _ _ _ => trivial
    exact hp'.modifyConn rfl rfl rfl rfl rfl rfl rfl id (.inl rfl) fun _ => rfl

private theorem writeCrypto_filling (live : c.isClosing = false) :
    Program.Maintains (Filling (c.Writes epoch) c room) anyFault (writeCrypto epoch) := by
  refine Program.maintains_get_bind fun p h => Program.ends_ite.mpr ⟨fun _ => ?_, fun _ => h⟩
  simp only [modifyConn, Program.ends_bind, Program.ends_modify]
  exact addFrame_filling (h.modifySpace _ fun _ => rfl) (.crypto live) rfl rfl

private theorem writePing_filling (live : c.isClosing = false) :
    Program.Maintains (Filling (c.Writes epoch) c room) anyFault (writePing epoch) := by
  refine Program.maintains_get_bind fun p h => Program.ends_ite.mpr ⟨fun _ => ?_, fun _ => h⟩
  exact addFrame_filling h (.ping live) rfl rfl

/-! ### The stream frame -/

theorem requeue_filling (id : ℕ) (s : Stream) :
    Program.Maintains (Filling (c.Writes epoch) c room) anyFault (requeue id s) :=
  .ite (fun _ => Program.maintains_modify fun _ h => h.setStreams _) fun _ =>
    Program.maintains_pure ()

theorem chooseRedundancy_filling (short : epoch = .application) (env : SendEnv) (block : Block)
    (tail : ℕ) :
    Program.Maintains (Filling (c.Writes epoch) c room) anyFault
        (chooseRedundancy env block tail) := by
  refine Program.maintains_modify fun p h => ?_
  have hset (m n : ℕ) : Filling (c.Writes epoch) c room
      { p with draft := { p.draft with m := m, n := n } } :=
    { h with
      accounts := { h.accounts with }
      group := fun _ _ _ => .stream short }
  cases p.conn.tailSize with
  | none => exact h
  | some threshold =>
    by_cases htail : tail ≤ threshold
    · simp only [if_pos htail]
      exact hset _ _
    · simp only [if_neg htail]
      exact h

private theorem writeBlockInfo_filling (short : epoch = .application) (id : ℕ) (s : Stream) :
    Program.Maintains (Filling (c.Writes epoch) c room) anyFault (writeBlockInfo id s) := by
  refine Program.maintains_get_bind fun p h => Program.ends_ite.mpr ⟨fun _ => ?_, fun _ => h⟩
  rw [Program.ends_bind]
  refine (tryFrame_filling h (.blockInfo short) rfl rfl).mono (fun fits p' hp' => ?_)
    fun _ _ _ => trivial
  rw [Program.ends_ite]
  exact ⟨fun _ => hp'.setStreams _, fun _ => hp'⟩

private theorem sendData_filling (short : epoch = .application) (env : SendEnv) (id : ℕ)
    (block : Block)
    (s : Stream) (size : ℕ) :
    Program.Maintains (Filling (c.Writes epoch) c room) anyFault
        (sendData env id block s size) := by
  refine .ite (fun _ => Program.maintains_pure _) fun _ => ?_
  dsimp only
  refine .bind (Program.maintains_modify fun _ h => h.setStreams _) fun _ =>
    .ite (fun _ => Program.maintains_pure _) fun _ => ?_
  refine .bind (Program.maintains_modify fun p h => ?_) fun _ =>
    .bind (chooseRedundancy_filling short env block _) fun _ => ?_
  · exact h.modifyConn rfl rfl rfl rfl rfl rfl rfl (fun hsent => hsent) (.inr rfl)
      fun _ => rfl
  refine .bind (fun p h => addFrame_filling h (.stream short) rfl rfl) fun _ => ?_
  exact .bind (requeue_filling id _) fun _ => Program.maintains_pure _

private theorem streamTurn_filling (short : epoch = .application) (env : SendEnv) (id : ℕ) :
    Program.Maintains (Filling (c.Writes epoch) c room) anyFault (streamTurn env id) := by
  refine Program.maintains_get_bind fun p h => ?_
  rw [Program.ends_bind, Program.ends_unwrap]
  refine ⟨fun block _ => ?_, fun _ => trivial⟩
  cases p.conn.streams.streams id with
  | none => exact h
  | some s =>
    rw [Program.ends_bind]
    refine (writeBlockInfo_filling short id s p h).mono (fun s₁ p₁ h₁ => ?_) fun _ _ _ => trivial
    rw [Program.ends_bind, Program.ends_get, Program.ends_ite]
    refine ⟨fun _ => ?_, fun _ => ?_⟩
    · exact ((requeue_filling id s₁).bind fun _ => Program.maintains_pure true) p₁ h₁
    · rw [Program.ends_bind, Program.ends_unwrapSub]
      exact ⟨fun size _ => sendData_filling short env id block s₁ size p₁ h₁, fun _ => trivial⟩

private theorem streamStep_filling (short : epoch = .application) (env : SendEnv) :
    Program.Maintains (Filling (c.Writes epoch) c room) anyFault (streamStep env) := by
  refine .bind (fun p h => ?_) fun picked => ?_
  · rw [onStreams, Program.ends_zoom]
    exact Program.ends_iff.mpr ⟨fun _ _ _ => h.setStreams _, fun _ _ _ => trivial⟩
  · cases picked with
    | none => exact Program.maintains_pure true
    | some id => exact streamTurn_filling short env id

private theorem writeStream_filling (short : epoch = .application) (env : SendEnv) (fuel : ℕ) :
    Program.Maintains (Filling (c.Writes epoch) c room) anyFault (writeStream env fuel) := by
  induction fuel with
  | zero => exact fun _ _ => trivial
  | succ fuel ih =>
    refine .bind (streamStep_filling short env) fun stop => ?_
    exact .ite (fun _ => Program.maintains_pure ()) fun _ => ih

/-! ### The packet -/

/-- Short headers are for application packets. -/
theorem eq_application {epoch : Epoch} (h : (PacketType.fromEpoch epoch == .short) = true) :
    epoch = .application := by
  cases epoch <;> first | rfl | cases h

/-- The frames of a packet without FEC data. -/
theorem writeFrames_filling (env : SendEnv) {p : Packing}
    (h : p.Filling (p.conn.Writes epoch) p.conn room) :
    (writeFrames epoch env).Ends p
    (fun _ => Filling (p.conn.Writes epoch) p.conn room) anyFault := by
  rw [writeFrames, Program.ends_bind, Program.ends_get]
  generalize p.conn = c at h ⊢
  dsimp only
  have hlive (hclosing : (!c.isClosing) = true) : c.isClosing = false := by simpa using hclosing
  refine Program.Maintains.bind (.when fun hc => writeAck_filling (hlive hc) env) (fun _ => ?_) p h
  refine .bind (.forWhile fun id hid => writeReset_filling (mem_inOrder hid)) fun _ => ?_
  refine .bind (.when fun hc => ?_) fun _ => ?_
  · rw [Bool.and_eq_true] at hc
    have short := eq_application hc.1
    refine .bind (writeHandshakeDone_filling short (hlive hc.2)) fun _ => ?_
    refine .bind (writeMaxStreamsBidi_filling short) fun _ => ?_
    refine .bind (writeMaxStreamsUni_filling short) fun _ => ?_
    refine .bind (writeMaxData_filling short) fun _ => ?_
    exact .forWhile fun id _ => writeMaxStreamData_filling short id
  refine .bind writeConnectionClose_filling fun _ => ?_
  refine .bind writeApplicationClose_filling fun _ => ?_
  refine .bind writePathResponse_filling fun _ => ?_
  refine .bind (.when fun hc => writeCrypto_filling (hlive hc)) fun _ => ?_
  refine Program.maintains_get_bind fun p' h' => ?_
  refine Program.Maintains.bind (.when fun hc => ?_) (fun _ => ?_) p' h'
  · rw [Bool.and_eq_true, Bool.and_eq_true] at hc
    exact writeStream_filling (eq_application hc.1.1) env _
  · exact .when fun hc => writePing_filling (hlive hc)

end Fill

end Packing

/-- The frames of which a packet consists: a waiting redundant packet, or what may be
written. -/
def Connection.Packs (c : Connection) (epoch : Epoch) (f : Frame) : Prop :=
  match c.fecEncoded with
  | [] => c.Writes epoch f
  | (info, len) :: _ => f = .fec info len ∨ f.isPadding

theorem Connection.packs_padding (c : Connection) (epoch : Epoch) (len : ℕ) :
    c.Packs epoch (.padding len) := by
  unfold Packs
  split
  · exact .padding
  · exact .inr rfl

namespace Packing

/-- An empty packet has no frames. -/
theorem filling_new (P : Frame → Prop) (c : Connection) (room : ℕ) :
    Filling P c room ⟨c, .new room⟩ where
  error := rfl
  appError := rfl
  appReason := rfl
  isServer := rfl
  version := rfl
  isEstablished := rfl
  fec := rfl
  handshakeDoneSent := id
  challenge := .inr rfl
  nextPktNum _ := rfl
  frames _ hf := by cases hf
  group := absurd rfl
  fecInfo := .inl rfl
  accounts := ⟨rfl, rfl, rfl, rfl⟩

section Packet

variable {P : Frame → Prop} {c : Connection} {epoch : Epoch} {room : ℕ}

private theorem fillPacket_filling (epoch : Epoch) (env : SendEnv) (c : Connection) (room : ℕ) :
    (fillPacket epoch env).Ends ⟨c, .new room⟩ (fun _ => Filling (c.Packs epoch) c room)
      anyFault := by
  have hnew (P : Frame → Prop) := filling_new P c room
  rw [fillPacket, Program.ends_bind, Program.ends_get]
  unfold Connection.Packs
  cases hfec : c.fecEncoded with
  | nil => exact writeFrames_filling env (hnew _)
  | cons head rest =>
    obtain ⟨info, len⟩ := head
    refine Program.ends_ite.mpr ⟨fun _ => ?_, fun _ => trivial⟩
    rw [modifyConn, Program.ends_bind, Program.ends_modify, Program.ends_bind]
    have hpop : Filling (fun f => f = .fec info len ∨ f.isPadding) c room
        ⟨{ c with fecEncoded := rest }, .new room⟩ :=
      (hnew _).modifyConn rfl rfl rfl rfl rfl rfl rfl id (.inr rfl) fun _ => rfl
    refine (addFrame_filling hpop (.inl rfl) rfl rfl).mono (fun _ p hp => ?_) fun _ _ _ => trivial
    exact { hp with
      accounts := { hp.accounts with }
      fecInfo := .inr ⟨len, .inl rfl⟩ }

private theorem countProbe_filling :
    Program.Maintains (Filling P c room) anyFault (countProbe epoch) := by
  refine Program.maintains_get_bind fun p h => Program.ends_ite.mpr ⟨fun _ => ?_, fun _ => h⟩
  exact h.modifyConn rfl rfl rfl rfl rfl rfl rfl id (.inr rfl) fun _ => rfl

theorem addPadding_filling (hP : ∀ len, P (.padding len)) (len : ℕ) :
    Program.Maintains (Filling P c room) anyFault (addPadding len) := by
  refine Program.maintains_modify fun p h => ?_
  have hleft := h.accounts.left
  refine { h with frames := fun f hf => ?_, accounts := ⟨?_, ?_, ?_, ?_⟩ }
  · rcases List.mem_append.mp hf with hf | hf
    · exact h.frames f hf
    · exact List.mem_singleton.mp hf ▸ hP len
  · simp [h.accounts.ackEliciting, Frame.flagged]
  · simp [Frame.isPadding]
  · simp [h.accounts.payloadLen, Frame.wireLen]
  · simp only [List.map_append, List.sum_append, List.map_cons, List.map_nil, List.sum_cons,
      List.sum_nil, Frame.paddingLen]
    omega

private theorem padInitial_filling (hP : ∀ len, P (.padding len)) (pnLen : ℕ) :
    Program.Maintains (Filling P c room) anyFault (padInitial epoch pnLen) := by
  refine Program.maintains_get_bind fun p h => Program.ends_ite.mpr ⟨fun _ => ?_, fun _ => h⟩
  exact Program.ends_ite.mpr ⟨fun _ => trivial, fun _ => addPadding_filling hP _ p h⟩

private theorem padPayload_filling (hP : ∀ len, P (.padding len)) :
    Program.Maintains (Filling P c room) anyFault (padPayload epoch) := by
  refine Program.maintains_get_bind fun p h => Program.ends_ite.mpr ⟨fun _ => ?_, fun _ => h⟩
  exact addPadding_filling hP _ p h

end Packet

/-- The stages of putting a packet together: it is filled, padded, sealed and recorded. -/
structure Built (epoch : Epoch) (headerLen pnLen avail : ℕ) (env : SendEnv)
    (p filled padded sealed : Packing) (written : ℕ) (p' : Packing) : Prop where
  fill : fillPacket epoch env p = .ok () filled
  nonempty : filled.draft.frames ≠ []
  pad : (do countProbe epoch; padInitial epoch pnLen; padPayload epoch : Program Error Packing Unit)
    filled = .ok () padded
  sealing : sealPacket epoch headerLen pnLen avail padded = .ok written sealed
  record : recordSent epoch written env sealed = .ok () p'

variable {epoch : Epoch} {headerLen pnLen avail : ℕ} {env : SendEnv}

/-- Probes are counted outside of the packet. -/
theorem countProbe_draft (epoch : Epoch) (p : Packing) :
    (countProbe epoch).Ends p (fun _ p' => p'.draft = p.draft) anyFault := by
  rw [countProbe, Program.ends_bind, Program.ends_get, Program.ends_ite]
  exact ⟨fun _ => rfl, fun _ => rfl⟩

private theorem packet_ok {p p' : Packing} {written : ℕ}
    (h : packet epoch headerLen pnLen avail env p = .ok written p') :
    ∃ filled padded sealed,
      Built epoch headerLen pnLen avail env p filled padded sealed written p' := by
  unfold packet at h
  obtain ⟨_, filled, fill, h⟩ := Program.bind_eq_ok.mp h
  obtain ⟨_, counted, count, h⟩ := Program.bind_eq_ok.mp h
  have hframes : counted.draft.frames = filled.draft.frames := by
    rw [(countProbe_draft epoch filled).ok count]
  rw [Program.bind_apply, Program.get_apply] at h
  dsimp only at h
  split at h
  · cases h
  · rename_i hne
    obtain ⟨_, p₁, hinit, h⟩ := Program.bind_eq_ok.mp h
    obtain ⟨_, padded, hpad, h⟩ := Program.bind_eq_ok.mp h
    obtain ⟨written', sealed, sealing, h⟩ := Program.bind_eq_ok.mp h
    obtain ⟨_, recorded, record, h⟩ := Program.bind_eq_ok.mp h
    cases h
    refine ⟨filled, padded, sealed, fill, ?_, ?_, sealing, record⟩
    · rwa [List.isEmpty_iff, hframes] at hne
    · exact Program.bind_eq_ok.mpr ⟨_, _, count, Program.bind_eq_ok.mpr ⟨_, _, hinit, hpad⟩⟩

section Built

variable {c : Connection} {room : ℕ} {p p' filled padded sealed : Packing} {written : ℕ}

/-- A packet that goes through all stages is returned. -/
theorem Built.packet (h : Built epoch headerLen pnLen avail env p filled padded sealed written p') :
    packet epoch headerLen pnLen avail env p = .ok written p' := by
  obtain ⟨_, counted, count, hpad⟩ := Program.bind_eq_ok.mp h.pad
  obtain ⟨_, started, init, hpad⟩ := Program.bind_eq_ok.mp hpad
  have hframes : counted.draft.frames = filled.draft.frames := by
    rw [(countProbe_draft epoch filled).ok count]
  have hempty : ¬ counted.draft.frames.isEmpty = true := by
    rw [List.isEmpty_iff, hframes]
    exact h.nonempty
  have hrecord : recordSent epoch written env sealed = .ok () p' := h.record
  refine Program.bind_eq_ok.mpr ⟨_, _, h.fill, Program.bind_eq_ok.mpr ⟨_, _, count, ?_⟩⟩
  rw [Program.bind_apply, Program.get_apply]
  dsimp only
  rw [if_neg hempty]
  refine Program.bind_eq_ok.mpr ⟨_, _, init, Program.bind_eq_ok.mpr ⟨_, _, hpad, ?_⟩⟩
  exact Program.bind_eq_ok.mpr ⟨_, _, h.sealing, Program.bind_eq_ok.mpr ⟨_, _, hrecord, rfl⟩⟩

/-- A packet is filled with frames that it may have. -/
theorem Built.filling
    (h : Built epoch headerLen pnLen avail env ⟨c, .new room⟩ filled padded sealed written p') :
    Filling (c.Packs epoch) c room filled :=
  (fillPacket_filling epoch env c room).ok h.fill

theorem Built.padded_filling
    (h : Built epoch headerLen pnLen avail env ⟨c, .new room⟩ filled padded sealed written p') :
    Filling (c.Packs epoch) c room padded := by
  have hpad : Program.Maintains (Filling (c.Packs epoch) c room) anyFault
      (do countProbe epoch; padInitial epoch pnLen; padPayload epoch) :=
    .bind countProbe_filling fun _ => .bind (padInitial_filling (c.packs_padding epoch) pnLen)
      fun _ => padPayload_filling (c.packs_padding epoch)
  exact (hpad filled h.filling).ok h.pad

end Built

/-- The number of bytes before the frames of a packet. -/
def payloadOffset (epoch : Epoch) (headerLen pnLen payloadLen : ℕ) : ℕ :=
  headerLen + (if PacketType.fromEpoch epoch = .short then 0
    else varintLen (pnLen + payloadLen + tagLen)) + pnLen

/-- The packet belongs to a FEC group. -/
def joinsGroup (p : Packing) : Prop := p.draft.m ≠ 0 ∧ p.draft.n ≠ 0 ∨ p.conn.fec.isSome

instance (p : Packing) : Decidable p.joinsGroup := by unfold joinsGroup; infer_instance

/-- What `sealPacket` does if it succeeds. -/
structure Sealed (epoch : Epoch) (headerLen pnLen avail : ℕ) (p : Packing) (written : ℕ)
    (p' : Packing) : Prop where
  written_eq : written =
    payloadOffset epoch headerLen pnLen p.draft.payloadLen + p.draft.payloadLen + tagLen
  written_le : written ≤ avail
  join : Program.when p.joinsGroup joinFecGroup p = .ok () p'

/-- A packet is sealed once. -/
theorem sealPacket_ends (p : Packing) : (sealPacket epoch headerLen pnLen avail).Ends p
    (fun written p' => Sealed epoch headerLen pnLen avail p written p') anyFault := by
  rw [sealPacket, Program.ends_bind, Program.ends_get]
  refine Program.ends_ite.mpr ⟨fun _ => trivial, fun _ => ?_⟩
  rw [Program.ends_bind]
  refine Program.ends_iff.mpr ⟨fun _ p' join => ?_, fun _ _ _ => trivial⟩
  refine Program.ends_ite.mpr ⟨fun _ => trivial, fun _ => ?_⟩
  exact Program.ends_ite.mpr ⟨fun _ => trivial, fun hfits => ⟨rfl, not_lt.mp hfits, join⟩⟩

/-- Joining a FEC group changes the FEC state and nothing else. -/
structure Joined (p p' : Packing) : Prop where
  conn : ∃ fec fecEncoded nextFecGroupId, p'.conn =
    { p.conn with fec := fec, fecEncoded := fecEncoded, nextFecGroupId := nextFecGroupId }
  draft : p'.draft = { p.draft with fecInfo := p'.draft.fecInfo }

theorem Joined.refl (p : Packing) : p.Joined p := ⟨⟨_, _, _, rfl⟩, rfl⟩

theorem Sealed.joined {p p' : Packing} {written : ℕ}
    (h : Sealed epoch headerLen pnLen avail p written p') : p.Joined p' := by
  have hjoin : (Program.when p.joinsGroup joinFecGroup).Ends p (fun _ => p.Joined) anyFault := by
    refine Program.ends_when.mpr ⟨fun _ => ?_, fun _ => .refl p⟩
    rw [joinFecGroup, Program.ends_bind, Program.ends_get, Program.ends_ite]
    exact ⟨fun _ => trivial, fun _ => ⟨⟨_, _, _, rfl⟩, rfl⟩⟩
  exact hjoin.ok h.join

end Packing

/-- The packets that are remembered after one more was sent. -/
theorem Recovery.mem_onPacketSent {r : Recovery} {pkt p : Sent} {epoch : Epoch} {now : ℕ}
    (h : p ∈ (r.onPacketSent pkt epoch now).sent epoch) (hnum : p.pktNum = pkt.pktNum) :
    p = pkt := by
  unfold onPacketSent at h
  dsimp only at h
  rw [Epoch.update_same, insertSent, List.mem_append, List.mem_cons, List.mem_filter,
    List.mem_filter, decide_eq_true_eq, decide_eq_true_eq] at h
  rcases h with ⟨_, h⟩ | rfl | ⟨_, h⟩
  · omega
  · rfl
  · omega

private theorem Recovery.self_mem_onPacketSent (r : Recovery) (pkt : Sent) (epoch : Epoch)
    (now : ℕ) :
    pkt ∈ (r.onPacketSent pkt epoch now).sent epoch := by
  unfold onPacketSent
  dsimp only
  rw [Epoch.update_same, insertSent]
  exact List.mem_append_right _ List.mem_cons_self

/-- Dropping the state of an epoch forgets its packets, and no others. -/
theorem Connection.dropEpochState_sent (c : Connection) {epoch e : Epoch} (now : ℕ)
    (h : e ≠ epoch) :
    (c.dropEpochState epoch now).recovery.sent e = c.recovery.sent e := by
  unfold dropEpochState
  split_ifs
  · exact Epoch.update_of_ne h
  · rfl

namespace Packing

/-- The packets that are remembered in the epoch of a recorded packet. -/
theorem recordSent_ok {p p' : Packing} {written : ℕ} {epoch : Epoch} {env : SendEnv}
    (h : recordSent epoch written env p = .ok () p') : p'.conn.recovery.sent epoch =
      (p.conn.recovery.onPacketSent (p.toSent epoch written env.instant) epoch env.instant).sent
        epoch := by
  rw [recordSent_eq] at h
  cases h
  change (p.settled epoch written env).recovery.sent epoch = _
  unfold settled
  dsimp only
  split_ifs with hhandshake
  · exact Connection.dropEpochState_sent _ env.wall (by rintro rfl; cases hhandshake.2)
  · rfl

end Packing

namespace Connection

/-- The number of bytes that a packet may take in a buffer of `outLen` bytes. -/
def packetCap (c : Connection) (outLen : ℕ) : ℕ :=
  min (if c.isEstablished then min 16383 c.peerTransportParams.maxPacketSize else 1200) outLen

/-- The number of bytes of a packet that are set aside before its frames are written. -/
def packetOverhead (c : Connection) (epoch : Epoch) (pnLen : ℕ) : ℕ :=
  c.headerLen epoch pnLen + pnLen + tagLen + if PacketType.fromEpoch epoch = .short then 0 else 2

/-- What `send` does before it fills a packet: it continues the handshake, chooses an
epoch, takes back what was lost, and makes sure that there is room. -/
structure Prepares (outLen : ℕ) (env : SendEnv) (c c₀ : Connection) (epoch : Epoch) (pnLen : ℕ)
    (c₁ : Connection) : Prop where
  open_ : c.draining = false
  handshake : Program.when (!c.isClosing) (doHandshake env.handshake) c = .ok () c₀
  chosen : c₀.writeEpoch = .ok epoch
  drain : drainLost epoch c₀ = .ok () c₁
  number : pktNumLen (c₁.pktNumSpaces epoch).nextPktNum = some pnLen
  key : (c₁.pktNumSpaces epoch).cryptoSeal = true
  header : c₁.headerLen epoch pnLen ≤ c₀.packetCap outLen
  overhead : c₁.packetOverhead epoch pnLen ≤ c₁.packetRoom epoch (c₀.packetCap outLen) env

/-- The room for the frames of a packet. -/
def frameRoom (c : Connection) (epoch : Epoch) (pnLen avail : ℕ) (env : SendEnv) : ℕ :=
  c.packetRoom epoch avail env - c.packetOverhead epoch pnLen

/-! ### What the preparations leave alone -/

/-- The parts of a connection that `send` changes only while it fills a packet. -/
structure SameTask (c c' : Connection) : Prop where
  error : c'.error = c.error
  appError : c'.appError = c.appError
  appReason : c'.appReason = c.appReason
  challenge : c'.challenge = c.challenge
  draining : c'.draining = c.draining
  isServer : c'.isServer = c.isServer
  version : c'.version = c.version
  fec : c'.fec = c.fec
  fecEncoded : c'.fecEncoded = c.fecEncoded
  tailSize : c'.tailSize = c.tailSize
  verifiedPeerAddress : c'.verifiedPeerAddress = c.verifiedPeerAddress
  maxSendBytes : c'.maxSendBytes = c.maxSendBytes
  lossProbes : c'.recovery.lossProbes = c.recovery.lossProbes
  canceled : c'.streams.canceled = c.streams.canceled
  almostFull : c'.streams.almostFull = c.streams.almostFull

theorem SameTask.refl (c : Connection) : c.SameTask c := by
  constructor <;> rfl

theorem SameTask.trans {c c' c'' : Connection} (h : c.SameTask c') (h' : c'.SameTask c'') :
    c.SameTask c'' where
  error := h'.error.trans h.error
  appError := h'.appError.trans h.appError
  appReason := h'.appReason.trans h.appReason
  challenge := h'.challenge.trans h.challenge
  draining := h'.draining.trans h.draining
  isServer := h'.isServer.trans h.isServer
  version := h'.version.trans h.version
  fec := h'.fec.trans h.fec
  fecEncoded := h'.fecEncoded.trans h.fecEncoded
  tailSize := h'.tailSize.trans h.tailSize
  verifiedPeerAddress := h'.verifiedPeerAddress.trans h.verifiedPeerAddress
  maxSendBytes := h'.maxSendBytes.trans h.maxSendBytes
  lossProbes := h'.lossProbes.trans h.lossProbes
  canceled := h'.canceled.trans h.canceled
  almostFull := h'.almostFull.trans h.almostFull

/-- The handshake leaves the task of a packet as it is. -/
theorem doHandshake_sameTask (c : Connection) (hs : HandshakeStep) :
    Program.Maintains c.SameTask (fun e _ => e ≠ .underflow) (doHandshake hs) :=
  HandshakeParts.maintains
    { write := fun _ _ _ _ _ _ h => { h with }
      full := fun _ _ => Lib.Fault.error_ne_underflow _
      keys := fun _ h => { h with }
      failed := fun _ _ _ _ => Lib.Fault.error_ne_underflow _
      noProtocol := fun _ _ => Lib.Fault.error_ne_underflow _
      refused := fun _ _ _ _ => Lib.Fault.error_ne_underflow _
      params := fun _ _ _ h => { h with } }

/-- Lost frames leave the task of a packet as it is. -/
theorem drainLost_sameTask (c : Connection) (epoch : Epoch) :
    Program.Maintains c.SameTask (fun e _ => e ≠ .underflow) (drainLost epoch) := by
  have hmarks (b : Bool) (m : StreamMap) (id : ℕ) :
      (if b = true then m.pushFlushable id else m).canceled = m.canceled ∧
        (if b = true then m.pushFlushable id else m).almostFull = m.almostFull := by
    cases b <;> exact ⟨rfl, rfl⟩
  have hparts : LostParts c.SameTask (fun e _ => e ≠ .underflow) epoch :=
    { pop := fun _ _ h => { h with }
      crypto := fun _ _ _ _ h => { h with }
      blockInfo := fun _ _ _ _ h => { h with }
      stream := fun _ _ _ _ _ _ _ _ h => { h with
        canceled := (hmarks _ _ _).1.trans h.canceled
        almostFull := (hmarks _ _ _).2.trans h.almostFull }
      ack := fun _ h => { h with }
      handshakeDone := fun _ h => { h with }
      refused := fun _ _ _ _ => Lib.Fault.error_ne_underflow _ }
  exact maintains_drainLost hparts.takeLost fun _ _ h => h

/-- The preparation of a packet leaves its task as it is. -/
theorem Prepares.sameTask {outLen : ℕ} {env : SendEnv} {c c₀ c₁ : Connection} {epoch : Epoch}
    {pnLen : ℕ} (h : c.Prepares outLen env c₀ epoch pnLen c₁) : c.SameTask c₁ := by
  have hhandshake : Program.Maintains c.SameTask (fun e _ => e ≠ .underflow)
      (Program.when (!c.isClosing) (doHandshake env.handshake)) :=
    .when fun _ => doHandshake_sameTask c env.handshake
  have hdrain := drainLost_sameTask c₀ epoch c₀ (.refl c₀)
  exact ((hhandshake c (.refl c)).ok h.handshake).trans (hdrain.ok h.drain)

/-- How `send` stops before it fills a packet. -/
inductive Stops (outLen : ℕ) (env : SendEnv) (c : Connection) : Lib.Fault Error → Connection → Prop
  | refused (e : Error) : Stops outLen env c (.error e) c
  | handshake {e : Lib.Fault Error} {c₀ : Connection}
      (handshake : Program.when (!c.isClosing) (doHandshake env.handshake) c = .error e c₀) :
      Stops outLen env c e c₀
  | idle {c₀ : Connection} (e : Error)
      (handshake : Program.when (!c.isClosing) (doHandshake env.handshake) c = .ok () c₀) :
      Stops outLen env c (.error e) c₀
  | drain {c₀ c₁ : Connection} {epoch : Epoch} {e : Lib.Fault Error}
      (handshake : Program.when (!c.isClosing) (doHandshake env.handshake) c = .ok () c₀)
      (chosen : c₀.writeEpoch = .ok epoch) (drain : drainLost epoch c₀ = .error e c₁) :
      Stops outLen env c e c₁
  | noRoom {c₀ c₁ : Connection} {epoch : Epoch} (e : Error)
      (handshake : Program.when (!c.isClosing) (doHandshake env.handshake) c = .ok () c₀)
      (chosen : c₀.writeEpoch = .ok epoch) (drain : drainLost epoch c₀ = .ok () c₁) :
      Stops outLen env c (.error e) c₁

/-- The preparations subtract nothing from what may be too little. -/
theorem Stops.ne_underflow {outLen : ℕ} {env : SendEnv} {c c' : Connection} {e : Lib.Fault Error}
    (h : c.Stops outLen env e c') : e ≠ .underflow := by
  have hhandshake : Program.Maintains c.SameTask (fun e _ => e ≠ .underflow)
      (Program.when (!c.isClosing) (doHandshake env.handshake)) :=
    .when fun _ => doHandshake_sameTask c env.handshake
  cases h with
  | refused e => exact nofun
  | handshake handshake => exact (hhandshake c (.refl c)).error handshake
  | idle e handshake => exact nofun
  | @drain c₀ c₁ epoch e handshake chosen drain =>
    exact (drainLost_sameTask c₀ epoch c₀ (.refl c₀)).error drain
  | noRoom e handshake chosen drain => exact nofun

/-- The packet that `send` puts together after its preparations. -/
def sendPacket (outLen : ℕ) (env : SendEnv) (c₀ : Connection) (epoch : Epoch) (pnLen : ℕ) :
    Program Error Connection ℕ := do
  let c₁ ← get
  let avail := c₀.packetCap outLen
  Program.zoom (fun c => (⟨c, .new (c₁.frameRoom epoch pnLen avail env)⟩ : Packing))
    (fun p _ => p.conn)
    (Packing.packet epoch (c₁.headerLen epoch pnLen) pnLen avail env)

/-- `send` stops early, or puts together a packet. -/
theorem send_cases (outLen : ℕ) (env : SendEnv) (c : Connection) :
    (∃ e c', send outLen env c = .error e c' ∧ c.Stops outLen env e c') ∨
      ∃ c₀ epoch pnLen c₁, c.Prepares outLen env c₀ epoch pnLen c₁ ∧
        send outLen env c = sendPacket outLen env c₀ epoch pnLen c₁ := by
  -- The body is run step by step, and each early return is one of the ways to stop.
  obtain ⟨r, hr⟩ : ∃ r, send outLen env c = r := ⟨_, rfl⟩
  rw [hr]
  rw [send, Program.bind_apply, Program.get_apply] at hr
  dsimp only at hr
  by_cases hout : outLen = 0
  · rw [if_pos hout] at hr
    exact .inl ⟨_, _, hr.symm, .refused _⟩
  by_cases hdraining : c.draining = true
  · rw [if_neg hout, if_pos hdraining] at hr
    exact .inl ⟨_, _, hr.symm, .refused _⟩
  by_cases hsecrets : (!c.derivedInitialSecrets) = true
  · rw [if_neg hout, if_neg hdraining, if_pos hsecrets] at hr
    exact .inl ⟨_, _, hr.symm, .refused _⟩
  rw [if_neg hout, if_neg hdraining, if_neg hsecrets, Program.bind_apply] at hr
  cases handshake : Program.when (!c.isClosing) (doHandshake env.handshake) c with
  | error e c₀ =>
    rw [handshake] at hr
    exact .inl ⟨_, _, hr.symm, .handshake handshake⟩
  | ok _ c₀ =>
    simp only [handshake, Program.bind_apply, Program.get_apply] at hr
    cases chosen : c₀.writeEpoch with
    | error e =>
      simp only [chosen, Program.ofExcept_error, Program.fail_apply] at hr
      exact .inl ⟨_, _, hr.symm, .idle e handshake⟩
    | ok epoch =>
      simp only [chosen, Program.ofExcept_ok, Program.pure_apply] at hr
      cases drain : drainLost epoch c₀ with
      | error e c₁ =>
        simp only [drain] at hr
        exact .inl ⟨_, _, hr.symm, .drain handshake chosen drain⟩
      | ok _ c₁ =>
        simp only [drain] at hr
        have hfail (e : Error) (h : r = .error (.error e) c₁) :
            ∃ e c', r = .error e c' ∧ c.Stops outLen env e c' :=
          ⟨_, _, h, .noRoom e handshake chosen drain⟩
        cases number : pktNumLen (c₁.pktNumSpaces epoch).nextPktNum with
        | none =>
          simp only [number] at hr
          exact .inl (hfail _ hr.symm)
        | some pnLen =>
          simp only [number] at hr
          by_cases key : (!(c₁.pktNumSpaces epoch).cryptoSeal) = true
          · rw [if_pos key] at hr
            exact .inl (hfail _ hr.symm)
          rw [if_neg key] at hr
          change (if c₀.packetCap outLen < c₁.headerLen epoch pnLen then _ else
            if c₁.packetRoom epoch (c₀.packetCap outLen) env < c₁.packetOverhead epoch pnLen then _
              else _ : Program Error Connection ℕ) c₁ = r at hr
          -- the checked subtractions
          by_cases header : c₀.packetCap outLen < c₁.headerLen epoch pnLen
          · rw [if_pos header] at hr
            exact .inl (hfail _ hr.symm)
          rw [if_neg header] at hr
          by_cases overhead : c₁.packetRoom epoch (c₀.packetCap outLen) env <
              c₁.packetOverhead epoch pnLen
          · rw [if_pos overhead] at hr
            exact .inl (hfail _ hr.symm)
          rw [if_neg overhead] at hr
          refine .inr ⟨c₀, epoch, pnLen, c₁, ?_, hr.symm⟩
          exact ⟨by simpa using hdraining, handshake, chosen, drain, number, by simpa using key,
            not_lt.mp header, not_lt.mp overhead⟩

/-- `send`, or its copy that lists blocks, returns. -/
def Returns (outLen : ℕ) (env : SendEnv) (c : Connection) (written : ℕ) (c' : Connection) : Prop :=
  send outLen env c = .ok written c' ∨
    ∃ blocks blocks', sendWithBlocks outLen env (c, blocks) = .ok written (c', blocks')

/-- What `send` returns. -/
theorem Returns.send {outLen : ℕ} {env : SendEnv} {c c' : Connection} {written : ℕ}
    (h : c.Returns outLen env written c') : send outLen env c = .ok written c' := by
  rcases h with h | ⟨blocks, blocks', h⟩
  · exact h
  · rw [← sendWithBlocks_erases outLen env c blocks, h]
    rfl

/-- `send` returns, and `pkt` is the packet that it remembers; `c₁` is the state in which
the packet was filled. -/
structure Sends (outLen : ℕ) (env : SendEnv) (c : Connection) (epoch : Epoch) (c₁ : Connection)
    (pkt : Sent) (written : ℕ) (c' : Connection) : Prop where
  ok : c.Returns outLen env written c'
  prepares : ∃ c₀ pnLen, c.Prepares outLen env c₀ epoch pnLen c₁
  sent : pkt ∈ c'.recovery.sent epoch
  pktNum : pkt.pktNum = (c₁.pktNumSpaces epoch).nextPktNum

section Sends

variable {outLen : ℕ} {env : SendEnv} {c c₀ c₁ c' : Connection} {epoch : Epoch} {pnLen written : ℕ}
  {pkt : Sent}

/-- A packet is prepared in one way. -/
theorem Prepares.unique (h : c.Prepares outLen env c₀ epoch pnLen c₁) {c₀' c₁' : Connection}
    {epoch' : Epoch} {pnLen' : ℕ} (h' : c.Prepares outLen env c₀' epoch' pnLen' c₁') :
    c₀ = c₀' ∧ epoch = epoch' ∧ pnLen = pnLen' ∧ c₁ = c₁' := by
  obtain rfl : c₀ = c₀' := by
    have heq := h.handshake.symm.trans h'.handshake
    cases heq
    rfl
  obtain rfl : epoch = epoch' := Except.ok.inj (h.chosen.symm.trans h'.chosen)
  obtain rfl : c₁ = c₁' := by
    have heq := h.drain.symm.trans h'.drain
    cases heq
    rfl
  exact ⟨rfl, rfl, Option.some.inj (h.number.symm.trans h'.number), rfl⟩

/-- What `send` returns after its preparations comes out of the stages of a packet. -/
theorem Prepares.built (h : c.Prepares outLen env c₀ epoch pnLen c₁)
    (ok : send outLen env c = .ok written c') : ∃ filled padded sealed p',
      Packing.Built epoch (c₁.headerLen epoch pnLen) pnLen (c₀.packetCap outLen) env
        ⟨c₁, .new (c₁.frameRoom epoch pnLen (c₀.packetCap outLen) env)⟩
          filled padded sealed written p' ∧
      p'.conn = c' := by
  rcases send_cases outLen env c with ⟨e, c'', heq, -⟩ | ⟨c₀', epoch', pnLen', c₁', hprep, heq⟩
  · rw [heq] at ok
    cases ok
  · obtain ⟨rfl, rfl, rfl, rfl⟩ := h.unique hprep
    rw [heq, sendPacket, Program.bind_apply, Program.get_apply] at ok
    dsimp only [Program.zoom] at ok
    split at ok
    · rename_i p' hpacket
      cases ok
      obtain ⟨filled, padded, sealed, built⟩ := Packing.packet_ok hpacket
      exact ⟨filled, padded, sealed, p', built, rfl⟩
    · cases ok

/-- The packets that `send` remembers. -/
theorem Sends.packed (h : c.Sends outLen env epoch c₁ pkt written c') :
    ∃ c₀ pnLen filled padded sealed p', c.Prepares outLen env c₀ epoch pnLen c₁ ∧
      Packing.Built epoch (c₁.headerLen epoch pnLen) pnLen (c₀.packetCap outLen) env
        ⟨c₁, .new (c₁.frameRoom epoch pnLen (c₀.packetCap outLen) env)⟩
          filled padded sealed written p' ∧
      p'.conn = c' ∧ pkt = sealed.toSent epoch written env.instant := by
  obtain ⟨c₀, pnLen, hprep⟩ := h.prepares
  obtain ⟨filled, padded, sealed, p', built, rfl⟩ := hprep.built h.ok.send
  refine ⟨c₀, pnLen, filled, padded, sealed, p', hprep, built, rfl, ?_⟩
  have hsent := h.sent
  rw [Packing.recordSent_ok built.record] at hsent
  refine Recovery.mem_onPacketSent hsent (h.pktNum.trans ?_)
  have joined := ((Packing.sealPacket_ends padded).ok built.sealing).joined
  obtain ⟨_, _, _, hconn⟩ := joined.conn
  rw [Packing.toSent, hconn]
  exact (built.padded_filling.nextPktNum epoch).symm

/-- Whenever `send` returns, it remembers a packet. -/
theorem exists_sends (ok : send outLen env c = .ok written c') :
    ∃ epoch c₁ pkt, c.Sends outLen env epoch c₁ pkt written c' := by
  rcases send_cases outLen env c with ⟨e, c'', heq, -⟩ | ⟨c₀, epoch, pnLen, c₁, hprep, -⟩
  · rw [heq] at ok
    cases ok
  · obtain ⟨filled, padded, sealed, p', built, rfl⟩ := hprep.built ok
    refine ⟨epoch, c₁, sealed.toSent epoch written env.instant, .inl ok, ⟨c₀, pnLen, hprep⟩, ?_, ?_⟩
    · rw [Packing.recordSent_ok built.record]
      exact Recovery.self_mem_onPacketSent _ _ _ _
    · have joined := ((Packing.sealPacket_ends padded).ok built.sealing).joined
      obtain ⟨_, _, _, hconn⟩ := joined.conn
      rw [Packing.toSent, hconn]
      exact built.padded_filling.nextPktNum epoch

end Sends

end Connection

end Dtp
