import Dtp.Calls

/-!
# The actions of a connection

A call is a sequence of actions: what happens for one received frame, one acked or lost
frame, one turn of a loop in `send`. Properties of every state are proved for the
actions, which are few; the parts of a call that neither touch the streams nor the
frames about them are one action, `Action.quiet`.

## Main definitions

* `Packing.Quiet` — a change that concerns neither streams nor flow control
* `Action`, `Action.step` — the actions and what they do
* `Call.Allows` — the actions that a call consists of

## Main results

* `Call.reachesBy`, `Call.reaches` — every call is a sequence of actions that it allows
* `Connection.Reachable.induct` — what actions preserve holds in every reachable state
-/

namespace Dtp

open Lib (Program run)

/-- The frames that say nothing about streams and their flow control, and carry no data. -/
def Frame.isQuiet : Frame → Bool
  | .stream _ _ | .resetStream _ _ _ | .blockInfo _ _ _ _ _ | .maxData _ | .maxStreamData _ _
  | .crypto _ => false
  | _ => true

/-- The frames that say nothing about limits either. -/
def Frame.isSilent : Frame → Bool
  | .maxStreamsBidi _ | .maxStreamsUni _ => false
  | f => f.isQuiet

theorem Frame.isQuiet_of_isSilent {f : Frame} (h : f.isSilent = true) : f.isQuiet = true := by
  cases f <;> first | rfl | exact h

/-- A change of a connection that concerns neither streams nor flow control. -/
structure Connection.Quiet (c c' : Connection) : Prop where
  streams : c'.streams = c.streams
  isServer : c'.isServer = c.isServer
  localParams : c'.localTransportParams = c.localTransportParams
  peerParams : c'.peerTransportParams = c.peerTransportParams
  rxData : c'.rxData = c.rxData
  maxRxData : c'.maxRxData = c.maxRxData
  maxRxDataNext : c'.maxRxDataNext = c.maxRxDataNext
  txData : c'.txData = c.txData
  maxTxData : c'.maxTxData = c.maxTxData
  sent : c'.recovery.sent = c.recovery.sent
  lost : c'.recovery.lost = c.recovery.lost
  acked : c'.recovery.acked = c.recovery.acked
  recvPktNum : ∀ e, (c'.pktNumSpaces e).recvPktNum = (c.pktNumSpaces e).recvPktNum
  nextPktNum : ∀ e, (c'.pktNumSpaces e).nextPktNum = (c.pktNumSpaces e).nextPktNum
  cryptoStream : ∀ e, (c'.pktNumSpaces e).cryptoStream = (c.pktNumSpaces e).cryptoStream

theorem Connection.Quiet.refl (c : Connection) : c.Quiet c := by
  constructor <;> intros <;> rfl

theorem Connection.Quiet.trans {c c' c'' : Connection} (h : c.Quiet c') (h' : c'.Quiet c'') :
    c.Quiet c'' where
  streams := h'.streams.trans h.streams
  isServer := h'.isServer.trans h.isServer
  localParams := h'.localParams.trans h.localParams
  peerParams := h'.peerParams.trans h.peerParams
  rxData := h'.rxData.trans h.rxData
  maxRxData := h'.maxRxData.trans h.maxRxData
  maxRxDataNext := h'.maxRxDataNext.trans h.maxRxDataNext
  txData := h'.txData.trans h.txData
  maxTxData := h'.maxTxData.trans h.maxTxData
  sent := h'.sent.trans h.sent
  lost := h'.lost.trans h.lost
  acked := h'.acked.trans h.acked
  recvPktNum e := (h'.recvPktNum e).trans (h.recvPktNum e)
  nextPktNum e := (h'.nextPktNum e).trans (h.nextPktNum e)
  cryptoStream e := (h'.cryptoStream e).trans (h.cryptoStream e)

namespace Packing

/-- A change of the connection and of the packet that concerns neither streams nor flow
control. -/
structure Quiet (p p' : Packing) : Prop where
  conn : p.conn.Quiet p'.conn
  frames : ∃ fs, fs.all Frame.isSilent ∧ p'.draft.frames = p.draft.frames ++ fs

theorem Quiet.of_conn {p : Packing} {c : Connection} (h : p.conn.Quiet c) :
    p.Quiet { p with conn := c } := ⟨h, [], rfl, (List.append_nil _).symm⟩

instance : IsPreorder Packing Quiet where
  refl p := ⟨.refl _, [], rfl, (List.append_nil _).symm⟩
  trans := by
    rintro p p' p'' ⟨hconn, fs, hfs, hframes⟩ ⟨hconn', gs, hgs, hframes'⟩
    refine ⟨hconn.trans hconn', fs ++ gs, ?_, ?_⟩
    · rw [List.all_append, hfs, hgs]
      rfl
    · rw [hframes', hframes, List.append_assoc]

/-- A program on the connection. -/
def onConn {α : Type} (x : Program Error Connection α) : Program Error Packing α :=
  Program.zoom conn (fun c p => { p with conn := c }) x

end Packing

/-- What a call does in one place. -/
inductive Action
  -- the application
  | write (streamId : ℕ) (data : List UInt8) (fin : Bool) (deadline priority now : ℕ)
  | read (streamId cap : ℕ)
  | shutdown (streamId : ℕ) (direction : Connection.Shutdown)
  | timeout (env : Env)
  -- receiving
  | frame (frame : Frame) (epoch : Epoch) (env : Env)
  | acked (epoch : Epoch)
  | received (pkt : Connection.RxPacket) (epoch : Epoch)
  -- sending
  | handshake (step : HandshakeStep)
  | lost (epoch : Epoch)
  | clearLost (epoch : Epoch)
  | start (left : ℕ)
  | reset (streamId : ℕ)
  | maxStreamsBidi
  | maxStreamsUni
  | maxData
  | maxStreamData (streamId : ℕ)
  | crypto (epoch : Epoch)
  | stream (env : SendEnv)
  | record (epoch : Epoch) (written : ℕ) (env : SendEnv)
  -- everything else
  | quiet (p : Packing)

namespace Action

/-- The program of an action; a quiet one leaves the state alone. -/
def program : Action → Program Error Packing Unit
  | write streamId data fin deadline priority now =>
    Packing.onConn (discard (Connection.streamSendFull streamId data fin deadline priority now))
  | read streamId cap => Packing.onConn (discard (Connection.streamRecv streamId cap))
  | shutdown streamId direction => Packing.onConn (Connection.streamShutdown streamId direction)
  | timeout env => Packing.modifyConn fun c => c.onTimeout env
  | frame f epoch env => Packing.onConn (Connection.processFrame f epoch env)
  | acked epoch => Packing.modifyConn (Connection.takeAcked epoch)
  | received pkt epoch => Packing.modifyConn (Connection.received pkt epoch)
  | handshake step => Packing.onConn (Connection.doHandshake step)
  | lost epoch => Packing.onConn (Connection.takeLost epoch)
  | clearLost epoch => Packing.modifyConn (Connection.clearLost epoch)
  | start left => Packing.modifyDraft fun _ => .new left
  | reset streamId => discard (Packing.writeReset streamId)
  | maxStreamsBidi => Packing.writeMaxStreamsBidi
  | maxStreamsUni => Packing.writeMaxStreamsUni
  | maxData => Packing.writeMaxData
  | maxStreamData streamId => discard (Packing.writeMaxStreamData streamId)
  | crypto epoch => Packing.writeCrypto epoch
  | stream env => discard (Packing.streamStep env)
  | record epoch written env => Packing.recordSent epoch written env
  | quiet _ => pure ()

/-- The actions of `send`, but for the frames about what others decided: the handshake and the
cancelled streams. -/
def isSending : Action → Bool
  | lost _ | clearLost _ | start _ | maxStreamsBidi | maxStreamsUni | maxData | maxStreamData _
  | crypto _ | stream _ | record _ _ _ => true
  | _ => false

open Classical in
/-- The state after an action. A quiet action leads to any state that differs only in
what concerns neither streams nor flow control. -/
noncomputable def step (p : Packing) : Action → Option Packing
  | quiet p' => if p.Quiet p' then some p' else none
  | action => action.program.after p

/-- Some actions lead from one state to the other. -/
def Reaches (p p' : Packing) : Prop := ∃ actions, run step p actions = some p'

instance : IsPreorder Packing Reaches where
  refl p := ⟨[], rfl⟩
  trans := by
    rintro p p' p'' ⟨as, has⟩ ⟨bs, hbs⟩
    refine ⟨as ++ bs, ?_⟩
    rw [Lib.run_append, has]
    exact hbs

/-- Some actions, each of them allowed, lead from one state to the other. -/
def ReachesBy (ok : Action → Prop) (p p' : Packing) : Prop :=
  ∃ actions, (∀ action ∈ actions, ok action) ∧ run step p actions = some p'

section ReachesBy

variable {ok : Action → Prop}

instance : IsPreorder Packing (ReachesBy ok) where
  refl p := ⟨[], fun _ hmem => absurd hmem List.not_mem_nil, rfl⟩
  trans := by
    rintro p p' p'' ⟨as, hok, has⟩ ⟨bs, hok', hbs⟩
    refine ⟨as ++ bs, fun action hmem => ?_, ?_⟩
    · exact (List.mem_append.mp hmem).elim (hok action) (hok' action)
    · rw [Lib.run_append, has]
      exact hbs

theorem ReachesBy.of_step {p p' : Packing} {action : Action} (hok : ok action)
    (h : step p action = some p') : ReachesBy ok p p' :=
  ⟨[action], fun _ hmem => List.mem_singleton.mp hmem ▸ hok, by simp [h]⟩

/-- What allowed actions preserve holds after them. -/
theorem ReachesBy.invariant {I : Packing → Prop} {p p' : Packing} (h : ReachesBy ok p p')
    (hstep : ∀ p action p', ok action → I p → step p action = some p' → I p') (hp : I p) :
    I p' := by
  obtain ⟨actions, hok, hrun⟩ := h
  induction actions generalizing p with
  | nil =>
    cases hrun
    exact hp
  | cons action actions ih =>
    rw [Lib.run_cons] at hrun
    obtain ⟨q, hq, hrun⟩ := Option.bind_eq_some_iff.mp hrun
    have hfirst := hstep p action q (hok action List.mem_cons_self) hp hq
    exact ih hfirst (fun a ha => hok a (List.mem_cons_of_mem action ha)) hrun

theorem ReachesBy.reaches {p p' : Packing} (h : ReachesBy ok p p') : Reaches p p' := by
  obtain ⟨actions, -, hrun⟩ := h
  exact ⟨actions, hrun⟩

end ReachesBy

end Action

theorem Packing.Quiet.reachesBy {ok : Action → Prop} (hok : ∀ q, ok (.quiet q)) {p p' : Packing}
    (h : p.Quiet p') : Action.ReachesBy ok p p' := .of_step (hok p') (if_pos h)

/-! ### Quiet parts of a call -/

namespace Connection

theorem quiet_modifySpace (c : Connection) (epoch : Epoch) {f : PktNumSpace → PktNumSpace}
    (hrecv : ∀ s, (f s).recvPktNum = s.recvPktNum) (hnext : ∀ s, (f s).nextPktNum = s.nextPktNum)
    (hcrypto : ∀ s, (f s).cryptoStream = s.cryptoStream) : c.Quiet (c.modifySpace epoch f) := by
  have hspace {α : Type} (part : PktNumSpace → α) (hpart : ∀ s, part (f s) = part s) (e : Epoch) :
      part ((c.modifySpace epoch f).pktNumSpaces e) = part (c.pktNumSpaces e) := by
    unfold modifySpace
    dsimp only
    rcases eq_or_ne e epoch with rfl | hne
    · rw [Epoch.update_same, hpart]
    · rw [Epoch.update_of_ne hne]
  exact { Quiet.refl c with
    recvPktNum := hspace _ hrecv
    nextPktNum := hspace _ hnext
    cryptoStream := hspace _ hcrypto }

instance : IsPreorder Connection Quiet where
  refl := .refl
  trans _ _ _ := .trans

theorem acceptHeader_quiet (pkt : RxPacket) (c : Connection) :
    (acceptHeader pkt).Keeps Quiet c := by
  rw [acceptHeader, Program.keeps_get_bind]
  refine .ite (fun _ => Program.keeps_fail.mpr (.refl c)) fun _ => ?_
  refine .bind (.when fun _ => ?_) fun _ c _ => ?_
  · exact { Quiet.refl c with }
  · rw [Program.keeps_get_bind]
    refine .ite (fun _ => Program.keeps_fail.mpr (.refl c)) fun _ =>
      .ite (fun _ => .refl c) fun _ => ?_
    refine .bind ?_ fun _ c _ => ?_
    · exact quiet_modifySpace c _ (fun _ => rfl) (fun _ => rfl) fun _ => rfl
    · exact { Quiet.refl c with }

end Connection

namespace Packing

theorem modifyConn_quiet {p : Packing} {f : Connection → Connection} (h : p.conn.Quiet (f p.conn)) :
    (modifyConn f).Keeps Quiet p := Quiet.of_conn h

theorem modifyDraft_quiet {p : Packing} {f : Draft → Draft} (fs : List Frame)
    (hfs : fs.all Frame.isSilent) (h : (f p.draft).frames = p.draft.frames ++ fs) :
    (modifyDraft f).Keeps Quiet p := ⟨.refl _, fs, hfs, h⟩

theorem addFrame_quiet {frame : Frame} (h : frame.isSilent) (ackEliciting : Bool) (p : Packing) :
    (addFrame frame ackEliciting).Keeps Quiet p := by
  rw [addFrame, Program.keeps_get_bind]
  refine .ite (fun _ => Program.keeps_crash) fun _ => .ite (fun _ => ?_) fun _ =>
    Program.keeps_underflow
  exact modifyDraft_quiet [frame] (by simpa using h) rfl

theorem tryFrame_quiet {frame : Frame} (h : frame.isSilent) (ackEliciting : Bool) (p : Packing) :
    (tryFrame frame ackEliciting).Keeps Quiet p := by
  rw [tryFrame, Program.keeps_get_bind]
  refine .ite (fun _ => Program.keeps_crash) fun _ => .ite (fun _ => ?_) fun _ => refl_of Quiet p
  exact .bind (addFrame_quiet h _ p) fun _ p _ => refl_of Quiet p

theorem writeAck_quiet (epoch : Epoch) (env : SendEnv) (p : Packing) :
    (writeAck epoch env).Keeps Quiet p := by
  rw [writeAck, Program.keeps_get_bind]
  refine .ite (fun _ => ?_) fun _ => refl_of Quiet p
  refine .bind (tryFrame_quiet rfl _ p) fun _ p _ => ?_
  refine .ite (fun _ => modifyConn_quiet ?_) fun _ => refl_of Quiet p
  exact Connection.quiet_modifySpace _ _ (fun _ => rfl) (fun _ => rfl) fun _ => rfl

theorem writeHandshakeDone_quiet (p : Packing) : writeHandshakeDone.Keeps Quiet p := by
  rw [writeHandshakeDone, Program.keeps_get_bind]
  refine .ite (fun _ => ?_) fun _ => refl_of Quiet p
  refine .bind (addFrame_quiet rfl _ p) fun _ p _ => modifyConn_quiet ?_
  exact { Connection.Quiet.refl p.conn with }

theorem writeConnectionClose_quiet (p : Packing) : writeConnectionClose.Keeps Quiet p := by
  rw [writeConnectionClose, Program.keeps_get_bind]
  cases p.conn.error with
  | none => exact refl_of Quiet p
  | some err =>
    refine .bind (tryFrame_quiet rfl _ p) fun _ p _ => ?_
    refine .ite (fun _ => modifyConn_quiet ?_) fun _ => refl_of Quiet p
    exact { Connection.Quiet.refl p.conn with }

theorem writeApplicationClose_quiet (epoch : Epoch) (p : Packing) :
    (writeApplicationClose epoch).Keeps Quiet p := by
  rw [writeApplicationClose, Program.keeps_get_bind]
  dsimp only
  cases p.conn.appError with
  | none => exact refl_of Quiet p
  | some err =>
    refine .ite (fun _ => ?_) fun _ => refl_of Quiet p
    refine .bind (addFrame_quiet rfl _ p) fun _ p _ => modifyConn_quiet ?_
    exact { Connection.Quiet.refl p.conn with }

theorem writePathResponse_quiet (p : Packing) : writePathResponse.Keeps Quiet p := by
  rw [writePathResponse, Program.keeps_get_bind]
  cases p.conn.challenge with
  | none => exact refl_of Quiet p
  | some data =>
    refine .ite (fun _ => ?_) fun _ => refl_of Quiet p
    refine .bind (addFrame_quiet rfl _ p) fun _ p _ => modifyConn_quiet ?_
    exact { Connection.Quiet.refl p.conn with }

theorem writePing_quiet (epoch : Epoch) (p : Packing) : (writePing epoch).Keeps Quiet p := by
  rw [writePing, Program.keeps_get_bind]
  exact .ite (fun _ => addFrame_quiet rfl _ p) fun _ => refl_of Quiet p

theorem addPadding_quiet (len : ℕ) (p : Packing) : (addPadding len).Keeps Quiet p :=
  modifyDraft_quiet [.padding len] rfl rfl

theorem padInitial_quiet (epoch : Epoch) (pnLen : ℕ) (p : Packing) :
    (padInitial epoch pnLen).Keeps Quiet p := by
  rw [padInitial, Program.keeps_get_bind]
  refine .ite (fun _ => ?_) fun _ => refl_of Quiet p
  exact .ite (fun _ => Program.keeps_underflow) fun _ => addPadding_quiet _ p

theorem padPayload_quiet (epoch : Epoch) (p : Packing) : (padPayload epoch).Keeps Quiet p := by
  rw [padPayload, Program.keeps_get_bind]
  exact .ite (fun _ => addPadding_quiet _ p) fun _ => refl_of Quiet p

private theorem joinFecGroup_quiet (p : Packing) : joinFecGroup.Keeps Quiet p := by
  rw [joinFecGroup, Program.keeps_get_bind]
  refine .ite (fun _ => Program.keeps_crash) fun _ => ?_
  refine .bind (modifyConn_quiet ?_) fun _ p _ => modifyDraft_quiet [] rfl ?_
  · exact { Connection.Quiet.refl p.conn with }
  · exact (List.append_nil _).symm

theorem sealPacket_quiet (epoch : Epoch) (headerLen pnLen avail : ℕ) (p : Packing) :
    (sealPacket epoch headerLen pnLen avail).Keeps Quiet p := by
  rw [sealPacket, Program.keeps_get_bind]
  refine .ite (fun _ => Program.keeps_fail.mpr (refl_of Quiet p)) fun _ => ?_
  refine .bind (.when fun _ => joinFecGroup_quiet p) fun _ p _ => ?_
  refine .ite (fun _ => Program.keeps_fail.mpr (refl_of Quiet p)) fun _ => ?_
  exact .ite (fun _ => Program.keeps_fail.mpr (refl_of Quiet p)) fun _ => refl_of Quiet p

theorem countProbe_quiet (epoch : Epoch) (p : Packing) : (countProbe epoch).Keeps Quiet p := by
  rw [countProbe, Program.keeps_get_bind]
  refine .ite (fun _ => modifyConn_quiet ?_) fun _ => refl_of Quiet p
  exact { Connection.Quiet.refl p.conn with }

end Packing

/-! ### Every call is a sequence of actions -/

/-- Some actions lead from one connection to the other, whatever packet is put together
meanwhile. -/
def Connection.Reaches (c c' : Connection) : Prop := ∀ d, ∃ d', Action.Reaches ⟨c, d⟩ ⟨c', d'⟩

/-- What a call of the connection `c` consists of. RESET_STREAM frames are written for the
streams that are cancelled when the call starts. -/
inductive Call.Allows (c : Connection) : Call → Action → Prop
  | write {id deadline priority now : ℕ} {data : List UInt8} {fin : Bool} :
    Allows c (.streamSend id data fin deadline priority now)
      (.write id data fin deadline priority now)
  | read {id cap : ℕ} : Allows c (.streamRecv id cap) (.read id cap)
  | shutdown {id : ℕ} {direction : Connection.Shutdown} :
    Allows c (.streamShutdown id direction) (.shutdown id direction)
  | timeout {env : Env} : Allows c (.onTimeout env) (.timeout env)
  | frame {d : Connection.Datagram} {pkt : Connection.RxPacket} {epoch : Epoch} {f : Frame × Env}
      (packet : pkt ∈ d.packets) (frame : f ∈ pkt.restored ++ pkt.frames) :
    Allows c (.recv d) (.frame f.1 epoch f.2)
  | acked {d : Connection.Datagram} {epoch : Epoch} : Allows c (.recv d) (.acked epoch)
  | received {d : Connection.Datagram} {pkt : Connection.RxPacket} {epoch : Epoch}
      (packet : pkt ∈ d.packets) : Allows c (.recv d) (.received pkt epoch)
  | handshake {outLen : ℕ} {env : SendEnv} : Allows c (.send outLen env) (.handshake env.handshake)
  | reset {outLen id : ℕ} {env : SendEnv} (canceled : id ∈ c.streams.canceled) :
    Allows c (.send outLen env) (.reset id)
  | sends {outLen : ℕ} {env : SendEnv} {action : Action} (h : action.isSending = true) :
    Allows c (.send outLen env) action
  | quiet {call : Call} {p : Packing} : Allows c call (.quiet p)

namespace Connection

variable {ok : Action → Prop}

/-- Some actions, each of them allowed, lead from one connection to the other, whatever packet
is put together meanwhile. -/
def ReachesBy (ok : Action → Prop) (c c' : Connection) : Prop :=
  ∀ d, ∃ d', Action.ReachesBy ok ⟨c, d⟩ ⟨c', d'⟩

instance : IsPreorder Connection (ReachesBy ok) where
  refl c d := ⟨d, refl_of (Action.ReachesBy ok) _⟩
  trans := by
    intro c c' c'' h h' d
    obtain ⟨d', hd⟩ := h d
    obtain ⟨d'', hd'⟩ := h' d'
    exact ⟨d'', trans_of (Action.ReachesBy ok) hd hd'⟩

instance : IsPreorder Connection Reaches where
  refl c d := ⟨d, refl_of Action.Reaches _⟩
  trans := by
    intro c c' c'' h h' d
    obtain ⟨d', hd⟩ := h d
    obtain ⟨d'', hd'⟩ := h' d'
    exact ⟨d'', trans_of Action.Reaches hd hd'⟩

theorem Quiet.reachesBy (hok : ∀ q, ok (.quiet q)) {c c' : Connection} (h : c.Quiet c') :
    c.ReachesBy ok c' := fun d =>
  ⟨d, (Packing.Quiet.of_conn (p := ⟨c, d⟩) h).reachesBy hok⟩

theorem onConn_after {α : Type} (x : Program Error Connection α) (p : Packing) :
    (Packing.onConn x).after p = (x.after p.conn).map fun c => ⟨c, p.draft⟩ := by
  unfold Program.after Packing.onConn Program.zoom
  rcases x p.conn with ⟨a, s⟩ | ⟨_ | _ | _ | _, s⟩ <;> rfl

/-- A program that is an action on the connection. -/
theorem keeps_reachesBy {α : Type} {x : Program Error Connection α} {action : Action}
    (hok : ok action) (h : ∀ p, Action.step p action = (Packing.onConn x).after p)
    (c : Connection) : x.Keeps (ReachesBy ok) c := by
  refine Program.keeps_iff_after.mpr fun c' hc' d => ⟨d, .of_step hok ?_⟩
  rw [h, onConn_after, hc']
  rfl

theorem modify_reachesBy {action : Action} (hok : ok action) {f : Connection → Connection}
    (h : ∀ p, Action.step p action = some { p with conn := f p.conn }) (c : Connection) :
    (modify f : Program Error Connection Unit).Keeps (ReachesBy ok) c :=
  fun d => ⟨d, .of_step hok (h ⟨c, d⟩)⟩

theorem processFrames_reachesBy {frames : List (Frame × Env)} {epoch : Epoch}
    (hok : ∀ f ∈ frames, ok (.frame f.1 epoch f.2)) (error : Option Error) (c : Connection) :
    (processFrames frames error epoch).Keeps (ReachesBy ok) c := by
  refine .bind (.forM_mem (fun f hf c => ?_) c) fun _ c _ => ?_
  · exact keeps_reachesBy (hok f hf) (fun _ => rfl) c
  · cases error with
    | none => exact refl_of (ReachesBy ok) c
    | some e => exact Program.keeps_fail.mpr (refl_of (ReachesBy ok) c)

private theorem recvSingle_reachesBy {pkt : RxPacket} (hquiet : ∀ q, ok (.quiet q))
    (hframe : ∀ f ∈ pkt.restored ++ pkt.frames, ∀ epoch, ok (.frame f.1 epoch f.2))
    (hacked : ∀ epoch, ok (.acked epoch)) (hreceived : ∀ epoch, ok (.received pkt epoch))
    (c : Connection) : (recvSingle pkt).Keeps (ReachesBy ok) c := by
  have hfail (e : Error) (c : Connection) :
      (Program.fail e : Program Error Connection Unit).Keeps (ReachesBy ok) c :=
    Program.keeps_fail.mpr (refl_of (ReachesBy ok) c)
  rw [recvSingle, Program.keeps_get_bind]
  refine .ite (fun _ => hfail _ c) fun _ => ?_
  cases pkt.ty.toEpoch with
  | none => exact hfail _ c
  | some epoch =>
    refine .ite (fun _ => refl_of (ReachesBy ok) c) fun _ => ?_
    refine .bind ((acceptHeader_quiet pkt c).mono fun _ => Quiet.reachesBy hquiet) fun _ c _ => ?_
    rw [Program.keeps_get_bind]
    refine .ite (fun _ => refl_of (ReachesBy ok) c) fun _ => .ite (fun _ => hfail _ c) fun _ => ?_
    refine .bind (processFrames_reachesBy (fun f hf => ?_) _ c) fun _ c _ => ?_
    · exact hframe f (List.mem_append_left _ hf) epoch
    refine .bind (processFrames_reachesBy (fun f hf => ?_) _ c) fun _ c _ => ?_
    · exact hframe f (List.mem_append_right _ hf) epoch
    refine .bind ?_ fun _ c _ => modify_reachesBy (hreceived epoch) (fun _ => rfl) c
    rw [drainAcked, Program.keeps_get_bind]
    exact .forM (fun _ c => modify_reachesBy (hacked epoch) (fun _ => rfl) c) _ c

theorem close_quiet {c c' : Connection} {app : Bool} {err : ℕ} {reason : List UInt8}
    (h : c.close app err reason = .ok c') : c.Quiet c' := by
  unfold close at h
  split_ifs at h <;> cases h <;> exact { Quiet.refl c with }

private theorem closeOnError_reachesBy (hquiet : ∀ q, ok (.quiet q))
    {x : Program Error Connection Unit}
    {c : Connection} (h : x.Keeps (ReachesBy ok) c) : (closeOnError x).Keeps (ReachesBy ok) c := by
  unfold Program.Keeps Program.Ends closeOnError at *
  rcases hx : x c with ⟨a, c'⟩ | ⟨e | _ | _ | _, c'⟩
  · rwa [hx] at h
  · have hc' : ReachesBy ok c c' := by
      rw [hx] at h
      exact h ⟨e, rfl⟩
    dsimp only
    split_ifs
    · exact fun _ => hc'
    · intro _
      split
      · exact trans_of (ReachesBy ok) hc' ((close_quiet ‹_›).reachesBy hquiet)
      · exact hc'
  all_goals
    rintro ⟨_, h⟩
    cases h

private theorem recv_reachesBy {d : Datagram} (hquiet : ∀ q, ok (.quiet q))
    (hpacket : ∀ pkt ∈ d.packets, ∀ c, (recvSingle pkt).Keeps (ReachesBy ok) c) (c : Connection) :
    (recv d).Keeps (ReachesBy ok) c := by
  refine .bind (closeOnError_reachesBy hquiet ?_) fun _ c _ => ?_
  · refine .bind (.forM_mem hpacket c) fun _ c _ => ?_
    cases d.error with
    | none => exact refl_of (ReachesBy ok) c
    | some e => exact Program.keeps_fail.mpr (refl_of (ReachesBy ok) c)
  · refine Quiet.reachesBy hquiet ?_
    dsimp only
    split_ifs
    · exact .refl c
    · exact { Quiet.refl c with }

end Connection

namespace Packing

variable {ok : Action → Prop}

/-- A program that is an action. -/
theorem keeps_reachesBy {α : Type} {x : Program Error Packing α} {action : Action}
    (hok : ok action) (h : ∀ p, Action.step p action = x.after p) (p : Packing) :
    x.Keeps (Action.ReachesBy ok) p :=
  Program.keeps_iff_after.mpr fun p' hp' => .of_step hok (by rw [h, hp'])

theorem quiet_reachesBy (hquiet : ∀ q, ok (.quiet q)) {α : Type} {x : Program Error Packing α}
    {p : Packing} (h : x.Keeps Quiet p) : x.Keeps (Action.ReachesBy ok) p :=
  h.mono fun _ => Quiet.reachesBy hquiet

section Send

variable (hquiet : ∀ q, ok (.quiet q)) (hsends : ∀ action, action.isSending = true → ok action)

include hsends

private theorem writeStream_reachesBy (env : SendEnv) (fuel : ℕ) (p : Packing) :
    (writeStream env fuel).Keeps (Action.ReachesBy ok) p := by
  induction fuel generalizing p with
  | zero => simp [writeStream, Program.Keeps]
  | succ fuel ih =>
    refine .bind (.of_discard ?_) fun _ p _ => ?_
    · exact keeps_reachesBy (hsends (.stream env) rfl) (fun _ => rfl) p
    · exact .ite (fun _ => refl_of (Action.ReachesBy ok) p) fun _ => ih p

include hquiet

private theorem writeFrames_reachesBy (epoch : Epoch) (env : SendEnv) {p : Packing}
    (hreset : ∀ id ∈ p.conn.streams.canceled, ok (.reset id)) :
    (writeFrames epoch env).Keeps (Action.ReachesBy ok) p := by
  have hmaxStreamData (id : ℕ) (p : Packing) :
      (writeMaxStreamData id).Keeps (Action.ReachesBy ok) p :=
    .of_discard (keeps_reachesBy (hsends (.maxStreamData id) rfl) (fun _ => rfl) p)
  rw [writeFrames, Program.keeps_get_bind]
  refine .bind (.when fun _ => quiet_reachesBy hquiet (writeAck_quiet epoch env p)) fun _ p _ => ?_
  refine .bind (.forWhile_mem (fun id hid p => ?_) p) fun _ p _ => ?_
  · have hcanceled := hreset id (mem_inOrder hid)
    exact .of_discard (keeps_reachesBy hcanceled (fun _ => rfl) p)
  refine .bind (.when fun _ => ?_) fun _ p _ => ?_
  · refine .bind (quiet_reachesBy hquiet (writeHandshakeDone_quiet p)) fun _ p _ => ?_
    refine .bind (keeps_reachesBy (hsends .maxStreamsBidi rfl) (fun _ => rfl) p) fun _ p _ => ?_
    refine .bind (keeps_reachesBy (hsends .maxStreamsUni rfl) (fun _ => rfl) p) fun _ p _ => ?_
    refine .bind (keeps_reachesBy (hsends .maxData rfl) (fun _ => rfl) p) fun _ p _ => ?_
    exact .forWhile hmaxStreamData _ p
  refine .bind (quiet_reachesBy hquiet (writeConnectionClose_quiet p)) fun _ p _ => ?_
  refine .bind (quiet_reachesBy hquiet (writeApplicationClose_quiet epoch p)) fun _ p _ => ?_
  refine .bind (quiet_reachesBy hquiet (writePathResponse_quiet p)) fun _ p _ => ?_
  refine .bind (.when fun _ => ?_) fun _ p _ => ?_
  · exact keeps_reachesBy (hsends (.crypto epoch) rfl) (fun _ => rfl) p
  rw [Program.keeps_get_bind]
  refine .bind (.when fun _ => writeStream_reachesBy hsends env _ p) fun _ p _ => ?_
  exact .when fun _ => quiet_reachesBy hquiet (writePing_quiet epoch p)

private theorem fillPacket_reachesBy (epoch : Epoch) (env : SendEnv) {p : Packing}
    (hreset : ∀ id ∈ p.conn.streams.canceled, ok (.reset id)) :
    (fillPacket epoch env).Keeps (Action.ReachesBy ok) p := by
  rw [fillPacket, Program.keeps_get_bind]
  rcases p.conn.fecEncoded with _ | ⟨⟨info, len⟩, rest⟩
  · exact writeFrames_reachesBy hquiet hsends epoch env hreset
  · refine quiet_reachesBy hquiet
      (.ite (fun _ => ?_) fun _ => Program.keeps_fail.mpr (refl_of Quiet p))
    refine .bind (modifyConn_quiet ?_) fun _ p _ => ?_
    · exact { Connection.Quiet.refl p.conn with }
    · refine .bind (addFrame_quiet rfl _ p) fun _ p _ => modifyDraft_quiet [] rfl ?_
      exact (List.append_nil _).symm

private theorem packet_reachesBy (epoch : Epoch) (headerLen pnLen avail : ℕ) (env : SendEnv)
    {p : Packing}
    (hreset : ∀ id ∈ p.conn.streams.canceled, ok (.reset id)) :
    (packet epoch headerLen pnLen avail env).Keeps (Action.ReachesBy ok) p := by
  refine .bind (fillPacket_reachesBy hquiet hsends epoch env hreset) fun _ p _ => ?_
  refine .bind (quiet_reachesBy hquiet (countProbe_quiet epoch p)) fun _ p _ => ?_
  rw [Program.keeps_get_bind]
  refine .ite (fun _ => Program.keeps_fail.mpr (refl_of (Action.ReachesBy ok) p)) fun _ => ?_
  refine .bind (quiet_reachesBy hquiet (padInitial_quiet epoch pnLen p)) fun _ p _ => ?_
  refine .bind (quiet_reachesBy hquiet (padPayload_quiet epoch p)) fun _ p _ => ?_
  refine .bind (quiet_reachesBy hquiet (sealPacket_quiet epoch headerLen pnLen avail p))
    fun written p _ => ?_
  refine .bind ?_ fun _ p _ => refl_of (Action.ReachesBy ok) p
  exact keeps_reachesBy (hsends (.record epoch written env) rfl) (fun _ => rfl) p

end Send

end Packing

namespace Connection

/-- The same streams wait for a RESET_STREAM frame. -/
def SameCanceled (c c' : Connection) : Prop := c'.streams.canceled = c.streams.canceled

instance : IsPreorder Connection SameCanceled where
  refl _ := rfl
  trans _ _ _ h h' := Eq.trans h' h

private theorem doHandshake_sameCanceled (step : HandshakeStep) (c : Connection) :
    (doHandshake step).Keeps SameCanceled c :=
  doHandshake_keeps
    { write := fun _ _ _ _ _ _ h => h
      full := fun _ h _ => h
      keys := fun _ h => h
      failed := fun _ _ _ h _ => h
      noProtocol := fun _ h _ => h
      refused := fun _ _ _ h _ => h
      params := fun _ _ _ h => h }

private theorem takeLost_sameCanceled (epoch : Epoch) (c : Connection) :
    (takeLost epoch).Keeps SameCanceled c := by
  have hparts : LostParts c.SameCanceled
      (fun e c' => (∃ err, e = .error err) → c.SameCanceled c') epoch :=
    { pop := fun _ _ h => h
      crypto := fun _ _ _ _ h => h
      blockInfo := fun _ _ _ _ h => h
      stream := fun _ _ _ _ flush _ _ _ h => by cases flush <;> exact h
      ack := fun _ h => h
      handshakeDone := fun _ h => h
      refused := fun _ _ _ h _ => h }
  exact hparts.takeLost c rfl

variable {ok : Action → Prop}

private theorem send_reachesBy (outLen : ℕ) {env : SendEnv} {c : Connection}
    (hquiet : ∀ q, ok (.quiet q))
    (hsends : ∀ action, action.isSending = true → ok action)
    (hhandshake : ok (.handshake env.handshake))
    (hreset : ∀ id ∈ c.streams.canceled, ok (.reset id)) :
    (send outLen env).Keeps (ReachesBy ok) c := by
  have hfail (e : Error) (c : Connection) : (Program.fail e : Program Error Connection ℕ).Keeps
      (ReachesBy ok) c := Program.keeps_fail.mpr (refl_of (ReachesBy ok) c)
  rw [send, Program.keeps_get_bind]
  refine .ite (fun _ => hfail _ c) fun _ => .ite (fun _ => hfail _ c) fun _ =>
    .ite (fun _ => hfail _ c) fun _ => ?_
  refine .bind (.when fun _ => keeps_reachesBy hhandshake (fun _ => rfl) c) fun _ c₁ hc₁ => ?_
  have hsame₁ : SameCanceled c c₁ :=
    Program.Keeps.ok (.when fun _ => doHandshake_sameCanceled env.handshake c) hc₁
  rw [Program.keeps_get_bind]
  refine .bind (.ofExcept _) fun epoch c₂ hepoch => ?_
  obtain ⟨-, rfl⟩ := Program.ofExcept_eq_ok.mp hepoch
  refine .bind (drainLost_keeps (fun c => ?_) (fun c => ?_) c₁) fun _ c₂ hc₂ => ?_
  · exact keeps_reachesBy (hsends (.lost epoch) rfl) (fun _ => rfl) c
  · exact modify_reachesBy (hsends (.clearLost epoch) rfl) (fun _ => rfl) c
  have hsame₂ : SameCanceled c₁ c₂ :=
    (drainLost_keeps (takeLost_sameCanceled epoch) (fun _ => rfl) c₁).ok hc₂
  rw [Program.keeps_get_bind]
  cases pktNumLen (c₂.pktNumSpaces epoch).nextPktNum with
  | none => exact hfail _ c₂
  | some pnLen =>
    refine .ite (fun _ => hfail _ c₂) fun _ => .ite (fun _ => hfail _ c₂) fun _ =>
      .ite (fun _ => hfail _ c₂) fun _ => ?_
    -- a packet is put together from an empty one
    refine .zoom (Packing.packet_reachesBy hquiet hsends epoch _ pnLen _ env ?_) fun p hp d =>
      ⟨p.draft, trans_of (Action.ReachesBy ok) (.of_step (hsends (.start _) rfl) rfl) hp⟩
    intro id hid
    exact hreset id (hsame₁ ▸ hsame₂ ▸ hid)

end Connection

/-- Every call is a sequence of actions that it allows. -/
theorem Call.reachesBy {c c' : Connection} {call : Call} (h : Call.step c call = some c') :
    c.ReachesBy (call.Allows c) c' := by
  have hquiet (q : Packing) : call.Allows c (.quiet q) := .quiet
  refine Program.keeps_iff_after.mp ?_ c' h
  cases call with
  | streamSend streamId data fin deadline priority now =>
    exact .discard (.of_discard (Connection.keeps_reachesBy .write (fun _ => rfl) c))
  | streamRecv streamId cap =>
    exact .discard (.of_discard (Connection.keeps_reachesBy .read (fun _ => rfl) c))
  | streamShutdown streamId direction =>
    exact Connection.keeps_reachesBy .shutdown (fun _ => rfl) c
  | recv datagram =>
    refine Connection.recv_reachesBy hquiet (fun pkt hpkt c' => ?_) c
    refine Connection.recvSingle_reachesBy hquiet (fun f hf epoch => .frame hpkt hf) ?_ ?_ c'
    · exact fun _ => .acked
    · exact fun _ => .received hpkt
  | send outLen env =>
    refine (Connection.send_reachesBy outLen hquiet ?_ .handshake ?_).discard
    · exact fun _ => .sends
    · exact fun _ => .reset
  | onTimeout env => exact Connection.modify_reachesBy .timeout (fun _ => rfl) c
  | setTail tailSize => exact Connection.Quiet.reachesBy hquiet { Connection.Quiet.refl c with }
  | close app err reason =>
    rw [Call.program, Program.keeps_get_bind]
    cases hclose : c.close app err reason with
    | error e => exact Program.keeps_fail.mpr (refl_of (Connection.ReachesBy _) c)
    | ok c' => exact (Connection.close_quiet hclose).reachesBy hquiet

/-- Every call is a sequence of actions. -/
theorem Call.reaches {c c' : Connection} {call : Call} (h : Call.step c call = some c') :
    c.Reaches c' := fun d => by
  obtain ⟨d', hd⟩ := Call.reachesBy h d
  exact ⟨d', hd.reaches⟩

/-- What holds at the start and is preserved by every action holds in every reachable
state. -/
theorem Connection.Reachable.induct {I : Connection → Draft → Prop} {c : Connection}
    (hnew : ∀ config isServer afterRetry now, I (.new config isServer afterRetry now) (.new 0))
    (hstep : ∀ p action p', I p.conn p.draft → Action.step p action = some p' → I p'.conn p'.draft)
    (h : c.Reachable) : ∃ d, I c d := by
  obtain ⟨config, isServer, afterRetry, now, calls, hrun⟩ := h
  have hI : ∃ d, I (.new config isServer afterRetry now) d := ⟨.new 0, hnew _ _ _ _⟩
  refine Lib.run_invariant (I := fun c => ∃ d, I c d) ?_ hI hrun
  rintro c call c' ⟨d, hI⟩ hcall
  obtain ⟨d', actions, hactions⟩ := Call.reaches hcall d
  exact ⟨d', Lib.run_invariant (I := fun p : Packing => I p.conn p.draft) hstep (s := ⟨c, d⟩) hI
    hactions⟩

end Dtp
