import Dtp.CallParts
import Dtp.StreamLimits
import Dtp.Writers

/-!
# The stream map of a connection

A connection changes its streams by the operations of the stream map alone, so what every
run of these preserves holds of the streams of every reachable connection. Most parts of a
call leave what was received, and the set of readable streams, as it is.

## Main definitions

* `StreamMap.Op.leavesData` — the operations that leave received data alone
* `Connection.Steers` — the streams of a connection change by some operations
* `Part.leavesData` — the parts of a call that leave received data alone

## Main results

* `Part.steers` — the parts of a call change the streams by operations of the map
* `Connection.limits_of_run` — the stream limits hold in every state of a connection
-/

namespace Dtp

open Lib (Program run)

namespace StreamMap

/-- The operation changes neither received data nor the set of readable streams. -/
def Op.leavesData : Op → Bool
  | .collect _ | .recv _ _ | .markReadable _ _ => false
  | _ => true

/-- Operations that meet `ok` lead from one map to the other. -/
def Reaches (isServer : Bool) (ok : Op → Bool) (m m' : StreamMap) : Prop :=
  ∃ ops : List Op, ops.all ok = true ∧ run (step isServer) m ops = some m'

section Reaches

variable {isServer : Bool} {ok : Op → Bool} {m m' : StreamMap}

instance : IsPreorder StreamMap (Reaches isServer ok) where
  refl m := ⟨[], rfl, rfl⟩
  trans := by
    rintro m m' m'' ⟨ops, hops, hrun⟩ ⟨ops', hops', hrun'⟩
    refine ⟨ops ++ ops', by rw [List.all_append, hops, hops']; rfl, ?_⟩
    rw [Lib.run_append, hrun]
    exact hrun'

theorem Reaches.refl (m : StreamMap) : m.Reaches isServer ok m := refl_of _ m

theorem Reaches.trans {m'' : StreamMap} (h : m.Reaches isServer ok m')
    (h' : m'.Reaches isServer ok m'') :
    m.Reaches isServer ok m'' := trans_of _ h h'

theorem Reaches.mono (h : m.Reaches isServer ok m') {ok' : Op → Bool} (hok : ∀ op, ok op → ok' op) :
    m.Reaches isServer ok' m' := by
  obtain ⟨ops, hops, hrun⟩ := h
  refine ⟨ops, List.all_eq_true.mpr fun op hop => hok op ?_, hrun⟩
  exact List.all_eq_true.mp hops op hop

/-- One operation is a run. -/
theorem Reaches.of_step (op : Op) (hok : ok op = true) (h : m.step isServer op = some m') :
    m.Reaches isServer ok m' := by
  refine ⟨[op], by simpa using hok, ?_⟩
  rw [Lib.run_cons, h]
  rfl

/-- Both branches are runs. -/
theorem Reaches.ite {c : Prop} [Decidable c] {m'' : StreamMap} (h : m.Reaches isServer ok m')
    (h' : m.Reaches isServer ok m'') : m.Reaches isServer ok (if c then m' else m'') := by
  split_ifs
  · exact h
  · exact h'

end Reaches

/-- Some operations that leave received data alone lead from one map to the other. -/
abbrev Edits (isServer : Bool) : StreamMap → StreamMap → Prop := Reaches isServer Op.leavesData

section Edits

variable {isServer : Bool} {m m' : StreamMap} {id : ℕ} {s : Stream}

private theorem edits_getOrCreate {args : OpenArgs} (hserver : args.isServer = isServer)
    (h : m.getOrCreate id args = .ok (s, m')) : m.Edits isServer m' := by
  refine .of_step (.getOrCreate id args) rfl ?_
  rw [step, if_pos hserver, h]

/-- The send buffer of a stream changes. -/
theorem edits_putSend (live : m.streams id = some s) (send : SendBuf) :
    m.Edits isServer (m.putSend id s send) := by
  refine .of_step (.send id send) rfl ?_
  rw [step, live]
  rfl

/-- The limits of a stream and its block change. -/
theorem edits_settle (live : m.streams id = some s)
    (maxData blockSize blockPriority blockDeadline startTime : ℕ) :
    m.Edits isServer (m.putRecv id s
      { s.recv with
        maxData := maxData
        blockSize := blockSize
        blockPriority := blockPriority
        blockDeadline := blockDeadline
        startTime := startTime }) := by
  refine .of_step (.settle id maxData blockSize blockPriority blockDeadline startTime) rfl ?_
  rw [step, live]
  rfl

/-- Queue and marks change. -/
theorem edits_mark (m : StreamMap) (flushable writable canceled canceledDepend almostFull : List ℕ)
    (scheduler : DynScheduler) :
    m.Edits isServer { m with
      flushable := flushable
      writable := writable
      canceled := canceled
      canceledDepend := canceledDepend
      almostFull := almostFull
      scheduler := scheduler } :=
  .of_step (.mark flushable writable canceled canceledDepend almostFull scheduler) rfl rfl

/-- A stream is queued. -/
theorem edits_pushFlushable (m : StreamMap) (id : ℕ) : m.Edits isServer (m.pushFlushable id) :=
  m.edits_mark (m.flushable ++ [id]) m.writable m.canceled m.canceledDepend m.almostFull m.scheduler

private theorem edits_setFlushable (m : StreamMap) (ids : List ℕ) :
    m.Edits isServer (m.setFlushable ids) :=
  m.edits_mark ids m.writable m.canceled m.canceledDepend m.almostFull m.scheduler

private theorem edits_setScheduler (m : StreamMap) (scheduler : DynScheduler) :
    m.Edits isServer (m.setScheduler scheduler) :=
  m.edits_mark m.flushable m.writable m.canceled m.canceledDepend m.almostFull scheduler

/-- A stream is marked writable or not. -/
theorem edits_markWritable (m : StreamMap) (id : ℕ) (b : Bool) :
    m.Edits isServer (m.markWritable id b) :=
  m.edits_mark m.flushable
    (mark m.writable id b) m.canceled m.canceledDepend m.almostFull m.scheduler

private theorem edits_markCanceled (m : StreamMap) (id : ℕ) (b : Bool) :
    m.Edits isServer (m.markCanceled id b) :=
  m.edits_mark m.flushable m.writable
    (mark m.canceled id b) m.canceledDepend m.almostFull m.scheduler

/-- A stream is marked almost full or not. -/
theorem edits_markAlmostFull (m : StreamMap) (id : ℕ) (b : Bool) :
    m.Edits isServer (m.markAlmostFull id b) :=
  m.edits_mark m.flushable m.writable m.canceled m.canceledDepend
    (mark m.almostFull id b) m.scheduler

private theorem cancelBlock_edits (id : ℕ) (m : StreamMap) : (cancelBlock id).Keeps
    (Edits isServer) m := by
  let m₁ : StreamMap :=
    { m with canceled := m.canceled.insert id, canceledDepend := m.canceledDepend.insert id }
  have hmark : m.Edits isServer m₁ :=
    m.edits_mark m.flushable m.writable (m.canceled.insert id) (m.canceledDepend.insert id)
      m.almostFull m.scheduler
  refine cancelBlock_keeps (fun _ _ _ => hmark) fun s live => ?_
  have live₁ : m₁.streams id = some s := live
  have hsend : m₁.Edits isServer
      (m₁.putSend id s { s.send with isShutdown := true, data := .empty }) := edits_putSend live₁ _
  exact (hmark.trans hsend).trans (edits_markWritable _ id false)

private theorem peekFlushable_edits (pace : Pace) (m : StreamMap) :
    (peekFlushable pace).Keeps (Edits isServer) m :=
  peekFlushable_keeps cancelBlock_edits edits_setFlushable (fun m _ _ r _ =>
    edits_setScheduler m r.2) pace m

end Edits

end StreamMap

namespace Connection

open StreamMap (Op)

/-- The streams of a connection change by operations that meet `ok`. -/
structure Steers (ok : Op → Bool) (c c' : Connection) : Prop where
  isServer : c'.isServer = c.isServer
  streams : c.streams.Reaches c.isServer ok c'.streams

/-- The streams of a connection change by operations that leave received data alone. -/
abbrev Edits : Connection → Connection → Prop := Steers Op.leavesData

variable {ok : Op → Bool} {c c' : Connection}

instance : IsPreorder Connection (Steers ok) where
  refl c := ⟨rfl, .refl c.streams⟩
  trans _ _ _ h h' := ⟨h'.isServer.trans h.isServer, h.streams.trans (h.isServer ▸ h'.streams)⟩

theorem Steers.refl (c : Connection) : c.Steers ok c := refl_of _ c

theorem Steers.mono (h : c.Steers ok c') {ok' : Op → Bool} (hok : ∀ op, ok op → ok' op) :
    c.Steers ok' c' := ⟨h.isServer, h.streams.mono hok⟩

/-- The streams stay. -/
theorem steers_of_eq (hisServer : c'.isServer = c.isServer) (hstreams : c'.streams = c.streams) :
    c.Steers ok c' := ⟨hisServer, by rw [hstreams]; exact .refl c.streams⟩

/-- Streams are left alone. -/
theorem Quiet.steers (h : c.Quiet c') : c.Steers ok c' := steers_of_eq h.isServer h.streams

/-! ### The application -/

theorem getOrCreateStream_edits {id : ℕ} {byLocal : Bool} {deadline priority now : ℕ} {s : Stream}
    {m : StreamMap} (h : c.getOrCreateStream id byLocal deadline priority now = .ok (s, m)) :
    c.streams.Edits c.isServer m ∧ m.streams id = some s := by
  refine ⟨StreamMap.edits_getOrCreate rfl h, ?_⟩
  rw [(getOrCreateStream_spec h).2.streams]
  exact StreamMap.put_streams_self _ _ _

private theorem streamSendFull_edits (id : ℕ) (data : List UInt8) (fin : Bool)
    (deadline priority now : ℕ)
    (c : Connection) : (streamSendFull id data fin deadline priority now).Keeps Edits c := by
  rw [streamSendFull, Program.keeps_get_bind]
  refine .ite (fun _ => Program.keeps_fail.mpr (.refl c)) fun _ => ?_
  cases hopen : c.getOrCreateStream id true deadline priority now with
  | error e => exact Program.keeps_fail.mpr (.refl c)
  | ok r =>
    obtain ⟨s, m⟩ := r
    obtain ⟨hedits, live⟩ := getOrCreateStream_edits hopen
    simp only [Program.Keeps, Program.ofExcept_ok, pure_bind, Program.ends_bind, Program.ends_set]
    cases SendBuf.pushSlice data fin s.send with
    | error e send =>
      simp only [Program.ends_bind, Program.ends_set, Program.ends_throw]
      exact fun _ => ⟨rfl, hedits.trans (StreamMap.edits_putSend live send)⟩
    | ok n send =>
      simp only [Program.ends_bind, Program.ends_set, Program.ends_pure]
      refine ⟨rfl, .trans ?_ (.ite (.refl _) (StreamMap.edits_markWritable _ id false))⟩
      refine .trans ?_ (.ite (StreamMap.edits_pushFlushable _ id) (.refl _))
      exact hedits.trans (StreamMap.edits_putSend live send)

private theorem shutdownWrite_edits (id : ℕ) (c : Connection) :
    (streamShutdown id .write).Keeps Edits c := by
  rw [streamShutdown, Program.keeps_get_bind]
  cases live : c.streams.streams id with
  | none => exact Program.keeps_fail.mpr (.refl c)
  | some s =>
    simp only [Program.Keeps, Program.ends_bind, Program.ends_ofExcept, Program.ends_set]
    refine ⟨fun send _ => ⟨rfl, ?_⟩, fun _ _ _ => .refl c⟩
    exact (StreamMap.edits_putSend live send).trans (StreamMap.edits_markWritable _ id false)

/-! ### Received frames -/

private theorem processBlockInfo_edits (id blockSize blockPriority blockDeadline startTime : ℕ)
    (env : Env)
    (c : Connection) :
    (processBlockInfo id blockSize blockPriority blockDeadline startTime env).Keeps Edits c := by
  rw [processBlockInfo, Program.keeps_get_bind]
  refine .ite (fun _ => Program.keeps_fail.mpr (.refl c)) fun _ => ?_
  cases hopen : c.peerStream id env.wall with
  | error e => exact Program.keeps_fail.mpr (.refl c)
  | ok r =>
    obtain ⟨hedits, live⟩ := getOrCreateStream_edits hopen
    exact ⟨rfl, hedits.trans (StreamMap.edits_settle live r.1.recv.maxData _ _ _ _)⟩

private theorem processMaxStreamData_edits (id max : ℕ) (env : Env) (c : Connection) :
    (processMaxStreamData id max env).Keeps Edits c := by
  rw [processMaxStreamData, Program.keeps_get_bind]
  cases hopen : c.peerStream id env.wall with
  | error e =>
    cases e
    case done => exact .refl c
    all_goals exact Program.keeps_fail.mpr (.refl c)
  | ok r =>
    obtain ⟨hedits, live⟩ := getOrCreateStream_edits hopen
    refine ⟨rfl, .trans ?_ (.ite (StreamMap.edits_markWritable _ id true) (.refl _))⟩
    refine .trans ?_ (.ite (StreamMap.edits_pushFlushable _ id) (.refl _))
    exact hedits.trans (StreamMap.edits_putSend live (r.1.send.updateMaxData max))

theorem modifySpace_steers (c : Connection) (epoch : Epoch) (f : PktNumSpace → PktNumSpace) :
    c.Steers ok (c.modifySpace epoch f) := steers_of_eq rfl rfl

/-- Keys have nothing to do with streams. -/
theorem Steers.dropEpochState (h : c.Steers ok c') (epoch : Epoch) (now : ℕ) :
    c.Steers ok (c'.dropEpochState epoch now) := by
  unfold Connection.dropEpochState
  split_ifs
  · exact ⟨h.isServer, h.streams⟩
  · exact h

theorem doHandshake_edits (step : HandshakeStep) (c : Connection) :
    (doHandshake step).Keeps Edits c := by
  have hmoves {c' c'' : Connection} (h : c.Edits c') (hedits : c'.Edits c'') : c.Edits c'' :=
    trans_of Edits h hedits
  exact doHandshake_keeps
    { write := fun epoch _ _ _ c' _ h => hmoves h (modifySpace_steers c' epoch _)
      full := fun _ h _ => h
      keys := fun _ h => hmoves h (steers_of_eq rfl rfl)
      failed := fun _ _ _ h _ => h
      noProtocol := fun _ h _ => hmoves h (steers_of_eq rfl rfl)
      refused := fun _ _ _ h _ => h
      params := fun params _ _ h => hmoves h ⟨rfl,
        .trans (.of_step (.updatePeerMaxStreamsBidi params.initialMaxStreamsBidi) rfl rfl)
          (.of_step (.updatePeerMaxStreamsUni params.initialMaxStreamsUni) rfl rfl)⟩ }

private theorem readCrypto_steers (epoch : Epoch) (fuel : ℕ) (c : Connection) :
    (readCrypto epoch fuel).Keeps (Steers ok) c := by
  induction fuel generalizing c with
  | zero => exact .refl c
  | succ fuel ih =>
    rw [readCrypto, Program.keeps_get_bind]
    dsimp only
    split
    · exact .refl c
    · exact .bind (Program.keeps_set.mpr (modifySpace_steers c epoch _)) fun _ c _ => ih c

private theorem processCrypto_edits (data : RangeBuf) (epoch : Epoch) (env : Env) (c : Connection) :
    (processCrypto data epoch env).Keeps Edits c := by
  rw [processCrypto, Program.keeps_get_bind]
  dsimp only
  split
  · exact fun _ => .refl c
  · refine .bind (Program.keeps_set.mpr (modifySpace_steers c epoch _)) fun _ c _ => ?_
    exact .bind (readCrypto_steers epoch _ c) fun _ c _ => doHandshake_edits env.handshake c

private theorem processAck_steers (packetTime ackDelay : ℕ) (ranges : RangeSet) (epoch : Epoch)
    (env : Env)
    (c : Connection) : (processAck packetTime ackDelay ranges epoch env).Keeps (Steers ok) c := by
  rw [processAck, Program.keeps_get_bind]
  refine .ite (fun _ => Program.keeps_fail.mpr (.refl c)) fun _ => ?_
  split
  · exact fun _ => .refl c
  · refine .ite (fun _ => Program.keeps_set.mpr ?_) fun _ => steers_of_eq rfl rfl
    refine Steers.dropEpochState ?_ _ _
    exact steers_of_eq rfl rfl

/-- The frame neither carries nor discards data of a stream. -/
def leavesData : Frame → Bool
  | .stream _ _ | .resetStream _ _ _ => false
  | _ => true

private theorem processFrame_edits {frame : Frame} (hframe : leavesData frame = true)
    (epoch : Epoch)
    (env : Env) (c : Connection) : (processFrame frame epoch env).Keeps Edits c := by
  cases frame with
  | ack packetTime ackDelay ranges => exact processAck_steers packetTime ackDelay ranges epoch env c
  | blockInfo id _ _ _ _ => exact processBlockInfo_edits id _ _ _ _ env c
  | resetStream id code finalSize => cases hframe
  | stopSending id code =>
    rw [processFrame, Program.keeps_get_bind]
    exact .ite (fun _ => Program.keeps_fail.mpr (.refl c)) fun _ => .refl c
  | crypto data => exact processCrypto_edits data epoch env c
  | stream id data => cases hframe
  | maxData max => exact steers_of_eq rfl rfl
  | maxStreamData id max => exact processMaxStreamData_edits id max env c
  | maxStreamsBidi max =>
    refine .ite (fun _ => Program.keeps_fail.mpr (.refl c)) fun _ => ⟨rfl, ?_⟩
    exact .of_step (.updatePeerMaxStreamsBidi max) rfl rfl
  | maxStreamsUni max =>
    refine .ite (fun _ => Program.keeps_fail.mpr (.refl c)) fun _ => ⟨rfl, ?_⟩
    exact .of_step (.updatePeerMaxStreamsUni max) rfl rfl
  | pathChallenge data => exact steers_of_eq rfl rfl
  | connectionClose _ _ _ => exact steers_of_eq rfl rfl
  | applicationClose _ _ => exact steers_of_eq rfl rfl
  | handshakeDone =>
    rw [processFrame, Program.keeps_get_bind]
    refine .ite (fun _ => Program.keeps_fail.mpr (.refl c)) fun _ =>
      .ite (fun _ => Program.keeps_fail.mpr (.refl c)) fun _ => Program.keeps_set.mpr ?_
    refine Steers.dropEpochState ?_ _ _
    exact steers_of_eq rfl rfl
  | _ => exact .refl c

private theorem received_steers (pkt : RxPacket) (epoch : Epoch) (c : Connection) :
    c.Steers ok (received pkt epoch c) := by
  unfold received
  dsimp only
  split_ifs
  · have hdrop : c.Steers ok (Connection.dropEpochState
        { c.modifySpace epoch pkt.record with recvCount := c.recvCount + 1 } .initial pkt.now) := by
      refine Steers.dropEpochState ?_ _ _
      exact steers_of_eq rfl rfl
    exact ⟨hdrop.isServer, hdrop.streams⟩
  · exact steers_of_eq rfl rfl

/-! ### Lost frames -/

private theorem takeLost_edits (epoch : Epoch) (c : Connection) :
    (takeLost epoch).Keeps Edits c := by
  have hmoves {c' c'' : Connection} (h : c.Edits c') (hedits : c'.Edits c'') : c.Edits c'' :=
    trans_of Edits h hedits
  have hparts : LostParts c.Edits (fun e c' => (∃ err, e = .error err) → c.Edits c') epoch :=
    { pop := fun _ _ h => hmoves h (steers_of_eq rfl rfl)
      crypto := fun _ _ c' _ h => hmoves h (modifySpace_steers c' epoch _)
      blockInfo := fun _ s _ live h =>
        hmoves h ⟨rfl, StreamMap.edits_putSend live { s.send with isNew := true }⟩
      stream := fun id _ _ send _ _ live _ h => hmoves h ⟨rfl,
        .trans (StreamMap.edits_putSend live send)
          (.ite (StreamMap.edits_pushFlushable _ id) (.refl _))⟩
      ack := fun c' h => hmoves h (modifySpace_steers c' epoch _)
      handshakeDone := fun _ h => hmoves h (steers_of_eq rfl rfl)
      refused := fun _ _ _ h _ => hmoves h (steers_of_eq rfl rfl) }
  exact hparts.takeLost c (.refl c)

end Connection

/-! ### Packets -/

namespace Packing

/-- What the writers of a packet do to the streams. -/
def Edits (p p' : Packing) : Prop := p.conn.Edits p'.conn

instance : IsPreorder Packing Edits where
  refl p := refl_of Connection.Edits p.conn
  trans _ _ _ h h' := trans_of Connection.Edits h h'

theorem quiet_edits {α : Type} {x : Program Error Packing α} {p : Packing} (h : x.Keeps Quiet p) :
    x.Keeps Edits p := h.mono fun _ h => h.conn.steers

theorem modifyStreams_edits {f : StreamMap → StreamMap} {p : Packing}
    (h : p.conn.streams.Edits p.conn.isServer (f p.conn.streams)) :
    (modifyStreams f).Keeps Edits p := ⟨rfl, h⟩

theorem addFrame_edits (frame : Frame) (flag : Bool) (p : Packing) :
    (addFrame frame flag).Keeps Edits p := by
  refine .of_ends (addFrame_ends frame flag p) (fun _ p' h => ?_) fun e _ h => absurd rfl (h e)
  rw [Edits, h.1]
  exact .refl p.conn

theorem tryFrame_edits (frame : Frame) (flag : Bool) (p : Packing) :
    (tryFrame frame flag).Keeps Edits p := by
  refine .of_ends (tryFrame_ends frame flag p) (fun _ p' h => ?_) fun e _ h => absurd rfl (h e)
  rw [Edits, h.1]
  exact .refl p.conn

private theorem writeReset_edits (id : ℕ) (p : Packing) : (writeReset id).Keeps Edits p := by
  rw [writeReset, Program.keeps_get_bind]
  refine .bind (modifyStreams_edits (StreamMap.edits_markCanceled _ id false)) fun _ p' _ => ?_
  cases p.conn.streams.streams id with
  | none => exact refl_of Edits p'
  | some s => exact tryFrame_edits _ _ p'

private theorem writeMaxStreamsBidi_edits (p : Packing) : writeMaxStreamsBidi.Keeps Edits p := by
  rw [writeMaxStreamsBidi, Program.keeps_get_bind]
  refine .ite (fun _ => ?_) fun _ => refl_of Edits p
  refine .bind (modifyStreams_edits ?_) fun _ p _ => addFrame_edits _ _ p
  exact .of_step .updateMaxStreamsBidi rfl rfl

private theorem writeMaxStreamsUni_edits (p : Packing) : writeMaxStreamsUni.Keeps Edits p := by
  rw [writeMaxStreamsUni, Program.keeps_get_bind]
  refine .ite (fun _ => ?_) fun _ => refl_of Edits p
  refine .bind (modifyStreams_edits ?_) fun _ p _ => addFrame_edits _ _ p
  exact .of_step .updateMaxStreamsUni rfl rfl

private theorem writeMaxData_edits (p : Packing) : writeMaxData.Keeps Edits p := by
  rw [writeMaxData, Program.keeps_get_bind]
  refine .ite (fun _ => ?_) fun _ => refl_of Edits p
  refine .bind (tryFrame_edits _ _ p) fun _ p _ => .ite (fun _ => ?_) fun _ => refl_of Edits p
  exact Program.keeps_modify.mpr (Connection.steers_of_eq rfl rfl)

private theorem writeMaxStreamData_edits (id : ℕ) (p : Packing) :
    (writeMaxStreamData id).Keeps Edits p := by
  rw [writeMaxStreamData, Program.keeps_get_bind]
  cases live : p.conn.streams.streams id with
  | none =>
    refine .bind (modifyStreams_edits (StreamMap.edits_markAlmostFull _ id false)) fun _ p _ => ?_
    exact refl_of Edits p
  | some s =>
    refine .bind (modifyStreams_edits ?_) fun _ p _ => tryFrame_edits _ _ p
    refine .trans ?_ (StreamMap.edits_markAlmostFull _ id false)
    exact StreamMap.edits_settle live s.recv.maxDataNext s.recv.blockSize s.recv.blockPriority
      s.recv.blockDeadline s.recv.startTime

private theorem writeCrypto_edits (epoch : Epoch) (p : Packing) :
    (writeCrypto epoch).Keeps Edits p := by
  rw [writeCrypto, Program.keeps_get_bind]
  refine .ite (fun _ => ?_) fun _ => refl_of Edits p
  refine .bind (Program.keeps_modify.mpr ?_) fun _ p _ => addFrame_edits _ _ p
  exact Connection.steers_of_eq rfl rfl

private theorem sendLoop_edits (env : SendEnv) : SendLoop env Edits where
  peek p m hm := ⟨rfl, Program.keeps_iff_after.mp (StreamMap.peekFlushable_edits env.pace _) m hm⟩
  send id s send p live := ⟨rfl, StreamMap.edits_putSend live send⟩
  push id p := ⟨rfl, StreamMap.edits_pushFlushable _ id⟩
  txData n p := Connection.steers_of_eq rfl rfl
  frame := addFrame_edits
  redundancy block tail p := by
    refine .of_ends (chooseRedundancy_effect env block tail p) (fun _ p' h => ?_) fun _ _ h =>
      h.elim
    rw [Edits, h.1]
    exact .refl p.conn

private theorem writeFrames_edits (epoch : Epoch) (env : SendEnv) (p : Packing) :
    (writeFrames epoch env).Keeps Edits p := by
  rw [writeFrames, Program.keeps_get_bind]
  refine .bind (.when fun _ => quiet_edits (writeAck_quiet epoch env p)) fun _ p _ => ?_
  refine .bind (.forWhile writeReset_edits _ p) fun _ p _ => ?_
  refine .bind (.when fun _ => ?_) fun _ p _ => ?_
  · refine .bind (quiet_edits (writeHandshakeDone_quiet p)) fun _ p _ => ?_
    refine .bind (writeMaxStreamsBidi_edits p) fun _ p _ => ?_
    refine .bind (writeMaxStreamsUni_edits p) fun _ p _ => ?_
    refine .bind (writeMaxData_edits p) fun _ p _ => ?_
    exact .forWhile writeMaxStreamData_edits _ p
  refine .bind (quiet_edits (writeConnectionClose_quiet p)) fun _ p _ => ?_
  refine .bind (quiet_edits (writeApplicationClose_quiet epoch p)) fun _ p _ => ?_
  refine .bind (quiet_edits (writePathResponse_quiet p)) fun _ p _ => ?_
  refine .bind (.when fun _ => writeCrypto_edits epoch p) fun _ p _ => ?_
  rw [Program.keeps_get_bind]
  refine .bind (.when fun _ => (sendLoop_edits env).writeStream _ p) fun _ p _ => ?_
  exact .when fun _ => quiet_edits (writePing_quiet epoch p)

theorem modifyConn_edits {f : Connection → Connection} {p : Packing} (h : p.conn.Edits (f p.conn)) :
    (modifyConn f).Keeps Edits p := h

private theorem fillPacket_edits (epoch : Epoch) (env : SendEnv) (p : Packing) :
    (fillPacket epoch env).Keeps Edits p := by
  rw [fillPacket, Program.keeps_get_bind]
  rcases p.conn.fecEncoded with _ | ⟨⟨info, len⟩, rest⟩
  · exact writeFrames_edits epoch env p
  · refine .ite (fun _ => ?_) fun _ => Program.keeps_fail.mpr (refl_of Edits p)
    refine .bind (modifyConn_edits (Connection.steers_of_eq rfl rfl)) fun _ p _ => ?_
    refine .bind (addFrame_edits _ _ p) fun _ p _ => ?_
    exact Program.keeps_modify.mpr (refl_of Edits p)

private theorem recordSent_edits (epoch : Epoch) (written : ℕ) (env : SendEnv) (p : Packing) :
    (recordSent epoch written env).Keeps Edits p := by
  rw [recordSent, Program.keeps_get_bind]
  refine .bind (modifyConn_edits (Connection.steers_of_eq rfl rfl)) fun _ p _ => ?_
  refine .bind (modifyConn_edits (Connection.steers_of_eq rfl rfl)) fun _ p _ => ?_
  refine .bind (modifyConn_edits (Connection.steers_of_eq rfl rfl)) fun _ p _ => ?_
  refine .bind (modifyConn_edits ?_) fun _ p _ => ?_
  · split_ifs
    · exact Connection.Steers.dropEpochState (.refl p.conn) _ _
    · exact .refl p.conn
  refine .bind (modifyConn_edits (Connection.steers_of_eq rfl rfl)) fun _ p _ => ?_
  exact .ite (fun _ => modifyConn_edits (Connection.steers_of_eq rfl rfl)) fun _ => refl_of Edits p

private theorem packet_edits (epoch : Epoch) (headerLen pnLen avail : ℕ) (env : SendEnv)
    (p : Packing) :
    (packet epoch headerLen pnLen avail env).Keeps Edits p := by
  refine .bind (fillPacket_edits epoch env p) fun _ p _ => ?_
  refine .bind (quiet_edits (countProbe_quiet epoch p)) fun _ p _ => ?_
  rw [Program.keeps_get_bind]
  refine .ite (fun _ => Program.keeps_fail.mpr (refl_of Edits p)) fun _ => ?_
  refine .bind (quiet_edits (padInitial_quiet epoch pnLen p)) fun _ p _ => ?_
  refine .bind (quiet_edits (padPayload_quiet epoch p)) fun _ p _ => ?_
  refine .bind (quiet_edits (sealPacket_quiet epoch headerLen pnLen avail p)) fun written p _ => ?_
  exact .bind (recordSent_edits epoch written env p) fun _ p _ => refl_of Edits p

end Packing

/-! ### Parts that change received data -/

namespace StreamMap

/-- Some operations lead from one map to the other. -/
abbrev Follows (isServer : Bool) : StreamMap → StreamMap → Prop := Reaches isServer fun _ => true

variable {isServer : Bool} {m m' : StreamMap} {id : ℕ} {s : Stream}

/-- What leaves received data alone is a list of operations. -/
theorem Edits.follows (h : m.Edits isServer m') : m.Follows isServer m' := h.mono fun _ _ => rfl

/-- The receive buffer of a stream changes. -/
theorem follows_putRecv (live : m.streams id = some s) (recv : RecvBuf) :
    m.Follows isServer (m.putRecv id s recv) := by
  refine .of_step (.recv id recv) rfl ?_
  rw [step, live]
  rfl

/-- A stream is marked readable or not. -/
theorem follows_markReadable (m : StreamMap) (id : ℕ) (b : Bool) :
    m.Follows isServer (m.markReadable id b) := .of_step (.markReadable id b) rfl rfl

/-- A stream is collected once it is complete. -/
theorem follows_collect (live : m.streams id = some s) :
    m.Follows isServer (if s.isComplete then m.collect id s.isLocal else m) := by
  split_ifs with hcomplete
  · refine .of_step (.collect id) rfl ?_
    simp only [step, live, if_pos hcomplete]
  · exact .refl m

end StreamMap

namespace Connection

open StreamMap (follows_putRecv follows_markReadable follows_collect)

/-- The streams of a connection change by operations of the stream map. -/
abbrev Follows : Connection → Connection → Prop := Steers fun _ => true

private theorem streamRecv_follows (id cap : ℕ) (c : Connection) :
    (streamRecv id cap).Keeps Follows c := by
  rw [streamRecv, Program.keeps_get_bind]
  refine .ite (fun _ => Program.keeps_fail.mpr (.refl c)) fun _ => ?_
  cases live : c.streams.streams id with
  | none => exact Program.keeps_fail.mpr (.refl c)
  | some s =>
    refine .ite (fun _ => Program.keeps_fail.mpr (.refl c)) fun _ => ?_
    cases s.recv.pop cap with
    | error e => exact Program.keeps_fail.mpr (.refl c)
    | ok r =>
      refine ⟨rfl, .trans ?_ (follows_collect ?_)⟩
      · refine .trans ?_ (.ite (.refl _) (follows_markReadable _ id false))
        refine .trans ?_ (.ite (StreamMap.Edits.follows (StreamMap.edits_markAlmostFull _ id true))
          (.refl _))
        exact follows_putRecv live r.2.2
      · split_ifs <;> exact StreamMap.put_streams_self _ _ _

private theorem shutdownRead_follows (id : ℕ) (c : Connection) :
    (streamShutdown id .read).Keeps Follows c := by
  rw [streamShutdown, Program.keeps_get_bind]
  cases live : c.streams.streams id with
  | none => exact Program.keeps_fail.mpr (.refl c)
  | some s =>
    simp only [Program.Keeps, Program.ends_bind, Program.ends_ofExcept, Program.ends_set]
    refine ⟨fun recv _ => ⟨rfl, ?_⟩, fun _ _ _ => .refl c⟩
    exact (follows_putRecv live recv).trans (follows_markReadable _ id false)

private theorem processStream_follows (id : ℕ) (data : RangeBuf) (env : Env) (c : Connection) :
    (processStream id data env).Keeps Follows c := by
  rw [processStream, Program.keeps_get_bind]
  refine .ite (fun _ => Program.keeps_fail.mpr (.refl c)) fun _ =>
    .ite (fun _ => Program.keeps_fail.mpr (.refl c)) fun _ => ?_
  cases hopen : c.peerStream id env.wall with
  | error e =>
    cases e
    case done => exact .refl c
    all_goals exact Program.keeps_fail.mpr (.refl c)
  | ok r =>
    obtain ⟨s, m⟩ := r
    obtain ⟨hedits, live⟩ := getOrCreateStream_edits hopen
    simp only [Program.Keeps, Program.ends_bind, Program.ends_set]
    split
    · exact fun _ => ⟨rfl, hedits.follows⟩
    · refine ⟨rfl, .trans ?_ (.ite (follows_markReadable _ id true) (.refl _))⟩
      exact hedits.follows.trans (follows_putRecv live _)

private theorem processResetStream_follows (id code finalSize : ℕ) (env : Env) (c : Connection) :
    (processResetStream id code finalSize env).Keeps Follows c := by
  rw [processResetStream, Program.keeps_get_bind]
  refine .ite (fun _ => Program.keeps_fail.mpr (.refl c)) fun _ => ?_
  cases hopen : c.peerStream id env.wall with
  | error e =>
    cases e
    case done => exact .refl c
    all_goals exact Program.keeps_fail.mpr (.refl c)
  | ok r =>
    obtain ⟨s, m⟩ := r
    obtain ⟨hedits, live⟩ := getOrCreateStream_edits hopen
    have hput (recv : RecvBuf) : c.streams.Follows c.isServer (m.putRecv id s recv) :=
      hedits.follows.trans (follows_putRecv live recv)
    simp only [Program.Keeps, Program.ends_bind, Program.ends_set, Program.ends_ofExcept,
      Program.ends_ite,
      Program.ends_fail, Program.ends_pure]
    refine ⟨fun recv _ =>
      ⟨fun r _ => ⟨fun _ _ => ⟨rfl, hput r.2⟩, fun _ => ⟨rfl, hput r.2⟩⟩, ?_⟩, ?_⟩
    · exact fun _ _ _ => ⟨rfl, hput recv⟩
    · exact fun _ _ _ => ⟨rfl, hedits.follows⟩

private theorem takeAcked_follows (epoch : Epoch) (c : Connection) :
    c.Follows (takeAcked epoch c) := by
  have hmoves {c' c'' : Connection} (h : c.Follows c') (hfollows : c'.Follows c'') :
      c.Follows c'' := trans_of Follows h hfollows
  have hparts : AckedParts c.Follows epoch :=
    { pop := fun _ _ h => hmoves h (steers_of_eq rfl rfl)
      ack := fun _ _ h => hmoves h (steers_of_eq rfl rfl)
      crypto := fun _ _ h => hmoves h (steers_of_eq rfl rfl)
      stream := fun id data s s' c' live hs' h => by
        subst hs'
        refine hmoves h ⟨rfl, .trans (StreamMap.Edits.follows ?_)
          (follows_collect (StreamMap.put_streams_self _ _ _))⟩
        exact StreamMap.edits_putSend live (s.send.ack data.off data.len) }
  exact hparts.takeAcked (.refl c)

end Connection

namespace Part

open StreamMap (Op)

/-- The part neither receives data of a stream nor discards it, and collects no stream. -/
def leavesData : Part → Bool
  | read _ _ | shutdown _ .read | acked _ => false
  | frame f _ _ => Connection.leavesData f
  | _ => true

/-- A part that leaves received data alone. -/
theorem edits {part : Part} (hpart : part.leavesData = true) {c c' : Connection}
    (h : part.step c = some c') : c.Edits c' := by
  refine Program.keeps_iff_after.mp ?_ c' h
  cases part with
  | write id data fin deadline priority now =>
    exact (Connection.streamSendFull_edits id data fin deadline priority now c).discard
  | read => cases hpart
  | shutdown id direction =>
    cases direction
    · cases hpart
    · exact Connection.shutdownWrite_edits id c
  | close app err reason =>
    rw [program, Program.keeps_get_bind]
    cases hclose : c.close app err reason with
    | error e => exact Program.keeps_fail.mpr (.refl c)
    | ok c' => exact (Connection.close_quiet hclose).steers
  | setTail => exact Connection.steers_of_eq rfl rfl
  | timeout env =>
    refine Program.keeps_modify.mpr ?_
    unfold Connection.onTimeout
    split_ifs
    · exact .refl c
    · exact Connection.steers_of_eq rfl rfl
    · exact .refl c
  | header pkt => exact (Connection.acceptHeader_quiet pkt c).mono fun _ h => h.steers
  | frame f epoch env => exact Connection.processFrame_edits hpart epoch env c
  | acked => cases hpart
  | received pkt epoch => exact Program.keeps_modify.mpr (Connection.received_steers pkt epoch c)
  | credit len =>
    refine Program.keeps_modify.mpr ?_
    split_ifs
    · exact .refl c
    · exact Connection.steers_of_eq rfl rfl
  | handshake step => exact Connection.doHandshake_edits step c
  | lost epoch => exact Connection.takeLost_edits epoch c
  | clearLost epoch => exact Program.keeps_modify.mpr (Connection.steers_of_eq rfl rfl)
  | packet epoch room headerLen pnLen avail env =>
    refine Program.Keeps.discard (.zoom (Packing.packet_edits epoch headerLen pnLen avail env _) ?_)
    exact fun _ h => h

/-- Every part changes the streams by operations of the stream map. -/
theorem steers {part : Part} {c c' : Connection} (h : part.step c = some c') : c.Follows c' := by
  by_cases hpart : part.leavesData = true
  · exact (edits hpart h).mono fun _ _ => rfl
  refine Program.keeps_iff_after.mp ?_ c' h
  cases part with
  | read id cap => exact (Connection.streamRecv_follows id cap c).discard
  | shutdown id direction =>
    cases direction
    · exact Connection.shutdownRead_follows id c
    · exact absurd rfl hpart
  | acked epoch => exact Program.keeps_modify.mpr (Connection.takeAcked_follows epoch c)
  | frame f epoch env =>
    cases f with
    | stream id data => exact Connection.processStream_follows id data env c
    | resetStream id code finalSize =>
      exact Connection.processResetStream_follows id code finalSize env c
    | _ => exact absurd rfl hpart
  | _ => exact absurd rfl hpart

end Part

/-! ### Limits of reachable connections -/

namespace StreamMap.History

/-- Every run of the map is one of its history. -/
theorem exists_run {isServer : Bool} {m m' : StreamMap} {ops : List Op}
    (hrun : run (StreamMap.step isServer) m ops = some m') (created : List ℕ) :
    ∃ created', run (step isServer) ⟨m, created⟩ ops = some ⟨m', created'⟩ := by
  induction ops generalizing m created with
  | nil =>
    obtain rfl : m = m' := by simpa using hrun
    exact ⟨created, rfl⟩
  | cons op ops ih =>
    obtain ⟨m₁, hstep, hrest⟩ := Option.bind_eq_some_iff.mp hrun
    obtain ⟨created', hrun'⟩ := ih hrest (created ++ m.newIds op)
    refine ⟨created', ?_⟩
    rw [Lib.run_cons, step, hstep]
    exact hrun'

end StreamMap.History

/-- The stream limits are enforced in every state that a connection reaches. -/
theorem Connection.limits_of_run {config : Connection.Config} {isServer afterRetry : Bool} {now : ℕ}
    (hbidi : config.localTransportParams.initialMaxStreamsBidi ≤ u64Max)
    (huni : config.localTransportParams.initialMaxStreamsUni ≤ u64Max) {calls : List Call}
    {c : Connection} (hrun : run Call.step (.new config isServer afterRetry now) calls = some c) :
    ∃ created, StreamMap.History.Limited saturatingAdd isServer
      (fun bidi => if bidi then config.localTransportParams.initialMaxStreamsBidi
        else config.localTransportParams.initialMaxStreamsUni) ⟨c.streams, created⟩ := by
  have hfollows : (Connection.new config isServer afterRetry now).Follows c := by
    refine Lib.run_invariant (I := fun c => Connection.Follows _ c) ?_ (.refl _) hrun
    intro c call c' hc hcall
    obtain ⟨parts, hparts⟩ := Call.exists_parts hcall
    exact Lib.run_invariant (I := fun c => Connection.Follows _ c)
      (fun _ _ _ h hstep => trans_of Connection.Follows h (Part.steers hstep)) hc hparts
  obtain ⟨ops, -, hops⟩ := hfollows.streams
  obtain ⟨created, hhistory⟩ := StreamMap.History.exists_run hops []
  exact ⟨created, (StreamMap.History.account_of_run hbidi huni hhistory).limited⟩

end Dtp
