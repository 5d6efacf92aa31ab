import Dtp.Lib.Runs
import Dtp.Send
import Dtp.Transport

/-!
# Runs of a connection

The application drives a connection by calls. A call returns a value or an error, and
the application may go on after either; a panic, or a call that does not return, ends
the run.

## Main definitions

* `Call`, `Call.step` — the calls and what they do
* `Connection.Reachable` — the states that calls reach from a new connection
* `Connection.Calls`, `Connection.Parts` — all calls but `send`, or their parts, preserve a property
* `Connection.HandshakeParts`, `Connection.AckedParts`, `Connection.LostParts` — the steps of a
  handshake, or what becomes of an acked or a lost frame, preserve a property

## Main results

* `Connection.HandshakeParts.maintains`, `Connection.maintains_drainLost` — a handshake, and
  taking back what is lost, preserve what their steps preserve
* `Connection.Calls.call` — the calls preserve it then
* `Connection.Calls.reachable` — what calls and `send` preserve holds in every reachable state
-/

namespace Dtp

open Lib (Program run)

/-- A call of a connection. -/
inductive Call
  | streamSend (streamId : ℕ) (data : List UInt8) (fin : Bool) (deadline priority now : ℕ)
  | streamRecv (streamId cap : ℕ)
  | streamShutdown (streamId : ℕ) (direction : Connection.Shutdown)
  | recv (datagram : Connection.Datagram)
  | send (outLen : ℕ) (env : SendEnv)
  | onTimeout (env : Env)
  | setTail (tailSize : ℕ)
  | close (app : Bool) (err : ℕ) (reason : List UInt8)

namespace Call

/-- What a call does, without the value it returns. -/
def program : Call → Program Error Connection Unit
  | streamSend streamId data fin deadline priority now =>
    discard (Connection.streamSendFull streamId data fin deadline priority now)
  | streamRecv streamId cap => discard (Connection.streamRecv streamId cap)
  | streamShutdown streamId direction => Connection.streamShutdown streamId direction
  | recv datagram => Connection.recv datagram
  | send outLen env => discard (Connection.send outLen env)
  | onTimeout env => modify fun c => c.onTimeout env
  | setTail tailSize => modify fun c => { c with tailSize := some (tailSize * 1350) }
  | close app err reason => do
    let c ← get
    let c ← Program.ofExcept (c.close app err reason)
    set c

/-- The state after a call that returns. -/
def step (c : Connection) (call : Call) : Option Connection := call.program.after c

end Call

/-- A state that some calls reach from a new connection. -/
def Connection.Reachable (c : Connection) : Prop :=
  ∃ config isServer afterRetry now calls,
    run Call.step (Connection.new config isServer afterRetry now) calls = some c

/-! ### What the parts of calls preserve -/

namespace Connection

section Rules

variable {I : Connection → Prop} {E : Lib.Fault Error → Connection → Prop}
  {R : Connection → Connection → Prop} [IsPreorder Connection R] {epoch : Epoch}

/-- The steps of a handshake preserve a property, whatever TLS does. -/
structure HandshakeParts (I : Connection → Prop) (E : Lib.Fault Error → Connection → Prop)
    (hs : HandshakeStep) : Prop where
  write : ∀ epoch data n send c,
    SendBuf.pushSlice data false (c.pktNumSpaces epoch).cryptoStream.send = .ok n send → I c →
      I (c.modifySpace epoch fun p =>
        { p with cryptoStream := { (c.pktNumSpaces epoch).cryptoStream with send := send } })
  full : ∀ c, I c → E (.error .tlsFail) c
  keys : ∀ c, I c → I { c with
    isEstablished := hs.isEstablished
    writeLevel := hs.writeLevel
    pktNumSpaces := fun e =>
      { c.pktNumSpaces e with cryptoOpen := (hs.keys e).1, cryptoSeal := (hs.keys e).2 } }
  failed : ∀ e c, hs.outcome = .failed e → I c → E (.error e) c
  noProtocol : ∀ c, I c → E (.error .tlsFail) { c with error := some 0x178 }
  refused : ∀ e c, hs.outcome = .finished (.error e) → I c → E (.error e) c
  params : ∀ params c, hs.outcome = .finished (.ok params) → I c → I { c with
    maxTxData := params.initialMaxData
    streams :=
      { c.streams with
        peerMaxStreamsBidi := max c.streams.peerMaxStreamsBidi params.initialMaxStreamsBidi
        peerMaxStreamsUni := max c.streams.peerMaxStreamsUni params.initialMaxStreamsUni }
    peerTransportParams := params
    parsedPeerTransportParams := true }

/-- What the steps of a handshake preserve, the handshake preserves. -/
theorem HandshakeParts.maintains {hs : HandshakeStep} (h : HandshakeParts I E hs) :
    Program.Maintains I E (doHandshake hs) := by
  refine Program.maintains_get_bind fun c hc => Program.ends_ite.mpr ⟨fun _ => hc, fun _ => ?_⟩
  refine Program.Maintains.bind (.forM (fun w => ?_) _) (fun _ => .bind ?_ fun _ => ?_) c hc
  · refine Program.maintains_get_bind fun c hc => ?_
    dsimp only
    cases hpush : SendBuf.pushSlice w.2 false (c.pktNumSpaces w.1).cryptoStream.send with
    | ok n send => exact h.write w.1 w.2 n send c hpush hc
    | error e send => exact h.full c hc
  · exact Program.maintains_modify h.keys
  · cases houtcome : hs.outcome with
    | waiting => exact Program.maintains_pure ()
    | failed e => exact fun c hc => h.failed e c houtcome hc
    | noProtocol => exact fun c hc => h.noProtocol c hc
    | finished peerParams =>
      refine Program.maintains_get_bind fun c hc => Program.ends_ite.mpr ⟨fun _ => hc, fun _ => ?_⟩
      rw [Program.ends_bind, Program.ends_ofExcept]
      refine ⟨fun params hparams => ?_, fun e herror => ?_⟩
      · exact h.params params c (houtcome.trans (congrArg _ hparams)) hc
      · exact h.refused e c (houtcome.trans (congrArg _ herror)) hc

/-- A handshake keeps a relation that its steps keep. -/
theorem doHandshake_keeps {hs : HandshakeStep} {c : Connection}
    (h : HandshakeParts (R c) (fun e c' => (∃ err, e = .error err) → R c c') hs) :
    (doHandshake hs).Keeps R c := h.maintains c (refl_of R c)

/-- Processing an acked frame preserves a property, whatever the frame is. -/
structure AckedParts (I : Connection → Prop) (epoch : Epoch) : Prop where
  pop : ∀ c acked, I c → I (c.setRecovery { c.recovery with acked := acked })
  ack : ∀ largest c, I c → I (c.modifySpace epoch fun s =>
    { s with recvPktNeedAck := s.recvPktNeedAck.removeUntil largest })
  crypto : ∀ (data : RangeBuf) c, I c → I (c.modifySpace epoch fun s =>
    { s with cryptoStream :=
      { s.cryptoStream with send := s.cryptoStream.send.ack data.off data.len } })
  stream : ∀ id (data : RangeBuf) s s' c, c.streams.streams id = some s →
    s' = { s with send := s.send.ack data.off data.len } → I c → I (c.setStreams
      (if s'.isComplete then (c.streams.put id s').collect id s'.isLocal
      else c.streams.put id s'))

/-- What processing each acked frame preserves. -/
theorem AckedParts.takeAcked (h : AckedParts I epoch) {c : Connection} (hc : I c) :
    I (takeAcked epoch c) := by
  unfold Connection.takeAcked
  split
  · exact hc
  · rename_i frame frames _
    have hc := h.pop c (Epoch.update c.recovery.acked epoch frames) hc
    dsimp only
    generalize c.setRecovery { c.recovery with
      acked := Epoch.update c.recovery.acked epoch frames } = c at hc ⊢
    cases frame with
    | ack packetTime ackDelay ranges =>
      dsimp only [processAcked]
      split
      · exact h.ack _ c hc
      · exact hc
    | crypto data => exact h.crypto data c hc
    | stream id data =>
      dsimp only [processAcked]
      split
      · exact hc
      · rename_i s live
        exact h.stream id data s _ c live rfl hc
    | _ => exact hc

/-- Taking back a lost frame preserves a property, whatever the frame is. -/
structure LostParts (I : Connection → Prop) (E : Lib.Fault Error → Connection → Prop)
    (epoch : Epoch) : Prop where
  pop : ∀ c lost, I c → I (c.setRecovery { c.recovery with lost := lost })
  crypto : ∀ data send c,
    (c.pktNumSpaces epoch).cryptoStream.send.push data = .ok send → I c →
      I (c.modifySpace epoch fun p =>
        { p with cryptoStream := { (c.pktNumSpaces epoch).cryptoStream with send := send } })
  blockInfo : ∀ id s c, c.streams.streams id = some s → I c →
    I (c.setStreams (c.streams.putSend id s { s.send with isNew := true }))
  stream : ∀ id data s send flush c,
    c.streams.streams id = some s → s.send.push data = .ok send → I c → I { c with
      txData := c.txData - data.len
      streams :=
        if flush = true then (c.streams.put id { s with send := send }).pushFlushable id
        else c.streams.put id { s with send := send } }
  ack : ∀ c, I c → I (c.modifySpace epoch fun p => { p with ackElicited := true })
  handshakeDone : ∀ c, I c → I { c with handshakeDoneSent := false }
  /-- The data of a STREAM frame is credited again before it is stored. -/
  refused : ∀ e len c, I c → E (.error e) { c with txData := c.txData - len }

/-- What taking back each lost frame preserves. -/
theorem LostParts.takeLost (h : LostParts I E epoch) : Program.Maintains I E (takeLost epoch) := by
  refine Program.maintains_get_bind fun c hc => ?_
  split
  · exact hc
  · rename_i frame frames _
    rw [Program.ends_bind, Program.ends_set]
    have hc := h.pop c (Epoch.update c.recovery.lost epoch frames) hc
    generalize c.setRecovery { c.recovery with
      lost := Epoch.update c.recovery.lost epoch frames } = c at hc ⊢
    rw [drainLostFrame, Program.ends_bind, Program.ends_get]
    cases frame with
    | crypto data =>
      rw [Program.ends_bind, Program.ends_ofExcept]
      exact ⟨fun send hpush => h.crypto data send c hpush hc, fun e _ => h.refused e 0 c hc⟩
    | blockInfo id _ _ _ _ =>
      dsimp only
      cases live : c.streams.streams id with
      | none => exact hc
      | some s => exact h.blockInfo id s c live hc
    | stream id data =>
      dsimp only
      cases live : c.streams.streams id with
      | none => exact hc
      | some s =>
        dsimp only
        rw [Program.ends_bind, Program.ends_set, Program.ends_bind, Program.ends_ofExcept]
        exact ⟨fun send hpush => h.stream id data s send _ c live hpush hc,
          fun e _ => h.refused e data.len c hc⟩
    | ack _ _ _ => exact h.ack c hc
    | handshakeDone => exact h.handshakeDone c hc
    | _ => exact hc

/-- What taking back one lost frame preserves, taking back all of them preserves. -/
theorem maintains_drainLost (hlost : Program.Maintains I E (takeLost epoch))
    (hclear : ∀ e c, E e c → E e (clearLost epoch c)) :
    Program.Maintains I E (drainLost epoch) := by
  intro c hc
  have hloop := Program.Maintains.forM (fun _ => hlost) (c.recovery.lost epoch) c hc
  unfold Program.Ends drainLost at *
  dsimp only
  split at hloop
  · rename_i heq
    rwa [heq]
  · rename_i e c' heq
    rw [heq]
    exact hclear e c' hloop

/-- What taking back one lost frame keeps, taking back all of them keeps. -/
theorem drainLost_keeps (hlost : ∀ c, (takeLost epoch).Keeps R c)
    (hclear : ∀ c, R c (clearLost epoch c)) (c : Connection) : (drainLost epoch).Keeps R c :=
  maintains_drainLost (.of_keeps hlost) (fun _ c' h he => trans_of R (h he) (hclear c')) c
    (refl_of R c)

end Rules

/-- All calls but `send` preserve a property, datagrams packet by packet. -/
structure Calls (I : Connection → Prop) : Prop where
  write : ∀ id data fin deadline priority now,
    Program.Maintains I (fun _ => I) (streamSendFull id data fin deadline priority now)
  read : ∀ id cap, Program.Maintains I (fun _ => I) (streamRecv id cap)
  shutdown : ∀ id direction, Program.Maintains I (fun _ => I) (streamShutdown id direction)
  single : ∀ pkt, Program.Maintains I (fun _ => I) (recvSingle pkt)
  timeout : ∀ env c, I c → I (c.onTimeout env)
  /-- Errors, the budget of an unverified address and `tailSize` do not matter. -/
  other : ∀ c error appError appReason maxSendBytes tailSize, I c → I { c with
    error := error, appError := appError, appReason := appReason, maxSendBytes := maxSendBytes
    tailSize := tailSize }

section Calls

variable {I : Connection → Prop}

theorem Calls.close (h : Calls I) {c c' : Connection} {app : Bool} {err : ℕ} {reason : List UInt8}
    (hc : I c) (hclose : c.close app err reason = .ok c') : I c' := by
  unfold Connection.close at hclose
  split_ifs at hclose <;> cases hclose
  · exact h.other c c.error (some err) (c.appReason ++ reason) c.maxSendBytes c.tailSize hc
  · exact h.other c (some err) c.appError c.appReason c.maxSendBytes c.tailSize hc

theorem Calls.closeOnError (h : Calls I) {x : Program Error Connection Unit}
    (hx : Program.Maintains I (fun _ => I) x) :
    Program.Maintains I (fun _ => I) (closeOnError x) := by
  intro c hc
  have hx := hx c hc
  unfold Program.Ends Connection.closeOnError at *
  rcases heq : x c with ⟨a, c'⟩ | ⟨e | _ | _ | _, c'⟩
  all_goals rw [heq] at hx
  · exact hx
  · dsimp only
    split_ifs
    · exact hx
    · dsimp only
      split
      · exact h.close hx ‹_›
      · exact hx
  all_goals exact hx

theorem Calls.recv (h : Calls I) (d : Datagram) : Program.Maintains I (fun _ => I) (recv d) := by
  refine .bind (h.closeOnError ?_) fun _ => Program.maintains_modify fun c hc => ?_
  · refine .bind (.forM h.single _) fun _ => ?_
    cases d.error with
    | none => exact Program.maintains_pure ()
    | some e => exact fun _ hc => hc
  · split_ifs
    · exact hc
    · exact h.other c c.error c.appError c.appReason _ c.tailSize hc

/-- What the calls preserve in each packet, they preserve. -/
theorem Calls.call (h : Calls I) {call : Call} (hcall : ∀ outLen env, call ≠ .send outLen env) :
    Program.Maintains I (fun _ => I) call.program := by
  cases call with
  | streamSend streamId data fin deadline priority now =>
    exact .bind (h.write _ _ _ _ _ _) fun _ => Program.maintains_pure _
  | streamRecv streamId cap => exact .bind (h.read _ _) fun _ => Program.maintains_pure _
  | streamShutdown streamId direction => exact h.shutdown _ _
  | recv datagram => exact h.recv datagram
  | send outLen env => exact absurd rfl (hcall outLen env)
  | onTimeout env => exact Program.maintains_modify fun c hc => h.timeout env c hc
  | setTail tailSize =>
    exact Program.maintains_modify fun c hc =>
      h.other c c.error c.appError c.appReason c.maxSendBytes _ hc
  | close app err reason =>
    refine Program.maintains_get_bind fun c hc => ?_
    rw [Program.ends_bind, Program.ends_ofExcept]
    exact ⟨fun c' hclose => h.close hc hclose, fun _ _ => hc⟩

/-- What the calls preserve in each packet, and what `send` preserves, a step preserves. -/
theorem Calls.step (h : Calls I)
    (hsend : ∀ outLen env c, (send outLen env).Keeps (fun c c' => I c → I c') c)
    {c c' : Connection} {call : Call} (hstep : Call.step c call = some c') (hc : I c) : I c' := by
  by_cases hcall : ∃ outLen env, call = .send outLen env
  · obtain ⟨outLen, env, rfl⟩ := hcall
    exact Program.keeps_iff_after.mp (hsend outLen env c).discard c' hstep hc
  · have hends := h.call (fun outLen env heq => hcall ⟨outLen, env, heq⟩) c hc
    have hkeeps : call.program.Keeps (fun _ => I) c := .of_ends hends
      (fun _ _ hc' => hc') fun _ _ hc' => hc'
    exact Program.keeps_iff_after.mp hkeeps c' hstep

/-- What holds of every new connection, and what its calls preserve, holds in every reachable
state. -/
theorem Calls.reachable (h : Calls I)
    (hsend : ∀ outLen env c, (send outLen env).Keeps (fun c c' => I c → I c') c)
    (hnew : ∀ config isServer afterRetry now, I (.new config isServer afterRetry now))
    {c : Connection} (hc : c.Reachable) : I c := by
  obtain ⟨config, isServer, afterRetry, now, calls, hrun⟩ := hc
  exact Lib.run_invariant (fun _ _ _ hI hstep => h.step hsend hstep hI) (hnew _ _ _ _) hrun

end Calls

/-- The parts of all calls but `send` preserve a property, whether they return or fail. -/
structure Parts (I : Connection → Prop) : Prop where
  write : ∀ id data fin deadline priority now,
    Program.Maintains I (fun _ => I) (streamSendFull id data fin deadline priority now)
  read : ∀ id cap, Program.Maintains I (fun _ => I) (streamRecv id cap)
  shutdown : ∀ id direction, Program.Maintains I (fun _ => I) (streamShutdown id direction)
  header : ∀ pkt, Program.Maintains I (fun _ => I) (acceptHeader pkt)
  frame : ∀ frame epoch env, Program.Maintains I (fun _ => I) (processFrame frame epoch env)
  acked : ∀ epoch c, I c → I (takeAcked epoch c)
  received : ∀ pkt epoch c, I c → I (received pkt epoch c)
  timeout : ∀ env c, I c → I (c.onTimeout env)
  /-- Errors, the budget of an unverified address and `tailSize` do not matter. -/
  other : ∀ c error appError appReason maxSendBytes tailSize, I c → I { c with
    error := error, appError := appError, appReason := appReason, maxSendBytes := maxSendBytes
    tailSize := tailSize }

section Parts

variable {I : Connection → Prop}

theorem Parts.frames (h : Parts I) (frames : List (Frame × Env)) (error : Option Error)
    (epoch : Epoch) :
    Program.Maintains I (fun _ => I) (processFrames frames error epoch) := by
  refine .bind (.forM (fun (f : Frame × Env) => h.frame f.1 epoch f.2) _) fun _ => ?_
  cases error with
  | none => exact Program.maintains_pure ()
  | some e => exact fun _ hc => hc

theorem Parts.recvSingle (h : Parts I) (pkt : RxPacket) :
    Program.Maintains I (fun _ => I) (recvSingle pkt) := by
  refine Program.maintains_get_bind fun c hc => Program.ends_ite.mpr ⟨fun _ => hc, fun _ => ?_⟩
  split
  · exact hc
  · rename_i epoch _
    refine Program.ends_ite.mpr ⟨fun _ => hc, fun _ => ?_⟩
    refine Program.Maintains.bind (h.header pkt) (fun _ => ?_) c hc
    refine Program.maintains_get_bind fun c hc => Program.ends_ite.mpr ⟨fun _ => hc, fun _ =>
      Program.ends_ite.mpr ⟨fun _ => hc, fun _ => ?_⟩⟩
    refine Program.Maintains.bind (h.frames _ _ epoch) (fun _ => ?_) c hc
    refine .bind (h.frames _ _ epoch) fun _ => ?_
    refine .bind (Program.maintains_get_bind fun c hc => ?_) fun _ =>
      Program.maintains_modify fun c hc => h.received pkt epoch c hc
    exact Program.Maintains.forM (fun _ => Program.maintains_modify fun c hc =>
      h.acked epoch c hc) _ c hc

theorem Parts.calls (h : Parts I) : Calls I where
  write := h.write
  read := h.read
  shutdown := h.shutdown
  single := h.recvSingle
  timeout := h.timeout
  other := h.other

/-- What the parts of calls preserve, every call but `send` preserves. -/
theorem Parts.call (h : Parts I) {call : Call} (hcall : ∀ outLen env, call ≠ .send outLen env) :
    Program.Maintains I (fun _ => I) call.program := h.calls.call hcall

end Parts

end Connection

/-! ### A connection to look at -/

namespace Sample

/-- The transport parameters of both endpoints. -/
def params : TransportParams where
  initialMaxData := 100
  initialMaxStreamDataBidiLocal := 50
  initialMaxStreamDataBidiRemote := 50
  initialMaxStreamDataUni := 50
  initialMaxStreamsBidi := 4
  initialMaxStreamsUni := 4
  maxPacketSize := 1400
  ackDelayExponent := 3

/-- An endpoint with the parameters above. -/
def config (scheduler : DynScheduler) : Connection.Config where
  version := protocolVersionDraft25
  localTransportParams := params
  scheduler := scheduler
  bctOffset := 0
  initDataAckRatio := 4
  tailSize := none
  scidLen := 16
  dcidLen := 16

/-- The clocks at time `now`, and a handshake that completes at once. -/
def env (now : ℕ) : Env where
  instant := now
  wall := now
  lossDelay := 100
  timeout := 300
  handshake :=
    { writes := []
      keys := fun _ => (true, true)
      isEstablished := true
      writeLevel := .application
      outcome := .finished (.ok params) }

/-- An environment in which everything may be sent. -/
def sendEnv (now : ℕ) : SendEnv where
  toEnv := env now
  cwnd := 10000
  pace := ⟨100.0, 50.0, 0, now⟩
  packetTime := 0
  ackDelay := 0
  canceledOrder := []
  almostFullOrder := []
  redundancy _ _ := 0

/-- `send` at time `now`. -/
def send (now : ℕ) : Call := .send 1400 (sendEnv now)

/-- A write without a deadline. -/
def write (streamId : ℕ) (data : List UInt8) (fin : Bool) : Call :=
  .streamSend streamId data fin maxDeadline defaultPriority 0

/-- A packet with the given frames arrives at time `now`. -/
def recv (pktNum : ℕ) (frames : List Frame) (now : ℕ) : Call :=
  .recv
    { packets :=
        [{ ty := .short
           version := 0
           scidLen := 0
           pktNum := pktNum
           fecInfo := .none
           restored := []
           restoredError := none
           frames := frames.map fun f => (f, env now)
           framesError := none
           now := now }]
      error := none
      len := 100 }

/-- The packet numbers from `start` to `stop`, without `stop`. -/
def range (start stop : ℕ) : RangeSet := RangeSet.empty.insert (start, stop)

/-- The state of a client after some calls; `send` completes the handshake first. -/
def client (scheduler : DynScheduler) (calls : List Call) : Option Connection :=
  run Call.step (.new (config scheduler) false false 0) (send 0 :: calls)

theorem client_reachable {scheduler : DynScheduler} {calls : List Call} {c : Connection}
    (h : client scheduler calls = some c) : c.Reachable := ⟨_, _, _, _, _, h⟩

end Sample

end Dtp
