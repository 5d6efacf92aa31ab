import Dtp.Calls

/-!
# The parts of a call

A call is a sequence of parts: a received frame, an acked or lost frame, the packet that
`send` puts together. What happens in a part of a call can depend on the parts before it, so
properties of all runs are proved for runs of parts.

## Main definitions

* `Part`, `Part.step` — the parts and what they do
* `Connection.SendParts`, `Connection.RecvParts` — the parts of `send` and `recv` keep a relation

## Main results

* `Connection.SendParts.send`, `Connection.RecvParts.packets` — and then the calls do
* `Call.exists_parts` — every call is a sequence of parts
-/

namespace Dtp

open Lib (Program run)

/-- What a call does in one place. -/
inductive Part
  -- the application
  | write (streamId : ℕ) (data : List UInt8) (fin : Bool) (deadline priority now : ℕ)
  | read (streamId cap : ℕ)
  | shutdown (streamId : ℕ) (direction : Connection.Shutdown)
  | close (app : Bool) (err : ℕ) (reason : List UInt8)
  | setTail (tailSize : ℕ)
  | timeout (env : Env)
  -- receiving
  | header (pkt : Connection.RxPacket)
  | frame (frame : Frame) (epoch : Epoch) (env : Env)
  | acked (epoch : Epoch)
  | received (pkt : Connection.RxPacket) (epoch : Epoch)
  | credit (len : ℕ)
  -- sending
  | handshake (step : HandshakeStep)
  | lost (epoch : Epoch)
  | clearLost (epoch : Epoch)
  | packet (epoch : Epoch) (room headerLen pnLen avail : ℕ) (env : SendEnv)

namespace Part

/-- What a part does. -/
def program : Part → Program Error Connection Unit
  | write streamId data fin deadline priority now =>
    discard (Connection.streamSendFull streamId data fin deadline priority now)
  | read streamId cap => discard (Connection.streamRecv streamId cap)
  | shutdown streamId direction => Connection.streamShutdown streamId direction
  | close app err reason => do
    let c ← get
    let c ← Program.ofExcept (c.close app err reason)
    set c
  | setTail tailSize => modify fun c => { c with tailSize := some (tailSize * 1350) }
  | timeout env => modify fun c => c.onTimeout env
  | header pkt => Connection.acceptHeader pkt
  | frame f epoch env => Connection.processFrame f epoch env
  | acked epoch => modify (Connection.takeAcked epoch)
  | received pkt epoch => modify (Connection.received pkt epoch)
  | credit len => modify fun c =>
    if c.verifiedPeerAddress then c else { c with maxSendBytes := c.maxSendBytes + len * 3 }
  | handshake step => Connection.doHandshake step
  | lost epoch => Connection.takeLost epoch
  | clearLost epoch => modify (Connection.clearLost epoch)
  | packet epoch room headerLen pnLen avail env =>
    discard (Program.zoom (fun c => (⟨c, .new room⟩ : Packing)) (fun p _ => p.conn)
      (Packing.packet epoch headerLen pnLen avail env))

/-- The state after a part that does not panic. -/
def step (c : Connection) (part : Part) : Option Connection := part.program.after c

/-- The part is the loss detection timer. -/
def isTimeout : Part → Bool
  | timeout _ => true
  | _ => false

end Part

namespace Connection

/-- A packet of the application epoch is only put together once the handshake is complete. -/
theorem writeEpoch_isEstablished {c : Connection} (h : c.writeEpoch = .ok .application) :
    c.isEstablished = true := by
  unfold writeEpoch at h
  split_ifs at h with herror hlevel
  · simp at h
  · have hopen : ¬ (!c.isEstablished) = true := fun hopen => hlevel ⟨Except.ok.inj h, hopen⟩
    simpa using hopen
  · dsimp only at h
    split at h
    · rename_i e hfind
      have hdue := List.find?_some hfind
      rw [Except.ok.inj h] at hdue
      simp only [bne_self_eq_false, Bool.false_or, Bool.and_eq_true] at hdue
      exact hdue.1
    · split_ifs at h with hsends
      exact (Bool.and_eq_true_iff.mp hsends).1

/-- The parts of `send` keep a relation. -/
structure SendParts (R : Connection → Connection → Prop) : Prop where
  handshake : ∀ hs c, (doHandshake hs).Keeps R c
  lost : ∀ epoch c, (takeLost epoch).Keeps R c
  clearLost : ∀ epoch c, R c (clearLost epoch c)
  packet : ∀ epoch room headerLen pnLen avail env c, (epoch = .application →
    c.isEstablished = true) →
    (Program.zoom (fun c => (⟨c, .new room⟩ : Packing)) (fun p _ => p.conn)
      (Packing.packet epoch headerLen pnLen avail env)).Keeps R c

section SendParts

variable {R : Connection → Connection → Prop} [IsPreorder Connection R]

theorem SendParts.drainLost (h : SendParts R) (epoch : Epoch) (c : Connection) :
    (drainLost epoch).Keeps R c := drainLost_keeps (h.lost epoch) (h.clearLost epoch) c

/-- The handshake is as far as it was. -/
def SameProgress (c c' : Connection) : Prop := c'.isEstablished = c.isEstablished

instance : IsPreorder Connection SameProgress where
  refl _ := rfl
  trans _ _ _ h h' := Eq.trans h' h

private theorem takeLost_sameProgress (epoch : Epoch) (c : Connection) :
    (takeLost epoch).Keeps SameProgress c := by
  have hparts : LostParts c.SameProgress
      (fun e c' => (∃ err, e = .error err) → c.SameProgress c') epoch :=
    { pop := fun _ _ h => h
      crypto := fun _ _ _ _ h => h
      blockInfo := fun _ _ _ _ h => h
      stream := fun _ _ _ _ _ _ _ _ h => h
      ack := fun _ h => h
      handshakeDone := fun _ h => h
      refused := fun _ _ _ h _ => h }
  exact hparts.takeLost c rfl

private theorem drainLost_sameProgress (epoch : Epoch) (c : Connection) :
    (Connection.drainLost epoch).Keeps SameProgress c :=
  drainLost_keeps (takeLost_sameProgress epoch) (fun _ => rfl) c

/-- What the parts of `send` keep, `send` keeps. -/
theorem SendParts.send (h : SendParts R) (outLen : ℕ) (env : SendEnv) (c : Connection) :
    (send outLen env).Keeps R c := by
  have hfail (e : Error)
      (c : Connection) : (Program.fail e : Program Error Connection ℕ).Keeps R c :=
    Program.keeps_fail.mpr (refl_of R c)
  rw [Connection.send, Program.keeps_get_bind]
  refine .ite (fun _ => hfail _ c) fun _ => .ite (fun _ => hfail _ c) fun _ =>
    .ite (fun _ => hfail _ c) fun _ => ?_
  refine .bind (.when fun _ => h.handshake env.handshake c) fun _ c _ => ?_
  rw [Program.keeps_get_bind]
  cases hepoch : c.writeEpoch with
  | error e => exact hfail e c
  | ok epoch =>
    change (do
      Connection.drainLost epoch
      _ : Program Error Connection ℕ).Keeps R c
    refine .bind (h.drainLost epoch c) fun _ c' hdrain => ?_
    have hsame := (drainLost_sameProgress epoch c).ok hdrain
    rw [Program.keeps_get_bind]
    cases pktNumLen (c'.pktNumSpaces epoch).nextPktNum with
    | none => exact hfail _ c'
    | some pnLen =>
      refine .ite (fun _ => hfail _ c') fun _ => .ite (fun _ => hfail _ c') fun _ =>
        .ite (fun _ => hfail _ c') fun _ => ?_
      refine h.packet epoch _ _ pnLen _ env c' ?_
      rintro rfl
      exact hsame.trans (writeEpoch_isEstablished hepoch)

end SendParts

/-- The parts of `recv` keep a relation, up to the credit at its end. -/
structure RecvParts (R : Connection → Connection → Prop) : Prop where
  header : ∀ pkt c, (acceptHeader pkt).Keeps R c
  frame : ∀ frame epoch env c, (processFrame frame epoch env).Keeps R c
  acked : ∀ epoch c, R c (takeAcked epoch c)
  received : ∀ pkt epoch c, R c (received pkt epoch c)
  close : ∀ c c' app err reason, c.close app err reason = .ok c' → R c c'

section RecvParts

variable {R : Connection → Connection → Prop} [IsPreorder Connection R]

theorem RecvParts.frames (h : RecvParts R) (frames : List (Frame × Env)) (error : Option Error)
    (epoch : Epoch) (c : Connection) : (processFrames frames error epoch).Keeps R c := by
  refine .bind (.forM (fun f c => h.frame f.1 epoch f.2 c) frames c) fun _ c _ => ?_
  cases error with
  | none => exact refl_of R c
  | some e => exact Program.keeps_fail.mpr (refl_of R c)

theorem RecvParts.drainAcked (h : RecvParts R) (epoch : Epoch) (c : Connection) :
    (drainAcked epoch).Keeps R c := by
  rw [Connection.drainAcked, Program.keeps_get_bind]
  exact .forM (fun _ c => Program.keeps_modify.mpr (h.acked epoch c)) _ c

/-- What the parts of a packet keep, the packet keeps. -/
theorem RecvParts.single (h : RecvParts R) (pkt : RxPacket) (c : Connection) :
    (recvSingle pkt).Keeps R c := by
  rw [recvSingle, Program.keeps_get_bind]
  refine .ite (fun _ => Program.keeps_fail.mpr (refl_of R c)) fun _ => ?_
  cases pkt.ty.toEpoch with
  | none => exact Program.keeps_fail.mpr (refl_of R c)
  | some epoch =>
    refine .ite (fun _ => refl_of R c) fun _ => ?_
    refine .bind (h.header pkt c) fun _ c _ => ?_
    rw [Program.keeps_get_bind]
    refine .ite (fun _ => refl_of R c) fun _ => ?_
    refine .ite (fun _ => Program.keeps_fail.mpr (refl_of R c)) fun _ => ?_
    refine .bind (h.frames _ _ epoch c) fun _ c _ => ?_
    refine .bind (h.frames _ _ epoch c) fun _ c _ => ?_
    refine .bind (h.drainAcked epoch c) fun _ c _ => ?_
    exact Program.keeps_modify.mpr (h.received pkt epoch c)

/-- Closing the connection after an error keeps what `close` keeps. -/
theorem keeps_closeOnError
    (hclose : ∀ c c' app err reason, c.close app err reason = .ok c' → R c c')
    {x : Program Error Connection Unit} {c : Connection} (hx : x.Keeps R c) :
    (closeOnError x).Keeps R c := by
  unfold Program.Keeps Program.Ends closeOnError at *
  rcases heq : x c with ⟨a, c'⟩ | ⟨e | _ | _ | _, c'⟩
  · rwa [heq] at hx
  · have hc' : R c c' := by
      rw [heq] at hx
      exact hx ⟨e, rfl⟩
    dsimp only
    split_ifs
    · exact fun _ => hc'
    · intro _
      split
      · exact trans_of R hc' (hclose _ _ _ _ _ ‹_›)
      · exact hc'
  all_goals
    rintro ⟨_, h⟩
    cases h

/-- What the parts of a datagram keep, its packets keep. -/
theorem RecvParts.packets (h : RecvParts R) (d : Datagram) (c : Connection) :
    (Connection.closeOnError do
      forM d.packets recvSingle
      match d.error with
      | none => pure ()
      | some e => Program.fail e).Keeps R c := by
  refine keeps_closeOnError h.close (.bind (.forM h.single _ c) fun _ c _ => ?_)
  cases d.error with
  | none => exact refl_of R c
  | some e => exact Program.keeps_fail.mpr (refl_of R c)

end RecvParts

/-- Some parts, none of them the timer, lead from one state to the other. -/
def Passes (c c' : Connection) : Prop :=
  ∃ parts, parts.all (fun part => !part.isTimeout) = true ∧ run Part.step c parts = some c'

instance : IsPreorder Connection Passes where
  refl c := ⟨[], rfl, rfl⟩
  trans := by
    rintro c c' c'' ⟨parts, hparts, hrun⟩ ⟨parts', hparts', hrun'⟩
    refine ⟨parts ++ parts', ?_, ?_⟩
    · rw [List.all_append, hparts, hparts']
      rfl
    · rw [Lib.run_append, hrun]
      exact hrun'

/-- A program that is a part. -/
theorem keeps_passes {α : Type} {x : Program Error Connection α} (part : Part)
    (hpart : part.isTimeout = false) (h : ∀ c, part.step c = x.after c) (c : Connection) :
    x.Keeps Passes c := by
  refine Program.keeps_iff_after.mpr fun c' hc' => ⟨[part], by simp [hpart], ?_⟩
  rw [Lib.run_cons, h, hc']
  rfl

private theorem streamSendFull_passes (streamId : ℕ) (data : List UInt8) (fin : Bool)
    (deadline priority now : ℕ) (c : Connection) :
    (streamSendFull streamId data fin deadline priority now).Keeps Passes c :=
  .of_discard (keeps_passes (.write streamId data fin deadline priority now) rfl (fun _ => rfl) c)

private theorem streamRecv_passes (streamId cap : ℕ) (c : Connection) :
    (streamRecv streamId cap).Keeps Passes c :=
  .of_discard (keeps_passes (.read streamId cap) rfl (fun _ => rfl) c)

private theorem close_passes {c c' : Connection} {app : Bool} {err : ℕ} {reason : List UInt8}
    (h : c.close app err reason = .ok c') : c.Passes c' := by
  refine ⟨[.close app err reason], rfl, ?_⟩
  have hstep : Part.step c (.close app err reason) = some c' := by
    change (Program.after (get >>= fun c => Program.ofExcept (c.close app err reason) >>= set) c) =
      some c'
    simp only [Program.after, Program.bind_apply, Program.get_apply, h]
    rfl
  rw [Lib.run_cons, hstep]
  rfl

private theorem recvParts_passes : RecvParts Passes where
  header pkt := keeps_passes (.header pkt) rfl fun _ => rfl
  frame f epoch env := keeps_passes (.frame f epoch env) rfl fun _ => rfl
  acked epoch c := keeps_passes (x := modify (takeAcked epoch)) (.acked epoch) rfl (fun _ => rfl) c
  received pkt epoch c :=
    keeps_passes (x := modify (received pkt epoch)) (.received pkt epoch) rfl (fun _ => rfl) c
  close _ _ _ _ _ := close_passes

private theorem recv_passes (d : Datagram) (c : Connection) : (recv d).Keeps Passes c :=
  .bind (recvParts_passes.packets d c) fun _ c _ =>
    keeps_passes (.credit d.len) rfl (fun _ => rfl) c

private theorem sendParts_passes : SendParts Passes where
  handshake hs := keeps_passes (.handshake hs) rfl fun _ => rfl
  lost epoch := keeps_passes (.lost epoch) rfl fun _ => rfl
  clearLost epoch c :=
    keeps_passes (x := modify (clearLost epoch)) (.clearLost epoch) rfl (fun _ => rfl) c
  packet epoch room headerLen pnLen avail env c _ :=
    .of_discard (keeps_passes (.packet epoch room headerLen pnLen avail env) rfl (fun _ => rfl) c)

private theorem send_passes (outLen : ℕ) (env : SendEnv) (c : Connection) :
    (send outLen env).Keeps Passes c := sendParts_passes.send outLen env c

end Connection

/-- Every call but the timer is a sequence of parts. -/
theorem Call.passes {c c' : Connection} {call : Call} (htimeout : ∀ env, call ≠ .onTimeout env)
    (h : Call.step c call = some c') : c.Passes c' := by
  refine Program.keeps_iff_after.mp ?_ c' h
  cases call with
  | streamSend streamId data fin deadline priority now =>
    exact (Connection.streamSendFull_passes streamId data fin deadline priority now c).discard
  | streamRecv streamId cap => exact (Connection.streamRecv_passes streamId cap c).discard
  | streamShutdown streamId direction =>
    exact Connection.keeps_passes (.shutdown streamId direction) rfl (fun _ => rfl) c
  | recv datagram => exact Connection.recv_passes datagram c
  | send outLen env => exact (Connection.send_passes outLen env c).discard
  | onTimeout env => exact absurd rfl (htimeout env)
  | setTail tailSize => exact Connection.keeps_passes (.setTail tailSize) rfl (fun _ => rfl) c
  | close app err reason =>
    exact Connection.keeps_passes (.close app err reason) rfl (fun _ => rfl) c

/-- Every call is a sequence of parts. -/
theorem Call.exists_parts {c c' : Connection} {call : Call} (h : Call.step c call = some c') :
    ∃ parts, run Part.step c parts = some c' := by
  by_cases htimeout : ∃ env, call = .onTimeout env
  · obtain ⟨env, rfl⟩ := htimeout
    refine ⟨[.timeout env], ?_⟩
    rw [Lib.run_cons]
    exact (congrArg (fun o => o.bind some) h).trans rfl
  · obtain ⟨parts, _, hrun⟩ := Call.passes (fun env heq => htimeout ⟨env, heq⟩) h
    exact ⟨parts, hrun⟩

/-- Every run of calls is a run of parts. -/
theorem Connection.Reachable.exists_parts {c : Connection} (h : c.Reachable) :
    ∃ config isServer afterRetry now parts,
      run Part.step (Connection.new config isServer afterRetry now) parts = some c := by
  obtain ⟨config, isServer, afterRetry, now, calls, hrun⟩ := h
  refine ⟨config, isServer, afterRetry, now, ?_⟩
  refine Lib.run_invariant (I := fun c => ∃ parts, run Part.step _ parts = some c) ?_ ⟨[], rfl⟩ hrun
  rintro c call c' ⟨parts, hparts⟩ hcall
  obtain ⟨parts', hparts'⟩ := Call.exists_parts hcall
  refine ⟨parts ++ parts', ?_⟩
  rw [Lib.run_append, hparts]
  exact hparts'

end Dtp
