import Dtp.Connection

/-!
# What concerns streams and flow control alone

The calls of an application, and most frames of the peer, concern streams and flow control.
They leave alone what packets are sent with: keys, packet numbers, loss recovery and its timer,
the handshake, the budget of an unverified address and the FEC groups.

## Main definitions

* `Frame.isTransport` — the frames that concern more than that
* `Connection.SameTransport` — only streams, flow control and the peer's requests change
* `Connection.Streaming` — a program changes no more than that

## Main results

* `Connection.processFrame_streaming` and the other theorems of this form
-/

namespace Dtp

open Lib (Program)

/-- The frames that concern acknowledgements and the handshake. -/
def Frame.isTransport : Frame → Bool
  | .ack _ _ _ | .crypto _ | .handshakeDone => true
  | _ => false

namespace Connection

/-- Only streams, flow control, and what the peer asks for change. -/
inductive SameTransport (c : Connection) : Connection → Prop
  | intro (streams : StreamMap) (rxData maxRxDataNext maxTxData : ℕ)
      (challenge : Option (List UInt8)) (draining : Bool) (limit : c.maxTxData ≤ maxTxData)
      (drains : c.draining = true → draining = true) :
      SameTransport c
        { c with
          streams := streams
          rxData := rxData
          maxRxDataNext := maxRxDataNext
          maxTxData := maxTxData
          challenge := challenge
          draining := draining }

instance : IsPreorder Connection SameTransport where
  refl c := .intro c.streams c.rxData c.maxRxDataNext c.maxTxData c.challenge c.draining le_rfl id
  trans := by
    rintro c _ _ ⟨_, _, _, _, _, _, limit, drains⟩ ⟨_, _, _, _, _, _, limit', drains'⟩
    exact .intro _ _ _ _ _ _ (limit.trans limit') (drains' ∘ drains)

/-- The program changes the connection as `SameTransport` says, whether or not it fails. -/
abbrev Streaming {α : Type} (x : Program Error Connection α) : Prop :=
  ∀ c : Connection, Program.Maintains c.SameTransport (fun _ => c.SameTransport) x

/-- A property that such changes keep is kept by the program. -/
theorem Streaming.maintains {α : Type} {x : Program Error Connection α} (h : Streaming x)
    {I : Connection → Prop} (hI : ∀ c c', I c → c.SameTransport c' → I c') :
    Program.Maintains I (fun _ => I) x := by
  intro c hc
  have hends := h c c (refl_of SameTransport c)
  exact hends.mono (fun _ c' hsame => hI c c' hc hsame) fun _ c' hsame => hI c c' hc hsame

section SameTransport

variable {c c' : Connection}

theorem SameTransport.setStreams (h : c.SameTransport c') (m : StreamMap) :
    c.SameTransport (c'.setStreams m) := by
  refine trans_of SameTransport h ?_
  exact .intro _ _ _ _ _ _ le_rfl id

/-- Data of a stream is received. -/
theorem SameTransport.receive (h : c.SameTransport c') (m : StreamMap) (rxData : ℕ) :
    c.SameTransport { c'.setStreams m with rxData := rxData } := by
  refine trans_of SameTransport h ?_
  exact .intro _ _ _ _ _ _ le_rfl id

/-- The peer closes the connection. -/
theorem SameTransport.drain (h : c.SameTransport c') :
    c.SameTransport { c' with draining := true } := by
  refine trans_of SameTransport h ?_
  exact .intro _ _ _ _ _ _ le_rfl fun _ => rfl

end SameTransport

/-! ### Frames -/

private theorem processBlockInfo_streaming (id size priority deadline startTime : ℕ) (env : Env) :
    Streaming (processBlockInfo id size priority deadline startTime env) := by
  refine fun c₀ => Program.maintains_get_bind fun c h =>
    Program.ends_ite.mpr ⟨fun _ => h, fun _ => ?_⟩
  rw [Program.ends_bind, Program.ends_ofExcept]
  exact ⟨fun a _ => h.setStreams _, fun _ _ => h⟩

private theorem processResetStream_streaming (id errorCode finalSize : ℕ) (env : Env) :
    Streaming (processResetStream id errorCode finalSize env) := by
  refine fun c₀ => Program.maintains_get_bind fun c h =>
    Program.ends_ite.mpr ⟨fun _ => h, fun _ => ?_⟩
  split
  · exact h
  · exact h
  · rw [Program.ends_bind, Program.ends_set, Program.ends_bind, Program.ends_ofExcept]
    refine ⟨fun recv _ => ?_, fun _ _ => h.setStreams _⟩
    rw [Program.ends_bind, Program.ends_set, Program.ends_bind, Program.ends_ofExcept]
    refine ⟨fun a _ => ?_, fun _ _ => h.setStreams _⟩
    rw [Program.ends_bind, Program.ends_set]
    exact Program.ends_ite.mpr ⟨fun _ => h.receive _ _, fun _ => h.receive _ _⟩

private theorem processStream_streaming (id : ℕ) (data : RangeBuf) (env : Env) :
    Streaming (processStream id data env) := by
  refine fun c₀ => Program.maintains_get_bind fun c h =>
    Program.ends_ite.mpr ⟨fun _ => h, fun _ => Program.ends_ite.mpr ⟨fun _ => h, fun _ => ?_⟩⟩
  split
  · exact h
  · exact h
  · rw [Program.ends_bind, Program.ends_set]
    split
    · exact h.setStreams _
    · exact h.receive _ _

private theorem processMaxStreamData_streaming (id max : ℕ) (env : Env) :
    Streaming (processMaxStreamData id max env) := by
  refine fun c₀ => Program.maintains_get_bind fun c h => ?_
  split
  · exact h
  · exact h
  · exact h.setStreams _

/-- Frames other than ACK, CRYPTO and HANDSHAKE_DONE. -/
theorem processFrame_streaming {frame : Frame} (hframe : frame.isTransport = false) (epoch : Epoch)
    (env : Env) : Streaming (processFrame frame epoch env) := by
  cases frame with
  | ack => cases hframe
  | crypto => cases hframe
  | handshakeDone => cases hframe
  | blockInfo id size priority deadline startTime =>
    exact processBlockInfo_streaming id size priority deadline startTime env
  | resetStream id errorCode finalSize =>
    exact processResetStream_streaming id errorCode finalSize env
  | stopSending id code =>
    exact fun c₀ => Program.maintains_get_bind fun c h =>
      Program.ends_ite.mpr ⟨fun _ => h, fun _ => h⟩
  | stream id data => exact processStream_streaming id data env
  | maxData max =>
    refine fun c₀ => Program.maintains_modify fun c h => trans_of SameTransport h ?_
    exact .intro _ _ _ _ _ _ (Nat.le_max_left _ _) id
  | maxStreamData id max => exact processMaxStreamData_streaming id max env
  | maxStreamsBidi max =>
    exact fun c₀ => .ite (fun _ _ h => h) fun _ => Program.maintains_modify fun c h =>
      h.setStreams _
  | maxStreamsUni max =>
    exact fun c₀ => .ite (fun _ _ h => h) fun _ => Program.maintains_modify fun c h =>
      h.setStreams _
  | pathChallenge data =>
    refine fun c₀ => Program.maintains_modify fun c h => trans_of SameTransport h ?_
    exact .intro _ _ _ _ _ _ le_rfl id
  | connectionClose => exact fun c₀ => Program.maintains_modify fun c h => h.drain
  | applicationClose => exact fun c₀ => Program.maintains_modify fun c h => h.drain
  | _ => exact fun c₀ => Program.maintains_pure ()

/-! ### Calls of the application -/

theorem streamSendFull_streaming (id : ℕ) (data : List UInt8) (fin : Bool)
    (deadline priority now : ℕ) :
    Streaming (streamSendFull id data fin deadline priority now) := by
  refine fun c₀ => Program.maintains_get_bind fun c h =>
    Program.ends_ite.mpr ⟨fun _ => h, fun _ => ?_⟩
  rw [Program.ends_bind, Program.ends_ofExcept]
  refine ⟨fun a _ => ?_, fun _ _ => h⟩
  rw [Program.ends_bind, Program.ends_set]
  dsimp only
  split
  · exact h.setStreams _
  · exact h.setStreams _

theorem streamRecv_streaming (streamId cap : ℕ) : Streaming (streamRecv streamId cap) := by
  refine fun c₀ => Program.maintains_get_bind fun c h =>
    Program.ends_ite.mpr ⟨fun _ => h, fun _ => ?_⟩
  cases c.streams.streams streamId with
  | none => exact h
  | some s =>
    refine Program.ends_ite.mpr ⟨fun _ => h, fun _ => ?_⟩
    rw [Program.ends_bind, Program.ends_ofExcept]
    refine ⟨fun a _ => trans_of SameTransport h ?_, fun _ _ => h⟩
    exact .intro _ _ _ _ _ _ le_rfl id

theorem streamShutdown_streaming (id : ℕ) (direction : Shutdown) :
    Streaming (streamShutdown id direction) := by
  refine fun c₀ => Program.maintains_get_bind fun c h => ?_
  cases c.streams.streams id with
  | none => exact h
  | some s =>
    cases direction with
    | read =>
      rw [Program.ends_bind, Program.ends_ofExcept]
      exact ⟨fun a _ => h.setStreams _, fun _ _ => h⟩
    | write =>
      rw [Program.ends_bind, Program.ends_ofExcept]
      exact ⟨fun a _ => h.setStreams _, fun _ _ => h⟩

end Connection

end Dtp
