import Dtp.Atomicity
import Dtp.Lifetime

/-!
# Announcements that wait

A canceled block waits for its RESET_STREAM frame, and a stream whose receive window is
almost used up for its MAX_STREAM_DATA frame. `send` clears the mark, and raises the limit
of the stream, before it knows whether the frame fits, and gives up the loop at the first
frame that does not.

## Main definitions

* `StreamMap.Awaits` — marks stay, and so do the limits that the peer knows
* `Connection.FitsMarks` — there is room for all frames that wait
* `Connection.SendsMarks` — the packet that is put together next has room for them

## Main results

* `Connection.awaits_of_call` — no call but `send` clears a mark
* `Packing.packet_announced` — marks stay or their frames are in the packet
* `Connection.announced_or_awaits` — marks stay until their frame is in a packet
-/

namespace Dtp

open Lib (Fault Program run)

namespace StreamMap

/-- The stream was collected. -/
def Gone (m : StreamMap) (id : ℕ) : Prop := id ∈ m.collected ∧ m.streams id = none

/-- Marks stay, and streams keep the limit that the peer knows until they are collected. -/
structure Awaits (m m' : StreamMap) : Prop where
  canceled : ∀ id ∈ m.canceled, id ∈ m'.canceled
  almostFull : ∀ id ∈ m.almostFull, id ∈ m'.almostFull
  maxData : ∀ id s, m.streams id = some s →
    m'.Gone id ∨ ∃ s', m'.streams id = some s' ∧ s'.recv.maxData = s.recv.maxData
  gone : ∀ id, m.Gone id → m'.Gone id

theorem Awaits.refl (m : StreamMap) : m.Awaits m where
  canceled _ h := h
  almostFull _ h := h
  maxData _ s hs := .inr ⟨s, hs, rfl⟩
  gone _ h := h

theorem Awaits.trans {m m' m'' : StreamMap} (h : m.Awaits m') (h' : m'.Awaits m'') :
    m.Awaits m'' where
  canceled id hid := h'.canceled id (h.canceled id hid)
  almostFull id hid := h'.almostFull id (h.almostFull id hid)
  maxData id s hs := by
    rcases h.maxData id s hs with hgone | ⟨s', hs', heq⟩
    · exact .inl (h'.gone id hgone)
    · exact (h'.maxData id s' hs').imp_right fun ⟨s'', hs'', heq'⟩ => ⟨s'', hs'', heq'.trans heq⟩
  gone id hid := h'.gone id (h.gone id hid)

instance : IsPreorder StreamMap Awaits where
  refl := .refl
  trans _ _ _ := .trans

section Awaits

variable {m m' : StreamMap} {id : ℕ} {s s' : Stream}

/-- Other parts of the map do not matter. -/
theorem Awaits.congr {n : StreamMap} (h : m.Awaits m') (hstreams : n.streams = m'.streams)
    (hcollected : n.collected = m'.collected) (hcanceled : n.canceled = m'.canceled)
    (halmostFull : ∀ id ∈ m'.almostFull, id ∈ n.almostFull) : m.Awaits n := by
  have hgone (id : ℕ) : n.Gone id ↔ m'.Gone id := by rw [Gone, Gone, hstreams, hcollected]
  refine ⟨fun id hid => ?_, fun id hid => halmostFull id (h.almostFull id hid), fun id s hs => ?_,
    fun id hid => (hgone id).mpr (h.gone id hid)⟩
  · rw [hcanceled]
    exact h.canceled id hid
  · rw [hgone, hstreams]
    exact h.maxData id s hs

/-- Both branches await what is awaited. -/
theorem Awaits.ite {p : Prop} [Decidable p] {a b : StreamMap} (ha : p → m.Awaits a)
    (hb : ¬ p → m.Awaits b) : m.Awaits (if p then a else b) := by
  split_ifs with hp
  · exact ha hp
  · exact hb hp

/-- A stream is replaced by one with the same limit. -/
theorem Awaits.put {t : Stream} (h : m.Awaits m') (hs : m'.streams id = some s)
    (heq : t.recv.maxData = s.recv.maxData) : m.Awaits (m'.put id t) := by
  refine h.trans ⟨fun _ h => h, fun _ h => h, fun i s₀ hs₀ => .inr ?_, fun i hi => ⟨hi.1, ?_⟩⟩
  · rcases eq_or_ne i id with rfl | hne
    · cases hs.symm.trans hs₀
      exact ⟨t, put_streams_self _ _ _, heq⟩
    · exact ⟨s₀, (put_streams_of_ne _ _ hne).trans hs₀, rfl⟩
  · rcases eq_or_ne i id with rfl | hne
    · cases hs.symm.trans hi.2
    · exact (put_streams_of_ne _ _ hne).trans hi.2

private theorem getOrCreate_almostFull {args : OpenArgs} (h : m.getOrCreate id args = .ok (s, m')) :
    m'.almostFull = m.almostFull := by
  cases getOrCreate_opening h with
  | live => split_ifs <;> rfl
  | fresh _ _ _ count =>
    obtain ⟨_, _, _, _, rfl⟩ := countOpened_eq count
    split_ifs <;> rfl

/-- A stream is opened, if it does not exist. -/
theorem Awaits.getOrCreate {m'' : StreamMap} {args : OpenArgs} (h : m.Awaits m')
    (hopen : m'.getOrCreate id args = .ok (s, m'')) : m.Awaits m'' ∧ m''.streams id = some s := by
  obtain ⟨origin, updated⟩ := getOrCreate_spec hopen
  have hself : m''.streams id = some s := by
    rw [updated.streams]
    exact put_streams_self _ _ _
  have hother {i : ℕ} (hne : i ≠ id) : m''.streams i = m'.streams i := by
    rw [updated.streams]
    exact put_streams_of_ne _ _ hne
  refine ⟨h.trans ⟨fun i hi => updated.canceled ▸ hi, fun i hi => getOrCreate_almostFull hopen ▸ hi,
    fun i s₀ hs₀ => .inr ?_, fun i hi => ⟨updated.collected ▸ hi.1, ?_⟩⟩, hself⟩
  · rcases eq_or_ne i id with rfl | hne
    · cases origin with
      | live hs => exact ⟨s, hself, by cases hs.symm.trans hs₀; rfl⟩
      | fresh hnone => cases hnone.symm.trans hs₀
    · exact ⟨s₀, (hother hne).trans hs₀, rfl⟩
  · rcases eq_or_ne i id with rfl | hne
    · cases origin with
      | live hs => cases hs.symm.trans hi.2
      | fresh _ hcollected => exact absurd hi.1 hcollected
    · exact (hother hne).trans hi.2

/-- What a stream that is collected awaits. -/
theorem Awaits.collect (h : m.Awaits m') (id : ℕ) (local_ : Bool) :
    m.Awaits (m'.collect id local_) := by
  have hfields : (m'.collect id local_).canceled = m'.canceled ∧
      (m'.collect id local_).almostFull = m'.almostFull := by
    unfold StreamMap.collect
    split_ifs <;> exact ⟨rfl, rfl⟩
  refine h.trans ⟨fun i hi => hfields.1 ▸ hi, fun i hi => hfields.2 ▸ hi, fun i s hs => ?_,
    fun i hi => ?_⟩
  · rw [Gone, collect_streams, collect_collected]
    rcases eq_or_ne i id with rfl | hne
    · exact .inl ⟨List.mem_insert_self, if_pos rfl⟩
    · exact .inr ⟨s, (if_neg hne).trans hs, rfl⟩
  · rw [Gone, collect_streams, collect_collected]
    refine ⟨List.mem_insert_of_mem hi.1, ?_⟩
    split_ifs
    · rfl
    · exact hi.2

end Awaits

end StreamMap

/-! ### What leaves the marks alone -/

namespace Connection

open StreamMap (Awaits)

/-- Marks stay, and limits that the peer knows, however the program ends. -/
abbrev KeepsMarks {α : Type} (m : StreamMap) (x : Program Error Connection α) : Prop :=
  Program.Maintains (fun c => m.Awaits c.streams) (fun _ c => m.Awaits c.streams) x

section Keep

variable {m : StreamMap} {c : Connection}

/-- Keys have nothing to do with streams. -/
theorem dropEpochState_streams (c : Connection) (epoch : Epoch) (now : ℕ) :
    (c.dropEpochState epoch now).streams = c.streams := by
  unfold dropEpochState
  split_ifs <;> rfl

private theorem doHandshake_keepsMarks (hs : HandshakeStep) : KeepsMarks m (doHandshake hs) :=
  HandshakeParts.maintains
    { write := fun _ _ _ _ _ _ h => h
      full := fun _ h => h
      keys := fun _ h => h
      failed := fun _ _ _ h => h
      noProtocol := fun _ h => h
      refused := fun _ _ _ h => h
      params := fun _ _ _ h => h.congr rfl rfl rfl fun _ h => h }

private theorem processBlockInfo_keepsMarks (id size priority deadline startTime : ℕ) (env : Env) :
    KeepsMarks m (processBlockInfo id size priority deadline startTime env) := by
  refine Program.maintains_get_bind fun c h => Program.ends_ite.mpr ⟨fun _ => h, fun _ => ?_⟩
  rw [Program.ends_bind, Program.ends_ofExcept]
  refine ⟨fun found hfound => ?_, fun _ _ => h⟩
  obtain ⟨hawaits, hs⟩ := h.getOrCreate hfound
  exact hawaits.put hs rfl

private theorem processResetStream_keepsMarks (id errorCode finalSize : ℕ) (env : Env) :
    KeepsMarks m (processResetStream id errorCode finalSize env) := by
  refine Program.maintains_get_bind fun c h => Program.ends_ite.mpr ⟨fun _ => h, fun _ => ?_⟩
  split
  · exact h
  · exact h
  · rename_i s m' hfound
    obtain ⟨hawaits, hs⟩ := h.getOrCreate hfound
    rw [Program.ends_bind, Program.ends_set, Program.ends_bind, Program.ends_ofExcept]
    refine ⟨fun recv hrecv => ?_, fun _ _ => hawaits⟩
    have hmax : recv.maxData = s.recv.maxData := by
      split_ifs at hrecv
      · rw [RecvBuf.shutdown] at hrecv
        split_ifs at hrecv
        cases hrecv
        rfl
      · cases hrecv
        rfl
    have hput := hawaits.put (t := { s with recv := recv }) hs hmax
    rw [Program.ends_bind, Program.ends_set, Program.ends_bind, Program.ends_ofExcept]
    refine ⟨fun r hr => ?_, fun _ _ => hput⟩
    obtain ⟨credit, recv'⟩ := r
    have hmax' : recv'.maxData = s.recv.maxData := by
      rw [RecvBuf.reset] at hr
      split_ifs at hr
      cases hr
      exact hmax
    rw [Program.ends_bind, Program.ends_set]
    have hput' := hawaits.put (t := { s with recv := recv' }) hs hmax'
    exact Program.ends_ite.mpr ⟨fun _ => hput', fun _ => hput'⟩

private theorem processStream_keepsMarks (id : ℕ) (data : RangeBuf) (env : Env) :
    KeepsMarks m (processStream id data env) := by
  refine Program.maintains_get_bind fun c h => Program.ends_ite.mpr ⟨fun _ => h, fun _ =>
    Program.ends_ite.mpr ⟨fun _ => h, fun _ => ?_⟩⟩
  split
  · exact h
  · exact h
  · rename_i s m' hfound
    obtain ⟨hawaits, hs⟩ := h.getOrCreate hfound
    rw [Program.ends_bind, Program.ends_set]
    split
    · exact hawaits
    · rename_i recv hpush
      have hput := hawaits.put (t := { s with recv := recv }) hs (RecvBuf.pushWith_maxData hpush)
      refine Program.ends_set.mpr (Awaits.ite (fun _ => ?_) fun _ => hput)
      exact hput.congr rfl rfl rfl fun _ h => h

private theorem processMaxStreamData_keepsMarks (id max : ℕ) (env : Env) :
    KeepsMarks m (processMaxStreamData id max env) := by
  refine Program.maintains_get_bind fun c h => ?_
  split
  · exact h
  · exact h
  · rename_i s m' hfound
    obtain ⟨hawaits, hs⟩ := h.getOrCreate hfound
    have hput := hawaits.put (t := { s with send := s.send.updateMaxData max }) hs rfl
    refine Program.ends_set.mpr (hput.congr ?_ ?_ ?_ fun i hi => ?_) <;> dsimp only [setStreams] <;>
      split_ifs <;> first | rfl | exact hi

private theorem readCrypto_keepsMarks (epoch : Epoch) (fuel : ℕ) :
    KeepsMarks m (readCrypto epoch fuel) := by
  induction fuel with
  | zero => exact Program.maintains_pure ()
  | succ fuel ih =>
    refine Program.maintains_get_bind fun c h => ?_
    dsimp only
    split
    · exact h
    · rw [Program.ends_bind, Program.ends_set]
      exact ih _ h

private theorem processFrame_keepsMarks (frame : Frame) (epoch : Epoch) (env : Env) :
    KeepsMarks m (processFrame frame epoch env) := by
  cases frame with
  | ack packetTime ackDelay ranges =>
    -- an ACK frame may discard the Handshake keys, which concerns no stream
    refine Program.maintains_get_bind fun c h => Program.ends_ite.mpr ⟨fun _ => h, fun _ => ?_⟩
    split
    · exact h
    · refine Program.ends_ite.mpr ⟨fun _ => Program.ends_set.mpr ?_, fun _ => h⟩
      rw [dropEpochState_streams]
      exact h
  | blockInfo id size priority deadline startTime =>
    exact processBlockInfo_keepsMarks id size priority deadline startTime env
  | resetStream id errorCode finalSize =>
    exact processResetStream_keepsMarks id errorCode finalSize env
  | stopSending id errorCode =>
    exact Program.maintains_get_bind fun c h => Program.ends_ite.mpr ⟨fun _ => h, fun _ => h⟩
  | crypto data =>
    refine Program.maintains_get_bind fun c h => ?_
    dsimp only
    split
    · exact h
    · rw [Program.ends_bind, Program.ends_set]
      -- what TLS reads may complete the handshake, which brings limits
      exact Program.Maintains.bind (readCrypto_keepsMarks epoch _)
        (fun _ => doHandshake_keepsMarks env.handshake) _ h
  | stream id data => exact processStream_keepsMarks id data env
  | maxData max => exact Program.maintains_modify fun _ h => h
  | maxStreamData id max => exact processMaxStreamData_keepsMarks id max env
  | maxStreamsBidi max =>
    exact .ite (fun _ _ h => h) fun _ => Program.maintains_modify fun _ h =>
      h.congr rfl rfl rfl fun _ h => h
  | maxStreamsUni max =>
    exact .ite (fun _ _ h => h) fun _ => Program.maintains_modify fun _ h =>
      h.congr rfl rfl rfl fun _ h => h
  | handshakeDone =>
    refine Program.maintains_get_bind fun c h => Program.ends_ite.mpr ⟨fun _ => h, fun _ =>
      Program.ends_ite.mpr ⟨fun _ => h, fun _ => Program.ends_set.mpr ?_⟩⟩
    rw [dropEpochState_streams]
    exact h
  | pathChallenge data => exact Program.maintains_modify fun _ h => h
  | connectionClose errorCode frameType reason => exact Program.maintains_modify fun _ h => h
  | applicationClose errorCode reason => exact Program.maintains_modify fun _ h => h
  | _ => exact Program.maintains_pure ()

private theorem takeAcked_keepsMarks (h : m.Awaits c.streams) (epoch : Epoch) :
    m.Awaits (c.takeAcked epoch).streams := by
  have hparts : AckedParts (fun c => m.Awaits c.streams) epoch :=
    { pop := fun _ _ h => h
      ack := fun _ _ h => h
      crypto := fun _ _ h => h
      stream := fun id _ _ s' _ live hs' h => by
        have hput := h.put (t := s') live (hs' ▸ rfl)
        exact Awaits.ite (fun _ => hput.collect id s'.isLocal) fun _ => hput }
  exact hparts.takeAcked h

private theorem received_keepsMarks (h : m.Awaits c.streams) (pkt : RxPacket) (epoch : Epoch) :
    m.Awaits (received pkt epoch c).streams := by
  unfold received
  dsimp only
  split_ifs
  · dsimp only
    rw [dropEpochState_streams]
    exact h
  · exact h

private theorem streamSendFull_keepsMarks (id : ℕ) (data : List UInt8) (fin : Bool)
    (deadline priority now : ℕ) :
    KeepsMarks m (streamSendFull id data fin deadline priority now) := by
  refine Program.maintains_get_bind fun c h => Program.ends_ite.mpr ⟨fun _ => h, fun _ => ?_⟩
  rw [Program.ends_bind, Program.ends_ofExcept]
  refine ⟨fun found hfound => ?_, fun _ _ => h⟩
  obtain ⟨s, m'⟩ := found
  obtain ⟨hawaits, hs⟩ := h.getOrCreate hfound
  rw [Program.ends_bind, Program.ends_set]
  dsimp only
  split
  · rename_i e send _
    exact hawaits.put (t := { s with send := send }) hs rfl
  · rename_i sent send _
    have hput := hawaits.put (t := { s with send := send }) hs rfl
    refine hput.congr ?_ ?_ ?_ fun i hi => ?_ <;> dsimp only [setStreams] <;> split_ifs <;>
      first | rfl | exact hi

private theorem streamRecv_keepsMarks (id cap : ℕ) : KeepsMarks m (streamRecv id cap) := by
  refine Program.maintains_get_bind fun c h => Program.ends_ite.mpr ⟨fun _ => h, fun _ => ?_⟩
  split
  · exact h
  · rename_i s hs
    refine Program.ends_ite.mpr ⟨fun _ => h, fun _ => ?_⟩
    rw [Program.ends_bind, Program.ends_ofExcept]
    refine ⟨fun read hread => ?_, fun _ _ => h⟩
    obtain ⟨out, fin, recv⟩ := read
    have hput := h.put (t := { s with recv := recv }) hs (RecvBuf.pop_maxData hread)
    have hfull := Awaits.ite (p := recv.almostFull = true)
      (fun _ => hput.congr (n := (c.streams.put id { s with recv := recv }).markAlmostFull id true)
        rfl rfl rfl fun _ hi => List.mem_insert_of_mem hi) fun _ => hput
    have hreadable := Awaits.ite (p := ({ s with recv := recv } : Stream).isReadable = true)
      (fun _ => hfull) fun _ => hfull.congr
        (n := StreamMap.markReadable _ id false) rfl rfl rfl fun _ h => h
    exact Awaits.ite (fun _ => hreadable.collect id s.isLocal) fun _ => hreadable

private theorem streamShutdown_keepsMarks (id : ℕ) (direction : Shutdown) :
    KeepsMarks m (streamShutdown id direction) := by
  refine Program.maintains_get_bind fun c h => ?_
  split
  · exact h
  · rename_i s hs
    cases direction with
    | read =>
      rw [Program.ends_bind, Program.ends_ofExcept]
      refine ⟨fun recv hrecv => ?_, fun _ _ => h⟩
      refine (h.put (t := { s with recv := recv }) hs ?_).congr rfl rfl rfl fun _ h => h
      rw [RecvBuf.shutdown] at hrecv
      split_ifs at hrecv
      cases hrecv
      rfl
    | write =>
      rw [Program.ends_bind, Program.ends_ofExcept]
      refine ⟨fun send _ => ?_, fun _ _ => h⟩
      exact (h.put (t := { s with send := send }) hs rfl).congr rfl rfl rfl fun _ h => h

private theorem acceptHeader_keepsMarks (pkt : RxPacket) : KeepsMarks m (acceptHeader pkt) := by
  refine Program.maintains_get_bind fun c h => Program.ends_ite.mpr ⟨fun _ => h, fun _ => ?_⟩
  have hversion (b : Bool) (version : ℕ) : KeepsMarks m (Program.when b <| modify fun c =>
      { c with version := version, didVersionNegotiation := true }) :=
    .when fun _ => Program.maintains_modify fun _ h => h
  refine Program.Maintains.bind (hversion _ _) (fun _ => ?_) c h
  refine Program.maintains_get_bind fun c h => Program.ends_ite.mpr ⟨fun _ => h, fun _ =>
    Program.ends_ite.mpr ⟨fun _ => h, fun _ => ?_⟩⟩
  rw [Program.ends_bind, Program.ends_modify]
  exact h

/-- No call but `send` clears a mark. -/
theorem awaits_of_call {call : Call} (hcall : ∀ outLen env, call ≠ .send outLen env) :
    KeepsMarks m call.program := by
  refine Parts.call ?_ hcall
  exact
    { write := streamSendFull_keepsMarks
      read := streamRecv_keepsMarks
      shutdown := streamShutdown_keepsMarks
      header := acceptHeader_keepsMarks
      frame := processFrame_keepsMarks
      acked := fun epoch _ h => takeAcked_keepsMarks h epoch
      received := fun pkt epoch _ h => received_keepsMarks h pkt epoch
      timeout := fun env c' h => by
        unfold onTimeout
        split_ifs
        · exact h
        · exact h
        · exact h
      other := fun _ _ _ _ _ _ h => h }

end Keep

end Connection

/-! ### The room that the announcements take -/

namespace Connection

/-- The length of the ACK frame, if one is written. -/
def ackUse (c : Connection) (epoch : Epoch) (room : ℕ) (env : SendEnv) : ℕ :=
  if c.ackLen epoch env ≤ room then c.ackLen epoch env else 0

/-- The length of the RESET_STREAM frame of a stream. -/
def resetLen (c : Connection) (id : ℕ) : ℕ :=
  ((c.streams.streams id).map fun s => (Frame.resetStream id 1 s.send.blockSize).wireLen).getD 0

/-- The length of the MAX_STREAM_DATA frame of a stream. -/
def creditLen (c : Connection) (id : ℕ) : ℕ :=
  ((c.streams.streams id).map fun s => (Frame.maxStreamData id s.recv.maxDataNext).wireLen).getD 0

/-- The length of the frames that come before MAX_DATA and are written without a test. -/
def untestedLen (c : Connection) : ℕ :=
  (if c.handshakeDoneDue then 1 else 0)
    + (if c.streams.shouldUpdateMaxStreamsBidi then
        (Frame.maxStreamsBidi c.streams.localMaxStreamsBidiNext).wireLen else 0)
    + (if c.streams.shouldUpdateMaxStreamsUni then
        (Frame.maxStreamsUni c.streams.localMaxStreamsUniNext).wireLen else 0)

/-- The length of the MAX_DATA frame that is due, if it fits behind `used` bytes. -/
def maxDataUse (c : Connection) (room used : ℕ) : ℕ :=
  if c.shouldUpdateMaxData ∧ used + (Frame.maxData c.maxRxDataNext).wireLen ≤ room then
    (Frame.maxData c.maxRxDataNext).wireLen else 0

/-- The room that is used up before MAX_DATA. -/
def usedLen (c : Connection) (epoch : Epoch) (room : ℕ) (env : SendEnv) : ℕ :=
  c.ackUse epoch room env + (c.streams.canceled.map c.resetLen).sum + c.untestedLen

/-- The streams that wait for an announcement are live, and all announcements fit into a
packet of `room` bytes. -/
structure FitsMarks (c : Connection) (epoch : Epoch) (room : ℕ) (env : SendEnv) : Prop where
  canceled : ∀ id ∈ c.streams.canceled, c.streams.streams id ≠ none
  resets : c.ackUse epoch room env + (c.streams.canceled.map c.resetLen).sum ≤ room
  almostFull : epoch = .application → c.isClosing = false →
    ∀ id ∈ c.streams.almostFull, c.streams.streams id ≠ none
  credits : epoch = .application → c.isClosing = false → c.streams.almostFull ≠ [] →
    c.usedLen epoch room env + c.maxDataUse room (c.usedLen epoch room env)
      + (c.streams.almostFull.map c.creditLen).sum ≤ room

end Connection

namespace Packing

/-- A packet in which `b` of `room` bytes are used, and which has the frame of every mark that
was cleared. -/
structure Pending (c : Connection) (room b : ℕ) (p : Packing) : Prop where
  balance : p.draft.left + b = room
  canceled : ∀ id ∈ c.streams.canceled,
    id ∈ p.conn.streams.canceled ∨ ∃ size, Frame.resetStream id 1 size ∈ p.draft.frames
  almostFull : ∀ id ∈ c.streams.almostFull,
    id ∈ p.conn.streams.almostFull ∧ (p.conn.streams.streams id).map (fun s => s.recv.maxData) =
      (c.streams.streams id).map (fun s => s.recv.maxData) ∨
    ∃ max, Frame.maxStreamData id max ∈ p.draft.frames
  sends : ∀ id, (p.conn.streams.streams id).map Stream.send = (c.streams.streams id).map Stream.send
  nexts : ∀ id, (p.conn.streams.streams id).map (fun s => s.recv.maxDataNext) =
    (c.streams.streams id).map (fun s => s.recv.maxDataNext)

section Pending

variable {c : Connection} {epoch : Epoch} {room b n : ℕ} {env : SendEnv} {p p' : Packing}

/-- Before the first frame, nothing is taken. -/
theorem pending_new (c : Connection) (room : ℕ) : Pending c room 0 ⟨c, .new room⟩ :=
  ⟨rfl, fun _ h => .inl h, fun _ h => .inl ⟨h, rfl⟩, fun _ => rfl, fun _ => rfl⟩

/-- Frames of `n` bytes are appended, and streams and marks do not change. -/
structure Takes (n : ℕ) (p p' : Packing) : Prop where
  streams : p'.conn.streams.streams = p.conn.streams.streams
  canceled : p'.conn.streams.canceled = p.conn.streams.canceled
  almostFull : p'.conn.streams.almostFull = p.conn.streams.almostFull
  frames : p.draft.frames ⊆ p'.draft.frames
  left : p'.draft.left + n = p.draft.left

/-- Frames take their room. -/
theorem Pending.takes (h : Pending c room b p) (htakes : Takes n p p') :
    Pending c room (b + n) p' where
  balance := by
    have := h.balance
    have := htakes.left
    omega
  canceled id hid := by
    rw [htakes.canceled]
    exact (h.canceled id hid).imp_right fun ⟨size, hsize⟩ => ⟨size, htakes.frames hsize⟩
  almostFull id hid := by
    rw [htakes.almostFull, htakes.streams]
    exact (h.almostFull id hid).imp_right fun ⟨max, hmax⟩ => ⟨max, htakes.frames hmax⟩
  sends id := by
    rw [htakes.streams]
    exact h.sends id
  nexts id := by
    rw [htakes.streams]
    exact h.nexts id

/-- What `addFrame` takes. -/
theorem addFrame_takes (frame : Frame) (flag : Bool) (p : Packing) : (addFrame frame flag).Ends p
    (fun _ p' => p'.conn = p.conn ∧ frame ∈ p'.draft.frames ∧
        Takes frame.wireLen p p') noError := by
  rw [addFrame, Program.ends_bind, Program.ends_get, Program.ends_ite, Program.ends_ite]
  refine ⟨fun _ => Fault.panic_ne_error,
    fun _ => ⟨fun hfits => ⟨rfl, ?_, ?_⟩, fun _ => Fault.underflow_ne_error⟩⟩
  · exact List.mem_append_right _ List.mem_cons_self
  · exact ⟨rfl, rfl, rfl, List.subset_append_left _ _, Nat.sub_add_cancel hfits⟩

/-- A frame that is tried is written if it fits. -/
theorem tryFrame_takes {frame : Frame} {flag : Bool} (h : frame.wireLen ≤ p.draft.left) :
    (tryFrame frame flag).Ends p (fun fits p' => fits = true ∧ p'.conn = p.conn ∧
      frame ∈ p'.draft.frames ∧ Takes frame.wireLen p p') noError := by
  rw [tryFrame, Program.ends_bind, Program.ends_get, Program.ends_ite, if_pos h]
  exact ⟨fun _ => Fault.panic_ne_error, fun _ => (addFrame_takes frame flag p).bind fun _ p' hp' =>
    ⟨rfl, hp'⟩⟩

/-- A frame that does not fit is not added. -/
theorem tryFrame_refuses {frame : Frame} {flag : Bool} (h : ¬ frame.wireLen ≤ p.draft.left) :
    (tryFrame frame flag).Ends p (fun fits p' => fits = false ∧ p' = p) noError := by
  rw [tryFrame, Program.ends_bind, Program.ends_get, Program.ends_ite, if_neg h]
  exact ⟨fun _ => Fault.panic_ne_error, fun _ => ⟨rfl, rfl⟩⟩

/-- Marks are cleared whose frames are in the packet. -/
theorem Pending.announce (h : Pending c room b p) {m : StreamMap}
    (htakes : Takes n { p with conn := p.conn.setStreams m } p')
    (hcanceled : ∀ id ∈ p.conn.streams.canceled,
      id ∈ m.canceled ∨ ∃ size, Frame.resetStream id 1 size ∈ p'.draft.frames)
    (halmostFull : ∀ id ∈ p.conn.streams.almostFull,
      id ∈ m.almostFull ∧ (m.streams id).map (fun s => s.recv.maxData) =
        (p.conn.streams.streams id).map (fun s => s.recv.maxData) ∨
      ∃ max, Frame.maxStreamData id max ∈ p'.draft.frames)
    (hsends : ∀ id, (m.streams id).map Stream.send = (p.conn.streams.streams id).map Stream.send)
    (hnexts : ∀ id, (m.streams id).map (fun s => s.recv.maxDataNext) =
      (p.conn.streams.streams id).map (fun s => s.recv.maxDataNext)) : Pending c room
          (b + n) p' where
  balance := by
    have := h.balance
    have := htakes.left
    dsimp only at this
    omega
  canceled id hid := by
    rw [htakes.canceled]
    rcases h.canceled id hid with hid' | ⟨size, hsize⟩
    · exact hcanceled id hid'
    · exact .inr ⟨size, htakes.frames hsize⟩
  almostFull id hid := by
    rw [htakes.almostFull, htakes.streams]
    rcases h.almostFull id hid with ⟨hid', heq⟩ | ⟨max, hmax⟩
    · exact (halmostFull id hid').imp_left fun ⟨hmem, heq'⟩ => ⟨hmem, heq'.trans heq⟩
    · exact .inr ⟨max, htakes.frames hmax⟩
  sends id := by
    rw [htakes.streams]
    exact (hsends id).trans (h.sends id)
  nexts id := by
    rw [htakes.streams]
    exact (hnexts id).trans (h.nexts id)

/-! The frames before the announcements -/

private theorem writeAck_pending (c : Connection) (epoch : Epoch) (room : ℕ) (env : SendEnv) :
    (Program.when (!c.isClosing) (writeAck epoch env)).Ends ⟨c, .new room⟩ (fun _ p =>
      (∃ spaces, p.conn = { c with pktNumSpaces := spaces }) ∧
        Pending c room (c.ackUse epoch room env) p) noError := by
  have hnone (hzero : c.ackLen epoch env = 0) : Pending c room
      (c.ackUse epoch room env) ⟨c, .new room⟩ := by
    rw [Connection.ackUse, hzero, if_pos (Nat.zero_le room)]
    exact pending_new c room
  refine .when (fun hlive => ?_) fun hclosing => ⟨⟨_, rfl⟩, hnone (if_neg fun h => hclosing h.1)⟩
  rw [writeAck, Program.ends_bind, Program.ends_get]
  refine Program.ends_ite.mpr ⟨fun hdue => ?_, fun hdue =>
    ⟨⟨_, rfl⟩, hnone (if_neg fun h => hdue h.2)⟩⟩
  have hlen : c.ackLen epoch env =
      (Frame.ack env.packetTime env.ackDelay (c.pktNumSpaces epoch).recvPktNeedAck).wireLen :=
    if_pos ⟨hlive, hdue⟩
  rw [Connection.ackUse, hlen]
  by_cases hroom : (Frame.ack env.packetTime env.ackDelay
    (c.pktNumSpaces epoch).recvPktNeedAck).wireLen ≤ room
  · refine (tryFrame_takes hroom).bind ?_
    rintro fits p ⟨hfits, hconn, _, htakes⟩
    rw [hfits, if_pos rfl, if_pos hroom]
    have hpending := (pending_new c room).takes htakes
    rw [Nat.zero_add] at hpending
    refine ⟨⟨(c.modifySpace epoch fun s => { s with ackElicited := false }).pktNumSpaces, ?_⟩,
      { hpending with }⟩
    change p.conn.modifySpace epoch (fun s => { s with ackElicited := false }) = _
    rw [hconn]
    rfl
  · refine (tryFrame_refuses hroom).bind ?_
    rintro fits p ⟨hfits, hp⟩
    rw [hfits, if_neg (by simp), if_neg hroom, hp]
    exact ⟨⟨_, rfl⟩, pending_new c room⟩

theorem Takes.refl (p : Packing) : Takes 0 p p := ⟨rfl, rfl, rfl, fun _ h => h, rfl⟩

private theorem writeHandshakeDone_takes (p : Packing) : writeHandshakeDone.Ends p (fun _ p' =>
    (∃ sent, p'.conn = { p.conn with handshakeDoneSent := sent }) ∧
      Takes (if p.conn.handshakeDoneDue then 1 else 0) p p') noError := by
  have hgate : (p.conn.isEstablished ∧ !p.conn.handshakeDoneSent ∧ p.conn.isServer ∧
      protocolVersionDraft25 ≤ p.conn.version) ↔ p.conn.handshakeDoneDue = true := by
    simp [Connection.handshakeDoneDue, and_assoc]
  rw [writeHandshakeDone, Program.ends_bind, Program.ends_get]
  refine Program.ends_ite.mpr ⟨fun hdue => ?_, fun hdue => ⟨⟨_, rfl⟩, ?_⟩⟩
  · rw [if_pos (hgate.mp hdue)]
    refine (addFrame_takes .handshakeDone false p).bind ?_
    rintro _ p' ⟨hconn, _, htakes⟩
    refine ⟨⟨true, ?_⟩, { htakes with }⟩
    change { p'.conn with handshakeDoneSent := true } = _
    rw [hconn]
  · rw [if_neg fun h => hdue (hgate.mpr h)]
    exact .refl p

private theorem writeMaxStreamsBidi_takes (p : Packing) : writeMaxStreamsBidi.Ends p (fun _ p' =>
    (∃ max, p'.conn = p.conn.setStreams { p.conn.streams with localMaxStreamsBidi := max }) ∧
      Takes (if p.conn.streams.shouldUpdateMaxStreamsBidi then
        (Frame.maxStreamsBidi p.conn.streams.localMaxStreamsBidiNext).wireLen else 0) p p')
            noError := by
  rw [writeMaxStreamsBidi, Program.ends_bind, Program.ends_get]
  refine Program.ends_ite.mpr ⟨fun hdue => ?_, fun hdue => ⟨⟨_, rfl⟩, ?_⟩⟩
  · rw [if_pos hdue, Program.ends_bind, modifyStreams, modifyConn, Program.ends_modify]
    refine (addFrame_takes _ true _).mono ?_ fun _ _ h => h
    rintro _ p' ⟨hconn, _, htakes⟩
    exact ⟨⟨_, hconn⟩, { htakes with }⟩
  · rw [if_neg hdue]
    exact .refl p

private theorem writeMaxStreamsUni_takes (p : Packing) : writeMaxStreamsUni.Ends p (fun _ p' =>
    (∃ max, p'.conn = p.conn.setStreams { p.conn.streams with localMaxStreamsUni := max }) ∧
      Takes (if p.conn.streams.shouldUpdateMaxStreamsUni then
        (Frame.maxStreamsUni p.conn.streams.localMaxStreamsUniNext).wireLen else 0) p p')
            noError := by
  rw [writeMaxStreamsUni, Program.ends_bind, Program.ends_get]
  refine Program.ends_ite.mpr ⟨fun hdue => ?_, fun hdue => ⟨⟨_, rfl⟩, ?_⟩⟩
  · rw [if_pos hdue, Program.ends_bind, modifyStreams, modifyConn, Program.ends_modify]
    refine (addFrame_takes _ true _).mono ?_ fun _ _ h => h
    rintro _ p' ⟨hconn, _, htakes⟩
    exact ⟨⟨_, hconn⟩, { htakes with }⟩
  · rw [if_neg hdue]
    exact .refl p

private theorem writeMaxData_takes (p : Packing) : writeMaxData.Ends p (fun _ =>
    Takes (if p.conn.shouldUpdateMaxData ∧
        (Frame.maxData p.conn.maxRxDataNext).wireLen ≤ p.draft.left then
      (Frame.maxData p.conn.maxRxDataNext).wireLen else 0) p) noError := by
  rw [writeMaxData, Program.ends_bind, Program.ends_get]
  refine Program.ends_ite.mpr ⟨fun hdue => ?_, fun hdue => ?_⟩
  · by_cases hfits : (Frame.maxData p.conn.maxRxDataNext).wireLen ≤ p.draft.left
    · rw [if_pos ⟨hdue, hfits⟩]
      refine (tryFrame_takes hfits).bind ?_
      rintro fits p' ⟨hwritten, _, _, htakes⟩
      rw [hwritten, if_pos rfl]
      exact { htakes with }
    · rw [if_neg fun h => hfits h.2]
      refine (tryFrame_refuses hfits).bind ?_
      rintro fits p' ⟨hwritten, hp⟩
      rw [hwritten, if_neg (by simp), hp]
      exact .refl p
  · rw [if_neg fun h => hdue h.1]
    exact .refl p

/-- The frames between RESET_STREAM and MAX_STREAM_DATA. -/
theorem Pending.writeLimits (h : Pending c room b p) {spaces : Epoch → PktNumSpace}
    {canceled : List ℕ}
    (hconn : p.conn =
      { c with pktNumSpaces := spaces, streams := { c.streams with canceled := canceled } }) :
    (do writeHandshakeDone; writeMaxStreamsBidi; writeMaxStreamsUni; writeMaxData :
      Program Error Packing Unit).Ends p
        (fun _ => Pending c room (b + c.untestedLen + c.maxDataUse room (b + c.untestedLen)))
            noError := by
  refine (writeHandshakeDone_takes p).bind fun _ p₁ ⟨⟨sent, hconn₁⟩, htakes₁⟩ => ?_
  rw [hconn] at hconn₁ htakes₁
  refine (writeMaxStreamsBidi_takes p₁).bind fun _ p₂ ⟨⟨bidi, hconn₂⟩, htakes₂⟩ => ?_
  rw [hconn₁] at hconn₂ htakes₂
  refine (writeMaxStreamsUni_takes p₂).bind fun _ p₃ ⟨⟨uni, hconn₃⟩, htakes₃⟩ => ?_
  rw [hconn₂] at hconn₃ htakes₃
  have h₃ : Pending c room (b + c.untestedLen) p₃ := by
    rw [Connection.untestedLen, ← Nat.add_assoc, ← Nat.add_assoc]
    exact ((h.takes htakes₁).takes htakes₂).takes htakes₃
  refine (writeMaxData_takes p₃).mono (fun _ p₄ htakes₄ => ?_) fun _ _ h => h
  have hleft : (b + c.untestedLen + (Frame.maxData c.maxRxDataNext).wireLen ≤ room) ↔
      (Frame.maxData c.maxRxDataNext).wireLen ≤ p₃.draft.left := by
    have := h₃.balance
    omega
  rw [hconn₃] at htakes₄
  rw [Connection.maxDataUse, if_congr (and_congr_right fun _ => hleft) rfl rfl]
  exact h₃.takes htakes₄

/-- A loop of which all frames fit. -/
theorem forWhile_fits {f : ℕ → Program Error Packing Bool} {len : ℕ → ℕ} (ids : List ℕ)
    (I : ℕ → Packing → Prop) (hf : ∀ id ∈ ids, ∀ b p, I b p → b + len id ≤ room →
      (f id).Ends p (fun more p' => more = true ∧ I (b + len id) p') noError)
    (h : I b p) (hroom : b + (ids.map len).sum ≤ room) :
    (Program.forWhile f ids).Ends p (fun _ => I (b + (ids.map len).sum)) noError := by
  induction ids generalizing b p with
  | nil => exact h
  | cons id ids ih =>
    rw [List.map_cons, List.sum_cons, ← Nat.add_assoc] at hroom ⊢
    refine (hf id List.mem_cons_self b p h (by omega)).bind fun more p' ⟨hmore, h'⟩ => ?_
    rw [hmore, if_pos rfl]
    exact ih (fun id' hid' => hf id' (List.mem_cons_of_mem id hid')) h' hroom

/-- The order of the marks does not matter for their length. -/
theorem sum_inOrder (order set : List ℕ) (len : ℕ → ℕ) :
    ((inOrder order set).map len).sum = (set.map len).sum := by
  unfold inOrder
  split_ifs with hperm
  · exact (hperm.map len).sum_nat
  · rfl

/-- Another mark stays. -/
theorem mem_mark {ids : List ℕ} {id i : ℕ} (hi : i ∈ ids) (hne : i ≠ id) :
    i ∈ mark ids id false := by
  simpa [mark] using ⟨hi, hne⟩

/-- RESET_STREAM for a live stream. -/
theorem writeReset_pending {id : ℕ} (hlive : c.streams.streams id ≠ none)
    {spaces : Epoch → PktNumSpace}
    (h : Pending c room b p ∧ ∃ canceled, p.conn =
      { c with pktNumSpaces := spaces, streams := { c.streams with canceled := canceled } })
    (hroom : b + c.resetLen id ≤ room) :
    (writeReset id).Ends p (fun more p' => more = true ∧ Pending c room (b + c.resetLen id) p' ∧
      ∃ canceled, p'.conn =
        { c with pktNumSpaces := spaces, streams := { c.streams with canceled := canceled } })
            noError := by
  obtain ⟨h, canceled, hp⟩ := h
  obtain ⟨s, hs⟩ := Option.ne_none_iff_exists'.mp hlive
  have hs' : p.conn.streams.streams id = some s := by
    rw [hp]
    exact hs
  have hlen : c.resetLen id = (Frame.resetStream id 1 s.send.blockSize).wireLen := by
    rw [Connection.resetLen, hs]
    rfl
  rw [hlen] at hroom ⊢
  rw [writeReset, Program.ends_bind, Program.ends_get, hs', Program.ends_bind, modifyStreams,
    modifyConn,
    Program.ends_modify]
  dsimp only
  have hle : (Frame.resetStream id 1 s.send.blockSize).wireLen ≤ p.draft.left := by
    have := h.balance
    omega
  refine (tryFrame_takes (by exact hle)).mono ?_ fun _ _ h => h
  rintro fits p' ⟨hfits, hconn, hmem, htakes⟩
  refine ⟨hfits, h.announce htakes (fun i hi => ?_) (fun i hi => .inl ⟨hi, rfl⟩) (fun _ => rfl)
    fun _ => rfl, mark p.conn.streams.canceled id false, ?_⟩
  · rcases eq_or_ne i id with rfl | hne
    · exact .inr ⟨_, hmem⟩
    · exact .inl (mem_mark hi hne)
  · rw [hconn, hp]
    rfl

/-- MAX_STREAM_DATA for a live stream. -/
theorem writeMaxStreamData_pending {id : ℕ} (hlive : c.streams.streams id ≠ none)
    (h : Pending c room b p) (hroom : b + c.creditLen id ≤ room) :
    (writeMaxStreamData id).Ends p
      (fun more p' => more = true ∧ Pending c room (b + c.creditLen id) p') noError := by
  obtain ⟨s₀, hs₀⟩ := Option.ne_none_iff_exists'.mp hlive
  obtain ⟨s, hs, hnext⟩ : ∃ s, p.conn.streams.streams id = some s ∧
      s.recv.maxDataNext = s₀.recv.maxDataNext := by
    have := h.nexts id
    rw [hs₀] at this
    exact Option.map_eq_some_iff.mp this
  have hlen : c.creditLen id = (Frame.maxStreamData id s.recv.updateMaxData.1).wireLen := by
    rw [Connection.creditLen, hs₀, RecvBuf.updateMaxData, hnext]
    rfl
  rw [hlen] at hroom ⊢
  rw [writeMaxStreamData, Program.ends_bind, Program.ends_get, hs]
  dsimp only
  rw [Program.ends_bind, modifyStreams, modifyConn, Program.ends_modify]
  have hle : (Frame.maxStreamData id s.recv.updateMaxData.1).wireLen ≤ p.draft.left := by
    have := h.balance
    omega
  refine (tryFrame_takes (by exact hle)).mono ?_ fun _ _ h => h
  rintro fits p' ⟨hfits, _, hmem, htakes⟩
  refine ⟨hfits, h.announce htakes (fun i hi => .inl hi) (fun i hi => ?_) (fun i => ?_) fun i => ?_⟩
  · rcases eq_or_ne i id with rfl | hne
    · exact .inr ⟨_, hmem⟩
    · exact .inl ⟨mem_mark hi hne, congrArg _ (if_neg hne)⟩
  · rcases eq_or_ne i id with rfl | hne
    · simp [StreamMap.markAlmostFull, StreamMap.putRecv, hs]
    · exact congrArg _ (if_neg hne)
  · rcases eq_or_ne i id with rfl | hne
    · simp [StreamMap.markAlmostFull, StreamMap.putRecv, hs, RecvBuf.updateMaxData]
    · exact congrArg _ (if_neg hne)

end Pending

end Packing

/-! ### Marks and frames -/

namespace StreamMap

/-- The stream waits for its MAX_STREAM_DATA frame, and keeps the limit that the peer knows
until it is collected. -/
def KeepsCredit (m m' : StreamMap) (id : ℕ) : Prop :=
  id ∈ m'.almostFull ∧ ∀ s, m.streams id = some s →
    m'.Gone id ∨ ∃ s', m'.streams id = some s' ∧ s'.recv.maxData = s.recv.maxData

/-- Every mark stays, or its frame is among the given ones. -/
structure Announced (m m' : StreamMap) (frames : List Frame) : Prop where
  canceled : ∀ id ∈ m.canceled, id ∈ m'.canceled ∨ ∃ size, Frame.resetStream id 1 size ∈ frames
  almostFull : ∀ id ∈ m.almostFull,
    m.KeepsCredit m' id ∨ ∃ max, Frame.maxStreamData id max ∈ frames

section Announced

variable {m m' m'' : StreamMap} {frames frames' : List Frame}

/-- What is awaited is announced, or still awaited. -/
theorem Awaits.announced (h : m.Awaits m') (frames : List Frame) : m.Announced m' frames where
  canceled id hid := .inl (h.canceled id hid)
  almostFull id hid := .inl ⟨h.almostFull id hid, h.maxData id⟩

theorem Announced.mono (h : m.Announced m' frames) (hsub : frames ⊆ frames') :
    m.Announced m' frames' where
  canceled id hid := (h.canceled id hid).imp_right fun ⟨size, hf⟩ => ⟨size, hsub hf⟩
  almostFull id hid := (h.almostFull id hid).imp_right fun ⟨max, hf⟩ => ⟨max, hsub hf⟩

theorem Announced.trans (h : m.Announced m' frames) (hgone : ∀ id, m'.Gone id → m''.Gone id)
    (h' : m'.Announced m'' frames') : m.Announced m'' (frames ++ frames') where
  canceled id hid := by
    rcases h.canceled id hid with hid' | ⟨size, hf⟩
    · exact (h'.canceled id hid').imp_right fun ⟨size, hf⟩ => ⟨size, List.mem_append_right _ hf⟩
    · exact .inr ⟨size, List.mem_append_left _ hf⟩
  almostFull id hid := by
    rcases h.almostFull id hid with ⟨hid', hmax⟩ | ⟨max, hf⟩
    · refine (h'.almostFull id hid').imp (fun ⟨hid'', hmax'⟩ => ⟨hid'', fun s hs => ?_⟩)
        fun ⟨max, hf⟩ => ⟨max, List.mem_append_right _ hf⟩
      rcases hmax s hs with hgone' | ⟨s', hs', heq⟩
      · exact .inl (hgone id hgone')
      · exact (hmax' s' hs').imp_right fun ⟨s'', hs'', heq'⟩ => ⟨s'', hs'', heq'.trans heq⟩
    · exact .inr ⟨max, List.mem_append_left _ hf⟩

end Announced

private theorem cancelBlock_awaits (id : ℕ) (m : StreamMap) : (cancelBlock id).Keeps Awaits m := by
  have hlisted : m.Awaits { m with
      canceled := m.canceled.insert id, canceledDepend := m.canceledDepend.insert id } :=
    { Awaits.refl m with canceled := fun _ hi => List.mem_insert_of_mem hi }
  refine cancelBlock_keeps (fun _ _ _ => hlisted) fun s live => ?_
  exact (hlisted.put (t := { s with send := { s.send with isShutdown := true, data := .empty } })
    live rfl).congr rfl rfl rfl fun _ h => h

private theorem peekFlushable_awaits (pace : Pace) (m : StreamMap) :
    (peekFlushable pace).Keeps Awaits m :=
  peekFlushable_keeps cancelBlock_awaits
    (fun m _ => (Awaits.refl m).congr rfl rfl rfl fun _ h => h)
    (fun m _ _ _ _ => (Awaits.refl m).congr rfl rfl rfl fun _ h => h) pace m

end StreamMap

namespace Packing

open StreamMap (Awaits)

/-- Marks and limits stay, and frames are appended. -/
structure Later (p p' : Packing) : Prop where
  streams : p.conn.streams.Awaits p'.conn.streams
  frames : p.draft.frames ⊆ p'.draft.frames

instance : IsPreorder Packing Later where
  refl _ := ⟨.refl _, fun _ h => h⟩
  trans _ _ _ h h' := ⟨h.streams.trans h'.streams, fun _ hf => h'.frames (h.frames hf)⟩

section Later

variable {c : Connection} {epoch : Epoch} {room b : ℕ} {env : SendEnv} {p p' : Packing}

/-- Frames are added, and marks stay. -/
theorem Advances.later (h : p.Advances p') : Later p p' := by
  rcases h with rfl | ⟨hconn, ⟨f, hf⟩, -⟩
  · exact refl_of Later p'
  · refine ⟨(Awaits.refl _).congr hconn.streams hconn.collected hconn.canceled fun id hid => ?_, ?_⟩
    · rwa [hconn.almostFull]
    · rw [hf]
      exact List.subset_append_left _ _

/-- Programs that only add frames lose no mark. -/
theorem keeps_later_of_advances {α : Type} {x : Program Error Packing α}
    (h : x.Ends p (fun _ => p.Advances) noError) : x.Keeps Later p :=
  .of_ends h (fun _ _ => Advances.later) fun e _ he => absurd rfl (he e)

theorem loopRel_later (env : SendEnv) : LoopRel env Later where
  peek p m hm :=
    ⟨Program.keeps_iff_after.mp (StreamMap.peekFlushable_awaits env.pace p.conn.streams) m hm,
      fun _ h => h⟩
  put _ _ _ _ live hrecv := ⟨(Awaits.refl _).put live (by rw [hrecv]), fun _ h => h⟩
  push _ _ := ⟨(Awaits.refl _).congr rfl rfl rfl fun _ h => h, fun _ h => h⟩
  txData _ _ := ⟨.refl _, fun _ h => h⟩
  frame _ _ p := keeps_later_of_advances (then_addFrame_advances (.refl p.conn))
  redundancy block tail p := by
    refine .of_ends (chooseRedundancy_effect env block tail p) (fun _ p' ⟨hconn, hframes⟩ => ?_)
      fun _ _ h => h.elim
    refine ⟨?_, ?_⟩
    · rw [hconn]
      exact .refl _
    · rw [hframes]
      exact fun _ h => h

/-- Where all frames fit, none of the marks that are cleared lacks its frame. -/
theorem Pending.announced (h : Pending c room b p) :
    c.streams.Announced p.conn.streams p.draft.frames where
  canceled := h.canceled
  almostFull id hid := by
    refine (h.almostFull id hid).imp_left fun ⟨hid', heq⟩ => ⟨hid', fun s hs => .inr ?_⟩
    rw [hs] at heq
    exact Option.map_eq_some_iff.mp heq

/-- What is announced stays so. -/
theorem maintains_announced {m : StreamMap} {x : Program Error Packing Unit}
    (hx : ∀ p, x.Keeps Later p) :
    Program.Maintains (fun p : Packing => m.Announced p.conn.streams p.draft.frames)
        anyFault x := by
  intro p h
  refine Program.Ends.mono (hx p) (fun _ p' hp' => ?_) fun _ _ _ => trivial
  refine (h.trans hp'.streams.gone (hp'.streams.announced [])).mono ?_
  rw [List.append_nil]
  exact hp'.frames

/-- The frames of a packet, if there is room for all announcements. -/
theorem writeFrames_announced (h : c.FitsMarks epoch room env) :
    (writeFrames epoch env).Ends ⟨c, .new room⟩
    (fun _ p => c.streams.Announced p.conn.streams p.draft.frames) anyFault := by
  have hweaken {α : Type} {x : Program Error Packing α} {p : Packing} {Q : α → Packing → Prop}
      (hx : x.Ends p Q noError) : x.Ends p Q anyFault :=
        hx.mono (fun _ _ h => h) fun _ _ _ => trivial
  have hadvances {x : Program Error Packing Unit}
      (hx : ∀ p : Packing, x.Ends p (fun _ => p.Advances) noError) := maintains_announced
        (m := c.streams)
        fun p => keeps_later_of_advances (hx p)
  rw [writeFrames, Program.ends_bind, Program.ends_get]
  dsimp only
  refine (hweaken (writeAck_pending c epoch room env)).bind ?_
  rintro _ p₁ ⟨⟨spaces, hconn₁⟩, h₁⟩
  -- RESET_STREAM for each canceled stream
  have hresets := forWhile_fits (inOrder env.canceledOrder c.streams.canceled)
    (fun b p => Pending c room b p ∧ ∃ canceled,
      p.conn =
        { c with pktNumSpaces := spaces, streams := { c.streams with canceled := canceled } })
    (fun id hid b p hp hroom => writeReset_pending (h.canceled id (mem_inOrder hid)) hp hroom)
    ⟨h₁, c.streams.canceled, hconn₁⟩ (by rw [sum_inOrder]; exact h.resets)
  rw [sum_inOrder] at hresets
  refine (hweaken hresets).bind ?_
  rintro _ p₂ ⟨h₂, canceled, hconn₂⟩
  refine Program.Ends.bind (R := fun _ p => c.streams.Announced p.conn.streams p.draft.frames)
    (hweaken (.when (fun hlive => ?_) fun _ => h₂.announced)) fun _ p₃ h₃ => ?_
  · simp only [Bool.and_eq_true, Bool.not_eq_true'] at hlive
    -- the limits, only in application packets
    have happ := eq_application hlive.1
    have hlimits := h₂.writeLimits hconn₂
    simp only [← bind_assoc] at hlimits ⊢
    refine hlimits.bind fun _ p₃ h₃ => ?_
    refine (forWhile_fits _ (Pending c room) (fun id hid b p hp hroom =>
      writeMaxStreamData_pending (h.almostFull happ hlive.2 id (mem_inOrder hid)) hp hroom)
        h₃ ?_).mono
        (fun _ p hp => hp.announced) fun _ _ h => h
    rw [sum_inOrder]
    by_cases hnone : c.streams.almostFull = []
    · rw [hnone, List.map_nil, List.sum_nil]
      have := h₃.balance
      omega
    · exact h.credits happ hlive.2 hnone
  -- what comes next adds frames and loses no mark
  refine Program.Maintains.bind (hadvances writeConnectionClose_advances) (fun _ => ?_) p₃ h₃
  refine .bind (hadvances (writeApplicationClose_advances epoch)) fun _ => ?_
  refine .bind (hadvances writePathResponse_advances) fun _ => ?_
  refine .bind (.when fun _ => hadvances (writeCrypto_advances epoch)) fun _ => ?_
  refine Program.maintains_get_bind fun p hp => ?_
  refine Program.Maintains.bind (I :=
    fun p : Packing => c.streams.Announced p.conn.streams p.draft.frames)
    (.when fun _ => ?_) (fun _ => .when fun _ => hadvances (writePing_advances epoch)) p hp
  exact maintains_announced fun p => (loopRel_later env).writeStream _ p

/-- The frames of a packet, if there are no marks. -/
theorem writeFrames_later (h : c.NoMarks epoch) (d : Draft) :
    (writeFrames epoch env).Keeps Later ⟨c, d⟩ := by
  have hadvances {x : Program Error Packing Unit}
      (hx : ∀ p : Packing, x.Ends p (fun _ => p.Advances) noError) (p : Packing) :
          x.Keeps Later p :=
    keeps_later_of_advances (hx p)
  have hnone {f : ℕ → Program Error Packing Bool} {order set : List ℕ} (hset : set = [])
    (p : Packing) :
      (Program.forWhile f (inOrder order set)).Keeps Later p := by
    have hempty : inOrder order set = [] := by
      rw [List.eq_nil_iff_forall_not_mem]
      intro id hid
      rw [mem_inOrder_iff, hset] at hid
      cases hid
    rw [hempty]
    exact refl_of Later p
  rw [writeFrames, Program.keeps_get_bind]
  refine .bind (.when fun _ => hadvances (writeAck_advances epoch env) _) fun _ p _ => ?_
  refine .bind (hnone h.1 p) fun _ p _ => ?_
  refine .bind (.when fun hlive => ?_) fun _ p _ => ?_
  · simp only [Bool.and_eq_true, Bool.not_eq_true'] at hlive
    refine .bind (hadvances writeHandshakeDone_advances p) fun _ p _ => ?_
    refine .bind (hadvances writeMaxStreamsBidi_advances p) fun _ p _ => ?_
    refine .bind (hadvances writeMaxStreamsUni_advances p) fun _ p _ => ?_
    refine .bind (hadvances writeMaxData_advances p) fun _ p _ => ?_
    exact hnone (h.2 (eq_application hlive.1) hlive.2) p
  refine .bind (hadvances writeConnectionClose_advances p) fun _ p _ => ?_
  refine .bind (hadvances (writeApplicationClose_advances epoch) p) fun _ p _ => ?_
  refine .bind (hadvances writePathResponse_advances p) fun _ p _ => ?_
  refine .bind (.when fun _ => hadvances (writeCrypto_advances epoch) p) fun _ p _ => ?_
  refine Program.keeps_get_bind.mpr (.bind (.when fun _ => ?_) fun _ p _ => ?_)
  · exact (loopRel_later env).writeStream _ p
  · exact .when fun _ => hadvances (writePing_advances epoch) p

/-! The rest of a packet -/

/-- The streams stay, and frames are added. -/
theorem Later.of_streams (hstreams : p'.conn.streams = p.conn.streams)
    (hframes : p.draft.frames ⊆ p'.draft.frames) : Later p p' := by
  refine ⟨?_, hframes⟩
  rw [hstreams]
  exact .refl _

private theorem countProbe_later (p : Packing) : (countProbe epoch).Keeps Later p := by
  rw [countProbe, Program.keeps_get_bind]
  refine .ite (fun _ => ?_) fun _ => refl_of Later p
  exact Later.of_streams rfl fun _ h => h

/-- After its frames are written, a packet drops no mark. -/
theorem finish_later {headerLen pnLen avail : ℕ} (p : Packing) : (do
      padInitial epoch pnLen
      padPayload epoch
      let written ← sealPacket epoch headerLen pnLen avail
      recordSent epoch written env
      pure written : Program Error Packing ℕ).Keeps Later p := by
  have hpad (len : ℕ) (p : Packing) : (addPadding len).Keeps Later p :=
    Program.keeps_modify.mpr (.of_streams rfl (List.subset_append_left _ _))
  refine .bind ?_ fun _ p₁ _ => .bind ?_ fun _ p₂ _ => .bind ?_ fun written p₃ _ =>
    .bind ?_ fun _ p₄ _ => refl_of Later p₄
  · rw [padInitial, Program.keeps_get_bind]
    refine .ite (fun _ => .ite (fun _ => Program.keeps_underflow) fun _ => hpad _ p) fun _ =>
      refl_of Later p
  · rw [padPayload, Program.keeps_get_bind]
    exact .ite (fun _ => hpad _ p₁) fun _ => refl_of Later p₁
  · rw [sealPacket, Program.keeps_get_bind]
    refine .ite (fun _ => fun _ => refl_of Later p₂) fun _ =>
      .bind (.when fun _ => ?_) fun _ p₃ _ => ?_
    · rw [joinFecGroup, Program.keeps_get_bind]
      exact .ite (fun _ => Program.keeps_crash) fun _ => Later.of_streams rfl fun _ h => h
    · exact .ite (fun _ _ => refl_of Later p₃) fun _ => .ite (fun _ _ => refl_of Later p₃) fun _ =>
        refl_of Later p₃
  · rw [Program.Keeps, Program.Ends, recordSent_eq]
    refine .of_streams ?_ fun _ h => h
    change (p₃.settled epoch written env).streams = p₃.conn.streams
    unfold settled
    dsimp only
    split_ifs
    · exact Connection.dropEpochState_streams _ .initial env.wall
    · rfl

end Later

end Packing

namespace Connection

/-- No mark is cleared for a packet of `room` bytes; or there is room for all announcements and
for the padding, and no queued stream is shut down. -/
def RoomForMarks (c : Connection) (epoch : Epoch) (room : ℕ) (env : SendEnv) : Prop :=
  c.fecEncoded = [] → c.NoMarks epoch ∨ c.FitsMarks epoch room env ∧ c.FitsPadding epoch room env ∧
    (epoch = .application → c.isClosing = false → c.streams.flushable ≠ [] → c.streams.Unshut)

end Connection

namespace Packing

section Packet

variable {c : Connection} {epoch : Epoch} {room headerLen pnLen avail : ℕ} {env : SendEnv}
    {p : Packing}

/-- A packet for which no mark is cleared. -/
theorem packet_later (h : c.fecEncoded = [] → c.NoMarks epoch) :
    (packet epoch headerLen pnLen avail env).Keeps Later ⟨c, .new room⟩ := by
  refine .bind ?_ fun _ p₁ _ => .bind (countProbe_later p₁) fun _ p₂ _ => ?_
  · rw [fillPacket, Program.keeps_get_bind]
    dsimp only
    cases hfec : c.fecEncoded with
    | nil => exact writeFrames_later (h hfec) _
    | cons head rest =>
      refine .ite (fun _ => ?_) fun _ => Program.keeps_fail.mpr (refl_of Later _)
      refine .bind (Program.keeps_modify.mpr (.of_streams rfl fun _ h => h)) fun _ p₁ _ => ?_
      refine .bind (keeps_later_of_advances (then_addFrame_advances (.refl p₁.conn)))
        fun _ p₂ _ => ?_
      exact Program.keeps_modify.mpr (.of_streams rfl fun _ h => h)
  · rw [Program.keeps_get_bind]
    exact .ite (fun _ => Program.keeps_fail.mpr (refl_of Later p₂)) fun _ => finish_later p₂

/-- Whether or not the packet is sent, marks stay or their frames are in it. -/
theorem packet_announced (h : c.RoomForMarks epoch room env)
    (wf : ∀ id s, c.streams.streams id = some s → s.send.WF)
    (hlong : epoch ≠ .application → pnLen + room + tagLen < 2 ^ 14)
    (havail : headerLen + pnLen + tagLen + (if PacketType.fromEpoch epoch =
      .short then 0 else 2) + room ≤ avail)
    (hkey : (c.pktNumSpaces epoch).cryptoSeal = true) :
    (packet epoch headerLen pnLen avail env).Ends ⟨c, .new room⟩
      (fun _ p => c.streams.Announced p.conn.streams p.draft.frames)
      fun e p => (∃ err, e = .error err) → c.streams.Announced p.conn.streams [] := by
  by_cases hmarks : c.fecEncoded = [] → c.NoMarks epoch
  · exact Program.Ends.mono (packet_later hmarks) (fun _ _ hp => hp.streams.announced _)
      fun _ _ hp herr => (hp herr).streams.announced _
  · -- there are marks, so the packet has room for them
    rw [Classical.not_imp] at hmarks
    obtain ⟨hfec, hmarks⟩ := hmarks
    obtain ⟨hfits, hpadding, hunshut⟩ := (h hfec).resolve_left hmarks
    have hself : c.streams.Announced c.streams [] := (StreamMap.Awaits.refl _).announced []
    have hfill : (fillPacket epoch env).Ends ⟨c, .new room⟩
      (fun _ p => (p.Started → p.Ready c epoch room) ∧
        c.streams.Announced p.conn.streams p.draft.frames)
          fun e p => (∃ err, e = .error err) → c.streams.Announced p.conn.streams [] := by
      have hwrite : (fillPacket epoch env).Ends ⟨c, .new room⟩
          (fun _ p => c.streams.Announced p.conn.streams p.draft.frames) anyFault := by
        rw [fillPacket, Program.ends_bind, Program.ends_get]
        dsimp only
        rw [hfec]
        exact writeFrames_announced hfits
      refine ((fillPacket_starts env hpadding wf fun _ => hunshut).and hwrite).mono
        (fun _ p hp => ⟨fun hstarted => hp.1.resolve_right fun hnot => hnot.1 hstarted, hp.2⟩)
          fun _ p hp herr => ?_
      rw [hp.1 herr]
      exact hself
    refine hfill.bind ?_
    rintro _ p₁ ⟨hready, hannounced⟩
    have hprobe : (countProbe epoch).Ends p₁ (fun _ p => (p.Started → p.Ready c epoch room) ∧
        c.streams.Announced p.conn.streams p.draft.frames)
          fun e p => (∃ err, e = .error err) → c.streams.Announced p.conn.streams [] := by
      rw [countProbe, Program.ends_bind, Program.ends_get]
      exact Program.ends_ite.mpr ⟨fun _ => ⟨fun hstarted => { hready hstarted with }, hannounced⟩,
        fun _ => ⟨hready, hannounced⟩⟩
    refine hprobe.bind ?_
    rintro _ p₂ ⟨hready₂, hannounced₂⟩
    rw [Program.ends_bind, Program.ends_get]
    refine Program.ends_ite.mpr ⟨fun hempty _ => ?_, fun hframes => ?_⟩
    · rwa [List.isEmpty_iff.mp hempty] at hannounced₂
    · have hstarted : p₂.Started := by rwa [List.isEmpty_iff] at hframes
      refine (((hready₂ hstarted).finish hlong havail hkey).and (finish_later p₂)).mono
        (fun _ p₃ hp₃ => ?_) fun _ _ hp herr => ?_
      · refine (hannounced₂.trans hp₃.2.streams.gone (hp₃.2.streams.announced [])).mono ?_
        rw [List.append_nil]
        exact hp₃.2.frames
      · obtain ⟨err, herr⟩ := herr
        exact absurd herr (hp.1 err)

end Packet

end Packing

/-! ### Runs -/

namespace Connection

open StreamMap (Announced)

/-- No mark is dropped while `send` puts together its packet. -/
def SendsMarks (outLen : ℕ) (env : SendEnv) (c : Connection) : Prop :=
  ∀ c₀ epoch pnLen c₁, c.Prepares outLen env c₀ epoch pnLen c₁ →
    c₁.RoomForMarks epoch (c₁.frameRoom epoch pnLen (c₀.packetCap outLen) env) env

/-- Some call of the run puts the frame into a packet. -/
def Builds (c : Connection) : List Call → Frame → Prop
  | [], _ => False
  | call :: calls, f =>
    (∃ outLen env epoch c₁ pkt written c', call = .send outLen env ∧
      c.Sends outLen env epoch c₁ pkt written c' ∧ f ∈ pkt.frames) ∨
    ∃ c', Call.step c call = some c' ∧ c'.Builds calls f

section Run

variable {outLen : ℕ} {env : SendEnv} {c c' : Connection}

/-- What is prepared without giving anything up. -/
theorem Retains.announced (h : c.Retains c') {m : StreamMap} {frames : List Frame}
    (h' : c'.streams.Announced m frames) : c.streams.Announced m frames where
  canceled id hid := h'.canceled id (h.canceled ▸ hid)
  almostFull id hid := by
    refine (h'.almostFull id (h.almostFull ▸ hid)).imp_left fun ⟨hid', hmax⟩ =>
      ⟨hid', fun s hs => ?_⟩
    obtain ⟨s', hs', -, hrecv⟩ := h.streams id s hs
    exact hrecv ▸ hmax s' hs'

/-- A packet is remembered with the frames that it was put together with. -/
theorem Sends.frames {epoch : Epoch} {c₁ : Connection} {pkt : Sent} {written : ℕ}
    (h : c.Sends outLen env epoch c₁ pkt written c') : ∃ c₀ pnLen p',
      c.Prepares outLen env c₀ epoch pnLen c₁ ∧ p'.conn = c' ∧ p'.draft.frames = pkt.frames ∧
      Packing.packet epoch (c₁.headerLen epoch pnLen) pnLen (c₀.packetCap outLen) env
        ⟨c₁, .new (c₁.frameRoom epoch pnLen (c₀.packetCap outLen) env)⟩ = .ok written p' := by
  obtain ⟨c₀, pnLen, filled, padded, sealed, p', hprep, built, hconn, rfl⟩ := h.packed
  refine ⟨c₀, pnLen, p', hprep, hconn, ?_, built.packet⟩
  exact congrArg Draft.frames
    ((Packing.recordSent_effect epoch written env sealed).ok built.record).draft

/-- A call of `send` with enough room drops no mark. -/
theorem send_announced (hc : c.Reachable) (hmarks : c.SendsMarks outLen env) :
    (send outLen env).Ends c
    (fun written c' => ∃ epoch c₁ pkt, c.Sends outLen env epoch c₁ pkt written c' ∧
      c.streams.Announced c'.streams pkt.frames)
    fun e c' => (∃ err, e = .error err) → c.streams.Announced c'.streams [] := by
  have hpacket {c₀ c₁ : Connection} {epoch : Epoch} {pnLen : ℕ}
      (hprep : c.Prepares outLen env c₀ epoch pnLen c₁) :
      (Packing.packet epoch (c₁.headerLen epoch pnLen) pnLen (c₀.packetCap outLen) env).Ends
        ⟨c₁, .new (c₁.frameRoom epoch pnLen (c₀.packetCap outLen) env)⟩
        (fun _ p => c.streams.Announced p.conn.streams p.draft.frames)
        fun e p => (∃ err, e = .error err) → c.streams.Announced p.conn.streams [] := by
    have hoverhead := hprep.overhead
    have hle := packetRoom_le c₁ epoch (c₀.packetCap outLen) env
    have hlt := packetRoom_lt c₁ c₀ epoch outLen env
    refine (Packing.packet_announced (hmarks c₀ epoch pnLen c₁ hprep) (hprep.wf hc)
      (fun hepoch => ?_) ?_ hprep.key).mono
      (fun _ _ h => hprep.retains.announced h) fun _ _ h herr => hprep.retains.announced (h herr)
    · unfold frameRoom
      simp only [packetOverhead] at *
      omega
    · unfold frameRoom
      simp only [packetOverhead] at *
      omega
  refine Program.ends_iff.mpr ⟨fun written c' ok => ?_, fun e c' herror herr => ?_⟩
  · obtain ⟨epoch, c₁, pkt, hsends⟩ := exists_sends ok
    obtain ⟨c₀, pnLen, p', hprep, rfl, hframes, hp'⟩ := hsends.frames
    exact ⟨epoch, c₁, pkt, hsends, hframes ▸ (hpacket hprep).ok hp'⟩
  · rcases send_cases outLen env c with ⟨e', c'', heq, hstops⟩ | ⟨c₀, epoch, pnLen, c₁, hprep, heq⟩
    · cases heq.symm.trans herror
      exact hstops.retains.announced ((StreamMap.Awaits.refl _).announced [])
    · have hends : (sendPacket outLen env c₀ epoch pnLen).Ends c₁ (fun _ _ => True)
          fun e c' => (∃ err, e = .error err) → c.streams.Announced c'.streams [] := by
        rw [sendPacket, Program.ends_bind, Program.ends_get, Program.ends_zoom]
        exact (hpacket hprep).mono (fun _ _ _ => trivial) fun _ _ h => h
      exact hends.error (heq.symm.trans herror) herr

/-- Collected streams stay collected, whatever is called. -/
theorem gone_of_call {call : Call} (hstep : Call.step c call = some c') {id : ℕ}
    (hid : c.streams.Gone id) : c'.streams.Gone id := by
  obtain ⟨d, actions, hactions⟩ := Call.reaches hstep (.new 0)
  have hages := Lib.run_invariant (I := fun p : Packing => c.Ages p.conn)
    (fun p action p' hp h => trans_of StreamMap.Ages hp (Action.effect h).ages)
    (s := ⟨c, .new 0⟩) (refl_of StreamMap.Ages c.streams) hactions
  exact ⟨hages.collected id hid.1, hages.gone id hid.1 hid.2⟩

/-- Calls lead from reachable states to reachable states. -/
theorem Reachable.step {call : Call} (hc : c.Reachable) (hstep : Call.step c call = some c') :
    c'.Reachable := by
  obtain ⟨config, isServer, afterRetry, now, calls, hrun⟩ := hc
  exact ⟨config, isServer, afterRetry, now, calls ++ [call], by simp [Lib.run_append, hrun, hstep]⟩

/-- What a call does to the marks. -/
theorem step_announced {call : Call} (hc : c.Reachable)
    (hmarks : ∀ outLen env, call = .send outLen env →
    c.SendsMarks outLen env)
    (hstep : Call.step c call = some c') : ∃ frames : List Frame,
      (∀ f ∈ frames, ∀ calls, c.Builds (call :: calls) f) ∧
          c.streams.Announced c'.streams frames := by
  by_cases hsend : ∃ outLen env, call = .send outLen env
  · obtain ⟨outLen, env, rfl⟩ := hsend
    have hends := send_announced hc (hmarks outLen env rfl)
    rw [Call.step, Call.program, Program.discard_after] at hstep
    unfold Program.after at hstep
    cases hrun : send outLen env c with
    | ok written c₁ =>
      rw [hrun] at hstep
      cases hstep
      obtain ⟨epoch, c₁, pkt, hsends, hannounced⟩ := hends.ok hrun
      exact ⟨pkt.frames, fun f hf _ => .inl ⟨_, _, _, _, _, _, _, rfl, hsends, hf⟩, hannounced⟩
    | error e c₁ =>
      rw [hrun] at hstep
      cases e with
      | error e =>
        cases hstep
        exact ⟨[], List.forall_mem_nil _, hends.error hrun ⟨e, rfl⟩⟩
      | _ => cases hstep
  · have hkeeps := awaits_of_call (m := c.streams)
      fun outLen env h => hsend ⟨outLen, env, h⟩
    have hawaits : call.program.Keeps (fun c c' : Connection => c.streams.Awaits c'.streams) c :=
      Program.Ends.mono (hkeeps c (.refl _)) (fun _ _ h => h) fun _ _ h _ => h
    exact ⟨[], List.forall_mem_nil _, (Program.keeps_iff_after.mp hawaits c' hstep).announced []⟩

end Run

/-- A client that has read most of what stream 3 may send. -/
def filled : Option Connection :=
  Sample.client (.basic {}) [Sample.recv 0 [.stream 3 ⟨List.replicate 40 7, 0, false⟩] 1,
    .streamRecv 3 40]

/-- A client that waits to tell the peer of new credit for stream 3. -/
def thirsty : Connection := filled.getD (.new (Sample.config (.basic {})) false false 0)

end Connection

end Dtp
