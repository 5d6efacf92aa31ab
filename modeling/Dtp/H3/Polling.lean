import Dtp.H3.Connection
import Dtp.Readable

/-!
# What a poll does to a stream

Frames of the peer arrive, the application polls and reads bodies. Each of these works on one
stream after the other, and leaves the others alone.

## Main definitions

* `Connection.Receiving` — a stream on which the peer's data is read and nothing is sent
* `Connection.Acts`, `H3.Session.Visits` — what a program on one stream may do
* `H3.Session.Step` — what happens on a connection

## Main results

* `H3.Session.processReadableStream_visits` — the parser works on one stream
-/

namespace Dtp

open Lib (Program)

namespace Connection

/-- All the data of a live stream has been read. -/
def drained (c : Connection) (id : ℕ) : Bool := (c.streams.streams id).any fun s => s.recv.isFin

/-- The stream is bidirectional and not finished by this endpoint, so it stays live once it is;
and if it is among the readable ones, there is something to read. -/
structure Receiving (id : ℕ) (c : Connection) : Prop where
  isBidi : isBidi id = true
  wf : ∀ s, c.streams.streams id = some s → s.recv.WF
  bidi : ∀ s, c.streams.streams id = some s → s.bidi = true
  unsent : ∀ s, c.streams.streams id = some s → s.send.isComplete = false
  readsAt : id ∈ c.streams.readable → c.streams.readsAt id = true

/-- What a program on the stream `id` may do to a connection. -/
structure Acts (id : ℕ) (c c' : Connection) : Prop where
  streams : ∀ i ≠ id, c'.streams.streams i = c.streams.streams i
  readable : ∀ i ≠ id, (i ∈ c'.streams.readable ↔ i ∈ c.streams.readable)
  nodup : c.streams.readable.Nodup → c'.streams.readable.Nodup
  receiving : c.Receiving id → c'.Receiving id
  live : c.Receiving id → (c.streams.streams id).isSome → (c'.streams.streams id).isSome
  drained : c.Receiving id → c.drained id = true → c'.drained id = true

variable {id i : ℕ} {c c' : Connection}

instance : IsPreorder Connection (Acts id) where
  refl _ := ⟨fun _ _ => rfl, fun _ _ => .rfl, fun h => h, fun h => h, fun _ h => h, fun _ h => h⟩
  trans _ _ _ h h' :=
    { streams := fun i hi => (h'.streams i hi).trans (h.streams i hi)
      readable := fun i hi => (h'.readable i hi).trans (h.readable i hi)
      nodup := fun hnodup => h'.nodup (h.nodup hnodup)
      receiving := fun hrecv => h'.receiving (h.receiving hrecv)
      live := fun hrecv hlive => h'.live (h.receiving hrecv) (h.live hrecv hlive)
      drained := fun hrecv hdrained => h'.drained (h.receiving hrecv) (h.drained hrecv hdrained) }

/-- The streams are as before. -/
theorem acts_of_streams (hstreams : c'.streams.streams = c.streams.streams)
    (hreadable : c'.streams.readable = c.streams.readable) : Acts id c c' := by
  constructor
  · exact fun i _ => by rw [hstreams]
  · exact fun i _ => by rw [hreadable]
  · rw [hreadable]
    exact fun hnodup => hnodup
  · rintro ⟨hbidi, wf, bidi, unsent, readsAt⟩
    refine ⟨hbidi, by rwa [hstreams], by rwa [hstreams], by rwa [hstreams], ?_⟩
    rwa [hreadable, StreamMap.readsAt, hstreams]
  · rw [hstreams]
    exact fun _ h => h
  · rw [Connection.drained, Connection.drained, hstreams]
    exact fun _ hd => hd

theorem Acts.receiving_of_ne (h : Acts id c c') (hi : i ≠ id) (hrecv : c.Receiving i) :
    c'.Receiving i where
  isBidi := hrecv.isBidi
  wf s hs := hrecv.wf s (h.streams i hi ▸ hs)
  bidi s hs := hrecv.bidi s (h.streams i hi ▸ hs)
  unsent s hs := hrecv.unsent s (h.streams i hi ▸ hs)
  readsAt hmem := by
    have hold := hrecv.readsAt ((h.readable i hi).mp hmem)
    rwa [StreamMap.readsAt, ← h.streams i hi] at hold

theorem Acts.drained_of_ne (h : Acts id c c') (hi : i ≠ id) : c'.drained i = c.drained i := by
  rw [Connection.drained, Connection.drained, h.streams i hi]

/-! ### The receive side of a stream -/

theorem Receiving.isComplete (h : c.Receiving id) {s : Stream}
    (live : c.streams.streams id = some s)
    (recv : RecvBuf) : { s with recv := recv : Stream }.isComplete = false := by
  unfold Stream.isComplete
  dsimp only
  rw [h.bidi s live, h.unsent s live, Bool.and_false]

private theorem mark_nodup {ids : List ℕ} (h : ids.Nodup) (id : ℕ) (present : Bool) :
    (mark ids id present).Nodup := by
  cases present
  · exact h.filter _
  · exact h.insert

theorem drained_live {s : Stream} (live : c.streams.streams id = some s) :
    c.drained id = s.recv.isFin := by
  rw [Connection.drained, live]
  rfl

/-- The receive buffer of a live stream changes. -/
theorem acts_of_recv {s : Stream} (live : c.streams.streams id = some s) (recv : RecvBuf)
    (hothers : ∀ i ≠ id, c'.streams.streams i = c.streams.streams i)
    (hmarks : c'.streams.readable = c.streams.readable ∨
      ∃ present, c'.streams.readable = mark c.streams.readable id present)
    (hlive : c.Receiving id → c'.streams.streams id = some { s with recv := recv })
    (hwf : s.recv.WF → recv.WF) (hfin : s.recv.WF → s.recv.isFin = true → recv.isFin = true)
    (hready : c.Receiving id → id ∈ c'.streams.readable → recv.ready = true) : Acts id c c' := by
  refine ⟨hothers, fun i hi => ?_, fun hnodup => ?_, fun hrecv => ?_, fun hrecv _ => ?_,
    fun hrecv hdrained => ?_⟩
  · rcases hmarks with heq | ⟨_ | _, heq⟩
    · rw [heq]
    · rw [heq]
      exact StreamMap.mem_mark_false.trans (and_iff_left hi)
    · rw [heq]
      exact StreamMap.mem_mark_true.trans (or_iff_right hi)
  · rcases hmarks with heq | ⟨present, heq⟩
    · rwa [heq]
    · rw [heq]
      exact mark_nodup hnodup id present
  · have hnew {s' : Stream} (hs' : c'.streams.streams id = some s') :
        s' = { s with recv := recv } :=
      Option.some.inj (hs'.symm.trans (hlive hrecv))
    refine ⟨hrecv.isBidi, fun s' hs' => ?_, fun s' hs' => ?_, fun s' hs' => ?_, fun hmem => ?_⟩
    · rw [hnew hs']
      exact hwf (hrecv.wf s live)
    · rw [hnew hs']
      exact hrecv.bidi s live
    · rw [hnew hs']
      exact hrecv.unsent s live
    · rw [StreamMap.readsAt_live (hlive hrecv)]
      exact hready hrecv hmem
  · rw [hlive hrecv]
    rfl
  · rw [drained_live live] at hdrained
    rw [drained_live (hlive hrecv)]
    exact hfin (hrecv.wf s live) hdrained

end Connection

namespace RecvBuf

variable {r r' : RecvBuf}

/-- At the end of a stream, there is nothing more to read. -/
theorem Read.isFin {out : List UInt8} (h : Read r out r') (hfin : r.isFin = true) :
    r'.isFin = true := by
  have hend : r.finOff = some r.off := by simpa [RecvBuf.isFin] using hfin
  have hfinOff : r'.finOff = some r.off := h.finOff.trans hend
  have hle : r'.off ≤ r.off := h.wf.off_le_len.trans (h.wf.len_le_fin _ hfinOff)
  have hoff : r'.off = r.off := by
    have := h.off
    omega
  rw [RecvBuf.isFin, hfinOff, hoff]
  exact beq_self_eq_true _

/-- What arrives at the end of a stream adds nothing to it. -/
theorem pushWith_isFin (wf : r.WF) {goodUntil : ℤ} {buf : RangeBuf} {now : ℕ}
    (h : r.pushWith goodUntil buf now = .ok r') (hfin : r.isFin = true) : r'.isFin = true := by
  have hend : r.finOff = some r.off := by simpa [RecvBuf.isFin] using hfin
  have hpushed := pushWith_ok wf h
  have hsize : r.checkSize buf.maxOff buf.fin = none := by
    rcases r.pushCase goodUntil buf now with ⟨e, _, eq⟩ | ⟨size, _, _⟩ | ⟨size, _, _, _, _⟩
    · rw [h] at eq
      cases eq
    · exact size
    · exact size
  have hknown := (checkSize_eq_none.mp hsize).2.1 _ hend
  have hfinOff : r'.finOff = some r.off := by
    rw [hpushed.finOff]
    split_ifs with hbuf
    · rw [hknown.2 hbuf]
    · exact hend
  rw [RecvBuf.isFin, hfinOff, hpushed.off]
  exact beq_self_eq_true _

end RecvBuf

namespace Connection

variable {c c' : Connection}

/-! ### Programs on one stream of the transport -/

theorem streamRecv_acts (id cap : ℕ) (c : Connection) : (streamRecv id cap).Keeps (Acts id) c := by
  rw [streamRecv, Program.keeps_get_bind]
  refine .ite (fun _ => Program.keeps_fail.mpr (refl_of (Acts id) c)) fun _ => ?_
  cases live : c.streams.streams id with
  | none => exact Program.keeps_fail.mpr (refl_of (Acts id) c)
  | some s =>
    refine .ite (fun _ => Program.keeps_fail.mpr (refl_of (Acts id) c)) fun _ => ?_
    cases hpop : s.recv.pop cap with
    | error e => exact Program.keeps_fail.mpr (refl_of (Acts id) c)
    | ok r =>
      obtain ⟨out, fin, recv⟩ := r
      let s' : Stream := { s with recv := recv }
      let m₁ := c.streams.put id s'
      let m₂ := if recv.almostFull then m₁.markAlmostFull id true else m₁
      let m₃ := if s'.isReadable then m₂ else m₂.markReadable id false
      let m₄ := if s'.isComplete then m₃.collect id s'.isLocal else m₃
      have hstreams₃ : m₃.streams = m₁.streams := by
        simp only [m₃, m₂]
        split_ifs <;> rfl
      have hreadable₃ : m₃.readable = if s'.isReadable then c.streams.readable else
          mark c.streams.readable id false := by
        simp only [m₃, m₂]
        split_ifs <;> rfl
      have hstreams (i : ℕ) (hi : i ≠ id) : m₄.streams i = c.streams.streams i := by
        have hold : m₃.streams i = c.streams.streams i := by
          rw [hstreams₃]
          exact StreamMap.put_streams_of_ne _ _ hi
        simp only [m₄]
        split_ifs
        · rw [StreamMap.collect_streams, if_neg hi, hold]
        · exact hold
      have hreadable : m₄.readable = m₃.readable := by
        simp only [m₄]
        split_ifs
        · exact StreamMap.collect_readable _ _ _
        · rfl
      -- a stream that is received on is not complete
      have hlive (hrecv : c.Receiving id) : m₄.streams id = some s' := by
        simp only [m₄]
        rw [if_neg (by simp [s', hrecv.isComplete live]), hstreams₃]
        exact StreamMap.put_streams_self _ _ _
      change Acts id c
        { c.setStreams m₄ with maxRxDataNext := saturatingAdd c.maxRxDataNext out.length }
      refine acts_of_recv live recv hstreams ?_ hlive (fun wf => (RecvBuf.pop_ok wf hpop).1.wf)
        (fun wf => (RecvBuf.pop_ok wf hpop).1.isFin) fun hrecv hmem => ?_
      · change m₄.readable = _ ∨ ∃ present, m₄.readable = _
        rw [hreadable, hreadable₃]
        split_ifs
        · exact .inl rfl
        · exact .inr ⟨false, rfl⟩
      · change id ∈ m₄.readable at hmem
        rw [hreadable, hreadable₃] at hmem
        split_ifs at hmem with hready
        · exact hready
        · exact absurd rfl (StreamMap.mem_mark_false.mp hmem).2

private theorem streamShutdown_acts (id : ℕ) (c : Connection) :
    (streamShutdown id .read).Keeps (Acts id) c := by
  rw [streamShutdown, Program.keeps_get_bind]
  cases live : c.streams.streams id with
  | none => exact Program.keeps_fail.mpr (refl_of (Acts id) c)
  | some s =>
    dsimp only
    cases hshut : s.recv.shutdown with
    | error e => exact Program.keeps_fail.mpr (refl_of (Acts id) c)
    | ok recv =>
      change Acts id c (c.setStreams ((c.streams.putRecv id s recv).markReadable id false))
      refine acts_of_recv live recv (fun i hi => StreamMap.put_streams_of_ne _ _ hi)
        (.inr ⟨false, rfl⟩)
        (fun _ => StreamMap.put_streams_self _ _ _) (fun wf => wf.shutdown hshut) (fun _ hfin => ?_)
        fun _ hmem => absurd rfl (StreamMap.mem_mark_false.mp hmem).2
      rw [RecvBuf.shutdown] at hshut
      split_ifs at hshut
      cases hshut
      exact hfin

theorem close_acts {app : Bool} {err : ℕ} {reason : List UInt8} (id : ℕ)
    (h : c.close app err reason = .ok c') : Acts id c c' := by
  unfold close at h
  split_ifs at h <;> cases h <;> exact acts_of_streams rfl rfl

/-- The stream that a frame of the peer names is looked up or created. -/
theorem peerStream_acts {id now : ℕ} {s : Stream} {m : StreamMap}
    (h : c.peerStream id now = .ok (s, m)) :
    Acts id c (c.setStreams m) ∧ m.streams id = some s := by
  have hlive : m.streams id = some s := (getOrCreateStream_edits h).2
  refine ⟨?_, hlive⟩
  unfold peerStream getOrCreateStream at h
  cases hvacant : c.streams.streams id with
  | some s₀ =>
    obtain ⟨-, rfl⟩ := StreamMap.getOrCreate_live hvacant h
    split_ifs <;> exact acts_of_streams rfl rfl
  | none =>
    obtain ⟨-, ⟨maxRxData, maxTxData, rfl⟩, hstreams, -, hreadable, -⟩ :=
      StreamMap.getOrCreate_vacant hvacant h
    have hnew {s : Stream} (hs : m.streams id = some s) : s = .newFull maxRxData maxTxData
      (isBidi id)
        (isLocal id c.isServer) maxDeadline defaultPriority now := Option.some.inj
          (hs.symm.trans hlive)
    -- a new stream has nothing to read, and its mark is not set
    refine ⟨fun i hi => ?_, fun i _ => ?_, fun hnodup => ?_, fun hrecv => ?_, fun _ hold => ?_,
      fun hrecv hfin => ?_⟩
    · change m.streams i = _
      rw [hstreams]
      exact StreamMap.put_streams_of_ne _ _ hi
    · change i ∈ m.readable ↔ _
      rw [hreadable]
    · change m.readable.Nodup
      rwa [hreadable]
    · refine ⟨hrecv.isBidi, fun s hs => ?_, fun s hs => ?_, fun s hs => ?_, fun hmem => ?_⟩
      · rw [hnew hs]
        exact RecvBuf.new_wf _
      · rw [hnew hs]
        exact hrecv.isBidi
      · rw [hnew hs]
        rfl
      · change id ∈ m.readable at hmem
        rw [hreadable] at hmem
        have hreads := hrecv.readsAt hmem
        rw [StreamMap.readsAt, hvacant] at hreads
        cases hreads
    · rw [hvacant] at hold
      cases hold
    · rw [Connection.drained, hvacant] at hfin
      cases hfin

private theorem processStream_acts (id : ℕ) (data : RangeBuf) (env : Env) (c : Connection) :
    (processStream id data env).Keeps (Acts id) c := by
  rw [processStream, Program.keeps_get_bind]
  refine .ite (fun _ => Program.keeps_fail.mpr (refl_of (Acts id) c)) fun _ =>
    .ite (fun _ => Program.keeps_fail.mpr (refl_of (Acts id) c)) fun _ => ?_
  cases hopen : c.peerStream id env.wall with
  | error e =>
    cases e
    case done => exact refl_of (Acts id) c
    all_goals exact Program.keeps_fail.mpr (refl_of (Acts id) c)
  | ok r =>
    obtain ⟨s, m⟩ := r
    obtain ⟨hacts, live⟩ := peerStream_acts hopen
    simp only [Program.Keeps, Program.ends_bind, Program.ends_set]
    cases hpush : s.recv.pushEvaluation data env.wall with
    | error e => exact fun _ => hacts
    | ok recv =>
      refine trans_of (Acts id) hacts ?_
      let m' := if recv.ready then (m.putRecv id s recv).markReadable id true else m.putRecv
        id s recv
      have hstreams : m'.streams = (m.put id { s with recv := recv }).streams := by
        simp only [m']
        split_ifs <;> rfl
      have hreadable :
          m'.readable = if recv.ready then mark m.readable id true else m.readable := by
        simp only [m']
        split_ifs <;> rfl
      change Acts id (c.setStreams m)
        { (c.setStreams m).setStreams m' with rxData := c.rxData + data.len }
      refine acts_of_recv live recv (fun i hi => ?_) ?_ (fun _ => ?_)
        (fun wf => (RecvBuf.pushWith_ok wf hpush).wf) (fun wf => RecvBuf.pushWith_isFin wf hpush)
        fun hrecv hmem => ?_
      · change m'.streams i = m.streams i
        rw [hstreams]
        exact StreamMap.put_streams_of_ne _ _ hi
      · change m'.readable = m.readable ∨ ∃ present, m'.readable = mark m.readable id present
        rw [hreadable]
        split_ifs
        · exact .inr ⟨true, rfl⟩
        · exact .inl rfl
      · change m'.streams id = _
        rw [hstreams]
        exact StreamMap.put_streams_self _ _ _
      · change id ∈ m'.readable at hmem
        rw [hreadable] at hmem
        split_ifs at hmem with hready
        · exact hready
        · -- what was ready is ready still
          have hold : m.readsAt id = true := hrecv.readsAt hmem
          rw [StreamMap.readsAt_live live] at hold
          exact (hrecv.wf s live).pushWith_ready hpush hold

end Connection

namespace H3

namespace Stream

/-! ### Programs on a stream of HTTP/3 -/

/-- The stream keeps its ID, and does not go back to reading its type. -/
structure Moves (s s' : Stream) : Prop where
  id : s'.id = s.id
  state : s'.state = .streamType → s.state = .streamType

instance : IsPreorder Stream Moves where
  refl _ := ⟨rfl, fun h => h⟩
  trans _ _ _ h h' := ⟨h'.id.trans h.id, fun hs => h.state (h'.state hs)⟩

variable {s : Stream}

theorem stateTransition_moves {newState : State} (hne : newState ≠ .streamType) (expectedLen : ℕ)
    (reset : Bool)
    (s : Stream) : (stateTransition newState expectedLen reset).Keeps Moves s := by
  have hmoves (buf : List UInt8) : Moves s
      { s with state := newState, stateOff := 0, stateLen := expectedLen, stateBuf := buf } :=
    ⟨rfl, fun h => absurd h hne⟩
  unfold stateTransition
  simp only [Program.Keeps, Program.ends_bind, Program.ends_modify, Program.ends_ite,
    Program.ends_fail,
    Program.ends_pure]
  exact ⟨fun _ _ => hmoves _, fun _ => ⟨fun _ => hmoves _, fun _ => hmoves _⟩⟩

theorem assertState_moves (state : State) (s : Stream) : (assertState state).Keeps Moves s := by
  unfold assertState
  rw [Program.keeps_get_bind]
  exact .ite (fun _ => refl_of Moves s) fun _ => Program.keeps_crash

private theorem setTy_moves (ty : StreamType) (s : Stream) : (setTy ty).Keeps Moves s := by
  refine .bind (assertState_moves _ s) fun _ s _ => ?_
  refine .bind (Program.keeps_modify.mpr ⟨rfl, fun h => h⟩) fun _ s _ => ?_
  cases ty with
  | control => exact stateTransition_moves (by decide) _ _ s
  | request => exact stateTransition_moves (by decide) _ _ s
  | push => exact stateTransition_moves (by decide) _ _ s
  | qpackEncoder =>
    refine .bind (Program.keeps_modify.mpr ⟨rfl, fun h => h⟩) fun _ s _ => ?_
    exact stateTransition_moves (by decide) _ _ s
  | qpackDecoder =>
    refine .bind (Program.keeps_modify.mpr ⟨rfl, fun h => h⟩) fun _ s _ => ?_
    exact stateTransition_moves (by decide) _ _ s
  | unknown => exact stateTransition_moves (by decide) _ _ s

private theorem setPushId_moves (id : ℕ) (s : Stream) : (setPushId id).Keeps Moves s :=
  .bind (assertState_moves _ s) fun _ s _ => stateTransition_moves (by decide) _ _ s

private theorem setFrameType_moves (ty : ℕ) (s : Stream) : (setFrameType ty).Keeps Moves s := by
  refine .bind (assertState_moves _ s) fun _ s _ => ?_
  rw [Program.keeps_get_bind]
  refine .bind (.ofExcept _) fun initialized s' hs' => ?_
  obtain rfl : s = s' := by
    cases hcheck : s.checkFrameType ty with
    | ok i =>
      rw [hcheck] at hs'
      cases hs'
      rfl
    | error e =>
      rw [hcheck] at hs'
      cases hs'
  refine .bind (Program.keeps_set.mpr ⟨rfl, fun h => h⟩) fun _ s _ => ?_
  exact stateTransition_moves (by decide) _ _ s

private theorem setFramePayloadLen_moves (len : ℕ) (s : Stream) :
    (setFramePayloadLen len).Keeps Moves s := by
  refine .bind (assertState_moves _ s) fun _ s _ => ?_
  rw [Program.keeps_get_bind]
  refine .ite (fun _ => ?_) fun _ => Program.keeps_fail.mpr (refl_of Moves s)
  split
  · exact stateTransition_moves (by decide) _ _ s
  · exact stateTransition_moves (by decide) _ _ s

private theorem tryConsumeVarint_moves (s : Stream) : tryConsumeVarint.Keeps Moves s := by
  unfold tryConsumeVarint
  refine .bind (Program.keeps_modify.mpr ?_) fun _ s _ => ?_
  · split_ifs <;> exact ⟨rfl, fun h => h⟩
  rw [Program.keeps_get_bind]
  refine .ite (fun _ => Program.keeps_fail.mpr (refl_of Moves s)) fun _ => ?_
  split
  · exact refl_of Moves s
  · exact Program.keeps_fail.mpr (refl_of Moves s)
  · exact fun _ => refl_of Moves s

private theorem tryConsumeFrame_moves (s : Stream) : tryConsumeFrame.Keeps Moves s := by
  unfold tryConsumeFrame
  rw [Program.keeps_get_bind]
  refine .bind (.unwrap _) fun frameType s' _ => ?_
  split
  · exact .bind (stateTransition_moves (by decide) _ _ s') fun _ s _ => refl_of Moves s
  · exact Program.keeps_fail.mpr (refl_of Moves s')
  · exact fun _ => refl_of Moves s'

end Stream

/-- The stream is the control stream of the peer, or one for QPACK. -/
def Connection.IsCritical (h : Connection) (id : ℕ) : Prop :=
  h.peerControlStreamId = some id ∨ h.peerEncoderStreamId = some id ∨
    h.peerDecoderStreamId = some id

/-- Every stream knows its ID, and those that start with their type are unidirectional, as are the
critical ones. -/
structure Connection.Sane (h : Connection) : Prop where
  own : ∀ id stream, h.streams id = some stream → stream.id = id
  ty : ∀ id stream, h.streams id = some stream → stream.state = .streamType → isBidi id = false
  critical : ∀ id, h.IsCritical id → isBidi id = false

namespace Session

/-- What happened on a stream so far. -/
def itemsOf (s : Session) (id : ℕ) : List Item :=
  s.log.filterMap fun entry => if entry.1 = id then some entry.2 else none

/-- What a program on the stream `id` may do. It does not queue or return the end of the stream. -/
structure Visited (id : ℕ) (s s' : Session) : Prop where
  sane : s'.http3.Sane
  acts : s.conn.Acts id s'.conn
  queue : s'.http3.finishedStreams = s.http3.finishedStreams
  items : ∀ i ≠ id, s'.itemsOf i = s.itemsOf i
  finished : .event .finished ∈ s'.itemsOf id → .event .finished ∈ s.itemsOf id

/-- The session visits a stream, as far as it is sane. -/
def Visits (id : ℕ) (s s' : Session) : Prop := s.http3.Sane → Visited id s s'

variable {s s' : Session} {id i : ℕ}

instance : IsPreorder Session (Visits id) where
  refl s sane := ⟨sane, refl_of (Dtp.Connection.Acts id) s.conn, rfl, fun _ _ => rfl, fun h => h⟩
  trans _ _ _ h h' sane :=
    let v := h sane
    let v' := h' v.sane
    { sane := v'.sane
      acts := trans_of (Dtp.Connection.Acts id) v.acts v'.acts
      queue := v'.queue.trans v.queue
      items := fun i hi => (v'.items i hi).trans (v.items i hi)
      finished := fun hmem => v.finished (v'.finished hmem) }

theorem visits_of_sane {α : Type} {x : Program Error Session α}
    (h : s.http3.Sane → x.Keeps (Visits id) s) :
    x.Keeps (Visits id) s := .of_imp h

/-! ### Steps of programs -/

@[simp] theorem itemsOf_append (item : Item) :
    { s with log := s.log ++ [(i, item)] : Session }.itemsOf id =
      if i = id then s.itemsOf id ++ [item] else s.itemsOf id := by
  unfold itemsOf
  rw [List.filterMap_append]
  split_ifs with h <;> simp [h]

theorem record_visits {item : Item} (hitem : item ≠ .event .finished) (s : Session) :
    (record id item).Keeps (Visits id) s := by
  refine Program.keeps_modify.mpr fun sane => ?_
  refine ⟨sane, refl_of (Dtp.Connection.Acts id) s.conn, rfl, fun i hi => ?_, fun hmem => ?_⟩
  · rw [itemsOf_append, if_neg hi.symm]
  · rw [itemsOf_append, if_pos rfl, List.mem_append, List.mem_singleton] at hmem
    exact hmem.resolve_right hitem.symm

theorem transport_visits {α : Type} {x : Program Dtp.Error Dtp.Connection α}
    (h : x.Keeps (Dtp.Connection.Acts id) s.conn) : (transport x).Keeps (Visits id) s :=
  .embed h fun _ hacts sane => ⟨sane, hacts, rfl, fun _ _ => rfl, fun hmem => hmem⟩

theorem transport_http3 {α : Type} {x : Program Dtp.Error Dtp.Connection α} {a : α}
    (h : transport x s = .ok a s') : s'.http3 = s.http3 := by
  rw [transport_apply] at h
  split at h
  · cases h
    rfl
  · cases h

/-- What the parser does not use changes. -/
theorem visits_http3 {http3 : Connection} (hstreams : http3.streams = s.http3.streams)
    (hqueue : http3.finishedStreams = s.http3.finishedStreams)
    (hcritical : ∀ i, http3.IsCritical i → s.http3.IsCritical i ∨ i = id ∧ isBidi id = false) :
    Visits id s { s with http3 := http3 } := by
  refine fun sane => ⟨⟨?_, ?_, fun i hi => ?_⟩, refl_of (Dtp.Connection.Acts id) s.conn, hqueue,
    fun _ _ => rfl, fun h => h⟩
  · rw [hstreams]
    exact sane.own
  · rw [hstreams]
    exact sane.ty
  · rcases hcritical i hi with hold | ⟨rfl, huni⟩
    · exact sane.critical i hold
    · exact huni

theorem visits_putStream {stream : Stream} (hid : stream.id = id)
    (hstate : stream.state = .streamType → isBidi id = false) :
    Visits id s (s.putStream id stream) := by
  have hcases (i : ℕ) (t : Stream) (ht : (s.putStream id stream).http3.streams i = some t) :
      i = id ∧ t = stream ∨ s.http3.streams i = some t := by
    change (if i = id then some stream else s.http3.streams i) = some t at ht
    split_ifs at ht with hi
    · exact .inl ⟨hi, (Option.some.inj ht).symm⟩
    · exact .inr ht
  refine fun sane => ⟨⟨fun i t ht => ?_, fun i t ht => ?_, sane.critical⟩,
    refl_of (Dtp.Connection.Acts id) s.conn, rfl, fun _ _ => rfl, fun h => h⟩
  · rcases hcases i t ht with ⟨rfl, rfl⟩ | hold
    · exact hid
    · exact sane.own i t hold
  · rcases hcases i t ht with ⟨rfl, rfl⟩ | hold
    · exact hstate
    · exact sane.ty i t hold

/-- A stream is replaced by what a program on it made of it. -/
theorem visits_moves {stream stream' : Stream} (hstream : s.http3.streams id = some stream)
    (h : stream.Moves stream') : Visits id s (s.putStream id stream') := fun sane =>
  visits_putStream (h.id.trans (sane.own id stream hstream)) (fun hs =>
    sane.ty id stream hstream (h.state hs)) sane

theorem onStream_visits {α : Type} {x : Program Error Stream α}
    (h : ∀ stream, x.Keeps Stream.Moves stream)
    (s : Session) : (onStream id x).Keeps (Visits id) s := by
  rw [onStream, Program.keeps_get_bind]
  cases hstream : s.http3.streams id with
  | none => exact Program.keeps_crash
  | some stream => exact .zoom (h stream) fun _ => visits_moves hstream

theorem closeWith_visits {α : Type} (e : Error) (reason : String) (s : Session) :
    (closeWith e reason : Program Error Session α).Keeps (Visits id) s := by
  refine .bind (transport_visits ?_) fun _ s _ => Program.keeps_fail.mpr (refl_of (Visits id) s)
  rw [Program.keeps_get_bind]
  cases hclose : s.conn.close true e.toWire (utf8 reason) with
  | error _ => exact Program.keeps_fail.mpr (refl_of (Dtp.Connection.Acts id) s.conn)
  | ok c => exact Program.keeps_set.mpr (Dtp.Connection.close_acts id hclose)

/-! ### The parser -/

theorem tryFillBuffer_visits (s : Session) : (tryFillBuffer id).Keeps (Visits id) s := by
  refine visits_of_sane fun sane => ?_
  rw [tryFillBuffer, Program.keeps_get_bind]
  cases hstream : s.http3.streams id with
  | none => exact Program.keeps_crash
  | some stream =>
    refine .ite (fun _ => Program.keeps_crash) fun _ => ?_
    rw [sane.own id stream hstream]
    refine .bind (transport_visits (Dtp.Connection.streamRecv_acts id _ s.conn))
      fun read s' hs' => ?_
    have hmoves : stream.Moves (stream.fill read.1) := ⟨rfl, fun h => h⟩
    rw [← transport_http3 hs'] at hstream
    refine .bind (Program.keeps_modify.mpr (visits_moves hstream hmoves)) fun _ s _ => ?_
    exact .ite (fun _ => refl_of (Visits id) s) fun _ =>
      Program.keeps_fail.mpr (refl_of (Visits id) s)

theorem tryConsumeData_visits (cap : ℕ) (s : Session) :
    (tryConsumeData id cap).Keeps (Visits id) s := by
  refine visits_of_sane fun sane => ?_
  rw [tryConsumeData, Program.keeps_get_bind]
  cases hstream : s.http3.streams id with
  | none => exact Program.keeps_crash
  | some stream =>
    rw [Program.unwrap_some, pure_bind]
    split_ifs
    · exact Program.keeps_underflow
    rw [Program.unwrapSub_some, pure_bind, sane.own id stream hstream]
    refine .bind (transport_visits (Dtp.Connection.streamRecv_acts id _ s.conn))
      fun read s' hs' => ?_
    have hmoves : stream.Moves
        { stream with id := id, stateOff := stream.stateOff + read.1.length } :=
      ⟨(sane.own id stream hstream).symm, fun h => h⟩
    rw [← transport_http3 hs'] at hstream
    refine .bind (Program.keeps_modify.mpr (visits_moves hstream hmoves)) fun _ s _ => ?_
    refine .bind (.when fun _ => onStream_visits (Stream.stateTransition_moves (by decide) _ _) s)
      fun _ s _ => ?_
    exact refl_of (Visits id) s

theorem orClose_visits {x : Program Error Stream Unit} (h : ∀ stream, x.Keeps Stream.Moves stream)
    (reason : Error → String) (s : Session) : (orClose id x reason).Keeps (Visits id) s := by
  refine .bind (onStream_visits h s).attempt fun r s _ => ?_
  cases r with
  | ok => exact refl_of (Visits id) s
  | error e => exact closeWith_visits e _ s

theorem withVarint_visits {f : ℕ → Program Error Session Unit}
    (h : ∀ v s, (f v).Keeps (Visits id) s) (s : Session) :
    (withVarint id f).Keeps (Visits id) s := by
  refine .bind (tryFillBuffer_visits s) fun _ s _ => ?_
  refine .bind (onStream_visits Stream.tryConsumeVarint_moves s).attempt fun r s _ => ?_
  cases r with
  | ok v => exact h v s
  | error e => exact refl_of (Visits id) s

private theorem processFrame_visits (frame : Frame) (env : Env) (s : Session) :
    (processFrame id frame env).Keeps (Visits id) s := by
  refine .bind (record_visits (by simp) s) fun _ s _ => ?_
  rw [Program.keeps_get_bind]
  have hnone : (pure none : Program Error Session (Option (ℕ × Event))).Keeps (Visits id) s :=
    refl_of (Visits id) s
  have hclose (e : Error) (reason : String) :
      (closeWith e reason : Program Error Session (Option (ℕ × Event))).Keeps (Visits id) s :=
    closeWith_visits e reason s
  cases frame with
  | settings settings =>
    refine .bind (Program.keeps_set.mpr ?_) fun _ s _ => refl_of (Visits id) s
    exact visits_http3 rfl rfl fun _ => .inl
  | headers headerBlock =>
    refine .ite (fun _ => hclose _ _) fun _ => ?_
    exact .bind (.ofExcept _) fun _ s _ => refl_of (Visits id) s
  | data => exact .ite (fun _ => hclose _ _) fun _ => hnone
  | goAway =>
    exact .ite (fun _ => hclose _ _) fun _ => .ite (fun _ => hclose _ _) fun _ =>
      .ite (fun _ => hclose _ _) fun _ => hnone
  | maxPushId =>
    refine .ite (fun _ => hclose _ _) fun _ => .ite (fun _ => hclose _ _) fun _ =>
      .ite (fun _ => hclose _ _) fun _ => ?_
    refine .bind (Program.keeps_set.mpr ?_) fun _ s _ => refl_of (Visits id) s
    exact visits_http3 rfl rfl fun _ => .inl
  | pushPromise =>
    exact .ite (fun _ => hclose _ _) fun _ => .ite (fun _ => hclose _ _) fun _ => hnone
  | duplicatePush =>
    exact .ite (fun _ => hclose _ _) fun _ => .ite (fun _ => hclose _ _) fun _ => hnone
  | cancelPush => exact .ite (fun _ => hclose _ _) fun _ => hnone
  | unknown => exact hnone

private theorem openStream_visits (huni : isBidi id = false) (ty : StreamType) (s : Session) :
    (openStream id ty).Keeps (Visits id) s := by
  rw [openStream, Program.keeps_get_bind]
  have hclose
      (reason : String) : (closeWith .streamCreationError reason : Program Error Session Unit).Keeps
          (Visits id) s :=
    closeWith_visits _ reason s
  cases ty with
  | control =>
    refine .ite (fun _ => hclose _) fun _ =>
      Program.keeps_set.mpr (visits_http3 rfl rfl fun i hi => ?_)
    rcases hi with hi | hi | hi
    · exact .inr ⟨(Option.some.inj hi).symm, huni⟩
    · exact .inl (.inr (.inl hi))
    · exact .inl (.inr (.inr hi))
  | push => exact .ite (fun _ => hclose _) fun _ => refl_of (Visits id) s
  | qpackEncoder =>
    refine .ite (fun _ => hclose _) fun _ =>
      Program.keeps_set.mpr (visits_http3 rfl rfl fun i hi => ?_)
    rcases hi with hi | hi | hi
    · exact .inl (.inl hi)
    · exact .inr ⟨(Option.some.inj hi).symm, huni⟩
    · exact .inl (.inr (.inr hi))
  | qpackDecoder =>
    refine .ite (fun _ => hclose _) fun _ =>
      Program.keeps_set.mpr (visits_http3 rfl rfl fun i hi => ?_)
    rcases hi with hi | hi | hi
    · exact .inl (.inl hi)
    · exact .inl (.inr (.inl hi))
    · exact .inr ⟨(Option.some.inj hi).symm, huni⟩
  | unknown => exact refl_of (Visits id) s
  | request => exact Program.keeps_crash

private theorem processState_visits {stream : Stream} (hstream : s.http3.streams id = some stream)
    (env : Env) :
    (processState id stream.state env).Keeps (Visits id) s := by
  have hnone (s : Session) : (pure none : Program Error Session (Option (ℕ × Event))).Keeps
      (Visits id) s :=
    refl_of (Visits id) s
  cases hstate : stream.state with
  | streamType =>
    refine visits_of_sane fun sane => .bind (withVarint_visits (fun v s => ?_) s) fun _ s _ =>
      hnone s
    refine .bind (orClose_visits (Stream.setTy_moves _) _ s) fun _ s _ => ?_
    exact openStream_visits (sane.ty id stream hstream hstate) _ s
  | pushId =>
    exact .bind (withVarint_visits (fun v s => orClose_visits (Stream.setPushId_moves v) _ s) s)
      fun _ s _ => hnone s
  | frameType =>
    exact .bind (withVarint_visits (fun v s => orClose_visits (Stream.setFrameType_moves v) _ s) s)
      fun _ s _ => hnone s
  | framePayloadLen =>
    exact .bind
      (withVarint_visits (fun v s => orClose_visits (Stream.setFramePayloadLen_moves v) _ s) s)
        fun _ s _ => hnone s
  | framePayload =>
    refine .bind (tryFillBuffer_visits s) fun _ s _ => ?_
    refine .bind (onStream_visits Stream.tryConsumeFrame_moves s).attempt fun r s _ => ?_
    split
    · refine .bind (processFrame_visits _ env s).attempt fun r s _ => ?_
      split
      · exact refl_of (Visits id) s
      · exact hnone s
      · exact Program.keeps_fail.mpr (refl_of (Visits id) s)
    · exact Program.keeps_fail.mpr (refl_of (Visits id) s)
    · exact closeWith_visits _ _ s
  | data => exact refl_of (Visits id) s
  | qpackInstruction =>
    exact .bind (transport_visits (Dtp.Connection.streamRecv_acts id _ s.conn)).discard fun _ s _ =>
      hnone s
  | drain =>
    refine .bind (transport_visits (Dtp.Connection.streamShutdown_acts id s.conn)) fun _ s _ => ?_
    exact Program.keeps_fail.mpr (refl_of (Visits id) s)

private theorem processLoop_visits (env : Env) (fuel : ℕ) (s : Session) :
    (processLoop id env fuel).Keeps (Visits id) s := by
  induction fuel generalizing s with
  | zero =>
    rintro ⟨_, he⟩
    cases he
  | succ fuel ih =>
    rw [processLoop, Program.keeps_get_bind]
    cases hstream : s.http3.streams id with
    | none => exact Program.keeps_fail.mpr (refl_of (Visits id) s)
    | some stream =>
      refine .bind (processState_visits hstream env) fun ev s _ => ?_
      cases ev with
      | some ev => exact refl_of (Visits id) s
      | none => exact ih s

/-- The parser works on one stream, and leaves its end alone. -/
theorem processReadableStream_visits (env : Env) (s : Session) :
    (processReadableStream id env).Keeps (Visits id) s := by
  refine .bind (Program.keeps_modify.mpr ?_) fun _ s _ => processLoop_visits env _ s
  split_ifs
  · exact refl_of (Visits id) s
  · refine visits_putStream rfl fun hstate => ?_
    unfold Stream.new at hstate
    split_ifs at hstate with hbidi
    simpa using hbidi

theorem eventOrDone_visits {x : Program Error Session (ℕ × Event)} (h : x.Keeps (Visits id) s) :
    (eventOrDone id x).Keeps (Visits id) s := by
  refine .bind h.attempt fun r s _ => ?_
  split
  · exact refl_of (Visits id) s
  · exact refl_of (Visits id) s
  · exact .bind (record_visits (by simp) s) fun _ s _ =>
      Program.keeps_fail.mpr (refl_of (Visits id) s)

theorem processControlStream_visits (env : Env) (s : Session) : (processControlStream id env).Keeps
    (Visits id) s := by
  rw [processControlStream, Program.keeps_get_bind]
  refine .ite (fun _ => closeWith_visits _ _ s) fun _ => ?_
  refine .bind (eventOrDone_visits (processReadableStream_visits env s)).discard fun _ s _ => ?_
  rw [Program.keeps_get_bind]
  exact .ite (fun _ => closeWith_visits _ _ s) fun _ => refl_of (Visits id) s

/-! ### The events of the parser -/

/-- The event is one that the parser finds on the stream `id`. -/
def FoundOn (id : ℕ) (ev : ℕ × Event) : Prop := ev.1 = id ∧ ev.2 ≠ .finished

private theorem processFrame_found (frame : Frame) (env : Env) :
    (processFrame id frame env).Returns fun ev => ∀ e ∈ ev, FoundOn id e := by
  have hnone : (pure none : Program Error Session (Option (ℕ × Event))).Returns fun ev =>
      ∀ e ∈ ev, FoundOn id e :=
    Program.returns_pure nofun
  have hclose (e : Error)
    (reason : String) : (closeWith e reason : Program Error Session (Option (ℕ × Event))).Returns
      fun ev => ∀ e ∈ ev, FoundOn id e := .last fun _ => Program.returns_fail e
  refine .last fun _ => .last fun s => ?_
  cases frame with
  | settings => exact .last fun _ => hnone
  | headers =>
    refine .ite (fun _ => hclose _ _) fun _ => .last fun headers => Program.returns_pure ?_
    rintro _ ⟨⟩
    exact ⟨rfl, nofun⟩
  | data => exact .ite (fun _ => hclose _ _) fun _ => hnone
  | goAway =>
    exact .ite (fun _ => hclose _ _) fun _ => .ite (fun _ => hclose _ _) fun _ =>
      .ite (fun _ => hclose _ _) fun _ => hnone
  | maxPushId =>
    exact .ite (fun _ => hclose _ _) fun _ => .ite (fun _ => hclose _ _) fun _ =>
        .ite (fun _ => hclose _ _) fun _ =>
      .last fun _ => hnone
  | pushPromise =>
    exact .ite (fun _ => hclose _ _) fun _ => .ite (fun _ => hclose _ _) fun _ => hnone
  | duplicatePush =>
    exact .ite (fun _ => hclose _ _) fun _ => .ite (fun _ => hclose _ _) fun _ => hnone
  | cancelPush => exact .ite (fun _ => hclose _ _) fun _ => hnone
  | unknown => exact hnone

private theorem processState_found (state : State) (env : Env) :
    (processState id state env).Returns fun ev => ∀ e ∈ ev, FoundOn id e := by
  have hnone : (pure none : Program Error Session (Option (ℕ × Event))).Returns fun ev =>
      ∀ e ∈ ev, FoundOn id e :=
    Program.returns_pure nofun
  cases state with
  | framePayload =>
    refine .last fun _ => .last fun r => ?_
    split
    · refine (processFrame_found _ env).attempt.bind fun r hr => ?_
      split
      · exact Program.returns_pure (hr _ rfl)
      · exact hnone
      · exact Program.returns_fail _
    · exact Program.returns_fail _
    · exact .last fun _ => Program.returns_fail _
  | data =>
    refine Program.returns_pure ?_
    rintro _ ⟨⟩
    exact ⟨rfl, nofun⟩
  | drain => exact .last fun _ => Program.returns_fail _
  | _ => exact .last fun _ => hnone

theorem processReadableStream_found (env : Env) : (processReadableStream id env).Returns
    (FoundOn id) := by
  refine .last fun _ => .last fun s => ?_
  generalize 2 * s.unread id + 3 = fuel
  induction fuel with
  | zero => exact Program.returns_throw _
  | succ fuel ih =>
    refine .last fun s => ?_
    split
    · exact Program.returns_fail _
    · refine (processState_found _ env).bind fun ev hev => ?_
      cases ev with
      | some ev => exact Program.returns_pure (hev ev rfl)
      | none => exact ih

theorem eventOrDone_found {x : Program Error Session (ℕ × Event)} (h : x.Returns (FoundOn id)) :
    (eventOrDone id x).Returns fun ev => ∀ e ∈ ev, FoundOn id e := by
  refine h.attempt.bind fun r hr => ?_
  split
  · refine Program.returns_pure ?_
    rintro _ ⟨⟩
    exact hr _ rfl
  · exact Program.returns_pure nofun
  · exact .last fun _ => Program.returns_fail _

/-! ### What happens on a connection -/

/-- A STREAM frame of the peer arrives, or the application makes a call. -/
inductive Step
  | arrive (id : ℕ) (data : RangeBuf) (epoch : Epoch) (env : Dtp.Env)
  | poll (order : List ℕ) (env : Env)
  | recvBody (id cap : ℕ)

/-- What a step does. -/
def Step.program : Step → Program Error Session Unit
  | arrive id data epoch env =>
    transport
      (Dtp.Connection.closeOnError (Dtp.Connection.processFrame (.stream id data) epoch env))
  | poll order env => discard (Session.poll order env)
  | recvBody id cap => discard (Session.recvBody id cap)

/-- The state after a step that does not panic. -/
def step (s : Session) (label : Step) : Option Session := label.program.after s

theorem arrive_acts (id : ℕ) (data : RangeBuf) (epoch : Epoch) (env : Dtp.Env)
    (c : Dtp.Connection) :
    (Dtp.Connection.closeOnError (Dtp.Connection.processFrame (.stream id data) epoch env)).Keeps
      (Dtp.Connection.Acts id) c :=
  Dtp.Connection.keeps_closeOnError (fun _ _ _ _ _ h => Dtp.Connection.close_acts id h)
    (Dtp.Connection.processStream_acts id data env c)

end Session

end H3

end Dtp
