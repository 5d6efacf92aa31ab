import Dtp.Duplex
import Dtp.Terms

/-!
# Actions keep to the terms

Whatever a connection does, it keeps what it believes about the limits of its peer, and the
frames that it puts into packets, within the terms, as long as the frames that it receives
agree with them. What it grants to the peer only grows.

## Main definitions

* `Packing.Complies` — the terms are kept, and more is granted
* `Action.Agrees` — what an action receives agrees with the terms

## Main results

* `Action.complies` — every action keeps the terms
* `Call.complies` — every call does, if what is delivered agrees
-/

namespace Dtp

open Lib (Fault Program)

namespace Packing

/-! ### Packets -/

/-- The terms are kept, and more is granted. -/
structure Complies (T : Terms) (p p' : Packing) : Prop where
  honors : p'.Honors T
  raises : p.conn.Raises p'.conn

variable {T : Terms} {p p' : Packing} {id : ℕ} {s s' : Stream}

/-- New frames are within the terms. -/
theorem Honors.next (h : p.Honors T) (sound : p'.Sound)
    (conn : p'.conn.Honors T ∧ p.conn.Raises p'.conn)
    (frames : ∀ f, p'.Has f → p.Has f ∨ f.Within T p'.conn) : p.Complies T p' where
  honors :=
    { sound := sound
      conn := conn.1
      frames := fun f hf => (frames f hf).elim (fun hold => (h.frames f hold).mono conn.2) id }
  raises := conn.2

/-- The frames that are appended are within the terms. -/
theorem Honors.append (h : p.Honors T) (sound : p'.Sound)
    (conn : p'.conn.Honors T ∧ p.conn.Raises p'.conn) {fs : List Frame}
    (moves : p.conn.recovery.Moves p'.conn.recovery)
    (frames : p'.draft.frames = p.draft.frames ++ fs) (hfs : ∀ f ∈ fs, f.Within T p'.conn) :
    p.Complies T p' :=
  h.next sound conn fun f hf => (has_of_moves moves frames hf).imp_right (hfs f)

/-- No frame is added. -/
theorem Honors.keep (h : p.Honors T) (sound : p'.Sound)
    (conn : p'.conn.Honors T ∧ p.conn.Raises p'.conn)
    (moves : p.conn.recovery.Moves p'.conn.recovery)
    (frames : p'.draft.frames = p.draft.frames) : p.Complies T p' :=
  h.append sound conn moves (frames.trans (List.append_nil _).symm)
    fun _ hf => absurd hf List.not_mem_nil

theorem Honors.onConn (h : p.Honors T) {c : Connection} (sound : Sound { p with conn := c })
    (conn : c.Honors T ∧ p.conn.Raises c) (moves : p.conn.recovery.Moves c.recovery) :
    p.Complies T { p with conn := c } :=
  h.keep sound conn moves rfl

/-- At most one frame is appended. -/
theorem Honors.frame (h : p.Honors T) (sound : p'.Sound)
    (conn : p'.conn.Honors T ∧ p.conn.Raises p'.conn)
    (recovery : p'.conn.recovery = p.conn.recovery)
    (frames : p'.draft.frames = p.draft.frames ∨
      ∃ f, f.Within T p'.conn ∧ p'.draft.frames = p.draft.frames ++ [f]) : p.Complies T p' := by
  have moves : p.conn.recovery.Moves p'.conn.recovery := by
    rw [recovery]
    exact refl_of Recovery.Moves _
  rcases frames with frames | ⟨f, hf, frames⟩
  · exact h.keep sound conn moves frames
  · refine h.append sound conn moves frames fun g hg => ?_
    rwa [List.mem_singleton.mp hg]

/-- A BLOCK_INFO frame is about the stream that is sent. -/
theorem Introduced.within {p₁ : Packing} {c : Connection} (h : Introduced id s p s' p₁)
    (hopened : c.streams.Opened id) {f : Frame} (hf : f ∈ p₁.draft.frames) :
    f ∈ p.draft.frames ∨ f.Within T c := by
  obtain ⟨fs, hfs, hframes⟩ := h.frames
  rw [hframes, List.mem_append] at hf
  refine hf.imp_right fun hf => ?_
  obtain ⟨_, _, _, _, rfl⟩ := hfs f hf
  exact hopened

theorem opened_of_updated {queued : Bool} {m m' : StreamMap} (hm : m.Updated id s queued m') :
    m'.Opened id :=
  .inl (by rw [hm.streams, StreamMap.put_streams_self]; exact Option.some_ne_none s)

/-- The buffer of a stream that is sent from keeps its limits. -/
theorem Introduced.honors {p₁ : Packing} (h : p.Honors T)
    (live : p.conn.streams.streams id = some s) (introduced : Introduced id s p s' p₁) :
    s'.Honors T id ∧ s'.recv = s.recv ∧ s'.send.WF := by
  have wf := (introduced.grows (h.sound.wf id s live)).wf
  obtain ⟨isNew, rfl⟩ := introduced.stream
  exact ⟨(h.conn.streams id s live).sameSend rfl rfl, rfl, wf⟩

/-- A live stream is changed. -/
theorem Honors.update (h : p.Honors T) (live : p.conn.streams.streams id = some s)
    (hs' : s'.Honors T id) (hrecv : s.recv.maxData ≤ s'.recv.maxData) {queued : Bool}
    {c : Connection} (same : p.conn.SameTerms c)
    (updated : p.conn.streams.Updated id s' queued c.streams) : c.Honors T ∧ p.conn.Raises c := by
  refine h.conn.put (.live live) (h.conn.streams id s live) hs' hrecv (.inl (.inl ?_)) same updated
  rw [live]
  exact Option.some_ne_none s

/-- A live stream is changed, and collected once it is complete. -/
theorem Honors.updateCollect (h : p.Honors T) (live : p.conn.streams.streams id = some s)
    (hs' : s'.Honors T id) (hrecv : s.recv.maxData ≤ s'.recv.maxData) {queued : Bool}
    {c : Connection} {m : StreamMap} (same : p.conn.SameTerms c)
    (updated : p.conn.streams.Updated id s' queued m)
    (hstreams : c.streams = if s'.isComplete then m.collect id s'.isLocal else m) :
    c.Honors T ∧ p.conn.Raises c := by
  have hput := h.update (c := p.conn.setStreams m) live hs' hrecv ⟨rfl, rfl, rfl⟩ updated
  have hlive : (p.conn.setStreams m).streams.streams id ≠ none := by
    change m.streams id ≠ none
    rw [updated.streams, StreamMap.put_streams_self]
    exact Option.some_ne_none s'
  have hcollect := hput.1.collectIf hlive s'.isComplete s'.isLocal
    ⟨same.isServer, same.localParams, same.peerParams⟩ hstreams
  exact ⟨hcollect.1, trans_of Connection.Raises hput.2 hcollect.2⟩

/-- One turn of the loop over the streams: a STREAM frame stays below the limit. -/
theorem Turned.complies (h : p.Honors T) (valid : T.Valid) (turn : Turned id p p') :
    p.Complies T p' := by
  have sound := turn.sound h.sound
  -- turns without data: at most the block is announced
  have hskipped {s s₁ s₂ : Stream} {p₁ : Packing} {m : StreamMap} {queued : Bool}
      (live : p.conn.streams.streams id = some s) (introduced : Introduced id s p s₁ p₁)
      (hs₂ : s₂.Honors T id) (hrecv : s₂.recv = s₁.recv)
      (updated : p.conn.streams.Updated id s₂ queued m) (conn : p'.conn = p.conn.setStreams m)
      (frames : p'.draft.frames = p₁.draft.frames) : p.Complies T p' := by
    obtain ⟨-, hrecv₁, -⟩ := introduced.honors h live
    refine h.next sound ?_ fun f hf => ?_
    · rw [conn]
      exact h.update live hs₂ (by rw [hrecv, hrecv₁]) ⟨rfl, rfl, rfl⟩ updated
    · refine hf.elim (fun hf => .inl (.inl (by rwa [conn] at hf))) fun hf => ?_
      refine (introduced.within ?_ (frames ▸ hf)).imp_left .inr
      rw [conn]
      exact opened_of_updated updated
  cases turn with
  | full live introduced _ updated conn frames =>
    obtain ⟨hs, -, -⟩ := introduced.honors h live
    exact hskipped live introduced hs rfl updated conn frames
  | tooLarge live introduced _ _ updated conn frames =>
    obtain ⟨hs, -, -⟩ := introduced.honors h live
    exact hskipped live introduced hs rfl updated conn frames
  | nothing live introduced _ pop _ updated conn frames =>
    obtain ⟨hs, -, wf⟩ := introduced.honors h live
    have drained := (SendBuf.pop_spec wf pop).drained
    refine hskipped live introduced (hs.sameSend drained.off drained.rest.maxData) rfl updated
      conn frames
  | @sent s s₁ s₂ p₁ room data send m live introduced _ _ pop _ stream updated conn frames =>
    subst stream
    obtain ⟨hs, hrecv, wf⟩ := introduced.honors h live
    -- the data ends within the credit that the peer gave
    have popped := SendBuf.pop_spec wf pop
    have hs₂ := hs.sameSend popped.drained.off popped.drained.rest.maxData
    have hopened : p'.conn.streams.Opened id := by
      rw [conn]
      exact opened_of_updated updated
    refine h.next sound ?_ fun f hf => ?_
    · rw [conn]
      exact h.update live hs₂ (by rw [hrecv]) ⟨rfl, rfl, rfl⟩ updated
    · refine hf.elim (fun hf => .inl (.inl (by rwa [conn] at hf))) fun hf => ?_
      rw [frames, List.mem_append, List.mem_singleton] at hf
      refine hf.elim (fun hf => (introduced.within hopened hf).imp_left .inr) ?_
      rintro rfl
      exact .inr ⟨hopened, valid.anti id _ _ (popped.maxOff_le.trans hs.room) hs.credit⟩

theorem Stepped.complies {env : SendEnv} (h : p.Honors T) (valid : T.Valid)
    (step : Stepped env p p') : p.Complies T p' := by
  have hpeek := StreamMap.peekFlushable_cancels env.pace p.conn.streams
  have sound := step.sound h.sound
  cases step with
  | @stopped m peek conn draft =>
    have hm := h.conn.cancels (Program.keeps_iff_after.mp hpeek _ peek)
    exact h.frame sound (conn ▸ hm) (by rw [conn]; rfl) (.inl (by rw [draft]))
  | @turned id m peek turn =>
    have hcancels := hpeek.ok peek
    have hm := h.onConn (c := p.conn.setStreams m) (h.sound.cancels hcancels)
      (h.conn.cancels hcancels) (refl_of Recovery.Moves _)
    have hturn := turn.complies hm.honors valid
    exact ⟨hturn.honors, trans_of Connection.Raises hm.raises hturn.raises⟩

end Packing

/-! ### Actions -/

/-- What an action receives from the peer agrees with the terms. -/
def Action.Agrees (T : Terms) : Action → Prop
  | .frame f _ env => f.Agrees T ∧ env.handshake.Agrees T
  | .handshake hs => hs.Agrees T
  | _ => True

namespace Packing

variable {T : Terms} {p p' : Packing}

/-- A frame about a stream of the peer, whose stream may be created. -/
theorem Honors.putRecv (h : p.Honors T) (valid : T.Valid) {c : Connection}
    (sound : Sound { p with conn := c }) {id : ℕ} {s : Stream} {recv : RecvBuf} {queued : Bool}
    (opens : p.conn.Opens false id s) (window : s.recv.SameWindow recv) (hopened : T.opened id)
    (same : p.conn.SameTerms c) (recovery : c.recovery = p.conn.recovery)
    (updated : p.conn.streams.Updated id { s with recv := recv } queued c.streams) :
    p.Complies T { p with conn := c } := by
  have hs := h.conn.opens valid opens
  refine h.onConn sound ?_ (by rw [recovery]; exact refl_of Recovery.Moves _)
  exact h.conn.put opens.origin hs (hs.sameWindow window) window.1.ge (.inr (.inr hopened)) same
    updated

/-- A received frame that agrees with the terms. -/
theorem Honors.processFrame (h : p.Honors T) (valid : T.Valid) {f : Frame} {epoch : Epoch}
    {env : Env} (hf : f.Agrees T) (hagrees : env.handshake.Agrees T)
    (hstep : Action.step p (.frame f epoch env) = some p') : p.Complies T p' := by
  have sound := (Action.effect hstep).sound h.sound
  have hframe : (Packing.onConn (Connection.processFrame f epoch env)).after p = some p' := hstep
  have hsame : p.Complies T p := ⟨h, refl_of Connection.Raises _⟩
  by_cases hcalm : f.isCalm = true
  · -- frames that leave the streams alone
    have hkeeps := Connection.processFrame_minds valid hcalm hf hagrees epoch p.conn
    have hmoves := Connection.processFrame_calm hcalm epoch env p.conn
    obtain ⟨c, ⟨hminds, calm⟩, rfl⟩ := Action.onConn_effect
      (R := fun c c' => Connection.Minds T c c' ∧ c.Calm c')
      ((Program.Ends.and hkeeps hmoves).mono (fun _ _ h => h) fun _ _ h he => ⟨h.1 he, h.2 he⟩)
      hframe
    exact h.onConn sound (hminds h.conn) calm.moves
  cases f with
  | stream id data =>
    obtain ⟨c, hc, rfl⟩ := Action.onConn_effect (R := fun c c' =>
      c.StreamAccepted id data env.wall c' ∨ c.StreamRejected id c')
      ((Connection.processStream_effect id data env p.conn).mono (fun _ _ => .inl)
        fun _ _ h _ => .inr h) hframe
    rcases hc with hc | hc
    · cases hc with
      | ignored _ => exact hsame
      | stored origin _ push updated opens =>
        exact h.putRecv valid sound opens (RecvBuf.pushWith_sameWindow push) hf ⟨rfl, rfl, rfl⟩ rfl
          updated
    · cases hc with
      | refused => exact hsame
      | opened origin updated opens =>
        exact h.putRecv valid sound opens (.refl _) hf ⟨rfl, rfl, rfl⟩ rfl updated
  | resetStream id code finalSize =>
    -- neither a shutdown nor a reset moves the window
    have hshut {s : Stream} {recv : RecvBuf}
        (shutdown : (if code = 1 then s.recv.shutdown else .ok s.recv) = .ok recv) :
        s.recv.SameWindow recv := by
      split_ifs at shutdown
      · exact RecvBuf.shutdown_sameWindow shutdown
      · cases shutdown
        exact .refl _
    have hreset {s : Stream} {recv recv' : RecvBuf} {credit : ℕ}
        (shutdown : (if code = 1 then s.recv.shutdown else .ok s.recv) = .ok recv)
        (reset : recv.reset finalSize = .ok (credit, recv')) : s.recv.SameWindow recv' := by
      have hrecv := hshut shutdown
      have hrecv' := RecvBuf.reset_sameWindow reset
      exact ⟨hrecv'.1.trans hrecv.1, hrecv'.2.trans hrecv.2⟩
    obtain ⟨c, hc, rfl⟩ := Action.onConn_effect (R := fun c c' =>
      c.ResetAccepted id code finalSize env.wall c' ∨ c.ResetRejected id code finalSize c')
      ((Connection.processResetStream_effect id code finalSize env p.conn).mono (fun _ _ => .inl)
        fun _ _ h _ => .inr h) hframe
    rcases hc with hc | hc
    · cases hc with
      | ignored _ => exact hsame
      | stored origin _ shutdown reset updated opens =>
        exact h.putRecv valid sound opens (hreset shutdown reset) hf ⟨rfl, rfl, rfl⟩ rfl updated
    · cases hc with
      | refused => exact hsame
      | opened origin updated opens =>
        exact h.putRecv valid sound opens (.refl _) hf ⟨rfl, rfl, rfl⟩ rfl updated
      | drained origin shutdown updated opens =>
        exact h.putRecv valid sound opens (hshut shutdown) hf ⟨rfl, rfl, rfl⟩ rfl updated
      | charged origin _ shutdown reset updated opens =>
        exact h.putRecv valid sound opens (hreset shutdown reset) hf ⟨rfl, rfl, rfl⟩ rfl updated
  | blockInfo id size priority deadline startTime =>
    obtain ⟨c, hc, rfl⟩ := Action.onConn_effect
      (Connection.processBlockInfo_effect id size priority deadline startTime env p.conn) hframe
    cases hc with
    | refused => exact hsame
    | @stored s m size priority deadline startTime origin updated opens =>
      have window : s.recv.SameWindow (s.recv.setBlockInfo size priority deadline startTime) :=
        ⟨rfl, rfl⟩
      exact h.putRecv valid sound opens window hf ⟨rfl, rfl, rfl⟩ rfl updated
  | maxStreamData id max =>
    obtain ⟨c, hc, rfl⟩ := Action.onConn_effect
      (Connection.processMaxStreamData_effect id max env p.conn) hframe
    cases hc with
    | refused => exact hsame
    | raised origin stream updated opens =>
      subst stream
      have hs := h.conn.opens valid opens
      refine h.onConn sound ?_ (refl_of Recovery.Moves _)
      exact h.conn.put origin hs (hs.raise hf.2) le_rfl (.inr (.inr hf.1)) ⟨rfl, rfl, rfl⟩ updated
  | _ => exact absurd rfl hcalm

/-- The streams are left alone. -/
theorem Honors.unmoved (h : p.Honors T) {c : Connection} (sound : Sound { p with conn := c })
    (unmoved : p.conn.Unmoved c) (calm : p.conn.Calm c) : p.Complies T { p with conn := c } :=
  h.onConn sound (h.conn.unmoved unmoved) calm.moves

/-- The application writes to a stream, reads from it or shuts it down. -/
theorem Honors.wrote (h : p.Honors T) (valid : T.Valid) {id : ℕ} {data : List UInt8} {fin : Bool}
    {c : Connection} (sound : Sound { p with conn := c }) (hc : p.conn.Wrote id data fin c) :
    p.Complies T { p with conn := c } := by
  have hput {s s' : Stream} {queued : Bool} {m : StreamMap} (opens : p.conn.Opens true id s)
      (updated : p.conn.streams.Updated id s' queued m) (hs' : s'.Honors T id)
      (hrecv : s'.recv = s.recv) :
      (p.conn.setStreams m).Honors T ∧ p.conn.Raises (p.conn.setStreams m) := by
    refine h.conn.put opens.origin (h.conn.opens valid opens) hs' (by rw [hrecv]) ?_
      ⟨rfl, rfl, rfl⟩ updated
    rcases opens.opened_or_local with hopened | hlocal
    · exact .inl hopened
    · exact .inr (.inl (h.conn.isServer ▸ hlocal))
  cases hc with
  | refused => exact ⟨h, refl_of Connection.Raises _⟩
  | failed origin push updated opens =>
    have wf := h.sound.origin_wf origin
    obtain ⟨-, rfl, -⟩ := (SendBuf.pushSlice_ends _ _ wf.fin).error push
    exact h.onConn sound (hput opens updated (h.conn.opens valid opens) rfl)
      (refl_of Recovery.Moves _)
  | stored origin push stream updated opens =>
    subst stream
    have wf := h.sound.origin_wf origin
    have hs := (h.conn.opens valid opens).written wf push
    exact h.onConn sound (hput opens updated hs rfl) (refl_of Recovery.Moves _)

theorem Honors.readFrom (h : p.Honors T) {id cap : ℕ} {c : Connection}
    (sound : Sound { p with conn := c }) (hc : p.conn.ReadFrom id cap c) :
    p.Complies T { p with conn := c } := by
  cases hc with
  | refused => exact ⟨h, refl_of Connection.Raises _⟩
  | @got s s' recv out fin m live pop stream updated =>
    subst stream
    have hs := (h.conn.streams id s live).popRecv pop
    refine h.onConn sound ?_ (refl_of Recovery.Moves _)
    exact h.updateCollect live hs (RecvBuf.pop_maxData pop).ge ⟨rfl, rfl, rfl⟩ updated rfl

theorem Honors.shutDown (h : p.Honors T) {id : ℕ} {direction : Connection.Shutdown}
    {c : Connection} (sound : Sound { p with conn := c }) (hc : p.conn.ShutDown id direction c) :
    p.Complies T { p with conn := c } := by
  cases hc with
  | refused => exact ⟨h, refl_of Connection.Raises _⟩
  | @read s recv m live shutdown updated =>
    have hwindow := RecvBuf.shutdown_sameWindow shutdown
    exact h.onConn sound (h.update live ((h.conn.streams id s live).sameWindow hwindow)
      hwindow.1.ge ⟨rfl, rfl, rfl⟩ updated) (refl_of Recovery.Moves _)
  | @write s send m live shutdown updated =>
    obtain ⟨-, rfl⟩ := SendBuf.shutdown_eq_ok shutdown
    have hs : Stream.Honors
        { s with send := { s.send with isShutdown := true, data := .empty } } T id :=
      (h.conn.streams id s live).sameSend rfl rfl
    exact h.onConn sound (h.update live hs le_rfl ⟨rfl, rfl, rfl⟩ updated)
      (refl_of Recovery.Moves _)

theorem Honors.tookAcked (h : p.Honors T) {epoch : Epoch} {c : Connection}
    (sound : Sound { p with conn := c }) (hc : p.conn.TookAcked epoch c) :
    p.Complies T { p with conn := c } := by
  cases hc with
  | other calm unmoved => exact h.unmoved sound unmoved calm
  | @stream id data frames s s' r m acked live stream recovery updated =>
    subst stream recovery
    have hmoves := (Connection.popAcked_calm acked).moves
    have hs : Stream.Honors { s with send := s.send.ack data.off data.len } T id :=
      (h.conn.streams id s live).sameSend rfl rfl
    refine h.onConn sound ?_ hmoves
    exact h.updateCollect live hs le_rfl ⟨rfl, rfl, rfl⟩ updated rfl

theorem Honors.tookLost (h : p.Honors T) {epoch : Epoch} {c : Connection}
    (sound : Sound { p with conn := c }) (hc : p.conn.TookLost epoch c) :
    p.Complies T { p with conn := c } := by
  cases hc with
  | other calm unmoved => exact h.unmoved sound unmoved calm
  | @blockInfo id s c₁ m calm same live updated unmoved =>
    have hs : Stream.Honors { s with send := { s.send with isNew := true } } T id :=
      (h.conn.streams id s live).sameSend rfl rfl
    refine h.onConn sound ?_ calm.moves
    exact h.update live hs le_rfl ⟨unmoved.isServer, unmoved.localParams, unmoved.peerParams⟩
      updated
  | failed lost live push recovery =>
    subst recovery
    have hmoves := (Connection.popLost_calm lost).moves
    exact h.onConn sound (h.conn.unmoved { Connection.Unmoved.refl p.conn with }) hmoves
  | @stored id data frames s s' send r m lost live push stream recovery updated =>
    subst stream recovery
    have hmoves := (Connection.popLost_calm lost).moves
    have hstored := (SendBuf.push_spec push).2
    have hs := (h.conn.streams id s live).sameSend hstored.off hstored.rest.maxData
    exact h.onConn sound (h.update live hs le_rfl ⟨rfl, rfl, rfl⟩ updated) hmoves

theorem Honors.wroteReset (h : p.Honors T) (sound : p'.Sound) {id : ℕ}
    (hp : WroteReset id p p') : p.Complies T p' := by
  have hsame (m : StreamMap) (hm : m = p.conn.streams.markCanceled id false) :
      (p.conn.setStreams m).Honors T ∧ p.conn.Raises (p.conn.setStreams m) := by
    subst hm
    exact h.conn.same ⟨rfl, rfl, rfl⟩ rfl rfl { StreamMap.SameLimits.refl p.conn.streams with }
  cases hp with
  | skipped conn frames =>
    exact h.frame sound (conn ▸ hsame _ rfl) (by rw [conn]; rfl) (.inl frames)
  | @written s live conn frames =>
    refine h.frame sound (conn ▸ hsame _ rfl) (by rw [conn]; rfl) (.inr ⟨_, ?_, frames⟩)
    rw [conn]
    exact .inl (live ▸ Option.some_ne_none s)

theorem Honors.wroteMaxStreamData (h : p.Honors T) (sound : p'.Sound) {id : ℕ}
    (hp : WroteMaxStreamData id p p') : p.Complies T p' := by
  cases hp with
  | skipped conn frames =>
    refine h.frame sound ?_ (by rw [conn]; rfl) (.inl frames)
    rw [conn]
    exact h.conn.same ⟨rfl, rfl, rfl⟩ rfl rfl { StreamMap.SameLimits.refl p.conn.streams with }
  | @raised s max recv m live update updated conn frames =>
    cases update
    have hs := h.conn.streams id s live
    have hput := h.update (c := p'.conn) live hs.updateMaxData hs.next
      (by rw [conn]; exact ⟨rfl, rfl, rfl⟩) (by rw [conn]; exact updated)
    refine h.frame sound hput (by rw [conn]; rfl) (frames.imp_right fun frames => ⟨_, ?_, frames⟩)
    have hlive : p'.conn.streams.streams id = some { s with recv := s.recv.updateMaxData.2 } := by
      rw [conn]
      exact congrFun updated.streams id |>.trans (StreamMap.put_streams_self _ _ _)
    refine ⟨.inl (hlive ▸ Option.some_ne_none _), fun w hw => ?_⟩
    rw [Connection.window_of_live hlive] at hw
    cases hw
    exact le_rfl

/-- The next limit for the streams of the peer is announced. -/
theorem Honors.wroteMaxStreams (h : p.Honors T) (sound : p'.Sound) {m : StreamMap} {f : Frame}
    (conn : p'.conn = p.conn.setStreams m) (hstreams : m.streams = p.conn.streams.streams)
    (hcollected : m.collected = p.conn.streams.collected)
    (hpeer : ∀ bidi, m.peerMaxStreams bidi = p.conn.streams.peerMaxStreams bidi)
    (hlocal : ∀ bidi, m.localMaxStreams bidi = p.conn.streams.localMaxStreams bidi ∨
      m.localMaxStreams bidi = p.conn.streams.localMaxStreamsNext bidi)
    (hnext : ∀ bidi, m.localMaxStreamsNext bidi = p.conn.streams.localMaxStreamsNext bidi)
    (frames : p'.draft.frames = p.draft.frames ++ [f]) (hf : f.Within T p'.conn) :
    p.Complies T p' := by
  have hle (bidi : Bool) : p.conn.streams.localMaxStreams bidi ≤ m.localMaxStreams bidi := by
    have := (h.conn.localNext bidi).1
    rcases hlocal bidi with heq | heq <;> omega
  have hopened (i : ℕ) : m.Opened i ↔ p.conn.streams.Opened i := by
    unfold StreamMap.Opened
    rw [hstreams, hcollected]
  refine h.frame sound ?_ (by rw [conn]; rfl) (.inr ⟨f, hf, frames⟩)
  rw [conn]
  constructor
  · exact
      { isServer := h.conn.isServer
        localParams := h.conn.localParams
        peerParams := h.conn.peerParams
        streams := fun id s hs => h.conn.streams id s (hstreams ▸ hs)
        opened := fun id hremote hid => h.conn.opened id hremote ((hopened id).mp hid)
        peerMax := fun bidi => (hpeer bidi).trans_le (h.conn.peerMax bidi)
        localMax := fun bidi => (h.conn.localMax bidi).trans (hle bidi)
        localNext := fun bidi => by
          obtain ⟨hmax, hbound⟩ := h.conn.localNext bidi
          change m.localMaxStreams bidi ≤ m.localMaxStreamsNext bidi ∧
            m.localMaxStreamsNext bidi ≤ u64Max
          rw [hnext]
          rcases hlocal bidi with heq | heq <;> omega }
  · refine ⟨fun id n hn w hw => hn w ?_, fun id hid => (hopened id).mpr hid, hle⟩
    unfold Connection.window at hw ⊢
    rwa [← hstreams, ← hcollected]

/-- The actions of `send` that put frames about the number of streams into the packet. -/
theorem Honors.maxStreams (h : p.Honors T) {action : Action}
    (haction : action = .maxStreamsBidi ∨ action = .maxStreamsUni)
    (hstep : Action.step p action = some p') : p.Complies T p' := by
  have sound := (Action.effect hstep).sound h.sound
  suffices action.program.Keeps (fun p p' => p.Honors T → p'.Sound → p.Complies T p') p by
    refine Program.keeps_iff_after.mp this p' ?_ h sound
    rcases haction with rfl | rfl <;> exact hstep
  rcases haction with rfl | rfl
  · rw [Action.program, writeMaxStreamsBidi, Program.keeps_get_bind]
    refine .ite (fun _ => ?_) fun _ h _ => ⟨h, refl_of Connection.Raises _⟩
    simp only [Program.Keeps, modifyStreams, modifyConn, Program.ends_bind, Program.ends_modify]
    refine (addFrame_ends _ _ _).mono ?_ fun _ _ => Fault.absurd_error
    rintro _ p' ⟨hconn, hframes⟩ h sound
    refine h.wroteMaxStreams sound hconn rfl rfl (fun bidi => ?_) (fun bidi => ?_) (fun bidi => ?_)
      hframes (by rw [hconn]; exact le_rfl)
    · cases bidi <;> rfl
    · cases bidi
      · exact .inl rfl
      · exact .inr rfl
    · cases bidi <;> rfl
  · rw [Action.program, writeMaxStreamsUni, Program.keeps_get_bind]
    refine .ite (fun _ => ?_) fun _ h _ => ⟨h, refl_of Connection.Raises _⟩
    simp only [Program.Keeps, modifyStreams, modifyConn, Program.ends_bind, Program.ends_modify]
    refine (addFrame_ends _ _ _).mono ?_ fun _ _ => Fault.absurd_error
    rintro _ p' ⟨hconn, hframes⟩ h sound
    refine h.wroteMaxStreams sound hconn rfl rfl (fun bidi => ?_) (fun bidi => ?_) (fun bidi => ?_)
      hframes (by rw [hconn]; exact le_rfl)
    · cases bidi <;> rfl
    · cases bidi
      · exact .inr rfl
      · exact .inl rfl
    · cases bidi <;> rfl

/-- Frames about nothing in particular are sent, and the streams are left alone. -/
theorem Honors.quiet (h : p.Honors T) (sound : p'.Sound) (hquiet : p.Quiet p') :
    p.Complies T p' := by
  obtain ⟨fs, hfs, hframes⟩ := hquiet.frames
  refine h.append sound (h.conn.unmoved hquiet.conn.unmoved) hquiet.conn.calm.moves hframes ?_
  exact fun f hf => Frame.within_of_silent (List.all_eq_true.mp hfs f hf)

theorem Honors.recorded (h : p.Honors T) (sound : p'.Sound) (hp : Recorded p p') :
    p.Complies T p' := by
  obtain ⟨r, hcalm, hhas⟩ := hp.conn
  refine h.next sound (h.conn.unmoved hp.unmoved) fun f hf => .inl ?_
  rcases hf with ⟨e, he⟩ | hf
  · exact (hhas e f (hcalm.moves e f he)).imp_left fun he => ⟨e, he⟩
  · rw [hp.draft] at hf
    exact .inr hf

end Packing

/-- An action keeps to the terms, and grants no less than before. -/
theorem Action.complies {T : Terms} (valid : T.Valid) {p p' : Packing} {action : Action}
    (h : p.Honors T) (hagrees : action.Agrees T) (hstep : Action.step p action = some p') :
    p.Complies T p' := by
  have sound := (Action.effect hstep).sound h.sound
  cases action with
  | write id data fin deadline priority now =>
    obtain ⟨c, hc, rfl⟩ := onConn_effect (Connection.streamSendFull_effect id data fin deadline
      priority now p.conn).discard hstep
    exact h.wrote valid sound hc
  | read id cap =>
    obtain ⟨c, hc, rfl⟩ := onConn_effect (Connection.streamRecv_effect id cap p.conn).discard hstep
    exact h.readFrom sound hc
  | shutdown id direction =>
    obtain ⟨c, hc, rfl⟩ := onConn_effect (Connection.streamShutdown_effect id direction p.conn)
      hstep
    exact h.shutDown sound hc
  | timeout env =>
    cases hstep
    exact h.unmoved sound (Connection.onTimeout_unmoved p.conn env)
      (Connection.onTimeout_calm p.conn env)
  | frame f epoch env => exact h.processFrame valid hagrees.1 hagrees.2 hstep
  | acked epoch =>
    cases hstep
    exact h.tookAcked sound (Connection.takeAcked_effect epoch p.conn)
  | received pkt epoch =>
    cases hstep
    exact h.unmoved sound (Connection.received_unmoved pkt epoch p.conn)
      (Connection.received_calm pkt epoch p.conn)
  | handshake hs =>
    -- the limits of the peer are set, and no frame is moved
    have hkeeps := Connection.doHandshake_minds valid hagrees p.conn
    have hmoves := Connection.doHandshake_calm hs p.conn
    obtain ⟨c, ⟨hminds, calm⟩, rfl⟩ := onConn_effect
      (R := fun c c' => Connection.Minds T c c' ∧ c.Calm c')
      ((Program.Ends.and hkeeps hmoves).mono (fun _ _ h => h) fun _ _ h he => ⟨h.1 he, h.2 he⟩)
      hstep
    exact h.onConn sound (hminds h.conn) calm.moves
  | lost epoch =>
    obtain ⟨c, hc, rfl⟩ := onConn_effect (Connection.takeLost_effect epoch p.conn) hstep
    exact h.tookLost sound hc
  | clearLost epoch =>
    cases hstep
    refine h.unmoved sound ?_ (Connection.clearLost_calm epoch p.conn)
    -- only lost frames are forgotten
    exact { Connection.Unmoved.refl p.conn with }
  | start left =>
    cases hstep
    refine h.next sound ⟨h.conn, refl_of Connection.Raises _⟩ fun f hf => .inl ?_
    exact hf.imp_right fun hf => absurd hf List.not_mem_nil
  | reset id =>
    exact h.wroteReset sound
      (Program.keeps_iff_after.mp (Packing.writeReset_effect id p).discard p' hstep)
  | maxStreamsBidi => exact h.maxStreams (.inl rfl) hstep
  | maxStreamsUni => exact h.maxStreams (.inr rfl) hstep
  | maxData =>
    cases Program.keeps_iff_after.mp (Packing.writeMaxData_effect p) p' hstep with
    | skipped conn frames =>
      refine h.frame sound ?_ (by rw [conn]) (.inl frames)
      rw [conn]
      exact ⟨h.conn, refl_of Connection.Raises _⟩
    | raised conn frames =>
      -- the announced limit is the one that was due
      have hsame : p.conn.Unmoved p'.conn := by
        rw [conn]
        exact { Connection.Unmoved.refl p.conn with }
      have hf : Frame.Within T p'.conn (.maxData p.conn.maxRxDataNext) := trivial
      exact h.frame sound (h.conn.unmoved hsame) (by rw [conn]) (.inr ⟨_, hf, frames⟩)
  | maxStreamData id =>
    exact h.wroteMaxStreamData sound
      (Program.keeps_iff_after.mp (Packing.writeMaxStreamData_effect id p).discard p' hstep)
  | crypto epoch =>
    have hp := Program.keeps_iff_after.mp (Packing.writeCrypto_effect epoch p) p' hstep
    have hconn := h.conn.unmoved hp.unmoved
    rcases hp.frames with frames | ⟨data, -, frames⟩
    · exact h.keep sound hconn hp.conn.moves frames
    · refine h.append sound hconn hp.conn.moves frames fun f hf => ?_
      rw [List.mem_singleton.mp hf]
      trivial
  | stream env =>
    -- a turn of the loop, by what it may do
    exact (Program.keeps_iff_after.mp (Packing.streamStep_effect env p).discard p' hstep).complies
      h valid
  | record epoch written env =>
    exact h.recorded sound
      (Program.keeps_iff_after.mp (Packing.recordSent_effect epoch written env p) p' hstep)
  | quiet q =>
    simp only [Action.step] at hstep
    split_ifs at hstep with hquiet
    cases hstep
    exact h.quiet sound hquiet

theorem HandshakeStep.mem_delivers {hs : HandshakeStep} {params : TransportParams}
    (h : hs.outcome = .finished (.ok params)) : .params params ∈ hs.delivers := by
  unfold delivers
  rw [h]
  exact List.mem_singleton_self _

/-- What a call does keeps to the terms, as long as everything that is delivered agrees. -/
theorem Call.complies {T : Terms} (valid : T.Valid) {c c' : Connection} {d : Draft} {call : Call}
    (h : Packing.Honors ⟨c, d⟩ T) (hstep : Call.step c call = some c')
    (hframes : ∀ f, .frame f ∈ call.delivers → f.Agrees T)
    (hparams : ∀ params, .params params ∈ call.delivers → params = T.peerParams) :
    ∃ d', Packing.Complies T ⟨c, d⟩ ⟨c', d'⟩ := by
  obtain ⟨d', hreaches⟩ := Call.reachesBy hstep d
  refine ⟨d', hreaches.invariant (I := Packing.Complies T ⟨c, d⟩) ?_
    ⟨h, refl_of Connection.Raises _⟩⟩
  intro p action p' hallows hp hstep
  have hagrees : action.Agrees T := by
    cases hallows with
    | frame hpkt hf =>
      have hmem {m : Message} (hm : m ∈ Message.frame _ :: HandshakeStep.delivers _) :
          m ∈ Call.delivers (.recv _) :=
        List.mem_flatMap.mpr ⟨_, hpkt, List.mem_flatMap.mpr ⟨_, hf, hm⟩⟩
      refine ⟨hframes _ (hmem List.mem_cons_self), fun params houtcome => ?_⟩
      exact hparams params (hmem (List.mem_cons_of_mem _ (HandshakeStep.mem_delivers houtcome)))
    | @handshake outLen env =>
      intro params houtcome
      have hmem : Message.params params ∈ Call.delivers (.send outLen env) :=
        HandshakeStep.mem_delivers houtcome
      exact hparams params hmem
    | @sends _ _ action h =>
      cases action with
      | frame _ _ _ => cases h
      | handshake _ => cases h
      | _ => trivial
    | _ => trivial
  have hnext := Action.complies valid hp.honors hagrees hstep
  exact ⟨hnext.honors, trans_of Connection.Raises hp.raises hnext.raises⟩

end Dtp
