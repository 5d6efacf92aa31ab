import Dtp.Lifetime
import Dtp.SendRoundTrip

/-!
# What is sent was written

In every reachable state the send buffers keep their invariant, and every STREAM frame
that was put into a packet carries data that was written to its stream, which is live or
collected. Handshake data never ends.

## Main definitions

* `SendBuf.Grows` — a buffer in which everything that was written stays written
* `StreamMap.Sound` — the invariant of the streams and the frames about them
* `Packing.Sound` — the invariant of a connection and the packet it puts together
* `StreamMap.AcksWritten` — only what was written is acked

## Main results

* `Connection.Reachable.sound` — the invariant holds in every reachable state
* `Connection.Reachable.acksWritten` — and what is acked was written
-/

namespace Dtp

open Lib (Program run)

namespace SendBuf

/-- Everything that was written to `s` counts as written to `s'`. -/
structure Grows (s s' : SendBuf) : Prop where
  wf : s'.WF
  fits : ∀ buf, s.Fits buf → s'.Fits buf

/-- Changes other than writes keep the offsets, and drop data at most. -/
theorem grows_of_le {s s' : SendBuf} (wf : s.WF) (hoff : s'.off = s.off)
    (hfin : s'.finOff = s.finOff) (hdata : ∀ b ∈ s'.data.toList, b ∈ s.data.toList)
    (hshut : s'.isShutdown = true → s'.data.toList = []) : s.Grows s' where
  wf :=
    { le_off := fun b hb => hoff ▸ wf.le_off b (hdata b hb)
      nonempty := fun b hb => wf.nonempty b (hdata b hb)
      fin := fun f hf => hoff ▸ wf.fin f (hfin ▸ hf)
      drained := hshut }
  fits _ h := ⟨hoff ▸ h.maxOff_le, fun hf => hfin.trans (h.fin hf)⟩

/-- A write adds to what was written. -/
theorem Written.grows {s s' : SendBuf} {data : List UInt8} {fin : Bool} {n : ℕ} (wf : s.WF)
    (h : s.Written data fin n s') : s.Grows s' := by
  cases h with
  | dropped _ => exact ⟨wf, fun _ => id⟩
  | stored hshut _ extended => exact ⟨extended.wf wf hshut, fun _ h => h.extended wf extended⟩

/-- What is taken out of the buffer stays written. -/
theorem Drained.grows {s s' : SendBuf} (wf : s.WF) (h : s.Drained s') : s.Grows s' :=
  ⟨h.wf wf, fun _ hbuf => ⟨h.off ▸ hbuf.maxOff_le, fun hf => h.finOff.trans (hbuf.fin hf)⟩⟩

/-- What comes back was written. -/
theorem Stored.grows {s s' : SendBuf} {buf : RangeBuf} (wf : s.WF) (hbuf : s.Fits buf)
    (h : Stored s buf s') : s.Grows s' :=
  ⟨h.wf_of_fits wf hbuf, fun _ hb =>
    ⟨h.off ▸ hb.maxOff_le, fun hf => (hbuf.finOff_eq h).trans (hb.fin hf)⟩⟩

/-- A buffer is shut down once, and is empty then. -/
theorem shutdown_eq_ok {s s' : SendBuf} (h : s.shutdown = .ok s') :
    s.isShutdown = false ∧ s' = { s with isShutdown := true, data := .empty } := by
  unfold shutdown at h
  split_ifs at h with hshut
  cases h
  exact ⟨by simpa using hshut, rfl⟩

/-- What was written before the buffer is shut down stays written. -/
theorem shut_grows {s : SendBuf} (wf : s.WF) :
    s.Grows { s with isShutdown := true, data := .empty } :=
  grows_of_le wf rfl rfl (fun _ hb => by cases hb) fun _ => rfl

theorem setNew_grows {s : SendBuf} (wf : s.WF) (b : Bool) : s.Grows { s with isNew := b } :=
  grows_of_le wf rfl rfl (fun _ => id) wf.drained

private theorem updateMaxData_grows {s : SendBuf} (wf : s.WF) (max : ℕ) :
    s.Grows (s.updateMaxData max) :=
  grows_of_le wf rfl rfl (fun _ => id) wf.drained

private theorem ack_grows {s : SendBuf} (wf : s.WF) (off len : ℕ) : s.Grows (s.ack off len) :=
  grows_of_le wf rfl rfl (fun _ => id) wf.drained

end SendBuf

namespace StreamMap

/-- The data of a STREAM frame was written to its stream, unless that is collected. -/
def Wrote (m : StreamMap) (id : ℕ) (data : RangeBuf) : Prop :=
  (∃ s, m.streams id = some s ∧ s.send.Fits data) ∨ m.streams id = none ∧ id ∈ m.collected

/-- The send buffers keep their invariant, and the STREAM frames `sent` carry what was
written. -/
structure Sound (m : StreamMap) (sent : ℕ → RangeBuf → Prop) : Prop where
  wf : ∀ id s, m.streams id = some s → s.send.WF
  wrote : ∀ id data, sent id data → m.Wrote id data

namespace Sound

variable {m m' : StreamMap} {sent sent' : ℕ → RangeBuf → Prop} {id : ℕ} {s s' : Stream}

theorem mono (h : m.Sound sent) (hsent : ∀ id data, sent' id data → sent id data) :
    m.Sound sent' := ⟨h.wf, fun id data hd => h.wrote id data (hsent id data hd)⟩

theorem of_eq (h : m.Sound sent) (hstreams : m'.streams = m.streams)
    (hcollected : m'.collected = m.collected) : m'.Sound sent where
  wf id s hs := h.wf id s (hstreams ▸ hs)
  wrote id data hd := by
    unfold Wrote
    rw [hstreams, hcollected]
    exact h.wrote id data hd

/-- Buffers are well formed, those of streams that are not there yet included. -/
theorem origin_wf (h : m.Sound sent) (origin : m.Origin id s) : s.send.WF := by
  cases origin with
  | live hlive => exact h.wf id s hlive
  | fresh _ _ _ hsend =>
    obtain ⟨_, _, _, _, hsend⟩ := hsend
    rw [hsend]
    exact SendBuf.newFull_wf _ _ _ _

/-- A stream is changed or created. -/
theorem updated {queued : Bool} (h : m.Sound sent) (origin : m.Origin id s)
    (hm : m.Updated id s' queued m') (grows : s.send.Grows s'.send) : m'.Sound sent where
  wf i si hi := by
    rw [hm.streams] at hi
    rcases eq_or_ne i id with rfl | hne
    · rw [put_streams_self] at hi
      cases hi
      exact grows.wf
    · rw [put_streams_of_ne _ _ hne] at hi
      exact h.wf i si hi
  wrote i data hd := by
    unfold Wrote
    rw [hm.streams, hm.collected]
    rcases eq_or_ne i id with rfl | hne
    · refine .inl ⟨s', put_streams_self _ _ _, ?_⟩
      rcases h.wrote i data hd with ⟨s₀, hs₀, hfits⟩ | ⟨hnone, hcollected⟩
      · cases origin with
        | live hlive =>
          rw [hlive] at hs₀
          cases hs₀
          exact grows.fits data hfits
        | fresh hnone _ _ _ =>
          rw [hnone] at hs₀
          cases hs₀
      · -- a collected stream is not created again
        cases origin with
        | live hlive =>
          rw [hnone] at hlive
          cases hlive
        | fresh _ hnot _ _ => exact absurd hcollected hnot
    · rw [put_streams_of_ne _ _ hne]
      exact h.wrote i data hd

/-- A change of the receiving side. -/
theorem updated_recv {queued : Bool} {recv : RecvBuf} (h : m.Sound sent) (origin : m.Origin id s)
    (hm : m.Updated id { s with recv := recv } queued m') : m'.Sound sent := by
  have wf := h.origin_wf origin
  exact h.updated origin hm ⟨wf, fun _ hb => hb⟩

/-- Frames of the peer write nothing. -/
theorem receives (h : m.Sound sent) (hm : m.Receives m') : m'.Sound sent := by
  cases hm with
  | same => exact h
  | updated origin updated => exact h.updated_recv origin updated

/-- A stream that is collected has no more to say. -/
theorem collect (h : m.Sound sent) (id : ℕ) (local_ : Bool) : (m.collect id local_).Sound sent where
  wf i s hs := by
    rw [collect_streams] at hs
    split_ifs at hs
    exact h.wf i s hs
  wrote i data hd := by
    unfold Wrote
    rw [collect_streams, collect_collected]
    rcases eq_or_ne i id with rfl | hne
    · exact .inr ⟨if_pos rfl, List.mem_insert_self⟩
    · rw [if_neg hne]
      exact (h.wrote i data hd).imp_right fun ⟨hnone, hc⟩ => ⟨hnone, List.mem_insert_of_mem hc⟩

theorem collectIf (h : m.Sound sent) (done : Bool) (id : ℕ) (local_ : Bool) :
    (if done then m.collect id local_ else m).Sound sent := by
  cases done
  · exact h
  · exact h.collect id local_

theorem cancels (h : m.Sound sent) (hm : m.Cancels m') : m'.Sound sent where
  wf id s hs := by
    rcases hm.streams id with heq | ⟨s₀, hs₀, heq⟩
    · exact h.wf id s (heq ▸ hs)
    · rw [heq] at hs
      cases hs
      exact (SendBuf.shut_grows (h.wf id s₀ hs₀)).wf
  wrote id data hd := by
    unfold Wrote
    rw [hm.collected]
    rcases hm.streams id with heq | ⟨s₀, hs₀, heq⟩
    · rw [heq]
      exact h.wrote id data hd
    · refine .inl ⟨_, heq, ?_⟩
      rcases h.wrote id data hd with ⟨s, hs, hfits⟩ | ⟨hnone, _⟩
      · rw [hs₀] at hs
        cases hs
        exact (SendBuf.shut_grows (h.wf id s₀ hs₀)).fits data hfits
      · rw [hnone] at hs₀
        cases hs₀

/-- What was sent fits what was written. -/
theorem fits (h : m.Sound sent) {data : RangeBuf} (hd : sent id data)
    (hs : m.streams id = some s) : s.send.Fits data := by
  rcases h.wrote id data hd with ⟨s', hs', hfits⟩ | ⟨hnone, _⟩
  · rw [hs] at hs'
    cases hs'
    exact hfits
  · rw [hs] at hnone
    cases hnone

/-- One more frame with data of a stream. -/
theorem insert (h : m.Sound sent) (hs : m.streams id = some s) {data : RangeBuf}
    (hfits : s.send.Fits data)
    (hsent : ∀ i d, sent' i d → sent i d ∨ i = id ∧ d = data) : m.Sound sent' where
  wf := h.wf
  wrote i d hd := by
    rcases hsent i d hd with hd | ⟨rfl, rfl⟩
    · exact h.wrote i d hd
    · exact .inl ⟨s, hs, hfits⟩

end Sound

end StreamMap

namespace Packing

/-- The frames that were sent, with those of the packet that is put together. -/
def Has (p : Packing) (f : Frame) : Prop :=
  (∃ e, p.conn.recovery.Has e f) ∨ f ∈ p.draft.frames

/-- What was sent was written. -/
def Sound (p : Packing) : Prop := p.conn.streams.Sound fun id data => p.Has (.stream id data)

/-- The handshake data does not end, neither in the packet that is put together. -/
def CryptoOpen (p : Packing) : Prop :=
  p.conn.CryptoOpen ∧ ∀ data, .crypto data ∈ p.draft.frames → data.fin = false

/-- Frames of packets move, and other frames are appended to the packet. -/
theorem has_stream_mono {p p' : Packing} {fs : List Frame}
    (moves : p.conn.recovery.Moves p'.conn.recovery)
    (frames : p'.draft.frames = p.draft.frames ++ fs) (hfs : ∀ id data, .stream id data ∉ fs)
    (id : ℕ) (data : RangeBuf) (h : p'.Has (.stream id data)) : p.Has (.stream id data) := by
  rcases h with ⟨e, he⟩ | hd
  · exact .inl ⟨e, moves e _ he⟩
  · rw [frames, List.mem_append] at hd
    exact .inr (hd.resolve_right (hfs id data))

/-- The turn of a stream does not touch crypto streams. -/
theorem Turned.cryptoOpen {id : ℕ} {p p' : Packing} (h : p.CryptoOpen) (turn : Turned id p p') :
    p'.CryptoOpen := by
  have hframes {s s₁ : Stream} {p₁ : Packing} (hi : Introduced id s p s₁ p₁) (data : RangeBuf)
      (hd : .crypto data ∈ p₁.draft.frames) : data.fin = false := by
    obtain ⟨fs, hfs, hframes⟩ := hi.frames
    rw [hframes, List.mem_append] at hd
    refine hd.elim (h.2 data) fun hd => ?_
    obtain ⟨_, _, _, _, hf⟩ := hfs _ hd
    cases hf
  cases turn with
  | full _ introduced _ _ conn frames =>
    exact ⟨conn ▸ h.1, fun data hd => hframes introduced data (frames ▸ hd)⟩
  | tooLarge _ introduced _ _ _ conn frames =>
    exact ⟨conn ▸ h.1, fun data hd => hframes introduced data (frames ▸ hd)⟩
  | nothing _ introduced _ _ _ _ conn frames =>
    exact ⟨conn ▸ h.1, fun data hd => hframes introduced data (frames ▸ hd)⟩
  | sent _ introduced _ _ _ _ _ _ conn frames =>
    refine ⟨conn ▸ h.1, fun data hd => hframes introduced data ?_⟩
    rw [frames, List.mem_append] at hd
    exact hd.resolve_right (by simp)

/-- No frame with data of a stream is added, and the streams are sound. -/
theorem sound_of_moves {p p' : Packing}
    (h : p'.conn.streams.Sound fun id data => p.Has (.stream id data)) {fs : List Frame}
    (moves : p.conn.recovery.Moves p'.conn.recovery)
    (frames : p'.draft.frames = p.draft.frames ++ fs) (hfs : ∀ id data, .stream id data ∉ fs) :
    p'.Sound := h.mono (has_stream_mono moves frames hfs)

/-- One frame is appended at most, which carries no data of a stream. -/
theorem sound_of_frame {p p' : Packing}
    (h : p'.conn.streams.Sound fun id data => p.Has (.stream id data))
    (recovery : p'.conn.recovery = p.conn.recovery)
    (frames : p'.draft.frames = p.draft.frames ∨ ∃ f, (∀ id data, f ≠ .stream id data) ∧
      p'.draft.frames = p.draft.frames ++ [f]) : p'.Sound := by
  have moves : p.conn.recovery.Moves p'.conn.recovery := by
    rw [recovery]
    exact refl_of Recovery.Moves _
  rcases frames with frames | ⟨f, hf, frames⟩
  · exact sound_of_moves h moves (frames.trans (List.append_nil _).symm) nofun
  · refine sound_of_moves h moves frames fun id data hmem => ?_
    exact hf id data (List.mem_singleton.mp hmem).symm

/-- Frames of other kinds add nothing to what was sent. -/
theorem Sound.calm {p p' : Packing} (h : p.Sound) (calm : p.conn.Calm p'.conn) {fs : List Frame}
    (frames : p'.draft.frames = p.draft.frames ++ fs) (hfs : ∀ id data, .stream id data ∉ fs) :
    p'.Sound := by
  have := h.of_eq calm.streams calm.collected
  exact sound_of_moves this calm.moves frames hfs

/-- What was lost was sent, hence it fits. -/
theorem Sound.fits_of_lost {p : Packing} (h : p.Sound) {epoch : Epoch} {id : ℕ} {data : RangeBuf}
    {s : Stream} (lost : .stream id data ∈ p.conn.recovery.lost epoch)
    (live : p.conn.streams.streams id = some s) : s.send.Fits data :=
  h.fits (.inl ⟨epoch, .inr (.inl lost)⟩) live

private theorem not_stream_of_quiet {fs : List Frame} (h : fs.all Frame.isQuiet) (id : ℕ)
    (data : RangeBuf) : .stream id data ∉ fs := fun hmem => by
  have := List.all_eq_true.mp h _ hmem
  cases this

/-- A BLOCK_INFO frame changes nothing that was written. -/
theorem Introduced.grows {id : ℕ} {s s₁ : Stream} {p p₁ : Packing} (h : Introduced id s p s₁ p₁)
    (wf : s.send.WF) : s.send.Grows s₁.send := by
  obtain ⟨isNew, rfl⟩ := h.stream
  exact SendBuf.setNew_grows wf isNew

theorem Introduced.mem_frames {id : ℕ} {s s₁ : Stream} {p p₁ : Packing}
    (h : Introduced id s p s₁ p₁) {i : ℕ} {data : RangeBuf}
    (hmem : .stream i data ∈ p₁.draft.frames) : .stream i data ∈ p.draft.frames := by
  obtain ⟨fs, hfs, hframes⟩ := h.frames
  rw [hframes, List.mem_append] at hmem
  refine hmem.resolve_right fun hmem => ?_
  obtain ⟨_, _, _, _, hf⟩ := hfs _ hmem
  cases hf

/-- The turn of a stream sends what was written. -/
theorem Turned.sound {id : ℕ} {p p' : Packing} (h : p.Sound) (turn : Turned id p p') :
    p'.Sound := by
  have trans {s s' s'' : SendBuf} (h₁ : s.Grows s') (h₂ : s'.Grows s'') : s.Grows s'' :=
    ⟨h₂.wf, fun b hb => h₂.fits b (h₁.fits b hb)⟩
  unfold Sound Has at *
  cases turn with
  | full live introduced _ updated conn frames =>
    have := h.updated (.live live) updated (introduced.grows (h.wf id _ live))
    rw [conn, frames]
    exact this.mono fun i d => Or.imp_right introduced.mem_frames
  | tooLarge live introduced _ _ updated conn frames =>
    have := h.updated (.live live) updated (introduced.grows (h.wf id _ live))
    rw [conn, frames]
    exact this.mono fun i d => Or.imp_right introduced.mem_frames
  | nothing live introduced _ pop _ updated conn frames =>
    have hgrows := introduced.grows (h.wf id _ live)
    have hpop := (SendBuf.pop_spec hgrows.wf pop).drained.grows hgrows.wf
    have := h.updated (.live live) updated (trans hgrows hpop)
    rw [conn, frames]
    exact this.mono fun i d => Or.imp_right introduced.mem_frames
  | sent live introduced _ _ pop _ stream updated conn frames =>
    have hgrows := introduced.grows (h.wf id _ live)
    have hpopped := SendBuf.pop_spec hgrows.wf pop
    subst stream
    have := h.updated (.live live) updated (trans hgrows (hpopped.drained.grows hgrows.wf))
    rw [conn, frames]
    refine this.insert (by rw [updated.streams]; exact StreamMap.put_streams_self _ _ _)
      hpopped.fits fun i d hd => ?_
    rw [List.mem_append, List.mem_singleton, ← or_assoc] at hd
    refine hd.imp (Or.imp_right introduced.mem_frames) fun hf => ?_
    cases hf
    exact ⟨rfl, rfl⟩

/-- A turn of the loop sends what was written. -/
theorem Stepped.sound {env : SendEnv} {p p' : Packing} (h : p.Sound) (step : Stepped env p p') :
    p'.Sound := by
  have hpeek := StreamMap.peekFlushable_cancels env.pace p.conn.streams
  cases step with
  | stopped peek conn draft =>
    have := h.cancels (Program.keeps_iff_after.mp hpeek _ peek)
    unfold Sound Has
    rw [conn, draft]
    exact this
  | @turned id m peek turn =>
    have hm : Sound { p with conn := p.conn.setStreams m } := h.cancels (hpeek.ok peek)
    exact turn.sound hm

end Packing

namespace Packing

variable {p p' : Packing} {c : Connection}

/-! Each of the programs keeps what was sent among what was written. -/

/-- The application writes. -/
theorem Sound.wrote (h : p.Sound) {id : ℕ} {data : List UInt8} {fin : Bool}
    (hw : p.conn.Wrote id data fin c) : Sound { p with conn := c } := by
  cases hw with
  | refused => exact h
  | failed origin push updated =>
    have wf := h.origin_wf origin
    obtain ⟨-, rfl, -⟩ := (SendBuf.pushSlice_ends _ _ wf.fin).error push
    exact h.updated origin updated ⟨wf, fun _ hb => hb⟩
  | stored origin push stream updated =>
    have wf := h.origin_wf origin
    subst stream
    exact h.updated origin updated (((SendBuf.pushSlice_ends _ _ wf.fin).ok push).grows wf)

/-- A frame of the peer is processed. -/
theorem Sound.received (h : p.Sound) (hr : p.conn.Receives c) : Sound { p with conn := c } := by
  have hstreams := StreamMap.Sound.receives h hr.streams
  refine hstreams.mono fun id data => Or.imp_left fun ⟨e, he⟩ => ⟨e, ?_⟩
  rwa [hr.recovery] at he

/-- The application shuts a stream down. -/
theorem Sound.shutDown (h : p.Sound) {id : ℕ} {direction : Connection.Shutdown}
    (hs : p.conn.ShutDown id direction c) : Sound { p with conn := c } := by
  cases hs with
  | refused => exact h
  | read live _ updated => exact h.updated_recv (.live live) updated
  | write live shutdown updated =>
    obtain ⟨-, rfl⟩ := SendBuf.shutdown_eq_ok shutdown
    exact h.updated (.live live) updated (SendBuf.shut_grows (h.wf _ _ live))

/-- Acknowledged frames are taken. -/
theorem Sound.tookAcked (h : p.Sound) {epoch : Epoch} (ha : p.conn.TookAcked epoch c) :
    Sound { p with conn := c } := by
  cases ha with
  | other calm => exact h.calm calm (List.append_nil _).symm fun _ _ => List.not_mem_nil
  | stream acked live stream recovery updated =>
    subst stream recovery
    have hmoves := (Connection.popAcked_calm acked).moves
    have := (h.updated (.live live) updated (SendBuf.ack_grows (h.wf _ _ live) _ _)).collectIf
    exact (this _ _ _).mono fun i d => Or.imp_left fun ⟨e, he⟩ => ⟨e, hmoves e _ he⟩

/-- Lost frames are taken, and their data is queued again. -/
theorem Sound.tookLost (h : p.Sound) {epoch : Epoch} (hl : p.conn.TookLost epoch c) :
    Sound { p with conn := c } := by
  cases hl with
  | other calm => exact h.calm calm (List.append_nil _).symm fun _ _ => List.not_mem_nil
  | blockInfo calm same live updated =>
    have := h.updated (.live live) updated (SendBuf.setNew_grows (h.wf _ _ live) true)
    exact this.mono fun i d => Or.imp_left fun ⟨e, he⟩ => ⟨e, calm.moves e _ he⟩
  | failed lost live push recovery =>
    subst recovery
    have hmoves := (Connection.popLost_calm lost).moves
    exact h.mono fun i d => Or.imp_left fun ⟨e, he⟩ => ⟨e, hmoves e _ he⟩
  | stored lost live push stream recovery updated =>
    subst stream recovery
    have hmoves := (Connection.popLost_calm lost).moves
    have hfits := h.fits_of_lost (lost ▸ List.mem_cons_self) live
    have := h.updated (.live live) updated
      ((SendBuf.push_spec push).2.grows (h.wf _ _ live) hfits)
    exact this.mono fun i d => Or.imp_left fun ⟨e, he⟩ => ⟨e, hmoves e _ he⟩

theorem Sound.wroteReset (h : p.Sound) {id : ℕ} (hr : WroteReset id p p') : p'.Sound := by
  cases hr with
  | skipped conn frames =>
    exact sound_of_frame (conn ▸ h.of_eq rfl rfl) (by rw [conn]; rfl) (.inl frames)
  | written _ conn frames =>
    exact sound_of_frame (conn ▸ h.of_eq rfl rfl) (by rw [conn]; rfl) (.inr ⟨_, by simp, frames⟩)

theorem Sound.wroteMaxStreamData (h : p.Sound) {id : ℕ} (hm : WroteMaxStreamData id p p') :
    p'.Sound := by
  cases hm with
  | skipped conn frames =>
    exact sound_of_frame (conn ▸ h.of_eq rfl rfl) (by rw [conn]; rfl) (.inl frames)
  | raised live _ updated conn frames =>
    have hstreams := h.updated_recv (.live live) updated
    refine sound_of_frame (p := p) (conn ▸ hstreams) (by rw [conn]; rfl) ?_
    exact frames.imp_right fun frames => ⟨_, by simp, frames⟩

theorem Sound.wroteMaxData (h : p.Sound) (hm : WroteMaxData p p') : p'.Sound := by
  cases hm with
  | skipped conn frames => exact sound_of_frame (conn ▸ h) (by rw [conn]) (.inl frames)
  | raised conn frames =>
    exact sound_of_frame (conn ▸ h) (by rw [conn]) (.inr ⟨_, by simp, frames⟩)

theorem Sound.wroteCrypto (h : p.Sound) (hw : WroteCrypto p p') : p'.Sound := by
  have hstreams := h.of_eq hw.conn.streams hw.conn.collected
  rcases hw.frames with frames | ⟨data, _, frames⟩
  · exact sound_of_moves hstreams hw.conn.moves (frames.trans (List.append_nil _).symm) nofun
  · exact sound_of_moves hstreams hw.conn.moves frames (by simp)

/-- The frames of the packet are sent now, and no longer put together. -/
theorem Sound.recorded (h : p.Sound) (hr : Recorded p p') : p'.Sound := by
  obtain ⟨r, calm, hhas⟩ := hr.conn
  refine (h.of_eq calm.streams calm.collected).mono fun i d hd => ?_
  rcases hd with ⟨e, hd⟩ | hd
  · exact (hhas e _ (calm.moves e _ hd)).imp_left fun hd => ⟨e, hd⟩
  · exact .inr (hr.draft ▸ hd)

end Packing

/-- Every action keeps what was sent among what was written. -/
theorem Action.Effect.sound {p p' : Packing} {action : Action} (h : p.Sound)
    (effect : Effect p action p') : p'.Sound := by
  cases effect with
  | wrote he => exact h.wrote he
  | readFrom he =>
    cases he with
    | refused => exact h
    | got live _ stream updated =>
      subst stream
      exact (h.updated_recv (.live live) updated).collectIf _ _ _
  | shutDown he => exact h.shutDown he
  | streamAccepted he => exact h.received he.receives
  | streamRejected he => exact h.received he.receives
  | resetAccepted he => exact h.received he.receives
  | resetRejected he => exact h.received he.receives
  | gotBlockInfo he => exact h.received he.receives
  | gotMaxStreamData he =>
    cases he with
    | refused => exact h
    | raised origin stream updated =>
      subst stream
      exact h.updated origin updated (SendBuf.updateMaxData_grows (h.origin_wf origin) _)
  | tookAcked he => exact h.tookAcked he
  | tookLost he => exact h.tookLost he
  | stepped he => exact he.sound h
  | wroteReset he => exact h.wroteReset he
  | wroteMaxStreamData he => exact h.wroteMaxStreamData he
  | wroteMaxData he => exact h.wroteMaxData he
  | wroteCrypto he => exact h.wroteCrypto he
  | recorded he => exact h.recorded he
  | started => exact h.mono fun i d hd => .inl (hd.resolve_right List.not_mem_nil)
  | calm he =>
    obtain ⟨fs, hfs, hframes⟩ := he.frames
    exact h.calm he.conn hframes (Packing.not_stream_of_quiet hfs)

/-! ### Handshake data -/

namespace Packing

/-- Frames move, and only CRYPTO frames without a `fin` flag are appended. -/
theorem CryptoOpen.step {p p' : Packing} (h : p.CryptoOpen)
    (conn : p.conn.CryptoOpen → p'.conn.CryptoOpen) {fs : List Frame}
    (frames : p'.draft.frames = p.draft.frames ++ fs)
    (hfs : ∀ data, .crypto data ∈ fs → data.fin = false) : p'.CryptoOpen := by
  refine ⟨conn h.1, fun data hd => ?_⟩
  rw [frames, List.mem_append] at hd
  exact hd.elim (h.2 data) (hfs data)

/-- At most one frame is appended, which is not a CRYPTO frame. -/
theorem CryptoOpen.frame {p p' : Packing} (h : p.CryptoOpen)
    (conn : p.conn.CryptoOpen → p'.conn.CryptoOpen)
    (frames : p'.draft.frames = p.draft.frames ∨ ∃ f, (∀ data, f ≠ .crypto data) ∧
      p'.draft.frames = p.draft.frames ++ [f]) : p'.CryptoOpen := by
  rcases frames with frames | ⟨f, hf, frames⟩
  · exact h.step conn (frames.trans (List.append_nil _).symm) nofun
  · refine h.step conn frames fun data hd => ?_
    exact absurd (List.mem_singleton.mp hd).symm (hf data)

private theorem not_crypto_of_quiet {fs : List Frame} (h : fs.all Frame.isQuiet) (data : RangeBuf) :
    .crypto data ∉ fs := fun hmem => by
  have := List.all_eq_true.mp h _ hmem
  cases this

end Packing

/-- No action shuts a crypto stream down. -/
theorem Action.Effect.cryptoOpen {p p' : Packing} {action : Action} (h : p.CryptoOpen)
    (effect : Effect p action p') : p'.CryptoOpen := by
  -- frames that only move between the lists of loss recovery
  have hmoves {r : Recovery} {m : StreamMap} (moves : p.conn.recovery.Moves r) :
      ((p.conn.setRecovery r).setStreams m).CryptoOpen :=
    ⟨h.1.1, fun e data hd => h.1.2 e data (moves e _ hd)⟩
  cases effect with
  | wrote he => cases he <;> exact h
  | readFrom he => cases he <;> exact h
  | shutDown he => cases he <;> exact h
  | streamAccepted he => cases he <;> exact h
  | streamRejected he => cases he <;> exact h
  | resetAccepted he => cases he <;> exact h
  | resetRejected he => cases he <;> exact h
  | gotBlockInfo he => cases he <;> exact h
  | gotMaxStreamData he => cases he <;> exact h
  | tookAcked he =>
    cases he with
    | other calm => exact ⟨calm.cryptoOpen h.1, h.2⟩
    | stream acked _ _ recovery _ =>
      subst recovery
      exact ⟨hmoves (Connection.popAcked_calm acked).moves, h.2⟩
  | tookLost he =>
    cases he with
    | other calm => exact ⟨calm.cryptoOpen h.1, h.2⟩
    | blockInfo calm _ _ _ => exact ⟨calm.cryptoOpen h.1, h.2⟩
    | failed lost _ _ recovery =>
      subst recovery
      exact ⟨hmoves (m := p.conn.streams) (Connection.popLost_calm lost).moves, h.2⟩
    | @stored _ _ _ _ _ _ _ m lost _ _ _ recovery _ =>
      subst recovery
      exact ⟨hmoves (m := m) (Connection.popLost_calm lost).moves, h.2⟩
  | stepped he =>
    cases he with
    | stopped _ conn draft => exact h.frame (fun hc => conn ▸ hc) (.inl (by rw [draft]))
    | @turned id m _ turn =>
      have hm : Packing.CryptoOpen { p with conn := p.conn.setStreams m } := h
      exact turn.cryptoOpen hm
  | wroteReset he =>
    cases he with
    | skipped conn frames => exact h.frame (fun hc => conn ▸ hc) (.inl frames)
    | written _ conn frames => exact h.frame (fun hc => conn ▸ hc) (.inr ⟨_, by simp, frames⟩)
  | wroteMaxStreamData he =>
    cases he with
    | skipped conn frames => exact h.frame (fun hc => conn ▸ hc) (.inl frames)
    | raised _ _ _ conn frames =>
      exact h.frame (fun hc => conn ▸ hc) (frames.imp_right fun frames => ⟨_, by simp, frames⟩)
  | wroteMaxData he =>
    cases he with
    | skipped conn frames => exact h.frame (fun hc => conn ▸ hc) (.inl frames)
    | raised conn frames => exact h.frame (fun hc => conn ▸ hc) (.inr ⟨_, by simp, frames⟩)
  | wroteCrypto he =>
    rcases he.frames with frames | ⟨data, hdata, frames⟩
    · exact h.frame he.conn.cryptoOpen (.inl frames)
    · refine h.step he.conn.cryptoOpen frames fun d hd => ?_
      cases List.mem_singleton.mp hd
      exact hdata h.1
  | recorded he =>
    obtain ⟨r, calm, hhas⟩ := he.conn
    refine ⟨calm.cryptoOpen ⟨h.1.1, fun e data hd => ?_⟩, fun data hd => h.2 data (he.draft ▸ hd)⟩
    exact (hhas e _ hd).elim (h.1.2 e data) (h.2 data)
  | started => exact ⟨h.1, nofun⟩
  | calm he =>
    obtain ⟨fs, hfs, hframes⟩ := he.frames
    refine h.step he.conn.cryptoOpen hframes fun data hd => ?_
    exact absurd hd (Packing.not_crypto_of_quiet hfs data)

namespace Connection

/-- A new connection has sent nothing. -/
theorem new_sound (config : Config) (isServer afterRetry : Bool) (now : ℕ) :
    Packing.Sound ⟨new config isServer afterRetry now, .new 0⟩ ∧
      Packing.CryptoOpen ⟨new config isServer afterRetry now, .new 0⟩ := by
  have hnone (e : Epoch) (f : Frame) : ¬ (new config isServer afterRetry now).recovery.Has e f := by
    rintro (⟨_, hp, _⟩ | hf | hf)
    · cases hp
    · cases hf
    · cases hf
  refine ⟨⟨fun id s hs => (by cases hs), fun id data hdata => ?_⟩,
    ⟨fun e => rfl, fun e data hdata => absurd hdata (hnone e _)⟩, fun data hdata =>
      (by cases hdata)⟩
  rcases hdata with ⟨e, he⟩ | hdata
  · exact absurd he (hnone e _)
  · cases hdata

/-- In every reachable state, what was sent was written, and handshake data does not end. -/
theorem Reachable.sound {c : Connection} (h : c.Reachable) :
    ∃ d, Packing.Sound ⟨c, d⟩ ∧ Packing.CryptoOpen ⟨c, d⟩ :=
  h.induct (I := fun c d => Packing.Sound ⟨c, d⟩ ∧ Packing.CryptoOpen ⟨c, d⟩) new_sound
    fun _ _ _ hI hstep =>
      ⟨(Action.effect hstep).sound hI.1, (Action.effect hstep).cryptoOpen hI.2⟩

end Connection

/-! ### What was acked -/

namespace SendBuf

/-- The peer has acked only bytes that were written. -/
def AcksWritten (s : SendBuf) : Prop := ∀ x, s.acked.Has x → x < s.off

/-- Nothing more is acked, and nothing is taken back. -/
structure KeepsAcks (s s' : SendBuf) : Prop where
  acked : s'.acked = s.acked
  off_le : s.off ≤ s'.off

/-- What is acknowledged does not grow faster than what is written. -/
theorem AcksWritten.keeps {s s' : SendBuf} (h : s.AcksWritten) (keeps : s.KeepsAcks s') :
    s'.AcksWritten := by
  intro x hx
  rw [keeps.acked] at hx
  exact (h x hx).trans_le keeps.off_le

/-- What is acknowledged was sent. -/
theorem AcksWritten.ackOff_le {s : SendBuf} (h : s.AcksWritten) : s.ackOff ≤ s.off := by
  by_contra hlt
  exact lt_irrefl _ (h s.off (has_of_lt_ackOff (not_le.mp hlt)))

/-- Nothing of a new buffer is acknowledged. -/
theorem newFull_acksWritten (maxData deadline priority now : ℕ) :
    (newFull maxData deadline priority now).AcksWritten :=
  fun x hx => absurd hx (RangeSet.not_has_empty x)

/-- An ack for bytes that were written. -/
theorem AcksWritten.ack {s : SendBuf} (h : s.AcksWritten) {off len : ℕ} (hle : off + len ≤ s.off) :
    (s.ack off len).AcksWritten := by
  intro x hx
  rcases RangeSet.has_of_insert (Nat.le_add_right off len) hx with hold | ⟨-, hlt⟩
  · exact h x hold
  · exact hlt.trans_le hle

theorem Written.keepsAcks {s s' : SendBuf} {data : List UInt8} {fin : Bool} {n : ℕ}
    (h : s.Written data fin n s') :
    s.KeepsAcks s' := by
  cases h with
  | dropped _ => exact ⟨rfl, le_rfl⟩
  | stored _ _ extended => exact ⟨extended.rest.acked, extended.off ▸ Nat.le_add_right _ _⟩

theorem Drained.keepsAcks {s s' : SendBuf} (h : s.Drained s') :
    s.KeepsAcks s' := ⟨h.rest.acked, h.off.ge⟩

theorem Stored.keepsAcks {s s' : SendBuf} {buf : RangeBuf} (h : Stored s buf s') : s.KeepsAcks s' :=
  ⟨h.rest.acked, h.off.ge⟩

end SendBuf

namespace StreamMap

/-- The peer has acked only bytes that were written to the streams. -/
def AcksWritten (m : StreamMap) : Prop := ∀ id s, m.streams id = some s → s.send.AcksWritten

namespace AcksWritten

variable {m m' : StreamMap} {id : ℕ} {s s' : Stream}

theorem origin (h : m.AcksWritten) (origin : m.Origin id s) : s.send.AcksWritten := by
  cases origin with
  | live hlive => exact h id s hlive
  | fresh _ _ _ hsend =>
    obtain ⟨_, _, _, _, hsend⟩ := hsend
    rw [hsend]
    exact SendBuf.newFull_acksWritten _ _ _ _

theorem put {queued : Bool} (h : m.AcksWritten) (hm : m.Updated id s' queued m')
    (hs : s'.send.AcksWritten) : m'.AcksWritten := by
  intro i si hi
  rw [hm.streams] at hi
  rcases eq_or_ne i id with rfl | hne
  · rw [put_streams_self] at hi
    cases hi
    exact hs
  · rw [put_streams_of_ne _ _ hne] at hi
    exact h i si hi

/-- A stream is changed or created. -/
theorem updated {queued : Bool} (h : m.AcksWritten) (origin : m.Origin id s)
    (hm : m.Updated id s' queued m') (keeps : s.send.KeepsAcks s'.send) : m'.AcksWritten :=
  h.put hm ((h.origin origin).keeps keeps)

/-- A change of the receiving side. -/
theorem updated_recv {queued : Bool} {recv : RecvBuf} (h : m.AcksWritten) (origin : m.Origin id s)
    (hm : m.Updated id { s with recv := recv } queued m') : m'.AcksWritten :=
  h.updated origin hm ⟨rfl, le_rfl⟩

/-- Frames of the peer acknowledge what was written. -/
theorem receives (h : m.AcksWritten) (hm : m.Receives m') : m'.AcksWritten := by
  cases hm with
  | same => exact h
  | updated origin updated => exact h.updated_recv origin updated

theorem of_eq (h : m.AcksWritten) (hstreams : m'.streams = m.streams) : m'.AcksWritten :=
  fun id s hs => h id s (hstreams ▸ hs)

theorem collectIf (h : m.AcksWritten) (done : Bool) (id : ℕ) (local_ : Bool) :
    (if done then m.collect id local_ else m).AcksWritten := by
  cases done with
  | false => exact h
  | true =>
    intro i s hs
    change (m.collect id local_).streams i = some s at hs
    rw [collect_streams] at hs
    split_ifs at hs
    exact h i s hs

theorem cancels (h : m.AcksWritten) (hm : m.Cancels m') : m'.AcksWritten := by
  intro id s hs
  rcases hm.streams id with heq | ⟨s₀, hs₀, heq⟩
  · exact h id s (heq ▸ hs)
  · rw [heq] at hs
    cases hs
    exact h id s₀ hs₀

end AcksWritten

end StreamMap

namespace Packing

/-- The turn of a stream acknowledges nothing. -/
theorem Turned.acksWritten {id : ℕ} {p p' : Packing} (h : p.conn.streams.AcksWritten)
    (sound : p.Sound)
    (turn : Turned id p p') : p'.conn.streams.AcksWritten := by
  have hintroduced {s s₁ : Stream} {p₁ : Packing} (introduced : Introduced id s p s₁ p₁) :
      s₁.send.acked = s.send.acked ∧ s₁.send.off = s.send.off := by
    obtain ⟨isNew, rfl⟩ := introduced.stream
    exact ⟨rfl, rfl⟩
  cases turn with
  | full live introduced _ updated conn _ =>
    obtain ⟨hacked, hoff⟩ := hintroduced introduced
    exact conn ▸ h.updated (.live live) updated ⟨hacked, hoff.ge⟩
  | tooLarge live introduced _ _ updated conn _ =>
    obtain ⟨hacked, hoff⟩ := hintroduced introduced
    exact conn ▸ h.updated (.live live) updated ⟨hacked, hoff.ge⟩
  | nothing live introduced _ pop _ updated conn _ =>
    obtain ⟨hacked, hoff⟩ := hintroduced introduced
    have hpop := (SendBuf.pop_spec (introduced.grows (sound.wf id _ live)).wf pop).drained.keepsAcks
    exact conn ▸ h.updated (.live live) updated ⟨hpop.acked.trans hacked, hoff ▸ hpop.off_le⟩
  | sent live introduced _ _ pop _ stream updated conn _ =>
    subst stream
    obtain ⟨hacked, hoff⟩ := hintroduced introduced
    have hpop := (SendBuf.pop_spec (introduced.grows (sound.wf id _ live)).wf pop).drained.keepsAcks
    exact conn ▸ h.updated (.live live) updated ⟨hpop.acked.trans hacked, hoff ▸ hpop.off_le⟩

/-- A turn of the loop acknowledges nothing. -/
theorem Stepped.acksWritten {env : SendEnv} {p p' : Packing} (h : p.conn.streams.AcksWritten)
    (sound : p.Sound)
    (step : Stepped env p p') : p'.conn.streams.AcksWritten := by
  have hpeek := StreamMap.peekFlushable_cancels env.pace p.conn.streams
  cases step with
  | stopped peek conn _ => exact conn ▸ h.cancels (Program.keeps_iff_after.mp hpeek _ peek)
  | @turned id m peek turn =>
    have hm : Sound { p with conn := p.conn.setStreams m } := sound.cancels (hpeek.ok peek)
    exact turn.acksWritten (h.cancels (hpeek.ok peek)) hm

end Packing

/-- A write acknowledges nothing. -/
theorem Connection.Wrote.acksWritten {p : Packing} {c : Connection} {id : ℕ} {data : List UInt8}
    {fin : Bool} (h : p.conn.streams.AcksWritten) (sound : p.Sound)
    (hw : p.conn.Wrote id data fin c) : c.streams.AcksWritten := by
  cases hw with
  | refused => exact h
  | failed origin push updated =>
    have wf := sound.origin_wf origin
    obtain ⟨-, rfl, -⟩ := (SendBuf.pushSlice_ends _ _ wf.fin).error push
    exact h.updated origin updated ⟨rfl, le_rfl⟩
  | stored origin push stream updated =>
    have wf := sound.origin_wf origin
    subst stream
    exact h.updated origin updated ((SendBuf.pushSlice_ends _ _ wf.fin).ok push).keepsAcks

/-- What is taken as acknowledged was sent. -/
theorem Connection.TookAcked.acksWritten {p : Packing} {c : Connection} {epoch : Epoch}
    (h : p.conn.streams.AcksWritten) (sound : p.Sound) (ha : p.conn.TookAcked epoch c) :
    c.streams.AcksWritten := by
  cases ha with
  | other calm => exact h.of_eq calm.streams
  | @stream id data frames s _ _ m acked live stream recovery updated =>
    subst stream
    -- the frame was sent, so its data was written
    have hsent : p.Has (.stream id data) := .inl ⟨_, .inr (.inr (acked ▸ List.mem_cons_self))⟩
    have hfits := sound.fits hsent live
    exact (h.put updated ((h id s live).ack hfits.maxOff_le)).collectIf _ _ _

/-- What is lost acknowledges nothing. -/
theorem Connection.TookLost.acksWritten {c c' : Connection} {epoch : Epoch}
    (h : c.streams.AcksWritten) (hl : c.TookLost epoch c') : c'.streams.AcksWritten := by
  cases hl with
  | other calm => exact h.of_eq calm.streams
  | blockInfo _ _ live updated => exact h.updated (.live live) updated ⟨rfl, le_rfl⟩
  | failed _ _ _ _ => exact h
  | stored _ live push stream _ updated =>
    subst stream
    exact h.updated (.live live) updated (SendBuf.push_spec push).2.keepsAcks

/-- Every action keeps what is acked among what was written. -/
theorem Action.Effect.acksWritten {p p' : Packing} {action : Action}
    (h : p.conn.streams.AcksWritten)
    (sound : p.Sound) (effect : Effect p action p') : p'.conn.streams.AcksWritten := by
  cases effect with
  | wrote he => exact he.acksWritten h sound
  | readFrom he =>
    cases he with
    | refused => exact h
    | got live _ stream updated =>
      subst stream
      exact (h.updated_recv (.live live) updated).collectIf _ _ _
  | shutDown he =>
    cases he with
    | refused => exact h
    | read live _ updated => exact h.updated_recv (.live live) updated
    | write live shutdown updated =>
      obtain ⟨-, rfl⟩ := SendBuf.shutdown_eq_ok shutdown
      exact h.updated (.live live) updated ⟨rfl, le_rfl⟩
  | streamAccepted he => exact h.receives he.receives.streams
  | streamRejected he => exact h.receives he.receives.streams
  | resetAccepted he => exact h.receives he.receives.streams
  | resetRejected he => exact h.receives he.receives.streams
  | gotBlockInfo he => exact h.receives he.receives.streams
  | gotMaxStreamData he =>
    cases he with
    | refused => exact h
    | raised origin stream updated =>
      subst stream
      exact h.updated origin updated ⟨rfl, le_rfl⟩
  | tookAcked he => exact he.acksWritten h sound
  | tookLost he => exact he.acksWritten h
  | stepped he => exact he.acksWritten h sound
  | wroteReset he =>
    cases he with
    | skipped conn | written _ conn => exact conn ▸ h
  | wroteMaxStreamData he =>
    cases he with
    | skipped conn _ => exact conn ▸ h
    | raised live _ updated conn _ => exact conn ▸ h.updated_recv (.live live) updated
  | wroteMaxData he =>
    cases he with
    | skipped conn | raised conn => exact conn ▸ h
  | wroteCrypto he => exact h.of_eq he.conn.streams
  | recorded he =>
    obtain ⟨r, calm, _⟩ := he.conn
    exact h.of_eq calm.streams
  | started => exact h
  | calm he => exact h.of_eq he.conn.streams

/-- In every reachable state, the peer has acked only what was written. -/
theorem Connection.Reachable.acksWritten {c : Connection} (h : c.Reachable) :
    c.streams.AcksWritten := by
  obtain ⟨d, hI⟩ := h.induct (I := fun c d => (Packing.Sound ⟨c, d⟩ ∧ Packing.CryptoOpen ⟨c, d⟩) ∧
    c.streams.AcksWritten)
    (fun config isServer afterRetry now =>
      ⟨Connection.new_sound config isServer afterRetry now, nofun⟩)
    fun _ _ _ hI hstep =>
      ⟨⟨(Action.effect hstep).sound hI.1.1, (Action.effect hstep).cryptoOpen hI.1.2⟩,
        (Action.effect hstep).acksWritten hI.2 hI.1.1⟩
  exact hI.2

end Dtp
