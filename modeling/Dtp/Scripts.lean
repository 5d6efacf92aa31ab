import Dtp.Written

/-!
# What a connection tells its peer

A script holds the bytes that the application has written to each stream. The STREAM and
RESET_STREAM frames that a connection puts into packets are true of its script: they carry bytes
of the script at their offsets, and a frame that names the final size of a stream is only
written once the stream is closed to writing, so that its script is complete.

## Main definitions

* `Script` — what was written to each stream
* `StreamMap.Closed` — nothing more can be written to a stream
* `Frame.IsTrue` — what a frame says about a script
* `Packing.Tells` — the invariant of a connection that tells its peer a script

## Main results

* `Action.Effect.follows` — actions other than writes keep it
* `Connection.streamSendFull_tells` — a write appends the bytes that it stores to the script
-/

namespace Dtp

open Lib (BinaryHeap Fault Program run)

/-- The bytes that an application has written to each stream. -/
abbrev Script := ℕ → List UInt8

namespace SendBuf

/-! ### Buffers -/

/-- Nothing more can be written. -/
def Closed (s : SendBuf) : Prop := s.isShutdown = true ∨ s.finOff ≠ none

/-- The buffer stands at the end of the bytes `w`, and its chunks carry bytes of `w`. -/
structure Tells (s : SendBuf) (w : List UInt8) : Prop where
  off : w.length = s.off
  agrees : ∀ b ∈ s.data.toList, b.AgreesWith w

/-- Nothing is written, and what is closed remains closed. -/
structure Retells (w : List UInt8) (s s' : SendBuf) : Prop where
  off : s'.off = s.off
  closed : s.Closed → s'.Closed
  agrees : (∀ b ∈ s.data.toList, b.AgreesWith w) → ∀ b ∈ s'.data.toList, b.AgreesWith w

section Retells

variable {w : List UInt8} {s s' s'' : SendBuf}

theorem Retells.refl (w : List UInt8) (s : SendBuf) : s.Retells w s := ⟨rfl, id, id⟩

theorem Retells.trans (h : s.Retells w s') (h' : s'.Retells w s'') : s.Retells w s'' :=
  ⟨h'.off.trans h.off, fun hc => h'.closed (h.closed hc), fun ha => h'.agrees (h.agrees ha)⟩

/-- What is queued stays true to the script. -/
theorem Tells.retells (h : s.Tells w) (h' : s.Retells w s') : s'.Tells w :=
  ⟨h.off.trans h'.off.symm, h'.agrees h.agrees⟩

/-- Chunks are dropped at most. -/
theorem retells_of_sub (hoff : s'.off = s.off) (hfin : s'.finOff = s.finOff)
    (hshut : s.isShutdown = true → s'.isShutdown = true)
    (hdata : ∀ b ∈ s'.data.toList, b ∈ s.data.toList) : s.Retells w s' where
  off := hoff
  closed h := h.imp hshut fun hf => hfin ▸ hf
  agrees h b hb := h b (hdata b hb)

theorem shut_retells (w : List UInt8) (s : SendBuf) :
    s.Retells w { s with isShutdown := true, data := .empty } :=
  retells_of_sub rfl rfl (fun _ => rfl) fun _ hb => by cases hb

theorem setNew_retells (w : List UInt8) (s : SendBuf) (b : Bool) :
    s.Retells w { s with isNew := b } := retells_of_sub rfl rfl id fun _ => id

private theorem updateMaxData_retells (w : List UInt8) (s : SendBuf) (max : ℕ) :
    s.Retells w (s.updateMaxData max) := retells_of_sub rfl rfl id fun _ => id

private theorem ack_retells (w : List UInt8) (s : SendBuf) (off len : ℕ) :
    s.Retells w (s.ack off len) := retells_of_sub rfl rfl id fun _ => id

/-- What is taken out of a buffer was queued. -/
theorem Drained.retells (h : s.Drained s') (w : List UInt8) : s.Retells w s' where
  off := h.off
  closed hc := hc.imp (fun hs => h.rest.isShutdown.trans hs) fun hf => h.finOff ▸ hf
  agrees ha b hb := by
    obtain ⟨-, b₀, hb₀, hpiece⟩ := h.data b hb
    exact hpiece.agrees w (ha b₀ hb₀)

/-- A chunk that is queued again. -/
theorem Stored.retells {buf : RangeBuf} (h : Stored s buf s') (hfits : s.Fits buf)
    (hbuf : buf.AgreesWith w) : s.Retells w s' where
  off := h.off
  closed hc :=
    hc.imp (fun hs => h.rest.isShutdown.trans hs) fun hf => (hfits.finOff_eq h).symm ▸ hf
  agrees ha b hb := by
    rcases (h.data b).mp hb with hb | ⟨rfl, -⟩
    · exact ha b hb
    · exact hbuf

end Retells

/-- What is popped carries bytes of the script, if the queue does. -/
theorem popChunk_agrees {s s' : SendBuf} {cap : ℕ} {buf : RangeBuf} {w : List UInt8}
    (h : s.popChunk cap = some (buf, s')) (hs : ∀ b ∈ s.data.toList, b.AgreesWith w) :
    buf.AgreesWith w ∧ ∀ b ∈ s'.data.toList, b.AgreesWith w := by
  unfold popChunk at h
  cases hpop : s.data.pop with
  | none =>
    rw [hpop] at h
    cases h
  | some front =>
    obtain ⟨b, rest⟩ := front
    have hmem (c : RangeBuf) := BinaryHeap.mem_of_mem_pop (y := c) hpop
    have hb := hs b ((hmem b).mpr (.inl rfl))
    have hmax : b.maxOff = b.off + b.len := rfl
    simp only [hpop] at h
    split_ifs at h with hcut
    · cases h
      have hidx : min cap (s.maxData - b.off) ≤ b.len := by omega
      refine ⟨hb.splitOff_fst hidx, fun c hc => ?_⟩
      rcases BinaryHeap.mem_push.mp hc with rfl | hc
      · exact hb.splitOff_snd hidx
      · exact hs c ((hmem c).mpr (.inr hc))
    · cases h
      exact ⟨hb, fun c hc => hs c ((hmem c).mpr (.inr hc))⟩

private theorem popLoop_agrees {fuel cap outOff : ℕ} {s s' : SendBuf} {out out' : RangeBuf}
    {w : List UInt8} (hout : 0 < out.len → out.maxOff = outOff)
    (h : popLoop fuel cap outOff out s = (out', s')) (hs : ∀ b ∈ s.data.toList, b.AgreesWith w)
    (hagrees : out.AgreesWith w) : out'.AgreesWith w := by
  induction fuel generalizing cap outOff out s with
  | zero =>
    cases h
    exact hagrees
  | succ fuel ih =>
    rw [popLoop] at h
    by_cases hmore : 0 < cap ∧ s.ready ∧ s.lowOff = outOff ∧ s.lowOff < s.maxData
    · rw [if_pos hmore] at h
      cases hpop : s.popChunk cap with
      | none =>
        simp only [hpop] at h
        cases h
        exact hagrees
      | some chunk =>
        obtain ⟨buf, s₁⟩ := chunk
        simp only [hpop] at h
        obtain ⟨hbuf, hs₁⟩ := popChunk_agrees hpop hs
        -- the chunk starts where the output ends
        have hadj (hpos : 0 < out.len) : out.maxOff = buf.off := by
          rw [popChunk_off hpop, hmore.2.2.1]
          exact hout hpos
        exact ih (fun _ => RangeBuf.joined_maxOff hadj out.fin) h hs₁
          (hagrees.joined hbuf hadj out.fin)
    · rw [if_neg hmore] at h
      cases h
      exact hagrees

private theorem pop_agrees {s s' : SendBuf} {cap : ℕ} {out : RangeBuf} {w : List UInt8}
    (h : s.pop cap = (out, s')) (hs : ∀ b ∈ s.data.toList, b.AgreesWith w) : out.AgreesWith w := by
  unfold pop at h
  obtain ⟨⟨out₁, s₁⟩, hloop⟩ : ∃ r, popLoop (s.data.toList.length + 1) cap s.lowOff
    ⟨[], s.off, false⟩ s = r := ⟨_, rfl⟩
  rw [hloop] at h
  cases h
  have hempty : ¬ 0 < (RangeBuf.mk [] s.off false).len := Nat.lt_irrefl 0
  have hout : out₁.AgreesWith w := popLoop_agrees (fun h => absurd h hempty) hloop hs fun x hx =>
    absurd hx.not_isEmpty hempty
  exact hout

/-! ### Writing -/

/-- A write that returns stores the bytes it reports, unless the buffer is shut down. -/
theorem Tells.pushSlice {s s' : SendBuf} {w data : List UInt8} {fin : Bool} {n : ℕ}
    (h : s.Tells w) (wf : s.WF) (hpush : pushSlice data fin s = .ok n s') :
    s'.Tells (if s.isShutdown then w else w ++ data.take n) ∧
      (s.Closed → s'.Closed ∧ (s.isShutdown = false → data.take n = [])) := by
  have hwritten := (pushSlice_ends data fin wf.fin).ok hpush
  by_cases hshut : s.isShutdown = true
  · -- nothing is stored, although the write reports that it is
    rw [if_pos hshut]
    cases hwritten with
    | dropped _ => exact ⟨h, fun hc => ⟨hc, fun hopen => by rw [hshut] at hopen; cases hopen⟩⟩
    | stored hopen _ _ =>
      rw [hshut] at hopen
      cases hopen
  rw [if_neg hshut]
  have hopen := Bool.not_eq_true _ |>.mp hshut
  cases hfin : s.finOff with
  | none =>
    -- new data is queued behind what was written
    obtain ⟨hn, hreceives⟩ := (pushSlice_receives data fin hfin hopen).ok hpush
    have htake : data.take n = data.take s.cap := by
      rw [hn, ← List.take_take, List.take_length]
    refine ⟨⟨?_, fun b hb => ?_⟩, fun hc => ?_⟩
    · rw [htake, List.length_append, h.off, hreceives.off]
    · rw [htake]
      rcases hreceives.chunks b hb with hold | hpiece
      · exact (h.agrees b hold).append (h.off ▸ wf.le_off b hold) _
      · have hchunk := agreesWith_written w (data.take s.cap)
          (fin && decide (data.length ≤ s.cap))
        rw [h.off] at hchunk
        exact hpiece.agrees _ hchunk
    · exact absurd hc (by simp [Closed, hopen, hfin])
  | some f =>
    have hclosed : s.finOff ≠ none := by simp [hfin]
    -- after the end, only an empty write is accepted
    by_cases hempty : data = []
    · subst hempty
      rw [List.take_nil, List.append_nil]
      cases hwritten with
      | dropped hs => exact absurd hs hshut
      | stored _ _ _ =>
        rw [SendBuf.pushSlice, Program.bind_apply, Program.get_apply] at hpush
        simp only [hopen, Bool.false_eq_true, if_false, List.isEmpty_nil, if_true] at hpush
        cases hchunk : s.push ⟨[], s.off, fin⟩ with
        | error e =>
          rw [hchunk] at hpush
          cases hpush
        | ok s₁ =>
          rw [hchunk] at hpush
          cases hpush
          have hstored := (push_spec hchunk).2
          have hretells : s.Retells w s' := by
            refine ⟨hstored.off, fun _ => .inr ?_, fun ha b hb => ?_⟩
            · rw [hstored.finOff]
              split_ifs
              · exact Option.some_ne_none _
              · exact hclosed
            · rcases (hstored.data b).mp hb with hb | ⟨-, -, -, hpos⟩
              · exact ha b hb
              · exact absurd hpos (Nat.lt_irrefl 0)
          exact ⟨h.retells hretells, fun hc => ⟨hretells.closed hc, fun _ => rfl⟩⟩
    · -- there is no room, or the write is refused
      rcases Nat.eq_zero_or_pos s.cap with hcap | hcap
      · obtain ⟨n', hstuck⟩ := pushSlice_stuck (.inr ⟨hclosed, hcap⟩) hempty fin
        rw [hstuck] at hpush
        cases hpush
        have hn : n = 0 := by
          cases hwritten with
          | dropped hs => exact absurd hs hshut
          | stored _ hn _ => rw [hn, hcap, Nat.zero_min]
        rw [hn, List.take_zero, List.append_nil]
        exact ⟨h, fun hc => ⟨hc, fun _ => rfl⟩⟩
      · rw [pushSlice_refused wf hclosed hopen hcap hempty fin] at hpush
        cases hpush

end SendBuf

namespace StreamMap

/-! ### Streams -/

/-- Nothing more can be written to the stream: its sending side is closed, or it is collected. -/
def Closed (m : StreamMap) (id : ℕ) : Prop :=
  (∃ s, m.streams id = some s ∧ s.send.Closed) ∨ m.streams id = none ∧ id ∈ m.collected

/-- The send buffers tell the script `w`. -/
structure Tells (m : StreamMap) (w : Script) : Prop where
  live : ∀ id s, m.streams id = some s → s.send.Tells (w id)
  vacant : ∀ id, m.streams id = none → id ∉ m.collected → w id = []

/-- The script stays as it is, closed streams remain closed, and only closed streams join those
that wait for a RESET_STREAM frame. -/
structure Retells (w : Script) (m m' : StreamMap) : Prop where
  tells : m.Tells w → m'.Tells w
  closed : ∀ id, m.Closed id → m'.Closed id
  canceled : ∀ id ∈ m'.canceled, id ∈ m.canceled ∨ m'.Closed id

section Retells

variable {w : Script} {m m' : StreamMap} {id : ℕ} {s s' : Stream}

instance : IsPreorder StreamMap (Retells w) where
  refl _ := ⟨fun h => h, fun _ h => h, fun _ => .inl⟩
  trans m m' m'' h h' := by
    refine ⟨fun ht => h'.tells (h.tells ht), fun id hc => h'.closed id (h.closed id hc),
      fun id hid => ?_⟩
    rcases h'.canceled id hid with hold | hnew
    · exact (h.canceled id hold).imp_right (h'.closed id)
    · exact .inr hnew

/-- Only the streams and what is collected matter to a script. -/
theorem Retells.congr {m₁ : StreamMap} (h : m.Retells w m₁) (hstreams : m'.streams = m₁.streams)
    (hcollected : m'.collected = m₁.collected)
    (hcanceled : ∀ id ∈ m'.canceled, id ∈ m.canceled ∨ m'.Closed id) : m.Retells w m' where
  tells ht :=
    have ht₁ := h.tells ht
    ⟨fun id s hs => ht₁.live id s (hstreams ▸ hs), fun id hnone hnot =>
      ht₁.vacant id (hstreams ▸ hnone) (hcollected ▸ hnot)⟩
  closed id hc := by
    have := h.closed id hc
    unfold Closed at *
    rwa [hstreams, hcollected]
  canceled := hcanceled

theorem retells_of_eq (hstreams : m'.streams = m.streams) (hcollected : m'.collected = m.collected)
    (hcanceled : ∀ id ∈ m'.canceled, id ∈ m.canceled) : m.Retells w m' :=
  (refl_of (Retells w) m).congr hstreams hcollected fun id hid => .inl (hcanceled id hid)

/-- A closed stream has a closed buffer. -/
theorem Closed.of_origin (hc : m.Closed id) (origin : m.Origin id s) : s.send.Closed := by
  rcases hc with ⟨s₀, hs₀, hclosed⟩ | ⟨hnone, hcoll⟩
  · cases origin with
    | live hlive =>
      rw [hlive] at hs₀
      cases hs₀
      exact hclosed
    | fresh hnone _ _ _ =>
      rw [hnone] at hs₀
      cases hs₀
  · cases origin with
    | live hlive =>
      rw [hnone] at hlive
      cases hlive
    | fresh _ hnot _ _ => exact absurd hcoll hnot

/-- The streams after one of them was put into the map. -/
theorem Closed.put (origin : m.Origin id s) (hstreams : m'.streams = (m.put id s').streams)
    (hcollected : m'.collected = m.collected) (h : s.send.Closed → s'.send.Closed) {i : ℕ}
    (hc : m.Closed i) : m'.Closed i := by
  rcases eq_or_ne i id with rfl | hne
  · exact .inl ⟨s', by rw [hstreams, put_streams_self], h (hc.of_origin origin)⟩
  · unfold Closed at *
    rw [hstreams, hcollected, put_streams_of_ne _ _ hne]
    exact hc

/-- A stream that is not there yet tells nothing. -/
theorem Tells.origin (h : m.Tells w) (origin : m.Origin id s) : s.send.Tells (w id) := by
  cases origin with
  | live hlive => exact h.live id s hlive
  | fresh hnone hnot _ hsend =>
    obtain ⟨_, _, _, _, hsend⟩ := hsend
    rw [h.vacant id hnone hnot, hsend]
    exact ⟨rfl, fun _ hb => by cases hb⟩

/-- The script of one stream may change when the stream is put into the map. -/
theorem Tells.put (h : m.Tells w) (hstreams : m'.streams = (m.put id s').streams)
    (hcollected : m'.collected = m.collected) {bytes : List UInt8} (hs' : s'.send.Tells bytes) :
    m'.Tells (Function.update w id bytes) where
  live i si hi := by
    rw [hstreams] at hi
    rcases eq_or_ne i id with rfl | hne
    · rw [put_streams_self] at hi
      cases hi
      rwa [Function.update_self]
    · rw [put_streams_of_ne _ _ hne] at hi
      rw [Function.update_of_ne hne]
      exact h.live i si hi
  vacant i hnone hnot := by
    rw [hstreams] at hnone
    rcases eq_or_ne i id with rfl | hne
    · rw [put_streams_self] at hnone
      cases hnone
    · rw [put_streams_of_ne _ _ hne] at hnone
      rw [Function.update_of_ne hne]
      exact h.vacant i hnone (hcollected ▸ hnot)

/-- A stream is changed or created, and nothing is written to it. -/
theorem Updated.retells {queued : Bool} (origin : m.Origin id s)
    (hm : m.Updated id s' queued m') (h : s.send.Retells (w id) s'.send) : m.Retells w m' where
  tells ht := by
    have := ht.put hm.streams hm.collected ((ht.origin origin).retells h)
    rwa [Function.update_eq_self] at this
  closed _ hc := hc.put origin hm.streams hm.collected h.closed
  canceled i hi := .inl (hm.canceled ▸ hi)

private theorem collect_retells (m : StreamMap) (id : ℕ) (local_ : Bool) :
    m.Retells w (m.collect id local_) where
  tells h :=
    { live := fun i s hs => by
        rw [collect_streams] at hs
        split_ifs at hs
        exact h.live i s hs
      vacant := fun i hnone hnot => by
        rw [collect_streams] at hnone
        rw [collect_collected] at hnot
        split_ifs at hnone with hi
        · exact absurd (hi ▸ List.mem_insert_self) hnot
        · exact h.vacant i hnone fun hmem => hnot (List.mem_insert_of_mem hmem) }
  closed i hc := by
    unfold Closed at *
    rw [collect_streams, collect_collected]
    split_ifs with hi
    · exact .inr ⟨rfl, hi ▸ List.mem_insert_self⟩
    · exact hc.imp_right (And.imp_right List.mem_insert_of_mem)
  canceled i hi := .inl (by
    unfold collect at hi
    dsimp only at hi
    split_ifs at hi <;> exact hi)

theorem collectIf_retells (done : Bool) (m : StreamMap) (id : ℕ) (local_ : Bool) :
    m.Retells w (if done then m.collect id local_ else m) := by
  cases done
  · exact refl_of (Retells w) m
  · exact collect_retells m id local_

/-- A block that is cancelled waits for a RESET_STREAM frame, and is closed to writing. -/
theorem cancelBlock_retells (id : ℕ) (m : StreamMap) : (cancelBlock id).Keeps (Retells w) m := by
  have hclosed {m' : StreamMap} {s : Stream} (hs : m'.streams id = some s)
      (hshut : s.send.isShutdown = true) {i : ℕ} (hi : i ∈ m.canceled.insert id) :
      i ∈ m.canceled ∨ m'.Closed i := by
    rcases List.mem_insert_iff.mp hi with rfl | hold
    · exact .inr (.inl ⟨s, hs, .inl hshut⟩)
    · exact .inl hold
  refine cancelBlock_keeps (fun s live hshut => ?_) fun s live => ?_
  · exact (refl_of (Retells w) m).congr rfl rfl fun i hi => hclosed live hshut hi
  · let s' : Stream := { s with send := { s.send with isShutdown := true, data := .empty } }
    have hput : m.Retells w (m.put id s') :=
      (m.put_updated id s').retells (.live live) (SendBuf.shut_retells _ _)
    exact hput.congr rfl rfl fun i hi => hclosed (put_streams_self m id s') rfl hi

private theorem peekFlushable_retells (pace : Pace) (m : StreamMap) :
    (peekFlushable pace).Keeps (Retells w) m :=
  peekFlushable_keeps cancelBlock_retells (fun _ _ => retells_of_eq rfl rfl fun _ => id)
    (fun _ _ _ _ _ => retells_of_eq rfl rfl fun _ => id) pace m

/-- More is written, but not to streams that are closed. -/
structure Extends (m : StreamMap) (w w' : Script) : Prop where
  told : ∀ id, w id <+: w' id
  closed : ∀ id, m.Closed id → w' id = w id

theorem Extends.refl (m : StreamMap) (w : Script) : m.Extends w w :=
  ⟨fun _ => List.prefix_rfl, fun _ _ => rfl⟩

private theorem extends_update {bytes : List UInt8} (h : m.Closed id → bytes = []) :
    m.Extends w (Function.update w id (w id ++ bytes)) where
  told i := by
    rcases eq_or_ne i id with rfl | hne
    · rw [Function.update_self]
      exact List.prefix_append _ _
    · exact Function.update_of_ne hne _ w ▸ List.prefix_rfl
  closed i hi := by
    rcases eq_or_ne i id with rfl | hne
    · rw [Function.update_self, h hi, List.append_nil]
    · exact Function.update_of_ne hne _ w

end Retells

end StreamMap

/-! ### Frames -/

/-- What a frame says about streams is true of the script `w`: data is that of the script, and
a final size is the length of a script that is complete. -/
def Frame.IsTrue (w : Script) (closed : ℕ → Prop) : Frame → Prop
  | .stream id data =>
    data.AgreesWith (w id) ∧ data.maxOff ≤ (w id).length ∧
      (data.fin = true → closed id ∧ data.maxOff = (w id).length)
  | .resetStream id code finalSize => code = 1 ∧ closed id ∧ finalSize = (w id).length
  | _ => True

private theorem Frame.isTrue_of_quiet {w : Script} {closed : ℕ → Prop} {f : Frame}
    (h : f.isQuiet = true) : f.IsTrue w closed := by
  cases f <;> trivial

/-- What is true of a script remains true when more is written to streams that are not closed. -/
theorem Frame.IsTrue.grow {w w' : Script} {closed closed' : ℕ → Prop} {f : Frame}
    (h : f.IsTrue w closed) (hw : ∀ id, w id <+: w' id)
    (hclosed : ∀ id, closed id → closed' id ∧ w' id = w id) : f.IsTrue w' closed' := by
  cases f with
  | stream id data =>
    obtain ⟨hagrees, hle, hfin⟩ := h
    obtain ⟨more, hmore⟩ := hw id
    refine ⟨?_, ?_, fun hf => ?_⟩
    · rw [← hmore]
      exact hagrees.append hle more
    · rw [← hmore, List.length_append]
      omega
    · obtain ⟨hc, hlen⟩ := hfin hf
      obtain ⟨hc', hsame⟩ := hclosed id hc
      exact ⟨hc', hsame ▸ hlen⟩
  | resetStream id code finalSize =>
    obtain ⟨hcode, hc, hlen⟩ := h
    obtain ⟨hc', hsame⟩ := hclosed id hc
    exact ⟨hcode, hc', hsame ▸ hlen⟩
  | _ => trivial

namespace Packing

/-- The connection and the packet that it puts together tell the script `w`. -/
structure Tells (p : Packing) (w : Script) : Prop where
  sound : p.Sound
  streams : p.conn.streams.Tells w
  canceled : ∀ id ∈ p.conn.streams.canceled, p.conn.streams.Closed id
  frames : ∀ f, p.Has f → f.IsTrue w p.conn.streams.Closed

/-- Frames of packets move, and others are appended to the packet. -/
theorem has_of_moves {p p' : Packing} {fs : List Frame}
    (moves : p.conn.recovery.Moves p'.conn.recovery)
    (frames : p'.draft.frames = p.draft.frames ++ fs) {f : Frame} (h : p'.Has f) :
    p.Has f ∨ f ∈ fs := by
  rcases h with ⟨e, he⟩ | hd
  · exact .inl (.inl ⟨e, moves e f he⟩)
  · rw [frames, List.mem_append] at hd
    exact hd.imp_left .inr

section Tells

variable {p p' : Packing} {w : Script}

/-- The script is told still, and what is closed remains closed. -/
structure Follows (w : Script) (p p' : Packing) : Prop where
  tells : p'.Tells w
  closed : ∀ id, p.conn.streams.Closed id → p'.conn.streams.Closed id

theorem Tells.refl (h : p.Tells w) : p.Follows w p := ⟨h, fun _ hc => hc⟩

/-- The streams keep to the script, and new frames are true. -/
theorem Tells.next (h : p.Tells w) (sound : p'.Sound)
    (streams : p.conn.streams.Retells w p'.conn.streams)
    (frames : ∀ f, p'.Has f → p.Has f ∨ f.IsTrue w p'.conn.streams.Closed) : p.Follows w p' where
  tells :=
    { sound := sound
      streams := streams.tells h.streams
      canceled := fun id hid => (streams.canceled id hid).elim
        (fun hold => streams.closed id (h.canceled id hold)) fun hnew => hnew
      frames := fun f hf => (frames f hf).elim
        (fun hold => (h.frames f hold).grow (fun _ => List.prefix_rfl) fun id hc =>
          ⟨streams.closed id hc, rfl⟩) fun hnew => hnew }
  closed := streams.closed

/-- The streams keep to the script, and the frames that are appended are true. -/
theorem Tells.append (h : p.Tells w) (sound : p'.Sound)
    (streams : p.conn.streams.Retells w p'.conn.streams) {fs : List Frame}
    (moves : p.conn.recovery.Moves p'.conn.recovery)
    (frames : p'.draft.frames = p.draft.frames ++ fs)
    (hfs : ∀ f ∈ fs, f.IsTrue w p'.conn.streams.Closed) : p.Follows w p' :=
  h.next sound streams fun f hf => (has_of_moves moves frames hf).imp_right (hfs f)

/-- No frame is added. -/
theorem Tells.keep (h : p.Tells w) (sound : p'.Sound)
    (streams : p.conn.streams.Retells w p'.conn.streams)
    (moves : p.conn.recovery.Moves p'.conn.recovery)
    (frames : p'.draft.frames = p.draft.frames) : p.Follows w p' :=
  h.append sound streams moves (frames.trans (List.append_nil _).symm)
    fun _ hf => absurd hf List.not_mem_nil

/-- Only the streams change. -/
theorem Tells.onStreams (h : p.Tells w) (sound : p'.Sound)
    (streams : p.conn.streams.Retells w p'.conn.streams)
    (recovery : p'.conn.recovery = p.conn.recovery) (draft : p'.draft = p.draft) :
    p.Follows w p' := by
  refine h.keep sound streams ?_ (by rw [draft])
  rw [recovery]
  exact refl_of Recovery.Moves _

/-- At most one frame is appended. -/
theorem Tells.frame (h : p.Tells w) (sound : p'.Sound)
    (streams : p.conn.streams.Retells w p'.conn.streams)
    (recovery : p'.conn.recovery = p.conn.recovery)
    (frames : p'.draft.frames = p.draft.frames ∨
      ∃ f, f.IsTrue w p'.conn.streams.Closed ∧ p'.draft.frames = p.draft.frames ++ [f]) :
    p.Follows w p' := by
  have moves : p.conn.recovery.Moves p'.conn.recovery := by
    rw [recovery]
    exact refl_of Recovery.Moves _
  rcases frames with frames | ⟨f, hf, frames⟩
  · exact h.keep sound streams moves frames
  · refine h.append sound streams moves frames fun g hg => ?_
    rwa [List.mem_singleton.mp hg]

/-- Frames of other kinds tell nothing. -/
theorem Tells.calm (h : p.Tells w) (sound : p'.Sound) (calm : p.Calm p') :
    p.Follows w p' := by
  obtain ⟨fs, hfs, hframes⟩ := calm.frames
  refine h.append sound ?_ calm.conn.moves hframes fun f hf =>
    Frame.isTrue_of_quiet (List.all_eq_true.mp hfs f hf)
  exact StreamMap.retells_of_eq calm.conn.streams calm.conn.collected calm.conn.canceled

/-- The announcement of a block tells nothing. -/
theorem Introduced.retells {id : ℕ} {s s₁ : Stream} {p₁ : Packing}
    (h : Introduced id s p s₁ p₁) (bytes : List UInt8) : s.send.Retells bytes s₁.send := by
  obtain ⟨isNew, rfl⟩ := h.stream
  exact SendBuf.setNew_retells bytes s.send isNew

/-- The frames of an announcement are true. -/
theorem Introduced.has {id : ℕ} {s s₁ : Stream} {p₁ : Packing} (h : Introduced id s p s₁ p₁)
    {f : Frame} (hf : f ∈ p₁.draft.frames) (closed : ℕ → Prop) :
    f ∈ p.draft.frames ∨ f.IsTrue w closed := by
  obtain ⟨fs, hfs, hframes⟩ := h.frames
  rw [hframes, List.mem_append] at hf
  refine hf.imp_right fun hf => ?_
  obtain ⟨_, _, _, _, rfl⟩ := hfs f hf
  trivial

/-- One turn of the loop over the streams: a STREAM frame carries what its stream tells. -/
theorem Turned.follows {id : ℕ} (h : p.Tells w) (turn : Turned id p p') : p.Follows w p' := by
  have sound := turn.sound h.sound
  have wf {s : Stream} (live : p.conn.streams.streams id = some s) := h.sound.wf id s live
  cases turn with
  | full live introduced _ updated conn frames =>
    refine h.next sound ?_ fun f hf => ?_
    · rw [conn]
      exact updated.retells (.live live) (introduced.retells _)
    · refine hf.elim (fun hf => .inl (.inl (by rwa [conn] at hf))) fun hf => ?_
      exact (introduced.has (frames ▸ hf) _).imp_left .inr
  | tooLarge live introduced _ _ updated conn frames =>
    refine h.next sound ?_ fun f hf => ?_
    · rw [conn]
      exact updated.retells (.live live) (introduced.retells _)
    · refine hf.elim (fun hf => .inl (.inl (by rwa [conn] at hf))) fun hf => ?_
      exact (introduced.has (frames ▸ hf) _).imp_left .inr
  | nothing live introduced _ pop _ updated conn frames =>
    have hwf := (introduced.grows (wf live)).wf
    have hpop := (SendBuf.pop_spec hwf pop).drained.retells (w id)
    refine h.next sound ?_ fun f hf => ?_
    · rw [conn]
      exact updated.retells (.live live) ((introduced.retells _).trans hpop)
    · refine hf.elim (fun hf => .inl (.inl (by rwa [conn] at hf))) fun hf => ?_
      exact (introduced.has (frames ▸ hf) _).imp_left .inr
  | @sent s s₁ s₂ p₁ room data send m live introduced _ _ pop _ stream updated conn frames =>
    subst stream
    have hwf := (introduced.grows (wf live)).wf
    have hpopped := SendBuf.pop_spec hwf pop
    have htells := (h.streams.live id s live).retells (introduced.retells (w id))
    have htells₂ := htells.retells (hpopped.drained.retells (w id))
    have hlive : p'.conn.streams.streams id = some { s₁ with send := send } := by
      rw [conn]
      change m.streams id = _
      rw [updated.streams, StreamMap.put_streams_self]
    refine h.next sound ?_ fun f hf => ?_
    · rw [conn]
      exact updated.retells (.live live)
        ((introduced.retells _).trans (hpopped.drained.retells (w id)))
    · refine hf.elim (fun hf => .inl (.inl (by rwa [conn] at hf))) fun hf => ?_
      rw [frames, List.mem_append, List.mem_singleton] at hf
      refine hf.elim (fun hf => (introduced.has hf _).imp_left .inr) ?_
      rintro rfl
      refine .inr ⟨SendBuf.pop_agrees pop htells.agrees, ?_, fun hfin => ?_⟩
      · rw [htells.off]
        exact hpopped.maxOff_le
      · -- the flag is set at the final offset, which is the end of what was written
        have hfinOff : s₁.send.finOff = some data.maxOff := by
          rw [hpopped.fin] at hfin
          simpa using hfin
        refine ⟨.inl ⟨_, hlive, .inr ?_⟩, ?_⟩
        · change send.finOff ≠ none
          rw [hpopped.drained.finOff, hfinOff]
          exact Option.some_ne_none _
        · rw [htells.off]
          exact hwf.fin _ hfinOff

/-- A turn of the loop follows the script. -/
theorem Stepped.follows {env : SendEnv} (h : p.Tells w) (step : Stepped env p p') :
    p.Follows w p' := by
  have hpeek := StreamMap.peekFlushable_retells (w := w) env.pace p.conn.streams
  have sound := step.sound h.sound
  cases step with
  | stopped peek conn draft =>
    refine h.onStreams sound ?_ (by rw [conn]; rfl) draft
    rw [conn]
    exact Program.keeps_iff_after.mp hpeek _ peek
  | @turned id m peek turn =>
    have hsound : Sound { p with conn := p.conn.setStreams m } :=
      h.sound.cancels ((StreamMap.peekFlushable_cancels env.pace p.conn.streams).ok peek)
    have hm : p.Follows w { p with conn := p.conn.setStreams m } :=
      h.onStreams hsound (hpeek.ok peek) rfl rfl
    have hturn := turn.follows hm.tells
    exact ⟨hturn.tells, fun i hc => hturn.closed i (hm.closed i hc)⟩

end Tells

end Packing

/-- Data of the peer tells nothing. -/
theorem StreamMap.Receives.retells {m m' : StreamMap} {w : Script} (h : m.Receives m') :
    m.Retells w m' := by
  cases h with
  | same => exact refl_of (StreamMap.Retells w) m
  | updated origin updated => exact updated.retells origin (.refl _ _)

namespace Packing

variable {w : Script} {p p' : Packing} {c : Connection}

/-! Each of the programs keeps to the script. -/

/-- A frame of the peer is processed. -/
theorem Tells.receives (h : p.Tells w) (hr : p.conn.Receives c) :
    p.Follows w { p with conn := c } :=
  h.onStreams (h.sound.received hr) hr.streams.retells hr.recovery rfl

/-- Acknowledged frames are taken. -/
theorem Tells.tookAcked (h : p.Tells w) {epoch : Epoch} (ha : p.conn.TookAcked epoch c) :
    p.Follows w { p with conn := c } := by
  have sound := h.sound.tookAcked ha
  cases ha with
  | other calm => exact h.calm sound ⟨calm, [], rfl, (List.append_nil _).symm⟩
  | stream acked live stream recovery updated =>
    subst stream recovery
    refine h.keep sound ?_ (Connection.popAcked_calm acked).moves rfl
    exact trans_of (StreamMap.Retells w)
      (updated.retells (.live live) (SendBuf.ack_retells _ _ _ _))
      (StreamMap.collectIf_retells _ _ _ _)

/-- Lost frames are taken, and were true when they were sent. -/
theorem Tells.tookLost (h : p.Tells w) {epoch : Epoch} (hl : p.conn.TookLost epoch c) :
    p.Follows w { p with conn := c } := by
  have sound := h.sound.tookLost hl
  cases hl with
  | other calm => exact h.calm sound ⟨calm, [], rfl, (List.append_nil _).symm⟩
  | blockInfo calm same live updated =>
    refine h.keep sound ?_ calm.moves rfl
    exact updated.retells (.live live) (SendBuf.setNew_retells _ _ _)
  | failed lost live push recovery =>
    subst recovery
    exact h.keep sound (refl_of (StreamMap.Retells w) _) (Connection.popLost_calm lost).moves rfl
  | @stored id data frames s s' send r m lost live push stream recovery updated =>
    -- what is lost was sent, and is queued again
    subst stream recovery
    have hmem : .stream id data ∈ p.conn.recovery.lost _ := lost ▸ List.mem_cons_self
    have hfits := h.sound.fits_of_lost hmem live
    have hagrees : data.AgreesWith (w id) :=
      (h.frames (.stream id data) (.inl ⟨_, .inr (.inl hmem)⟩)).1
    refine h.keep sound ?_ (Connection.popLost_calm lost).moves rfl
    exact updated.retells (.live live) ((SendBuf.push_spec push).2.retells hfits hagrees)

/-- A RESET_STREAM frame is true of a stream that is closed. -/
theorem Tells.wroteReset (h : p.Tells w) {id : ℕ} (hclosed : p.conn.streams.Closed id)
    (hr : WroteReset id p p') : p.Follows w p' := by
  have sound := h.sound.wroteReset hr
  have hmark : p.conn.streams.Retells w (p.conn.streams.markCanceled id false) :=
    StreamMap.retells_of_eq rfl rfl fun i hi => List.mem_of_mem_filter hi
  cases hr with
  | skipped conn frames =>
    exact h.frame sound (conn ▸ hmark) (by rw [conn]; rfl) (.inl frames)
  | @written s live conn frames =>
    refine h.frame sound (conn ▸ hmark) (by rw [conn]; rfl) (.inr ⟨_, ?_, frames⟩)
    have hlen := (h.streams.live id s live).off
    refine ⟨rfl, by rw [conn]; exact hmark.closed id hclosed, ?_⟩
    unfold SendBuf.blockSize
    cases hfin : s.send.finOff with
    | none => exact hlen.symm
    | some f => exact ((h.sound.wf id s live).fin f hfin).trans hlen.symm

/-- The limit of a stream is announced. -/
theorem Tells.wroteMaxStreamData (h : p.Tells w) {id : ℕ} (hm : WroteMaxStreamData id p p') :
    p.Follows w p' := by
  have sound := h.sound.wroteMaxStreamData hm
  cases hm with
  | skipped conn frames =>
    refine h.frame sound ?_ (by rw [conn]; rfl) (.inl frames)
    rw [conn]
    exact StreamMap.retells_of_eq rfl rfl fun _ hi => hi
  | raised live _ updated conn frames =>
    refine h.frame sound ?_ (by rw [conn]; rfl) (frames.imp_right fun frames =>
      ⟨.maxStreamData _ _, trivial, frames⟩)
    rw [conn]
    exact updated.retells (.live live) (.refl _ _)

/-- The limit of the connection is announced. -/
theorem Tells.wroteMaxData (h : p.Tells w) (hm : WroteMaxData p p') : p.Follows w p' := by
  have sound := h.sound.wroteMaxData hm
  cases hm with
  | skipped conn frames =>
    exact h.frame sound (conn ▸ refl_of (StreamMap.Retells w) _) (by rw [conn]) (.inl frames)
  | raised conn frames =>
    exact h.frame sound (conn ▸ refl_of (StreamMap.Retells w) _) (by rw [conn])
      (.inr ⟨.maxData _, trivial, frames⟩)

/-- Crypto data is no part of the script. -/
theorem Tells.wroteCrypto (h : p.Tells w) (hw : WroteCrypto p p') : p.Follows w p' := by
  have sound := h.sound.wroteCrypto hw
  have hsame : p.conn.streams.Retells w p'.conn.streams :=
    StreamMap.retells_of_eq hw.conn.streams hw.conn.collected hw.conn.canceled
  rcases hw.frames with frames | ⟨data, _, frames⟩
  · exact h.keep sound hsame hw.conn.moves frames
  · refine h.append sound hsame hw.conn.moves frames fun f hf => ?_
    rw [List.mem_singleton.mp hf]
    trivial

/-- The frames of the packet are sent now, and no longer put together. -/
theorem Tells.recorded (h : p.Tells w) (hr : Recorded p p') : p.Follows w p' := by
  have sound := h.sound.recorded hr
  obtain ⟨r, calm, hhas⟩ := hr.conn
  refine h.next sound (StreamMap.retells_of_eq calm.streams calm.collected calm.canceled) ?_
  rintro f (⟨e, hf⟩ | hf)
  · exact .inl ((hhas e f (calm.moves e f hf)).imp_left fun hf => ⟨e, hf⟩)
  · exact .inl (.inr (hr.draft ▸ hf))

end Packing

/-- Every action but a write keeps to the script; RESET_STREAM frames are only for streams that
are closed. -/
theorem Action.Effect.follows {p p' : Packing} {action : Action} {w : Script} (h : p.Tells w)
    (effect : Effect p action p')
    (hwrite : ∀ id data fin deadline priority now,
      action ≠ .write id data fin deadline priority now)
    (hreset : ∀ id, action = .reset id → p.conn.streams.Closed id) : p.Follows w p' := by
  have sound := effect.sound h.sound
  cases effect with
  | wrote he => exact absurd rfl (hwrite _ _ _ _ _ _)
  | readFrom he =>
    cases he with
    | refused => exact h.refl
    | got live _ stream updated =>
      subst stream
      exact h.onStreams sound (trans_of (StreamMap.Retells w)
        (updated.retells (.live live) (.refl _ _))
        (StreamMap.collectIf_retells _ _ _ _)) rfl rfl
  | shutDown he =>
    cases he with
    | refused => exact h.refl
    | read live _ updated => exact h.receives ⟨.updated (.live live) updated, rfl⟩
    | write live shutdown updated =>
      obtain ⟨-, rfl⟩ := SendBuf.shutdown_eq_ok shutdown
      exact h.onStreams sound (updated.retells (.live live) (SendBuf.shut_retells _ _)) rfl rfl
  | streamAccepted he => exact h.receives he.receives
  | streamRejected he => exact h.receives he.receives
  | resetAccepted he => exact h.receives he.receives
  | resetRejected he => exact h.receives he.receives
  | gotBlockInfo he => exact h.receives he.receives
  | gotMaxStreamData he =>
    cases he with
    | refused => exact h.refl
    | raised origin stream updated =>
      subst stream
      exact h.onStreams sound
        (updated.retells origin (SendBuf.updateMaxData_retells _ _ _)) rfl rfl
  | tookAcked he => exact h.tookAcked he
  | tookLost he => exact h.tookLost he
  | stepped he => exact he.follows h
  | wroteReset he => exact h.wroteReset (hreset _ rfl) he
  | wroteMaxStreamData he => exact h.wroteMaxStreamData he
  | wroteMaxData he => exact h.wroteMaxData he
  | wroteCrypto he => exact h.wroteCrypto he
  | recorded he => exact h.recorded he
  | started =>
    refine h.next sound (refl_of (StreamMap.Retells w) _) fun f hf => .inl (.inl ?_)
    exact hf.resolve_right List.not_mem_nil
  | calm he => exact h.calm sound he

namespace Connection

/-- A new connection tells nothing. -/
theorem new_tells (config : Config) (isServer afterRetry : Bool) (now : ℕ) :
    Packing.Tells ⟨new config isServer afterRetry now, .new 0⟩ fun _ => [] where
  sound := (new_sound config isServer afterRetry now).1
  streams :=
    { live := fun id s hs => by cases hs
      vacant := fun _ _ _ => rfl }
  canceled id hid := by cases hid
  frames f hf := by
    rcases hf with ⟨e, ⟨_, hp, _⟩ | hf | hf⟩ | hf
    · cases hp
    · cases hf
    · cases hf
    · cases hf

/-! ### Writing -/

/-- The sending side of the stream is shut down. -/
def isShut (c : Connection) (id : ℕ) : Bool :=
  (c.streams.streams id).any fun s => s.send.isShutdown

/-- The script after a write that returned `n`: the stored bytes are appended. A stream that is
shut down stores nothing, although the write returns as if it did. -/
def afterWrite (c : Connection) (id : ℕ) (data : List UInt8) (n : ℕ) (w : Script) : Script :=
  if c.isShut id then w else Function.update w id (w id ++ data.take n)

private theorem isShut_origin {c : Connection} {id : ℕ} {s : Stream}
    (origin : c.streams.Origin id s) :
    c.isShut id = s.send.isShutdown := by
  unfold isShut
  cases origin with
  | live hlive => rw [hlive, Option.any_some]
  | fresh hnone _ _ hsend =>
    obtain ⟨_, _, _, _, hsend⟩ := hsend
    rw [hnone, hsend]
    rfl

/-- The state and the script after a write that stores `n` bytes. -/
theorem stored_tells {c : Connection} {d : Draft} {w : Script} {id n : ℕ} {data : List UInt8}
    {fin queued : Bool} {s : Stream} {send : SendBuf} {m : StreamMap}
    (h : Packing.Tells ⟨c, d⟩ w) (origin : c.streams.Origin id s)
    (push : SendBuf.pushSlice data fin s.send = .ok n send)
    (updated : c.streams.Updated id { s with send := send } queued m)
    (sound : Packing.Sound ⟨c.setStreams m, d⟩) :
    Packing.Tells ⟨c.setStreams m, d⟩ (c.afterWrite id data n w) ∧
      (∀ i, c.streams.Closed i → m.Closed i) ∧
        c.streams.Extends w (c.afterWrite id data n w) := by
  obtain ⟨hsend, hclosed⟩ := (h.streams.origin origin).pushSlice (h.sound.origin_wf origin) push
  have hsc (i : ℕ) (hi : c.streams.Closed i) : m.Closed i :=
    hi.put origin updated.streams updated.collected fun hs => (hclosed hs).1
  rw [afterWrite, isShut_origin origin]
  have hext : c.streams.Extends w (if s.send.isShutdown = true then w
      else Function.update w id (w id ++ data.take n)) := by
    split_ifs with hshut
    · exact .refl _ _
    · -- what is closed stores nothing
      exact StreamMap.extends_update fun hc =>
        (hclosed (hc.of_origin origin)).2 (Bool.not_eq_true _ |>.mp hshut)
  have htells : m.Tells (if s.send.isShutdown = true then w
      else Function.update w id (w id ++ data.take n)) := by
    have hput := h.streams.put updated.streams updated.collected hsend
    split_ifs at hput ⊢
    · rwa [Function.update_eq_self] at hput
    · exact hput
  refine ⟨⟨sound, htells, fun i hi => ?_, fun f hf => ?_⟩, hsc, hext⟩
  · exact hsc i (h.canceled i (updated.canceled ▸ hi))
  · exact (h.frames f hf).grow hext.told fun i hi => ⟨hsc i hi, hext.closed i hi⟩

/-- A write appends what it stores to the script of its stream. -/
theorem streamSendFull_tells {c : Connection} {w : Script} {d : Draft}
    (h : Packing.Tells ⟨c, d⟩ w) (id : ℕ) (data : List UInt8) (fin : Bool)
    (deadline priority now : ℕ) :
    (streamSendFull id data fin deadline priority now).Ends c
      (fun n c' => Packing.Tells ⟨c', d⟩ (c.afterWrite id data n w) ∧
        (∀ i, c.streams.Closed i → c'.streams.Closed i) ∧
          c.streams.Extends w (c.afterWrite id data n w))
      fun e c' => (∃ err, e = .error err) → Packing.Tells ⟨c', d⟩ w ∧
        ∀ i, c.streams.Closed i → c'.streams.Closed i := by
  have hsound {c' : Connection} (hc' : c.Wrote id data fin c') : Packing.Sound ⟨c', d⟩ := by
    have effect : Action.Effect ⟨c, d⟩ (.write id data fin deadline priority now) ⟨c', d⟩ :=
      .wrote hc'
    exact effect.sound h.sound
  have hsame : Packing.Tells ⟨c, d⟩ w ∧ ∀ i, c.streams.Closed i → c.streams.Closed i :=
    ⟨h, fun _ hc => hc⟩
  rw [streamSendFull, Program.ends_bind, Program.ends_get, Program.ends_ite]
  refine ⟨fun _ _ => hsame, fun _ => ?_⟩
  cases hopen : c.getOrCreateStream id true deadline priority now with
  | error e => exact fun _ => hsame
  | ok r =>
    obtain ⟨s, m⟩ := r
    obtain ⟨origin, updated⟩ := getOrCreateStream_spec hopen
    have opens : c.Opens true id s := ⟨_, _, _, _, hopen⟩
    have wf := h.sound.origin_wf origin
    simp only [Program.ofExcept_ok, pure_bind, Program.ends_bind, Program.ends_set]
    cases hpush : SendBuf.pushSlice data fin s.send with
    | error e send =>
      -- a push that fails leaves the buffer as it was
      obtain ⟨-, rfl, -⟩ := (SendBuf.pushSlice_ends _ _ wf.fin).error hpush
      simp only [Program.ends_bind, Program.ends_set, Program.ends_throw]
      have hput := updated.put { s with send := s.send }
      have hfollows : Packing.Follows w ⟨c, d⟩ ⟨c.setStreams (m.putSend id s s.send), d⟩ :=
        h.onStreams (hsound (.failed origin hpush hput opens))
          (hput.retells origin (.refl _ _)) rfl rfl
      exact fun _ => ⟨hfollows.tells, hfollows.closed⟩
    | ok n send =>
      simp only [Program.ends_bind, Program.ends_set, Program.ends_pure]
      have hqueued := (updated.put { s with send := send }).pushFlushableIf
        (({ s with send := send : Stream }.isFlushable || (data.isEmpty && fin)) && !s.isFlushable)
      have hput := hqueued.ite (c := ({ s with send := send : Stream }.isWritable = true))
        (hqueued.markWritable id false)
      exact stored_tells h origin hpush hput (hsound (.stored origin hpush rfl hput opens))

end Connection

end Dtp
