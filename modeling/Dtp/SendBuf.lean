import Dtp.Error
import Dtp.RangeBuf
import Dtp.Ranges

/-!
# Send-side stream buffers

`SendBuf` keeps the data that the application has written and that waits to be sent
for the first time or again, together with the ranges that the peer has acked.

## Main definitions

* `SendBuf.pushSlice` — written data, `SendBuf.push` — data to be sent again
* `SendBuf.pop` — data for a packet
* `SendBuf.WF` — the invariant of every buffer the operations build

## Main results

* `SendBuf.Fits.refuses_iff` — when data that was written cannot be queued again
* `SendBuf.pushSlice_ends` — what writing does
* `SendBuf.pop_spec` — what a packet takes out of the buffer
-/

namespace Dtp

open Lib (BinaryHeap Program)

/-- The chunk size into which written data is split. -/
def maxWriteSize : ℕ := 1000

/-- The deadline of a stream for which none is given. -/
def maxDeadline : ℕ := 9999999

/-- The priority of a stream for which none is given. -/
def defaultPriority : ℕ := 9999999

/-- Send-side stream buffer. -/
structure SendBuf where
  /-- Chunks of data to be sent. -/
  data : BinaryHeap RangeBuf.off
  /-- The maximum offset of data buffered in the stream. -/
  off : ℕ
  /-- The amount of data that waits in the buffer. -/
  len : ℕ
  /-- The maximum offset we are allowed to send to the peer. -/
  maxData : ℕ
  /-- The final stream offset written to the stream, if any. -/
  finOff : Option ℕ
  /-- Whether the stream's send-side has been shut down. -/
  isShutdown : Bool
  deadline : ℕ
  priority : ℕ
  /-- Beginning timestamp of the block in millis. -/
  startTime : ℕ
  /-- Ranges of data offsets that have been acked. -/
  acked : RangeSet
  /-- True until the first BLOCK_INFO frame is sent, and again when it is lost. -/
  isNew : Bool

namespace SendBuf

/-- Creates a new send buffer with a deadline and a priority. -/
def newFull (maxData deadline priority now : ℕ) : SendBuf where
  data := .empty
  off := 0
  len := 0
  maxData := maxData
  finOff := none
  isShutdown := false
  deadline := deadline
  priority := priority
  startTime := now
  acked := .empty
  isNew := true

/-- Creates a new send buffer. -/
def new (maxData now : ℕ) : SendBuf := newFull maxData maxDeadline defaultPriority now

/-- The size of the block, as far as it is known. -/
def blockSize (s : SendBuf) : ℕ := s.finOff.getD s.off

/-- The outgoing flow control capacity. -/
def cap (s : SendBuf) : ℕ := s.maxData - s.off

/-- The highest contiguously acked offset. -/
def ackOff (s : SendBuf) : ℕ :=
  match s.acked.inner with
  | (0, stop) :: _ => stop
  | _ => 0

/-- The final offset forbids to queue `buf`. -/
def Refuses (s : SendBuf) (buf : RangeBuf) : Prop :=
  ∃ finOff ∈ s.finOff, finOff < buf.maxOff ∨ buf.maxOff = finOff ∧ buf.fin = false

instance (s : SendBuf) (buf : RangeBuf) : Decidable (s.Refuses buf) :=
  match h : s.finOff with
  | none => .isFalse (by simp [Refuses, h])
  | some finOff =>
    decidable_of_iff (finOff < buf.maxOff ∨ buf.maxOff = finOff ∧ buf.fin = false)
      (by simp [Refuses, h])

/-- Inserts the given chunk of data in the buffer. -/
def push (s : SendBuf) (buf : RangeBuf) : Except Error SendBuf :=
  -- Can't write past final offset, can't "undo" final offset.
  if s.Refuses buf then .error .finalSize
  else if s.isShutdown then .ok s
  else
    let s := if buf.fin then { s with finOff := some buf.maxOff } else s
    -- Don't queue data that was already fully acked.
    if buf.maxOff ≤ s.ackOff then .ok s
    else
      let s := { s with len := s.len + buf.len }
      if buf.isEmpty then .ok s else .ok { s with data := s.data.push buf }

/-- The loop of `pushSlice`: splits what is written into chunks. -/
def pushChunks (fin : Bool) : ℕ → List UInt8 → Program Error SendBuf Unit
  | 0, _ => pure ()
  | fuel + 1, data =>
    if data.isEmpty then pure ()
    else do
      let s ← get
      let chunk := data.take maxWriteSize
      let rest := data.drop maxWriteSize
      let s ← Program.ofExcept (s.push ⟨chunk, s.off, rest.isEmpty && fin⟩)
      set { s with off := s.off + chunk.length }
      pushChunks fin fuel rest

/-- Inserts the given slice of data at the end of the buffer, and returns the number
of bytes that were stored. -/
def pushSlice (data : List UInt8) (fin : Bool) : Program Error SendBuf ℕ := do
  let s ← get
  -- Since we won't write any more data anyway, pretend that we sent all data.
  if s.isShutdown then pure data.length
  else if data.isEmpty then
    let s ← Program.ofExcept (s.push ⟨[], s.off, fin⟩)
    set s
    pure 0
  else
    -- Truncate the input to the stream's capacity; then the fin flag is cleared.
    let kept := data.take s.cap
    pushChunks (fin && decide (data.length ≤ s.cap)) kept.length kept
    pure kept.length

/-- Returns true if there is data to be written. -/
def ready (s : SendBuf) : Bool := !s.data.toList.isEmpty

/-- The lowest offset of data buffered. -/
def lowOff (s : SendBuf) : ℕ := (s.data.peek.map RangeBuf.off).getD s.off

/-- Removes the first chunk, or as much of it as `cap` bytes and the peer's limit
allow. -/
def popChunk (s : SendBuf) (cap : ℕ) : Option (RangeBuf × SendBuf) :=
  match s.data.pop with
  | none => none
  | some (buf, data) =>
    let cut := buf.splitOff (min cap (s.maxData - buf.off))
    if cap < buf.len ∨ s.maxData < buf.maxOff then
      some (cut.1, { s with data := data.push cut.2, len := s.len - cut.1.len })
    else some (buf, { s with data := data, len := s.len - buf.len })

/-- The loop of `pop`: appends contiguous chunks to `out`, which ends at `outOff`. -/
def popLoop : ℕ → ℕ → ℕ → RangeBuf → SendBuf → RangeBuf × SendBuf
  | 0, _, _, out, s => (out, s)
  | fuel + 1, cap, outOff, out, s =>
    if 0 < cap ∧ s.ready ∧ s.lowOff = outOff ∧ s.lowOff < s.maxData then
      match s.popChunk cap with
      | none => (out, s)
      | some (buf, s) =>
        popLoop fuel (cap - buf.len) buf.maxOff
          { out with off := if out.isEmpty then buf.off else out.off, data := out.data ++ buf.data }
            s
    else (out, s)

/-- Returns at most `cap` bytes of contiguous data as a single `RangeBuf`. -/
def pop (s : SendBuf) (cap : ℕ) : RangeBuf × SendBuf :=
  let popped := popLoop (s.data.toList.length + 1) cap s.lowOff ⟨[], s.off, false⟩ s
  -- Set the fin flag by matching the output's end against the final offset.
  ({ popped.1 with fin := popped.2.finOff == some popped.1.maxOff }, popped.2)

/-- Updates the `maxData` limit to the given value. -/
def updateMaxData (s : SendBuf) (maxData : ℕ) : SendBuf :=
  { s with maxData := max s.maxData maxData }

/-- Records that the peer has acked `len` bytes from `off` on. -/
def ack (s : SendBuf) (off len : ℕ) : SendBuf :=
  { s with acked := s.acked.insert (off, off + len) }

/-- Shuts down sending data. -/
def shutdown (s : SendBuf) : Except Error SendBuf :=
  if s.isShutdown then .error .done else .ok { s with isShutdown := true, data := .empty }

/-- Returns true if all data in the stream has been written. -/
def isFin (s : SendBuf) : Bool := s.finOff == some s.off

/-- Returns true if the final size is known and the peer has acked all data up to it. -/
def isComplete (s : SendBuf) : Bool := s.finOff.any fun finOff => s.acked.eqRange (0, finOff)

/-! ### The invariant -/

/-- The invariant of every buffer that the operations build: what is queued was written,
nothing is written beyond the final offset, and nothing is queued after a shutdown. -/
structure WF (s : SendBuf) : Prop where
  le_off : ∀ b ∈ s.data.toList, b.maxOff ≤ s.off
  nonempty : ∀ b ∈ s.data.toList, 0 < b.len
  fin : ∀ f ∈ s.finOff, f = s.off
  drained : s.isShutdown = true → s.data.toList = []

/-- A new buffer is well formed. -/
theorem newFull_wf (maxData deadline priority now : ℕ) :
    (newFull maxData deadline priority now).WF where
  le_off _ hb := by cases hb
  nonempty _ hb := by cases hb
  fin _ hf := by cases hf
  drained _ := rfl

/-- What no operation on the queue changes. -/
structure SameRest (s s' : SendBuf) : Prop where
  maxData : s'.maxData = s.maxData
  isShutdown : s'.isShutdown = s.isShutdown
  acked : s'.acked = s.acked
  isNew : s'.isNew = s.isNew
  deadline : s'.deadline = s.deadline
  priority : s'.priority = s.priority
  startTime : s'.startTime = s.startTime

theorem SameRest.refl (s : SendBuf) : s.SameRest s := ⟨rfl, rfl, rfl, rfl, rfl, rfl, rfl⟩

theorem SameRest.trans {s s' s'' : SendBuf} (h : s.SameRest s') (h' : s'.SameRest s'') :
    s.SameRest s'' where
  maxData := h'.maxData.trans h.maxData
  isShutdown := h'.isShutdown.trans h.isShutdown
  acked := h'.acked.trans h.acked
  isNew := h'.isNew.trans h.isNew
  deadline := h'.deadline.trans h.deadline
  priority := h'.priority.trans h.priority
  startTime := h'.startTime.trans h.startTime

/-- What is acknowledged in a row does not change. -/
theorem SameRest.ackOff {s s' : SendBuf} (h : s.SameRest s') : s'.ackOff = s.ackOff := by
  unfold SendBuf.ackOff
  rw [h.acked]

/-! ### Pushing a chunk -/

/-- The chunk was written before, and its `fin` flag is that of the buffer. -/
structure Fits (s : SendBuf) (buf : RangeBuf) : Prop where
  maxOff_le : buf.maxOff ≤ s.off
  fin : buf.fin = true → s.finOff = some buf.maxOff

/-- What a push that is not refused does. -/
structure Stored (s : SendBuf) (buf : RangeBuf) (s' : SendBuf) : Prop where
  off : s'.off = s.off
  finOff : s'.finOff =
    if s.isShutdown = false ∧ buf.fin = true then some buf.maxOff else s.finOff
  data : ∀ b, b ∈ s'.data.toList ↔
    b ∈ s.data.toList ∨ b = buf ∧ s.isShutdown = false ∧ s.ackOff < buf.maxOff ∧ 0 < buf.len
  rest : s.SameRest s'

/-- Data beyond the final size is refused. -/
theorem push_of_refuses {s : SendBuf} {buf : RangeBuf} (h : s.Refuses buf) :
    s.push buf = .error .finalSize := if_pos h

/-- Remembers the final offset that a chunk with a `fin` flag sets. -/
def noteFin (s : SendBuf) (buf : RangeBuf) : SendBuf :=
  if buf.fin then { s with finOff := some buf.maxOff } else s

/-- Adds a chunk to the queue. -/
def enqueue (s : SendBuf) (buf : RangeBuf) : SendBuf :=
  if buf.isEmpty then { s with len := s.len + buf.len }
  else { s with len := s.len + buf.len, data := s.data.push buf }

/-- Data is queued unless all of it is acknowledged. -/
theorem push_of_accepts {s : SendBuf} {buf : RangeBuf} (h : ¬ s.Refuses buf)
    (hshut : s.isShutdown = false) :
    s.push buf = .ok (if buf.maxOff ≤ (s.noteFin buf).ackOff then s.noteFin buf
      else (s.noteFin buf).enqueue buf) := by
  unfold push enqueue noteFin
  rw [if_neg h, if_neg (by simp [hshut])]
  dsimp only
  split_ifs <;> rfl

@[simp] theorem noteFin_off (s : SendBuf) (buf : RangeBuf) : (s.noteFin buf).off = s.off := by
  unfold noteFin
  split_ifs <;> rfl

@[simp] theorem noteFin_data (s : SendBuf) (buf : RangeBuf) : (s.noteFin buf).data = s.data := by
  unfold noteFin
  split_ifs <;> rfl

/-- The end of the data is noted. -/
theorem noteFin_finOff (s : SendBuf) (buf : RangeBuf) :
    (s.noteFin buf).finOff = if buf.fin = true then some buf.maxOff else s.finOff := by
  unfold noteFin
  split_ifs <;> rfl

/-- Only the end of the data is noted. -/
theorem noteFin_rest (s : SendBuf) (buf : RangeBuf) : s.SameRest (s.noteFin buf) := by
  unfold noteFin
  split_ifs
  · exact ⟨rfl, rfl, rfl, rfl, rfl, rfl, rfl⟩
  · exact .refl s

@[simp] theorem enqueue_off (s : SendBuf) (buf : RangeBuf) : (s.enqueue buf).off = s.off := by
  unfold enqueue
  split_ifs <;> rfl

@[simp] theorem enqueue_finOff (s : SendBuf) (buf : RangeBuf) :
    (s.enqueue buf).finOff = s.finOff := by
  unfold enqueue
  split_ifs <;> rfl

private theorem enqueue_rest (s : SendBuf) (buf : RangeBuf) : s.SameRest (s.enqueue buf) := by
  unfold enqueue
  split_ifs <;> exact ⟨rfl, rfl, rfl, rfl, rfl, rfl, rfl⟩

private theorem mem_enqueue {s : SendBuf} {buf b : RangeBuf} :
    b ∈ (s.enqueue buf).data.toList ↔ b ∈ s.data.toList ∨ b = buf ∧ 0 < buf.len := by
  unfold enqueue
  by_cases hempty : buf.isEmpty = true
  · have hlen : buf.len = 0 := RangeBuf.isEmpty_iff.mp hempty
    simp [hempty, hlen]
  · have hlen : 0 < buf.len := Nat.pos_of_ne_zero (mt RangeBuf.isEmpty_iff.mpr hempty)
    simp [hempty, hlen, or_comm]

/-- What is not refused is stored. -/
theorem push_ok {s : SendBuf} {buf : RangeBuf} (h : ¬ s.Refuses buf) :
    ∃ s', s.push buf = .ok s' ∧ Stored s buf s' := by
  by_cases hshut : s.isShutdown = true
  · refine ⟨s, ?_, rfl, by simp [hshut], by simp [hshut], .refl s⟩
    rw [push, if_neg h, if_pos hshut]
  have hshut := Bool.not_eq_true _ |>.mp hshut
  have hack : (s.noteFin buf).ackOff = s.ackOff := (s.noteFin_rest buf).ackOff
  have hfin := s.noteFin_finOff buf
  refine ⟨_, push_of_accepts h hshut, ?_⟩
  rw [hack]
  by_cases hacked : buf.maxOff ≤ s.ackOff
  · rw [if_pos hacked]
    exact ⟨by simp, by simp [hfin, hshut], by simp [hacked.not_gt], s.noteFin_rest buf⟩
  · rw [if_neg hacked]
    refine ⟨by simp, by simp [hfin, hshut], fun b => ?_,
      (s.noteFin_rest buf).trans (enqueue_rest _ buf)⟩
    rw [mem_enqueue]
    simp [hshut, not_le.mp hacked]

/-- Data is stored unless it is refused. -/
theorem push_spec {s s' : SendBuf} {buf : RangeBuf} (h : s.push buf = .ok s') :
    ¬ s.Refuses buf ∧ Stored s buf s' := by
  by_cases href : s.Refuses buf
  · rw [push_of_refuses href] at h
    cases h
  · obtain ⟨s'', heq, hstored⟩ := push_ok href
    obtain rfl := Except.ok.inj (heq.symm.trans h)
    exact ⟨href, hstored⟩

/-- Without FIN, the buffer stays open. -/
theorem push_open {s s' : SendBuf} {buf : RangeBuf} (h : s.push buf = .ok s')
    (hopen : s.finOff = none) (hfin : buf.fin = false) : s'.finOff = none := by
  rw [(push_spec h).2.finOff]
  simp [hopen, hfin]

/-- Of what was written before, only a chunk without `fin` flag that ends at the final
offset is refused. -/
theorem Fits.refuses_iff {s : SendBuf} {buf : RangeBuf} (wf : s.WF) (h : s.Fits buf) :
    s.Refuses buf ↔ s.finOff = some buf.maxOff ∧ buf.fin = false := by
  constructor
  · rintro ⟨f, hf, hlt | ⟨heq, hfin⟩⟩
    · have := wf.fin f hf
      have := h.maxOff_le
      omega
    · exact ⟨heq ▸ hf, hfin⟩
  · rintro ⟨hf, hfin⟩
    exact ⟨buf.maxOff, hf, .inr ⟨rfl, hfin⟩⟩

/-- Data that fits does not change the final size. -/
theorem Fits.finOff_eq {s s' : SendBuf} {buf : RangeBuf} (h : s.Fits buf) (hs : Stored s buf s') :
    s'.finOff = s.finOff := by
  rw [hs.finOff]
  split_ifs with hfin
  · exact (h.fin hfin.2).symm
  · rfl

/-- Data up to the offset of the buffer keeps it well formed. -/
theorem Stored.wf {s s' : SendBuf} {buf : RangeBuf} (hs : Stored s buf s') (wf : s.WF)
    (hbuf : buf.maxOff ≤ s.off) (hfin : ∀ f ∈ s'.finOff, f = s.off) : s'.WF where
  le_off b hb := by
    rw [hs.off]
    rcases (hs.data b).mp hb with hb | ⟨rfl, -⟩
    · exact wf.le_off b hb
    · exact hbuf
  nonempty b hb := by
    rcases (hs.data b).mp hb with hb | ⟨rfl, -, -, hlen⟩
    · exact wf.nonempty b hb
    · exact hlen
  fin f hf := by
    rw [hs.off]
    exact hfin f hf
  drained hshut := by
    rw [hs.rest.isShutdown] at hshut
    refine List.eq_nil_iff_forall_not_mem.mpr fun b hb => ?_
    rcases (hs.data b).mp hb with hb | ⟨_, hnot, _⟩
    · rw [wf.drained hshut] at hb
      cases hb
    · rw [hshut] at hnot
      cases hnot

/-- Data that fits keeps the buffer well formed. -/
theorem Stored.wf_of_fits {s s' : SendBuf} {buf : RangeBuf} (hs : Stored s buf s') (wf : s.WF)
    (h : s.Fits buf) : s'.WF :=
  hs.wf wf h.maxOff_le fun f hf => wf.fin f (h.finOff_eq hs ▸ hf)

/-! ### Writing -/

/-- The buffer `s'` is `s` with `n` more bytes written, after which the stream ends if
`fin` holds. -/
structure Extended (s : SendBuf) (n : ℕ) (fin : Bool) (s' : SendBuf) : Prop where
  open_ : n ≠ 0 → s.finOff = none
  off : s'.off = s.off + n
  finOff : s'.finOff = if fin then some s'.off else s.finOff
  data : ∀ b, b ∈ s'.data.toList → b ∈ s.data.toList ∨ s.off ≤ b.off ∧ b.maxOff ≤ s'.off ∧ 0 < b.len
  kept : ∀ b ∈ s.data.toList, b ∈ s'.data.toList
  rest : s.SameRest s'

theorem Extended.refl (s : SendBuf) : s.Extended 0 false s where
  open_ h := absurd rfl h
  off := rfl
  finOff := rfl
  data _ := .inl
  kept _ := id
  rest := .refl s

theorem Extended.trans {s s' s'' : SendBuf} {n k : ℕ} {fin : Bool} (h : s.Extended n false s')
    (h' : s'.Extended k fin s'') (hopen : s.finOff = none) : s.Extended (n + k) fin s'' where
  open_ _ := hopen
  off := by rw [h'.off, h.off, Nat.add_assoc]
  finOff := by rw [h'.finOff, h.finOff]; rfl
  data b hb := by
    have hoff := h.off
    have hoff' := h'.off
    rcases h'.data b hb with hb | ⟨hlow, hhigh, hlen⟩
    · rcases h.data b hb with hb | ⟨hlow, hhigh, hlen⟩
      · exact .inl hb
      · exact .inr ⟨hlow, by omega, hlen⟩
    · exact .inr ⟨by omega, hhigh, hlen⟩
  kept b hb := h'.kept b (h.kept b hb)
  rest := h.rest.trans h'.rest

/-- New data keeps the buffer well formed. -/
theorem Extended.wf {s s' : SendBuf} {n : ℕ} {fin : Bool} (h : s.Extended n fin s') (wf : s.WF)
    (hshut : s.isShutdown = false) : s'.WF where
  le_off b hb := by
    rcases h.data b hb with hb | ⟨_, hle, _⟩
    · have := wf.le_off b hb
      have := h.off
      omega
    · exact hle
  nonempty b hb := by
    rcases h.data b hb with hb | ⟨_, _, hlen⟩
    · exact wf.nonempty b hb
    · exact hlen
  fin f hf := by
    rw [h.finOff] at hf
    split_ifs at hf with hfin
    · exact (Option.some.inj hf).symm
    · have hn : n = 0 := by
        by_contra hn
        rw [h.open_ hn] at hf
        cases hf
      rw [h.off, hn, Nat.add_zero]
      exact wf.fin f hf
  drained h' := by
    rw [h.rest.isShutdown, hshut] at h'
    cases h'

/-- A chunk that was written fits into the buffer when more is written. -/
theorem Fits.extended {s s' : SendBuf} {buf : RangeBuf} {n : ℕ} {fin : Bool} (hbuf : s.Fits buf)
    (wf : s.WF) (h : s.Extended n fin s') : s'.Fits buf where
  maxOff_le := by
    rw [h.off]
    exact hbuf.maxOff_le.trans (Nat.le_add_right _ _)
  fin hfin := by
    have hf := hbuf.fin hfin
    have hn : n = 0 := by
      by_contra hn
      rw [h.open_ hn] at hf
      cases hf
    rw [h.finOff, hf, h.off, hn, wf.fin _ hf]
    split_ifs <;> rfl

/-- Writing a chunk after everything that was written. -/
theorem Stored.extended {s s' : SendBuf} {chunk : List UInt8} {fin : Bool}
    (h : Stored s ⟨chunk, s.off, fin⟩ s') (hopen : chunk ≠ [] → s.finOff = none)
    (hshut : s.isShutdown = false) :
    s.Extended chunk.length fin { s' with off := s.off + chunk.length } where
  open_ hn := hopen (by rintro rfl; exact hn rfl)
  off := rfl
  finOff := by
    change s'.finOff = _
    rw [h.finOff]
    cases fin <;> simp [hshut, RangeBuf.maxOff, RangeBuf.len]
  data b hb := by
    rcases (h.data b).mp hb with hb | ⟨rfl, -, -, hlen⟩
    · exact .inl hb
    · exact .inr ⟨le_rfl, le_rfl, hlen⟩
  kept b hb := (h.data b).mpr (.inl hb)
  rest := h.rest.trans ⟨rfl, rfl, rfl, rfl, rfl, rfl, rfl⟩

private theorem pushChunks_ends {fuel : ℕ} {fin : Bool} {data : List UInt8} {s : SendBuf}
    (hopen : s.finOff = none) (hshut : s.isShutdown = false) (hfuel : data.length ≤ fuel) :
    (pushChunks fin fuel data).Ends s
      (fun _ s' => s.Extended data.length (!data.isEmpty && fin) s') fun _ _ => False := by
  induction fuel generalizing s data with
  | zero =>
    obtain rfl := List.eq_nil_of_length_eq_zero (Nat.le_zero.mp hfuel)
    exact .refl s
  | succ fuel ih =>
    rw [pushChunks, Program.ends_ite]
    refine ⟨fun hempty => ?_, fun hne => ?_⟩
    · obtain rfl := List.isEmpty_iff.mp hempty
      exact .refl s
    rw [Bool.not_eq_true] at hne
    set chunk := data.take maxWriteSize with hchunk
    set rest := data.drop maxWriteSize with hrest
    have hlen : chunk.length + rest.length = data.length := by
      rw [hchunk, hrest, ← List.length_append, List.take_append_drop]
    have hpos : 0 < chunk.length := by
      have : 0 < data.length := List.length_pos_iff.mpr (by simpa using hne)
      rw [hchunk, List.length_take, maxWriteSize]
      omega
    rw [Program.ends_bind, Program.ends_get]
    dsimp only
    obtain ⟨s₁, hpush, hstored⟩ := push_ok
      (by simp [Refuses, hopen] : ¬ s.Refuses ⟨chunk, s.off, rest.isEmpty && fin⟩)
    have hext := hstored.extended (fun _ => hopen) hshut
    rw [hpush]
    simp only [Program.ofExcept_ok, pure_bind, Program.ends_bind, Program.ends_set]
    have hoff : s₁.off = s.off := hstored.off
    rw [hoff]
    cases hlast : rest.isEmpty with
    | true =>
      -- the last chunk carries the fin flag
      obtain hnil := List.isEmpty_iff.mp hlast
      rw [hlast, Bool.true_and] at hext
      rw [hnil, List.length_nil, Nat.add_zero] at hlen
      have hend (fuel : ℕ) : pushChunks fin fuel [] = pure () := by cases fuel <;> rfl
      rw [hnil, hend, Program.ends_pure, hne, Bool.not_false, Bool.true_and, ← hlen]
      exact hext
    | false =>
      rw [hlast, Bool.false_and] at hext
      have hopen₁ := hext.finOff
      rw [if_neg Bool.false_ne_true, hopen] at hopen₁
      refine (ih hopen₁ (hext.rest.isShutdown.trans hshut) (by omega)).mono ?_ fun _ _ => id
      intro _ s₂ h₂
      rw [hlast] at h₂
      have := hext.trans h₂ hopen
      rwa [hlen, ← hne] at this

/-- Nothing is written beyond the final offset. -/
theorem pushChunks_closed {fin : Bool} {data : List UInt8} {s : SendBuf}
    (hend : ∀ f ∈ s.finOff, f = s.off) (hfin : s.finOff ≠ none) (hdata : data ≠ []) :
    (pushChunks fin data.length data).Ends s (fun _ _ => False)
      fun e s' => e = .error .finalSize ∧ s' = s := by
  obtain ⟨f, hf⟩ := Option.ne_none_iff_exists'.mp hfin
  obtain ⟨byte, bytes, rfl⟩ := List.exists_cons_of_ne_nil hdata
  have href (fin : Bool) : s.Refuses ⟨(byte :: bytes).take maxWriteSize, s.off, fin⟩ := by
    refine ⟨f, hf, .inl ?_⟩
    have hlen : 0 < ((byte :: bytes).take maxWriteSize).length := by
      rw [List.length_take, List.length_cons, maxWriteSize]
      omega
    rw [hend f hf]
    exact Nat.lt_add_of_pos_right hlen
  rw [List.length_cons, pushChunks, Program.ends_ite]
  refine ⟨fun hempty => by simp at hempty, fun _ => ?_⟩
  rw [Program.ends_bind, Program.ends_get]
  dsimp only
  rw [push_of_refuses (href _), Program.ends_bind, Program.ofExcept_error, Program.ends_fail]
  exact ⟨rfl, rfl⟩

/-- What writing does to a buffer: after a shutdown nothing, before it as much is stored
as the peer's limit allows. -/
inductive Written (s : SendBuf) (data : List UInt8) (fin : Bool) : ℕ → SendBuf → Prop
  | dropped (h : s.isShutdown = true) : Written s data fin data.length s
  | stored {n : ℕ} {s' : SendBuf} (hshut : s.isShutdown = false) (hn : n = min s.cap data.length)
      (extended : s.Extended n (fin && decide (data.length ≤ s.cap)) s') :
      Written s data fin n s'

/-- New data is written as far as there is credit, unless the final size forbids it. -/
theorem pushSlice_ends (data : List UInt8) (fin : Bool) {s : SendBuf}
    (hend : ∀ f ∈ s.finOff, f = s.off) :
    (pushSlice data fin).Ends s (s.Written data fin)
      fun e s' => e = .error .finalSize ∧ s' = s ∧ s.finOff ≠ none := by
  rw [pushSlice, Program.ends_bind, Program.ends_get, Program.ends_ite]
  refine ⟨fun hshut => .dropped hshut, fun hshut => ?_⟩
  have hshut := Bool.not_eq_true _ |>.mp hshut
  rw [Program.ends_ite]
  refine ⟨fun hempty => ?_, fun hne => ?_⟩
  · obtain rfl := List.isEmpty_iff.mp hempty
    by_cases href : s.Refuses ⟨[], s.off, fin⟩
    · rw [push_of_refuses href]
      obtain ⟨f, hf, -⟩ := href
      exact ⟨rfl, rfl, Option.ne_none_iff_exists'.mpr ⟨f, hf⟩⟩
    · obtain ⟨s', hpush, hstored⟩ := push_ok href
      rw [hpush]
      have h := hstored.extended (fun h => absurd rfl h) hshut
      refine .stored hshut (by simp) ?_
      have hoff : s' = { s' with off := s.off + 0 } := by rw [Nat.add_zero, ← hstored.off]
      rw [hoff]
      simpa using h
  · set kept := data.take s.cap with hkept
    have hn : kept.length = min s.cap data.length := by rw [hkept, List.length_take]
    dsimp only
    rw [Program.ends_bind]
    by_cases hopen : s.finOff = none ∨ kept = []
    · refine Program.Ends.mono (Q := fun _ s' => s.Extended kept.length
        (!kept.isEmpty && (fin && decide (data.length ≤ s.cap))) s') (E := fun _ _ => False) ?_ ?_
        fun _ _ => False.elim
      · rcases hopen with hopen | hnil
        · exact pushChunks_ends hopen hshut le_rfl
        · rw [hnil]
          exact .refl s
      · intro _ s' h
        rw [Program.ends_pure]
        refine .stored hshut hn ?_
        convert h using 1
        cases hnil : kept.isEmpty with
        | false => rfl
        | true =>
          -- nothing is kept, although there is data
          have hcap : s.cap = 0 := by
            rw [List.isEmpty_iff.mp hnil, List.length_nil] at hn
            have : 0 < data.length := List.length_pos_iff.mpr (by simpa using hne)
            omega
          simp [hcap, List.isEmpty_iff.not.mp hne]
    · push Not at hopen
      obtain ⟨hfin, hkeep⟩ := hopen
      exact (pushChunks_closed hend hfin hkeep).mono (fun _ _ => False.elim) fun _ _ h =>
        ⟨h.1, h.2, hfin⟩

/-- A buffer without a final offset has none until a `fin` flag is written. -/
theorem pushSlice_open (data : List UInt8) {s : SendBuf} (hopen : s.finOff = none) :
    (pushSlice data false).Ends s (fun _ s' => s'.finOff = none) fun _ s' => s'.finOff = none := by
  refine (pushSlice_ends data false (by simp [hopen])).mono (fun n s' h => ?_) fun _ _ h => ?_
  · cases h with
    | dropped _ => exact hopen
    | stored _ _ extended =>
      rw [extended.finOff]
      exact hopen
  · exact absurd hopen h.2.2

/-! ### Taking data for a packet -/

/-- Only the queue changes, and what remains there was there before. -/
structure Drained (s s' : SendBuf) : Prop where
  off : s'.off = s.off
  finOff : s'.finOff = s.finOff
  data : ∀ b ∈ s'.data.toList, 0 < b.len ∧ ∃ b₀ ∈ s.data.toList, b.Piece b₀
  rest : s.SameRest s'

theorem Drained.refl {s : SendBuf} (wf : s.WF) : s.Drained s :=
  ⟨rfl, rfl, fun b hb => ⟨wf.nonempty b hb, b, hb, .refl b⟩, .refl s⟩

theorem Drained.trans {s s' s'' : SendBuf} (h : s.Drained s') (h' : s'.Drained s'') :
    s.Drained s'' where
  off := h'.off.trans h.off
  finOff := h'.finOff.trans h.finOff
  data b hb := by
    obtain ⟨hlen, b₁, hb₁, hpiece⟩ := h'.data b hb
    obtain ⟨_, b₀, hb₀, hpiece₀⟩ := h.data b₁ hb₁
    exact ⟨hlen, b₀, hb₀, hpiece.trans hpiece₀⟩
  rest := h.rest.trans h'.rest

/-- A drained buffer is well formed. -/
theorem Drained.wf {s s' : SendBuf} (h : s.Drained s') (wf : s.WF) : s'.WF where
  le_off b hb := by
    obtain ⟨_, b₀, hb₀, hpiece⟩ := h.data b hb
    rw [h.off]
    exact hpiece.maxOff_le.trans (wf.le_off b₀ hb₀)
  nonempty b hb := (h.data b hb).1
  fin f hf := by
    rw [h.off]
    exact wf.fin f (h.finOff ▸ hf)
  drained hshut := by
    refine List.eq_nil_iff_forall_not_mem.mpr fun b hb => ?_
    obtain ⟨_, b₀, hb₀, _⟩ := h.data b hb
    rw [wf.drained (h.rest.isShutdown ▸ hshut)] at hb₀
    cases hb₀

/-- A chunk begins at the lowest offset, and has no more bytes than asked for. -/
theorem popChunk_spec {s : SendBuf} (wf : s.WF) {cap : ℕ} (hcap : 0 < cap) (hready : s.ready = true)
    (hlow : s.lowOff < s.maxData) :
    ∃ buf s', s.popChunk cap = some (buf, s') ∧ s.Drained s' ∧ buf.off = s.lowOff ∧ 0 < buf.len ∧
      buf.len ≤ cap ∧ buf.maxOff ≤ s.off ∧ buf.maxOff ≤ s.maxData := by
  cases hpop : s.data.pop with
  | none =>
    rw [ready, BinaryHeap.pop_eq_none_iff.mp hpop] at hready
    cases hready
  | some front =>
    obtain ⟨b, rest⟩ := front
    have hmem (c : RangeBuf) := BinaryHeap.mem_of_mem_pop (y := c) hpop
    have hb : b ∈ s.data.toList := (hmem b).mpr (.inl rfl)
    have hlen := wf.nonempty b hb
    have hle := wf.le_off b hb
    have hmax : b.maxOff = b.off + b.len := rfl
    have hoff : b.off = s.lowOff := by
      rw [lowOff, BinaryHeap.peek_of_pop hpop]
      rfl
    have hkept (c : RangeBuf) (hc : c ∈ rest.toList) :
        0 < c.len ∧ ∃ b₀ ∈ s.data.toList, c.Piece b₀ :=
      have hc := (hmem c).mpr (.inr hc)
      ⟨wf.nonempty c hc, c, hc, .refl c⟩
    simp only [popChunk, hpop]
    by_cases hcut : cap < b.len ∨ s.maxData < b.maxOff
    · -- the peer's limit or the packet's room lies inside of the chunk
      rw [if_pos hcut]
      have hidx : min cap (s.maxData - b.off) ≤ b.len := by omega
      have hpiece := b.splitOff_snd_piece hidx
      refine ⟨_, _, rfl, ⟨rfl, rfl, fun c hc => ?_, ⟨rfl, rfl, rfl, rfl, rfl, rfl, rfl⟩⟩, ?_⟩
      · rcases BinaryHeap.mem_push.mp hc with rfl | hc
        · refine ⟨?_, b, hb, hpiece⟩
          rw [RangeBuf.splitOff_snd_len]
          omega
        · exact hkept c hc
      · rw [RangeBuf.splitOff_fst_maxOff hidx, RangeBuf.splitOff_fst_len, RangeBuf.splitOff_fst_off]
        exact ⟨hoff, by omega, by omega, by omega, by omega⟩
    · rw [if_neg hcut]
      refine ⟨_, _, rfl, ⟨rfl, rfl, hkept, ⟨rfl, rfl, rfl, rfl, rfl, rfl, rfl⟩⟩, hoff, hlen, ?_⟩
      exact ⟨by omega, hle, by omega⟩

/-- Chunks are taken in order, until the packet is full. -/
theorem popLoop_spec {fuel cap outOff : ℕ} {out out' : RangeBuf} {s s' : SendBuf} (wf : s.WF)
    (hout : 0 < out.len → out.maxOff = outOff) (hle : out.maxOff ≤ s.off)
    (hlimit : 0 < out.len → out.maxOff ≤ s.maxData)
    (h : popLoop fuel cap outOff out s = (out', s')) :
    s.Drained s' ∧ out'.maxOff ≤ s.off ∧ out'.len ≤ out.len + cap ∧
      (0 < out'.len → out'.maxOff ≤ s.maxData) := by
  induction fuel generalizing cap outOff out s with
  | zero =>
    cases h
    exact ⟨.refl wf, hle, Nat.le_add_right _ _, hlimit⟩
  | succ fuel ih =>
    rw [popLoop] at h
    by_cases hmore : 0 < cap ∧ s.ready ∧ s.lowOff = outOff ∧ s.lowOff < s.maxData
    · rw [if_pos hmore] at h
      obtain ⟨hcap, hready, hoff, hlow⟩ := hmore
      obtain ⟨buf, s₁, hpop, hdrained, hbuf, hlen, hlenle, hbufle, hbuflimit⟩ :=
        popChunk_spec wf hcap hready hlow
      simp only [hpop] at h
      change popLoop fuel (cap - buf.len) buf.maxOff (out.joined buf out.fin) s₁ = _ at h
      -- the chunk continues the output, or starts it
      have hnext : (out.joined buf out.fin).maxOff = buf.maxOff := by
        apply RangeBuf.joined_maxOff
        intro hpos
        rw [hbuf, hoff]
        exact hout hpos
      obtain ⟨hdrained', hle', hlen', hlimit'⟩ := ih (hdrained.wf wf) (fun _ => hnext)
        (by rw [hnext, hdrained.off]; exact hbufle)
        (fun _ => by rw [hnext, hdrained.rest.maxData]; exact hbuflimit) h
      refine ⟨hdrained.trans hdrained', hdrained.off ▸ hle', ?_, ?_⟩
      · rw [RangeBuf.joined_len] at hlen'
        omega
      · rw [hdrained.rest.maxData] at hlimit'
        exact hlimit'
    · rw [if_neg hmore] at h
      cases h
      exact ⟨.refl wf, hle, Nat.le_add_right _ _, hlimit⟩

/-- Taking out a chunk changes neither the final offset nor whether the stream was shut down. -/
theorem popChunk_same {s s' : SendBuf} {cap : ℕ} {buf : RangeBuf}
    (h : s.popChunk cap = some (buf, s')) :
    s'.finOff = s.finOff ∧ s'.isShutdown = s.isShutdown := by
  unfold popChunk at h
  cases hpop : s.data.pop with
  | none =>
    rw [hpop] at h
    cases h
  | some front =>
    simp only [hpop] at h
    split_ifs at h <;> cases h <;> exact ⟨rfl, rfl⟩

/-- The loop changes neither the final size nor whether the buffer is shut down. -/
theorem popLoop_same (fuel cap outOff : ℕ) (out : RangeBuf) (s : SendBuf) :
    (popLoop fuel cap outOff out s).2.finOff = s.finOff ∧
      (popLoop fuel cap outOff out s).2.isShutdown = s.isShutdown := by
  induction fuel generalizing cap outOff out s with
  | zero => exact ⟨rfl, rfl⟩
  | succ fuel ih =>
    rw [popLoop]
    split
    · cases hpop : s.popChunk cap with
      | none => exact ⟨rfl, rfl⟩
      | some r =>
        obtain ⟨hfinOff, hshut⟩ := popChunk_same hpop
        obtain ⟨hfinOff', hshut'⟩ := ih (cap - r.1.len) r.1.maxOff (out.joined r.1 out.fin) r.2
        exact ⟨hfinOff'.trans hfinOff, hshut'.trans hshut⟩
    · exact ⟨rfl, rfl⟩

private theorem popLoop_len_ge (fuel cap outOff : ℕ) (out : RangeBuf) (s : SendBuf) :
    out.len ≤ (popLoop fuel cap outOff out s).1.len := by
  induction fuel generalizing cap outOff out s with
  | zero => exact le_rfl
  | succ fuel ih =>
    rw [popLoop]
    split
    · cases s.popChunk cap with
      | none => exact le_rfl
      | some r =>
        refine le_trans ?_ (ih _ _ _ _)
        simp only [RangeBuf.len, List.length_append]
        omega
    · exact le_rfl

private theorem popChunk_len_le {s s' : SendBuf} {cap : ℕ} {buf : RangeBuf}
    (h : s.popChunk cap = some (buf, s')) : buf.len ≤ cap := by
  unfold popChunk at h
  cases hpop : s.data.pop with
  | none =>
    rw [hpop] at h
    cases h
  | some front =>
    simp only [hpop] at h
    split_ifs at h with hcut
    · cases h
      simp only [RangeBuf.splitOff, RangeBuf.len, List.length_take]
      omega
    · cases h
      omega

/-- A chunk begins at the lowest offset. -/
theorem popChunk_off {s s' : SendBuf} {cap : ℕ} {buf : RangeBuf}
    (h : s.popChunk cap = some (buf, s')) : buf.off = s.lowOff := by
  unfold popChunk at h
  cases hpop : s.data.pop with
  | none =>
    rw [hpop] at h
    cases h
  | some front =>
    have hlow : s.lowOff = front.1.off := by
      rw [lowOff, BinaryHeap.peek_of_pop hpop]
      rfl
    simp only [hpop] at h
    split_ifs at h <;> cases h <;> exact hlow.symm

/-- Whatever the buffer, the output keeps within the room and starts at its front. -/
theorem popLoop_bounds {fuel cap outOff low : ℕ} {out out' : RangeBuf} {s s' : SendBuf}
    (hempty : out.len = 0 → outOff = low) (hout : 0 < out.len → out.off = low)
    (h : popLoop fuel cap outOff out s = (out', s')) :
    out'.len ≤ out.len + cap ∧ (0 < out'.len → out'.off = low) ∧
      (out'.off = out.off ∨ out'.off = low) := by
  induction fuel generalizing cap outOff out s with
  | zero =>
    cases h
    exact ⟨Nat.le_add_right _ _, hout, .inl rfl⟩
  | succ fuel ih =>
    rw [popLoop] at h
    by_cases hmore : 0 < cap ∧ s.ready ∧ s.lowOff = outOff ∧ s.lowOff < s.maxData
    · rw [if_pos hmore] at h
      cases hpop : s.popChunk cap with
      | none =>
        simp only [hpop] at h
        cases h
        exact ⟨Nat.le_add_right _ _, hout, .inl rfl⟩
      | some chunk =>
        obtain ⟨buf, s₁⟩ := chunk
        simp only [hpop] at h
        have hlen := popChunk_len_le hpop
        have hoff := popChunk_off hpop
        change popLoop fuel (cap - buf.len) buf.maxOff (out.joined buf out.fin) s₁ = _ at h
        have hsum := RangeBuf.joined_len out buf out.fin
        have hlow : (out.joined buf out.fin).off = low := by
          unfold RangeBuf.joined
          by_cases h0 : out.len = 0
          · rw [if_pos (RangeBuf.isEmpty_iff.mpr h0), hoff, hmore.2.2.1, hempty h0]
          · rw [if_neg (mt RangeBuf.isEmpty_iff.mp h0), hout (Nat.pos_of_ne_zero h0)]
        -- if nothing was taken yet, the chunk is empty too, and ends where it starts
        have hnext (h0 : (out.joined buf out.fin).len = 0) : buf.maxOff = low := by
          have hbuf : buf.len = 0 := by omega
          rw [RangeBuf.maxOff, hoff, hmore.2.2.1, hempty (by omega), hbuf, Nat.add_zero]
        obtain ⟨hle, hstart, hfrom⟩ := ih hnext (fun _ => hlow) h
        exact ⟨by omega, hstart, .inr (hfrom.elim (fun h => h.trans hlow) id)⟩
    · rw [if_neg hmore] at h
      cases h
      exact ⟨Nat.le_add_right _ _, hout, .inl rfl⟩

/-- What is taken begins at the lowest offset, and is no longer than asked for. -/
theorem pop_bounds (s : SendBuf) (cap : ℕ) :
    (s.pop cap).1.len ≤ cap ∧ (0 < (s.pop cap).1.len → (s.pop cap).1.off = s.lowOff) ∧
      ((s.pop cap).1.off = s.off ∨ (s.pop cap).1.off = s.lowOff) ∧
      (s.pop cap).1.fin = (s.finOff == some (s.pop cap).1.maxOff) ∧
        (s.pop cap).2.finOff = s.finOff := by
  have hnone : ¬ 0 < (RangeBuf.mk [] s.off false).len := Nat.lt_irrefl 0
  obtain ⟨hlen, hoff, hfrom⟩ := popLoop_bounds (fun _ => (rfl : s.lowOff = s.lowOff))
    (fun h => absurd h hnone)
    (rfl : popLoop (s.data.toList.length + 1) cap s.lowOff ⟨[], s.off, false⟩ s = _)
  refine ⟨hlen.trans (Nat.zero_add cap).le, hoff, hfrom, ?_, (popLoop_same _ _ _ _ _).1⟩
  unfold pop
  simp only [popLoop_same]
  rfl

private theorem popChunk_len {s s' : SendBuf} {cap : ℕ} {buf : RangeBuf}
    (h : s.popChunk cap = some (buf, s')) :
    ∃ data, s' = { s with data := data, len := s.len - buf.len } := by
  unfold popChunk at h
  cases hpop : s.data.pop with
  | none =>
    rw [hpop] at h
    cases h
  | some front =>
    simp only [hpop] at h
    split_ifs at h <;> cases h <;> exact ⟨_, rfl⟩

/-- What waits in the buffer falls by no more than what the output grows. -/
theorem popLoop_len {fuel cap outOff : ℕ} {out out' : RangeBuf} {s s' : SendBuf}
    (h : popLoop fuel cap outOff out s = (out', s')) :
    ∃ data len, s' = { s with data := data, len := len } ∧ len ≤ s.len ∧
      s.len + out.len ≤ len + out'.len := by
  induction fuel generalizing cap outOff out s with
  | zero =>
    cases h
    exact ⟨_, _, rfl, le_rfl, le_rfl⟩
  | succ fuel ih =>
    rw [popLoop] at h
    by_cases hmore : 0 < cap ∧ s.ready ∧ s.lowOff = outOff ∧ s.lowOff < s.maxData
    · rw [if_pos hmore] at h
      cases hpop : s.popChunk cap with
      | none =>
        simp only [hpop] at h
        cases h
        exact ⟨_, _, rfl, le_rfl, le_rfl⟩
      | some chunk =>
        obtain ⟨buf, s₁⟩ := chunk
        obtain ⟨data₁, rfl⟩ := popChunk_len hpop
        simp only [hpop] at h
        have hsum := RangeBuf.joined_len out buf out.fin
        change popLoop fuel (cap - buf.len) buf.maxOff (out.joined buf out.fin) _ = _ at h
        obtain ⟨data, len, rfl, hle, hge⟩ := ih h
        refine ⟨data, len, rfl, hle.trans (Nat.sub_le _ _), ?_⟩
        dsimp only at hge
        omega
    · rw [if_neg hmore] at h
      cases h
      exact ⟨_, _, rfl, le_rfl, le_rfl⟩

/-- The bytes that are taken are no longer in the buffer. -/
theorem pop_len (s : SendBuf) (cap : ℕ) :
    ∃ data len, (s.pop cap).2 = { s with data := data, len := len } ∧ len ≤ s.len ∧
      s.len ≤ len + (s.pop cap).1.len :=
  popLoop_len (rfl : popLoop (s.data.toList.length + 1) cap s.lowOff ⟨[], s.off, false⟩ s = _)

/-- If data may be sent and there is room, some is taken out. -/
theorem pop_nonempty {s : SendBuf} (wf : s.WF) {cap : ℕ} (hcap : 0 < cap) (hready : s.ready = true)
    (hlow : s.lowOff < s.maxData) : 0 < (s.pop cap).1.len := by
  obtain ⟨buf, s', hpop, -, -, hlen, -⟩ := popChunk_spec wf hcap hready hlow
  unfold pop
  rw [popLoop, if_pos ⟨hcap, hready, rfl, hlow⟩]
  simp only [hpop]
  refine hlen.trans_le (le_trans ?_ (popLoop_len_ge _ _ _ _ _))
  simp [RangeBuf.len]

/-- Data of a buffer without a final offset never carries the `fin` flag. -/
theorem pop_open {s : SendBuf} (hopen : s.finOff = none) (cap : ℕ) :
    (s.pop cap).1.fin = false ∧ (s.pop cap).2.finOff = none := by
  unfold pop
  simp only [popLoop_same, hopen]
  exact ⟨rfl, trivial⟩

/-- What a packet takes out of the buffer. -/
structure Popped (s : SendBuf) (cap : ℕ) (out : RangeBuf) (s' : SendBuf) : Prop where
  drained : s.Drained s'
  fin : out.fin = (s.finOff == some out.maxOff)
  maxOff_le : out.maxOff ≤ s.off
  len_le : out.len ≤ cap
  limit : 0 < out.len → out.maxOff ≤ s.maxData

/-- Taking data out of a well-formed buffer. -/
theorem pop_spec {s s' : SendBuf} (wf : s.WF) {cap : ℕ} {out : RangeBuf}
    (h : s.pop cap = (out, s')) : s.Popped cap out s' := by
  unfold pop at h
  obtain ⟨⟨out₁, s₁⟩, hloop⟩ : ∃ r, popLoop (s.data.toList.length + 1) cap s.lowOff
    ⟨[], s.off, false⟩ s = r := ⟨_, rfl⟩
  rw [hloop] at h
  cases h
  have hnone : ¬ 0 < (RangeBuf.mk [] s.off false).len := Nat.lt_irrefl 0
  obtain ⟨hdrained, hle, hlen, hlimit⟩ := popLoop_spec wf (fun h => absurd h hnone) (le_refl s.off)
    (fun h => absurd h hnone) hloop
  refine ⟨hdrained, ?_, hle, hlen.trans (Nat.zero_add cap).le, hlimit⟩
  rw [hdrained.finOff]
  rfl

/-- What a packet takes out of the buffer was written before. -/
theorem Popped.fits {s s' : SendBuf} {cap : ℕ} {out : RangeBuf} (h : s.Popped cap out s') :
    s'.Fits out where
  maxOff_le := by
    rw [h.drained.off]
    exact h.maxOff_le
  fin hfin := by
    rw [h.drained.finOff]
    rwa [h.fin, beq_iff_eq] at hfin

end SendBuf

end Dtp
