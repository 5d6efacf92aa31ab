import Dtp.Error
import Dtp.RangeBuf

/-!
# Receive-side stream buffers

`RecvBuf` reassembles the chunks of a stream, in whatever order and with
whatever overlaps they arrive. A new chunk is trimmed against the buffered ones
in the array order of the heap. The end it loses in a walk is kept in one slot
and inserted by a further walk.

## Main definitions

* `RecvBuf.push`, `RecvBuf.pushEvaluation`, `RecvBuf.pop` — insert and read
* `RecvBuf.Held` — an offset has been read or is buffered
* `RecvBuf.WF` — the invariant of every buffer the operations build

## Main results

* `RecvBuf.push_spec`, `RecvBuf.pop_spec` — the operations keep the invariant
  and hold no offset that did not arrive
-/

namespace Dtp

open Lib (BinaryHeap)

/-- Receive-side stream buffer. -/
structure RecvBuf where
  /-- Chunks received from the peer that have not yet been read. -/
  data : BinaryHeap RangeBuf.off
  /-- The lowest data offset that has yet to be read by the application. -/
  off : ℕ
  /-- The total length of data received on this stream. -/
  len : ℕ
  /-- The maximum offset the peer is allowed to send us. -/
  maxData : ℕ
  /-- The updated maximum offset the peer is allowed to send us. -/
  maxDataNext : ℕ
  /-- The final stream offset received from the peer, if any. -/
  finOff : Option ℕ
  /-- Whether incoming data is validated but not buffered. -/
  drain : Bool
  blockSize : ℕ
  /-- The block completion time in millis. -/
  bct : ℤ
  /-- The size received before deadline. -/
  goodRecv : ℕ
  blockPriority : ℕ
  blockDeadline : ℕ
  /-- Beginning timestamp of the block. -/
  startTime : ℕ

/-- The value of an unsigned integer cast to `i64`. -/
def asI64 (n : ℕ) : ℤ := (n : ℤ).bmod (2 ^ 64)

namespace RecvBuf

/-- Creates a new receive buffer. -/
def new (maxData : ℕ) : RecvBuf where
  data := .empty
  off := 0
  len := 0
  maxData := maxData
  maxDataNext := maxData
  finOff := none
  drain := false
  blockSize := 0
  bct := 0
  goodRecv := 0
  blockPriority := 0
  blockDeadline := 0
  startTime := 0

/-- One walk of a new chunk along the buffered ones: `none` when what is left of
it is contained in one of them, otherwise what is left of it and the last end
that was cut off. -/
def trim (buf : RangeBuf) (tmp : Option RangeBuf) :
    List RangeBuf → Option (RangeBuf × Option RangeBuf)
  | [] => some (buf, tmp)
  | b :: bs =>
    -- New buffer is fully contained in existing buffer.
    if b.off ≤ buf.off ∧ buf.maxOff ≤ b.maxOff then none
    -- New buffer's start overlaps existing buffer.
    else if b.off ≤ buf.off ∧ buf.off < b.maxOff then
      trim (buf.splitOff (b.maxOff - buf.off)).2 tmp bs
    -- New buffer's end overlaps existing buffer.
    else if buf.off < b.off ∧ b.off < buf.maxOff then
      trim (buf.splitOff (b.off - buf.off)).1 (some (buf.splitOff (b.off - buf.off)).2) bs
    else trim buf tmp bs

/-- Records the arrival of `buf` at the time `now` and buffers it. Data that
arrives within `goodUntil` of the block's start is counted as good. -/
def store (r : RecvBuf) (goodUntil : ℤ) (now : ℕ) (buf : RangeBuf) : RecvBuf :=
  let bct := asI64 now - asI64 r.startTime
  let len := max r.len buf.maxOff
  { r with
    bct := bct
    len := len
    goodRecv := if bct ≤ goodUntil then len else r.goodRecv
    data := r.data.push buf }

/-- The part of `buf` that is not below the read offset. -/
def unread (r : RecvBuf) (buf : RangeBuf) : RangeBuf :=
  if buf.off < r.off then (buf.splitOff (r.off - buf.off)).2 else buf

/-- The loop that inserts a chunk and then the end that the walk cut off it. -/
def insertLoop (goodUntil : ℤ) (now : ℕ) : ℕ → RecvBuf → RangeBuf → Except Fault RecvBuf
  | 0, _, _ => .error .hang
  | fuel + 1, r, buf =>
    -- `Vec::split_off` panics beyond the end of the chunk
    if buf.maxOff < r.off then .error .panic
    else
      match trim (r.unread buf) none r.data.toList with
      | none => .ok r
      | some (buf, none) => .ok (r.store goodUntil now buf)
      | some (buf, some tail) => insertLoop goodUntil now fuel (r.store goodUntil now buf) tail

/-- Remembers the final offset that a chunk with the `fin` flag announces. -/
def noteFin (r : RecvBuf) (buf : RangeBuf) : RecvBuf :=
  if buf.fin then { r with finOff := some buf.maxOff } else r

/-- The error that a chunk with these limits is refused with, if any. -/
def checkSize (r : RecvBuf) (maxOff : ℕ) (fin : Bool) : Option Error :=
  if r.maxData < maxOff then some .flowControl
  -- Stream's size is known, forbid data beyond that point and changing it.
  else if r.finOff.any fun finOff => finOff < maxOff ∨ fin ∧ finOff ≠ maxOff then
    some .finalSize
  -- Stream's known size is lower than data already received.
  else if fin ∧ maxOff < r.len then some .finalSize
  else none

/-- Inserts the given chunk of data in the buffer, with data arriving up to
`goodUntil` after the block's start counted as good. -/
def pushWith (r : RecvBuf) (goodUntil : ℤ) (buf : RangeBuf) (now : ℕ) : Except Fault RecvBuf :=
  match r.checkSize buf.maxOff buf.fin with
  | some e => .error (.error e)
  | none =>
    -- We already saved the final offset, so there's nothing else to keep.
    if r.finOff.isSome ∧ buf.isEmpty then .ok r
    else
      let r := r.noteFin buf
      -- No need to store empty buffer that doesn't carry the fin flag.
      if ¬ buf.fin ∧ buf.isEmpty then .ok r
      -- Data is fully duplicate; empty buffers are excepted.
      else if buf.maxOff ≤ r.off ∧ ¬ buf.isEmpty then .ok r
      else if r.drain then .ok r
      else insertLoop goodUntil now (buf.len + 1) r buf

/-- Inserts the given chunk of data in the buffer. -/
def push (r : RecvBuf) (buf : RangeBuf) (now : ℕ) : Except Fault RecvBuf :=
  r.pushWith (asI64 r.blockDeadline) buf now

/-- The variant of `push` that the connection calls. -/
def pushEvaluation (r : RecvBuf) (buf : RangeBuf) (now : ℕ) : Except Fault RecvBuf :=
  r.pushWith 200 buf now

/-- Returns true if the stream has data to be read. -/
def ready (r : RecvBuf) : Bool := r.data.peek.any fun b => b.off == r.off

/-- Returns true if the receive-side of the stream is complete. -/
def isFin (r : RecvBuf) : Bool := r.finOff == some r.off

/-- Returns true if all data of the stream has been received. -/
def allReceived (r : RecvBuf) : Bool := r.finOff == some r.len

/-- Removes the first chunk, or as much of it as fits into `cap` bytes. -/
def popChunk (data : BinaryHeap RangeBuf.off) (cap : ℕ) :
    Option (RangeBuf × BinaryHeap RangeBuf.off) :=
  match data.pop with
  | none => none
  | some (buf, data) =>
    if cap < buf.len then some ((buf.splitOff cap).1, data.push (buf.splitOff cap).2)
    else some (buf, data)

/-- The loop of `pop`: reads chunks until `cap` bytes are read or none is ready. -/
def popLoop : ℕ → ℕ → List UInt8 → RecvBuf → List UInt8 × RecvBuf
  | 0, _, out, r => (out, r)
  | fuel + 1, cap, out, r =>
    if 0 < cap ∧ r.ready then
      match popChunk r.data cap with
      | none => (out, r)
      | some (buf, data) =>
        popLoop fuel (cap - buf.len) (out ++ buf.data)
          { r with data := data, off := r.off + buf.len }
    else (out, r)

/-- Writes at most `cap` bytes of contiguous data from the receive buffer, and
returns them with a flag that tells whether they end the stream. -/
def pop (r : RecvBuf) (cap : ℕ) : Except Error (List UInt8 × Bool × RecvBuf) :=
  if r.ready then
    let read := popLoop (r.data.toList.length + 1) cap [] r
    let r := { read.2 with maxDataNext := saturatingAdd read.2.maxDataNext read.1.length }
    .ok (read.1, r.isFin, r)
  else .error .done

/-- Resets the stream at the given offset, and returns how many bytes need to be
removed from the connection flow control. -/
def reset (r : RecvBuf) (finalSize : ℕ) : Except Error (ℕ × RecvBuf) :=
  if r.finOff.any fun finOff => finOff ≠ finalSize then .error .finalSize
  else if finalSize < r.len then .error .finalSize
  else .ok (finalSize - r.len, { r with finOff := some finalSize })

/-- Commits the new `maxData` limit and returns it. -/
def updateMaxData (r : RecvBuf) : ℕ × RecvBuf :=
  (r.maxDataNext, { r with maxData := r.maxDataNext })

/-- Shuts down receiving data. -/
def shutdown (r : RecvBuf) : Except Error RecvBuf :=
  if r.drain then .error .done else .ok { r with drain := true, data := .empty }

/-- Returns true if we need to update the local flow control limit. -/
def almostFull (r : RecvBuf) : Bool :=
  r.finOff.isNone && r.maxDataNext != r.maxData
    && decide (r.maxData - r.len < r.maxDataNext / 2)

/-- Sets the block size, priority, deadline and start time. -/
def setBlockInfo (r : RecvBuf) (blockSize blockPriority blockDeadline startTime : ℕ) : RecvBuf :=
  { r with
    blockSize := blockSize
    blockPriority := blockPriority
    blockDeadline := blockDeadline
    startTime := startTime }

/-! ### The invariant -/

/-- The byte at offset `x` has been read, or is buffered. -/
def Held (r : RecvBuf) (x : ℕ) : Prop := x < r.off ∨ ∃ b ∈ r.data.toList, b.Covers x

instance (r : RecvBuf) (x : ℕ) : Decidable (r.Held x) := inferInstanceAs (Decidable (_ ∨ _))

/-- The buffered bytes are those of the byte string `s`. -/
def Agrees (r : RecvBuf) (s : List UInt8) : Prop := ∀ b ∈ r.data.toList, b.AgreesWith s

/-- The invariant of receive buffers: buffered chunks do not overlap, lie between
the read offset and the received length, and an empty one marks the final offset. -/
structure WF (r : RecvBuf) : Prop where
  apart : r.data.toList.Pairwise RangeBuf.Apart
  off_le : ∀ b ∈ r.data.toList, r.off ≤ b.off
  le_len : ∀ b ∈ r.data.toList, b.maxOff ≤ r.len
  off_le_len : r.off ≤ r.len
  len_le_fin : ∀ f, r.finOff = some f → r.len ≤ f
  empty_fin : ∀ b ∈ r.data.toList, b.len = 0 → r.finOff = some b.off
  drained : r.drain = true → r.data.toList = []

/-- A new buffer is well formed. -/
theorem new_wf (maxData : ℕ) : (new maxData).WF := by
  constructor <;> simp [new]

/-! ### Trimming a chunk -/

/-- What a walk has made of the chunk `orig`: a remainder `buf`, and perhaps an
end that starts behind the remainder. -/
structure Trimmed (orig buf : RangeBuf) (tmp : Option RangeBuf) : Prop where
  piece : buf.Piece orig
  pos : 0 < orig.len → 0 < buf.len
  same : orig.len = 0 → buf = orig
  tail_piece : ∀ t ∈ tmp, t.Piece orig
  tail_pos : ∀ t ∈ tmp, 0 < t.len
  tail_len : ∀ t ∈ tmp, t.len < orig.len
  tail_off : ∀ t ∈ tmp, buf.maxOff ≤ t.off

theorem Trimmed.refl (buf : RangeBuf) : Trimmed buf buf none := by
  constructor <;> simp [RangeBuf.Piece.refl]

/-- Cutting off the start keeps the account of a walk. -/
theorem Trimmed.cutStart {orig buf : RangeBuf} {tmp : Option RangeBuf}
    (h : Trimmed orig buf tmp) {n : ℕ} (hn : n < buf.len) :
    Trimmed orig (buf.splitOff n).2 tmp where
  piece := (RangeBuf.splitOff_snd_piece buf hn.le).trans h.piece
  pos _ := by
    rw [RangeBuf.splitOff_snd_len]
    omega
  same h0 := by
    obtain rfl := h.same h0
    omega
  tail_piece := h.tail_piece
  tail_pos := h.tail_pos
  tail_len := h.tail_len
  tail_off t ht := by
    rw [RangeBuf.splitOff_snd_maxOff hn.le]
    exact h.tail_off t ht

/-- Cutting off the end keeps the account of a walk, with a new end. -/
theorem Trimmed.cutEnd {orig buf : RangeBuf} {tmp : Option RangeBuf}
    (h : Trimmed orig buf tmp) {n : ℕ} (hpos : 0 < n) (hn : n < buf.len) :
    Trimmed orig (buf.splitOff n).1 (some (buf.splitOff n).2) where
  piece := (RangeBuf.splitOff_fst_piece buf hn.le).trans h.piece
  pos _ := by
    rw [RangeBuf.splitOff_fst_len]
    omega
  same h0 := by
    obtain rfl := h.same h0
    omega
  tail_piece t ht := by
    obtain rfl := Option.mem_some.mp ht
    exact (RangeBuf.splitOff_snd_piece buf hn.le).trans h.piece
  tail_pos t ht := by
    obtain rfl := Option.mem_some.mp ht
    rw [RangeBuf.splitOff_snd_len]
    omega
  tail_len t ht := by
    obtain rfl := Option.mem_some.mp ht
    have hoff := h.piece.off_le
    have hmax := h.piece.maxOff_le
    rw [RangeBuf.splitOff_snd_len]
    unfold RangeBuf.maxOff at hmax
    omega
  tail_off t ht := by
    obtain rfl := Option.mem_some.mp ht
    rw [RangeBuf.splitOff_fst_maxOff hn.le, RangeBuf.splitOff_snd_off]

/-- How a buffered chunk `b` lies to the chunk `buf` being trimmed, in the order in
which a walk asks. -/
inductive Overlap (b buf : RangeBuf) : Prop
  | contained (hin : b.off ≤ buf.off ∧ buf.maxOff ≤ b.maxOff)
  | start (hin : ¬ (b.off ≤ buf.off ∧ buf.maxOff ≤ b.maxOff))
      (hstart : b.off ≤ buf.off ∧ buf.off < b.maxOff) (hn : b.maxOff - buf.off < buf.len)
  | finish (hin : ¬ (b.off ≤ buf.off ∧ buf.maxOff ≤ b.maxOff))
      (hstart : ¬ (b.off ≤ buf.off ∧ buf.off < b.maxOff))
      (hend : buf.off < b.off ∧ b.off < buf.maxOff) (hn : b.off - buf.off < buf.len)
  | apart (hin : ¬ (b.off ≤ buf.off ∧ buf.maxOff ≤ b.maxOff))
      (hstart : ¬ (b.off ≤ buf.off ∧ buf.off < b.maxOff))
      (hend : ¬ (buf.off < b.off ∧ b.off < buf.maxOff)) (h : buf.Apart b)

/-- Two chunks overlap in one of these ways. -/
theorem overlap (b buf : RangeBuf) : Overlap b buf := by
  by_cases hin : b.off ≤ buf.off ∧ buf.maxOff ≤ b.maxOff
  · exact .contained hin
  by_cases hstart : b.off ≤ buf.off ∧ buf.off < b.maxOff
  · refine .start hin hstart ?_
    unfold RangeBuf.maxOff at *
    omega
  by_cases hend : buf.off < b.off ∧ b.off < buf.maxOff
  · refine .finish hin hstart hend ?_
    unfold RangeBuf.maxOff at *
    omega
  · refine .apart hin hstart hend ?_
    unfold RangeBuf.Apart
    omega

/-- A walk leaves a remainder that overlaps none of the chunks it passed. -/
theorem trim_spec {orig buf buf' : RangeBuf} {tmp tmp' : Option RangeBuf} {bs : List RangeBuf}
    (h : Trimmed orig buf tmp) (heq : trim buf tmp bs = some (buf', tmp')) :
    Trimmed orig buf' tmp' ∧ buf'.Piece buf ∧ ∀ b ∈ bs, buf'.Apart b := by
  induction bs generalizing buf tmp with
  | nil =>
    obtain ⟨rfl, rfl⟩ : buf = buf' ∧ tmp = tmp' := by simpa [trim] using heq
    exact ⟨h, .refl _, by simp⟩
  | cons b bs ih =>
    rcases overlap b buf with hin | ⟨hin, hb, hn⟩ | ⟨hin, hb, hend, hn⟩ | ⟨hin, hb, hend, hapart⟩
    · rw [trim, if_pos hin] at heq
      cases heq
    · rw [trim, if_neg hin, if_pos hb] at heq
      obtain ⟨htr, hpiece, hbs⟩ := ih (h.cutStart hn) heq
      refine ⟨htr, hpiece.trans (RangeBuf.splitOff_snd_piece buf hn.le), ?_⟩
      refine List.forall_mem_cons.mpr ⟨.inr ?_, hbs⟩
      have := hpiece.off_le
      rw [RangeBuf.splitOff_snd_off] at this
      omega
    · rw [trim, if_neg hin, if_neg hb, if_pos hend] at heq
      obtain ⟨htr, hpiece, hbs⟩ := ih (h.cutEnd (by omega) hn) heq
      refine ⟨htr, hpiece.trans (RangeBuf.splitOff_fst_piece buf hn.le), ?_⟩
      refine List.forall_mem_cons.mpr ⟨.inl ?_, hbs⟩
      have := hpiece.maxOff_le
      rw [RangeBuf.splitOff_fst_maxOff hn.le] at this
      omega
    · rw [trim, if_neg hin, if_neg hb, if_neg hend] at heq
      obtain ⟨htr, hpiece, hbs⟩ := ih h heq
      exact ⟨htr, hpiece, List.forall_mem_cons.mpr
        ⟨hapart.of_le hpiece.off_le hpiece.maxOff_le, hbs⟩⟩

/-! ### Storing a chunk -/

section Store

variable (r : RecvBuf) (goodUntil : ℤ) (now : ℕ) (buf : RangeBuf)

@[simp] theorem store_off : (r.store goodUntil now buf).off = r.off := rfl

@[simp] theorem store_len : (r.store goodUntil now buf).len = max r.len buf.maxOff := rfl

@[simp] theorem store_finOff : (r.store goodUntil now buf).finOff = r.finOff := rfl

@[simp] theorem store_drain : (r.store goodUntil now buf).drain = r.drain := rfl

@[simp] theorem store_data : (r.store goodUntil now buf).data = r.data.push buf := rfl

@[simp] theorem store_maxData : (r.store goodUntil now buf).maxData = r.maxData := rfl

@[simp] theorem store_maxDataNext : (r.store goodUntil now buf).maxDataNext = r.maxDataNext := rfl

@[simp] theorem noteFin_off : (r.noteFin buf).off = r.off := by
  unfold noteFin
  split <;> rfl

@[simp] theorem noteFin_len : (r.noteFin buf).len = r.len := by
  unfold noteFin
  split <;> rfl

@[simp] theorem noteFin_data : (r.noteFin buf).data = r.data := by
  unfold noteFin
  split <;> rfl

@[simp] theorem noteFin_drain : (r.noteFin buf).drain = r.drain := by
  unfold noteFin
  split <;> rfl

@[simp] theorem noteFin_maxData : (r.noteFin buf).maxData = r.maxData := by
  unfold noteFin
  split <;> rfl

@[simp] theorem noteFin_maxDataNext : (r.noteFin buf).maxDataNext = r.maxDataNext := by
  unfold noteFin
  split <;> rfl

@[simp] theorem noteFin_finOff :
    (r.noteFin buf).finOff = if buf.fin then some buf.maxOff else r.finOff := by
  unfold noteFin
  split <;> rfl

end Store

/-- A chunk is held after it is stored. -/
theorem held_store {r : RecvBuf} {goodUntil : ℤ} {now : ℕ} {buf : RangeBuf} {x : ℕ} :
    (r.store goodUntil now buf).Held x ↔ r.Held x ∨ buf.Covers x := by
  simp only [Held, store_off, store_data, BinaryHeap.mem_push, exists_eq_or_imp]
  rw [or_assoc]
  exact or_congr_right or_comm

/-- What is held depends on the chunks and on what is read. -/
theorem held_congr {r r' : RecvBuf} (hoff : r'.off = r.off) (hdata : r'.data = r.data) {x : ℕ} :
    r'.Held x ↔ r.Held x := by
  unfold Held
  rw [hoff, hdata]

/-- What the loop may be given to insert: a chunk inside the known size that has a
byte above the read offset, or is the empty chunk at the final offset. -/
structure Insertable (r : RecvBuf) (buf : RangeBuf) : Prop where
  drain : r.drain = false
  le_fin : ∀ f, r.finOff = some f → buf.maxOff ≤ f
  above : 0 < buf.len → r.off < buf.maxOff
  empty : buf.len = 0 → r.finOff = some buf.off ∧ r.off ≤ buf.off

/-- A chunk that is inserted is not read yet. -/
theorem Insertable.off_le {r : RecvBuf} {buf : RangeBuf} (h : Insertable r buf) :
    r.off ≤ buf.maxOff := by
  rcases Nat.eq_zero_or_pos buf.len with h0 | hpos
  · exact (h.empty h0).2.trans (Nat.le_add_right _ _)
  · exact (h.above hpos).le

/-- Discarding what is below the read offset starts a walk. -/
theorem Insertable.trimmed {r : RecvBuf} {buf : RangeBuf} (h : Insertable r buf) :
    Trimmed buf (r.unread buf) none := by
  unfold unread
  split
  · rename_i hlt
    refine (Trimmed.refl buf).cutStart ?_
    have hpos : 0 < buf.len := by
      by_contra h0
      have := (h.empty (by omega)).2
      omega
    have := h.above hpos
    unfold RangeBuf.maxOff at this
    omega
  · exact .refl buf

private theorem off_le_unread (r : RecvBuf) (buf : RangeBuf) : r.off ≤ (r.unread buf).off := by
  unfold unread
  split
  · rw [RangeBuf.splitOff_snd_off]
    omega
  · omega

/-- What is left of a chunk is not read yet. -/
theorem unread_covers {r : RecvBuf} {buf : RangeBuf} (h : r.off ≤ buf.maxOff) {x : ℕ} :
    (r.unread buf).Covers x ↔ buf.Covers x ∧ r.off ≤ x := by
  unfold unread
  split
  · rename_i hlt
    rw [RangeBuf.splitOff_snd_covers (by unfold RangeBuf.maxOff at h; omega)]
    have : buf.off + (r.off - buf.off) = r.off := by omega
    rw [this]
  · refine ⟨fun hx => ⟨hx, ?_⟩, And.left⟩
    have := hx.1
    omega

/-- Buffering a remainder that overlaps nothing keeps the invariant. -/
theorem WF.store {r : RecvBuf} (wf : r.WF) (goodUntil : ℤ) (now : ℕ) {buf : RangeBuf}
    (apart : ∀ b ∈ r.data.toList, buf.Apart b) (off_le : r.off ≤ buf.off)
    (drain : r.drain = false) (le_fin : ∀ f, r.finOff = some f → buf.maxOff ≤ f)
    (empty : buf.len = 0 → r.finOff = some buf.off) : (r.store goodUntil now buf).WF where
  apart := by
    have hperm := BinaryHeap.toList_push r.data buf
    rw [store_data, hperm.pairwise_iff RangeBuf.Apart.symm, List.pairwise_cons]
    exact ⟨apart, wf.apart⟩
  off_le b hb := by
    rcases BinaryHeap.mem_push.mp hb with rfl | hb
    · exact off_le
    · exact wf.off_le b hb
  le_len b hb := by
    rcases BinaryHeap.mem_push.mp hb with rfl | hb
    · exact le_max_right _ _
    · exact (wf.le_len b hb).trans (le_max_left _ _)
  off_le_len := wf.off_le_len.trans (le_max_left _ _)
  len_le_fin f hf := max_le (wf.len_le_fin f hf) (le_fin f hf)
  empty_fin b hb h0 := by
    rcases BinaryHeap.mem_push.mp hb with rfl | hb
    · exact empty h0
    · exact wf.empty_fin b hb h0
  drained h := by
    rw [store_drain, drain] at h
    cases h

/-- What inserting the chunk `buf` may do to a buffer. -/
structure Inserted (r : RecvBuf) (buf : RangeBuf) (r' : RecvBuf) : Prop where
  wf : r'.WF
  off : r'.off = r.off
  finOff : r'.finOff = r.finOff
  drain : r'.drain = r.drain
  maxData : r'.maxData = r.maxData
  maxDataNext : r'.maxDataNext = r.maxDataNext
  len_mono : r.len ≤ r'.len
  len_le : r'.len ≤ max r.len buf.maxOff
  held_mono : ∀ x, r.Held x → r'.Held x
  held_of : ∀ x, r'.Held x → r.Held x ∨ buf.Covers x
  agrees : ∀ s, r.Agrees s → buf.AgreesWith s → r'.Agrees s

theorem Inserted.refl {r : RecvBuf} (wf : r.WF) (buf : RangeBuf) : Inserted r buf r where
  wf := wf
  off := rfl
  finOff := rfl
  drain := rfl
  maxData := rfl
  maxDataNext := rfl
  len_mono := le_rfl
  len_le := le_max_left _ _
  held_mono _ h := h
  held_of _ h := .inl h
  agrees _ h _ := h

/-- The two halves of an insertion: the remainder is stored, the end is inserted
into the result. -/
theorem Inserted.store {r r' : RecvBuf} {goodUntil : ℤ} {now : ℕ} {buf buf' t : RangeBuf}
    (hbuf : buf'.Piece buf) (ht : t.Piece buf) (h : Inserted (r.store goodUntil now buf') t r') :
    Inserted r buf r' where
  wf := h.wf
  off := h.off
  finOff := h.finOff
  drain := h.drain
  maxData := h.maxData
  maxDataNext := h.maxDataNext
  len_mono := (le_max_left _ _).trans h.len_mono
  len_le := by
    have hlen := h.len_le
    have hbuf := hbuf.maxOff_le
    have ht := ht.maxOff_le
    rw [store_len] at hlen
    omega
  held_mono x hx := h.held_mono x (held_store.mpr (.inl hx))
  held_of x hx := by
    rcases h.held_of x hx with hx | hx
    · rcases held_store.mp hx with hx | hx
      · exact .inl hx
      · exact .inr (hbuf.covers hx)
    · exact .inr (ht.covers hx)
  agrees s hr hs := by
    refine h.agrees s (fun b hb => ?_) (ht.agrees s hs)
    rcases BinaryHeap.mem_push.mp hb with rfl | hb
    · exact hbuf.agrees s hs
    · exact hr b hb

/-- A walk whose remainder is buffered: the new buffer is well formed, and the end
cut off it can be inserted next. -/
theorem Insertable.walk {r : RecvBuf} {buf buf' : RangeBuf} {tmp : Option RangeBuf}
    (h : Insertable r buf) (wf : r.WF)
    (heq : trim (r.unread buf) none r.data.toList = some (buf', tmp)) (goodUntil : ℤ) (now : ℕ) :
    Trimmed buf buf' tmp ∧ (r.store goodUntil now buf').WF ∧
      ∀ t ∈ tmp, Insertable (r.store goodUntil now buf') t := by
  obtain ⟨htr, hpiece, hapart⟩ := trim_spec h.trimmed heq
  have hoff : r.off ≤ buf'.off := (r.off_le_unread buf).trans hpiece.off_le
  have hfin : ∀ f, r.finOff = some f → buf'.maxOff ≤ f := fun f hf =>
    htr.piece.maxOff_le.trans (h.le_fin f hf)
  have hempty : buf'.len = 0 → r.finOff = some buf'.off := by
    intro h0
    have h0' : buf.len = 0 := by
      by_contra hne
      have := htr.pos (by omega)
      omega
    rw [htr.same h0']
    exact (h.empty h0').1
  refine ⟨htr, wf.store goodUntil now hapart hoff h.drain hfin hempty, fun t ht => ?_⟩
  have hpos := htr.tail_pos t ht
  have htoff := htr.tail_off t ht
  constructor
  · exact h.drain
  · exact fun f hf => (htr.tail_piece t ht).maxOff_le.trans (h.le_fin f hf)
  · intro _
    unfold RangeBuf.maxOff at *
    rw [store_off]
    omega
  · omega

/-- The loop ends without a panic, and inserts nothing but bytes of the chunk. -/
theorem insertLoop_spec (goodUntil : ℤ) (now : ℕ) {fuel : ℕ} {r : RecvBuf} {buf : RangeBuf}
    (enough : buf.len < fuel) (wf : r.WF) (h : Insertable r buf) :
    ∃ r', insertLoop goodUntil now fuel r buf = .ok r' ∧ Inserted r buf r' := by
  induction fuel generalizing r buf with
  | zero => omega
  | succ fuel ih =>
    rw [insertLoop, if_neg h.off_le.not_gt]
    cases heq : trim (r.unread buf) none r.data.toList with
    | none => exact ⟨r, rfl, .refl wf buf⟩
    | some result =>
      obtain ⟨buf', tmp⟩ := result
      obtain ⟨htr, hwf, htail⟩ := h.walk wf heq goodUntil now
      cases tmp with
      | none => exact ⟨_, rfl, .store htr.piece htr.piece (.refl hwf buf')⟩
      | some t =>
        have hlen := htr.tail_len t rfl
        obtain ⟨r', hr', hins⟩ := ih (by omega) hwf (htail t rfl)
        exact ⟨r', hr', .store htr.piece (htr.tail_piece t rfl) hins⟩

/-! ### Pushing a chunk -/

/-- When a size is accepted. -/
theorem checkSize_eq_none {r : RecvBuf} {maxOff : ℕ} {fin : Bool} :
    r.checkSize maxOff fin = none ↔ maxOff ≤ r.maxData ∧
      (∀ f, r.finOff = some f → maxOff ≤ f ∧ (fin = true → f = maxOff)) ∧
      (fin = true → r.len ≤ maxOff) := by
  unfold checkSize
  cases hf : r.finOff <;> split_ifs <;> simp_all
  all_goals grind

/-- A chunk that passes the checks may settle the final offset. -/
theorem WF.noteFin {r : RecvBuf} (wf : r.WF) {buf : RangeBuf}
    (hfin : ∀ f, r.finOff = some f → buf.fin = true → f = buf.maxOff)
    (hlen : buf.fin = true → r.len ≤ buf.maxOff) : (r.noteFin buf).WF where
  apart := by simpa using wf.apart
  off_le := by simpa using wf.off_le
  le_len := by simpa using wf.le_len
  off_le_len := by simpa using wf.off_le_len
  len_le_fin f hf := by
    rw [noteFin_finOff] at hf
    rw [noteFin_len]
    split_ifs at hf with h
    · obtain rfl := Option.some.inj hf
      exact hlen h
    · exact wf.len_le_fin f hf
  empty_fin b hb h0 := by
    rw [noteFin_data] at hb
    have hold := wf.empty_fin b hb h0
    rw [noteFin_finOff]
    split_ifs with h
    · rw [hfin _ hold h]
    · exact hold
  drained := by simpa using wf.drained

/-- How `push` may end: with an error, by only noting the final offset because the
chunk has nothing new, or in the loop. -/
inductive PushCase (r : RecvBuf) (goodUntil : ℤ) (buf : RangeBuf) (now : ℕ) : Prop
  | refused (e : Error) (size : r.checkSize buf.maxOff buf.fin = some e)
      (eq : r.pushWith goodUntil buf now = .error (.error e))
  | noted (size : r.checkSize buf.maxOff buf.fin = none)
      (why : buf.len = 0 ∨ buf.maxOff ≤ r.off ∨ r.drain = true)
      (eq : r.pushWith goodUntil buf now = .ok (r.noteFin buf))
  | inserted (size : r.checkSize buf.maxOff buf.fin = none)
      (drain : r.drain = false) (above : 0 < buf.len → r.off < buf.maxOff)
      (fin : buf.len = 0 → buf.fin = true ∧ r.finOff = none)
      (eq : r.pushWith goodUntil buf now =
        insertLoop goodUntil now (buf.len + 1) (r.noteFin buf) buf)

/-- What happens to a chunk is one of these. -/
theorem pushCase (r : RecvBuf) (goodUntil : ℤ) (buf : RangeBuf) (now : ℕ) :
    PushCase r goodUntil buf now := by
  cases hsize : r.checkSize buf.maxOff buf.fin with
  | some e => exact .refused e hsize (by rw [pushWith, hsize])
  | none =>
    have hfin := (checkSize_eq_none.mp hsize).2.1
    by_cases hknown : r.finOff.isSome ∧ buf.isEmpty
    · obtain ⟨f, hf⟩ := Option.isSome_iff_exists.mp hknown.1
      have hnote : r.noteFin buf = r := by
        unfold noteFin
        split_ifs with h
        · rw [← (hfin f hf).2 h, ← hf]
        · rfl
      refine .noted hsize (.inl (RangeBuf.isEmpty_iff.mp hknown.2)) ?_
      rw [pushWith, hsize, hnote]
      exact if_pos hknown
    by_cases hnofin : ¬ buf.fin ∧ buf.isEmpty
    · refine .noted hsize (.inl (RangeBuf.isEmpty_iff.mp hnofin.2)) ?_
      rw [pushWith, hsize]
      simp only [if_neg hknown, if_pos hnofin]
    by_cases hdup : buf.maxOff ≤ r.off ∧ ¬ buf.isEmpty
    · refine .noted hsize (.inr (.inl hdup.1)) ?_
      rw [pushWith, hsize]
      simp only [if_neg hknown, if_neg hnofin, noteFin_off, if_pos hdup]
    by_cases hdrain : r.drain = true
    · refine .noted hsize (.inr (.inr hdrain)) ?_
      rw [pushWith, hsize]
      simp only [if_neg hknown, if_neg hnofin, noteFin_off, if_neg hdup, noteFin_drain,
        if_pos hdrain]
    · refine .inserted hsize (by simpa using hdrain) (fun hpos => ?_) (fun h0 => ?_) ?_
      · by_contra hle
        exact hdup ⟨not_lt.mp hle, by simp [RangeBuf.isEmpty]; omega⟩
      · have hempty := RangeBuf.isEmpty_iff.mpr h0
        refine ⟨by simpa [hempty] using hnofin, ?_⟩
        simpa [hempty] using hknown
      · rw [pushWith, hsize]
        simp only [if_neg hknown, if_neg hnofin, noteFin_off, if_neg hdup, noteFin_drain,
          if_neg hdrain]

/-- The chunk that reaches the loop may be inserted. -/
theorem insertable_noteFin {r : RecvBuf} (wf : r.WF) {buf : RangeBuf}
    (size : r.checkSize buf.maxOff buf.fin = none) (drain : r.drain = false)
    (above : 0 < buf.len → r.off < buf.maxOff)
    (fin : buf.len = 0 → buf.fin = true ∧ r.finOff = none) :
    Insertable (r.noteFin buf) buf := by
  obtain ⟨-, hfin, hlen⟩ := checkSize_eq_none.mp size
  constructor
  · simpa using drain
  · intro f hf
    rw [noteFin_finOff] at hf
    split_ifs at hf with h
    · exact (Option.some.inj hf).le
    · exact (hfin f hf).1
  · simpa using above
  · intro h0
    have hmax : buf.maxOff = buf.off := by rw [RangeBuf.maxOff, h0, Nat.add_zero]
    rw [noteFin_finOff, if_pos (fin h0).1, hmax, noteFin_off, ← hmax]
    exact ⟨rfl, wf.off_le_len.trans (hlen (fin h0).1)⟩

/-- What a successful push does to a buffer. -/
structure Pushed (r : RecvBuf) (buf : RangeBuf) (r' : RecvBuf) : Prop where
  wf : r'.WF
  off : r'.off = r.off
  finOff : r'.finOff = if buf.fin then some buf.maxOff else r.finOff
  drain : r'.drain = r.drain
  maxData : r'.maxData = r.maxData
  maxDataNext : r'.maxDataNext = r.maxDataNext
  len_mono : r.len ≤ r'.len
  len_le : r'.len ≤ max r.len buf.maxOff
  held_mono : ∀ x, r.Held x → r'.Held x
  held_of : ∀ x, r'.Held x → r.Held x ∨ buf.Covers x
  agrees : ∀ s, r.Agrees s → buf.AgreesWith s → r'.Agrees s

/-- A chunk that is inserted is pushed. -/
theorem Inserted.pushed {r r' : RecvBuf} {buf : RangeBuf} (h : Inserted (r.noteFin buf) buf r') :
    Pushed r buf r' where
  wf := h.wf
  off := by simpa using h.off
  finOff := by simpa using h.finOff
  drain := by simpa using h.drain
  maxData := by simpa using h.maxData
  maxDataNext := by simpa using h.maxDataNext
  len_mono := by simpa using h.len_mono
  len_le := by simpa using h.len_le
  held_mono x hx := h.held_mono x ((held_congr (by simp) (by simp)).mpr hx)
  held_of x hx := (h.held_of x hx).imp_left (held_congr (by simp) (by simp)).mp
  agrees s hr := h.agrees s (by simpa [Agrees] using hr)

/-- A push either refuses the chunk or inserts it: it neither panics nor loops. -/
theorem pushWith_spec {r : RecvBuf} (wf : r.WF) (goodUntil : ℤ) (buf : RangeBuf) (now : ℕ) :
    (∃ e, r.pushWith goodUntil buf now = .error (.error e)) ∨
      ∃ r', r.pushWith goodUntil buf now = .ok r' ∧ Pushed r buf r' := by
  rcases r.pushCase goodUntil buf now with ⟨e, _, eq⟩ | ⟨size, _, eq⟩ | ⟨size, drain, above,
    fin, eq⟩
  · exact .inl ⟨e, eq⟩
  · obtain ⟨-, hfin, hlen⟩ := checkSize_eq_none.mp size
    have hwf := wf.noteFin (fun f hf => (hfin f hf).2) hlen
    exact .inr ⟨_, eq, (Inserted.refl hwf buf).pushed⟩
  · obtain ⟨-, hfin, hlen⟩ := checkSize_eq_none.mp size
    have hwf := wf.noteFin (fun f hf => (hfin f hf).2) hlen
    have hins := insertable_noteFin wf size drain above fin
    obtain ⟨r', hr', h⟩ := insertLoop_spec goodUntil now
      (Nat.lt_succ_self _) hwf hins
    exact .inr ⟨r', eq.trans hr', h.pushed⟩

/-- A chunk that is accepted is pushed. -/
theorem pushWith_ok {r r' : RecvBuf} (wf : r.WF) {goodUntil : ℤ} {buf : RangeBuf} {now : ℕ}
    (h : r.pushWith goodUntil buf now = .ok r') : Pushed r buf r' := by
  rcases pushWith_spec wf goodUntil buf now with ⟨e, he⟩ | ⟨r'', hr'', hp⟩
  · rw [h] at he
    cases he
  · obtain rfl := Except.ok.inj (h.symm.trans hr'')
    exact hp

/-- No push changes the limit that the peer knows. -/
theorem insertLoop_maxData {goodUntil : ℤ} {now fuel : ℕ} {r r' : RecvBuf} {buf : RangeBuf}
    (h : insertLoop goodUntil now fuel r buf = .ok r') : r'.maxData = r.maxData := by
  induction fuel generalizing r buf with
  | zero => cases h
  | succ fuel ih =>
    rw [insertLoop] at h
    split_ifs at h
    split at h
    · cases h
      rfl
    · cases h
      rfl
    · exact (ih h).trans (store_maxData _ _ _ _)

/-- A chunk does not change the limit. -/
theorem pushWith_maxData {goodUntil : ℤ} {now : ℕ} {r r' : RecvBuf} {buf : RangeBuf}
    (h : r.pushWith goodUntil buf now = .ok r') : r'.maxData = r.maxData := by
  rw [pushWith] at h
  split at h
  · cases h
  · split at h
    · cases h
      rfl
    · dsimp only at h
      have hok : .ok (r.noteFin buf) = (.ok r' : Except Fault RecvBuf) →
          r'.maxData = r.maxData := by
        rintro ⟨⟩
        exact noteFin_maxData r buf
      split at h
      · exact hok h
      · split at h
        · exact hok h
        · split at h
          · exact hok h
          · exact (insertLoop_maxData h).trans (noteFin_maxData r buf)

/-- The loop of `push` fails only where the source panics. -/
theorem insertLoop_ne_error {goodUntil : ℤ} {now fuel : ℕ} {r : RecvBuf} {buf : RangeBuf}
    {e : Fault} (h : insertLoop goodUntil now fuel r buf = .error e) (err : Error) :
    e ≠ .error err := by
  induction fuel generalizing r buf with
  | zero =>
    cases h
    exact nofun
  | succ fuel ih =>
    rw [insertLoop] at h
    split_ifs at h
    · cases h
      exact nofun
    · split at h
      · cases h
      · cases h
      · exact ih h

/-- A chunk is refused because of its size. -/
theorem pushWith_ne_done {goodUntil : ℤ} {now : ℕ} {r : RecvBuf} {buf : RangeBuf} {e : Fault}
    (h : r.pushWith goodUntil buf now = .error e) : e ≠ .error .done := by
  rw [pushWith] at h
  split at h
  · rename_i err hsize
    cases h
    unfold checkSize at hsize
    split_ifs at hsize <;> cases hsize <;> exact nofun
  · dsimp only at h
    split_ifs at h
    exact insertLoop_ne_error h .done

/-! ### Reading -/

/-- A chunk that is ready starts at the read offset, and everything else buffered
starts behind it. -/
theorem ready_iff {r : RecvBuf} : r.ready = true ↔ ∃ b, r.data.peek = some b ∧ b.off = r.off := by
  simp [ready, Option.any_eq_true]

/-- If nothing is ready, the byte at the read offset has not arrived. -/
theorem WF.not_held_off {r : RecvBuf} (wf : r.WF) (h : r.ready = false) : ¬ r.Held r.off := by
  rintro (hlt | ⟨b, hb, hcov⟩)
  · exact absurd hlt (lt_irrefl _)
  · obtain ⟨root, hroot⟩ : ∃ root, r.data.peek = some root := by
      rw [← Option.ne_none_iff_exists', Ne, BinaryHeap.peek_eq_none_iff]
      exact List.ne_nil_of_mem hb
    have hle : root.off ≤ b.off := BinaryHeap.peek_le hroot hb
    have hge : r.off ≤ root.off := wf.off_le root (BinaryHeap.peek_mem hroot)
    have : r.ready = true := ready_iff.mpr ⟨root, hroot, by have := hcov.1; omega⟩
    rw [h] at this
    cases this

/-- What reading the bytes `out` does to a buffer. -/
structure Read (r : RecvBuf) (out : List UInt8) (r' : RecvBuf) : Prop where
  wf : r'.WF
  off : r'.off = r.off + out.length
  len : r'.len = r.len
  finOff : r'.finOff = r.finOff
  drain : r'.drain = r.drain
  maxData : r'.maxData = r.maxData
  held : ∀ x, r'.Held x ↔ r.Held x
  agrees : ∀ s, r.Agrees s → r'.Agrees s
  out_eq : ∀ s, r.Agrees s → out = (s.drop r.off).take out.length

theorem Read.refl {r : RecvBuf} (wf : r.WF) : Read r [] r where
  wf := wf
  off := rfl
  len := rfl
  finOff := rfl
  drain := rfl
  maxData := rfl
  held _ := .rfl
  agrees _ h := h
  out_eq _ _ := rfl

theorem Read.trans {r r' r'' : RecvBuf} {out out' : List UInt8} (h : Read r out r')
    (h' : Read r' out' r'') : Read r (out ++ out') r'' where
  wf := h'.wf
  off := by rw [h'.off, h.off, List.length_append, Nat.add_assoc]
  len := h'.len.trans h.len
  finOff := h'.finOff.trans h.finOff
  drain := h'.drain.trans h.drain
  maxData := h'.maxData.trans h.maxData
  held x := (h'.held x).trans (h.held x)
  agrees s hs := h'.agrees s (h.agrees s hs)
  out_eq s hs := by
    have hout := h.out_eq s hs
    have hout' := h'.out_eq s (h.agrees s hs)
    rw [h.off] at hout'
    rw [List.length_append, List.take_add, ← hout, List.drop_drop, ← hout']

/-- The first chunk comes off the heap; what else is buffered lies behind it. -/
theorem WF.behind {r : RecvBuf} (wf : r.WF) {buf : RangeBuf} {data : BinaryHeap RangeBuf.off}
    (hready : r.ready = true) (hpop : r.data.pop = some (buf, data)) :
    buf.off = r.off ∧ data.toList.Pairwise RangeBuf.Apart ∧
      ∀ b ∈ data.toList, buf.maxOff ≤ b.off ∧ buf.Apart b := by
  have hperm := BinaryHeap.toList_pop hpop
  have hoff : buf.off = r.off := by
    obtain ⟨b, hb, hboff⟩ := ready_iff.mp hready
    rw [BinaryHeap.peek_of_pop hpop] at hb
    rw [Option.some.inj hb, hboff]
  have hbuf : buf ∈ r.data.toList := (BinaryHeap.mem_of_mem_pop hpop).mpr (.inl rfl)
  have hpair := (hperm.pairwise_iff RangeBuf.Apart.symm).mp wf.apart
  obtain ⟨hapart, hrest⟩ := List.pairwise_cons.mp hpair
  refine ⟨hoff, hrest, fun b hb => ⟨?_, hapart b hb⟩⟩
  have hb' : b ∈ r.data.toList := (BinaryHeap.mem_of_mem_pop hpop).mpr (.inr hb)
  rcases hapart b hb with h | h
  · exact h
  · -- `b` ends where `buf` starts, so it is the empty chunk at the final offset
    have hle := wf.off_le b hb'
    have hmax : b.maxOff = b.off + b.len := rfl
    have hfin := wf.empty_fin b hb' (by omega)
    have := wf.len_le_fin _ hfin
    have := wf.le_len buf hbuf
    omega

/-- Taking a chunk off the front reads its bytes. -/
theorem WF.popChunk {r : RecvBuf} (wf : r.WF) {cap : ℕ} {buf : RangeBuf}
    {data : BinaryHeap RangeBuf.off} (hready : r.ready = true)
    (h : popChunk r.data cap = some (buf, data)) :
    Read r buf.data { r with data := data, off := r.off + buf.len } := by
  unfold RecvBuf.popChunk at h
  cases hpop : r.data.pop with
  | none =>
    rw [hpop] at h
    cases h
  | some front =>
    obtain ⟨b, rest⟩ := front
    rw [hpop] at h
    -- the first chunk begins where reading stopped, and all others are behind it
    obtain ⟨hoff, hpair, hbehind⟩ := wf.behind hready hpop
    have hmem : ∀ c, c ∈ r.data.toList ↔ c = b ∨ c ∈ rest.toList := fun c =>
      BinaryHeap.mem_of_mem_pop hpop
    have hb : b ∈ r.data.toList := (hmem b).mpr (.inl rfl)
    have hblen := wf.le_len b hb
    have hbmax : b.maxOff = b.off + b.len := rfl
    have hbytes : ∀ {c : RangeBuf} {s : List UInt8}, c.off = r.off → c.AgreesWith s →
        c.data = (s.drop r.off).take c.data.length := by
      intro c s hc hs
      rw [← hc]
      exact hs.data_eq
    dsimp only at h
    split_ifs at h with hcap
    · -- only the first `cap` bytes are read
      obtain ⟨rfl, rfl⟩ := Prod.mk.inj (Option.some.inj h)
      have hlen : (b.splitOff cap).1.len = cap := by
        rw [RangeBuf.splitOff_fst_len]
        omega
      have hcut := b.splitOff_snd_piece hcap.le
      refine ⟨⟨?_, ?_, ?_, ?_, wf.len_le_fin, ?_, ?_⟩, rfl, rfl, rfl, rfl, rfl, ?_, ?_, ?_⟩
      · have hperm := BinaryHeap.toList_push rest (b.splitOff cap).2
        refine (hperm.pairwise_iff RangeBuf.Apart.symm).mpr (List.pairwise_cons.mpr ⟨?_, hpair⟩)
        exact fun c hc => (hbehind c hc).2.of_le hcut.off_le hcut.maxOff_le
      · intro c hc
        rcases BinaryHeap.mem_push.mp hc with rfl | hc
        · simp only [hlen, RangeBuf.splitOff_snd_off]
          omega
        · have := (hbehind c hc).1
          simp only [hlen]
          omega
      · intro c hc
        rcases BinaryHeap.mem_push.mp hc with rfl | hc
        · exact hcut.maxOff_le.trans hblen
        · exact wf.le_len c ((hmem c).mpr (.inr hc))
      · simp only [hlen]
        omega
      · intro c hc h0
        rcases BinaryHeap.mem_push.mp hc with rfl | hc
        · rw [RangeBuf.splitOff_snd_len] at h0
          omega
        · exact wf.empty_fin c ((hmem c).mpr (.inr hc)) h0
      · intro hdrain
        rw [wf.drained hdrain] at hb
        cases hb
      · intro x
        have hsplit : x < r.off + cap ∨ (b.splitOff cap).2.Covers x ↔ x < r.off ∨ b.Covers x := by
          rw [RangeBuf.splitOff_snd_covers hcap.le, RangeBuf.Covers]
          omega
        simp only [Held, hlen, BinaryHeap.mem_push, exists_eq_or_imp, hmem]
        rw [← or_assoc, hsplit, or_assoc]
      · intro s hs c hc
        rcases BinaryHeap.mem_push.mp hc with rfl | hc
        · exact (hs b hb).splitOff_snd hcap.le
        · exact hs c ((hmem c).mpr (.inr hc))
      · exact fun s hs => hbytes hoff ((hs b hb).splitOff_fst hcap.le)
    · -- the whole chunk is read
      obtain ⟨rfl, rfl⟩ := Prod.mk.inj (Option.some.inj h)
      refine ⟨⟨hpair, ?_, ?_, ?_, wf.len_le_fin, ?_, ?_⟩, rfl, rfl, rfl, rfl, rfl, ?_, ?_, ?_⟩
      · intro c hc
        have := (hbehind c hc).1
        simp only
        omega
      · exact fun c hc => wf.le_len c ((hmem c).mpr (.inr hc))
      · simp only
        omega
      · exact fun c hc => wf.empty_fin c ((hmem c).mpr (.inr hc))
      · intro hdrain
        rw [wf.drained hdrain] at hb
        cases hb
      · intro x
        have hwhole : x < r.off + b.len ↔ x < r.off ∨ b.Covers x := by
          rw [RangeBuf.Covers]
          omega
        simp only [Held, hwhole, exists_eq_or_imp, hmem]
        rw [or_assoc]
      · exact fun s hs c hc => hs c ((hmem c).mpr (.inr hc))
      · exact fun s hs => hbytes hoff (hs b hb)

/-- The loop reads on. -/
theorem popLoop_spec (fuel cap : ℕ) (out : List UInt8) {r : RecvBuf} (wf : r.WF) :
    ∃ more, (popLoop fuel cap out r).1 = out ++ more ∧ Read r more (popLoop fuel cap out r).2 := by
  induction fuel generalizing cap out r with
  | zero => exact ⟨[], by simp [popLoop], .refl wf⟩
  | succ fuel ih =>
    rw [popLoop]
    split_ifs with h
    · cases hpop : popChunk r.data cap with
      | none => exact ⟨[], by simp, .refl wf⟩
      | some chunk =>
        obtain ⟨buf, data⟩ := chunk
        have hread := wf.popChunk h.2 hpop
        obtain ⟨more, hout, hmore⟩ := ih (cap - buf.len) (out ++ buf.data) hread.wf
        exact ⟨buf.data ++ more, by rw [← List.append_assoc, ← hout], hread.trans hmore⟩
    · exact ⟨[], by simp, .refl wf⟩

/-- Reading does not change the limit that the peer knows. -/
theorem popLoop_maxData (fuel cap : ℕ) (out : List UInt8) (r : RecvBuf) :
    (popLoop fuel cap out r).2.maxData = r.maxData := by
  induction fuel generalizing cap out r with
  | zero => rfl
  | succ fuel ih =>
    rw [popLoop]
    split_ifs
    · split
      · rfl
      · exact ih _ _ _
    · rfl

/-- Reading does not change the limit. -/
theorem pop_maxData {r r' : RecvBuf} {cap : ℕ} {out : List UInt8} {fin : Bool}
    (h : r.pop cap = .ok (out, fin, r')) : r'.maxData = r.maxData := by
  rw [pop] at h
  split_ifs at h
  cases h
  exact popLoop_maxData _ _ _ _

/-- A successful `pop` reads the bytes that follow, and reports whether they end
the stream. -/
theorem pop_ok {r r' : RecvBuf} (wf : r.WF) {cap : ℕ} {out : List UInt8} {fin : Bool}
    (h : r.pop cap = .ok (out, fin, r')) : Read r out r' ∧ fin = r'.isFin := by
  unfold pop at h
  split_ifs at h with hready
  obtain ⟨more, hout, hread⟩ :=
    popLoop_spec (r.data.toList.length + 1) cap [] wf
  rw [List.nil_append] at hout
  obtain ⟨rfl, rfl, rfl⟩ : _ = out ∧ _ = fin ∧ _ = r' := by simpa using h
  rw [hout]
  have hw := hread.wf
  exact ⟨⟨⟨hw.apart, hw.off_le, hw.le_len, hw.off_le_len, hw.len_le_fin, hw.empty_fin, hw.drained⟩,
    hread.off, hread.len, hread.finOff, hread.drain, hread.maxData, hread.held, hread.agrees,
    hread.out_eq⟩, rfl⟩

end RecvBuf

end Dtp
