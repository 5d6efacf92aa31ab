import Mathlib.Data.List.Basic
import Mathlib.Data.List.TakeDrop
import Dtp.Lib.BinaryHeap

/-!
# Buffers at an offset

A `RangeBuf` is a chunk of stream data together with the offset of its first
byte. Receive and send buffers keep their chunks in a binary heap ordered by
offset, lowest first.

## Main definitions

* `RangeBuf` — the chunk, with `maxOff`, `splitOff` and the rest of its interface
* `RangeBuf.Covers` — the chunk has a byte for an offset
* `RangeBuf.AgreesWith` — the chunk's bytes are those of a given byte string
* `RangeBuf.Apart` — two chunks share no offset
-/

namespace Dtp

/-- Buffer holding data at a specific offset. -/
structure RangeBuf where
  data : List UInt8
  off : ℕ
  fin : Bool
  deriving DecidableEq, Repr, Inhabited

namespace RangeBuf

/-- Returns the length of `b`. -/
def len (b : RangeBuf) : ℕ := b.data.length

/-- Returns the final offset of `b`. -/
def maxOff (b : RangeBuf) : ℕ := b.off + b.len

/-- Returns true if `b` has a length of zero bytes. -/
def isEmpty (b : RangeBuf) : Bool := b.len == 0

/-- Splits the buffer into two at the given index: what stays in the buffer, and
the buffer that is split off, which takes the `fin` flag along. -/
def splitOff (b : RangeBuf) (idx : ℕ) : RangeBuf × RangeBuf :=
  (⟨b.data.take idx, b.off, false⟩, ⟨b.data.drop idx, b.off + idx, b.fin⟩)

@[simp] theorem isEmpty_iff {b : RangeBuf} : b.isEmpty = true ↔ b.len = 0 := by
  simp [isEmpty]

@[simp] theorem splitOff_fst_off (b : RangeBuf) (idx : ℕ) : (b.splitOff idx).1.off = b.off := rfl

@[simp] theorem splitOff_snd_off (b : RangeBuf) (idx : ℕ) :
    (b.splitOff idx).2.off = b.off + idx := rfl

@[simp] theorem splitOff_fst_len (b : RangeBuf) (idx : ℕ) :
    (b.splitOff idx).1.len = min idx b.len := by
  simp [splitOff, len]

@[simp] theorem splitOff_snd_len (b : RangeBuf) (idx : ℕ) :
    (b.splitOff idx).2.len = b.len - idx := by
  simp [splitOff, len]

/-! ### Offsets and bytes -/

/-- `b` has a byte for offset `x`. -/
def Covers (b : RangeBuf) (x : ℕ) : Prop := b.off ≤ x ∧ x < b.maxOff

instance (b : RangeBuf) (x : ℕ) : Decidable (b.Covers x) := inferInstanceAs (Decidable (_ ∧ _))

/-- The bytes of `b` are those of the byte string `s` at the offsets of `b`. -/
def AgreesWith (b : RangeBuf) (s : List UInt8) : Prop :=
  ∀ x, b.Covers x → s[x]? = b.data[x - b.off]?

instance (b : RangeBuf) (s : List UInt8) : Decidable (b.AgreesWith s) :=
  decidable_of_iff (∀ x < b.maxOff, b.off ≤ x → s[x]? = b.data[x - b.off]?)
    ⟨fun h x hx => h x hx.2 hx.1, fun h x hlt hle => h x ⟨hle, hlt⟩⟩

/-- No offset of one chunk lies strictly inside the other. -/
def Apart (b b' : RangeBuf) : Prop := b.maxOff ≤ b'.off ∨ b'.maxOff ≤ b.off

theorem Apart.symm {b b' : RangeBuf} (h : b.Apart b') : b'.Apart b := Or.symm h

/-- A chunk that covers something is not empty. -/
theorem Covers.not_isEmpty {b : RangeBuf} {x : ℕ} (h : b.Covers x) : 0 < b.len := by
  unfold Covers maxOff at h
  omega

/-- A chunk whose range lies inside that of `b` stays apart from what `b` is
apart from. -/
theorem Apart.of_le {b b' c : RangeBuf} (h : b.Apart c) (hoff : b.off ≤ b'.off)
    (hmax : b'.maxOff ≤ b.maxOff) : b'.Apart c := by
  unfold Apart at *
  have : b'.off ≤ b'.maxOff := Nat.le_add_right _ _
  omega

/-- The first part covers what is before the cut. -/
theorem splitOff_fst_covers {b : RangeBuf} {idx x : ℕ} (h : idx ≤ b.len) :
    (b.splitOff idx).1.Covers x ↔ b.Covers x ∧ x < b.off + idx := by
  simp only [Covers, maxOff, splitOff_fst_off, splitOff_fst_len]
  omega

/-- The second part covers what is behind the cut. -/
theorem splitOff_snd_covers {b : RangeBuf} {idx x : ℕ} (h : idx ≤ b.len) :
    (b.splitOff idx).2.Covers x ↔ b.Covers x ∧ b.off + idx ≤ x := by
  simp only [Covers, maxOff, splitOff_snd_off, splitOff_snd_len]
  omega

/-- The first part ends at the cut. -/
theorem splitOff_fst_maxOff {b : RangeBuf} {idx : ℕ} (h : idx ≤ b.len) :
    (b.splitOff idx).1.maxOff = b.off + idx := by
  simp [maxOff, h]

/-- The second part ends where the chunk ended. -/
theorem splitOff_snd_maxOff {b : RangeBuf} {idx : ℕ} (h : idx ≤ b.len) :
    (b.splitOff idx).2.maxOff = b.maxOff := by
  simp only [maxOff, splitOff_snd_off, splitOff_snd_len]
  omega

/-- The first part agrees with the stream. -/
theorem AgreesWith.splitOff_fst {b : RangeBuf} {s : List UInt8} (h : b.AgreesWith s) {idx : ℕ}
    (hidx : idx ≤ b.len) : (b.splitOff idx).1.AgreesWith s := by
  intro x hx
  obtain ⟨hb, hlt⟩ := (splitOff_fst_covers hidx).mp hx
  have : x - b.off < idx := by have := hb.1; omega
  rw [h x hb, splitOff_fst_off]
  simp [splitOff, this]

/-- The second part agrees with the stream. -/
theorem AgreesWith.splitOff_snd {b : RangeBuf} {s : List UInt8} (h : b.AgreesWith s) {idx : ℕ}
    (hidx : idx ≤ b.len) : (b.splitOff idx).2.AgreesWith s := by
  intro x hx
  obtain ⟨hb, hge⟩ := (splitOff_snd_covers hidx).mp hx
  rw [h x hb, splitOff_snd_off]
  simp only [splitOff, List.getElem?_drop]
  congr 1
  omega

/-- The bytes of a chunk that starts at offset `b.off` of `s` are the slice of
`s` that follows. -/
theorem AgreesWith.data_eq {b : RangeBuf} {s : List UInt8} (h : b.AgreesWith s) :
    b.data = (s.drop b.off).take b.len := by
  apply List.ext_getElem?
  intro i
  rw [List.getElem?_take, List.getElem?_drop]
  split_ifs with hi
  · have := h (b.off + i) ⟨by omega, by unfold maxOff; omega⟩
    rw [this, Nat.add_sub_cancel_left]
  · exact List.getElem?_eq_none (by simpa [len] using hi)

/-- `c` is cut out of `b`: its range lies inside that of `b` and its bytes are
those of `b`. -/
structure Piece (c b : RangeBuf) : Prop where
  off_le : b.off ≤ c.off
  maxOff_le : c.maxOff ≤ b.maxOff
  agrees : ∀ s, b.AgreesWith s → c.AgreesWith s

theorem Piece.refl (b : RangeBuf) : b.Piece b := ⟨le_rfl, le_rfl, fun _ h => h⟩

theorem Piece.trans {a b c : RangeBuf} (hcb : c.Piece b) (hba : b.Piece a) : c.Piece a :=
  ⟨hba.off_le.trans hcb.off_le, hcb.maxOff_le.trans hba.maxOff_le,
    fun s h => hcb.agrees s (hba.agrees s h)⟩

/-- A piece covers less. -/
theorem Piece.covers {c b : RangeBuf} (h : c.Piece b) {x : ℕ} (hx : c.Covers x) : b.Covers x :=
  ⟨h.off_le.trans hx.1, hx.2.trans_le h.maxOff_le⟩

/-- The first part is a piece. -/
theorem splitOff_fst_piece (b : RangeBuf) {idx : ℕ} (h : idx ≤ b.len) :
    (b.splitOff idx).1.Piece b where
  off_le := le_rfl
  maxOff_le := by rw [splitOff_fst_maxOff h, maxOff]; omega
  agrees _ hs := hs.splitOff_fst h

/-- The second part is a piece. -/
theorem splitOff_snd_piece (b : RangeBuf) {idx : ℕ} (h : idx ≤ b.len) :
    (b.splitOff idx).2.Piece b where
  off_le := Nat.le_add_right _ _
  maxOff_le := (splitOff_snd_maxOff h).le
  agrees _ hs := hs.splitOff_snd h

/-- Bytes that follow those a chunk speaks about do not matter to it. -/
theorem AgreesWith.append {b : RangeBuf} {s : List UInt8} (h : b.AgreesWith s)
    (hmax : b.maxOff ≤ s.length) (t : List UInt8) : b.AgreesWith (s ++ t) := by
  intro x hx
  rw [List.getElem?_append_left (hx.2.trans_le hmax)]
  exact h x hx

/-- The bytes of `out` followed by those of `b`, which continues `out` or starts the
output. -/
def joined (out b : RangeBuf) (fin : Bool) : RangeBuf :=
  ⟨out.data ++ b.data, if out.isEmpty then b.off else out.off, fin⟩

/-- Lengths are added. -/
theorem joined_len (out b : RangeBuf) (fin : Bool) : (out.joined b fin).len = out.len + b.len :=
  List.length_append

/-- Chunks are joined where the first one ends. -/
theorem joined_off {out b : RangeBuf} (hout : 0 < out.len → out.maxOff = b.off) (fin : Bool) :
    (out.joined b fin).off + out.len = b.off := by
  unfold joined
  by_cases hempty : out.isEmpty = true
  · rw [if_pos hempty, RangeBuf.isEmpty_iff.mp hempty, Nat.add_zero]
  · rw [if_neg hempty]
    exact hout (Nat.pos_of_ne_zero (mt RangeBuf.isEmpty_iff.mpr hempty))

/-- Joined chunks end where the second one ends. -/
theorem joined_maxOff {out b : RangeBuf} (hout : 0 < out.len → out.maxOff = b.off) (fin : Bool) :
    (out.joined b fin).maxOff = b.maxOff := by
  have hoff := joined_off hout fin
  have hlen := joined_len out b fin
  unfold maxOff
  omega

/-- Joined chunks cover what one of them covers. -/
theorem joined_covers {out b : RangeBuf} (hout : 0 < out.len → out.maxOff = b.off) (fin : Bool)
    {x : ℕ} : (out.joined b fin).Covers x ↔ out.Covers x ∨ b.Covers x := by
  have hoff := joined_off hout fin
  have hmax := joined_maxOff hout fin
  unfold Covers
  rw [hmax]
  rcases Nat.eq_zero_or_pos out.len with hempty | hpos
  · unfold maxOff
    omega
  · have hadj := hout hpos
    unfold maxOff at *
    omega

/-- Joined chunks agree with the stream. -/
theorem AgreesWith.joined {out b : RangeBuf} {s : List UInt8} (h : out.AgreesWith s)
    (hb : b.AgreesWith s) (hout : 0 < out.len → out.maxOff = b.off) (fin : Bool) :
    (out.joined b fin).AgreesWith s := by
  intro x hx
  have hoff := joined_off hout fin
  change s[x]? = (out.data ++ b.data)[x - (out.joined b fin).off]?
  rw [List.getElem?_append]
  have hlen : out.data.length = out.len := rfl
  split_ifs with hlt
  · have hpos : 0 < out.len := by omega
    have hadj := hout hpos
    have hstart : (out.joined b fin).off = out.off := by
      unfold maxOff at hadj
      omega
    rw [hstart]
    refine h x ⟨hstart ▸ hx.1, ?_⟩
    unfold maxOff
    omega
  · have hlow := hx.1
    have hcover : b.Covers x := ⟨by omega, joined_maxOff hout fin ▸ hx.2⟩
    rw [hb x hcover]
    congr 1
    omega

end RangeBuf

end Dtp
