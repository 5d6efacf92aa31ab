import Mathlib.Tactic.IntervalCases
import Dtp.Error
import Dtp.Frame
import Dtp.Lib.BigEndian
import Dtp.Lib.Cursor

/-!
# Byte buffers

Packets are read from and written to a buffer with an offset: integers in network byte order,
and integers of variable length, whose first two bits tell their length.

## Main definitions

* `Octets` — the buffer, with its reads and writes
* `varintIn`, `varintBytes` — the encodings of an integer of variable length, and the shortest of
  them

## Main results

* `Octets.putVarint_writes`, `Octets.getVarint_reads` — an integer is written and read back
* `Octets.getVarint_reads_in` — an integer is read in any encoding
* `Octets.varint_codec` — integers are written and read at every length, and any input is read as
  its first byte tells
* `Octets.getVarint_parses` — what is read from unknown bytes is less than `2 ^ 62`
-/

namespace Dtp

open Lib (Program Cursor beBytes beValue tagFirst untagFirst)

/-- A buffer of bytes with an offset. -/
abbrev Octets := Cursor UInt8

/-- The length of the longest slice of bytes. -/
def maxSlice : ℕ := 2 ^ 63 - 1

/-- A slice of bytes. -/
def Slice : Type := { bytes : List UInt8 // bytes.length ≤ maxSlice }

/-- Returns how long the variable-length integer is, given its first byte. -/
def varintParseLen (first : UInt8) : ℕ :=
  match (first >>> 6).toNat with
  | 0 => 1
  | 1 => 2
  | 2 => 4
  | _ => 8

namespace Octets

/-- The remaining capacity in the buffer. -/
def cap (b : Octets) : ℕ := b.after.length

/-- The next byte, which is not consumed. -/
def peekU8 : Program Error Octets UInt8 := do
  let b ← get
  match b.after with
  | [] => Program.fail .bufferTooShort
  | v :: _ => pure v

/-- The next bytes. -/
def getBytes (len : ℕ) : Program Error Octets (List UInt8) := Cursor.take .bufferTooShort len

/-- Reads an unsigned integer of `len` bytes in network byte order. -/
def getUint (len : ℕ) : Program Error Octets ℕ := beValue <$> getBytes len

/-- A number of one byte. -/
def getU8 : Program Error Octets ℕ := getUint 1

/-- A number of two bytes. -/
def getU16 : Program Error Octets ℕ := getUint 2

/-- A number of four bytes. -/
def getU32 : Program Error Octets ℕ := getUint 4

/-- A number of variable length, which is announced by its first two bits. -/
def getVarint : Program Error Octets ℕ := do
  let first ← peekU8
  let vec ← getBytes (varintParseLen first)
  -- Mask the 2 most significant bits to remove the encoded length.
  pure (beValue (untagFirst vec))

/-- Bytes after their length in one byte. -/
def getBytesWithU8Length : Program Error Octets (List UInt8) := do
  let len ← getU8
  getBytes len

/-- Bytes after their length. -/
def getBytesWithVarintLength : Program Error Octets (List UInt8) := do
  let len ← getVarint
  getBytes len

/-- Writes bytes. -/
def putBytes (v : List UInt8) : Program Error Octets Unit := Cursor.overwrite .bufferTooShort v

/-- Writes the last `len` bytes of an unsigned integer in network byte order. -/
def putUint (len v : ℕ) : Program Error Octets Unit := putBytes (beBytes len v)

/-- Writes a number in one byte. -/
def putU8 (v : ℕ) : Program Error Octets Unit := putUint 1 v

/-- Writes a number in two bytes. -/
def putU16 (v : ℕ) : Program Error Octets Unit := putUint 2 v

/-- Writes a number in four bytes. -/
def putU32 (v : ℕ) : Program Error Octets Unit := putUint 4 v

/-- Writes a number in a given number of bytes, with their count in the first two bits. -/
def putVarintWithLen (v len : ℕ) : Program Error Octets Unit :=
  match len with
  | 1 => putU8 v
  | 2 => putBytes (tagFirst 0x40 (beBytes 2 v))
  | 4 => putBytes (tagFirst 0x80 (beBytes 4 v))
  | 8 => putBytes (tagFirst 0xc0 (beBytes 8 v))
  | _ => do
    let b ← get
    if b.cap < len then Program.fail .bufferTooShort else Program.crash

/-- Writes an integer of variable length; computing the length of a larger one panics. -/
def putVarint (v : ℕ) : Program Error Octets Unit :=
  if v < 2 ^ 62 then putVarintWithLen v (varintLen v) else Program.crash

/-- Writes some integers of variable length. -/
def putVarints (vs : List ℕ) : Program Error Octets Unit := forM vs putVarint

end Octets

/-! ### Integers of variable length -/

/-- The encoding of an integer in `2 ^ k` bytes; the upper bits of the first byte are `k`. -/
def varintIn (k v : ℕ) : List UInt8 := tagFirst (UInt8.ofNat (64 * k)) (beBytes (2 ^ k) v)

/-- The upper bits of an integer's first byte, in its shortest encoding. -/
def varintTag (v : ℕ) : ℕ :=
  if v ≤ 63 then 0 else if v ≤ 16383 then 1 else if v ≤ 1073741823 then 2 else 3

/-- The encoding of an integer of variable length. -/
def varintBytes (v : ℕ) : List UInt8 := tagFirst (UInt8.ofNat (64 * varintTag v))
    (beBytes (varintLen v) v)

@[simp] theorem varintIn_length (k v : ℕ) : (varintIn k v).length = 2 ^ k := by
  simp [varintIn]

@[simp] theorem varintBytes_length (v : ℕ) : (varintBytes v).length = varintLen v := by
  simp [varintBytes]

/-- Every number has a byte. -/
theorem varintBytes_ne_nil (v : ℕ) : varintBytes v ≠ [] := by
  apply List.ne_nil_of_length_pos
  rw [varintBytes_length]
  exact varintLen_pos v

/-- There are four lengths. -/
theorem varintTag_lt (v : ℕ) : varintTag v < 4 := by
  unfold varintTag
  split_ifs <;> omega

/-- The length is a power of two. -/
theorem varintLen_eq (v : ℕ) : varintLen v = 2 ^ varintTag v := by
  unfold varintLen varintTag
  split_ifs <;> rfl

/-- A number is written in its own length. -/
theorem varintBytes_eq (v : ℕ) : varintBytes v = varintIn (varintTag v) v := by
  rw [varintBytes, varintIn, varintLen_eq]

/-- The length leaves the two bits for the tag free. -/
theorem varintTag_fits {v : ℕ} (h : v < 2 ^ 62) : v < 64 * 256 ^ (2 ^ varintTag v - 1) := by
  unfold varintTag
  split_ifs <;> omega

/-- The length is in the first two bits. -/
theorem varintParseLen_eq (b : UInt8) : varintParseLen b = 2 ^ (b.toNat / 64) := by
  have hb := b.toNat_lt
  have htag : b.toNat / 64 < 4 := by omega
  unfold varintParseLen
  rw [Lib.shiftRight_toNat]
  interval_cases b.toNat / 64 <;> rfl

section VarintIn

variable {k v : ℕ} (hk : k < 4) (h : v < 64 * 256 ^ (2 ^ k - 1))

include hk h

/-- The first byte of an encoding tells its length. -/
theorem varintIn_first : ∃ b bytes, varintIn k v = b :: bytes ∧ varintParseLen b = 2 ^ k := by
  have hwidth : 2 ^ k - 1 + 1 = 2 ^ k := Nat.sub_add_cancel Nat.one_le_two_pow
  obtain ⟨b, hbytes, hb⟩ := Lib.tagFirst_beBytes h hk
  have htag : b.toNat / 64 = k := by
    rw [hb, Nat.add_mul_div_left _ _ (by decide), Nat.div_eq_of_lt (Lib.first_lt h), Nat.zero_add]
  rw [hwidth] at hbytes
  exact ⟨b, _, hbytes, by rw [varintParseLen_eq, htag]⟩

/-- The number is read in whatever length it is written. -/
theorem beValue_varintIn : beValue (untagFirst (varintIn k v)) = v := by
  have hvalue := Lib.beValue_untagFirst h hk
  rwa [Nat.sub_add_cancel Nat.one_le_two_pow] at hvalue

end VarintIn

/-- The first byte announces the length. -/
theorem varintBytes_first {v : ℕ} (h : v < 2 ^ 62) :
    ∃ b bytes, varintBytes v = b :: bytes ∧ varintParseLen b = varintLen v := by
  rw [varintBytes_eq, varintLen_eq]
  exact varintIn_first (varintTag_lt v) (varintTag_fits h)

/-- A byte that is its own encoding. -/
theorem varintBytes_of_le {v : ℕ} (h : v ≤ 63) : varintBytes v = [UInt8.ofNat v] := by
  simp [varintBytes, varintTag, varintLen, h, beBytes, tagFirst]

/-- A number has one to eight bytes. -/
theorem varintParseLen_le (b : UInt8) : 1 ≤ varintParseLen b ∧ varintParseLen b ≤ 8 := by
  unfold varintParseLen
  split <;> omega

namespace Octets

open Lib.Cursor

/-! ### Reading what was written -/

section Reads

/-- Bytes are written as they are. -/
theorem putBytes_writes (v : List UInt8) : Writes (putBytes v) v := writes_overwrite _ v

/-- Bytes are written, or there is no room for them. -/
theorem putBytes_fills (v : List UInt8) : Fills .bufferTooShort (putBytes v) v :=
    fills_overwrite _ v

/-- A number is written in big-endian order, or there is no room for it. -/
theorem putUint_fills (len v : ℕ) : Fills .bufferTooShort (putUint len v) (beBytes len v) :=
    putBytes_fills _

/-- A number is written in big-endian order. -/
theorem putUint_writes (len v : ℕ) : Writes (putUint len v) (beBytes len v) := putBytes_writes _

/-- At every length an integer is written in the encoding of that length. -/
theorem putVarintWithLen_fills {k : ℕ} (hk : k < 4) (v : ℕ) :
    Fills .bufferTooShort (putVarintWithLen v (2 ^ k)) (varintIn k v) := by
  unfold varintIn
  interval_cases k
  · have hplain : tagFirst (UInt8.ofNat (64 * 0)) (beBytes (2 ^ 0) v) = beBytes 1 v := by
      simp [beBytes, tagFirst]
    rw [hplain]
    exact putUint_fills 1 v
  · exact putBytes_fills _
  · exact putBytes_fills _
  · exact putBytes_fills _

/-- A number is written in variable length, or there is no room for it. -/
theorem putVarint_fills {v : ℕ} (h : v < 2 ^ 62) : Fills .bufferTooShort (putVarint v)
    (varintBytes v) := by
  rw [putVarint, if_pos h, varintLen_eq, varintBytes_eq]
  exact putVarintWithLen_fills (varintTag_lt v) v

/-- A number is written in variable length. -/
theorem putVarint_writes {v : ℕ} (h : v < 2 ^ 62) : Writes (putVarint v) (varintBytes v) :=
  (putVarint_fills h).writes

/-- Numbers are written one after the other. -/
theorem putVarints_writes {vs : List ℕ} (h : ∀ v ∈ vs, v < 2 ^ 62) :
    Writes (putVarints vs) (vs.flatMap varintBytes) := .forM fun v hv => putVarint_writes (h v hv)

variable (rest : List UInt8)

/-- Bytes are read as they are. -/
theorem getBytes_reads {v : List UInt8} {len : ℕ} (h : v.length = len) :
    Reads (getBytes len) v rest v :=
  reads_take_of_eq _ h rest

/-- A number is read from big-endian order. -/
theorem getUint_reads {len v : ℕ} (h : v < 256 ^ len) :
    Reads (getUint len) (beBytes len v) rest v := by
  have hread := (getBytes_reads rest (Lib.beBytes_length len v)).map (f := beValue)
  rwa [Lib.beValue_beBytes h] at hread

/-- An integer is read in any encoding. -/
theorem getVarint_reads_in {k v : ℕ} (hk : k < 4) (h : v < 64 * 256 ^ (2 ^ k - 1)) :
    Reads getVarint (varintIn k v) rest v := by
  obtain ⟨b, bytes, hbytes, hparse⟩ := varintIn_first hk h
  have hpeek : Reads peekU8 [] (varintIn k v ++ rest) b := by
    intro before
    rw [hbytes, List.append_nil]
    rfl
  have hvec : Reads (getBytes (varintParseLen b)) (varintIn k v) rest (varintIn k v) :=
    getBytes_reads rest (by rw [hparse, varintIn_length])
  have hread : Reads (do let vec ← getBytes (varintParseLen b); pure (beValue (untagFirst vec)))
      (varintIn k v ++ []) rest (beValue (untagFirst (varintIn k v))) := .bind hvec (.pure rest _)
  rw [beValue_varintIn hk h, List.append_nil] at hread
  exact hpeek.bind hread

/-- A number is read from variable length. -/
theorem getVarint_reads {v : ℕ} (h : v < 2 ^ 62) : Reads getVarint (varintBytes v) rest v := by
  rw [varintBytes_eq]
  exact getVarint_reads_in rest (varintTag_lt v) (varintTag_fits h)

/-- Bytes after their length are read. -/
theorem getBytesWithU8Length_reads {v : List UInt8} (h : v.length < 256) :
    Reads getBytesWithU8Length (beBytes 1 v.length ++ v) rest v :=
  (getUint_reads _ (by omega)).bind (getBytes_reads rest rfl)

/-- Bytes after their length are read. -/
theorem getBytesWithVarintLength_reads {v : List UInt8} (h : v.length < 2 ^ 62) :
    Reads getBytesWithVarintLength (varintBytes v.length ++ v) rest v :=
  (getVarint_reads _ h).bind (getBytes_reads rest rfl)

end Reads

/-! ### Reading unknown bytes -/

section Parses

variable {max : ℕ}

/-- As many bytes are read as asked for. -/
theorem getBytes_parses (len : ℕ) : Parses max (getBytes len) len fun v => v.length = len :=
    parses_take _ len

/-- A number of some bytes is smaller than the power of their count. -/
theorem getUint_parses (len : ℕ) : Parses max (getUint len) len (· < 256 ^ len) :=
  (getBytes_parses len).map fun v hv => hv ▸ Lib.beValue_lt v

/-- What is read as an integer of variable length can be written as one. -/
theorem getVarint_parses : Parses max getVarint 1 (· < 2 ^ 62) := by
  have hpeek : Parses max peekU8 0 fun _ => True := by
    intro b _
    rw [peekU8, Program.ends_bind, Program.ends_get]
    cases b.after with
    | nil => exact ⟨⟨_, rfl⟩, .refl b⟩
    | cons v _ => exact ⟨trivial, .refl b⟩
  refine (hpeek.bind fun first _ => ?_).mono (fun _ h => h) (by rw [Nat.zero_add])
  refine ((getBytes_parses _).bind fun vec hvec => .pure (Q := (· < 2 ^ 62)) ?_).mono (fun _ h => h)
    (varintParseLen_le first).1
  have hlt := Lib.beValue_untagFirst_lt vec
  have hwidth : 256 ^ (vec.length - 1) ≤ 256 ^ 7 :=
    Nat.pow_le_pow_right (by decide) (by have := (varintParseLen_le first).2; omega)
  calc beValue (untagFirst vec) < 64 * 256 ^ (vec.length - 1) := hlt
    _ ≤ 64 * 256 ^ 7 := Nat.mul_le_mul_left _ hwidth
    _ = 2 ^ 62 := rfl

/-- The length takes one byte. -/
theorem getBytesWithU8Length_parses : Parses max getBytesWithU8Length 1 fun v => v.length < 256 :=
  (getUint_parses 1).bind fun len hlen =>
    (getBytes_parses len).mono (fun v hv => by omega) (Nat.zero_le _)

/-- The length takes one byte at least. -/
theorem getBytesWithVarintLength_parses : Parses max getBytesWithVarintLength 1 fun v =>
    v.length < 2 ^ 62 :=
  getVarint_parses.bind fun len hlen => (getBytes_parses len).mono (fun v hv => by omega)
    (Nat.zero_le _)

end Parses

/-! ### The codec -/

/-- The writer fills `len` bytes, from which `v` is read back, whatever stands around them. -/
def WritesVarint (put : Program Error Octets Unit) (len v : ℕ) : Prop :=
  ∃ bytes, bytes.length = len ∧ Writes put bytes ∧ ∀ rest, Reads getVarint bytes rest v

/-- An integer is read from as many bytes as the first one tells, without its two upper bits. Where
bytes are missing, the read fails, and the offset stays. -/
def ReadsVarint (b : Octets) : Prop :=
  match b.after with
  | [] => getVarint b = .error (.error .bufferTooShort) b
  | first :: _ =>
    let len := varintParseLen first
    (len ≤ b.cap → getVarint b =
      .ok (beValue (b.after.take len) % 2 ^ (8 * len - 2)) ⟨b.before ++ b.after.take len,
        b.after.drop len⟩) ∧
      (b.cap < len → getVarint b = .error (.error .bufferTooShort) b)

/-- Numbers can be written in more bytes than they need. -/
theorem writesVarint_in {k v : ℕ} (hk : k < 4) (h : v < 64 * 256 ^ (2 ^ k - 1)) :
    WritesVarint (putVarintWithLen v (2 ^ k)) (2 ^ k) v :=
  ⟨varintIn k v, varintIn_length k v, (putVarintWithLen_fills hk v).writes, fun rest =>
    getVarint_reads_in rest hk h⟩

/-- Numbers are written in the bytes they need. -/
theorem writesVarint {v : ℕ} (h : v < 2 ^ 62) : WritesVarint (putVarint v) (varintLen v) v :=
  ⟨varintBytes v, varintBytes_length v, putVarint_writes h, fun rest => getVarint_reads rest h⟩

/-- The bits of `len` bytes without two. -/
theorem two_pow_bits {len : ℕ} (h : 1 ≤ len) : 256 ^ (len - 1) * 64 = 2 ^ (8 * len - 2) := by
  obtain ⟨n, rfl⟩ := Nat.exists_eq_add_of_le' h
  have hbits : 8 * (n + 1) - 2 = 8 * n + 6 := by omega
  rw [hbits, Nat.pow_add, Nat.pow_mul, Nat.add_sub_cancel]

/-- Whatever bytes there are, they are a number, or too few. -/
theorem readsVarint (b : Octets) : ReadsVarint b := by
  obtain ⟨before, after⟩ := b
  cases after with
  | nil => rfl
  | cons first rest =>
    have hpeek : getVarint ⟨before, first :: rest⟩ =
        (do let vec ← getBytes (varintParseLen first); pure (beValue (untagFirst vec))) ⟨before,
          first :: rest⟩ := rfl
    refine ⟨fun hroom => ?_, fun hshort => ?_⟩
    · have hlen : ((first :: rest).take (varintParseLen first)).length = varintParseLen first :=
        List.length_take_of_le hroom
      have htake := getBytes_reads ((first :: rest).drop (varintParseLen first)) hlen before
      rw [List.take_append_drop] at htake
      rw [hpeek, Program.bind_apply, htake]
      dsimp only
      rw [Program.pure_apply, Lib.beValue_untagFirst_mod, hlen,
        two_pow_bits (varintParseLen_le first).1]
    · change (first :: rest).length < varintParseLen first at hshort
      rw [hpeek, Program.bind_apply, getBytes, Cursor.take, Program.bind_apply, Program.get_apply]
      dsimp only
      rw [if_pos hshort]
      rfl

/-- Integers of variable length are written at their shortest length, or any other at which they
leave the two upper bits free, and are read back; and every input is read as the first byte tells.
-/
theorem varint_codec :
    (∀ v < 2 ^ 62, WritesVarint (putVarint v) (varintLen v) v) ∧
      (∀ k < 4, ∀ v < 2 ^ (8 * 2 ^ k - 2), WritesVarint (putVarintWithLen v (2 ^ k)) (2 ^ k) v) ∧
      ∀ b : Octets, ReadsVarint b := by
  refine ⟨fun v hv => writesVarint hv, fun k hk v hv => writesVarint_in hk ?_, readsVarint⟩
  rwa [Nat.mul_comm, two_pow_bits Nat.one_le_two_pow]

end Octets

end Dtp
