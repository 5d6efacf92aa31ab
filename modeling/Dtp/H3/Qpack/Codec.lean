import Dtp.H3.Qpack.Huffman
import Dtp.H3.Qpack.StaticTable

/-!
# Header blocks

A header block is a list of header fields. A field of the static table is written as its index, a
field whose name is in the table as the index of that and the value, and any other field as name
and value. The dynamic table is not used. Integers start in the lower bits of a byte, whose upper
bits tell how the field is represented.

## Main definitions

* `Header.new` — a header, with its name in lower case
* `encode`, `decode` — writing and reading a header block
* `Header.size` — what a header counts for the limit of the decoder

## Main results

* `encodeInt_fills` — an integer is written and read back
* `decode_encode` — a header block is read back, if it does not exceed the limit
-/

namespace Dtp.H3

open Lib (Program Cursor)
open Lib.Cursor (Fills FillsAs Reads)

/-- The bytes of a string. -/
def utf8 (s : String) : List UInt8 := s.toByteArray.data.toList

/-- The string with some bytes, if these are valid. -/
def fromUtf8 (b : List UInt8) : Option String := String.fromUTF8? ⟨b.toArray⟩

/-- Creates a new header. Its name is converted into lower-case. -/
def Header.new (toLowercase : String → String) (name value : String) :
    Header := ⟨toLowercase name, value⟩

/-- What a header counts for the limit of the decoder. -/
def Header.size (h : Header) : ℕ := (utf8 h.name).length + (utf8 h.value).length

namespace Qpack

/-- The first byte of an indexed header. -/
def indexedFlag : ℕ := 0x80

/-- The first byte of an indexed header after the base. -/
def indexedWithPostBaseFlag : ℕ := 0x10

/-- The first byte of a literal header. -/
def literalFlag : ℕ := 0x20

/-- The first byte of a literal header with the name of an entry. -/
def literalWithNameRefFlag : ℕ := 0x40

/-! ### The encoder -/

/-- Encodes what is left of an integer after its first byte. -/
def encodeIntLoop (v : ℕ) : Program Error Octets Unit :=
  if 128 ≤ v then do
    putU8 (v % 128 + 128)
    encodeIntLoop (v >>> 7)
  else putU8 v
termination_by v
decreasing_by
  rw [Nat.shiftRight_eq_div_pow]
  omega

/-- An integer in the low bits of a first byte, or behind it, seven bits at a time. -/
def encodeInt (v first bits : ℕ) : Program Error Octets Unit :=
  let mask := 2 ^ bits - 1
  if v < mask then putU8 (first ||| v)
  else do
    putU8 (first ||| mask)
    encodeIntLoop (v - mask)

/-- A string, Huffman encoded, after its length. -/
def encodeStr (v : String) (bits : ℕ) : Program Error Octets Unit := do
  encodeInt (Huffman.encodeOutputLength (utf8 v)) 0x80 bits
  Huffman.encode (utf8 v)

/-- A header as an entry of the static table, or with the name of one, or in full. -/
def encodeHeader (h : Header) : Program Error Octets Unit :=
  match lookupStatic h with
  -- Encode as statically indexed.
  | some (idx, true) => encodeInt idx (indexedFlag ||| 0x40) 6
  -- Encode value as literal with static name reference.
  | some (idx, false) => do
    encodeInt idx (literalWithNameRefFlag ||| 0x10) 4
    encodeStr h.value 7
  -- Encode as fully literal.
  | none => do
    encodeInt (Huffman.encodeOutputLength (utf8 h.name)) (literalFlag ||| 0x08) 3
    Huffman.encode (utf8 h.name)
    encodeStr h.value 7

/-- Encodes a list of headers into a header block, and returns its length. -/
def encode (headers : List Header) : Program Error Octets ℕ := do
  -- Request Insert Count.
  encodeInt 0 0 8
  -- Base.
  encodeInt 0 0 7
  forM headers encodeHeader
  let b ← get
  pure b.before.length

/-! ### The decoder -/

/-- The next bytes. -/
def getBytes (len : ℕ) : Program Error Octets (List UInt8) := Cursor.take .bufferTooShort len

/-- The next byte. -/
def getU8 : Program Error Octets ℕ := Lib.beValue <$> getBytes 1

/-- The next byte, which is not consumed. -/
def peekU8 : Program Error Octets ℕ := do
  let b ← get
  match b.after with
  | [] => Program.fail .bufferTooShort
  | v :: _ => pure v.toNat

/-- Decodes what is left of an integer after its first byte. There are at most `fuel` bytes. -/
def decodeIntLoop : ℕ → ℕ → ℕ → Program Error Octets ℕ
  | 0, _, _ => Program.fail .bufferTooShort
  | fuel + 1, val, shift => do
    if Octets.cap (← get) = 0 then Program.fail .bufferTooShort
    else
      let byte ← getU8
      if 64 ≤ shift then Program.fail .bufferTooShort
      else
        let val := val + ((byte &&& 0x7f) <<< shift % 2 ^ 64)
        if 2 ^ 64 ≤ val then Program.fail .bufferTooShort
        else if byte &&& 0x80 = 0 then pure val
        else decodeIntLoop fuel val (shift + 7)

/-- An integer with a prefix of some bits. -/
def decodeInt (bits : ℕ) : Program Error Octets ℕ := do
  let mask := 2 ^ bits - 1
  let first ← getU8
  let val := first &&& mask
  if val < mask then pure val
  else
    let b ← get
    decodeIntLoop (Octets.cap b) val 0

/-- Reads a string of some length, which may be encoded. -/
def decodeChars (huff : Bool) (len : ℕ) : Program Error Octets String := do
  let val ← getBytes len
  let val ← if huff then Program.ofExcept (Huffman.decode val) else pure val
  match fromUtf8 val with
  | some val => pure val
  | none => Program.fail .invalidHeaderValue

/-- A string, which may be Huffman encoded. -/
def decodeStr : Program Error Octets String := do
  let first ← peekU8
  let huff := first &&& 0x80 = 0x80
  let len ← decodeInt 7
  decodeChars huff len

/-- The representations of a header. -/
inductive Representation
  | indexed
  | indexedWithPostBase
  | literal
  | literalWithNameRef
  | literalWithPostBase
  deriving DecidableEq, Repr

/-- The representation that a first byte announces. -/
def Representation.fromByte (b : ℕ) : Representation :=
  if b &&& indexedFlag = indexedFlag then .indexed
  else if b &&& literalWithNameRefFlag = literalWithNameRefFlag then .literalWithNameRef
  else if b &&& literalFlag = literalFlag then .literal
  else if b &&& indexedWithPostBaseFlag = indexedWithPostBaseFlag then .indexedWithPostBase
  else .literalWithPostBase

/-- The field of the static table at an index. -/
def lookupIndex (idx : ℕ) : Program Error Octets (String × String) :=
  match staticTable[idx]? with
  | some field => pure field
  | none => Program.fail .invalidStaticTableIndex

/-- Decodes the name and the value of a header. -/
def decodeHeader : Program Error Octets (String × String) := do
  let first ← peekU8
  match Representation.fromByte first with
  | .indexed =>
    let index ← decodeInt 6
    -- There is no dynamic table.
    if first &&& 0x40 ≠ 0x40 then Program.fail .invalidHeaderValue
    else lookupIndex index
  | .indexedWithPostBase =>
    let _ ← decodeInt 4
    Program.fail .invalidHeaderValue
  | .literal =>
    let nameLen ← decodeInt 3
    let name ← decodeChars (first &&& 0x08 = 0x08) nameLen
    let value ← decodeStr
    pure (name, value)
  | .literalWithNameRef =>
    let nameIdx ← decodeInt 4
    let value ← decodeStr
    if first &&& 0x10 ≠ 0x10 then Program.fail .invalidHeaderValue
    else
      let (name, _) ← lookupIndex nameIdx
      pure (name, value)
  | .literalWithPostBase => Program.fail .invalidHeaderValue

/-- Decodes headers up to the end of the buffer, which has at most `fuel` of them. They may have a
size of `left`. -/
def decodeHeaders (toLowercase : String → String) : ℕ → ℕ → Program Error Octets (List Header)
  | fuel, left => do
    if Octets.cap (← get) = 0 then pure []
    else
      match fuel with
      | 0 => throw .hang
      | fuel + 1 =>
        let (name, value) ← decodeHeader
        let size := (utf8 name).length + (utf8 value).length
        if left < size then Program.fail .headerListTooLarge
        else
          let out ← decodeHeaders toLowercase fuel (left - size)
          pure (Header.new toLowercase name value :: out)

/-- Decodes a header block. -/
def decode (toLowercase : String → String) (maxSize : ℕ) : Program Error Octets (List Header) := do
  let _ ← decodeInt 8
  let _ ← decodeInt 7
  let b ← get
  decodeHeaders toLowercase (Octets.cap b) maxSize

/-! ### Integers -/

/-- A byte is read as its value. -/
theorem getU8_reads (b : UInt8) (rest : List UInt8) : Reads getU8 [b] rest b.toNat := by
  have hread : Reads (getBytes 1) [b] rest [b] := Lib.Cursor.reads_take_of_eq _ rfl rest
  have hvalue : Lib.beValue [b] = b.toNat := by simp [Lib.beValue]
  rw [← hvalue]
  exact hread.map

/-- The first byte can be looked at before it is read. -/
theorem peekU8_bind {α : Type} {f : ℕ → Program Error Octets α} {b : UInt8}
    {tail rest : List UInt8} {a : α}
    (h : Reads (f b.toNat) (b :: tail) rest a) : Reads (peekU8 >>= f) (b :: tail) rest a := by
  intro before
  rw [Program.bind_apply]
  exact h before

/-- One byte adds seven bits. -/
theorem decodeIntLoop_step {fuel val shift : ℕ} {b : UInt8} (before rest : List UInt8)
    (hshift : shift < 64)
    (hval : val + ((b.toNat &&& 0x7f) <<< shift % 2 ^ 64) < 2 ^ 64) :
    decodeIntLoop (fuel + 1) val shift ⟨before, b :: rest⟩ =
      (if b.toNat &&& 0x80 = 0 then pure (val + ((b.toNat &&& 0x7f) <<< shift % 2 ^ 64))
        else decodeIntLoop fuel (val + ((b.toNat &&& 0x7f) <<< shift % 2 ^ 64)) (shift + 7))
        ⟨before ++ [b], rest⟩ := by
  have hcap : ¬ Octets.cap ⟨before, b :: rest⟩ = 0 := by simp [Octets.cap]
  have hread := getU8_reads b rest before
  rw [List.singleton_append] at hread
  rw [decodeIntLoop, Program.bind_apply, Program.get_apply]
  dsimp only
  rw [if_neg hcap, Program.bind_apply, hread]
  dsimp only
  rw [if_neg (Nat.not_le.mpr hshift), if_neg (Nat.not_le.mpr hval)]

/-- The flag of a byte is apart from its seven bits. -/
theorem seven_bits : ∀ v < 128, v &&& 0x7f = v ∧ v &&& 0x80 = 0 ∧ (v + 128) &&& 0x7f = v ∧
    (v + 128) &&& 0x80 ≠ 0 := by
  decide

/-- What the loop writes, the other loop reads. -/
theorem encodeIntLoop_fills (v : ℕ) : ∃ output, Fills .bufferTooShort (encodeIntLoop v) output ∧
    ∀ {fuel val shift : ℕ}, output.length ≤ fuel → shift < 64 → val + v * 2 ^ shift < 2 ^ 64 →
      ∀ rest, Reads (decodeIntLoop fuel val shift) output rest (val + v * 2 ^ shift) := by
  induction v using Nat.strongRecOn with
  | ind v ih =>
    rw [encodeIntLoop]
    split_ifs with hlarge
    · have hseven : v >>> 7 = v / 128 := Nat.shiftRight_eq_div_pow v 7
      rw [hseven]
      obtain ⟨output, hfills, hreads⟩ := ih (v / 128) (by omega)
      refine ⟨_, (putU8_fills _).bind hfills, ?_⟩
      intro fuel val shift hfuel hshift hval rest before
      rw [List.singleton_append, List.length_cons] at hfuel
      obtain ⟨fuel, rfl⟩ := Nat.exists_eq_add_of_le' (show 1 ≤ fuel by omega)
      obtain ⟨-, -, hlow, hmore⟩ := seven_bits (v % 128) (Nat.mod_lt _ (by decide))
      have hbyte : (UInt8.ofNat (v % 128 + 128)).toNat = v % 128 + 128 := by
        rw [UInt8.toNat_ofNat']
        omega
      have htotal : val + v % 128 * 2 ^ shift + v / 128 * 2 ^
          (shift + 7) = val + v * 2 ^ shift := by
        have hpow : v / 128 * 2 ^ (shift + 7) = v / 128 * 128 * 2 ^ shift := by
          rw [Nat.pow_add, Nat.mul_assoc, Nat.mul_comm (2 ^ shift)]
        rw [hpow, Nat.add_assoc, ← Nat.add_mul, Nat.mod_add_div' v 128]
      have hinc : (v % 128) <<< shift % 2 ^ 64 = v % 128 * 2 ^ shift := by
        rw [Nat.shiftLeft_eq]
        exact Nat.mod_eq_of_lt (by omega)
      -- The next bits are in range, too, since there are some.
      have hshift' : shift + 7 < 64 := by
        have hone : 1 * 2 ^ (shift + 7) ≤ v / 128 * 2 ^ (shift + 7) := Nat.mul_le_mul_right _
          (by omega)
        exact (Nat.pow_lt_pow_iff_right (by decide)).mp (show 2 ^ (shift + 7) < 2 ^ 64 by omega)
      have hstep := @decodeIntLoop_step fuel val shift (UInt8.ofNat (v % 128 + 128)) before
        (output ++ rest) hshift
        (by rw [hbyte, hlow, hinc]; omega)
      rw [hbyte, if_neg hmore, hlow, hinc] at hstep
      have hloop := @hreads fuel (val + v % 128 * 2 ^ shift) (shift + 7) (by omega) hshift'
        (by rwa [htotal]) rest
        (before ++ [UInt8.ofNat (v % 128 + 128)])
      rw [htotal] at hloop
      rw [List.append_assoc, List.singleton_append, hstep, hloop, List.append_assoc]
    · refine ⟨_, putU8_fills v, ?_⟩
      intro fuel val shift hfuel hshift hval rest before
      obtain ⟨fuel, rfl⟩ := Nat.exists_eq_add_of_le' hfuel
      obtain ⟨hlow, hlast, -, -⟩ := seven_bits v (by omega)
      have hbyte : (UInt8.ofNat v).toNat = v := by
        rw [UInt8.toNat_ofNat']
        omega
      have hinc : v <<< shift % 2 ^ 64 = v * 2 ^ shift := by
        rw [Nat.shiftLeft_eq]
        exact Nat.mod_eq_of_lt (by omega)
      have hstep := @decodeIntLoop_step fuel val shift (UInt8.ofNat v) before rest hshift
        (by rw [hbyte, hlow, hinc]; exact hval)
      rw [hbyte, if_pos hlast, hlow, hinc] at hstep
      rw [List.singleton_append, List.length_singleton, hstep]
      rfl

/-- An integer is written with its first bits in the lower bits of a byte, and read back. -/
theorem encodeInt_fills (v : ℕ) {first bits : ℕ} (hbits : bits ≤ 8) (hfirst : first < 256)
    (hlower : first % 2 ^ bits = 0) :
    ∃ low tail, low < 2 ^ bits ∧
      Fills .bufferTooShort (encodeInt v first bits) (UInt8.ofNat (first ||| low) :: tail) ∧
      (first ||| low) < 256 ∧
      (v < 2 ^ 64 →
          ∀ rest, Reads (decodeInt bits) (UInt8.ofNat (first ||| low) :: tail) rest v) := by
  have hpos := Nat.two_pow_pos bits
  -- the prefix goes to the bits that the first byte leaves free
  have hmerge {low : ℕ} (hlow : low < 2 ^ bits) : (first ||| low) = first + low ∧
      first + low < 256 := by
    have hsplit : first = 2 ^ bits * (first / 2 ^ bits) := by
      rw [Nat.mul_div_cancel' (Nat.dvd_of_mod_eq_zero hlower)]
    have hpow : 2 ^ bits * 2 ^ (8 - bits) = 256 := by
      rw [← Nat.pow_add, Nat.add_sub_cancel' hbits]
    have hupper : first / 2 ^ bits < 2 ^ (8 - bits) := by
      rw [Nat.div_lt_iff_lt_mul hpos, Nat.mul_comm, hpow]
      exact hfirst
    have hle : 2 ^ bits * (first / 2 ^ bits + 1) ≤ 256 := hpow ▸ Nat.mul_le_mul_left _ hupper
    rw [Nat.mul_succ] at hle
    constructor
    · rw [hsplit]
      exact (Nat.two_pow_add_eq_or_of_lt hlow _).symm
    · omega
  have hread {low : ℕ} (hlow : low < 2 ^ bits) (rest : List UInt8) (before : List UInt8) :
      getU8 ⟨before, UInt8.ofNat (first ||| low) :: rest⟩ =
        .ok (first ||| low) ⟨before ++ [UInt8.ofNat (first ||| low)], rest⟩ := by
    rw [(hmerge hlow).1]
    have hread := getU8_reads (UInt8.ofNat (first + low)) rest before
    rwa [List.singleton_append, UInt8.toNat_ofNat', Nat.mod_eq_of_lt (hmerge hlow).2] at hread
  have hmask {low : ℕ} (hlow : low < 2 ^ bits) : (first ||| low) &&& (2 ^ bits - 1) = low := by
    rw [Nat.and_two_pow_sub_one_eq_mod, (hmerge hlow).1, Nat.add_mod, hlower, Nat.zero_add,
      Nat.mod_mod,
      Nat.mod_eq_of_lt hlow]
  unfold encodeInt
  dsimp only
  split_ifs with hshort
  · -- the value fits in the prefix
    have hlow : v < 2 ^ bits := by omega
    refine ⟨v, [], hlow, putU8_fills _, (hmerge hlow).1 ▸ (hmerge hlow).2, fun _ rest before => ?_⟩
    simp only [decodeInt, List.singleton_append, Program.bind_apply, hread hlow, hmask hlow,
      if_pos hshort]
    rfl
  · have hlow : 2 ^ bits - 1 < 2 ^ bits := Nat.sub_lt hpos Nat.one_pos
    -- the prefix is full, and the rest follows in groups of seven bits
    obtain ⟨tail, hfills, hreads⟩ := encodeIntLoop_fills (v - (2 ^ bits - 1))
    refine ⟨2 ^ bits - 1, tail, hlow, (putU8_fills _).bind hfills,
      (hmerge hlow).1 ▸ (hmerge hlow).2, ?_⟩
    intro hv rest before
    have hloop := @hreads (tail ++ rest).length (2 ^ bits - 1) 0 (by simp) (by decide)
      (by omega) rest
      (before ++ [UInt8.ofNat (first ||| (2 ^ bits - 1))])
    simp only [decodeInt, List.cons_append, Program.bind_apply, hread hlow, hmask hlow, lt_irrefl,
      if_false,
      Program.get_apply, Octets.cap, hloop]
    rw [Nat.pow_zero, Nat.mul_one, Nat.add_sub_cancel' (Nat.not_lt.mp hshort), List.append_assoc]
    rfl

/-! ### Header fields -/

/-- A string is read from its bytes. -/
theorem fromUtf8_utf8 (s : String) : fromUtf8 (utf8 s) = some s := by
  have hbytes : (⟨(utf8 s).toArray⟩ : ByteArray) = s.toByteArray := by
    rw [utf8, Array.toArray_toList]
  rw [fromUtf8, hbytes]
  exact dif_pos s.isValidUTF8

/-- A string is read from its Huffman code. -/
theorem decodeChars_reads {s : String} {output : List UInt8}
    (h : Huffman.decode output = .ok (utf8 s))
    (rest : List UInt8) : Reads (decodeChars true output.length) output rest s := by
  intro before
  have hread : Reads (getBytes output.length) output rest output :=
    Lib.Cursor.reads_take _ output rest
  simp only [decodeChars, Program.bind_apply, hread before, if_true, h, Program.ofExcept_ok,
    Program.pure_apply,
    fromUtf8_utf8]

theorem byte_toNat {v : ℕ} (h : v < 256) : (UInt8.ofNat v).toNat = v := by
  rw [UInt8.toNat_ofNat', Nat.mod_eq_of_lt h]

/-- A string is written after the number of its bytes, and read back. -/
theorem encodeStr_fills (s : String) : ∃ output, Fills .bufferTooShort (encodeStr s 7) output ∧
    (output.length ≤ maxSlice → ∀ rest, Reads decodeStr output rest s) := by
  obtain ⟨chars, hchars, hlen, hdecode⟩ := Huffman.encode_fills (utf8 s)
  obtain ⟨low, tail, hlow, hint, hbyte, hread⟩ :=
    @encodeInt_fills (Huffman.encodeOutputLength (utf8 s)) 0x80 7 (by decide) (by decide)
      (by decide)
  refine ⟨_, hint.bind hchars, fun hmax rest => ?_⟩
  have hflag : ∀ low < 2 ^ 7, (0x80 ||| low) &&& 0x80 = 0x80 := by decide
  have hlarge : Huffman.encodeOutputLength (utf8 s) < 2 ^ 64 := by
    rw [List.length_append, hlen, maxSlice] at hmax
    omega
  have hchars' := decodeChars_reads hdecode rest
  rw [hlen] at hchars'
  refine peekU8_bind ?_
  simp only [byte_toNat hbyte, hflag low hlow, decide_true]
  exact (hread hlarge (chars ++ rest)).bind hchars'

/-- The first bytes of the representations in use. -/
theorem fromByte_indexed : ∀ low < 2 ^ 6, Representation.fromByte
    (indexedFlag ||| 0x40 ||| low) = .indexed ∧
    (indexedFlag ||| 0x40 ||| low) &&& 0x40 = 0x40 := by
  decide

/-- The first byte of a literal header with a name reference is known as such. -/
theorem fromByte_literalWithNameRef : ∀ low < 2 ^ 4,
    Representation.fromByte (literalWithNameRefFlag ||| 0x10 ||| low) = .literalWithNameRef ∧
      (literalWithNameRefFlag ||| 0x10 ||| low) &&& 0x10 = 0x10 := by
  decide

/-- The first byte of a literal header is known as such. -/
theorem fromByte_literal : ∀ low < 2 ^ 3, Representation.fromByte
    (literalFlag ||| 0x08 ||| low) = .literal ∧
    (literalFlag ||| 0x08 ||| low) &&& 0x08 = 0x08 := by
  decide

/-- A header is written in one of three ways, and read back. -/
theorem encodeHeader_fills (h : Header) : ∃ output, Fills .bufferTooShort (encodeHeader h) output ∧
    output ≠ [] ∧
    (output.length ≤ maxSlice → ∀ rest, Reads decodeHeader output rest (h.name, h.value)) := by
  unfold encodeHeader
  cases hlookup : lookupStatic h with
  | none =>
    -- a literal with a literal name
    obtain ⟨chars, hchars, hlen, hdecode⟩ := Huffman.encode_fills (utf8 h.name)
    obtain ⟨low, tail, hlow, hint, hbyte, hread⟩ :=
      @encodeInt_fills (Huffman.encodeOutputLength (utf8 h.name))
      (literalFlag ||| 0x08) 3 (by decide) (by decide) (by decide)
    obtain ⟨output, hvalue, hreadValue⟩ := encodeStr_fills h.value
    refine ⟨_, hint.bind (hchars.bind hvalue), by simp, fun hmax rest => peekU8_bind ?_⟩
    obtain ⟨hliteral, hhuff⟩ := fromByte_literal low hlow
    rw [List.length_append, List.length_append, hlen, maxSlice] at hmax
    have hname := decodeChars_reads hdecode (output ++ rest)
    rw [hlen] at hname
    rw [byte_toNat hbyte]
    simp only [hliteral, hhuff, decide_true]
    refine (hread (by omega) _).bind (hname.bind ?_)
    exact (hreadValue (by rw [maxSlice]; omega) rest).last
  | some entry =>
    obtain ⟨idx, exact⟩ := entry
    obtain ⟨value, hentry, hexact⟩ := lookupStatic_spec hlookup
    have hidx := lookupStatic_lt hlookup
    cases exact with
    | true =>
      -- an entry of the static table
      obtain ⟨low, tail, hlow, hint, hbyte, hread⟩ :=
        @encodeInt_fills idx (indexedFlag ||| 0x40) 6 (by decide) (by decide) (by decide)
      refine ⟨_, hint, by simp, fun _ rest => peekU8_bind ?_⟩
      obtain ⟨hindexed, hstatic⟩ := fromByte_indexed low hlow
      have hlookup : Reads (lookupIndex idx) [] rest (h.name, h.value) := by
        rw [lookupIndex, hentry, hexact rfl]
        exact .pure rest _
      rw [byte_toNat hbyte]
      simp only [hindexed, hstatic, ne_eq, not_true_eq_false, if_false]
      have hreads := (hread (by omega) rest).bind hlookup
      rwa [List.append_nil] at hreads
    | false =>
      -- a literal whose name is in the static table
      obtain ⟨low, tail, hlow, hint, hbyte, hread⟩ :=
        @encodeInt_fills idx (literalWithNameRefFlag ||| 0x10) 4 (by decide) (by decide) (by decide)
      obtain ⟨output, hvalue, hreadValue⟩ := encodeStr_fills h.value
      refine ⟨_, hint.bind hvalue, by simp, fun hmax rest => peekU8_bind ?_⟩
      obtain ⟨hliteral, hstatic⟩ := fromByte_literalWithNameRef low hlow
      rw [List.length_append] at hmax
      have hlookup : Reads (lookupIndex idx) [] rest (h.name, value) := by
        rw [lookupIndex, hentry]
        exact .pure rest _
      rw [byte_toNat hbyte]
      simp only [hliteral, hstatic, ne_eq, not_true_eq_false, if_false]
      have hreads := (hreadValue (by omega) rest).bind (f := fun value => do
        let (name, _) ← lookupIndex idx
        pure (name, value)) hlookup.last
      rw [List.append_nil] at hreads
      exact (hread (by omega) _).bind hreads

/-! ### Header blocks -/

section Block

variable {toLowercase : String → String} {headers : List Header} {output : Header → List UInt8}
    {fuel left : ℕ}

/-- One turn of the decoder, at a header that can be read. -/
theorem decodeHeaders_cons {h : Header} {input rest : List UInt8} (hne : input ≠ [])
    (hread : Reads decodeHeader input rest (h.name, h.value)) (hname : toLowercase h.name = h.name)
    (before : List UInt8) :
    decodeHeaders toLowercase (fuel + 1) left ⟨before, input ++ rest⟩ =
      if left < h.size then .error (.error .headerListTooLarge) ⟨before ++ input, rest⟩
      else (do
        let out ← decodeHeaders toLowercase fuel (left - h.size)
        pure (h :: out)) ⟨before ++ input, rest⟩ := by
  have hcap : ¬ Octets.cap ⟨before, input ++ rest⟩ = 0 := by
    simp [Octets.cap, hne]
  have hnew : Header.new toLowercase h.name h.value = h := by
    rw [Header.new, hname]
  have hsize : (utf8 h.name).length + (utf8 h.value).length = h.size := rfl
  rw [decodeHeaders, Program.bind_apply, Program.get_apply]
  simp only [if_neg hcap, Program.bind_apply, hread before, hnew, hsize]
  split_ifs
  · rfl
  · rw [Program.bind_apply]

/-- The decoder reads all headers, or finds them too large. -/
theorem decodeHeaders_eq (hname : ∀ h ∈ headers, toLowercase h.name = h.name)
    (hne : ∀ h ∈ headers, output h ≠ [])
    (hreads : ∀ h ∈ headers, ∀ rest, Reads decodeHeader (output h) rest (h.name, h.value))
    (hfuel : (headers.flatMap output).length ≤ fuel) (before : List UInt8) :
    ((headers.map Header.size).sum ≤ left →
      decodeHeaders toLowercase fuel left ⟨before, headers.flatMap output⟩ =
      .ok headers ⟨before ++ headers.flatMap output, []⟩) ∧
    (left < (headers.map Header.size).sum → ∃ b, decodeHeaders toLowercase fuel left
      ⟨before, headers.flatMap output⟩ = .error (.error .headerListTooLarge) b) := by
  induction headers generalizing fuel left before with
  | nil =>
    refine ⟨fun _ => ?_, fun hlarge => absurd hlarge (Nat.not_lt_zero _)⟩
    rw [List.flatMap_nil, List.append_nil]
    unfold decodeHeaders
    rfl
  | cons h headers ih =>
    have hpos := List.length_pos_iff.mpr (hne h List.mem_cons_self)
    rw [List.flatMap_cons, List.length_append] at hfuel
    obtain ⟨fuel, rfl⟩ := Nat.exists_eq_add_of_le' (show 1 ≤ fuel by omega)
    obtain ⟨hfits, hlarge⟩ :=
      @ih fuel (left - h.size) (fun g hg => hname g (List.mem_cons_of_mem h hg))
      (fun g hg => hne g (List.mem_cons_of_mem h hg))
        (fun g hg => hreads g (List.mem_cons_of_mem h hg)) (by omega)
      (before ++ output h)
    rw [List.map_cons, List.sum_cons, List.flatMap_cons,
      decodeHeaders_cons (hne h List.mem_cons_self)
      (hreads h List.mem_cons_self _) (hname h List.mem_cons_self)]
    refine ⟨fun hsize => ?_, fun hsize => ?_⟩
    · rw [if_neg (by omega), Program.bind_apply, hfits (by omega), List.append_assoc]
      rfl
    · by_cases hfirst : left < h.size
      · exact ⟨_, if_pos hfirst⟩
      · obtain ⟨b, hb⟩ := hlarge (by omega)
        exact ⟨b, by rw [if_neg hfirst, Program.bind_apply, hb]⟩

end Block

/-- A header block is written, if there is room for it, and read back. -/
theorem exists_block {toLowercase : String → String} {headers : List Header}
    (hlowered : ∀ h ∈ headers, toLowercase h.name = h.name) : ∃ output, output ≠ [] ∧
      (∀ after : List UInt8, output.length ≤ after.length →
        encode headers ⟨[], after⟩ = .ok output.length ⟨output, after.drop output.length⟩) ∧
      (∀ after : List UInt8, after.length < output.length →
        ∃ b, encode headers ⟨[], after⟩ = .error (.error .bufferTooShort) b) ∧
      (output.length ≤ maxSlice → ∀ maxSize,
        ((headers.map Header.size).sum ≤ maxSize → ∃ b, decode toLowercase maxSize ⟨[], output⟩ =
          .ok headers b) ∧
        (maxSize < (headers.map Header.size).sum →
          ∃ b, decode toLowercase maxSize ⟨[], output⟩ =
              .error (.error .headerListTooLarge) b)) := by
  choose output hfills hne hreads using encodeHeader_fills
  obtain ⟨low₁, tail₁, -, hcount, -, hreadCount⟩ :=
    @encodeInt_fills 0 0 8 (by decide) (by decide) (by decide)
  obtain ⟨low₂, tail₂, -, hbase, -, hreadBase⟩ :=
    @encodeInt_fills 0 0 7 (by decide) (by decide) (by decide)
  -- the prefix of the block is two integers, both zero
  have hblock : Fills .bufferTooShort
    (do encodeInt 0 0 8; encodeInt 0 0 7; forM headers encodeHeader)
      ((UInt8.ofNat (0 ||| low₁) :: tail₁) ++
        ((UInt8.ofNat (0 ||| low₂) :: tail₂) ++ headers.flatMap output)) :=
    hcount.bind (hbase.bind (.forM fun g _ => hfills g))
  have hnonempty : UInt8.ofNat (0 ||| low₁) :: tail₁ ≠ [] := List.cons_ne_nil _ _
  generalize hcountBytes : UInt8.ofNat (0 ||| low₁) :: tail₁ = countBytes at *
  generalize hbaseBytes : UInt8.ofNat (0 ||| low₂) :: tail₂ = baseBytes at *
  have hsplit :
      encode headers = (do encodeInt 0 0 8; encodeInt 0 0 7; forM headers encodeHeader) >>=
          (fun _ => do
      let b ← get
      pure b.before.length) := by
    simp only [encode, bind_assoc]
  refine ⟨countBytes ++ (baseBytes ++ headers.flatMap output),
    List.append_ne_nil_of_left_ne_nil hnonempty _,
    fun after hroom => ?_, fun after hroom => ?_, fun hmax maxSize => ?_⟩
  · rw [hsplit, Program.bind_apply, hblock.writes _ _ hroom]
    rfl
  · obtain ⟨b, hb⟩ := hblock.fails [] after hroom
    exact ⟨b, by rw [hsplit, Program.bind_apply, hb]⟩
  · rw [List.length_append, List.length_append] at hmax
    -- no header is longer than a slice may be
    have hmem (g : Header) (hg : g ∈ headers) (rest : List UInt8) :
        Reads decodeHeader (output g) rest (g.name, g.value) := by
      refine hreads g ?_ rest
      obtain ⟨left, right, hparts⟩ := List.append_of_mem hg
      rw [hparts, List.flatMap_append, List.flatMap_cons, List.length_append,
        List.length_append] at hmax
      omega
    have hdecode :
      decode toLowercase maxSize ⟨[], countBytes ++ (baseBytes ++ headers.flatMap output)⟩ =
        decodeHeaders toLowercase (headers.flatMap output).length maxSize
          ⟨countBytes ++ baseBytes, headers.flatMap output⟩ := by
      simp only [decode, Program.bind_apply,
        hreadCount (by decide) (baseBytes ++ headers.flatMap output) [],
        List.nil_append, hreadBase (by decide) (headers.flatMap output) countBytes,
          Program.get_apply, Octets.cap]
    obtain ⟨hfits, hlarge⟩ :=
      @decodeHeaders_eq toLowercase headers output _ maxSize hlowered (fun g _ => hne g) hmem
      le_rfl (countBytes ++ baseBytes)
    rw [hdecode]
    exact ⟨fun hsize => ⟨_, hfits hsize⟩, hlarge⟩

/-- The names of new headers are in lower case. -/
theorem lowered_new {toLowercase : String → String}
    (hlower : ∀ s, toLowercase (toLowercase s) = toLowercase s)
    (fields : List (String × String)) :
    ∀ h ∈ fields.map fun field => Header.new toLowercase field.1 field.2, toLowercase h.name =
        h.name := by
  intro h hh
  obtain ⟨field, -, rfl⟩ := List.mem_map.mp hh
  exact hlower field.1

/-- A header block that could be written is read back, if it does not exceed the limit of the
decoder, and is else refused as too large. Converting a name into lower case twice is the same as
doing so once. -/
theorem decode_encode {toLowercase : String → String}
    (hlower : ∀ s, toLowercase (toLowercase s) = toLowercase s)
    (fields : List (String × String)) (out : Slice) {n : ℕ} {b : Octets}
    (h : encode (fields.map fun field => Header.new toLowercase field.1 field.2) ⟨[], out.1⟩ =
      .ok n b)
    (maxSize : ℕ) :
    let headers := fields.map fun field => Header.new toLowercase field.1 field.2
    ((headers.map Header.size).sum ≤ maxSize →
      ∃ b', decode toLowercase maxSize ⟨[], (b.before ++ b.after).take n⟩ = .ok headers b') ∧
    (maxSize < (headers.map Header.size).sum → ∃ b', decode toLowercase maxSize
      ⟨[], (b.before ++ b.after).take n⟩ = .error (.error .headerListTooLarge) b') := by
  intro headers
  obtain ⟨output, -, hwrites, hfails, hdecode⟩ := exists_block (lowered_new hlower fields)
  have hroom : output.length ≤ out.1.length := by
    by_contra hroom
    obtain ⟨b', hb'⟩ := hfails out.1 (not_le.mp hroom)
    rw [hb'] at h
    cases h
  rw [hwrites out.1 hroom] at h
  cases h
  dsimp only
  rw [List.take_left]
  exact hdecode (hroom.trans out.2) maxSize

theorem toLower_toLower (s : String) : s.toLower.toLower = s.toLower := by
  have hchar (c : Char) : c.toLower.toLower = c.toLower := by
    unfold Char.toLower
    split_ifs with h h'
    · simp only [ge_iff_le, UInt32.le_iff_toNat_le, UInt32.toNat_add, UInt32.toNat_sub] at h h'
      simp at h h'
      omega
    · rfl
    · rfl
  change (s.map Char.toLower).map Char.toLower = s.map Char.toLower
  rw [String.map_map]
  exact congrArg (String.map · s) (funext hchar)

/-- Three fields: one of the static table, one with a name of it, and one with neither. -/
theorem decode_encode_three : ∃ n b headers b',
    encode headers ⟨[], List.replicate 32 0⟩ = .ok n b ∧
      headers = [("age", "0"), ("accept", "text"), ("DTP", "é")].map (fun field =>
        Header.new String.toLower field.1 field.2) ∧
      decode String.toLower 19 ⟨[], (b.before ++ b.after).take n⟩ = .ok headers b' := by
  have hwritten : (encode ([("age", "0"), ("accept", "text"), ("DTP", "é")].map fun field =>
      Header.new String.toLower field.1 field.2) ⟨[], List.replicate 32 0⟩ matches .ok _ _) =
        true := by decide +kernel
  split at hwritten
  case h_1 n b hencode =>
    obtain ⟨hfits, -⟩ := decode_encode toLower_toLower _ ⟨List.replicate 32 0, by decide⟩ hencode 19
    obtain ⟨b', hdecode⟩ := hfits (by decide +kernel)
    exact ⟨n, b, _, b', hencode, rfl, hdecode⟩
  case h_2 => cases hwritten

end Qpack

end Dtp.H3
