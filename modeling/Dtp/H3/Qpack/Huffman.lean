import Dtp.H3.Qpack.HuffmanTable
import Dtp.Lib.PrefixCode
import Dtp.Octets

/-!
# The Huffman code of QPACK

Strings are written as the words of their bytes, padded to whole bytes with the first bits of the
word for the end. The decoder reads four bits at a time by a table. Its states are the proper
prefixes of the words.

## Main definitions

* `Qpack.Error` — the errors of QPACK
* `encode`, `encodeOutputLength` — writing a string
* `decode` — reading it, with the `Decoder`

## Main results

* `encode_fills`, `decode_encoded` — a string is written, and read back
* `encode_decode_exact` — and nothing else is accepted
-/

namespace Dtp.H3.Qpack

open Lib (Program Cursor bits)
open Lib.Cursor (Fills FillsAs)

/-- A QPACK error. -/
inductive Error
  | bufferTooShort
  | invalidHuffmanEncoding
  | invalidStaticTableIndex
  | invalidHeaderValue
  | headerListTooLarge
  deriving DecidableEq, Repr

/-- Writes a byte. -/
def putU8 (v : ℕ) : Program Error Octets Unit := Cursor.overwrite .bufferTooShort [UInt8.ofNat v]

/-- A byte is written, or there is no room for it. -/
theorem putU8_fills (v : ℕ) : Fills .bufferTooShort (putU8 v) [UInt8.ofNat v] :=
    Lib.Cursor.fills_overwrite _ _

namespace Huffman

/-- Writes out the whole bytes of the bits; `bitsLeft` of the lower 40 are free. -/
def flush (bits bitsLeft : ℕ) : Program Error Octets (ℕ × ℕ) :=
  if bitsLeft ≤ 32 then do
    putU8 (bits >>> 32)
    flush (bits <<< 8 % 2 ^ 64) (bitsLeft + 8)
  else pure (bits, bitsLeft)
termination_by 33 - bitsLeft

/-- Writes the codes of all bytes, and returns the bits that do not fill a byte. -/
def encodeLoop : List UInt8 → ℕ → ℕ → Program Error Octets (ℕ × ℕ)
  | [], bits, bitsLeft => pure (bits, bitsLeft)
  | b :: src, bits, bitsLeft => do
    let (nbits, code) := encodeTable.getD b.toNat (0, 0)
    let bitsLeft ← Program.unwrapSub (if bitsLeft < nbits then none else some (bitsLeft - nbits))
    let (bits, bitsLeft) ← flush (bits ||| code <<< bitsLeft % 2 ^ 64) bitsLeft
    encodeLoop src bits bitsLeft

/-- Writes the codes of all bytes. -/
def encode (src : List UInt8) : Program Error Octets Unit := do
  let (bits, bitsLeft) ← encodeLoop src 0 40
  -- This writes the EOS token.
  Program.when (bitsLeft ≠ 40) (putU8 ((bits ||| (1 <<< bitsLeft - 1)) >>> 32))

/-- The number of bytes that are written. -/
def encodeOutputLength (src : List UInt8) : ℕ :=
  let bits := (src.map fun b => (encodeTable.getD b.toNat (0, 0)).1).sum
  if bits &&& 7 ≠ 0 then bits / 8 + 1 else bits / 8

/-- The decoder, between two bytes. -/
structure Decoder where
  state : ℕ
  maybeEos : Bool
  deriving DecidableEq, Repr

namespace Decoder

/-- Decodes 4 bits. -/
def decode4 (d : Decoder) (input : ℕ) : Except Error (Decoder × Option UInt8) :=
  -- All transitions are in the table.
  let (next, byte, flags) := (decodeTable.getD d.state []).getD input (0, 0, 0x04)
  if flags &&& 0x04 = 0x04 then .error .invalidHuffmanEncoding
  else .ok (⟨next, flags &&& 0x01 = 0x01⟩, if flags &&& 0x02 = 0x02 then some
    (UInt8.ofNat byte) else none)

/-- The code may end here. -/
def isFinal (d : Decoder) : Bool := d.state = 0 || d.maybeEos

/-- Decodes some bytes, four bits at a time. -/
def decodeBytes : Decoder → List UInt8 → Except Error (Decoder × List UInt8)
  | d, [] => .ok (d, [])
  | d, byte :: b => do
    let (d, upper) ← d.decode4 (byte >>> 4).toNat
    let (d, lower) ← d.decode4 (byte &&& 0xf).toNat
    let (d, out) ← decodeBytes d b
    .ok (d, upper.toList ++ (lower.toList ++ out))

end Decoder

/-- Decodes all bytes. -/
def decode (b : List UInt8) : Except Error (List UInt8) := do
  let (decoder, out) ← Decoder.decodeBytes ⟨0, false⟩ b
  if decoder.isFinal then .ok out else .error .invalidHuffmanEncoding

/-! ### Reading -/

/-- The word of a symbol. -/
def word (i : ℕ) : List Bool :=
  let (nbits, code) := encodeTable.getD i (0, 0)
  bits nbits code

/-- The word of a byte, or of the end. -/
def code (symbol : Option UInt8) : List Bool := word (symbol.elim 256 UInt8.toNat)

/-- What a state of the decoder has read of the next word. -/
def Decoder.path (d : Decoder) : List Bool :=
  let (nbits, code, _) := statePaths.getD d.state (0, 0, 0)
  bits nbits code

/-- The states of the table, with the flag where only bits of the word for the end have been read.
-/
def Decoder.Valid (d : Decoder) : Prop :=
  d.state < 256 ∧ ∀ n < 8, d.path = List.replicate n true → d.isFinal = true

/-- The decoder as a machine that reads half bytes. -/
def machine : Lib.Machine Decoder (Fin 16) UInt8 where
  step d input := (d.decode4 input).toOption

private theorem isPrefix_of_start {a b : ℕ × ℕ} (ha : a.2 < 2 ^ a.1) (hb : b.2 < 2 ^ b.1)
    (h : bits a.1 a.2 <+: bits b.1 b.2) : isPrefix a b = true := by
  obtain ⟨hle, hupper⟩ := Lib.upper_of_isPrefix ha hb h
  rw [isPrefix, Bool.and_eq_true]
  exact ⟨Nat.ble_eq.mpr hle, Nat.beq_eq.mpr ((Nat.shiftRight_eq_div_pow _ _).trans hupper)⟩

/-- The test finds the codes that begin with another one. -/
theorem prefix_of_isPrefix {a b : ℕ × ℕ} (h : isPrefix a b = true) :
    bits a.1 a.2 <+: bits b.1 b.2 := by
  rw [isPrefix, Bool.and_eq_true] at h
  have hupper : b.2 / 2 ^ (b.1 - a.1) = a.2 := (Nat.shiftRight_eq_div_pow _ _).symm.trans
    (Nat.eq_of_beq_eq_true h.2)
  rw [← hupper]
  exact Lib.prefix_of_upper (Nat.le_of_ble_eq_true h.1)

/-- Every code has as many bits as the table says. -/
theorem encodeTable_lt (i : ℕ) : (encodeTable.getD i (0, 0)).2 < 2 ^
    (encodeTable.getD i (0, 0)).1 := by
  by_cases hi : i < encodeTable.length
  · have h := List.all_eq_true.mp encodeTable_fits _ (List.getElem_mem hi)
    rw [List.getD_eq_getElem _ _ hi]
    exact Nat.le_of_ble_eq_true h
  · rw [List.getD_eq_default _ _ (Nat.not_lt.mp hi)]
    exact Nat.one_pos

private theorem pairwise_of_noPrefixes {l : List (ℕ × ℕ)} (h : noPrefixes l = true) :
    l.Pairwise fun a b => isPrefix a b = false ∧ isPrefix b a = false := by
  induction l with
  | nil => exact .nil
  | cons a l ih =>
    rw [noPrefixes, Bool.and_eq_true, List.all_eq_true] at h
    refine List.pairwise_cons.mpr ⟨fun b hb => ?_, ih h.2⟩
    simpa using h.1 b hb

/-- No word of the table is a prefix of another one. -/
theorem word_injective {i j : ℕ} (hi : i < 257) (hj : j < 257) (h : word i <+: word j) : i = j := by
  have hstart := isPrefix_of_start (encodeTable_lt i) (encodeTable_lt j) h
  rw [← encodeTable_length] at hi hj
  rw [List.getD_eq_getElem _ _ hi, List.getD_eq_getElem _ _ hj] at hstart
  have hpairs := List.pairwise_iff_getElem.mp (pairwise_of_noPrefixes encodeTable_noPrefixes)
  rcases Nat.lt_trichotomy i j with hlt | heq | hlt
  · exact absurd hstart (by simp [(hpairs i j hi hj hlt).1])
  · exact heq
  · exact absurd hstart (by simp [(hpairs j i hj hi hlt).2])

theorem index_lt (symbol : Option UInt8) : symbol.elim 256 UInt8.toNat < 257 := by
  cases symbol with
  | none => decide
  | some b => exact b.toNat_lt.trans (by decide)

private theorem code_prefixFree : Lib.PrefixFree code := by
  intro a b h
  have hsame := word_injective (index_lt a) (index_lt b) h
  cases a with
  | none =>
    cases b with
    | none => rfl
    | some b => exact absurd hsame.symm b.toNat_lt.ne
  | some a =>
    cases b with
    | none => exact absurd hsame a.toNat_lt.ne
    | some b => exact congrArg some (UInt8.toNat_inj.mp hsame)

/-- A state has not read a whole word. -/
theorem path_inner {d : Decoder} (hd : d.state < 256) (symbol : Option UInt8) :
    ¬ code symbol <+: d.path := by
  intro h
  rw [← statePaths_length] at hd
  have hok := List.all_eq_true.mp statePaths_ok _ (List.getElem_mem hd)
  rw [Decoder.path, List.getD_eq_getElem _ _ hd] at h
  generalize statePaths[d.state] = path at hok h
  obtain ⟨nbits, path, i⟩ := path
  simp only [pathOk, Bool.and_eq_true] at hok
  obtain ⟨⟨hshort, hstart⟩, -⟩ := hok
  have hlt : nbits < (encodeTable.getD i (0, 0)).1 := Nat.le_of_ble_eq_true hshort
  have hi : i < 257 := by
    by_contra hi
    rw [List.getD_eq_default _ _ (encodeTable_length.trans_le (Nat.not_lt.mp hi))] at hlt
    exact absurd hlt (Nat.not_lt_zero _)
  have hword : bits nbits path <+: word i := prefix_of_isPrefix hstart
  have hsame := word_injective (index_lt symbol) hi (h.trans hword)
  have hlen := h.length_le
  simp only [code, hsame, word, Lib.bits_length] at hlen
  omega

/-- What the table says on four bits in a state. -/
theorem entry_ok {q input : ℕ} (hq : q < 256) (hinput : input < 16) :
    entryOk (statePaths.getD q (0, 0, 0)) input ((decodeTable.getD q []).getD input (0, 0, 0x04)) =
        true := by
  have hrows : q < decodeTable.length := hq.trans_eq decodeTable_size.1.symm
  have hpaths : q < statePaths.length := hq.trans_eq statePaths_length.symm
  have hrow := List.all_eq_true.mp decodeTable_size.2 decodeTable[q] (List.getElem_mem hrows)
  have hwidth : input < decodeTable[q].length := hinput.trans_eq (Nat.eq_of_beq_eq_true hrow).symm
  have hzip : (decodeTable[q], statePaths[q]) ∈ decodeTable.zip statePaths := by
    have hlt : q < (decodeTable.zip statePaths).length := by
      rw [List.length_zip]
      exact lt_min hrows hpaths
    have hmem := List.getElem_mem hlt
    rwa [List.getElem_zip] at hmem
  have hentry : (decodeTable[q][input], input) ∈ decodeTable[q].zipIdx := by
    rw [List.mem_zipIdx_iff_getElem?]
    exact List.getElem?_eq_getElem hwidth
  have hok := List.all_eq_true.mp (List.all_eq_true.mp decodeTable_ok _ hzip) _ hentry
  rw [List.getD_eq_getElem _ _ hpaths, List.getD_eq_getElem _ _ hrows,
    List.getD_eq_getElem _ _ hwidth]
  exact hok

section Entry

variable {path : ℕ × ℕ × ℕ} {input next byte flags : ℕ}

/-- A transition is missing where the word for the end is read. -/
theorem entry_stop (h : entryOk path input (next, byte, flags) = true) (hinput : input < 16)
    (hflag : flags &&& 0x04 = 0x04) : word 256 <+: bits path.1 path.2.1 ++ bits 4 input := by
  have herror : Nat.beq (Nat.land flags 0x04) 0x04 = true := Nat.beq_eq.mpr hflag
  simp only [entryOk, herror, if_true] at h
  rw [← Lib.bits_append path.1 path.2.1 4 input hinput]
  exact prefix_of_isPrefix h

/-- A transition reads four bits. -/
theorem entry_step (h : entryOk path input (next, byte, flags) = true) (hinput : input < 16)
    (hflag : flags &&& 0x04 ≠ 0x04) : next < 256 ∧ byte < 256 ∧
      bits path.1 path.2.1 ++ bits 4 input = (if flags &&& 0x02 = 0x02 then word byte else []) ++
        bits (statePaths.getD next (0, 0, 0)).1 (statePaths.getD next (0, 0, 0)).2.1 ∧
      ∀ n < 8, bits (statePaths.getD next (0, 0, 0)).1 (statePaths.getD next (0, 0, 0)).2.1 =
        List.replicate n true →
        next = 0 ∨ flags &&& 0x01 = 0x01 := by
  have herror : Nat.beq (Nat.land flags 0x04) 0x04 = false := by
    rw [← Bool.not_eq_true, Nat.beq_eq]
    exact hflag
  simp only [entryOk, herror, Bool.false_eq_true, if_false, Bool.and_eq_true, Bool.or_eq_true,
    Nat.beq_eq] at h
  generalize statePaths.getD next (0, 0, 0) = rest at *
  obtain ⟨⟨⟨⟨⟨hnext, hbyte⟩, hwidth⟩, hbits⟩, hrest⟩, heos⟩ := h
  have hrest : rest.2.1 < 2 ^ rest.1 := Nat.le_of_ble_eq_true hrest
  refine ⟨Nat.le_of_ble_eq_true hnext, Nat.le_of_ble_eq_true hbyte, ?_, fun n hn hones => ?_⟩
  · have hbits' : path.2.1 * 2 ^ 4 + input = _ := hbits
    rw [← Lib.bits_append path.1 path.2.1 4 input hinput, hwidth, hbits',
      Lib.bits_append _ _ _ _ hrest]
    by_cases hdecoded : flags &&& 0x02 = 0x02
    · have hflag' : Nat.land flags 0x02 = 0x02 := hdecoded
      rw [if_pos hdecoded, if_pos hflag']
      rfl
    · have hflag' : ¬ Nat.land flags 0x02 = 0x02 := hdecoded
      rw [if_neg hdecoded, if_neg hflag']
      rfl
  · have hlen : rest.1 = n := by
      have := congrArg List.length hones
      rwa [Lib.bits_length, List.length_replicate] at this
    rw [← Lib.bits_ones, ← hlen] at hones
    have hvalue := Lib.bits_injective hrest (Nat.sub_lt (Nat.two_pow_pos _) Nat.one_pos) hones
    obtain ((hzero | hflag') | hlong) | hzeros := heos
    · exact .inl hzero
    · exact .inr hflag'
    · exact absurd (Nat.le_of_ble_eq_true hlong) (by omega)
    · have hlt : rest.2.1 + 1 < 2 ^ rest.1 := Nat.le_of_ble_eq_true hzeros
      omega

end Entry

/-- A transition is an entry of the table. -/
theorem decode4_eq {d : Decoder} {input next byte flags : ℕ}
    (h : (decodeTable.getD d.state []).getD input (0, 0, 0x04) = (next, byte, flags)) :
    d.decode4 input = if flags &&& 0x04 = 0x04 then .error .invalidHuffmanEncoding
      else .ok (⟨next, flags &&& 0x01 = 0x01⟩, if flags &&& 0x02 = 0x02 then some
          (UInt8.ofNat byte) else none) := by
  rw [Decoder.decode4, h]

/-- Four bits of the input. -/
def nibbleBits (input : Fin 16) : List Bool := bits 4 input

/-- The decoder follows the bits of the code. -/
theorem machine_reads : machine.Reads code nibbleBits Decoder.path Decoder.Valid where
  prefixFree := code_prefixFree
  inner hd symbol := path_inner hd.1 symbol
  step {d input d' symbol} hd hstep := by
    have hok := entry_ok hd.1 input.isLt
    generalize hentry : (decodeTable.getD d.state []).getD input.val (0, 0, 0x04) = entry at hok
    obtain ⟨next, byte, flags⟩ := entry
    by_cases hflag : flags &&& 0x04 = 0x04
    · simp [machine, decode4_eq hentry, hflag, Except.toOption] at hstep
    · obtain ⟨hnext, hbyte, hread, heos⟩ := entry_step hok input.isLt hflag
      simp only [machine, decode4_eq hentry, if_neg hflag, Except.toOption, Option.some.injEq,
        Prod.mk.injEq] at hstep
      obtain ⟨rfl, rfl⟩ := hstep
      refine ⟨⟨hnext, fun n hn hones => ?_⟩, ?_⟩
      · rcases heos n hn hones with rfl | hfinal
        · rfl
        · simp [Decoder.isFinal, hfinal]
      · have hpath : d.path ++ nibbleBits input = _ := hread
        rw [hpath]
        split_ifs
        · have hword : word byte = code (some (UInt8.ofNat byte)) := by
            rw [code, Option.elim_some, UInt8.toNat_ofNat', Nat.mod_eq_of_lt hbyte]
          rw [hword]
          rfl
        · rfl
  stop {d input} hd hstep := by
    have hok := entry_ok hd.1 input.isLt
    generalize hentry : (decodeTable.getD d.state []).getD input.val (0, 0, 0x04) = entry at hok
    obtain ⟨next, byte, flags⟩ := entry
    by_cases hflag : flags &&& 0x04 = 0x04
    · exact entry_stop hok input.isLt hflag
    · simp [machine, decode4_eq hentry, hflag, Except.toOption] at hstep

/-- The bits of a byte. -/
def byteBits (b : UInt8) : List Bool := bits 8 b.toNat

/-- The two halves of a byte. -/
def nibbles (b : UInt8) :
    List (Fin 16) := [Fin.ofNat 16 (b >>> 4).toNat, Fin.ofNat 16 (b &&& 0xf).toNat]

/-- The upper half of a byte. -/
theorem upper_lt (b : UInt8) : (b >>> 4).toNat = b.toNat / 16 ∧ (b >>> 4).toNat < 16 := by
  have hshift : (b >>> 4).toNat = b.toNat / 16 := by
    rw [UInt8.toNat_shiftRight]
    exact Nat.shiftRight_eq_div_pow _ _
  have hlt := b.toNat_lt
  exact ⟨hshift, by omega⟩

/-- The lower half of a byte. -/
theorem lower_lt (b : UInt8) : (b &&& 0xf).toNat = b.toNat % 16 ∧ (b &&& 0xf).toNat < 16 := by
  have hand : (b &&& 0xf).toNat = b.toNat % 16 := by
    rw [UInt8.toNat_and]
    exact Nat.and_two_pow_sub_one_eq_mod b.toNat 4
  exact ⟨hand, by omega⟩

/-- A byte is its two halves. -/
theorem nibbles_bits (b : UInt8) : (nibbles b).flatMap nibbleBits = byteBits b := by
  obtain ⟨hupper, hupperLt⟩ := upper_lt b
  obtain ⟨hlower, hlowerLt⟩ := lower_lt b
  have hsplit : byteBits b = bits 4 (b.toNat / 16) ++ bits 4 (b.toNat % 16) := by
    rw [← Lib.bits_append 4 _ 4 (b.toNat % 16) (Nat.mod_lt _ (by decide))]
    exact congrArg (bits 8) (Nat.div_add_mod' _ _).symm
  simp only [nibbles, nibbleBits, List.flatMap_cons, List.flatMap_nil, List.append_nil,
    Fin.val_ofNat,
    Nat.mod_eq_of_lt hupperLt, Nat.mod_eq_of_lt hlowerLt]
  rw [hsplit, hupper, hlower]

theorem ok_of_toOption {ε α : Type} {x : Except ε α} {a : α} (h : x.toOption = some a) :
    x = .ok a := by
  cases x with
  | error e => cases h
  | ok b => exact congrArg Except.ok (Option.some.inj h)

/-- At the root, no bit of a code is read. -/
theorem root_path (maybeEos : Bool) : (⟨0, maybeEos⟩ : Decoder).path = [] := by
  have hroot : statePaths.getD 0 (0, 0, 0) = (0, 0, 0) := by decide +kernel
  rw [Decoder.path, hroot]
  rfl

/-- The decoder takes the upper half of each byte first. -/
theorem run_nibbles (d : Decoder) (b : List UInt8) :
    machine.run d (b.flatMap nibbles) = (d.decodeBytes b).toOption := by
  induction b generalizing d with
  | nil => rfl
  | cons byte b ih =>
    have hupper : (Fin.ofNat 16 (byte >>> 4).toNat).val = (byte >>> 4).toNat :=
      Nat.mod_eq_of_lt (upper_lt byte).2
    have hlower : (Fin.ofNat 16 (byte &&& 0xf).toNat).val = (byte &&& 0xf).toNat :=
      Nat.mod_eq_of_lt (lower_lt byte).2
    simp only [List.flatMap_cons, nibbles, List.cons_append, List.nil_append, Lib.Machine.run,
      ih, Decoder.decodeBytes, bind, Except.bind]
    simp only [machine, hupper, hlower]
    cases d.decode4 (byte >>> 4).toNat with
    | error e => rfl
    | ok first =>
      simp only [Except.toOption, Option.bind_some]
      cases first.1.decode4 (byte &&& 0xf).toNat with
      | error e => rfl
      | ok second =>
        simp only [Option.bind_some]
        cases second.1.decodeBytes b with
        | error e => rfl
        | ok rest => rfl

/-- A string is read back from the words of its bytes, padded to whole bytes with the start of the
word for the end. -/
theorem decode_encoded {src b : List UInt8} {n : ℕ} (hn : n < 8)
    (h : b.flatMap byteBits = src.flatMap (fun c => code (some c)) ++ List.replicate n true) :
    decode b = .ok src := by
  have heos : code none = List.replicate 30 true := by
    have hentry : encodeTable.getD 256 (0, 0) = (30, 2 ^ 30 - 1) := by decide +kernel
    rw [code, Option.elim_none, word, hentry]
    exact Lib.bits_ones 30
  have hpad : List.replicate n true <+: code none := by
    rw [heos]
    exact ⟨List.replicate (30 - n) true, by rw [List.replicate_append_replicate]; congr 1; omega⟩
  have hproper : List.replicate n true ≠ code none := by
    intro heq
    have hlen := congrArg List.length heq
    rw [heos, List.length_replicate, List.length_replicate] at hlen
    omega
  have hvalidStart : (⟨0, false⟩ : Decoder).Valid := ⟨by decide, fun _ _ _ => rfl⟩
  obtain ⟨last, hrun, hlast, hvalid⟩ :=
    @Lib.Machine.Reads.run_encoded _ _ _ _ _ _ _ _ _ machine_reads src _ hpad
    hproper (b.flatMap nibbles) _ hvalidStart (by
      rw [root_path, List.nil_append, List.flatMap_assoc, ← h]
      exact List.flatMap_congr fun c _ => nibbles_bits c)
  rw [run_nibbles] at hrun
  rw [decode, ok_of_toOption hrun]
  exact if_pos (hvalid.2 n hn hlast)

/-! ### Writing -/

/-- The `n` bits `v` are still to be written: they are the upper ones of the lower 40 bits. -/
structure Pending (acc bitsLeft n v : ℕ) : Prop where
  left : bitsLeft + n = 40
  value : acc % 2 ^ 40 = v * 2 ^ bitsLeft
  fits : v < 2 ^ n

/-- The upper byte of eight or more bits. -/
theorem Pending.upper {acc bitsLeft n v : ℕ} (h : Pending acc bitsLeft n v) (hn : 8 ≤ n) :
    byteBits (UInt8.ofNat (acc >>> 32)) ++ bits (n - 8) (v % 2 ^ (n - 8)) = bits n v ∧
      Pending (acc <<< 8 % 2 ^ 64) (bitsLeft + 8) (n - 8) (v % 2 ^ (n - 8)) := by
  obtain ⟨k, rfl⟩ := Nat.exists_eq_add_of_le' hn
  obtain ⟨hleft, hvalue, hfits⟩ := h
  rw [Nat.add_sub_cancel]
  have hbyte : acc >>> 32 % 2 ^ 8 = v / 2 ^ k := by
    have hpow : 2 ^ 32 = 2 ^ k * 2 ^ bitsLeft := by
      rw [← Nat.pow_add]
      congr 1
      omega
    calc acc >>> 32 % 2 ^ 8 = acc / 2 ^ 32 % 2 ^ 8 := by rw [Nat.shiftRight_eq_div_pow]
      _ = acc % 2 ^ 40 / 2 ^ 32 := (Nat.mod_mul_right_div_self acc (2 ^ 32) (2 ^ 8)).symm
      _ = v * 2 ^ bitsLeft / (2 ^ k * 2 ^ bitsLeft) := by rw [hvalue, hpow]
      _ = v / 2 ^ k := Nat.mul_div_mul_right _ _ (Nat.two_pow_pos bitsLeft)
  refine ⟨?_, by omega, ?_, Nat.mod_lt _ (Nat.two_pow_pos k)⟩
  · rw [byteBits, UInt8.toNat_ofNat', hbyte,
      ← Lib.bits_append 8 _ k _ (Nat.mod_lt _ (Nat.two_pow_pos k)),
      Nat.div_add_mod', Nat.add_comm]
  · have hpow : 2 ^ 40 = 2 ^ k * 2 ^ (bitsLeft + 8) := by
      rw [← Nat.pow_add]
      congr 1
      omega
    calc acc <<< 8 % 2 ^ 64 % 2 ^ 40 = acc * 2 ^ 8 % 2 ^ 40 := by
          rw [Nat.shiftLeft_eq, Nat.mod_mod_of_dvd _ (by decide)]
      _ = acc % 2 ^ 40 * 2 ^ 8 % 2 ^ 40 := (Nat.mod_mul_mod _ _ _).symm
      _ = v * 2 ^ (bitsLeft + 8) % (2 ^ k * 2 ^ (bitsLeft + 8)) := by
        rw [hvalue, hpow, Nat.mul_assoc, ← Nat.pow_add]
      _ = v % 2 ^ k * 2 ^ (bitsLeft + 8) := Nat.mul_mod_mul_right _ _ _

/-- Writing out whole bytes leaves less than eight bits. -/
theorem flush_fills {acc bitsLeft n v : ℕ} (h : Pending acc bitsLeft n v) :
    ∃ output acc' bitsLeft' n' v', FillsAs .bufferTooShort (flush acc bitsLeft) output (acc',
      bitsLeft') ∧
      Pending acc' bitsLeft' n' v' ∧ n' < 8 ∧ output.flatMap byteBits ++ bits n' v' = bits n v := by
  induction n using Nat.strongRecOn generalizing acc bitsLeft v with
  | ind n ih =>
    have hleft := h.left
    rw [flush]
    split_ifs with hfull
    · obtain ⟨hupper, hrest⟩ := h.upper (by omega)
      obtain ⟨output, acc', bitsLeft', n', v', hfills, hpending, hshort, hbits⟩ :=
        ih (n - 8) (by omega) hrest
      refine ⟨_, acc', bitsLeft', n', v', (putU8_fills _).fillsAs.bind hfills, hpending, hshort, ?_⟩
      rw [List.singleton_append, List.flatMap_cons, List.append_assoc, hbits, hupper]
    · exact ⟨[], acc, bitsLeft, n, v, .pure _, h, by omega, rfl⟩

private theorem encodeTable_width (b : UInt8) : (encodeTable.getD b.toNat (0, 0)).1 ≤ 30 := by
  have hwidths : (encodeTable.all fun word => Nat.ble word.1 30) = true := by decide +kernel
  have hlt : b.toNat < encodeTable.length := by
    have := b.toNat_lt
    rw [encodeTable_length]
    omega
  rw [List.getD_eq_getElem _ _ hlt]
  exact Nat.le_of_ble_eq_true (List.all_eq_true.mp hwidths _ (List.getElem_mem hlt))

/-- The word of a byte is added to the bits. -/
theorem Pending.add {acc bitsLeft n v nbits w : ℕ} (h : Pending acc bitsLeft n v)
    (hw : w < 2 ^ nbits)
    (hroom : nbits ≤ bitsLeft) :
    Pending (acc ||| w <<< (bitsLeft - nbits) % 2 ^ 64) (bitsLeft - nbits) (n + nbits)
        (v * 2 ^ nbits + w) := by
  obtain ⟨hleft, hvalue, hfits⟩ := h
  obtain ⟨k, rfl⟩ := Nat.exists_eq_add_of_le' hroom
  rw [Nat.add_sub_cancel]
  have hshift : w <<< k < 2 ^ (k + nbits) := by
    rw [Nat.shiftLeft_eq, Nat.add_comm k, Nat.pow_add]
    exact Nat.mul_lt_mul_of_pos_right hw (Nat.two_pow_pos k)
  have hlarge {m : ℕ} (hm : 40 ≤ m) : w <<< k % 2 ^ m = w <<< k :=
    Nat.mod_eq_of_lt (hshift.trans_le (Nat.pow_le_pow_right (by decide) (by omega)))
  refine ⟨by omega, ?_, ?_⟩
  · rw [Nat.or_mod_two_pow, hvalue, hlarge (show 40 ≤ 64 by decide), hlarge le_rfl, Nat.mul_comm v,
      ← Nat.two_pow_add_eq_or_of_lt hshift, Nat.shiftLeft_eq, Nat.pow_add]
    ring
  · calc v * 2 ^ nbits + w < v * 2 ^ nbits + 2 ^ nbits := Nat.add_lt_add_left hw _
      _ = (v + 1) * 2 ^ nbits := (Nat.succ_mul _ _).symm
      _ ≤ 2 ^ n * 2 ^ nbits := Nat.mul_le_mul_right _ hfits
      _ = 2 ^ (n + nbits) := (Nat.pow_add _ _ _).symm

private theorem encodeLoop_fills (src : List UInt8) {acc bitsLeft n v : ℕ}
    (h : Pending acc bitsLeft n v)
    (hn : n < 8) :
    ∃ output acc' bitsLeft' n' v', FillsAs .bufferTooShort (encodeLoop src acc bitsLeft) output
      (acc', bitsLeft') ∧
      Pending acc' bitsLeft' n' v' ∧ n' < 8 ∧
      output.flatMap byteBits ++ bits n' v' = bits n v ++ src.flatMap (fun c => code (some c)) := by
  induction src generalizing acc bitsLeft n v with
  | nil => exact ⟨[], acc, bitsLeft, n, v, .pure _, h, hn, (List.append_nil _).symm⟩
  | cons b src ih =>
    have hword := encodeTable_lt b.toNat
    have hwidth := encodeTable_width b
    have hcode : code (some b) = bits (encodeTable.getD b.toNat (0, 0)).1
      (encodeTable.getD b.toNat (0, 0)).2 := rfl
    generalize hentry : encodeTable.getD b.toNat (0, 0) = entry at *
    obtain ⟨nbits, w⟩ := entry
    have hleft := h.left
    have hroom : nbits ≤ bitsLeft := by omega
    obtain ⟨output₁, acc₁, left₁, n₁, v₁, hflush, hpending₁, hn₁, hbits₁⟩ :=
      flush_fills (h.add hword hroom)
    obtain ⟨output₂, acc₂, left₂, n₂, v₂, hloop, hpending₂, hn₂, hbits₂⟩ := ih hpending₁ hn₁
    refine ⟨output₁ ++ output₂, acc₂, left₂, n₂, v₂, ?_, hpending₂, hn₂, ?_⟩
    · simp only [encodeLoop, hentry, if_neg (Nat.not_lt.mpr hroom), Program.unwrapSub_some,
        pure_bind]
      exact hflush.bind hloop
    · rw [List.flatMap_append, List.append_assoc, hbits₂, ← List.append_assoc, hbits₁,
        List.flatMap_cons, hcode,
        Lib.bits_append _ _ _ _ hword, List.append_assoc]

/-- The last byte is filled with the start of the word for the end. -/
theorem Pending.last {acc bitsLeft n v : ℕ} (h : Pending acc bitsLeft n v) (hn : n < 8) :
    byteBits (UInt8.ofNat ((acc ||| (1 <<< bitsLeft - 1)) >>> 32)) = bits n v ++ List.replicate
        (8 - n) true := by
  obtain ⟨hleft, hvalue, hfits⟩ := h
  obtain ⟨k, hk⟩ := Nat.exists_eq_add_of_lt hn
  have hk : 8 = n + (k + 1) := hk
  have hpow : 2 ^ bitsLeft = 2 ^ (k + 1) * 2 ^ 32 := by
    rw [← Nat.pow_add]
    congr 1
    omega
  have hpos := Nat.two_pow_pos (k + 1)
  have hones : 2 ^ bitsLeft - 1 < 2 ^ bitsLeft := Nat.sub_lt (Nat.two_pow_pos _) Nat.one_pos
  have hlow : (2 ^ bitsLeft - 1) % 2 ^ 40 = 2 ^ bitsLeft - 1 :=
    Nat.mod_eq_of_lt (hones.trans_le (Nat.pow_le_pow_right (by decide) (by omega)))
  have hbyte : (acc ||| (1 <<< bitsLeft - 1)) >>> 32 % 2 ^ 8 = v * 2 ^
      (k + 1) + (2 ^ (k + 1) - 1) := by
    calc (acc ||| (1 <<< bitsLeft - 1)) >>> 32 % 2 ^ 8
        = (acc ||| (2 ^ bitsLeft - 1)) / 2 ^ 32 % 2 ^ 8 := by
          rw [Nat.shiftRight_eq_div_pow, Nat.one_shiftLeft]
      _ = (acc ||| (2 ^ bitsLeft - 1)) % 2 ^ 40 / 2 ^ 32 :=
        (Nat.mod_mul_right_div_self _ (2 ^ 32) (2 ^ 8)).symm
      _ = (v * 2 ^ bitsLeft + (2 ^ bitsLeft - 1)) / 2 ^ 32 := by
          rw [Nat.or_mod_two_pow, hvalue, hlow, Nat.mul_comm v, ← Nat.two_pow_add_eq_or_of_lt hones]
      _ = v * 2 ^ (k + 1) + (2 ^ (k + 1) - 1) := by
          rw [hpow]
          generalize 2 ^ (k + 1) = m at hpos ⊢
          rw [← Nat.mul_assoc]
          generalize v * m = w
          omega
  rw [byteBits, UInt8.toNat_ofNat', hbyte, show 8 - n = k + 1 by omega, ← Lib.bits_ones, hk,
    Lib.bits_append _ _ _ _ (Nat.sub_lt hpos Nat.one_pos)]

private theorem words_length (src : List UInt8) : (src.flatMap fun c => code (some c)).length =
    (src.map fun b => (encodeTable.getD b.toNat (0, 0)).1).sum := by
  rw [List.length_flatMap]
  congr 1
  refine List.map_congr_left fun c _ => ?_
  rw [code, Option.elim_some, word, Lib.bits_length]

/-- A byte has eight bits. -/
theorem byteBits_length (b : List UInt8) : (b.flatMap byteBits).length = 8 * b.length := by
  induction b with
  | nil => rfl
  | cons c b ih =>
    rw [List.flatMap_cons, List.length_append, ih, byteBits, Lib.bits_length, List.length_cons]
    omega

private theorem encodeOutputLength_eq {src b : List UInt8} {n : ℕ} (hn : n < 8)
    (h : b.flatMap byteBits = src.flatMap (fun c => code (some c)) ++ List.replicate n true) :
    encodeOutputLength src = b.length := by
  have hlen := congrArg List.length h
  rw [byteBits_length, List.length_append, words_length, List.length_replicate] at hlen
  have hmod (bits : ℕ) : bits &&& 7 = bits % 8 := Nat.and_two_pow_sub_one_eq_mod bits 3
  simp only [encodeOutputLength, hmod]
  split_ifs <;> omega

/-- A string is written as its words, padded to whole bytes with the start of the word for the end.
-/
theorem encode_words (src : List UInt8) : ∃ output, Fills .bufferTooShort (encode src) output ∧
    ∃ pad < 8,
    output.flatMap byteBits = src.flatMap (fun c => code (some c)) ++ List.replicate pad true := by
  have hstart : Pending 0 40 0 0 := ⟨rfl, rfl, Nat.one_pos⟩
  obtain ⟨output, acc, bitsLeft, n, v, hfills, hpending, hn, hbits⟩ :=
    encodeLoop_fills src hstart (by decide)
  rw [bits, List.nil_append] at hbits
  have hleft := hpending.left
  have hlast : Fills .bufferTooShort
      (Program.when (bitsLeft ≠ 40) (putU8 ((acc ||| (1 <<< bitsLeft - 1)) >>> 32)))
      (if bitsLeft ≠ 40 then [UInt8.ofNat ((acc ||| (1 <<< bitsLeft - 1)) >>> 32)] else []) :=
    .when fun _ => putU8_fills _
  refine ⟨_, (hfills.bind hlast.fillsAs).fills, ?_⟩
  split_ifs with hfull
  · refine ⟨8 - n, by omega, ?_⟩
    rw [List.flatMap_append, List.flatMap_singleton, hpending.last hn, ← List.append_assoc, hbits]
  · obtain rfl : n = 0 := by omega
    refine ⟨0, by decide, ?_⟩
    rw [List.append_nil, List.replicate_zero, List.append_nil, ← hbits, bits, List.append_nil]

/-- A string is written as long as announced, if there is room, and is read back. -/
theorem encode_fills (src : List UInt8) : ∃ output, Fills .bufferTooShort (encode src) output ∧
    output.length = encodeOutputLength src ∧ decode output = .ok src := by
  obtain ⟨output, hfills, pad, hpad, hwords⟩ := encode_words src
  exact ⟨output, hfills, (encodeOutputLength_eq hpad hwords).symm, decode_encoded hpad hwords⟩

/-! ### What is accepted -/

/-- At the end of a text, only the start of the word for the end is left. -/
def Decoder.Ends (d : Decoder) : Prop := d.isFinal = true → ∃ n < 8, d.path = List.replicate n true

private theorem entry_end {q input next byte flags : ℕ} (hq : q < 256) (hinput : input < 16)
    (hentry : (decodeTable.getD q []).getD input (0, 0, 0x04) = (next, byte, flags)) :
    endOk (next, byte, flags) = true := by
  have hrows : q < decodeTable.length := hq.trans_eq decodeTable_size.1.symm
  have hrow := List.all_eq_true.mp decodeTable_size.2 decodeTable[q] (List.getElem_mem hrows)
  have hwidth : input < decodeTable[q].length := hinput.trans_eq (Nat.eq_of_beq_eq_true hrow).symm
  rw [List.getD_eq_getElem _ _ hrows, List.getD_eq_getElem _ _ hwidth] at hentry
  have hall := List.all_eq_true.mp decodeTable_endOk _ (List.getElem_mem hrows)
  rw [← hentry]
  exact List.all_eq_true.mp hall _ (List.getElem_mem hwidth)

private theorem ends_of_endOk {next byte flags : ℕ} (hok : endOk (next, byte, flags) = true)
    (herror : flags &&& 0x04 ≠ 0x04) :
    (⟨next, flags &&& 0x01 = 0x01⟩ : Decoder).Ends := by
  intro hfinal
  rw [Decoder.isFinal, Bool.or_eq_true, decide_eq_true_iff, decide_eq_true_iff] at hfinal
  rcases hfinal with hroot | hflag
  · obtain rfl : next = 0 := hroot
    exact ⟨0, by decide, root_path _⟩
  · have hstop : Nat.beq (Nat.land flags 0x04) 0x04 = false := by
      rw [← Bool.not_eq_true, Nat.beq_eq]
      exact herror
    have hend : Nat.beq (Nat.land flags 0x01) 0x01 = true := Nat.beq_eq.mpr hflag
    simp only [endOk, hstop, hend, Bool.not_true, Bool.false_or, Bool.and_eq_true,
      Nat.beq_eq] at hok
    obtain ⟨hshort, hones⟩ := hok
    refine ⟨_, Nat.le_of_ble_eq_true hshort, ?_⟩
    have hvalue : (statePaths.getD next (0, 0, 0)).2.1 = 2 ^
        (statePaths.getD next (0, 0, 0)).1 - 1 := by
      rw [← hones, Nat.add_sub_cancel]
    unfold Decoder.path
    dsimp only
    rw [hvalue]
    exact Lib.bits_ones _

private theorem decode4_ends {d d' : Decoder} {input : ℕ} {symbol : Option UInt8}
    (hd : d.state < 256)
    (hinput : input < 16)
    (h : d.decode4 input = .ok (d', symbol)) : d'.Ends := by
  generalize hentry : (decodeTable.getD d.state []).getD input (0, 0, 0x04) = entry at h
  obtain ⟨next, byte, flags⟩ := entry
  rw [decode4_eq hentry] at h
  by_cases herror : flags &&& 0x04 = 0x04
  · rw [if_pos herror] at h
    cases h
  · rw [if_neg herror] at h
    cases h
    exact ends_of_endOk (entry_end hd hinput hentry) herror

private theorem machine_ends :
    machine.Reads code nibbleBits Decoder.path fun d => d.Valid ∧ d.Ends :=
  machine_reads.strengthen fun hd hstep => decode4_ends hd.1 (Fin.isLt _) (ok_of_toOption hstep)

/-- The bits of a byte tell the byte. -/
theorem byteBits_injective {b c : List UInt8} (h : b.flatMap byteBits = c.flatMap byteBits) :
    b = c := by
  induction b generalizing c with
  | nil =>
    have hlen := congrArg List.length h
    rw [byteBits_length, byteBits_length, List.length_nil] at hlen
    exact (List.length_eq_zero_iff.mp (by omega)).symm
  | cons x b ih =>
    cases c with
    | nil =>
      have hlen := congrArg List.length h
      rw [byteBits_length, byteBits_length, List.length_cons, List.length_nil] at hlen
      omega
    | cons y c =>
      rw [List.flatMap_cons, List.flatMap_cons] at h
      have hwidth : (byteBits x).length = (byteBits y).length := by
        rw [byteBits, byteBits, Lib.bits_length, Lib.bits_length]
      obtain ⟨hbyte, hrest⟩ := List.append_inj h hwidth
      have hsame := @Lib.bits_injective 8 _ _ x.toNat_lt y.toNat_lt hbyte
      rw [UInt8.toNat_inj.mp hsame, ih hrest]

/-- What is decoded was encoded: the words of the text, and less than eight bits of the word for the
end. -/
theorem decode_sound {t src : List UInt8} (h : decode t = .ok src) :
    ∃ n < 8, t.flatMap byteBits = src.flatMap (fun c =>
        code (some c)) ++ List.replicate n true := by
  rw [decode] at h
  cases hbytes : Decoder.decodeBytes ⟨0, false⟩ t with
  | error err => simp only [hbytes, bind, Except.bind, reduceCtorEq] at h
  | ok result =>
    obtain ⟨last, out⟩ := result
    simp only [hbytes, bind, Except.bind] at h
    split_ifs at h with hfinal
    cases h
    have hstart : (⟨0, false⟩ : Decoder).Valid ∧ (⟨0, false⟩ : Decoder).Ends :=
      ⟨⟨by decide, fun _ _ _ => rfl⟩, fun _ => ⟨0, by decide, root_path _⟩⟩
    have hrun : machine.run ⟨0, false⟩ (t.flatMap nibbles) = some (last, src) := by
      rw [run_nibbles, hbytes, Except.toOption]
    obtain ⟨hread, -, hends⟩ := machine_ends.run_sound hstart hrun
    obtain ⟨n, hn, hpath⟩ := hends hfinal
    refine ⟨n, hn, ?_⟩
    rw [root_path, List.nil_append, hpath, List.flatMap_assoc] at hread
    rw [← hread]
    exact List.flatMap_congr fun c _ => (nibbles_bits c).symm

/-- Every string is written as long as announced and read back, and only what would be written is
accepted. -/
theorem encode_decode_exact :
    (∀ src, ∃ output, Fills .bufferTooShort (encode src) output ∧
      output.length = encodeOutputLength src ∧
      decode output = .ok src) ∧
      ∀ t src, decode t = .ok src → Fills .bufferTooShort (encode src) t := by
  refine ⟨encode_fills, fun t src h => ?_⟩
  obtain ⟨n, hn, hread⟩ := decode_sound h
  obtain ⟨output, hfills, pad, hpad, hwords⟩ := encode_words src
  -- Both are whole bytes, so the paddings have one length.
  have hlen := congrArg List.length hread
  have hlen' := congrArg List.length hwords
  rw [byteBits_length, List.length_append, List.length_replicate] at hlen hlen'
  obtain rfl : n = pad := by omega
  obtain rfl : t = output := byteBits_injective (hread.trans hwords.symm)
  exact hfills

/-- The letter `a`, of five bits, is padded with three. -/
theorem encode_decode_exact_a : Fills .bufferTooShort (encode [0x61]) [0x1f] :=
  encode_decode_exact.2 [0x1f] [0x61] (by decide +kernel)

end Huffman

end Dtp.H3.Qpack
