import Mathlib.Data.Nat.Log
import Dtp.H3.Sending

/-!
# The room for a header block

The room for a header block is estimated before it is written: the bytes of the names and values,
and 32 more for each header. There is no estimate for the two bytes in front of the headers, and
the words of some bytes are longer than these.

## Main definitions

* `Qpack.blockLen` — the length of a header block
* `Session.headersLen` — the room for it

## Main results

* `Qpack.encode_fills` — a header block has that length
* `Session.encodeHeaderBlock_iff` — when the room is enough
-/

namespace Dtp.H3

open Lib (Program)
open Lib.Cursor (Fills)

namespace Qpack

/-! ### Lengths -/

/-- The length of an integer with a prefix of some bits. -/
def intLen (v bits : ℕ) : ℕ := if v < 2 ^ bits - 1 then 1 else Nat.log 128 (v - (2 ^ bits - 1)) + 2

/-- The length of a string behind a prefix of some bits. -/
def strLen (v : String) (bits : ℕ) : ℕ :=
  intLen (Huffman.encodeOutputLength (utf8 v)) bits + Huffman.encodeOutputLength (utf8 v)

/-- The length of the representation of a header. -/
def headerLen (h : Header) : ℕ :=
  match lookupStatic h with
  | some (idx, true) => intLen idx 6
  | some (idx, false) => intLen idx 4 + strLen h.value 7
  | none => strLen h.name 3 + strLen h.value 7

/-- The length of a header block. -/
def blockLen (headers : List Header) : ℕ := 2 + (headers.map headerLen).sum

private theorem encodeIntLoop_len (v : ℕ) :
    ∃ output, Fills .bufferTooShort (encodeIntLoop v) output ∧
        output.length = Nat.log 128 v + 1 := by
  induction v using Nat.strongRecOn with
  | ind v ih =>
    rw [encodeIntLoop]
    split_ifs with hlarge
    · have hseven : v >>> 7 = v / 128 := Nat.shiftRight_eq_div_pow v 7
      obtain ⟨output, hfills, hlen⟩ := ih (v / 128) (by omega)
      rw [hseven]
      refine ⟨_, (putU8_fills _).bind hfills, ?_⟩
      rw [List.length_append, hlen, Nat.log_of_one_lt_of_le (by decide) hlarge,
        List.length_singleton, Nat.add_comm]
    · refine ⟨_, putU8_fills v, ?_⟩
      rw [Nat.log_of_lt (not_le.mp hlarge), List.length_singleton]

theorem encodeInt_len (v first bits : ℕ) :
    ∃ output, Fills .bufferTooShort (encodeInt v first bits) output ∧
        output.length = intLen v bits := by
  unfold encodeInt intLen
  dsimp only
  split_ifs
  · exact ⟨_, putU8_fills _, rfl⟩
  · obtain ⟨output, hfills, hlen⟩ := encodeIntLoop_len (v - (2 ^ bits - 1))
    refine ⟨_, (putU8_fills _).bind hfills, ?_⟩
    rw [List.length_append, hlen, List.length_singleton, Nat.add_comm]

/-- A string is written after its length, which may be part of another byte. -/
theorem encodeChars_len (v : String) (first bits : ℕ) : ∃ output, Fills .bufferTooShort (do
    encodeInt (Huffman.encodeOutputLength (utf8 v)) first bits
    Huffman.encode (utf8 v)) output ∧ output.length = strLen v bits := by
  obtain ⟨int, hint, hintLen⟩ := encodeInt_len (Huffman.encodeOutputLength (utf8 v)) first bits
  obtain ⟨chars, hchars, hcharsLen, -⟩ := Huffman.encode_fills (utf8 v)
  refine ⟨_, hint.bind hchars, ?_⟩
  rw [List.length_append, hintLen, hcharsLen, strLen]

private theorem encodeHeader_len (h : Header) :
    ∃ output, Fills .bufferTooShort (encodeHeader h) output ∧ output.length = headerLen h := by
  obtain ⟨value, hvalue, hvalueLen⟩ := encodeChars_len h.value 0x80 7
  unfold encodeHeader headerLen
  cases lookupStatic h with
  | none =>
    obtain ⟨name, hname, hnameLen⟩ := encodeChars_len h.name (literalFlag ||| 0x08) 3
    have hboth := hname.bind hvalue
    rw [bind_assoc] at hboth
    refine ⟨_, hboth, ?_⟩
    rw [List.length_append, hnameLen, hvalueLen]
  | some entry =>
    obtain ⟨idx, exact⟩ := entry
    cases exact with
    | true => exact encodeInt_len idx (indexedFlag ||| 0x40) 6
    | false =>
      obtain ⟨int, hint, hintLen⟩ := encodeInt_len idx (literalWithNameRefFlag ||| 0x10) 4
      refine ⟨_, hint.bind hvalue, ?_⟩
      rw [List.length_append, hintLen, hvalueLen]

/-- A header block is written if there is room for its length. -/
theorem encode_fills (headers : List Header) : ∃ output, output.length = blockLen headers ∧
    (∀ after : List UInt8, blockLen headers ≤ after.length →
      encode headers ⟨[], after⟩ = .ok output.length ⟨output, after.drop output.length⟩) ∧
    ∀ after : List UInt8, after.length < blockLen headers →
      ∃ b, encode headers ⟨[], after⟩ = .error (.error .bufferTooShort) b := by
  choose output hfills hlen using encodeHeader_len
  obtain ⟨count, hcount, hcountLen⟩ := encodeInt_len 0 0 8
  obtain ⟨base, hbase, hbaseLen⟩ := encodeInt_len 0 0 7
  have hblock : Fills .bufferTooShort
    (do encodeInt 0 0 8; encodeInt 0 0 7; forM headers encodeHeader)
      (count ++ (base ++ headers.flatMap output)) :=
        hcount.bind (hbase.bind (.forM fun g _ => hfills g))
  have hblockLen : (count ++ (base ++ headers.flatMap output)).length = blockLen headers := by
    have hone : intLen 0 8 = 1 ∧ intLen 0 7 = 1 := ⟨rfl, rfl⟩
    rw [List.length_append, List.length_append, hcountLen, hbaseLen, hone.1, hone.2,
      List.length_flatMap, blockLen,
      ← Nat.add_assoc]
    congr 2
    exact List.map_congr_left fun h _ => hlen h
  have hsplit :
      encode headers = (do encodeInt 0 0 8; encodeInt 0 0 7; forM headers encodeHeader) >>=
          (fun _ => do
      let b ← get
      pure b.before.length) := by
    simp only [encode, bind_assoc]
  refine ⟨_, hblockLen, fun after hroom => ?_, fun after hroom => ?_⟩
  · rw [hsplit, Program.bind_apply, hblock.writes _ _ (hblockLen.trans_le hroom)]
    rfl
  · obtain ⟨b, hb⟩ := hblock.fails [] after (hroom.trans_eq hblockLen.symm)
    exact ⟨b, by rw [hsplit, Program.bind_apply, hb]⟩

end Qpack

namespace Session

/-! ### The room -/

/-- The room for a header block. -/
def headersLen (headers : List Header) : ℕ :=
  (headers.map fun h => (utf8 h.value).length + (utf8 h.name).length + 32).sum

/-- A header block either has room, or it is an internal error. -/
theorem encodeHeaderBlock_eq (headers : List Header) : ∃ output, encodeHeaderBlock headers =
    if Qpack.blockLen headers ≤ headersLen headers then pure output else Program.fail
        .internalError := by
  obtain ⟨output, -, hwrites, hfails⟩ := Qpack.encode_fills headers
  refine ⟨output, ?_⟩
  unfold encodeHeaderBlock headersLen
  dsimp only
  generalize (headers.map fun h => (utf8 h.value).length + (utf8 h.name).length + 32).sum = room
  have hlen : (List.replicate room (0 : UInt8)).length = room := List.length_replicate
  by_cases hroom : Qpack.blockLen headers ≤ room
  · rw [if_pos hroom, hwrites _ (hroom.trans_eq hlen.symm)]
    dsimp only
    rw [List.take_left]
  · obtain ⟨b, hb⟩ := hfails _ (hlen.trans_lt (not_le.mp hroom))
    rw [if_neg hroom, hb]

/-- There is room for a header block, and it is not an internal error, if and only if the headers
are shorter than they are estimated to be by two bytes at least. -/
theorem encodeHeaderBlock_iff (headers : List Header) (s : Session) :
    (∀ s', encodeHeaderBlock headers s ≠ .error (.error .internalError) s') ↔
      2 + (headers.map Qpack.headerLen).sum ≤ headersLen headers := by
  obtain ⟨output, heq⟩ := encodeHeaderBlock_eq headers
  rw [heq]
  by_cases hroom : Qpack.blockLen headers ≤ headersLen headers
  · rw [if_pos hroom, Program.pure_apply]
    refine iff_of_true (fun s' h => ?_) hroom
    cases h
  · rw [if_neg hroom, Program.fail_apply]
    exact iff_of_false (fun hnever => hnever s rfl) hroom

/-- There is never room for an empty list. -/
theorem encodeHeaderBlock_empty : ¬ ∀ headers s s',
    encodeHeaderBlock headers s ≠ .error (.error .internalError) s' := by
  intro hall
  let s : Session := Sample.session 0 (.new (Dtp.Sample.config (.basic {})) false false 0)
  have hfails : encodeHeaderBlock [] s = .error (.error .internalError) s := rfl
  exact hall [] s s hfails

/-- A value of thirteen bytes whose words have 30 bits each does not fit the room. -/
example : headersLen [⟨"x", String.ofList (List.replicate 13 '\n')⟩] = 46 ∧
    Qpack.blockLen [⟨"x", String.ofList (List.replicate 13 '\n')⟩] = 54 := by decide +kernel

end Session

end Dtp.H3
