import Mathlib.Tactic.IntervalCases
import Dtp.Connection
import Dtp.FrameCodec

/-!
# Encoding packet headers

A long header names the version and both connection IDs. A short header has the destination ID
only, followed by the place of the packet in its FEC group and by padding, which makes up for a
short packet number: the payload starts at the same offset in all packets, so that they can be
combined. The FEC fields are patched once the group is known.

## Main definitions

* `Header.fromBytes`, `Header.toBytes` — reading and writing a header
* `updateFecInfo` — patching the FEC fields of a short header
* `Header.ReadAs` — what a header keeps on the wire

## Main results

* `Header.readsBack` — a header is read from its encoding, and all short headers are of one size
* `Header.updateFecInfo_eq` — patching is the same as encoding again
-/

namespace Dtp

open Lib (Program Cursor beBytes)
open Lib.Cursor (Reads Writes)

/-- A packet's header. -/
structure Header where
  ty : PacketType
  version : ℕ
  dcid : List UInt8
  scid : List UInt8
  pktNum : ℕ
  pktNumLen : ℕ
  token : Option (List UInt8)
  versions : Option (List ℕ)
  keyPhase : Bool
  fecInfo : FecStatus
  deriving DecidableEq, Repr

namespace Octets

/-- The length of the whole buffer. -/
def len (b : Octets) : ℕ := b.before.length + b.after.length

/-- Uses the part of the buffer from `off` on as a buffer of its own. -/
def splitAt {α : Type} (off : ℕ) (x : Program Error Octets α) : Program Error Octets α := do
  let b ← get
  let buf := b.before ++ b.after
  if b.len < off then Program.fail .bufferTooShort
  else
    Program.zoom (fun _ => ⟨[], buf.drop off⟩)
      (fun right _ =>
        let buf := buf.take off ++ (right.before ++ right.after)
        ⟨buf.take b.before.length, buf.drop b.before.length⟩) x

end Octets

open Octets

/-- The longest connection id, in bytes. -/
def maxCidLen : ℕ := 20

namespace Header

/-- Returns true if the packet has a long header, given its first byte. -/
def isLong (b : ℕ) : Bool := b &&& 0x80 != 0

/-- The versions in a Version Negotiation packet, up to the end of the buffer. -/
def getVersions : ℕ → Program Error Octets (List ℕ)
  | 0 => pure []
  | fuel + 1 => do
    if cap (← get) = 0 then pure []
    else
      let version ← getU32
      let list ← getVersions fuel
      pure (version :: list)

/-- A connection ID of a long header. -/
def getCid (version : ℕ) : Program Error Octets (List UInt8) := do
  let cidLen ← getU8
  if versionIsSupported version ∧ maxCidLen < cidLen then Program.fail .invalidPacket
  else getBytes cidLen

/-- The FEC fields of a short header. -/
def getFecInfo : Program Error Octets FecStatus := do
  let groupId ← getU32
  let index ← getU8
  let m ← getU8
  let n ← getU8
  pure ⟨m, n, groupId, index⟩

/-- The type in the first byte of a long header. -/
def longType (first version : ℕ) : PacketType :=
  if version = 0 then .versionNegotiation
  else
    match (first &&& 0x30) >>> 4 with
    | 0x00 => .initial
    | 0x01 => .zeroRTT
    | 0x02 => .handshake
    | _ => .retry

/-- What follows the version and the connection IDs of a long header. -/
def getTail (hdr : Header) : Program Error Octets Header :=
  match hdr.ty with
  | .initial => do
    let token ← getBytesWithVarintLength
    pure { hdr with token := some token }
  | .retry => do
    -- Exclude the integrity tag from the token.
    let b ← get
    if cap b < tagLen then Program.fail .invalidPacket
    else
      let token ← getBytes (cap b - tagLen)
      pure { hdr with token := some token }
  | .versionNegotiation => do
    let list ← getVersions (cap (← get))
    pure { hdr with versions := some list }
  | _ => pure hdr

/-- Parses a header, up to the packet number. -/
def fromBytes (dcidLen : ℕ) : Program Error Octets Header := do
  let first ← getU8
  if !isLong first then
    -- Decode short header.
    let dcid ← getBytes dcidLen
    let fecInfo ← getFecInfo
    let padding ← getU8
    forM (List.range padding) fun _ => do
      let _ ← getU8
      pure ()
    pure ⟨.short, 0, dcid, [], 0, 0, none, none, false, fecInfo⟩
  else
    -- Decode long header.
    let version ← getU32
    let ty := longType first version
    let dcid ← getCid version
    let scid ← getCid version
    getTail ⟨ty, version, dcid, scid, 0, 0, none, none, false, .none⟩

/-- The first byte of a short header. -/
def shortFirst (hdr : Header) : ℕ :=
  -- Unset form bit for short header, set fixed bit.
  let first := ((hdr.pktNumLen - 1) % 256 &&& 0x7f) ||| 0x40
  if hdr.keyPhase then first ||| 0x04 else first &&& 0xfb

/-- The first byte of a long header. -/
def longFirst (hdr : Header) (ty : ℕ) : ℕ := (hdr.pktNumLen - 1) % 256 |||
    (0x80 ||| 0x40 ||| ty <<< 4)

/-- The type of a long header. -/
def longCode : PacketType → Option ℕ
  | .initial => some 0x00
  | .zeroRTT => some 0x01
  | .handshake => some 0x02
  | .retry => some 0x03
  | _ => none

/-- The FEC fields of a short header. -/
def putFecInfo (info : FecStatus) : Program Error Octets Unit := do
  putU32 info.groupId
  putU8 info.index
  putU8 info.m
  putU8 info.n

/-- The token, which only Initial and Retry packets have. -/
def putToken (hdr : Header) : Program Error Octets Unit :=
  match hdr.ty with
  | .initial =>
    match hdr.token with
    | some v => do
      putVarint v.length
      putBytes v
    | none => putVarint 0
  | .retry => do
    let token ← Program.unwrap hdr.token
    putBytes token
  | _ => pure ()

/-- Writes a header, up to the packet number. -/
def toBytes (hdr : Header) : Program Error Octets Unit :=
  if hdr.ty = .short then do
    putU8 hdr.shortFirst
    putBytes hdr.dcid
    putFecInfo hdr.fecInfo
    let padding ← subU64 4 (hdr.pktNumLen % 256)
    putU8 padding
    forM (List.replicate padding 0) putU8
  else
    match longCode hdr.ty with
    | none => Program.fail .invalidPacket
    | some ty => do
      putU8 (hdr.longFirst ty)
      putU32 hdr.version
      putU8 hdr.dcid.length
      putBytes hdr.dcid
      putU8 hdr.scid.length
      putBytes hdr.scid
      putToken hdr

end Header

/-- Update FEC info inside packet header. -/
def updateFecInfo (hdr : Header) : Program Error Octets Unit :=
  splitAt (1 + hdr.dcid.length) (Header.putFecInfo hdr.fecInfo)

/-- Writes a packet number in as few bytes as it needs. -/
def encodePktNum (pn : ℕ) : Program Error Octets Unit :=
  match pktNumLen pn with
  | none => Program.fail .invalidPacket
  | some len => putUint len pn

namespace Header

/-! ### Encodings -/

/-- The FEC fields of a short header. -/
def fecBytes (info : FecStatus) : List UInt8 :=
  beBytes 4 info.groupId ++ (beBytes 1 info.index ++ (beBytes 1 info.m ++ beBytes 1 info.n))

/-- The token of a long header. -/
def tokenBytes (hdr : Header) : List UInt8 :=
  match hdr.ty with
  | .initial => varintBytes (hdr.token.getD []).length ++ hdr.token.getD []
  | .retry => hdr.token.getD []
  | _ => []

/-- The encoding of a header. -/
def bytes (hdr : Header) : List UInt8 :=
  match longCode hdr.ty with
  | none => beBytes 1 hdr.shortFirst ++ (hdr.dcid ++ (fecBytes hdr.fecInfo ++
      (beBytes 1 (4 - hdr.pktNumLen) ++ List.replicate (4 - hdr.pktNumLen) 0)))
  | some ty => beBytes 1 (hdr.longFirst ty) ++ (beBytes 4 hdr.version ++
      ((beBytes 1 hdr.dcid.length ++ hdr.dcid) ++
        ((beBytes 1 hdr.scid.length ++ hdr.scid) ++ hdr.tokenBytes)))

/-- The length of the longest connection ID that is read in a long header; a single byte tells it.
-/
def cidLimit (version : ℕ) : ℕ := if versionIsSupported version then maxCidLen else 255

/-- The header has an encoding: the fields of its type are in range. -/
def Encodable (hdr : Header) : Prop :=
  match hdr.ty with
  | .short => 1 ≤ hdr.pktNumLen ∧ hdr.pktNumLen ≤ 4 ∧ hdr.fecInfo.groupId < 2 ^ 32 ∧
    hdr.fecInfo.index < 2 ^ 8 ∧ hdr.fecInfo.m < 2 ^ 8 ∧ hdr.fecInfo.n < 2 ^ 8
  | .versionNegotiation => False
  | _ => hdr.pktNumLen ≤ 16 ∧ (0 < hdr.version ∧ hdr.version < 2 ^ 32) ∧
    hdr.dcid.length ≤ cidLimit hdr.version ∧ hdr.scid.length ≤ cidLimit hdr.version ∧
    (hdr.ty = .initial → (hdr.token.getD []).length < 2 ^ 62) ∧
    (hdr.ty = .retry → hdr.token.isSome = true)

/-- What a long header needs to be encodable. -/
theorem Encodable.long {hdr : Header} (h : hdr.Encodable) {ty : ℕ}
    (hcode : longCode hdr.ty = some ty) :
    hdr.pktNumLen ≤ 16 ∧ (0 < hdr.version ∧ hdr.version < 2 ^ 32) ∧
      hdr.dcid.length ≤ cidLimit hdr.version ∧
      hdr.scid.length ≤ cidLimit hdr.version ∧
        (hdr.ty = .initial → (hdr.token.getD []).length < 2 ^ 62) ∧
      (hdr.ty = .retry → hdr.token.isSome = true) := by
  unfold Encodable at h
  split at h
  case h_1 hty =>
    rw [hty] at hcode
    cases hcode
  case h_2 => exact h.elim
  case h_3 => exact h

/-- What a short header needs to be encodable. -/
theorem Encodable.short {hdr : Header} (h : hdr.Encodable) (hcode : longCode hdr.ty = none) :
    hdr.ty = .short ∧ 1 ≤ hdr.pktNumLen ∧ hdr.pktNumLen ≤ 4 ∧ hdr.fecInfo.groupId < 2 ^ 32 ∧
      hdr.fecInfo.index < 2 ^ 8 ∧ hdr.fecInfo.m < 2 ^ 8 ∧ hdr.fecInfo.n < 2 ^ 8 := by
  unfold Encodable at h
  cases hty : hdr.ty <;> rw [hty] at h hcode
  case short => exact ⟨rfl, h⟩
  case versionNegotiation => exact h.elim
  all_goals cases hcode

/-- What is read back of a header. A short one has no version and no source ID on the wire, a long
one no FEC fields. -/
structure ReadAs (hdr g : Header) : Prop where
  ty : g.ty = hdr.ty
  dcid : g.dcid = hdr.dcid
  fecInfo : hdr.ty = .short → g.fecInfo = hdr.fecInfo
  noScid : hdr.ty = .short → g.scid = []
  version : hdr.ty ≠ .short → g.version = hdr.version
  scid : hdr.ty ≠ .short → g.scid = hdr.scid
  noFecInfo : hdr.ty ≠ .short → g.fecInfo = .none
  initialToken : hdr.ty = .initial → g.token = some (hdr.token.getD [])
  retryToken : hdr.ty = .retry → g.token = hdr.token

/-! ### Writing a header -/

/-- The FEC fields are written. -/
theorem putFecInfo_writes (info : FecStatus) : Writes (putFecInfo info) (fecBytes info) :=
  .bind (putUint_writes 4 _)
    (.bind (putUint_writes 1 _) (.bind (putUint_writes 1 _) (putUint_writes 1 _)))

private theorem zeros_flatMap (k : ℕ) :
    (List.replicate k 0).flatMap (beBytes 1) = List.replicate k 0 := by
  rw [List.flatMap_replicate]
  simp [beBytes]

private theorem putToken_writes {hdr : Header}
    (htoken : hdr.ty = .initial → (hdr.token.getD []).length < 2 ^ 62)
    (hretry : hdr.ty = .retry → hdr.token.isSome = true) :
    Writes (putToken hdr) hdr.tokenBytes := by
  unfold putToken tokenBytes
  cases hty : hdr.ty with
  | initial =>
    cases hsome : hdr.token with
    | some token =>
      rw [hsome] at htoken
      exact .bind (putVarint_writes (htoken hty)) (putBytes_writes token)
    | none => exact (putVarint_writes (by decide)).last
  | retry =>
    obtain ⟨token, hsome⟩ := Option.isSome_iff_exists.mp (hretry hty)
    simp only [hsome, Program.unwrap_some, pure_bind]
    exact putBytes_writes token
  | _ => exact .pure

/-- A short header is written. -/
theorem toBytes_writes_short {hdr : Header} (hty : hdr.ty = .short) (hle : hdr.pktNumLen ≤ 4) :
    Writes (toBytes hdr) hdr.bytes := by
  have hmod : hdr.pktNumLen % 256 = hdr.pktNumLen := Nat.mod_eq_of_lt (by omega)
  simp only [toBytes, hty, if_true, bytes, longCode, hmod]
  refine .bind (putUint_writes 1 _) (.bind (putBytes_writes _) (.bind (putFecInfo_writes _) ?_))
  rw [subU64_of_le hle, pure_bind, ← zeros_flatMap]
  exact .bind (putUint_writes 1 _) (.forM fun v _ => putUint_writes 1 v)

/-- An encodable header is written. -/
theorem toBytes_writes {hdr : Header} (h : hdr.Encodable) : Writes (toBytes hdr) hdr.bytes := by
  cases hcode : longCode hdr.ty with
  | some ty =>
    obtain ⟨-, -, -, -, htoken, hretry⟩ := h.long hcode
    have hne : hdr.ty ≠ .short := by
      intro hty
      rw [hty] at hcode
      cases hcode
    simp only [toBytes, if_neg hne, hcode, bytes, List.append_assoc]
    refine .bind (putUint_writes 1 _) (.bind (putUint_writes 4 _) (.bind (putUint_writes 1 _) ?_))
    refine .bind (putBytes_writes _) (.bind (putUint_writes 1 _) (.bind (putBytes_writes _) ?_))
    exact putToken_writes htoken hretry
  | none =>
    obtain ⟨hty, -, hle, -⟩ := h.short hcode
    exact toBytes_writes_short hty hle

/-! ### Reading it back -/

private theorem skip_reads (l : List ℕ) (rest : List UInt8) :
    Reads (forM l fun _ => do let _ ← getU8; pure ()) (List.replicate l.length 0) rest ⟨⟩ := by
  induction l with
  | nil => exact .pure rest _
  | cons v l ih =>
    have hbyte : Reads getU8 (beBytes 1 0) (List.replicate l.length 0 ++ rest) 0 := getUint_reads _
      (by decide)
    exact hbyte.last.bind ih

private theorem getFecInfo_reads {info : FecStatus} (hgroup : info.groupId < 2 ^ 32)
    (hindex : info.index < 2 ^ 8)
    (hm : info.m < 2 ^ 8) (hn : info.n < 2 ^ 8) (rest : List UInt8) :
    Reads getFecInfo (fecBytes info) rest info :=
  .bind (getUint_reads _ hgroup) (.bind (getUint_reads _ hindex) (.bind (getUint_reads _ hm)
    (getUint_reads rest hn).last))

/-- A connection id is read. -/
theorem getCid_reads {cid : List UInt8} {version : ℕ} (h : cid.length ≤ cidLimit version)
    (rest : List UInt8) :
    Reads (getCid version) (beBytes 1 cid.length ++ cid) rest cid := by
  rw [cidLimit, maxCidLen] at h
  have hbyte : cid.length < 256 := by
    split_ifs at h <;> omega
  have hfits : ¬ (versionIsSupported version = true ∧ maxCidLen < cid.length) := by
    rintro ⟨hsupported, hlong⟩
    rw [if_pos hsupported] at h
    rw [maxCidLen] at hlong
    omega
  refine .bind (getUint_reads _ hbyte) ?_
  rw [if_neg hfits]
  exact getBytes_reads rest rfl

/-- The form bit of a short header is unset. -/
theorem shortFirst_spec {hdr : Header} (hpos : 1 ≤ hdr.pktNumLen) (hle : hdr.pktNumLen ≤ 4) :
    hdr.shortFirst < 256 ∧ isLong hdr.shortFirst = false := by
  unfold shortFirst
  generalize hdr.pktNumLen = len at *
  interval_cases len <;> cases hdr.keyPhase <;> decide

/-- The form bit of a long header is set, and its type is in the bits above the packet number
length. -/
theorem longFirst_spec {hdr : Header} (hle : hdr.pktNumLen ≤ 16) {ty : ℕ}
    (hcode : longCode hdr.ty = some ty)
    {version : ℕ} (hversion : version ≠ 0) :
    hdr.longFirst ty < 256 ∧ isLong (hdr.longFirst ty) = true ∧
      longType (hdr.longFirst ty) version = hdr.ty := by
  unfold longFirst longType
  rw [if_neg hversion]
  generalize hdr.pktNumLen = len at *
  generalize hdr.ty = t at *
  cases t <;> cases hcode <;> interval_cases len <;> decide

private theorem getTail_reads {hdr : Header} (h : hdr.Encodable) {ty : ℕ}
    (hcode : longCode hdr.ty = some ty)
    {rest : List UInt8} (hrest : hdr.ty = .retry → rest.length = tagLen) :
    ∃ g, Reads (getTail ⟨hdr.ty, hdr.version, hdr.dcid, hdr.scid, 0, 0, none, none, false, .none⟩)
      hdr.tokenBytes rest g ∧ hdr.ReadAs g := by
  obtain ⟨-, -, -, -, htoken, hretry⟩ := h.long hcode
  unfold getTail tokenBytes
  cases hty : hdr.ty with
  | initial =>
    refine ⟨_, (getBytesWithVarintLength_reads rest (htoken hty)).last, ?_⟩
    constructor <;> simp [hty]
  | retry =>
    obtain ⟨token, hsome⟩ := Option.isSome_iff_exists.mp (hretry hty)
    rw [hsome, Option.getD_some]
    refine ⟨⟨.retry, hdr.version, hdr.dcid, hdr.scid, 0, 0, some token, none, false, .none⟩, ?_, ?_⟩
    · intro before
      have hread : Reads (getBytes token.length) token rest token := getBytes_reads rest rfl
      have hcap : cap ⟨before, token ++ rest⟩ = token.length + tagLen := by
        simp [cap, hrest hty]
      simp only [Program.bind_apply, Program.get_apply, hcap, Nat.add_sub_cancel]
      rw [if_neg (by omega), Program.bind_apply, hread before]
      rfl
    · constructor <;> simp [hty, hsome]
  | handshake | zeroRTT =>
    refine ⟨_, .pure rest _, ?_⟩
    constructor <;> simp [hty]
  | short | versionNegotiation =>
    rw [hty] at hcode
    cases hcode

/-- What follows the first byte of a header. -/
def fromBytesTail (dcidLen first : ℕ) : Program Error Octets Header :=
  if !isLong first then do
    let dcid ← getBytes dcidLen
    let fecInfo ← getFecInfo
    let padding ← getU8
    forM (List.range padding) fun _ => do
      let _ ← getU8
      pure ()
    pure ⟨.short, 0, dcid, [], 0, 0, none, none, false, fecInfo⟩
  else do
    let version ← getU32
    let ty := longType first version
    let dcid ← getCid version
    let scid ← getCid version
    getTail ⟨ty, version, dcid, scid, 0, 0, none, none, false, .none⟩

/-- The first byte of a header. -/
def first (hdr : Header) : ℕ :=
  match longCode hdr.ty with
  | none => hdr.shortFirst
  | some ty => hdr.longFirst ty

/-- The first byte is a byte. -/
theorem first_lt {hdr : Header} (h : hdr.Encodable) : hdr.first < 256 := by
  unfold first
  cases hcode : longCode hdr.ty with
  | none =>
    obtain ⟨-, hpos, hle, -⟩ := h.short hcode
    exact (shortFirst_spec hpos hle).1
  | some ty =>
    obtain ⟨hle, -⟩ := h.long hcode
    exact (longFirst_spec hle hcode Nat.one_ne_zero).1

/-- What follows the first byte in the encoding of a header. -/
def tailBytes (hdr : Header) : List UInt8 :=
  match longCode hdr.ty with
  | none => hdr.dcid ++ (fecBytes hdr.fecInfo ++
      (beBytes 1 (4 - hdr.pktNumLen) ++ List.replicate (4 - hdr.pktNumLen) 0))
  | some _ => beBytes 4 hdr.version ++
      ((beBytes 1 hdr.dcid.length ++ hdr.dcid) ++
        ((beBytes 1 hdr.scid.length ++ hdr.scid) ++ hdr.tokenBytes))

/-- A header is its first byte and the rest. -/
theorem bytes_eq (hdr : Header) : hdr.bytes = beBytes 1 hdr.first ++ hdr.tailBytes := by
  unfold bytes first tailBytes
  cases longCode hdr.ty <;> rfl

/-- A header is read from its encoding, also if the first byte is another one with the same form and
type. -/
theorem fromBytesTail_reads {hdr : Header} (h : hdr.Encodable) {rest : List UInt8}
    (hrest : hdr.ty = .retry → rest.length = tagLen) : ∃ g, hdr.ReadAs g ∧
      ∀ f, isLong f = isLong hdr.first →
        (isLong hdr.first = true → f &&& 0x30 = hdr.first &&& 0x30) →
        Reads (fromBytesTail hdr.dcid.length f) hdr.tailBytes rest g := by
  unfold tailBytes
  cases hcode : longCode hdr.ty with
  | none =>
    obtain ⟨hty, hpos, hle, hgroup, hindex, hm, hn⟩ := h.short hcode
    obtain ⟨-, hshort⟩ := shortFirst_spec hpos hle
    refine ⟨⟨.short, 0, hdr.dcid, [], 0, 0, none, none, false, hdr.fecInfo⟩, ?_, ?_⟩
    · constructor <;> simp [hty]
    · intro f hform _
      have hf : isLong f = false := by simpa only [first, hcode, hshort] using hform
      simp only [fromBytesTail, hf, Bool.not_false, if_true]
      refine .bind (getBytes_reads _ rfl) (.bind (getFecInfo_reads hgroup hindex hm hn _) ?_)
      refine .bind (getUint_reads _ (by omega)) ?_
      have hskip := skip_reads (List.range (4 - hdr.pktNumLen)) rest
      rw [List.length_range] at hskip
      exact hskip.last
  | some ty =>
    obtain ⟨hle, ⟨hzero, hwidth⟩, hdcid, hscid, -⟩ := h.long hcode
    obtain ⟨-, hlong, htype⟩ := longFirst_spec hle hcode hzero.ne'
    obtain ⟨g, htail, hreadAs⟩ := getTail_reads h hcode hrest
    refine ⟨g, hreadAs, ?_⟩
    intro f hform hbits
    have hf : isLong f = true := by simpa only [first, hcode, hlong] using hform
    have htype' : longType f hdr.version = hdr.ty := by
      have hsame := hbits (by simpa only [first, hcode] using hlong)
      rw [← htype]
      simp only [first, hcode] at hsame
      simp only [longType, hsame]
    simp only [fromBytesTail, hf, Bool.not_true, Bool.false_eq_true, if_false]
    refine .bind (getUint_reads _ hwidth) ?_
    rw [htype']
    exact .bind (getCid_reads hdcid _) (.bind (getCid_reads hscid _) htail)

/-- An encodable header is read. -/
theorem fromBytes_reads {hdr : Header} (h : hdr.Encodable) {rest : List UInt8}
    (hrest : hdr.ty = .retry → rest.length = tagLen) :
    ∃ g, Reads (fromBytes hdr.dcid.length) hdr.bytes rest g ∧ hdr.ReadAs g := by
  obtain ⟨g, hreadAs, htail⟩ := fromBytesTail_reads h hrest
  refine ⟨g, ?_, hreadAs⟩
  rw [bytes_eq]
  exact (getUint_reads _ (first_lt h)).bind (f :=
    fromBytesTail hdr.dcid.length) (htail _ rfl fun _ => rfl)

/-! ### Short headers -/

/-- Padding makes up for a short packet number. -/
theorem bytes_length_short {hdr : Header} (hty : hdr.ty = .short) (hle : hdr.pktNumLen ≤ 4) :
    hdr.bytes.length + hdr.pktNumLen = 13 + hdr.dcid.length := by
  simp only [bytes, hty, longCode, fecBytes, List.length_append, Lib.beBytes_length,
    List.length_replicate]
  omega

/-- A packet number is written in its length. -/
theorem encodePktNum_writes {pn len : ℕ} (h : Dtp.pktNumLen pn = some len) :
    Writes (encodePktNum pn) (beBytes len pn) := by
  rw [encodePktNum, h]
  exact putUint_writes len pn

@[simp] theorem fecBytes_length (info : FecStatus) : (fecBytes info).length = 7 := by
  simp [fecBytes]

/-- The FEC fields stand right after the destination ID. -/
theorem updateFecInfo_eq {hdr : Header} (hty : hdr.ty = .short) (info : FecStatus)
    {rest : List UInt8}
    {b : Octets} (h : b.before ++ b.after = hdr.bytes ++ rest) :
    ∃ b', updateFecInfo { hdr with fecInfo := info } b = .ok () b' ∧
      b'.before ++ b'.after = bytes { hdr with fecInfo := info } ++ rest ∧
      b'.before.length = b.before.length := by
  obtain ⟨front, tail, hfront, hbytes⟩ : ∃ front tail : List UInt8,
    front.length = 1 + hdr.dcid.length ∧
      ∀ info, bytes { hdr with fecInfo := info } = front ++ (fecBytes info ++ tail) := by
    refine ⟨beBytes 1 hdr.shortFirst ++ hdr.dcid,
      beBytes 1 (4 - hdr.pktNumLen) ++ List.replicate (4 - hdr.pktNumLen) 0, by simp,
        fun info => ?_⟩
    simp only [bytes, hty, longCode, shortFirst, List.append_assoc]
  have hbuf : b.before ++ b.after = front ++ (fecBytes hdr.fecInfo ++ (tail ++ rest)) := by
    rw [h, hbytes hdr.fecInfo, List.append_assoc, List.append_assoc]
  have hput := putFecInfo_writes info [] (fecBytes hdr.fecInfo ++ (tail ++ rest)) (by simp)
  have hdrop : (fecBytes hdr.fecInfo ++ (tail ++ rest)).drop
      (fecBytes info).length = tail ++ rest :=
    List.drop_left' (by simp)
  rw [hdrop, List.nil_append] at hput
  have hlen : b.len = (b.before ++ b.after).length := List.length_append.symm
  have hroom : ¬ b.len < 1 + hdr.dcid.length := by
    rw [hlen, hbuf, List.length_append]
    omega
  have hsame : (front ++ (fecBytes info ++ (tail ++ rest))).length = b.len := by
    rw [hlen, hbuf]
    simp
  refine ⟨⟨(front ++ (fecBytes info ++ (tail ++ rest))).take b.before.length,
    (front ++ (fecBytes info ++ (tail ++ rest))).drop b.before.length⟩, ?_, ?_, ?_⟩
  · simp only [updateFecInfo, splitAt, Program.bind_apply, Program.get_apply]
    rw [if_neg hroom, Program.zoom, hbuf, List.drop_left' hfront, List.take_left' hfront, hput]
  · rw [List.take_append_drop, hbytes, List.append_assoc, List.append_assoc]
  · rw [List.length_take, hsame, len]
    omega

/-- A header is read back from its encoding, in front of the integrity tag if it is a Retry. The
encoding of a short one leaves its payload in one place, and patching its FEC fields is the same
as encoding it again. -/
theorem readsBack {hdr : Header} (h : hdr.Encodable) : ∃ output, Writes (toBytes hdr) output ∧
    (∀ rest, (hdr.ty = .retry → rest.length = tagLen) →
      ∃ g, Reads (fromBytes hdr.dcid.length) output rest g ∧ hdr.ReadAs g) ∧
    (hdr.ty = .short → output.length + hdr.pktNumLen = 13 + hdr.dcid.length ∧
      ∀ pn, Dtp.pktNumLen pn = some hdr.pktNumLen →
        ∃ number, Writes (encodePktNum pn) number ∧
          (output ++ number).length = 13 + hdr.dcid.length) ∧
    (hdr.ty = .short → ∀ info, ∃ output', Writes (toBytes { hdr with fecInfo := info }) output' ∧
      ∀ rest (b : Octets), b.before ++ b.after = output ++ rest →
        ∃ b', updateFecInfo { hdr with fecInfo := info } b = .ok () b' ∧
          b'.before ++ b'.after = output' ++ rest ∧ b'.before.length = b.before.length) := by
  have hle (hty : hdr.ty = .short) : hdr.pktNumLen ≤ 4 := (h.short (by rw [hty]; rfl)).2.2.1
  refine ⟨hdr.bytes, toBytes_writes h, fun rest hrest => fromBytes_reads h hrest, fun hty => ?_,
    fun hty info => ?_⟩
  · have hlen := bytes_length_short hty (hle hty)
    refine ⟨hlen, fun pn hpn => ⟨_, encodePktNum_writes hpn, ?_⟩⟩
    rw [List.length_append, Lib.beBytes_length, hlen]
  · exact ⟨bytes { hdr with fecInfo := info }, toBytes_writes_short hty (hle hty),
      fun rest b hb => updateFecInfo_eq hty info hb⟩

/-- The header of a packet in a FEC group, and of the same packet before it had one. -/
theorem readsBack_short : ∃ output : List UInt8, output.length + 2 = 14 ∧
    (∃ g, fromBytes 1 ⟨[], output⟩ = .ok g ⟨output, []⟩ ∧ g.fecInfo = ⟨4, 1, 9, 3⟩) ∧
    ∃ output', ∃ b', updateFecInfo ⟨.short, 0, [7], [5], 0, 2, none, none, false, .none⟩ ⟨output,
      []⟩ = .ok () b' ∧
      b'.before = output' := by
  obtain ⟨output, -, hread, hsize, hpatch⟩ :=
    @readsBack ⟨.short, 0, [7], [5], 0, 2, none, none, false, ⟨4, 1, 9, 3⟩⟩
      ⟨by decide, by decide, by decide, by decide, by decide, by decide⟩
  refine ⟨output, (hsize rfl).1, ?_, ?_⟩
  · obtain ⟨g, hg, hsame⟩ := hread [] nofun
    have hrun := hg []
    rw [List.append_nil] at hrun
    exact ⟨g, hrun, hsame.fecInfo rfl⟩
  · obtain ⟨output', -, hupdate⟩ := hpatch rfl .none
    obtain ⟨b', hrun, -, -⟩ := hupdate [] ⟨output, []⟩ rfl
    exact ⟨b'.before, b', hrun, rfl⟩

/-- A short header loses its source ID and a long one its FEC fields, a packet number of more than
16 bytes changes the type, and a Retry packet without a token makes the writer panic. -/
theorem readsBack_fails :
    (∃ output g, Writes (toBytes ⟨.short, 0, [7], [5], 0, 1, none, none, false, .none⟩) output ∧
      Reads (fromBytes 1) output [] g ∧ g.scid ≠ [5]) ∧
    (∃ output g,
      Writes (toBytes ⟨.handshake, 0xff000019, [7], [5], 0, 1, none, none, false, ⟨4, 1, 9, 3⟩⟩)
        output ∧
      Reads (fromBytes 1) output [] g ∧ g.fecInfo ≠ ⟨4, 1, 9, 3⟩) ∧
    longType (longFirst ⟨.initial, 0xff000019, [7], [5], 0, 17, none, none, false, .none⟩ 0)
      0xff000019 =
      .zeroRTT ∧
    ∃ b, toBytes ⟨.retry, 0xff000019, [], [], 0, 0, none, none, false, .none⟩
      ⟨[], List.replicate 7 0⟩ =
      .error .panic b := by
  refine ⟨?_, ?_, by decide, ⟨_, rfl⟩⟩
  · have hshort : Encodable ⟨.short, 0, [7], [5], 0, 1, none, none, false, .none⟩ :=
      ⟨by decide, by decide, by decide, by decide, by decide, by decide⟩
    obtain ⟨g, hread, hsame⟩ := @fromBytes_reads _ hshort [] nofun
    exact ⟨_, g, toBytes_writes hshort, hread, by rw [hsame.noScid rfl]; decide⟩
  · have hlong : Encodable ⟨.handshake, 0xff000019, [7], [5], 0, 1, none, none, false,
        ⟨4, 1, 9, 3⟩⟩ :=
      ⟨by decide, by decide, by decide, by decide, nofun, nofun⟩
    obtain ⟨g, hread, hsame⟩ := @fromBytes_reads _ hlong [] nofun
    exact ⟨_, g, toBytes_writes hlong, hread, by rw [hsame.noFecInfo nofun]; decide⟩

end Header

end Dtp
