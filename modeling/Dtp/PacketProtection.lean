import Mathlib.Data.UInt
import Dtp.HeaderCodec
import Dtp.PacketNumbers

/-!
# Packet protection

The payload of a packet is sealed with its header as associated data. The header is then masked:
the mask is computed from a sample of the sealed payload and hides the packet number and the lower
bits of the first byte, also those with the length of the packet number. The receiver therefore
takes its sample at the place where the payload of a packet with the longest number would start,
four bytes after the start of the number.

## Main definitions

* `Crypto.Seal`, `Crypto.Open` — the keys of the two sides, which `Crypto.Matches` each other
* `encryptHdr`, `encryptPkt`, `decryptHdr`, `decryptPkt` — protecting a packet and removing that
* `protect`, `unprotect` — sending and receiving a packet

## Main results

* `openSample_eq` — both sides take the same sample
* `unprotect_protect` — a packet is recovered with its header
-/

namespace Dtp

open Lib (Program Cursor beBytes)
open Lib.Cursor (Reads Writes)
open Octets

namespace Crypto

/-- The keys of a sender. Sealing a text under a counter, with associated data, appends the tag. -/
structure Seal where
  sealWithU64Counter : ℕ → List UInt8 → List UInt8 → Option (List UInt8)
  newMask : List UInt8 → ℕ → UInt8

/-- The keys of a receiver. -/
structure Open where
  openWithU64Counter : ℕ → List UInt8 → List UInt8 → Option (List UInt8)
  newMask : List UInt8 → ℕ → UInt8

/-- The receiver has the keys of the sender: it opens what was sealed, and masks in the same way. -/
structure Matches (sealer : Seal) (opener : Open) : Prop where
  newMask : opener.newMask = sealer.newMask
  length : ∀ {counter ad text sealed}, sealer.sealWithU64Counter counter ad text = some sealed →
    sealed.length = text.length + tagLen
  opens : ∀ {counter ad text sealed}, sealer.sealWithU64Counter counter ad text = some sealed →
    opener.openWithU64Counter counter ad sealed = some text

end Crypto

/-- The longest packet number, in bytes. -/
def maxPktNumLen : ℕ := 4

/-- The bytes of a packet that its header is masked with. -/
def sampleLen : ℕ := 16

/-- The length of the packet number in the first byte. -/
def pktNumMask : UInt8 := 0x03

/-- The key phase in the first byte of a short header. -/
def keyPhaseBit : UInt8 := 0x04

namespace Octets

/-- The whole buffer. -/
def buf (b : Octets) : List UInt8 := b.before ++ b.after

/-- A buffer with an offset. -/
def withOff (buf : List UInt8) (off : ℕ) : Octets := ⟨buf.take off, buf.drop off⟩

@[simp] theorem buf_withOff (l : List UInt8) (off : ℕ) : buf (withOff l off) = l :=
    List.take_append_drop off l

theorem withOff_append (front rest : List UInt8) :
    withOff (front ++ rest) front.length = ⟨front, rest⟩ := by
  rw [withOff, List.take_left, List.drop_left]

end Octets

/-- Masks the lower bits of the first byte: four in a long header, five in a short one. -/
def maskFirst (mask : ℕ → UInt8) (first : UInt8) : UInt8 :=
  if Header.isLong first.toNat then first ^^^ (mask 0 &&& 0x0f) else first ^^^ (mask 0 &&& 0x1f)

/-- Masks the bytes of the packet number. -/
def maskPktNum (mask : ℕ → UInt8) (pn : List UInt8) :
    List UInt8 := pn.mapIdx fun i b => b ^^^ mask (i + 1)

/-- The sample that the sender takes, relative to the payload. -/
def sealSample (pnLen : ℕ) (payload : List UInt8) :
    List UInt8 := (payload.drop (4 - pnLen)).take sampleLen

/-- The sample that the receiver takes, relative to the packet number. -/
def openSample (b : Octets) : List UInt8 := (b.after.drop maxPktNumLen).take sampleLen

/-- Masks a header, which ends with the packet number. -/
def encryptHdr (aead : Crypto.Seal) (pnLen : ℕ) (payload : List UInt8) :
    Program Error (List UInt8) Unit := do
  if 4 < pnLen ∨ payload.length < 16 + (4 - pnLen) then Program.crash
  let mask := aead.newMask (sealSample pnLen payload)
  match ← get with
  | [] => Program.fail .bufferTooShort
  | first :: rest =>
    set (maskFirst mask first :: rest)
    if rest.length < pnLen then Program.fail .bufferTooShort
    let pnOff := rest.length - pnLen
    set (maskFirst mask first :: (rest.take pnOff ++ maskPktNum mask (rest.drop pnOff)))

/-- Seals the payload of a packet in place and masks its header. The last bytes of the payload are
room for the tag. -/
def encryptPkt (aead : Crypto.Seal) (pn pnLen payloadLen payloadOffset : ℕ) :
    Program Error Octets ℕ := do
  let b ← get
  if b.len < payloadOffset then Program.fail .bufferTooShort
  let header := b.buf.take payloadOffset
  let payload := b.buf.drop payloadOffset
  if payload.length < payloadLen then Program.fail .bufferTooShort
  if payloadLen < tagLen then Program.fail .cryptoFail
  match aead.sealWithU64Counter pn header (payload.take (payloadLen - tagLen)) with
  | none => Program.fail .cryptoFail
  | some ciphertext =>
    let rest := ciphertext ++ payload.drop payloadLen
    Program.zoom (fun _ => header) (fun header b => withOff (header ++ rest) b.before.length)
      (encryptHdr aead pnLen ciphertext)
    pure (payloadOffset + payloadLen)

/-- Unmasks the header of a packet in place, from the packet number on. -/
def decryptHdr (aead : Crypto.Open) (hdr : Header) : Program Error Octets Header := do
  let b ← get
  match b.buf with
  | [] => Program.fail .bufferTooShort
  | first :: _ =>
    if cap b < maxPktNumLen + sampleLen then Program.fail .bufferTooShort
    let mask := aead.newMask (openSample b)
    let first := maskFirst mask first
    let pnLen := (first &&& pktNumMask).toNat + 1
    set (⟨b.before, maskPktNum mask (b.after.take pnLen) ++ b.after.drop pnLen⟩ : Octets)
    -- Extract packet number corresponding to the decoded length, which is at most 4.
    let pn ← getUint pnLen
    -- Write decrypted first byte back into the input buffer.
    modify fun b => withOff (b.buf.set 0 first) b.before.length
    pure { hdr with
      pktNum := pn, pktNumLen := pnLen,
      keyPhase := if hdr.ty = .short then first &&& keyPhaseBit != 0 else hdr.keyPhase }

/-- Opens the payload of a packet in place. -/
def decryptPkt (aead : Crypto.Open) (pn pnLen payloadLen : ℕ) :
    Program Error Octets (List UInt8) := do
  let b ← get
  if payloadLen < pnLen then Program.fail .invalidPacket
  let payloadLen := payloadLen - pnLen
  if cap b < payloadLen then Program.fail .bufferTooShort
  match aead.openWithU64Counter pn b.before (b.after.take payloadLen) with
  | none => Program.fail .cryptoFail
  | some text =>
    set (⟨b.before, text ++ b.after.drop text.length⟩ : Octets)
    getBytes text.length

/-- Writes a packet. What is `between` its header and the packet number is the length of a packet
with a long header. -/
def protect (aead : Crypto.Seal) (hdr : Header) (between : List UInt8) (pn : ℕ)
    (payload : List UInt8) :
    Program Error Octets ℕ := do
  hdr.toBytes
  putBytes between
  encodePktNum pn
  let b ← get
  putBytes payload
  encryptPkt aead pn hdr.pktNumLen (payload.length + tagLen) b.before.length

/-- Reads a packet, with `skip` bytes between its header and the packet number. -/
def unprotect (aead : Crypto.Open) (dcidLen skip payloadLen : ℕ) :
    Program Error Octets (Header × List UInt8) := do
  let hdr ← Header.fromBytes dcidLen
  let _ ← getBytes skip
  let hdr ← decryptHdr aead hdr
  let payload ← decryptPkt aead hdr.pktNum hdr.pktNumLen payloadLen
  pure (hdr, payload)

/-! ### Masks -/

section Masks

variable (mask : ℕ → UInt8)

/-- A mask does not touch the bits outside of it. -/
theorem masked_bits (x m k : UInt8) {c : ℕ} (hc : k.toNat &&& c = 0) :
    (x ^^^ (m &&& k)).toNat &&& c = x.toNat &&& c := by
  rw [UInt8.toNat_xor, UInt8.toNat_and, Nat.and_xor_distrib_right, Nat.and_assoc, hc, Nat.and_zero,
    Nat.xor_zero]

theorem isLong_maskFirst (first : UInt8) :
    Header.isLong (maskFirst mask first).toNat = Header.isLong first.toNat := by
  unfold maskFirst
  split_ifs
  · rw [Header.isLong, masked_bits _ _ _ (by decide), ← Header.isLong]
  · rw [Header.isLong, masked_bits _ _ _ (by decide), ← Header.isLong]

/-- The type of a long header is not masked. -/
theorem maskFirst_type {first : UInt8} (h : Header.isLong first.toNat = true) :
    (maskFirst mask first).toNat &&& 0x30 = first.toNat &&& 0x30 := by
  rw [maskFirst, if_pos h]
  exact masked_bits _ _ _ (by decide)

/-- Masking twice is no change. -/
theorem maskFirst_maskFirst (first : UInt8) : maskFirst mask (maskFirst mask first) = first := by
  rw [maskFirst, isLong_maskFirst, maskFirst]
  split_ifs
  · rw [UInt8.xor_assoc, UInt8.xor_self, UInt8.xor_zero]
  · rw [UInt8.xor_assoc, UInt8.xor_self, UInt8.xor_zero]

@[simp] theorem maskPktNum_length (pn : List UInt8) : (maskPktNum mask pn).length = pn.length :=
  List.length_mapIdx

private theorem maskPktNum_maskPktNum (pn : List UInt8) :
    maskPktNum mask (maskPktNum mask pn) = pn := by
  apply List.ext_getElem
  · rw [maskPktNum_length, maskPktNum_length]
  · intro i _ _
    simp only [maskPktNum, List.getElem_mapIdx, UInt8.xor_assoc, UInt8.xor_self, UInt8.xor_zero]

end Masks

/-- Both sides take the same sample: that of the receiver starts four bytes after the packet number.
-/
theorem openSample_eq {front pn ciphertext rest : List UInt8} (hpn : pn.length ≤ 4)
    (hlen : 20 ≤ pn.length + ciphertext.length) :
    openSample ⟨front, pn ++ (ciphertext ++ rest)⟩ = sealSample pn.length ciphertext := by
  have hfront : (ciphertext ++ rest).drop (4 - pn.length) = ciphertext.drop
      (4 - pn.length) ++ rest :=
    List.drop_append_of_le_length (by omega)
  rw [openSample, sealSample, maxPktNumLen, sampleLen, List.drop_append, List.drop_eq_nil_of_le hpn,
    List.nil_append,
    hfront]
  exact List.take_append_of_le_length (by rw [List.length_drop]; omega)

/-! ### The first byte -/

/-- The first byte tells the length of the packet number. -/
theorem Header.first_pktNumLen {hdr : Header} (hpos : 1 ≤ hdr.pktNumLen)
    (hle : hdr.pktNumLen ≤ 4) :
    (UInt8.ofNat hdr.first &&& pktNumMask).toNat + 1 = hdr.pktNumLen := by
  unfold first
  cases hcode : longCode hdr.ty with
  | none =>
    unfold shortFirst
    generalize hdr.pktNumLen = len at *
    dsimp only
    interval_cases len <;> cases hdr.keyPhase <;> decide
  | some ty =>
    unfold longFirst
    generalize hdr.pktNumLen = len at *
    generalize hdr.ty = t at *
    dsimp only
    cases t <;> cases hcode <;> interval_cases len <;> decide

/-- The first byte of a short header tells the key phase. -/
theorem Header.first_keyPhase {hdr : Header} (hty : hdr.ty = .short) (hpos : 1 ≤ hdr.pktNumLen)
    (hle : hdr.pktNumLen ≤ 4) : (UInt8.ofNat hdr.first &&& keyPhaseBit != 0) = hdr.keyPhase := by
  simp only [first, hty, longCode, shortFirst]
  generalize hdr.pktNumLen = len at *
  interval_cases len <;> cases hdr.keyPhase <;> decide

/-! ### Sending -/

section Send

variable {aead : Crypto.Seal} {first : UInt8} {front pn text sealed : List UInt8}

/-- Masking a header that ends with a packet number. -/
theorem encryptHdr_eq (hpn : pn.length ≤ 4) (hlen : 20 ≤ pn.length + sealed.length) :
    encryptHdr aead pn.length sealed (first :: (front ++ pn)) =
      .ok ⟨⟩ (maskFirst (aead.newMask (sealSample pn.length sealed)) first ::
        (front ++ maskPktNum (aead.newMask (sealSample pn.length sealed)) pn)) := by
  have hsample : ¬ (4 < pn.length ∨ sealed.length < 16 + (4 - pn.length)) := by omega
  have hroom : ¬ (front ++ pn).length < pn.length := by simp
  have hoff : (front ++ pn).length - pn.length = front.length := by simp
  simp only [encryptHdr, if_neg hsample, Program.bind_apply, Program.get_apply, Program.set_apply,
    if_neg hroom,
    hoff, List.take_left, List.drop_left]

/-- Sealing the payload of a packet and masking its header. -/
theorem encryptPkt_eq {number : ℕ} {b : Octets} {room rest : List UInt8}
    (hbuf : b.buf = (first :: (front ++ pn)) ++ (text ++ (room ++ rest)))
    (hroom : room.length = tagLen)
    (hseal : aead.sealWithU64Counter number (first :: (front ++ pn)) text = some sealed)
    (hpn : pn.length ≤ 4) (hlen : 20 ≤ pn.length + sealed.length) :
    encryptPkt aead number pn.length (text.length + tagLen) (first :: (front ++ pn)).length b =
      .ok ((first :: (front ++ pn)).length + (text.length + tagLen))
        (withOff ((maskFirst (aead.newMask (sealSample pn.length sealed)) first ::
          (front ++ maskPktNum (aead.newMask (sealSample pn.length sealed)) pn)) ++
            (sealed ++ rest))
            b.before.length) := by
  have hoffset : ¬ b.len < (first :: (front ++ pn)).length := by
    have hlength := congrArg List.length hbuf
    rw [buf, List.length_append, List.length_append] at hlength
    rw [Octets.len]
    omega
  have hpayload : ¬ (text ++ (room ++ rest)).length < text.length + tagLen := by
    rw [List.length_append, List.length_append, hroom]
    omega
  have htag : ¬ text.length + tagLen < tagLen := by omega
  have hdrop : (text ++ (room ++ rest)).drop (text.length + tagLen) = rest := by
    rw [← List.append_assoc]
    exact List.drop_left' (by rw [List.length_append, hroom])
  simp only [encryptPkt, Program.bind_apply, Program.get_apply, if_neg hoffset,
    Program.pure_apply, hbuf,
    List.take_left, List.drop_left, if_neg hpayload, if_neg htag, Nat.add_sub_cancel, hseal, hdrop,
      Program.zoom,
    encryptHdr_eq hpn hlen]

end Send

/-! ### Receiving -/

section Receive

variable {aead : Crypto.Open} {first : UInt8} {front pn text sealed rest : List UInt8}

/-- Unmasking the header of a packet. -/
theorem decryptHdr_eq {mask : ℕ → UInt8} (hdr : Header)
    (hfirst : (first &&& pktNumMask).toNat + 1 = pn.length)
    (hpn : pn.length ≤ 4) (hlen : 20 ≤ pn.length + sealed.length)
    (hmask : aead.newMask (sealSample pn.length sealed) = mask) :
    decryptHdr aead hdr ⟨maskFirst mask first :: front, maskPktNum mask pn ++ (sealed ++ rest)⟩ =
      .ok { hdr with
        pktNum := Lib.beValue pn, pktNumLen := pn.length,
        keyPhase := if hdr.ty = .short then first &&& keyPhaseBit != 0 else hdr.keyPhase }
        ⟨first :: (front ++ pn), sealed ++ rest⟩ := by
  have hroom : ¬ cap ⟨maskFirst mask first :: front, maskPktNum mask pn ++ (sealed ++ rest)⟩ <
      maxPktNumLen + sampleLen := by
    rw [cap, List.length_append, List.length_append, maskPktNum_length, maxPktNumLen, sampleLen]
    omega
  have hsample : openSample ⟨maskFirst mask first :: front,
    maskPktNum mask pn ++ (sealed ++ rest)⟩ =
      sealSample pn.length sealed := by
    rw [← maskPktNum_length mask pn] at hpn hlen ⊢
    exact openSample_eq hpn hlen
  have htake : (maskPktNum mask pn ++ (sealed ++ rest)).take pn.length = maskPktNum mask pn :=
    List.take_left' (maskPktNum_length mask pn)
  have hdrop : (maskPktNum mask pn ++ (sealed ++ rest)).drop pn.length = sealed ++ rest :=
    List.drop_left' (maskPktNum_length mask pn)
  have hread : Reads (getUint pn.length) pn (sealed ++ rest) (Lib.beValue pn) :=
    (getBytes_reads (sealed ++ rest) rfl).map
  have hclear : withOff ((maskFirst mask first :: (front ++ pn ++ (sealed ++ rest))).set 0 first)
      (maskFirst mask first :: (front ++ pn)).length = ⟨first :: (front ++ pn), sealed ++ rest⟩ :=
    withOff_append (first :: (front ++ pn)) (sealed ++ rest)
  simp only [decryptHdr, Program.bind_apply, Program.get_apply, buf, List.cons_append, if_neg hroom,
    hsample, hmask, maskFirst_maskFirst, hfirst, htake, hdrop, maskPktNum_maskPktNum,
    Program.set_apply, hread (maskFirst mask first :: front), Program.modify_apply, hclear,
      Program.pure_apply]

/-- Opening the payload of a packet. -/
theorem decryptPkt_eq {ad : List UInt8} {number pnLen payloadLen : ℕ}
    (hopen : aead.openWithU64Counter number ad sealed = some text)
    (hle : text.length ≤ sealed.length)
    (hlen : payloadLen = sealed.length + pnLen) :
    decryptPkt aead number pnLen payloadLen ⟨ad, sealed ++ rest⟩ =
      .ok text ⟨ad ++ text, sealed.drop text.length ++ rest⟩ := by
  have hpnLen : ¬ payloadLen < pnLen := by omega
  have hsub : payloadLen - pnLen = sealed.length := by omega
  have hroom : ¬ cap ⟨ad, sealed ++ rest⟩ < sealed.length := by simp [cap]
  have hread : Reads (getBytes text.length) text (sealed.drop text.length ++ rest) text :=
    getBytes_reads _ rfl
  simp only [decryptPkt, Program.bind_apply, Program.get_apply, if_neg hpnLen, hsub,
    if_neg hroom, List.take_left, hopen, Program.set_apply, List.drop_append_of_le_length hle,
      hread ad]

end Receive

/-! ### The round trip -/

/-- What the receiver learns of a header: it is read as it was written, with the number of the
packet and its length and, if it is a short one, the key phase. -/
structure Header.Recovered (hdr g : Header) (pn : ℕ) : Prop extends hdr.ReadAs g where
  pktNum : g.pktNum = pn
  pktNumLen : g.pktNumLen = hdr.pktNumLen
  keyPhase : hdr.ty = .short → g.keyPhase = hdr.keyPhase

/-- The header of a packet, up to the packet number, without its first byte. -/
def Header.middle (hdr : Header) (between : List UInt8) : List UInt8 := hdr.tailBytes ++ between

theorem Header.clear_eq (hdr : Header) (between number : List UInt8) :
    hdr.bytes ++ (between ++ number) = UInt8.ofNat hdr.first :: (hdr.middle between ++ number) := by
  have hbytes : hdr.bytes = UInt8.ofNat hdr.first :: hdr.tailBytes := hdr.bytes_eq
  rw [hbytes, List.cons_append, middle, List.append_assoc]

/-- A packet as it is sent. -/
def sentPacket (newMask : List UInt8 → ℕ → UInt8) (hdr : Header)
    (between number sealed : List UInt8) :
    List UInt8 :=
  let mask := newMask (sealSample number.length sealed)
  maskFirst mask (UInt8.ofNat hdr.first) :: (hdr.middle between ++ maskPktNum mask number) ++ sealed

private theorem sentPacket_length (newMask : List UInt8 → ℕ → UInt8) (hdr : Header)
    (between number sealed : List UInt8) :
    (sentPacket newMask hdr between number sealed).length =
      (UInt8.ofNat hdr.first :: (hdr.middle between ++ number)).length + sealed.length := by
  simp only [sentPacket, List.length_append, List.length_cons, maskPktNum_length]

section RoundTrip

variable {hdr : Header} {pn : ℕ} {between payload sealed : List UInt8}

private theorem protect_eq {sealer : Crypto.Seal} (h : hdr.Encodable)
    (hpn : pktNumLen pn = some hdr.pktNumLen)
    (hle : hdr.pktNumLen ≤ 4) (hlen : 20 ≤ hdr.pktNumLen + sealed.length)
    (hsealed : sealed.length = payload.length + tagLen)
    (hseal : sealer.sealWithU64Counter pn (hdr.bytes ++ (between ++ beBytes hdr.pktNumLen pn))
      payload = some sealed)
    {out : List UInt8}
    (hout :
      hdr.bytes.length + between.length + hdr.pktNumLen + payload.length + tagLen ≤ out.length) :
    ∃ b, protect sealer hdr between pn payload ⟨[], out⟩ =
        .ok (sentPacket sealer.newMask hdr between (beBytes hdr.pktNumLen pn) sealed).length b ∧
      b.buf = sentPacket sealer.newMask hdr between (beBytes hdr.pktNumLen pn) sealed ++
        out.drop (sentPacket sealer.newMask hdr between (beBytes hdr.pktNumLen pn)
            sealed).length := by
  have hnumber : (beBytes hdr.pktNumLen pn).length = hdr.pktNumLen := Lib.beBytes_length _ _
  -- The clear header, and then the payload, are written in front of what is left of the buffer.
  have hheader : Writes (do hdr.toBytes; putBytes between; encodePktNum pn)
      (hdr.bytes ++ (between ++ beBytes hdr.pktNumLen pn)) :=
    (Header.toBytes_writes h).bind ((putBytes_writes between).bind (Header.encodePktNum_writes hpn))
  have hsplit : protect sealer hdr between pn payload =
      (do hdr.toBytes; putBytes between; encodePktNum pn) >>= (fun _ => do
        let b ← get
        putBytes payload
        encryptPkt sealer pn hdr.pktNumLen (payload.length + tagLen) b.before.length) := by
    simp only [protect, bind_assoc]
  set clear := hdr.bytes ++ (between ++ beBytes hdr.pktNumLen pn) with hclear
  have hclearLen : clear.length = hdr.bytes.length + between.length + hdr.pktNumLen := by
    rw [hclear, List.length_append, List.length_append, hnumber, Nat.add_assoc]
  have hwritten := hheader [] out (by omega)
  have hpayload := putBytes_writes payload clear (out.drop clear.length)
    (by rw [List.length_drop]; omega)
  have hcells : Octets.buf ⟨clear ++ payload, (out.drop clear.length).drop payload.length⟩ =
      (UInt8.ofNat hdr.first :: (hdr.middle between ++ beBytes hdr.pktNumLen pn)) ++
        (payload ++ (((out.drop clear.length).drop payload.length).take tagLen ++
          ((out.drop clear.length).drop payload.length).drop tagLen)) := by
    rw [buf, List.take_append_drop, ← Header.clear_eq, List.append_assoc]
  have hroom : (((out.drop clear.length).drop payload.length).take tagLen).length = tagLen := by
    rw [List.length_take, List.length_drop, List.length_drop]
    omega
  have hsent := encryptPkt_eq hcells hroom (by rwa [← Header.clear_eq]) (hnumber.trans_le hle)
    (by rwa [hnumber])
  rw [← Header.clear_eq, ← hclear, hnumber] at hsent
  have hpacketLen :
    (sentPacket sealer.newMask hdr between (beBytes hdr.pktNumLen pn) sealed).length =
      clear.length + (payload.length + tagLen) := by
    rw [sentPacket_length, ← Header.clear_eq, ← hclear, hsealed]
  have hrun : protect sealer hdr between pn payload ⟨[], out⟩ = encryptPkt sealer pn hdr.pktNumLen
      (payload.length + tagLen) clear.length ⟨clear ++ payload,
          (out.drop clear.length).drop payload.length⟩ := by
    rw [hsplit, Program.bind_apply, hwritten]
    simp only [List.nil_append, Program.bind_apply, Program.get_apply, hpayload]
  rw [hrun, hsent, hpacketLen]
  refine ⟨_, rfl, ?_⟩
  rw [buf_withOff, sentPacket, hnumber, List.append_assoc, List.drop_drop, List.drop_drop]

private theorem unprotect_sentPacket {opener : Crypto.Open} (h : hdr.Encodable)
    (hty : hdr.ty ≠ .retry)
    (hpn : pktNumLen pn = some hdr.pktNumLen) (hle : hdr.pktNumLen ≤ 4)
    (hlen : 20 ≤ hdr.pktNumLen + sealed.length)
    (hsealed : sealed.length = payload.length + tagLen)
    (hopen : opener.openWithU64Counter pn (hdr.bytes ++ (between ++ beBytes hdr.pktNumLen pn))
      sealed = some payload)
    (rest : List UInt8) :
    ∃ g, hdr.Recovered g pn ∧
      unprotect opener hdr.dcid.length between.length (hdr.pktNumLen + payload.length + tagLen)
          ⟨[], sentPacket opener.newMask hdr between (beBytes hdr.pktNumLen pn) sealed ++ rest⟩ =
        .ok (g, payload) ⟨hdr.bytes ++ (between ++ beBytes hdr.pktNumLen pn) ++ payload,
          sealed.drop payload.length ++ rest⟩ := by
  have hnumber : (beBytes hdr.pktNumLen pn).length = hdr.pktNumLen := Lib.beBytes_length _ _
  have hfits := pktNumLen_spec hpn
  have hwidth : pn < 256 ^ hdr.pktNumLen := by
    obtain ⟨hwidth, hlt⟩ | ⟨hwidth, -, hlt⟩ | ⟨hwidth, -, hlt⟩ := hfits <;> rw [hwidth] <;> omega
  set mask := opener.newMask (sealSample hdr.pktNumLen sealed) with hmask
  set first := UInt8.ofNat hdr.first with hfirst
  have hfirstNat : first.toNat = hdr.first := UInt8.toNat_ofNat_of_lt (Header.first_lt h)
  -- The header is read with its first byte masked.
  obtain ⟨g, hreadAs, htail⟩ := @Header.fromBytesTail_reads _ h
    (between ++ (maskPktNum mask (beBytes hdr.pktNumLen pn) ++ (sealed ++ rest))) (absurd · hty)
  -- the mask leaves the form of the header and its type
  have hform : Header.isLong (maskFirst mask first).toNat = Header.isLong hdr.first := by
    rw [isLong_maskFirst, hfirstNat]
  have hbits (hlong : Header.isLong hdr.first = true) : (maskFirst mask first).toNat &&& 0x30 =
      hdr.first &&& 0x30 := by
    rw [← hfirstNat] at hlong ⊢
    exact maskFirst_type mask hlong
  have hhdr : Reads (Header.fromBytes hdr.dcid.length) (maskFirst mask first :: hdr.tailBytes)
      (between ++ (maskPktNum mask (beBytes hdr.pktNumLen pn) ++ (sealed ++ rest))) g := by
    have hbyte : beBytes 1 (maskFirst mask first).toNat = [maskFirst mask first] := by
      simp [beBytes]
    have hlt : (maskFirst mask first).toNat < 256 ^ 1 := (maskFirst mask first).toNat_lt
    have hread := (getUint_reads _ hlt).bind (f := Header.fromBytesTail hdr.dcid.length)
      (htail _ hform hbits)
    rwa [hbyte] at hread
  have hskip : Reads (getBytes between.length) between
      (maskPktNum mask (beBytes hdr.pktNumLen pn) ++ (sealed ++ rest)) between :=
        getBytes_reads _ rfl
  -- unmasked, the header is the one that was sealed
  have hdecrypt := @decryptHdr_eq opener first (hdr.middle between)
    (beBytes hdr.pktNumLen pn) sealed rest mask g
    (by rw [hnumber]; exact Header.first_pktNumLen (by omega) hle) (hnumber.trans_le hle)
    (by rwa [hnumber])
    (by rw [hnumber])
  have hopened := @decryptPkt_eq opener payload sealed rest _ pn hdr.pktNumLen
    (hdr.pktNumLen + payload.length + tagLen)
    hopen (by omega) (by omega)
  have hinput : sentPacket opener.newMask hdr between (beBytes hdr.pktNumLen pn) sealed ++ rest =
      (maskFirst mask first :: hdr.tailBytes) ++
        (between ++ (maskPktNum mask (beBytes hdr.pktNumLen pn) ++ (sealed ++ rest))) := by
    rw [sentPacket, hnumber, Header.middle]
    simp only [List.cons_append, List.append_assoc, hmask, hfirst]
  refine ⟨{ g with
    pktNum := Lib.beValue (beBytes hdr.pktNumLen pn), pktNumLen :=
      (beBytes hdr.pktNumLen pn).length,
    keyPhase := if g.ty = .short then first &&& keyPhaseBit != 0 else g.keyPhase }, ?_, ?_⟩
  · refine ⟨⟨hreadAs.ty, hreadAs.dcid, hreadAs.fecInfo, hreadAs.noScid, hreadAs.version,
      hreadAs.scid,
      hreadAs.noFecInfo, hreadAs.initialToken, hreadAs.retryToken⟩, Lib.beValue_beBytes hwidth,
        hnumber, ?_⟩
    intro hshort
    rw [← Header.first_keyPhase hshort (by omega) hle]
    exact if_pos (hreadAs.ty.trans hshort)
  · rw [hinput]
    simp only [unprotect, Program.bind_apply, hhdr [], List.nil_append,
      hskip (maskFirst mask first :: hdr.tailBytes)]
    rw [List.cons_append, ← Header.middle, hdecrypt]
    simp only [Lib.beValue_beBytes hwidth, hnumber]
    rw [← Header.clear_eq, hopened]
    rfl

/-- The receiver samples the same bytes, at the offset of the packet number. -/
theorem openSample_sentPacket {newMask : List UInt8 → ℕ → UInt8} (hle : hdr.pktNumLen ≤ 4)
    (hlen : 20 ≤ hdr.pktNumLen + sealed.length) :
    openSample (withOff (sentPacket newMask hdr between (beBytes hdr.pktNumLen pn) sealed)
      (hdr.bytes ++ between).length) = sealSample hdr.pktNumLen sealed := by
  set mask := newMask (sealSample (beBytes hdr.pktNumLen pn).length sealed) with hmask
  have hnumber : (maskPktNum mask (beBytes hdr.pktNumLen pn)).length = hdr.pktNumLen := by
    rw [maskPktNum_length, Lib.beBytes_length]
  have hfront : (hdr.bytes ++ between).length =
      (maskFirst mask (UInt8.ofNat hdr.first) :: hdr.middle between).length := by
    have hclear := congrArg List.length (hdr.clear_eq between [])
    rwa [List.append_nil, List.append_nil] at hclear
  have hsame := @openSample_eq
    (maskFirst mask (UInt8.ofNat hdr.first) :: hdr.middle between) _ sealed []
    (hnumber.trans_le hle) (by rwa [hnumber])
  rw [hnumber, List.append_nil] at hsame
  have hpacket : sentPacket newMask hdr between (beBytes hdr.pktNumLen pn) sealed =
      (maskFirst mask (UInt8.ofNat hdr.first) :: hdr.middle between) ++
        (maskPktNum mask (beBytes hdr.pktNumLen pn) ++ sealed) := by
    simp only [sentPacket, ← hmask, List.cons_append, List.append_assoc]
  rw [← hsame, hpacket, hfront, withOff_append]

end RoundTrip

/-- A packet is recovered with its header: the buffer then has the clear header, and the clear
payload, where they were on the sender's side. Both sides take the same sample, at the same place.
-/
theorem unprotect_protect {sealer : Crypto.Seal} {opener : Crypto.Open}
    (hkeys : Crypto.Matches sealer opener)
    {hdr : Header} (h : hdr.Encodable) (hty : hdr.ty ≠ .retry) {pn : ℕ}
    (hpn : pktNumLen pn = some hdr.pktNumLen)
    (between : List UInt8) {payload sealed : List UInt8} (hlen : 4 ≤ hdr.pktNumLen + payload.length)
    (hseal : sealer.sealWithU64Counter pn (hdr.bytes ++ (between ++ beBytes hdr.pktNumLen pn))
      payload = some sealed)
    {out : List UInt8}
    (hout :
      hdr.bytes.length + between.length + hdr.pktNumLen + payload.length + tagLen ≤ out.length) :
    ∃ n b packet, protect sealer hdr between pn payload ⟨[], out⟩ = .ok n b ∧
      b.buf = packet ++ out.drop n ∧
      packet.length = n ∧
      openSample (withOff packet (hdr.bytes ++ between).length) = sealSample hdr.pktNumLen sealed ∧
      ∀ rest, ∃ g, hdr.Recovered g pn ∧
        unprotect opener hdr.dcid.length between.length (hdr.pktNumLen + payload.length + tagLen)
            ⟨[], packet ++ rest⟩ =
          .ok (g, payload) ⟨hdr.bytes ++ (between ++ beBytes hdr.pktNumLen pn) ++ payload,
            sealed.drop payload.length ++ rest⟩ := by
  have hsealed := hkeys.length hseal
  have hle : hdr.pktNumLen ≤ 4 := by
    have hfits := pktNumLen_spec hpn
    omega
  have hsample : 20 ≤ hdr.pktNumLen + sealed.length := by
    rw [hsealed, tagLen]
    omega
  obtain ⟨b, hb, hbuf⟩ := protect_eq h hpn hle hsample hsealed hseal hout
  refine ⟨_, b, _, hb, hbuf, rfl, openSample_sentPacket hle hsample, ?_⟩
  intro rest
  rw [← hkeys.newMask]
  exact unprotect_sentPacket h hty hpn hle hsample hsealed (hkeys.opens hseal) rest

section Examples

/-- A cipher that adds a constant to each byte and a checksum to the text. -/
def toySeal : Crypto.Seal where
  sealWithU64Counter counter ad text :=
    some (text.map (· ^^^ 0x5a) ++ List.replicate tagLen (UInt8.ofNat counter + ad.sum + text.sum))
  newMask sample i := sample.getD i 0 ^^^ 0x3c

/-- The key that opens what `toySeal` seals. -/
def toyOpen : Crypto.Open where
  openWithU64Counter counter ad sealed :=
    let text := (sealed.take (sealed.length - tagLen)).map (· ^^^ 0x5a)
    let tag := List.replicate tagLen (UInt8.ofNat counter + ad.sum + text.sum)
    if sealed.drop (sealed.length - tagLen) = tag then some text else none
  newMask sample i := sample.getD i 0 ^^^ 0x3c

private theorem toySeal_matches : Crypto.Matches toySeal toyOpen where
  newMask := rfl
  length h := by
    cases h
    simp
  opens {counter ad text sealed} h := by
    have hlength :
      (text.map (· ^^^ 0x5a) ++ List.replicate tagLen
        (UInt8.ofNat counter + ad.sum + text.sum)).length -
        tagLen = (text.map (· ^^^ 0x5a)).length := by simp
    have hinvolutive : (text.map (· ^^^ 0x5a)).map (· ^^^ 0x5a) = text := by
      rw [List.map_map]
      refine (List.map_congr_left fun b _ => ?_).trans (List.map_id text)
      rw [Function.comp_apply, UInt8.xor_assoc, UInt8.xor_self, UInt8.xor_zero, id_eq]
    cases h
    simp only [toyOpen, hlength, List.take_left, List.drop_left, hinvolutive, if_true]

/-- A packet with a FEC group. -/
theorem unprotect_protect_short : ∃ n b g b',
    protect toySeal ⟨.short, 0, [7], [], 0, 1, none, none, true, ⟨4, 1, 9, 3⟩⟩ [] 5 [1, 2, 3]
      ⟨[], List.replicate 64 0⟩ = .ok n b ∧
    unprotect toyOpen 1 0 20 ⟨[], b.buf.take n⟩ = .ok (g, [1, 2, 3]) b' ∧ g.pktNum = 5 ∧
      g.keyPhase = true ∧
      g.fecInfo = ⟨4, 1, 9, 3⟩ := by
  have hencodable : Header.Encodable ⟨.short, 0, [7], [], 0, 1, none, none, true, ⟨4, 1, 9, 3⟩⟩ :=
    ⟨by decide, by decide, by decide, by decide, by decide, by decide⟩
  obtain ⟨n, b, packet, hsent, hbuf, hlen, -, hreceived⟩ :=
    @unprotect_protect _ _ toySeal_matches _ hencodable (by decide) 5 rfl [] [1, 2, 3] _
      (by decide) rfl
      (List.replicate 64 0) (by decide)
  obtain ⟨g, hg, hrun⟩ := hreceived []
  have hpacket : b.buf.take n = packet := by
    rw [hbuf]
    exact List.take_left' hlen
  rw [List.append_nil, ← hpacket] at hrun
  exact ⟨n, b, g, _, hsent, hrun, hg.pktNum, hg.keyPhase rfl, hg.fecInfo rfl⟩

/-- A long header loses its FEC fields. -/
theorem unprotect_protect_fails : ∃ n b g payload b',
    protect toySeal ⟨.handshake, 0xff000019, [7], [5], 0, 1, none, none, false, ⟨4, 1, 9, 3⟩⟩ [] 5
      [1, 2, 3]
      ⟨[], List.replicate 64 0⟩ = .ok n b ∧
    unprotect toyOpen 1 0 20 ⟨[], b.buf.take n⟩ = .ok (g, payload) b' ∧
        g.fecInfo ≠ ⟨4, 1, 9, 3⟩ := by
  refine ⟨_, _, _, _, _, rfl, rfl, ?_⟩
  decide

end Examples

end Dtp
