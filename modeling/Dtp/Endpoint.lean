import Dtp.Connection
import Dtp.PacketNumbers
import Dtp.PacketProtection

/-!
# Receiving bytes

A datagram arrives as bytes. The header of each packet in it is parsed, the version and the length
are checked, connection IDs and keys are settled with the first packets, and only then is the
packet authenticated. What is done with a decrypted packet is left open here.

## Main definitions

* `Endpoint` — a connection with its connection IDs and keys
* `Endpoint.openPacket` — the first half of `recv_single`, up to the decrypted payload
* `Endpoint.recvSingle`, `Endpoint.recv` — a packet, a datagram

## Main results

* `Header.fromBytes_parses` — a header is read from unknown bytes without a panic
* `Endpoint.recv_progresses` — the loop over the packets of a datagram ends
-/

namespace Dtp

open Lib (Program)
open Lib.Cursor (Parses)
open Lib.Program (Maintains)
open Octets

/-- Keys that open a text to one that is shorter by the tag. -/
structure Crypto.OpenKey extends Crypto.Open where
  length {counter : ℕ} {ad sealed text : List UInt8} :
    openWithU64Counter counter ad sealed = some text → text.length + tagLen = sealed.length

/-- A connection with its connection IDs and its keys. There are keys for an epoch if the connection
says so. -/
structure Endpoint where
  conn : Connection
  scid : List UInt8
  dcid : List UInt8
  /-- Destination connection ID of the first packet, after a Retry. -/
  odcid : Option (List UInt8)
  token : Option (List UInt8)
  gotPeerConnId : Bool
  didRetry : Bool
  openKeys : Epoch → Crypto.OpenKey
  sealKeys : Epoch → Crypto.Seal
  /-- The keys to open 0-RTT packets. -/
  zeroRTTOpen : Option Crypto.OpenKey

namespace Endpoint

/-- What the endpoint asks its libraries for. -/
structure Env where
  /-- The keys of the Initial packets. -/
  deriveInitialKeyMaterial : List UInt8 → Bool → Option (Crypto.OpenKey × Crypto.Seal)
  /-- Whether the tag behind a Retry packet is valid. -/
  verifyRetryIntegrity : Octets → List UInt8 → Bool
  /-- TLS starts over. -/
  clearHandshake : Except Error Unit
  /-- The wall clock. -/
  now : ℕ

/-- What becomes of a packet before its frames are processed. -/
inductive Opened
  /-- It is left out, and the next packet is so many bytes behind its start. -/
  | ignored (len : ℕ)
  /-- The next packet is `read` bytes behind its start. -/
  | decrypted (hdr : Header) (pn : ℕ) (payload : List UInt8) (read : ℕ)

/-- Changes the connection. -/
def modifyConn (f : Connection → Connection) : Program Error Endpoint Unit :=
  modify fun e => { e with conn := f e.conn }

/-- A program on the bytes of a packet. -/
def onBytes {α : Type} (x : Program Error Octets α) (b : Octets) :
    Program Error Endpoint (α × Octets) :=
  match x b with
  | .ok a b' => pure (a, b')
  | .error (.error e) _ => Program.fail e
  | .error _ _ => Program.crash

/-- Derives the Initial secrets from a connection ID. -/
def deriveInitial (cid : List UInt8) (env : Env) : Program Error Endpoint Unit := do
  let e ← get
  match env.deriveInitialKeyMaterial cid e.conn.isServer with
  | none => Program.fail .cryptoFail
  | some (aeadOpen, aeadSeal) =>
    modify fun e =>
      { e with
        openKeys := Epoch.update e.openKeys .initial aeadOpen
        sealKeys := Epoch.update e.sealKeys .initial aeadSeal }
    modifyConn fun c => c.modifySpace .initial fun s =>
      { s with cryptoOpen := true, cryptoSeal := true }

/-- Resets connection state to force sending another Initial packet. -/
def restart (env : Env) : Program Error Endpoint Unit := do
  modify fun e => { e with gotPeerConnId := false }
  modifyConn fun c => c.setRecovery (c.recovery.dropUnackedData .initial)
  modifyConn fun c => c.modifySpace .initial fun s =>
    { s with cryptoStream := PktNumSpace.newCryptoStream env.now, ackElicited := false }
  Program.ofExcept env.clearHandshake
  modifyConn fun c => { c with isEstablished := false, writeLevel := .initial }

/-- Replaces the destination connection ID. -/
def setDcid (cid : List UInt8) (e : Endpoint) : Endpoint :=
  { e with dcid := cid, conn := { e.conn with dcidLen := cid.length } }

/-- A Version Negotiation packet. -/
def recvVersionNegotiation (hdr : Header) (env : Env) : Program Error Endpoint Opened := do
  let e ← get
  -- Version negotiation packets can only be sent by the server, and duplicates are ignored.
  if e.conn.isServer || e.conn.didVersionNegotiation then Program.fail .done
  else if hdr.dcid ≠ e.scid then Program.fail .done
  else if hdr.scid ≠ e.dcid then Program.fail .done
  else
    match hdr.versions with
    | none => Program.fail .invalidPacket
    | some versions =>
      match (versions.filter versionIsSupported).max? with
      -- We don't support any of the versions offered.
      | none => Program.fail .unknownVersion
      | some version =>
        modifyConn fun c => { c with version := version, didVersionNegotiation := true }
        restart env
        Program.fail .done

/-- A Retry packet, with what is behind its token. -/
def recvRetry (hdr : Header) (b : Octets) (env : Env) : Program Error Endpoint Opened := do
  let e ← get
  -- Retry packets can only be sent by the server, and duplicates are ignored.
  if e.conn.isServer || e.didRetry then Program.fail .done
  else if !env.verifyRetryIntegrity b e.dcid then Program.fail .done
  else
    modify fun e => { e with token := hdr.token, didRetry := true, odcid := some e.dcid }
    modifyConn fun c => { c with tokenLen := hdr.token.map List.length }
    modify (setDcid hdr.scid)
    -- Derive Initial secrets using the new connection ID.
    deriveInitial hdr.scid env
    restart env
    Program.fail .done

/-- Agrees on the version. -/
def acceptVersion (hdr : Header) : Program Error Endpoint Unit := do
  let e ← get
  let negotiates := e.conn.isServer && !e.conn.didVersionNegotiation
  if negotiates && !versionIsSupported hdr.version then Program.fail .unknownVersion
  else
    Program.when negotiates <| modifyConn fun c =>
      { c with version := hdr.version, didVersionNegotiation := true }
    let e ← get
    if hdr.ty ≠ .short ∧ hdr.version ≠ e.conn.version then Program.fail .unknownVersion else pure ()

/-- Long header packets have an explicit payload length, but short packets don't. -/
def getPayloadLen (hdr : Header) : Program Error Octets ℕ :=
  if hdr.ty = .short then cap <$> get else getVarint

/-- Takes over the connection ID of the server. -/
def acceptPeerConnId (hdr : Header) : Program Error Endpoint Unit :=
  modify fun e =>
    if !e.conn.isServer && !e.gotPeerConnId then
      { setDcid hdr.scid e with gotPeerConnId := true }
    else e

/-- Derives the Initial secrets on the server. -/
def deriveSecrets (hdr : Header) (env : Env) : Program Error Endpoint Unit := do
  let e ← get
  Program.when (!e.conn.derivedInitialSecrets) do
    deriveInitial hdr.dcid env
    modifyConn fun c => { c with derivedInitialSecrets := true }
    modify fun e => { setDcid (e.dcid ++ hdr.scid) e with gotPeerConnId := true }

/-- The keys to open a packet, if there are any. -/
def aead (e : Endpoint) (ty : PacketType) (epoch : Epoch) : Option Crypto.OpenKey :=
  if ty = .zeroRTT ∧ e.zeroRTTOpen.isSome then e.zeroRTTOpen
  else if (e.conn.pktNumSpaces epoch).cryptoOpen then some (e.openKeys epoch)
  else none

/-- Decrypts a packet. -/
def decrypt (hdr : Header) (epoch : Epoch) (payloadLen : ℕ) (aead : Crypto.OpenKey) (b : Octets) :
    Program Error Endpoint Opened := do
  let (hdr, b) ← onBytes (decryptHdr aead.toOpen hdr) b
  let e ← get
  let pn := decodePktNum (e.conn.pktNumSpaces epoch).largestRxPktNum hdr.pktNum hdr.pktNumLen
  match decryptPkt aead.toOpen pn hdr.pktNumLen payloadLen b with
  | .ok payload b => pure (.decrypted hdr pn payload (b.before.length + tagLen))
  -- Ignore packets that fail decryption, but only if we have successfully processed at least
  -- another packet.
  | .error (.error err) _ => Program.fail (if e.conn.recvCount = 0 then err else .done)
  | .error _ _ => Program.crash

/-- The part of `recv_single` behind the header. -/
def openBody (hdr : Header) (b : Octets) (env : Env) : Program Error Endpoint Opened := do
  acceptVersion hdr
  let (payloadLen, b) ← onBytes (getPayloadLen hdr) b
  if cap b < payloadLen then Program.fail .bufferTooShort
  else
    let headerLen := b.before.length
    acceptPeerConnId hdr
    deriveSecrets hdr env
    match hdr.ty.toEpoch with
    | none => Program.fail .invalidPacket
    | some epoch =>
      match (← get).aead hdr.ty epoch with
      -- Ignore packets that can't be decrypted because we don't have the necessary decryption key.
      | none => pure (.ignored (headerLen + payloadLen))
      | some aead => decrypt hdr epoch payloadLen aead b

/-- The first half of `recv_single`. -/
def openPacket (buf : List UInt8) (env : Env) : Program Error Endpoint Opened := do
  let e ← get
  if buf.isEmpty then Program.fail .bufferTooShort
  else if e.conn.draining || e.conn.isClosing then Program.fail .done
  else
    let (hdr, b) ← onBytes (Header.fromBytes e.scid.length) ⟨[], buf⟩
    if hdr.ty = .versionNegotiation then recvVersionNegotiation hdr env
    else if hdr.ty = .retry then recvRetry hdr b env
    -- Discard 1-RTT packets received before handshake is completed.
    else if hdr.ty = .short ∧ !e.conn.isEstablished then pure (.ignored b.len)
    else openBody hdr b env

section Handle

-- what is done with the payload of a packet
variable (handle : Header → ℕ → List UInt8 → Program Error Endpoint Unit) (env : Env)

/-- Processes a single packet. -/
def recvSingle (buf : List UInt8) : Program Error Endpoint ℕ := do
  match ← openPacket buf env with
  | .ignored len => pure len
  | .decrypted hdr pn payload read =>
    handle hdr pn payload
    pure read

/-- Processes coalesced packets, with the number of bytes done so far. -/
def recvLoop : ℕ → ℕ → List UInt8 → Program Error Endpoint ℕ
  | 0, _, _ => throw .hang
  | fuel + 1, done, rest =>
    if rest.isEmpty then pure done
    else do
      let read ← recvSingle handle env rest
      if rest.length < read then Program.underflow
      else recvLoop fuel (done + read) (rest.drop read)

/-- The state after a fault: an error other than `Done` closes the connection. -/
def closeOn : Lib.Fault Error → Endpoint → Endpoint
  | .error err, e =>
    if err = .done then e
    else { e with conn := (e.conn.close false err.toWire []).toOption.getD e.conn }
  | _, e => e

/-- In case of an error other than `Done`, closes the connection. -/
def closeOnError {α : Type} (x : Program Error Endpoint α) : Program Error Endpoint α := fun e =>
  match x e with
  | .error fault e' => .error fault (closeOn fault e')
  | result => result

/-- An error closes the connection, and is returned. -/
theorem ends_closeOnError {α : Type} {x : Program Error Endpoint α} {e : Endpoint}
    {Q : α → Endpoint → Prop}
    {E : Lib.Fault Error → Endpoint → Prop} :
    (closeOnError x).Ends e Q E ↔ x.Ends e Q fun fault e' => E fault (closeOn fault e') := by
  unfold closeOnError Program.Ends
  dsimp only
  cases x e with
  | ok a e' => exact .rfl
  | error fault e' => exact .rfl

/-- Processes a datagram, and returns its length. -/
def recv (datagram : List UInt8) : Program Error Endpoint ℕ := do
  let done ← closeOnError (recvLoop handle env (datagram.length + 1) 0 datagram)
  modifyConn fun c =>
    if c.verifiedPeerAddress then c
    else { c with maxSendBytes := c.maxSendBytes + datagram.length * 3 }
  pure done

end Handle

end Endpoint

/-! ### Headers in unknown bytes -/

namespace Header

variable {max : ℕ}

private theorem getVersions_parses (fuel : ℕ) : Parses max (getVersions fuel) 0 fun _ => True := by
  induction fuel with
  | zero => exact .pure trivial
  | succ fuel ih =>
    refine Lib.Cursor.parses_get.andThen (m := 0) fun b _ => ?_
    refine .ite (fun _ => .pure trivial) fun _ => ?_
    exact (getUint_parses 4).andThen fun version _ => ih.andThen fun list _ => .pure trivial

/-- A connection id ends within the datagram. -/
theorem getCid_parses (version : ℕ) : Parses max (getCid version) 0 fun _ => True := by
  refine (getUint_parses 1).andThen (m := 0) fun cidLen _ => ?_
  refine .ite (fun _ => .fail _) fun _ => ?_
  exact (getBytes_parses cidLen).mono (fun _ _ => trivial) (Nat.zero_le _)

private theorem getFecInfo_parses : Parses max getFecInfo 0 fun _ => True :=
  (getUint_parses 4).andThen fun _ _ => (getUint_parses 1).andThen fun _ _ =>
    (getUint_parses 1).andThen fun _ _ => (getUint_parses 1).andThen fun _ _ => .pure trivial

private theorem skip_parses (l : List ℕ) : Parses max (forM l fun _ => do
    let _ ← getU8
    pure ()) 0 fun _ => True := by
  induction l with
  | nil => exact .pure trivial
  | cons i l ih =>
    have hstep : Parses max (do
        let _ ← getU8
        pure ()) 0 fun _ : PUnit => True := (getUint_parses 1).andThen fun _ _ => .pure trivial
    exact hstep.andThen fun _ _ => ih

private theorem getTail_parses (hdr : Header) : Parses max (getTail hdr) 0 fun _ => True := by
  unfold getTail
  split
  · exact getBytesWithVarintLength_parses.andThen fun _ _ => .pure trivial
  · refine Lib.Cursor.parses_get.andThen (m := 0) fun b _ => ?_
    refine .ite (fun _ => .fail _) fun _ => ?_
    exact (getBytes_parses _).andThen fun _ _ => .pure trivial
  · refine Lib.Cursor.parses_get.andThen (m := 0) fun b _ => ?_
    exact (getVersions_parses _).andThen fun _ _ => .pure trivial
  · exact .pure trivial

/-- A header takes a byte at least, and nothing goes wrong without an error. -/
theorem fromBytes_parses (dcidLen : ℕ) : Parses max (fromBytes dcidLen) 1 fun _ => True := by
  refine (getUint_parses 1).bind (m := 0) fun first _ => ?_
  refine .ite (fun _ => ?_) fun _ => ?_
  · exact (getBytes_parses dcidLen).andThen fun dcid _ => getFecInfo_parses.andThen fun info _ =>
      (getUint_parses 1).andThen fun padding _ => (skip_parses _).andThen fun _ _ => .pure trivial
  · exact (getUint_parses 4).andThen fun version _ => (getCid_parses version).andThen fun dcid _ =>
      (getCid_parses version).andThen fun scid _ => getTail_parses _

end Header

/-! ### The errors of the parsers -/

/-- The program does not fail with `Done`. -/
def NeverDone {α : Type} (x : Program Error Octets α) : Prop :=
  Maintains (fun _ => True) (fun fault _ => fault ≠ .error .done) x

theorem NeverDone.pure {α : Type} (a : α) : NeverDone (pure a) := Program.maintains_pure a

theorem NeverDone.bind {α β : Type} {x : Program Error Octets α} {f : α → Program Error Octets β}
    (hx : NeverDone x)
    (hf : ∀ a, NeverDone (f a)) : NeverDone (x >>= f) := Maintains.bind hx hf

theorem NeverDone.ite {α : Type} {c : Prop} [Decidable c] {x y : Program Error Octets α}
    (hx : c → NeverDone x)
    (hy : ¬ c → NeverDone y) : NeverDone (if c then x else y) := Maintains.ite hx hy

theorem neverDone_get : NeverDone get := fun _ _ => trivial

theorem neverDone_fail {α : Type} {e : Error} (h : e ≠ .done) :
    NeverDone (Program.fail e : Program Error Octets α) := by
  rintro b - heq
  exact h (Lib.Fault.error.inj heq)

theorem neverDone_getBytes (len : ℕ) : NeverDone (getBytes len) :=
  neverDone_get.bind fun _ => .ite (fun _ => neverDone_fail (by decide)) fun _ _ _ => trivial

theorem NeverDone.map {α β : Type} {x : Program Error Octets α} (h : NeverDone x) (f : α → β) :
    NeverDone (f <$> x) := by
  intro b hb
  rw [Program.ends_map]
  exact h b hb

theorem neverDone_getUint (len : ℕ) : NeverDone (getUint len) := (neverDone_getBytes len).map _

/-- A number that is cut short is an error. -/
theorem neverDone_getVarint : NeverDone getVarint := by
  have hpeek : NeverDone peekU8 := neverDone_get.bind fun b => by
    split
    · exact neverDone_fail (by decide)
    · exact .pure _
  exact hpeek.bind fun first => (neverDone_getBytes _).bind fun vec => .pure _

namespace Header

private theorem getVersions_neverDone (fuel : ℕ) : NeverDone (getVersions fuel) := by
  induction fuel with
  | zero => exact .pure _
  | succ fuel ih =>
    refine neverDone_get.bind fun b => .ite (fun _ => .pure _) fun _ => ?_
    exact (neverDone_getUint 4).bind fun version => ih.bind fun list => .pure _

/-- A connection id that is cut short is an error. -/
theorem getCid_neverDone (version : ℕ) : NeverDone (getCid version) :=
  (neverDone_getUint 1).bind fun cidLen => .ite (fun _ => neverDone_fail (by decide)) fun _ =>
    neverDone_getBytes cidLen

private theorem getTail_neverDone (hdr : Header) : NeverDone (getTail hdr) := by
  unfold getTail
  split
  · have htoken : NeverDone getBytesWithVarintLength := neverDone_getVarint.bind neverDone_getBytes
    exact htoken.bind fun token => .pure _
  · refine neverDone_get.bind fun b => .ite (fun _ => neverDone_fail (by decide)) fun _ => ?_
    exact (neverDone_getBytes _).bind fun token => .pure _
  · exact neverDone_get.bind fun b => (getVersions_neverDone _).bind fun list => .pure _
  · exact .pure _

/-- A header that is cut short is an error. -/
theorem fromBytes_neverDone (dcidLen : ℕ) : NeverDone (fromBytes dcidLen) := by
  have hskip (l : List ℕ) : NeverDone (forM l fun _ => do
      let _ ← getU8
      pure ()) := Maintains.forM (fun _ => (neverDone_getUint 1).bind fun _ => .pure _) l
  refine (neverDone_getUint 1).bind fun first => .ite (fun _ => ?_) fun _ => ?_
  · have hinfo : NeverDone getFecInfo := (neverDone_getUint 4).bind fun _ =>
        (neverDone_getUint 1).bind fun _ =>
      (neverDone_getUint 1).bind fun _ => (neverDone_getUint 1).bind fun _ => .pure _
    exact (neverDone_getBytes dcidLen).bind fun dcid => hinfo.bind fun info =>
      (neverDone_getUint 1).bind fun padding => (hskip _).bind fun _ => .pure _
  · exact (neverDone_getUint 4).bind fun version => (getCid_neverDone version).bind fun dcid =>
      (getCid_neverDone version).bind fun scid => getTail_neverDone _

end Header

/-! ### Lengths -/

private theorem Octets.len_withOff (l : List UInt8) (off : ℕ) : (withOff l off).len = l.length := by
  rw [Octets.len, ← List.length_append, withOff, List.take_append_drop]

/-- The header is decrypted where there is a sample, and the packet number is behind it. -/
theorem decryptHdr_ends (aead : Crypto.Open) (hdr : Header) (b : Octets) :
    (decryptHdr aead hdr).Ends b
    (fun hdr' b' => maxPktNumLen + sampleLen ≤ cap b ∧ b'.len = b.len ∧
      b'.before.length = b.before.length + hdr'.pktNumLen)
    fun fault _ => cap b < maxPktNumLen + sampleLen ∧ fault = .error .bufferTooShort := by
  rw [decryptHdr, Program.ends_bind, Program.ends_get]
  dsimp only
  cases hbuf : b.buf with
  | nil =>
    have hnil : b.after = [] := (List.append_eq_nil_iff.mp hbuf).2
    refine ⟨?_, rfl⟩
    rw [cap, hnil]
    decide
  | cons first bytes =>
    dsimp only
    rw [Program.ends_ite]
    refine ⟨fun hshort => ⟨hshort, rfl⟩, fun hroom => ?_⟩
    rw [not_lt] at hroom
    set pnLen :=
      (maskFirst (aead.newMask (openSample b)) first &&& pktNumMask).toNat + 1 with hpnLen
    -- the length is in two bits of the first byte
    have hle : pnLen ≤ 4 := by
      have hmask : ∀ x : UInt8, (x &&& pktNumMask).toNat ≤ 3 := by
        intro x
        rw [UInt8.toNat_and]
        exact Nat.and_le_right
      have := hmask (maskFirst (aead.newMask (openSample b)) first)
      omega
    have hcap : cap b = b.after.length := rfl
    set after :=
      maskPktNum (aead.newMask (openSample b))
        (b.after.take pnLen) ++ b.after.drop pnLen with hafter
    have hlength : after.length = b.after.length := by
      rw [hafter, List.length_append, maskPktNum_length, ← List.length_append,
        List.take_append_drop]
    have htake : (after.take pnLen).length = pnLen := by
      rw [List.length_take, hlength]
      unfold maxPktNumLen sampleLen at hroom
      omega
    -- unmasking keeps the length of the packet
    have hall : ((b.before ++ after.take pnLen) ++ after.drop pnLen).length = b.len := by
      rw [List.append_assoc, List.take_append_drop, List.length_append, hlength, Octets.len]
    rw [Program.ends_bind, Program.ends_set, Program.ends_bind]
    unfold getUint
    rw [Program.ends_map]
    unfold getBytes Lib.Cursor.take
    rw [Program.ends_bind, Program.ends_get, Program.ends_ite]
    refine ⟨fun hshort => absurd hshort ?_, fun _ => ?_⟩
    · rw [hlength]
      unfold maxPktNumLen sampleLen at hroom
      omega
    · refine ⟨hroom, ?_, ?_⟩
      · rw [Octets.len_withOff, List.length_set]
        exact hall
      · dsimp only [withOff]
        rw [List.length_take, List.length_set, Octets.buf, hall, List.length_append, htake,
          Octets.len]
        unfold maxPktNumLen sampleLen at hroom
        exact min_eq_left (by omega)

/-- The payload is what is left of the packet, without its tag. -/
theorem decryptPkt_ends (aead : Crypto.OpenKey) (pn pnLen payloadLen : ℕ) (b : Octets) :
    (decryptPkt aead.toOpen pn pnLen payloadLen).Ends b
      (fun _ b' => pnLen ≤ payloadLen ∧
        b'.before.length + tagLen = b.before.length + (payloadLen - pnLen))
      fun fault _ => ∃ err, fault = .error err := by
  rw [decryptPkt, Program.ends_bind, Program.ends_get]
  dsimp only
  rw [Program.ends_ite]
  refine ⟨fun _ => ⟨_, rfl⟩, fun hnumber => ?_⟩
  rw [Program.ends_ite]
  refine ⟨fun _ => ⟨_, rfl⟩, fun hroom => ?_⟩
  cases hopen : aead.openWithU64Counter pn b.before (b.after.take (payloadLen - pnLen)) with
  | none => exact ⟨_, rfl⟩
  | some text =>
    have htext := aead.length hopen
    have hcap : cap b = b.after.length := rfl
    rw [List.length_take, ← hcap, min_eq_left (not_lt.mp hroom)] at htext
    dsimp only
    rw [Program.ends_bind, Program.ends_set]
    unfold getBytes Lib.Cursor.take
    rw [Program.ends_bind, Program.ends_get, Program.ends_ite]
    refine ⟨fun _ => ⟨_, rfl⟩, fun _ => ⟨not_lt.mp hnumber, ?_⟩⟩
    dsimp only
    rw [List.take_left, List.length_append]
    omega

namespace Endpoint

variable {e : Endpoint} {b : Octets}

/-- What a program on bytes makes of a buffer. -/
theorem ends_onBytes {α : Type} {x : Program Error Octets α} {Q : α × Octets → Endpoint → Prop}
    {E : Lib.Fault Error → Endpoint → Prop} (hx : x.Ends b (fun a b' => Q (a, b') e) fun fault _ =>
      ∃ err, fault = .error err ∧ E (.error err) e) : (onBytes x b).Ends e Q E := by
  unfold Program.Ends onBytes at *
  cases hresult : x b with
  | ok a b' =>
    rw [hresult] at hx
    exact hx
  | error fault b' =>
    rw [hresult] at hx
    obtain ⟨err, rfl, herr⟩ := hx
    exact herr

/-- How far behind the start of a packet the next one is. -/
def Opened.read : Opened → ℕ
  | .ignored len => len
  | .decrypted _ _ _ read => read

/-- The program fails with an error, if at all. -/
def Orderly {α : Type} (x : Program Error Endpoint α) : Prop :=
  Maintains (fun _ => True) (fun fault _ => ∃ err, fault = .error err) x

theorem orderly_fail {α : Type} (err : Error) :
    Orderly (Program.fail err : Program Error Endpoint α) :=
  fun _ _ => ⟨err, rfl⟩

theorem orderly_modify (f : Endpoint → Endpoint) :
    Orderly (modify f : Program Error Endpoint PUnit) :=
  Program.maintains_modify fun _ _ => trivial

private theorem acceptVersion_orderly (hdr : Header) : Orderly (acceptVersion hdr) := by
  apply Program.maintains_get_bind
  intro e _
  apply Maintains.ite (fun _ => orderly_fail _) _ e trivial
  intro _
  apply Maintains.bind
  · exact .when fun _ => orderly_modify _
  intro _
  apply Program.maintains_get_bind
  intro e _
  exact Maintains.ite (fun _ => orderly_fail _) (fun _ => Program.maintains_pure ()) e trivial

/-- Initial keys are derived without errors of the datagram. -/
theorem deriveInitial_orderly (cid : List UInt8) (env : Env) : Orderly (deriveInitial cid env) := by
  apply Program.maintains_get_bind
  intro e _
  cases env.deriveInitialKeyMaterial cid e.conn.isServer with
  | none => exact ⟨_, rfl⟩
  | some keys => exact trivial

private theorem deriveSecrets_orderly (hdr : Header) (env : Env) :
    Orderly (deriveSecrets hdr env) := by
  apply Program.maintains_get_bind
  intro e _
  apply Maintains.when (I := fun _ => True) _ e trivial
  intro _
  exact (deriveInitial_orderly hdr.dcid env).bind fun _ => (orderly_modify _).bind fun _ =>
    orderly_modify _

/-- The handshake starts again without errors of the datagram. -/
theorem restart_orderly (env : Env) : Orderly (restart env) := by
  apply (orderly_modify _).bind
  intro _
  apply (orderly_modify _).bind
  intro _
  apply (orderly_modify _).bind
  intro _
  apply Maintains.bind (Program.maintains_ofExcept fun err _ _ => ⟨err, rfl⟩)
  exact fun _ => orderly_modify _

/-- A packet that is not ignored has the length that its header tells. -/
theorem decrypt_read (hdr : Header) (epoch : Epoch) {payloadLen : ℕ} (aead : Crypto.OpenKey)
    (b : Octets) (e : Endpoint) :
    (decrypt hdr epoch payloadLen aead b).Ends e (fun o _ => o.read = b.before.length + payloadLen)
      fun fault _ => ∃ err, fault = .error err := by
  unfold decrypt
  rw [Program.ends_bind]
  apply ends_onBytes
  apply (decryptHdr_ends aead.toOpen hdr b).mono
  · rintro hdr' b' ⟨-, -, hoff⟩
    dsimp only
    rw [Program.ends_bind, Program.ends_get]
    have hends := decryptPkt_ends aead
      (decodePktNum (e.conn.pktNumSpaces epoch).largestRxPktNum hdr'.pktNum hdr'.pktNumLen)
        hdr'.pktNumLen payloadLen b'
    split
    · rename_i heq
      obtain ⟨hnumber, hread⟩ := hends.ok heq
      change _ + tagLen = _
      omega
    · exact ⟨_, rfl⟩
    · rename_i hnot heq
      obtain ⟨err, rfl⟩ := hends.error heq
      exact (hnot err rfl).elim
  · rintro fault b' ⟨-, rfl⟩
    exact ⟨_, rfl, _, rfl⟩

theorem getPayloadLen_parses {max : ℕ} (hdr : Header) :
    Parses max (getPayloadLen hdr) 0 fun _ => True := by
  apply Parses.ite
  · exact fun _ => Lib.Cursor.parses_get.map fun _ _ => trivial
  · exact fun _ => getVarint_parses.mono (fun _ _ => trivial) (Nat.zero_le _)

/-- Neither the length that a header claims nor that of a decrypted packet goes beyond the buffer.
-/
theorem openBody_read (hdr : Header) (b : Octets) (env : Env) (e : Endpoint) :
    (openBody hdr b env).Ends e
    (fun o _ => b.before.length ≤ o.read ∧ o.read ≤ b.len) fun fault _ =>
        ∃ err, fault = .error err := by
  unfold openBody
  rw [Program.ends_bind]
  apply (acceptVersion_orderly hdr e trivial).mono _ fun _ _ => id
  intro _ e₁ _
  rw [Program.ends_bind]
  apply ends_onBytes
  apply (getPayloadLen_parses hdr b le_rfl).mono
  · rintro payloadLen b' ⟨-, taken, -, hafter, hbefore⟩
    have hlen : Octets.len b' = b.len := by
      rw [Octets.len, Octets.len, hafter, hbefore, List.length_append, List.length_append,
        Nat.add_assoc]
    have hoff : b.before.length ≤ b'.before.length := by
      rw [hbefore, List.length_append]
      exact Nat.le_add_right _ _
    dsimp only
    rw [Program.ends_ite]
    refine ⟨fun _ => ⟨_, rfl⟩, fun hfits => ?_⟩
    -- the payload ends within the datagram
    have hread : b.before.length ≤ b'.before.length + payloadLen ∧
        b'.before.length + payloadLen ≤ b.len := by
      unfold cap at hfits
      unfold Octets.len at hlen ⊢
      omega
    rw [Program.ends_bind]
    unfold acceptPeerConnId
    rw [Program.ends_modify, Program.ends_bind]
    apply (deriveSecrets_orderly hdr env _ trivial).mono _ fun _ _ => id
    intro _ e₂ _
    cases hdr.ty.toEpoch with
    | none => exact ⟨_, rfl⟩
    | some epoch =>
      dsimp only
      rw [Program.ends_bind, Program.ends_get]
      cases e₂.aead hdr.ty epoch with
      | none => exact hread
      | some aead =>
        apply (decrypt_read hdr epoch aead b' e₂).mono _ fun _ _ => id
        intro o _ ho
        rw [ho]
        exact hread
  · rintro fault b' ⟨⟨err, rfl⟩, -⟩
    exact ⟨err, rfl, err, rfl⟩

private theorem recvVersionNegotiation_fails (hdr : Header) (env : Env) (e : Endpoint) :
    (recvVersionNegotiation hdr env).Ends e (fun _ _ => False) fun fault _ =>
        ∃ err, fault = .error err := by
  unfold recvVersionNegotiation
  rw [Program.ends_bind, Program.ends_get, Program.ends_ite]
  refine ⟨fun _ => ⟨_, rfl⟩, fun _ => ?_⟩
  rw [Program.ends_ite]
  refine ⟨fun _ => ⟨_, rfl⟩, fun _ => ?_⟩
  rw [Program.ends_ite]
  refine ⟨fun _ => ⟨_, rfl⟩, fun _ => ?_⟩
  cases hdr.versions with
  | none => exact ⟨_, rfl⟩
  | some versions =>
    dsimp only
    cases (versions.filter versionIsSupported).max? with
    | none => exact ⟨_, rfl⟩
    | some version =>
      dsimp only [modifyConn]
      rw [Program.ends_bind, Program.ends_modify, Program.ends_bind]
      apply (restart_orderly env _ trivial).mono _ fun _ _ => id
      exact fun _ _ _ => ⟨_, rfl⟩

private theorem recvRetry_fails (hdr : Header) (b : Octets) (env : Env) (e : Endpoint) :
    (recvRetry hdr b env).Ends e (fun _ _ => False) fun fault _ => ∃ err, fault = .error err := by
  unfold recvRetry
  rw [Program.ends_bind, Program.ends_get, Program.ends_ite]
  refine ⟨fun _ => ⟨_, rfl⟩, fun _ => ?_⟩
  rw [Program.ends_ite]
  refine ⟨fun _ => ⟨_, rfl⟩, fun _ => ?_⟩
  dsimp only [modifyConn]
  rw [Program.ends_bind, Program.ends_modify, Program.ends_bind, Program.ends_modify,
    Program.ends_bind,
    Program.ends_modify, Program.ends_bind]
  apply (deriveInitial_orderly hdr.scid env _ trivial).mono _ fun _ _ => id
  intro _ e₁ _
  rw [Program.ends_bind]
  apply (restart_orderly env e₁ trivial).mono _ fun _ _ => id
  exact fun _ _ _ => ⟨_, rfl⟩

/-- The next packet is behind the start of a packet, and not behind the end of the buffer. -/
theorem openPacket_read (buf : List UInt8) (env : Env) (e : Endpoint) : (openPacket buf env).Ends e
    (fun o _ => 1 ≤ o.read ∧ o.read ≤ buf.length) fun fault _ => ∃ err, fault = .error err := by
  unfold openPacket
  rw [Program.ends_bind, Program.ends_get, Program.ends_ite]
  refine ⟨fun _ => ⟨_, rfl⟩, fun _ => ?_⟩
  rw [Program.ends_ite]
  refine ⟨fun _ => ⟨_, rfl⟩, fun _ => ?_⟩
  rw [Program.ends_bind]
  apply ends_onBytes
  apply (Header.fromBytes_parses e.scid.length ⟨[], buf⟩ le_rfl).mono
  · rintro hdr b ⟨-, taken, htaken, hafter, hbefore⟩
    have hlen : Octets.len b = buf.length := by
      have hbuf := congrArg List.length hafter
      rw [List.length_append] at hbuf
      rw [Octets.len, hbefore, List.nil_append]
      exact hbuf.symm
    have hoff : 1 ≤ b.before.length := by
      rw [hbefore]
      exact htaken
    dsimp only
    rw [Program.ends_ite]
    refine ⟨fun _ => ?_, fun _ => ?_⟩
    · exact (recvVersionNegotiation_fails hdr env e).mono (fun _ _ => False.elim) fun _ _ => id
    rw [Program.ends_ite]
    refine ⟨fun _ => ?_, fun _ => ?_⟩
    · exact (recvRetry_fails hdr b env e).mono (fun _ _ => False.elim) fun _ _ => id
    rw [Program.ends_ite]
    refine ⟨fun _ => ?_, fun _ => ?_⟩
    · change 1 ≤ Octets.len b ∧ Octets.len b ≤ buf.length
      unfold Octets.len at hlen ⊢
      omega
    · apply (openBody_read hdr b env e).mono _ fun _ _ => id
      rintro o _ ⟨hle, hfits⟩
      exact ⟨hoff.trans hle, hfits.trans_eq hlen⟩
  · rintro fault b ⟨⟨err, rfl⟩, -⟩
    exact ⟨err, rfl, err, rfl⟩

section Handle

variable (handle : Header → ℕ → List UInt8 → Program Error Endpoint Unit) (env : Env)

/-- A fault other than an error comes from what is done with a payload. -/
def Blames (fault : Lib.Fault Error) : Prop :=
  (∃ err, fault = .error err) ∨ ∃ hdr pn payload e e', handle hdr pn payload e = .error fault e'

/-- A packet takes at least one byte of the datagram, and no more than there are. -/
theorem recvSingle_read (buf : List UInt8) (e : Endpoint) : (recvSingle handle env buf).Ends e
    (fun read _ => 1 ≤ read ∧ read ≤ buf.length) fun fault _ => Blames handle fault := by
  unfold recvSingle
  rw [Program.ends_bind]
  apply (openPacket_read buf env e).mono _ fun _ _ => .inl
  intro o e₁ hread
  cases o with
  | ignored len => exact hread
  | decrypted hdr pn payload read =>
    dsimp only
    rw [Program.ends_bind]
    unfold Program.Ends
    cases hhandle : handle hdr pn payload e₁ with
    | ok _ e₂ => exact hread
    | error fault e₂ => exact .inr ⟨hdr, pn, payload, e₁, e₂, hhandle⟩

/-- As long as packets are left, one of them goes with each iteration. -/
theorem recvLoop_read {fuel done : ℕ} {rest : List UInt8} (hfuel : rest.length < fuel)
    (e : Endpoint) :
    (recvLoop handle env fuel done rest).Ends e (fun n _ => n = done + rest.length)
      fun fault _ => Blames handle fault := by
  induction fuel generalizing done rest e with
  | zero => omega
  | succ fuel ih =>
    unfold recvLoop
    rw [Program.ends_ite]
    refine ⟨fun hempty => ?_, fun _ => ?_⟩
    · rw [List.isEmpty_iff.mp hempty]
      rfl
    · rw [Program.ends_bind]
      apply (recvSingle_read handle env rest e).mono _ fun _ _ => id
      rintro read e₁ ⟨hpos, hle⟩
      rw [Program.ends_ite]
      refine ⟨fun hover => absurd hle (not_le.mpr hover), fun _ => ?_⟩
      have hdrop : (rest.drop read).length = rest.length - read := List.length_drop
      apply (ih (by omega) e₁).mono _ fun _ _ => id
      rintro n _ rfl
      omega

/-- A packet is at least one byte and at most the rest of its datagram, so the loop ends after no
more iterations than the datagram has bytes, and the bytes that are left are never less than those
of the packet. -/
theorem recv_progresses :
    (∀ buf e read e', recvSingle handle env buf e = .ok read e' → 1 ≤ read ∧ read ≤ buf.length) ∧
      (∀ fuel datagram e, datagram.length < fuel → (recvLoop handle env fuel 0 datagram).Ends e
        (fun done _ => done = datagram.length) fun fault _ => Blames handle fault) ∧
      ∀ datagram e, (recv handle env datagram).Ends e (fun done _ => done = datagram.length)
        fun fault _ => Blames handle fault := by
  have hloop : ∀ fuel datagram e, datagram.length < fuel →
    (recvLoop handle env fuel 0 datagram).Ends e
      (fun done _ => done = datagram.length) fun fault _ => Blames handle fault := by
    intro fuel datagram e hfuel
    apply (recvLoop_read handle env hfuel e).mono _ fun _ _ => id
    rintro done _ rfl
    exact Nat.zero_add _
  refine ⟨fun buf e read e' hread => (recvSingle_read handle env buf e).ok hread, hloop,
    fun datagram e => ?_⟩
  unfold recv modifyConn
  rw [Program.ends_bind, ends_closeOnError]
  apply (hloop _ datagram e (Nat.lt_succ_self _)).mono
  · intro done e₁ hdone
    rw [Program.ends_bind, Program.ends_modify]
    exact hdone
  · exact fun fault _ => id

end Handle

end Endpoint

end Dtp
