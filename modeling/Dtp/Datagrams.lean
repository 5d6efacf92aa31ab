import Dtp.Acknowledgements
import Dtp.Unverified

/-!
# Coalesced packets

A datagram holds several packets, and possibly bytes that are none. `recv` hands them to
`recvSingle` in turn, which tells how far to go on; an error ends the datagram there, also
the error `Done` of packets that are to be ignored.

## Main definitions

* `Connection.WirePacket`, `Connection.Coalesced` — a packet and a datagram as they arrive
* `Connection.WirePacket.decrypt`, `Connection.WirePacket.openPacket` — which packets are decrypted
* `Connection.WirePacket.recvSingle` — processing a packet
* `Connection.Coalesced.recv` — the loop over a datagram

## Main results

* `Connection.Coalesced.recv_of_readable` — if all packets can be read, `recv` sees their frames
* `Connection.WirePacket.recvSingle_ends` — what a packet does to the budget
* `Connection.Coalesced.credits_iff` — when the bytes of a datagram are credited
-/

namespace Dtp

open Lib (Program)

namespace Connection

/-! ### Packets as they arrive -/

/-- What is behind the header of a packet. -/
inductive Body
  /-- The length is missing, or goes beyond the datagram. -/
  | truncated (e : Error)
  /-- Decryption fails with the keys that the connection has. -/
  | garbled (e : Error)
  | readable
  deriving DecidableEq

/-- A packet in a datagram. The frames of `packet` are there if the body is readable. -/
structure WirePacket where
  packet : RxPacket
  body : Body
  /-- TLS has keys for packets of type 0-RTT. -/
  zeroRTTKey : Bool
  len : ℕ
  len_pos : 0 < len

/-- A datagram: packets, and the bytes after them in which there is no header. -/
structure Coalesced where
  packets : List WirePacket
  junk : Option (Error × ℕ)
  junk_pos : ∀ j ∈ junk, 0 < j.2

namespace Coalesced

/-- The length of the datagram. -/
def len (d : Coalesced) : ℕ := (d.packets.map WirePacket.len).sum + (d.junk.map Prod.snd).getD 0

/-- Packets without bytes after them. -/
def ofPackets (packets : List WirePacket) : Coalesced := ⟨packets, none, nofun⟩

end Coalesced

/-- Agrees on the version. -/
def acceptVersion (pkt : RxPacket) : Program Error Connection Unit := do
  let c ← get
  let negotiates := c.isServer && !c.didVersionNegotiation
  if negotiates && !versionIsSupported pkt.version then Program.fail .unknownVersion
  else
    Program.when negotiates <| modify fun c =>
      { c with version := pkt.version, didVersionNegotiation := true }
    let c ← get
    if pkt.ty ≠ .short ∧ pkt.version ≠ c.version then Program.fail .unknownVersion else pure ()

/-- Derives the Initial secrets on the server. -/
def deriveSecrets (pkt : RxPacket) : Program Error Connection Unit := do
  let c ← get
  if c.derivedInitialSecrets then pure ()
  else
    modify fun c => c.modifySpace .initial fun s =>
      { s with cryptoOpen := true, cryptoSeal := true }
    modify fun c => { c with derivedInitialSecrets := true, dcidLen := c.dcidLen + pkt.scidLen }

/-- A header is accepted in two steps. -/
theorem acceptHeader_eq (pkt : RxPacket) : acceptHeader pkt = (do
    acceptVersion pkt
    deriveSecrets pkt) := by
  rw [acceptVersion, bind_assoc]
  refine congrArg (bind get) (funext fun c => ?_)
  dsimp only
  split_ifs with hunknown
  · rfl
  · rw [bind_assoc]
    refine congrArg (bind _) (funext fun _ => ?_)
    rw [bind_assoc]
    funext c
    simp only [Program.bind_apply, Program.get_apply]
    by_cases hversion : pkt.ty ≠ .short ∧ pkt.version ≠ c.version
    · rw [if_pos hversion, if_pos hversion]
      rfl
    · rw [if_neg hversion, if_neg hversion]
      rfl

namespace WirePacket

/-- There are keys for the packet. -/
def openable (p : WirePacket) (epoch : Epoch) (c : Connection) : Bool :=
  (p.packet.ty == .zeroRTT && p.zeroRTTKey) || (c.pktNumSpaces epoch).cryptoOpen

/-- Decrypts a packet whose header is accepted: its epoch, and nothing if it is left out. -/
def decrypt (p : WirePacket) (epoch : Epoch) : Program Error Connection (Option Epoch) := do
  let c ← get
  -- Ignore packets that can't be decrypted because there are no keys.
  if p.openable epoch c = false then pure none
  else
    match p.body with
    -- Ignore packets that fail decryption, but only after another packet.
    | .garbled e => Program.fail (if c.recvCount = 0 then e else .done)
    | _ =>
      if (c.pktNumSpaces epoch).recvPktNum.contains p.packet.pktNum then Program.fail .done
      else pure (some epoch)

/-- The first half of `recv_single`: the epoch of a packet that is decrypted, and nothing if
the packet is left out. -/
def openPacket (p : WirePacket) : Program Error Connection (Option Epoch) := do
  let c ← get
  if c.draining || c.isClosing then Program.fail .done
  else
    match p.packet.ty.toEpoch with
    -- Version Negotiation and Retry packets start the handshake over
    | none => Program.fail .done
    | some epoch =>
      -- Discard 1-RTT packets received before handshake is completed.
      if p.packet.ty = .short ∧ !c.isEstablished then pure none
      else
        acceptVersion p.packet
        match p.body with
        | .truncated e => Program.fail e
        | _ =>
          deriveSecrets p.packet
          p.decrypt epoch

end WirePacket

/-- The second half of `recv_single`, for a packet that was decrypted. -/
def handle (pkt : RxPacket) (epoch : Epoch) : Program Error Connection Unit := do
  processFrames pkt.restored pkt.restoredError epoch
  processFrames pkt.frames pkt.framesError epoch
  drainAcked epoch
  modify (received pkt epoch)

namespace WirePacket

/-- Processes a packet. If there is no error, the loop goes on behind the packet. -/
def recvSingle (p : WirePacket) : Program Error Connection Unit := do
  match ← p.openPacket with
  | none => pure ()
  | some epoch => handle p.packet epoch

end WirePacket

namespace Coalesced

/-- Bytes without a header. -/
def recvJunk : Option (Error × ℕ) → Program Error Connection Unit
  | none => pure ()
  | some (e, _) => do
    let c ← get
    if c.draining || c.isClosing then Program.fail .done else Program.fail e

/-- The loop of `recv`, up to the first error. -/
def recvAll (d : Coalesced) : Program Error Connection Unit := do
  forM d.packets WirePacket.recvSingle
  recvJunk d.junk

/-- Processes a datagram, and returns its length. -/
def recv (d : Coalesced) : Program Error Connection ℕ := do
  closeOnError d.recvAll
  modify fun c =>
    if c.verifiedPeerAddress then c else { c with maxSendBytes := c.maxSendBytes + d.len * 3 }
  pure d.len

end Coalesced

/-! ### Datagrams whose packets can be read -/

/-- The payload can be decrypted, if there are keys. -/
structure WirePacket.Readable (p : WirePacket) : Prop where
  body : p.body = .readable
  key : p.packet.ty = .zeroRTT → p.zeroRTTKey = true

/-- What is readable can be opened, if there is a key. -/
theorem WirePacket.Readable.openable {p : WirePacket} (h : p.Readable) (epoch : Epoch)
    (c : Connection) : p.openable epoch c = false ↔
      p.packet.ty ≠ .zeroRTT ∧ (!(c.pktNumSpaces epoch).cryptoOpen) = true := by
  unfold WirePacket.openable
  by_cases hty : p.packet.ty = .zeroRTT
  · simp [hty, h.key hty]
  · simp [hty]

/-- Of packets that can be read, `recv` sees the frames. -/
theorem WirePacket.Readable.recvSingle {p : WirePacket} (h : p.Readable) :
    p.recvSingle = Connection.recvSingle p.packet := by
  funext c
  unfold WirePacket.recvSingle WirePacket.openPacket Connection.recvSingle
  simp only [Program.bind_apply, Program.get_apply]
  by_cases hclosed : (c.draining || c.isClosing) = true
  · rw [if_pos hclosed, if_pos hclosed]
    rfl
  rw [if_neg hclosed, if_neg hclosed]
  cases p.packet.ty.toEpoch with
  | none => rfl
  | some epoch =>
    by_cases hshort : p.packet.ty = .short ∧ (!c.isEstablished) = true
    · simp only [if_pos hshort]
      rfl
    simp only [if_neg hshort, acceptHeader_eq, h.body, Program.bind_apply]
    cases acceptVersion p.packet c with
    | error e c₁ => rfl
    | ok _ c₁ =>
      dsimp only
      cases deriveSecrets p.packet c₁ with
      | error e c₂ => rfl
      | ok _ c₂ =>
        simp only [WirePacket.decrypt, Program.bind_apply, Program.get_apply, h.openable, h.body]
        by_cases hkey : p.packet.ty ≠ .zeroRTT ∧ (!(c₂.pktNumSpaces epoch).cryptoOpen) = true
        · rw [if_pos hkey, if_pos hkey]
          rfl
        rw [if_neg hkey, if_neg hkey]
        by_cases hdup : (c₂.pktNumSpaces epoch).recvPktNum.contains p.packet.pktNum = true
        · rw [if_pos hdup, if_pos hdup]
          rfl
        · rw [if_neg hdup, if_neg hdup]
          rfl

private theorem Coalesced.recv_of_readable {packets : List WirePacket}
    (h : ∀ p ∈ packets, p.Readable) :
    (ofPackets packets).recv = (do
      Connection.recv ⟨packets.map WirePacket.packet, none, (ofPackets packets).len⟩
      pure (ofPackets packets).len) := by
  have hsame : (forM packets WirePacket.recvSingle : Program Error Connection Unit) =
      forM (packets.map WirePacket.packet) Connection.recvSingle := by
    induction packets with
    | nil => rfl
    | cons p ps ih =>
      rw [List.map_cons, List.forM_cons, List.forM_cons, (h p List.mem_cons_self).recvSingle,
        ih fun q hq => h q (List.mem_cons_of_mem p hq)]
  unfold Coalesced.recv Connection.recv Coalesced.recvAll
  rw [bind_assoc]
  change (do closeOnError (do forM packets WirePacket.recvSingle; recvJunk none); _) = _
  rw [hsame]
  rfl

/-! ### When a datagram is credited -/

/-- The budget of an unverified address stays. -/
structure SameBudget (c c' : Connection) : Prop where
  isServer : c'.isServer = c.isServer
  verifiedPeerAddress : c'.verifiedPeerAddress = c.verifiedPeerAddress
  maxSendBytes : c'.maxSendBytes = c.maxSendBytes

instance : IsPreorder Connection SameBudget where
  refl _ := ⟨rfl, rfl, rfl⟩
  trans _ _ _ h h' := ⟨h'.isServer.trans h.isServer,
    h'.verifiedPeerAddress.trans h.verifiedPeerAddress, h'.maxSendBytes.trans h.maxSendBytes⟩

theorem Steady.sameBudget {c c' : Connection} (h : c.Steady c') : c.SameBudget c' :=
  ⟨h.isServer, h.verifiedPeerAddress, h.maxSendBytes⟩

private theorem takeAcked_sameBudget (epoch : Epoch) (c : Connection) :
    c.SameBudget (takeAcked epoch c) := by
  obtain ⟨c₁, spaces, hc₁, heq⟩ := takeAcked_upToNeedAck epoch c
  rw [heq]
  exact { hc₁.sameBudget with }

/-- The packet verifies the address of the peer. -/
def WirePacket.Verifies (p : WirePacket) (c : Connection) : Prop :=
  c.isServer = true ∧ p.packet.ty = .handshake ∧ (c.pktNumSpaces .handshake).cryptoOpen = true

instance (p : WirePacket) (c : Connection) : Decidable (p.Verifies c) := inferInstanceAs
    (Decidable (_ ∧ _))

/-- The header of a packet leaves the keys of the handshake as they are. -/
structure Headed (c c' : Connection) : Prop extends c.SameBudget c' where
  handshake : c'.pktNumSpaces .handshake = c.pktNumSpaces .handshake
  recvCount : c'.recvCount = c.recvCount

instance : IsPreorder Connection Headed where
  refl c := ⟨refl_of SameBudget c, rfl, rfl⟩
  trans _ _ _ h h' := ⟨trans_of SameBudget h.toSameBudget h'.toSameBudget,
    h'.handshake.trans h.handshake, h'.recvCount.trans h.recvCount⟩

private theorem acceptVersion_headed (pkt : RxPacket) (c : Connection) :
    (acceptVersion pkt).Keeps Headed c := by
  rw [acceptVersion, Program.keeps_get_bind]
  refine .ite (fun _ => Program.keeps_fail.mpr (refl_of Headed c)) fun _ => ?_
  refine .bind (.when fun _ => Program.keeps_modify.mpr ⟨⟨rfl, rfl, rfl⟩, rfl, rfl⟩) fun _ c _ => ?_
  rw [Program.keeps_get_bind]
  exact .ite (fun _ => Program.keeps_fail.mpr (refl_of Headed c)) fun _ => refl_of Headed c

private theorem deriveSecrets_headed (pkt : RxPacket) (c : Connection) :
    (deriveSecrets pkt).Keeps Headed c := by
  rw [deriveSecrets, Program.keeps_get_bind]
  refine .ite (fun _ => refl_of Headed c) fun _ => ?_
  refine .bind (Program.keeps_modify.mpr ⟨⟨rfl, rfl, rfl⟩, ?_, rfl⟩) fun _ c _ =>
    Program.keeps_modify.mpr ⟨⟨rfl, rfl, rfl⟩, rfl, rfl⟩
  exact c.modifySpace_of_ne _ nofun

namespace WirePacket

/-- Decryption changes nothing, and fails where the packet cannot be opened. -/
theorem decrypt_ends (p : WirePacket) (epoch : Epoch) (c : Connection) : (p.decrypt epoch).Ends c
    (fun e c' => c' = c ∧ (e.isSome = true ↔ p.openable epoch c = true))
    fun _ c' => c' = c := by
  rw [decrypt, Program.ends_bind, Program.ends_get]
  refine Program.ends_ite.mpr ⟨fun hclosed => ⟨rfl, by simp [hclosed]⟩, fun hopen => ?_⟩
  have hopen : p.openable epoch c = true := by simpa using hopen
  split
  · rfl
  · exact Program.ends_ite.mpr ⟨fun _ => rfl, fun _ => ⟨rfl, by simp [hopen]⟩⟩

/-- A packet is left out, decrypted, or rejected; the budget stays, and whether a Handshake
packet is decrypted can be told before. -/
theorem openPacket_ends (p : WirePacket) (c : Connection) : p.openPacket.Ends c
    (fun epoch c' => c.Headed c' ∧ (p.packet.ty = .handshake →
      (epoch.isSome = true ↔ (c.pktNumSpaces .handshake).cryptoOpen = true)))
    fun e c' => (∃ err, e = .error err) → c.Headed c' := by
  rw [openPacket, Program.ends_bind, Program.ends_get, Program.ends_ite]
  refine ⟨fun _ _ => refl_of Headed c, fun _ => ?_⟩
  cases hepoch : p.packet.ty.toEpoch with
  | none => exact fun _ => refl_of Headed c
  | some epoch =>
    refine Program.ends_ite.mpr ⟨fun hshort => ⟨refl_of Headed c, fun hty => ?_⟩, fun _ => ?_⟩
    · rw [hshort.1] at hty
      cases hty
    refine Program.Ends.bind (acceptVersion_headed p.packet c) fun _ c₁ h₁ => ?_
    have hbody :
      (do deriveSecrets p.packet; p.decrypt epoch : Program Error Connection (Option Epoch)).Ends c₁
        (fun epoch c' => c.Headed c' ∧ (p.packet.ty = .handshake →
          (epoch.isSome = true ↔ (c.pktNumSpaces .handshake).cryptoOpen = true)))
        fun e c' => (∃ err, e = .error err) → c.Headed c' := by
      have hsecrets := Program.Ends.mono (deriveSecrets_headed p.packet c₁)
        (fun _ _ h => trans_of Headed h₁ h) fun _ _ h he => trans_of Headed h₁ (h he)
      refine Program.Ends.bind hsecrets fun _ c₂ h₂ => ?_
      refine (p.decrypt_ends epoch c₂).mono (fun e c₃ ⟨hsame, hopen⟩ => ?_) fun _ _ hsame _ =>
        hsame ▸ h₂
      refine ⟨hsame ▸ h₂, fun hty => hopen.trans ?_⟩
      -- a Handshake packet is decrypted with keys that the header does not change
      rw [hty] at hepoch
      obtain rfl := Option.some.inj hepoch
      simp [openable, hty, h₂.handshake]
    cases p.body with
    | truncated e => exact fun _ => h₁
    | garbled e => exact hbody
    | readable => exact hbody

end WirePacket

/-- A Handshake packet of the client verifies its address. -/
def verifyPeer (pkt : RxPacket) (c : Connection) : Connection :=
  if c.isServer && pkt.ty == .handshake then
    { c.dropEpochState .initial pkt.now with verifiedPeerAddress := true }
  else c

/-- What is noted of a packet that is processed. -/
theorem received_eq (pkt : RxPacket) (epoch : Epoch) (c : Connection) :
    received pkt epoch c =
      { verifyPeer pkt { c.modifySpace epoch pkt.record with recvCount := c.recvCount + 1 } with
        ackElicitingSent := false } := rfl

theorem received_recvCount (pkt : RxPacket) (epoch : Epoch) (c : Connection) :
    (received pkt epoch c).recvCount = c.recvCount + 1 := by
  rw [received_eq]
  unfold verifyPeer dropEpochState
  split_ifs <;> rfl

private theorem received_verified (pkt : RxPacket) (epoch : Epoch) (c : Connection) :
    (received pkt epoch c).verifiedPeerAddress =
      (c.verifiedPeerAddress || (c.isServer && pkt.ty == .handshake)) := by
  rw [received_eq]
  unfold verifyPeer
  have hserver : ({ c.modifySpace epoch pkt.record with recvCount := c.recvCount + 1 } :
    Connection).isServer = c.isServer := rfl
  rw [hserver]
  split_ifs with h
  · simp [h]
  · simp [h, modifySpace]

/-- The frames of a packet leave the budget alone, and a Handshake packet verifies the address. -/
theorem handle_ends (pkt : RxPacket) (epoch : Epoch) (c : Connection) : (handle pkt epoch).Ends c
    (fun _ c' => c'.isServer = c.isServer ∧ c'.maxSendBytes = c.maxSendBytes ∧
      c'.verifiedPeerAddress = (c.verifiedPeerAddress || (c.isServer && pkt.ty == .handshake)))
    fun e c' => (∃ err, e = .error err) → c.SameBudget c' := by
  have hframes (frames : List (Frame × Env)) (error : Option Error) (c : Connection) :
      (processFrames frames error epoch).Keeps SameBudget c :=
    ((processFrames_resting frames error epoch).keeps c).mono fun _ h => h.sameBudget
  have hdrain (c : Connection) : (drainAcked epoch).Keeps SameBudget c := by
    rw [drainAcked, Program.keeps_get_bind]
    exact .forM (fun _ c => Program.keeps_modify.mpr (takeAcked_sameBudget epoch c)) _ c
  have hparts : (do
      processFrames pkt.restored pkt.restoredError epoch
      processFrames pkt.frames pkt.framesError epoch
      drainAcked epoch : Program Error Connection Unit).Keeps SameBudget c :=
    .bind (hframes _ _ c) fun _ c _ => .bind (hframes _ _ c) fun _ c _ => hdrain c
  have hassoc : handle pkt epoch = (do
      (do
        processFrames pkt.restored pkt.restoredError epoch
        processFrames pkt.frames pkt.framesError epoch
        drainAcked epoch)
      modify (received pkt epoch)) := by
    rw [handle, bind_assoc]
    refine congrArg (bind _) (funext fun _ => ?_)
    rw [bind_assoc]
  rw [hassoc]
  refine Program.Ends.bind hparts fun _ c₁ h₁ => ?_
  rw [Program.ends_modify]
  have hrests := (received_rests pkt epoch c₁).toSteady
  refine ⟨hrests.isServer.trans h₁.isServer, hrests.maxSendBytes.trans h₁.maxSendBytes, ?_⟩
  rw [received_verified, h₁.verifiedPeerAddress, h₁.isServer]

/-- A packet may verify the address of the peer, and adds nothing to the budget. -/
theorem WirePacket.recvSingle_ends (p : WirePacket) (c : Connection) : p.recvSingle.Ends c
    (fun _ c' => c'.isServer = c.isServer ∧ c'.maxSendBytes = c.maxSendBytes ∧
      (c'.verifiedPeerAddress = true ↔ c.verifiedPeerAddress = true ∨ p.Verifies c))
    fun e c' => (∃ err, e = .error err) → c.SameBudget c' := by
  refine Program.Ends.bind (Program.Ends.mono (p.openPacket_ends c) (fun _ _ h => h) fun _ _ h he =>
    (h he).toSameBudget) fun epoch c₁ ⟨h₁, hkey⟩ => ?_
  cases epoch with
  | none =>
    refine ⟨h₁.isServer, h₁.maxSendBytes, ?_⟩
    rw [h₁.verifiedPeerAddress]
    refine ⟨.inl, Or.rec id fun hverifies => ?_⟩
    exact absurd ((hkey hverifies.2.1).mpr hverifies.2.2) Bool.false_ne_true
  | some epoch =>
    refine Program.Ends.mono (handle_ends p.packet epoch c₁) ?_ fun _ _ h he =>
      trans_of SameBudget h₁.toSameBudget (h he)
    rintro _ c₂ ⟨hserver, hmax, hverified⟩
    refine ⟨hserver.trans h₁.isServer, hmax.trans h₁.maxSendBytes, ?_⟩
    rw [hverified, h₁.verifiedPeerAddress, h₁.isServer, Bool.or_eq_true, Bool.and_eq_true,
      beq_iff_eq]
    refine or_congr_right ⟨fun h => ⟨h.1, h.2, (hkey h.2).mp rfl⟩, fun h => ⟨h.1, h.2.1⟩⟩

/-- The credit stays, and a verified address remains verified. -/
structure Uncredited (c c' : Connection) : Prop where
  maxSendBytes : c'.maxSendBytes = c.maxSendBytes
  verified : c.verifiedPeerAddress = true → c'.verifiedPeerAddress = true

instance : IsPreorder Connection Uncredited where
  refl _ := ⟨rfl, id⟩
  trans _ _ _ h h' := ⟨h'.maxSendBytes.trans h.maxSendBytes, h'.verified ∘ h.verified⟩

theorem SameBudget.uncredited {c c' : Connection} (h : c.SameBudget c') : c.Uncredited c' :=
  ⟨h.maxSendBytes, h.verifiedPeerAddress.trans⟩

private theorem WirePacket.recvSingle_uncredited (p : WirePacket) (c : Connection) :
    p.recvSingle.Keeps Uncredited c :=
  Program.Ends.mono (p.recvSingle_ends c) (fun _ _ h => ⟨h.2.1, fun hc => h.2.2.mpr (.inl hc)⟩)
    fun _ _ h he => (h he).uncredited

/-- Packets add nothing to the budget. -/
theorem recvPackets_uncredited (ps : List WirePacket) (c : Connection) :
    (forM ps WirePacket.recvSingle : Program Error Connection Unit).Keeps Uncredited c :=
  .forM WirePacket.recvSingle_uncredited ps c

private theorem Coalesced.recvAll_uncredited (d : Coalesced) (c : Connection) :
    d.recvAll.Keeps Uncredited c := by
  refine .bind (recvPackets_uncredited d.packets c) fun _ c _ => ?_
  cases d.junk with
  | none => exact refl_of Uncredited c
  | some junk =>
    rw [recvJunk, Program.keeps_get_bind]
    exact .ite (fun _ => Program.keeps_fail.mpr (refl_of Uncredited c)) fun _ =>
      Program.keeps_fail.mpr (refl_of Uncredited c)

/-- `recvSingle` accepts the packets one after the other, and none verifies the address. -/
def Goes : List WirePacket → Connection → Prop
  | [], _ => True
  | p :: ps, c => ¬ p.Verifies c ∧ ∃ c', p.recvSingle c = .ok () c' ∧ Goes ps c'

/-- Where all packets are accepted, the address is not verified exactly if none verifies it. -/
theorem goes_iff {ps : List WirePacket} {c : Connection}
    (hverified : c.verifiedPeerAddress = false) :
    Goes ps c ↔ ∃ c', forM ps WirePacket.recvSingle c = .ok () c' ∧
        c'.verifiedPeerAddress = false := by
  induction ps generalizing c with
  | nil => exact ⟨fun _ => ⟨c, rfl, hverified⟩, fun _ => trivial⟩
  | cons p ps ih =>
    rw [List.forM_cons]
    constructor
    · rintro ⟨hquiet, c', hstep, hgoes⟩
      have hends := (p.recvSingle_ends c).ok hstep
      have hverified' : c'.verifiedPeerAddress = false := by
        rw [← Bool.not_eq_true, hends.2.2, hverified]
        simp [hquiet]
      obtain ⟨c'', hrest, hlast⟩ := (ih hverified').mp hgoes
      exact ⟨c'', Program.bind_eq_ok.mpr ⟨(), c', hstep, hrest⟩, hlast⟩
    · rintro ⟨c'', hall, hlast⟩
      obtain ⟨_, c', hstep, hrest⟩ := Program.bind_eq_ok.mp hall
      have hends := (p.recvSingle_ends c).ok hstep
      have hverified' : c'.verifiedPeerAddress = false := by
        by_contra hne
        have hkept := (Program.Ends.ok (recvPackets_uncredited ps c') hrest).verified
        rw [hkept (by simpa using hne)] at hlast
        cases hlast
      refine ⟨fun hverifies => ?_, c', hstep, (ih hverified').mpr ⟨c'', hrest, hlast⟩⟩
      rw [hends.2.2.mpr (.inr hverifies)] at hverified'
      cases hverified'

/-- The three times of a datagram's length that `recv` adds in the end. -/
theorem Coalesced.recv_after (d : Coalesced) (c : Connection) :
    d.recv.after c = match closeOnError d.recvAll c with
      | .ok _ c₁ => some (if c₁.verifiedPeerAddress then c₁
        else { c₁ with maxSendBytes := c₁.maxSendBytes + d.len * 3 })
      | .error (.error _) c₁ => some c₁
      | .error _ _ => none := by
  unfold Program.after Coalesced.recv
  rw [Program.bind_apply]
  rcases closeOnError d.recvAll c with ⟨_, c₁⟩ | ⟨_ | _ | _ | _, c₁⟩ <;> rfl

/-- Where nothing fails, nothing is closed. -/
theorem closeOnError_eq_ok {x : Program Error Connection Unit} {c c' : Connection} :
    closeOnError x c = .ok () c' ↔ x c = .ok () c' := by
  unfold closeOnError
  rcases x c with ⟨_, c₁⟩ | ⟨e | _ | _ | _, c₁⟩
  · exact .rfl
  · dsimp only
    split_ifs <;> exact ⟨nofun, nofun⟩
  all_goals exact ⟨nofun, nofun⟩

/-- A datagram of no bytes holds nothing. -/
theorem Coalesced.recvAll_of_len {d : Coalesced} (hlen : d.len = 0) :
    d.junk = none ∧ d.packets = [] := by
  unfold Coalesced.len at hlen
  constructor
  · cases hjunk : d.junk with
    | none => rfl
    | some j =>
      have := d.junk_pos j hjunk
      rw [hjunk] at hlen
      simp only [Option.map_some, Option.getD_some] at hlen
      omega
  · cases hpackets : d.packets with
    | nil => rfl
    | cons p ps =>
      have := p.len_pos
      rw [hpackets, List.map_cons, List.sum_cons] at hlen
      omega

/-- All of the datagram is packets, and all of them are processed. -/
theorem Coalesced.recvAll_eq_ok {d : Coalesced} {c c' : Connection} :
    d.recvAll c = .ok () c' ↔ d.junk = none ∧
        forM d.packets WirePacket.recvSingle c = .ok () c' := by
  unfold Coalesced.recvAll
  rw [Program.bind_eq_ok]
  cases d.junk with
  | none =>
    constructor
    · rintro ⟨_, c₁, hall, hjunk⟩
      cases hjunk
      exact ⟨rfl, hall⟩
    · rintro ⟨-, hall⟩
      exact ⟨(), c', hall, rfl⟩
  | some junk =>
    refine ⟨?_, nofun⟩
    rintro ⟨_, c₁, -, hjunk⟩
    rw [recvJunk, Program.bind_apply, Program.get_apply] at hjunk
    dsimp only at hjunk
    split_ifs at hjunk <;> cases hjunk

/-- The bytes of a datagram from an unverified address are credited exactly if `recvSingle`
accepts all its packets, nothing follows them, and none of them verifies the address. -/
theorem Coalesced.credits_iff {d : Coalesced} {c c' : Connection}
    (hverified : c.verifiedPeerAddress = false) (hret : d.recv.after c = some c') :
    c'.maxSendBytes = c.maxSendBytes + 3 * d.len ↔ d.junk = none ∧ Goes d.packets c := by
  have hkeeps : (closeOnError d.recvAll).Keeps Uncredited c := by
    refine keeps_closeOnError (fun c c' app err reason h => ?_) (d.recvAll_uncredited c)
    exact (close_rests h).toSteady.sameBudget.uncredited
  have hempty (hlen : d.len = 0) : d.junk = none ∧ Goes d.packets c := by
    obtain ⟨hjunk, hpackets⟩ := Coalesced.recvAll_of_len hlen
    rw [hpackets]
    exact ⟨hjunk, trivial⟩
  rw [goes_iff hverified]
  rw [goes_iff hverified] at hempty
  rw [d.recv_after c] at hret
  rcases hall : closeOnError d.recvAll c with ⟨_, c₁⟩ | ⟨e | _ | _ | _, c₁⟩
  · rw [hall] at hret
    have hsame := (Program.Ends.ok hkeeps hall).maxSendBytes
    obtain ⟨hjunk, hpackets⟩ := Coalesced.recvAll_eq_ok.mp (closeOnError_eq_ok.mp hall)
    obtain rfl := Option.some.inj hret
    cases hlast : c₁.verifiedPeerAddress with
    | false =>
      refine ⟨fun _ => ⟨hjunk, c₁, hpackets, hlast⟩, fun _ => ?_⟩
      change c₁.maxSendBytes + d.len * 3 = _
      rw [hsame, Nat.mul_comm]
    | true =>
      -- the address is verified, and the credit does not matter any more
      constructor
      · intro hgrown
        change c₁.maxSendBytes = _ at hgrown
        exact hempty (by omega)
      · rintro ⟨-, c₂, hpackets₂, hlast₂⟩
        rw [hpackets] at hpackets₂
        cases hpackets₂
        rw [hlast] at hlast₂
        cases hlast₂
  · rw [hall] at hret
    obtain rfl := Option.some.inj hret
    have hsame := (Program.Ends.error hkeeps hall ⟨e, rfl⟩).maxSendBytes
    constructor
    · intro hgrown
      exact hempty (by omega)
    · rintro ⟨hjunk, c₂, hpackets, -⟩
      rw [closeOnError_eq_ok.mpr (Coalesced.recvAll_eq_ok.mpr ⟨hjunk, hpackets⟩)] at hall
      cases hall
  all_goals
    rw [hall] at hret
    cases hret

/-- A long packet of 66 bytes with a PING, after which TLS has its keys. -/
def pingPacket (ty : PacketType) (body : Body) : WirePacket where
  packet :=
    { ty := ty
      version := protocolVersionDraft25
      scidLen := 16
      pktNum := 0
      fecInfo := .none
      restored := []
      restoredError := none
      frames := [(.ping, Sample.env 0)]
      framesError := none
      now := 0 }
  body := body
  zeroRTTKey := false
  len := 66
  len_pos := by decide

/-- A server that has received nothing. -/
def newServer : Connection := .new { Sample.config (.basic {}) with dcidLen := 0 } true false 0

/-- A packet that fails decryption closes the connection, and there is no credit to tell. -/
theorem Coalesced.not_credited :
    ¬ ∀ (d : Coalesced) (c c' : Connection), c.verifiedPeerAddress = false →
    d.recv.after c = some c' → c'.maxSendBytes = c.maxSendBytes + 3 * d.len := by
  intro hall
  let d := Coalesced.ofPackets [pingPacket .initial (.garbled .cryptoFail)]
  have hrun : (d.recv.after newServer).any (fun c => c.isClosing && c.maxSendBytes == 0) =
      true := by
    decide +kernel
  obtain ⟨c, hc, hbroke⟩ := (Option.any_eq_true _ _).mp hrun
  have hgrown := hall d newServer c rfl hc
  simp only [Bool.and_eq_true, beq_iff_eq] at hbroke
  rw [hbroke.2] at hgrown
  exact absurd hgrown (by decide)

/-- The first packet of a client is credited. -/
theorem Coalesced.credits_first :
    ∃ c, (ofPackets [pingPacket .initial .readable]).recv.after newServer = some c ∧
    (c.maxSendBytes = newServer.maxSendBytes + 3 * (ofPackets [pingPacket .initial .readable]).len ↔
      (ofPackets [pingPacket .initial .readable]).junk = none ∧
        Goes (ofPackets [pingPacket .initial .readable]).packets newServer) := by
  have hrun : ((ofPackets [pingPacket .initial .readable]).recv.after newServer).isSome = true := by
    decide +kernel
  obtain ⟨c, hc⟩ := Option.isSome_iff_exists.mp hrun
  exact ⟨c, hc, credits_iff rfl hc⟩

end Connection

end Dtp
