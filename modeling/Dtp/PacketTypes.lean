import Dtp.Calls
import Dtp.Packets

/-!
# Frames and the types of packets

The receiver of an Initial or Handshake packet accepts only the frames of the handshake
in it, and reads no FEC fields in its header. The sender chooses the type of a packet
first, and not every frame that it then writes asks for the type.

## Main definitions

* `Sent.Readable` — a packet that its receiver reads as it was meant
* `Connection.WritesForType` — nothing waits that does not belong into the packet

## Main results

* `Connection.Sends.readable` — packets for which nothing else waits are read as meant
-/

namespace Dtp

open Lib (Program)

/-- The frames of a packet of the given type are allowed in it, and FEC fields are
written only into short headers. -/
structure Sent.Readable (pkt : Sent) (ty : PacketType) : Prop where
  frames : ∀ f ∈ pkt.frames, f.allowed ty = true
  header : ty ≠ .short → pkt.fecInfo = .none

namespace Connection

/-- The packet has a short header, or nothing waits that asks for one. -/
def WritesForType (c : Connection) (epoch : Epoch) : Prop :=
  epoch = .application ∨
    c.fecEncoded = [] ∧ c.fec = none ∧ c.streams.canceled = [] ∧ c.challenge = none

theorem Writes.allowed {c : Connection} {epoch : Epoch} {f : Frame} (hlong : epoch ≠ .application)
    (canceled : c.streams.canceled = []) (challenge : c.challenge = none) (h : c.Writes epoch f) :
    f.allowed (PacketType.fromEpoch epoch) = true := by
  cases h with
  | ack | connectionClose | crypto | ping | padding => cases epoch <;> rfl
  | resetStream h =>
    rw [canceled] at h
    cases h
  | pathResponse h =>
    rw [challenge] at h
    cases h
  | handshakeDone short | maxStreamsBidi short | maxStreamsUni short | maxData short
  | maxStreamData short | applicationClose short | blockInfo short | stream short =>
    exact absurd short hlong

/-- A packet for which nothing waits that asks for another type is read as meant. -/
theorem Sends.readable {outLen : ℕ} {env : SendEnv} {c c₁ c' : Connection} {epoch : Epoch}
    {pkt : Sent} {written : ℕ} (h : c.Sends outLen env epoch c₁ pkt written c')
    (hwaits : c₁.WritesForType epoch) : pkt.Readable (PacketType.fromEpoch epoch) := by
  obtain ⟨c₀, pnLen, filled, padded, sealed, p', hprep, built, -, rfl⟩ := h.packed
  have filling := built.padded_filling
  have hsealed := (Packing.sealPacket_ends padded).ok built.sealing
  rcases eq_or_ne epoch .application with rfl | hlong
  · exact ⟨fun f _ => f.allowed_short, fun hshort => absurd rfl hshort⟩
  obtain ⟨hencoded, hfec, hcanceled, hchallenge⟩ := hwaits.resolve_left hlong
  have hpacks : c₁.Packs epoch = c₁.Writes epoch := by
    unfold Packs
    rw [hencoded]
  rw [hpacks] at filling
  refine ⟨fun f hf => ?_, fun _ => ?_⟩
  · change f ∈ sealed.draft.frames at hf
    rw [hsealed.joined.draft] at hf
    exact (filling.frames f hf).allowed hlong hcanceled hchallenge
  · -- no group is open, and without data of a stream none is started
    have halone : ¬ padded.joinsGroup := by
      rintro (⟨hm, -⟩ | hopen)
      · cases filling.group hm 0 ⟨[], 0, false⟩ with
        | stream short => exact hlong short
      · rw [filling.fec, hfec] at hopen
        cases hopen
    have hsame := hsealed.join
    rw [Program.when, if_neg halone] at hsame
    cases hsame
    rcases filling.fecInfo with hnone | ⟨len, hredundant⟩
    · exact hnone
    · cases hredundant

/-- A Handshake packet with a PING frame arrives. -/
def pinged : Call :=
  .recv
    { packets :=
        [{ ty := .handshake
           version := protocolVersionDraft25
           scidLen := 16
           pktNum := 0
           fecInfo := .none
           restored := []
           restoredError := none
           frames := [(.ping, Sample.env 1)]
           framesError := none
           now := 1 }]
      error := none
      len := 100 }

/-- A client that has to answer a path challenge, and to acknowledge a packet of the
handshake. -/
def challenged : Option Connection :=
  Sample.client (.basic {})
    [Sample.recv 0 [.pathChallenge [1, 2, 3, 4, 5, 6, 7, 8]] 1, pinged]

/-- A PATH_RESPONSE frame is sent in a Handshake packet. -/
theorem not_readable : ¬ ∀ (c : Connection) (outLen : ℕ) (env : SendEnv) (epoch : Epoch)
    (c₁ : Connection) (pkt : Sent) (written : ℕ) (c' : Connection), c.Reachable →
      c.Sends outLen env epoch c₁ pkt written c' → pkt.Readable (PacketType.fromEpoch epoch) := by
  let unreadable (e : Epoch) (p : Sent) : Bool :=
    p.frames.any fun f => !f.allowed (PacketType.fromEpoch e)
  have hrun : challenged.any (fun c => (send 1400 (Sample.sendEnv 2)).returnsWith c fun _ c' =>
      (c'.recovery.sent .handshake).all (unreadable .handshake) &&
        (c'.recovery.sent .initial).isEmpty && (c'.recovery.sent .application).isEmpty) = true := by
    decide +kernel
  obtain ⟨c, hc, hfails⟩ := (Option.any_eq_true _ _).mp hrun
  obtain ⟨written, c', hsend, hsents⟩ := Program.returnsWith_iff.mp hfails
  simp only [Bool.and_eq_true, List.all_eq_true, List.isEmpty_iff] at hsents
  obtain ⟨⟨hhandshake, hinitial⟩, happlication⟩ := hsents
  intro hall
  obtain ⟨epoch, c₁, pkt, sends⟩ := exists_sends hsend
  have hreadable := hall c _ _ epoch c₁ pkt written c' (Sample.client_reachable hc) sends
  have hsent := sends.sent
  cases epoch with
  | initial => simp [hinitial] at hsent
  | application => simp [happlication] at hsent
  | handshake =>
    obtain ⟨f, hf, hforbidden⟩ := List.any_eq_true.mp (hhandshake pkt hsent)
    simp [hreadable.frames f hf] at hforbidden

/-- A client that has to acknowledge a packet of the handshake. -/
def retransmitted : Option Connection := Sample.client (.basic {}) [pinged]

theorem readable_retransmitted : ∃ c epoch c₁ pkt written c', retransmitted = some c ∧
    c.Sends 1400 (Sample.sendEnv 1) epoch c₁ pkt written c' ∧
      pkt.Readable (PacketType.fromEpoch epoch) := by
  let plain (c : Connection) : Bool :=
    c.fecEncoded.isEmpty && c.fec.isNone && c.streams.canceled.isEmpty && c.challenge.isNone &&
      (send 1400 (Sample.sendEnv 1)).returnsWith c fun _ _ => true
  have hrun : retransmitted.any plain = true := by decide +kernel
  obtain ⟨c, hc, hplain⟩ := (Option.any_eq_true _ _).mp hrun
  simp only [plain, Bool.and_eq_true, List.isEmpty_iff, Option.isNone_iff_eq_none] at hplain
  obtain ⟨⟨⟨⟨hencoded, hfec⟩, hcanceled⟩, hchallenge⟩, hok⟩ := hplain
  obtain ⟨written, c', hsend, -⟩ := Program.returnsWith_iff.mp hok
  obtain ⟨epoch, c₁, pkt, sends⟩ := exists_sends hsend
  obtain ⟨c₀, pnLen, hprep⟩ := sends.prepares
  have same := hprep.sameTask
  refine ⟨c, epoch, c₁, pkt, written, c', hc, sends, sends.readable (.inr ⟨?_, ?_, ?_, ?_⟩)⟩
  · exact same.fecEncoded.trans hencoded
  · exact same.fec.trans hfec
  · exact same.canceled.trans hcanceled
  · exact same.challenge.trans hchallenge

end Connection

end Dtp
