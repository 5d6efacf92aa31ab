import Dtp.Calls
import Dtp.Packets

/-!
# Which packets must be acknowledged

The receiver of a packet decides from its frames whether it must acknowledge it. The
sender notes the same by hand beside each frame that it writes, and the two rules differ:
the sender counts the frames that close a connection, and forgets HANDSHAKE_DONE.

## Main definitions

* `Sent.Agrees` — what is remembered about a packet is what its receiver decides
* `Connection.WritesPlainly` — no frame is due about which the two rules differ

## Main results

* `Connection.Sends.agrees` — packets without such frames are remembered rightly
-/

namespace Dtp

/-- What is remembered about a packet of `written` bytes is what its receiver decides. -/
structure Sent.Agrees (pkt : Sent) (written : ℕ) : Prop where
  ackEliciting : pkt.ackEliciting = true ↔ ∃ f ∈ pkt.frames, f.ackEliciting = true
  inFlight : pkt.ackEliciting = true → pkt.inFlight = true ∧ pkt.size = written

/-- The frames about which sender and receiver differ. -/
theorem Frame.flagged_eq_ackEliciting {f : Frame} (hdone : f ≠ .handshakeDone)
    (hclose : ∀ err frameType reason, f ≠ .connectionClose err frameType reason)
    (happClose : ∀ err reason, f ≠ .applicationClose err reason) : f.flagged = f.ackEliciting := by
  cases f with
  | handshakeDone => exact absurd rfl hdone
  | connectionClose err frameType reason => exact absurd rfl (hclose err frameType reason)
  | applicationClose err reason => exact absurd rfl (happClose err reason)
  | _ => rfl

namespace Connection

/-- A redundant packet is waiting, or no frame is due about which sender and receiver
differ. -/
def WritesPlainly (c : Connection) (epoch : Epoch) : Prop :=
  c.fecEncoded ≠ [] ∨
    c.error = none ∧ (epoch = .application → c.appError = none ∧ c.handshakeDoneDue = false)

private theorem WritesPlainly.flagged_eq {c : Connection} {epoch : Epoch}
    (h : c.WritesPlainly epoch)
    {f : Frame} (hf : c.Packs epoch f) : f.flagged = f.ackEliciting := by
  unfold Packs at hf
  split at hf
  · rename_i hfec
    obtain ⟨herror, hshort⟩ := h.resolve_left (absurd hfec)
    refine Frame.flagged_eq_ackEliciting ?_ ?_ ?_
    · rintro rfl
      cases hf with
      | handshakeDone short _ due =>
        rw [(hshort short).2] at due
        cases due
    · rintro err frameType reason rfl
      cases hf with
      | connectionClose herr =>
        rw [herror] at herr
        cases herr
    · rintro err reason rfl
      cases hf with
      | applicationClose short happ =>
        rw [(hshort short).1] at happ
        cases happ
  · rcases hf with rfl | hf
    · rfl
    · cases f <;> first | rfl | cases hf

/-- A packet without frames about which the two rules differ is remembered rightly. -/
theorem Sends.agrees {outLen : ℕ} {env : SendEnv} {c c₁ c' : Connection} {epoch : Epoch}
    {pkt : Sent}
    {written : ℕ} (h : c.Sends outLen env epoch c₁ pkt written c')
    (hplain : c₁.WritesPlainly epoch) : pkt.Agrees written := by
  obtain ⟨c₀, pnLen, filled, padded, sealed, p', hprep, built, -, rfl⟩ := h.packed
  have filling := built.padded_filling
  have hdraft := ((Packing.sealPacket_ends padded).ok built.sealing).joined.draft
  have hpkt : (sealed.toSent epoch written env.instant).ackEliciting = padded.draft.ackEliciting ∧
      (sealed.toSent epoch written env.instant).inFlight = padded.draft.inFlight ∧
      (sealed.toSent epoch written env.instant).frames = padded.draft.frames := by
    unfold Packing.toSent
    rw [hdraft]
    exact ⟨rfl, rfl, rfl⟩
  obtain ⟨helicits, hinFlight, hframes⟩ := hpkt
  rw [filling.accounts.ackEliciting] at helicits
  rw [filling.accounts.inFlight] at hinFlight
  refine ⟨?_, fun h => ⟨?_, if_pos h⟩⟩
  · rw [helicits, hframes, List.any_eq_true]
    refine exists_congr fun f => and_congr_right fun hf => ?_
    rw [hplain.flagged_eq (filling.frames f hf)]
  · rw [helicits, List.any_eq_true] at h
    obtain ⟨f, hf, hflag⟩ := h
    rw [hinFlight, List.any_eq_true]
    exact ⟨f, hf, by rw [hflag]; rfl⟩

/-- A client that closes the connection. -/
def closing : Option Connection := Sample.client (.basic {}) [.close false 1 []]

/-- A client that has a byte to send. -/
def writing : Option Connection := Sample.client (.basic {}) [Sample.write 2 [7] false]

/-- The packet with a CONNECTION_CLOSE frame and nothing else is remembered wrongly. -/
theorem not_agrees : ¬ ∀ (c : Connection) (outLen : ℕ) (env : SendEnv) (epoch : Epoch)
    (c₁ : Connection) (pkt : Sent) (written : ℕ) (c' : Connection), c.Reachable →
      c.Sends outLen env epoch c₁ pkt written c' → pkt.Agrees written := by
  let wrong (p : Sent) : Bool := p.ackEliciting && !p.frames.any Frame.ackEliciting
  have hrun : closing.any (fun c => (send 1400 (Sample.sendEnv 1)).returnsWith c fun _ c' =>
      [Epoch.initial, .handshake, .application].all fun e => (c'.recovery.sent e).all wrong) =
          true := by
    decide +kernel
  obtain ⟨c, hc, hfails⟩ := (Option.any_eq_true _ _).mp hrun
  obtain ⟨written, c', hsend, hsents⟩ := Lib.Program.returnsWith_iff.mp hfails
  simp only [List.all_cons, List.all_nil, Bool.and_true, Bool.and_eq_true,
    List.all_eq_true] at hsents
  intro hall
  obtain ⟨epoch, c₁, pkt, sends⟩ := exists_sends hsend
  have hagrees := hall c _ _ epoch c₁ pkt written c' (Sample.client_reachable hc) sends
  have hwrong : wrong pkt = true := by
    cases epoch with
    | initial => exact hsents.1 pkt sends.sent
    | handshake => exact hsents.2.1 pkt sends.sent
    | application => exact hsents.2.2 pkt sends.sent
  simp only [wrong, Bool.and_eq_true, Bool.not_eq_true', List.any_eq_false] at hwrong
  obtain ⟨f, hf, helicits⟩ := hagrees.ackEliciting.mp hwrong.1
  exact hwrong.2 f hf helicits

theorem agrees_writing : ∃ c epoch c₁ pkt written c', writing = some c ∧
    c.Sends 1400 (Sample.sendEnv 1) epoch c₁ pkt written c' ∧ pkt.Agrees written := by
  let plain (c : Connection) : Bool :=
    c.error.isNone && c.appError.isNone && !c.isServer &&
      (send 1400 (Sample.sendEnv 1)).returnsWith c fun _ _ => true
  have hrun : writing.any plain = true := by decide +kernel
  obtain ⟨c, hc, hplain⟩ := (Option.any_eq_true _ _).mp hrun
  simp only [plain, Bool.and_eq_true, Bool.not_eq_true', Option.isNone_iff_eq_none] at hplain
  obtain ⟨⟨⟨herror, happ⟩, hserver⟩, hok⟩ := hplain
  obtain ⟨written, c', hsend, -⟩ := Lib.Program.returnsWith_iff.mp hok
  obtain ⟨epoch, c₁, pkt, sends⟩ := exists_sends hsend
  obtain ⟨c₀, pnLen, hprep⟩ := sends.prepares
  have same := hprep.sameTask
  refine ⟨c, epoch, c₁, pkt, written, c', hc, sends, sends.agrees (.inr ⟨?_, fun _ => ⟨?_, ?_⟩⟩)⟩
  · exact same.error.trans herror
  · exact same.appError.trans happ
  · simp [handshakeDoneDue, same.isServer, hserver]

end Connection

end Dtp
