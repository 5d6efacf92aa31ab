import Dtp.Calls
import Dtp.Endpoint

/-!
# Injected junk

Anybody can send bytes to an endpoint. Packets that cannot be authenticated are ignored once a
packet was processed, but only at the check of the tag. What comes before it still closes the
connection, or takes over the connection ID of a packet that is not authentic.

## Main definitions

* `Endpoint.Junk` — nothing in a datagram is decrypted, and no packet may restart the handshake
* `Endpoint.Undisturbed` — a datagram leaves the endpoint as it is
* `Endpoint.verdict` — what becomes of a packet that is not decrypted
* `Endpoint.Tolerates` — no packet in a datagram has an effect

## Main results

* `Endpoint.openPacket_ends` — a packet that is not decrypted is tolerated, or leaves a trace
* `Endpoint.undisturbed_iff` — junk leaves no trace if and only if it is tolerated
-/

namespace Dtp

open Lib (Program)
open Octets

namespace Endpoint

/-! ### Junk -/

section Defs

variable (env : Env)

/-- The packet is a valid Retry, or a Version Negotiation with both connection IDs. -/
def Restarts (e : Endpoint) (rest : List UInt8) : Prop :=
  ∃ hdr b, Header.fromBytes e.scid.length ⟨[], rest⟩ = .ok hdr b ∧
    (hdr.ty = .versionNegotiation ∧ hdr.dcid = e.scid ∧ hdr.scid = e.dcid ∨
      hdr.ty = .retry ∧ env.verifyRetryIntegrity b e.dcid = true)

/-- None of the packets that the loop comes to is decrypted or restarts the handshake. -/
def Junk : ℕ → List UInt8 → Endpoint → Prop
  | 0, _, _ => True
  | fuel + 1, rest, e =>
    ¬ e.Restarts env rest ∧
      match openPacket rest env e with
      | .ok (.ignored len) e' => Junk fuel (rest.drop len) e'
      | .ok (.decrypted ..) _ => False
      | .error _ _ => True

/-- A datagram leaves everything as it is, but for the credit that its bytes give. -/
def Undisturbed (handle : Header → ℕ → List UInt8 → Program Error Endpoint Unit)
    (datagram : List UInt8) (e : Endpoint) :
    Prop :=
  (recv handle env datagram).Ends e
    (fun _ e' => ∃ n, e' = { e with conn := { e.conn with maxSendBytes := n } })
    fun fault e' => (∃ err, fault = .error err) ∧ e' = e

end Defs

/-- What becomes of a packet that is not decrypted. -/
inductive Verdict
  /-- It closes the connection, or changes its state. -/
  | disturbs
  /-- It and what follows it are ignored. -/
  | ends
  /-- It is left out, and the next packet is so many bytes behind its start. -/
  | skips (len : ℕ)
  deriving DecidableEq

/-- The version and the IDs are settled, and the packet has that version. -/
def settled (e : Endpoint) (hdr : Header) : Bool :=
  (!e.conn.isServer || e.conn.didVersionNegotiation) && (e.conn.isServer || e.gotPeerConnId) &&
    e.conn.derivedInitialSecrets && (hdr.ty == .short || hdr.version == e.conn.version)

/-- A packet with a header is not tolerated if its version is another one, if its length is missing
or goes beyond the datagram, if it comes before the IDs are settled, or if it can't have been
encrypted because it is too short. -/
def bodyVerdict (e : Endpoint) (hdr : Header) (b : Octets) : Verdict :=
  if !e.settled hdr then .disturbs
  else
    match getPayloadLen hdr b with
    | .error _ _ => .disturbs
    | .ok payloadLen b =>
      if cap b < payloadLen then .disturbs
      else
        match hdr.ty.toEpoch with
        | none => .disturbs
        | some epoch =>
          if (e.aead hdr.ty epoch).isNone then .skips (b.before.length + payloadLen)
          else if cap b < maxPktNumLen + sampleLen then .disturbs
          else .ends

/-- What becomes of a datagram. -/
def verdict (e : Endpoint) (rest : List UInt8) : Verdict :=
  match Header.fromBytes e.scid.length ⟨[], rest⟩ with
  | .error _ _ => .disturbs
  | .ok hdr b =>
    if hdr.ty = .versionNegotiation ∨ hdr.ty = .retry then .ends
    else if hdr.ty = .short ∧ !e.conn.isEstablished then .skips b.len
    else e.bodyVerdict hdr b

/-- No packet that the loop comes to has an effect. -/
def Tolerates (e : Endpoint) : ℕ → List UInt8 → Prop
  | 0, _ => True
  | fuel + 1, rest => rest = [] ∨
    match e.verdict rest with
    | .disturbs => False
    | .ends => True
    | .skips len => Tolerates e fuel (rest.drop len)

/-! ### Traces -/

/-- What was settled stays settled. -/
structure Advances (e e' : Endpoint) : Prop where
  gotPeerConnId : e.gotPeerConnId = true → e'.gotPeerConnId = true
  version : e.conn.didVersionNegotiation = true → e'.conn.didVersionNegotiation = true
  secrets : e.conn.derivedInitialSecrets = true → e'.conn.derivedInitialSecrets = true
  recvCount : e'.conn.recvCount = e.conn.recvCount

instance : IsPreorder Endpoint Advances where
  refl _ := ⟨id, id, id, rfl⟩
  trans _ _ _ h h' :=
    ⟨h'.gotPeerConnId ∘ h.gotPeerConnId, h'.version ∘ h.version, h'.secrets ∘ h.secrets,
    h'.recvCount.trans h.recvCount⟩

/-- Something was settled. -/
def Moved (e e' : Endpoint) : Prop :=
  e.gotPeerConnId = false ∧ e'.gotPeerConnId = true ∨
    e.conn.didVersionNegotiation = false ∧ e'.conn.didVersionNegotiation = true ∨
    e.conn.derivedInitialSecrets = false ∧ e'.conn.derivedInitialSecrets = true

theorem Moved.advances {e e' e'' : Endpoint} (h : e.Moved e') (h' : e'.Advances e'') :
    e.Moved e'' := by
  rcases h with ⟨hold, hnew⟩ | ⟨hold, hnew⟩ | ⟨hold, hnew⟩
  · exact .inl ⟨hold, h'.gotPeerConnId hnew⟩
  · exact .inr (.inl ⟨hold, h'.version hnew⟩)
  · exact .inr (.inr ⟨hold, h'.secrets hnew⟩)

/-- The connection is neither closing nor draining. -/
def Alive (e : Endpoint) : Prop := e.conn.draining = false ∧ e.conn.error = none ∧
    e.conn.appError = none

/-! ### Decryption -/

variable {e e' : Endpoint} {env : Env} {hdr : Header} {b : Octets}

/-- Nothing changes if a packet is too short to be one, or if it is ignored because it is not
authentic. -/
theorem decrypt_ends (hcount : 0 < e.conn.recvCount) (epoch : Epoch) (payloadLen : ℕ)
    (aead : Crypto.OpenKey) :
    (decrypt hdr epoch payloadLen aead b).Ends e
    (fun o _ => ∃ hdr pn payload read, o = .decrypted hdr pn payload read)
      fun fault e' => e' = e ∧ (cap b < maxPktNumLen + sampleLen ∧ fault = .error .bufferTooShort ∨
        maxPktNumLen + sampleLen ≤ cap b ∧ fault = .error .done) := by
  unfold decrypt
  rw [Program.ends_bind]
  apply ends_onBytes
  apply (decryptHdr_ends aead.toOpen hdr b).mono
  · rintro hdr' b' ⟨hroom, -⟩
    dsimp only
    rw [Program.ends_bind, Program.ends_get]
    have hends := decryptPkt_ends aead
      (decodePktNum (e.conn.pktNumSpaces epoch).largestRxPktNum hdr'.pktNum hdr'.pktNumLen)
        hdr'.pktNumLen payloadLen b'
    split
    · exact ⟨_, _, _, _, rfl⟩
    · rw [if_neg hcount.ne', Program.ends_fail]
      exact ⟨rfl, .inr ⟨hroom, rfl⟩⟩
    · rename_i hnot heq
      obtain ⟨err, rfl⟩ := hends.error heq
      exact (hnot err rfl).elim
  · rintro fault b' ⟨hshort, rfl⟩
    exact ⟨_, rfl, rfl, .inl ⟨hshort, rfl⟩⟩

/-! ### What comes before decryption -/

theorem acceptVersion_ends (hdr : Header) (e : Endpoint) : (acceptVersion hdr).Ends e
    (fun _ e' => (hdr.ty = .short ∨ hdr.version = e'.conn.version) ∧ e.Advances e' ∧
      if !e.conn.isServer || e.conn.didVersionNegotiation then e' = e else e.Moved e')
    fun fault e' => fault = .error .unknownVersion ∧ e' = e := by
  unfold acceptVersion modifyConn
  rw [Program.ends_bind, Program.ends_get]
  dsimp only
  rw [Program.ends_ite]
  refine ⟨fun _ => ⟨rfl, rfl⟩, fun _ => ?_⟩
  rw [Program.ends_bind, Program.ends_when]
  refine ⟨fun hnegotiates => ?_, fun hknown => ?_⟩
  · rw [Bool.and_eq_true, Bool.not_eq_true'] at hnegotiates
    rw [Program.ends_modify, Program.ends_bind, Program.ends_get]
    dsimp only
    rw [if_neg (fun hother => hother.2 rfl)]
    have hopen : ¬ (!e.conn.isServer || e.conn.didVersionNegotiation) = true := by
      rw [hnegotiates.1, hnegotiates.2]
      decide
    refine ⟨.inr rfl, ⟨id, fun _ => rfl, id, rfl⟩, ?_⟩
    rw [if_neg hopen]
    exact .inr (.inl ⟨hnegotiates.2, rfl⟩)
  · rw [Program.ends_bind, Program.ends_get, Program.ends_ite]
    refine ⟨fun _ => ⟨rfl, rfl⟩, fun hversion => ?_⟩
    rw [not_and_or, not_not, not_not] at hversion
    refine ⟨hversion, refl_of Advances e, ?_⟩
    rw [if_pos]
    revert hknown
    cases e.conn.isServer <;> cases e.conn.didVersionNegotiation <;> simp

/-- A packet of the version that was settled is not refused. -/
theorem acceptVersion_settled (h : e.settled hdr = true) :
    (acceptVersion hdr).Ends e (fun _ e' => e' = e) fun _ _ => False := by
  unfold settled at h
  rw [Bool.and_eq_true, Bool.and_eq_true, Bool.and_eq_true] at h
  obtain ⟨⟨⟨hversion, -⟩, -⟩, hsame⟩ := h
  have hknown : (e.conn.isServer && !e.conn.didVersionNegotiation) = false := by
    revert hversion
    cases e.conn.isServer <;> cases e.conn.didVersionNegotiation <;> simp
  unfold acceptVersion
  rw [Program.ends_bind, Program.ends_get]
  dsimp only
  rw [hknown, Bool.false_and, if_neg Bool.false_ne_true, Program.ends_bind, Program.ends_when]
  refine ⟨fun h => absurd h Bool.false_ne_true, fun _ => ?_⟩
  rw [Program.ends_bind, Program.ends_get, if_neg]
  · rfl
  · rintro ⟨hty, hother⟩
    rw [Bool.or_eq_true, beq_iff_eq, beq_iff_eq] at hsame
    exact hsame.elim hty hother

theorem acceptPeerConnId_ends (hdr : Header) (e : Endpoint) : (acceptPeerConnId hdr).Ends e
    (fun _ e' => e.Advances e' ∧ if e.conn.isServer || e.gotPeerConnId then e' = e else e.Moved e')
    fun _ _ => False := by
  unfold acceptPeerConnId
  rw [Program.ends_modify]
  by_cases hfirst : (!e.conn.isServer && !e.gotPeerConnId) = true
  · rw [if_pos hfirst]
    rw [Bool.and_eq_true, Bool.not_eq_true', Bool.not_eq_true'] at hfirst
    have hopen : ¬ (e.conn.isServer || e.gotPeerConnId) = true := by
      rw [hfirst.1, hfirst.2]
      decide
    refine ⟨⟨fun _ => rfl, id, id, rfl⟩, ?_⟩
    rw [if_neg hopen]
    exact .inl ⟨hfirst.2, rfl⟩
  · rw [if_neg hfirst]
    refine ⟨refl_of Advances e, ?_⟩
    rw [if_pos]
    revert hfirst
    cases e.conn.isServer <;> cases e.gotPeerConnId <;> simp

theorem deriveSecrets_ends (hdr : Header) (env : Env) (e : Endpoint) :
    (deriveSecrets hdr env).Ends e
    (fun _ e' => e.Advances e' ∧ if e.conn.derivedInitialSecrets then e' = e else e.Moved e')
    fun fault e' => fault = .error .cryptoFail ∧ e' = e ∧ e.conn.derivedInitialSecrets = false := by
  unfold deriveSecrets
  rw [Program.ends_bind, Program.ends_get, Program.ends_when]
  refine ⟨fun hfirst => ?_, fun hknown => ?_⟩
  · rw [Bool.not_eq_true'] at hfirst
    unfold deriveInitial modifyConn
    rw [Program.ends_bind, Program.ends_bind, Program.ends_get]
    cases env.deriveInitialKeyMaterial hdr.dcid e.conn.isServer with
    | none => exact ⟨rfl, rfl, hfirst⟩
    | some keys =>
      refine ⟨⟨fun _ => rfl, id, fun _ => rfl, rfl⟩, ?_⟩
      rw [if_neg (by rw [hfirst]; decide)]
      exact .inr (.inr ⟨hfirst, rfl⟩)
  · rw [Bool.not_eq_true', Bool.not_eq_false] at hknown
    refine ⟨refl_of Advances e, ?_⟩
    rw [if_pos hknown]

private theorem getPayloadLen_neverDone (hdr : Header) : NeverDone (getPayloadLen hdr) :=
  .ite (fun _ => neverDone_get.map _) fun _ => neverDone_getVarint

theorem getPayloadLen_fails {fault : Lib.Fault Error} {b' : Octets}
    (h : getPayloadLen hdr b = .error fault b') :
    ∃ err, fault = .error err ∧ err ≠ .done := by
  obtain ⟨⟨err, rfl⟩, -⟩ := (getPayloadLen_parses hdr b le_rfl).error h
  refine ⟨err, rfl, ?_⟩
  rintro rfl
  exact (getPayloadLen_neverDone hdr b trivial).error h rfl

/-- What a packet that is not decrypted may do, if the loop goes on behind it. -/
def Passed (e : Endpoint) (v : Verdict) (o : Opened) (e' : Endpoint) : Prop :=
  (∃ hdr pn payload read, o = .decrypted hdr pn payload read) ∨
    ∃ len, o = .ignored len ∧ (v = .skips len ∧ e' = e ∨ v = .disturbs ∧ e.Moved e')

/-- What a packet that is not decrypted may do, if the loop ends with it. -/
def Failed (e : Endpoint) (v : Verdict) (fault : Lib.Fault Error) (e' : Endpoint) : Prop :=
  ∃ err, fault = .error err ∧
    (v = .ends ∧ err = .done ∧ e' = e ∨ v = .disturbs ∧ (e.Moved e' ∨ e' = e ∧ err ≠ .done))

private theorem openBody_settled (hcount : 0 < e.conn.recvCount) (hsettled : e.settled hdr = true) :
    (openBody hdr b env).Ends e (e.Passed (e.bodyVerdict hdr b))
    (e.Failed (e.bodyVerdict hdr b)) := by
  have hflags := hsettled
  unfold settled at hflags
  rw [Bool.and_eq_true, Bool.and_eq_true, Bool.and_eq_true] at hflags
  obtain ⟨⟨⟨hversion, hid⟩, hsecrets⟩, hsame⟩ := hflags
  unfold openBody bodyVerdict
  rw [hsettled, Bool.not_true, if_neg Bool.false_ne_true, Program.ends_bind]
  apply (acceptVersion_settled hsettled).mono
  · rintro _ e₁ rfl
    rw [Program.ends_bind]
    unfold Program.Ends onBytes
    cases hlen : getPayloadLen hdr b with
    | error fault b' =>
      -- the length of a long header is cut off
      obtain ⟨err, rfl, hne⟩ := getPayloadLen_fails hlen
      exact ⟨err, rfl, .inr ⟨rfl, .inr ⟨rfl, hne⟩⟩⟩
    | ok payloadLen b' =>
      change (ite (cap b' < payloadLen) _ _ : Program Error Endpoint Opened).Ends e₁ _ _
      rw [Program.ends_ite]
      refine ⟨fun hshort => ?_, fun hfits => ?_⟩
      · dsimp only
        rw [if_pos hshort]
        exact ⟨_, rfl, .inr ⟨rfl, .inr ⟨rfl, by decide⟩⟩⟩
      · dsimp only
        rw [if_neg hfits, Program.ends_bind]
        apply (acceptPeerConnId_ends hdr e₁).mono
        · rintro _ e₂ ⟨-, hstep⟩
          -- neither the id nor the keys of a settled endpoint change
          rw [if_pos hid] at hstep
          subst e₂
          rw [Program.ends_bind]
          apply (deriveSecrets_ends hdr env e₁).mono
          · rintro _ e₂ ⟨-, hstep⟩
            rw [if_pos hsecrets] at hstep
            subst e₂
            cases hdr.ty.toEpoch with
            | none => exact ⟨_, rfl, .inr ⟨rfl, .inr ⟨rfl, by decide⟩⟩⟩
            | some epoch =>
              dsimp only
              rw [Program.ends_bind, Program.ends_get]
              cases e₁.aead hdr.ty epoch with
              | none => exact .inr ⟨_, rfl, .inl ⟨rfl, rfl⟩⟩
              | some aead =>
                rw [Option.isNone_some, if_neg Bool.false_ne_true]
                apply (decrypt_ends hcount epoch payloadLen aead).mono
                · rintro o e₂ hopened
                  exact .inl hopened
                · -- a packet that is too short to sample, or is not authentic
                  rintro fault e₂ ⟨rfl, ⟨hshort, rfl⟩ | ⟨hroom, rfl⟩⟩
                  · rw [if_pos hshort]
                    exact ⟨_, rfl, .inr ⟨rfl, .inr ⟨rfl, by decide⟩⟩⟩
                  · rw [if_neg (not_lt.mpr hroom)]
                    exact ⟨_, rfl, .inl ⟨rfl, rfl, rfl⟩⟩
          · rintro fault e₂ ⟨-, -, hnone⟩
            rw [hsecrets] at hnone
            exact (Bool.noConfusion hnone)
        · exact fun _ _ => False.elim
  · exact fun _ _ => False.elim

/-- The first of a version, a connection ID and secrets is taken from the packet, whoever sent it.
-/
theorem openBody_unsettled (hcount : 0 < e.conn.recvCount) (hsettled : e.settled hdr = false) :
    (openBody hdr b env).Ends e (e.Passed (e.bodyVerdict hdr b))
    (e.Failed (e.bodyVerdict hdr b)) := by
  have hverdict : e.bodyVerdict hdr b = .disturbs := by
    unfold bodyVerdict
    rw [hsettled, Bool.not_false, if_pos rfl]
  rw [hverdict]
  unfold openBody
  rw [Program.ends_bind]
  -- Each of the three steps either changes the endpoint or shows one more reason to be settled.
  apply (acceptVersion_ends hdr e).mono
  · rintro _ e₁ ⟨hsame, hadvances₁, hstep₁⟩
    have hversion : e.Moved e₁ ∨ e₁ = e ∧
      (!e.conn.isServer || e.conn.didVersionNegotiation) = true ∧
        (hdr.ty = .short ∨ hdr.version = e.conn.version) := by
      split_ifs at hstep₁ with hflag
      · rw [hstep₁] at hsame
        exact .inr ⟨hstep₁, hflag, hsame⟩
      · exact .inl hstep₁
    have hfailed : ∀ err, err ≠ Error.done → e.Failed .disturbs (.error err) e₁ := fun err hne =>
      ⟨err, rfl, .inr ⟨rfl, hversion.imp id fun h => ⟨h.1, hne⟩⟩⟩
    rw [Program.ends_bind]
    unfold Program.Ends onBytes
    cases hlen : getPayloadLen hdr b with
    | error fault b' =>
      obtain ⟨err, rfl, hne⟩ := getPayloadLen_fails hlen
      exact hfailed err hne
    | ok payloadLen b' =>
      change (ite (cap b' < payloadLen) _ _ : Program Error Endpoint Opened).Ends e₁ _ _
      rw [Program.ends_ite]
      refine ⟨fun _ => hfailed .bufferTooShort (by decide), fun _ => ?_⟩
      dsimp only
      rw [Program.ends_bind]
      apply (acceptPeerConnId_ends hdr e₁).mono
      · rintro _ e₂ ⟨hadvances₂, hstep₂⟩
        have hid : e.Moved e₂ ∨ e₂ = e ∧
          ((!e.conn.isServer || e.conn.didVersionNegotiation) = true ∧
            (hdr.ty = .short ∨ hdr.version = e.conn.version)) ∧
                (e.conn.isServer || e.gotPeerConnId) = true := by
          rcases hversion with hmoved | ⟨rfl, hversion⟩
          · exact .inl (hmoved.advances hadvances₂)
          · split_ifs at hstep₂ with hflag
            · exact .inr ⟨hstep₂, hversion, hflag⟩
            · exact .inl hstep₂
        rw [Program.ends_bind]
        apply (deriveSecrets_ends hdr env e₂).mono
        · rintro _ e₃ ⟨hadvances₃, hstep₃⟩
          have hmoved : e.Moved e₃ := by
            rcases hid with hmoved | ⟨rfl, ⟨hversion, hsame⟩, hid⟩
            · exact hmoved.advances hadvances₃
            · split_ifs at hstep₃ with hflag
              · -- no step has changed the endpoint, so it was settled
                refine absurd hsettled (ne_of_eq_of_ne ?_ Bool.false_ne_true.symm)
                unfold settled
                rw [hversion, hid, hflag, Bool.true_and, Bool.true_and, Bool.true_and,
                  Bool.or_eq_true, beq_iff_eq,
                  beq_iff_eq]
                exact hsame
              · exact hstep₃
          have hcount₃ : 0 < e₃.conn.recvCount := by
            rw [hadvances₃.recvCount, hadvances₂.recvCount, hadvances₁.recvCount]
            exact hcount
          cases hdr.ty.toEpoch with
          | none => exact ⟨_, rfl, .inr ⟨rfl, .inl hmoved⟩⟩
          | some epoch =>
            dsimp only
            rw [Program.ends_bind, Program.ends_get]
            cases e₃.aead hdr.ty epoch with
            | none => exact .inr ⟨_, rfl, .inr ⟨rfl, hmoved⟩⟩
            | some aead =>
              dsimp only
              apply (decrypt_ends hcount₃ epoch payloadLen aead).mono
              · exact fun o e₄ hopened => .inl hopened
              · rintro fault e₄ ⟨rfl, ⟨-, rfl⟩ | ⟨-, rfl⟩⟩
                · exact ⟨_, rfl, .inr ⟨rfl, .inl hmoved⟩⟩
                · exact ⟨_, rfl, .inr ⟨rfl, .inl hmoved⟩⟩
        · rintro fault e₃ ⟨rfl, rfl, -⟩
          exact ⟨_, rfl, .inr ⟨rfl, hid.imp id fun h => ⟨h.1, by decide⟩⟩⟩
      · exact fun _ _ => False.elim
  · rintro fault e₁ ⟨rfl, rfl⟩
    exact ⟨_, rfl, .inr ⟨rfl, .inr ⟨rfl, by decide⟩⟩⟩

private theorem openBody_ends (hcount : 0 < e.conn.recvCount) :
    (openBody hdr b env).Ends e (e.Passed (e.bodyVerdict hdr b))
    (e.Failed (e.bodyVerdict hdr b)) := by
  cases hsettled : e.settled hdr with
  | false => exact openBody_unsettled hcount hsettled
  | true => exact openBody_settled hcount hsettled

private theorem openBody_advances (hdr : Header) (b : Octets) (env : Env) (e : Endpoint) :
    (openBody hdr b env).Keeps Advances e := by
  have hbytes {α : Type} (x : Program Error Octets α) (b : Octets)
      (e : Endpoint) : (onBytes x b).Keeps Advances e := by
    unfold onBytes
    split
    · exact refl_of Advances e
    · exact Program.keeps_fail.mpr (refl_of Advances e)
    · exact Program.keeps_crash
  unfold openBody
  apply Program.Keeps.bind
  · apply Program.Keeps.of_ends (acceptVersion_ends hdr e)
    · exact fun _ _ h => h.2.1
    · rintro _ _ ⟨-, rfl⟩
      exact refl_of Advances _
  rintro _ e₁ -
  apply (hbytes _ b e₁).bind
  rintro ⟨payloadLen, b'⟩ e₂ -
  apply Program.Keeps.ite
  · exact fun _ => Program.keeps_fail.mpr (refl_of Advances e₂)
  intro _
  apply Program.Keeps.bind
  · exact Program.Keeps.of_ends (acceptPeerConnId_ends hdr e₂) (fun _ _ h => h.1) fun _ _ =>
      False.elim
  rintro _ e₃ -
  apply Program.Keeps.bind
  · apply Program.Keeps.of_ends (deriveSecrets_ends hdr env e₃)
    · exact fun _ _ h => h.1
    · rintro _ _ ⟨-, rfl, -⟩
      exact refl_of Advances _
  rintro _ e₄ -
  cases hdr.ty.toEpoch with
  | none => exact Program.keeps_fail.mpr (refl_of Advances e₄)
  | some epoch =>
    apply Program.keeps_get_bind.mpr
    cases e₄.aead hdr.ty epoch with
    | none => exact refl_of Advances e₄
    | some aead =>
      apply (hbytes _ b' e₄).bind
      rintro ⟨hdr', b''⟩ e₅ -
      apply Program.keeps_get_bind.mpr
      dsimp only
      split
      · exact refl_of Advances e₅
      · exact Program.keeps_fail.mpr (refl_of Advances e₅)
      · exact Program.keeps_crash

/-! ### A packet -/

variable {rest : List UInt8}

/-- Version Negotiation and Retry packets that restart nothing are ignored. -/
theorem openPacket_ends (halive : e.Alive) (hcount : 0 < e.conn.recvCount) (hrest : rest ≠ [])
    (hold : ¬ e.Restarts env rest) :
    (openPacket rest env).Ends e (e.Passed (e.verdict rest)) (e.Failed (e.verdict rest)) := by
  obtain ⟨hdraining, herror, happ⟩ := halive
  have hlive : ¬ (e.conn.draining || e.conn.isClosing) = true := by
    unfold Connection.isClosing
    rw [hdraining, herror, happ]
    decide
  unfold openPacket
  rw [Program.ends_bind, Program.ends_get, if_neg (by rwa [List.isEmpty_iff]), if_neg hlive,
    Program.ends_bind]
  unfold Program.Ends onBytes verdict
  cases hheader : Header.fromBytes e.scid.length ⟨[], rest⟩ with
  | error fault b =>
    obtain ⟨⟨err, rfl⟩, -⟩ :=
      ((Header.fromBytes_parses e.scid.length) ⟨[], rest⟩ le_rfl).error hheader
    have hne : err ≠ .done := by
      rintro rfl
      exact ((Header.fromBytes_neverDone e.scid.length) ⟨[], rest⟩ trivial).error hheader rfl
    exact ⟨err, rfl, .inr ⟨rfl, .inr ⟨rfl, hne⟩⟩⟩
  | ok hdr b =>
    have hignored : e.Failed .ends (.error .done) e := ⟨_, rfl, .inl ⟨rfl, rfl, rfl⟩⟩
    change (ite (hdr.ty = .versionNegotiation) _ _ : Program Error Endpoint Opened).Ends e _ _
    dsimp only
    rw [Program.ends_ite]
    refine ⟨fun hty => ?_, fun hnegotiation => ?_⟩
    · -- a Version Negotiation packet is ignored unless it names the ids of this connection
      rw [if_pos (.inl hty)]
      unfold recvVersionNegotiation
      rw [Program.ends_bind, Program.ends_get, Program.ends_ite]
      refine ⟨fun _ => hignored, fun _ => ?_⟩
      rw [Program.ends_ite]
      refine ⟨fun _ => hignored, fun hdcid => ?_⟩
      rw [Program.ends_ite]
      refine ⟨fun _ => hignored, fun hscid => ?_⟩
      rw [not_not] at hdcid hscid
      exact absurd ⟨hdr, b, hheader, .inl ⟨hty, hdcid, hscid⟩⟩ hold
    rw [Program.ends_ite]
    refine ⟨fun hty => ?_, fun hretry => ?_⟩
    · -- a Retry packet is ignored unless its tag is right
      rw [if_pos (.inr hty)]
      unfold recvRetry
      rw [Program.ends_bind, Program.ends_get, Program.ends_ite]
      refine ⟨fun _ => hignored, fun _ => ?_⟩
      rw [Program.ends_ite]
      refine ⟨fun _ => hignored, fun hvalid => ?_⟩
      rw [Bool.not_eq_true', Bool.not_eq_false] at hvalid
      exact absurd ⟨hdr, b, hheader, .inr ⟨hty, hvalid⟩⟩ hold
    rw [if_neg (not_or.mpr ⟨hnegotiation, hretry⟩), Program.ends_ite]
    refine ⟨fun hearly => ?_, fun hready => ?_⟩
    · rw [if_pos hearly]
      exact .inr ⟨_, rfl, .inl ⟨rfl, rfl⟩⟩
    · rw [if_neg hready]
      exact openBody_ends hcount

private theorem openPacket_advances (hold : ¬ e.Restarts env rest) :
    (openPacket rest env).Keeps Advances e := by
  have hfail {err : Error} : (Program.fail err : Program Error Endpoint Opened).Keeps Advances e :=
    Program.keeps_fail.mpr (refl_of Advances e)
  unfold openPacket
  apply Program.keeps_get_bind.mpr
  apply Program.Keeps.ite (fun _ => hfail)
  intro _
  apply Program.Keeps.ite (fun _ => hfail)
  intro _
  unfold onBytes
  cases hheader : Header.fromBytes e.scid.length ⟨[], rest⟩ with
  | error fault b =>
    obtain ⟨⟨err, rfl⟩, -⟩ :=
      ((Header.fromBytes_parses e.scid.length) ⟨[], rest⟩ le_rfl).error hheader
    exact hfail
  | ok hdr b =>
    change (ite (hdr.ty = .versionNegotiation) _ _ : Program Error Endpoint Opened).Keeps Advances e
    apply Program.Keeps.ite
    · intro hty
      apply Program.keeps_get_bind.mpr
      apply Program.Keeps.ite (fun _ => hfail)
      intro _
      apply Program.Keeps.ite (fun _ => hfail)
      intro hdcid
      apply Program.Keeps.ite (fun _ => hfail)
      intro hscid
      rw [not_not] at hdcid hscid
      exact absurd ⟨hdr, b, hheader, .inl ⟨hty, hdcid, hscid⟩⟩ hold
    intro _
    apply Program.Keeps.ite
    · intro hty
      apply Program.keeps_get_bind.mpr
      apply Program.Keeps.ite (fun _ => hfail)
      intro _
      apply Program.Keeps.ite (fun _ => hfail)
      intro hvalid
      rw [Bool.not_eq_true', Bool.not_eq_false] at hvalid
      exact absurd ⟨hdr, b, hheader, .inr ⟨hty, hvalid⟩⟩ hold
    intro _
    apply Program.Keeps.ite
    · exact fun _ => refl_of Advances e
    · exact fun _ => openBody_advances hdr b env e

/-! ### A datagram -/

variable (handle : Header → ℕ → List UInt8 → Program Error Endpoint Unit)

/-- No packet of junk takes back what an earlier one has settled. -/
theorem recvLoop_moved {e₀ : Endpoint} {fuel done : ℕ} (hmoved : e₀.Moved e)
    (junk : Junk env fuel rest e) :
    (recvLoop handle env fuel done rest).Keeps (fun _ e' => e₀.Moved e') e := by
  induction fuel generalizing done rest e with
  | zero =>
    rintro ⟨err, heq⟩
    cases heq
  | succ fuel ih =>
    obtain ⟨hold, htail⟩ := junk
    unfold recvLoop
    split_ifs with hrest
    · exact hmoved
    have hadvances := openPacket_advances hold
    unfold recvSingle Program.Keeps Program.Ends at *
    rw [Program.bind_apply, Program.bind_apply]
    cases hopen : openPacket rest env e with
    | error fault e₁ =>
      rw [hopen] at hadvances
      exact fun herr => hmoved.advances (hadvances herr)
    | ok o e₁ =>
      rw [hopen] at hadvances htail
      cases o with
      | ignored len =>
        dsimp only [Program.pure_apply]
        split_ifs
        · rintro ⟨err, heq⟩
          cases heq
        · exact ih (hmoved.advances hadvances) htail
      | decrypted hdr pn payload read => exact htail.elim

theorem tolerates_succ {fuel : ℕ} (hrest : rest ≠ []) : Tolerates e (fuel + 1) rest ↔
    match e.verdict rest with
    | .disturbs => False
    | .ends => True
    | .skips len => Tolerates e fuel (rest.drop len) := or_iff_right hrest

/-- The loop gets through what is tolerated without an effect, and leaves a trace of what is not. -/
theorem recvLoop_ends {fuel done : ℕ} (halive : e.Alive) (hcount : 0 < e.conn.recvCount)
    (hfuel : rest.length < fuel)
    (junk : Junk env fuel rest e) : (recvLoop handle env fuel done rest).Ends e
      (fun _ e' => Tolerates e fuel rest ∧ e' = e ∨ ¬ Tolerates e fuel rest ∧ e.Moved e')
      fun fault e' => Tolerates e fuel rest ∧ fault = .error .done ∧ e' = e ∨
        ¬ Tolerates e fuel rest ∧ ∀ err, fault = .error err → e.Moved e' ∨ e' = e ∧
            err ≠ .done := by
  induction fuel generalizing done rest with
  | zero => omega
  | succ fuel ih =>
    obtain ⟨hold, htail⟩ := junk
    unfold recvLoop
    rw [Program.ends_ite]
    refine ⟨fun hempty => .inl ⟨.inl (List.isEmpty_iff.mp hempty), rfl⟩, fun hempty => ?_⟩
    have hrest : rest ≠ [] := fun heq => hempty (List.isEmpty_iff.mpr heq)
    have hends := (openPacket_ends halive hcount hrest hold).and (openPacket_read rest env e)
    have htolerates := @tolerates_succ e _ fuel hrest
    rw [Program.ends_bind]
    unfold recvSingle
    rw [Program.ends_bind]
    unfold Program.Ends at *
    cases hopen : openPacket rest env e with
    | error fault e₁ =>
      rw [hopen] at hends
      -- the packet ends the datagram
      obtain ⟨⟨err, rfl, ⟨hverdict, rfl, rfl⟩ | ⟨hverdict, hstep⟩⟩, -⟩ := hends
      · rw [hverdict] at htolerates
        exact .inl ⟨htolerates.mpr trivial, rfl, rfl⟩
      · rw [hverdict] at htolerates
        refine .inr ⟨htolerates.mp, ?_⟩
        rintro _ ⟨⟩
        exact hstep
    | ok o e₁ =>
      rw [hopen] at hends htail
      -- the packet is skipped, and the next one is looked at
      obtain ⟨⟨hdr, pn, payload, read, rfl⟩ | ⟨len, rfl, ⟨hverdict, rfl⟩ | ⟨hverdict, hmoved⟩⟩,
        hpos, hle⟩ := hends
      · exact htail.elim
      · rw [hverdict] at htolerates
        change 1 ≤ len at hpos
        change len ≤ rest.length at hle
        have hdrop : (rest.drop len).length < fuel := by
          have hlen : (rest.drop len).length = rest.length - len := List.length_drop
          omega
        have htail' := @ih _ (done + len) hdrop htail
        dsimp only [Program.pure_apply]
        rw [if_neg (not_lt.mpr hle), htolerates]
        exact htail'
      · rw [hverdict] at htolerates
        have hkeeps := @recvLoop_moved _ _ _ handle _ _ (done + len) hmoved htail
        change len ≤ rest.length at hle
        dsimp only [Program.pure_apply]
        rw [if_neg (not_lt.mpr hle)]
        apply Program.Ends.mono hkeeps
        · exact fun _ e₂ hmoved => .inr ⟨htolerates.mp, hmoved⟩
        · exact fun fault e₂ hmoved => .inr ⟨htolerates.mp, fun err heq => .inl (hmoved ⟨err, heq⟩)⟩

/-! ### What comes behind the loop -/

theorem not_moved (n : ℕ) : ¬ e.Moved { e with conn := { e.conn with maxSendBytes := n } } := by
  rintro (⟨hold, hnew⟩ | ⟨hold, hnew⟩ | ⟨hold, hnew⟩)
  · exact Bool.false_ne_true (hold.symm.trans hnew)
  · exact Bool.false_ne_true (hold.symm.trans hnew)
  · exact Bool.false_ne_true (hold.symm.trans hnew)

/-- The bytes of a datagram give credit until the address is verified. -/
def credited (len : ℕ) (e : Endpoint) : Endpoint :=
  { e with conn :=
      if e.conn.verifiedPeerAddress then e.conn
      else { e.conn with maxSendBytes := e.conn.maxSendBytes + len * 3 } }

theorem exists_credited (len : ℕ) (e : Endpoint) :
    ∃ n, e.credited len = { e with conn := { e.conn with maxSendBytes := n } } := by
  unfold credited
  split_ifs
  · exact ⟨_, rfl⟩
  · exact ⟨_, rfl⟩

private theorem credited_advances (len : ℕ) (e : Endpoint) : e.Advances (e.credited len) := by
  obtain ⟨n, heq⟩ := exists_credited len e
  rw [heq]
  exact ⟨id, id, id, rfl⟩

private theorem closeOn_advances (fault : Lib.Fault Error) (e : Endpoint) :
    e.Advances (closeOn fault e) := by
  unfold closeOn
  cases fault with
  | error err =>
    dsimp only
    split_ifs
    · exact refl_of Advances e
    · unfold Connection.close
      rw [if_neg Bool.false_ne_true]
      split_ifs
      · exact refl_of Advances e
      · exact refl_of Advances e
      · exact ⟨id, id, id, rfl⟩
  | panic => exact refl_of Advances e
  | underflow => exact refl_of Advances e
  | hang => exact refl_of Advances e

/-- An error closes a connection that is alive. -/
theorem closeOn_ne (halive : e.Alive) {err : Error} (hne : err ≠ .done) :
    closeOn (.error err) e ≠ e := by
  obtain ⟨hdraining, herror, happ⟩ := halive
  intro heq
  have hclosed : (closeOn (.error err) e).conn.error = some err.toWire := by
    unfold closeOn Connection.close
    dsimp only
    rw [if_neg hne, hdraining, herror, happ]
    rfl
  rw [heq, herror] at hclosed
  cases hclosed

/-- A connection that is closed does not look at packets. -/
theorem recvLoop_closed {fuel done : ℕ} (hclosed : (e.conn.draining || e.conn.isClosing) = true)
    (hfuel : rest.length < fuel) : (recvLoop handle env fuel done rest).Ends e (fun _ e' => e' = e)
      fun fault e' => fault = .error .done ∧ e' = e := by
  cases fuel with
  | zero => omega
  | succ fuel =>
    unfold recvLoop
    rw [Program.ends_ite]
    refine ⟨fun _ => rfl, fun hempty => ?_⟩
    unfold recvSingle openPacket
    rw [Program.ends_bind, Program.ends_bind, Program.ends_bind, Program.ends_get, if_neg hempty,
      if_pos hclosed]
    exact ⟨rfl, rfl⟩

/-- Junk leaves a connection as it is if and only if that is closed already, or tolerates every
packet. -/
theorem undisturbed_iff {datagram : List UInt8} (hcount : 0 < e.conn.recvCount)
    (junk : Junk env (datagram.length + 1) datagram e) : Undisturbed env handle datagram e ↔
      e.conn.draining = true ∨ e.conn.isClosing = true ∨
          Tolerates e (datagram.length + 1) datagram := by
  unfold Undisturbed recv modifyConn
  rw [Program.ends_bind, ends_closeOnError]
  have hfuel := Nat.lt_succ_self datagram.length
  by_cases hclosed : (e.conn.draining || e.conn.isClosing) = true
  · -- a closed connection reads nothing
    have hleft : e.conn.draining = true ∨ e.conn.isClosing = true ∨
        Tolerates e (datagram.length + 1) datagram := by
      rw [Bool.or_eq_true] at hclosed
      exact hclosed.imp_right .inl
    apply Program.Ends.iff_of
    apply (recvLoop_closed handle hclosed hfuel).mono
    · rintro done _ rfl
      rw [Program.ends_bind, Program.ends_modify, iff_true_right hleft]
      exact exists_credited datagram.length _
    · rintro fault _ ⟨rfl, rfl⟩
      rw [iff_true_right hleft]
      exact ⟨⟨_, rfl⟩, rfl⟩
  · -- an open one is as it was where each packet is tolerated, and has moved elsewhere
    have hopen := hclosed
    rw [Bool.or_eq_true, not_or] at hclosed
    have halive : e.Alive := by
      obtain ⟨hdraining, hclosing⟩ := hclosed
      unfold Connection.isClosing at hclosing
      rw [Bool.or_eq_true, not_or, Option.not_isSome_iff_eq_none,
        Option.not_isSome_iff_eq_none] at hclosing
      exact ⟨eq_false_of_ne_true hdraining, hclosing⟩
    rw [or_iff_right hclosed.1, or_iff_right hclosed.2]
    apply Program.Ends.iff_of
    apply (recvLoop_ends handle halive hcount hfuel junk).mono
    · rintro done e₁ (⟨htolerates, rfl⟩ | ⟨hnot, hmoved⟩)
      · rw [Program.ends_bind, Program.ends_modify, iff_true_right htolerates]
        exact exists_credited datagram.length _
      · rw [Program.ends_bind, Program.ends_modify, iff_false_right hnot]
        rintro ⟨n, heq⟩
        have hmoved' := hmoved.advances (credited_advances datagram.length e₁)
        unfold credited at hmoved'
        rw [heq] at hmoved'
        exact not_moved n hmoved'
    · rintro fault e₁ (⟨htolerates, rfl, rfl⟩ | ⟨hnot, hstep⟩)
      · rw [iff_true_right htolerates]
        exact ⟨⟨_, rfl⟩, rfl⟩
      · rw [iff_false_right hnot]
        rintro ⟨⟨err, rfl⟩, heq⟩
        rcases hstep err rfl with hmoved | ⟨rfl, hne⟩
        · have hmoved' := hmoved.advances (closeOn_advances (.error err) e₁)
          rw [heq] at hmoved'
          exact not_moved e.conn.maxSendBytes hmoved'
        · exact closeOn_ne halive hne heq

section Witness

/-- A client that has processed a packet. -/
def pinged : Option Connection := Sample.client (.basic {}) [Sample.recv 0 [.ping] 1]

/-- Keys that open nothing. -/
def deafKey : Crypto.OpenKey := ⟨⟨fun _ _ _ => none, fun _ _ => 0⟩, nofun⟩

/-- A connection with keys that open nothing. -/
def deaf (c : Connection) : Endpoint where
  conn := c
  scid := List.replicate 16 1
  dcid := List.replicate 16 2
  odcid := none
  token := none
  gotPeerConnId := true
  didRetry := false
  openKeys _ := deafKey
  sealKeys _ := ⟨fun _ _ _ => none, fun _ _ => 0⟩
  zeroRTTOpen := none

/-- An environment without keys. -/
def deafEnv : Env where
  deriveInitialKeyMaterial _ _ := none
  verifyRetryIntegrity _ _ := false
  clearHandshake := .ok ()
  now := 0

/-- A packet with a short header, and zeroes where its payload should be. -/
def zeroes : List UInt8 := 0x40 :: List.replicate 60 0

/-- A packet that only fails to decrypt is tolerated. -/
theorem undisturbed_zeroes : ∃ c, pinged = some c ∧ Undisturbed deafEnv
    (fun _ _ _ => pure ()) zeroes (deaf c) := by
  have hpinged : pinged.any
    (fun c => decide (0 < c.recvCount) && decide ((deaf c).verdict zeroes = .ends) &&
      match openPacket zeroes deafEnv (deaf c) with
      | .error _ _ => true
      | .ok _ _ => false) = true := by decide +kernel
  obtain ⟨c, hc, hchecks⟩ := (Option.any_eq_true _ _).mp hpinged
  rw [Bool.and_eq_true, Bool.and_eq_true, decide_eq_true_iff, decide_eq_true_iff] at hchecks
  obtain ⟨⟨hcount, hverdict⟩, hopen⟩ := hchecks
  have htolerates : Tolerates (deaf c) (zeroes.length + 1) zeroes := by
    have hne : zeroes ≠ [] := List.cons_ne_nil _ _
    rw [tolerates_succ hne, hverdict]
    trivial
  have junk : Junk deafEnv (zeroes.length + 1) zeroes (deaf c) := by
    refine ⟨?_, ?_⟩
    · rintro ⟨hdr, b, hheader, hty⟩
      have hshort : (match Header.fromBytes 16 ⟨[], zeroes⟩ with
          | .ok hdr _ => decide (hdr.ty = .short)
          | .error _ _ => false) = true := by decide +kernel
      change Header.fromBytes 16 ⟨[], zeroes⟩ = .ok hdr b at hheader
      rw [hheader, decide_eq_true_iff] at hshort
      rw [hshort] at hty
      rcases hty with ⟨hty, -⟩ | ⟨hty, -⟩
      · cases hty
      · cases hty
    · split at hopen
      · rename_i heq
        rw [heq]
        trivial
      · cases hopen
  exact ⟨c, hc, (undisturbed_iff _ hcount junk).mpr (.inr (.inr htolerates))⟩

/-- A single byte closes a connection. -/
theorem not_undisturbed : ¬ ∀ handle env (e : Endpoint) datagram, e.conn.Reachable →
    0 < e.conn.recvCount →
    Junk env (datagram.length + 1) datagram e → Undisturbed env handle datagram e := by
  intro hall
  have hpinged : pinged.any (fun c => decide (0 < c.recvCount) && (!c.draining && (c.error.isNone &&
      c.appError.isNone))) = true := by decide +kernel
  obtain ⟨c, hc, hchecks⟩ := (Option.any_eq_true _ _).mp hpinged
  rw [Bool.and_eq_true, Bool.and_eq_true, Bool.and_eq_true, decide_eq_true_iff, Bool.not_eq_true',
    Option.isNone_iff_eq_none, Option.isNone_iff_eq_none] at hchecks
  obtain ⟨hcount, halive⟩ := hchecks
  -- a short header without the connection id
  have hheader : Header.fromBytes 16 ⟨[], [0x40]⟩ = .error (.error .bufferTooShort) ⟨[0x40], []⟩ :=
    rfl
  have hlive : ¬ ((deaf c).conn.draining || (deaf c).conn.isClosing) = true := by
    change ¬ (c.draining || c.isClosing) = true
    unfold Connection.isClosing
    rw [halive.1, halive.2.1, halive.2.2]
    decide
  have hopen : openPacket [0x40] deafEnv (deaf c) = .error (.error .bufferTooShort) (deaf c) := by
    unfold openPacket
    rw [Program.bind_apply, Program.get_apply]
    dsimp only
    rw [if_neg (by decide), if_neg hlive]
    rfl
  have junk : Junk deafEnv ([0x40] : List UInt8).length.succ [0x40] (deaf c) := by
    refine ⟨?_, ?_⟩
    · rintro ⟨hdr, b, hok, -⟩
      change Header.fromBytes 16 ⟨[], [0x40]⟩ = .ok hdr b at hok
      rw [hheader] at hok
      cases hok
    · rw [hopen]
      trivial
  have hrecv : recv (fun _ _ _ => pure ()) deafEnv [0x40] (deaf c) =
      .error (.error .bufferTooShort) (closeOn (.error .bufferTooShort) (deaf c)) := by
    have hloop : recvLoop (fun _ _ _ => pure ()) deafEnv 2 0 [0x40] (deaf c) =
        .error (.error .bufferTooShort) (deaf c) := by
      unfold recvLoop recvSingle
      rw [if_neg (by decide), Program.bind_apply, Program.bind_apply, hopen]
    unfold recv
    rw [Program.bind_apply]
    unfold closeOnError
    rw [List.length_singleton, hloop]
  have hsame := hall (fun _ _ _ => pure ()) deafEnv (deaf c) [0x40]
    (Sample.client_reachable hc) hcount junk
  unfold Undisturbed Program.Ends at hsame
  rw [hrecv] at hsame
  exact closeOn_ne (e := deaf c) halive (by decide) hsame.2

end Witness

end Endpoint

end Dtp
