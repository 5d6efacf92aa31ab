import Mathlib.Data.List.Nodup
import Dtp.Lib.BigEndian
import Dtp.Numbering

/-!
# Packet numbers and nonces

A packet is sealed under a nonce: the initialization vector of the keys, with the number of the
packet added to its last bytes. No two packets may be sealed under the same nonce with the same
keys, or both could be read. The numbers of an epoch are used up one by one, and nothing that
happens to a connection gives one of them back; and a number is never so large that two of them
would make the same nonce.

## Main definitions

* `Crypto.makeNonce` — the nonce of a packet number
* `Connection.SealHistory` — a run with the nonces of the packets that it sealed

## Main results

* `Crypto.makeNonce_injective` — different numbers make different nonces
* `Connection.SealHistory.distinct` — no run seals two packets under the same nonce
-/

namespace Dtp

open Lib (Program run beBytes beValue_beBytes beBytes_length)

/-! ### The nonce of a number -/

namespace Crypto

/-- The length of a nonce. -/
def nonceLen : ℕ := 12

/-- The nonce of a packet number: the number flips the last eight bytes of the initialization
vector. A vector of another length makes the program panic. -/
def makeNonce (iv : List UInt8) (counter : ℕ) : Option (List UInt8) :=
  if iv.length = nonceLen then
    some (iv.take 4 ++ List.zipWith (· ^^^ ·) (iv.drop 4) (beBytes 8 counter))
  else none

/-- Bytes that are flipped can be flipped back. -/
theorem zipWith_xor_cancel {key xs ys : List UInt8} (hxs : xs.length = key.length)
    (hys : ys.length = key.length)
    (h : List.zipWith (· ^^^ ·) key xs = List.zipWith (· ^^^ ·) key ys) : xs = ys := by
  induction key generalizing xs ys with
  | nil =>
    rw [List.eq_nil_of_length_eq_zero hxs, List.eq_nil_of_length_eq_zero hys]
  | cons k key ih =>
    obtain ⟨x, xs, rfl⟩ := List.exists_cons_of_length_eq_add_one hxs
    obtain ⟨y, ys, rfl⟩ := List.exists_cons_of_length_eq_add_one hys
    rw [List.zipWith_cons_cons, List.zipWith_cons_cons, List.cons.injEq] at h
    obtain ⟨hhead, htail⟩ := h
    have heq : xs = ys := ih (Nat.succ.inj hxs) (Nat.succ.inj hys) htail
    have hxy : x = y := by
      calc x = k ^^^ (k ^^^ x) := by rw [← UInt8.xor_assoc, UInt8.xor_self, UInt8.zero_xor]
        _ = k ^^^ (k ^^^ y) := by rw [hhead]
        _ = y := by rw [← UInt8.xor_assoc, UInt8.xor_self, UInt8.zero_xor]
    rw [hxy, heq]

/-- Different numbers of 64 bits make different nonces. -/
theorem makeNonce_injective {iv nonce : List UInt8} {m n : ℕ} (hm : m < 2 ^ 64) (hn : n < 2 ^ 64)
    (hmake : makeNonce iv m = some nonce) (hmake' : makeNonce iv n = some nonce) : m = n := by
  unfold makeNonce at hmake hmake'
  split_ifs at hmake hmake' with hlen
  have hdrop : (iv.drop 4).length = 8 := by
    rw [List.length_drop, hlen]
    rfl
  have hflip := List.append_cancel_left (Option.some.inj (hmake.trans hmake'.symm))
  have hbytes : beBytes 8 m = beBytes 8 n := by
    apply zipWith_xor_cancel _ _ hflip
    · rw [beBytes_length, hdrop]
    · rw [beBytes_length, hdrop]
  calc m = Lib.beValue (beBytes 8 m) := (beValue_beBytes hm).symm
    _ = Lib.beValue (beBytes 8 n) := by rw [hbytes]
    _ = n := beValue_beBytes hn

end Crypto

namespace Connection

variable {outLen : ℕ} {env : SendEnv} {c c₁ c' : Connection} {epoch : Epoch} {written : ℕ}
  {pkt : Sent}

/-! ### Nonces -/

/-- What a call seals under the initialization vectors of the epochs: the packet that `send`
returns, if the call is that. -/
inductive Seals (iv : Epoch → List UInt8) (c : Connection) :
    List (Epoch × List UInt8) → Connection → Prop
  | packet {outLen : ℕ} {env : SendEnv} {epoch : Epoch} {c₁ c' : Connection} {pkt : Sent}
      {written : ℕ} {nonce : List UInt8} (sends : c.Sends outLen env epoch c₁ pkt written c')
      (make : Crypto.makeNonce (iv epoch) pkt.pktNum = some nonce) :
      Seals iv c [(epoch, nonce)] c'
  | nothing {call : Call} {c' : Connection} (step : call.step c = some c')
      (unsent : ∀ outLen env, call = .send outLen env →
        ∀ written, ¬ c.Returns outLen env written c') : Seals iv c [] c'

/-- A run of calls from some state, with the nonces of the packets that it sealed. -/
def SealHistory (iv : Epoch → List UInt8) (start : Connection) :
    Connection → List (Epoch × List UInt8) → Prop :=
  Lib.Trace (fun c => c = start) (Seals iv)

/-- Every nonce that was used is that of a number below the next one. -/
def UsedUp (iv : Epoch → List UInt8) (c : Connection) (sealed : List (Epoch × List UInt8)) : Prop :=
  ∀ epoch nonce, (epoch, nonce) ∈ sealed → ∃ n, Crypto.makeNonce (iv epoch) n = some nonce ∧
    n < 2 ^ 64 ∧ n < (c.pktNumSpaces epoch).nextPktNum

variable {iv : Epoch → List UInt8} {sealed : List (Epoch × List UInt8)}

theorem UsedUp.numbers (h : UsedUp iv c sealed) (hc : c.Numbers c') : UsedUp iv c' sealed := by
  intro epoch nonce hmem
  obtain ⟨n, hmake, hlt, hnext⟩ := h epoch nonce hmem
  exact ⟨n, hmake, hlt, hnext.trans_le (hc.nextPktNum epoch)⟩

/-- A call seals its packet under a new nonce. -/
theorem UsedUp.seals {nonces : List (Epoch × List UInt8)} (h : UsedUp iv c sealed)
    (hdistinct : sealed.Nodup) (hstep : Seals iv c nonces c') :
    UsedUp iv c' (sealed ++ nonces) ∧ (sealed ++ nonces).Nodup := by
  cases hstep with
  | nothing step _ =>
    rw [List.append_nil]
    exact ⟨h.numbers (Call.numbers step), hdistinct⟩
  | @packet outLen env epoch c₁ _ pkt written nonce sends make =>
    obtain ⟨hfresh, hlt, hnext⟩ := sends.number
    have hold : UsedUp iv c' sealed := h.numbers (Call.numbers sends.step)
    constructor
    · intro e nonce' hmem
      rcases List.mem_append.mp hmem with hmem | hmem
      · exact hold e nonce' hmem
      · cases List.mem_singleton.mp hmem
        exact ⟨pkt.pktNum, make, hlt, hnext⟩
    · apply List.Nodup.append hdistinct (List.nodup_singleton _)
      intro x hx hx'
      cases List.mem_singleton.mp hx'
      obtain ⟨n, hmake, hn, hbelow⟩ := h epoch nonce hx
      have heq : n = pkt.pktNum := Crypto.makeNonce_injective hn hlt hmake make
      omega

/-- Whatever the calls and whatever the state they start in, no two packets are sealed under the
same nonce in the same epoch. -/
theorem SealHistory.distinct {start : Connection} (h : SealHistory iv start c sealed) :
    sealed.Nodup := by
  have hboth : UsedUp iv c sealed ∧ sealed.Nodup := by
    refine Lib.Trace.invariant (I := fun c sealed => UsedUp iv c sealed ∧ sealed.Nodup) ?_ ?_ h
    · intro c _
      exact ⟨nofun, List.nodup_nil⟩
    · intro c sealed nonces c' hc hstep
      exact hc.1.seals hc.2 hstep
  exact hboth.2

/-- A client that sends a stream of two packets. -/
theorem distinct_twice : ∃ start c x y,
    SealHistory (fun _ => List.replicate 12 7) start c [x, y] ∧ [x, y].Nodup := by
  have hrun : (Sample.client (.basic {}) [Sample.write 0 (List.replicate 40 0) true]).any
      (fun c => (send 70 (Sample.sendEnv 1)).returnsWith c fun _ c' =>
        (send 70 (Sample.sendEnv 2)).returnsWith c' fun _ _ => true) = true := by
    decide +kernel
  obtain ⟨c, -, hcheck⟩ := (Option.any_eq_true _ _).mp hrun
  obtain ⟨_, c', hsend, hcheck'⟩ := Program.returnsWith_iff.mp hcheck
  obtain ⟨_, c'', hsend', -⟩ := Program.returnsWith_iff.mp hcheck'
  obtain ⟨epoch, c₁, pkt, hsends⟩ := exists_sends hsend
  obtain ⟨epoch', c₁', pkt', hsends'⟩ := exists_sends hsend'
  have history : SealHistory (fun _ => List.replicate 12 7) c c'' _ :=
    Lib.Trace.snoc (.snoc (.start rfl) (.packet hsends rfl)) (.packet hsends' rfl)
  exact ⟨c, c'', _, _, history, history.distinct⟩

/-- With vectors of the right length, every run of calls has such a history. -/
theorem exists_sealHistory {start : Connection} {calls : List Call}
    (hiv : ∀ e, (iv e).length = Crypto.nonceLen) (hrun : run Call.step start calls = some c) :
    ∃ sealed, SealHistory iv start c sealed := by
  refine Lib.Trace.exists_of_run (C := fun _ _ => True) ?_ (.start rfl)
    (Lib.allSteps_of_forall (fun _ _ => trivial) _ _) hrun
  intro c call c' _ hstep
  by_cases hreturns : ∃ outLen env, call = .send outLen env ∧
      ∃ written, c.Returns outLen env written c'
  · obtain ⟨outLen, env, rfl, written, hreturns⟩ := hreturns
    obtain ⟨epoch, c₁, pkt, hsends⟩ := exists_sends hreturns.send
    exact ⟨_, .packet hsends (if_pos (hiv epoch))⟩
  · refine ⟨[], .nothing hstep ?_⟩
    intro outLen env hcall written hreturn
    exact hreturns ⟨outLen, env, hcall, written, hreturn⟩

end Connection

end Dtp
