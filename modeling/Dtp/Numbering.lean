import Dtp.Acknowledgements
import Dtp.PacketNumbers

/-!
# The numbers of packets

The packets of an epoch are numbered one by one. Nothing that happens to a connection gives a
number back, and the packets that it remembers have numbers up to the largest one that it sent.

## Main definitions

* `Recovery.Numbered` — the packets that are remembered have numbers that were sent
* `Connection.Numbers` — numbers are only used up

## Main results

* `Part.numbers`, `Call.numbers` — every part of a call, and every call, only uses up numbers
* `Connection.Sends.number` — the packet that `send` returns has a number that was not used before
-/

namespace Dtp

open Lib (Program run)

namespace Recovery

/-- The packets that are remembered have numbers up to the largest one that was sent. -/
def Numbered (r : Recovery) : Prop := ∀ e, ∀ pkt ∈ r.sent e, pkt.pktNum ≤ r.largestSentPkt e

theorem Forgets.numbered {r r' : Recovery} (h : r.Forgets r') (hr : r.Numbered) :
    r'.Numbered := by
  intro e pkt' hpkt'
  obtain ⟨pkt, hpkt, heq⟩ := h.sent e pkt' hpkt'
  rw [← heq, h.largestSentPkt]
  exact hr e pkt hpkt

private theorem le_onPacketSent_largestSentPkt (r : Recovery) (pkt : Sent) (epoch : Epoch) (now : ℕ)
    (e : Epoch) : r.largestSentPkt e ≤ (r.onPacketSent pkt epoch now).largestSentPkt e := by
  have hgroup := (modifyFecGroup_forgets r pkt.fecInfo fun g =>
    g.packetSent pkt.fecInfo.index pkt.pktNum).largestSentPkt
  unfold onPacketSent
  dsimp only
  rw [hgroup]
  rcases eq_or_ne e epoch with rfl | hne
  · rw [Epoch.update_same]
    exact le_max_left _ _
  · rw [Epoch.update_of_ne hne]

theorem Numbered.onPacketSent {r : Recovery} (h : r.Numbered) (pkt : Sent) (epoch : Epoch)
    (now : ℕ) : (r.onPacketSent pkt epoch now).Numbered := by
  have hgroup := modifyFecGroup_forgets r pkt.fecInfo fun g =>
    g.packetSent pkt.fecInfo.index pkt.pktNum
  intro e p hp
  unfold Recovery.onPacketSent at hp ⊢
  dsimp only at hp ⊢
  rcases eq_or_ne e epoch with rfl | hne
  · rw [Epoch.update_same, insertSent, List.mem_append, List.mem_cons] at hp
    rw [Epoch.update_same]
    rcases hp with hp | rfl | hp
    · exact (hgroup.numbered h e p (List.mem_filter.mp hp).1).trans (le_max_left _ _)
    · exact le_max_right _ _
    · exact (hgroup.numbered h e p (List.mem_filter.mp hp).1).trans (le_max_left _ _)
  · rw [Epoch.update_of_ne hne] at hp ⊢
    exact hgroup.numbered h e p hp

end Recovery

/-! ### Numbers are used up -/

namespace Connection

/-- Numbers are only used up, and the packets that are remembered keep theirs. -/
structure Numbers (c c' : Connection) : Prop where
  nextPktNum : ∀ e, (c.pktNumSpaces e).nextPktNum ≤ (c'.pktNumSpaces e).nextPktNum
  largestSentPkt : ∀ e, c.recovery.largestSentPkt e ≤ c'.recovery.largestSentPkt e
  numbered : c.recovery.Numbered → c'.recovery.Numbered

instance : IsPreorder Connection Numbers where
  refl _ := ⟨fun _ => le_rfl, fun _ => le_rfl, id⟩
  trans _ _ _ h h' := ⟨fun e => (h.nextPktNum e).trans (h'.nextPktNum e),
    fun e => (h.largestSentPkt e).trans (h'.largestSentPkt e), h'.numbered ∘ h.numbered⟩

theorem numbers_of_forgets {c c' : Connection}
    (hnext : ∀ e, (c.pktNumSpaces e).nextPktNum ≤ (c'.pktNumSpaces e).nextPktNum)
    (hforgets : c.recovery.Forgets c'.recovery) : c.Numbers c' where
  nextPktNum := hnext
  largestSentPkt e := (congrFun hforgets.largestSentPkt e).ge
  numbered := hforgets.numbered

theorem Steady.numbers {c c' : Connection} (h : c.Steady c') : c.Numbers c' :=
  numbers_of_forgets h.nextPktNum h.forgets

theorem numbers_of_eq {c c' : Connection} (hspaces : c'.pktNumSpaces = c.pktNumSpaces)
    (hrecovery : c'.recovery = c.recovery) : c.Numbers c' := by
  apply numbers_of_forgets
  · rw [hspaces]
    exact fun _ => le_rfl
  · rw [hrecovery]
    exact .of_eq rfl rfl

/-- Where only the budget or the credit changes beside. -/
theorem Steady.numbers_of_eq {c c' c'' : Connection} (h : c.Steady c')
    (hspaces : c''.pktNumSpaces = c'.pktNumSpaces) (hrecovery : c''.recovery = c'.recovery) :
    c.Numbers c'' := trans_of Numbers h.numbers (Connection.numbers_of_eq hspaces hrecovery)

theorem numbers_modifySpace (c : Connection) (epoch : Epoch) {f : PktNumSpace → PktNumSpace}
    (hf : ∀ s, s.nextPktNum ≤ (f s).nextPktNum) : c.Numbers (c.modifySpace epoch f) := by
  refine numbers_of_forgets (fun e => ?_) (.of_eq rfl rfl)
  rcases eq_or_ne e epoch with rfl | hne
  · rw [modifySpace_same]
    exact hf _
  · rw [modifySpace_of_ne _ _ hne]

theorem numbers_of_resting {α : Type} {x : Program Error Connection α} (h : Resting x)
    (c : Connection) : x.Keeps Numbers c :=
  (h.keeps c).mono fun _ hc => hc.toSteady.numbers

private theorem takeAcked_numbers (epoch : Epoch) (c : Connection) :
    c.Numbers (takeAcked epoch c) := by
  cases hranges : c.ackedRanges epoch with
  | none => exact (takeAcked_of_none hranges).toSteady.numbers
  | some ranges =>
    obtain ⟨c₁, hrests, heq⟩ := takeAcked_of_some hranges
    rw [heq]
    refine trans_of Numbers hrests.toSteady.numbers ?_
    cases ranges.largest with
    | none => exact refl_of Numbers c₁
    | some largest =>
      apply numbers_modifySpace
      intro s
      exact le_rfl

private theorem received_numbers (pkt : RxPacket) (epoch : Epoch) (c : Connection) :
    c.Numbers (received pkt epoch c) := by
  have hrecord : c.Numbers (c.modifySpace epoch pkt.record) := by
    apply numbers_modifySpace
    intro s
    exact le_rfl
  refine trans_of Numbers hrecord ?_
  exact (received_rests pkt epoch c).toSteady.numbers_of_eq rfl rfl

theorem takeLost_numbers (epoch : Epoch) (c : Connection) : (takeLost epoch).Keeps Numbers c := by
  refine (takeLost_tookBack epoch c).mono ?_
  intro c' h
  cases h with
  | rests h => exact h.toSteady.numbers
  | stream _ h => exact h.toSteady.numbers_of_eq rfl rfl
  | ack _ h =>
    refine trans_of Numbers h.toSteady.numbers ?_
    apply numbers_modifySpace
    intro s
    exact le_rfl

private theorem recorded_numbers (epoch : Epoch) (written : ℕ) (env : SendEnv) (q : Packing) :
    q.conn.Numbers (q.recorded epoch written env) := by
  let pkt := q.toSent epoch written env.instant
  have hsent : q.conn.Numbers
      (q.conn.setRecovery (q.conn.recovery.onPacketSent pkt epoch env.instant)) :=
    ⟨fun _ => le_rfl, q.conn.recovery.le_onPacketSent_largestSentPkt pkt epoch env.instant,
      fun h => h.onPacketSent pkt epoch env.instant⟩
  refine trans_of Numbers hsent ?_
  exact (recorded_rests epoch written env q).toSteady.numbers_of_eq rfl rfl

private theorem packet_numbers (epoch : Epoch) (room headerLen pnLen avail : ℕ) (env : SendEnv)
    (c : Connection) :
    (Program.zoom (fun c => (⟨c, .new room⟩ : Packing)) (fun p _ => p.conn)
      (Packing.packet epoch headerLen pnLen avail env)).Keeps Numbers c := by
  refine (packet_putTogether epoch room headerLen pnLen avail env c).mono ?_
  intro c' h
  cases h with
  | unsent within => exact within.conn.steady.numbers
  | @sent _ written env q within _ =>
    exact trans_of Numbers within.conn.steady.numbers (recorded_numbers epoch written env q)

end Connection

open Connection in
/-- No part of a call gives a number back. -/
theorem Part.numbers (part : Part) (c : Connection) : part.program.Keeps Numbers c := by
  cases part with
  | write streamId data fin deadline priority now =>
    exact (numbers_of_resting
      (streamSendFull_streaming streamId data fin deadline priority now).resting
      c).discard
  | read streamId cap =>
    exact (numbers_of_resting (streamRecv_streaming streamId cap).resting c).discard
  | shutdown streamId direction => exact numbers_of_resting (streamShutdown_streaming _ _).resting c
  | close app err reason =>
    change (get >>= fun c => Program.ofExcept (c.close app err reason) >>= set).Keeps Numbers c
    rw [Program.keeps_get_bind]
    cases hclose : c.close app err reason with
    | ok c' => exact (close_rests hclose).toSteady.numbers
    | error e =>
      rw [Program.ofExcept]
      exact Program.keeps_fail.mpr (refl_of Numbers c)
  | setTail tailSize => exact numbers_of_eq rfl rfl
  | timeout env => exact (onTimeout_rests c env).toSteady.numbers
  | header pkt => exact numbers_of_resting (acceptHeader_resting pkt) c
  | frame f epoch env => exact numbers_of_resting (processFrame_resting f epoch env) c
  | acked epoch => exact takeAcked_numbers epoch c
  | received pkt epoch => exact received_numbers pkt epoch c
  | credit len =>
    change c.Numbers (if c.verifiedPeerAddress then c else _)
    split_ifs
    · exact refl_of Numbers c
    · exact numbers_of_eq rfl rfl
  | handshake step => exact numbers_of_resting (doHandshake_resting step) c
  | lost epoch => exact takeLost_numbers epoch c
  | clearLost epoch => exact (clearLost_rests epoch c).toSteady.numbers
  | packet epoch room headerLen pnLen avail env =>
    exact (packet_numbers epoch room headerLen pnLen avail env c).discard

/-- No call gives a number back. -/
theorem Call.numbers {c c' : Connection} {call : Call} (h : Call.step c call = some c') :
    c.Numbers c' := by
  obtain ⟨parts, hrun⟩ := Call.exists_parts h
  apply Lib.run_invariant (I := c.Numbers) _ (refl_of Connection.Numbers c) hrun
  intro c₁ part c₂ hc hstep
  exact trans_of Connection.Numbers hc
    (Program.keeps_iff_after.mp (Part.numbers part c₁) c₂ hstep)

/-! ### The number of a packet -/

namespace Connection

variable {outLen : ℕ} {env : SendEnv} {c c₀ c₁ c' : Connection} {epoch : Epoch}
  {pnLen written : ℕ} {pkt : Sent}

theorem Prepares.numbers (h : c.Prepares outLen env c₀ epoch pnLen c₁) : c.Numbers c₁ := by
  have hhandshake : (Program.when (!c.isClosing) (doHandshake env.handshake)).Keeps Numbers c :=
    .when fun _ => numbers_of_resting (doHandshake_resting env.handshake) c
  have hdrain : (drainLost epoch).Keeps Numbers c₀ := by
    apply drainLost_keeps
    · exact takeLost_numbers epoch
    · intro c
      exact (clearLost_rests epoch c).toSteady.numbers
  exact trans_of Numbers (hhandshake.ok h.handshake) (hdrain.ok h.drain)

private theorem counted_nextPktNum (epoch : Epoch) (written : ℕ) (env : SendEnv) (q : Packing) :
    ((q.counted epoch written env).pktNumSpaces epoch).nextPktNum =
      (q.conn.pktNumSpaces epoch).nextPktNum + 1 := by
  let c := q.conn.setRecovery
    (q.conn.recovery.onPacketSent (q.toSent epoch written env.instant) epoch env.instant)
  change ((c.modifySpace epoch fun s => { s with nextPktNum := s.nextPktNum + 1 }).pktNumSpaces
    epoch).nextPktNum = (c.pktNumSpaces epoch).nextPktNum + 1
  rw [modifySpace_same]

theorem Sends.step (h : c.Sends outLen env epoch c₁ pkt written c') :
    Call.step c (.send outLen env) = some c' := by
  change (discard (send outLen env) : Program Error Connection Unit).after c = some c'
  rw [Program.discard_after, Program.after, h.ok.send]

/-- The packet that `send` returns takes a number that was not used yet, and uses it up. -/
theorem Sends.number (h : c.Sends outLen env epoch c₁ pkt written c') :
    (c.pktNumSpaces epoch).nextPktNum ≤ pkt.pktNum ∧ pkt.pktNum < 2 ^ 64 ∧
      pkt.pktNum < (c'.pktNumSpaces epoch).nextPktNum := by
  obtain ⟨c₀, pnLen, filled, padded, sealed, p', hprep, built, rfl, rfl⟩ := h.packed
  have hnumber := h.pktNum
  refine ⟨?_, ?_, ?_⟩
  · rw [hnumber]
    exact hprep.numbers.nextPktNum epoch
  · rw [hnumber]
    have hlen := pktNumLen_spec hprep.number
    omega
  · have hrecord := built.record
    rw [Packing.recordSent_eq] at hrecord
    cases hrecord
    have hcounted : (sealed.toSent epoch written env.instant).pktNum <
        ((sealed.counted epoch written env).pktNumSpaces epoch).nextPktNum := by
      rw [counted_nextPktNum]
      exact Nat.lt_succ_self _
    exact hcounted.trans_le ((settled_rests epoch written env sealed).nextPktNum epoch)

end Connection

end Dtp
