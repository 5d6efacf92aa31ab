import Dtp.Cc.Bbr.Operations

/-!
# The rounds of BBR

A round is meant to be a round trip: it starts when a packet is acked that was sent after the last
round started. But the largest acked packet number starts as the largest `u64` at the beginning of
an ack, so no packet is larger, and every ack of some bytes starts a round.

## Main definitions

* `Bbr.Counting` — BBR with a record of what was acked, and what was sent since a round started
* `Bbr.Counting.CountsRoundTrips` — an ack starts a round exactly if it acks a packet sent since
  the last one
* `Bbr.Counting.BytesAreNew` — an ack acks bytes exactly if it acks such a packet

## Main results

* `Bbr.roundCount_bbrEndAck` — every ack of some bytes starts a round
* `Bbr.Counting.countsRoundTrips_iff` — rounds are round trips exactly if every ack of some bytes
  acks a packet sent since the last round started
-/

namespace Dtp.Cc.Bbr

variable {F : Floats} {s s' : Bbr}

/-! ### What the end of an ack does to rounds -/

/-- No packet number is larger than the one with which an ack begins. -/
theorem startsRound_of_maxPackno (h : u64Max ≤ s.ackState.maxPackno) : s.startsRound = true := by
  have hlarge : 2 ^ 61 ≤ u64Max := by decide
  exact decide_eq_true (by omega)

/-- Every ack of some bytes starts a round. -/
theorem roundCount_bbrEndAck {bytesInFlight random : ℕ}
    (h : s.bbrEndAck F bytesInFlight random = .ok s')
    (hmax : u64Max ≤ s.ackState.maxPackno) :
    s'.roundCount = s.roundCount + if 0 < s.ackState.ackBytes then 1 else 0 := by
  rw [(endsAck_bbrEndAck h).roundCount, startsRound_of_maxPackno hmax]
  simp

/-! ### Runs with a record -/

/-- BBR, with the packets that the last ack has newly acked so far, and the numbers of the packets
that were sent since a round started. -/
structure Counting where
  driven : Driven Bbr
  acked : List Sent
  sentSince : List ℕ

namespace Counting

/-- No round was counted. -/
def new (t0 : ℕ) : Counting := ⟨⟨Bbr.new t0, 0⟩, [], []⟩

/-- Whether the event may happen: packets are numbered in the order they are sent. -/
def permits (w : Counting) : Event → Bool
  | .sent pkt _ => w.driven.cc.lastSentPackno ≤ pkt.pktNum
  | _ => true

/-- The record after an event. -/
def record (w : Counting) (e : Event) (driven : Driven Bbr) : Counting :=
  match e with
  | .sent pkt _ => { w with driven, sentSince := pkt.pktNum :: w.sentSince }
  | .beginAck _ => { w with driven, acked := [] }
  | .acked packet _ _ _ _ _ _ =>
    if (w.driven.cc.queued packet.pktNum).isSome then { w with driven, acked := packet :: w.acked }
    else { w with driven }
  | .endAck _ =>
    if driven.cc.roundCount = w.driven.cc.roundCount then { w with driven }
    else { w with driven, sentSince := [] }
  | .lost _ _ _ _ | .dropped _ => { w with driven }

/-- The state and the record after an event, if it may happen and nothing panics. -/
def step (F : Floats) (w : Counting) (e : Event) : Option Counting :=
  if w.permits e then (Driven.step (bbr F) w.driven e).map (w.record e) else none

/-- The ack has newly acked a packet that was sent after the last round ended. -/
def AcksNewer (w : Counting) : Prop := ∃ p ∈ w.acked, w.driven.cc.currentRoundTripEnd < p.pktNum

/-- The ack has newly acked some bytes. -/
def AcksBytes (w : Counting) : Prop := ∃ p ∈ w.acked, 0 < p.size

/-- The end of an ack starts a round exactly if the ack has acked a newer packet. So it has acked a
packet that was sent since the last round started. -/
structure CountsRoundTrips (F : Floats) (w : Counting) (e : Event) : Prop where
  count {w' : Counting} (hstep : step F w e = some w') {random : ℕ} (hend : e = .endAck random) :
    (w.AcksNewer → w'.driven.cc.roundCount = w.driven.cc.roundCount + 1) ∧
      (¬ w.AcksNewer → w'.driven.cc.roundCount = w.driven.cc.roundCount)
  roundTrip {w' : Counting} (hstep : step F w e = some w') {random : ℕ} (hend : e = .endAck random)
    (hround : w'.driven.cc.roundCount ≠ w.driven.cc.roundCount) :
    ∃ p ∈ w.acked, p.pktNum ∈ w.sentSince

/-- At its end, an ack has acked some bytes exactly if it has acked a newer packet. -/
def BytesAreNewer (F : Floats) (w : Counting) (e : Event) : Prop :=
  ∀ w', step F w e = some w' → ∀ random, e = .endAck random → (w.AcksBytes ↔ w.AcksNewer)

/-- The number was sent, since the last round started or before it ended. -/
def Placed (w : Counting) (pktNum : ℕ) : Prop :=
  pktNum ≤ w.driven.cc.lastSentPackno ∧
    (pktNum ∈ w.sentSince ∨ pktNum ≤ w.driven.cc.currentRoundTripEnd)

/-- What is queued or acked has its place, and an ack counts its bytes. -/
structure Numbered (w : Counting) : Prop where
  queue {p : PacketOut} (hp : p ∈ w.driven.cc.packetOutQue) : w.Placed p.poPackno
  acked {p : Sent} (hp : p ∈ w.acked) : w.Placed p.pktNum
  maxPackno (h : w.driven.cc.flags.inAck = true) : u64Max ≤ w.driven.cc.ackState.maxPackno
  ackBytes (h : w.driven.cc.flags.inAck = true) :
    w.driven.cc.ackState.ackBytes = (w.acked.map Sent.size).sum

variable {w w' : Counting} {e : Event}

theorem numbered_new (t0 : ℕ) : Numbered (new t0) := ⟨nofun, nofun, nofun, nofun⟩

/-- Where packets and acks stay, so does the record. -/
theorem Numbered.of_eq (h : Numbered w) {driven : Driven Bbr} {bytesInFlight : ℕ}
    (hcc : driven.cc = { w.driven.cc with bytesInFlight }) : Numbered { w with driven } := by
  obtain ⟨cc, lostCount⟩ := driven
  obtain rfl : cc = _ := hcc
  exact ⟨h.queue, h.acked, h.maxPackno, h.ackBytes⟩

theorem Numbered.sent (h : Numbered w) {pkt : Sent}
    (hnumber : w.driven.cc.lastSentPackno ≤ pkt.pktNum) :
    Numbered ⟨{ w.driven with cc := w.driven.cc.onPacketSentCc F pkt }, w.acked,
        pkt.pktNum :: w.sentSince⟩ := by
  obtain ⟨bwSampler, p, hp, -, heq⟩ := onPacketSentCc_eq (F := F) w.driven.cc pkt
  rw [heq]
  refine ⟨fun hq => ?_, fun ha => ?_, h.maxPackno, h.ackBytes⟩
  · rcases Lib.mem_insertKey.mp hq with rfl | ⟨hq, -⟩
    · exact ⟨hp.le, .inl (hp ▸ List.mem_cons_self)⟩
    · obtain ⟨hle, hsince⟩ := h.queue hq
      exact ⟨hle.trans hnumber, hsince.imp_left (List.mem_cons_of_mem _)⟩
  · obtain ⟨hle, hsince⟩ := h.acked ha
    exact ⟨hle.trans hnumber, hsince.imp_left (List.mem_cons_of_mem _)⟩

theorem Numbered.beginAck (h : Numbered w) {ackTime bytesInFlight : ℕ} {cc : Bbr}
    (hcc : w.driven.cc.bbrBeginAck ackTime bytesInFlight = .ok cc) :
    Numbered ⟨{ w.driven with cc }, [], w.sentSince⟩ := by
  unfold bbrBeginAck at hcc
  split_ifs at hcc
  cases hcc
  exact ⟨h.queue, nofun, fun _ => le_rfl, fun _ => rfl⟩

private theorem Numbered.ackPacket (h : Numbered w) {packet : Sent} {cc : Bbr}
    (hcc : w.driven.cc.onPacketAckedCc packet = .ok cc) :
    Numbered (if (w.driven.cc.queued packet.pktNum).isSome then
      ⟨{ w.driven with cc }, packet :: w.acked, w.sentSince⟩ else ⟨{ w.driven with cc }, w.acked,
          w.sentSince⟩) := by
  obtain ⟨-, ⟨hqueued, heq⟩ | ⟨p, sample, bwSampler, p', hqueued, hack, -, rfl⟩⟩ :=
    onPacketAckedCc_cases hcc
  · rw [hqueued, heq]
    exact h.of_eq rfl
  · rw [hqueued, Option.isSome_some, if_pos rfl]
    obtain ⟨hmem, hnum⟩ := queued_spec hqueued
    refine ⟨fun hq => h.queue (List.mem_of_mem_filter hq), fun ha => ?_, fun _ => ?_, fun _ => ?_⟩
    · rcases List.mem_cons.mp ha with rfl | ha
      · exact hnum ▸ h.queue hmem
      · exact h.acked ha
    · exact (h.maxPackno hack).trans (le_max_left _ _)
    · dsimp only
      rw [h.ackBytes hack, List.map_cons, List.sum_cons, Nat.add_comm]

/-- When a round starts, all packets that are out were sent before it ends. -/
theorem Numbered.endAck (h : Numbered w) {bytesInFlight random : ℕ} {cc : Bbr}
    (hcc : w.driven.cc.bbrEndAck F bytesInFlight random = .ok cc) :
    Numbered (if cc.roundCount = w.driven.cc.roundCount then ⟨{ w.driven with cc }, w.acked,
      w.sentSince⟩
      else ⟨{ w.driven with cc }, w.acked, []⟩) := by
  have hends := endsAck_bbrEndAck hcc
  have hopen : ¬ cc.flags.inAck = true := by simp [hends.inAck]
  split_ifs with hround
  · have hplaced {n : ℕ}
        (hn : w.Placed n) : Placed ⟨{ w.driven with cc }, w.acked, w.sentSince⟩ n := by
      refine ⟨hn.1.trans hends.lastSentPackno.ge, ?_⟩
      rcases hends.currentRoundTripEnd with hend | ⟨hend, -⟩
      · exact .inr (hn.1.trans hend.ge)
      · exact hn.2.imp_right hend.ge.trans'
    exact ⟨fun hq => hplaced (h.queue (hends.packetOutQue ▸ hq)), fun ha => hplaced (h.acked ha),
      fun hack => absurd hack hopen, fun hack => absurd hack hopen⟩
  · have hplaced {n : ℕ} (hn : w.Placed n) : Placed ⟨{ w.driven with cc }, w.acked, []⟩ n := by
      refine ⟨hn.1.trans hends.lastSentPackno.ge, .inr ?_⟩
      rcases hends.currentRoundTripEnd with hend | ⟨-, hsame⟩
      · exact hn.1.trans hend.ge
      · exact absurd hsame hround
    exact ⟨fun hq => hplaced (h.queue (hends.packetOutQue ▸ hq)), fun ha => hplaced (h.acked ha),
      fun hack => absurd hack hopen, fun hack => absurd hack hopen⟩

/-- Every event keeps the numbers in order. -/
theorem Numbered.step (h : Numbered w) (hstep : w.step F e = some w') : Numbered w' := by
  unfold Counting.step at hstep
  split_ifs at hstep with hpermits
  obtain ⟨driven, hdriven, rfl⟩ := Option.map_eq_some_iff.mp hstep
  have hhandle := Lib.toOption_eq_some.mp hdriven
  unfold Driven.handle at hhandle
  cases e with
  | sent pkt now =>
    obtain ⟨cc, hcc, rfl⟩ := Lib.map_eq_ok.mp hhandle
    cases hcc
    exact h.sent (of_decide_eq_true hpermits)
  | beginAck now =>
    obtain ⟨cc, hcc, rfl⟩ := Lib.map_eq_ok.mp hhandle
    exact h.beginAck hcc
  | acked packet srtt minRtt latestRtt appLimited epoch now =>
    obtain ⟨cc, hcc, rfl⟩ := Lib.map_eq_ok.mp hhandle
    exact h.ackPacket hcc
  | endAck random =>
    obtain ⟨cc, hcc, rfl⟩ := Lib.map_eq_ok.mp hhandle
    exact h.endAck hcc
  | lost pkts epoch srtt now =>
    obtain ⟨bytesInFlight, heq⟩ := onPacketsLost_eq hhandle
    exact h.of_eq heq
  | dropped unackedBytes =>
    obtain ⟨cc, hcc, rfl⟩ := Lib.map_eq_ok.mp hhandle
    obtain ⟨bytesInFlight, -, rfl⟩ := Lib.map_eq_ok.mp (show Except.map _ _ = _ from hcc)
    exact h.of_eq rfl

/-- At the end of an ack a round starts exactly if the ack has acked some bytes. -/
theorem Numbered.round (h : Numbered w) {random : ℕ} (hstep : w.step F (.endAck random) = some w') :
    (w.AcksBytes → w'.driven.cc.roundCount = w.driven.cc.roundCount + 1) ∧
      (¬ w.AcksBytes → w'.driven.cc.roundCount = w.driven.cc.roundCount) := by
  unfold Counting.step at hstep
  split_ifs at hstep
  obtain ⟨driven, hdriven, rfl⟩ := Option.map_eq_some_iff.mp hstep
  have hhandle := Lib.toOption_eq_some.mp hdriven
  unfold Driven.handle at hhandle
  obtain ⟨cc, hcc, rfl⟩ := Lib.map_eq_ok.mp hhandle
  have hsame : (w.record (.endAck random) { w.driven with cc }).driven.cc = cc := by
    unfold record
    dsimp only
    split_ifs <;> rfl
  have hack := (ledger_bbrEndAck hcc).1
  have hcount := roundCount_bbrEndAck hcc (h.maxPackno hack)
  have hbytes : 0 < w.driven.cc.ackState.ackBytes ↔ w.AcksBytes := by
    rw [h.ackBytes hack, List.sum_pos_iff_exists_pos_nat]
    simp [AcksBytes]
  rw [hsame, hcount]
  constructor
  · intro hacks
    rw [if_pos (hbytes.mpr hacks)]
  · intro hacks
    rw [if_neg (hbytes.not.mpr hacks)]
    rfl

/-- Rounds are round trips exactly if the bytes that are acked are newer. -/
theorem Numbered.countsRoundTrips_iff_newer (h : Numbered w) (e : Event) :
    CountsRoundTrips F w e ↔ BytesAreNewer F w e := by
  constructor
  · rintro hcounts w' hstep random rfl
    obtain ⟨hbytes, hnone⟩ := h.round hstep
    obtain ⟨hnewer, hold⟩ := hcounts.count hstep rfl
    constructor
    · intro hacks
      by_contra hnot
      exact absurd ((hbytes hacks).symm.trans (hold hnot)) (Nat.succ_ne_self _)
    · intro hacks
      by_contra hnot
      exact absurd ((hnewer hacks).symm.trans (hnone hnot)) (Nat.succ_ne_self _)
  · intro hnewer
    refine ⟨fun hstep random hend => ?_, fun hstep random hend hround => ?_⟩
    · subst hend
      rw [← hnewer _ hstep random rfl]
      exact h.round hstep
    · subst hend
      have hacks : w.AcksBytes := by
        by_contra hnot
        exact hround ((h.round hstep).2 hnot)
      obtain ⟨p, hp, hless⟩ := (hnewer _ hstep random rfl).mp hacks
      exact ⟨p, hp, (h.acked hp).2.resolve_right hless.not_ge⟩

/-- Along every run of sent packets and acks, rounds are round trips exactly if every ack that acks
some bytes acks a packet that was sent after the last round ended, and no other ack does. -/
theorem countsRoundTrips_iff (F : Floats) (t0 : ℕ) (es : List Event) :
    Lib.AllSteps (step F) (CountsRoundTrips F) (new t0) es ↔
      Lib.AllSteps (step F) (BytesAreNewer F) (new t0) es :=
  Lib.allSteps_iff (I := Numbered) (fun _ _ _ h hstep => h.step hstep)
    (fun _ e h => h.countsRoundTrips_iff_newer e) (numbered_new t0)

end Counting

/-- Three packets are sent. They are acked one after the other, with no packet sent in between. -/
def threeAcks : List Event :=
  let ack (n : ℕ) : Event := .acked (examplePacket n 0) 0 0 0 false .application 0
  [.sent (examplePacket 0 0) 0, .sent (examplePacket 1 0) 0, .sent (examplePacket 2 0) 0,
    .beginAck 1000000, ack 0, .endAck 0, .beginAck 2000000, ack 1, .endAck 0,
      .beginAck 3000000, ack 2]

/-- The third ack acks a packet that was sent before the first round started, and starts a round. -/
theorem starts_threeAcks :
    ((Lib.run (Counting.step exactFloats) (.new 0) threeAcks).bind fun w =>
      (w.step exactFloats (.endAck 0)).map fun w' => (w, w')).any fun (w, w') =>
        (¬ ∃ p ∈ w.acked, w.driven.cc.currentRoundTripEnd < p.pktNum) ∧
          w'.driven.cc.roundCount = 3 ∧ w.driven.cc.roundCount = 2 := by
  decide +kernel

/-- A round is not a round trip. -/
theorem not_countsRoundTrips_threeAcks :
    ¬ ∀ (F : Floats) (t0 : ℕ) (es : List Event),
      Lib.AllSteps (Counting.step F) (Counting.CountsRoundTrips F) (.new t0) es := by
  intro h
  obtain ⟨⟨w, w'⟩, hsome, hstarts⟩ := (Option.any_eq_true _ _).mp starts_threeAcks
  obtain ⟨_, hrun, hmap⟩ := Option.bind_eq_some_iff.mp hsome
  obtain ⟨_, hstep, heq⟩ := Option.map_eq_some_iff.mp hmap
  obtain ⟨rfl, rfl⟩ := Prod.mk.inj heq
  obtain ⟨hold, hafter, hbefore⟩ := of_decide_eq_true hstarts
  have hcounts := (h exactFloats 0 (threeAcks ++ [.endAck 0])).of_run hrun
  have hsame := (hcounts.count hstep rfl).2 hold
  rw [hafter, hbefore] at hsame
  exact absurd hsame (by decide)

end Dtp.Cc.Bbr
