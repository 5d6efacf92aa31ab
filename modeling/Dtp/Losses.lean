import Dtp.AckScan

/-!
# Declaring packets lost

A packet up to the largest acked one counts as lost once it is old enough, or enough later packets
were acked. For the others, the time is kept at which the first of them may be lost. How old a
packet must be depends on the round-trip times, which do not change while losses are detected.

## Main definitions

* `RoundTrips`, `RoundTrips.lossDelay` — the round-trip times, and the delay after which a packet
  is lost
* `TimedRecovery` — loss recovery with its round-trip times
* `Recovery.AckDeclaresLost` — the packets that an ACK frame declares lost

## Main results

* `Recovery.detectLostPackets_sent` — the packets that are left
* `Recovery.sorted_of_run` — the map of sent packets is in order along every run
* `Recovery.exists_lost_iff` — whether an ACK frame declares packets lost
* `TimedRecovery.detectLostPackets_exact` — the packets that are lost, and the time for the others
-/

namespace Dtp

open Lib (Ascending)

/-! ### Round-trip times -/

/-- The initial round-trip time: 500 ms, in nanoseconds. -/
def initialRtt : ℕ := 500000000

/-- The granularity of timers: 1 ms, in nanoseconds. -/
def granularity : ℕ := 1000000

/-- The latest round-trip time, and the smoothed one. -/
structure RoundTrips where
  latestRtt : ℕ
  smoothedRtt : Option ℕ

namespace RoundTrips

/-- The smoothed round-trip time, or the initial one. -/
def rtt (t : RoundTrips) : ℕ := t.smoothedRtt.getD initialRtt

/-- The delay after which a packet counts as lost, where `mulF64` multiplies with the time
threshold. -/
def lossDelay (mulF64 : ℕ → ℕ) (t : RoundTrips) : ℕ :=
  let lossDelay := mulF64 (max t.latestRtt t.rtt)
  -- Minimum time of kGranularity before packets are deemed lost.
  max lossDelay granularity

end RoundTrips

/-- Loss recovery with its round-trip times. -/
structure TimedRecovery extends Recovery, RoundTrips

/-- Declares packets lost with the delay of the current round-trip times. -/
def TimedRecovery.detectLostPackets (mulF64 : ℕ → ℕ) (r : TimedRecovery) (epoch : Epoch) (now : ℕ) :
    TimedRecovery :=
  { r with toRecovery := r.toRecovery.detectLostPackets epoch now (r.lossDelay mulF64) }

namespace Recovery

variable {r : Recovery} {epoch : Epoch} {now lossDelay : ℕ}

/-! ### What a lost packet changes -/

/-- Neither the largest acked packet nor the times change. -/
theorem onPacketLost_same (epoch : Epoch) (r : Recovery) (p : Sent) :
    (r.onPacketLost epoch p).largestAckedPkt = r.largestAckedPkt ∧
    (r.onPacketLost epoch p).lossTime = r.lossTime ∧
      (r.onPacketLost epoch p).lostCount = r.lostCount + 1 := by
  unfold onPacketLost modifyFecGroup
  split_ifs <;> exact ⟨rfl, rfl, rfl⟩

/-- The loop over the lost packets. -/
theorem onPacketsLost_spec (epoch : Epoch) (r : Recovery) (ps : List Sent) :
    let r' := ps.foldl (onPacketLost epoch) r
    r'.sent = Epoch.update r.sent epoch ((r.sent epoch).filter fun q =>
      ∀ p ∈ ps, q.pktNum ≠ p.pktNum) ∧
      r'.largestAckedPkt = r.largestAckedPkt ∧ r'.lossTime = r.lossTime ∧
          r'.lostCount = r.lostCount + ps.length := by
  induction ps generalizing r with
  | nil =>
    refine ⟨?_, rfl, rfl, rfl⟩
    funext e
    rcases eq_or_ne e epoch with rfl | hne
    · rw [Epoch.update_same]
      simp
    · rw [Epoch.update_of_ne hne]
      rfl
  | cons p ps ih =>
    obtain ⟨hsent, hlargest, htime, hcount⟩ := ih (r.onPacketLost epoch p)
    obtain ⟨hlargest', htime', hcount'⟩ := onPacketLost_same epoch r p
    refine ⟨hsent.trans ?_, hlargest.trans hlargest', htime.trans htime', ?_⟩
    · funext e
      rw [onPacketLost_sent]
      rcases eq_or_ne e epoch with rfl | hne
      · rw [Epoch.update_same, Epoch.update_same, Epoch.update_same, List.filter_filter]
        congr 1
        funext q
        rw [← Bool.decide_and]
        congr 1
        rw [List.forall_mem_cons, and_comm]
      · rw [Epoch.update_of_ne hne, Epoch.update_of_ne hne, Epoch.update_of_ne hne]
    · rw [List.foldl_cons, hcount, hcount', List.length_cons]
      omega

/-! ### The packets that are left -/

/-- Exactly the packets are removed that count as lost. -/
theorem detectLostPackets_sent (h : r.Sorted) (epoch : Epoch) (now lossDelay : ℕ) :
    (r.detectLostPackets epoch now lossDelay).sent = Epoch.update r.sent epoch
      ((r.sent epoch).filter fun p => !isLost (r.largestAckedPkt epoch) now lossDelay p) := by
  unfold detectLostPackets
  dsimp only
  rw [(onPacketsLost_spec epoch _ _).1]
  congr 1
  apply List.filter_congr
  intro q hq
  rw [Bool.eq_iff_iff, decide_eq_true_iff, Bool.not_eq_true', ← Bool.not_eq_true]
  constructor
  · intro hkept hlost
    exact hkept q (List.mem_filter.mpr ⟨hq, hlost⟩) rfl
  · intro hkept p hp heq
    obtain ⟨hp, hlost⟩ := List.mem_filter.mp hp
    have hsame : q = p := by
      have hfind := (h epoch).find?_eq hp
      rw [← heq, (h epoch).find?_eq hq] at hfind
      exact Option.some.inj hfind
    exact hkept (hsame ▸ hlost)

/-- The earliest time at which one of the packets that are left may be lost. -/
theorem detectLostPackets_lossTime (r : Recovery) (epoch : Epoch) (now lossDelay : ℕ) :
    (r.detectLostPackets epoch now lossDelay).lossTime = Epoch.update r.lossTime epoch
      ((((r.sent epoch).filter fun p => decide (p.pktNum ≤ r.largestAckedPkt epoch) &&
        !isLost (r.largestAckedPkt epoch) now lossDelay p).map fun p =>
            p.time + lossDelay).min?) := by
  unfold detectLostPackets
  dsimp only
  rw [(onPacketsLost_spec epoch _ _).2.2.1]

private theorem detectLostPackets_largest (r : Recovery) (epoch : Epoch) (now lossDelay : ℕ) :
    (r.detectLostPackets epoch now lossDelay).largestAckedPkt = r.largestAckedPkt := by
  unfold detectLostPackets
  dsimp only
  rw [(onPacketsLost_spec epoch _ _).2.1]

/-- Every lost packet is counted. -/
theorem detectLostPackets_lostCount (r : Recovery) (epoch : Epoch) (now lossDelay : ℕ) :
    (r.detectLostPackets epoch now lossDelay).lostCount = r.lostCount +
      ((r.sent epoch).filter (isLost (r.largestAckedPkt epoch) now lossDelay)).length := by
  unfold detectLostPackets
  dsimp only
  rw [(onPacketsLost_spec epoch _ _).2.2.2]

/-- The packets that are left stay in order. -/
theorem Sorted.detectLostPackets (h : r.Sorted) (epoch : Epoch) (now lossDelay : ℕ) :
    (r.detectLostPackets epoch now lossDelay).Sorted :=
  h.update (detectLostPackets_sent h epoch now lossDelay) ((h epoch).filter _)

/-! ### The order along runs -/

/-- An ACK frame keeps the packets in order. -/
theorem Sorted.ackLoop (h : r.Sorted) (epoch : Epoch) (pns : List ℕ) (newly : Bool) :
    (ackLoop epoch pns (newly, r)).2.Sorted := by
  apply ackLoop_induct
  · intro r₁ h₁ pn _
    exact h₁.onPacketAcked pn epoch
  · exact h

/-- Calls keep the packets in order. -/
theorem Sorted.call {r' : Recovery} (h : r.Sorted) {call : RecoveryCall}
    (hcall : r.call call = .ok r') : r'.Sorted := by
  cases call with
  | onPacketSent pkt epoch handshakeCompleted t =>
    cases hcall
    have hsent : (r.onPacketSent pkt epoch t.now).sent = Epoch.update r.sent epoch
        (insertSent (r.sent epoch) pkt) := by
      simp [onPacketSent]
    exact h.update hsent ((h epoch).insertKey pkt)
  | onAckReceived ranges epoch handshakeCompleted t =>
    change r.onAckReceived ranges epoch t.now t.lossDelay = .ok r' at hcall
    apply onAckReceived_induct hcall
    · intro r₁ h₁
      exact h₁.detectLostPackets epoch t.now t.lossDelay
    · intro r₁ h₁
      exact h₁.ackLoop epoch _ false
    · intro largestAckedPkt
      exact h
  | onLossDetectionTimeout handshakeCompleted t =>
    cases hcall
    unfold onLossDetectionTimeout
    dsimp only
    split_ifs
    · exact h.detectLostPackets _ _ _
    · exact h
  | dropUnackedData epoch =>
    cases hcall
    exact @Sorted.update _ _ _ h [] rfl .nil
  | drainAcked epoch =>
    cases hcall
    exact h
  | drainLost epoch =>
    cases hcall
    exact h

/-- Calls keep the packets in order. -/
theorem Sorted.step {r' : Recovery} (h : r.Sorted) {call : RecoveryCall}
    (hstep : r.step call = some r') :
    r'.Sorted := by
  unfold Recovery.step afterCall at hstep
  cases hcall : r.call call with
  | ok r₁ =>
    rw [hcall] at hstep
    cases hstep
    exact h.call hcall
  | error e =>
    rw [hcall] at hstep
    cases e <;> cases hstep
    exact h

theorem sorted_new : Recovery.new.Sorted := fun _ => List.Pairwise.nil

/-- The map of sent packets is in order in every state that calls reach. -/
theorem sorted_of_run {calls : List RecoveryCall} (hrun : Lib.run step .new calls = some r) :
    r.Sorted :=
  Lib.run_invariant (fun _ _ _ h hstep => h.step hstep) sorted_new hrun

/-! ### What ACK frames declare lost -/

/-- An ACK frame declares a packet lost: it acks another packet newly, it does not name the packet,
and the packet counts as lost after it. -/
def AckDeclaresLost (r : Recovery) (ranges : RangeSet) (epoch : Epoch) (t : Timing) (p : Sent) :
    Prop :=
  p ∈ r.sent epoch ∧ ¬ ranges.Has p.pktNum ∧ (∃ q ∈ r.sent epoch, ranges.Has q.pktNum) ∧
    ∃ largest, ranges.largest = some largest ∧ largest ≤ r.largestSentPkt epoch ∧
      isLost ((r.noteLargest epoch largest).largestAckedPkt epoch) t.now t.lossDelay p = true

/-- Groups do not count losses. -/
theorem modifyFecGroup_same (r : Recovery) (info : FecStatus)
    (f : FecPacketNumbers → FecPacketNumbers) :
    (r.modifyFecGroup info f).largestAckedPkt = r.largestAckedPkt ∧
      (r.modifyFecGroup info f).lostCount = r.lostCount := by
  unfold modifyFecGroup
  split_ifs <;> exact ⟨rfl, rfl⟩

/-- Acking a packet declares none lost. -/
theorem onPacketAcked_same (r : Recovery) (pn : ℕ) (epoch : Epoch) :
    (r.onPacketAcked pn epoch).2.largestAckedPkt = r.largestAckedPkt ∧
      (r.onPacketAcked pn epoch).2.lostCount = r.lostCount := by
  have hrecovered (pns : List ℕ) (r : Recovery) :
      (pns.foldl onPacketRecovered r).largestAckedPkt = r.largestAckedPkt ∧
        (pns.foldl onPacketRecovered r).lostCount = r.lostCount := by
    induction pns generalizing r with
    | nil => exact ⟨rfl, rfl⟩
    | cons pn pns ih =>
      obtain ⟨hlargest, hcount⟩ := ih (r.onPacketRecovered pn)
      rw [List.foldl_cons, hlargest, hcount]
      unfold onPacketRecovered
      split <;> exact ⟨rfl, rfl⟩
  unfold onPacketAcked
  split
  · exact ⟨rfl, rfl⟩
  · dsimp only
    rw [(hrecovered _ _).1, (hrecovered _ _).2, (modifyFecGroup_same _ _ _).1,
      (modifyFecGroup_same _ _ _).2]
    exact ⟨rfl, rfl⟩

/-- Acknowledgements do not count losses. -/
theorem ackLoop_same (r : Recovery) (epoch : Epoch) (pns : List ℕ) (newly : Bool) :
    (ackLoop epoch pns (newly, r)).2.largestAckedPkt = r.largestAckedPkt ∧
      (ackLoop epoch pns (newly, r)).2.lostCount = r.lostCount := by
  refine ackLoop_induct (P := fun r' => r'.largestAckedPkt = r.largestAckedPkt ∧
    r'.lostCount = r.lostCount)
    (fun r' h pn _ => ?_) ⟨rfl, rfl⟩ newly
  rw [(onPacketAcked_same r' pn epoch).1, (onPacketAcked_same r' pn epoch).2]
  exact h

/-- Whether a packet counts as lost does not depend on its frames. -/
theorem isLost_emptied (rebuilt : List ℕ) (largestAcked now lossDelay : ℕ) (p : Sent) :
    isLost largestAcked now lossDelay (emptied rebuilt p) =
        isLost largestAcked now lossDelay p := by
  unfold emptied
  split_ifs <;> rfl

/-- If packets are newly acked, those are lost that count as lost then. -/
theorem exists_lost_iff (h : r.Sorted) {ranges : RangeSet} (hranges : ranges.Canonical)
    {largest : ℕ}
    (hlargest : ranges.largest = some largest) (hsent : largest ≤ r.largestSentPkt epoch)
    {t : Timing}
    {acked : Bool × Recovery}
    (hacked : ackLoop epoch ranges.flatten.reverse (false, r.noteLargest epoch largest) = acked) :
    (acked.1 = true ∧
      ∃ q ∈ acked.2.sent epoch, isLost (acked.2.largestAckedPkt epoch) t.now t.lossDelay q = true) ↔
      ∃ p, r.AckDeclaresLost ranges epoch t p := by
  obtain ⟨-, newly, r', hscan, -, -, hnewly, rebuilt, -, hout⟩ :=
    onAckReceived_exact h hranges hlargest hsent t.now t.lossDelay
  obtain rfl : (newly, r') = acked := hscan.symm.trans hacked
  have hsame := (ackLoop_same (r.noteLargest epoch largest) epoch ranges.flatten.reverse false).1
  rw [hscan] at hsame
  have hleft := (hout epoch).sent
  rw [if_pos rfl] at hleft
  dsimp only at hsame ⊢
  rw [hnewly, hsame, hleft]
  constructor
  · rintro ⟨hnew, q, hq, hlost⟩
    obtain ⟨p, hp, rfl⟩ := List.mem_map.mp hq
    obtain ⟨hp, hnamed⟩ := List.mem_filter.mp hp
    refine ⟨p, hp, fun hhas => ?_, hnew, largest, hlargest, hsent, by rwa [isLost_emptied] at hlost⟩
    exact of_decide_eq_true hnamed (RangeSet.mem_flatten.mpr hhas)
  · rintro ⟨p, hp, hnamed, hnew, largest', hlargest', -, hlost⟩
    obtain rfl : largest = largest' := Option.some.inj (hlargest.symm.trans hlargest')
    refine ⟨hnew, _, List.mem_map_of_mem (List.mem_filter.mpr ⟨hp, ?_⟩), by rwa [isLost_emptied]⟩
    exact decide_eq_true fun hmem => hnamed (RangeSet.mem_flatten.mp hmem)

end Recovery

/-! ### Exact and armed again -/

namespace TimedRecovery

variable {r : TimedRecovery} {epoch : Epoch}

/-- The packet is one that counts as lost. -/
def Expired (r : TimedRecovery) (mulF64 : ℕ → ℕ) (epoch : Epoch) (now : ℕ) (p : Sent) : Prop :=
  p.pktNum ≤ r.largestAckedPkt epoch ∧
    (p.pktNum + packetThreshold ≤ r.largestAckedPkt epoch ∨ p.time + r.lossDelay mulF64 ≤ now)

/-- Packets are lost that are expired. -/
theorem isLost_iff {mulF64 : ℕ → ℕ} {now : ℕ} {p : Sent} :
    Recovery.isLost (r.largestAckedPkt epoch) now (r.lossDelay mulF64) p = true ↔
        r.Expired mulF64 epoch now p := by
  simp [Recovery.isLost, Expired, or_comm]

/-- The packets that are left are not expired. -/
theorem mem_sent_detectLostPackets (h : r.Sorted) (mulF64 : ℕ → ℕ) (epoch : Epoch) (now : ℕ)
    (p : Sent) :
    p ∈ (r.detectLostPackets mulF64 epoch now).sent epoch ↔ p ∈ r.sent epoch ∧
        ¬ r.Expired mulF64 epoch now p := by
  have hsent : (r.detectLostPackets mulF64 epoch now).sent = _ :=
    Recovery.detectLostPackets_sent h epoch now (r.lossDelay mulF64)
  rw [hsent, Epoch.update_same, List.mem_filter, Bool.not_eq_true', ← Bool.not_eq_true, isLost_iff]

/-- The packets that are left below the largest acked one, and the time that is kept for them. -/
theorem lossTime_detectLostPackets (h : r.Sorted) (mulF64 : ℕ → ℕ) (epoch : Epoch) (now : ℕ) :
    ∃ kept : List Sent, (∀ p, p ∈ kept ↔
        p ∈ (r.detectLostPackets mulF64 epoch now).sent epoch ∧
          p.pktNum ≤ r.largestAckedPkt epoch) ∧
      (r.detectLostPackets mulF64 epoch now).lossTime epoch = (kept.map fun p =>
          p.time + r.lossDelay mulF64).min? := by
  have htime : (r.detectLostPackets mulF64 epoch now).lossTime = _ :=
    Recovery.detectLostPackets_lossTime r.toRecovery epoch now (r.lossDelay mulF64)
  rw [htime, Epoch.update_same]
  refine ⟨_, fun p => ?_, rfl⟩
  rw [mem_sent_detectLostPackets h, List.mem_filter, Bool.and_eq_true, decide_eq_true_iff,
    Bool.not_eq_true',
    ← Bool.not_eq_true, isLost_iff]
  tauto

/-- At the time that is kept, one more packet counts as lost. -/
theorem detectLostPackets_progress (h : r.Sorted) (mulF64 : ℕ → ℕ) (epoch : Epoch) (now : ℕ) {t : ℕ}
    (htime : (r.detectLostPackets mulF64 epoch now).lossTime epoch = some t) :
    let r' := r.detectLostPackets mulF64 epoch now
    ∃ p ∈ r'.sent epoch, p ∉ (r'.detectLostPackets mulF64 epoch t).sent epoch ∧
      r'.lostCount < (r'.detectLostPackets mulF64 epoch t).lostCount := by
  intro r'
  have hsorted : r'.Sorted := Recovery.Sorted.detectLostPackets h epoch now (r.lossDelay mulF64)
  obtain ⟨kept, hkept, hmin⟩ := lossTime_detectLostPackets h mulF64 epoch now
  obtain ⟨p, hp, heq⟩ := List.mem_map.mp (List.min?_mem (hmin.symm.trans htime))
  obtain ⟨hsent, hle⟩ := (hkept p).mp hp
  have hlargest : r'.largestAckedPkt = r.largestAckedPkt :=
    Recovery.detectLostPackets_largest r.toRecovery epoch now (r.lossDelay mulF64)
  -- the delay is the same as before
  have hexpired : r'.Expired mulF64 epoch t p := by
    refine ⟨?_, .inr heq.le⟩
    rw [hlargest]
    exact hle
  refine ⟨p, hsent, fun hleft =>
    ((mem_sent_detectLostPackets hsorted mulF64 epoch t p).mp hleft).2 hexpired, ?_⟩
  have hcount : (r'.detectLostPackets mulF64 epoch t).lostCount = _ :=
    Recovery.detectLostPackets_lostCount r'.toRecovery epoch t (r'.lossDelay mulF64)
  have hlost := List.length_pos_of_mem (List.mem_filter.mpr ⟨hsent, isLost_iff.mpr hexpired⟩)
  rw [hcount]
  exact Nat.lt_add_of_pos_right hlost

/-- Exactly the packets that count as lost are removed. A time is kept as long as there are packets
that may be lost, not later than any of them may be; and at that time one of them is lost. Numbers
of packets do not wrap around. -/
theorem detectLostPackets_exact (h : r.Sorted) (mulF64 : ℕ → ℕ) (epoch : Epoch) (now : ℕ) :
    let r' := r.detectLostPackets mulF64 epoch now
    (∀ p, p ∈ r'.sent epoch ↔ p ∈ r.sent epoch ∧ ¬ r.Expired mulF64 epoch now p) ∧
      (∀ p ∈ r'.sent epoch, p.pktNum ≤ r.largestAckedPkt epoch →
        ∃ t, r'.lossTime epoch = some t ∧ t ≤ p.time + r.lossDelay mulF64) ∧
      ((∀ p ∈ r'.sent epoch, r.largestAckedPkt epoch < p.pktNum) → r'.lossTime epoch = none) ∧
      (∀ t, r'.lossTime epoch = some t → ∃ p ∈ r'.sent epoch,
        p ∉ (r'.detectLostPackets mulF64 epoch t).sent epoch ∧
          r'.lostCount < (r'.detectLostPackets mulF64 epoch t).lostCount) ∧
      (r.largestAckedPkt epoch < 2 ^ 62 →
        ∀ p : Sent, p.pktNum ≤ r.largestAckedPkt epoch → p.pktNum + packetThreshold < 2 ^ 64) := by
  intro r'
  obtain ⟨kept, hkept, hmin⟩ := lossTime_detectLostPackets h mulF64 epoch now
  refine ⟨mem_sent_detectLostPackets h mulF64 epoch now, fun p hp hle => ?_, fun hall => ?_,
    fun t htime => ?_, ?_⟩
  · have hmem := List.mem_map_of_mem (f := fun p : Sent => p.time + r.lossDelay mulF64)
      ((hkept p).mpr ⟨hp, hle⟩)
    obtain ⟨t, ht⟩ := Option.isSome_iff_exists.mp (List.isSome_min?_of_mem hmem)
    exact ⟨t, hmin.trans ht, (List.min?_eq_some_iff.mp ht).2 _ hmem⟩
  · have hnil : kept = [] := by
      rw [List.eq_nil_iff_forall_not_mem]
      intro p hp
      obtain ⟨hsent, hle⟩ := (hkept p).mp hp
      exact absurd hle (not_le.mpr (hall p hsent))
    rw [hnil] at hmin
    exact hmin
  · exact detectLostPackets_progress h mulF64 epoch now htime
  · intro hlargest p hle
    have hthreshold : packetThreshold = 3 := rfl
    omega

/-- Of five packets the last one is acked. The first two are lost, and the next one is when it is
old enough. -/
def lastAcked : TimedRecovery where
  toRecovery :=
    { Recovery.new with
      largestAckedPkt := Epoch.update (fun _ => u64Max) .application 4
      sent := Epoch.update (fun _ => []) .application ([0, 1, 2, 3].map fun n =>
        ⟨n, [.ping], 10 * n, 40, true, true, .none⟩) }
  latestRtt := 0
  smoothedRtt := none

theorem detectLostPackets_exact_lastAcked :
    let r' := lastAcked.detectLostPackets (fun d => d + d / 8) .application 100
    (∀ p ∈ r'.sent .application, p.pktNum ≤ 4 →
      ∃ t, r'.lossTime .application = some t ∧ t ≤ p.time + 562500000) ∧
      ∃ p ∈ r'.sent .application,
          p ∉ (r'.detectLostPackets (fun d => d + d / 8) .application 562500020).sent
              .application := by
  have hsorted : lastAcked.Sorted := by
    intro e
    unfold Ascending
    cases e <;> decide
  obtain ⟨-, htimes, -, hprogress, -⟩ :=
    detectLostPackets_exact hsorted (fun d => d + d / 8) .application 100
  obtain ⟨p, hp, hlost, -⟩ := hprogress 562500020 (by decide +kernel)
  exact ⟨htimes, p, hp, hlost⟩

end TimedRecovery

end Dtp
