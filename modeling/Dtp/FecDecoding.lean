import Dtp.Error
import Dtp.Frame
import Dtp.Lib.Program
import Dtp.Lib.Runs

/-!
# Decoding FEC groups

A packet that belongs to a FEC group says so in its header. The receiver sets up a
decoder with the first packet of a group, feeds it every packet of the group, and tries
to restore the missing ones. The header and the length of a packet are what the peer
makes them; the decoder asserts that the packets of a group agree, and uses their index
without a test.

## Main definitions

* `FecAlgorithm` — the Reed-Solomon codec, or the stub of a build without it
* `FecDecoder`, `feedPacket` — what a received packet does to the decoders
* `FecPacket.Accepted` — a packet that agrees with the earlier packets of its group

## Main results

* `survives_iff` — which sequences of packets the decoders survive
-/

namespace Dtp

open Lib (Program run)

/-- A shard of a FEC group, which is missing until it is received or restored. -/
abbrev Shard := Option (List UInt8)

/-- The code of FEC groups with `m` shards of data and `n` redundant shards. -/
structure FecAlgorithm where
  /-- Whether there is a code for these numbers of shards. -/
  builds : ℕ → ℕ → Bool
  /-- Fills in the missing shards of data. Returns false if it fails. -/
  reconstructData : ℕ → ℕ → List Shard → Bool × List Shard

namespace FecAlgorithm

/-- A fake and empty FEC algorithm, for a build without the codec. -/
def stub : FecAlgorithm where
  builds _ _ := true
  reconstructData _ _ shards := (true, shards)

/-- What is known of the Reed-Solomon codec. -/
structure Documented (r : FecAlgorithm) : Prop where
  builds_iff : ∀ m n, r.builds m n = true ↔ 0 < m ∧ 0 < n ∧ m + n ≤ 256
  tooFew : ∀ m n shards, shards.countP Option.isSome < m → (r.reconstructData m n shards).1 = false
  length : ∀ m n shards, (r.reconstructData m n shards).2.length = shards.length
  recovers : ∀ m n shards, m ≤ shards.countP Option.isSome →
    (r.reconstructData m n shards).1 = true →
      ∀ i < m, ∃ data, (r.reconstructData m n shards).2[i]? = some (some data)

end FecAlgorithm

/-- A FEC group as its receiver sees it. -/
structure FecDecoder where
  info : FecStatus
  shardSize : ℕ
  shards : List Shard

namespace FecDecoder

/-- The group of a packet without any of its shards. -/
def empty (info : FecStatus) (shardSize : ℕ) : FecDecoder where
  info := info
  shardSize := shardSize
  shards := List.replicate (info.m + info.n) none

/-- Creates the group of a packet. -/
def new {σ : Type} (r : FecAlgorithm) (info : FecStatus) (shardSize : ℕ) :
    Program Error σ FecDecoder :=
  if r.builds info.m info.n then pure (empty info shardSize) else Program.crash

/-- The group with one more shard. -/
def put (g : FecDecoder) (info : FecStatus) (data : List UInt8) : FecDecoder :=
  { g with
    info := { g.info with index := info.index }
    shards := g.shards.set info.index (some data) }

/-- What is asserted about a packet of the group; its index must be one of the shards. -/
def Fits (g : FecDecoder) (info : FecStatus) (data : List UInt8) : Prop :=
  info.m = g.info.m ∧ info.n = g.info.n ∧ info.groupId = g.info.groupId ∧
    data.length = g.shardSize ∧ info.index < g.shards.length

instance (g : FecDecoder) (info : FecStatus) (data : List UInt8) :
    Decidable (g.Fits info data) := by
  unfold Fits
  infer_instance

/-- Feeds a packet into the group. -/
def feedFecFrame {σ : Type} (g : FecDecoder) (info : FecStatus) (data : List UInt8) :
    Program Error σ FecDecoder :=
  if g.Fits info data then pure (g.put info data) else Program.crash

/-- The shards of data that are missing. -/
def missing (g : FecDecoder) : List ℕ :=
  (List.range g.shards.length).filter fun i => g.shards[i]? == some none && decide (i < g.info.m)

/-- Restores the missing shards of data, if enough shards are there. -/
def reconstruct {σ : Type} (r : FecAlgorithm) (g : FecDecoder) :
    Program Error σ (Option (List (List UInt8)) × FecDecoder) :=
  if g.missing.isEmpty then pure (none, g)
  else
    let (restores, shards) := r.reconstructData g.info.m g.info.n g.shards
    let g' := { g with shards := shards }
    let restored := g.missing.map fun i => shards[i]?.join
    if !restores then pure (none, g')
    -- every shard that was missing is unwrapped
    else if restored.all Option.isSome then pure (some (restored.filterMap id), g')
    else Program.crash

end FecDecoder

/-- The decoders, by the ids of their groups. -/
abbrev FecDecoders := ℕ → Option FecDecoder

/-- A 1-RTT packet that was decrypted: the FEC fields of its header, and its payload. -/
structure FecPacket where
  info : FecStatus
  payload : List UInt8

/-- What a received packet does to the decoders; returns the payloads that it restores. -/
def feedPacket (r : FecAlgorithm) (p : FecPacket) :
    Program Error FecDecoders (Option (List (List UInt8))) :=
  if p.info.groupId = 0 then pure none
  else do
    let decoders ← get
    -- a new group is created even if there is one already
    let fresh ← FecDecoder.new r p.info p.payload.length
    let g ← ((decoders p.info.groupId).getD fresh).feedFecFrame p.info p.payload
    let (restored, g) ← g.reconstruct r
    set fun id => if id = p.info.groupId then some g else decoders id
    pure restored

/-- The decoders after a packet, unless it makes them panic. -/
def feedStep (r : FecAlgorithm) (decoders : FecDecoders) (p : FecPacket) : Option FecDecoders :=
  (feedPacket r p).after decoders

/-- The decoders survive a sequence of packets from the beginning of a connection. -/
def Survives (r : FecAlgorithm) (packets : List FecPacket) : Prop :=
  (run (feedStep r) (fun _ => none) packets).isSome

namespace FecPacket

/-- Two packets claim to be of one FEC group. -/
def SameGroup (p q : FecPacket) : Prop := q.info.groupId = p.info.groupId

/-- There is a code for the group of the packet, the packet has its place in the group,
and it agrees with the packets of the group that came before. -/
structure Accepted (r : FecAlgorithm) (pre : List FecPacket) (p : FecPacket) : Prop where
  builds : r.builds p.info.m p.info.n = true
  index : p.info.index < p.info.m + p.info.n
  agrees : ∀ q ∈ pre, p.SameGroup q →
    q.info.m = p.info.m ∧ q.info.n = p.info.n ∧ q.payload.length = p.payload.length

/-- With this packet, all data of its group has been received. -/
def Completes (pre : List FecPacket) (p : FecPacket) : Prop :=
  ∀ i < p.info.m, ∃ q ∈ pre ++ [p], p.SameGroup q ∧ q.info.index = i

end FecPacket

/-! ### One packet -/

namespace FecDecoder

/-- Restoring the missing shards does not panic. -/
def Reconstructs (r : FecAlgorithm) (g : FecDecoder) : Prop :=
  (r.reconstructData g.info.m g.info.n g.shards).1 = true →
    ∀ i ∈ g.missing, ((r.reconstructData g.info.m g.info.n g.shards).2[i]?.join).isSome

/-- The group after an attempt to restore its missing shards. -/
def restored (r : FecAlgorithm) (g : FecDecoder) : FecDecoder :=
  if g.missing.isEmpty then g
  else { g with shards := (r.reconstructData g.info.m g.info.n g.shards).2 }

private theorem reconstruct_ends {σ : Type} (r : FecAlgorithm) (g : FecDecoder) (s : σ) :
    (g.reconstruct r).Ends s (fun out s' => s' = s ∧ out.2 = g.restored r ∧ g.Reconstructs r)
      fun e _ => e = .panic ∧ ¬ g.Reconstructs r := by
  unfold reconstruct restored Reconstructs
  by_cases hmissing : g.missing.isEmpty = true
  · rw [if_pos hmissing, if_pos hmissing]
    refine ⟨rfl, rfl, fun _ i hi => ?_⟩
    rw [List.isEmpty_iff.mp hmissing] at hi
    cases hi
  · rw [if_neg hmissing, if_neg hmissing]
    rcases r.reconstructData g.info.m g.info.n g.shards with ⟨_ | _, shards⟩
    · exact ⟨rfl, rfl, nofun⟩
    · dsimp only
      rw [if_neg (by simp)]
      refine Program.ends_ite.mpr ⟨fun hall => ⟨rfl, rfl, fun _ => ?_⟩, fun hall =>
        ⟨rfl, fun h => ?_⟩⟩
      · simpa using hall
      · exact hall (by simpa using h rfl)

end FecDecoder

/-- The group that a packet is fed into. -/
def FecDecoders.group (decoders : FecDecoders) (p : FecPacket) : FecDecoder :=
  (decoders p.info.groupId).getD (.empty p.info p.payload.length)

/-- The decoders after a packet of the group `g`. -/
def FecDecoders.update (decoders : FecDecoders) (id : ℕ) (g : FecDecoder) : FecDecoders :=
  fun i => if i = id then some g else decoders i

section Step

variable {r : FecAlgorithm} {decoders decoders' : FecDecoders} {p : FecPacket}

/-- What a packet of a FEC group does to the decoders. -/
theorem feedStep_eq_some (hgroup : p.info.groupId ≠ 0) : feedStep r decoders p = some decoders' ↔
    r.builds p.info.m p.info.n = true ∧ (decoders.group p).Fits p.info p.payload ∧
      ((decoders.group p).put p.info p.payload).Reconstructs r ∧
      decoders' = decoders.update p.info.groupId
        (((decoders.group p).put p.info p.payload).restored r) := by
  unfold feedStep feedPacket Program.after FecDecoder.new FecDecoder.feedFecFrame
  rw [if_neg hgroup]
  simp only [Program.bind_apply, Program.get_apply]
  by_cases hbuilds : r.builds p.info.m p.info.n = true
  · rw [if_pos hbuilds]
    simp only [Program.pure_apply]
    by_cases hfits : (decoders.group p).Fits p.info p.payload
    · have hgroup' : (decoders p.info.groupId).getD (.empty p.info p.payload.length) =
        decoders.group p := rfl
      rw [hgroup', if_pos hfits]
      have hends := FecDecoder.reconstruct_ends r ((decoders.group p).put p.info p.payload) decoders
      simp only [Program.pure_apply]
      cases hrun : (((decoders.group p).put p.info p.payload).reconstruct r :
          Program Error FecDecoders _) decoders with
      | ok out s' =>
        obtain ⟨rfl, hout, hrec⟩ := hends.ok hrun
        simp only [Program.set_apply, hout, Option.some.injEq, hbuilds, hfits,
          hrec, true_and]
        exact eq_comm
      | error e s' =>
        obtain ⟨rfl, hrec⟩ := hends.error hrun
        simp [hrec]
    · have hgroup' : (decoders p.info.groupId).getD (.empty p.info p.payload.length) =
        decoders.group p := rfl
      rw [hgroup', if_neg hfits]
      simp [hfits]
  · rw [if_neg hbuilds]
    simp [hbuilds]

private theorem feedStep_isSome (hgroup : p.info.groupId ≠ 0) : (feedStep r decoders p).isSome ↔
    r.builds p.info.m p.info.n = true ∧ (decoders.group p).Fits p.info p.payload ∧
      ((decoders.group p).put p.info p.payload).Reconstructs r := by
  rw [Option.isSome_iff_exists]
  constructor
  · rintro ⟨decoders', h⟩
    obtain ⟨hbuilds, hfits, hrec, -⟩ := (feedStep_eq_some hgroup).mp h
    exact ⟨hbuilds, hfits, hrec⟩
  · rintro ⟨hbuilds, hfits, hrec⟩
    exact ⟨_, (feedStep_eq_some hgroup).mpr ⟨hbuilds, hfits, hrec, rfl⟩⟩

theorem feedStep_of_none (hgroup : p.info.groupId = 0) : feedStep r decoders p = some decoders := by
  unfold feedStep feedPacket
  rw [if_pos hgroup]
  rfl

end Step

/-! ### The history of a group -/

/-- The packets of a group among those received so far have the length and the numbers
of shards of the group `g`. -/
structure FecDecoder.Of (g : FecDecoder) (pre : List FecPacket) (id : ℕ) : Prop where
  groupId : g.info.groupId = id
  length : g.shards.length = g.info.m + g.info.n
  agrees : ∀ q ∈ pre, q.info.groupId = id →
    q.info.m = g.info.m ∧ q.info.n = g.info.n ∧ q.payload.length = g.shardSize

/-- The decoders know the groups of the packets received so far. -/
structure FecDecoders.Tracks (decoders : FecDecoders) (pre : List FecPacket) : Prop where
  opened : ∀ id, (decoders id).isSome ↔ id ≠ 0 ∧ ∃ q ∈ pre, q.info.groupId = id
  group : ∀ id g, decoders id = some g → g.Of pre id

section Tracks

variable {r : FecAlgorithm} {decoders decoders' : FecDecoders} {pre : List FecPacket}
    {p : FecPacket}

theorem FecDecoders.tracks_nil : Tracks (fun _ => none) [] := ⟨by simp, nofun⟩

theorem FecDecoders.Tracks.fits_iff (h : decoders.Tracks pre) (hgroup : p.info.groupId ≠ 0) :
    (decoders.group p).Fits p.info p.payload ↔ p.info.index < p.info.m + p.info.n ∧
      ∀ q ∈ pre, p.SameGroup q →
        q.info.m = p.info.m ∧ q.info.n = p.info.n ∧ q.payload.length = p.payload.length := by
  have hopened := h.opened p.info.groupId
  cases hg : decoders p.info.groupId with
  | none =>
    rw [hg] at hopened
    have hnone : ∀ q ∈ pre, ¬ p.SameGroup q := fun q hq hsame => by
      simpa using hopened.mpr ⟨hgroup, q, hq, hsame⟩
    have heq : decoders.group p = .empty p.info p.payload.length := by
      rw [FecDecoders.group, hg]
      rfl
    rw [heq, FecDecoder.Fits]
    simp only [FecDecoder.empty, List.length_replicate, true_and]
    exact ⟨fun hindex => ⟨hindex, fun q hq hsame => absurd hsame (hnone q hq)⟩, And.left⟩
  | some g =>
    rw [hg] at hopened
    have heq : decoders.group p = g := by
      rw [FecDecoders.group, hg]
      rfl
    have hof := h.group _ g hg
    rw [heq, FecDecoder.Fits, hof.length, hof.groupId]
    constructor
    · rintro ⟨hm, hn, -, hlen, hindex⟩
      refine ⟨by rw [hm, hn]; exact hindex, fun q hq hsame => ?_⟩
      obtain ⟨hm', hn', hlen'⟩ := hof.agrees q hq hsame
      exact ⟨hm'.trans hm.symm, hn'.trans hn.symm, hlen'.trans hlen.symm⟩
    · rintro ⟨hindex, hagrees⟩
      -- the group was opened by an earlier packet, which agrees with both
      obtain ⟨-, q, hq, hsame⟩ := hopened.mp rfl
      obtain ⟨hm, hn, hlen⟩ := hagrees q hq hsame
      obtain ⟨hm', hn', hlen'⟩ := hof.agrees q hq hsame
      refine ⟨hm.symm.trans hm', hn.symm.trans hn', rfl, hlen.symm.trans hlen', ?_⟩
      rw [← hm', ← hn', hm, hn]
      exact hindex

/-- A packet of another group changes nothing about a group. -/
theorem FecDecoder.Of.append {g : FecDecoder} {id : ℕ} (h : g.Of pre id)
    (hne : p.info.groupId ≠ id) :
    g.Of (pre ++ [p]) id := by
  refine ⟨h.groupId, h.length, fun q hq hsame => ?_⟩
  rcases List.mem_append.mp hq with hq | hq
  · exact h.agrees q hq hsame
  · rw [List.mem_singleton.mp hq] at hsame
    exact absurd hsame hne

private theorem FecDecoder.restored_info (r : FecAlgorithm) (g : FecDecoder) :
    (g.restored r).info = g.info ∧ (g.restored r).shardSize = g.shardSize := by
  unfold restored
  split_ifs <;> exact ⟨rfl, rfl⟩

private theorem FecDecoder.restored_length (hlength : ∀ m n shards,
    (r.reconstructData m n shards).2.length = shards.length) (g : FecDecoder) :
    (g.restored r).shards.length = g.shards.length := by
  unfold restored
  split_ifs
  · rfl
  · exact hlength _ _ _

/-- The group of a packet that was fed into it. -/
theorem FecDecoder.Of.fed (hlength : ∀ m n shards,
    (r.reconstructData m n shards).2.length = shards.length) {g : FecDecoder}
    (hlen : g.shards.length = g.info.m + g.info.n) (hfits : g.Fits p.info p.payload)
    (hagrees : ∀ q ∈ pre, p.SameGroup q →
      q.info.m = p.info.m ∧ q.info.n = p.info.n ∧ q.payload.length = p.payload.length) :
    ((g.put p.info p.payload).restored r).Of (pre ++ [p]) p.info.groupId := by
  obtain ⟨hm, hn, hid, hsize, -⟩ := hfits
  obtain ⟨hinfo, hshard⟩ := restored_info r (g.put p.info p.payload)
  refine ⟨by rw [hinfo]; exact hid.symm, ?_, fun q hq hsame => ?_⟩
  · rw [restored_length hlength, hinfo]
    exact List.length_set.trans hlen
  · rw [hinfo, hshard]
    change _ = g.info.m ∧ _ = g.info.n ∧ _ = g.shardSize
    rw [← hm, ← hn, ← hsize]
    rcases List.mem_append.mp hq with hq | hq
    · exact hagrees q hq hsame
    · rw [List.mem_singleton.mp hq]
      exact ⟨rfl, rfl, rfl⟩

private theorem FecDecoders.Tracks.group_length (h : decoders.Tracks pre) :
    (decoders.group p).shards.length = (decoders.group p).info.m + (decoders.group p).info.n := by
  unfold FecDecoders.group
  cases hd : decoders p.info.groupId with
  | none => exact List.length_replicate
  | some g => exact (h.group _ g hd).length

/-- The decoders after one more packet. -/
theorem FecDecoders.Tracks.step (hlength : ∀ m n shards,
    (r.reconstructData m n shards).2.length = shards.length) (h : decoders.Tracks pre)
    (hstep : feedStep r decoders p = some decoders') : decoders'.Tracks (pre ++ [p]) := by
  have hother {id : ℕ} (hne : p.info.groupId ≠ id) :
      (∃ q ∈ pre, q.info.groupId = id) ↔ ∃ q ∈ pre ++ [p], q.info.groupId = id := by
    refine exists_congr fun q => and_congr_left fun hsame => ?_
    rw [List.mem_append, List.mem_singleton]
    exact ⟨.inl, fun hq => hq.resolve_right fun hqp => hne (by rw [← hsame, hqp])⟩
  by_cases hgroup : p.info.groupId = 0
  · -- the packet belongs to no group
    rw [feedStep_of_none hgroup] at hstep
    cases hstep
    refine ⟨fun id => ?_, fun id g hg => ?_⟩
    · rw [h.opened id]
      exact and_congr_right fun hid => hother (hgroup.trans_ne hid.symm)
    · have hid := ((h.opened id).mp (by rw [hg]; rfl)).1
      exact (h.group id g hg).append (hgroup.trans_ne hid.symm)
  · obtain ⟨-, hfits, -, rfl⟩ := (feedStep_eq_some hgroup).mp hstep
    refine ⟨fun id => ?_, fun id g hg => ?_⟩
    · unfold FecDecoders.update
      by_cases heq : id = p.info.groupId
      · rw [if_pos heq]
        exact iff_of_true rfl ⟨heq ▸ hgroup, p, List.mem_append_right _ List.mem_cons_self,
          heq.symm⟩
      · rw [if_neg heq, h.opened id]
        exact and_congr_right fun _ => hother (Ne.symm heq)
    · unfold FecDecoders.update at hg
      by_cases heq : id = p.info.groupId
      · rw [if_pos heq] at hg
        cases hg
        rw [heq]
        exact .fed hlength h.group_length hfits ((h.fits_iff hgroup).mp hfits).2
      · rw [if_neg heq] at hg
        exact (h.group id g hg).append (Ne.symm heq)

end Tracks

/-! ### With and without the codec -/

theorem FecDecoder.mem_missing {g : FecDecoder} {i : ℕ} :
    i ∈ g.missing ↔ g.shards[i]? = some none ∧ i < g.info.m := by
  rw [missing, List.mem_filter, List.mem_range, Bool.and_eq_true, beq_iff_eq, decide_eq_true_eq]
  refine and_iff_right_of_imp fun h => ?_
  exact (List.getElem?_eq_some_iff.mp h.1).1

/-- The codec restores every missing shard of data, or fails. -/
theorem FecAlgorithm.Documented.reconstructs {r : FecAlgorithm} (h : r.Documented)
    (g : FecDecoder) :
    g.Reconstructs r := by
  intro hrestores i hi
  have henough : g.info.m ≤ g.shards.countP Option.isSome := by
    by_contra hfew
    rw [h.tooFew _ _ _ (not_le.mp hfew)] at hrestores
    cases hrestores
  obtain ⟨data, hdata⟩ := h.recovers _ _ _ henough hrestores i (FecDecoder.mem_missing.mp hi).2
  rw [hdata]
  rfl

/-- The stub claims to restore what it leaves missing. -/
theorem FecAlgorithm.stub_reconstructs {g : FecDecoder} : g.Reconstructs stub ↔ g.missing = [] := by
  constructor
  · intro h
    rw [List.eq_nil_iff_forall_not_mem]
    intro i hi
    have := h rfl i hi
    change (g.shards[i]?.join).isSome = true at this
    rw [(FecDecoder.mem_missing.mp hi).1] at this
    cases this
  · intro h _ i hi
    rw [h] at hi
    cases hi

/-- The shards of each group are those of the packets received so far. -/
def FecDecoders.Holds (decoders : FecDecoders) (pre : List FecPacket) : Prop :=
  ∀ id g, decoders id = some g → ∀ i, g.shards[i]? = some none ↔
    i < g.info.m + g.info.n ∧ ¬ ∃ q ∈ pre, q.info.groupId = id ∧ q.info.index = i

section Stub

variable {decoders decoders' : FecDecoders} {pre : List FecPacket} {p : FecPacket}

/-- The missing shards of the group of a packet, with the packet itself. -/
theorem FecDecoders.Holds.put (h : decoders.Holds pre) (htracks : decoders.Tracks pre)
    (hgroup : p.info.groupId ≠ 0) (i : ℕ) :
    ((decoders.group p).put p.info p.payload).shards[i]? = some none ↔
      i < (decoders.group p).info.m + (decoders.group p).info.n ∧
        ¬ ∃ q ∈ pre ++ [p], p.SameGroup q ∧ q.info.index = i := by
  have hold : (decoders.group p).shards[i]? = some none ↔
      i < (decoders.group p).info.m + (decoders.group p).info.n ∧
        ¬ ∃ q ∈ pre, p.SameGroup q ∧ q.info.index = i := by
    unfold FecDecoders.group
    cases hd : decoders p.info.groupId with
    | some g => exact h _ g hd i
    | none =>
      have hnone : ¬ ∃ q ∈ pre, p.SameGroup q ∧ q.info.index = i := by
        rintro ⟨q, hq, hsame, -⟩
        have := (htracks.opened p.info.groupId).mpr ⟨hgroup, q, hq, hsame⟩
        rw [hd] at this
        cases this
      simp [hnone, FecDecoder.empty, List.getElem?_replicate]
  have hset : ((decoders.group p).put p.info p.payload).shards[i]? = some none ↔
      (decoders.group p).shards[i]? = some none ∧ p.info.index ≠ i := by
    unfold FecDecoder.put
    rw [List.getElem?_set]
    split_ifs with hidx hlt
    · simp [hidx]
    · simp [hidx]
    · simp [hidx]
  rw [hset, hold, and_assoc]
  refine and_congr_right fun _ => ?_
  simp only [List.mem_append, List.mem_singleton]
  constructor
  · rintro ⟨hpre, hne⟩ ⟨q, hq | rfl, hsame, hidx⟩
    · exact hpre ⟨q, hq, hsame, hidx⟩
    · exact hne hidx
  · intro hall
    exact ⟨fun ⟨q, hq, hrest⟩ => hall ⟨q, .inl hq, hrest⟩, fun hidx =>
      hall ⟨p, .inr rfl, rfl, hidx⟩⟩

theorem FecDecoders.Holds.step (h : decoders.Holds pre) (htracks : decoders.Tracks pre)
    (hstep : feedStep .stub decoders p = some decoders') : decoders'.Holds (pre ++ [p]) := by
  have hother {id i : ℕ} (hne : p.info.groupId ≠ id) :
      (∃ q ∈ pre, q.info.groupId = id ∧ q.info.index = i) ↔
        ∃ q ∈ pre ++ [p], q.info.groupId = id ∧ q.info.index = i := by
    refine exists_congr fun q => and_congr_left fun hsame => ?_
    rw [List.mem_append, List.mem_singleton]
    exact ⟨.inl, fun hq => hq.resolve_right fun hqp => hne (by rw [← hsame.1, hqp])⟩
  by_cases hgroup : p.info.groupId = 0
  · rw [feedStep_of_none hgroup] at hstep
    cases hstep
    intro id g hg i
    have hid := ((htracks.opened id).mp (by rw [hg]; rfl)).1
    rw [← hother (hgroup.trans_ne hid.symm)]
    exact h id g hg i
  · obtain ⟨-, -, -, rfl⟩ := (feedStep_eq_some hgroup).mp hstep
    intro id g hg i
    unfold FecDecoders.update at hg
    by_cases heq : id = p.info.groupId
    · rw [if_pos heq] at hg
      cases hg
      have hrestored (g : FecDecoder) : g.restored .stub = g := by
        unfold FecDecoder.restored
        split_ifs <;> rfl
      rw [heq, hrestored]
      exact h.put htracks hgroup i
    · rw [if_neg heq] at hg
      rw [← hother (Ne.symm heq)]
      exact h id g hg i

/-- The stub leaves no shard of data missing only if all of them were received. -/
theorem FecDecoders.Holds.completes_iff (h : decoders.Holds pre) (htracks : decoders.Tracks pre)
    (hgroup : p.info.groupId ≠ 0) (hfits : (decoders.group p).Fits p.info p.payload) :
    ((decoders.group p).put p.info p.payload).Reconstructs .stub ↔ p.Completes pre := by
  rw [FecAlgorithm.stub_reconstructs, List.eq_nil_iff_forall_not_mem]
  refine forall_congr' fun i => ?_
  have hm : ((decoders.group p).put p.info p.payload).info.m = p.info.m := hfits.1.symm
  have hlt (hi : i < p.info.m) : i < (decoders.group p).info.m + (decoders.group p).info.n := by
    rw [← hfits.1]
    omega
  rw [FecDecoder.mem_missing, h.put htracks hgroup, hm]
  constructor
  · intro hnot hi
    by_contra hnone
    exact hnot ⟨⟨hlt hi, hnone⟩, hi⟩
  · rintro hall ⟨⟨-, hnone⟩, hi⟩
    exact hnone (hall hi)

end Stub

/-- What a packet must be for the decoders to survive it. -/
theorem FecDecoders.Tracks.feedStep_isSome_iff {r : FecAlgorithm} {decoders : FecDecoders}
    {pre : List FecPacket} {p : FecPacket} (h : decoders.Tracks pre) {C : Prop}
    (hrec : p.info.groupId ≠ 0 → (decoders.group p).Fits p.info p.payload →
      (((decoders.group p).put p.info p.payload).Reconstructs r ↔ C)) :
    (feedStep r decoders p).isSome ↔ (p.info.groupId ≠ 0 → p.Accepted r pre ∧ C) := by
  by_cases hgroup : p.info.groupId = 0
  · rw [feedStep_of_none hgroup]
    exact iff_of_true rfl (absurd hgroup)
  · rw [feedStep_isSome hgroup]
    constructor
    · rintro ⟨hbuilds, hfits, hreconstructs⟩ -
      obtain ⟨hindex, hagrees⟩ := (h.fits_iff hgroup).mp hfits
      exact ⟨⟨hbuilds, hindex, hagrees⟩, (hrec hgroup hfits).mp hreconstructs⟩
    · intro hall
      obtain ⟨haccepted, hC⟩ := hall hgroup
      have hfits := (h.fits_iff hgroup).mpr ⟨haccepted.index, haccepted.agrees⟩
      exact ⟨haccepted.builds, hfits, (hrec hgroup hfits).mpr hC⟩

/-- Which sequences of packets the decoders survive, in the build with the codec and in
the build without it. -/
theorem survives_iff {r : FecAlgorithm} (h : r.Documented) (packets : List FecPacket) :
    (Survives r packets ↔ ∀ pre p post, packets = pre ++ p :: post → p.info.groupId ≠ 0 →
      p.Accepted r pre) ∧
    (Survives .stub packets ↔ ∀ pre p post, packets = pre ++ p :: post → p.info.groupId ≠ 0 →
      p.Accepted .stub pre ∧ p.Completes pre) := by
  constructor
  · refine Lib.run_isSome_iff (I := fun pre decoders => FecDecoders.Tracks decoders pre)
      (C := fun pre (p : FecPacket) => p.info.groupId ≠ 0 → p.Accepted r pre)
      (fun pre decoders p decoders' htracks => htracks.step h.length)
      (fun pre decoders p htracks => ?_) FecDecoders.tracks_nil
    rw [htracks.feedStep_isSome_iff (C := True) fun _ _ => iff_true_intro (h.reconstructs _)]
    simp
  · refine Lib.run_isSome_iff
      (I := fun pre decoders => FecDecoders.Tracks decoders pre ∧ FecDecoders.Holds decoders pre)
      (C := fun pre (p : FecPacket) => p.info.groupId ≠ 0 → p.Accepted .stub pre ∧ p.Completes pre)
      (fun pre decoders p decoders' hI hstep => ?_) (fun pre decoders p hI => ?_)
      ⟨FecDecoders.tracks_nil, nofun⟩
    · exact ⟨hI.1.step (fun _ _ _ => rfl) hstep, hI.2.step hI.1 hstep⟩
    · exact hI.1.feedStep_isSome_iff fun hgroup hfits => hI.2.completes_iff hI.1 hgroup hfits

/-! ### A code to look at -/

namespace FecAlgorithm

/-- The Reed-Solomon code for one shard of data, which repeats it. It gives up on larger
groups. -/
def repetition : FecAlgorithm where
  builds m n := decide (0 < m ∧ 0 < n ∧ m + n ≤ 256)
  reconstructData m _ shards :=
    match m, (shards.filterMap id).head? with
    | 1, some data => (true, shards.set 0 (some data))
    | _, _ => (false, shards)

theorem repetition_documented : repetition.Documented where
  builds_iff m n := by simp [repetition]
  tooFew m n shards hfew := by
    unfold repetition
    dsimp only
    split
    · rename_i data hdata
      have hnone : ∀ s ∈ shards, ¬ s.isSome = true :=
        List.countP_eq_zero.mp (Nat.lt_one_iff.mp hfew)
      obtain ⟨s, hs, heq⟩ := List.mem_filterMap.mp (List.mem_of_mem_head? hdata)
      exact absurd (by rw [show s = some data from heq]; rfl) (hnone s hs)
    · rfl
  length m n shards := by
    unfold repetition
    dsimp only
    split
    · exact List.length_set
    · rfl
  recovers m n shards henough hrestores i hi := by
    unfold repetition at hrestores ⊢
    dsimp only at hrestores ⊢
    split at hrestores
    · rename_i data hdata
      obtain ⟨s, hs, -⟩ := List.mem_filterMap.mp (List.mem_of_mem_head? hdata)
      have hi0 : i = 0 := by omega
      refine ⟨data, ?_⟩
      rw [hi0, List.getElem?_set_self (List.length_pos_of_mem hs)]
    · cases hrestores

end FecAlgorithm

/-- A packet whose index is not one of its group's. -/
def strayPacket : FecPacket := ⟨⟨1, 1, 1, 5⟩, [0]⟩

/-- A single packet makes the decoders panic, with the codec and without it. -/
theorem not_survives : ¬ ∀ r : FecAlgorithm, r.Documented → ∀ packets,
    Survives r packets ∧ Survives .stub packets := by
  intro hall
  have hsurvives := (hall .repetition FecAlgorithm.repetition_documented [strayPacket]).1
  have hpanics : ¬ Survives .repetition [strayPacket] := by
    unfold Survives
    decide +kernel
  exact hpanics hsurvives

/-- A redundant packet restores a packet that arrives late. -/
theorem accepted_repetition :
    (FecPacket.mk ⟨1, 1, 1, 0⟩ [7]).Accepted .repetition [⟨⟨1, 1, 1, 1⟩, [7]⟩] := by
  have hsurvives : Survives .repetition [⟨⟨1, 1, 1, 1⟩, [7]⟩, ⟨⟨1, 1, 1, 0⟩, [7]⟩] := by
    unfold Survives
    decide +kernel
  exact (survives_iff FecAlgorithm.repetition_documented _).1.mp hsurvives [_] _
    [] rfl Nat.one_ne_zero

end Dtp
