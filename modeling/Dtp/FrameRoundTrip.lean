import Dtp.FrameCodec

/-!
# Frames are read back

A well formed frame is written in as many bytes as `wireLen` says, and read back from them,
whatever follows; only a frame of PADDING takes zero bytes that follow along. What is read from
unknown bytes is well formed.

## Main results

* `Frame.put_writes`, `Frame.fromBytes_reads` — a frame is written as its encoding and read from it
* `Frame.roundTrips` — both, as calls of the codec
* `Frame.fromBytes_parses` — reading unknown bytes ends, without a panic, in a well formed frame or
  an error
* `Frame.parse_safe` — so does the loop over a payload
-/

namespace Dtp

open Lib (Program Cursor beBytes)
open Lib.Cursor (Reads Writes Parses)

namespace Frame

open Octets

/-! ### ACK blocks -/

/-- The ranges go down from `smallestAck`, with gaps between them. -/
def Descends : ℕ → List (ℕ × ℕ) → Prop
  | _, [] => True
  | smallestAck, block :: blocks =>
    block.1 < block.2 ∧ block.2 < smallestAck ∧ Descends block.1 blocks

private theorem descends_of_pairwise {smallestAck : ℕ} {blocks : List (ℕ × ℕ)}
    (hnonempty : ∀ b ∈ blocks, b.1 < b.2) (hfirst : ∀ b ∈ blocks, b.2 < smallestAck)
    (hgap : blocks.Pairwise fun b b' => b'.2 < b.1) : Descends smallestAck blocks := by
  induction blocks generalizing smallestAck with
  | nil => trivial
  | cons b blocks ih =>
    obtain ⟨hb, hgap⟩ := List.pairwise_cons.mp hgap
    refine ⟨hnonempty b List.mem_cons_self, hfirst b List.mem_cons_self, ?_⟩
    exact ih (fun b' hb' => hnonempty b' (List.mem_cons_of_mem b hb')) hb hgap

/-- The ranges of a canonical set, from the largest down. -/
theorem descends_of_canonical {ranges : RangeSet} (h : ranges.Canonical) {first : ℕ × ℕ}
    {blocks : List (ℕ × ℕ)} (hreverse : ranges.inner.reverse = first :: blocks) :
    first.1 < first.2 ∧ Descends first.1 blocks := by
  have hmem (b : ℕ × ℕ) (hb : b ∈ first :: blocks) : b ∈ ranges.inner := by
    rw [← hreverse] at hb
    exact List.mem_reverse.mp hb
  have hsorted : (first :: blocks).Pairwise fun b b' => b'.1 < b.1 := by
    rw [← hreverse, List.pairwise_reverse]
    exact ranges.sorted
  have hgap : (first :: blocks).Pairwise fun b b' => b'.2 < b.1 :=
    hsorted.imp_of_mem fun hb hb' hlt => h.gap _ (hmem _ hb') _ (hmem _ hb) hlt
  obtain ⟨hfirst, hblocks⟩ := List.pairwise_cons.mp hgap
  exact ⟨h.nonempty first (hmem first List.mem_cons_self), descends_of_pairwise
    (fun b hb => h.nonempty b (hmem b (List.mem_cons_of_mem first hb))) hfirst hblocks⟩

private theorem putAckBlocks_writes {smallestAck : ℕ} {blocks : List (ℕ × ℕ)}
    (h : Descends smallestAck blocks)
    (hsmallest : smallestAck < 2 ^ 62) : Writes (putAckBlocks smallestAck blocks)
    (ackBlocksBytes smallestAck blocks) := by
  induction blocks generalizing smallestAck with
  | nil => exact .pure
  | cons block blocks ih =>
    obtain ⟨hblock, hlt, hrest⟩ := h
    rw [putAckBlocks, subU64_of_le hlt.le, pure_bind, subU64_of_le (by omega), pure_bind,
      subU64_of_le (by omega), pure_bind, subU64_of_le (by omega), pure_bind]
    refine .bind (putVarint_writes (by omega)) (.bind (putVarint_writes (by omega)) ?_)
    exact ih hrest (by omega)

/-- The blocks are put in front of the ranges that were read before. -/
theorem parseAckBlocks_reads {smallestAck : ℕ} {blocks : List (ℕ × ℕ)}
    (h : Descends smallestAck blocks)
    (hsmallest : smallestAck < 2 ^ 62) {ranges : RangeSet}
    (hranges : ∀ r ∈ ranges.inner, smallestAck ≤ r.1)
    (rest : List UInt8) : ∃ ranges' : RangeSet, ranges'.inner = blocks.reverse ++ ranges.inner ∧
      Reads (parseAckBlocks blocks.length smallestAck ranges) (ackBlocksBytes smallestAck blocks)
          rest ranges' := by
  induction blocks generalizing smallestAck ranges with
  | nil => exact ⟨ranges, rfl, .pure rest ranges⟩
  | cons block blocks ih =>
    obtain ⟨hblock, hlt, hdescends⟩ := h
    have hfront : (ranges.insert block).inner = block :: ranges.inner :=
      RangeSet.insert_front hblock.le fun r hr => hlt.trans_le (hranges r hr)
    have hranges' : ∀ r ∈ (ranges.insert block).inner, block.1 ≤ r.1 := by
      rw [hfront]
      refine List.forall_mem_cons.mpr ⟨le_rfl, fun r hr => ?_⟩
      have := hranges r hr
      omega
    obtain ⟨ranges', hinner, hread⟩ := ih hdescends (by omega) hranges'
    refine ⟨ranges', ?_, ?_⟩
    · rw [hinner, hfront, List.reverse_cons, List.append_assoc]
      rfl
    · rw [List.length_cons, parseAckBlocks]
      refine .bind (getVarint_reads _ (by omega)) ?_
      have hmax : (2 : ℕ) ^ 62 ≤ u64Max := by decide
      rw [addU64_of_le (by omega), pure_bind, if_neg (by omega), subU64_of_le (by omega), pure_bind,
        subU64_of_le (by omega), pure_bind]
      refine .bind (getVarint_reads _ (by omega)) ?_
      have hlargest : smallestAck - (smallestAck - block.2 - 1) - 2 = block.2 - 1 := by omega
      have hstart : block.2 - 1 - (block.2 - 1 - block.1) = block.1 := by omega
      have hstop : block.2 - 1 + 1 = block.2 := by omega
      rw [hlargest, if_neg (by omega), subU64_of_le (by omega), pure_bind, hstart,
        addU64_of_le (by omega), pure_bind, hstop]
      exact hread

/-- What the ranges of an ACK frame below `2 ^ 62` look like, from the largest down. -/
theorem exists_descends {ranges : RangeSet} (hne : ranges.isEmpty = false) (h : ranges.Canonical)
    (hbound : ∀ x, ranges.Has x → x < 2 ^ 62) :
    ∃ first blocks, ranges.inner.reverse = first :: blocks ∧
      first.1 < first.2 ∧ first.2 ≤ 2 ^ 62 ∧ Descends first.1 blocks ∧ blocks.length < 2 ^ 62 := by
  cases hreverse : ranges.inner.reverse with
  | nil =>
    rw [List.reverse_eq_nil_iff] at hreverse
    simp [RangeSet.isEmpty, hreverse] at hne
  | cons first blocks =>
    obtain ⟨hfirst, hdescends⟩ := descends_of_canonical h hreverse
    have hmem : first ∈ ranges.inner := List.mem_reverse.mp (hreverse ▸ List.mem_cons_self)
    have hlast := hbound (first.2 - 1) ⟨first, hmem, by omega, by omega⟩
    refine ⟨first, blocks, rfl, hfirst, by omega, hdescends, ?_⟩
    -- the starts of the ranges are distinct numbers below the bound
    have hnodup : (ranges.inner.map Prod.fst).Nodup :=
      List.pairwise_map.mpr (ranges.sorted.imp fun hlt => hlt.ne)
    have hsubset : ranges.inner.map Prod.fst ⊆ List.range (2 ^ 62) := by
      intro start hstart
      obtain ⟨r, hr, rfl⟩ := List.mem_map.mp hstart
      exact List.mem_range.mpr (hbound r.1 ⟨r, hr, le_rfl, h.nonempty r hr⟩)
    have hlen := (List.subperm_of_subset hnodup hsubset).length_le
    have hcount : ranges.inner.length = blocks.length + 1 := by
      rw [← List.length_reverse, hreverse, List.length_cons]
    rw [List.length_map, List.length_range, hcount] at hlen
    exact hlen

private theorem parseAckFrame_reads {packetTime ackDelay : ℕ} {ranges : RangeSet}
    (h : (Frame.ack packetTime ackDelay ranges).WellFormed) (rest : List UInt8) :
    Reads parseAckFrame (Frame.ack packetTime ackDelay ranges).body rest
        (.ack packetTime ackDelay ranges) := by
  obtain ⟨htime, hdelay, hne, hcanonical, hbound⟩ := h
  obtain ⟨first, blocks, hreverse, hfirst, hlast, hdescends, hcount⟩ :=
    exists_descends hne hcanonical hbound
  have hsingle : (RangeSet.empty.insert first).inner = [first] :=
    RangeSet.insert_front hfirst.le nofun
  have hranges : ∀ r ∈ (RangeSet.empty.insert first).inner, first.1 ≤ r.1 := by
    simp [hsingle]
  obtain ⟨ranges', hinner, hread⟩ := parseAckBlocks_reads hdescends (by omega) hranges rest
  -- the same ranges in the same order
  have hsame : ranges' = ranges := by
    have heq : ranges'.inner = ranges.inner := by
      rw [hinner, hsingle, ← List.reverse_cons, ← hreverse, List.reverse_reverse]
    cases ranges'
    cases ranges
    cases heq
    rfl
  subst hsame
  simp only [body, hreverse, List.flatMap_cons, List.flatMap_nil, List.append_nil,
    List.append_assoc]
  refine .bind (getVarint_reads _ (by omega)) (.bind (getVarint_reads _ htime) ?_)
  refine .bind (getVarint_reads _ hdelay) (.bind (getVarint_reads _ hcount) ?_)
  refine .bind (getVarint_reads _ (by omega)) ?_
  have hmax : (2 : ℕ) ^ 62 ≤ u64Max := by decide
  have hstart : first.2 - 1 - (first.2 - 1 - first.1) = first.1 := by omega
  have hstop : first.2 - 1 + 1 = first.2 := by omega
  rw [if_neg (by omega), subU64_of_le (by omega), pure_bind, hstart, addU64_of_le (by omega),
    pure_bind, hstop]
  exact hread.last

/-! ### Writing a frame -/

theorem tag_le (f : Frame) : f.tag ≤ 63 := by
  cases f with
  | stream streamId data =>
    rw [tag]
    split_ifs <;> decide
  | _ => simp [tag]

theorem put_writes {f : Frame} (h : f.WellFormed) (shard : List UInt8) :
    Writes (put shard f) f.bytes := by
  have htag : Writes (putVarint f.tag) (varintBytes f.tag) := putVarint_writes
    (f.tag_le.trans_lt (by decide))
  cases f with
  | padding len =>
    -- padding is written as zeros, one byte each
    have hzeros : (Frame.padding len).bytes = (List.replicate len 0).flatMap varintBytes := by
      have hone : (List.replicate len 0).flatMap varintBytes = List.replicate len 0 := by
        rw [List.flatMap_replicate, varintBytes_of_le (Nat.zero_le _)]
        simp
      obtain ⟨k, rfl⟩ := Nat.exists_eq_add_of_le h
      rw [hone, bytes, tag, varintBytes_of_le (Nat.zero_le _), body, Nat.add_sub_cancel_left,
        Nat.add_comm,
        List.replicate_succ]
      rfl
    rw [hzeros]
    exact putVarints_writes fun v hv => by rw [(List.mem_replicate.mp hv).2]; decide
  | ping => exact htag.last
  | handshakeDone => exact htag.last
  | ack packetTime ackDelay ranges =>
    obtain ⟨htime, hdelay, hne, hcanonical, hbound⟩ := h
    -- the ranges from the largest down, with a gap between each two
    obtain ⟨first, blocks, hreverse, hfirst, hlast, hdescends, hcount⟩ :=
      exists_descends hne hcanonical hbound
    refine .bind htag ?_
    simp only [body, hreverse]
    rw [subU64_of_le (by omega), pure_bind, subU64_of_le (by omega), pure_bind]
    refine .bind (putVarints_writes ?_) (putAckBlocks_writes hdescends (by omega))
    simp only [List.forall_mem_cons, List.not_mem_nil, false_imp_iff, implies_true, and_true]
    omega
  | resetStream streamId errorCode finalSize =>
    refine .bind htag (.bind (putVarint_writes h.1) ?_)
    exact .bind (putUint_writes 2 errorCode) (putVarint_writes h.2.2)
  | newConnectionId seqNum retirePriorTo connId resetToken =>
    refine .bind htag (.bind (putVarints_writes ?_) ?_)
    · simpa using ⟨h.1, h.2.1⟩
    · exact .bind (putUint_writes 1 connId.length)
        (.bind (putBytes_writes connId) (putBytes_writes resetToken))
  | pathChallenge data => exact .bind htag (putBytes_writes data)
  | pathResponse data => exact .bind htag (putBytes_writes data)
  | crypto data =>
    refine .bind htag (.bind (putVarints_writes ?_) (putBytes_writes data.data))
    simpa [WellFormed] using h
  | newToken token =>
    refine .bind htag (.bind (putVarints_writes ?_) (putBytes_writes token))
    simpa [WellFormed] using h
  | stream streamId data =>
    obtain ⟨hid, hend⟩ := h
    refine .bind htag (.bind (putVarints_writes ?_) (putBytes_writes data.data))
    simp only [List.forall_mem_cons, List.not_mem_nil, false_imp_iff, implies_true, and_true]
    omega
  | connectionClose errorCode frameType reason =>
    refine .bind htag (.bind (putVarints_writes ?_) (putBytes_writes reason))
    simpa [WellFormed] using h
  | applicationClose errorCode reason =>
    refine .bind htag (.bind (putVarints_writes ?_) (putBytes_writes reason))
    simpa [WellFormed] using h
  | fec info dataLen => exact h.elim
  | _ =>
    refine .bind htag (putVarints_writes ?_)
    simpa [WellFormed] using h

/-- The encoding of a frame is as long as `wireLen` says. -/
theorem bytes_length {f : Frame} (h : f.WellFormed) : f.bytes.length = f.wireLen := by
  have hblocks (smallestAck : ℕ) (blocks : List (ℕ × ℕ)) :
      (ackBlocksBytes smallestAck blocks).length = ackBlocksLen smallestAck blocks := by
    induction blocks generalizing smallestAck with
    | nil => rfl
    | cons block blocks ih => simp [ackBlocksBytes, ackBlocksLen, ih, Nat.add_assoc]
  have htag : (varintBytes f.tag).length = 1 := by
    rw [varintBytes_length, varintLen, if_pos f.tag_le]
  rw [bytes, List.length_append, htag]
  cases f with
  | padding len =>
    have hlen : 1 ≤ len := h
    simp only [body, List.length_replicate, wireLen]
    omega
  | ack packetTime ackDelay ranges =>
    obtain ⟨-, -, hne, hcanonical, hbound⟩ := h
    obtain ⟨first, blocks, hreverse, -⟩ := exists_descends hne hcanonical hbound
    simp only [body, wireLen, hreverse, List.length_append, hblocks, List.flatMap_cons,
      List.flatMap_nil,
      varintBytes_length, List.length_nil]
    omega
  | newConnectionId seqNum retirePriorTo connId resetToken =>
    simp only [body, wireLen, List.length_append, List.flatMap_cons, List.flatMap_nil,
      varintBytes_length,
      List.length_nil, Lib.beBytes_length]
    omega
  | fec info dataLen => exact h.elim
  | ping => rfl
  | handshakeDone => rfl
  | _ =>
    simp only [body, wireLen, RangeBuf.len, List.length_append, List.flatMap_cons, List.flatMap_nil,
      varintBytes_length, List.length_nil, Lib.beBytes_length, WellFormed] at h ⊢
    omega

/-! ### Reading a frame back -/

private theorem parsePadding_reads (len : ℕ) {rest : List UInt8} (h : rest.head? ≠ some 0) :
    Reads parsePadding (List.replicate len 0) rest (.padding (1 + len)) := by
  intro before
  have hzeros : (List.replicate len 0 ++ rest).takeWhile
      (fun v : UInt8 => v == 0) = List.replicate len 0 := by
    rw [List.takeWhile_append_of_pos fun v hv => by simp [(List.mem_replicate.mp hv).2]]
    have hnone : rest.takeWhile (fun v : UInt8 => v == 0) = [] := by
      cases rest with
      | nil => rfl
      | cons v rest =>
        have hv : (v == 0) = false := by simpa using h
        rw [List.takeWhile_cons, hv]
        rfl
    rw [hnone, List.append_nil]
  have hread : Reads (getBytes len) (List.replicate len 0) rest (List.replicate len 0) :=
    getBytes_reads rest List.length_replicate
  rw [parsePadding, Program.bind_apply, Program.get_apply]
  dsimp only
  rw [hzeros, List.length_replicate, Program.bind_apply, hread before]
  dsimp only
  rw [List.length_replicate]
  rfl

private theorem parseStreamFrame_reads {streamId : ℕ} {data : RangeBuf}
    (h : (Frame.stream streamId data).WellFormed)
    (rest : List UInt8) :
    Reads (parseStreamFrame (Frame.stream streamId data).tag) (Frame.stream streamId data).body rest
      (.stream streamId data) := by
  obtain ⟨hid, hend⟩ := h
  obtain ⟨bytes, off, fin⟩ := data
  have hmax : (2 : ℕ) ^ 62 ≤ u64Max := by decide
  simp only [RangeBuf.len] at hend
  -- an offset and a length are always there
  have hparse : parseStreamFrame (Frame.stream streamId ⟨bytes, off, fin⟩).tag = (do
      let streamId ← getVarint
      let offset ← getVarint
      let len ← getVarint
      if maxStreamSize ≤ (← addU64 offset len) then Program.fail .invalidFrame
      else
        let data ← getBytes len
        pure (.stream streamId ⟨data, offset, fin⟩)) := by
    cases fin
    · simp [parseStreamFrame, tag]
    · simp [parseStreamFrame, tag]
  rw [hparse]
  simp only [body, RangeBuf.len, List.flatMap_cons, List.flatMap_nil, List.append_nil,
    List.append_assoc]
  refine .bind (getVarint_reads _ hid) (.bind (getVarint_reads _ (by omega)) ?_)
  refine .bind (getVarint_reads _ (by omega)) ?_
  rw [addU64_of_le (by omega), pure_bind, if_neg (by rw [maxStreamSize]; omega)]
  exact (getBytes_reads rest rfl).last

/-- The fields that follow the type are read back. -/
theorem parse_reads {f : Frame} (h : f.WellFormed) {rest : List UInt8}
    (hrest : f.tag = 0 → rest.head? ≠ some 0) : Reads (parse f.tag) f.body rest f.readBack := by
  cases f with
  | padding len =>
    -- padding ends before the next byte that is not zero
    have hread := parsePadding_reads (len - 1) (hrest rfl)
    have hlen : 1 + (len - 1) = len := Nat.add_sub_cancel' h
    rwa [hlen] at hread
  | ping => exact .pure rest _
  | handshakeDone => exact .pure rest _
  | ack packetTime ackDelay ranges => exact parseAckFrame_reads h rest
  | resetStream streamId errorCode finalSize =>
    refine .bind (getVarint_reads _ h.1) (.bind (getUint_reads _ h.2.1) ?_)
    exact (getVarint_reads rest h.2.2).last
  | newConnectionId seqNum retirePriorTo connId resetToken =>
    simp only [body, List.flatMap_cons, List.flatMap_nil, List.append_nil, List.append_assoc]
    refine .bind (getVarint_reads _ h.1) (.bind (getVarint_reads _ h.2.1) ?_)
    rw [← List.append_assoc (beBytes 1 _)]
    exact .bind (getBytesWithU8Length_reads _ (by have := h.2.2.1; omega))
      (getBytes_reads rest h.2.2.2).last
  | pathChallenge data => exact (getBytes_reads rest h).last
  | pathResponse data => exact (getBytes_reads rest h).last
  | crypto data =>
    simp only [body, List.flatMap_cons, List.flatMap_nil, List.append_nil, List.append_assoc]
    exact .bind (getVarint_reads _ h.1) (getBytesWithVarintLength_reads rest h.2).last
  | newToken token =>
    simp only [body, List.flatMap_cons, List.flatMap_nil, List.append_nil]
    exact (getBytesWithVarintLength_reads rest h).last
  | stream streamId data =>
    -- the tag of a STREAM frame says whether it is the last one
    have hparse : parse (Frame.stream streamId data).tag = parseStreamFrame
        (Frame.stream streamId data).tag := by
      rw [tag]
      cases data.fin <;> rfl
    rw [hparse]
    exact parseStreamFrame_reads h rest
  | connectionClose errorCode frameType reason =>
    simp only [body, List.flatMap_cons, List.flatMap_nil, List.append_nil, List.append_assoc]
    refine .bind (getVarint_reads _ h.1) (.bind (getVarint_reads _ h.2.1) ?_)
    exact (getBytesWithVarintLength_reads rest h.2.2).last
  | applicationClose errorCode reason =>
    simp only [body, List.flatMap_cons, List.flatMap_nil, List.append_nil, List.append_assoc]
    exact .bind (getVarint_reads _ h.1) (getBytesWithVarintLength_reads rest h.2).last
  | blockInfo streamId blockSize blockPriority blockDeadline startTime =>
    obtain ⟨hid, hsize, hpriority, hdeadline, hstart⟩ := h
    simp only [body, List.flatMap_cons, List.flatMap_nil, List.append_nil]
    refine .bind (getVarint_reads _ hid) (.bind (getVarint_reads _ hsize) ?_)
    refine .bind (getVarint_reads _ hpriority) (.bind (getVarint_reads _ hdeadline) ?_)
    exact (getVarint_reads rest hstart).last
  | stopSending streamId v | maxStreamData streamId v | streamDataBlocked streamId v =>
    simp only [body, List.flatMap_cons, List.flatMap_nil, List.append_nil]
    exact .bind (getVarint_reads _ h.1) (getVarint_reads rest h.2).last
  | fec info dataLen => exact h.elim
  | maxData v | maxStreamsBidi v | maxStreamsUni v | dataBlocked v | streamsBlockedBidi v
  | streamsBlockedUni v | retireConnectionId v =>
    simp only [body, List.flatMap_cons, List.flatMap_nil, List.append_nil]
    exact (getVarint_reads rest h).last

/-- A frame is read from its encoding in a packet that may have it. -/
theorem fromBytes_reads {f : Frame} (h : f.WellFormed) {pkt : PacketType}
    (hallowed : f.allowed pkt = true)
    {rest : List UInt8} (hrest : f.tag = 0 → rest.head? ≠ some 0) :
    Reads (fromBytes pkt) f.bytes rest f.readBack := by
  have hback : f.readBack.allowed pkt = true := by
    cases f <;> cases pkt <;> exact hallowed
  refine .bind (getVarint_reads _ (f.tag_le.trans_lt (by decide))) ?_
  have hframe : Reads (do
      let frame ← parse f.tag
      if frame.allowed pkt then pure frame else Program.fail .invalidPacket)
      (f.body ++ []) rest f.readBack := by
    refine .bind (parse_reads h (by rwa [List.nil_append])) ?_
    rw [if_pos hback]
    exact .pure rest _
  rwa [List.append_nil] at hframe

/-- A frame takes `wireLen` bytes, and is read back from them as an equal frame. -/
theorem roundTrips {f : Frame} (h : f.WellFormed) (pkt : PacketType)
    (hallowed : f.allowed pkt = true)
    (shard before after : List UInt8) (hroom : f.wireLen ≤ after.length) :
    ∃ output, output.length = f.wireLen ∧
      toBytes shard f ⟨before, after⟩ = .ok f.wireLen ⟨before ++ output, after.drop f.wireLen⟩ ∧
      ∀ start rest, ((∃ len, f = .padding len) → rest.head? ≠ some 0) →
        ∃ g, fromBytes pkt ⟨start, output ++ rest⟩ = .ok g ⟨start ++ output, rest⟩ ∧ f.eq g = true ∧
          g = f.readBack := by
  have hlen := bytes_length h
  refine ⟨f.bytes, hlen, ?_, fun start rest hrest => ⟨f.readBack, ?_, f.eq_readBack, rfl⟩⟩
  · have hput := put_writes h shard before after (by rwa [hlen])
    rw [hlen] at hput
    have hcap : after.length - (after.drop f.wireLen).length = f.wireLen := by
      rw [List.length_drop]
      omega
    simp only [toBytes, cap, Program.bind_apply, Program.get_apply, Program.pure_apply, hput, hcap]
  · refine fromBytes_reads h hallowed (fun htag => hrest ?_) start
    cases f with
    | padding len => exact ⟨len, rfl⟩
    | fec info dataLen => exact h.elim
    | stream streamId data =>
      rw [tag] at htag
      cases hfin : data.fin <;> simp [hfin] at htag
    | _ => simp [tag] at htag

/-- A frame that acknowledges the numbers 2, 3 and 7, in front of the byte 1. -/
theorem roundTrips_ack : ∃ output : List UInt8, output.length = 8 ∧
    ∃ g, fromBytes .handshake ⟨[], output ++ [1]⟩ = .ok g ⟨output, [1]⟩ ∧
      (Frame.ack 5 6 ⟨[(2, 4), (7, 8)], by decide⟩).eq g = true := by
  have hcanonical : (⟨[(2, 4), (7, 8)], by decide⟩ : RangeSet).Canonical := by
    constructor <;> decide
  have hwell : (Frame.ack 5 6 ⟨[(2, 4), (7, 8)], by decide⟩).WellFormed := by
    refine ⟨by decide, by decide, rfl, hcanonical, ?_⟩
    rintro x ⟨r, hr, -, hlt⟩
    have hall : ∀ r ∈ [(2, 4), (7, 8)], r.2 < 2 ^ 62 := by decide
    exact hlt.trans (hall r hr)
  obtain ⟨output, hlen, -, hread⟩ :=
    roundTrips hwell .handshake rfl [] [] (List.replicate 8 0) (by decide)
  obtain ⟨g, hg, heq, -⟩ := hread [] [1] fun _ => by decide
  exact ⟨output, hlen, g, hg, heq⟩

/-- A frame of PADDING without a byte is written as nothing, which is not read back. -/
theorem roundTrips_fails : (Frame.padding 0).allowed .short = true ∧ (Frame.padding 0).wireLen = 0 ∧
    toBytes [] (.padding 0) ⟨[], []⟩ = .ok 0 ⟨[], []⟩ ∧
    fromBytes .short ⟨[], []⟩ = .error (.error .bufferTooShort) ⟨[], []⟩ ∧
    fromBytes .short ⟨[], [1]⟩ = .ok .ping ⟨[1], []⟩ := ⟨rfl, rfl, rfl, rfl, rfl⟩

/-! ### Reading unknown bytes -/

/-- What an ACK frame says it has received. -/
def Acknowledges (ranges : RangeSet) : Prop :=
  ranges.isEmpty = false ∧ ranges.Canonical ∧ ∀ x, ranges.Has x → x < 2 ^ 62

theorem Acknowledges.insert {ranges : RangeSet} (hcanonical : ranges.Canonical)
    (hbound : ∀ x, ranges.Has x → x < 2 ^ 62) {start stop : ℕ} (h : start < stop)
    (hstop : stop ≤ 2 ^ 62) :
    Acknowledges (ranges.insert (start, stop)) := by
  obtain ⟨hinsert, hhas⟩ := @RangeSet.Canonical.insert _ hcanonical (start, stop) h
  refine ⟨?_, hinsert, fun x hx => ?_⟩
  · have hstart : (ranges.insert (start, stop)).Has start := (hhas start).mpr (.inr ⟨le_rfl, h⟩)
    obtain ⟨r, hr, -⟩ := hstart
    rw [RangeSet.isEmpty, List.isEmpty_eq_false_iff]
    exact List.ne_nil_of_mem hr
  · rcases (hhas x).mp hx with hx | hx
    · exact hbound x hx
    · exact hx.2.trans_le hstop

/-- The numbers go down from block to block, and no step goes below zero. -/
theorem parseAckBlocks_parses {count smallestAck : ℕ} {ranges : RangeSet}
    (hranges : Acknowledges ranges)
    (hsmallest : smallestAck < 2 ^ 62) :
    Parses maxSlice (parseAckBlocks count smallestAck ranges) 0 Acknowledges := by
  have hmax : (2 : ℕ) ^ 62 + 2 ^ 62 ≤ u64Max := by decide
  induction count generalizing smallestAck ranges with
  | zero => exact .pure hranges
  | succ count ih =>
    refine getVarint_parses.andThen (m := 0) fun gap hgap => ?_
    rw [addU64_of_le (by omega), pure_bind]
    refine .ite (fun _ => .fail _) fun hroom => ?_
    rw [subU64_of_le (by omega), pure_bind, subU64_of_le (by omega), pure_bind]
    refine getVarint_parses.andThen (m := 0) fun ackBlock hblock => ?_
    refine .ite (fun _ => .fail _) fun hle => ?_
    rw [subU64_of_le (by omega), pure_bind, addU64_of_le (by omega), pure_bind]
    exact ih (.insert hranges.2.1 hranges.2.2 (by omega) (by omega)) (by omega)

/-- The first block starts from the largest number, the others from the block before. -/
theorem parseAckFrame_parses : Parses maxSlice parseAckFrame 0 WellFormed := by
  have hmax : (2 : ℕ) ^ 62 + 2 ^ 62 ≤ u64Max := by decide
  refine getVarint_parses.andThen fun largestAck hlargest =>
      getVarint_parses.andThen fun packetTime htime =>
    getVarint_parses.andThen fun ackDelay hdelay =>
        getVarint_parses.andThen fun blockCount hcount =>
    getVarint_parses.andThen (m := 0) fun ackBlock hblock => ?_
  refine .ite (fun _ => .fail _) fun hle => ?_
  rw [subU64_of_le (by omega), pure_bind, addU64_of_le (by omega), pure_bind]
  have hfirst : Acknowledges (RangeSet.empty.insert (largestAck - ackBlock, largestAck + 1)) :=
    .insert RangeSet.canonical_empty (fun x hx => (RangeSet.not_has_empty x hx).elim) (by omega)
      (by omega)
  refine (parseAckBlocks_parses hfirst (by omega)).bind fun ranges hranges => .pure ?_
  exact ⟨htime, hdelay, hranges⟩

private theorem parseStreamFrame_parses (ty : ℕ) :
    Parses maxSlice (parseStreamFrame ty) 0 WellFormed := by
  have hmax : (2 : ℕ) ^ 62 + maxSlice ≤ u64Max := by decide
  refine getVarint_parses.andThen (m := 0) fun streamId hid => ?_
  have hoffset : Parses maxSlice (if ty % 256 &&& 0x04 ≠ 0 then getVarint else pure 0) 0
      (· < 2 ^ 62) :=
    .ite (fun _ => getVarint_parses.mono (fun _ h => h) (Nat.zero_le _)) fun _ => .pure (by decide)
  -- without a length, the data takes all that is left
  have hlen : Parses maxSlice (if ty % 256 &&& 0x02 ≠ 0 then getVarint else cap <$> get) 0
      (· ≤ maxSlice) :=
    .ite (fun _ => getVarint_parses.mono (fun _ h => h.le.trans (by decide)) (Nat.zero_le _))
        fun _ =>
      Lib.Cursor.parses_get.map fun _ h => h
  refine hoffset.bind fun offset hoffset => hlen.bind (m := 0) fun len hlen => ?_
  rw [addU64_of_le (by omega), pure_bind]
  refine .ite (fun _ => .fail _) fun hend => (getBytes_parses len).andThen fun data hdata =>
    .pure ?_
  rw [maxStreamSize] at hend
  refine ⟨hid, ?_⟩
  change offset + data.length < 2 ^ 62
  omega

/-- Every frame that is read is well formed. -/
theorem parse_parses (frameType : ℕ) : Parses maxSlice (parse frameType) 0 WellFormed := by
  have varint {f : ℕ → Frame} (hf : ∀ v, v < 2 ^ 62 → (f v).WellFormed) :
      Parses maxSlice (do let v ← getVarint; pure (f v)) 0 WellFormed :=
    getVarint_parses.andThen fun v hv => .pure (hf v hv)
  have varints {f : ℕ → ℕ → Frame} (hf : ∀ v w, v < 2 ^ 62 → w < 2 ^ 62 → (f v w).WellFormed) :
      Parses maxSlice (do let v ← getVarint; let w ← getVarint; pure (f v w)) 0 WellFormed :=
    getVarint_parses.andThen fun v hv => varint fun w hw => hf v w hv hw
  have data {f : List UInt8 → Frame} (hf : ∀ v, v.length < 2 ^ 62 → (f v).WellFormed) :
      Parses maxSlice (do let v ← getBytesWithVarintLength; pure (f v)) 0 WellFormed :=
    getBytesWithVarintLength_parses.andThen fun v hv => .pure (hf v hv)
  -- one goal for each frame type, in the order of `parse`
  unfold parse
  split
  · refine Lib.Cursor.parses_get.andThen (m := 0) fun b _ =>
      (getBytes_parses _).andThen fun zeros _ => .pure ?_
    exact Nat.le_add_right 1 _
  · exact .pure trivial
  · exact parseAckFrame_parses
  · refine getVarint_parses.andThen (m := 0) fun streamId hid => ?_
    exact (getUint_parses 2).andThen fun errorCode herror => varint fun size hsize =>
      ⟨hid, herror, hsize⟩
  · exact varints fun _ _ hv hw => ⟨hv, hw⟩
  · exact getVarint_parses.andThen fun offset hoffset => data fun v hv => ⟨hoffset, hv⟩
  · exact data fun _ hv => hv
  · exact varint fun _ hv => hv
  · exact varints fun _ _ hv hw => ⟨hv, hw⟩
  · exact varint fun _ hv => hv
  · exact varint fun _ hv => hv
  · exact varint fun _ hv => hv
  · exact varints fun _ _ hv hw => ⟨hv, hw⟩
  · exact varint fun _ hv => hv
  · exact varint fun _ hv => hv
  · refine getVarint_parses.andThen fun seqNum hseq => getVarint_parses.andThen (m :=
      0) fun retire hretire => ?_
    refine getBytesWithU8Length_parses.andThen fun connId hid =>
        (getBytes_parses 16).andThen fun token htoken =>
      .pure ⟨hseq, hretire, ?_, htoken⟩
    omega
  · exact varint fun _ hv => hv
  · exact (getBytes_parses 8).andThen fun v hv => .pure hv
  · exact (getBytes_parses 8).andThen fun v hv => .pure hv
  · exact getVarint_parses.andThen fun errorCode herror =>
        getVarint_parses.andThen fun frameType htype =>
      data fun v hv => ⟨herror, htype, hv⟩
  · exact getVarint_parses.andThen fun errorCode herror => data fun v hv => ⟨herror, hv⟩
  · exact .pure trivial
  · exact getVarint_parses.andThen fun streamId hid => getVarint_parses.andThen fun size hsize =>
      getVarint_parses.andThen fun priority hpriority =>
          varints fun deadline start hdeadline hstart =>
        ⟨hid, hsize, hpriority, hdeadline, hstart⟩
  · exact .ite (fun _ => parseStreamFrame_parses frameType) fun _ => .fail _

theorem fromBytes_parses (pkt : PacketType) :
    Parses maxSlice (fromBytes pkt) 1 fun f => f.WellFormed ∧ f.allowed pkt = true := by
  refine getVarint_parses.bind fun frameType _ => (parse_parses frameType).andThen (m :=
    0) fun f hf => ?_
  exact .ite (fun hallowed => .pure ⟨hf, hallowed⟩) fun _ => .fail _

/-- Unknown bytes are read without a panic: every call takes a byte at least, the loop over a
payload ends after the last frame or with an error, and what the frames hold stays in range. -/
theorem parse_safe (pkt : PacketType) (payload : Slice) :
    (∀ before f b', fromBytes pkt ⟨before, payload.1⟩ = .ok f b' →
      ∃ taken, taken ≠ [] ∧ payload.1 = taken ++ b'.after ∧ b'.before = before ++ taken) ∧
    (∀ before e b', fromBytes pkt ⟨before, payload.1⟩ = .error e b' → ∃ err, e = .error err) ∧
    (∀ e, (parseAll pkt payload.1).2 = some e → ∃ err, e = .error err) ∧
    ∀ f ∈ (parseAll pkt payload.1).1,
      (∀ packetTime ackDelay ranges, f = .ack packetTime ackDelay ranges →
        ranges.isEmpty = false ∧ ranges.Canonical ∧ ∀ x, ranges.Has x → x < 2 ^ 62) ∧
      (∀ streamId data, f = .stream streamId data → data.off + data.len < 2 ^ 62) ∧
      ∀ data, f = .crypto data → data.off + data.len ≤ u64Max := by
  have hparses := fromBytes_parses pkt
  obtain ⟨hframes, hends⟩ := hparses.collect (b := ⟨[], payload.1⟩) payload.2 le_rfl
  refine ⟨fun before f b' hok => ?_, fun before e b' herror =>
    ((hparses _ payload.2).error herror).1, hends,
    fun f hf => ?_⟩
  · obtain ⟨taken, hlen, h⟩ := ((hparses _ payload.2).ok hok).2
    refine ⟨taken, ?_, h⟩
    rintro rfl
    exact absurd hlen (by decide)
  · obtain ⟨hwell, -⟩ := hframes f hf
    refine ⟨?_, ?_, ?_⟩
    · rintro packetTime ackDelay ranges rfl
      exact hwell.2.2
    · rintro streamId data rfl
      exact hwell.2
    · rintro data rfl
      have hmax : (2 : ℕ) ^ 62 + 2 ^ 62 ≤ u64Max := by decide
      have hoff : data.off < 2 ^ 62 := hwell.1
      have hlen : data.len < 2 ^ 62 := hwell.2
      omega

end Frame

end Dtp
