import Dtp.FinalSize
import Dtp.StreamRuns

/-!
# The set of readable streams

The stream map keeps the ids of the streams that have data to read in a set of its own.
The operations that bring data add to it, and those that take data away should remove
from it. Three of them may not: a RESET_STREAM frame for a missed deadline, an
acknowledgement that completes a stream, and a read that leaves the empty chunk at the
end of a stream behind.

## Main definitions

* `RecvBuf.StopsShort` — a read ends right in front of the empty chunk that ends the stream
* `Connection.ReadableExact` — the set holds the ids of the streams with data to read
* `Connection.Tells` — a part of a call does not take data away unnoticed

## Main results

* `RecvBuf.stopsShort_iff` — when a stream is at its end and still ready
* `Connection.readableExact_iff` — a step keeps the set exact exactly if it tells
* `Connection.readable_iff_tells` — and so does a run
-/

namespace Dtp

open Lib (BinaryHeap Program run)

/-! ### What is ready after a push and after a read -/

namespace RecvBuf

variable {r r' : RecvBuf}

/-- A stream is ready if some chunk starts at the read offset. -/
theorem WF.ready_iff_mem (wf : r.WF) : r.ready = true ↔ ∃ b ∈ r.data.toList, b.off = r.off := by
  constructor
  · intro h
    obtain ⟨b, hb, hoff⟩ := ready_iff.mp h
    exact ⟨b, BinaryHeap.peek_mem hb, hoff⟩
  · rintro ⟨b, hb, hoff⟩
    obtain ⟨root, hroot⟩ : ∃ root, r.data.peek = some root := by
      rw [← Option.ne_none_iff_exists', Ne, BinaryHeap.peek_eq_none_iff]
      exact List.ne_nil_of_mem hb
    have hle : root.off ≤ b.off := BinaryHeap.peek_le hroot hb
    have hge : r.off ≤ root.off := wf.off_le root (BinaryHeap.peek_mem hroot)
    exact ready_iff.mpr ⟨root, hroot, by omega⟩

/-- The loop of a push removes no chunk. -/
theorem insertLoop_mem {goodUntil : ℤ} {now fuel : ℕ} {buf b : RangeBuf}
    (h : insertLoop goodUntil now fuel r buf = .ok r') (hb : b ∈ r.data.toList) :
    b ∈ r'.data.toList := by
  induction fuel generalizing r buf with
  | zero => cases h
  | succ fuel ih =>
    have hstore (buf : RangeBuf) : b ∈ (r.store goodUntil now buf).data.toList :=
      BinaryHeap.mem_push.mpr (.inr hb)
    rw [insertLoop] at h
    split_ifs at h
    split at h
    · cases h
      exact hb
    · cases h
      exact hstore _
    · exact ih h (hstore _)

/-- What was ready before a push is ready after it. -/
theorem WF.pushWith_ready (wf : r.WF) {goodUntil : ℤ} {buf : RangeBuf} {now : ℕ}
    (h : r.pushWith goodUntil buf now = .ok r') (hready : r.ready = true) : r'.ready = true := by
  have hpushed := pushWith_ok wf h
  obtain ⟨b, hb, hoff⟩ := wf.ready_iff_mem.mp hready
  refine hpushed.wf.ready_iff_mem.mpr ⟨b, ?_, hoff.trans hpushed.off.symm⟩
  rcases r.pushCase goodUntil buf now with ⟨e, _, eq⟩ | ⟨_, _, eq⟩ | ⟨_, _, _, _, eq⟩
  · rw [h] at eq
    cases eq
  · cases h.symm.trans eq
    rwa [noteFin_data]
  · refine insertLoop_mem (eq.symm.trans h) ?_
    rwa [noteFin_data]

/-- The chunk that comes off the front uses up the room or was the whole first chunk, and
the empty chunk further back stays. -/
theorem WF.popChunk_cases (wf : r.WF) {cap : ℕ} {buf : RangeBuf} {data : BinaryHeap RangeBuf.off}
    (hready : r.ready = true) (h : RecvBuf.popChunk r.data cap = some (buf, data)) :
    (buf.len = cap ∨ buf.len ≤ cap ∧ data.toList.length < r.data.toList.length) ∧
      ∀ b : RangeBuf, b.len = 0 → b.off ≠ r.off → (b ∈ data.toList ↔ b ∈ r.data.toList) := by
  unfold RecvBuf.popChunk at h
  cases hpop : r.data.pop with
  | none =>
    rw [hpop] at h
    cases h
  | some front =>
    obtain ⟨b, rest⟩ := front
    rw [hpop] at h
    have hoff := (wf.behind hready hpop).1
    have hlength := (BinaryHeap.toList_pop hpop).length_eq
    rw [List.length_cons] at hlength
    have hrest (c : RangeBuf) (hc : c.off ≠ r.off) : c ∈ rest.toList ↔ c ∈ r.data.toList := by
      rw [BinaryHeap.mem_of_mem_pop hpop]
      refine (or_iff_right ?_).symm
      rintro rfl
      exact hc hoff
    dsimp only at h
    split_ifs at h with hcap
    · obtain ⟨rfl, rfl⟩ := Prod.mk.inj (Option.some.inj h)
      refine ⟨.inl ?_, fun c h0 hc => ?_⟩
      · rw [RangeBuf.splitOff_fst_len]
        omega
      · rw [BinaryHeap.mem_push, or_iff_right, hrest c hc]
        rintro rfl
        rw [RangeBuf.splitOff_snd_len] at h0
        omega
    · obtain ⟨rfl, rfl⟩ := Prod.mk.inj (Option.some.inj h)
      exact ⟨.inr ⟨by omega, by omega⟩, fun c _ hc => hrest c hc⟩

/-- The loop of a read ends when the room is used up, or when nothing is ready. -/
theorem popLoop_stops (fuel cap : ℕ) (out : List UInt8) (wf : r.WF)
    (hfuel : r.data.toList.length < fuel) :
    (popLoop fuel cap out r).1.length = out.length + cap ∨
    (popLoop fuel cap out r).2.ready = false := by
  induction fuel generalizing cap out r with
  | zero => exact absurd hfuel (Nat.not_lt_zero _)
  | succ fuel ih =>
    rw [popLoop]
    split_ifs with h
    · cases hpop : popChunk r.data cap with
      | none =>
        -- what is ready can be popped
        obtain ⟨b, hb, -⟩ := wf.ready_iff_mem.mp h.2
        unfold popChunk at hpop
        cases hheap : r.data.pop with
        | none =>
          rw [BinaryHeap.pop_eq_none_iff.mp hheap] at hb
          cases hb
        | some front =>
          rw [hheap] at hpop
          dsimp only at hpop
          split_ifs at hpop
      | some chunk =>
        obtain ⟨buf, data⟩ := chunk
        have hread := wf.popChunk h.2 hpop
        dsimp only
        rcases (wf.popChunk_cases h.2 hpop).1 with hlen | ⟨hlen, hshort⟩
        · refine .inl ?_
          rw [hlen, Nat.sub_self]
          cases fuel <;> simp [popLoop, ← hlen, RangeBuf.len]
        · have hmore := ih (cap - buf.len) (out ++ buf.data) hread.wf (by
            dsimp only
            omega)
          refine hmore.imp_left fun hout => ?_
          rw [hout, List.length_append]
          change out.length + buf.len + _ = _
          omega
    · by_cases hready : r.ready = true
      · refine .inl ?_
        have : cap = 0 := by
          by_contra hcap
          exact h ⟨Nat.pos_of_ne_zero hcap, hready⟩
        rw [this, Nat.add_zero]
      · exact .inr (by simpa using hready)

/-- A read of `cap` bytes does not reach an empty chunk that far behind its start. -/
theorem popLoop_mem (fuel cap : ℕ) (out : List UInt8) (wf : r.WF) {b : RangeBuf} (h0 : b.len = 0)
    (hoff : b.off = r.off + cap) :
    b ∈ (popLoop fuel cap out r).2.data.toList ↔ b ∈ r.data.toList := by
  induction fuel generalizing cap out r with
  | zero => rfl
  | succ fuel ih =>
    rw [popLoop]
    split_ifs with h
    · cases hpop : popChunk r.data cap with
      | none => rfl
      | some chunk =>
        obtain ⟨buf, data⟩ := chunk
        have hread := wf.popChunk h.2 hpop
        obtain ⟨hcases, hmem⟩ := wf.popChunk_cases h.2 hpop
        have hle : buf.len ≤ cap := hcases.elim le_of_eq And.left
        dsimp only
        rw [ih _ _ hread.wf (by dsimp only; omega)]
        exact hmem b h0 (by omega)
    · rfl

/-- A read of `cap` bytes ends right in front of the empty chunk that ends the stream. -/
def StopsShort (r : RecvBuf) (cap : ℕ) : Prop :=
  (∃ b ∈ r.data.toList, b.len = 0 ∧ b.off = r.off + cap) ∧ ∀ x < r.off + cap, r.Held x

/-- These are the reads after which a stream is at its end and still ready. -/
theorem stopsShort_iff (wf : r.WF) {cap : ℕ} {out : List UInt8} {fin : Bool}
    (h : r.pop cap = .ok (out, fin, r')) :
    r'.isFin = true ∧ r'.ready = true ↔ r.StopsShort cap := by
  obtain ⟨hread, -⟩ := pop_ok wf h
  have hready : r.ready = true := by
    unfold pop at h
    split_ifs at h with hready
    exact hready
  have hstops : out.length = cap ∨ r'.ready = false := by
    have hloop := popLoop_stops (r.data.toList.length + 1) cap [] wf (Nat.lt_succ_self _)
    rw [List.length_nil, Nat.zero_add] at hloop
    unfold pop at h
    rw [if_pos hready] at h
    cases h
    exact hloop
  have hmem {b : RangeBuf} (h0 : b.len = 0) (hoff : b.off = r.off + cap) :
      b ∈ r'.data.toList ↔ b ∈ r.data.toList := by
    have hloop := popLoop_mem (r.data.toList.length + 1) cap [] wf h0 hoff
    unfold pop at h
    rw [if_pos hready] at h
    cases h
    exact hloop
  have hfin : r'.isFin = true ↔ r.finOff = some r'.off := by
    rw [isFin, beq_iff_eq, hread.finOff]
  rw [hfin]
  constructor
  · rintro ⟨hend, hready'⟩
    have hcap : r'.off = r.off + cap := by
      rw [hread.off, hstops.resolve_right (by simp [hready'])]
    obtain ⟨b, hb, hboff⟩ := hread.wf.ready_iff_mem.mp hready'
    -- a chunk at the final offset is empty
    have h0 : b.len = 0 := by
      have hlen := hread.wf.le_len b hb
      have hle := hread.wf.len_le_fin r'.off (hread.finOff.trans hend)
      unfold RangeBuf.maxOff at hlen
      omega
    refine ⟨⟨b, (hmem h0 (hboff.trans hcap)).mp hb, h0, hboff.trans hcap⟩, fun x hx => ?_⟩
    exact (hread.held x).mp (.inl (hcap ▸ hx))
  · rintro ⟨⟨b, hb, h0, hoff⟩, hheld⟩
    have hend := wf.empty_fin b hb h0
    rw [hoff] at hend
    have hcap : r'.off = r.off + cap := by
      rw [hread.off]
      rcases hstops with hout | hnot
      · rw [hout]
      · -- the byte at which the read stopped had not arrived
        have hle := hread.wf.off_le_len
        have hlen := hread.wf.len_le_fin _ (hread.finOff.trans hend)
        rw [hread.off] at hle
        by_contra hne
        refine hread.wf.not_held_off hnot ((hread.held _).mpr (hheld _ ?_))
        rw [hread.off]
        omega
    rw [hcap]
    refine ⟨hend, hread.wf.ready_iff_mem.mpr ⟨b, (hmem h0 hoff).mpr hb, hoff.trans hcap.symm⟩⟩

end RecvBuf

/-! ### The streams and their set -/

namespace StreamMap

/-- The stream is live and has data to read. -/
def readsAt (m : StreamMap) (id : ℕ) : Bool := (m.streams id).any Stream.isReadable

/-- The set of readable streams holds the ids of those that have data to read. -/
def ReadableExact (m : StreamMap) : Prop := ∀ id, id ∈ m.readable ↔ m.readsAt id = true

/-- Every stream has a receive buffer in order, and the direction and initiator that its id
encodes. -/
structure Tidy (isServer : Bool) (m : StreamMap) : Prop where
  wf : ∀ id s, m.streams id = some s → s.recv.WF
  bidi : ∀ id s, m.streams id = some s → s.bidi = isBidi id
  isLocal : ∀ id s, m.streams id = some s → s.isLocal = Dtp.isLocal id isServer

section Tidy

variable {isServer : Bool} {m m' : StreamMap} {id : ℕ} {s s' : Stream}

/-- An id is added. -/
theorem mem_mark_true {ids : List ℕ} {i : ℕ} : i ∈ mark ids id true ↔ i = id ∨ i ∈ ids :=
  List.mem_insert_iff

/-- An id is removed. -/
theorem mem_mark_false {ids : List ℕ} {i : ℕ} : i ∈ mark ids id false ↔ i ∈ ids ∧ i ≠ id := by
  rw [mark, if_neg (by simp), List.mem_filter, decide_eq_true_eq]

/-- A stream that is there is readable when its buffer is. -/
theorem readsAt_live (live : m.streams id = some s) : m.readsAt id = s.isReadable := by
  rw [readsAt, live]
  rfl

/-- The stream that is put is read. -/
theorem readsAt_put_self (m : StreamMap) (id : ℕ) (s : Stream) :
    (m.put id s).readsAt id = s.isReadable := readsAt_live (put_streams_self m id s)

/-- Other streams are read as before. -/
theorem readsAt_put_of_ne {i : ℕ} (h : i ≠ id) : (m.put id s).readsAt i = m.readsAt i := by
  rw [readsAt, put_streams_of_ne _ _ h]
  rfl

theorem Tidy.congr (tidy : m.Tidy isServer) (h : m'.streams = m.streams) : m'.Tidy isServer where
  wf id s hs := tidy.wf id s (h ▸ hs)
  bidi id s hs := tidy.bidi id s (h ▸ hs)
  isLocal id s hs := tidy.isLocal id s (h ▸ hs)

/-- A well-formed stream is put. -/
theorem Tidy.put (tidy : m.Tidy isServer) (wf : s.recv.WF) (bidi : s.bidi = isBidi id)
    (isLocal : s.isLocal = Dtp.isLocal id isServer) : (m.put id s).Tidy isServer := by
  have hcases (i : ℕ) (s' : Stream) (hs' : (m.put id s).streams i = some s') :
      i = id ∧ s' = s ∨ m.streams i = some s' := by
    rcases eq_or_ne i id with rfl | hne
    · rw [put_streams_self] at hs'
      exact .inl ⟨rfl, (Option.some.inj hs').symm⟩
    · rw [put_streams_of_ne _ _ hne] at hs'
      exact .inr hs'
  refine ⟨fun i s' hs' => ?_, fun i s' hs' => ?_, fun i s' hs' => ?_⟩
  all_goals rcases hcases i s' hs' with ⟨rfl, rfl⟩ | hold
  · exact wf
  · exact tidy.wf i s' hold
  · exact bidi
  · exact tidy.bidi i s' hold
  · exact isLocal
  · exact tidy.isLocal i s' hold

/-- The buffers of a live stream change. -/
theorem Tidy.edit (tidy : m.Tidy isServer) (live : m.streams id = some s) {recv : RecvBuf}
    (wf : recv.WF) (send : SendBuf) :
    (m.put id { s with recv := recv, send := send }).Tidy isServer :=
  tidy.put wf (tidy.bidi id s live) (tidy.isLocal id s live)

/-- A stream is collected. -/
theorem Tidy.collect (tidy : m.Tidy isServer) (id : ℕ) (local_ : Bool) :
    (m.collect id local_).Tidy isServer := by
  have hold (i : ℕ) (s : Stream) (hs : (m.collect id local_).streams i = some s) :
      m.streams i = some s := by
    rw [collect_streams] at hs
    split_ifs at hs
    exact hs
  exact ⟨fun i s hs => tidy.wf i s (hold i s hs), fun i s hs => tidy.bidi i s (hold i s hs),
    fun i s hs => tidy.isLocal i s (hold i s hs)⟩

private theorem tidy_new (maxBidi maxUni : ℕ) (scheduler : DynScheduler) :
    (StreamMap.new maxBidi maxUni scheduler).Tidy isServer := ⟨nofun, nofun, nofun⟩

/-- The streams are in order, and as readable as before. -/
structure SameReads (isServer : Bool) (m m' : StreamMap) : Prop where
  tidy : m'.Tidy isServer
  readable : m'.readable = m.readable
  readsAt : m'.readsAt = m.readsAt

/-- Where the same is read, the marks are as exact. -/
theorem SameReads.exact_iff (h : m.SameReads isServer m') : m'.ReadableExact ↔ m.ReadableExact := by
  unfold ReadableExact
  rw [h.readable, h.readsAt]

/-- The streams and their marks stay. -/
theorem sameReads_of_eq (tidy : m.Tidy isServer) (hstreams : m'.streams = m.streams)
    (hreadable : m'.readable = m.readable) : m.SameReads isServer m' :=
  ⟨tidy.congr hstreams, hreadable, by funext id; simp only [StreamMap.readsAt, hstreams]⟩

/-- A stream changes, but not in what can be read. -/
theorem sameReads_put (tidy : m.Tidy isServer) (live : m.streams id = some s) {recv : RecvBuf}
    (wf : recv.WF) (hready : recv.ready = s.recv.ready) (send : SendBuf) :
    m.SameReads isServer (m.put id { s with recv := recv, send := send }) := by
  refine ⟨tidy.edit live wf send, rfl, funext fun i => ?_⟩
  rcases eq_or_ne i id with rfl | hne
  · rw [readsAt_put_self, readsAt_live live]
    exact hready
  · exact readsAt_put_of_ne hne

private theorem sameReads_getOrCreate (tidy : m.Tidy isServer) {args : OpenArgs}
    (hserver : args.isServer = isServer) (h : m.getOrCreate id args = .ok (s, m')) :
    m.SameReads isServer m' := by
  cases hvacant : m.streams id with
  | some s₀ =>
    obtain ⟨-, rfl⟩ := getOrCreate_live hvacant h
    split_ifs <;> exact sameReads_of_eq tidy rfl rfl
  | none =>
    obtain ⟨-, ⟨maxRxData, maxTxData, hs⟩, hstreams, -, hreadable, -⟩ :=
      getOrCreate_vacant hvacant h
    have hput : (m.put id s).Tidy isServer := by
      rw [hs]
      exact tidy.put (RecvBuf.new_wf _) rfl (by rw [hserver]; rfl)
    refine ⟨hput.congr hstreams, hreadable, funext fun i => ?_⟩
    rw [readsAt, hstreams]
    rcases eq_or_ne i id with rfl | hne
    · -- a new stream has nothing to read
      rw [put_streams_self, readsAt, hvacant, hs]
      rfl
    · rw [put_streams_of_ne _ _ hne]
      rfl

/-- An operation that leaves received data alone. -/
theorem step_sameReads (tidy : m.Tidy isServer) {op : Op} (hop : op.leavesData = true)
    (h : m.step isServer op = some m') : m.SameReads isServer m' := by
  cases op with
  | getOrCreate id args =>
    rw [step] at h
    split_ifs at h with hserver
    cases hok : m.getOrCreate id args with
    | ok r =>
      rw [hok] at h
      cases h
      exact sameReads_getOrCreate tidy hserver hok
    | error e =>
      rw [hok] at h
      cases h
      exact sameReads_of_eq tidy rfl rfl
  | send id send =>
    obtain ⟨s, live, rfl⟩ := Option.map_eq_some_iff.mp h
    exact sameReads_put tidy live (tidy.wf id s live) rfl send
  | settle id maxData blockSize blockPriority blockDeadline startTime =>
    obtain ⟨s, live, rfl⟩ := Option.map_eq_some_iff.mp h
    have wf := tidy.wf id s live
    have hsettled : RecvBuf.WF
        { s.recv with
          maxData := maxData
          blockSize := blockSize
          blockPriority := blockPriority
          blockDeadline := blockDeadline
          startTime := startTime } :=
      ⟨wf.apart, wf.off_le, wf.le_len, wf.off_le_len, wf.len_le_fin, wf.empty_fin, wf.drained⟩
    exact sameReads_put tidy live hsettled rfl s.send
  | collect => cases hop
  | recv => cases hop
  | markReadable => cases hop
  | _ =>
    cases h
    exact sameReads_of_eq tidy rfl rfl

/-- What leaves received data alone leaves what is read alone. -/
theorem Edits.sameReads (h : m.Edits isServer m') (tidy : m.Tidy isServer) :
    m.SameReads isServer m' := by
  obtain ⟨ops, hops, hrun⟩ := h
  induction ops generalizing m with
  | nil =>
    obtain rfl : m = m' := by simpa using hrun
    exact sameReads_of_eq tidy rfl rfl
  | cons op ops ih =>
    rw [List.all_cons, Bool.and_eq_true] at hops
    obtain ⟨m₁, hstep, hrest⟩ := Option.bind_eq_some_iff.mp hrun
    have hfirst := step_sameReads tidy hops.1 hstep
    have hlast := ih hfirst.tidy hops.2 hrest
    exact ⟨hlast.tidy, hlast.readable.trans hfirst.readable, hlast.readsAt.trans hfirst.readsAt⟩

/-- Where only the stream `id` changes, the set stays exact if it is right about `id`. -/
theorem ReadableExact.iff_at (exact : m.ReadableExact) (m' : StreamMap) (id : ℕ)
    (hreads : ∀ i ≠ id, m'.readsAt i = m.readsAt i)
    (hmem : ∀ i ≠ id, (i ∈ m'.readable ↔ i ∈ m.readable)) :
    m'.ReadableExact ↔ (id ∈ m'.readable ↔ m'.readsAt id = true) := by
  refine ⟨fun h => h id, fun h i => ?_⟩
  rcases eq_or_ne i id with rfl | hne
  · exact h
  · rw [hmem i hne, hreads i hne]
    exact exact i

@[simp] theorem collect_readable (m : StreamMap) (id : ℕ) (local_ : Bool) :
    (m.collect id local_).readable = m.readable := by
  unfold collect
  split_ifs <;> rfl

private theorem readsAt_collect_self (m : StreamMap) (id : ℕ) (local_ : Bool) :
    (m.collect id local_).readsAt id = false := by
  rw [readsAt, collect_streams, if_pos rfl]
  rfl

private theorem readsAt_collect_of_ne {i : ℕ} (h : i ≠ id) (local_ : Bool) :
    (m.collect id local_).readsAt i = m.readsAt i := by
  rw [readsAt, collect_streams, if_neg h]
  rfl

/-- A stream is collected if it is complete: the set stays exact if the stream is not
readable then. -/
theorem ReadableExact.collectIf_iff (exact : m.ReadableExact)
    (hreads : ∀ i ≠ id, m'.readsAt i = m.readsAt i)
    (hmem : ∀ i ≠ id, (i ∈ m'.readable ↔ i ∈ m.readable))
    (live : m'.streams id = some s) (hid : id ∈ m'.readable ↔ s.isReadable = true) (local_ : Bool) :
    (if s.isComplete then m'.collect id local_ else m').ReadableExact ↔
      ¬ (s.isReadable = true ∧ s.isComplete = true) := by
  split_ifs with hcomplete
  · have hiff := exact.iff_at (m'.collect id local_) id
      (fun i hi => (readsAt_collect_of_ne hi local_).trans (hreads i hi))
      (fun i hi => by rw [collect_readable]; exact hmem i hi)
    rw [hiff, collect_readable, hid, readsAt_collect_self]
    simp [hcomplete]
  · rw [exact.iff_at m' id hreads hmem, hid, readsAt_live live]
    simp [hcomplete]

end Tidy

end StreamMap

namespace Connection

/-- The set of readable streams is exact. -/
def ReadableExact (c : Connection) : Prop :=
  ∀ id, id ∈ c.streams.readable ↔ ∃ s, c.streams.streams id = some s ∧ s.isReadable = true

/-- The marks are those of the streams. -/
theorem readableExact_iff_streams (c : Connection) : c.ReadableExact ↔ c.streams.ReadableExact := by
  unfold ReadableExact StreamMap.ReadableExact StreamMap.readsAt
  simp only [Option.any_eq_true]

/-- The streams of the connection are in order. -/
def Tidy (c : Connection) : Prop := c.streams.Tidy c.isServer

/-- A part of a call tells the set of readable streams if it takes away what can be read:

* a read leaves no empty chunk behind in a stream that it completes,
* no stream with data to read is reset because of its deadline,
* no stream with data to read is completed by an acknowledgement. -/
def Tells (c : Connection) : Part → Prop
  | .read id cap =>
    c.sendsOnly id true = false → ∀ s, c.streams.streams id = some s → s.isReadable = true →
      ¬ (s.recv.StopsShort cap ∧ (s.bidi = true → s.send.isComplete = true))
  | .frame (.resetStream id code _) _ _ =>
    c.sendsOnly id true = false → code = 1 → c.streams.readsAt id = false
  | .acked epoch =>
    ∀ id data frames s, c.recovery.acked epoch = .stream id data :: frames →
      c.streams.streams id = some s →
        ¬ (s.isReadable = true ∧
          { s with send := s.send.ack data.off data.len : Stream }.isComplete = true)
  | _ => True

/-- The streams stay in order, and their set stays exact exactly if `tells` holds. -/
structure Reports (tells : Prop) (c c' : Connection) : Prop where
  isServer : c'.isServer = c.isServer
  tidy : c'.streams.Tidy c.isServer
  exact_iff : c.streams.ReadableExact → (c'.streams.ReadableExact ↔ tells)

variable {c c' : Connection} {tells : Prop}

/-- Where the same is read, the same is reported. -/
theorem reports_of_sameReads (hserver : c'.isServer = c.isServer)
    (h : c.streams.SameReads c.isServer c'.streams) (htells : tells) : Reports tells c c' :=
  ⟨hserver, h.tidy, fun exact => iff_of_true (h.exact_iff.mpr exact) htells⟩

theorem reports_refl (tidy : c.Tidy) (htells : tells) : Reports tells c c :=
  reports_of_sameReads rfl (StreamMap.sameReads_of_eq tidy rfl rfl) htells

/-- A stream that can be read from is complete once the peer's data is read, and if it is
bidirectional the own data acked. -/
theorem isComplete_iff (tidy : c.Tidy) {id : ℕ} {s : Stream} (live : c.streams.streams id = some s)
    (hvalid : c.sendsOnly id true = false) (recv : RecvBuf) :
    { s with recv := recv : Stream }.isComplete = true ↔
      recv.isFin = true ∧ (s.bidi = true → s.send.isComplete = true) := by
  have hbidi := tidy.bidi id s live
  have hlocal := tidy.isLocal id s live
  unfold sendsOnly at hvalid
  rw [← hbidi, ← hlocal] at hvalid
  unfold Stream.isComplete
  cases hb : s.bidi <;> cases hl : s.isLocal <;> simp_all

private theorem streamRecv_reports (tidy : c.Tidy) (id cap : ℕ) :
    (streamRecv id cap).Keeps (Reports (c.Tells (.read id cap))) c := by
  rw [streamRecv, Program.keeps_get_bind]
  refine .ite (fun hsends => Program.keeps_fail.mpr (reports_refl tidy fun h => ?_))
    fun hvalid => ?_
  · rw [h] at hsends
    cases hsends
  replace hvalid : c.sendsOnly id true = false := by simpa using hvalid
  cases live : c.streams.streams id with
  | none =>
    refine Program.keeps_fail.mpr (reports_refl tidy fun _ s hs => ?_)
    rw [live] at hs
    cases hs
  | some s =>
    have htells : c.Tells (.read id cap) ↔
        (s.isReadable = true →
            ¬ (s.recv.StopsShort cap ∧ (s.bidi = true → s.send.isComplete = true))) := by
      refine ⟨fun h => h hvalid s live, fun h _ s' hs' => ?_⟩
      rw [live] at hs'
      exact Option.some.inj hs' ▸ h
    rw [propext htells]
    refine .ite (fun hnot => Program.keeps_fail.mpr (reports_refl tidy fun h => ?_))
      fun hready => ?_
    · simp [h] at hnot
    replace hready : s.isReadable = true := by simpa using hready
    cases hpop : s.recv.pop cap with
    | error e =>
      rw [RecvBuf.pop, if_pos (show s.recv.ready = true from hready)] at hpop
      cases hpop
    | ok r =>
      obtain ⟨out, fin, recv⟩ := r
      have wf := tidy.wf id s live
      have hread := (RecvBuf.pop_ok wf hpop).1
      -- the stream is put back, then marked, then collected if nothing is left of it
      let s' : Stream := { s with recv := recv }
      let m₁ := c.streams.put id s'
      let m₂ := if recv.almostFull then m₁.markAlmostFull id true else m₁
      let m₃ := if s'.isReadable then m₂ else m₂.markReadable id false
      have hstreams : m₃.streams = m₁.streams := by
        simp only [m₃, m₂]
        split_ifs <;> rfl
      have hreads (i : ℕ) (hi : i ≠ id) : m₃.readsAt i = c.streams.readsAt i := by
        rw [StreamMap.readsAt, hstreams]
        exact StreamMap.readsAt_put_of_ne hi
      have hmem (i : ℕ) (hi : i ≠ id) : i ∈ m₃.readable ↔ i ∈ c.streams.readable := by
        simp only [m₃, m₂]
        split_ifs
        · rfl
        · rfl
        · exact StreamMap.mem_mark_false.trans (and_iff_left hi)
        · exact StreamMap.mem_mark_false.trans (and_iff_left hi)
      have live₃ : m₃.streams id = some s' := by
        rw [hstreams]
        exact StreamMap.put_streams_self _ _ _
      have tidy₃ : m₃.Tidy c.isServer := (tidy.edit live hread.wf s.send).congr hstreams
      refine ⟨rfl, ?_, fun exact => ?_⟩
      · change (if s'.isComplete then m₃.collect id s'.isLocal else m₃).Tidy c.isServer
        split_ifs
        · exact tidy₃.collect id _
        · exact tidy₃
      · -- the mark was there, and goes with the last byte
        have hid : id ∈ m₃.readable ↔ s'.isReadable = true := by
          have hold : id ∈ c.streams.readable :=
            (exact id).mpr ((StreamMap.readsAt_live live).trans hready)
          simp only [m₃, m₂]
          split_ifs with h
          · exact iff_of_true hold h
          · exact iff_of_true hold h
          · exact iff_of_false (fun hmem => (StreamMap.mem_mark_false.mp hmem).2 rfl) h
          · exact iff_of_false (fun hmem => (StreamMap.mem_mark_false.mp hmem).2 rfl) h
        change (if s'.isComplete then m₃.collect id s'.isLocal else m₃).ReadableExact ↔ _
        rw [exact.collectIf_iff hreads hmem live₃ hid,
          isComplete_iff tidy live hvalid recv, ← RecvBuf.stopsShort_iff wf hpop]
        constructor
        · rintro hnot _ ⟨⟨hfin, hready'⟩, hbidi⟩
          exact hnot ⟨hready', hfin, hbidi⟩
        · rintro hnot ⟨hready', hfin, hbidi⟩
          exact hnot hready ⟨⟨hfin, hready'⟩, hbidi⟩

/-- Nothing is read after the buffer is shut down. -/
theorem ready_of_shutdown {r r' : RecvBuf} (h : r.shutdown = .ok r') : r'.ready = false := by
  rw [RecvBuf.shutdown] at h
  split_ifs at h
  cases h
  rfl

private theorem shutdownRead_reports (tidy : c.Tidy) (id : ℕ) :
    (streamShutdown id .read).Keeps (Reports True) c := by
  rw [streamShutdown, Program.keeps_get_bind]
  cases live : c.streams.streams id with
  | none => exact Program.keeps_fail.mpr (reports_refl tidy trivial)
  | some s =>
    simp only [Program.Keeps, Program.ends_bind, Program.ends_ofExcept, Program.ends_set]
    refine ⟨fun recv hshut => ⟨rfl, ?_, fun exact => iff_of_true ?_ trivial⟩,
      fun _ _ _ => reports_refl tidy trivial⟩
    · exact (tidy.edit live ((tidy.wf id s live).shutdown hshut) s.send).congr rfl
    · refine (exact.iff_at ((c.streams.putRecv id s recv).markReadable id false) id
        (fun i hi => StreamMap.readsAt_put_of_ne hi) fun i hi => ?_).mpr ?_
      · exact StreamMap.mem_mark_false.trans (and_iff_left hi)
      · refine iff_of_false (fun hid => (StreamMap.mem_mark_false.mp hid).2 rfl) ?_
        change ¬ (c.streams.put id { s with recv := recv }).readsAt id = true
        rw [StreamMap.readsAt_put_self]
        exact Bool.eq_false_iff.mp (ready_of_shutdown hshut)

/-- The stream that a frame of the peer names is looked up or created. -/
theorem peerStream_sameReads (tidy : c.Tidy) {id now : ℕ} {s : Stream} {m : StreamMap}
    (h : c.peerStream id now = .ok (s, m)) :
    c.streams.SameReads c.isServer m ∧ m.streams id = some s := by
  obtain ⟨hedits, live⟩ := getOrCreateStream_edits h
  exact ⟨hedits.sameReads tidy, live⟩

private theorem peerStream_live {id : ℕ} {s : Stream} (now : ℕ)
    (live : c.streams.streams id = some s) :
    ∃ m, c.peerStream id now = .ok (s, m) := by
  unfold peerStream getOrCreateStream StreamMap.getOrCreate
  rw [live]
  exact ⟨_, rfl⟩

private theorem processStream_reports (tidy : c.Tidy) (id : ℕ) (data : RangeBuf) (env : Env) :
    (processStream id data env).Keeps (Reports True) c := by
  rw [processStream, Program.keeps_get_bind]
  refine .ite (fun _ => Program.keeps_fail.mpr (reports_refl tidy trivial)) fun _ =>
    .ite (fun _ => Program.keeps_fail.mpr (reports_refl tidy trivial)) fun _ => ?_
  cases hopen : c.peerStream id env.wall with
  | error e =>
    cases e
    case done => exact reports_refl tidy trivial
    all_goals exact Program.keeps_fail.mpr (reports_refl tidy trivial)
  | ok r =>
    obtain ⟨s, m⟩ := r
    obtain ⟨same, live⟩ := peerStream_sameReads tidy hopen
    simp only [Program.Keeps, Program.ends_bind, Program.ends_set]
    cases hpush : s.recv.pushEvaluation data env.wall with
    | error e => exact fun _ => reports_of_sameReads rfl same trivial
    | ok recv =>
      have wf := same.tidy.wf id s live
      have hput := same.tidy.edit live (RecvBuf.pushWith_ok wf hpush).wf s.send
      let m' := if recv.ready then (m.putRecv id s recv).markReadable id true else m.putRecv
        id s recv
      have hstreams : m'.streams = (m.putRecv id s recv).streams := by
        simp only [m']
        split_ifs <;> rfl
      have hreads (i : ℕ) : m'.readsAt i = (m.put id { s with recv := recv }).readsAt i := by
        rw [StreamMap.readsAt, hstreams]
        rfl
      refine ⟨rfl, hput.congr hstreams, fun exact => iff_of_true ?_ trivial⟩
      have hold := same.exact_iff.mpr exact
      refine (hold.iff_at m' id (fun i hi => ?_) fun i hi => ?_).mpr ?_
      · exact (hreads i).trans (StreamMap.readsAt_put_of_ne hi)
      · simp only [m']
        split_ifs
        · exact StreamMap.mem_mark_true.trans (or_iff_right hi)
        · rfl
      · rw [hreads, StreamMap.readsAt_put_self]
        simp only [m']
        split_ifs with hready
        · exact iff_of_true (StreamMap.mem_mark_true.mpr (.inl rfl)) hready
        · -- what was ready would be ready still
          refine iff_of_false (fun hid => hready ?_) hready
          have hbefore := (hold id).mp hid
          rw [StreamMap.readsAt_live live] at hbefore
          exact wf.pushWith_ready hpush hbefore

private theorem processResetStream_reports (tidy : c.Tidy) (id code finalSize : ℕ) (epoch : Epoch)
    (env : Env) :
    (processResetStream id code finalSize env).Keeps
      (Reports (c.Tells (.frame (.resetStream id code finalSize) epoch env))) c := by
  rw [processResetStream, Program.keeps_get_bind]
  refine .ite (fun hsends => Program.keeps_fail.mpr (reports_refl tidy fun h => ?_))
    fun hvalid => ?_
  · rw [h] at hsends
    cases hsends
  replace hvalid : c.sendsOnly id true = false := by simpa using hvalid
  cases hopen : c.peerStream id env.wall with
  | error e =>
    -- only a stream that is not there can fail to open, and it has nothing to read
    have hnone : c.Tells (.frame (.resetStream id code finalSize) epoch env) := fun _ _ => by
      cases live : c.streams.streams id with
      | none => rw [StreamMap.readsAt, live]; rfl
      | some s =>
        obtain ⟨m, hm⟩ := peerStream_live env.wall live
        rw [hopen] at hm
        cases hm
    cases e
    case done => exact reports_refl tidy hnone
    all_goals exact Program.keeps_fail.mpr (reports_refl tidy hnone)
  | ok r =>
    obtain ⟨s, m⟩ := r
    obtain ⟨same, live⟩ := peerStream_sameReads tidy hopen
    have wf := same.tidy.wf id s live
    have hold : c.streams.readsAt id = s.recv.ready := by
      rw [← same.readsAt, StreamMap.readsAt_live live]
      rfl
    have htells : c.Tells (.frame (.resetStream id code finalSize) epoch env) ↔
        (code = 1 → s.recv.ready = false) := by
      rw [← hold]
      exact ⟨fun h => h hvalid, fun h _ => h⟩
    rw [propext htells]
    -- whatever comes after the shutdown, the stream has as much to read as after it
    have hput {recv recv' : RecvBuf} (hwf : recv'.WF) (hsame : recv'.ready = recv.ready)
        (hshut : (if code = 1 then s.recv.shutdown else .ok s.recv) = .ok recv) (c' : Connection)
        (hserver : c'.isServer = c.isServer) (hstreams : c'.streams = m.putRecv id s recv') :
        Reports (code = 1 → s.recv.ready = false) c c' := by
      refine ⟨hserver, hstreams ▸ same.tidy.edit live hwf s.send, fun exact => ?_⟩
      rw [hstreams, (same.exact_iff.mpr exact).iff_at (m.putRecv id s recv') id
        (fun i hi => StreamMap.readsAt_put_of_ne hi) fun _ _ => .rfl]
      have hid := (same.exact_iff.mpr exact) id
      rw [StreamMap.readsAt_live live] at hid
      change (id ∈ m.readable ↔ (m.put id { s with recv := recv' }).readsAt id = true) ↔ _
      rw [StreamMap.readsAt_put_self, hid]
      change (s.recv.ready = true ↔ recv'.ready = true) ↔ _
      rw [hsame]
      split_ifs at hshut with hcode
      · rw [ready_of_shutdown hshut]
        simp [hcode]
      · cases hshut
        simp [hcode]
    simp only [Program.Keeps, Program.ends_bind, Program.ends_set, Program.ends_ofExcept,
      Program.ends_ite,
      Program.ends_fail, Program.ends_pure]
    refine ⟨fun recv hshut => ?_, fun e hshut _ => ?_⟩
    · -- the stream is reset after the shutdown, if there is one
      have hwf : recv.WF := by
        split_ifs at hshut
        · exact wf.shutdown hshut
        · cases hshut
          exact wf
      refine ⟨fun r hreset => ?_, fun _ _ _ => hput hwf rfl hshut _ rfl rfl⟩
      have hafter : r.2.WF ∧ r.2.ready = recv.ready := by
        unfold RecvBuf.reset at hreset
        split_ifs at hreset with hknown hlen
        cases hreset
        refine ⟨hwf.setFinOff (fun f hf => ?_) (not_lt.mp hlen), rfl⟩
        simpa [hf] using hknown
      exact ⟨fun _ _ => hput hafter.1 hafter.2 hshut _ rfl rfl,
        fun _ => hput hafter.1 hafter.2 hshut _ rfl rfl⟩
    · -- a buffer that is shut down already has nothing to read
      refine reports_of_sameReads rfl same fun hcode => ?_
      rw [if_pos hcode, RecvBuf.shutdown] at hshut
      split_ifs at hshut with hdrain
      rw [Bool.eq_false_iff, Ne, wf.ready_iff_mem, wf.drained hdrain]
      rintro ⟨_, hb, _⟩
      cases hb

private theorem takeAcked_reports (tidy : c.Tidy) (epoch : Epoch) :
    Reports (c.Tells (.acked epoch)) c (takeAcked epoch c) := by
  have hsame {c' : Connection} (hserver : c'.isServer = c.isServer)
    (hstreams : c'.streams = c.streams)
      (htells : c.Tells (.acked epoch)) : Reports (c.Tells (.acked epoch)) c c' :=
    reports_of_sameReads hserver
      (StreamMap.sameReads_of_eq tidy (congrArg _ hstreams) (congrArg _ hstreams)) htells
  unfold takeAcked
  cases hacked : c.recovery.acked epoch with
  | nil => exact hsame rfl rfl fun _ _ _ _ h => by rw [hacked] at h; cases h
  | cons frame frames =>
    dsimp only
    -- only the data of a stream that is there can end it
    by_cases hstream : ∃ id data s, frame = .stream id data ∧ c.streams.streams id = some s
    · obtain ⟨id, data, s, rfl, live⟩ := hstream
      let s' : Stream := { s with send := s.send.ack data.off data.len }
      have htells : c.Tells (.acked epoch) ↔ ¬ (s'.isReadable = true ∧ s'.isComplete = true) := by
        constructor
        · exact fun h => h id data frames s hacked live
        · intro h id' data' frames' s₀ hacked' live'
          rw [hacked] at hacked'
          cases hacked'
          rw [live] at live'
          exact Option.some.inj live' ▸ h
      have hput := StreamMap.sameReads_put tidy live (tidy.wf id s live) rfl
        (s.send.ack data.off data.len)
      have hstreams : (processAcked epoch (.stream id data) (c.setRecovery
          { c.recovery with acked := Epoch.update c.recovery.acked epoch frames })).streams =
            if s'.isComplete then (c.streams.put id s').collect id s'.isLocal else c.streams.put id
                s' := by
        simp only [processAcked, setRecovery, live]
        rfl
      refine ⟨?_, ?_, fun exact => ?_⟩
      · simp only [processAcked, setRecovery, live]
        rfl
      · rw [hstreams]
        split_ifs
        · exact hput.tidy.collect id _
        · exact hput.tidy
      · rw [hstreams, htells]
        -- a stream that is collected while it is readable keeps its mark
        refine StreamMap.ReadableExact.collectIf_iff exact (fun i hi =>
          StreamMap.readsAt_put_of_ne hi)
          (fun _ _ => .rfl) (StreamMap.put_streams_self _ _ _) ?_ _
        change id ∈ c.streams.readable ↔ s.isReadable = true
        rw [exact id, StreamMap.readsAt_live live]
    · have htells : c.Tells (.acked epoch) := fun id data frames' s h live => by
        rw [hacked] at h
        cases h
        exact absurd ⟨id, data, s, rfl, live⟩ hstream
      cases frame with
      | ack _ _ ranges =>
        unfold processAcked
        dsimp only
        split <;> exact hsame rfl rfl htells
      | stream id data =>
        cases live : c.streams.streams id with
        | none =>
          simp only [processAcked, setRecovery, live]
          exact hsame rfl rfl htells
        | some s => exact absurd ⟨id, data, s, rfl, live⟩ hstream
      | _ => exact hsame rfl rfl htells

/-- What each part of a call does to the set of readable streams. -/
theorem reports_of_step (tidy : c.Tidy) {part : Part} (h : part.step c = some c') :
    Reports (c.Tells part) c c' := by
  by_cases hpart : part.leavesData = true
  · have hedits := Part.edits hpart h
    refine reports_of_sameReads hedits.isServer (StreamMap.Edits.sameReads hedits.streams tidy) ?_
    cases part with
    | read => cases hpart
    | acked => cases hpart
    | frame f epoch env =>
      cases f with
      | resetStream => cases hpart
      | _ => trivial
    | _ => trivial
  refine Program.keeps_iff_after.mp ?_ c' h
  cases part with
  | read id cap => exact (streamRecv_reports tidy id cap).discard
  | shutdown id direction =>
    cases direction
    · exact shutdownRead_reports tidy id
    · exact absurd rfl hpart
  | acked epoch => exact Program.keeps_modify.mpr (takeAcked_reports tidy epoch)
  | frame f epoch env =>
    cases f with
    | stream id data => exact processStream_reports tidy id data env
    | resetStream id code finalSize =>
      exact processResetStream_reports tidy id code finalSize epoch env
    | _ => exact absurd rfl hpart
  | _ => exact absurd rfl hpart

private theorem Reports.keepsTidy (h : Reports tells c c') : c'.Tidy := by
  unfold Tidy
  rw [h.isServer]
  exact h.tidy

/-- A step keeps the set exact exactly if it tells what it takes away. -/
theorem readableExact_iff (tidy : c.Tidy) (exact : c.ReadableExact) {part : Part}
    (h : part.step c = some c') : c'.ReadableExact ↔ c.Tells part := by
  rw [readableExact_iff_streams] at exact ⊢
  exact (reports_of_step tidy h).exact_iff exact

/-- The set of readable streams is exact all through a run exactly if every part of it tells
what it takes away. -/
theorem readable_iff_tells (config : Config) (isServer afterRetry : Bool) (now : ℕ)
    (parts : List Part) :
    Lib.Always Part.step ReadableExact (.new config isServer afterRetry now) parts ↔
      Lib.AllSteps Part.step (fun c part => (part.step c).isSome → c.Tells part)
        (.new config isServer afterRetry now) parts := by
  refine Lib.always_iff_allSteps (I := Tidy) (fun _ _ _ tidy h =>
    (reports_of_step tidy h).keepsTidy)
    (fun _ _ _ tidy exact h => readableExact_iff tidy exact h) ?_ ?_
  · exact StreamMap.tidy_new _ _ _
  · rw [readableExact_iff_streams]
    exact fun id => iff_of_false nofun nofun

/-- Data arrives, and then the stream is reset because it missed its deadline. -/
theorem not_readableExact : ¬ ∀ c : Connection, c.Reachable → c.ReadableExact := by
  have hrun : (Sample.client (.basic {}) [Sample.recv 0 [.stream 3 ⟨[7], 0, false⟩] 1,
      Sample.recv 1 [.resetStream 3 1 1] 2]).any (fun c =>
        decide (3 ∈ c.streams.readable) && !c.streams.readsAt 3) = true := by
    decide +kernel
  obtain ⟨c, hc, h⟩ := (Option.any_eq_true _ _).mp hrun
  simp only [Bool.and_eq_true, decide_eq_true_eq, Bool.not_eq_true'] at h
  intro hall
  have hexact := (readableExact_iff_streams c).mp (hall c (Sample.client_reachable hc))
  rw [(hexact 3).mp h.1] at h
  cases h.2

end Connection

end Dtp
