import Dtp.Lib.Runs
import Dtp.SendBuf

/-!
# What becomes of written data

The application writes to a send buffer, packets take chunks out of it, and each chunk
is later acked or lost; lost chunks are queued again. A `Flight` follows the bytes on this
way: it keeps what was written, the chunks that were popped, those still in flight and those
acked beside the buffer.

## Main definitions

* `SendBuf.Queued` — a byte waits in the buffer
* `SendBuf.Carries` — the queued chunks carry the bytes written, and `len` counts them
* `SendBuf.Receives` — some bytes are put behind what was written
* `Flight.step` — the operations in any order
* `Flight.Tracks` — the invariant, `Flight.RoundTrip` — what it says to the application

## Main results

* `SendBuf.pushSlice_appends`, `SendBuf.pushSlice_receives`, `SendBuf.pop_took` — what becomes of a
  byte in one operation
* `Flight.carries_through` — no byte is changed or forgotten in a run
-/

namespace Dtp

open Lib

namespace SendBuf

/-! ### The queue -/

/-- The byte at offset `x` waits in the buffer. -/
def Queued (s : SendBuf) (x : ℕ) : Prop := ∃ b ∈ s.data.toList, b.Covers x

/-- The length of all chunks in the queue together. -/
def total (s : SendBuf) : ℕ := (s.data.toList.map RangeBuf.len).sum

/-- The queued chunks carry the bytes of `w` at their offsets, and `len` counts them. -/
structure Carries (s : SendBuf) (w : List UInt8) : Prop where
  agrees : ∀ b ∈ s.data.toList, b.AgreesWith w
  len : s.len = s.total

private theorem newFull_carries (maxData deadline priority now : ℕ) :
    (newFull maxData deadline priority now).Carries [] where
  agrees _ hb := by cases hb
  len := rfl

/-- A chunk that is pushed adds its length. -/
theorem total_push (h : BinaryHeap RangeBuf.off) (b : RangeBuf) :
    ((h.push b).toList.map RangeBuf.len).sum = (h.toList.map RangeBuf.len).sum + b.len := by
  rw [((h.toList_push b).map RangeBuf.len).sum_nat, List.map_cons, List.sum_cons, Nat.add_comm]

private theorem total_pop {h h' : BinaryHeap RangeBuf.off} {b : RangeBuf}
    (hpop : h.pop = some (b, h')) :
    (h.toList.map RangeBuf.len).sum = b.len + (h'.toList.map RangeBuf.len).sum := by
  rw [((BinaryHeap.toList_pop hpop).map RangeBuf.len).sum_nat, List.map_cons, List.sum_cons]

/-- A byte of the contiguously acked front is in an acked range. -/
theorem has_of_lt_ackOff {s : SendBuf} {x : ℕ} (h : x < s.ackOff) : s.acked.Has x := by
  unfold ackOff at h
  split at h
  · next stop rest hinner =>
    exact ⟨(0, stop), by rw [hinner]; exact List.mem_cons_self, Nat.zero_le x, h⟩
  · exact absurd h (Nat.not_lt_zero x)

/-! ### Pushing a chunk -/

/-- What is stored is queued, unless it is acknowledged. -/
theorem Stored.queued {s s' : SendBuf} {buf : RangeBuf} (h : Stored s buf s')
    (hshut : s.isShutdown = false) {x : ℕ} (hx : s.Queued x ∨ buf.Covers x) :
    s'.Queued x ∨ x < s.ackOff := by
  rcases hx with ⟨b, hb, hcover⟩ | hcover
  · exact .inl ⟨b, (h.data b).mpr (.inl hb), hcover⟩
  · by_cases hacked : s.ackOff < buf.maxOff
    · exact .inl ⟨buf, (h.data buf).mpr (.inr ⟨rfl, hshut, hacked, hcover.not_isEmpty⟩), hcover⟩
    · exact .inr (hcover.2.trans_le (not_lt.mp hacked))

private theorem Stored.agreesWith {s s' : SendBuf} {buf : RangeBuf} (h : Stored s buf s')
    {w : List UInt8}
    (hs : ∀ b ∈ s.data.toList, b.AgreesWith w) (hbuf : buf.AgreesWith w) :
    ∀ b ∈ s'.data.toList, b.AgreesWith w := by
  intro b hb
  rcases (h.data b).mp hb with hb | ⟨rfl, -⟩
  · exact hs b hb
  · exact hbuf

private theorem push_len {s s' : SendBuf} {buf : RangeBuf} (h : s.push buf = .ok s')
    (hshut : s.isShutdown = false) (hlen : s.len = s.total) : s'.len = s'.total := by
  rw [push_of_accepts (push_spec h).1 hshut] at h
  obtain rfl := Except.ok.inj h
  have hnote : (s.noteFin buf).len = (s.noteFin buf).total := by
    unfold noteFin
    split_ifs
    · exact hlen
    · exact hlen
  split_ifs
  · exact hnote
  · unfold enqueue total
    split_ifs with hempty
    · rw [RangeBuf.isEmpty_iff.mp hempty, Nat.add_zero]
      exact hnote
    · change (s.noteFin buf).len + buf.len = _
      rw [total_push, hnote]
      rfl

/-- A chunk of what was written is pushed. -/
theorem Carries.push {s s' : SendBuf} {buf : RangeBuf} {w : List UInt8} (h : s.Carries w)
    (hpush : s.push buf = .ok s') (hshut : s.isShutdown = false) (hbuf : buf.AgreesWith w) :
    s'.Carries w where
  agrees := (push_spec hpush).2.agreesWith h.agrees hbuf
  len := push_len hpush hshut h.len

/-- More is written. -/
theorem Carries.append {s : SendBuf} {w : List UInt8} (h : s.Carries w) (wf : s.WF)
    (hw : w.length = s.off) (t : List UInt8) : s.Carries (w ++ t) where
  agrees b hb := (h.agrees b hb).append (hw ▸ wf.le_off b hb) t
  len := h.len

/-! ### Writing -/

/-- What was written before and `data` behind it is queued, unless it is acked. -/
structure Appended (s : SendBuf) (w data : List UInt8) (s' : SendBuf) : Prop where
  carries : s'.Carries (w ++ data)
  queued : ∀ x, s.Queued x ∨ s.off ≤ x ∧ x < s.off + data.length → s'.Queued x ∨ x < s.ackOff

/-- Nothing is written. -/
theorem Carries.appended_nil {s : SendBuf} {w : List UInt8} (h : s.Carries w) :
    s.Appended w [] s where
  carries := by
    rw [List.append_nil]
    exact h
  queued x hx := by
    rcases hx with hx | ⟨hlow, hhigh⟩
    · exact .inl hx
    · exact absurd hhigh (Nat.not_lt.mpr hlow)

/-- The chunk that a write puts behind everything that was written. -/
theorem agreesWith_written (w chunk : List UInt8) (fin : Bool) :
    (RangeBuf.mk chunk w.length fin).AgreesWith (w ++ chunk) := by
  intro x hx
  exact List.getElem?_append_right hx.1

/-- A chunk of new data is pushed. -/
theorem Carries.pushChunk {s s' : SendBuf} {w chunk : List UInt8} {fin : Bool} (h : s.Carries w)
    (wf : s.WF) (hw : w.length = s.off) (hshut : s.isShutdown = false)
    (hpush : s.push ⟨chunk, s.off, fin⟩ = .ok s') :
    s.Appended w chunk { s' with off := s.off + chunk.length } where
  carries := by
    have hchunk := agreesWith_written w chunk fin
    rw [hw] at hchunk
    have := (h.append wf hw chunk).push hpush hshut hchunk
    exact ⟨this.agrees, this.len⟩
  queued _ hx := (push_spec hpush).2.queued hshut hx

theorem Appended.trans {s s' s'' : SendBuf} {w chunk rest : List UInt8}
    (h : s.Appended w chunk s') (h' : s'.Appended (w ++ chunk) rest s'')
    (hoff : s'.off = s.off + chunk.length) (hack : s'.ackOff = s.ackOff) :
    s.Appended w (chunk ++ rest) s'' where
  carries := by
    rw [← List.append_assoc]
    exact h'.carries
  queued x hx := by
    have hnext := h'.queued x
    rw [hack, hoff] at hnext
    rw [List.length_append] at hx
    by_cases hrest : s.off + chunk.length ≤ x ∧ x < s.off + chunk.length + rest.length
    · exact hnext (.inr hrest)
    · have hfirst : s.Queued x ∨ s.off ≤ x ∧ x < s.off + chunk.length :=
        hx.imp_right fun hx => by omega
      rcases h.queued x hfirst with hq | hlt
      · exact hnext (.inl hq)
      · exact .inr hlt

private theorem pushChunks_appends {fuel : ℕ} {fin : Bool} {data w : List UInt8} {s : SendBuf}
    (hcarries : s.Carries w) (wf : s.WF) (hw : w.length = s.off) (hopen : s.finOff = none)
    (hshut : s.isShutdown = false) (hfuel : data.length ≤ fuel) :
    (pushChunks fin fuel data).Ends s (fun _ s' => s.Appended w data s') fun _ _ => False := by
  induction fuel generalizing s data w with
  | zero =>
    obtain rfl := List.eq_nil_of_length_eq_zero (Nat.le_zero.mp hfuel)
    exact hcarries.appended_nil
  | succ fuel ih =>
    rw [pushChunks, Program.ends_ite]
    refine ⟨fun hempty => ?_, fun hne => ?_⟩
    · obtain rfl := List.isEmpty_iff.mp hempty
      exact hcarries.appended_nil
    set chunk := data.take maxWriteSize with hchunk
    set rest := data.drop maxWriteSize with hrest
    have hsplit : chunk ++ rest = data := List.take_append_drop maxWriteSize data
    have hpos : 0 < chunk.length := by
      have : 0 < data.length := List.length_pos_iff.mpr (by simpa using hne)
      rw [hchunk, List.length_take, maxWriteSize]
      omega
    have hlen : chunk.length + rest.length = data.length := by rw [← List.length_append, hsplit]
    rw [Program.ends_bind, Program.ends_get]
    dsimp only
    obtain ⟨s₁, hpush, hstored⟩ := push_ok
      (by simp [Refuses, hopen] : ¬ s.Refuses ⟨chunk, s.off, rest.isEmpty && fin⟩)
    have hext := hstored.extended (fun _ => hopen) hshut
    have happ := hcarries.pushChunk wf hw hshut hpush
    rw [hpush]
    simp only [Program.ofExcept_ok, pure_bind, Program.ends_bind, Program.ends_set]
    rw [hstored.off]
    cases hlast : rest.isEmpty with
    | true =>
      have hnil := List.isEmpty_iff.mp hlast
      have hend (fuel : ℕ) : pushChunks fin fuel [] = pure () := by cases fuel <;> rfl
      rw [hnil, hend, Program.ends_pure, ← hsplit, hnil, List.append_nil]
      exact happ
    | false =>
      -- only the last chunk carries the fin flag, so the next one may follow
      rw [hlast, Bool.false_and] at hext
      have hopen₁ := hext.finOff
      rw [if_neg Bool.false_ne_true, hopen] at hopen₁
      have hw₁ : (w ++ chunk).length = s.off + chunk.length := by rw [List.length_append, hw]
      refine (ih happ.carries (hext.wf wf hshut) hw₁ hopen₁ (hext.rest.isShutdown.trans hshut)
        (by omega)).mono ?_ fun _ _ => id
      intro _ s₂ h₂
      have := happ.trans h₂ rfl hext.rest.ackOff
      rwa [hsplit] at this

/-- The bytes that a write reports as stored are those it puts into the buffer. -/
theorem pushSlice_appends (data : List UInt8) (fin : Bool) {w : List UInt8} {s : SendBuf}
    (hcarries : s.Carries w) (wf : s.WF) (hw : w.length = s.off) (hshut : s.isShutdown = false) :
    (pushSlice data fin).Ends s (fun n s' => s.Appended w (data.take n) s') fun _ _ => True := by
  rw [pushSlice, Program.ends_bind, Program.ends_get, Program.ends_ite]
  refine ⟨fun h => ?_, fun _ => ?_⟩
  · rw [hshut] at h
    cases h
  rw [Program.ends_ite]
  refine ⟨fun hempty => ?_, fun _ => ?_⟩
  · cases hpush : s.push ⟨[], s.off, fin⟩ with
    | error e => trivial
    | ok s' =>
      have happ := hcarries.pushChunk wf hw hshut hpush
      have hoff : s' = { s' with off := s.off + 0 } := by
        rw [Nat.add_zero, ← (push_spec hpush).2.off]
      change s.Appended w (data.take 0) s'
      rw [List.take_zero, hoff]
      exact happ
  · set kept := data.take s.cap with hkept
    have htake : data.take kept.length = kept := by
      rw [hkept, List.length_take, ← List.take_take, List.take_length]
    dsimp only
    rw [Program.ends_bind]
    by_cases hopen : s.finOff = none ∨ kept = []
    · refine Program.Ends.mono (Q := fun _ s' => s.Appended w kept s') (E := fun _ _ => False) ?_ ?_
        fun _ _ => False.elim
      · rcases hopen with hopen | hnil
        · exact pushChunks_appends hcarries wf hw hopen hshut le_rfl
        · rw [hnil]
          exact hcarries.appended_nil
      · intro _ s' h
        rw [Program.ends_pure, htake]
        exact h
    · push Not at hopen
      obtain ⟨hfin, hkeep⟩ := hopen
      exact (pushChunks_closed wf.fin hfin hkeep).mono (fun _ _ => False.elim) fun _ _ _ => trivial

/-! ### What a buffer receives -/

/-- The bytes are put behind everything that was written, and end the stream if `fin` holds. -/
structure Receives (s : SendBuf) (data : List UInt8) (fin : Bool) (s' : SendBuf) : Prop where
  off : s'.off = s.off + data.length
  finOff : s'.finOff = if fin then some s'.off else s.finOff
  kept : ∀ b ∈ s.data.toList, b ∈ s'.data.toList
  chunks : ∀ b ∈ s'.data.toList, b ∈ s.data.toList ∨ b.Piece ⟨data, s.off, fin⟩
  queued : ∀ x, s.off ≤ x → x < s.off + data.length → s'.Queued x ∨ x < s.ackOff
  rest : s.SameRest s'

theorem Receives.refl (s : SendBuf) : s.Receives [] false s where
  off := rfl
  finOff := rfl
  kept _ := id
  chunks _ := .inl
  queued _ hle hlt := absurd hlt (Nat.not_lt.mpr hle)
  rest := .refl s

/-- More bytes follow. -/
theorem piece_append (data more : List UInt8) (off : ℕ) (fin fin' : Bool) :
    (RangeBuf.mk data off fin).Piece ⟨data ++ more, off, fin'⟩ where
  off_le := le_rfl
  maxOff_le := by
    simp only [RangeBuf.maxOff, RangeBuf.len, List.length_append]
    omega
  agrees t h x hx := by
    obtain ⟨hle, hlt⟩ : off ≤ x ∧ x < off + data.length := hx
    have hlonger : x < off + (data ++ more).length := by
      rw [List.length_append]
      omega
    rw [h x ⟨hle, hlonger⟩]
    exact List.getElem?_append_left (by dsimp only; omega)

private theorem piece_behind (data more : List UInt8) (off : ℕ) (fin : Bool) :
    (RangeBuf.mk more (off + data.length) fin).Piece ⟨data ++ more, off, fin⟩ where
  off_le := Nat.le_add_right _ _
  maxOff_le := by
    simp only [RangeBuf.maxOff, RangeBuf.len, List.length_append]
    omega
  agrees t h x hx := by
    obtain ⟨hle, hlt⟩ : off + data.length ≤ x ∧ x < off + data.length + more.length := hx
    have hend : x < off + (data ++ more).length := by
      rw [List.length_append]
      omega
    rw [h x ⟨(Nat.le_add_right _ _).trans hle, hend⟩,
      List.getElem?_append_right (by dsimp only; omega), Nat.sub_sub]

theorem Receives.trans {s s' s'' : SendBuf} {data more : List UInt8} {fin : Bool}
    (h : s.Receives data false s')
    (h' : s'.Receives more fin s'') : s.Receives (data ++ more) fin s'' where
  off := by rw [h'.off, h.off, List.length_append, Nat.add_assoc]
  finOff := by
    rw [h'.finOff, h.finOff]
    rfl
  kept b hb := h'.kept b (h.kept b hb)
  chunks b hb := by
    rcases h'.chunks b hb with hold | hpiece
    · exact (h.chunks b hold).imp_right fun hpiece =>
        hpiece.trans (piece_append data more s.off false fin)
    · rw [h.off] at hpiece
      exact .inr (hpiece.trans (piece_behind data more s.off fin))
  queued x hle hlt := by
    rw [List.length_append] at hlt
    have hnext := h'.queued x
    rw [h.off, h.rest.ackOff] at hnext
    by_cases hfirst : x < s.off + data.length
    · rcases h.queued x hle hfirst with ⟨b, hb, hcover⟩ | hacked
      · exact .inl ⟨b, h'.kept b hb, hcover⟩
      · exact .inr hacked
    · exact hnext (by omega) (by omega)
  rest := h.rest.trans h'.rest

/-- A chunk at the end is received. -/
theorem Stored.receives {s s' : SendBuf} {chunk : List UInt8} {fin : Bool}
    (h : Stored s ⟨chunk, s.off, fin⟩ s')
    (hopen : s.finOff = none) (hshut : s.isShutdown = false) :
    s.Receives chunk fin { s' with off := s.off + chunk.length } where
  off := rfl
  finOff := (h.extended (fun _ => hopen) hshut).finOff
  kept b hb := (h.data b).mpr (.inl hb)
  chunks b hb := by
    rcases (h.data b).mp hb with hold | ⟨rfl, -⟩
    · exact .inl hold
    · exact .inr (.refl _)
  queued _ hle hlt := h.queued hshut (.inr ⟨hle, hlt⟩)
  rest := h.rest.trans ⟨rfl, rfl, rfl, rfl, rfl, rfl, rfl⟩

private theorem pushChunks_receives {fuel : ℕ} {fin : Bool} {data : List UInt8} {s : SendBuf}
    (hopen : s.finOff = none)
    (hshut : s.isShutdown = false) (hfuel : data.length ≤ fuel) :
    (pushChunks fin fuel data).Ends s
    (fun _ s' => s.Receives data (!data.isEmpty && fin) s') fun _ _ => False := by
  induction fuel generalizing s data with
  | zero =>
    obtain rfl := List.eq_nil_of_length_eq_zero (Nat.le_zero.mp hfuel)
    exact .refl s
  | succ fuel ih =>
    rw [pushChunks, Program.ends_ite]
    refine ⟨fun hempty => ?_, fun hne => ?_⟩
    · obtain rfl := List.isEmpty_iff.mp hempty
      exact .refl s
    rw [Bool.not_eq_true] at hne
    set chunk := data.take maxWriteSize with hchunk
    set rest := data.drop maxWriteSize with hrest
    have hsplit : chunk ++ rest = data := List.take_append_drop maxWriteSize data
    have hpos : 0 < chunk.length := by
      have : 0 < data.length := List.length_pos_iff.mpr (by simpa using hne)
      rw [hchunk, List.length_take, maxWriteSize]
      omega
    have hlen : chunk.length + rest.length = data.length := by rw [← List.length_append, hsplit]
    rw [Program.ends_bind, Program.ends_get]
    dsimp only
    obtain ⟨s₁, hpush, hstored⟩ := push_ok
      (by simp [Refuses, hopen] : ¬ s.Refuses ⟨chunk, s.off, rest.isEmpty && fin⟩)
    have hreceived := hstored.receives hopen hshut
    rw [hpush]
    simp only [Program.ofExcept_ok, pure_bind, Program.ends_bind, Program.ends_set]
    rw [hstored.off, hne, Bool.not_false, Bool.true_and]
    cases hlast : rest.isEmpty with
    | true =>
      have hnil := List.isEmpty_iff.mp hlast
      have hend (fuel : ℕ) : pushChunks fin fuel [] = pure () := by cases fuel <;> rfl
      rw [hlast, Bool.true_and] at hreceived
      rw [hnil, hend, Program.ends_pure, ← hsplit, hnil, List.append_nil]
      exact hreceived
    | false =>
      -- only the last chunk carries the fin flag
      rw [hlast, Bool.false_and] at hreceived
      have hopen₁ := hreceived.finOff
      rw [if_neg Bool.false_ne_true, hopen] at hopen₁
      refine (ih hopen₁ (hreceived.rest.isShutdown.trans hshut) (by omega)).mono (fun _ s₂ h₂ => ?_)
        fun _ _ => id
      rw [hlast, Bool.not_false, Bool.true_and] at h₂
      have hall := hreceived.trans h₂
      rwa [hsplit] at hall

/-- An open buffer receives as many bytes as the peer's limit allows. -/
theorem pushSlice_receives (data : List UInt8) (fin : Bool) {s : SendBuf} (hopen : s.finOff = none)
    (hshut : s.isShutdown = false) :
    (pushSlice data fin).Ends s (fun n s' => n = min s.cap data.length ∧
      s.Receives (data.take s.cap) (fin && decide (data.length ≤ s.cap)) s') fun _ _ => False := by
  rw [pushSlice, Program.ends_bind, Program.ends_get, Program.ends_ite]
  refine ⟨fun h => ?_, fun _ => ?_⟩
  · rw [hshut] at h
    cases h
  rw [Program.ends_ite]
  refine ⟨fun hempty => ?_, fun hne => ?_⟩
  · obtain rfl := List.isEmpty_iff.mp hempty
    obtain ⟨s', hpush, hstored⟩ := push_ok (by simp [Refuses, hopen] : ¬ s.Refuses ⟨[], s.off, fin⟩)
    have hreceived := hstored.receives hopen hshut
    have hoff : s' = { s' with off := s.off + 0 } := by
      rw [Nat.add_zero, ← hstored.off]
    rw [hpush]
    refine ⟨by simp, ?_⟩
    rw [List.take_nil, List.length_nil, hoff]
    simpa using hreceived
  · dsimp only
    rw [Program.ends_bind]
    refine (pushChunks_receives hopen hshut le_rfl).mono (fun _ s' hreceived => ?_) fun _ _ => id
    rw [Program.ends_pure, List.length_take]
    refine ⟨rfl, ?_⟩
    convert hreceived using 1
    cases hnil : (data.take s.cap).isEmpty with
    | false => rfl
    | true =>
      -- nothing is kept, although there is data
      have hkept : (data.take s.cap).length = 0 := by
        rw [List.isEmpty_iff.mp hnil, List.length_nil]
      have hpos : 0 < data.length := List.length_pos_iff.mpr (by simpa using hne)
      rw [List.length_take] at hkept
      have hlong : ¬ data.length ≤ s.cap := by omega
      simp [hlong]

/-- After a shutdown, or at the end of a stream that has no room left, writing is a success without
effect. -/
theorem pushSlice_stuck {s : SendBuf} (h : s.isShutdown = true ∨ s.finOff ≠ none ∧ s.cap = 0)
    {data : List UInt8}
    (hdata : data ≠ []) (fin : Bool) : ∃ n, pushSlice data fin s = .ok n s := by
  have hne : data.isEmpty = false := by simpa using hdata
  rw [pushSlice, Program.bind_apply, Program.get_apply]
  dsimp only
  by_cases hshut : s.isShutdown = true
  · exact ⟨_, by rw [if_pos hshut]; rfl⟩
  · obtain ⟨-, hcap⟩ := h.resolve_left hshut
    rw [if_neg hshut, hne, hcap, List.take_zero]
    exact ⟨_, rfl⟩

/-- Behind the end of a stream, nothing is stored. -/
theorem pushSlice_refused {s : SendBuf} (wf : s.WF) (hfin : s.finOff ≠ none)
    (hshut : s.isShutdown = false)
    (hcap : 0 < s.cap) {data : List UInt8} (hdata : data ≠ []) (fin : Bool) :
    pushSlice data fin s = .error (.error .finalSize) s := by
  have hne : data.isEmpty = false := by simpa using hdata
  have hkept : data.take s.cap ≠ [] := by
    rw [Ne, List.take_eq_nil_iff, not_or]
    exact ⟨hcap.ne', hdata⟩
  have hpush := @pushChunks_closed (fin && decide (data.length ≤ s.cap)) _ _ wf.fin hfin hkept
  rw [pushSlice, Program.bind_apply, Program.get_apply]
  dsimp only
  rw [hshut, if_neg Bool.false_ne_true, hne, if_neg Bool.false_ne_true, Program.bind_apply]
  cases hresult : pushChunks (fin && decide (data.length ≤ s.cap)) (data.take s.cap).length
      (data.take s.cap) s with
  | ok _ s' => exact (hpush.ok hresult).elim
  | error e s' =>
    obtain ⟨rfl, rfl⟩ := hpush.error hresult
    rfl

/-- What was received since a buffer stood at an offset is determined. -/
theorem Receives.unique {s t s' : SendBuf} {data data' : List UInt8} {fin fin' : Bool}
    (h : s.Receives data fin s')
    (h' : t.Receives data' fin' s') (hoff : t.off = s.off) (wf : s.WF) (wf' : t.WF)
    (hack : s.ackOff ≤ s.off) :
    data = data' := by
  have hlen : data.length = data'.length := by
    have := h.off.symm.trans h'.off
    omega
  refine List.ext_getElem? fun i => ?_
  by_cases hi : i < data.length
  · rcases h.queued (s.off + i) (Nat.le_add_right _ _) (Nat.add_lt_add_left hi _) with ⟨b, hb,
      hcover⟩ | hacked
    · have hnew {u : SendBuf} {bytes : List UInt8} {f : Bool} (hu : u.off = s.off) (wf : u.WF)
          (hb : b ∈ u.data.toList ∨ b.Piece ⟨bytes, u.off, f⟩) :
              b.data[s.off + i - b.off]? = bytes[i]? := by
        rcases hb with hold | hpiece
        · have hend := wf.le_off b hold
          have := hcover.2
          omega
        · rw [hu] at hpiece
          have hagrees : (RangeBuf.mk bytes s.off f).AgreesWith
              (List.replicate s.off 0 ++ bytes) := by
            intro x hx
            rw [List.getElem?_append_right (by simpa using hx.1), List.length_replicate]
          rw [← hpiece.agrees _ hagrees _ hcover, List.getElem?_append_right (by simp),
            List.length_replicate,
            Nat.add_sub_cancel_left]
      rw [← hnew rfl wf (h.chunks b hb), hnew hoff wf' (h'.chunks b hb)]
    · omega
  · rw [List.getElem?_eq_none (not_lt.mp hi), List.getElem?_eq_none (hlen ▸ not_lt.mp hi)]

/-! ### Taking data for a packet -/

/-- No byte is changed or forgotten when `buf` is taken out. -/
structure Took (s : SendBuf) (buf : RangeBuf) (s' : SendBuf) : Prop where
  queued : ∀ x, s.Queued x → s'.Queued x ∨ buf.Covers x
  carries : ∀ w, s.Carries w → s'.Carries w ∧ buf.AgreesWith w

private theorem popChunk_took {s s' : SendBuf} {cap : ℕ} {buf : RangeBuf}
    (h : s.popChunk cap = some (buf, s')) : s.Took buf s' := by
  unfold popChunk at h
  cases hpop : s.data.pop with
  | none =>
    rw [hpop] at h
    cases h
  | some front =>
    obtain ⟨b, rest⟩ := front
    have hmem (c : RangeBuf) := BinaryHeap.mem_of_mem_pop (y := c) hpop
    have hb : b ∈ s.data.toList := (hmem b).mpr (.inl rfl)
    have hmax : b.maxOff = b.off + b.len := rfl
    have htotal : s.total = b.len + (rest.toList.map RangeBuf.len).sum := total_pop hpop
    simp only [hpop] at h
    split_ifs at h with hcut
    · cases h
      -- the chunk is cut, and its rest goes back
      have hidx : min cap (s.maxData - b.off) ≤ b.len := by omega
      set idx := min cap (s.maxData - b.off)
      refine ⟨fun x hx => ?_, fun w hw =>
        ⟨⟨fun c hc => ?_, ?_⟩, (hw.agrees b hb).splitOff_fst hidx⟩⟩
      · obtain ⟨c, hc, hcover⟩ := hx
        rcases (hmem c).mp hc with rfl | hc
        · by_cases hlt : x < c.off + idx
          · exact .inr ((RangeBuf.splitOff_fst_covers hidx).mpr ⟨hcover, hlt⟩)
          · exact .inl ⟨_, BinaryHeap.mem_push.mpr (.inl rfl),
              (RangeBuf.splitOff_snd_covers hidx).mpr ⟨hcover, not_lt.mp hlt⟩⟩
        · exact .inl ⟨c, BinaryHeap.mem_push.mpr (.inr hc), hcover⟩
      · rcases BinaryHeap.mem_push.mp hc with rfl | hc
        · exact (hw.agrees b hb).splitOff_snd hidx
        · exact hw.agrees c ((hmem c).mpr (.inr hc))
      · change s.len - (b.splitOff idx).1.len =
          ((rest.push (b.splitOff idx).2).toList.map RangeBuf.len).sum
        rw [total_push, RangeBuf.splitOff_fst_len, RangeBuf.splitOff_snd_len, hw.len, htotal]
        omega
    · cases h
      refine ⟨fun x hx => ?_, fun w hw => ⟨⟨fun c hc => hw.agrees c ((hmem c).mpr (.inr hc)), ?_⟩,
        hw.agrees _ hb⟩⟩
      · obtain ⟨c, hc, hcover⟩ := hx
        rcases (hmem c).mp hc with rfl | hc
        · exact .inr hcover
        · exact .inl ⟨c, hc, hcover⟩
      · change s.len - buf.len = (rest.toList.map RangeBuf.len).sum
        rw [hw.len, htotal, Nat.add_sub_cancel_left]

private theorem popLoop_took {fuel cap outOff : ℕ} {s s' : SendBuf} (out : RangeBuf)
    {out' : RangeBuf}
    (hout : 0 < out.len → out.maxOff = outOff)
    (h : popLoop fuel cap outOff out s = (out', s')) :
    (∀ x, s.Queued x ∨ out.Covers x → s'.Queued x ∨ out'.Covers x) ∧
      ∀ w, s.Carries w → out.AgreesWith w → s'.Carries w ∧ out'.AgreesWith w := by
  induction fuel generalizing cap outOff out s with
  | zero =>
    cases h
    exact ⟨fun _ => id, fun _ => .intro⟩
  | succ fuel ih =>
    rw [popLoop] at h
    by_cases hmore : 0 < cap ∧ s.ready ∧ s.lowOff = outOff ∧ s.lowOff < s.maxData
    · rw [if_pos hmore] at h
      cases hpop : s.popChunk cap with
      | none =>
        simp only [hpop] at h
        cases h
        exact ⟨fun _ => id, fun _ => .intro⟩
      | some chunk =>
        obtain ⟨buf, s₁⟩ := chunk
        simp only [hpop] at h
        have htook := popChunk_took hpop
        -- the chunk starts where the output ends
        have hadj (hpos : 0 < out.len) : out.maxOff = buf.off := by
          rw [popChunk_off hpop, hmore.2.2.1]
          exact hout hpos
        obtain ⟨hqueued, hcarries⟩ := ih _ (fun _ => RangeBuf.joined_maxOff hadj out.fin) h
        refine ⟨fun x hx => hqueued x ?_, fun w hw hagrees => ?_⟩
        · rw [RangeBuf.joined_covers hadj]
          rcases hx with hx | hx
          · rcases htook.queued x hx with hx | hx
            · exact .inl hx
            · exact .inr (.inr hx)
          · exact .inr (.inl hx)
        · obtain ⟨hw₁, hbuf⟩ := htook.carries w hw
          exact hcarries w hw₁ (hagrees.joined hbuf hadj out.fin)
    · rw [if_neg hmore] at h
      cases h
      exact ⟨fun _ => id, fun _ => .intro⟩

/-- What is popped was queued. -/
theorem pop_took {s s' : SendBuf} {cap : ℕ} {out : RangeBuf} (h : s.pop cap = (out, s')) :
    s.Took out s' := by
  unfold pop at h
  obtain ⟨⟨out₁, s₁⟩, hloop⟩ : ∃ r, popLoop (s.data.toList.length + 1) cap s.lowOff
    ⟨[], s.off, false⟩ s = r := ⟨_, rfl⟩
  rw [hloop] at h
  cases h
  have hnone (x : ℕ) : ¬ (RangeBuf.mk [] s.off false).Covers x := fun hx =>
    absurd hx.not_isEmpty (Nat.lt_irrefl 0)
  obtain ⟨hqueued, hcarries⟩ := popLoop_took ⟨[], s.off, false⟩
    (fun h => absurd h (Nat.lt_irrefl 0)) hloop
  exact ⟨fun x hx => hqueued x (.inl hx),
    fun w hw => hcarries w hw fun x hx => absurd hx (hnone x)⟩

end SendBuf

/-! ### Runs -/

/-- A chunk as a packet takes it, with the final offset and the peer's limit known then. -/
structure Departure where
  chunk : RangeBuf
  finOff : Option ℕ
  maxData : ℕ

/-- A send buffer with what happened to the bytes written to it. -/
structure Flight where
  buf : SendBuf
  /-- What the buffer has stored of the application's data. -/
  written : List UInt8
  /-- Every chunk that was popped. -/
  popped : List Departure
  /-- The chunks that were popped and neither acked nor lost. -/
  inFlight : List RangeBuf
  /-- The chunks that were acked. -/
  acked : List RangeBuf

namespace Flight

/-- What may happen to a send buffer. -/
inductive Op
  | pushSlice (data : List UInt8) (fin : Bool)
  | pop (cap : ℕ)
  | updateMaxData (maxData : ℕ)
  | ack (chunk : RangeBuf)
  | lose (chunk : RangeBuf)

/-- One operation. Only chunks in flight are acked or lost, and a lost chunk is one that the
buffer takes back. -/
def step (f : Flight) : Op → Option Flight
  | .pushSlice data fin =>
    match SendBuf.pushSlice data fin f.buf with
    | .ok n buf => some { f with buf := buf, written := f.written ++ data.take n }
    | .error _ buf => some { f with buf := buf }
  | .pop cap =>
    let (out, buf) := f.buf.pop cap
    some { f with
      buf := buf
      popped := f.popped ++ [⟨out, f.buf.finOff, f.buf.maxData⟩]
      inFlight := f.inFlight ++ [out] }
  | .updateMaxData maxData => some { f with buf := f.buf.updateMaxData maxData }
  | .ack chunk =>
    if chunk ∈ f.inFlight then
      some { f with
        buf := f.buf.ack chunk.off chunk.len
        inFlight := f.inFlight.erase chunk
        acked := chunk :: f.acked }
    else none
  | .lose chunk =>
    if chunk ∈ f.inFlight then
      match f.buf.push chunk with
      | .ok buf => some { f with buf := buf, inFlight := f.inFlight.erase chunk }
      | .error _ => none
    else none

/-- A new buffer. -/
def start (maxData deadline priority now : ℕ) : Flight where
  buf := .newFull maxData deadline priority now
  written := []
  popped := []
  inFlight := []
  acked := []

/-- The byte at `x` waits to be sent, is on its way, or is acked. -/
def Holds (f : Flight) (x : ℕ) : Prop :=
  f.buf.Queued x ∨ (∃ c ∈ f.inFlight, c.Covers x) ∨ ∃ c ∈ f.acked, c.Covers x

/-- What the application may rely on in a state. -/
structure RoundTrip (f : Flight) : Prop where
  /-- Popped chunks carry the bytes written at their offsets. -/
  content : ∀ d ∈ f.popped, d.chunk.data = (f.written.drop d.chunk.off).take d.chunk.len
  /-- The bytes lie below the limit of the peer. -/
  limit : ∀ d ∈ f.popped, ∀ x, d.chunk.Covers x → x < d.maxData
  /-- Chunks are marked as the last one if they end at the final offset. -/
  fin : ∀ d ∈ f.popped, d.chunk.fin = true ↔ d.finOff = some d.chunk.maxOff
  /-- `len` is the length of the queued chunks. -/
  len : f.buf.len = f.buf.total
  /-- Every byte that was written is queued, in flight or acked. -/
  covered : ∀ x < f.written.length, f.Holds x

/-- The invariant of a run. -/
structure Tracks (f : Flight) : Prop where
  wf : f.buf.WF
  open_ : f.buf.isShutdown = false
  written : f.written.length = f.buf.off
  carries : f.buf.Carries f.written
  popped : ∀ d ∈ f.popped, d.chunk.maxOff ≤ f.written.length ∧ d.chunk.AgreesWith f.written ∧
    (∀ x, d.chunk.Covers x → x < d.maxData) ∧ d.chunk.fin = (d.finOff == some d.chunk.maxOff)
  inFlight : ∀ c ∈ f.inFlight, f.buf.Fits c ∧ c.AgreesWith f.written
  acked : ∀ x, f.buf.acked.Has x → ∃ c ∈ f.acked, c.Covers x
  covered : ∀ x < f.written.length, f.Holds x
  -- so that the capacity of the source does not underflow
  room : f.buf.off ≤ f.buf.maxData

private theorem tracks_start (maxData deadline priority now : ℕ) :
    (start maxData deadline priority now).Tracks where
  wf := SendBuf.newFull_wf maxData deadline priority now
  open_ := rfl
  written := rfl
  carries := SendBuf.newFull_carries maxData deadline priority now
  popped _ hd := by cases hd
  inFlight _ hc := by cases hc
  acked x hx := absurd hx (RangeSet.not_has_empty x)
  covered x hx := absurd hx (Nat.not_lt_zero x)
  room := Nat.zero_le maxData

/-- What is tracked makes the round trip. -/
theorem Tracks.roundTrip {f : Flight} (h : f.Tracks) : f.RoundTrip where
  content d hd := (h.popped d hd).2.1.data_eq
  limit d hd := (h.popped d hd).2.2.1
  fin d hd := by rw [(h.popped d hd).2.2.2, beq_iff_eq]
  len := h.carries.len
  covered := h.covered

/-- A byte stays accounted for if the chunks in flight and acked stay, and what was queued
stays queued or is acked. -/
theorem Tracks.holds_of_queued {f : Flight} {buf : SendBuf} {x : ℕ} (h : f.Tracks)
    (hx : f.Holds x) (hq : f.buf.Queued x → buf.Queued x ∨ x < f.buf.ackOff) :
    { f with buf := buf }.Holds x := by
  rcases hx with hx | hx
  · rcases hq hx with hx | hx
    · exact .inl hx
    · exact .inr (.inr (h.acked x (SendBuf.has_of_lt_ackOff hx)))
  · exact .inr hx

/-- Writing. -/
theorem Tracks.written_more {f : Flight} (h : f.Tracks) {data : List UInt8} {n : ℕ} {fin : Bool}
    {buf : SendBuf} (hext : f.buf.Extended n fin buf) (hn : n = data.length)
    (hroom : n ≤ f.buf.cap)
    (happ : f.buf.Appended f.written data buf) :
    { f with buf := buf, written := f.written ++ data }.Tracks where
  wf := hext.wf h.wf h.open_
  open_ := hext.rest.isShutdown.trans h.open_
  written := by
    rw [List.length_append, h.written, hext.off, hn]
  carries := happ.carries
  popped d hd := by
    obtain ⟨hle, hagrees, hrest⟩ := h.popped d hd
    refine ⟨?_, hagrees.append hle data, hrest⟩
    rw [List.length_append]
    exact Nat.le_add_right_of_le hle
  inFlight c hc := by
    obtain ⟨hfits, hagrees⟩ := h.inFlight c hc
    exact ⟨hfits.extended h.wf hext, hagrees.append (h.written ▸ hfits.maxOff_le) data⟩
  acked x hx := by
    rw [hext.rest.acked] at hx
    exact h.acked x hx
  covered x hx := by
    rw [List.length_append] at hx
    by_cases hold : x < f.written.length
    · exact h.holds_of_queued (h.covered x hold) fun hq => happ.queued x (.inl hq)
    · have hnew : f.buf.off ≤ x ∧ x < f.buf.off + data.length := by
        have := h.written
        omega
      rcases happ.queued x (.inr hnew) with hq | hlt
      · exact .inl hq
      · exact .inr (.inr (h.acked x (SendBuf.has_of_lt_ackOff hlt)))
  room := by
    have := h.room
    unfold SendBuf.cap at hroom
    rw [hext.off, hext.rest.maxData]
    omega

/-- New data is written. -/
theorem Tracks.pushSlice {f f' : Flight} (h : f.Tracks) {data : List UInt8} {fin : Bool}
    (hstep : f.step (.pushSlice data fin) = some f') : f'.Tracks := by
  have hends := (SendBuf.pushSlice_ends data fin h.wf.fin).and
    (SendBuf.pushSlice_appends data fin h.carries h.wf h.written h.open_)
  rw [step] at hstep
  cases hpush : SendBuf.pushSlice data fin f.buf with
  | ok n buf =>
    rw [hpush] at hstep
    cases hstep
    obtain ⟨hwritten, happ⟩ := hends.ok hpush
    cases hwritten with
    | dropped hshut =>
      rw [h.open_] at hshut
      cases hshut
    | stored _ hn extended =>
      refine h.written_more extended ?_ (hn ▸ min_le_left _ _) happ
      rw [List.length_take, hn]
      omega
  | error e buf =>
    rw [hpush] at hstep
    cases hstep
    obtain ⟨⟨-, rfl, -⟩, -⟩ := hends.error hpush
    exact h

/-- Taking data for a packet. -/
theorem Tracks.pop {f f' : Flight} (h : f.Tracks) {cap : ℕ}
    (hstep : f.step (.pop cap) = some f') : f'.Tracks := by
  rw [step] at hstep
  cases hpop : f.buf.pop cap with
  | mk out buf =>
    rw [hpop] at hstep
    cases hstep
    have hpopped := SendBuf.pop_spec h.wf hpop
    have htook := SendBuf.pop_took hpop
    have hdrained := hpopped.drained
    obtain ⟨hcarries, hagrees⟩ := htook.carries _ h.carries
    have hle : out.maxOff ≤ f.written.length := h.written ▸ hpopped.maxOff_le
    have hlimit (x : ℕ) (hx : out.Covers x) : x < f.buf.maxData :=
      hx.2.trans_le (hpopped.limit hx.not_isEmpty)
    refine ⟨hdrained.wf h.wf, hdrained.rest.isShutdown.trans h.open_,
      h.written.trans hdrained.off.symm,
      hcarries, fun d hd => ?_, fun c hc => ?_, fun x hx => ?_, fun x hx => ?_, ?_⟩
    · rcases List.mem_append.mp hd with hd | hd
      · exact h.popped d hd
      · obtain rfl := List.mem_singleton.mp hd
        exact ⟨hle, hagrees, hlimit, hpopped.fin⟩
    · rcases List.mem_append.mp hc with hc | hc
      · obtain ⟨hfits, hc⟩ := h.inFlight c hc
        refine ⟨⟨hdrained.off ▸ hfits.maxOff_le, fun hfin => ?_⟩, hc⟩
        rw [hdrained.finOff]
        exact hfits.fin hfin
      · obtain rfl := List.mem_singleton.mp hc
        exact ⟨hpopped.fits, hagrees⟩
    · rw [hdrained.rest.acked] at hx
      exact h.acked x hx
    · rcases h.covered x hx with hq | ⟨c, hc, hcover⟩ | hacked
      · rcases htook.queued x hq with hq | hcover
        · exact .inl hq
        · exact .inr (.inl ⟨out, List.mem_append_right _ List.mem_cons_self, hcover⟩)
      · exact .inr (.inl ⟨c, List.mem_append_left _ hc, hcover⟩)
      · exact .inr (.inr hacked)
    · exact hdrained.off ▸ hdrained.rest.maxData ▸ h.room

/-- The limit is raised. -/
theorem Tracks.updateMaxData {f f' : Flight} (h : f.Tracks) {maxData : ℕ}
    (hstep : f.step (.updateMaxData maxData) = some f') : f'.Tracks := by
  rw [step] at hstep
  cases hstep
  exact ⟨⟨h.wf.le_off, h.wf.nonempty, h.wf.fin, h.wf.drained⟩, h.open_, h.written,
    ⟨h.carries.agrees, h.carries.len⟩, h.popped,
    fun c hc => ⟨⟨(h.inFlight c hc).1.maxOff_le, (h.inFlight c hc).1.fin⟩, (h.inFlight c hc).2⟩,
    h.acked, h.covered, h.room.trans (le_max_left _ _)⟩

/-- A chunk that leaves the flight is covered by itself. -/
theorem covers_erase {cs : List RangeBuf} (chunk : RangeBuf) {x : ℕ}
    (h : ∃ c ∈ cs, c.Covers x) : (∃ c ∈ cs.erase chunk, c.Covers x) ∨ chunk.Covers x := by
  obtain ⟨c, hc, hcover⟩ := h
  by_cases heq : c = chunk
  · exact .inr (heq ▸ hcover)
  · exact .inl ⟨c, (List.mem_erase_of_ne heq).mpr hc, hcover⟩

/-- Acked chunks leave the flight. -/
theorem Tracks.ack {f f' : Flight} (h : f.Tracks) {chunk : RangeBuf}
    (hstep : f.step (.ack chunk) = some f') : f'.Tracks := by
  rw [step] at hstep
  split_ifs at hstep
  cases hstep
  refine ⟨⟨h.wf.le_off, h.wf.nonempty, h.wf.fin, h.wf.drained⟩, h.open_, h.written,
    ⟨h.carries.agrees, h.carries.len⟩, h.popped, fun c hc => ?_, fun x hx => ?_, fun x hx => ?_,
    h.room⟩
  · obtain ⟨hfits, hagrees⟩ := h.inFlight c (List.mem_of_mem_erase hc)
    exact ⟨⟨hfits.maxOff_le, hfits.fin⟩, hagrees⟩
  · rcases RangeSet.has_of_insert (Nat.le_add_right _ _) hx with hx | hx
    · obtain ⟨c, hc, hcover⟩ := h.acked x hx
      exact ⟨c, List.mem_cons_of_mem _ hc, hcover⟩
    · exact ⟨chunk, List.mem_cons_self, hx⟩
  · rcases h.covered x hx with hq | hflight | ⟨c, hc, hcover⟩
    · exact .inl hq
    · rcases covers_erase chunk hflight with hflight | hcover
      · exact .inr (.inl hflight)
      · exact .inr (.inr ⟨chunk, List.mem_cons_self, hcover⟩)
    · exact .inr (.inr ⟨c, List.mem_cons_of_mem _ hc, hcover⟩)

/-- Lost chunks are queued again, unless they were acked meanwhile. -/
theorem Tracks.lose {f f' : Flight} (h : f.Tracks) {chunk : RangeBuf}
    (hstep : f.step (.lose chunk) = some f') : f'.Tracks := by
  rw [step] at hstep
  split_ifs at hstep with hmem
  cases hpush : f.buf.push chunk with
  | error e =>
    rw [hpush] at hstep
    cases hstep
  | ok buf =>
    rw [hpush] at hstep
    cases hstep
    obtain ⟨hfits, hagrees⟩ := h.inFlight chunk hmem
    have hstored := (SendBuf.push_spec hpush).2
    have hfin := hfits.finOff_eq hstored
    refine ⟨hstored.wf_of_fits h.wf hfits, hstored.rest.isShutdown.trans h.open_,
      h.written.trans hstored.off.symm, h.carries.push hpush h.open_ hagrees, h.popped,
      fun c hc => ?_, fun x hx => ?_, fun x hx => ?_,
      hstored.off ▸ hstored.rest.maxData ▸ h.room⟩
    · obtain ⟨hc, hagrees⟩ := h.inFlight c (List.mem_of_mem_erase hc)
      exact ⟨⟨hstored.off ▸ hc.maxOff_le, hfin ▸ hc.fin⟩, hagrees⟩
    · rw [hstored.rest.acked] at hx
      exact h.acked x hx
    · have hqueued (hx : f.buf.Queued x ∨ chunk.Covers x) :
          buf.Queued x ∨ ∃ c ∈ f.acked, c.Covers x :=
        (hstored.queued h.open_ hx).imp_right fun hlt => h.acked x (SendBuf.has_of_lt_ackOff hlt)
      rcases h.covered x hx with hq | hflight | hacked
      · exact (hqueued (.inl hq)).imp_right .inr
      · rcases covers_erase chunk hflight with hflight | hcover
        · exact .inr (.inl hflight)
        · exact (hqueued (.inr hcover)).imp_right .inr
      · exact .inr (.inr hacked)

/-- Every operation is tracked. -/
theorem Tracks.step {f f' : Flight} (h : f.Tracks) {op : Op} (hstep : f.step op = some f') :
    f'.Tracks := by
  cases op with
  | pushSlice data fin => exact h.pushSlice hstep
  | pop cap => exact h.pop hstep
  | updateMaxData maxData => exact h.updateMaxData hstep
  | ack chunk => exact h.ack hstep
  | lose chunk => exact h.lose hstep

/-- In every run, popped chunks carry the bytes written at their offsets, lie below the limit
of the peer and are marked as the last one exactly at the final offset; `len` is the length of
the queue, and every byte written is queued, in flight or acked. -/
theorem carries_through (maxData deadline priority now : ℕ) (ops : List Op) :
    Always Flight.step RoundTrip (start maxData deadline priority now) ops :=
  (always_of_step (C := fun _ _ => True) (fun _ _ _ h _ => Tracks.step h)
    (tracks_start maxData deadline priority now) (allSteps_of_forall (fun _ _ => trivial) _ _)).mono
    fun _ => Tracks.roundTrip

/-- A chunk that is cut at the packet's room and lost leaves in the order of offsets. -/
example : ((run Flight.step (start 10 0 0 0) [.pushSlice [1, 2, 3, 4] true, .pop 3,
      .lose ⟨[1, 2, 3], 0, false⟩, .pop 2, .pop 9]).map fun f => f.inFlight) =
    some [⟨[1, 2], 0, false⟩, ⟨[3, 4], 2, true⟩] := by decide +kernel

end Flight

end Dtp
