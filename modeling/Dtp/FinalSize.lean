import Dtp.Reassembly

/-!
# The final size of a stream

A receive buffer refuses chunks beyond its limits, and chunks that contradict the final size or
what was received before. The length it compares with falls behind what it has accepted when a
chunk is drained or when the insertion loses its end; from then on a final size may undercut data
that was accepted.

## Main definitions

* `RecvBuf.pushOn`, `RecvBuf.resetOn` — the operations that may refuse, as programs on the buffer
* `Accounted` — a buffer with the end of the data it has accepted
* `Accounted.Sound` — the limits hold and are enforced
* `Accounted.Records` — an operation leaves the length up to date

## Main results

* `Accounted.sound_iff_records` — a run is sound exactly if all its operations leave the length up
  to date
-/

namespace Dtp

open Lib

namespace RecvBuf

/-! ### Refusing operations -/

/-- The loop that inserts a chunk and then the end that the walk cut off it. -/
def insertOn (goodUntil : ℤ) (now : ℕ) : ℕ → RangeBuf → Program Error RecvBuf Unit
  | 0, _ => throw .hang
  | fuel + 1, buf => do
    let r ← get
    -- `Vec::split_off` panics beyond the end of the chunk
    if buf.maxOff < r.off then Program.crash
    else
      match trim (r.unread buf) none r.data.toList with
      | none => pure ()
      | some (buf, none) => set (r.store goodUntil now buf)
      | some (buf, some tail) => do
        set (r.store goodUntil now buf)
        insertOn goodUntil now fuel tail

/-- Inserts the given chunk in the buffer, which stays as it is left when an error is returned. -/
def pushOn (goodUntil : ℤ) (buf : RangeBuf) (now : ℕ) : Program Error RecvBuf Unit := do
  let r ← get
  match r.checkSize buf.maxOff buf.fin with
  | some e => Program.fail e
  | none =>
    -- We already saved the final offset, so there's nothing else to keep.
    if r.finOff.isSome ∧ buf.isEmpty then pure ()
    else
      let r := r.noteFin buf
      set r
      -- No need to store empty buffer that doesn't carry the fin flag.
      if ¬ buf.fin ∧ buf.isEmpty then pure ()
      -- Data is fully duplicate; empty buffers are excepted.
      else if buf.maxOff ≤ r.off ∧ ¬ buf.isEmpty then pure ()
      else if r.drain then pure ()
      else insertOn goodUntil now (buf.len + 1) buf

/-- Resets the stream at the given offset. -/
def resetOn (finalSize : ℕ) : Program Error RecvBuf ℕ := do
  let r ← get
  if r.finOff.any fun finOff => finOff ≠ finalSize then Program.fail .finalSize
  else if finalSize < r.len then Program.fail .finalSize
  else
    set { r with finOff := some finalSize }
    pure (finalSize - r.len)

private theorem insertOn_apply {goodUntil : ℤ} {now fuel : ℕ} {r r' : RecvBuf} {buf : RangeBuf}
    (h : insertLoop goodUntil now fuel r buf = .ok r') :
    insertOn goodUntil now fuel buf r = .ok () r' := by
  induction fuel generalizing r buf with
  | zero => cases h
  | succ fuel ih =>
    rw [insertLoop] at h
    rw [insertOn, Program.bind_apply, Program.get_apply]
    dsimp only
    split_ifs at h ⊢
    cases htrim : trim (r.unread buf) none r.data.toList with
    | none =>
      rw [htrim] at h
      cases h
      rfl
    | some result =>
      obtain ⟨rest, tmp⟩ := result
      rw [htrim] at h
      cases tmp with
      | none =>
        cases h
        rfl
      | some tail => exact ih h

/-- A chunk that passes the checks is accepted. -/
theorem pushWith_accepts {r : RecvBuf} (wf : r.WF) (goodUntil : ℤ) {buf : RangeBuf} (now : ℕ)
    (h : r.checkSize buf.maxOff buf.fin = none) : ∃ r', r.pushWith goodUntil buf now = .ok r' := by
  rcases r.pushCase goodUntil buf now with ⟨e, size, _⟩ | ⟨_, _, eq⟩ | ⟨_, drain, above, fin, eq⟩
  · rw [h] at size
    cases size
  · exact ⟨_, eq⟩
  · obtain ⟨-, hfin, hlen⟩ := checkSize_eq_none.mp h
    have hnote := wf.noteFin (fun f hf => (hfin f hf).2) hlen
    have hins := insertable_noteFin wf h drain above fin
    obtain ⟨r', hr', -⟩ := insertLoop_spec goodUntil now (Nat.lt_succ_self _) hnote hins
    exact ⟨r', eq.trans hr'⟩

/-- The program refuses what the checks refuse, and leaves the buffer as it was then. -/
theorem pushOn_apply {r : RecvBuf} (wf : r.WF) (goodUntil : ℤ) (buf : RangeBuf) (now : ℕ) :
    (∃ e, r.checkSize buf.maxOff buf.fin = some e ∧
      pushOn goodUntil buf now r = .error (.error e) r) ∨
      ∃ r', r.checkSize buf.maxOff buf.fin = none ∧ r.pushWith goodUntil buf now = .ok r' ∧
        pushOn goodUntil buf now r = .ok () r' := by
  cases hsize : r.checkSize buf.maxOff buf.fin with
  | some e =>
    refine .inl ⟨e, rfl, ?_⟩
    simp [pushOn, Program.bind_apply, hsize]
  | none =>
    obtain ⟨r', hr'⟩ := pushWith_accepts wf goodUntil now hsize
    refine .inr ⟨r', rfl, hr', ?_⟩
    rw [pushWith, hsize] at hr'
    rw [pushOn, Program.bind_apply, Program.get_apply]
    simp only [hsize] at hr' ⊢
    split_ifs at hr' ⊢
    · cases hr'
      rfl
    · cases hr'
      rfl
    · cases hr'
      rfl
    · cases hr'
      rfl
    · rw [Program.bind_apply, Program.set_apply]
      exact insertOn_apply hr'

/-- A reset that is refused leaves the buffer as it was. -/
theorem resetOn_apply (r : RecvBuf) (finalSize : ℕ) :
    resetOn finalSize r = .error (.error .finalSize) r ∨
      (∀ f, r.finOff = some f → f = finalSize) ∧ r.len ≤ finalSize ∧
        resetOn finalSize r = .ok (finalSize - r.len) { r with finOff := some finalSize } := by
  rw [resetOn, Program.bind_apply, Program.get_apply]
  dsimp only
  split_ifs with hknown hlen
  · exact .inl rfl
  · exact .inl rfl
  · refine .inr ⟨fun f hf => ?_, by omega, rfl⟩
    simpa [hf] using hknown

/-- A final size that contradicts nothing keeps the invariant. -/
theorem WF.setFinOff {r : RecvBuf} (wf : r.WF) {finalSize : ℕ}
    (hfin : ∀ f, r.finOff = some f → f = finalSize)
    (hlen : r.len ≤ finalSize) : WF { r with finOff := some finalSize } where
  apart := wf.apart
  off_le := wf.off_le
  le_len := wf.le_len
  off_le_len := wf.off_le_len
  len_le_fin f hf := by
    cases hf
    exact hlen
  empty_fin b hb h0 := by
    have hold := wf.empty_fin b hb h0
    rw [hfin _ hold]
  drained := wf.drained

theorem WF.shutdown {r r' : RecvBuf} (wf : r.WF) (h : r.shutdown = .ok r') : r'.WF := by
  rw [RecvBuf.shutdown] at h
  split_ifs at h
  cases h
  exact ⟨.nil, nofun, nofun, wf.off_le_len, wf.len_le_fin, nofun, fun _ => rfl⟩

private theorem popLoop_maxDataNext (fuel cap : ℕ) (out : List UInt8) (r : RecvBuf) :
    (popLoop fuel cap out r).2.maxDataNext = r.maxDataNext := by
  induction fuel generalizing cap out r with
  | zero => rfl
  | succ fuel ih =>
    rw [popLoop]
    split_ifs
    · split
      · rfl
      · exact ih _ _ _
    · rfl

/-- Reading raises the limit by what was read. -/
theorem pop_maxDataNext {r r' : RecvBuf} {cap : ℕ} {out : List UInt8} {fin : Bool}
    (h : r.pop cap = .ok (out, fin, r')) :
    r'.maxDataNext = saturatingAdd r.maxDataNext out.length := by
  rw [pop] at h
  split_ifs at h
  cases h
  dsimp only
  rw [popLoop_maxDataNext]

/-! ### The length after an insertion -/

/-- How far the remainder and the end that was cut off reach. -/
def far (buf : RangeBuf) (tmp : Option RangeBuf) : ℕ := (tmp.getD buf).maxOff

/-- A walk that drops an end loses the last byte. -/
theorem trim_far {buf buf' : RangeBuf} {tmp tmp' : Option RangeBuf} {bs : List RangeBuf}
    (h : trim buf tmp bs = some (buf', tmp')) (htmp : ∀ t ∈ tmp, buf.maxOff < t.maxOff) :
    far buf' tmp' ≤ far buf tmp ∧ (far buf' tmp' = far buf tmp → dropped buf tmp bs = []) := by
  induction bs generalizing buf tmp with
  | nil =>
    obtain ⟨rfl, rfl⟩ : buf = buf' ∧ tmp = tmp' := by simpa [trim] using h
    exact ⟨le_rfl, fun _ => rfl⟩
  | cons b bs ih =>
    rcases overlap b buf with hin | ⟨hin, hb, hn⟩ | ⟨hin, hb, hend, hn⟩ | ⟨hin, hb, hend, -⟩
    · rw [trim, if_pos hin] at h
      cases h
    · rw [trim, if_neg hin, if_pos hb] at h
      rw [dropped, if_neg hin, if_pos hb]
      have hmax : (buf.splitOff (b.maxOff - buf.off)).2.maxOff = buf.maxOff :=
        RangeBuf.splitOff_snd_maxOff hn.le
      have hfar : far (buf.splitOff (b.maxOff - buf.off)).2 tmp = far buf tmp := by
        cases tmp with
        | none => exact hmax
        | some t => rfl
      rw [← hfar]
      exact ih h (by rwa [hmax])
    · rw [trim, if_neg hin, if_neg hb, if_pos hend] at h
      rw [dropped, if_neg hin, if_neg hb, if_pos hend]
      have hfst : (buf.splitOff (b.off - buf.off)).1.maxOff < buf.maxOff := by
        rw [RangeBuf.splitOff_fst_maxOff hn.le]
        omega
      have hsnd : (buf.splitOff (b.off - buf.off)).2.maxOff = buf.maxOff :=
        RangeBuf.splitOff_snd_maxOff hn.le
      obtain ⟨hle, hdrop⟩ := ih h fun t ht => by
        obtain rfl := Option.mem_some.mp ht
        rwa [hsnd]
      have hfar : far (buf.splitOff (b.off - buf.off)).1 (some (buf.splitOff (b.off - buf.off)).2) =
          buf.maxOff := hsnd
      rw [hfar] at hle hdrop
      cases tmp with
      | none => exact ⟨hle, fun heq => hdrop heq⟩
      | some t =>
        -- the end that was there before is overwritten
        have hlt : buf.maxOff < far buf (some t) := htmp t rfl
        exact ⟨by omega, fun heq => absurd heq (by omega)⟩
    · rw [trim, if_neg hin, if_neg hb, if_neg hend] at h
      rw [dropped, if_neg hin, if_neg hb, if_neg hend]
      exact ih h htmp

/-- If the insertion of a chunk takes the length up to its end, it drops nothing. -/
theorem walksKeep_of_len {goodUntil : ℤ} {now fuel : ℕ} {r r' : RecvBuf} {buf : RangeBuf}
    (enough : buf.len < fuel) (wf : r.WF) (h : Insertable r buf)
    (heq : insertLoop goodUntil now fuel r buf = .ok r') (hlen : r.len < buf.maxOff)
    (hreach : buf.maxOff ≤ r'.len) : WalksKeep fuel r buf := by
  -- a walk that drops an end cannot reach as far as the chunk does
  induction fuel generalizing r buf with
  | zero => omega
  | succ fuel ih =>
    have hunread : (r.unread buf).maxOff = buf.maxOff := by
      unfold unread
      split_ifs with hlt
      · refine RangeBuf.splitOff_snd_maxOff ?_
        have := h.off_le
        unfold RangeBuf.maxOff at this
        omega
      · rfl
    rw [insertLoop, if_neg h.off_le.not_gt] at heq
    cases htrim : trim (r.unread buf) none r.data.toList with
    | none =>
      rw [htrim] at heq
      cases heq
      omega
    | some result =>
      obtain ⟨rest, tmp⟩ := result
      obtain ⟨htr, hwf, htail⟩ := h.walk wf htrim goodUntil now
      obtain ⟨hle, hdrop⟩ := trim_far htrim (by simp)
      rw [htrim] at heq
      have hstart : far (r.unread buf) none = buf.maxOff := hunread
      rw [hstart] at hle hdrop
      cases tmp with
      | none =>
        cases heq
        have hstored : (r.store goodUntil now rest).len = max r.len rest.maxOff := rfl
        have hfar : far rest none = rest.maxOff := rfl
        have hnil := hdrop (by omega)
        refine ⟨by simp [hnil], ?_⟩
        rintro p hp tail htail'
        rw [htrim] at hp
        cases hp
        cases htail'
      | some tail =>
        have htlen := htr.tail_len tail rfl
        have hfuel : tail.len < fuel := by omega
        obtain ⟨r₂, hr₂, hins⟩ := insertLoop_spec goodUntil now hfuel hwf (htail tail rfl)
        obtain rfl := Except.ok.inj (hr₂.symm.trans heq)
        have hstored : (r.store goodUntil now rest).len = max r.len rest.maxOff := rfl
        have hfar : far rest (some tail) = tail.maxOff := rfl
        have hpos := htr.tail_pos tail rfl
        have hoff := htr.tail_off tail rfl
        have hmax : tail.maxOff = tail.off + tail.len := rfl
        have hbound := hins.len_le
        have hnil := hdrop (by omega)
        refine ⟨by simp [hnil], ?_⟩
        rintro p hp t ht
        rw [htrim] at hp
        obtain rfl := Option.some.inj (Option.mem_def.mp hp).symm
        obtain rfl := Option.some.inj (Option.mem_def.mp ht).symm
        have hstore : WalksKeep fuel { r with data := r.data.push rest } t ↔
            WalksKeep fuel (r.store goodUntil now rest) t := walksKeep_congr rfl rfl
        exact hstore.mpr (ih (by omega) hwf (htail _ rfl) heq (by omega) (by omega))

/-- A push beyond the length takes it up to the end of its chunk exactly if it drops no end. -/
theorem len_iff_keepsTail {goodUntil : ℤ} {now : ℕ} {r r' : RecvBuf} {buf : RangeBuf} (wf : r.WF)
    (drain : r.drain = false) (hlen : r.len < buf.maxOff) (hbuf : buf.len ≠ 0)
    (h : r.pushWith goodUntil buf now = .ok r') : buf.maxOff ≤ r'.len ↔ r.KeepsTail buf := by
  constructor
  · intro hreach
    rcases r.pushCase goodUntil buf now with ⟨e, _, eq⟩ | ⟨size, why, eq⟩ | ⟨size, _, above,
      fin, eq⟩
    · rw [h] at eq
      cases eq
    · have hle := wf.off_le_len
      rw [drain] at why
      rcases why with hzero | hdup | ⟨⟨⟩⟩
      · exact absurd hzero hbuf
      · omega
    · rw [h] at eq
      obtain ⟨-, hfin, hsize⟩ := checkSize_eq_none.mp size
      have hnote : (r.noteFin buf).WF := wf.noteFin (fun f hf => (hfin f hf).2) hsize
      have hkeep := walksKeep_of_len (Nat.lt_succ_self _) hnote
        (insertable_noteFin wf size drain above fin) eq.symm (by rwa [noteFin_len]) hreach
      exact (walksKeep_congr (noteFin_off ..) (noteFin_data ..)).mp hkeep
  · intro hkeep
    have hheld := (keepsTail_iff wf drain h).mp hkeep (buf.maxOff - 1) (by
      unfold RangeBuf.Covers RangeBuf.maxOff
      omega)
    have hwf := (pushWith_ok wf h).wf
    rcases hheld with hread | ⟨b, hb, hcovers⟩
    · have := hwf.off_le_len
      omega
    · have := hwf.le_len b hb
      have := hcovers.2
      omega

end RecvBuf

/-! ### Runs of a receive buffer -/

/-- A receive buffer, with the end of the data it has accepted. -/
structure Accounted where
  buf : RecvBuf
  seen : ℕ

/-- What is asked of a receive buffer. -/
inductive RecvOp
  | push (buf : RangeBuf) (now : ℕ)
  | pushEvaluation (buf : RangeBuf) (now : ℕ)
  | reset (finalSize : ℕ)
  | pop (cap : ℕ)
  | shutdown
  | updateMaxData

namespace Accounted

/-- A new receive buffer. -/
def start (maxData : ℕ) : Accounted := ⟨.new maxData, 0⟩

/-- The state after a push, if it did not panic. -/
def took (t : Accounted) (buf : RangeBuf) : EStateM.Result Fault RecvBuf Unit → Option Accounted
  | .ok _ r => some ⟨r, if buf.isEmpty then t.seen else max t.seen buf.maxOff⟩
  | .error (.error _) r => some { t with buf := r }
  | .error _ _ => none

/-- The state after an operation, whether it succeeds or is refused. -/
def step (t : Accounted) : RecvOp → Option Accounted
  | .push buf now => t.took buf (RecvBuf.pushOn (asI64 t.buf.blockDeadline) buf now t.buf)
  | .pushEvaluation buf now => t.took buf (RecvBuf.pushOn 200 buf now t.buf)
  | .reset finalSize =>
    match RecvBuf.resetOn finalSize t.buf with
    | .ok _ r => some { t with buf := r }
    | .error (.error _) r => some { t with buf := r }
    | .error _ _ => none
  | .pop cap =>
    match t.buf.pop cap with
    | .ok (_, _, r) => some { t with buf := r }
    | .error _ => some t
  | .shutdown =>
    match t.buf.shutdown with
    | .ok r => some { t with buf := r }
    | .error _ => some t
  | .updateMaxData => some { t with buf := t.buf.updateMaxData.2 }

/-- The chunk reaches beyond a limit, or contradicts the final size or the data before it. -/
def Violates (t : Accounted) (buf : RangeBuf) : Prop :=
  t.buf.maxData < buf.maxOff ∨
    (∃ f, t.buf.finOff = some f ∧ (f < buf.maxOff ∨ buf.fin = true ∧ buf.maxOff ≠ f)) ∨
    buf.fin = true ∧ buf.maxOff < t.seen

/-- The limits hold and are enforced. -/
structure Sound (t : Accounted) : Prop where
  bounds : t.buf.off ≤ t.buf.len ∧ t.buf.len ≤ t.buf.maxData ∧ ∀ f, t.buf.finOff = some f →
    t.buf.len ≤ f
  /-- No operation panics, and none changes a known final size. -/
  final : ∀ op, ∃ t', step t op = some t' ∧ ∀ f, t.buf.finOff = some f → t'.buf.finOff = some f
  /-- A chunk that must not be accepted is refused. -/
  refuses : ∀ buf, t.Violates buf → ∀ goodUntil now, ∃ e r,
    RecvBuf.pushOn goodUntil buf now t.buf = .error (.error e) r
  /-- Refusing changes nothing. -/
  unchanged : ∀ e r, (∀ goodUntil buf now, RecvBuf.pushOn goodUntil buf now t.buf = .error e r →
    r = t.buf) ∧
    ∀ finalSize, RecvBuf.resetOn finalSize t.buf = .error e r → r = t.buf

/-- The push leaves the length up to date: while the final size is unknown, a chunk beyond the
length that the checks accept is not drained, and no end of it is dropped. -/
def RecordsPush (t : Accounted) (buf : RangeBuf) : Prop :=
  t.buf.checkSize buf.maxOff buf.fin = none → t.buf.finOff = none → buf.fin = false → buf.len ≠ 0 →
    t.buf.len < buf.maxOff → t.buf.drain = false ∧ t.buf.KeepsTail buf

/-- The operation leaves the length up to date. -/
def Records (t : Accounted) : RecvOp → Prop
  | .push buf _ => t.RecordsPush buf
  | .pushEvaluation buf _ => t.RecordsPush buf
  | _ => True

/-- What holds in every run. -/
structure Inv (t : Accounted) : Prop where
  wf : t.buf.WF
  len_le : t.buf.len ≤ t.buf.maxData
  seen_le : t.seen ≤ t.buf.maxData
  next_le : t.buf.maxData ≤ t.buf.maxDataNext
  next_max : t.buf.maxDataNext ≤ u64Max

/-- All data that was accepted counts for the length, or for the final size. -/
def UpToDate (t : Accounted) : Prop :=
  (t.buf.finOff = none → t.seen ≤ t.buf.len) ∧ ∀ f, t.buf.finOff = some f → t.seen ≤ f

theorem start_inv {maxData : ℕ} (h : maxData ≤ u64Max) : Inv (start maxData) where
  wf := RecvBuf.new_wf maxData
  len_le := Nat.zero_le _
  seen_le := Nat.zero_le _
  next_le := le_rfl
  next_max := h

private theorem start_upToDate (maxData : ℕ) : (start maxData).UpToDate := ⟨fun _ => le_rfl, nofun⟩

/-- A draining buffer keeps its length. -/
theorem len_of_drain {r r' : RecvBuf} {goodUntil : ℤ} {buf : RangeBuf} {now : ℕ}
    (hdrain : r.drain = true)
    (h : r.pushWith goodUntil buf now = .ok r') : r'.len = r.len := by
  rcases r.pushCase goodUntil buf now with ⟨e, _, eq⟩ | ⟨_, _, eq⟩ | ⟨_, drain, _, _, _⟩
  · rw [h] at eq
    cases eq
  · rw [h] at eq
    cases eq
    exact RecvBuf.noteFin_len r buf
  · rw [hdrain] at drain
    cases drain

/-- The end of a chunk without a final size is recorded exactly if the push is as it should be. -/
theorem recorded_iff {t : Accounted} (inv : t.Inv) {goodUntil : ℤ} {buf : RangeBuf} {now : ℕ}
    {r' : RecvBuf}
    (hsize : t.buf.checkSize buf.maxOff buf.fin = none)
    (h : t.buf.pushWith goodUntil buf now = .ok r')
    (hunknown : t.buf.finOff = none) (hfin : buf.fin = false) (hbuf : buf.len ≠ 0) :
    buf.maxOff ≤ r'.len ↔ t.RecordsPush buf := by
  have hmono := (RecvBuf.pushWith_ok inv.wf h).len_mono
  by_cases hbeyond : t.buf.len < buf.maxOff
  · have hcond : t.RecordsPush buf ↔ t.buf.drain = false ∧ t.buf.KeepsTail buf :=
      ⟨fun hrec => hrec hsize hunknown hfin hbuf hbeyond, fun hrec _ _ _ _ _ => hrec⟩
    rw [hcond]
    cases hdrain : t.buf.drain with
    | true =>
      have := len_of_drain hdrain h
      exact iff_of_false (by omega) (by simp)
    | false => simpa using RecvBuf.len_iff_keepsTail inv.wf hdrain hbeyond hbuf h
  · exact iff_of_true (by omega) fun _ _ _ _ hlt => absurd hlt hbeyond

/-- What a push does. -/
theorem took_spec {t : Accounted} (inv : t.Inv) (goodUntil : ℤ) (buf : RangeBuf) (now : ℕ) :
    ∃ t', t.took buf (RecvBuf.pushOn goodUntil buf now t.buf) = some t' ∧ t'.Inv ∧
      (∀ f, t.buf.finOff = some f → t'.buf.finOff = some f) ∧
      (t.UpToDate → (t'.UpToDate ↔ t.RecordsPush buf)) := by
  rcases RecvBuf.pushOn_apply inv.wf goodUntil buf now with ⟨e, hsize, hrun⟩ | ⟨r', hsize,
    hwith, hrun⟩
  · refine ⟨t, by rw [hrun]; rfl, inv, fun f hf => hf, fun hup => iff_of_true hup ?_⟩
    -- a chunk that is refused changes nothing
    intro hnone
    rw [hsize] at hnone
    cases hnone
  · have hpushed := RecvBuf.pushWith_ok inv.wf hwith
    obtain ⟨hmax, hfin, hlen⟩ := RecvBuf.checkSize_eq_none.mp hsize
    refine ⟨_, by rw [hrun]; rfl, ?_, ?_, ?_⟩
    · constructor
      · exact hpushed.wf
      · have := hpushed.len_le
        have := inv.len_le
        simp only [hpushed.maxData]
        omega
      · simp only [hpushed.maxData]
        have := inv.seen_le
        split_ifs <;> omega
      · simpa only [hpushed.maxData, hpushed.maxDataNext] using inv.next_le
      · simpa only [hpushed.maxDataNext] using inv.next_max
    · intro f hf
      simp only [hpushed.finOff]
      split_ifs with hflag
      · rw [(hfin f hf).2 hflag]
      · exact hf
    · rintro ⟨hnone, hsome⟩
      -- data that ends the stream, or comes after its end, is recorded in any case
      have hvacuous : t.buf.finOff ≠ none ∨ buf.fin = true ∨ buf.len = 0 → t.RecordsPush buf := by
        intro hor _ hunknown hflag hbuf
        simp_all
      cases hknown : t.buf.finOff with
      | some f =>
        have hle := hfin f hknown
        have hseen := hsome f hknown
        have hfinOff : r'.finOff = some f := by
          rw [hpushed.finOff, hknown]
          split_ifs with hflag
          · rw [hle.2 hflag]
          · rfl
        refine iff_of_true ⟨?_, ?_⟩ (hvacuous (.inl (by simp [hknown])))
        · simp [hfinOff]
        · simp only [hfinOff, Option.some.injEq]
          rintro _ rfl
          split_ifs <;> omega
      | none =>
        have hseen := hnone hknown
        have hmono := hpushed.len_mono
        cases hflag : buf.fin with
        | true =>
          -- the chunk ends the stream
          have hle := hlen hflag
          refine iff_of_true ⟨?_, ?_⟩ (hvacuous (.inr (.inl hflag)))
          · simp [hpushed.finOff, hflag]
          · simp only [hpushed.finOff, hflag, if_true, Option.some.injEq]
            rintro _ rfl
            split_ifs <;> omega
        | false =>
          -- the stream goes on, so the length counts
          have hfinOff : r'.finOff = none := by simp [hpushed.finOff, hflag, hknown]
          simp only [UpToDate, hfinOff, forall_const, reduceCtorEq, false_imp_iff, and_true]
          by_cases hempty : buf.isEmpty = true
          · rw [if_pos hempty]
            exact iff_of_true (by omega) (hvacuous (.inr (.inr (RangeBuf.isEmpty_iff.mp hempty))))
          · rw [if_neg hempty]
            have hbuf : buf.len ≠ 0 := fun h0 => hempty (RangeBuf.isEmpty_iff.mpr h0)
            rw [← recorded_iff inv hsize hwith hknown hflag hbuf]
            omega

/-- Every operation ends, and keeps what a known final size is. -/
theorem step_spec {t : Accounted} (inv : t.Inv) (op : RecvOp) : ∃ t', step t op = some t' ∧ t'.Inv ∧
    (∀ f, t.buf.finOff = some f → t'.buf.finOff = some f) ∧
    (t.UpToDate → (t'.UpToDate ↔ t.Records op)) := by
  have stays : ∃ t', some t = some t' ∧ t'.Inv ∧
    (∀ f, t.buf.finOff = some f → t'.buf.finOff = some f) ∧
      (t.UpToDate → (t'.UpToDate ↔ True)) :=
    ⟨t, rfl, inv, fun _ hf => hf, fun hup => iff_of_true hup trivial⟩
  -- one case per operation; those that fail change nothing
  cases op with
  | push buf now => exact took_spec inv _ buf now
  | pushEvaluation buf now => exact took_spec inv _ buf now
  | reset finalSize =>
    rw [step]
    rcases RecvBuf.resetOn_apply t.buf finalSize with hrun | ⟨hfin, hlen, hrun⟩
    · rw [hrun]
      exact stays
    · rw [hrun]
      refine ⟨_, rfl, ⟨inv.wf.setFinOff hfin hlen, inv.len_le, inv.seen_le, inv.next_le,
        inv.next_max⟩, ?_, ?_⟩
      · intro f hf
        rw [hfin f hf]
      · rintro ⟨hnone, hsome⟩
        refine iff_of_true ⟨nofun, ?_⟩ trivial
        rintro f ⟨⟩
        cases hknown : t.buf.finOff with
        | none => exact (hnone hknown).trans hlen
        | some f =>
          rw [← hfin f hknown]
          exact hsome f hknown
  | pop cap =>
    rw [step]
    cases hpop : t.buf.pop cap with
    | error e => exact stays
    | ok result =>
      obtain ⟨out, fin, r⟩ := result
      obtain ⟨hread, -⟩ := RecvBuf.pop_ok inv.wf hpop
      -- reading raises the next limit by the bytes that are read
      refine ⟨_, rfl, ⟨hread.wf, ?_, ?_, ?_, ?_⟩, ?_, ?_⟩
      · simpa only [hread.len, hread.maxData] using inv.len_le
      · simpa only [hread.maxData] using inv.seen_le
      · have := inv.next_le
        have := inv.next_max
        rw [hread.maxData, RecvBuf.pop_maxDataNext hpop, saturatingAdd]
        omega
      · rw [RecvBuf.pop_maxDataNext hpop]
        exact min_le_right _ _
      · exact fun f hf => hread.finOff.trans hf
      · rintro ⟨hnone, hsome⟩
        exact iff_of_true ⟨fun h => by simpa only [hread.len] using hnone (hread.finOff ▸ h),
          fun f h => hsome f (hread.finOff ▸ h)⟩ trivial
  | shutdown =>
    rw [step]
    cases hshut : t.buf.shutdown with
    | error e => exact stays
    | ok r =>
      have hwf := inv.wf.shutdown hshut
      rw [RecvBuf.shutdown] at hshut
      split_ifs at hshut
      cases hshut
      exact ⟨_, rfl, ⟨hwf, inv.len_le, inv.seen_le, inv.next_le, inv.next_max⟩, fun _ hf => hf,
        fun hup => iff_of_true hup trivial⟩
  | updateMaxData =>
    have hmono := inv.next_le
    refine ⟨_, rfl,
      ⟨⟨inv.wf.apart, inv.wf.off_le, inv.wf.le_len, inv.wf.off_le_len, inv.wf.len_le_fin,
      inv.wf.empty_fin, inv.wf.drained⟩, inv.len_le.trans hmono, inv.seen_le.trans hmono, le_rfl,
        inv.next_max⟩,
      fun _ hf => hf, fun hup => iff_of_true hup trivial⟩

/-- The limits are enforced exactly while all accepted data counts. -/
theorem sound_iff {t : Accounted} (inv : t.Inv) : t.Sound ↔ t.UpToDate := by
  constructor
  · intro h
    by_contra hnot
    -- a chunk that is empty but for its final size is refused for no other reason
    obtain ⟨size, hsize, hlt⟩ : ∃ size, t.buf.checkSize size true = none ∧ size < t.seen := by
      rw [UpToDate, not_and_or] at hnot
      rcases hnot with hnone | hsome
      · push Not at hnone
        refine ⟨t.buf.len, RecvBuf.checkSize_eq_none.mpr ⟨inv.len_le, ?_, fun _ => le_rfl⟩, hnone.2⟩
        rw [hnone.1]
        exact nofun
      · push Not at hsome
        obtain ⟨f, hf, hlt⟩ := hsome
        refine ⟨f, RecvBuf.checkSize_eq_none.mpr ⟨hlt.le.trans inv.seen_le, ?_, fun _ => ?_⟩, hlt⟩
        · intro f' hf'
          rw [hf] at hf'
          cases hf'
          exact ⟨le_rfl, fun _ => rfl⟩
        · exact inv.wf.len_le_fin f hf
    obtain ⟨e, r, herror⟩ := h.refuses ⟨[], size, true⟩ (.inr (.inr ⟨rfl, hlt⟩)) 200 0
    rcases RecvBuf.pushOn_apply inv.wf 200 ⟨[], size, true⟩ 0 with ⟨e', he', -⟩ | ⟨r', -, -, hrun⟩
    · have hempty : RangeBuf.maxOff ⟨[], size, true⟩ = size := rfl
      rw [hempty, hsize] at he'
      cases he'
    · rw [herror] at hrun
      cases hrun
  · -- what is seen is recorded, so every violation is noticed
    rintro ⟨hnone, hsome⟩
    refine ⟨⟨inv.wf.off_le_len, inv.len_le, inv.wf.len_le_fin⟩, fun op => ?_,
      fun buf hviolates goodUntil now => ?_,
      fun e r => ⟨fun goodUntil buf now herror => ?_, fun finalSize herror => ?_⟩⟩
    · obtain ⟨t', hstep, -, hfin, -⟩ := step_spec inv op
      exact ⟨t', hstep, hfin⟩
    · rcases RecvBuf.pushOn_apply inv.wf goodUntil buf now with ⟨e, -, hrun⟩ | ⟨r', hsize, -, -⟩
      · exact ⟨e, _, hrun⟩
      · obtain ⟨hmax, hfin, hlen⟩ := RecvBuf.checkSize_eq_none.mp hsize
        -- beyond the limit, beyond the end, another end, an end before what was seen
        rcases hviolates with hbeyond | ⟨f, hf, hbeyond | ⟨hflag, hmove⟩⟩ | ⟨hflag, hunder⟩
        · omega
        · have := (hfin f hf).1
          omega
        · exact absurd ((hfin f hf).2 hflag).symm hmove
        · have hle := hlen hflag
          cases hknown : t.buf.finOff with
          | none =>
            have := hnone hknown
            omega
          | some f =>
            have := hsome f hknown
            have := (hfin f hknown).2 hflag
            omega
    · rcases RecvBuf.pushOn_apply inv.wf goodUntil buf now with ⟨e', -, hrun⟩ | ⟨r', -, -, hrun⟩
      · rw [herror] at hrun
        cases hrun
        rfl
      · rw [herror] at hrun
        cases hrun
    · rcases RecvBuf.resetOn_apply t.buf finalSize with hrun | ⟨-, -, hrun⟩
      · rw [herror] at hrun
        cases hrun
        rfl
      · rw [herror] at hrun
        cases hrun

/-- The limits hold and are enforced in every state of a run exactly if all its operations leave the
length up to date. -/
theorem sound_iff_records {maxData : ℕ} (hmax : maxData ≤ u64Max) (ops : List RecvOp) :
    Always step Sound (start maxData) ops ↔
      AllSteps step (fun t op => (step t op).isSome → t.Records op) (start maxData) ops := by
  have hinv := start_inv hmax
  refine always_iff_allSteps (I :=
    Inv) (fun t op t' inv h => ?_) (fun t op t' inv hsound h => ?_) hinv
    ((sound_iff hinv).mpr (start_upToDate maxData))
  · obtain ⟨t₂, hstep, hinv', -⟩ := step_spec inv op
    cases h.symm.trans hstep
    exact hinv'
  · obtain ⟨t₂, hstep, hinv', -, hiff⟩ := step_spec inv op
    cases h.symm.trans hstep
    rw [sound_iff hinv']
    exact hiff ((sound_iff inv).mp hsound)

/-- A chunk is accepted, and the stream is reset behind it. -/
theorem sound_reset : Always step Sound (start 10) [.push ⟨[1, 2], 0, false⟩ 0, .reset 5] :=
  (sound_iff_records (by decide) _).mpr
    ⟨fun _ _ _ _ _ _ => ⟨rfl, by decide⟩, fun _ _ => ⟨fun _ => trivial, fun _ _ => trivial⟩⟩

/-- A draining buffer accepts ten bytes, and then a final size of five. -/
theorem not_sound : ¬ Always step Sound (start 10)
    [.shutdown, .push ⟨[0, 1, 2, 3, 4, 5, 6, 7, 8, 9], 0, false⟩ 0] := by
  intro h
  have hrun :
    (run step (start 10) [.shutdown, .push ⟨[0, 1, 2, 3, 4, 5, 6, 7, 8, 9], 0, false⟩ 0]).map
      (fun t => (t.seen, t.buf.len, t.buf.finOff)) = some (10, 0, none) := by decide
  obtain ⟨t, ht, heq⟩ := Option.map_eq_some_iff.mp hrun
  obtain ⟨hseen, hlen, hfin⟩ := Prod.mk.inj heq |>.imp_right Prod.mk.inj
  have hinv : t.Inv := run_invariant (fun t op t' inv hstep => by
    obtain ⟨t₂, hstep', hinv', -⟩ := step_spec inv op
    cases hstep.symm.trans hstep'
    exact hinv') (start_inv (by decide)) ht
  have hup := ((sound_iff hinv).mp (h.last ht)).1 hfin
  omega

end Accounted

end Dtp
