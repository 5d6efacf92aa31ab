import Dtp.Lib.Runs
import Dtp.RecvBuf

/-!
# Runs of a receive buffer

Runs of one receive buffer: chunks of a byte string arrive in any order and with
any overlaps, and the application reads in between. What is read is always a
prefix of the byte string. What was accepted can be lost, however: a walk keeps
the end it cut off a chunk in one slot, overwrites it with the next cut, and
abandons it when the remainder turns out to be contained in a buffered chunk.

## Main definitions

* `Reassembly` — a receive buffer with what went into it and what came out
* `Intact` — nothing accepted is lost or corrupted
* `KeepsTail` — inserting a chunk drops no end that is not held already

## Main results

* `intact_iff_keepsTail` — a run stays intact exactly when no push drops an end
* `not_intact` — three pushes after which three bytes are lost
-/

namespace Dtp

open Lib

/-! ### The ends a walk drops -/

namespace RecvBuf

/-- The cut off ends that a walk drops: those overwritten by a later cut, and the
last one when the remainder is contained in a buffered chunk. -/
def dropped (buf : RangeBuf) (tmp : Option RangeBuf) : List RangeBuf → List RangeBuf
  | [] => []
  | b :: bs =>
    if b.off ≤ buf.off ∧ buf.maxOff ≤ b.maxOff then tmp.toList
    else if b.off ≤ buf.off ∧ buf.off < b.maxOff then
      dropped (buf.splitOff (b.maxOff - buf.off)).2 tmp bs
    else if buf.off < b.off ∧ b.off < buf.maxOff then
      tmp.toList ++
        dropped (buf.splitOff (b.off - buf.off)).1 (some (buf.splitOff (b.off - buf.off)).2) bs
    else dropped buf tmp bs

/-- All bytes of `t` have been read or are buffered. -/
def HoldsAll (r : RecvBuf) (t : RangeBuf) : Prop := ∀ x < t.maxOff, t.off ≤ x → r.Held x

instance (r : RecvBuf) (t : RangeBuf) : Decidable (r.HoldsAll t) :=
  inferInstanceAs (Decidable (∀ x < t.maxOff, t.off ≤ x → r.Held x))

/-- Every walk of the insertion loop drops only ends whose bytes are all held. -/
def WalksKeep : ℕ → RecvBuf → RangeBuf → Prop
  | 0, _, _ => True
  | fuel + 1, r, buf =>
    (∀ t ∈ dropped (r.unread buf) none r.data.toList, r.HoldsAll t) ∧
      ∀ p ∈ trim (r.unread buf) none r.data.toList, ∀ tail ∈ p.2,
        WalksKeep fuel { r with data := r.data.push p.1 } tail

/-- Inserting `buf` drops no end of it that is not held already. -/
def KeepsTail (r : RecvBuf) (buf : RangeBuf) : Prop := WalksKeep (buf.len + 1) r buf

instance decidableWalksKeep : ∀ fuel r buf, Decidable (WalksKeep fuel r buf)
  | 0, _, _ => .isTrue trivial
  | fuel + 1, r, buf =>
    have : ∀ r buf, Decidable (WalksKeep fuel r buf) := decidableWalksKeep fuel
    inferInstanceAs (Decidable ((∀ t ∈ dropped (r.unread buf) none r.data.toList, r.HoldsAll t) ∧
      ∀ p ∈ trim (r.unread buf) none r.data.toList, ∀ tail ∈ p.2,
        WalksKeep fuel { r with data := r.data.push p.1 } tail))

instance (r : RecvBuf) (buf : RangeBuf) : Decidable (r.KeepsTail buf) :=
  decidableWalksKeep (buf.len + 1) r buf

theorem holdsAll_iff {r : RecvBuf} {t : RangeBuf} :
    r.HoldsAll t ↔ ∀ x, t.Covers x → r.Held x :=
  ⟨fun h x hx => h x hx.2 hx.1, fun h x hlt hle => h x ⟨hle, hlt⟩⟩

/-- A byte that the outcome of a walk still has: in the remainder or in the end
that was cut off last. -/
def Left (outcome : Option (RangeBuf × Option RangeBuf)) (x : ℕ) : Prop :=
  ∃ rest tmp, outcome = some (rest, tmp) ∧ (rest.Covers x ∨ ∃ t ∈ tmp, t.Covers x)

/-- A walk invents no bytes. -/
theorem Left.of_trim {orig buf : RangeBuf} {tmp : Option RangeBuf} {bs : List RangeBuf}
    (h : Trimmed orig buf tmp) {x : ℕ} (hx : Left (trim buf tmp bs) x) :
    buf.Covers x ∨ ∃ t ∈ tmp, t.Covers x := by
  induction bs generalizing buf tmp with
  | nil =>
    obtain ⟨rest, tmp', heq, hx⟩ := hx
    obtain ⟨rfl, rfl⟩ : buf = rest ∧ tmp = tmp' := by simpa [trim] using heq
    exact hx
  | cons b bs ih =>
    rcases overlap b buf with hin | ⟨hin, hb, hn⟩ | ⟨hin, hb, hend, hn⟩ | ⟨hin, hb, hend, _⟩
    · obtain ⟨rest, tmp', heq, -⟩ := hx
      rw [trim, if_pos hin] at heq
      cases heq
    · rw [trim, if_neg hin, if_pos hb] at hx
      exact (ih (h.cutStart hn) hx).imp_left (RangeBuf.splitOff_snd_piece buf hn.le).covers
    · rw [trim, if_neg hin, if_neg hb, if_pos hend] at hx
      rcases ih (h.cutEnd (by omega) hn) hx with hx | ⟨t, ht, hx⟩
      · exact .inl ((RangeBuf.splitOff_fst_piece buf hn.le).covers hx)
      · obtain rfl := Option.mem_some.mp ht
        exact .inl ((RangeBuf.splitOff_snd_piece buf hn.le).covers hx)
    · rw [trim, if_neg hin, if_neg hb, if_neg hend] at hx
      exact ih h hx

/-- A walk drops only held ends exactly when every byte it is given is held or left
in its outcome. -/
theorem dropped_held_iff (H : ℕ → Prop) {orig buf : RangeBuf} {tmp : Option RangeBuf}
    (bs : List RangeBuf) (h : Trimmed orig buf tmp) (hbs : ∀ b ∈ bs, ∀ x, b.Covers x → H x) :
    (∀ t ∈ dropped buf tmp bs, ∀ x, t.Covers x → H x) ↔
      ∀ x, (buf.Covers x ∨ ∃ t ∈ tmp, t.Covers x) → H x ∨ Left (trim buf tmp bs) x := by
  induction bs generalizing buf tmp with
  | nil =>
    refine ⟨fun _ x hx => .inr ⟨buf, tmp, rfl, hx⟩, fun _ t ht => ?_⟩
    cases ht
  | cons b bs ih =>
    obtain ⟨hb, hbs⟩ := List.forall_mem_cons.mp hbs
    rcases overlap b buf with hin | ⟨hin, hlap, hn⟩ | ⟨hin, hlap, hend, hn⟩ | ⟨hin, hlap, hend, _⟩
    · -- the remainder is contained: nothing is left
      rw [dropped, trim, if_pos hin, if_pos hin]
      constructor
      · rintro hall x (hx | ⟨t, ht, hx⟩)
        · exact .inl (hb x ⟨hin.1.trans hx.1, hx.2.trans_le hin.2⟩)
        · exact .inl (hall t (Option.mem_toList.mpr ht) x hx)
      · intro hall t ht x hx
        rcases hall x (.inr ⟨t, Option.mem_toList.mp ht, hx⟩) with hx | ⟨_, _, heq, _⟩
        · exact hx
        · cases heq
    · -- the start is cut off: it is covered by `b`
      rw [dropped, trim, if_neg hin, if_neg hin, if_pos hlap, if_pos hlap, ih (h.cutStart hn) hbs]
      have hcov := fun x => RangeBuf.splitOff_snd_covers (b := buf) (x := x) hn.le
      constructor
      · rintro hall x (hx | hx)
        · by_cases hxb : x < b.maxOff
          · exact .inl (hb x ⟨hlap.1.trans hx.1, hxb⟩)
          · exact hall x (.inl ((hcov x).mpr ⟨hx, by omega⟩))
        · exact hall x (.inr hx)
      · rintro hall x (hx | hx)
        · exact hall x (.inl ((hcov x).mp hx).1)
        · exact hall x (.inr hx)
    · -- the end is cut off: it replaces the end kept so far
      have hcut := h.cutEnd (by omega) hn
      have hfst := fun x => RangeBuf.splitOff_fst_covers (b := buf) (x := x) hn.le
      have hsnd := fun x => RangeBuf.splitOff_snd_covers (b := buf) (x := x) hn.le
      rw [dropped, trim, if_neg hin, if_neg hin, if_neg hlap, if_neg hlap, if_pos hend, if_pos hend,
        List.forall_mem_append, ih hcut hbs]
      constructor
      · rintro ⟨htmp, hall⟩ x (hx | ⟨t, ht, hx⟩)
        · by_cases hxb : x < b.off
          · exact hall x (.inl ((hfst x).mpr ⟨hx, by omega⟩))
          · exact hall x (.inr ⟨_, rfl, (hsnd x).mpr ⟨hx, by omega⟩⟩)
        · exact .inl (htmp t (Option.mem_toList.mpr ht) x hx)
      · intro hall
        refine ⟨fun t ht x hx => ?_, fun x hx => ?_⟩
        · -- the end that was kept lies behind everything a later walk can leave
          rw [Option.mem_toList] at ht
          rcases hall x (.inr ⟨t, ht, hx⟩) with hx' | hleft
          · exact hx'
          · have hbuf : buf.Covers x := by
              rcases hleft.of_trim hcut with hx' | ⟨t', ht', hx'⟩
              · exact ((hfst x).mp hx').1
              · obtain rfl := Option.mem_some.mp ht'
                exact ((hsnd x).mp hx').1
            have := h.tail_off t ht
            have := hbuf.2
            have := hx.1
            omega
        · rcases hx with hx | ⟨t, ht, hx⟩
          · exact hall x (.inl ((hfst x).mp hx).1)
          · obtain rfl := Option.mem_some.mp ht
            exact hall x (.inl ((hsnd x).mp hx).1)
    · rw [dropped, trim, if_neg hin, if_neg hin, if_neg hlap, if_neg hlap, if_neg hend, if_neg hend]
      exact ih h hbs

theorem walksKeep_congr {fuel : ℕ} {r r' : RecvBuf} {buf : RangeBuf} (hoff : r'.off = r.off)
    (hdata : r'.data = r.data) : WalksKeep fuel r' buf ↔ WalksKeep fuel r buf := by
  induction fuel generalizing r r' buf with
  | zero => rfl
  | succ fuel ih =>
    have hunread : r'.unread buf = r.unread buf := by rw [unread, unread, hoff]
    simp only [WalksKeep, hunread, hdata, holdsAll_iff, held_congr hoff hdata]
    refine and_congr_right fun _ => forall₄_congr fun p _ tail _ => ?_
    exact ih hoff rfl

@[simp] theorem not_left_none {x : ℕ} : ¬ Left none x := by
  rintro ⟨_, _, heq, _⟩
  cases heq

@[simp] theorem left_some {rest : RangeBuf} {tmp : Option RangeBuf} {x : ℕ} :
    Left (some (rest, tmp)) x ↔ rest.Covers x ∨ ∃ t ∈ tmp, t.Covers x := by
  simp [Left]

/-- The bytes of a chunk are those below the read offset and those a walk is given. -/
theorem Insertable.forall_covers {r : RecvBuf} {buf : RangeBuf} (h : Insertable r buf)
    {Q : ℕ → Prop} (hread : ∀ x < r.off, Q x) :
    (∀ x, buf.Covers x → Q x) ↔ ∀ x, (r.unread buf).Covers x → Q x := by
  constructor
  · exact fun hall x hx => hall x ((unread_covers h.off_le).mp hx).1
  · intro hall x hx
    by_cases hlt : x < r.off
    · exact hread x hlt
    · exact hall x ((unread_covers h.off_le).mpr ⟨hx, not_lt.mp hlt⟩)

/-- The walks of the insertion loop drop only held ends exactly when every byte of
the chunk is held afterwards. -/
theorem walksKeep_iff {goodUntil : ℤ} {now fuel : ℕ} {r r' : RecvBuf} {buf : RangeBuf}
    (enough : buf.len < fuel) (wf : r.WF) (h : Insertable r buf)
    (heq : insertLoop goodUntil now fuel r buf = .ok r') :
    WalksKeep fuel r buf ↔ ∀ x, buf.Covers x → r'.Held x := by
  -- one walk over the chunks, then the walk of the end that it cut off
  induction fuel generalizing r buf with
  | zero => omega
  | succ fuel ih =>
    obtain ⟨r₂, hr₂, hins⟩ := insertLoop_spec goodUntil now enough wf h
    obtain rfl := Except.ok.inj (hr₂.symm.trans heq)
    have hdrop := dropped_held_iff r.Held r.data.toList h.trimmed
      fun b hb x hx => .inr ⟨b, hb, hx⟩
    rw [h.forall_covers fun x hx => .inl (hins.off.symm ▸ hx)]
    rw [insertLoop, if_neg h.off_le.not_gt] at heq
    simp only [WalksKeep, holdsAll_iff, hdrop]
    cases htrim : trim (r.unread buf) none r.data.toList with
    | none =>
      rw [htrim] at heq
      obtain rfl := Except.ok.inj heq
      simp
    | some result =>
      obtain ⟨rest, tmp⟩ := result
      obtain ⟨htr, hwf, htail⟩ := h.walk wf htrim goodUntil now
      have hrest : ∀ x, (r.store goodUntil now rest).Held x ↔ r.Held x ∨ rest.Covers x :=
        fun x => held_store
      cases tmp with
      | none =>
        rw [htrim] at heq
        obtain rfl := Except.ok.inj heq
        simp [hrest]
      | some tail =>
        rw [htrim] at heq
        have hlen : tail.len < fuel := by
          have := htr.tail_len tail rfl
          omega
        have hkeep := ih hlen hwf (htail tail rfl) heq
        have hins₂ : Inserted (r.store goodUntil now rest) tail r₂ := by
          obtain ⟨r₃, hr₃, hins₃⟩ :=
            insertLoop_spec goodUntil now hlen hwf (htail tail rfl)
          rwa [Except.ok.inj (heq.symm.trans hr₃)]
        have hstore : WalksKeep fuel { r with data := r.data.push rest } tail ↔
            WalksKeep fuel (r.store goodUntil now rest) tail := walksKeep_congr rfl rfl
        simp only [left_some, Option.mem_def, Option.some.injEq, forall_eq', hstore, hkeep]
        constructor
        · rintro ⟨hall, htl⟩ x hx
          rcases hall x (.inl hx) with hx' | hx' | ⟨t, rfl, hx'⟩
          · exact hins₂.held_mono x ((hrest x).mpr (.inl hx'))
          · exact hins₂.held_mono x ((hrest x).mpr (.inr hx'))
          · exact htl x hx'
        · -- the end that was cut off is covered by the whole
          intro hall
          have hpiece := (trim_spec h.trimmed htrim).1.tail_piece tail rfl
          refine ⟨?_, fun x hx => ?_⟩
          · rintro x (hx | ⟨t, ht, -⟩)
            · rcases hins₂.held_of x (hall x hx) with hx' | hx'
              · exact ((hrest x).mp hx').imp_right .inl
              · exact .inr (.inr ⟨tail, rfl, hx'⟩)
            · cases ht
          · have hread : ∀ x < r.off, r₂.Held x := fun x hx => .inl (hins.off.symm ▸ hx)
            exact (h.forall_covers hread).mpr hall x (hpiece.covers hx)

/-- A walk cuts no end off a chunk inside which no buffered chunk starts. -/
theorem not_dropped_of_none_inside {buf : RangeBuf} {bs : List RangeBuf}
    (h : ∀ b ∈ bs, ¬ (buf.off < b.off ∧ b.off < buf.maxOff)) :
    dropped buf none bs = [] ∧ ∀ p ∈ trim buf none bs, p.2 = none := by
  induction bs generalizing buf with
  | nil => simp [dropped, trim]
  | cons b bs ih =>
    obtain ⟨hb', hbs⟩ := List.forall_mem_cons.mp h
    rcases overlap b buf with hin | ⟨hin, hb, hn⟩ | ⟨_, _, hend, _⟩ | ⟨hin, hb, hend, _⟩
    · simp [dropped, trim, hin]
    · rw [dropped, trim, if_neg hin, if_neg hin, if_pos hb, if_pos hb]
      refine ih fun c hc => ?_
      have := hbs c hc
      rw [RangeBuf.splitOff_snd_maxOff hn.le, RangeBuf.splitOff_snd_off]
      omega
    · exact absurd hend hb'
    · rw [dropped, trim, if_neg hin, if_neg hin, if_neg hb, if_neg hb, if_neg hend, if_neg hend]
      exact ih hbs

/-- A chunk is kept whole when no buffered chunk starts inside what is unread of it. -/
theorem keepsTail_of_none_inside {r : RecvBuf} {buf : RangeBuf}
    (h : ∀ b ∈ r.data.toList,
      ¬ ((r.unread buf).off < b.off ∧ b.off < (r.unread buf).maxOff)) :
    r.KeepsTail buf := by
  obtain ⟨hdrop, htrim⟩ := not_dropped_of_none_inside h
  refine ⟨by simp [hdrop], fun p hp tail htail => ?_⟩
  rw [htrim p hp] at htail
  cases htail

/-- A chunk without a byte above the read offset loses nothing. -/
theorem keepsTail_of_le {r : RecvBuf} {buf : RangeBuf} (h : buf.len = 0 ∨ buf.maxOff ≤ r.off) :
    r.KeepsTail buf := by
  refine keepsTail_of_none_inside fun b _ => ?_
  unfold unread
  split_ifs
  · simp only [RangeBuf.maxOff, RangeBuf.splitOff_snd_off, RangeBuf.splitOff_snd_len] at *
    omega
  · unfold RangeBuf.maxOff at *
    omega

/-- A push keeps every byte of its chunk exactly when it drops no end. -/
theorem keepsTail_iff {r r' : RecvBuf} (wf : r.WF) (drain : r.drain = false) {goodUntil : ℤ}
    {buf : RangeBuf} {now : ℕ} (h : r.pushWith goodUntil buf now = .ok r') :
    r.KeepsTail buf ↔ ∀ x, buf.Covers x → r'.Held x := by
  rcases r.pushCase goodUntil buf now with ⟨e, _, eq⟩ | ⟨size, why, eq⟩ | ⟨size, _, above, fin, eq⟩
  · rw [h] at eq
    cases eq
  · rw [h] at eq
    obtain rfl := Except.ok.inj eq
    have hle : buf.len = 0 ∨ buf.maxOff ≤ r.off := by simpa [drain] using why
    refine iff_of_true (keepsTail_of_le hle) fun x hx => .inl ?_
    have hpos := hx.not_isEmpty
    have := hx.2
    rw [noteFin_off]
    omega
  · rw [h] at eq
    have hwf := (pushWith_ok wf h).wf
    obtain ⟨-, hfin, hlen⟩ := checkSize_eq_none.mp size
    have hnote : (r.noteFin buf).WF := wf.noteFin (fun f hf => (hfin f hf).2) hlen
    rw [← walksKeep_iff (Nat.lt_succ_self _) hnote (insertable_noteFin wf size drain above fin)
      eq.symm]
    exact walksKeep_congr (noteFin_off ..).symm (noteFin_data ..).symm

end RecvBuf

/-! ### Runs of a receive buffer -/

/-- A receive buffer, the chunks it has accepted and the bytes it has handed out. -/
structure Reassembly where
  buf : RecvBuf
  accepted : List RangeBuf
  popped : List UInt8

/-- What may happen to a receive buffer. -/
inductive ReassemblyOp
  | push (chunk : RangeBuf) (now : ℕ)
  | pushEvaluation (chunk : RangeBuf) (now : ℕ)
  | pop (cap : ℕ)

namespace Reassembly

/-- A new receive buffer. -/
def start (maxData : ℕ) : Reassembly := ⟨.new maxData, [], []⟩

/-- The state after a push of `chunk` that accepts it. -/
def accept (t : Reassembly) (chunk : RangeBuf) (result : Except Fault RecvBuf) :
    Option Reassembly :=
  match result with
  | .ok buf => some { t with buf := buf, accepted := chunk :: t.accepted }
  | .error _ => none

/-- One successful operation. Only chunks of the byte string `s` are pushed. -/
def step (s : List UInt8) (t : Reassembly) : ReassemblyOp → Option Reassembly
  | .push chunk now =>
    if chunk.AgreesWith s then t.accept chunk (t.buf.push chunk now) else none
  | .pushEvaluation chunk now =>
    if chunk.AgreesWith s then t.accept chunk (t.buf.pushEvaluation chunk now) else none
  | .pop cap =>
    match t.buf.pop cap with
    | .ok (out, _, buf) => some { t with buf := buf, popped := t.popped ++ out }
    | .error _ => none

/-- Nothing that arrived is lost or corrupted: what was read is a prefix of the byte
string, every accepted byte has been read or is buffered at its own offset, and when
nothing is ready, everything accepted without a gap has been read. -/
structure Intact (s : List UInt8) (t : Reassembly) : Prop where
  popped : t.popped <+: s
  kept : ∀ c ∈ t.accepted, ∀ x, c.Covers x →
    x < t.popped.length ∨
      ∃ b ∈ t.buf.data.toList, b.Covers x ∧ b.data[x - b.off]? = s[x]?
  delivered : ∀ n, (∀ x < n, ∃ c ∈ t.accepted, c.Covers x) → t.buf.ready = false →
    s.take n <+: t.popped

/-- The operation drops no end of the chunk it pushes. -/
def KeepsTail (t : Reassembly) : ReassemblyOp → Prop
  | .push chunk _ => t.buf.KeepsTail chunk
  | .pushEvaluation chunk _ => t.buf.KeepsTail chunk
  | .pop _ => True

/-- What holds in every run, whether or not it loses data. -/
structure Inv (s : List UInt8) (t : Reassembly) : Prop where
  wf : t.buf.WF
  drain : t.buf.drain = false
  agrees : t.buf.Agrees s
  popped : t.popped = s.take t.buf.off
  length : t.popped.length = t.buf.off

/-- Every accepted byte is held. -/
def AllHeld (t : Reassembly) : Prop := ∀ c ∈ t.accepted, ∀ x, c.Covers x → t.buf.Held x

theorem start_inv (s : List UInt8) (maxData : ℕ) : Inv s (start maxData) := by
  refine ⟨RecvBuf.new_wf maxData, rfl, fun b hb => ?_, rfl, rfl⟩
  cases hb

/-- Reading only depends on what is held. -/
theorem Inv.intact_iff {s : List UInt8} {t : Reassembly} (inv : Inv s t) :
    Intact s t ↔ AllHeld t := by
  constructor
  · intro h c hc x hx
    rcases h.kept c hc x hx with hlt | ⟨b, hb, hbx, _⟩
    · exact .inl (inv.length ▸ hlt)
    · exact .inr ⟨b, hb, hbx⟩
  · intro h
    refine ⟨?_, fun c hc x hx => ?_, fun n hcov hready => ?_⟩
    · rw [inv.popped]
      exact List.take_prefix _ _
    · rcases h c hc x hx with hlt | ⟨b, hb, hbx⟩
      · exact .inl (inv.length.symm ▸ hlt)
      · exact .inr ⟨b, hb, hbx, (inv.agrees b hb x hbx).symm⟩
    · have hle : n ≤ t.buf.off := by
        by_contra hlt
        obtain ⟨c, hc, hx⟩ := hcov t.buf.off (not_le.mp hlt)
        exact inv.wf.not_held_off hready (h c hc _ hx)
      rw [inv.popped]
      exact List.take_prefix_take_left hle

/-- What a successful push of a chunk of the byte string does to a run. -/
theorem Inv.accept {s : List UInt8} {t t' : Reassembly} (inv : Inv s t) {goodUntil : ℤ}
    {chunk : RangeBuf} {now : ℕ} (hs : chunk.AgreesWith s)
    (h : t.accept chunk (t.buf.pushWith goodUntil chunk now) = some t') :
    Inv s t' ∧ (AllHeld t → (AllHeld t' ↔ t.buf.KeepsTail chunk)) := by
  unfold Reassembly.accept at h
  cases hpush : t.buf.pushWith goodUntil chunk now with
  | error e =>
    rw [hpush] at h
    cases h
  | ok buf =>
    rw [hpush] at h
    obtain rfl := Option.some.inj h
    have hp := RecvBuf.pushWith_ok inv.wf hpush
    refine ⟨⟨hp.wf, hp.drain.trans inv.drain, hp.agrees s inv.agrees hs, ?_, ?_⟩, fun hall => ?_⟩
    · rw [hp.off]
      exact inv.popped
    · rw [hp.off]
      exact inv.length
    · rw [RecvBuf.keepsTail_iff inv.wf inv.drain hpush]
      constructor
      · exact fun h' => h' chunk (List.mem_cons_self ..)
      · intro hchunk c hc x hx
        rcases List.mem_cons.mp hc with rfl | hc
        · exact hchunk x hx
        · exact hp.held_mono x (hall c hc x hx)

/-- What one operation does to a run: the invariant stays, and nothing is lost
exactly when no end is dropped. -/
theorem step_spec {s : List UInt8} {t t' : Reassembly} (inv : Inv s t) {op : ReassemblyOp}
    (h : step s t op = some t') :
    Inv s t' ∧ (AllHeld t → (AllHeld t' ↔ t.KeepsTail op)) := by
  cases op with
  | push chunk now =>
    rw [step] at h
    split_ifs at h with hs
    exact inv.accept hs h
  | pushEvaluation chunk now =>
    rw [step] at h
    split_ifs at h with hs
    exact inv.accept hs h
  | pop cap =>
    rw [step] at h
    cases hpop : t.buf.pop cap with
    | error e =>
      rw [hpop] at h
      cases h
    | ok result =>
      obtain ⟨out, fin, buf⟩ := result
      rw [hpop] at h
      obtain rfl := Option.some.inj h
      obtain ⟨hr, -⟩ := RecvBuf.pop_ok inv.wf hpop
      have hout := hr.out_eq s inv.agrees
      refine ⟨⟨hr.wf, hr.drain.trans inv.drain, hr.agrees s inv.agrees, ?_, ?_⟩, fun hall => ?_⟩
      · simp only
        rw [hr.off, List.take_add, ← hout, inv.popped]
      · simp only
        rw [hr.off, List.length_append, inv.length]
      · refine iff_of_true (fun c hc x hx => ?_) trivial
        exact (hr.held x).mpr (hall c hc x hx)

/-- A run stays intact exactly when no successful push drops an end that is not held
already. -/
theorem intact_iff_keepsTail (s : List UInt8) (maxData : ℕ) (ops : List ReassemblyOp) :
    Always (step s) (Intact s) (start maxData) ops ↔
      AllSteps (step s) (fun t op => (step s t op).isSome → t.KeepsTail op)
        (start maxData) ops := by
  have hinv := start_inv s maxData
  refine always_iff_allSteps (I := Inv s) (fun t op t' inv h => (step_spec inv h).1)
    (fun t op t' inv hall h => ?_) hinv (hinv.intact_iff.mpr fun c hc => ?_)
  · obtain ⟨inv', hiff⟩ := step_spec inv h
    rw [inv'.intact_iff]
    exact hiff (inv.intact_iff.mp hall)
  · cases hc

/-- Three chunks of ten bytes, of which the last one holds them all. -/
def lossy : List ReassemblyOp :=
  [.push ⟨[2, 3, 4], 2, false⟩ 0, .push ⟨[5, 6], 5, false⟩ 0,
    .push ⟨[0, 1, 2, 3, 4, 5, 6, 7, 8, 9], 0, false⟩ 0]

/-- After the chunks `[2, 5)`, `[5, 7)` and `[0, 10)` the bytes from 7 on are lost. -/
theorem not_intact :
    ¬ Always (step [0, 1, 2, 3, 4, 5, 6, 7, 8, 9]) (Intact [0, 1, 2, 3, 4, 5, 6, 7, 8, 9])
      (start 10) lossy := by
  intro h
  have hrun : (run (step [0, 1, 2, 3, 4, 5, 6, 7, 8, 9]) (start 10) lossy).map
      (fun t => (t.accepted.head?, t.popped, t.buf.data.toList)) =
        some (some ⟨[0, 1, 2, 3, 4, 5, 6, 7, 8, 9], 0, false⟩, [],
          [⟨[0, 1], 0, false⟩, ⟨[5, 6], 5, false⟩, ⟨[2, 3, 4], 2, false⟩]) := by decide
  obtain ⟨t, ht, heq⟩ := Option.map_eq_some_iff.mp hrun
  obtain ⟨hacc, hpopped, hdata⟩ := Prod.mk.inj heq |>.imp_right Prod.mk.inj
  rcases (h.last ht).kept _ (List.mem_of_head? hacc) 7 (by decide) with hlt | ⟨b, hb, hb7, _⟩
  · rw [hpopped] at hlt
    exact absurd hlt (by decide)
  · rw [hdata] at hb
    revert b
    decide

end Reassembly

end Dtp
