import Dtp.FinalSize

/-!
# The size received before the deadline

A push counts what it buffers as good if it comes early enough after the start of the block:
`push` compares with the deadline that was announced for the block, `pushEvaluation`, which streams
use, with a constant. Everything else they do alike.

## Main definitions

* `RecvBuf.storedParts` — the parts of a chunk that a push buffers
* `RecvBuf.SameVerdict` — both pushes count these parts alike
* `Arrivals` — a receive buffer with a log of the times at which it grew
* `Arrivals.Reports` — the good size is the one that the log tells

## Main results

* `Arrivals.agree_and_report` — exactly when both pushes agree, and when a run reports the size that
  was received in time
-/

namespace Dtp

open Lib

namespace RecvBuf

/-! ### What a push buffers -/

/-- The time from the start of the block up to `now`. -/
def elapsed (r : RecvBuf) (now : ℕ) : ℤ := asI64 now - asI64 r.startTime

/-- The parts of a chunk that the insertion loop buffers. -/
def newParts : ℕ → RecvBuf → RangeBuf → List RangeBuf
  | 0, _, _ => []
  | fuel + 1, r, buf =>
    match trim (r.unread buf) none r.data.toList with
    | none => []
    | some (rest, none) => [rest]
    | some (rest, some tail) => rest :: newParts fuel { r with data := r.data.push rest } tail

/-- The parts of a chunk that a push buffers: none of one that is refused, has nothing new or is
drained. -/
def storedParts (r : RecvBuf) (buf : RangeBuf) : List RangeBuf :=
  if (r.checkSize buf.maxOff buf.fin).isSome ∨ (r.finOff.isSome ∧ buf.isEmpty) ∨
    (¬ buf.fin ∧ buf.isEmpty) ∨
      (buf.maxOff ≤ r.off ∧ ¬ buf.isEmpty) ∨ r.drain then []
  else newParts (buf.len + 1) r buf

/-- The length of the received data with some more parts. -/
def lenWith (r : RecvBuf) (parts : List RangeBuf) :
    ℕ := parts.foldl (fun len part => max len part.maxOff) r.len

/-- The parts of the chunk come early, or late, for the constant and the announced deadline alike,
or it makes no difference because all that was received is good. -/
def SameVerdict (r : RecvBuf) (buf : RangeBuf) (now : ℕ) : Prop :=
  r.storedParts buf = [] ∨ (r.elapsed now ≤ 200 ↔ r.elapsed now ≤ asI64 r.blockDeadline) ∨
    r.lenWith (r.storedParts buf) = r.goodRecv

theorem newParts_congr {fuel : ℕ} {r r' : RecvBuf} (hoff : r'.off = r.off)
    (hdata : r'.data = r.data)
    (buf : RangeBuf) : newParts fuel r' buf = newParts fuel r buf := by
  induction fuel generalizing r r' buf with
  | zero => rfl
  | succ fuel ih =>
    have hunread : r'.unread buf = r.unread buf := by
      unfold unread
      rw [hoff]
    rw [newParts, newParts, hunread, hdata]
    split
    · rfl
    · rfl
    · rw [@ih { r with data := r.data.push _ } { r' with data := r.data.push _ } hoff rfl]

/-- The parts count for the length, and for the good size if they come early. -/
structure Counted (r : RecvBuf) (parts : List RangeBuf) (goodUntil : ℤ) (now : ℕ) (r' : RecvBuf) :
    Prop where
  len : r'.len = r.lenWith parts
  early : parts ≠ [] → r.elapsed now ≤ goodUntil → r'.goodRecv = r'.len
  late : parts = [] ∨ goodUntil < r.elapsed now → r'.goodRecv = r.goodRecv

private theorem insertLoop_counted {goodUntil : ℤ} {now fuel : ℕ} {r r' : RecvBuf} {buf : RangeBuf}
    (h : insertLoop goodUntil now fuel r buf = .ok r') :
    Counted r (newParts fuel r buf) goodUntil now r' := by
  induction fuel generalizing r buf with
  | zero => cases h
  | succ fuel ih =>
    rw [insertLoop] at h
    split_ifs at h
    rw [newParts]
    cases htrim : trim (r.unread buf) none r.data.toList with
    | none =>
      -- nothing of the chunk is new
      rw [htrim] at h
      cases h
      exact ⟨rfl, fun hne => absurd rfl hne, fun _ => rfl⟩
    | some result =>
      obtain ⟨rest, tmp⟩ := result
      have hstored : (r.store goodUntil now rest).goodRecv =
          if r.elapsed now ≤ goodUntil then (r.store goodUntil now rest).len else r.goodRecv := rfl
      rw [htrim] at h
      cases tmp with
      | none =>
        cases h
        refine ⟨rfl, fun _ hearly => ?_, fun hlate => ?_⟩
        · rw [hstored, if_pos hearly]
        · rw [hstored, if_neg (Int.not_le.mpr (hlate.resolve_left (by simp)))]
      | some tail =>
        -- the tail is inserted behind the part that was stored
        have hparts : newParts fuel { r with data := r.data.push rest } tail =
            newParts fuel (r.store goodUntil now rest) tail :=
          @newParts_congr fuel (r.store goodUntil now rest) { r with data := r.data.push rest }
            rfl rfl tail
        obtain ⟨hlen, hearly, hlate⟩ := ih h
        dsimp only
        rw [hparts]
        refine ⟨hlen, fun _ hin => ?_, fun hout => ?_⟩
        · by_cases hnil : newParts fuel (r.store goodUntil now rest) tail = []
          · rw [hlate (.inl hnil), hstored, if_pos hin, hlen, hnil]
            rfl
          · exact hearly hnil hin
        · have hgt := hout.resolve_left (by simp)
          rw [hlate (.inr hgt), hstored, if_neg (Int.not_le.mpr hgt)]

/-- What a push adds to the length and to the good size. -/
theorem pushWith_counted {goodUntil : ℤ} {now : ℕ} {r r' : RecvBuf} {buf : RangeBuf}
    (h : r.pushWith goodUntil buf now = .ok r') :
    Counted r (r.storedParts buf) goodUntil now r' := by
  -- every early return stores nothing
  have nothing (hnil : r.storedParts buf = []) (hok : r' = r ∨ r' = r.noteFin buf) :
      Counted r (r.storedParts buf) goodUntil now r' := by
    rw [hnil]
    rcases hok with rfl | rfl
    · exact ⟨rfl, fun hne => absurd rfl hne, fun _ => rfl⟩
    · refine ⟨noteFin_len r buf, fun hne => absurd rfl hne, fun _ => ?_⟩
      unfold noteFin
      split <;> rfl
  rw [pushWith] at h
  split at h
  case h_1 => cases h
  case h_2 hsize =>
    dsimp only at h
    split_ifs at h with hknown hempty hdup hdrain
    · exact nothing (if_pos (.inr (.inl hknown))) (.inl (Except.ok.inj h).symm)
    · exact nothing (if_pos (.inr (.inr (.inl hempty)))) (.inr (Except.ok.inj h).symm)
    · rw [noteFin_off] at hdup
      exact nothing (if_pos (.inr (.inr (.inr (.inl hdup))))) (.inr (Except.ok.inj h).symm)
    · rw [noteFin_drain] at hdrain
      exact nothing (if_pos (.inr (.inr (.inr (.inr hdrain))))) (.inr (Except.ok.inj h).symm)
    · rw [noteFin_off] at hdup
      rw [noteFin_drain] at hdrain
      -- the loop is reached
      have hparts : r.storedParts buf = newParts (buf.len + 1) (r.noteFin buf) buf := by
        have hnone : ¬ (r.checkSize buf.maxOff buf.fin).isSome := by simp [hsize]
        have hreached :=
          not_or.mpr ⟨hnone, not_or.mpr ⟨hknown, not_or.mpr ⟨hempty, not_or.mpr ⟨hdup, hdrain⟩⟩⟩⟩
        rw [storedParts, if_neg hreached]
        exact (newParts_congr (noteFin_off r buf) (noteFin_data r buf) buf).symm
      obtain ⟨hlen, hearly, hlate⟩ := insertLoop_counted h
      have hstart : (r.noteFin buf).elapsed now = r.elapsed now := by
        unfold noteFin
        split <;> rfl
      have hgood : (r.noteFin buf).goodRecv = r.goodRecv := by
        unfold noteFin
        split <;> rfl
      rw [hparts]
      rw [hstart] at hearly hlate
      rw [hgood] at hlate
      refine ⟨?_, hearly, hlate⟩
      rw [hlen, lenWith, lenWith, noteFin_len]

/-- No push changes what was announced for the block. -/
theorem insertLoop_announced {goodUntil : ℤ} {now fuel : ℕ} {r r' : RecvBuf} {buf : RangeBuf}
    (h : insertLoop goodUntil now fuel r buf = .ok r') :
    r'.startTime = r.startTime ∧ r'.blockDeadline = r.blockDeadline := by
  induction fuel generalizing r buf with
  | zero => cases h
  | succ fuel ih =>
    rw [insertLoop] at h
    split_ifs at h
    split at h
    · cases h
      exact ⟨rfl, rfl⟩
    · cases h
      exact ⟨rfl, rfl⟩
    · obtain ⟨hstart, hdeadline⟩ := ih h
      exact ⟨hstart, hdeadline⟩

private theorem pushWith_announced {goodUntil : ℤ} {now : ℕ} {r r' : RecvBuf} {buf : RangeBuf}
    (h : r.pushWith goodUntil buf now = .ok r') :
    r'.startTime = r.startTime ∧ r'.blockDeadline = r.blockDeadline := by
  have hnote : (r.noteFin buf).startTime = r.startTime ∧
      (r.noteFin buf).blockDeadline = r.blockDeadline := by
    unfold noteFin
    split <;> exact ⟨rfl, rfl⟩
  rcases r.pushCase goodUntil buf now with ⟨e, _, eq⟩ | ⟨_, _, eq⟩ | ⟨_, _, _, _, eq⟩
  · rw [h] at eq
    cases eq
  · rw [h] at eq
    cases eq
    exact hnote
  · obtain ⟨hstart, hdeadline⟩ := insertLoop_announced (eq.symm.trans h)
    exact ⟨hstart.trans hnote.1, hdeadline.trans hnote.2⟩

/-- Reading changes neither what was announced nor what was in time. -/
theorem popLoop_announced (fuel cap : ℕ) (out : List UInt8) (r : RecvBuf) :
    (popLoop fuel cap out r).2.startTime = r.startTime ∧
      (popLoop fuel cap out r).2.blockDeadline = r.blockDeadline ∧
      (popLoop fuel cap out r).2.goodRecv = r.goodRecv := by
  induction fuel generalizing cap out r with
  | zero => exact ⟨rfl, rfl, rfl⟩
  | succ fuel ih =>
    rw [popLoop]
    split_ifs
    · split
      · exact ⟨rfl, rfl, rfl⟩
      · exact ih _ _ _
    · exact ⟨rfl, rfl, rfl⟩

/-! ### Two pushes -/

/-- The buffers differ in the good size at most. -/
def SameButGood (r s : RecvBuf) : Prop := s = { r with goodRecv := s.goodRecv }

/-- Both operations fail alike, or lead to buffers that differ in the good size at most. -/
def Agree : Except Fault RecvBuf → Except Fault RecvBuf → Prop
  | .ok r, .ok s => SameButGood r s
  | .error e, .error e' => e = e'
  | _, _ => False

private theorem insertLoop_agree (goodUntil goodUntil' : ℤ) (now fuel : ℕ) {r s : RecvBuf}
    (h : SameButGood r s)
    (buf : RangeBuf) : Agree (insertLoop goodUntil now fuel r buf)
    (insertLoop goodUntil' now fuel s buf) := by
  induction fuel generalizing r s buf with
  | zero => rfl
  | succ fuel ih =>
    rw [SameButGood] at h
    generalize s.goodRecv = good at h
    subst h
    have hunread : unread { r with goodRecv := good } buf = r.unread buf := rfl
    rw [insertLoop, insertLoop, hunread]
    dsimp only
    split_ifs
    · rfl
    · cases trim (r.unread buf) none r.data.toList with
      | none => rfl
      | some result =>
        obtain ⟨rest, tmp⟩ := result
        cases tmp with
        | none => rfl
        | some tail =>
          have hsame : SameButGood (r.store goodUntil now rest)
              (store { r with goodRecv := good } goodUntil' now rest) := rfl
          exact ih hsame tail

theorem pushWith_agree (r : RecvBuf) (goodUntil goodUntil' : ℤ) (buf : RangeBuf) (now : ℕ) :
    Agree (r.pushWith goodUntil buf now) (r.pushWith goodUntil' buf now) := by
  unfold pushWith
  split
  · rfl
  · dsimp only
    split_ifs
    · rfl
    · rfl
    · rfl
    · rfl
    · have hsame : SameButGood (r.noteFin buf) (r.noteFin buf) := rfl
      exact insertLoop_agree _ _ _ _ hsame buf

/-- Both pushes lead to the same buffer exactly if they count its new parts alike. -/
theorem push_eq_iff {r : RecvBuf} (wf : r.WF) (buf : RangeBuf) (now : ℕ) :
    r.push buf now = r.pushEvaluation buf now ↔ r.SameVerdict buf now := by
  have hagree := r.pushWith_agree (asI64 r.blockDeadline) 200 buf now
  unfold push pushEvaluation
  cases hsize : r.checkSize buf.maxOff buf.fin with
  | some e =>
    have hnone : r.storedParts buf = [] := if_pos (.inl (by simp [hsize]))
    refine iff_of_true ?_ (.inl hnone)
    rw [pushWith, pushWith, hsize]
  | none =>
    obtain ⟨s, hs⟩ := pushWith_accepts wf (asI64 r.blockDeadline) now hsize
    obtain ⟨s', hs'⟩ := pushWith_accepts wf 200 now hsize
    have hsame : s' = { s with goodRecv := s'.goodRecv } := by
      rw [hs, hs'] at hagree
      exact hagree
    have heq : s = s' ↔ s.goodRecv = s'.goodRecv := by
      refine ⟨fun h => by rw [h], fun h => ?_⟩
      rw [hsame, ← h]
    obtain ⟨hlen, hearly, hlate⟩ := pushWith_counted hs
    obtain ⟨hlen', hearly', hlate'⟩ := pushWith_counted hs'
    rw [hs, hs', Except.ok.injEq, heq, SameVerdict]
    by_cases hnil : r.storedParts buf = []
    · exact iff_of_true ((hlate (.inl hnil)).trans (hlate' (.inl hnil)).symm) (.inl hnil)
    · rw [or_iff_right hnil, ← hlen]
      have hlens : s.len = s'.len := hlen.trans hlen'.symm
      by_cases hin : r.elapsed now ≤ asI64 r.blockDeadline <;> by_cases hin' : r.elapsed now ≤ 200
      · rw [hearly hnil hin, hearly' hnil hin', hlens]
        simp [hin, hin']
      · rw [hearly hnil hin, hlate' (.inr (Int.not_le.mp hin'))]
        simp [hin, hin']
      · rw [hlate (.inr (Int.not_le.mp hin)), hearly' hnil hin', ← hlens]
        simp [hin, hin', eq_comm]
      · rw [hlate (.inr (Int.not_le.mp hin)), hlate' (.inr (Int.not_le.mp hin'))]
        simp [hin, hin']

end RecvBuf

/-! ### Arrival histories -/

/-- A receive buffer, with a log of the times at which it buffered data and its length then. -/
structure Arrivals where
  buf : RecvBuf
  log : List (ℕ × ℕ)

/-- What happens to the receive buffer of a stream. -/
inductive ArrivalOp
  | stream (buf : RangeBuf) (now : ℕ)
  | blockInfo (blockSize blockPriority blockDeadline startTime : ℕ)
  | resetStream (finalSize : ℕ)
  | read (cap : ℕ)
  | shutdown
  | updateMaxData

namespace Arrivals

/-- A new receive buffer. -/
def start (maxData : ℕ) : Arrivals := ⟨.new maxData, []⟩

/-- The buffer after an operation that may be refused. -/
def put (t : Arrivals) : Except Error RecvBuf → Arrivals
  | .ok r => { t with buf := r }
  | .error _ => t

/-- The state after an operation, whether it succeeds or is refused. -/
def step (t : Arrivals) : ArrivalOp → Option Arrivals
  | .stream buf now =>
    match t.buf.pushEvaluation buf now with
    | .ok r => some ⟨r, if t.buf.storedParts buf = [] then t.log else (now, r.len) :: t.log⟩
    | .error (.error _) => some t
    | .error _ => none
  | .blockInfo blockSize blockPriority blockDeadline startTime =>
    some { t with buf := t.buf.setBlockInfo blockSize blockPriority blockDeadline startTime }
  | .resetStream finalSize => some (t.put ((t.buf.reset finalSize).map Prod.snd))
  | .read cap => some (t.put ((t.buf.pop cap).map fun result => result.2.2))
  | .shutdown => some (t.put t.buf.shutdown)
  | .updateMaxData => some { t with buf := t.buf.updateMaxData.2 }

/-- The highest offset in the log that was received in time. -/
def highest (startTime blockDeadline : ℕ) (log : List (ℕ × ℕ)) : ℕ :=
  (log.filter fun entry => decide (asI64 entry.1 - asI64 startTime ≤ asI64 blockDeadline)).foldr
    (fun entry highest => max entry.2 highest) 0

/-- The good size is the highest offset that was received in time for the announced deadline. -/
def Reports (t : Arrivals) : Prop :=
  t.buf.goodRecv = highest t.buf.startTime t.buf.blockDeadline t.log

/-- The operation keeps the report: data is counted as for the announced deadline, and an
announcement does not change which data was received in time. -/
def KeepsReport (t : Arrivals) : ArrivalOp → Prop
  | .stream buf now => t.buf.SameVerdict buf now
  | .blockInfo _ _ blockDeadline startTime =>
    highest startTime blockDeadline t.log = highest t.buf.startTime t.buf.blockDeadline t.log
  | _ => True

/-- What holds in every run. -/
structure Inv (t : Arrivals) : Prop where
  wf : t.buf.WF
  log_le : ∀ entry ∈ t.log, entry.2 ≤ t.buf.len

theorem start_inv (maxData : ℕ) : Inv (start maxData) := ⟨RecvBuf.new_wf maxData, nofun⟩

@[simp] theorem highest_nil (startTime blockDeadline : ℕ) :
    highest startTime blockDeadline [] = 0 := rfl

private theorem highest_le {startTime blockDeadline bound : ℕ} {log : List (ℕ × ℕ)}
    (h : ∀ entry ∈ log, entry.2 ≤ bound) : highest startTime blockDeadline log ≤ bound := by
  unfold highest
  induction log with
  | nil => exact Nat.zero_le _
  | cons entry log ih =>
    obtain ⟨hentry, hlog⟩ := List.forall_mem_cons.mp h
    rw [List.filter_cons]
    split_ifs
    · exact max_le hentry (ih hlog)
    · exact ih hlog

/-- The last entry is the highest. -/
theorem highest_cons {startTime blockDeadline now len : ℕ} {log : List (ℕ × ℕ)}
    (h : ∀ entry ∈ log, entry.2 ≤ len) : highest startTime blockDeadline ((now, len) :: log) =
      if asI64 now - asI64 startTime ≤ asI64 blockDeadline then len else highest startTime
          blockDeadline log := by
  have hle : highest startTime blockDeadline log ≤ len := highest_le h
  rw [highest, List.filter_cons]
  by_cases hin : asI64 now - asI64 startTime ≤ asI64 blockDeadline
  · rw [if_pos (by simpa using hin), if_pos hin]
    exact max_eq_left hle
  · rw [if_neg (by simpa using hin), if_neg hin]
    rfl

/-- An operation that touches neither the good size nor the announcement keeps the report. -/
theorem Reports.of_eq {t t' : Arrivals} (hgood : t'.buf.goodRecv = t.buf.goodRecv)
    (hstart : t'.buf.startTime = t.buf.startTime)
    (hdeadline : t'.buf.blockDeadline = t.buf.blockDeadline)
    (hlog : t'.log = t.log) (h : t.Reports) : t'.Reports := by
  rw [Reports, hgood, hstart, hdeadline, hlog]
  exact h

/-- What a chunk does to the report. -/
theorem stream_spec {t : Arrivals} (inv : t.Inv) (buf : RangeBuf) (now : ℕ) :
    ∃ t', step t (.stream buf now) = some t' ∧ t'.Inv ∧
      (t.Reports → (t'.Reports ↔ t.buf.SameVerdict buf now)) := by
  rw [step, RecvBuf.pushEvaluation]
  cases hsize : t.buf.checkSize buf.maxOff buf.fin with
  | some e =>
    have hnone : t.buf.storedParts buf = [] := if_pos (.inl (by simp [hsize]))
    rw [RecvBuf.pushWith, hsize]
    exact ⟨t, rfl, inv, fun h => iff_of_true h (.inl hnone)⟩
  | none =>
    obtain ⟨r, hr⟩ := RecvBuf.pushWith_accepts inv.wf 200 now hsize
    have hpushed := RecvBuf.pushWith_ok inv.wf hr
    obtain ⟨hlen, hearly, hlate⟩ := RecvBuf.pushWith_counted hr
    have hlog : ∀ entry ∈ t.log, entry.2 ≤ r.len := fun entry hentry =>
      (inv.log_le entry hentry).trans hpushed.len_mono
    obtain ⟨hstart, hdeadline⟩ := RecvBuf.pushWith_announced hr
    rw [hr]
    refine ⟨_, rfl, ⟨hpushed.wf, ?_⟩, fun h => ?_⟩
    · dsimp only
      split_ifs
      · exact hlog
      · exact List.forall_mem_cons.mpr ⟨le_rfl, hlog⟩
    · by_cases hnil : t.buf.storedParts buf = []
      · rw [if_pos hnil]
        exact iff_of_true (h.of_eq (hlate (.inl hnil)) hstart hdeadline rfl) (.inl hnil)
      · rw [if_neg hnil, Reports, hstart, hdeadline, highest_cons hlog, RecvBuf.SameVerdict,
          or_iff_right hnil,
          ← hlen]
        change r.goodRecv = (if t.buf.elapsed now ≤ asI64 t.buf.blockDeadline then r.len else _) ↔ _
        rw [← (h : t.buf.goodRecv = _)]
        -- the code compares with 200, the report with the deadline
        by_cases hin : t.buf.elapsed now ≤ asI64 t.buf.blockDeadline <;>
          by_cases hin' : t.buf.elapsed now ≤ 200
        · rw [hearly hnil hin']
          simp [hin, hin']
        · rw [hlate (.inr (Int.not_le.mp hin'))]
          simp [hin, hin', eq_comm]
        · rw [hearly hnil hin']
          simp [hin, hin']
        · rw [hlate (.inr (Int.not_le.mp hin'))]
          simp [hin, hin']

/-- What an operation that may be refused does to the report, if it leaves it alone. -/
theorem put_spec {t : Arrivals} (inv : t.Inv) {result : Except Error RecvBuf}
    (h : ∀ r, result = .ok r → r.WF ∧ r.len = t.buf.len ∧ r.goodRecv = t.buf.goodRecv ∧
      r.startTime = t.buf.startTime ∧ r.blockDeadline = t.buf.blockDeadline) :
    ∃ t', some (t.put result) = some t' ∧ t'.Inv ∧ (t.Reports → (t'.Reports ↔ True)) := by
  cases result with
  | error e => exact ⟨t, rfl, inv, fun h => iff_of_true h trivial⟩
  | ok r =>
    obtain ⟨hwf, hlen, hgood, hstart, hdeadline⟩ := h r rfl
    refine ⟨_, rfl, ⟨hwf, fun entry hentry => hlen ▸ inv.log_le entry hentry⟩, fun h => ?_⟩
    exact iff_of_true (h.of_eq hgood hstart hdeadline rfl) trivial

/-- Every operation ends, and keeps the report exactly if it counts as announced. -/
theorem step_spec {t : Arrivals} (inv : t.Inv) (op : ArrivalOp) :
    ∃ t', step t op = some t' ∧ t'.Inv ∧
    (t.Reports → (t'.Reports ↔ t.KeepsReport op)) := by
  cases op with
  | stream buf now => exact stream_spec inv buf now
  | blockInfo blockSize blockPriority blockDeadline startTime =>
    refine ⟨_, rfl,
      ⟨⟨inv.wf.apart, inv.wf.off_le, inv.wf.le_len, inv.wf.off_le_len, inv.wf.len_le_fin,
      inv.wf.empty_fin, inv.wf.drained⟩, inv.log_le⟩, fun h => ?_⟩
    change t.buf.goodRecv = _ ↔ _
    rw [(h : t.buf.goodRecv = _), KeepsReport, eq_comm]
    rfl
  | resetStream finalSize =>
    refine put_spec inv fun r hr => ?_
    cases hreset : t.buf.reset finalSize with
    | error e =>
      rw [hreset] at hr
      cases hr
    | ok result =>
      rw [hreset] at hr
      obtain rfl : result.2 = r := Except.ok.inj hr
      rw [RecvBuf.reset] at hreset
      split_ifs at hreset with hknown hlen
      cases hreset
      refine ⟨inv.wf.setFinOff (fun f hf => ?_) (Nat.not_lt.mp hlen), rfl, rfl, rfl, rfl⟩
      simpa [hf] using hknown
  | read cap =>
    refine put_spec inv fun r hr => ?_
    cases hpop : t.buf.pop cap with
    | error e =>
      rw [hpop] at hr
      cases hr
    | ok result =>
      obtain ⟨out, fin, r'⟩ := result
      obtain ⟨hread, -⟩ := RecvBuf.pop_ok inv.wf hpop
      rw [hpop] at hr
      obtain rfl : r' = r := Except.ok.inj hr
      rw [RecvBuf.pop] at hpop
      split_ifs at hpop
      cases hpop
      obtain ⟨hstart, hdeadline, hgood⟩ :=
        RecvBuf.popLoop_announced (t.buf.data.toList.length + 1) cap [] t.buf
      exact ⟨hread.wf, hread.len, hgood, hstart, hdeadline⟩
  | shutdown =>
    refine put_spec inv fun r hr => ?_
    have hwf := inv.wf.shutdown hr
    rw [RecvBuf.shutdown] at hr
    split_ifs at hr
    cases hr
    exact ⟨hwf, rfl, rfl, rfl, rfl⟩
  | updateMaxData =>
    exact ⟨_, rfl,
      ⟨⟨inv.wf.apart, inv.wf.off_le, inv.wf.le_len, inv.wf.off_le_len, inv.wf.len_le_fin,
      inv.wf.empty_fin, inv.wf.drained⟩, inv.log_le⟩, fun h => iff_of_true h trivial⟩

/-- The two ways to receive a chunk agree but for the good size, and agree on that exactly if they
count the new parts alike; a run reports the size that was received in time exactly if its
operations count as announced. -/
theorem agree_and_report {r : RecvBuf} (wf : r.WF) (buf : RangeBuf) (now maxData : ℕ)
    (ops : List ArrivalOp) :
    (RecvBuf.Agree (r.push buf now) (r.pushEvaluation buf now) ∧
      (r.push buf now = r.pushEvaluation buf now ↔ r.SameVerdict buf now)) ∧
    (Always step Reports (start maxData) ops ↔
      AllSteps step (fun t op => (step t op).isSome → t.KeepsReport op) (start maxData) ops) := by
  refine ⟨⟨r.pushWith_agree _ _ buf now, RecvBuf.push_eq_iff wf buf now⟩, ?_⟩
  refine always_iff_allSteps (I := Inv) (fun t op t' inv h => ?_) (fun t op t' inv hreports h => ?_)
    (start_inv maxData) rfl
  · obtain ⟨t₂, hstep, hinv', -⟩ := step_spec inv op
    cases h.symm.trans hstep
    exact hinv'
  · obtain ⟨t₂, hstep, -, hiff⟩ := step_spec inv op
    cases h.symm.trans hstep
    exact hiff hreports

/-- A block that starts at 1000 and has 300 ms, of which two bytes arrive after 250 ms. -/
def late : List ArrivalOp := [.blockInfo 2 0 300 1000, .stream ⟨[1, 2], 0, true⟩ 1250]

/-- Two bytes arrive after 100 ms. -/
theorem agree_and_report_early :
    Always step Reports (start 10) [.blockInfo 2 0 300 1000, .stream ⟨[1, 2], 0, true⟩ 1100] := by
  have hnone : highest 1000 300 [] = highest 0 0 [] := (highest_nil 1000 300).trans
    (highest_nil 0 0).symm
  refine (agree_and_report (start_inv 10).wf ⟨[1, 2], 0, true⟩ 1100 10 _).2.mpr ⟨fun _ =>
    hnone, fun t ht => ?_⟩
  obtain rfl := Option.some.inj ht
  have hin : ((RecvBuf.new 10).setBlockInfo 2 0 300 1000).elapsed 1100 ≤ 200 ↔
      ((RecvBuf.new 10).setBlockInfo 2 0 300 1000).elapsed 1100 ≤ asI64 300 := by
    decide +kernel
  exact ⟨fun _ => .inr (.inl hin), fun _ _ => trivial⟩

/-- The bytes that arrive between 200 and 300 ms are in time, but not counted. -/
theorem not_reports : ¬ Always step Reports (start 10) late ∧
    (RecvBuf.push ((RecvBuf.new 10).setBlockInfo 2 0 300 1000) ⟨[1, 2], 0, true⟩ 1250).map
    (·.goodRecv) = .ok 2 ∧
    (RecvBuf.pushEvaluation ((RecvBuf.new 10).setBlockInfo 2 0 300 1000) ⟨[1, 2], 0, true⟩ 1250).map
    (·.goodRecv) =
      .ok 0 := by
  refine ⟨fun h => ?_, by decide +kernel, by decide +kernel⟩
  have hrun : (run step (start 10) late).map
    (fun t => (t.buf.goodRecv, t.buf.startTime, t.buf.blockDeadline, t.log)) =
      some (0, 1000, 300, [(1250, 2)]) := by decide +kernel
  obtain ⟨t, ht, heq⟩ := Option.map_eq_some_iff.mp hrun
  have hreports : t.buf.goodRecv = highest t.buf.startTime t.buf.blockDeadline t.log := h.last ht
  simp only [Prod.mk.injEq] at heq
  obtain ⟨hgood, hstart, hdeadline, hlog⟩ := heq
  rw [hgood, hstart, hdeadline, hlog] at hreports
  exact absurd hreports (by decide +kernel)

end Arrivals

end Dtp
