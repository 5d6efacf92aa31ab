import Dtp.Refusals
import Dtp.Scripts

/-!
# What a connection hears from its peer

The receive buffers hold bytes of the script of the peer, at their offsets, and what the
application has read from a stream is the start of it. This is so as long as the frames that
arrive are true, in whatever order they arrive and however often.

## Main definitions

* `RecvBuf.Hears`, `StreamMap.Hears` — what is buffered and what was read belongs to a script

## Main results

* `Action.Effect.rehears` — actions other than reads keep it, if received frames are true
* `Connection.streamRecv_hears` — a read continues what was read, and reports the end only when
  the whole script is read
-/

namespace Dtp

open Lib (BinaryHeap Program)

namespace RecvBuf

/-! ### Buffers -/

/-- The buffer has handed out the bytes `out`, and holds further ones of the script `v`; what it
takes for the final size is its length. -/
structure Hears (r : RecvBuf) (v : List UInt8) (closed : Prop) (out : List UInt8) : Prop where
  wf : r.WF
  agrees : r.Agrees v
  len_le : r.len ≤ v.length
  off : out.length = r.off
  told : out <+: v
  fin : ∀ f, r.finOff = some f → closed ∧ f = v.length

section Hears

variable {r r' : RecvBuf} {v v' out bytes : List UInt8} {closed closed' : Prop}

private theorem new_hears (maxData : ℕ) (v : List UInt8) (closed : Prop) :
    (new maxData).Hears v closed [] where
  wf := new_wf maxData
  agrees _ hb := by cases hb
  len_le := Nat.zero_le _
  off := rfl
  told := List.nil_prefix
  fin _ hf := by cases hf

/-- The peer writes more, unless the script is complete. -/
theorem Hears.grow (h : r.Hears v closed out) (hv : v <+: v')
    (hclosed : closed → closed' ∧ v' = v) : r.Hears v' closed' out where
  wf := h.wf
  agrees b hb := by
    obtain ⟨more, rfl⟩ := hv
    exact (h.agrees b hb).append ((h.wf.le_len b hb).trans h.len_le) more
  len_le := h.len_le.trans hv.length_le
  off := h.off
  told := h.told.trans hv
  fin f hf := by
    obtain ⟨hc, hlen⟩ := h.fin f hf
    obtain ⟨hc', hsame⟩ := hclosed hc
    exact ⟨hc', hsame ▸ hlen⟩

/-- The announcement of a block brings no data. -/
theorem Hears.setBlockInfo (h : r.Hears v closed out) (size priority deadline startTime : ℕ) :
    (r.setBlockInfo size priority deadline startTime).Hears v closed out where
  wf := ⟨h.wf.apart, h.wf.off_le, h.wf.le_len, h.wf.off_le_len, h.wf.len_le_fin, h.wf.empty_fin,
    h.wf.drained⟩
  agrees := h.agrees
  len_le := h.len_le
  off := h.off
  told := h.told
  fin := h.fin

/-- Credit brings no data. -/
theorem Hears.updateMaxData (h : r.Hears v closed out) :
    r.updateMaxData.2.Hears v closed out where
  wf := ⟨h.wf.apart, h.wf.off_le, h.wf.le_len, h.wf.off_le_len, h.wf.len_le_fin, h.wf.empty_fin,
    h.wf.drained⟩
  agrees := h.agrees
  len_le := h.len_le
  off := h.off
  told := h.told
  fin := h.fin

/-- After the buffer is shut down, nothing is heard. -/
theorem Hears.shutdown (h : r.Hears v closed out) (hshut : r.shutdown = .ok r') :
    r'.Hears v closed out := by
  have wf := h.wf.shutdown hshut
  unfold RecvBuf.shutdown at hshut
  split_ifs at hshut
  cases hshut
  have hempty : RecvBuf.Agrees { r with drain := true, data := .empty } v := fun _ hb => by cases hb
  exact ⟨wf, hempty, h.len_le, h.off, h.told, h.fin⟩

/-- A reset at the length of the complete script. -/
theorem Hears.reset (h : r.Hears v closed out) (hc : closed) {finalSize credit : ℕ}
    (hsize : finalSize = v.length) (hreset : r.reset finalSize = .ok (credit, r')) :
    r'.Hears v closed out := by
  unfold RecvBuf.reset at hreset
  split_ifs at hreset with hknown hlen
  cases hreset
  have hfin (f : ℕ) (hf : r.finOff = some f) : f = finalSize := by simpa [hf] using hknown
  refine ⟨h.wf.setFinOff hfin (not_lt.mp hlen), h.agrees, h.len_le, h.off, h.told, ?_⟩
  rintro f ⟨⟩
  exact ⟨hc, hsize⟩

/-- A chunk of the script arrives. -/
theorem Hears.push (h : r.Hears v closed out) {goodUntil : ℤ} {data : RangeBuf} {now : ℕ}
    (hagrees : data.AgreesWith v) (hle : data.maxOff ≤ v.length)
    (hfin : data.fin = true → closed ∧ data.maxOff = v.length)
    (hpush : r.pushWith goodUntil data now = .ok r') : r'.Hears v closed out := by
  have hpushed := pushWith_ok h.wf hpush
  refine ⟨hpushed.wf, hpushed.agrees v h.agrees hagrees, ?_, h.off.trans hpushed.off.symm,
    h.told, fun f hf => ?_⟩
  · exact hpushed.len_le.trans (max_le h.len_le hle)
  · rw [hpushed.finOff] at hf
    split_ifs at hf with hflag
    · cases hf
      exact hfin hflag
    · exact h.fin f hf

/-- A read hands out the bytes of the script that follow, and reports the end of the stream
when they are its last ones. -/
theorem Hears.pop (h : r.Hears v closed out) {cap : ℕ} {fin : Bool}
    (hpop : r.pop cap = .ok (bytes, fin, r')) :
    r'.Hears v closed (out ++ bytes) ∧ (fin = true → closed ∧ out ++ bytes = v) := by
  obtain ⟨hread, hfin⟩ := pop_ok h.wf hpop
  have htake : out = v.take r.off := by
    rw [← h.off]
    exact List.prefix_iff_eq_take.mp h.told
  have hbytes := hread.out_eq v h.agrees
  have hall : out ++ bytes = v.take (r.off + bytes.length) := by
    rw [List.take_add, ← htake, ← hbytes]
  have hlen : (out ++ bytes).length = r'.off := by
    rw [List.length_append, h.off, hread.off]
  have hhears : r'.Hears v closed (out ++ bytes) := by
    refine ⟨hread.wf, hread.agrees v h.agrees, hread.len.trans_le h.len_le, hlen, ?_, ?_⟩
    · rw [hall]
      exact List.take_prefix _ _
    · intro f hf
      exact h.fin f (hread.finOff ▸ hf)
  refine ⟨hhears, fun hend => ?_⟩
  rw [hfin] at hend
  obtain ⟨hc, hoff⟩ := hhears.fin r'.off (by simpa [isFin] using hend)
  exact ⟨hc, hhears.told.eq_of_length (hlen.trans hoff)⟩

/-- Only the limit of the stream stands against a chunk of the script. -/
theorem Hears.checkSize (h : r.Hears v closed out) {data : RangeBuf} (hle : data.maxOff ≤ v.length)
    (hfin : data.fin = true → closed ∧ data.maxOff = v.length) :
    r.checkSize data.maxOff data.fin =
      if r.maxData < data.maxOff then some .flowControl else none := by
  split_ifs with hlimit
  · exact if_pos hlimit
  · refine checkSize_eq_none.mpr ⟨not_lt.mp hlimit, fun f hf => ?_, fun hflag => ?_⟩
    · obtain ⟨-, rfl⟩ := h.fin f hf
      exact ⟨hle, fun hflag => (hfin hflag).2.symm⟩
    · rw [(hfin hflag).2]
      exact h.len_le

/-- Nothing stands against the length of the complete script as the final size. -/
theorem Hears.reset_accepts (h : r.Hears v closed out) {finalSize : ℕ}
    (hsize : finalSize = v.length) : ∃ credit, ∃ r', r.reset finalSize = .ok (credit, r') := by
  have hknown : ¬ r.finOff.any fun finOff => finOff ≠ finalSize := by
    cases hf : r.finOff with
    | none => simp
    | some f => simp [(h.fin f hf).2, hsize]
  have hlen : ¬ finalSize < r.len := not_lt.mpr (hsize ▸ h.len_le)
  refine ⟨finalSize - r.len, { r with finOff := some finalSize }, ?_⟩
  unfold RecvBuf.reset
  rw [if_neg hknown, if_neg hlen]

end Hears

end RecvBuf

namespace StreamMap

/-! ### Streams -/

/-- Every receive buffer hears the script `v`, of which `out` was read. -/
structure Hears (m : StreamMap) (v : Script) (closed : ℕ → Prop) (out : Script) : Prop where
  live : ∀ id s, m.streams id = some s → s.recv.Hears (v id) (closed id) (out id)
  vacant : ∀ id, m.streams id = none → id ∉ m.collected → out id = []
  told : ∀ id, out id <+: v id

/-- Whatever was heard and read remains so. -/
def Rehears (v : Script) (closed : ℕ → Prop) (m m' : StreamMap) : Prop :=
  ∀ out, m.Hears v closed out → m'.Hears v closed out

section Hears

variable {v v' out : Script} {closed closed' : ℕ → Prop} {m m' : StreamMap} {id : ℕ}
  {s s' : Stream}

instance : IsPreorder StreamMap (Rehears v closed) where
  refl _ _ h := h
  trans _ _ _ h h' out hout := h' out (h out hout)

/-- The script may go on where it is not closed. -/
theorem Hears.grow (h : m.Hears v closed out) (hv : ∀ id, v id <+: v' id)
    (hclosed : ∀ id, closed id → closed' id ∧ v' id = v id) : m.Hears v' closed' out where
  live id s hs := (h.live id s hs).grow (hv id) (hclosed id)
  vacant := h.vacant
  told id := (h.told id).trans (hv id)

/-- A stream that is not there yet has heard nothing. -/
theorem Hears.origin (h : m.Hears v closed out) (origin : m.Origin id s) :
    s.recv.Hears (v id) (closed id) (out id) := by
  cases origin with
  | live hlive => exact h.live id s hlive
  | fresh hnone hnot hrecv _ =>
    obtain ⟨_, hrecv⟩ := hrecv
    rw [h.vacant id hnone hnot, hrecv]
    exact RecvBuf.new_hears _ _ _

/-- A stream is put into the map, from which some bytes may have been read. -/
theorem Hears.put (h : m.Hears v closed out) (hstreams : m'.streams = (m.put id s').streams)
    (hcollected : m'.collected = m.collected) {bytes : List UInt8}
    (hs' : s'.recv.Hears (v id) (closed id) bytes) :
    m'.Hears v closed (Function.update out id bytes) where
  live i si hi := by
    rw [hstreams] at hi
    rcases eq_or_ne i id with rfl | hne
    · rw [put_streams_self] at hi
      cases hi
      rwa [Function.update_self]
    · rw [put_streams_of_ne _ _ hne] at hi
      rw [Function.update_of_ne hne]
      exact h.live i si hi
  vacant i hnone hnot := by
    rw [hstreams] at hnone
    rcases eq_or_ne i id with rfl | hne
    · rw [put_streams_self] at hnone
      cases hnone
    · rw [put_streams_of_ne _ _ hne] at hnone
      rw [Function.update_of_ne hne]
      exact h.vacant i hnone (hcollected ▸ hnot)
  told i := by
    rcases eq_or_ne i id with rfl | hne
    · rw [Function.update_self]
      exact hs'.told
    · rw [Function.update_of_ne hne]
      exact h.told i

/-- Where the streams stay, the same is heard. -/
theorem rehears_of_eq (hstreams : m'.streams = m.streams)
    (hcollected : m'.collected = m.collected) : m.Rehears v closed m' := fun _ h =>
  ⟨fun id s hs => h.live id s (hstreams ▸ hs), fun id hnone hnot =>
    h.vacant id (hstreams ▸ hnone) (hcollected ▸ hnot), h.told⟩

/-- A stream is changed or created, and nothing is read. -/
theorem Updated.rehears {queued : Bool} (origin : m.Origin id s) (hm : m.Updated id s' queued m')
    (h : ∀ bytes, s.recv.Hears (v id) (closed id) bytes →
      s'.recv.Hears (v id) (closed id) bytes) : m.Rehears v closed m' := fun out hout => by
  have := hout.put hm.streams hm.collected (h _ (hout.origin origin))
  rwa [Function.update_eq_self] at this

/-- The sending side of a stream changes. -/
theorem Updated.rehears_send {queued : Bool} {send : SendBuf} (origin : m.Origin id s)
    (hm : m.Updated id { s with send := send } queued m') : m.Rehears v closed m' :=
  hm.rehears origin fun _ h => h

theorem collectIf_rehears (done : Bool) (m : StreamMap) (id : ℕ) (local_ : Bool) :
    m.Rehears v closed (if done then m.collect id local_ else m) := by
  intro out h
  cases done with
  | false => exact h
  | true =>
    refine ⟨fun i s hs => ?_, fun i hnone hnot => ?_, h.told⟩
    · simp only [if_true, collect_streams] at hs
      split_ifs at hs
      exact h.live i s hs
    · simp only [if_true, collect_streams, collect_collected] at hnone hnot
      split_ifs at hnone with hi
      · exact absurd (hi ▸ List.mem_insert_self) hnot
      · exact h.vacant i hnone fun hmem => hnot (List.mem_insert_of_mem hmem)

theorem Cancels.rehears (hm : m.Cancels m') : m.Rehears v closed m' := by
  intro out h
  refine ⟨fun id s hs => ?_, fun id hnone hnot => ?_, h.told⟩
  · rcases hm.streams id with heq | ⟨s₀, hs₀, heq⟩
    · exact h.live id s (heq ▸ hs)
    · rw [heq] at hs
      cases hs
      exact h.live id s₀ hs₀
  · rcases hm.streams id with heq | ⟨s₀, hs₀, heq⟩
    · exact h.vacant id (heq ▸ hnone) (hm.collected ▸ hnot)
    · rw [heq] at hnone
      cases hnone

end Hears

end StreamMap

/-! ### Actions -/

section Actions

variable {v : Script} {closed : ℕ → Prop} {p p' : Packing}

theorem Packing.Turned.rehears {id : ℕ} (turn : Turned id p p') :
    p.conn.streams.Rehears v closed p'.conn.streams := by
  cases turn with
  | full live introduced _ updated conn _ =>
    obtain ⟨isNew, rfl⟩ := introduced.stream
    exact conn ▸ updated.rehears_send (.live live)
  | tooLarge live introduced _ _ updated conn _ =>
    obtain ⟨isNew, rfl⟩ := introduced.stream
    exact conn ▸ updated.rehears_send (.live live)
  | nothing live introduced _ _ _ updated conn _ =>
    obtain ⟨isNew, rfl⟩ := introduced.stream
    exact conn ▸ updated.rehears_send (.live live)
  | sent live introduced _ _ _ _ stream updated conn _ =>
    obtain ⟨isNew, rfl⟩ := introduced.stream
    subst stream
    exact conn ▸ updated.rehears_send (.live live)

theorem Packing.Stepped.rehears {env : SendEnv} (step : Stepped env p p') :
    p.conn.streams.Rehears v closed p'.conn.streams := by
  have hpeek := StreamMap.peekFlushable_cancels env.pace p.conn.streams
  cases step with
  | stopped peek conn _ =>
    rw [conn]
    exact (Program.keeps_iff_after.mp hpeek _ peek).rehears
  | turned peek turn =>
    exact trans_of (StreamMap.Rehears v closed) (hpeek.ok peek).rehears turn.rehears

theorem Connection.Calm.rehears {c c' : Connection} (calm : c.Calm c') :
    c.streams.Rehears v closed c'.streams :=
  StreamMap.rehears_of_eq calm.streams calm.collected

/-- A shutdown that a RESET_STREAM frame may ask for. -/
theorem RecvBuf.Hears.shutdownIf {recv recv' : RecvBuf} {w out : List UInt8} {c : Prop} {code : ℕ}
    (h : recv.Hears w c out)
    (shutdown : (if code = 1 then recv.shutdown else .ok recv) = .ok recv') :
    recv'.Hears w c out := by
  split_ifs at shutdown
  · exact h.shutdown shutdown
  · cases shutdown
    exact h

theorem Connection.ResetAccepted.rehears {id code finalSize now : ℕ} {c c' : Connection}
    (he : c.ResetAccepted id code finalSize now c')
    (htrue : (Frame.resetStream id code finalSize).IsTrue v closed) :
    c.streams.Rehears v closed c'.streams := by
  obtain ⟨-, hc, hsize⟩ := htrue
  cases he with
  | ignored _ => exact refl_of (StreamMap.Rehears v closed) _
  | stored origin _ shutdown reset updated =>
    exact updated.rehears origin fun _ h => (h.shutdownIf shutdown).reset hc hsize reset

theorem Connection.ResetRejected.rehears {id code finalSize : ℕ} {c c' : Connection}
    (he : c.ResetRejected id code finalSize c')
    (htrue : (Frame.resetStream id code finalSize).IsTrue v closed) :
    c.streams.Rehears v closed c'.streams := by
  obtain ⟨-, hc, hsize⟩ := htrue
  cases he with
  | refused => exact refl_of (StreamMap.Rehears v closed) _
  | opened origin updated => exact updated.rehears origin fun _ h => h
  | drained origin shutdown updated =>
    exact updated.rehears origin fun _ h => h.shutdownIf shutdown
  | charged origin _ shutdown reset updated =>
    exact updated.rehears origin fun _ h => (h.shutdownIf shutdown).reset hc hsize reset

theorem Connection.TookAcked.rehears {epoch : Epoch} {c c' : Connection}
    (he : c.TookAcked epoch c') : c.streams.Rehears v closed c'.streams := by
  cases he with
  | other calm => exact calm.rehears
  | stream _ live stream _ updated =>
    subst stream
    exact trans_of (StreamMap.Rehears v closed) (updated.rehears_send (.live live))
      (StreamMap.collectIf_rehears _ _ _ _)

theorem Connection.TookLost.rehears {epoch : Epoch} {c c' : Connection}
    (he : c.TookLost epoch c') : c.streams.Rehears v closed c'.streams := by
  cases he with
  | other calm => exact calm.rehears
  | blockInfo _ _ live updated => exact updated.rehears_send (.live live)
  | failed _ _ _ _ => exact refl_of (StreamMap.Rehears v closed) _
  | stored _ live _ stream _ updated =>
    subst stream
    exact updated.rehears_send (.live live)

theorem Packing.WroteMaxStreamData.rehears {id : ℕ} (he : WroteMaxStreamData id p p') :
    p.conn.streams.Rehears v closed p'.conn.streams := by
  cases he with
  | skipped conn _ => exact conn ▸ StreamMap.rehears_of_eq rfl rfl
  | raised live update updated conn _ =>
    rw [conn]
    refine updated.rehears (.live live) fun _ h => ?_
    have hrecv := congrArg Prod.snd update
    dsimp only at hrecv ⊢
    exact hrecv ▸ h.updateMaxData

/-- Every action but a read keeps what was heard and read, if received frames are true. -/
theorem Action.Effect.rehears {action : Action} (effect : Effect p action p')
    (hread : ∀ id cap, action ≠ .read id cap)
    (htrue : ∀ f epoch env, action = .frame f epoch env → f.IsTrue v closed) :
    p.conn.streams.Rehears v closed p'.conn.streams := by
  have hsame : p.conn.streams.Rehears v closed p.conn.streams :=
    refl_of (StreamMap.Rehears v closed) _
  cases effect with
  | wrote he =>
    cases he with
    | refused => exact hsame
    | failed origin _ updated => exact updated.rehears_send origin
    | stored origin _ stream updated =>
      subst stream
      exact updated.rehears_send origin
  | readFrom he => exact absurd rfl (hread _ _)
  | shutDown he =>
    cases he with
    | refused => exact hsame
    | read live shutdown updated =>
      exact updated.rehears (.live live) fun _ h => h.shutdown shutdown
    | write live _ updated => exact updated.rehears_send (.live live)
  | streamAccepted he =>
    -- the data of a true frame is what was written
    obtain ⟨hagrees, hle, hfin⟩ := htrue _ _ _ rfl
    cases he with
    | ignored _ => exact hsame
    | stored origin _ push updated =>
      exact updated.rehears origin fun _ h => h.push hagrees hle hfin push
  | streamRejected he =>
    cases he with
    | refused => exact hsame
    | opened origin updated => exact updated.rehears origin fun _ h => h
  | resetAccepted he => exact he.rehears (htrue _ _ _ rfl)
  | resetRejected he => exact he.rehears (htrue _ _ _ rfl)
  | gotBlockInfo he =>
    cases he with
    | refused => exact hsame
    | stored _ _ _ _ origin updated =>
      exact updated.rehears origin fun _ h => h.setBlockInfo _ _ _ _
  | gotMaxStreamData he =>
    cases he with
    | refused => exact hsame
    | raised origin stream updated =>
      subst stream
      exact updated.rehears_send origin
  | tookAcked he => exact he.rehears
  | tookLost he => exact he.rehears
  | stepped he => exact he.rehears
  | wroteReset he =>
    cases he with
    | skipped conn | written _ conn => exact conn ▸ StreamMap.rehears_of_eq rfl rfl
  | wroteMaxStreamData he => exact he.rehears
  | wroteMaxData he =>
    cases he with
    | skipped conn | raised conn => exact conn ▸ hsame
  | wroteCrypto he => exact he.conn.rehears
  | recorded he =>
    obtain ⟨r, calm, -⟩ := he.conn
    exact StreamMap.rehears_of_eq calm.streams calm.collected
  | started => exact hsame
  | calm he => exact he.conn.rehears

end Actions

namespace Connection

/-- A read continues what was read of the script; it reports the end of the stream only when
everything that was written is read and nothing more can be written. -/
theorem streamRecv_hears {c : Connection} {v out : Script} {closed : ℕ → Prop}
    (h : c.streams.Hears v closed out) (id cap : ℕ) :
    (streamRecv id cap).Ends c
      (fun r c' => c'.streams.Hears v closed (Function.update out id (out id ++ r.1)) ∧
        (r.2 = true → closed id ∧ out id ++ r.1 = v id))
      fun _ c' => c' = c := by
  rw [streamRecv, Program.ends_bind, Program.ends_get, Program.ends_ite]
  refine ⟨fun _ => rfl, fun _ => ?_⟩
  cases live : c.streams.streams id with
  | none => rfl
  | some s =>
    rw [Program.ends_ite]
    refine ⟨fun _ => rfl, fun _ => ?_⟩
    cases hpop : s.recv.pop cap with
    | error e => rfl
    | ok r =>
      obtain ⟨bytes, fin, recv⟩ := r
      obtain ⟨hrecv, hend⟩ := (h.live id s live).pop hpop
      simp only [Program.ofExcept_ok, pure_bind, Program.ends_bind, Program.ends_set,
        Program.ends_pure]
      refine ⟨?_, hend⟩
      have hput := c.streams.put_updated id { s with recv := recv }
      have hfull := (hput.markAlmostFull id true).ite (c := recv.almostFull = true) hput
      have hread := hfull.ite (c := ({ s with recv := recv : Stream }.isReadable = true))
        (hfull.markReadable id false)
      exact StreamMap.collectIf_rehears _ _ _ _ _ (h.put hread.streams hread.collected hrecv)

/-- A true frame does not contradict the final size that is known of its stream. -/
theorem Refusal.ne_finalSize {c : Connection} {v out : Script} {closed : ℕ → Prop} {f : Frame}
    {now : ℕ} {e : Error} (h : c.streams.Hears v closed out) (htrue : f.IsTrue v closed)
    (hrefusal : c.Refusal now f e) : e ≠ .finalSize := by
  cases hrefusal with
  | direction _ _ => exact Error.noConfusion
  | noStream _ hopen =>
    obtain ⟨-, ⟨-, rfl⟩ | ⟨-, rfl⟩ | ⟨-, -, rfl, -⟩⟩ := StreamMap.getOrCreate_error hopen
    · exact Error.noConfusion
    · exact Error.noConfusion
    · exact Error.noConfusion
  | window _ => exact Error.noConfusion
  | size opens hsize =>
    obtain ⟨-, hle, hfin⟩ := htrue
    rw [(h.origin opens.origin).checkSize hle hfin] at hsize
    split_ifs at hsize
    cases hsize
    exact Error.noConfusion
  | drained _ _ => exact Error.noConfusion
  | @finalSize id code size s recv e opens shutdown hreset =>
    obtain ⟨-, hclosed, hsize⟩ := htrue
    have hs := h.origin opens.origin
    have hrecv : recv.Hears (v id) (closed id) (out id) := by
      split_ifs at shutdown
      · exact hs.shutdown shutdown
      · cases shutdown
        exact hs
    obtain ⟨credit, recv', haccepts⟩ := hrecv.reset_accepts hsize
    rw [haccepts] at hreset
    cases hreset
  | credit _ _ _ _ => exact Error.noConfusion

end Connection

end Dtp
