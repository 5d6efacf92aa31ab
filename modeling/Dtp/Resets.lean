import Dtp.Metering

/-!
# A reset that arrives twice

The peer sends a RESET_STREAM frame again when it takes it for lost, so that it may be processed
twice. The receive buffer of the stream keeps the final size, but not the length for which the
connection was charged, and it refuses to be shut down a second time.

## Main definitions

* `Connection.ResetStored` — what a frame does that is accepted for a live stream

## Main results

* `Connection.processResetStream_again` — what the second frame does
* `Connection.resetStream_repeats_iff` — when it is accepted and does nothing
-/

namespace Dtp

open Lib (Program)

namespace StreamMap

variable {m₀ m : StreamMap} {id : ℕ} {args : OpenArgs} {s : Stream}

/-- A stream that was opened is in the map, and marked if it is writable. -/
theorem getOrCreate_settled (h : m₀.getOrCreate id args = .ok (s, m)) :
    m.streams id = some s ∧ (s.isWritable = true → id ∈ m.writable) := by
  have hmark (m₁ : StreamMap) (hs : m₁.streams id = some s) :
      (if s.isWritable then m₁.markWritable id true else m₁).streams id = some s ∧
        (s.isWritable = true →
            id ∈ (if s.isWritable then m₁.markWritable id true else m₁).writable) := by
    split_ifs with hwritable
    · exact ⟨hs, fun _ => List.mem_insert_self⟩
    · exact ⟨hs, fun h => absurd h hwritable⟩
  cases getOrCreate_opening h with
  | live live => exact hmark m₀ live
  | fresh => exact hmark _ (put_streams_self _ _ _)

/-- Opening the stream again changes nothing. -/
theorem getOrCreate_again (h : m₀.getOrCreate id args = .ok (s, m)) (recv : RecvBuf)
    (args' : OpenArgs) :
    (m.putRecv id s recv).getOrCreate id args' = .ok
    ({ s with recv := recv }, m.putRecv id s recv) := by
  obtain ⟨-, hmarked⟩ := getOrCreate_settled h
  have hlive : (m.putRecv id s recv).streams id = some { s with recv := recv } :=
    put_streams_self _ _ _
  have hsame :
      (if ({ s with recv := recv } : Stream).isWritable then
        (m.putRecv id s recv).markWritable id true
      else m.putRecv id s recv) = m.putRecv id s recv := by
    split_ifs with hwritable
    · have hmem : id ∈ (m.putRecv id s recv).writable := hmarked hwritable
      unfold markWritable mark
      rw [if_pos rfl, List.insert_of_mem hmem]
    · rfl
  unfold getOrCreate
  rw [hlive]
  dsimp only
  rw [hsame]

/-- A buffer that is put back where it is. -/
theorem putRecv_putRecv (recv recv' : RecvBuf) :
    (m.putRecv id s recv).putRecv id { s with recv := recv } recv' = m.putRecv id s recv' := by
  unfold putRecv put
  dsimp only
  congr 1
  funext i
  split_ifs <;> rfl

end StreamMap

namespace RecvBuf

variable {r r' : RecvBuf} {finalSize credit : ℕ}

private theorem shutdown_drains (h : r.shutdown = .ok r') : r'.drain = true := by
  unfold shutdown at h
  split_ifs at h
  cases h
  rfl

private theorem reset_drain (h : r.reset finalSize = .ok (credit, r')) : r'.drain = r.drain := by
  unfold reset at h
  split_ifs at h
  cases h
  rfl

/-- A buffer is reset again for the same credit. -/
theorem reset_again (h : r.reset finalSize = .ok (credit, r')) :
    r'.reset finalSize = .ok (credit, r') := by
  unfold reset at *
  split_ifs at h with hsize hlen
  cases h
  simp [hlen]

end RecvBuf

namespace Connection

variable {c c' : Connection} {id code finalSize len : ℕ} {epoch : Epoch} {env : Env}

/-- What a frame does that is accepted for a live stream. -/
def ResetStored (id code finalSize : ℕ) (env : Env) (c c' : Connection) : Prop :=
  ∀ len, c.streams.recorded id = some len → c.sendsOnly id true ≠ true ∧
    ∃ s m recv recv', c.peerStream id env.wall = .ok (s, m) ∧
      (if code = 1 then s.recv.shutdown else .ok s.recv) = .ok recv ∧
      recv.reset finalSize = .ok (finalSize - len, recv') ∧
        c.rxData + (finalSize - len) ≤ c.maxRxData ∧
      c' = { c.setStreams (m.putRecv id s recv') with rxData := c.rxData + (finalSize - len) }

theorem processResetStream_stores (id code finalSize : ℕ) (env : Env) (c : Connection) :
    (processResetStream id code finalSize env).Ends c
    (fun _ c' => c.ResetStored id code finalSize env c')
      fun _ _ => True := by
  rw [processResetStream, Program.ends_bind, Program.ends_get, Program.ends_ite]
  refine ⟨fun _ => trivial, fun hdirection => ?_⟩
  cases hopen : c.peerStream id env.wall with
  | error e =>
    cases e
    case done =>
      intro len hlive
      rw [StreamMap.recorded_of_done hopen] at hlive
      cases hlive
    all_goals exact trivial
  | ok r =>
    obtain ⟨s, m⟩ := r
    obtain ⟨origin, -⟩ := getOrCreateStream_spec hopen
    simp only [Program.ends_bind, Program.ends_set, Program.ends_ofExcept]
    refine ⟨fun recv hshut => ⟨?_, fun _ _ => trivial⟩, fun _ _ => trivial⟩
    rintro ⟨credit, recv'⟩ hreset
    simp only [Program.ends_ite, Program.ends_fail, Program.ends_pure]
    refine ⟨fun _ => trivial, fun hroom len hlive =>
      ⟨hdirection, s, m, recv, recv', hopen, hshut, ?_⟩⟩
    rw [origin.recorded] at hlive
    have hlen : recv.len = len := (RecvBuf.shutdownIf_len hshut).trans (Option.some.inj hlive)
    have hcredit : credit = finalSize - len := by
      rw [← hlen]
      unfold RecvBuf.reset at hreset
      split_ifs at hreset
      cases hreset
      rfl
    rw [hcredit] at hreset hroom ⊢
    exact ⟨hreset, not_lt.mp hroom, rfl⟩

/-- The frame comes for a stream that was reset. -/
theorem processResetStream_settled {s : Stream} {credit : ℕ}
    (hdirection : c.sendsOnly id true ≠ true)
    (hopen : c.peerStream id env.wall = .ok (s, c.streams))
    (hput : c.streams.putRecv id s s.recv = c.streams)
    (hdrain : code = 1 → s.recv.drain = true)
    (hreset : s.recv.reset finalSize = .ok (credit, s.recv)) :
    processResetStream id code finalSize env c =
      if code = 1 then .error (.error .done) c
      else if c.maxRxData < c.rxData + credit then .error (.error .flowControl)
        { c with rxData := c.rxData + credit }
      else .ok () { c with rxData := c.rxData + credit } := by
  rw [processResetStream, Program.bind_apply, Program.get_apply]
  dsimp only
  rw [if_neg hdirection, hopen]
  dsimp only
  rw [Program.bind_apply, Program.set_apply]
  dsimp only
  by_cases hcode : code = 1
  · rw [if_pos hcode, if_pos hcode, RecvBuf.shutdown, if_pos (hdrain hcode)]
    rfl
  · rw [if_neg hcode, if_neg hcode, Program.ofExcept_ok, pure_bind, Program.bind_apply,
      Program.set_apply]
    dsimp only
    rw [hreset, Program.ofExcept_ok, pure_bind, Program.bind_apply, Program.set_apply, hput]
    dsimp only
    split_ifs <;> rfl

/-- A reset because of a deadline is refused when it is repeated. Another one is charged again. -/
theorem processResetStream_again (h : processResetStream id code finalSize env c = .ok () c')
    (hlive : c.streams.recorded id = some len) (env' : Env) :
    processResetStream id code finalSize env' c' =
      if code = 1 then .error (.error .done) c'
      else if c'.maxRxData < c'.rxData + (finalSize - len) then
        .error (.error .flowControl) { c' with rxData := c'.rxData + (finalSize - len) }
      else .ok () { c' with rxData := c'.rxData + (finalSize - len) } := by
  obtain ⟨hdirection, s, m, recv, recv', hopen, hshut, hreset, -, heq⟩ :=
    (processResetStream_stores id code finalSize env c).ok h len hlive
  have hstreams : c'.streams = m.putRecv id s recv' := by rw [heq, setStreams]
  have hdirection' : c'.sendsOnly id true ≠ true := by
    rw [heq]
    exact hdirection
  apply processResetStream_settled (s := { s with recv := recv' }) hdirection'
  · rw [peerStream, getOrCreateStream, hstreams]
    exact StreamMap.getOrCreate_again hopen recv' _
  · rw [hstreams]
    exact StreamMap.putRecv_putRecv recv' recv'
  · intro hcode
    rw [if_pos hcode] at hshut
    exact (RecvBuf.reset_drain hreset).trans (RecvBuf.shutdown_drains hshut)
  · exact RecvBuf.reset_again hreset

/-- A frame that is accepted for a live stream repeats exactly if it is not because of a deadline,
and all bytes up to the final size were received before. -/
theorem resetStream_repeats_iff
    (h : processFrame (.resetStream id code finalSize) epoch env c = .ok () c')
    (hlive : c.streams.recorded id = some len) :
    (∀ epoch' env', processFrame (.resetStream id code finalSize) epoch' env' c' = .ok () c') ↔
      code ≠ 1 ∧ finalSize = len := by
  have haccept : processResetStream id code finalSize env c = .ok () c' := h
  have hle : len ≤ finalSize :=
    ((processResetStream_effect id code finalSize env c).ok haccept).recorded_le hlive
  have hagain := processResetStream_again haccept hlive
  constructor
  · intro hrepeats
    have hsame := (hagain env).symm.trans (hrepeats epoch env)
    split_ifs at hsame with hcode
    injection hsame with _ hsame
    have hdata := congrArg rxData hsame
    dsimp only at hdata
    exact ⟨hcode, by omega⟩
  · rintro ⟨hcode, rfl⟩ epoch' env'
    have hroom : ¬ c'.maxRxData < c'.rxData := by
      obtain ⟨-, s, m, recv, recv', -, -, -, hroom, rfl⟩ :=
        (processResetStream_stores id code finalSize env c).ok haccept finalSize hlive
      rw [Nat.sub_self] at hroom ⊢
      exact not_lt.mpr hroom
    have hsame := hagain env'
    rw [if_neg hcode, Nat.sub_self, Nat.add_zero, if_neg hroom] at hsame
    exact hsame

/-- All bytes arrived before the reset. -/
theorem resetStream_repeats_after_data : ∃ c c' :
    Connection, c.Reachable ∧ c.streams.recorded 1 = some 3 ∧
    processFrame (.resetStream 1 0 3) .application (Sample.env 2) c = .ok () c' ∧
    processFrame (.resetStream 1 0 3) .application (Sample.env 3) c' = .ok () c' := by
  have hrun : (Sample.client (.basic {}) [Sample.recv 0 [.stream 1 ⟨[1, 2, 3], 0, false⟩] 1]).any
      (fun c =>
      c.streams.recorded 1 == some 3 &&
        (processFrame (.resetStream 1 0 3) .application (Sample.env 2)).returnsWith c fun _ _ =>
            true) = true := by
    decide +kernel
  obtain ⟨c, hc, h⟩ := (Option.any_eq_true _ _).mp hrun
  obtain ⟨hlive, haccept⟩ := Bool.and_eq_true_iff.mp h
  obtain ⟨_, c', hstep, -⟩ := Program.returnsWith_iff.mp haccept
  have hlive := eq_of_beq hlive
  have hrepeats := (resetStream_repeats_iff hstep hlive).mpr ⟨by decide, rfl⟩
  exact ⟨c, c', Sample.client_reachable hc, hlive, hstep, hrepeats _ _⟩

/-- The reset of a new stream because of its deadline, and one for another reason. -/
theorem not_resetStream_repeats : ∃ c : Connection, c.Reachable ∧ c.streams.recorded 1 = some 0 ∧
    (∃ c', processFrame (.resetStream 1 1 0) .application (Sample.env 1) c = .ok () c' ∧
      processFrame (.resetStream 1 1 0) .application (Sample.env 2) c' = .error (.error .done) c') ∧
    ∃ c' c'', processFrame (.resetStream 1 0 5) .application (Sample.env 1) c = .ok () c' ∧
      processFrame (.resetStream 1 0 5) .application (Sample.env 2) c' = .ok () c'' ∧
      c'.rxData = 5 ∧ c''.rxData = 10 := by
  have hrun : (Sample.client (.basic {}) []).any (fun c =>
      c.streams.recorded 1 == some 0 &&
        (processFrame (.resetStream 1 1 0) .application (Sample.env 1)).returnsWith c
          (fun _ _ => true) &&
        (processFrame (.resetStream 1 0 5) .application (Sample.env 1)).returnsWith c fun _ c' =>
          c'.rxData == 5 && c'.maxRxData == 100) = true := by decide +kernel
  obtain ⟨c, hc, h⟩ := (Option.any_eq_true _ _).mp hrun
  obtain ⟨h, hcharged⟩ := Bool.and_eq_true_iff.mp h
  obtain ⟨hlive, hdrained⟩ := Bool.and_eq_true_iff.mp h
  have hlive := eq_of_beq hlive
  refine ⟨c, Sample.client_reachable hc, hlive, ?_, ?_⟩
  · obtain ⟨_, c', hstep, -⟩ := Program.returnsWith_iff.mp hdrained
    exact ⟨c', hstep, processResetStream_again hstep hlive _⟩
  · obtain ⟨_, c', hstep, hcredit⟩ := Program.returnsWith_iff.mp hcharged
    obtain ⟨hrx, hmax⟩ := Bool.and_eq_true_iff.mp hcredit
    have hrx : c'.rxData = 5 := eq_of_beq hrx
    have hmax : c'.maxRxData = 100 := eq_of_beq hmax
    have hagain := processResetStream_again hstep hlive (Sample.env 2)
    rw [if_neg (by decide), hrx, hmax, if_neg (by decide)] at hagain
    exact ⟨c', _, hstep, hagain, hrx, rfl⟩

end Connection

end Dtp
