import Dtp.Lib.HighWater
import Dtp.SendEffects

/-!
# Counting received bytes

The connection counts what arrives on all its streams against its flow control limit. It
adds the length of every STREAM frame, whether or not the bytes arrived before, and for a
RESET_STREAM frame what lies between the length that the receive buffer has recorded and the
final size. The buffer records the chunks that it stores, and neither what it drains nor the
final size of an earlier RESET_STREAM.

## Main definitions

* `StreamMap.recorded` — what the receive buffer of a stream counts from
* `Metered` — a connection with a log of what the accepted frames announced
* `Metered.CountsOnce` — the connection has counted the highest offset of every stream
* `Metered.Extends` — a frame begins where the data of its stream ends

## Main results

* `Connection.processFrame_charges` — what a frame adds to the count
* `Metered.countsOnce_iff_extends` — bytes count once exactly along runs whose frames extend
-/

namespace Dtp

open Lib (Program run highWater highWaterSum highWaterSum_cons)

/-- The stream that a frame announces data of, and the offset up to which it does. -/
def Frame.announced : Frame → List (ℕ × ℕ)
  | .stream id data => [(id, data.maxOff)]
  | .resetStream id _ finalSize => [(id, finalSize)]
  | _ => []

namespace StreamMap

/-- The length that the receive buffer of the stream `id` has recorded, zero if the stream may
still be opened; `none` for a stream that was collected. -/
def recorded (m : StreamMap) (id : ℕ) : Option ℕ :=
  match m.streams id with
  | some s => some s.recv.len
  | none => if id ∈ m.collected then none else some 0

theorem Origin.recorded {m : StreamMap} {id : ℕ} {s : Stream} (h : m.Origin id s) :
    m.recorded id = some s.recv.len := by
  unfold StreamMap.recorded
  cases h with
  | live hlive => rw [hlive]
  | fresh hlive hcollected hrecv _ =>
    obtain ⟨maxData, hrecv⟩ := hrecv
    rw [hlive, if_neg hcollected, hrecv]
    rfl

theorem recorded_of_done {m : StreamMap} {id : ℕ} {args : OpenArgs}
    (h : m.getOrCreate id args = .error .done) : m.recorded id = none := by
  obtain ⟨vacant, ⟨-, hside⟩ | ⟨hcollected, -⟩ | ⟨-, -, hlimit, -⟩⟩ := getOrCreate_error h
  · cases hside
  · unfold recorded
    rw [vacant]
    exact if_pos hcollected
  · cases hlimit

end StreamMap

theorem RecvBuf.shutdownIf_len {r r' : RecvBuf} {p : Prop} [Decidable p]
    (h : (if p then r.shutdown else .ok r) = .ok r') : r'.len = r.len := by
  unfold shutdown at h
  split_ifs at h <;> cases h <;> rfl

namespace Connection

/-! ### What a frame adds to the count -/

/-- What an accepted frame adds to the count of the connection. -/
def charge (c : Connection) : Frame → ℕ
  | .stream id data => if (c.streams.recorded id).isSome then data.len else 0
  | .resetStream id _ finalSize =>
    match c.streams.recorded id with
    | some len => finalSize - len
    | none => 0
  | _ => 0

/-- A frame that is accepted adds its charge, one that is refused without an error to report
adds nothing. -/
def Charges (c : Connection) (frame : Frame) (x : Program Error Connection Unit) : Prop :=
  x.Ends c (fun _ c' => c'.rxData = c.rxData + c.charge frame) fun e c' => e = .error .done →
    c'.rxData = c.rxData

private theorem processStream_charges (id : ℕ) (data : RangeBuf) (env : Env) (c : Connection) :
    c.Charges (.stream id data) (processStream id data env) := by
  refine (processStream_effect id data env c).mono (fun _ c' h => ?_) fun _ c' h _ => ?_
  · cases h with
    | ignored hdone => simp [charge, StreamMap.recorded_of_done hdone]
    | stored origin => simp [charge, origin.recorded]
  · cases h <;> rfl

private theorem processResetStream_charges (id code finalSize : ℕ) (env : Env) (c : Connection) :
    c.Charges (.resetStream id code finalSize) (processResetStream id code finalSize env) := by
  unfold Charges
  rw [processResetStream, Program.ends_bind, Program.ends_get, Program.ends_ite]
  refine ⟨fun _ _ => rfl, fun _ => ?_⟩
  cases hopen : c.peerStream id env.wall with
  | error e =>
    cases e
    case done => simp [charge, StreamMap.recorded_of_done hopen]
    all_goals exact fun _ => rfl
  | ok r =>
    obtain ⟨s, m⟩ := r
    obtain ⟨origin, -⟩ := getOrCreateStream_spec hopen
    simp only [Program.ends_bind, Program.ends_set, Program.ends_ofExcept]
    refine ⟨fun recv hshut => ⟨?_, fun _ _ _ => rfl⟩, fun _ _ _ => rfl⟩
    rintro ⟨credit, recv'⟩ hreset
    have hlen : recv.len = s.recv.len := RecvBuf.shutdownIf_len hshut
    have hcredit : credit = finalSize - recv.len := by
      unfold RecvBuf.reset at hreset
      split_ifs at hreset
      cases hreset
      rfl
    simp only [Program.ends_ite, Program.ends_fail, Program.ends_pure]
    refine ⟨fun _ => ?_, fun _ => ?_⟩
    · rintro ⟨⟩
    simp [charge, origin.recorded, hcredit, hlen]

/-- The final size is not below what the receive buffer has recorded. -/
theorem ResetAccepted.recorded_le {id code finalSize now : ℕ} {c c' : Connection}
    (h : c.ResetAccepted id code finalSize now c') {len : ℕ}
    (hlen : c.streams.recorded id = some len) :
    len ≤ finalSize := by
  cases h with
  | ignored hdone =>
    rw [StreamMap.recorded_of_done hdone] at hlen
    cases hlen
  | stored origin _ hshut hreset =>
    rw [origin.recorded] at hlen
    obtain rfl := Option.some.inj hlen
    unfold RecvBuf.reset at hreset
    split_ifs at hreset with _ hless
    rw [← RecvBuf.shutdownIf_len hshut]
    exact not_lt.mp hless

theorem processFrame_charges (frame : Frame) (epoch : Epoch) (env : Env) (c : Connection) :
    c.Charges frame (processFrame frame epoch env) := by
  have hsame {x : Program Error Connection Unit} (hcharge : c.charge frame = 0)
      (h : x.Keeps (fun c c' => c'.rxData = c.rxData) c) : c.Charges frame x := by
    refine Program.Ends.mono h (fun _ c' h' => ?_) fun e c' h' he => h' ⟨_, he⟩
    rw [hcharge]
    exact h'
  by_cases hcalm : frame.isCalm = true
  · have hcharge : c.charge frame = 0 := by cases frame <;> first | rfl | cases hcalm
    exact hsame hcharge ((processFrame_calm hcalm epoch env c).mono fun _ h => h.rxData)
  cases frame with
  | stream id data => exact processStream_charges id data env c
  | resetStream id code finalSize => exact processResetStream_charges id code finalSize env c
  | blockInfo id size priority deadline startTime =>
    refine hsame rfl ((processBlockInfo_effect id size priority deadline startTime env c).mono
      fun _ h => ?_)
    cases h <;> rfl
  | maxStreamData id max =>
    refine hsame rfl ((processMaxStreamData_effect id max env c).mono fun _ h => ?_)
    cases h <;> rfl
  | _ => exact absurd rfl hcalm

end Connection

/-! ### Runs -/

/-- Only frames are counted. -/
theorem Action.Effect.sameRxData {p p' : Packing} {action : Action} (h : action.Effect p p')
    (hframe : ∀ frame epoch env, action ≠ .frame frame epoch env) :
    p'.conn.rxData = p.conn.rxData := by
  cases h with
  | streamAccepted _ | streamRejected _ | resetAccepted _ | resetRejected _ | gotBlockInfo _
    | gotMaxStreamData _ =>
    exact absurd rfl (hframe _ _ _)
  | wrote h => cases h <;> rfl
  | readFrom h => cases h <;> rfl
  | shutDown h => cases h <;> rfl
  | tookAcked h =>
    cases h with
    | other calm => exact calm.rxData
    | stream => rfl
  | tookLost h =>
    cases h with
    | blockInfo calm => exact calm.rxData
    | other calm => exact calm.rxData
    | failed => rfl
    | stored => rfl
  | stepped h =>
    cases h with
    | stopped peek conn => rw [conn]; rfl
    | turned peek turn => cases turn <;> simp_all [Connection.setStreams]
  | wroteReset h => cases h <;> simp_all [Connection.setStreams]
  | wroteMaxStreamData h => cases h <;> simp_all [Connection.setStreams]
  | wroteMaxData h => cases h <;> simp_all
  | wroteCrypto h => exact h.conn.rxData
  | recorded h =>
    obtain ⟨r, hcalm, -⟩ := h.conn
    exact hcalm.rxData
  | started => rfl
  | calm h => exact h.conn.rxData

/-- A connection, and what the accepted frames announced, the last one first. -/
structure Metered where
  packing : Packing
  log : List (ℕ × ℕ)

namespace Metered

/-- A new connection. -/
def start (config : Connection.Config) (isServer afterRetry : Bool) (now : ℕ) : Metered :=
  ⟨⟨.new config isServer afterRetry now, .new 0⟩, []⟩

/-- The state after an action. An error in a frame closes the connection, and no frame is
processed after it; `Done` is not reported. -/
noncomputable def step (t : Metered) : Action → Option Metered
  | .frame frame epoch env =>
    match Connection.processFrame frame epoch env t.packing.conn with
    | .ok _ c => some ⟨{ t.packing with conn := c }, frame.announced ++ t.log⟩
    | .error (.error .done) c => some ⟨{ t.packing with conn := c }, t.log⟩
    | .error _ _ => none
  | action => (Action.step t.packing action).map fun p => ⟨p, t.log⟩

/-- The highest offset of a stream that was announced. -/
def mark (t : Metered) (id : ℕ) : ℕ := highWater t.log id

/-- The connection has counted the highest offset of every stream that was ever opened. -/
def CountsOnce (t : Metered) : Prop := t.packing.conn.rxData = highWaterSum t.log

/-- The action is no frame, or one that is accepted. -/
def Accepts (t : Metered) : Action → Prop
  | .frame frame epoch env => ∃ c, Connection.processFrame frame epoch env t.packing.conn = .ok () c
  | _ => True

/-- A STREAM frame begins where the data of its stream ends, and a RESET_STREAM frame meets a
receive buffer that has recorded all of it; for a collected stream they announce nothing new. -/
def Extends (t : Metered) : Action → Prop
  | .frame (.stream id data) _ _ =>
    match t.packing.conn.streams.recorded id with
    | some _ => data.off = t.mark id ∨ data.len = 0 ∧ data.off ≤ t.mark id
    | none => data.maxOff ≤ t.mark id
  | .frame (.resetStream id _ finalSize) _ _ =>
    match t.packing.conn.streams.recorded id with
    | some len => len = min (t.mark id) finalSize
    | none => finalSize ≤ t.mark id
  | _ => True

private theorem extends_of_other {t : Metered} {action : Action}
    (h : ∀ frame epoch env, action ≠ .frame frame epoch env) : t.Extends action := by
  cases action with
  | frame frame epoch env => exact absurd rfl (h frame epoch env)
  | _ => trivial

/-- An accepted frame keeps the count exact exactly if it extends the data. -/
theorem countsOnce_frame_iff {t : Metered} {frame : Frame} {epoch : Epoch} {env : Env}
    {c : Connection}
    (h : t.CountsOnce) (hok : Connection.processFrame frame epoch env t.packing.conn = .ok () c) :
    CountsOnce ⟨{ t.packing with conn := c }, frame.announced ++ t.log⟩ ↔
        t.Extends (.frame frame epoch env) := by
  have hcharge : c.rxData = t.packing.conn.rxData + t.packing.conn.charge frame :=
    (Connection.processFrame_charges frame epoch env t.packing.conn).ok hok
  unfold CountsOnce at h ⊢
  change c.rxData = _ ↔ _
  rw [hcharge, h]
  cases frame with
  | stream id data =>
    have hsum := highWaterSum_cons id data.maxOff t.log
    simp only [Connection.charge, Extends, Frame.announced, List.singleton_append, mark]
    cases t.packing.conn.streams.recorded id with
    | none =>
      simp only [Option.isSome_none, Bool.false_eq_true, if_false]
      omega
    | some len =>
      simp only [RangeBuf.maxOff, Option.isSome_some, if_true] at hsum ⊢
      omega
  | resetStream id code finalSize =>
    have hsum := highWaterSum_cons id finalSize t.log
    have haccepted :=
      (Program.ends_iff.mp (Connection.processResetStream_effect id code finalSize env _)).1 _ _ hok
    simp only [Connection.charge, Extends, Frame.announced, List.singleton_append, mark]
    cases hlen : t.packing.conn.streams.recorded id with
    | none =>
      dsimp only
      omega
    | some len =>
      have hle : len ≤ finalSize := haccepted.recorded_le hlen
      dsimp only
      omega
  | _ => simp [Connection.charge, Extends, Frame.announced]

/-- After an action the count is exact exactly if the action, where it is an accepted frame,
extends the data. -/
theorem countsOnce_step_iff {t t' : Metered} {action : Action} (h : t.CountsOnce)
    (hstep : t.step action = some t') :
    t'.CountsOnce ↔ (t.Accepts action → t.Extends action) := by
  by_cases hframe : ∃ frame epoch env, action = .frame frame epoch env
  · obtain ⟨frame, epoch, env, rfl⟩ := hframe
    rw [step] at hstep
    unfold Accepts
    split at hstep
    · rename_i c hok
      cases hstep
      rw [countsOnce_frame_iff h hok]
      exact ⟨fun hext _ => hext, fun hext => hext ⟨c, hok⟩⟩
    · rename_i c hdone
      cases hstep
      have hsame : c.rxData = t.packing.conn.rxData :=
        (Program.ends_iff.mp (Connection.processFrame_charges frame epoch env t.packing.conn)).2 _ _
          hdone rfl
      refine iff_of_true (hsame.trans h) ?_
      rintro ⟨c', hok⟩
      cases hok.symm.trans hdone
    · cases hstep
  · have hother : ∀ frame epoch env, action ≠ .frame frame epoch env :=
      fun frame epoch env heq => hframe ⟨frame, epoch, env, heq⟩
    have hstep : (Action.step t.packing action).map
        (fun p => (⟨p, t.log⟩ : Metered)) = some t' := by
      cases action with
      | frame frame epoch env => exact absurd rfl (hother frame epoch env)
      | _ => exact hstep
    obtain ⟨p, hp, rfl⟩ := Option.map_eq_some_iff.mp hstep
    exact iff_of_true (((Action.effect hp).sameRxData hother).trans h) fun _ =>
      extends_of_other hother

/-- Flow control counts each byte once along a run exactly if every accepted frame begins where
the data of its stream ends, or meets a receive buffer that has recorded all of it. -/
theorem countsOnce_iff_extends (config : Connection.Config) (isServer afterRetry : Bool) (now : ℕ)
    (actions : List Action) :
    Lib.Always step CountsOnce (start config isServer afterRetry now) actions ↔
      Lib.AllSteps step (fun t action => (t.step action).isSome → t.Accepts action →
        t.Extends action)
        (start config isServer afterRetry now) actions :=
  Lib.always_iff_allSteps (I := fun _ => True) (fun _ _ _ _ _ => trivial)
    (fun _ _ _ _ h hstep => countsOnce_step_iff h hstep) trivial rfl

/-- Three bytes that a server receives. -/
def chunk : Action := .frame (.stream 0 ⟨[1, 2, 3], 0, false⟩) .application (Sample.env 0)

/-- Bytes that are sent again, in another packet, count twice. -/
theorem not_countsOnce : ¬ ∀ config isServer afterRetry now actions,
    Lib.Always step CountsOnce (start config isServer afterRetry now) actions := by
  intro hall
  have hrun : (run step (start (Sample.config (.basic {})) true false 0) [chunk, chunk]).map
      (fun t => (t.packing.conn.rxData, t.log)) = some (6, [(0, 3), (0, 3)]) := by decide +kernel
  obtain ⟨t, ht, heq⟩ := Option.map_eq_some_iff.mp hrun
  have honce : t.packing.conn.rxData = highWaterSum t.log := (hall _ _ _ _ _).last ht
  simp only [Prod.mk.injEq] at heq
  rw [heq.1, heq.2] at honce
  exact absurd honce (by decide +kernel)

end Metered

end Dtp
