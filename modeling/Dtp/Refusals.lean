import Dtp.Effects
import Dtp.FinalSize

/-!
# Why frames are refused

A frame about a single stream is processed, or it is refused for one of a few reasons. What the
reason says about the state of the connection is what a peer must avoid in order not to be
refused.

## Main definitions

* `Frame.about` — the stream that a frame is about
* `Connection.Refusal` — the reasons to refuse a frame about a single stream

## Main results

* `Connection.processFrame_refusal` — there are no other reasons
-/

namespace Dtp

open Lib (Program)

/-- The stream that a frame is about, if it is a single one. -/
def Frame.about : Frame → Option ℕ
  | .stream id _ | .resetStream id _ _ | .blockInfo id _ _ _ _ | .maxStreamData id _ => some id
  | _ => none

namespace RecvBuf

/-- A chunk is refused by the checks of its limits alone. -/
theorem pushEvaluation_error {r : RecvBuf} (wf : r.WF) {buf : RangeBuf} {now : ℕ} {e : Fault}
    (h : r.pushEvaluation buf now = .error e) :
    ∃ err, e = .error err ∧ r.checkSize buf.maxOff buf.fin = some err := by
  unfold pushEvaluation at h
  cases hsize : r.checkSize buf.maxOff buf.fin with
  | some err =>
    rw [pushWith, hsize] at h
    cases h
    exact ⟨err, rfl, rfl⟩
  | none =>
    obtain ⟨r', hr'⟩ := pushWith_accepts wf 200 now hsize
    rw [hr'] at h
    cases h

end RecvBuf

namespace Connection

variable {c : Connection} {id : ℕ} {s : Stream}

theorem Opens.origin {byLocal : Bool} (h : c.Opens byLocal id s) : c.streams.Origin id s := by
  obtain ⟨_, _, _, _, hopen⟩ := h
  exact (getOrCreateStream_spec hopen).1

/-- Why a frame is refused at the time `now`. -/
inductive Refusal (c : Connection) (now : ℕ) : Frame → Error → Prop
  -- only this endpoint sends on the stream
  | direction {f : Frame} {id : ℕ} (about : f.about = some id) (h : c.sendsOnly id true = true) :
      Refusal c now f .invalidStreamState
  -- the stream is neither found nor created
  | noStream {f : Frame} {id : ℕ} {e : Error} (about : f.about = some id)
      (h : c.peerStream id now = .error e) : Refusal c now f e
  -- too much data for the connection
  | window {id : ℕ} {data : RangeBuf} (h : c.maxRxData < c.rxData + data.len) :
      Refusal c now (.stream id data) .flowControl
  -- too much data for the stream, or another final size
  | size {id : ℕ} {data : RangeBuf} {s : Stream} {e : Error} (opens : c.Opens false id s)
      (h : s.recv.checkSize data.maxOff data.fin = some e) : Refusal c now (.stream id data) e
  | drained {id finalSize : ℕ} {s : Stream} (opens : c.Opens false id s)
      (h : s.recv.drain = true) : Refusal c now (.resetStream id 1 finalSize) .done
  | finalSize {id code finalSize : ℕ} {s : Stream} {recv : RecvBuf} {e : Error}
      (opens : c.Opens false id s)
      (shutdown : (if code = 1 then s.recv.shutdown else .ok s.recv) = .ok recv)
      (h : recv.reset finalSize = .error e) : Refusal c now (.resetStream id code finalSize) e
  | credit {id code finalSize : ℕ} {s : Stream} {recv recv' : RecvBuf} {credit : ℕ}
      (opens : c.Opens false id s)
      (shutdown : (if code = 1 then s.recv.shutdown else .ok s.recv) = .ok recv)
      (h : recv.reset finalSize = .ok (credit, recv')) (excess : c.maxRxData < c.rxData + credit) :
      Refusal c now (.resetStream id code finalSize) .flowControl

private theorem processStream_refusal {data : RangeBuf} {env : Env}
    (wf : ∀ s, c.Opens false id s → s.recv.WF) :
    (processStream id data env).Ends c (fun _ _ => True)
      fun e _ => ∃ err, e = .error err ∧ c.Refusal env.wall (.stream id data) err := by
  rw [processStream, Program.ends_bind, Program.ends_get, Program.ends_ite]
  refine ⟨fun h => ⟨_, rfl, .direction rfl h⟩, fun _ => ?_⟩
  rw [Program.ends_ite]
  refine ⟨fun h => ⟨_, rfl, .window h⟩, fun _ => ?_⟩
  cases hopen : c.peerStream id env.wall with
  | error e =>
    cases e
    case done => trivial
    all_goals exact ⟨_, rfl, .noStream rfl hopen⟩
  | ok r =>
    obtain ⟨s, m⟩ := r
    have opens : c.Opens false id s := ⟨_, _, _, _, hopen⟩
    simp only [Program.ends_bind, Program.ends_set]
    cases hpush : s.recv.pushEvaluation data env.wall with
    | ok recv => trivial
    | error e =>
      obtain ⟨err, rfl, hsize⟩ := RecvBuf.pushEvaluation_error (wf s opens) hpush
      exact ⟨err, rfl, .size opens hsize⟩

private theorem processResetStream_refusal {code finalSize : ℕ} {env : Env} :
    (processResetStream id code finalSize env).Ends c (fun _ _ => True)
      fun e _ => ∃ err, e = .error err ∧
        c.Refusal env.wall (.resetStream id code finalSize) err := by
  rw [processResetStream, Program.ends_bind, Program.ends_get, Program.ends_ite]
  refine ⟨fun h => ⟨_, rfl, .direction rfl h⟩, fun _ => ?_⟩
  cases hopen : c.peerStream id env.wall with
  | error e =>
    cases e
    case done => trivial
    all_goals exact ⟨_, rfl, .noStream rfl hopen⟩
  | ok r =>
    obtain ⟨s, m⟩ := r
    have opens : c.Opens false id s := ⟨_, _, _, _, hopen⟩
    simp only [Program.ends_bind, Program.ends_set, Program.ends_ofExcept, Program.ends_ite,
      Program.ends_fail, Program.ends_pure]
    refine ⟨fun recv hshut => ⟨fun r hreset => ⟨fun excess => ?_, fun _ => trivial⟩,
      fun e hreset => ?_⟩, fun e hshut => ?_⟩
    · exact ⟨_, rfl, .credit opens hshut hreset excess⟩
    · exact ⟨_, rfl, .finalSize opens hshut hreset⟩
    · -- only a stream that drops its data is not shut down
      split_ifs at hshut with hcode
      subst hcode
      unfold RecvBuf.shutdown at hshut
      split_ifs at hshut with hdrain
      cases hshut
      exact ⟨_, rfl, .drained opens hdrain⟩

/-- A frame about a single stream is processed, or there is a reason to refuse it. -/
theorem processFrame_refusal {f : Frame} (hf : f.about ≠ none) (epoch : Epoch) (env : Env)
    (wf : ∀ id s, c.Opens false id s → s.recv.WF) :
    (processFrame f epoch env).Ends c (fun _ _ => True)
      fun e _ => ∃ err, e = .error err ∧ c.Refusal env.wall f err := by
  cases f with
  | stream id data => exact processStream_refusal (wf id)
  | resetStream id code finalSize => exact processResetStream_refusal
  | blockInfo id size priority deadline startTime =>
    rw [processFrame, processBlockInfo, Program.ends_bind, Program.ends_get, Program.ends_ite]
    refine ⟨fun h => ⟨_, rfl, .direction rfl h⟩, fun _ => ?_⟩
    cases hopen : c.peerStream id env.wall with
    | error e => exact ⟨_, rfl, .noStream rfl hopen⟩
    | ok r => trivial
  | maxStreamData id max =>
    rw [processFrame, processMaxStreamData, Program.ends_bind, Program.ends_get]
    cases hopen : c.peerStream id env.wall with
    | error e =>
      cases e
      case done => trivial
      all_goals exact ⟨_, rfl, .noStream rfl hopen⟩
    | ok r => trivial
  | _ => exact absurd rfl hf

end Connection

end Dtp
