import Dtp.SendEffects

/-!
# The life of a stream

A stream is opened once and collected once; an id that was collected never names a
stream again. Frames about it may still arrive: they are ignored if the peer opened
the stream, with the exception of BLOCK_INFO frames and of STREAM frames beyond the
connection's flow control limit. For a stream of this endpoint they are errors.

## Main definitions

* `StreamMap.Ages` — streams are opened and collected, in this order
* `Connection.AboutStream`, `Connection.Ignores` — a frame for a stream, an ignored frame

## Main results

* `Action.ages` — every action lets the streams age
* `Connection.Reachable.collected_gone` — no stream has the id of a collected one
* `Connection.ignores_iff` — which frames for a collected stream are ignored
-/

namespace Dtp

open Lib (Program run)

namespace StreamMap

/-- Streams are opened and collected, and a collected one never comes back. -/
structure Ages (m m' : StreamMap) : Prop where
  live : ∀ id, m.streams id ≠ none → m'.streams id ≠ none ∨ id ∈ m'.collected
  collected : ∀ id ∈ m.collected, id ∈ m'.collected
  gone : ∀ id ∈ m.collected, m.streams id = none → m'.streams id = none
  newly : ∀ id ∈ m'.collected, id ∉ m.collected → m'.streams id = none

theorem ages_of_eq {m m' : StreamMap} (hstreams : m'.streams = m.streams)
    (hcollected : m'.collected = m.collected) : m.Ages m' where
  live id h := .inl (by rwa [hstreams])
  collected id h := by rwa [hcollected]
  gone id _ h := by rwa [hstreams]
  newly id h hnot := absurd (hcollected ▸ h) hnot

instance : IsPreorder StreamMap Ages where
  refl _ := ages_of_eq rfl rfl
  trans m m' m'' h h' :=
    { live := fun id hid => (h.live id hid).elim (h'.live id) fun hc => .inr (h'.collected id hc)
      collected := fun id hid => h'.collected id (h.collected id hid)
      gone := fun id hid hnone => h'.gone id (h.collected id hid) (h.gone id hid hnone)
      newly := fun id hid hnot => by
        by_cases hmid : id ∈ m'.collected
        · exact h'.gone id hmid (h.newly id hmid hnot)
        · exact h'.newly id hid hmid }

/-- Changing a stream that exists, or creating one. -/
theorem Updated.ages {m m' : StreamMap} {id : ℕ} {s s' : Stream} {queued : Bool}
    (origin : m.Origin id s) (h : m.Updated id s' queued m') : m.Ages m' where
  live i hi := by
    rw [h.streams]
    rcases eq_or_ne i id with rfl | hne
    · simp
    · exact .inl (by rwa [put_streams_of_ne _ _ hne])
  collected i hi := by rwa [h.collected]
  gone i hi hnone := by
    rw [h.streams]
    rcases eq_or_ne i id with rfl | hne
    · cases origin with
      | live hlive => rw [hnone] at hlive; cases hlive
      | fresh _ hcollected => exact absurd hi hcollected
    · rwa [put_streams_of_ne _ _ hne]
  newly i hi hnot := absurd (h.collected ▸ hi) hnot

@[simp] theorem collect_streams (m : StreamMap) (id : ℕ) (local_ : Bool) (i : ℕ) :
    (m.collect id local_).streams i = if i = id then none else m.streams i := by
  unfold collect
  dsimp only
  split_ifs <;> rfl

@[simp] theorem collect_collected (m : StreamMap) (id : ℕ) (local_ : Bool) :
    (m.collect id local_).collected = m.collected.insert id := by
  unfold collect
  split_ifs <;> rfl

@[simp] theorem collect_flushable (m : StreamMap) (id : ℕ) (local_ : Bool) :
    (m.collect id local_).flushable = m.flushable := by
  unfold collect
  split_ifs <;> rfl

private theorem collect_ages (m : StreamMap) (id : ℕ) (local_ : Bool) :
    m.Ages (m.collect id local_) where
  live i hi := by
    rcases eq_or_ne i id with rfl | hne
    · exact .inr (by simp)
    · exact .inl (by simpa [hne] using hi)
  collected i hi := by simp [hi]
  gone i _ hnone := by simp [hnone]
  newly i hi hnot := by
    have : i = id := by simpa [hnot] using hi
    simp [this]

theorem Cancels.ages {m m' : StreamMap} (h : m.Cancels m') : m.Ages m' where
  live id hid := by
    rcases h.streams id with heq | ⟨s, hs, heq⟩
    · exact .inl (by rwa [heq])
    · exact .inl (by simp [heq])
  collected id hid := by rwa [h.collected]
  gone id _ hnone := by
    rcases h.streams id with heq | ⟨s, hs, heq⟩
    · rwa [heq]
    · rw [hnone] at hs; cases hs
  newly id hid hnot := absurd (h.collected ▸ hid) hnot

end StreamMap

namespace Connection

/-- The streams of the connection age. -/
abbrev Ages (c c' : Connection) : Prop := c.streams.Ages c'.streams

theorem Calm.ages {c c' : Connection} (h : c.Calm c') : c.Ages c' :=
  StreamMap.ages_of_eq h.streams h.collected

/-- Changing a stream, which is collected if it is complete then. -/
theorem ages_of_collect {m m' : StreamMap} {id : ℕ} {done local_ : Bool}
    (live : m.Ages m') : m.Ages (if done then m'.collect id local_ else m') := by
  cases done
  · exact live
  · exact trans_of StreamMap.Ages live (m'.collect_ages id local_)

end Connection

theorem Packing.Turned.ages {id : ℕ} {p p' : Packing} (h : Turned id p p') :
    p.conn.Ages p'.conn := by
  cases h with
  | full live _ _ updated conn _ => exact conn ▸ updated.ages (.live live)
  | tooLarge live _ _ _ updated conn _ => exact conn ▸ updated.ages (.live live)
  | nothing live _ _ _ _ updated conn _ => exact conn ▸ updated.ages (.live live)
  | sent live _ _ _ _ _ _ updated conn _ =>
    rw [conn]
    exact updated.ages (.live live)

theorem Packing.Stepped.ages {env : SendEnv} {p p' : Packing} (h : Stepped env p p') :
    p.conn.Ages p'.conn := by
  have hpeek := StreamMap.peekFlushable_cancels env.pace p.conn.streams
  cases h with
  | stopped peek conn _ =>
    rw [conn]
    exact (Program.keeps_iff_after.mp hpeek _ peek).ages
  | turned peek turn => exact trans_of StreamMap.Ages (hpeek.ok peek).ages turn.ages

theorem StreamMap.Receives.ages {m m' : StreamMap} (h : m.Receives m') : m.Ages m' := by
  cases h with
  | same => exact refl_of StreamMap.Ages m
  | updated origin updated => exact updated.ages origin

theorem Connection.TookAcked.ages {epoch : Epoch} {c c' : Connection} (h : c.TookAcked epoch c') :
    c.Ages c' := by
  cases h with
  | other calm => exact calm.ages
  | stream _ live _ _ updated => exact Connection.ages_of_collect (updated.ages (.live live))

theorem Connection.TookLost.ages {epoch : Epoch} {c c' : Connection} (h : c.TookLost epoch c') :
    c.Ages c' := by
  cases h with
  | other calm => exact calm.ages
  | blockInfo _ _ live updated => exact updated.ages (.live live)
  | failed => exact refl_of StreamMap.Ages c.streams
  | stored _ live _ _ _ updated => exact updated.ages (.live live)

/-- Every action lets the streams age. -/
theorem Action.Effect.ages {p p' : Packing} {action : Action} (h : Effect p action p') :
    p.conn.Ages p'.conn := by
  have refl := refl_of StreamMap.Ages p.conn.streams
  cases h with
  | wrote h =>
    cases h with
    | refused => exact refl
    | failed origin _ updated => exact updated.ages origin
    | stored origin _ _ updated => exact updated.ages origin
  | readFrom h =>
    cases h with
    | refused => exact refl
    | got live _ _ updated => exact Connection.ages_of_collect (updated.ages (.live live))
  | shutDown h =>
    cases h with
    | refused => exact refl
    | read live _ updated => exact updated.ages (.live live)
    | write live _ updated => exact updated.ages (.live live)
  | streamAccepted h => exact h.receives.streams.ages
  | streamRejected h => exact h.receives.streams.ages
  | resetAccepted h => exact h.receives.streams.ages
  | resetRejected h => exact h.receives.streams.ages
  | gotBlockInfo h => exact h.receives.streams.ages
  | gotMaxStreamData h =>
    cases h with
    | refused => exact refl
    | raised origin _ updated => exact updated.ages origin
  | tookAcked h => exact h.ages
  | tookLost h => exact h.ages
  | stepped h => exact h.ages
  | wroteReset h =>
    cases h with
    | skipped conn | written _ conn => exact conn ▸ StreamMap.ages_of_eq rfl rfl
  | wroteMaxStreamData h =>
    cases h with
    | skipped conn _ => exact conn ▸ StreamMap.ages_of_eq rfl rfl
    | raised live _ updated conn _ => exact conn ▸ updated.ages (.live live)
  | wroteMaxData h =>
    cases h with
    | skipped conn | raised conn => exact conn ▸ refl
  | wroteCrypto h => exact h.conn.ages
  | recorded h =>
    obtain ⟨r, calm, _⟩ := h.conn
    exact calm.ages
  | started => exact refl
  | calm h => exact h.conn.ages

/-- No stream has the id of a collected one. -/
theorem Connection.Reachable.collected_gone {c : Connection} (h : c.Reachable) {id : ℕ}
    (hid : id ∈ c.streams.collected) : c.streams.streams id = none := by
  have hstep (p : Packing) (action : Action) (p' : Packing)
      (hgone : ∀ id ∈ p.conn.streams.collected, p.conn.streams.streams id = none)
      (h : Action.step p action = some p') (id : ℕ) (hid : id ∈ p'.conn.streams.collected) :
      p'.conn.streams.streams id = none := by
    have hages := (Action.effect h).ages
    by_cases hold : id ∈ p.conn.streams.collected
    · exact hages.gone id hold (hgone id hold)
    · exact hages.newly id hid hold
  obtain ⟨d, hgone⟩ := h.induct
    (I := fun c _ => ∀ id ∈ c.streams.collected, c.streams.streams id = none)
    (fun _ _ _ _ _ _ => rfl) hstep
  exact hgone id hid

namespace Connection

/-! ### Frames for collected streams -/

/-- The frame is about the stream `id`, and may come from the peer: the peer sends the
data of the stream, or in the case of MAX_STREAM_DATA receives it. -/
def AboutStream (c : Connection) (id : ℕ) : Frame → Prop
  | .stream i _ | .resetStream i _ _ | .blockInfo i _ _ _ _ => i = id ∧ c.sendsOnly id true = false
  | .maxStreamData i _ => i = id ∧ c.sendsOnly id false = false
  | _ => False

/-- Processing the frame succeeds and changes nothing. -/
def Ignores (c : Connection) (frame : Frame) (epoch : Epoch) (env : Env) : Prop :=
  processFrame frame epoch env c = .ok ⟨⟩ c

/-- The stream `id` is the peer's, and the frame neither is a BLOCK_INFO frame nor
exceeds the connection's flow control limit. -/
def Ignorable (c : Connection) (id : ℕ) (frame : Frame) : Prop :=
  isLocal id c.isServer = false ∧
    match frame with
    | .blockInfo _ _ _ _ _ => False
    | .stream _ data => c.rxData + data.len ≤ c.maxRxData
    | _ => True

private theorem peerStream_eq_error {c : Connection} {id : ℕ} (hlive : c.streams.streams id = none)
    (hid : id ∈ c.streams.collected) (now : ℕ) :
    c.peerStream id now =
      .error (if isLocal id c.isServer then .invalidStreamState else .done) := by
  cases hlocal : isLocal id c.isServer <;>
    simp [peerStream, getOrCreateStream, StreamMap.getOrCreate, hlive, hid, hlocal]

/-- A frame for a collected stream is ignored exactly if it is ignorable. -/
theorem ignores_iff {c : Connection} (h : c.Reachable) {id : ℕ} (hid : id ∈ c.streams.collected)
    {frame : Frame} (hframe : c.AboutStream id frame) (epoch : Epoch) (env : Env) :
    c.Ignores frame epoch env ↔ c.Ignorable id frame := by
  have hpeer := peerStream_eq_error (h.collected_gone hid) hid env.wall
  unfold Ignores Ignorable
  cases frame with
  | stream i data =>
    obtain ⟨rfl, hvalid⟩ := hframe
    by_cases hroom : c.maxRxData < c.rxData + data.len
    · simp [processFrame, processStream, Program.bind_apply, hvalid, hroom]
    · cases hlocal : isLocal i c.isServer <;>
        simp [processFrame, processStream, Program.bind_apply, hvalid, hpeer, hlocal, hroom,
          not_lt.mp hroom]
  | resetStream i code finalSize =>
    obtain ⟨rfl, hvalid⟩ := hframe
    cases hlocal : isLocal i c.isServer <;>
      simp [processFrame, processResetStream, Program.bind_apply, hvalid, hpeer, hlocal]
  | maxStreamData i max =>
    obtain ⟨rfl, hvalid⟩ := hframe
    cases hlocal : isLocal i c.isServer <;>
      simp [processFrame, processMaxStreamData, Program.bind_apply, hpeer, hlocal]
  | blockInfo i size priority deadline startTime =>
    obtain ⟨rfl, hvalid⟩ := hframe
    simp [processFrame, processBlockInfo, Program.bind_apply, hvalid, hpeer]
  | _ => exact hframe.elim

/-- Every frame for a collected stream is ignored. -/
def IgnoresCollected (c : Connection) : Prop :=
  ∀ id ∈ c.streams.collected, ∀ frame, c.AboutStream id frame → ∀ epoch env,
    c.Ignores frame epoch env

/-- A client that wrote a byte to its stream 2, and got it acked. -/
def uploaded : Option Connection :=
  Sample.client (.basic {})
    [Sample.write 2 [7] true, Sample.send 1, Sample.recv 0 [.ack 0 0 (Sample.range 0 1)] 2]

/-- A client that read the one byte of the peer's stream 3. -/
def downloaded : Option Connection :=
  Sample.client (.basic {}) [Sample.recv 0 [.stream 3 ⟨[7], 0, true⟩] 1, .streamRecv 3 10]

/-- A MAX_STREAM_DATA frame that arrives late, for a stream of this endpoint, is an error. -/
theorem not_ignoresCollected : ¬ ∀ c : Connection, c.Reachable → c.IgnoresCollected := by
  have hrun : uploaded.any (fun c => decide (2 ∈ c.streams.collected) && !c.sendsOnly 2 false &&
      (processFrame (.maxStreamData 2 60) .application (Sample.env 3)).failsWith c fun _ _ =>
          true) = true := by
    decide +kernel
  obtain ⟨c, hc, h⟩ := (Option.any_eq_true _ _).mp hrun
  simp only [Bool.and_eq_true, decide_eq_true_eq, Bool.not_eq_true'] at h
  obtain ⟨⟨hid, hvalid⟩, hfails⟩ := h
  intro hall
  have hignores := hall c (Sample.client_reachable hc) 2 hid (.maxStreamData 2 60) ⟨rfl, hvalid⟩
    .application (Sample.env 3)
  rw [Ignores] at hignores
  obtain ⟨e, c', hfail, -⟩ := Program.failsWith_iff.mp hfails
  cases hignores.symm.trans hfail

theorem ignores_downloaded : ∃ c, downloaded = some c ∧
    c.Ignores (.resetStream 3 0 1) .application (Sample.env 2) := by
  have hrun : downloaded.any (fun c =>
      decide (3 ∈ c.streams.collected) && !c.sendsOnly 3 true && !c.isServer) = true := by
    decide +kernel
  obtain ⟨c, hc, h⟩ := (Option.any_eq_true _ _).mp hrun
  simp only [Bool.and_eq_true, decide_eq_true_eq, Bool.not_eq_true'] at h
  obtain ⟨⟨hid, hvalid⟩, hclient⟩ := h
  have hframe : c.AboutStream 3 (.resetStream 3 0 1) := ⟨rfl, hvalid⟩
  refine ⟨c, hc, (ignores_iff (Sample.client_reachable hc) hid hframe .application _).mpr
    ⟨?_, trivial⟩⟩
  rw [hclient]
  rfl

end Connection

end Dtp
