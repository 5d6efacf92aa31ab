import Dtp.Lib.Quota
import Dtp.Lifetime

/-!
# Stream limits

The streams that the peer opens are limited. A stream that is collected gives its credit
back: it raises the limit that MAX_STREAMS announces next. The counters are changed by
separate operations of the stream map, and what is meant by them shows in the history of
the map, which remembers the ids of all streams that were ever created.

## Main definitions

* `StreamMap.Op`, `StreamMap.step` — the operations of the stream map
* `StreamMap.quota` — the counters for the peer's streams of a direction, as a quota
* `StreamMap.History` — the map, with the ids that were created
* `StreamMap.History.Limited` — the limits are enforced, and the credits exact

## Main results

* `StreamMap.History.Account.step` — what an operation preserves
* `StreamMap.History.limits_enforced` — the limits are enforced in every run
-/

namespace Dtp

open Lib (Quota run)

namespace StreamMap

/-! ### Operations -/

/-- Updates the peer's maximum bidirectional stream count limit. -/
def updatePeerMaxStreamsBidi (m : StreamMap) (v : ℕ) : StreamMap :=
  { m with peerMaxStreamsBidi := max m.peerMaxStreamsBidi v }

/-- Updates the peer's maximum unidirectional stream count limit. -/
def updatePeerMaxStreamsUni (m : StreamMap) (v : ℕ) : StreamMap :=
  { m with peerMaxStreamsUni := max m.peerMaxStreamsUni v }

/-- Commits the new limit of bidirectional streams. -/
def updateMaxStreamsBidi (m : StreamMap) : StreamMap :=
  { m with localMaxStreamsBidi := m.localMaxStreamsBidiNext }

/-- Commits the new limit of unidirectional streams. -/
def updateMaxStreamsUni (m : StreamMap) : StreamMap :=
  { m with localMaxStreamsUni := m.localMaxStreamsUniNext }

/-- An operation of the stream map. -/
inductive Op
  | getOrCreate (id : ℕ) (args : OpenArgs)
  | collect (id : ℕ)
  | updatePeerMaxStreamsBidi (v : ℕ)
  | updatePeerMaxStreamsUni (v : ℕ)
  | updateMaxStreamsBidi
  | updateMaxStreamsUni
  -- a stream's buffers, which `get_mut` hands out
  | send (id : ℕ) (send : SendBuf)
  | recv (id : ℕ) (recv : RecvBuf)
  /-- The receive buffer's limit and its block, not its data. -/
  | settle (id maxData blockSize blockPriority blockDeadline startTime : ℕ)
  -- the sets of ids
  | markReadable (id : ℕ) (readable : Bool)
  | mark (flushable writable canceled canceledDepend almostFull : List ℕ) (scheduler : DynScheduler)

/-- The map after an operation. Only a stream that is complete may be collected. -/
def step (isServer : Bool) (m : StreamMap) : Op → Option StreamMap
  | .getOrCreate id args =>
    if args.isServer = isServer then
      match m.getOrCreate id args with
      | .ok (_, m') => some m'
      | .error _ => some m
    else none
  | .collect id =>
    match m.streams id with
    | some s => if s.isComplete then some (m.collect id s.isLocal) else none
    | none => none
  | .updatePeerMaxStreamsBidi v => some (m.updatePeerMaxStreamsBidi v)
  | .updatePeerMaxStreamsUni v => some (m.updatePeerMaxStreamsUni v)
  | .updateMaxStreamsBidi => some m.updateMaxStreamsBidi
  | .updateMaxStreamsUni => some m.updateMaxStreamsUni
  | .send id send => (m.streams id).map fun s => m.putSend id s send
  | .recv id recv => (m.streams id).map fun s => m.putRecv id s recv
  | .settle id maxData blockSize blockPriority blockDeadline startTime =>
    (m.streams id).map fun s => m.putRecv id s
      { s.recv with
        maxData := maxData
        blockSize := blockSize
        blockPriority := blockPriority
        blockDeadline := blockDeadline
        startTime := startTime }
  | .markReadable id readable => some (m.markReadable id readable)
  | .mark flushable writable canceled canceledDepend almostFull scheduler =>
    some { m with
      flushable := flushable
      writable := writable
      canceled := canceled
      canceledDepend := canceledDepend
      almostFull := almostFull
      scheduler := scheduler }

/-- The ids of the streams that an operation creates. -/
def newIds (m : StreamMap) : Op → List ℕ
  | .getOrCreate id args =>
    if (m.streams id).isNone && (m.getOrCreate id args).isOk then [id] else []
  | _ => []

/-! ### Quotas -/

/-- The number of streams of a direction that the peer opened. -/
def peerOpenedStreams (m : StreamMap) (bidi : Bool) : ℕ :=
  if bidi then m.peerOpenedStreamsBidi else m.peerOpenedStreamsUni

/-- The number of streams of a direction that the peer may open. -/
def localMaxStreams (m : StreamMap) (bidi : Bool) : ℕ :=
  if bidi then m.localMaxStreamsBidi else m.localMaxStreamsUni

/-- The limit for streams of a direction that is announced next. -/
def localMaxStreamsNext (m : StreamMap) (bidi : Bool) : ℕ :=
  if bidi then m.localMaxStreamsBidiNext else m.localMaxStreamsUniNext

/-- The counters for the peer's streams of a direction. -/
def quota (m : StreamMap) (bidi : Bool) : Quota :=
  ⟨m.peerOpenedStreams bidi, m.localMaxStreams bidi, m.localMaxStreamsNext bidi⟩

/-- The stream is one of the peer's, and has this direction. -/
def isPeers (isServer bidi : Bool) (id : ℕ) : Bool := !isLocal id isServer && isBidi id == bidi

/-- A stream of the peer is taken out of the quota of its direction. -/
theorem countOpened_quota {m m' : StreamMap} {isServer : Bool} {id : ℕ}
    (h : m.countOpened (isLocal id isServer) (isBidi id) = .ok m') (bidi : Bool) :
    if isPeers isServer bidi id then (m.quota bidi).take = some (m'.quota bidi)
    else m'.quota bidi = m.quota bidi := by
  unfold countOpened at h
  unfold isPeers
  cases hlocal : isLocal id isServer <;> cases hbidi : isBidi id <;> rw [hlocal, hbidi] at h <;>
    dsimp only at h <;> split_ifs at h with hlimit <;> cases h <;> cases bidi <;>
    simp_all [quota, Quota.take, peerOpenedStreams, localMaxStreams, localMaxStreamsNext]

/-- A collected stream of the peer gives its credit back. -/
theorem collect_quota (m : StreamMap) (isServer : Bool) (id : ℕ) (bidi : Bool) :
    (m.collect id (isLocal id isServer)).quota bidi =
      if isPeers isServer bidi id then (m.quota bidi).giveBack u64Max else m.quota bidi := by
  unfold collect isPeers
  cases hlocal : isLocal id isServer <;> cases hbidi : isBidi id <;> cases bidi <;>
    simp [quota, Quota.giveBack, peerOpenedStreams, localMaxStreams, localMaxStreamsNext,
      saturatingAdd]

/-! ### Histories -/

/-- A stream map with the ids of all streams that were created in it, in order. -/
structure History where
  map : StreamMap
  created : List ℕ

namespace History

/-- No stream was opened. -/
def new (maxBidi maxUni : ℕ) (scheduler : DynScheduler) : History :=
  ⟨.new maxBidi maxUni scheduler, []⟩

/-- An operation, with the ids that it creates. -/
def step (isServer : Bool) (h : History) (op : Op) : Option History :=
  (h.map.step isServer op).map fun m => ⟨m, h.created ++ h.map.newIds op⟩

variable (isServer : Bool) (h : History) (bidi : Bool)

/-- How many streams of a direction the peer opened. -/
def opened : ℕ := h.created.countP (isPeers isServer bidi)

/-- How many of them are live. -/
def live : ℕ := h.created.countP fun id => isPeers isServer bidi id && (h.map.streams id).isSome

/-- How many of them were collected. -/
def collected : ℕ := h.map.collected.countP (isPeers isServer bidi)

/-- The limits for the peer's streams are enforced, and their credits are exact: the limit
that is announced next is the initial one and the credits given back, added by `add`. -/
structure Limited (add : ℕ → ℕ → ℕ) (isServer : Bool) (initial : Bool → ℕ) (h : History) :
    Prop where
  once : h.created.Nodup
  live_mem : ∀ id s, h.map.streams id = some s → id ∈ h.created
  counted : ∀ bidi, h.map.peerOpenedStreams bidi = h.opened isServer bidi
  opened_le : ∀ bidi, h.opened isServer bidi ≤ h.map.localMaxStreams bidi
  live_le : ∀ bidi, h.live isServer bidi ≤ initial bidi
  next_eq : ∀ bidi, h.map.localMaxStreamsNext bidi = add (initial bidi) (h.collected isServer bidi)
  /-- The difference that decides about an announcement does not wrap around. -/
  no_underflow : ∀ bidi, h.map.peerOpenedStreams bidi ≤ h.map.localMaxStreams bidi

end History

/-! ### What the operations preserve -/

/-- What `getOrCreate` does if it creates the stream. -/
theorem getOrCreate_vacant {m m' : StreamMap} {id : ℕ} {args : OpenArgs} {s : Stream}
    (hvacant : m.streams id = none) (h : m.getOrCreate id args = .ok (s, m')) :
    id ∉ m.collected ∧
      (∃ maxRxData maxTxData, s = .newFull maxRxData maxTxData (isBidi id)
        (isLocal id args.isServer)
        args.deadline args.priority args.now) ∧
      m'.streams = (m.put id s).streams ∧ m'.collected = m.collected ∧ m'.readable = m.readable ∧
        ∃ m₁, m.countOpened (isLocal id args.isServer) (isBidi id) = .ok m₁ ∧
            m'.quota = m₁.quota := by
  have updated := (getOrCreate_spec h).2
  cases getOrCreate_opening h with
  | live live => exact absurd (hvacant.symm.trans live) (Option.some_ne_none s).symm
  | fresh _ side uncollected count stream =>
    refine ⟨uncollected, ⟨_, _, side ▸ stream⟩, updated.streams, updated.collected, ?_, _, count,
      ?_⟩
    · obtain ⟨_, _, _, _, rfl⟩ := countOpened_eq count
      split_ifs <;> rfl
    · split_ifs <;> rfl

namespace History

/-- The counters, the streams and the ids agree with each other. -/
structure Account (isServer : Bool) (initial : Bool → ℕ) (h : History) : Prop where
  once : h.created.Nodup
  collectedOnce : h.map.collected.Nodup
  mem_created : ∀ id, id ∈ h.created ↔ h.map.streams id ≠ none ∨ id ∈ h.map.collected
  gone : ∀ id ∈ h.map.collected, h.map.streams id = none
  isLocal : ∀ id s, h.map.streams id = some s → s.isLocal = Dtp.isLocal id isServer
  counted : ∀ bidi, h.map.peerOpenedStreams bidi = h.opened isServer bidi
  balanced : ∀ bidi,
    (h.map.quota bidi).Balanced u64Max (initial bidi) (h.collected isServer bidi)

namespace Account

variable {isServer : Bool} {initial : Bool → ℕ} {h : History}

/-- No stream was opened. -/
theorem new {maxBidi maxUni : ℕ} (hbidi : maxBidi ≤ u64Max) (huni : maxUni ≤ u64Max)
    (scheduler : DynScheduler) :
    Account isServer (fun bidi => if bidi then maxBidi else maxUni)
        (.new maxBidi maxUni scheduler) where
  once := .nil
  collectedOnce := .nil
  mem_created _ := by simp [History.new, StreamMap.new]
  gone _ hid := by simp [History.new, StreamMap.new] at hid
  isLocal _ _ hs := by simp [History.new, StreamMap.new] at hs
  counted bidi := by cases bidi <;> rfl
  balanced bidi := by
    cases bidi
    · exact Quota.balanced_new huni
    · exact Quota.balanced_new hbidi

/-- Every stream that was created is live or collected. -/
theorem live_add_collected (account : Account isServer initial h) (bidi : Bool) :
    h.live isServer bidi + h.collected isServer bidi = h.opened isServer bidi := by
  have hgone : (h.created.filter fun id => !(h.map.streams id).isSome).Perm h.map.collected := by
    refine (List.perm_ext_iff_of_nodup (account.once.filter _) account.collectedOnce).mpr
      fun id => ?_
    rw [List.mem_filter, account.mem_created]
    constructor
    · rintro ⟨hlive | hid, hnone⟩
      · simp_all
      · exact hid
    · intro hid
      simp [hid, account.gone id hid]
  unfold opened live collected
  rw [List.countP_eq_countP_filter_add h.created (isPeers isServer bidi)
    (fun id => (h.map.streams id).isSome), List.countP_filter, hgone.countP_eq]

/-- The limits are enforced where the account is right. -/
theorem limited (account : Account isServer initial h) :
    h.Limited saturatingAdd isServer initial where
  once := account.once
  live_mem id s hs := (account.mem_created id).mpr (.inl (by simp [hs]))
  counted := account.counted
  opened_le bidi := account.counted bidi ▸ (account.balanced bidi).taken_le
  live_le bidi := by
    have htaken := (account.balanced bidi).taken_le_add
    have hadd := account.live_add_collected bidi
    rw [← account.counted bidi] at hadd
    change h.map.peerOpenedStreams bidi ≤ _ at htaken
    omega
  next_eq bidi := (account.balanced bidi).next_eq
  no_underflow bidi := (account.balanced bidi).taken_le

/-- An operation that neither creates nor collects a stream. -/
theorem edit (account : Account isServer initial h) {m : StreamMap}
    (hlocal : ∀ id, (m.streams id).map Stream.isLocal = (h.map.streams id).map Stream.isLocal)
    (hcollected : m.collected = h.map.collected)
    (htaken : ∀ bidi, m.peerOpenedStreams bidi = h.map.peerOpenedStreams bidi)
    (hquota : ∀ bidi, m.quota bidi = h.map.quota bidi ∨ m.quota bidi = (h.map.quota bidi).commit) :
    Account isServer initial ⟨m, h.created ++ []⟩ := by
  have hlive (id : ℕ) : m.streams id = none ↔ h.map.streams id = none := by
    rw [← Option.map_eq_none_iff (f := Stream.isLocal), hlocal, Option.map_eq_none_iff]
  rw [List.append_nil]
  refine { once := account.once, collectedOnce := ?_, mem_created := fun id => ?_, gone := ?_,
           isLocal := fun id s hs => ?_, counted := fun bidi => ?_, balanced := fun bidi => ?_ }
  · exact hcollected ▸ account.collectedOnce
  · rw [account.mem_created, hcollected, Ne, Ne, hlive]
  · intro id hid
    exact (hlive id).mpr (account.gone id (hcollected ▸ hid))
  · have hsome := hlocal id
    rw [hs, Option.map_some, eq_comm, Option.map_eq_some_iff] at hsome
    obtain ⟨s₀, hs₀, heq⟩ := hsome
    exact heq.symm.trans (account.isLocal id s₀ hs₀)
  · exact (htaken bidi).trans (account.counted bidi)
  · have hbalanced := account.balanced bidi
    unfold collected at hbalanced ⊢
    rw [hcollected]
    rcases hquota bidi with heq | heq <;> rw [heq]
    · exact hbalanced
    · exact hbalanced.commit

/-- A stream's buffers are changed. -/
theorem put (account : Account isServer initial h) {id : ℕ} {s s' : Stream}
    (hlive : h.map.streams id = some s) (hlocal : s'.isLocal = s.isLocal) :
    Account isServer initial ⟨h.map.put id s', h.created ++ []⟩ := by
  refine account.edit (fun i => ?_) rfl (fun _ => rfl) fun _ => .inl rfl
  rcases eq_or_ne i id with rfl | hne
  · rw [put_streams_self, hlive, Option.map_some, Option.map_some, hlocal]
  · rw [put_streams_of_ne _ _ hne]

/-- The stream is created if it does not exist. -/
theorem getOrCreate (account : Account isServer initial h) {id : ℕ} {args : OpenArgs} {s : Stream}
    {m : StreamMap} (hserver : args.isServer = isServer)
    (hok : h.map.getOrCreate id args = .ok (s, m)) :
    Account isServer initial ⟨m, h.created ++ h.map.newIds (.getOrCreate id args)⟩ := by
  cases hvacant : h.map.streams id with
  | some s₀ =>
    -- the stream is there, and may be marked writable
    have hnew : h.map.newIds (.getOrCreate id args) = [] := by simp [newIds, hvacant]
    rw [hnew]
    obtain ⟨-, rfl⟩ := getOrCreate_live hvacant hok
    split_ifs
    · exact account.edit (fun _ => rfl) rfl (fun _ => rfl) fun _ => .inl rfl
    · exact account.edit (fun _ => rfl) rfl (fun _ => rfl) fun _ => .inl rfl
  | none =>
    have hnew : h.map.newIds (.getOrCreate id args) = [id] := by
      simp [newIds, hvacant, hok, Except.isOk, Except.toBool]
    obtain ⟨hcollected, ⟨_, _, hs⟩, hstreams, hkeep, -, m₁, hcount, hquota⟩ :=
      getOrCreate_vacant hvacant hok
    rw [hserver] at hs hcount
    -- the stream is created: it was not, or it would be there or collected
    have hfresh : id ∉ h.created := by
      rw [account.mem_created]
      exact fun hid => hid.elim (absurd hvacant) hcollected
    have hopened (bidi : Bool) : History.opened isServer ⟨m, h.created ++ [id]⟩ bidi =
        h.opened isServer bidi + if isPeers isServer bidi id then 1 else 0 := by
      rw [History.opened, List.countP_append, List.countP_singleton]
      rfl
    rw [hnew]
    refine { once := ?_, collectedOnce := ?_, mem_created := fun i => ?_, gone := fun i hi => ?_,
             isLocal := fun i s' hs' => ?_, counted := fun bidi => ?_, balanced := fun bidi => ?_ }
    · exact List.nodup_append.mpr ⟨account.once, by simp, by
        simpa using fun i hi => ne_of_mem_of_not_mem hi hfresh⟩
    · exact hkeep ▸ account.collectedOnce
    · rw [List.mem_append, List.mem_singleton, account.mem_created, hstreams, hkeep]
      rcases eq_or_ne i id with rfl | hne
      · simp
      · simp [put_streams_of_ne _ _ hne, hne]
    · rw [hkeep] at hi
      rw [hstreams, put_streams_of_ne _ _ (ne_of_mem_of_not_mem hi hcollected)]
      exact account.gone i hi
    · rw [hstreams] at hs'
      rcases eq_or_ne i id with rfl | hne
      · rw [put_streams_self] at hs'
        rw [← Option.some.inj hs', hs]
        rfl
      · rw [put_streams_of_ne _ _ hne] at hs'
        exact account.isLocal i s' hs'
    · have htake := countOpened_quota hcount bidi
      rw [← hquota] at htake
      rw [hopened, ← account.counted bidi]
      change (m.quota bidi).taken = (h.map.quota bidi).taken + _
      split_ifs at htake ⊢
      · unfold Quota.take at htake
        split_ifs at htake
        rw [← Option.some.inj htake]
      · rw [htake, Nat.add_zero]
    · have htake := countOpened_quota hcount bidi
      rw [← hquota] at htake
      have hbalanced := account.balanced bidi
      unfold collected at hbalanced ⊢
      rw [hkeep]
      split_ifs at htake
      · exact hbalanced.take htake
      · exact htake ▸ hbalanced

/-- A live stream is collected. -/
theorem collect (account : Account isServer initial h) {id : ℕ} {s : Stream}
    (hlive : h.map.streams id = some s) :
    Account isServer initial ⟨h.map.collect id s.isLocal, h.created ++ []⟩ := by
  have hquota (bidi : Bool) := collect_quota h.map isServer id bidi
  rw [← account.isLocal id s hlive] at hquota
  have hfresh : id ∉ h.map.collected := fun hid => by
    rw [account.gone id hid] at hlive
    cases hlive
  have hcollected : (h.map.collect id s.isLocal).collected = id :: h.map.collected := by
    rw [collect_collected, List.insert_of_not_mem hfresh]
  rw [List.append_nil]
  refine
    { once := account.once, collectedOnce := ?_, mem_created := fun i => ?_, gone := fun i hi => ?_,
           isLocal := fun i s' hs' => ?_, counted := fun bidi => ?_, balanced := fun bidi => ?_ }
  · rw [hcollected]
    exact List.nodup_cons.mpr ⟨hfresh, account.collectedOnce⟩
  · rw [account.mem_created, hcollected, collect_streams, List.mem_cons]
    rcases eq_or_ne i id with rfl | hne
    · simp [hlive]
    · simp [hne]
  · rw [hcollected, List.mem_cons] at hi
    rw [collect_streams]
    split_ifs with heq
    · rfl
    · exact account.gone i (hi.resolve_left heq)
  · rw [collect_streams] at hs'
    split_ifs at hs'
    exact account.isLocal i s' hs'
  · have htaken := account.counted bidi
    change ((h.map.collect id s.isLocal).quota bidi).taken = _
    rw [hquota]
    split_ifs <;> exact htaken
  · have hbalanced := account.balanced bidi
    rw [hquota]
    unfold collected at hbalanced ⊢
    rw [hcollected, List.countP_cons]
    split_ifs
    · exact hbalanced.giveBack
    · exact hbalanced

/-- Every operation preserves the account. -/
theorem step (account : Account isServer initial h) {op : Op} {h' : History}
    (hstep : History.step isServer h op = some h') : Account isServer initial h' := by
  obtain ⟨m, hm, rfl⟩ := Option.map_eq_some_iff.mp hstep
  cases op with
  | getOrCreate id args =>
    rw [StreamMap.step] at hm
    split_ifs at hm with hserver
    cases hok : h.map.getOrCreate id args with
    | ok r =>
      rw [hok] at hm
      cases hm
      exact account.getOrCreate hserver hok
    | error e =>
      rw [hok] at hm
      cases hm
      -- a stream that is refused is not created
      have hnew : h.map.newIds (.getOrCreate id args) = [] := by
        simp [newIds, hok, Except.isOk, Except.toBool]
      rw [hnew]
      exact account.edit (fun _ => rfl) rfl (fun _ => rfl) fun _ => .inl rfl
  | collect id =>
    rw [StreamMap.step] at hm
    cases hlive : h.map.streams id with
    | none =>
      rw [hlive] at hm
      cases hm
    | some s =>
      simp only [hlive] at hm
      split_ifs at hm
      cases hm
      exact account.collect hlive
  | updatePeerMaxStreamsBidi v =>
    cases hm
    exact account.edit (fun _ => rfl) rfl (fun _ => rfl) fun _ => .inl rfl
  | updatePeerMaxStreamsUni v =>
    cases hm
    exact account.edit (fun _ => rfl) rfl (fun _ => rfl) fun _ => .inl rfl
  | updateMaxStreamsBidi =>
    cases hm
    -- the limit of one direction takes its next value
    refine account.edit (fun _ => rfl) rfl (fun _ => rfl) fun bidi => ?_
    cases bidi
    · exact .inl rfl
    · exact .inr rfl
  | updateMaxStreamsUni =>
    cases hm
    refine account.edit (fun _ => rfl) rfl (fun _ => rfl) fun bidi => ?_
    cases bidi
    · exact .inr rfl
    · exact .inl rfl
  | send id send =>
    obtain ⟨s, hlive, rfl⟩ := Option.map_eq_some_iff.mp hm
    exact account.put hlive rfl
  | recv id recv =>
    obtain ⟨s, hlive, rfl⟩ := Option.map_eq_some_iff.mp hm
    exact account.put hlive rfl
  | settle id maxData blockSize blockPriority blockDeadline startTime =>
    obtain ⟨s, hlive, rfl⟩ := Option.map_eq_some_iff.mp hm
    exact account.put hlive rfl
  | markReadable id readable =>
    cases hm
    exact account.edit (fun _ => rfl) rfl (fun _ => rfl) fun _ => .inl rfl
  | mark =>
    cases hm
    exact account.edit (fun _ => rfl) rfl (fun _ => rfl) fun _ => .inl rfl

end Account

/-- The account is right in every run. -/
theorem account_of_run {isServer : Bool} {maxBidi maxUni : ℕ} (hbidi : maxBidi ≤ u64Max)
    (huni : maxUni ≤ u64Max) {scheduler : DynScheduler} {ops : List Op} {h : History}
    (hrun : run (step isServer) (.new maxBidi maxUni scheduler) ops = some h) :
    h.Account isServer fun bidi => if bidi then maxBidi else maxUni :=
  Lib.run_invariant (fun _ _ _ account hstep => account.step hstep) (.new hbidi huni scheduler) hrun

/-- In every run the limits are enforced, and the credits are exact up to the largest
number that the counters hold. -/
theorem limits_enforced {isServer : Bool} {maxBidi maxUni : ℕ} (hbidi : maxBidi ≤ u64Max)
    (huni : maxUni ≤ u64Max) {scheduler : DynScheduler} {ops : List Op} {h : History}
    (hrun : run (step isServer) (.new maxBidi maxUni scheduler) ops = some h) :
    h.Limited saturatingAdd isServer fun bidi => if bidi then maxBidi else maxUni :=
  (account_of_run hbidi huni hrun).limited

/-- The stream `id` is opened by the client. -/
def byClient (id : ℕ) : Op :=
  .getOrCreate id
    { localParams := Sample.params, peerParams := Sample.params, isLocal := false, isServer := true
      deadline := maxDeadline, priority := defaultPriority, now := 0 }

/-- The client opens its stream 2 and resets it at once, and the stream is collected. -/
def openReset :
    List Op := [byClient 2, .recv 2 { RecvBuf.new 50 with finOff := some 0 }, .collect 2]

/-- A server allows one stream, and then one more. -/
theorem limits_enforced_reopened : ∃ h, run (step true) (.new 4 1 (.basic {}))
    (openReset ++ [byClient 6, .updateMaxStreamsUni, byClient 6, byClient 2]) = some h ∧
      h.Limited saturatingAdd true fun bidi => if bidi then 4 else 1 := by
  have hrun : (run (step true) (.new 4 1 (.basic {}))
      (openReset ++ [byClient 6, .updateMaxStreamsUni, byClient 6, byClient 2])).isSome = true := by
    decide +kernel
  obtain ⟨h, hh⟩ := Option.isSome_iff_exists.mp hrun
  exact ⟨h, hh, limits_enforced (by decide) (by decide) hh⟩

/-- The largest limit cannot be raised: the credit is lost. -/
theorem credit_lost : ¬ ∀ (isServer : Bool) (maxBidi maxUni : ℕ), maxBidi ≤ u64Max →
    maxUni ≤ u64Max →
    ∀ scheduler ops h, run (step isServer) (.new maxBidi maxUni scheduler) ops = some h →
      h.Limited (· + ·) isServer fun bidi => if bidi then maxBidi else maxUni := by
  have hrun : (run (step true) (.new 4 u64Max (.basic {})) openReset).any (fun h =>
      h.map.localMaxStreamsNext false != u64Max + h.collected true false) = true := by
    decide +kernel
  obtain ⟨h, hh, hne⟩ := (Option.any_eq_true _ _).mp hrun
  intro hall
  have hnext :=
    (hall true 4 u64Max (by decide) (le_refl _) (.basic {}) openReset h hh).next_eq false
  simp [hnext] at hne

end History

end StreamMap

end Dtp
