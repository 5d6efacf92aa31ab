import Dtp.Compliance
import Dtp.StreamRuns

/-!
# Credit between two connections

Each of two connections sends and opens streams on credit that the other one grants. What a
connection believes to be granted was granted, whatever the network delays, reorders or repeats:
credit never shrinks. So the limits that a receiver checks are never exceeded by what its peer
sends on the streams, and all that is left is the limit for the whole connection.

## Main definitions

* `StreamMap.History.Own` — an endpoint opens no more streams than it may
* `Duplex.ReachableInRange` — the runs of two parties whose parameters are numbers of 64 bits
* `Frame.charge` — what a frame counts against the limit of the connection

## Main results

* `Duplex.ReachableInRange.credit_granted` — what may be sent and opened is granted
* `Duplex.ReachableInRange.credit_kept` — frames about streams do not exceed the limits
-/

namespace Dtp

open Lib (Fault Link Peer Program Side run)

namespace StreamMap

/-! ### Own streams -/

/-- The number of streams of a direction that this endpoint opened. -/
def localOpenedStreams (m : StreamMap) (bidi : Bool) : ℕ :=
  if bidi then m.localOpenedStreamsBidi else m.localOpenedStreamsUni

/-- The stream belongs to the peer of a peer: to this endpoint. -/
theorem isPeers_not (isServer bidi : Bool) (id : ℕ) :
    isPeers (!isServer) bidi id = (isLocal id isServer && isBidi id == bidi) := by
  unfold isPeers
  rw [isLocal_not, Bool.not_not]

/-- A stream of this endpoint counts against the limit of its direction. -/
theorem countOpened_own {m m' : StreamMap} {isServer : Bool} {id : ℕ}
    (h : m.countOpened (isLocal id isServer) (isBidi id) = .ok m') (bidi : Bool) :
    m'.peerMaxStreams bidi = m.peerMaxStreams bidi ∧
      if isPeers (!isServer) bidi id then
        m'.localOpenedStreams bidi = m.localOpenedStreams bidi + 1 ∧
          m.localOpenedStreams bidi < m.peerMaxStreams bidi
      else m'.localOpenedStreams bidi = m.localOpenedStreams bidi := by
  rw [isPeers_not]
  unfold countOpened at h
  cases hlocal : isLocal id isServer <;> cases hbidi : isBidi id <;> rw [hlocal, hbidi] at h <;>
    dsimp only at h <;> split_ifs at h with hlimit <;> cases h <;> cases bidi <;>
    simp_all [localOpenedStreams, peerMaxStreams]

/-- An existing stream is returned without counting it, a new one is counted. -/
theorem getOrCreate_own {m m' : StreamMap} {id : ℕ} {args : OpenArgs} {s : Stream}
    (h : m.getOrCreate id args = .ok (s, m')) :
    m.newIds (.getOrCreate id args) = [] ∧ m'.localOpenedStreams = m.localOpenedStreams ∧
        m'.peerMaxStreams = m.peerMaxStreams ∨
      m.newIds (.getOrCreate id args) = [id] ∧
        ∃ m₁, m.countOpened (isLocal id args.isServer) (isBidi id) = .ok m₁ ∧
          m'.localOpenedStreams = m₁.localOpenedStreams ∧
            m'.peerMaxStreams = m₁.peerMaxStreams := by
  cases getOrCreate_opening h with
  | live live =>
    refine .inl ⟨by simp [newIds, live], ?_⟩
    split_ifs <;> exact ⟨rfl, rfl⟩
  | fresh vacant _ _ count =>
    refine .inr ⟨by simp [newIds, vacant, h, Except.isOk, Except.toBool], _, count, ?_⟩
    split_ifs <;> exact ⟨rfl, rfl⟩

namespace History

/-- The streams of this endpoint are counted, and are no more than the peer allows. -/
structure Own (isServer : Bool) (h : History) : Prop where
  counted : ∀ bidi, h.map.localOpenedStreams bidi = h.opened (!isServer) bidi
  opened_le : ∀ bidi, h.map.localOpenedStreams bidi ≤ h.map.peerMaxStreams bidi

namespace Own

variable {isServer : Bool} {h : History}

theorem new (maxBidi maxUni : ℕ) (scheduler : DynScheduler) :
    Own isServer (.new maxBidi maxUni scheduler) where
  counted bidi := by cases bidi <;> rfl
  opened_le bidi := by cases bidi <;> exact le_rfl

/-- An operation that creates no stream, and lowers no limit. -/
theorem edit (own : Own isServer h) {m : StreamMap}
    (hopened : m.localOpenedStreams = h.map.localOpenedStreams)
    (hmax : ∀ bidi, h.map.peerMaxStreams bidi ≤ m.peerMaxStreams bidi) :
    Own isServer ⟨m, h.created ++ []⟩ where
  counted bidi := by
    rw [List.append_nil, hopened]
    exact own.counted bidi
  opened_le bidi := by
    rw [hopened]
    exact (own.opened_le bidi).trans (hmax bidi)

/-- The stream is created if it does not exist. -/
theorem getOrCreate (own : Own isServer h) {id : ℕ} {args : OpenArgs} {s : Stream} {m : StreamMap}
    (hserver : args.isServer = isServer) (hok : h.map.getOrCreate id args = .ok (s, m)) :
    Own isServer ⟨m, h.created ++ h.map.newIds (.getOrCreate id args)⟩ := by
  rcases getOrCreate_own hok with ⟨hnew, hopened, hmax⟩ | ⟨hnew, m₁, hcount, hopened, hmax⟩
  · rw [hnew]
    exact own.edit hopened fun bidi => by rw [hmax]
  · rw [hserver] at hcount
    rw [hnew]
    have hcreated (bidi : Bool) : History.opened (!isServer) ⟨m, h.created ++ [id]⟩ bidi =
        h.opened (!isServer) bidi + if isPeers (!isServer) bidi id then 1 else 0 := by
      rw [History.opened, List.countP_append, List.countP_singleton]
      rfl
    refine ⟨fun bidi => ?_, fun bidi => ?_⟩
    · obtain ⟨-, hown⟩ := countOpened_own hcount bidi
      rw [hcreated, ← own.counted]
      dsimp only
      rw [hopened]
      split_ifs at hown ⊢
      · exact hown.1
      · exact hown
    · obtain ⟨hkeep, hown⟩ := countOpened_own hcount bidi
      have hle := own.opened_le bidi
      dsimp only
      rw [hopened, hmax, hkeep]
      split_ifs at hown
      · omega
      · omega

/-- Every operation keeps to the limits for the streams of this endpoint. -/
theorem step (own : Own isServer h) {op : Op} {h' : History}
    (hstep : History.step isServer h op = some h') : Own isServer h' := by
  obtain ⟨m, hm, rfl⟩ := Option.map_eq_some_iff.mp hstep
  cases op with
  | getOrCreate id args =>
    rw [StreamMap.step] at hm
    split_ifs at hm with hserver
    cases hok : h.map.getOrCreate id args with
    | ok r =>
      rw [hok] at hm
      cases hm
      exact own.getOrCreate hserver hok
    | error e =>
      rw [hok] at hm
      cases hm
      -- a stream that is refused is not counted
      have hnew : h.map.newIds (.getOrCreate id args) = [] := by
        simp [newIds, hok, Except.isOk, Except.toBool]
      rw [hnew]
      exact own.edit rfl fun _ => le_rfl
  | collect id =>
    rw [StreamMap.step] at hm
    cases hlive : h.map.streams id with
    | none =>
      rw [hlive] at hm
      cases hm
    | some s =>
      simp only [hlive] at hm
      split_ifs at hm
      cases hm
      refine own.edit ?_ fun bidi => le_of_eq ?_
      · unfold StreamMap.collect
        split_ifs <;> rfl
      · unfold StreamMap.collect
        split_ifs <;> rfl
  | updatePeerMaxStreamsBidi v =>
    -- the limits of the peer only grow
    cases hm
    refine own.edit rfl fun bidi => ?_
    cases bidi
    · exact le_rfl
    · exact le_max_left _ _
  | updatePeerMaxStreamsUni v =>
    cases hm
    refine own.edit rfl fun bidi => ?_
    cases bidi
    · exact le_max_left _ _
    · exact le_rfl
  | updateMaxStreamsBidi | updateMaxStreamsUni | markReadable _ _ | mark =>
    cases hm
    exact own.edit rfl fun _ => le_rfl
  | send _ _ | recv _ _ | settle _ _ _ _ _ _ =>
    obtain ⟨s, -, rfl⟩ := Option.map_eq_some_iff.mp hm
    exact own.edit rfl fun _ => le_rfl

end Own

end History

end StreamMap

/-! ### Terms with a peer -/

/-- The parameters that count bytes and streams are numbers of 64 bits. -/
structure TransportParams.InRange (params : TransportParams) : Prop where
  bidiLocal : params.initialMaxStreamDataBidiLocal ≤ u64Max
  bidiRemote : params.initialMaxStreamDataBidiRemote ≤ u64Max
  uni : params.initialMaxStreamDataUni ≤ u64Max
  maxBidi : params.initialMaxStreamsBidi ≤ u64Max
  maxUni : params.initialMaxStreamsUni ≤ u64Max

theorem TransportParams.InRange.window_le {params : TransportParams} (h : params.InRange)
    (isServer : Bool) (id : ℕ) : initialWindow isServer params id ≤ u64Max := by
  unfold initialWindow
  cases isLocal id isServer <;> cases isBidi id
  · exact h.uni
  · exact h.bidiRemote
  · exact Nat.zero_le _
  · exact h.bidiLocal

/-- The terms that the connection of the peer sets, as it is now. -/
def Connection.terms (c peer : Connection) : Terms where
  isServer := c.isServer
  localParams := c.localTransportParams
  peerParams := peer.localTransportParams
  grants := peer.Grants
  maxStreams := peer.streams.localMaxStreams
  opened := peer.streams.Opened

/-- The streams of a connection are counted. -/
def Connection.Counts (c : Connection) : Prop :=
  ∃ created, StreamMap.History.Account c.isServer c.localTransportParams.initialMaxStreams
    ⟨c.streams, created⟩ ∧ StreamMap.History.Own c.isServer ⟨c.streams, created⟩

theorem Call.counts {c c' : Connection} {call : Call} (h : c.Counts)
    (hstep : Call.step c call = some c') : c'.Counts := by
  obtain ⟨created, account, own⟩ := h
  have hfollows : c.Follows c' := by
    obtain ⟨parts, hparts⟩ := Call.exists_parts hstep
    exact Lib.run_invariant (I := fun c' => c.Follows c')
      (fun _ _ _ h hstep => trans_of Connection.Follows h (Part.steers hstep))
      (refl_of Connection.Follows c) hparts
  obtain ⟨ops, -, hops⟩ := hfollows.streams
  obtain ⟨created', hhistory⟩ := StreamMap.History.exists_run hops created
  refine ⟨created', ?_⟩
  rw [hfollows.isServer, (Call.sameConfig hstep).localParams]
  exact ⟨Lib.run_invariant (fun _ _ _ account hstep => account.step hstep) account hhistory,
    Lib.run_invariant (fun _ _ _ own hstep => own.step hstep) own hhistory⟩

section Raises

variable {c c' peer peer' : Connection} {p : Packing}

/-- The peer grants more, and is still the same. -/
theorem Connection.Honors.raised (h : c.Honors (c.terms peer)) (hraises : peer.Raises peer')
    (hconfig : peer.SameConfig peer') : c.Honors (c.terms peer') where
  isServer := rfl
  localParams := rfl
  peerParams := h.peerParams.imp_right fun heq => heq.trans hconfig.localParams.symm
  streams id s hs :=
    { h.streams id s hs with credit := hraises.grants id _ (h.streams id s hs).credit }
  opened id hremote hid := hraises.opened id (h.opened id hremote hid)
  peerMax bidi := (h.peerMax bidi).trans (hraises.localMax bidi)
  localMax := h.localMax
  localNext := h.localNext

theorem Frame.Within.raised {f : Frame} (h : f.Within (c.terms peer) c)
    (hraises : peer.Raises peer') : f.Within (c.terms peer') c := by
  cases f with
  | stream id data => exact ⟨h.1, hraises.grants id _ h.2⟩
  | resetStream _ _ _ | blockInfo _ _ _ _ _ | maxStreamData _ _ | maxStreamsBidi _
  | maxStreamsUni _ => exact h
  | _ => trivial

/-- What the peer sends within its terms agrees with the terms of this endpoint. -/
theorem Frame.Within.received {f : Frame} (h : f.Within (peer.terms c) peer) :
    f.Agrees (c.terms peer) := by
  cases f with
  | stream _ _ => exact h.1
  | resetStream _ _ _ | blockInfo _ _ _ _ _ | maxStreamData _ _ | maxStreamsBidi _
  | maxStreamsUni _ => exact h
  | _ => trivial

private theorem Connection.terms_congr (h : c.SameConfig c') : c'.terms peer = c.terms peer := by
  unfold terms
  rw [h.isServer, h.localParams]

/-- The peer grants what it announces. -/
theorem Connection.Honors.valid (h : peer.Honors (peer.terms c))
    (hsides : c.isServer = !peer.isServer) (hrange : c.localTransportParams.InRange) :
    (c.terms peer).Valid where
  anti id n n' hle hn w hw := hle.trans (hn w hw)
  credit id w hw := by
    rw [initialCredit_eq]
    change initialWindow (!c.isServer) peer.localTransportParams id ≤ w
    rw [hsides, Bool.not_not]
    unfold window at hw
    cases hlive : peer.streams.streams id with
    | some s =>
      rw [hlive] at hw
      cases hw
      exact (h.streams id s hlive).window
    | none =>
      rw [hlive] at hw
      dsimp only at hw
      split_ifs at hw
      exact (Option.some.inj hw).le
  maxStreams := h.localMax
  window_le := hrange.window_le _

end Raises

namespace Party

/-- The connection counts its streams, and its parameters are in range. -/
structure Counts (s : Party) : Prop where
  streams : s.conn.Counts
  range : s.conn.localTransportParams.InRange

/-- What a message of `s` says is within the terms that `t` sets. -/
def Vouches (s t : Party) : Message → Prop
  | .frame f => f.Within (s.conn.terms t.conn) s.conn
  | .params params => params = s.conn.localTransportParams

/-- The party `s` keeps to the terms that `t` sets. -/
structure Honors (s t : Party) : Prop where
  sides : s.conn.isServer = !t.conn.isServer
  terms : ∃ d, Packing.Honors ⟨s.conn, d⟩ (s.conn.terms t.conn)

variable {s t : Party}

/-- Two parties can rely on each other's credit. -/
theorem credit_contract : party.Contract Counts Vouches Honors where
  sends s t _ _ hst _ m hm := by
    obtain ⟨d, hhonors⟩ := hst.terms
    rcases List.mem_cons.mp hm with rfl | hframe
    · rfl
    · obtain ⟨f, hf, rfl⟩ := List.mem_map.mp hframe
      exact hhonors.frames f (.inl (Connection.mem_sentFrames hf))
  step s t call s' hs ht hst hts htrue hstep := by
    obtain ⟨c, hc, rfl⟩ := step_eq_some hstep
    obtain ⟨d, hhonors⟩ := hst.terms
    obtain ⟨e, hpeer⟩ := hts.terms
    have hconfig := Call.sameConfig hc
    have hterms : c.terms t.conn = s.conn.terms t.conn := Connection.terms_congr hconfig
    have valid := hpeer.conn.valid hst.sides hs.range
    -- the party keeps to the terms, as all that it hears does
    obtain ⟨d', hcomplies⟩ := Call.complies valid hhonors hc
      (fun f hf => Frame.Within.received (htrue _ hf)) fun params hparams => htrue _ hparams
    have hraises := hcomplies.raises
    refine ⟨⟨Call.counts hs.streams hc, ?_⟩, ⟨?_, d', ?_⟩, ⟨?_, e, ?_⟩, fun m => ⟨?_, ?_⟩⟩
    · rw [hconfig.localParams]
      exact hs.range
    · rw [hconfig.isServer]
      exact hst.sides
    · rw [hterms]
      exact hcomplies.honors
    · rw [hconfig.isServer]
      exact hts.sides
    · exact
        { sound := hpeer.sound
          conn := hpeer.conn.raised hraises hconfig
          frames := fun f hf => (hpeer.frames f hf).raised hraises }
    · intro hm
      cases m with
      | frame f =>
        refine Frame.Within.mono ?_ hraises
        rw [hterms]
        exact hm
      | params params => exact Eq.trans hm hconfig.localParams.symm
    · intro hm
      cases m with
      | frame f => exact Frame.Within.raised hm hraises
      | params params => exact hm

end Party

/-! ### What is refused -/

/-- How much of a stream is known to be sent. -/
def Connection.receivedLen (c : Connection) (id : ℕ) : ℕ :=
  ((c.streams.streams id).map fun s => s.recv.len).getD 0

/-- What a frame counts against the limit of the connection. -/
def Frame.charge (c : Connection) : Frame → ℕ
  | .stream _ data => data.len
  | .resetStream id _ finalSize => finalSize - c.receivedLen id
  | _ => 0

namespace Connection

variable {c peer : Connection} {id : ℕ} {s : Stream}

/-- A stream that is opened has the window that the peer relies on. -/
theorem Opens.window {byLocal : Bool} (h : c.Opens byLocal id s) :
    c.window id = some s.recv.maxData := by
  have origin := h.origin
  obtain ⟨deadline, priority, now, m, hopen⟩ := h
  cases origin with
  | live live => exact window_of_live live
  | fresh vacant hcollected _ _ =>
    obtain ⟨-, rfl⟩ := StreamMap.getOrCreate_fresh vacant hopen
    unfold Connection.window
    rw [vacant]
    exact if_neg hcollected

theorem Opens.receivedLen {byLocal : Bool} (h : c.Opens byLocal id s) :
    c.receivedLen id = s.recv.len := by
  have origin := h.origin
  obtain ⟨deadline, priority, now, m, hopen⟩ := h
  unfold Connection.receivedLen
  cases origin with
  | live live =>
    rw [live]
    rfl
  | fresh vacant _ _ _ =>
    obtain ⟨-, rfl⟩ := StreamMap.getOrCreate_fresh vacant hopen
    rw [vacant]
    rfl

/-- The peer has opened a stream that it may open, so there is room for it. -/
theorem peerOpened_lt (hsides : c.isServer = !peer.isServer) (hcounts : c.Counts)
    (hpeerCounts : peer.Counts) (hc : c.Honors (c.terms peer)) (hpeer : peer.Honors (peer.terms c))
    (hremote : isLocal id c.isServer = false) (hopened : peer.streams.Opened id)
    (hfresh : ¬ c.streams.Opened id) :
    c.streams.peerOpenedStreams (isBidi id) < c.streams.localMaxStreams (isBidi id) := by
  obtain ⟨created, account, -⟩ := hcounts
  obtain ⟨created', account', own'⟩ := hpeerCounts
  have hserver : (!peer.isServer) = c.isServer := hsides.symm
  have hcounted' := own'.counted (isBidi id)
  have hle := (own'.opened_le (isBidi id)).trans (hpeer.peerMax (isBidi id))
  rw [hcounted', hserver] at hle
  rw [account.counted (isBidi id)]
  refine lt_of_lt_of_le ?_ hle
  unfold StreamMap.History.opened
  -- the streams that the peer has opened here, and this one, are among those that it has opened
  let peers := StreamMap.isPeers c.isServer (isBidi id)
  have hsub : id :: created.filter peers ⊆ created'.filter peers := by
    intro i hi
    rcases List.mem_cons.mp hi with rfl | hi
    · refine List.mem_filter.mpr ⟨(account'.mem_created i).mpr hopened, ?_⟩
      simp [peers, StreamMap.isPeers, hremote]
    · obtain ⟨hi, hpeers⟩ := List.mem_filter.mp hi
      refine List.mem_filter.mpr ⟨(account'.mem_created i).mpr ?_, hpeers⟩
      refine hc.opened i ?_ ((account.mem_created i).mp hi)
      simp only [peers, StreamMap.isPeers, Bool.and_eq_true, Bool.not_eq_true'] at hpeers
      exact hpeers.1
  have hnodup : (id :: created.filter peers).Nodup := by
    refine List.nodup_cons.mpr ⟨fun hi => hfresh ?_, account.once.filter _⟩
    exact (account.mem_created id).mp (List.mem_filter.mp hi).1
  have hlength := (List.subperm_of_subset hnodup hsub).length_le
  rw [List.length_cons] at hlength
  rw [List.countP_eq_length_filter, List.countP_eq_length_filter]
  exact hlength

/-- A frame within the terms is refused for its credit only by the limit of the connection. -/
theorem Refusal.credit_of_within {f : Frame} {now : ℕ} {e : Error} (h : c.Refusal now f e)
    (hwithin : f.Within (peer.terms c) peer)
    (hroom : ∀ id, isLocal id c.isServer = false → peer.streams.Opened id →
      ¬ c.streams.Opened id →
        c.streams.peerOpenedStreams (isBidi id) < c.streams.localMaxStreams (isBidi id)) :
    e ≠ .streamLimit ∧ (e = .flowControl → c.maxRxData < c.rxData + f.charge c) := by
  cases h with
  | direction _ _ => exact ⟨Error.noConfusion, Error.noConfusion⟩
  | @noStream f id e about hopen =>
    obtain ⟨hvacant, ⟨-, rfl⟩ | ⟨-, rfl⟩ | ⟨hremote, hcollected, rfl, hcount⟩⟩ :=
      StreamMap.getOrCreate_error hopen
    · exact ⟨Error.noConfusion, Error.noConfusion⟩
    · exact ⟨Error.noConfusion, Error.noConfusion⟩
    · -- the frame is within the terms, so the peer has opened the stream
      have hopened : peer.streams.Opened id := by
        cases f with
        | stream _ _ | maxStreamData _ _ =>
          cases about
          exact hwithin.1
        | resetStream _ _ _ | blockInfo _ _ _ _ _ =>
          cases about
          exact hwithin
        | _ => cases about
      have hlt := hroom id hremote.symm hopened fun hid => hid.elim (absurd hvacant) hcollected
      dsimp only at hcount
      rw [← hremote] at hcount
      refine absurd hlt (not_lt.mpr ?_)
      unfold StreamMap.countOpened at hcount
      cases hbidi : isBidi id <;> rw [hbidi] at hcount <;> dsimp only at hcount <;>
        split_ifs at hcount with hlimit <;> exact hlimit
  | window hexcess => exact ⟨Error.noConfusion, fun _ => hexcess⟩
  | @size id data s e opens hsize =>
    -- the data is within the window of the stream
    have hgrant : data.maxOff ≤ s.recv.maxData := hwithin.2 _ opens.window
    unfold RecvBuf.checkSize at hsize
    rw [if_neg (not_lt.mpr hgrant)] at hsize
    split_ifs at hsize <;> cases hsize <;> exact ⟨Error.noConfusion, Error.noConfusion⟩
  | drained _ _ => exact ⟨Error.noConfusion, Error.noConfusion⟩
  | finalSize _ _ hreset =>
    unfold RecvBuf.reset at hreset
    split_ifs at hreset <;> cases hreset <;> exact ⟨Error.noConfusion, Error.noConfusion⟩
  | @credit id code finalSize s recv recv' credit opens shutdown hreset hexcess =>
    refine ⟨Error.noConfusion, fun _ => ?_⟩
    -- a shutdown does not change what was received
    have hlen : recv.len = s.recv.len := by
      split_ifs at shutdown
      · unfold RecvBuf.shutdown at shutdown
        split_ifs at shutdown
        cases shutdown
        rfl
      · cases shutdown
        rfl
    have hcredit : credit = finalSize - recv.len := by
      unfold RecvBuf.reset at hreset
      split_ifs at hreset
      cases hreset
      rfl
    rwa [Frame.charge, opens.receivedLen, ← hlen, ← hcredit]

/-- A new connection keeps to the terms of any peer. -/
theorem new_honors (config : Config) (isServer afterRetry : Bool) (now : ℕ)
    (hrange : config.localTransportParams.InRange) (peer : Connection) :
    Packing.Honors ⟨new config isServer afterRetry now, .new 0⟩
      ((new config isServer afterRetry now).terms peer) where
  sound := (new_sound config isServer afterRetry now).1
  conn :=
    { isServer := rfl
      localParams := rfl
      peerParams := .inl rfl
      streams := fun id s hs => by cases hs
      opened := fun id _ hid => hid.elim (absurd rfl) fun hid => absurd hid List.not_mem_nil
      peerMax := fun bidi => by cases bidi <;> exact Nat.zero_le _
      localMax := fun bidi => by cases bidi <;> exact le_rfl
      localNext := fun bidi => by
        cases bidi
        · exact ⟨le_rfl, hrange.maxUni⟩
        · exact ⟨le_rfl, hrange.maxBidi⟩ }
  frames f hf := by
    rcases hf with ⟨e, ⟨_, hp, _⟩ | hf | hf⟩ | hf
    · cases hp
    · cases hf
    · cases hf
    · cases hf

private theorem new_counts (config : Config) (isServer afterRetry : Bool) (now : ℕ)
    (hrange : config.localTransportParams.InRange) :
    (new config isServer afterRetry now).Counts :=
  ⟨[], .new hrange.maxBidi hrange.maxUni config.scheduler, .new _ _ config.scheduler⟩

end Connection

/-! ### Two parties -/

namespace Duplex

/-- Two parties, whose parameters are numbers of 64 bits, after some calls. -/
def ReachableInRange (l : Link Party Message) : Prop :=
  ∃ config afterRetry now labels, (∀ side, (config side).localTransportParams.InRange) ∧
    run (Link.step party) (start config afterRetry now) labels = some l

variable {l : Link Party Message}

theorem ReachableInRange.reachable (h : ReachableInRange l) : Reachable l := by
  obtain ⟨config, afterRetry, now, labels, -, hrun⟩ := h
  exact ⟨config, afterRetry, now, labels, hrun⟩

theorem ReachableInRange.holds (h : ReachableInRange l) : Party.credit_contract.Holds l := by
  obtain ⟨config, afterRetry, now, labels, hrange, hrun⟩ := h
  refine Party.credit_contract.run (Party.credit_contract.start (fun side => ?_) fun side => ?_)
    hrun
  · exact ⟨Connection.new_counts _ _ _ _ (hrange side), hrange side⟩
  · refine ⟨?_, _, Connection.new_honors _ _ _ _ (hrange side) _⟩
    cases side <;> rfl

theorem sample_reachableInRange {labels : List (Side × Call)} (h : sample labels = some l) :
    ReachableInRange l :=
  ⟨_, _, _, labels, fun _ => ⟨by decide, by decide, by decide, by decide, by decide⟩, h⟩

/-- What a party believes that it may send on a stream was granted by the other one, and so were
the streams that it has opened. -/
theorem ReachableInRange.credit_granted (h : ReachableInRange l) (side : Side) :
    (∀ id s, (l.state side).conn.streams.streams id = some s →
      s.send.off ≤ s.send.maxData ∧ (l.state side.other).conn.Grants id s.send.maxData) ∧
      ∀ bidi, (l.state side).conn.streams.localOpenedStreams bidi ≤
        (l.state side.other).conn.streams.localMaxStreams bidi := by
  have holds := h.holds
  obtain ⟨d, hhonors⟩ := (holds.knows side).terms
  obtain ⟨created, -, own⟩ := (holds.inv side).streams
  refine ⟨fun id s hs => ?_, fun bidi => ?_⟩
  · have hstream := hhonors.conn.streams id s hs
    exact ⟨hstream.room, hstream.credit⟩
  · exact (own.opened_le bidi).trans (hhonors.conn.peerMax bidi)

/-- The client believes that it may send the 50 bytes that the server announces. -/
theorem credit_granted_exchanged : ∃ l, sample exchange = some l ∧
    ((∀ id s, (l.state .left).conn.streams.streams id = some s →
      s.send.off ≤ s.send.maxData ∧ (l.state .right).conn.Grants id s.send.maxData) ∧
      ∀ bidi, (l.state .left).conn.streams.localOpenedStreams bidi ≤
        (l.state .right).conn.streams.localMaxStreams bidi) ∧
    ((l.state .left).conn.streams.streams 0).map (fun s => s.send.maxData) = some 50 := by
  have hrun : (sample exchange).any (fun l =>
      ((l.state .left).conn.streams.streams 0).map (fun s => s.send.maxData) == some 50) =
          true := by
    decide +kernel
  obtain ⟨l, hl, hmax⟩ := (Option.any_eq_true _ _).mp hrun
  exact ⟨l, hl, (sample_reachableInRange hl).credit_granted .left, eq_of_beq hmax⟩

/-- A frame about a stream never exceeds the limits that were set for streams, whatever the
network does; it is refused for its credit only if the limit of the connection is exceeded. -/
theorem ReachableInRange.credit_kept (h : ReachableInRange l) (side : Side) {f : Frame}
    (hsent : .frame f ∈ l.wire side.other) (hf : f.about ≠ none) (epoch : Epoch) (env : Env) :
    (Connection.processFrame f epoch env).Ends (l.state side).conn (fun _ _ => True)
      fun e _ => e ≠ .error .streamLimit ∧ (e = .error .flowControl →
        (l.state side).conn.maxRxData <
          (l.state side).conn.rxData + f.charge (l.state side).conn) := by
  have holds := h.holds
  have hother := holds.knows side.other
  have hsaid := holds.said side.other _ hsent
  rw [Side.other_other] at hother hsaid
  obtain ⟨d, hhonors⟩ := (holds.knows side).terms
  obtain ⟨d', hpeer⟩ := hother.terms
  have hroom (id : ℕ) (hremote : isLocal id (l.state side).conn.isServer = false)
      (hopened : (l.state side.other).conn.streams.Opened id) :=
    Connection.peerOpened_lt (holds.knows side).sides (holds.inv side).streams
      (holds.inv side.other).streams hhonors.conn hpeer.conn hremote hopened
  refine (Connection.processFrame_refusal hf epoch env fun id s opens =>
    ((h.reachable.holds.knows side).origin opens.origin).wf).mono (fun _ _ => id) fun e c he => ?_
  obtain ⟨err, rfl, hrefusal⟩ := he
  obtain ⟨hlimit, hexcess⟩ := hrefusal.credit_of_within hsaid hroom
  exact ⟨fun heq => hlimit (Fault.error.inj heq), fun heq => hexcess (Fault.error.inj heq)⟩

theorem credit_kept_exchanged : ∃ l, sample exchange = some l ∧
    (Connection.processFrame (.stream 0 ⟨[1, 2, 3], 0, true⟩) .application (Sample.env 3)).Ends
      (l.state .right).conn (fun _ _ => True) fun e _ => e ≠ .error .streamLimit ∧
        (e = .error .flowControl →
          (l.state .right).conn.maxRxData < (l.state .right).conn.rxData + 3) := by
  have hrun : (sample exchange).any (fun l =>
      decide (.frame (.stream 0 ⟨[1, 2, 3], 0, true⟩) ∈ l.wire .left)) = true := by decide +kernel
  obtain ⟨l, hl, hsent⟩ := (Option.any_eq_true _ _).mp hrun
  have hsent := of_decide_eq_true hsent
  have hreach := sample_reachableInRange hl
  exact ⟨l, hl, hreach.credit_kept .right hsent (Option.some_ne_none 0) _ _⟩

end Duplex

end Dtp
