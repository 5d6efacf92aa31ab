import Dtp.Refusals
import Dtp.Scripts
import Dtp.StreamLimits

/-!
# The terms between a connection and its peer

The peer of a connection takes data of each stream up to some offset, and lets the connection
open some streams. A connection that honors these terms never believes that it may send more,
and its frames name no other streams and offsets. What it grants to its peer in turn only grows.

## Main definitions

* `Connection.Grants` — the offsets up to which a connection takes data of a stream
* `Terms` — what a connection is bound to
* `Connection.Honors`, `Packing.Honors` — the terms are kept
* `Connection.Raises` — more is granted to the peer

## Main results

* `Connection.Honors.put`, `Connection.Honors.edit`, `Connection.Honors.collectIf` — the terms are
  kept as streams are changed, cancelled and collected
* `Connection.processFrame_minds`, `Connection.doHandshake_minds` — and as the limits change
-/

namespace Dtp

open Lib (Program)

/-! ### Limits -/

/-- The number of streams of a direction that an endpoint lets its peer open at first. -/
def TransportParams.initialMaxStreams (params : TransportParams) (bidi : Bool) : ℕ :=
  if bidi then params.initialMaxStreamsBidi else params.initialMaxStreamsUni

/-- The first limit for received data of a stream, by the parameters of this endpoint. -/
def initialWindow (isServer : Bool) (params : TransportParams) (id : ℕ) : ℕ :=
  (StreamMap.initialLimits params params (isLocal id isServer) (isBidi id)).1

/-- The first limit for sent data of a stream, by the parameters of the peer. -/
def initialCredit (isServer : Bool) (params : TransportParams) (id : ℕ) : ℕ :=
  (StreamMap.initialLimits params params (isLocal id isServer) (isBidi id)).2

/-- A stream is local to one of the two endpoints. -/
theorem isLocal_not (id : ℕ) (isServer : Bool) : isLocal id (!isServer) = !isLocal id isServer := by
  have := Nat.mod_lt id (by decide : 0 < 2)
  cases isServer <;> simp only [isLocal, Bool.not_true, Bool.not_false, Bool.toNat_false,
    Bool.toNat_true] <;> rcases Nat.mod_two_eq_zero_or_one id with h | h <;> rw [h] <;> rfl

/-- One endpoint may send at first what the other one takes. -/
theorem initialCredit_eq (isServer : Bool) (params : TransportParams) (id : ℕ) :
    initialCredit isServer params id = initialWindow (!isServer) params id := by
  unfold initialCredit initialWindow
  rw [isLocal_not]
  cases isLocal id isServer <;> cases isBidi id <;> rfl

private theorem initialCredit_default (isServer : Bool) (id : ℕ) :
    initialCredit isServer Connection.defaultParams id = 0 := by
  unfold initialCredit
  cases isLocal id isServer <;> cases isBidi id <;> rfl

private theorem initialLimits_eq (isServer : Bool) (own peers : TransportParams) (id : ℕ) :
    StreamMap.initialLimits own peers (isLocal id isServer) (isBidi id) =
      (initialWindow isServer own id, initialCredit isServer peers id) := by
  unfold initialWindow initialCredit
  cases isLocal id isServer <;> cases isBidi id <;> rfl

namespace StreamMap

/-- The stream exists, or it existed. -/
def Opened (m : StreamMap) (id : ℕ) : Prop := m.streams id ≠ none ∨ id ∈ m.collected

/-- The number of streams of a direction that this endpoint may open. -/
def peerMaxStreams (m : StreamMap) (bidi : Bool) : ℕ :=
  if bidi then m.peerMaxStreamsBidi else m.peerMaxStreamsUni

/-- What the peer allows stays. -/
theorem SameLimits.peerMax {m m' : StreamMap} (h : m.SameLimits m') (bidi : Bool) :
    m'.peerMaxStreams bidi = m.peerMaxStreams bidi := by
  cases bidi
  · exact h.peerMaxUni
  · exact h.peerMaxBidi

/-- What the peer is allowed stays. -/
theorem SameLimits.localMax {m m' : StreamMap} (h : m.SameLimits m') (bidi : Bool) :
    m'.localMaxStreams bidi = m.localMaxStreams bidi := by
  cases bidi
  · exact h.localMaxUni
  · exact h.localMaxBidi

/-- What the peer is to be allowed stays. -/
theorem SameLimits.localNext {m m' : StreamMap} (h : m.SameLimits m') (bidi : Bool) :
    m'.localMaxStreamsNext bidi = m.localMaxStreamsNext bidi := by
  cases bidi
  · exact h.localNextUni
  · exact h.localNextBidi

/-- A stream that is created has its first limits, and belongs to the side that asks for it. -/
theorem getOrCreate_fresh {m m' : StreamMap} {id : ℕ} {args : OpenArgs} {s : Stream}
    (hvacant : m.streams id = none) (h : m.getOrCreate id args = .ok (s, m')) :
    args.isLocal = isLocal id args.isServer ∧
      s = .newFull (initialWindow args.isServer args.localParams id)
        (initialCredit args.isServer args.peerParams id) (isBidi id) args.isLocal args.deadline
        args.priority args.now := by
  cases getOrCreate_opening h with
  | live live => cases hvacant.symm.trans live
  | fresh _ side _ _ stream =>
    refine ⟨side, ?_⟩
    rw [stream, side, initialLimits_eq]

end StreamMap

namespace Connection

/-- The offset up to which data of a stream is taken; all of it is ignored once the stream is
collected. -/
def window (c : Connection) (id : ℕ) : Option ℕ :=
  match c.streams.streams id with
  | some s => some s.recv.maxData
  | none =>
    if id ∈ c.streams.collected then none
    else some (initialWindow c.isServer c.localTransportParams id)

/-- Data of the stream up to the offset `n` is not refused. -/
def Grants (c : Connection) (id n : ℕ) : Prop := ∀ w, c.window id = some w → n ≤ w

/-- More is granted, and more streams are open. -/
structure Raises (c c' : Connection) : Prop where
  grants : ∀ id n, c.Grants id n → c'.Grants id n
  opened : ∀ id, c.streams.Opened id → c'.streams.Opened id
  localMax : ∀ bidi, c.streams.localMaxStreams bidi ≤ c'.streams.localMaxStreams bidi

instance : IsPreorder Connection Raises where
  refl _ := ⟨fun _ _ h => h, fun _ h => h, fun _ => le_rfl⟩
  trans _ _ _ h h' := ⟨fun id n hn => h'.grants id n (h.grants id n hn),
    fun id hid => h'.opened id (h.opened id hid),
    fun bidi => (h.localMax bidi).trans (h'.localMax bidi)⟩

end Connection

/-! ### Buffers -/

namespace RecvBuf

variable {r r' : RecvBuf}

/-- The limits that the peer knows, and will know, are the same. -/
def SameWindow (r r' : RecvBuf) : Prop :=
  r'.maxData = r.maxData ∧ r'.maxDataNext = r.maxDataNext

theorem SameWindow.refl (r : RecvBuf) : r.SameWindow r := ⟨rfl, rfl⟩

private theorem insertLoop_sameWindow {goodUntil : ℤ} {now fuel : ℕ} {buf : RangeBuf}
    (h : insertLoop goodUntil now fuel r buf = .ok r') : r.SameWindow r' := by
  induction fuel generalizing r buf with
  | zero => cases h
  | succ fuel ih =>
    rw [insertLoop] at h
    split_ifs at h
    split at h
    · cases h
      exact .refl _
    · cases h
      exact ⟨rfl, rfl⟩
    · obtain ⟨hmax, hnext⟩ := ih h
      exact ⟨hmax, hnext⟩

/-- Data does not open the window. -/
theorem pushWith_sameWindow {goodUntil : ℤ} {now : ℕ} {buf : RangeBuf}
    (h : r.pushWith goodUntil buf now = .ok r') : r.SameWindow r' := by
  have hnote : r.SameWindow (r.noteFin buf) := by
    unfold noteFin
    split_ifs <;> exact ⟨rfl, rfl⟩
  rcases r.pushCase goodUntil buf now with ⟨e, -, heq⟩ | ⟨-, -, heq⟩ | ⟨-, -, -, -, heq⟩
  · rw [heq] at h
    cases h
  · rw [heq] at h
    cases h
    exact hnote
  · have hloop := insertLoop_sameWindow (heq.symm.trans h)
    exact ⟨hloop.1.trans hnote.1, hloop.2.trans hnote.2⟩

/-- The window stays when the buffer is shut down. -/
theorem shutdown_sameWindow (h : r.shutdown = .ok r') : r.SameWindow r' := by
  unfold shutdown at h
  split_ifs at h
  cases h
  exact ⟨rfl, rfl⟩

/-- The window stays when the stream is reset. -/
theorem reset_sameWindow {finalSize credit : ℕ} (h : r.reset finalSize = .ok (credit, r')) :
    r.SameWindow r' := by
  unfold reset at h
  split_ifs at h
  cases h
  exact ⟨rfl, rfl⟩

end RecvBuf

/-! ### Terms -/

/-- What a connection is bound to, with its own parameters. -/
structure Terms where
  isServer : Bool
  localParams : TransportParams
  peerParams : TransportParams
  /-- The peer takes data of a stream up to this offset. -/
  grants : ℕ → ℕ → Prop
  /-- The number of streams of a direction that the peer lets the connection open. -/
  maxStreams : Bool → ℕ
  /-- The streams that the peer has opened. -/
  opened : ℕ → Prop

/-- The peer grants at least what its parameters announce. -/
structure Terms.Valid (T : Terms) : Prop where
  anti : ∀ id n n', n ≤ n' → T.grants id n' → T.grants id n
  credit : ∀ id, T.grants id (initialCredit T.isServer T.peerParams id)
  maxStreams : ∀ bidi, T.peerParams.initialMaxStreams bidi ≤ T.maxStreams bidi
  window_le : ∀ id, initialWindow T.isServer T.localParams id ≤ u64Max

/-- The limits of a stream are in order, and the one for sent data is granted. -/
structure Stream.Honors (s : Stream) (T : Terms) (id : ℕ) : Prop where
  window : initialWindow T.isServer T.localParams id ≤ s.recv.maxData
  next : s.recv.maxData ≤ s.recv.maxDataNext
  next_le : s.recv.maxDataNext ≤ u64Max
  room : s.send.off ≤ s.send.maxData
  credit : T.grants id s.send.maxData

namespace Stream

variable {s : Stream} {T : Terms} {id : ℕ}

/-- The receiving side changes, but not its limits. -/
theorem Honors.sameWindow {recv : RecvBuf} (h : s.Honors T id) (same : s.recv.SameWindow recv) :
    Honors { s with recv := recv } T id where
  window := same.1.symm ▸ h.window
  next := by
    rw [same.1, same.2]
    exact h.next
  next_le := same.2.symm ▸ h.next_le
  room := h.room
  credit := h.credit

/-- What is read raises the next limit. -/
theorem Honors.popRecv {recv : RecvBuf} (h : s.Honors T id) {cap : ℕ} {out : List UInt8}
    {fin : Bool} (hpop : s.recv.pop cap = .ok (out, fin, recv)) :
    Honors { s with recv := recv } T id := by
  have hmax := RecvBuf.pop_maxData hpop
  have hnext := RecvBuf.pop_maxDataNext hpop
  unfold saturatingAdd at hnext
  have hle := h.next
  have hle' := h.next_le
  refine ⟨?_, ?_, ?_, h.room, h.credit⟩ <;> dsimp only
  · exact hmax.symm ▸ h.window
  · omega
  · omega

/-- The next limit is announced. -/
theorem Honors.updateMaxData (h : s.Honors T id) :
    Honors { s with recv := s.recv.updateMaxData.2 } T id where
  window := h.window.trans h.next
  next := le_rfl
  next_le := h.next_le
  room := h.room
  credit := h.credit

/-- The sending side changes within its limit. -/
theorem Honors.sameMax {send : SendBuf} (h : s.Honors T id) (hmax : send.maxData = s.send.maxData)
    (hroom : send.off ≤ send.maxData) : Honors { s with send := send } T id where
  window := h.window
  next := h.next
  next_le := h.next_le
  room := hroom
  credit := hmax ▸ h.credit

/-- The terms are about offsets and limits. -/
theorem Honors.sameSend {send : SendBuf} (h : s.Honors T id) (hoff : send.off = s.send.off)
    (hmax : send.maxData = s.send.maxData) : Honors { s with send := send } T id :=
  h.sameMax hmax (by rw [hoff, hmax]; exact h.room)

/-- The peer raises the limit. -/
theorem Honors.raise (h : s.Honors T id) {max : ℕ} (hmax : T.grants id max) :
    Honors { s with send := s.send.updateMaxData max } T id where
  window := h.window
  next := h.next
  next_le := h.next_le
  room := h.room.trans (le_max_left _ _)
  credit := by
    have hcredit := h.credit
    change T.grants id (Max.max s.send.maxData max)
    rcases le_total s.send.maxData max with hle | hle
    · rwa [max_eq_right hle]
    · rwa [max_eq_left hle]

/-- As much is written as the limit allows. -/
theorem Honors.written (h : s.Honors T id) (wf : s.send.WF) {data : List UInt8} {fin : Bool}
    {n : ℕ} {send : SendBuf} (hpush : SendBuf.pushSlice data fin s.send = .ok n send) :
    Honors { s with send := send } T id := by
  cases (SendBuf.pushSlice_ends data fin wf.fin).ok hpush with
  | dropped _ => exact h
  | stored _ hn extended =>
    refine h.sameMax extended.rest.maxData ?_
    have hroom := h.room
    rw [extended.off, extended.rest.maxData, hn]
    unfold SendBuf.cap
    omega

end Stream

/-- The connection is within the terms. -/
structure Connection.Honors (c : Connection) (T : Terms) : Prop where
  isServer : c.isServer = T.isServer
  localParams : c.localTransportParams = T.localParams
  peerParams : c.peerTransportParams = Connection.defaultParams ∨
    c.peerTransportParams = T.peerParams
  streams : ∀ id s, c.streams.streams id = some s → s.Honors T id
  /-- The streams of the peer were opened by it. -/
  opened : ∀ id, isLocal id T.isServer = false → c.streams.Opened id → T.opened id
  peerMax : ∀ bidi, c.streams.peerMaxStreams bidi ≤ T.maxStreams bidi
  localMax : ∀ bidi, T.localParams.initialMaxStreams bidi ≤ c.streams.localMaxStreams bidi
  localNext : ∀ bidi, c.streams.localMaxStreams bidi ≤ c.streams.localMaxStreamsNext bidi ∧
    c.streams.localMaxStreamsNext bidi ≤ u64Max

/-- A frame that the connection has sent is within the terms, and its limits are granted. -/
def Frame.Within (T : Terms) (c : Connection) : Frame → Prop
  | .stream id data => c.streams.Opened id ∧ T.grants id data.maxOff
  | .resetStream id _ _ | .blockInfo id _ _ _ _ => c.streams.Opened id
  | .maxStreamData id max => c.streams.Opened id ∧ c.Grants id max
  | .maxStreamsBidi max => max ≤ c.streams.localMaxStreams true
  | .maxStreamsUni max => max ≤ c.streams.localMaxStreams false
  | _ => True

/-- A frame of the peer agrees with the terms. -/
def Frame.Agrees (T : Terms) : Frame → Prop
  | .stream id _ | .resetStream id _ _ | .blockInfo id _ _ _ _ => T.opened id
  | .maxStreamData id max => T.opened id ∧ T.grants id max
  | .maxStreamsBidi max => max ≤ T.maxStreams true
  | .maxStreamsUni max => max ≤ T.maxStreams false
  | _ => True

/-- The handshake hands over the parameters of the peer. -/
def HandshakeStep.Agrees (T : Terms) (hs : HandshakeStep) : Prop :=
  ∀ params, hs.outcome = .finished (.ok params) → params = T.peerParams

/-- The connection, what it has sent and the packet it puts together are within the terms. -/
structure Packing.Honors (p : Packing) (T : Terms) : Prop where
  sound : p.Sound
  conn : p.conn.Honors T
  frames : ∀ f, p.Has f → f.Within T p.conn

/-- Frames that claim nothing are within the terms. -/
theorem Frame.within_of_silent {T : Terms} {c : Connection} {f : Frame} (h : f.isSilent = true) :
    f.Within T c := by
  cases f <;> trivial

theorem Frame.Within.mono {T : Terms} {c c' : Connection} {f : Frame} (h : f.Within T c)
    (hraises : c.Raises c') : f.Within T c' := by
  cases f with
  | stream id data => exact ⟨hraises.opened id h.1, h.2⟩
  | resetStream id _ _ => exact hraises.opened id h
  | blockInfo id _ _ _ _ => exact hraises.opened id h
  | maxStreamData id max => exact ⟨hraises.opened id h.1, hraises.grants id max h.2⟩
  | maxStreamsBidi max => exact h.trans (hraises.localMax true)
  | maxStreamsUni max => exact h.trans (hraises.localMax false)
  | _ => trivial

namespace Connection

variable {c c' : Connection} {T : Terms} {id : ℕ} {s s' : Stream} {m : StreamMap}

/-! ### Streams -/

/-- A stream that is opened has the limits of the terms. -/
theorem Honors.opens (h : c.Honors T) (valid : T.Valid) {byLocal : Bool}
    (opens : c.Opens byLocal id s) : s.Honors T id := by
  obtain ⟨deadline, priority, now, m, hopen⟩ := opens
  cases hlive : c.streams.streams id with
  | some s₀ =>
    obtain ⟨rfl, -⟩ := StreamMap.getOrCreate_live hlive hopen
    exact h.streams id s hlive
  | none =>
    obtain ⟨-, hs⟩ := StreamMap.getOrCreate_fresh hlive hopen
    dsimp only at hs
    rw [hs, h.isServer, h.localParams]
    refine ⟨le_rfl, le_rfl, valid.window_le id, Nat.zero_le _, ?_⟩
    rcases h.peerParams with hparams | hparams
    · rw [hparams, initialCredit_default]
      exact valid.anti id _ _ (Nat.zero_le _) (valid.credit id)
    · rw [hparams]
      exact valid.credit id

/-- The application opens only streams of this endpoint. -/
theorem Opens.opened_or_local (h : c.Opens true id s) :
    c.streams.Opened id ∨ isLocal id c.isServer = true := by
  obtain ⟨deadline, priority, now, m, hopen⟩ := h
  cases hlive : c.streams.streams id with
  | some s₀ => exact .inl (.inl (by rw [hlive]; exact Option.some_ne_none s₀))
  | none => exact .inr (StreamMap.getOrCreate_fresh hlive hopen).1.symm

/-- The streams and the limits matter, and whose connection it is. -/
structure SameTerms (c c' : Connection) : Prop where
  isServer : c'.isServer = c.isServer
  localParams : c'.localTransportParams = c.localTransportParams
  peerParams : c'.peerTransportParams = c.peerTransportParams

/-- The window of a stream that is there. -/
theorem window_of_live (live : c.streams.streams id = some s) :
    c.window id = some s.recv.maxData := by
  unfold window
  rw [live]

/-- One stream is changed, or created. -/
theorem Honors.put (h : c.Honors T) {queued : Bool} (origin : c.streams.Origin id s)
    (hs : s.Honors T id) (hs' : s'.Honors T id) (hmono : s.recv.maxData ≤ s'.recv.maxData)
    (hopened : c.streams.Opened id ∨ isLocal id T.isServer = true ∨ T.opened id)
    (same : c.SameTerms c') (updated : c.streams.Updated id s' queued c'.streams) :
    c'.Honors T ∧ c.Raises c' := by
  have hlive : c'.streams.streams id = some s' := by
    rw [updated.streams, StreamMap.put_streams_self]
  have hne {i : ℕ} (hi : i ≠ id) : c'.streams.streams i = c.streams.streams i := by
    rw [updated.streams, StreamMap.put_streams_of_ne _ _ hi]
  refine ⟨⟨same.isServer.trans h.isServer, same.localParams.trans h.localParams, ?_, ?_, ?_,
    ?_, ?_, ?_⟩, ?_, ?_, ?_⟩
  · rw [same.peerParams]
    exact h.peerParams
  · intro i si hi
    rcases eq_or_ne i id with rfl | hi'
    · rw [hlive] at hi
      cases hi
      exact hs'
    · exact h.streams i si (hne hi' ▸ hi)
  · intro i hremote hi
    unfold StreamMap.Opened at hi
    rcases eq_or_ne i id with rfl | hi'
    · rcases hopened with hopened | hlocal | hopened
      · exact h.opened i hremote hopened
      · rw [hremote] at hlocal
        cases hlocal
      · exact hopened
    · rw [hne hi', updated.collected] at hi
      exact h.opened i hremote hi
  · exact fun bidi => updated.limits.peerMax bidi ▸ h.peerMax bidi
  · exact fun bidi => updated.limits.localMax bidi ▸ h.localMax bidi
  · intro bidi
    rw [updated.limits.localMax, updated.limits.localNext]
    exact h.localNext bidi
  · intro i n hn w hw
    rcases eq_or_ne i id with rfl | hi'
    · rw [window_of_live hlive] at hw
      cases hw
      -- the window of the stream grows from what it was
      refine le_trans ?_ hmono
      cases origin with
      | live hold => exact hn _ (window_of_live hold)
      | fresh hnone hnot _ _ =>
        refine (hn (initialWindow c.isServer c.localTransportParams i) ?_).trans ?_
        · unfold window
          rw [hnone]
          exact if_neg hnot
        · rw [h.isServer, h.localParams]
          exact hs.window
    · refine hn w ?_
      unfold window at hw ⊢
      rwa [hne hi', updated.collected, same.isServer, same.localParams] at hw
  · intro i hi
    unfold StreamMap.Opened at *
    rcases eq_or_ne i id with rfl | hi'
    · exact .inl (by rw [hlive]; exact Option.some_ne_none s')
    · rwa [hne hi', updated.collected]
  · exact fun bidi => (updated.limits.localMax bidi).ge

/-- Some streams are changed, and none is created or collected. -/
theorem Honors.edit (h : c.Honors T) (same : c.SameTerms c')
    (hstreams : ∀ i, c'.streams.streams i = c.streams.streams i ∨
      ∃ s s', c.streams.streams i = some s ∧ c'.streams.streams i = some s' ∧
        s'.recv = s.recv ∧ s'.send.off = s.send.off ∧ s'.send.maxData = s.send.maxData)
    (hcollected : c'.streams.collected = c.streams.collected)
    (limits : c.streams.SameLimits c'.streams) : c'.Honors T ∧ c.Raises c' := by
  have hopened (i : ℕ) : c'.streams.Opened i ↔ c.streams.Opened i := by
    unfold StreamMap.Opened
    rw [hcollected]
    rcases hstreams i with heq | ⟨s, s', hs, hs', -⟩
    · rw [heq]
    · rw [hs, hs']
      simp
  have hwindow (i : ℕ) : c'.window i = c.window i := by
    unfold window
    rw [hcollected, same.isServer, same.localParams]
    rcases hstreams i with heq | ⟨s, s', hs, hs', hrecv, -, -⟩
    · rw [heq]
    · rw [hs, hs']
      dsimp only
      rw [hrecv]
  refine ⟨⟨same.isServer.trans h.isServer, same.localParams.trans h.localParams, ?_, ?_, ?_,
    ?_, ?_, ?_⟩, ?_, ?_, ?_⟩
  · rw [same.peerParams]
    exact h.peerParams
  · intro i si hi
    rcases hstreams i with heq | ⟨s, s', hs, hs', hrecv, hoff, hmax⟩
    · exact h.streams i si (heq ▸ hi)
    · rw [hs'] at hi
      cases hi
      have hold := h.streams i s hs
      refine ⟨?_, ?_, ?_, ?_, ?_⟩
      · exact hrecv ▸ hold.window
      · exact hrecv ▸ hold.next
      · exact hrecv ▸ hold.next_le
      · rw [hoff, hmax]
        exact hold.room
      · exact hmax ▸ hold.credit
  · exact fun i hremote hi => h.opened i hremote ((hopened i).mp hi)
  · exact fun bidi => limits.peerMax bidi ▸ h.peerMax bidi
  · exact fun bidi => limits.localMax bidi ▸ h.localMax bidi
  · intro bidi
    rw [limits.localMax, limits.localNext]
    exact h.localNext bidi
  · intro i n hn w hw
    exact hn w (hwindow i ▸ hw)
  · exact fun i hi => (hopened i).mpr hi
  · exact fun bidi => (limits.localMax bidi).ge

/-- Neither streams nor limits change. -/
theorem Honors.same (h : c.Honors T) (same : c.SameTerms c')
    (hstreams : c'.streams.streams = c.streams.streams)
    (hcollected : c'.streams.collected = c.streams.collected)
    (limits : c.streams.SameLimits c'.streams) : c'.Honors T ∧ c.Raises c' :=
  h.edit same (fun i => .inl (by rw [hstreams])) hcollected limits

/-- Where nothing moves, the terms are honored. -/
theorem Honors.unmoved (h : c.Honors T) (unmoved : c.Unmoved c') : c'.Honors T ∧ c.Raises c' :=
  h.same ⟨unmoved.isServer, unmoved.localParams, unmoved.peerParams⟩ (by rw [unmoved.streams])
    (by rw [unmoved.streams]) (by rw [unmoved.streams]; exact .refl _)

/-- Blocks are cancelled. -/
theorem Honors.cancels (h : c.Honors T) (hm : c.streams.Cancels m) :
    (c.setStreams m).Honors T ∧ c.Raises (c.setStreams m) := by
  refine h.edit ⟨rfl, rfl, rfl⟩ (fun i => ?_) hm.collected hm.limits
  refine (hm.streams i).imp_right ?_
  rintro ⟨s, hs, hs'⟩
  exact ⟨s, _, hs, hs', rfl, rfl, rfl⟩

/-- A live stream may be collected. -/
theorem Honors.collectIf (h : c.Honors T) (live : c.streams.streams id ≠ none) (done local_ : Bool)
    (same : c.SameTerms c')
    (hstreams : c'.streams = if done then c.streams.collect id local_ else c.streams) :
    c'.Honors T ∧ c.Raises c' := by
  cases done with
  | false =>
    have heq : c'.streams = c.streams := hstreams
    exact h.unmoved ⟨heq, same.isServer, same.localParams, same.peerParams⟩
  | true =>
    replace hstreams : c'.streams = c.streams.collect id local_ := hstreams
    -- a collected stream was opened
    have hopened (i : ℕ) : c'.streams.Opened i ↔ c.streams.Opened i := by
      unfold StreamMap.Opened
      rw [hstreams, StreamMap.collect_streams, StreamMap.collect_collected]
      rcases eq_or_ne i id with rfl | hne
      · simp [live]
      · simp [hne]
    -- at most the next limit grows by one
    have hlimits (bidi : Bool) : c'.streams.peerMaxStreams bidi = c.streams.peerMaxStreams bidi ∧
        c'.streams.localMaxStreams bidi = c.streams.localMaxStreams bidi ∧
          (c'.streams.localMaxStreamsNext bidi = c.streams.localMaxStreamsNext bidi ∨
            c'.streams.localMaxStreamsNext bidi =
              saturatingAdd (c.streams.localMaxStreamsNext bidi) 1) := by
      rw [hstreams]
      unfold StreamMap.collect
      cases local_ <;> cases isBidi id <;> cases bidi <;>
        simp [StreamMap.peerMaxStreams, StreamMap.localMaxStreams, StreamMap.localMaxStreamsNext]
    refine ⟨⟨same.isServer.trans h.isServer, same.localParams.trans h.localParams, ?_, ?_, ?_,
      ?_, ?_, ?_⟩, ?_, ?_, ?_⟩
    · rw [same.peerParams]
      exact h.peerParams
    · intro i s hs
      rw [hstreams, StreamMap.collect_streams] at hs
      split_ifs at hs
      exact h.streams i s hs
    · exact fun i hremote hi => h.opened i hremote ((hopened i).mp hi)
    · exact fun bidi => (hlimits bidi).1 ▸ h.peerMax bidi
    · exact fun bidi => (hlimits bidi).2.1 ▸ h.localMax bidi
    · intro bidi
      obtain ⟨-, hmax, hnext⟩ := hlimits bidi
      obtain ⟨hle, hle'⟩ := h.localNext bidi
      rw [hmax]
      rcases hnext with hnext | hnext <;> rw [hnext]
      · exact ⟨hle, hle'⟩
      · unfold saturatingAdd
        omega
    · intro i n hn w hw
      unfold window at hw
      rw [hstreams, StreamMap.collect_streams, StreamMap.collect_collected] at hw
      rcases eq_or_ne i id with rfl | hne
      · simp at hw
      · refine hn w ?_
        unfold window
        simpa [hne, same.isServer, same.localParams] using hw
    · exact fun i hi => (hopened i).mpr hi
    · exact fun bidi => (hlimits bidi).2.1.ge

/-! ### Connections -/

/-- The terms are kept, and what is granted only grows. -/
def Minds (T : Terms) (c c' : Connection) : Prop := c.Honors T → c'.Honors T ∧ c.Raises c'

instance : IsPreorder Connection (Minds T) where
  refl c h := ⟨h, refl_of Raises c⟩
  trans c c' c'' h h' hc := by
    obtain ⟨hc', hraises⟩ := h hc
    obtain ⟨hc'', hraises'⟩ := h' hc'
    exact ⟨hc'', trans_of Raises hraises hraises'⟩

/-- Where nothing moves, the terms are minded. -/
theorem Unmoved.minds (h : c.Unmoved c') : c.Minds T c' := fun hc => hc.unmoved h

theorem Minds.refl (c : Connection) : c.Minds T c := refl_of (Minds T) c

/-- The peer lets this endpoint open more streams. -/
theorem minds_peerMax (same : c'.isServer = c.isServer ∧
      c'.localTransportParams = c.localTransportParams)
    (hparams : c'.peerTransportParams = c.peerTransportParams ∨
      c'.peerTransportParams = T.peerParams)
    (hstreams : c'.streams.streams = c.streams.streams)
    (hcollected : c'.streams.collected = c.streams.collected)
    (hlocal : ∀ bidi, c'.streams.localMaxStreams bidi = c.streams.localMaxStreams bidi ∧
      c'.streams.localMaxStreamsNext bidi = c.streams.localMaxStreamsNext bidi)
    (hpeer : ∀ bidi, c'.streams.peerMaxStreams bidi ≤
      max (c.streams.peerMaxStreams bidi) (T.maxStreams bidi)) : c.Minds T c' := by
  intro h
  have hopened (i : ℕ) : c'.streams.Opened i ↔ c.streams.Opened i := by
    unfold StreamMap.Opened
    rw [hstreams, hcollected]
  refine ⟨⟨same.1.trans h.isServer, same.2.trans h.localParams, ?_, ?_, ?_, ?_, ?_, ?_⟩, ?_, ?_, ?_⟩
  · rcases hparams with hparams | hparams
    · rw [hparams]
      exact h.peerParams
    · exact .inr hparams
  · exact fun i s hs => h.streams i s (hstreams ▸ hs)
  · exact fun i hremote hi => h.opened i hremote ((hopened i).mp hi)
  · exact fun bidi => (hpeer bidi).trans (max_le (h.peerMax bidi) le_rfl)
  · exact fun bidi => (hlocal bidi).1 ▸ h.localMax bidi
  · intro bidi
    rw [(hlocal bidi).1, (hlocal bidi).2]
    exact h.localNext bidi
  · intro i n hn w hw
    refine hn w ?_
    unfold window at hw ⊢
    rwa [hstreams, hcollected, same.1, same.2] at hw
  · exact fun i hi => (hopened i).mpr hi
  · exact fun bidi => (hlocal bidi).1.ge

/-- The limits that the handshake brings are those of the terms. -/
theorem doHandshake_minds (valid : T.Valid) {hs : HandshakeStep} (hagrees : hs.Agrees T)
    (c : Connection) : (doHandshake hs).Keeps (Minds T) c := by
  have hmoves {c' c'' : Connection} (h : c.Minds T c') (hsame : c'.Unmoved c'') : c.Minds T c'' :=
    trans_of (Minds T) h hsame.minds
  refine doHandshake_keeps
    { write := fun _ _ _ _ c' _ h => hmoves h { Unmoved.refl c' with }
      full := fun _ h _ => h
      keys := fun c' h => hmoves h { Unmoved.refl c' with }
      failed := fun _ _ _ h _ => h
      noProtocol := fun c' h _ => hmoves h { Unmoved.refl c' with }
      refused := fun _ _ _ h _ => h
      params := fun params c' houtcome h => trans_of (Minds T) h ?_ }
  have hparams := hagrees params houtcome
  refine minds_peerMax ⟨rfl, rfl⟩ (.inr hparams) rfl rfl (fun bidi => ?_) fun bidi => ?_
  · cases bidi <;> exact ⟨rfl, rfl⟩
  · have hle := valid.maxStreams bidi
    rw [← hparams] at hle
    cases bidi
    · exact max_le_max le_rfl hle
    · exact max_le_max le_rfl hle

private theorem readCrypto_unmoved (epoch : Epoch) (fuel : ℕ) (c : Connection) :
    (readCrypto epoch fuel).Keeps Unmoved c := by
  induction fuel generalizing c with
  | zero => exact .refl c
  | succ fuel ih =>
    rw [readCrypto, Program.keeps_get_bind]
    dsimp only
    split
    · exact .refl c
    · refine .bind (Program.keeps_set.mpr ?_) fun _ c _ => ih c
      exact { Unmoved.refl c with }

private theorem processCrypto_minds (valid : T.Valid) {env : Env} (hagrees : env.handshake.Agrees T)
    (data : RangeBuf) (epoch : Epoch) (c : Connection) :
    (processCrypto data epoch env).Keeps (Minds T) c := by
  rw [processCrypto, Program.keeps_get_bind]
  dsimp only
  split
  · exact fun _ => .refl c
  · refine .bind (Program.keeps_set.mpr (Unmoved.minds { Unmoved.refl c with })) fun _ c _ => ?_
    refine .bind ((readCrypto_unmoved epoch _ c).mono fun _ h => h.minds) fun _ c _ => ?_
    exact doHandshake_minds valid hagrees c

private theorem processAck_unmoved (packetTime ackDelay : ℕ) (ranges : RangeSet) (epoch : Epoch)
    (env : Env)
    (c : Connection) : (processAck packetTime ackDelay ranges epoch env).Keeps Unmoved c := by
  rw [processAck, Program.keeps_get_bind]
  refine .ite (fun _ => Program.keeps_fail.mpr (.refl c)) fun _ => ?_
  split
  · exact fun _ => .refl c
  · rename_i r _
    refine .ite (fun _ => Program.keeps_set.mpr ?_) fun _ => { Unmoved.refl c with }
    refine trans_of Unmoved ?_ (dropEpochState_unmoved _ _ _)
    exact { Unmoved.refl c with }

/-- The frames that are not about a single stream. -/
theorem processFrame_minds (valid : T.Valid) {f : Frame} (hcalm : f.isCalm = true)
    (hf : f.Agrees T) {env : Env} (hagrees : env.handshake.Agrees T) (epoch : Epoch)
    (c : Connection) : (processFrame f epoch env).Keeps (Minds T) c := by
  have hsame : c.Minds T c := .refl c
  cases f with
  | stream _ _ => cases hcalm
  | resetStream _ _ _ => cases hcalm
  | blockInfo _ _ _ _ _ => cases hcalm
  | maxStreamData _ _ => cases hcalm
  | ack packetTime ackDelay ranges =>
    exact (processAck_unmoved packetTime ackDelay ranges epoch env c).mono fun _ h => h.minds
  | crypto data => exact processCrypto_minds valid hagrees data epoch c
  | stopSending streamId _ =>
    refine Program.keeps_get_bind.mpr (.ite (fun _ => ?_) fun _ => hsame)
    exact Program.keeps_fail.mpr hsame
  | maxStreamsBidi max =>
    refine .ite (fun _ => Program.keeps_fail.mpr hsame) fun _ => ?_
    refine minds_peerMax ⟨rfl, rfl⟩ (.inl rfl) rfl rfl (fun bidi => ?_) fun bidi => ?_
    · cases bidi <;> exact ⟨rfl, rfl⟩
    · cases bidi
      · exact le_max_left _ _
      · exact max_le_max le_rfl hf
  | maxStreamsUni max =>
    refine .ite (fun _ => Program.keeps_fail.mpr hsame) fun _ => ?_
    refine minds_peerMax ⟨rfl, rfl⟩ (.inl rfl) rfl rfl (fun bidi => ?_) fun bidi => ?_
    · cases bidi <;> exact ⟨rfl, rfl⟩
    · cases bidi
      · exact max_le_max le_rfl hf
      · exact le_max_left _ _
  | handshakeDone =>
    refine Program.keeps_get_bind.mpr (.ite (fun _ => Program.keeps_fail.mpr hsame) fun _ => ?_)
    refine .ite (fun _ => Program.keeps_fail.mpr hsame) fun _ => Unmoved.minds ?_
    refine trans_of Unmoved ?_ (dropEpochState_unmoved _ _ _)
    exact { Unmoved.refl c with }
  | maxData _ | pathChallenge _ | connectionClose _ _ _ | applicationClose _ _ =>
    exact Unmoved.minds { Unmoved.refl c with }
  | padding _ | ping | newToken _ | dataBlocked _ | streamDataBlocked _ _ | streamsBlockedBidi _
  | streamsBlockedUni _ | newConnectionId _ _ _ _ | retireConnectionId _ | pathResponse _
  | fec _ _ => exact hsame

end Connection

end Dtp
