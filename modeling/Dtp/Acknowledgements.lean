import Dtp.Spaces

/-!
# Acknowledging received packets

An endpoint keeps the numbers of the packets that it processed until an ACK frame about
them is acked in turn. What it forgets then is everything up to the largest number of that
frame, also a number that arrived after the frame was written and was never listed. An ACK
frame is never empty: the set of numbers is only cut while a packet is processed, whose own
number is added next.

## Main definitions

* `Connection.ackedRanges` — the acked ACK frame that is processed next
* `Receiver` — a connection with the packets it processed and the ACK frames that were acked
* `Receiver.Acknowledges` — every processed packet waits, or was listed in such a frame

## Main results

* `Receiver.acknowledgesUpTo` — every processed packet waits, or a frame went up to it
* `Connection.Reachable.fillsAcks` — an ACK frame that is written is not empty
-/

namespace Dtp

open Lib (Program run)

namespace Connection

/-! ### Acked ACK frames -/

/-- The ranges of the next acked frame, if that is an ACK frame. -/
def ackedRanges (c : Connection) (epoch : Epoch) : Option RangeSet :=
  match c.recovery.acked epoch with
  | .ack _ _ ranges :: _ => some ranges
  | _ => none

theorem popAcked_rests {epoch : Epoch} {c : Connection} {frame : Frame} {frames : List Frame}
    (h : c.recovery.acked epoch = frame :: frames) :
    c.Rests
      (c.setRecovery { c.recovery with acked := Epoch.update c.recovery.acked epoch frames }) :=
  { Rests.refl c with
    forgets := .of_eq rfl rfl
    moves := (popAcked_calm h).moves
    lightens := Recovery.lightens_of_eq rfl rfl }

/-- Without acknowledged ACK frames, nothing is forgotten. -/
theorem takeAcked_of_none {epoch : Epoch} {c : Connection} (h : c.ackedRanges epoch = none) :
    c.Rests (takeAcked epoch c) := by
  unfold ackedRanges at h
  unfold takeAcked
  cases hacked : c.recovery.acked epoch with
  | nil => exact .refl c
  | cons frame frames =>
    rw [hacked] at h
    refine trans_of Rests (popAcked_rests hacked) (processAcked_rests ?_ _)
    rintro packetTime ackDelay ranges rfl
    cases h

/-- With an acknowledged ACK frame, the ranges up to its largest number are forgotten. -/
theorem takeAcked_of_some {epoch : Epoch} {c : Connection} {ranges : RangeSet}
    (h : c.ackedRanges epoch = some ranges) : ∃ c₁, c.Rests c₁ ∧ takeAcked epoch c =
      match ranges.largest with
      | none => c₁
      | some largest => c₁.modifySpace epoch fun s =>
        { s with recvPktNeedAck := s.recvPktNeedAck.removeUntil largest } := by
  unfold ackedRanges at h
  unfold takeAcked
  cases hacked : c.recovery.acked epoch with
  | nil =>
    rw [hacked] at h
    cases h
  | cons frame frames =>
    rw [hacked] at h
    cases frame with
    | ack packetTime ackDelay ranges' =>
      obtain rfl : ranges' = ranges := Option.some.inj h
      refine ⟨_, popAcked_rests hacked, ?_⟩
      cases hlargest : ranges'.largest with
      | none => simp only [processAcked, hlargest]
      | some largest => simp only [processAcked, hlargest]
    | _ => cases h

/-- An acked frame lets the connection rest, apart from the packet numbers that need an ACK. -/
theorem takeAcked_upToNeedAck (epoch : Epoch) (c : Connection) :
    ∃ c₁ spaces, c.Rests c₁ ∧ takeAcked epoch c = { c₁ with pktNumSpaces := spaces } := by
  cases hranges : c.ackedRanges epoch with
  | none => exact ⟨takeAcked epoch c, _, takeAcked_of_none hranges, rfl⟩
  | some ranges =>
    obtain ⟨c₁, hc₁, heq⟩ := takeAcked_of_some hranges
    rw [heq]
    cases ranges.largest with
    | none => exact ⟨c₁, _, hc₁, rfl⟩
    | some largest => exact ⟨c₁, _, hc₁, rfl⟩

end Connection

/-! ### ACK frames are not empty -/

namespace Connection

/-- The numbers that wait are kept as canonical ranges, and the ACK frames that were sent are
not empty. -/
structure AcksFilled (c : Connection) : Prop where
  canonical : ∀ e, (c.pktNumSpaces e).recvPktNeedAck.Canonical
  sent : ∀ e packetTime ackDelay ranges, c.recovery.Has e (.ack packetTime ackDelay ranges) →
    ranges.isEmpty = false

/-- Where an ACK frame is owed or was sent, there is something to acknowledge. -/
structure AckJustified (c : Connection) (e : Epoch) : Prop where
  elicited : (c.pktNumSpaces e).ackElicited = true →
    (c.pktNumSpaces e).recvPktNeedAck.isEmpty = false
  sent : ∀ packetTime ackDelay ranges, c.recovery.Has e (.ack packetTime ackDelay ranges) →
    (c.pktNumSpaces e).recvPktNeedAck.isEmpty = false

/-- No ACK frame is empty, nor will be. -/
structure AcksSound (c : Connection) : Prop where
  filled : c.AcksFilled
  justified : ∀ e, c.AckJustified e

section Sound

variable {c c' : Connection} {e epoch : Epoch}

/-- What is to be acknowledged stays filled. -/
theorem AcksFilled.steady (h : c.AcksFilled) (hc : c.Steady c') : c'.AcksFilled where
  canonical e := by
    rw [hc.recvPktNeedAck]
    exact h.canonical e
  sent e _ _ _ hhas := h.sent e _ _ _ (hc.moves e _ hhas)

/-- What is to be acknowledged stays justified. -/
theorem AckJustified.steady (h : c.AckJustified e) (hc : c.Steady c') : c'.AckJustified e where
  elicited helicited := by
    rw [hc.recvPktNeedAck]
    exact h.elicited (hc.ackElicited e helicited)
  sent _ _ _ hhas := by
    rw [hc.recvPktNeedAck]
    exact h.sent _ _ _ (hc.moves e _ hhas)

/-- What is to be acknowledged stays sound. -/
theorem AcksSound.steady (h : c.AcksSound) (hc : c.Steady c') : c'.AcksSound :=
  ⟨h.filled.steady hc, fun e => (h.justified e).steady hc⟩

theorem AcksSound.of_eq (h : c.AcksSound) (hspaces : c'.pktNumSpaces = c.pktNumSpaces)
    (hrecovery : c'.recovery = c.recovery) : c'.AcksSound where
  filled :=
    { canonical := by
        rw [hspaces]
        exact h.filled.canonical
      sent := by
        rw [hrecovery]
        exact h.filled.sent }
  justified e :=
    { elicited := by
        rw [hspaces]
        exact (h.justified e).elicited
      sent := by
        rw [hspaces, hrecovery]
        exact (h.justified e).sent }

/-- Where something waits, an ACK frame is justified. -/
theorem ackJustified_of_nonempty (h : (c.pktNumSpaces e).recvPktNeedAck.isEmpty = false) :
    c.AckJustified e := ⟨fun _ => h, fun _ _ _ _ => h⟩

/-- The ranges of an epoch change, and stay canonical. -/
theorem AcksFilled.modifySpace (h : c.AcksFilled) {f : PktNumSpace → PktNumSpace}
    (hf : ∀ s, s.recvPktNeedAck.Canonical → (f s).recvPktNeedAck.Canonical) :
    (c.modifySpace epoch f).AcksFilled where
  canonical e := by
    rcases eq_or_ne e epoch with rfl | hne
    · rw [modifySpace_same]
      exact hf _ (h.canonical e)
    · rw [modifySpace_of_ne c f hne]
      exact h.canonical e
  sent := h.sent

/-- The ranges of other epochs stay. -/
theorem AckJustified.modifySpace_of_ne (h : c.AckJustified e) (hne : e ≠ epoch)
    (f : PktNumSpace → PktNumSpace) : (c.modifySpace epoch f).AckJustified e where
  elicited := by
    rw [Connection.modifySpace_of_ne c f hne]
    exact h.elicited
  sent := by
    rw [Connection.modifySpace_of_ne c f hne]
    exact h.sent

/-- Processing an acked frame may leave nothing to acknowledge in the epoch of the frame. -/
theorem takeAcked_sound (hfilled : c.AcksFilled) (hother : ∀ e, e ≠ epoch → c.AckJustified e) :
    (takeAcked epoch c).AcksFilled ∧ ∀ e, e ≠ epoch → (takeAcked epoch c).AckJustified e := by
  cases hranges : c.ackedRanges epoch with
  | none =>
    have hc := (takeAcked_of_none hranges).toSteady
    exact ⟨hfilled.steady hc, fun e hne => (hother e hne).steady hc⟩
  | some ranges =>
    obtain ⟨c₁, hrests, heq⟩ := takeAcked_of_some hranges
    have hc := hrests.toSteady
    rw [heq]
    cases ranges.largest with
    | none => exact ⟨hfilled.steady hc, fun e hne => (hother e hne).steady hc⟩
    | some largest =>
      refine ⟨(hfilled.steady hc).modifySpace fun s hs => (hs.removeUntil largest).1,
        fun e hne => ?_⟩
      exact ((hother e hne).steady hc).modifySpace_of_ne hne _

/-- The packet itself is what must be acknowledged next. -/
theorem received_sound (pkt : RxPacket) (hfilled : c.AcksFilled)
    (hother : ∀ e, e ≠ epoch → c.AckJustified e) : (received pkt epoch c).AcksSound := by
  have hrecorded : (c.modifySpace epoch pkt.record).AcksSound := by
    refine ⟨hfilled.modifySpace fun s hs => (hs.pushItem pkt.pktNum).1, fun e => ?_⟩
    rcases eq_or_ne e epoch with rfl | hne
    · refine ackJustified_of_nonempty ?_
      rw [modifySpace_same]
      obtain ⟨hcanonical, hhas⟩ := (hfilled.canonical e).pushItem pkt.pktNum
      have hmem : (pkt.record (c.pktNumSpaces e)).recvPktNeedAck.Has pkt.pktNum :=
        (hhas _).mpr (.inr rfl)
      exact Bool.eq_false_iff.mpr fun hempty => hcanonical.isEmpty_iff.mp hempty _ hmem
    · exact (hother e hne).modifySpace_of_ne hne _
  exact (hrecorded.steady (received_rests pkt epoch c).toSteady).of_eq rfl rfl

/-- What is acknowledged when an ACK frame is due is not empty. -/
theorem Acks.nonempty {ranges : RangeSet} (h : c.Acks epoch ranges) (hc : c.AckJustified epoch) :
    ranges.isEmpty = false := h.ranges ▸ h.due.elim hc.elicited id

/-- The frames of a packet that is recorded. -/
theorem recorded_sound {room written : ℕ} {env : SendEnv} {q : Packing} (h : c.AcksSound)
    (hq : Packing.Within epoch ⟨c, .new room⟩ q) : (q.recorded epoch written env).AcksSound := by
  have hconn : q.conn.AcksSound := h.steady hq.conn.steady
  have hframes (packetTime ackDelay : ℕ) (ranges : RangeSet)
      (hmem : .ack packetTime ackDelay ranges ∈ q.draft.frames) : c.Acks epoch ranges := by
    obtain ⟨fs, hfs, hacks, -⟩ := hq.frames
    rw [hfs, List.mem_append] at hmem
    exact hmem.elim nofun (hacks _ _ _)
  have hsent :
    (q.conn.setRecovery (q.conn.recovery.onPacketSent (q.toSent epoch written env.instant)
      epoch env.instant)).AcksSound := by
    refine ⟨⟨hconn.filled.canonical, fun e packetTime ackDelay ranges hhas => ?_⟩, fun e =>
      ⟨(hconn.justified e).elicited, fun packetTime ackDelay ranges hhas => ?_⟩⟩
    · rcases Recovery.has_onPacketSent hhas with hhas | hmem
      · exact hconn.filled.sent e _ _ _ hhas
      · exact (hframes _ _ _ hmem).nonempty (h.justified epoch)
    · rcases eq_or_ne e epoch with rfl | hne
      · rcases Recovery.has_onPacketSent hhas with hhas | hmem
        · exact (hconn.justified e).sent _ _ _ hhas
        · have hacks := hframes _ _ _ hmem
          exact hq.conn.recvPktNeedAck ▸ hacks.ranges ▸ hacks.nonempty (h.justified e)
      · exact (hconn.justified e).sent _ _ _ (Recovery.has_onPacketSent_of_ne hne hhas)
  exact (hsent.steady (recorded_rests epoch written env q).toSteady).of_eq rfl rfl

/-- What leaves the ranges alone leaves them sound. -/
theorem maintains_sound {α : Type} {x : Program Error Connection α} (h : Resting x) :
    Program.Maintains AcksSound (fun _ => AcksSound) x := fun c hc =>
  (h c c (.refl c)).mono (fun _ _ hs => hc.steady hs.toSteady) fun _ _ hs => hc.steady hs.toSteady

private theorem recvSingle_sound (pkt : RxPacket) :
    Program.Maintains AcksSound (fun _ => AcksSound) (recvSingle pkt) := by
  refine Program.maintains_get_bind fun c hc => Program.ends_ite.mpr ⟨fun _ => hc, fun _ => ?_⟩
  cases pkt.ty.toEpoch with
  | none => exact hc
  | some epoch =>
    refine Program.ends_ite.mpr ⟨fun _ => hc, fun _ => ?_⟩
    refine Program.Maintains.bind (maintains_sound (acceptHeader_resting pkt)) (fun _ => ?_) c hc
    refine Program.maintains_get_bind fun c hc => Program.ends_ite.mpr ⟨fun _ => hc, fun _ =>
      Program.ends_ite.mpr ⟨fun _ => hc, fun _ => ?_⟩⟩
    refine Program.Maintains.bind (maintains_sound (processFrames_resting _ _ epoch))
      (fun _ => ?_) c hc
    refine .bind (maintains_sound (processFrames_resting _ _ epoch)) fun _ c hc => ?_
    -- between the acked frames, the epoch of the packet may have nothing to acknowledge
    have hloop (frames : List Frame) : Program.Maintains
        (fun c => c.AcksFilled ∧ ∀ e, e ≠ epoch → c.AckJustified e) (fun _ => AcksSound)
        (forM frames fun _ => modify (takeAcked epoch) : Program Error Connection PUnit) := by
      refine .forM (fun _ => ?_) frames
      exact Program.maintains_modify fun c hc => takeAcked_sound hc.1 hc.2
    have hdrain : Program.Maintains (fun c => c.AcksFilled ∧ ∀ e, e ≠ epoch → c.AckJustified e)
        (fun _ => AcksSound) (drainAcked epoch) := Program.maintains_get_bind fun c hc =>
          hloop _ c hc
    exact (hdrain c ⟨hc.filled, fun e _ => hc.justified e⟩).bind fun _ c hc =>
      received_sound pkt hc.1 hc.2

/-- Every part of a call keeps the ranges sound. -/
theorem calls_sound : Calls AcksSound where
  write _ _ _ _ _ _ := maintains_sound (streamSendFull_streaming _ _ _ _ _ _).resting
  read _ _ := maintains_sound (streamRecv_streaming _ _).resting
  shutdown _ _ := maintains_sound (streamShutdown_streaming _ _).resting
  single := recvSingle_sound
  timeout env c hc := hc.steady (onTimeout_rests c env).toSteady
  other _ _ _ _ _ _ hc := hc.of_eq rfl rfl

/-- The parts of `send` lead from sound states to sound states. -/
theorem sendParts_sound : SendParts fun c c' => c.AcksSound → c'.AcksSound where
  handshake hs c := ((doHandshake_resting hs).keeps c).mono fun _ hs hc => hc.steady hs.toSteady
  lost epoch c := by
    refine (takeLost_tookBack epoch c).mono fun c' hs hc => ?_
    cases hs with
    | rests h => exact hc.steady h.toSteady
    | stream _ h => exact (hc.steady h.toSteady).of_eq rfl rfl
    | ack lost h =>
      have hne := (hc.justified epoch).sent _ _ _ (.inr (.inl lost))
      have hc₁ := hc.steady h.toSteady
      refine ⟨hc₁.filled.modifySpace fun _ => id, fun e => ?_⟩
      rcases eq_or_ne e epoch with rfl | hother
      · refine ackJustified_of_nonempty ?_
        rwa [modifySpace_same, h.recvPktNeedAck]
      · exact (hc₁.justified e).modifySpace_of_ne hother _
  clearLost epoch c hc := hc.steady (clearLost_rests epoch c).toSteady
  packet epoch room headerLen pnLen avail env c _ := by
    refine (packet_putTogether epoch room headerLen pnLen avail env c).mono fun c' hs hc => ?_
    cases hs with
    | unsent within => exact hc.steady within.conn.steady
    | sent within canSeal => exact recorded_sound hc within

/-- There is nothing to acknowledge yet. -/
theorem new_acksSound (config : Config) (isServer afterRetry : Bool) (now : ℕ) :
    (new config isServer afterRetry now).AcksSound :=
  ⟨⟨fun _ => RangeSet.canonical_empty, nofun⟩, fun _ => ⟨nofun, nofun⟩⟩

/-- In reachable states, what is to be acknowledged is sound. -/
theorem Reachable.acksSound (h : c.Reachable) : c.AcksSound :=
  calls_sound.reachable sendParts_sound.send new_acksSound h

/-- The preparation of a packet keeps the ranges sound. -/
theorem Prepares.acksSound {outLen pnLen : ℕ} {env : SendEnv} {c₀ c₁ : Connection}
    (h : c.Prepares outLen env c₀ epoch pnLen c₁) (hc : c.AcksSound) : c₁.AcksSound := by
  have hhandshake : (Program.when (!c.isClosing) (doHandshake env.handshake)).Keeps
      (fun c c' => c.AcksSound → c'.AcksSound) c :=
    .when fun _ => sendParts_sound.handshake env.handshake c
  exact (sendParts_sound.drainLost epoch c₀).ok h.drain (hhandshake.ok h.handshake hc)

/-- Where an ACK frame is justified, its length can be computed. -/
theorem writeAck_returns (env : SendEnv) (draft : Draft) (h : c.AckJustified epoch) :
    ∃ p, Packing.writeAck epoch env ⟨c, draft⟩ = .ok () p := by
  have hends : (Packing.writeAck epoch env).Ends ⟨c, draft⟩ (fun _ _ => True) fun _ _ => False := by
    rw [Packing.writeAck, Program.ends_bind, Program.ends_get]
    refine Program.ends_ite.mpr ⟨fun hdue => ?_, fun _ => trivial⟩
    have hmeasurable : (Frame.ack env.packetTime env.ackDelay
        (c.pktNumSpaces epoch).recvPktNeedAck).measurable = true := by
      have hne : (c.pktNumSpaces epoch).recvPktNeedAck.isEmpty = false :=
        hdue.elim h.elicited fun hratio => by simpa using hratio.1
      simp [Frame.measurable, hne]
    simp [Packing.tryFrame, Packing.addFrame, Packing.modifyDraft, Packing.modifyConn, hmeasurable]
  unfold Program.Ends at hends
  split at hends
  · exact ⟨_, ‹_›⟩
  · exact hends.elim

end Sound

/-- The ACK frames that `send`, or its copy that lists the blocks, builds are not empty. -/
structure FillsAcks (c : Connection) : Prop where
  /-- Where an ACK frame is owed, there is something to acknowledge. -/
  owed : ∀ e, (c.pktNumSpaces e).ackElicited = true →
    (c.pktNumSpaces e).recvPktNeedAck.isEmpty = false
  /-- The length of an ACK frame that is due can be computed. -/
  returns : ∀ outLen env c₀ epoch pnLen c₁ draft, c.Prepares outLen env c₀ epoch pnLen c₁ →
    ∃ p, Packing.writeAck epoch env ⟨c₁, draft⟩ = .ok () p
  /-- The peer finds a largest number in every ACK frame. -/
  listed : ∀ outLen env epoch c₁ pkt written c', c.Sends outLen env epoch c₁ pkt written c' →
    ∀ packetTime ackDelay ranges, .ack packetTime ackDelay ranges ∈ pkt.frames →
      ranges = (c₁.pktNumSpaces epoch).recvPktNeedAck ∧ ranges.isEmpty = false ∧
        ranges.largest.isSome

/-- The frames of a packet come from the state in which it was filled. -/
theorem Sends.acks {outLen written : ℕ} {env : SendEnv} {c c₁ c' : Connection} {epoch : Epoch}
    {pkt : Sent}
    (h : c.Sends outLen env epoch c₁ pkt written c') {packetTime ackDelay : ℕ} {ranges : RangeSet}
    (hmem : .ack packetTime ackDelay ranges ∈ pkt.frames) : c₁.Acks epoch ranges := by
  obtain ⟨c₀, pnLen, filled, padded, sealed, p', -, built, -, rfl⟩ := h.packed
  obtain ⟨fs, hframes, hacks, -⟩ := built.within.frames
  have hmem : .ack packetTime ackDelay ranges ∈ sealed.draft.frames := hmem
  rw [hframes, List.mem_append] at hmem
  exact hmem.elim nofun (hacks _ _ _)

/-- In every reachable state, an ACK frame that is built lists something. -/
theorem Reachable.fillsAcks {c : Connection} (hc : c.Reachable) : c.FillsAcks where
  owed e := (hc.acksSound.justified e).elicited
  returns _ env _ epoch _ _ draft hprep :=
    writeAck_returns env draft ((hprep.acksSound hc.acksSound).justified epoch)
  listed outLen env epoch c₁ pkt written c' hsends packetTime ackDelay ranges hmem := by
    have hacks := hsends.acks hmem
    obtain ⟨c₀, pnLen, hprep⟩ := hsends.prepares
    have hne := hacks.nonempty ((hprep.acksSound hc.acksSound).justified epoch)
    exact ⟨hacks.ranges, hne, RangeSet.largest_isSome hne⟩

/-- A client that owes an ACK frame. -/
theorem fillsAcks_client : ∃ c : Connection, c.Reachable ∧ c.FillsAcks ∧
    (c.pktNumSpaces .application).ackElicited = true := by
  let owes (c : Connection) : Bool := (c.pktNumSpaces .application).ackElicited
  have hrun : (Sample.client (.basic {}) [Sample.recv 0 [.ping] 1]).any owes = true := by
    decide +kernel
  obtain ⟨c, hc, howes⟩ := (Option.any_eq_true _ _).mp hrun
  have hreachable := Sample.client_reachable hc
  exact ⟨c, hreachable, hreachable.fillsAcks, howes⟩

/-! ### Received packets wait -/

/-- The same packets wait for their acknowledgement. -/
def SameNeedAck (c c' : Connection) : Prop :=
  ∀ e, (c'.pktNumSpaces e).recvPktNeedAck = (c.pktNumSpaces e).recvPktNeedAck

theorem Rests.sameNeedAck {c c' : Connection} (h : c.Rests c') :
    c.SameNeedAck c' := h.recvPktNeedAck

theorem sameNeedAck_of_resting {α : Type} {x : Program Error Connection α} (h : Resting x)
    (c : Connection) : x.Keeps SameNeedAck c := (h.keeps c).mono fun _ hc => hc.recvPktNeedAck

private theorem sameNeedAck_of_eq {c c' : Connection} (h : c'.pktNumSpaces = c.pktNumSpaces) :
    c.SameNeedAck c' :=
  fun e => by rw [h]

end Connection

/-- Only acked ACK frames and received packets change which packets wait. -/
theorem Part.keeps_sameNeedAck {part : Part} (hacked : ∀ epoch, part ≠ .acked epoch)
    (hreceived : ∀ pkt epoch, part ≠ .received pkt epoch) (c : Connection) :
    part.program.Keeps Connection.SameNeedAck c := by
  open Connection in
  cases part with
  | write streamId data fin deadline priority now =>
    exact (sameNeedAck_of_resting
      (streamSendFull_streaming streamId data fin deadline priority now).resting
      c).discard
  | read streamId cap =>
    exact (sameNeedAck_of_resting (streamRecv_streaming streamId cap).resting c).discard
  | shutdown streamId direction =>
    exact sameNeedAck_of_resting (streamShutdown_streaming streamId direction).resting c
  | close app err reason =>
    change (get >>= fun c => Program.ofExcept (c.close app err reason) >>= set).Keeps SameNeedAck c
    rw [Program.keeps_get_bind]
    cases hclose : c.close app err reason with
    | ok c' => exact (close_rests hclose).sameNeedAck
    | error e => exact Program.keeps_fail.mpr fun _ => rfl
  | setTail tailSize => exact sameNeedAck_of_eq rfl
  | timeout env => exact (onTimeout_rests c env).sameNeedAck
  | header pkt => exact sameNeedAck_of_resting (acceptHeader_resting pkt) c
  | frame f epoch env => exact sameNeedAck_of_resting (processFrame_resting f epoch env) c
  | acked epoch => exact absurd rfl (hacked epoch)
  | received pkt epoch => exact absurd rfl (hreceived pkt epoch)
  | credit len =>
    change SameNeedAck c (if c.verifiedPeerAddress then c else _)
    split_ifs
    · exact fun _ => rfl
    · exact fun _ => rfl
  | handshake step => exact sameNeedAck_of_resting (doHandshake_resting step) c
  | lost epoch =>
    -- a lost ACK frame is owed again, which lists no other number
    refine (takeLost_tookBack epoch c).mono fun c' h => ?_
    cases h with
    | rests h => exact h.sameNeedAck
    | stream _ h => exact h.recvPktNeedAck
    | ack _ h =>
      intro e
      rcases eq_or_ne e epoch with rfl | hne
      · rw [modifySpace_same]
        exact h.recvPktNeedAck e
      · rw [modifySpace_of_ne _ _ hne]
        exact h.recvPktNeedAck e
  | clearLost epoch => exact (clearLost_rests epoch c).sameNeedAck
  | packet epoch room headerLen pnLen avail env =>
    refine ((packet_putTogether epoch room headerLen pnLen avail env c).mono fun c' h => ?_).discard
    cases h with
    | unsent within => exact within.conn.steady.recvPktNeedAck
    | @sent _ written env q within _ =>
      intro e
      exact ((recorded_rests epoch written env q).recvPktNeedAck e).trans
        (within.conn.steady.recvPktNeedAck e)

/-- A connection, with the packets that it processed and the ACK frames of its own that were
acked. -/
structure Receiver where
  conn : Connection
  processed : Epoch → List ℕ
  confirmed : Epoch → List RangeSet

namespace Receiver

/-- A connection that has received nothing. -/
def new (c : Connection) : Receiver := ⟨c, fun _ => [], fun _ => []⟩

/-- A part of a call, with what it adds to the record. -/
def step (r : Receiver) (part : Part) : Option Receiver :=
  (Part.step r.conn part).map fun c =>
    match part with
    | .received pkt epoch =>
      { r with
        conn := c
        processed := Epoch.update r.processed epoch (pkt.pktNum :: r.processed epoch) }
    | .acked epoch =>
      match r.conn.ackedRanges epoch with
      | some ranges =>
        { r with
          conn := c
          confirmed := Epoch.update r.confirmed epoch (ranges :: r.confirmed epoch) }
      | none => { r with conn := c }
    | _ => { r with conn := c }

/-- Every processed packet waits for its acknowledgement, or an ACK frame that lists it was
acked. -/
def Acknowledges (r : Receiver) : Prop :=
  ∀ e n, n ∈ r.processed e → (r.conn.pktNumSpaces e).recvPktNeedAck.Has n ∨
    ∃ ranges ∈ r.confirmed e, ranges.Has n

/-- Every processed packet waits for its acknowledgement, or an ACK frame that goes up to it or
further was acked. -/
def AcknowledgesUpTo (r : Receiver) : Prop :=
  ∀ e n, n ∈ r.processed e → (r.conn.pktNumSpaces e).recvPktNeedAck.Has n ∨
    ∃ ranges ∈ r.confirmed e, ∃ largest, ranges.largest = some largest ∧ n ≤ largest

/-- The numbers that wait are canonical ranges, and none is forgotten too early. -/
structure Sound (r : Receiver) : Prop where
  canonical : ∀ e, (r.conn.pktNumSpaces e).recvPktNeedAck.Canonical
  acknowledges : r.AcknowledgesUpTo

section Sound

variable {r r' : Receiver} {epoch : Epoch}

/-- The record depends on the ranges only. -/
theorem Sound.of_sameNeedAck (h : r.Sound) {c : Connection} (hc : r.conn.SameNeedAck c) :
    Sound { r with conn := c } where
  canonical e := hc e ▸ h.canonical e
  acknowledges e n hn := by
    change RangeSet.Has (c.pktNumSpaces e).recvPktNeedAck n ∨ _
    rw [hc e]
    exact h.acknowledges e n hn

/-- A packet waits as soon as it is recorded. -/
theorem Sound.received (h : r.Sound) (pkt : Connection.RxPacket) (epoch : Epoch) :
    Sound { r with
      conn := Connection.received pkt epoch r.conn
      processed := Epoch.update r.processed epoch (pkt.pktNum :: r.processed epoch) } := by
  have hneed (e : Epoch) : ((Connection.received pkt epoch r.conn).pktNumSpaces e).recvPktNeedAck =
      ((r.conn.modifySpace epoch pkt.record).pktNumSpaces e).recvPktNeedAck :=
    (Connection.received_rests pkt epoch r.conn).recvPktNeedAck e
  obtain ⟨hcanonical, hhas⟩ := (h.canonical epoch).pushItem pkt.pktNum
  refine ⟨fun e => ?_, fun e n hn => ?_⟩
  all_goals
    dsimp only at *
    rw [hneed e]
    rcases eq_or_ne e epoch with rfl | hne
  · rw [Connection.modifySpace_same]
    exact hcanonical
  · rw [Connection.modifySpace_of_ne _ _ hne]
    exact h.canonical e
  · rw [Connection.modifySpace_same]
    rw [Epoch.update_same] at hn
    rcases List.mem_cons.mp hn with rfl | hn
    · exact .inl ((hhas _).mpr (.inr rfl))
    · exact (h.acknowledges e n hn).imp_left fun hwaits => (hhas n).mpr (.inl hwaits)
  · rw [Connection.modifySpace_of_ne _ _ hne]
    rw [Epoch.update_of_ne hne] at hn
    exact h.acknowledges e n hn

/-- What an acked ACK frame removes is covered by the largest number of the frame. -/
theorem Sound.acked (h : r.Sound) {ranges : RangeSet}
    (hranges : r.conn.ackedRanges epoch = some ranges) :
    Sound { r with
      conn := Connection.takeAcked epoch r.conn
      confirmed := Epoch.update r.confirmed epoch (ranges :: r.confirmed epoch) } := by
  obtain ⟨c₁, hc₁, heq⟩ := Connection.takeAcked_of_some hranges
  have hconfirmed (e : Epoch) : r.confirmed e ⊆
      Epoch.update r.confirmed epoch (ranges :: r.confirmed epoch) e := by
    rcases eq_or_ne e epoch with rfl | hne
    · rw [Epoch.update_same]
      exact List.subset_cons_self _ _
    · rw [Epoch.update_of_ne hne]
      exact List.Subset.refl _
  have h₁ := h.of_sameNeedAck hc₁.sameNeedAck
  -- what was processed still waits, or is covered by an ACK frame that was confirmed
  have hmore (e : Epoch) (n : ℕ) (hn : n ∈ r.processed e) :
      RangeSet.Has (c₁.pktNumSpaces e).recvPktNeedAck n ∨
        ∃ ranges' ∈ Epoch.update r.confirmed epoch (ranges :: r.confirmed epoch) e,
          ∃ largest, ranges'.largest = some largest ∧ n ≤ largest :=
    (h₁.acknowledges e n hn).imp_right fun ⟨ranges', hmem, hlargest⟩ =>
      ⟨ranges', hconfirmed e hmem, hlargest⟩
  rw [heq]
  cases hlargest : ranges.largest with
  | none => exact ⟨h₁.canonical, hmore⟩
  | some largest =>
    obtain ⟨hcanonical, hhas⟩ := (h₁.canonical epoch).removeUntil largest
    refine ⟨fun e => ?_, fun e n hn => ?_⟩
    all_goals
      dsimp only
      rcases eq_or_ne e epoch with rfl | hne
    · rw [Connection.modifySpace_same]
      exact hcanonical
    · rw [Connection.modifySpace_of_ne _ _ hne]
      exact h₁.canonical e
    · rw [Connection.modifySpace_same]
      refine (hmore e n hn).elim (fun hwaits => ?_) .inr
      -- numbers up to the largest one are forgotten, as the peer knows that they arrived
      by_cases hle : n ≤ largest
      · refine .inr ⟨ranges, ?_, largest, hlargest, hle⟩
        rw [Epoch.update_same]
        exact List.mem_cons_self
      · exact .inl ((hhas n).mpr ⟨hwaits, not_le.mp hle⟩)
    · rw [Connection.modifySpace_of_ne _ _ hne]
      exact hmore e n hn

/-- Every part keeps the record sound. -/
theorem Sound.step {part : Part} (h : r.Sound) (hstep : r.step part = some r') : r'.Sound := by
  obtain ⟨c, hc, rfl⟩ := Option.map_eq_some_iff.mp hstep
  have hother (hacked : ∀ epoch, part ≠ .acked epoch)
    (hreceived : ∀ pkt epoch, part ≠ .received pkt epoch) :
      Sound { r with conn := c } :=
    h.of_sameNeedAck
      (Program.keeps_iff_after.mp (Part.keeps_sameNeedAck hacked hreceived r.conn) c hc)
  cases part with
  | received pkt epoch =>
    obtain rfl : Connection.received pkt epoch r.conn = c := Option.some.inj hc
    exact h.received pkt epoch
  | acked epoch =>
    obtain rfl : Connection.takeAcked epoch r.conn = c := Option.some.inj hc
    dsimp only
    cases hranges : r.conn.ackedRanges epoch with
    | none => exact h.of_sameNeedAck (Connection.takeAcked_of_none hranges).sameNeedAck
    | some ranges => exact h.acked hranges
  | _ =>
    refine hother (fun epoch heq => ?_) fun pkt epoch heq => ?_
    all_goals cases heq

/-- Nothing is received yet. -/
theorem sound_new (config : Connection.Config) (isServer afterRetry : Bool) (now : ℕ) :
    (new (.new config isServer afterRetry now)).Sound :=
  ⟨fun _ => RangeSet.canonical_empty, nofun⟩

/-- In every run, a processed packet waits for its acknowledgement until an ACK frame that goes
up to it is acked. -/
theorem acknowledgesUpTo {config : Connection.Config} {isServer afterRetry : Bool} {now : ℕ}
    {parts : List Part}
    (hrun : run step (new (.new config isServer afterRetry now)) parts = some r) :
    r.AcknowledgesUpTo :=
  (Lib.run_invariant (fun _ _ _ h hstep => h.step hstep) (sound_new config isServer afterRetry now)
    hrun).acknowledges

end Sound

/-- A packet with the given frames. -/
def packet (pktNum : ℕ) (frames : List Frame) : Connection.RxPacket where
  ty := .short
  version := 0
  scidLen := 0
  pktNum := pktNum
  fecInfo := .none
  restored := []
  restoredError := none
  frames := frames.map fun f => (f, Sample.env 1)
  framesError := none
  now := 1

/-- Packet 1 arrives and is acknowledged, packet 0 arrives late, and then the peer's
acknowledgement of the ACK frame. -/
def lateParts : List Part :=
  let arrives (pktNum : ℕ) (frame : Frame) (parts : List Part) : List Part :=
    [.header (packet pktNum [frame]), .frame frame .application (Sample.env 1)] ++ parts
      ++ [.received (packet pktNum [frame]) .application]
  [.handshake (Sample.env 0).handshake]
    ++ arrives 1 .ping []
    ++ [.packet .application 1355 28 1 1400 (Sample.sendEnv 1)]
    ++ arrives 0 .ping []
    ++ arrives 2 (.ack 0 0 (Sample.range 0 1)) [.acked .application]

/-- Packet 0 was never listed, and does not wait any more. -/
theorem not_acknowledges : ¬ ∀ config isServer afterRetry now parts r,
    run step (new (.new config isServer afterRetry now)) parts = some r → r.Acknowledges := by
  intro hall
  let forgets (r : Receiver) : Bool :=
    (r.processed .application).contains 0 &&
      !(r.conn.pktNumSpaces .application).recvPktNeedAck.inner.any (fun x => x.1 ≤ 0 && 0 < x.2) &&
      !(r.confirmed .application).any fun ranges => ranges.inner.any (fun x => x.1 ≤ 0 && 0 < x.2)
  have hrun :
      (run step (new (.new (Sample.config (.basic {})) false false 0)) lateParts).any forgets =
          true := by
    decide +kernel
  obtain ⟨r, hr, hforgets⟩ := (Option.any_eq_true _ _).mp hrun
  simp only [forgets, Bool.and_eq_true, List.contains_iff_mem, Bool.not_eq_true',
    List.any_eq_false] at hforgets
  obtain ⟨⟨hprocessed, hneed⟩, hconfirmed⟩ := hforgets
  rcases hall _ _ _ _ _ r hr .application 0 hprocessed with ⟨x, hx, hle, hlt⟩ | ⟨ranges, hranges, x,
    hx, hle, hlt⟩
  · exact hneed x hx (by simp [hle, hlt])
  · exact hconfirmed ranges hranges (List.any_eq_true.mpr ⟨x, hx, by simp [hle, hlt]⟩)

/-- The calls that are made of these parts: packet 0 was seen, and does not wait. -/
example : (Sample.client (.basic {}) [Sample.recv 1 [.ping] 1, Sample.send 1,
    Sample.recv 0 [.ping] 2,
    Sample.recv 2 [.ack 0 0 (Sample.range 0 1)] 3]).any (fun c =>
      (c.pktNumSpaces .application).recvPktNum.contains 0 &&
        (c.pktNumSpaces .application).recvPktNeedAck.inner == [(2, 3)]) = true := by decide +kernel

/-- The late packet is covered by the frame that was acked. -/
theorem acknowledgesUpTo_late : ∃ r, run step (new (.new (Sample.config (.basic {})) false false 0))
    lateParts = some r ∧ 0 ∈ r.processed .application ∧ r.AcknowledgesUpTo := by
  have hrun : (run step (new (.new (Sample.config (.basic {})) false false 0)) lateParts).any
      (fun r => (r.processed .application).contains 0) = true := by decide +kernel
  obtain ⟨r, hr, hprocessed⟩ := (Option.any_eq_true _ _).mp hrun
  exact ⟨r, hr, List.contains_iff_mem.mp hprocessed, acknowledgesUpTo hr⟩

end Receiver

end Dtp
