import Dtp.Lib.Peers
import Dtp.Numbering

/-!
# What is acknowledged

An ACK frame is a receipt: it lists packets that arrived. A connection puts no other numbers in
its ACK frames, and so, between two connections, no ACK frame names a packet that was not sent.
The check that the receiver of an ACK frame makes never fails, then, and no ACK frame that was
sent closes a connection.

## Main definitions

* `Call.Delivers` — a call delivers a packet with a number
* `Connection.AcksOnly` — which numbers a connection acknowledges
* `Sender` — a connection with the numbers of the packets that it sent
* `Receipts.Reachable` — two connections joined by a network

## Main results

* `Call.acksOnly` — what a call adds to the numbers that a connection acknowledges
* `Connection.acks_delivered` — what is acknowledged has arrived
* `Receipts.Reachable.ack_accepted` — ACK frames are never refused for what they list
-/

namespace Dtp

open Lib (Link Peer Program Side run)

/-- The call delivers a packet of the epoch with the number. -/
def Call.Delivers (call : Call) (e : Epoch) (n : ℕ) : Prop :=
  ∃ d, call = .recv d ∧ ∃ pkt ∈ d.packets, pkt.ty.toEpoch = some e ∧ pkt.pktNum = n

namespace Connection

/-- Only certain numbers wait for their acknowledgement, and no others are listed by the ACK
frames of packets that were sent. -/
structure AcksOnly (P : Epoch → ℕ → Prop) (c : Connection) : Prop where
  canonical : ∀ e, (c.pktNumSpaces e).recvPktNeedAck.Canonical
  waiting : ∀ e n, (c.pktNumSpaces e).recvPktNeedAck.Has n → P e n
  listed : ∀ e packetTime ackDelay ranges, c.recovery.Has e (.ack packetTime ackDelay ranges) →
    ranges.Canonical ∧ ∀ n, ranges.Has n → P e n

variable {P : Epoch → ℕ → Prop} {c c' : Connection} {epoch : Epoch}

theorem AcksOnly.mono (h : c.AcksOnly P) {P' : Epoch → ℕ → Prop} (hP : ∀ e n, P e n → P' e n) :
    c.AcksOnly P' where
  canonical := h.canonical
  waiting e n hn := hP e n (h.waiting e n hn)
  listed e _ _ _ hhas :=
    have hlisted := h.listed e _ _ _ hhas
    ⟨hlisted.1, fun n hn => hP e n (hlisted.2 n hn)⟩

/-- What is acknowledged stays. -/
theorem AcksOnly.steady (h : c.AcksOnly P) (hc : c.Steady c') : c'.AcksOnly P where
  canonical e := by
    rw [hc.recvPktNeedAck]
    exact h.canonical e
  waiting e n hn := by
    rw [hc.recvPktNeedAck] at hn
    exact h.waiting e n hn
  listed e _ _ _ hhas := h.listed e _ _ _ (hc.moves e _ hhas)

theorem AcksOnly.of_eq (h : c.AcksOnly P) (hspaces : c'.pktNumSpaces = c.pktNumSpaces)
    (hrecovery : c'.recovery = c.recovery) : c'.AcksOnly P where
  canonical := hspaces ▸ h.canonical
  waiting := hspaces ▸ h.waiting
  listed := hrecovery ▸ h.listed

/-- In one packet number space other numbers wait. -/
theorem AcksOnly.modifySpace (h : c.AcksOnly P) {f : PktNumSpace → PktNumSpace}
    (hcanonical : (f (c.pktNumSpaces epoch)).recvPktNeedAck.Canonical)
    (hwaiting : ∀ n, (f (c.pktNumSpaces epoch)).recvPktNeedAck.Has n → P epoch n) :
    (c.modifySpace epoch f).AcksOnly P where
  canonical e := by
    rcases eq_or_ne e epoch with rfl | hne
    · rw [modifySpace_same]
      exact hcanonical
    · rw [modifySpace_of_ne c f hne]
      exact h.canonical e
  waiting e n hn := by
    rcases eq_or_ne e epoch with rfl | hne
    · rw [modifySpace_same] at hn
      exact hwaiting n hn
    · rw [modifySpace_of_ne c f hne] at hn
      exact h.waiting e n hn
  listed := h.listed

private theorem takeAcked_acksOnly (h : c.AcksOnly P) : (takeAcked epoch c).AcksOnly P := by
  cases hranges : c.ackedRanges epoch with
  | none => exact h.steady (takeAcked_of_none hranges).toSteady
  | some ranges =>
    obtain ⟨c₁, hrests, heq⟩ := takeAcked_of_some hranges
    have h₁ := h.steady hrests.toSteady
    rw [heq]
    cases ranges.largest with
    | none => exact h₁
    | some largest =>
      obtain ⟨hcanonical, hhas⟩ := (h₁.canonical epoch).removeUntil largest
      refine h₁.modifySpace hcanonical fun n hn => ?_
      exact h₁.waiting epoch n ((hhas n).mp hn).1

/-- The number of a packet that was processed waits for its acknowledgement. -/
theorem received_acksOnly {pkt : RxPacket} (hpkt : P epoch pkt.pktNum) (h : c.AcksOnly P) :
    (received pkt epoch c).AcksOnly P := by
  obtain ⟨hcanonical, hhas⟩ := (h.canonical epoch).pushItem pkt.pktNum
  have hrecorded : (c.modifySpace epoch pkt.record).AcksOnly P := by
    refine h.modifySpace hcanonical fun n hn => ?_
    rcases (hhas n).mp hn with hn | rfl
    · exact h.waiting epoch n hn
    · exact hpkt
  exact (hrecorded.steady (received_rests pkt epoch c).toSteady).of_eq rfl rfl

private theorem takeLost_acksOnly (epoch : Epoch) (c : Connection) :
    (takeLost epoch).Keeps (fun c c' => c.AcksOnly P → c'.AcksOnly P) c := by
  refine (takeLost_tookBack epoch c).mono fun c' hs h => ?_
  cases hs with
  | rests hrests => exact h.steady hrests.toSteady
  | stream _ hrests => exact (h.steady hrests.toSteady).of_eq rfl rfl
  | ack _ hrests =>
    have h₁ := h.steady hrests.toSteady
    exact h₁.modifySpace (h₁.canonical epoch) (h₁.waiting epoch)

/-- The ACK frame of a packet lists what waits when the packet is filled. -/
theorem recorded_acksOnly {room written : ℕ} {env : SendEnv} {q : Packing}
    (hq : Packing.Within epoch ⟨c, .new room⟩ q) (h : c.AcksOnly P) :
    (q.recorded epoch written env).AcksOnly P := by
  have hconn : q.conn.AcksOnly P := h.steady hq.conn.steady
  have hframes (packetTime ackDelay : ℕ) (ranges : RangeSet)
      (hmem : .ack packetTime ackDelay ranges ∈ q.draft.frames) : c.Acks epoch ranges := by
    obtain ⟨fs, hfs, hacks, -⟩ := hq.frames
    rw [hfs, List.mem_append] at hmem
    exact hmem.elim nofun (hacks _ _ _)
  have hsent : (q.conn.setRecovery (q.conn.recovery.onPacketSent
      (q.toSent epoch written env.instant) epoch env.instant)).AcksOnly P := by
    refine ⟨hconn.canonical, hconn.waiting, fun e packetTime ackDelay ranges hhas => ?_⟩
    rcases eq_or_ne e epoch with rfl | hne
    · rcases Recovery.has_onPacketSent hhas with hhas | hmem
      · exact hconn.listed e _ _ _ hhas
      · rw [(hframes _ _ _ hmem).ranges]
        exact ⟨h.canonical e, h.waiting e⟩
    · exact hconn.listed e _ _ _ (Recovery.has_onPacketSent_of_ne hne hhas)
  exact (hsent.steady (recorded_rests epoch written env q).toSteady).of_eq rfl rfl

/-! ### Calls -/

/-- What sends nothing acknowledges nothing. -/
theorem acksOnly_of_resting {α : Type} {x : Program Error Connection α} (h : Resting x)
    (c : Connection) : x.Keeps (fun c c' => c.AcksOnly P → c'.AcksOnly P) c :=
  (h.keeps c).mono fun _ hc hacks => hacks.steady hc.toSteady

private theorem sendParts_acksOnly : SendParts fun c c' => c.AcksOnly P → c'.AcksOnly P where
  handshake hs c := acksOnly_of_resting (doHandshake_resting hs) c
  lost := takeLost_acksOnly
  clearLost epoch c h := h.steady (clearLost_rests epoch c).toSteady
  packet epoch room headerLen pnLen avail env c _ := by
    refine (packet_putTogether epoch room headerLen pnLen avail env c).mono fun c' hs h => ?_
    cases hs with
    | unsent within => exact h.steady within.conn.steady
    | sent within _ => exact recorded_acksOnly within h

/-- The number of a packet is all that the packet adds. -/
theorem recvSingle_acksOnly {pkt : RxPacket} (hpkt : ∀ e, pkt.ty.toEpoch = some e → P e pkt.pktNum)
    (c : Connection) : (recvSingle pkt).Keeps (fun c c' => c.AcksOnly P → c'.AcksOnly P) c := by
  have hfail (e : Error) (c : Connection) : (Program.fail e : Program Error Connection Unit).Keeps
      (fun c c' => c.AcksOnly P → c'.AcksOnly P) c := Program.keeps_fail.mpr id
  rw [recvSingle, Program.keeps_get_bind]
  refine .ite (fun _ => hfail _ c) fun _ => ?_
  cases hepoch : pkt.ty.toEpoch with
  | none => exact hfail _ c
  | some epoch =>
    refine .ite (fun _ => id) fun _ => ?_
    refine .bind (acksOnly_of_resting (acceptHeader_resting pkt) c) fun _ c _ => ?_
    rw [Program.keeps_get_bind]
    refine .ite (fun _ => id) fun _ => .ite (fun _ => hfail _ c) fun _ => ?_
    refine .bind (acksOnly_of_resting (processFrames_resting _ _ epoch) c) fun _ c _ => ?_
    refine .bind (acksOnly_of_resting (processFrames_resting _ _ epoch) c) fun _ c _ => ?_
    refine .bind ?_ fun _ c _ => Program.keeps_modify.mpr (received_acksOnly (hpkt epoch hepoch))
    rw [drainAcked, Program.keeps_get_bind]
    exact .forM (fun _ c => Program.keeps_modify.mpr takeAcked_acksOnly) _ c

private theorem recv_acksOnly {d : Datagram}
    (hd : ∀ pkt ∈ d.packets, ∀ e, pkt.ty.toEpoch = some e → P e pkt.pktNum) (c : Connection) :
    (recv d).Keeps (fun c c' => c.AcksOnly P → c'.AcksOnly P) c := by
  refine .bind (keeps_closeOnError ?_ ?_) fun _ c _ => Program.keeps_modify.mpr fun h => ?_
  · intro c c' app err reason hclose h
    exact h.steady (close_rests hclose).toSteady
  · refine .bind (.forM_mem (fun pkt hpkt c => recvSingle_acksOnly (hd pkt hpkt) c) c) ?_
    intro _ c _
    cases d.error with
    | none => exact id
    | some e => exact Program.keeps_fail.mpr id
  · split_ifs
    · exact h
    · exact h.of_eq rfl rfl

end Connection

open Connection in
/-- A call adds nothing to the numbers that a connection acknowledges but those of the packets
that it delivers. -/
theorem Call.acksOnly {P : Epoch → ℕ → Prop} {c c' : Connection} {call : Call}
    (hcall : ∀ e n, call.Delivers e n → P e n) (hstep : Call.step c call = some c')
    (h : c.AcksOnly P) : c'.AcksOnly P := by
  have hkeeps : call.program.Keeps (fun c c' => c.AcksOnly P → c'.AcksOnly P) c := by
    cases call with
    | streamSend id data fin deadline priority now =>
      exact (acksOnly_of_resting
        (streamSendFull_streaming id data fin deadline priority now).resting
        c).discard
    | streamRecv id cap =>
      exact (acksOnly_of_resting (streamRecv_streaming id cap).resting c).discard
    | streamShutdown id direction =>
      exact acksOnly_of_resting (streamShutdown_streaming _ _).resting c
    | recv d =>
      apply recv_acksOnly
      intro pkt hpkt e he
      exact hcall e pkt.pktNum ⟨d, rfl, pkt, hpkt, he, rfl⟩
    | send outLen env => exact (sendParts_acksOnly.send outLen env c).discard
    | onTimeout env =>
      exact Program.keeps_modify.mpr fun h => h.steady (onTimeout_rests c env).toSteady
    | setTail tailSize => exact Program.keeps_modify.mpr fun h => h.of_eq rfl rfl
    | close app err reason =>
      change (get >>= fun c => Program.ofExcept (c.close app err reason) >>= set).Keeps _ c
      rw [Program.keeps_get_bind]
      cases hclose : c.close app err reason with
      | ok c' => exact fun h => h.steady (close_rests hclose).toSteady
      | error e => exact Program.keeps_fail.mpr id
  exact Program.keeps_iff_after.mp hkeeps c' hstep h

namespace Connection

/-- Nothing is acknowledged yet. -/
theorem new_acksOnly (P : Epoch → ℕ → Prop) (config : Config) (isServer afterRetry : Bool)
    (now : ℕ) : (new config isServer afterRetry now).AcksOnly P where
  canonical _ := RangeSet.canonical_empty
  waiting := nofun
  listed := nofun

variable {P : Epoch → ℕ → Prop} {c c' : Connection} {calls : List Call}

/-- Only what the calls deliver is acknowledged. -/
theorem AcksOnly.run (h : c.AcksOnly P) (hcalls : ∀ call ∈ calls, ∀ e n, call.Delivers e n → P e n)
    (hrun : run Call.step c calls = some c') : c'.AcksOnly P := by
  induction calls generalizing c with
  | nil =>
    cases hrun
    exact h
  | cons call calls ih =>
    obtain ⟨c₁, hstep, hrest⟩ := Option.bind_eq_some_iff.mp hrun
    apply ih
    · exact Call.acksOnly (hcalls call List.mem_cons_self) hstep h
    · intro call' hmem
      exact hcalls call' (List.mem_cons_of_mem call hmem)
    · exact hrest

/-- Whatever the calls, the numbers in an ACK frame that `send` puts in a packet are those of
packets that were delivered, in the epoch of the packet. -/
theorem acks_delivered {config : Config} {isServer afterRetry : Bool} {now : ℕ}
    (hrun : Lib.run Call.step (new config isServer afterRetry now) calls = some c) {outLen : ℕ}
    {env : SendEnv} {epoch : Epoch} {c₁ c' : Connection} {pkt : Sent} {written : ℕ}
    (hsends : c.Sends outLen env epoch c₁ pkt written c') {packetTime ackDelay : ℕ}
    {ranges : RangeSet} (hack : .ack packetTime ackDelay ranges ∈ pkt.frames) {n : ℕ}
    (hn : ranges.Has n) : ∃ call ∈ calls, call.Delivers epoch n := by
  have hc : c.AcksOnly fun e n => ∃ call ∈ calls, call.Delivers e n := by
    apply (new_acksOnly _ config isServer afterRetry now).run _ hrun
    intro call hcall e n hdelivers
    exact ⟨call, hcall, hdelivers⟩
  have hc' : c'.AcksOnly fun e n => ∃ call ∈ calls, call.Delivers e n := by
    apply Call.acksOnly _ hsends.step hc
    rintro e n ⟨d, hrecv, -⟩
    cases hrecv
  exact (hc'.listed epoch _ _ _ (.inl ⟨pkt, hsends.sent, hack⟩)).2 n hn

/-- A client that acknowledges a packet. -/
theorem acks_delivered_ping : ∃ c epoch c₁ pkt written c',
    Sample.client (.basic {}) [Sample.recv 0 [.ping] 1] = some c ∧
      c.Sends 1400 (Sample.sendEnv 2) epoch c₁ pkt written c' ∧
      .ack 0 0 (Sample.range 0 1) ∈ pkt.frames ∧
      ∃ call ∈ [Sample.send 0, Sample.recv 0 [.ping] 1], call.Delivers epoch 0 := by
  have hrun : (Sample.client (.basic {}) [Sample.recv 0 [.ping] 1]).any (fun c =>
      (send 1400 (Sample.sendEnv 2)).returnsWith c fun _ c' =>
        [Epoch.initial, .handshake, .application].all fun e => (c'.recovery.sent e).all fun pkt =>
          decide (.ack 0 0 (Sample.range 0 1) ∈ pkt.frames)) = true := by decide +kernel
  obtain ⟨c, hc, hcheck⟩ := (Option.any_eq_true _ _).mp hrun
  obtain ⟨written, c', hsend, hacks⟩ := Program.returnsWith_iff.mp hcheck
  obtain ⟨epoch, c₁, pkt, hsends⟩ := exists_sends hsend
  have hack : .ack 0 0 (Sample.range 0 1) ∈ pkt.frames := by
    have hepoch : epoch ∈ [Epoch.initial, .handshake, .application] := by cases epoch <;> simp
    have hall := List.all_eq_true.mp hacks epoch hepoch
    exact of_decide_eq_true (List.all_eq_true.mp hall pkt hsends.sent)
  have hzero : (Sample.range 0 1).Has 0 := ⟨(0, 1), List.mem_singleton.mpr rfl, le_rfl, Nat.one_pos⟩
  exact ⟨c, epoch, c₁, pkt, written, c', hc, hsends, hack, acks_delivered hc hsends hack hzero⟩

end Connection

/-! ### Two connections -/

/-- A connection, with the numbers of the packets that it sent. -/
structure Sender where
  conn : Connection
  sent : Epoch → List ℕ

namespace Sender

/-- Nothing was sent. -/
def new (config : Connection.Config) (isServer afterRetry : Bool) (now : ℕ) : Sender where
  conn := .new config isServer afterRetry now
  sent _ := []

/-- The application makes a call, which may send a packet. -/
def step (s : Sender) (call : Call) : Option Sender :=
  (Call.step s.conn call).map fun c =>
    { conn := c
      sent := fun e => s.sent e ++ (c.recovery.sent e).map Sent.pktNum }

end Sender

/-- What a connection learns about packets from the other one: a packet arrives, or an ACK frame
in a packet of an epoch. -/
inductive Receipt
  | packet (epoch : Epoch) (pktNum : ℕ)
  | ack (epoch : Epoch) (ranges : RangeSet)
  deriving DecidableEq

/-- The receipt that a frame is. -/
def Frame.receipts (epoch : Epoch) : Frame → List Receipt
  | .ack _ _ ranges => [.ack epoch ranges]
  | _ => []

/-- What a packet says: its number, and what its frames acknowledge, also those that were
rebuilt. -/
def Connection.RxPacket.receipts (pkt : RxPacket) : List Receipt :=
  match pkt.ty.toEpoch with
  | none => []
  | some epoch =>
    .packet epoch pkt.pktNum :: (pkt.restored ++ pkt.frames).flatMap fun f => f.1.receipts epoch

/-- The receipts that a call brings. -/
def Call.receipts : Call → List Receipt
  | .recv d => d.packets.flatMap Connection.RxPacket.receipts
  | _ => []

/-- What the packets that a connection has sent and not forgotten say. -/
def Connection.receipts (c : Connection) : List Receipt :=
  [Epoch.initial, .handshake, .application].flatMap fun e =>
    (c.recovery.sent e).flatMap fun pkt => .packet e pkt.pktNum :: pkt.frames.flatMap (·.receipts e)

/-- A connection as a peer that sends and acknowledges packets. -/
def sender : Peer Sender Call Receipt where
  step := Sender.step
  delivers := Call.receipts
  sends s := s.conn.receipts

/-- What a call delivers is among its receipts. -/
theorem Call.Delivers.mem_receipts {call : Call} {e : Epoch} {n : ℕ} (h : call.Delivers e n) :
    .packet e n ∈ call.receipts := by
  obtain ⟨d, rfl, pkt, hpkt, he, rfl⟩ := h
  refine List.mem_flatMap.mpr ⟨pkt, hpkt, ?_⟩
  rw [Connection.RxPacket.receipts, he]
  exact List.mem_cons_self

/-- The receipts of frames are those of ACK frames. -/
theorem Frame.mem_receipts {f : Frame} {e : Epoch} {m : Receipt} (h : m ∈ f.receipts e) :
    ∃ packetTime ackDelay ranges, f = .ack packetTime ackDelay ranges ∧ m = .ack e ranges := by
  cases f with
  | ack packetTime ackDelay ranges => exact ⟨_, _, _, rfl, List.mem_singleton.mp h⟩
  | _ => cases h

namespace Sender

/-- The numbers of the packets that are remembered were noted, and they are numbers that the
connection has used up. -/
structure Sound (s : Sender) : Prop where
  acksSound : s.conn.AcksSound
  numbered : s.conn.recovery.Numbered
  noted : ∀ e, ∀ pkt ∈ s.conn.recovery.sent e, pkt.pktNum ∈ s.sent e
  below : ∀ e, ∀ n ∈ s.sent e, n ≤ s.conn.recovery.largestSentPkt e

/-- What a receipt says is true of the party `s` that sends it and the party `t` that gets it:
the packet was sent by `s`, and what is acknowledged was sent by `t`. -/
def Says (s t : Sender) : Receipt → Prop
  | .packet e n => n ∈ s.sent e
  | .ack e ranges =>
    ranges.isEmpty = false ∧ ranges.Canonical ∧ ∀ n, ranges.Has n → n ∈ t.sent e

/-- A party acknowledges only packets that the other one sent. -/
def Knows (s t : Sender) : Prop := s.conn.AcksOnly fun e n => n ∈ t.sent e

variable {s s' t : Sender} {call : Call}

/-- What a call does to a sender. -/
theorem step_eq_some (h : s.step call = some s') : ∃ c, Call.step s.conn call = some c ∧
    s' = ⟨c, fun e => s.sent e ++ (c.recovery.sent e).map Sent.pktNum⟩ := by
  obtain ⟨c, hc, rfl⟩ := Option.map_eq_some_iff.mp h
  exact ⟨c, hc, rfl⟩

private theorem sent_step (h : s.step call = some s') (e : Epoch) : s.sent e ⊆ s'.sent e := by
  obtain ⟨c, -, rfl⟩ := step_eq_some h
  exact List.subset_append_left _ _

/-- Calls keep the sender sound. -/
theorem Sound.step (h : s.Sound) (hstep : s.step call = some s') : s'.Sound := by
  obtain ⟨c, hc, rfl⟩ := step_eq_some hstep
  have hnumbers := Call.numbers hc
  have hnumbered : c.recovery.Numbered := hnumbers.numbered h.numbered
  refine ⟨?_, hnumbered, fun e pkt hpkt => ?_, fun e n hn => ?_⟩
  · exact Connection.calls_sound.step Connection.sendParts_sound.send hc h.acksSound
  · exact List.mem_append_right _ (List.mem_map_of_mem hpkt)
  · rcases List.mem_append.mp hn with hold | hnew
    · exact (h.below e n hold).trans (hnumbers.largestSentPkt e)
    · obtain ⟨pkt, hpkt, rfl⟩ := List.mem_map.mp hnew
      exact hnumbered e pkt hpkt

/-- Nothing was sent. -/
theorem sound_new (config : Connection.Config) (isServer afterRetry : Bool) (now : ℕ) :
    (new config isServer afterRetry now).Sound where
  acksSound := Connection.new_acksSound config isServer afterRetry now
  numbered := nofun
  noted := nofun
  below := nofun

/-- Two parties can rely on each other: each one acknowledges only what the other one sent. -/
theorem contract : sender.Contract Sound Says Knows where
  sends s t hs _ hst _ m hm := by
    obtain ⟨e, -, hm⟩ := List.mem_flatMap.mp hm
    obtain ⟨pkt, hpkt, hm⟩ := List.mem_flatMap.mp hm
    rcases List.mem_cons.mp hm with rfl | hm
    · exact hs.noted e pkt hpkt
    · obtain ⟨f, hf, hm⟩ := List.mem_flatMap.mp hm
      obtain ⟨packetTime, ackDelay, ranges, rfl, rfl⟩ := Frame.mem_receipts hm
      have hhas : s.conn.recovery.Has e (.ack packetTime ackDelay ranges) := .inl ⟨pkt, hpkt, hf⟩
      exact ⟨hs.acksSound.filled.sent e _ _ _ hhas, hst.listed e _ _ _ hhas⟩
  step s t call s' hs ht hst hts htrue hstep := by
    have hgrows := sent_step hstep
    obtain ⟨c, hc, rfl⟩ := step_eq_some hstep
    refine ⟨hs.step hstep, ?_, ?_, fun m => ⟨?_, ?_⟩⟩
    · apply Call.acksOnly _ hc hst
      intro e n hdelivers
      exact htrue _ hdelivers.mem_receipts
    · exact hts.mono fun e n hn => hgrows e hn
    · cases m with
      | packet e n => exact fun hn => hgrows e hn
      | ack e ranges => exact id
    · cases m with
      | packet e n => exact id
      | ack e ranges =>
        rintro ⟨hne, hcanonical, hhas⟩
        exact ⟨hne, hcanonical, fun n hn => hgrows e (hhas n hn)⟩

end Sender

private theorem RangeSet.Canonical.has_largest {s : RangeSet} (h : s.Canonical) {largest : ℕ}
    (hlargest : s.largest = some largest) : s.Has largest := by
  obtain ⟨r, hr, rfl⟩ := Option.map_eq_some_iff.mp hlargest
  have hmem := List.mem_of_getLast? hr
  have hlt := h.nonempty r hmem
  exact ⟨r, hmem, by omega, by omega⟩

namespace Receipts

/-- A client on the left and a server on the right. -/
def start (config : Side → Connection.Config) (afterRetry : Bool) (now : Side → ℕ) :
    Link Sender Receipt :=
  .start sender fun side =>
    .new (config side) (side == .right) (side == .right && afterRetry) (now side)

/-- Two connections after some calls of both applications. -/
def Reachable (l : Link Sender Receipt) : Prop :=
  ∃ config afterRetry now labels,
    run (Link.step sender) (start config afterRetry now) labels = some l

variable {l : Link Sender Receipt}

/-- In reachable states, both parties keep the contract. -/
theorem Reachable.holds (h : Reachable l) : Sender.contract.Holds l := by
  obtain ⟨config, afterRetry, now, labels, hrun⟩ := h
  refine Sender.contract.run (Sender.contract.start ?_ ?_) hrun
  · intro side
    exact Sender.sound_new _ _ _ _
  · intro side
    exact Connection.new_acksOnly _ _ _ _ _

/-- An ACK frame that was sent lists only packets that the other connection sent, and is refused
only where its delays do not fit. -/
theorem Reachable.ack_accepted (h : Reachable l) {side : Side} {epoch : Epoch} {ranges : RangeSet}
    (hack : .ack epoch ranges ∈ l.wire side.other) :
    (∀ n, ranges.Has n → n ∈ (l.state side).sent epoch) ∧
      ∀ packetTime ackDelay env,
        (Connection.processFrame (.ack packetTime ackDelay ranges) epoch env).Ends
          (l.state side).conn (fun _ _ => True) fun e _ => e = .error .invalidFrame := by
  have hsaid := h.holds.said side.other _ hack
  rw [Side.other_other] at hsaid
  obtain ⟨hne, hcanonical, hsent⟩ := hsaid
  refine ⟨hsent, fun packetTime ackDelay env => ?_⟩
  obtain ⟨largest, hlargest⟩ := Option.isSome_iff_exists.mp (RangeSet.largest_isSome hne)
  -- the largest number in the frame was sent
  have hle : largest ≤ (l.state side).conn.recovery.largestSentPkt epoch :=
    (h.holds.inv side).below epoch largest (hsent largest (hcanonical.has_largest hlargest))
  obtain ⟨r, hr⟩ : ∃ r, (l.state side).conn.recovery.onAckReceived ranges epoch env.instant
      env.lossDelay = .ok r := ⟨_, Recovery.onAckReceived_eq_ok.mpr ⟨largest, hlargest, hle, rfl⟩⟩
  rw [Connection.processFrame, Connection.processAck, Program.ends_bind, Program.ends_get]
  refine Program.ends_ite.mpr ⟨fun _ => rfl, fun _ => ?_⟩
  rw [hr]
  exact Program.ends_ite.mpr ⟨fun _ => trivial, fun _ => trivial⟩

/-- A client that starts the handshake. -/
def helloEnv : SendEnv :=
  { Sample.sendEnv 0 with
    handshake :=
      { writes := [(.initial, [1])]
        keys := fun e => (e == .initial, e == .initial)
        isEstablished := false
        writeLevel := .initial
        outcome := .waiting } }

/-- The first packet of the client arrives and is acknowledged. -/
def hello : List (Side × Call) :=
  [ (.left, .send 1400 helloEnv),
    (.right, .recv
      { packets :=
          [{ ty := .initial
             version := protocolVersionDraft25
             scidLen := 16
             pktNum := 0
             fecInfo := .none
             restored := []
             restoredError := none
             frames := [(.crypto ⟨[1], 0, false⟩, Sample.env 1)]
             framesError := none
             now := 1 }]
        error := none
        len := 1200 }),
    (.right, Sample.send 1) ]

theorem ack_accepted_hello : ∃ l,
    run (Link.step sender) (start (fun _ => Sample.config (.basic {})) false fun _ => 0) hello =
      some l ∧ 0 ∈ (l.state .left).sent .initial ∧
      (Connection.processFrame (.ack 0 0 (Sample.range 0 1)) .initial (Sample.env 2)).Ends
        (l.state .left).conn (fun _ _ => True) fun e _ => e = .error .invalidFrame := by
  have hrun : (run (Link.step sender)
      (start (fun _ => Sample.config (.basic {})) false fun _ => 0) hello).any (fun l =>
        decide (.ack .initial (Sample.range 0 1) ∈ l.wire .right)) = true := by decide +kernel
  obtain ⟨l, hl, hack⟩ := (Option.any_eq_true _ _).mp hrun
  have hreachable : Reachable l := ⟨_, _, _, hello, hl⟩
  have hwire : .ack .initial (Sample.range 0 1) ∈ l.wire (Side.other .left) :=
    of_decide_eq_true hack
  obtain ⟨hsent, haccepts⟩ := hreachable.ack_accepted hwire
  have hzero : (Sample.range 0 1).Has 0 := ⟨(0, 1), List.mem_singleton.mpr rfl, le_rfl, Nat.one_pos⟩
  exact ⟨l, hl, hsent 0 hzero, haccepts 0 0 (Sample.env 2)⟩

end Receipts

end Dtp
