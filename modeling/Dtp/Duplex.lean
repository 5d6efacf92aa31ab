import Dtp.Hearing
import Dtp.Lib.Peers
import Dtp.Packets

/-!
# Two connections

A client and a server are driven by their applications, and exchange packets over a network that
loses, delays, reorders and repeats them. What the application of one side reads from a stream is
what the application of the other side has written to it.

The TLS handshake is taken to hand each side the transport parameters of the other one. A frame
arrives in a packet, or is rebuilt from redundant packets, only if it was sent.

## Main definitions

* `Party`, `Party.step` — a connection, with what its application has written and read
* `Message`, `party` — the messages that parties exchange
* `Duplex.start`, `Duplex.Reachable` — the runs of two parties

## Main results

* `Duplex.Reachable.read_told` — what is read was written, in this order
* `Duplex.Reachable.end_read` — the end of a stream is read after everything that was written
* `Duplex.Reachable.final_size_kept` — no frame contradicts the final size of a stream
-/

namespace Dtp

open Lib (Fault Link Peer Program Side run)

deriving instance DecidableEq for TransportParams

/-- A connection, with what its application has written to each stream and read from it. -/
structure Party where
  conn : Connection
  wrote : Script
  read : Script

/-- The script after a call: what a write stores is appended. -/
def Call.writes (c : Connection) (w : Script) : Call → Script
  | .streamSend id data fin deadline priority now =>
    match Connection.streamSendFull id data fin deadline priority now c with
    | .ok n _ => c.afterWrite id data n w
    | .error _ _ => w
  | _ => w

/-- What was read after a call: what a read returns is appended. -/
def Call.reads (c : Connection) (out : Script) : Call → Script
  | .streamRecv id cap =>
    match Connection.streamRecv id cap c with
    | .ok r _ => Function.update out id (out id ++ r.1)
    | .error _ _ => out
  | _ => out

namespace Party

/-- Nothing was written or read. -/
def new (config : Connection.Config) (isServer afterRetry : Bool) (now : ℕ) : Party where
  conn := .new config isServer afterRetry now
  wrote _ := []
  read _ := []

/-- The application makes a call. -/
def step (s : Party) (call : Call) : Option Party :=
  (Call.step s.conn call).map fun c =>
    { conn := c
      wrote := call.writes s.conn s.wrote
      read := call.reads s.conn s.read }

end Party

/-- What one party learns from the other one. -/
inductive Message
  | frame (f : Frame)
  | params (params : TransportParams)
  deriving DecidableEq

/-- The transport parameters that a step of the handshake delivers. -/
def HandshakeStep.delivers (hs : HandshakeStep) : List Message :=
  match hs.outcome with
  | .finished (.ok params) => [.params params]
  | _ => []

/-- The messages that a call delivers: the frames of a datagram, also the rebuilt ones, and what
TLS hands over meanwhile. -/
def Call.delivers : Call → List Message
  | .recv d => d.packets.flatMap fun pkt => (pkt.restored ++ pkt.frames).flatMap fun f =>
      .frame f.1 :: f.2.handshake.delivers
  | .send _ env => env.handshake.delivers
  | _ => []

/-- The frames of the packets that a connection has sent and not forgotten. -/
def Connection.sentFrames (c : Connection) : List Frame :=
  [Epoch.initial, .handshake, .application].flatMap fun e =>
    (c.recovery.sent e).flatMap Sent.frames

/-- A party as a peer. -/
def party : Peer Party Call Message where
  step := Party.step
  delivers := Call.delivers
  sends s := .params s.conn.localTransportParams :: s.conn.sentFrames.map .frame

/-! ### One party -/

theorem Connection.mem_sentFrames {c : Connection} {f : Frame} (h : f ∈ c.sentFrames) :
    ∃ e, c.recovery.Has e f := by
  obtain ⟨e, -, hf⟩ := List.mem_flatMap.mp h
  obtain ⟨pkt, hpkt, hf⟩ := List.mem_flatMap.mp hf
  exact ⟨e, .inl ⟨pkt, hpkt, hf⟩⟩

/-- The side of a connection and what it has announced. -/
structure Connection.SameConfig (c c' : Connection) : Prop where
  isServer : c'.isServer = c.isServer
  localParams : c'.localTransportParams = c.localTransportParams

instance : IsPreorder Connection Connection.SameConfig where
  refl _ := ⟨rfl, rfl⟩
  trans _ _ _ h h' :=
    ⟨h'.isServer.trans h.isServer, h'.localParams.trans h.localParams⟩

theorem Packing.Turned.sameConfig {id : ℕ} {p p' : Packing} (turn : Turned id p p') :
    p.conn.SameConfig p'.conn := by
  cases turn with
  | full _ _ _ _ conn _ => exact conn ▸ ⟨rfl, rfl⟩
  | tooLarge _ _ _ _ _ conn _ => exact conn ▸ ⟨rfl, rfl⟩
  | nothing _ _ _ _ _ _ conn _ => exact conn ▸ ⟨rfl, rfl⟩
  | sent _ _ _ _ _ _ _ _ conn _ => exact conn ▸ ⟨rfl, rfl⟩

theorem Action.Effect.sameConfig {p p' : Packing} {action : Action}
    (effect : Effect p action p') : p.conn.SameConfig p'.conn := by
  have hcalm {c c' : Connection} (calm : c.Calm c') : c.SameConfig c' :=
    ⟨calm.isServer, calm.localParams⟩
  cases effect with
  | wrote he => cases he <;> exact ⟨rfl, rfl⟩
  | readFrom he => cases he <;> exact ⟨rfl, rfl⟩
  | shutDown he => cases he <;> exact ⟨rfl, rfl⟩
  | streamAccepted he => cases he <;> exact ⟨rfl, rfl⟩
  | streamRejected he => cases he <;> exact ⟨rfl, rfl⟩
  | resetAccepted he => cases he <;> exact ⟨rfl, rfl⟩
  | resetRejected he => cases he <;> exact ⟨rfl, rfl⟩
  | gotBlockInfo he => cases he <;> exact ⟨rfl, rfl⟩
  | gotMaxStreamData he => cases he <;> exact ⟨rfl, rfl⟩
  | tookAcked he =>
    cases he with
    | other calm => exact hcalm calm
    | stream _ _ _ _ _ => exact ⟨rfl, rfl⟩
  | tookLost he =>
    cases he with
    | other calm => exact hcalm calm
    | blockInfo calm _ _ _ => exact ⟨calm.isServer, calm.localParams⟩
    | failed _ _ _ _ => exact ⟨rfl, rfl⟩
    | stored _ _ _ _ _ _ => exact ⟨rfl, rfl⟩
  | stepped he =>
    cases he with
    | stopped _ conn _ => exact conn ▸ ⟨rfl, rfl⟩
    | turned _ turn =>
      have hturn := turn.sameConfig
      exact ⟨hturn.isServer, hturn.localParams⟩
  | wroteReset he => cases he with
    | skipped conn _ => exact conn ▸ ⟨rfl, rfl⟩
    | written _ conn _ => exact conn ▸ ⟨rfl, rfl⟩
  | wroteMaxStreamData he => cases he with
    | skipped conn _ => exact conn ▸ ⟨rfl, rfl⟩
    | raised _ _ _ conn _ => exact conn ▸ ⟨rfl, rfl⟩
  | wroteMaxData he => cases he with
    | skipped conn _ => exact conn ▸ ⟨rfl, rfl⟩
    | raised conn _ => exact conn ▸ ⟨rfl, rfl⟩
  | wroteCrypto he => exact hcalm he.conn
  | recorded he =>
    obtain ⟨r, calm, -⟩ := he.conn
    exact ⟨calm.isServer, calm.localParams⟩
  | started => exact ⟨rfl, rfl⟩
  | calm he => exact hcalm he.conn

theorem Call.sameConfig {c c' : Connection} {call : Call} (hstep : Call.step c call = some c') :
    c.SameConfig c' := by
  obtain ⟨d', hreaches⟩ := Call.reachesBy hstep (.new 0)
  refine hreaches.invariant (I := fun p => c.SameConfig p.conn) ?_ ⟨rfl, rfl⟩
  intro p action p' _ hp hstep
  exact trans_of Connection.SameConfig hp (Action.effect hstep).sameConfig

/-- The actions of a call other than a write follow the script. -/
theorem Call.follows {c c' : Connection} {d : Draft} {call : Call} {w : Script}
    (h : Packing.Tells ⟨c, d⟩ w) (hstep : Call.step c call = some c')
    (hwrite : ∀ id data fin deadline priority now,
      call ≠ .streamSend id data fin deadline priority now) :
    ∃ d', Packing.Follows w ⟨c, d⟩ ⟨c', d'⟩ := by
  obtain ⟨d', hreaches⟩ := Call.reachesBy hstep d
  refine ⟨d', hreaches.invariant (I := Packing.Follows w ⟨c, d⟩) ?_ h.refl⟩
  intro p action p' hallows hp hstep
  have hnext := (Action.effect hstep).follows hp.tells (fun id data fin deadline priority now => ?_)
    fun id hreset => ?_
  · exact ⟨hnext.tells, fun id hc => hnext.closed id (hp.closed id hc)⟩
  · rintro rfl
    cases hallows with
    | write => exact hwrite _ _ _ _ _ _ rfl
    | sends h => cases h
  · -- the streams that are reset were cancelled when the call started
    subst hreset
    cases hallows with
    | reset hcanceled => exact hp.closed id (h.canceled id hcanceled)
    | sends h => cases h

/-- The actions of a call other than a read keep what was heard, if the datagram is true. -/
theorem Call.rehears {c c' : Connection} {call : Call} {v : Script} {closed : ℕ → Prop}
    (hstep : Call.step c call = some c') (hread : ∀ id cap, call ≠ .streamRecv id cap)
    (htrue : ∀ f, .frame f ∈ call.delivers → f.IsTrue v closed) :
    c.streams.Rehears v closed c'.streams := by
  obtain ⟨d', hreaches⟩ := Call.reachesBy hstep (.new 0)
  refine hreaches.invariant (I := fun p => c.streams.Rehears v closed p.conn.streams) ?_
    (refl_of (StreamMap.Rehears v closed) _)
  intro p action p' hallows hp hstep
  refine trans_of (StreamMap.Rehears v closed) hp
    ((Action.effect hstep).rehears (fun id cap => ?_) fun f epoch env hframe => ?_)
  · rintro rfl
    cases hallows with
    | read => exact hread _ _ rfl
    | sends h => cases h
  · subst hframe
    cases hallows with
    | frame hpkt hf =>
      refine htrue _ (List.mem_flatMap.mpr ⟨_, hpkt, List.mem_flatMap.mpr ⟨_, hf, ?_⟩⟩)
      exact List.mem_cons_self
    | sends h => cases h

namespace Party

/-- What a party says to the other one follows its script. -/
def Tells (s : Party) : Prop := ∃ d, Packing.Tells ⟨s.conn, d⟩ s.wrote

/-- What a message says is true of the party `s` that sends it, whoever receives it. -/
def Says (s _ : Party) : Message → Prop
  | .frame f => f.IsTrue s.wrote s.conn.streams.Closed
  | .params params => params = s.conn.localTransportParams

/-- What a party has heard and read is what the other one has written. -/
def Hears (s t : Party) : Prop :=
  s.conn.streams.Hears t.wrote t.conn.streams.Closed s.read

/-- More was written, but not to closed streams, which remain closed. -/
structure Grows (s s' : Party) : Prop where
  told : ∀ id, s.wrote id <+: s'.wrote id
  closed : ∀ id, s.conn.streams.Closed id → s'.conn.streams.Closed id ∧ s'.wrote id = s.wrote id

variable {s s' t t' : Party} {call : Call}

theorem step_eq_some (h : s.step call = some s') : ∃ c, Call.step s.conn call = some c ∧
    s' = ⟨c, call.writes s.conn s.wrote, call.reads s.conn s.read⟩ := by
  obtain ⟨c, hc, rfl⟩ := Option.map_eq_some_iff.mp h
  exact ⟨c, hc, rfl⟩

theorem new_tells (config : Connection.Config) (isServer afterRetry : Bool) (now : ℕ) :
    (new config isServer afterRetry now).Tells := ⟨_, Connection.new_tells _ _ _ _⟩

/-- Whatever a party does, it follows what it has written so far. -/
theorem Tells.step (h : s.Tells) (hstep : s.step call = some s') : s'.Tells ∧ s.Grows s' := by
  obtain ⟨d, htells⟩ := h
  obtain ⟨c, hc, rfl⟩ := step_eq_some hstep
  by_cases hwrite : ∃ id data fin deadline priority now,
      call = .streamSend id data fin deadline priority now
  · obtain ⟨id, data, fin, deadline, priority, now, rfl⟩ := hwrite
    have hsend := Connection.streamSendFull_tells htells id data fin deadline priority now
    have hafter : (Connection.streamSendFull id data fin deadline priority now).after s.conn =
        some c := by rw [← Program.discard_after]; exact hc
    unfold Program.after at hafter
    cases hresult : Connection.streamSendFull id data fin deadline priority now s.conn with
    | ok n c' =>
      rw [hresult] at hafter
      cases hafter
      obtain ⟨hc', hclosed, hext⟩ := hsend.ok hresult
      simp only [Call.writes, hresult]
      exact ⟨⟨d, hc'⟩, hext.told, fun i hi => ⟨hclosed i hi, hext.closed i hi⟩⟩
    | error e c' =>
      rw [hresult] at hafter
      cases e with
      | error err =>
        cases hafter
        obtain ⟨hc', hclosed⟩ := hsend.error hresult ⟨err, rfl⟩
        simp only [Call.writes, hresult]
        exact ⟨⟨d, hc'⟩, fun _ => List.prefix_rfl, fun i hi => ⟨hclosed i hi, rfl⟩⟩
      | _ => cases hafter
  · obtain ⟨d', hfollows⟩ := Call.follows htells hc
      fun id data fin deadline priority now heq => hwrite ⟨_, _, _, _, _, _, heq⟩
    have hsame : call.writes s.conn s.wrote = s.wrote := by
      cases call with
      | streamSend => exact absurd ⟨_, _, _, _, _, _, rfl⟩ hwrite
      | _ => rfl
    refine ⟨⟨d', ?_⟩, fun id => ?_, fun id hid => ⟨hfollows.closed id hid, congrFun hsame id⟩⟩
    · rw [hsame]
      exact hfollows.tells
    · exact ⟨[], by rw [List.append_nil, hsame]⟩

/-- The other party writes more. -/
theorem Hears.grow (h : s.Hears t) (ht : t.Grows t') : s.Hears t' :=
  StreamMap.Hears.grow h ht.told ht.closed

/-- Whatever a party does, it hears and reads what the other one has written. -/
theorem Hears.step (h : s.Hears t) (htrue : ∀ m ∈ call.delivers, t.Says s m)
    (hstep : s.step call = some s') : s'.Hears t := by
  obtain ⟨c, hc, rfl⟩ := step_eq_some hstep
  by_cases hread : ∃ id cap, call = .streamRecv id cap
  · obtain ⟨id, cap, rfl⟩ := hread
    have hrecv := Connection.streamRecv_hears h id cap
    have hafter : (Connection.streamRecv id cap).after s.conn = some c := by
      rw [← Program.discard_after]
      exact hc
    unfold Program.after at hafter
    unfold Hears
    cases hresult : Connection.streamRecv id cap s.conn with
    | ok r c' =>
      rw [hresult] at hafter
      cases hafter
      simp only [Call.reads, hresult]
      exact (hrecv.ok hresult).1
    | error e c' =>
      rw [hresult] at hafter
      cases e with
      | error err =>
        cases hafter
        simp only [Call.reads, hresult]
        rw [hrecv.error hresult]
        exact h
      | _ => cases hafter
  · have hsame : call.reads s.conn s.read = s.read := by
      cases call with
      | streamRecv => exact absurd ⟨_, _, rfl⟩ hread
      | _ => rfl
    have hrehears : s.conn.streams.Rehears t.wrote t.conn.streams.Closed c.streams :=
      Call.rehears hc (fun id cap heq => hread ⟨id, cap, heq⟩) fun f hf => htrue _ hf
    unfold Hears
    rw [hsame]
    exact hrehears _ h

theorem Says.grow {m : Message} (hm : s.Says t m) (h : s.Grows s')
    (hconfig : s.conn.SameConfig s'.conn) : s'.Says t m := by
  cases m with
  | frame f => exact Frame.IsTrue.grow hm h.told h.closed
  | params params => exact Eq.trans hm hconfig.localParams.symm

/-- Two parties can rely on each other: each one says what it has written, and hears what the
other one says. -/
theorem contract : party.Contract Tells Says Hears where
  sends s t hs _ _ _ m hm := by
    obtain ⟨d, htells⟩ := hs
    rcases List.mem_cons.mp hm with rfl | hframe
    · rfl
    · obtain ⟨f, hf, rfl⟩ := List.mem_map.mp hframe
      exact htells.frames f (.inl (Connection.mem_sentFrames hf))
  step s t call s' hs ht hst hts htrue hstep := by
    obtain ⟨htells, hgrows⟩ := Tells.step hs hstep
    obtain ⟨c, hc, rfl⟩ := step_eq_some hstep
    refine ⟨htells, hst.step htrue hstep, hts.grow hgrows, fun m => ⟨fun hm => ?_, ?_⟩⟩
    · exact hm.grow hgrows (Call.sameConfig hc)
    · cases m <;> exact fun hm => hm

end Party

/-! ### Two parties -/

namespace Duplex

/-- A client on the left and a server on the right, which may have verified the address of the
client with a Retry packet. -/
def start (config : Side → Connection.Config) (afterRetry : Bool) (now : Side → ℕ) :
    Link Party Message :=
  .start party fun side =>
    .new (config side) (side == .right) (side == .right && afterRetry) (now side)

/-- Two parties after some calls of both applications. -/
def Reachable (l : Link Party Message) : Prop :=
  ∃ config afterRetry now labels, run (Link.step party) (start config afterRetry now) labels =
    some l

variable {l l' : Link Party Message}

theorem Reachable.holds (h : Reachable l) : Party.contract.Holds l := by
  obtain ⟨config, afterRetry, now, labels, hrun⟩ := h
  refine Party.contract.run (Party.contract.start (fun side => Party.new_tells _ _ _ _) ?_) hrun
  intro side
  refine ⟨fun id s hs => ?_, fun _ _ _ => rfl, fun _ => List.nil_prefix⟩
  cases hs

/-- The first packet of the client arrives, and the handshake completes on both sides. The client
writes to its first stream and sends; its data arrives. -/
def exchange : List (Side × Call) :=
  [ (.right, .recv
      { packets :=
          [{ ty := .initial
             version := protocolVersionDraft25
             scidLen := 0
             pktNum := 0
             fecInfo := .none
             restored := []
             restoredError := none
             frames := []
             framesError := none
             now := 0 }]
        error := none
        len := 1200 }),
    (.right, Sample.send 0), (.left, Sample.send 0),
    (.left, Sample.write 0 [1, 2, 3] true), (.left, Sample.send 1),
    (.right, Sample.recv 0 [.stream 0 ⟨[1, 2, 3], 0, true⟩] 2)]

/-- The two parties after some calls. -/
def sample (labels : List (Side × Call)) : Option (Link Party Message) :=
  run (Link.step party) (start (fun _ => Sample.config (.basic {})) false fun _ => 0) labels

theorem sample_reachable {labels : List (Side × Call)} (h : sample labels = some l) : Reachable l :=
  ⟨_, _, _, labels, h⟩

/-- What an application has read from a stream is, byte for byte, the start of what the other
one has written to it, whatever the network does. -/
theorem Reachable.read_told (h : Reachable l) (side : Side) (id : ℕ) :
    (l.state side).read id <+: (l.state side.other).wrote id :=
  (h.holds.knows side).told id

/-- Two of three bytes are read, although the packet comes again under another number. -/
theorem read_told_twice : ∃ l, sample (exchange ++
    [(.right, Sample.recv 1 [.stream 0 ⟨[1, 2, 3], 0, true⟩] 3), (.right, .streamRecv 0 2)]) =
      some l ∧ (l.state .right).read 0 = [1, 2] ∧ [1, 2] <+: (l.state .left).wrote 0 := by
  have hrun : (sample (exchange ++ [(.right, Sample.recv 1 [.stream 0 ⟨[1, 2, 3], 0, true⟩] 3),
      (.right, .streamRecv 0 2)])).any (fun l =>
        decide ((l.state .right).read 0 = [1, 2])) = true := by decide +kernel
  obtain ⟨l, hl, hread⟩ := (Option.any_eq_true _ _).mp hrun
  have hread := of_decide_eq_true hread
  exact ⟨l, hl, hread, hread ▸ (sample_reachable hl).read_told .right 0⟩

/-- When a read reports the end of a stream, everything that the other application has written
to it was read, and it stores nothing more there. -/
theorem Reachable.end_read (h : Reachable l) {side : Side} {id cap : ℕ} {bytes : List UInt8}
    {c : Connection}
    (hread : Connection.streamRecv id cap (l.state side).conn = .ok (bytes, true) c) :
    (l.state side).read id ++ bytes = (l.state side.other).wrote id ∧
      ∀ labels l', run (Link.step party) l labels = some l' →
        (l'.state side.other).wrote id = (l.state side.other).wrote id := by
  have holds := h.holds
  obtain ⟨hclosed, hall⟩ := ((Connection.streamRecv_hears (holds.knows side) id cap).ok hread).2 rfl
  refine ⟨hall, fun labels l' hrun => ?_⟩
  -- a closed stream remains closed, with what was written to it
  let I (k : Link Party Message) : Prop := Party.contract.Holds k ∧
    (k.state side.other).conn.streams.Closed id ∧
      (k.state side.other).wrote id = (l.state side.other).wrote id
  have hstep (k : Link Party Message) (label : Side × Call) (k' : Link Party Message) (hk : I k)
      (hk' : k.step party label = some k') : I k' := by
    have hholds := Party.contract.holds_step hk.1 hk'
    obtain ⟨j, call⟩ := label
    obtain ⟨-, s, hs, rfl⟩ := Link.step_eq_some hk'
    have hgrows := (Party.Tells.step (hk.1.inv j) hs).2
    refine ⟨hholds, ?_⟩
    by_cases hj : side.other = j
    · subst hj
      simp only [Function.update_self]
      obtain ⟨hc, hw⟩ := hgrows.closed id hk.2.1
      exact ⟨hc, hw.trans hk.2.2⟩
    · simp only [Function.update_of_ne hj]
      exact hk.2
  exact (Lib.run_invariant hstep ⟨holds, hclosed, rfl⟩ hrun).2.2

theorem end_read_exchanged : ∃ l c, sample exchange = some l ∧
    Connection.streamRecv 0 10 (l.state .right).conn = .ok ([1, 2, 3], true) c ∧
      (l.state .right).read 0 ++ [1, 2, 3] = (l.state .left).wrote 0 := by
  have hrun : (sample exchange).any (fun l =>
      (Connection.streamRecv 0 10).returnsWith (l.state .right).conn fun r _ =>
        decide (r = ([1, 2, 3], true))) = true := by decide +kernel
  obtain ⟨l, hl, hread⟩ := (Option.any_eq_true _ _).mp hrun
  obtain ⟨r, c, hread, hr⟩ := Program.returnsWith_iff.mp hread
  obtain rfl := of_decide_eq_true hr
  exact ⟨l, c, hl, hread, ((sample_reachable hl).end_read hread).1⟩

/-- A frame about a stream is never refused for the final size of the stream. -/
theorem Reachable.final_size_kept (h : Reachable l) (side : Side) {f : Frame}
    (hsent : .frame f ∈ l.wire side.other) (hf : f.about ≠ none) (epoch : Epoch) (env : Env) :
    (Connection.processFrame f epoch env).Ends (l.state side).conn (fun _ _ => True)
      fun e _ => e ≠ .error .finalSize := by
  have hears := h.holds.knows side
  refine (Connection.processFrame_refusal hf epoch env fun id s opens =>
    (hears.origin opens.origin).wf).mono (fun _ _ => id) fun e c he => ?_
  obtain ⟨err, rfl, hrefusal⟩ := he
  have hne := hrefusal.ne_finalSize hears (h.holds.said side.other _ hsent)
  exact fun heq => hne (Fault.error.inj heq)

theorem final_size_kept_exchanged : ∃ l, sample exchange = some l ∧
    (Connection.processFrame (.stream 0 ⟨[1, 2, 3], 0, true⟩) .application (Sample.env 3)).Ends
      (l.state .right).conn (fun _ _ => True) fun e _ => e ≠ .error .finalSize := by
  have hrun : (sample exchange).any (fun l =>
      decide (.frame (.stream 0 ⟨[1, 2, 3], 0, true⟩) ∈ l.wire .left)) = true := by decide +kernel
  obtain ⟨l, hl, hsent⟩ := (Option.any_eq_true _ _).mp hrun
  have hsent := of_decide_eq_true hsent
  exact ⟨l, hl, (sample_reachable hl).final_size_kept .right hsent (Option.some_ne_none 0) _ _⟩

end Duplex

end Dtp
