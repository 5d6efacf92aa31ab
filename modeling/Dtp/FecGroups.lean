import Dtp.Budget
import Dtp.Calls
import Dtp.Writers

/-!
# How FEC groups are formed

The first packet of a FEC group sets the length of its shards, and the packets that
follow are filled by acknowledgements, control frames and handshake data before the data
of a stream is cut to fit. What does not fit makes the sender panic.

## Main definitions

* `Connection.SuitsGroup` — a packet that can join the FEC group that is being filled
* `Connection.Joins` — `send` adds a packet to a group
* `Connection.FecHistory` — a run with the packets that were added to groups
* `Connection.FormsGroups` — the groups of these packets are well formed

## Main results

* `Connection.FecHistory.formsGroups` — groups are well formed as long as all packets suit
  them
-/

namespace Dtp

open Lib (Fault Program run)

/-! ### What leaves the FEC state alone -/

namespace Connection

/-- The FEC state does not change. -/
structure SameGroups (c c' : Connection) : Prop where
  fec : c'.fec = c.fec
  fecEncoded : c'.fecEncoded = c.fecEncoded
  nextFecGroupId : c'.nextFecGroupId = c.nextFecGroupId

theorem SameGroups.refl (c : Connection) : c.SameGroups c := ⟨rfl, rfl, rfl⟩

/-- The program leaves the FEC state as it was in `c`, however it ends. -/
abbrev KeepsGroups {α : Type} (c : Connection) (x : Program Error Connection α) : Prop :=
  Program.Maintains c.SameGroups (fun _ => c.SameGroups) x

section Keep

variable {c : Connection}

theorem dropEpochState_keepsGroups {c' : Connection} (h : c.SameGroups c') (epoch : Epoch)
    (now : ℕ) :
    c.SameGroups (c'.dropEpochState epoch now) := by
  unfold dropEpochState
  split_ifs
  · exact { h with }
  · exact h

theorem doHandshake_keepsGroups (hs : HandshakeStep) : c.KeepsGroups (doHandshake hs) :=
  HandshakeParts.maintains
    { write := fun _ _ _ _ _ _ h => { h with }
      full := fun _ h => h
      keys := fun _ h => { h with }
      failed := fun _ _ _ h => h
      noProtocol := fun _ h => { h with }
      refused := fun _ _ _ h => h
      params := fun _ _ _ h => { h with } }

private theorem SameGroups.of_sameTransport {c' c'' : Connection} (h : c.SameGroups c')
    (hsame : c'.SameTransport c'') : c.SameGroups c'' := by
  cases hsame
  exact { h with }

theorem keepsGroups_of_streaming {α : Type} {x : Program Error Connection α} (h : Streaming x) :
    c.KeepsGroups x := h.maintains fun _ _ hc hsame => hc.of_sameTransport hsame

private theorem readCrypto_keepsGroups (epoch : Epoch) (fuel : ℕ) :
    c.KeepsGroups (readCrypto epoch fuel) := by
  induction fuel with
  | zero => exact Program.maintains_pure ()
  | succ fuel ih =>
    refine Program.maintains_get_bind fun c' h => ?_
    dsimp only
    split
    · exact h
    · rw [Program.ends_bind, Program.ends_set]
      exact ih _ { h with }

private theorem processCrypto_keepsGroups (data : RangeBuf) (epoch : Epoch) (env : Env) :
    c.KeepsGroups (processCrypto data epoch env) := by
  refine Program.maintains_get_bind fun c' h => ?_
  dsimp only
  split
  · exact h
  · rw [Program.ends_bind, Program.ends_set]
    exact Program.Maintains.bind (readCrypto_keepsGroups epoch _)
      (fun _ => doHandshake_keepsGroups env.handshake) _ { h with }

private theorem processAck_keepsGroups (packetTime ackDelay : ℕ) (ranges : RangeSet) (epoch : Epoch)
    (env : Env) :
    c.KeepsGroups (processAck packetTime ackDelay ranges epoch env) := by
  refine Program.maintains_get_bind fun c' h => Program.ends_ite.mpr ⟨fun _ => h, fun _ => ?_⟩
  split
  · exact h
  · refine Program.ends_ite.mpr ⟨fun _ => ?_, fun _ => { h with }⟩
    refine Program.ends_set.mpr (dropEpochState_keepsGroups ?_ .handshake env.wall)
    exact { h with }

private theorem processFrame_keepsGroups (frame : Frame) (epoch : Epoch) (env : Env) :
    c.KeepsGroups (processFrame frame epoch env) := by
  cases frame with
  | ack packetTime ackDelay ranges =>
    exact processAck_keepsGroups packetTime ackDelay ranges epoch env
  | crypto data => exact processCrypto_keepsGroups data epoch env
  | handshakeDone =>
    refine Program.maintains_get_bind fun c' h => Program.ends_ite.mpr ⟨fun _ => h, fun _ =>
      Program.ends_ite.mpr ⟨fun _ => h, fun _ => ?_⟩⟩
    refine Program.ends_set.mpr (dropEpochState_keepsGroups ?_ .handshake env.wall)
    exact { h with }
  | _ =>
    exact keepsGroups_of_streaming (processFrame_streaming rfl epoch env)

private theorem takeAcked_keepsGroups {c' : Connection} (h : c.SameGroups c') (epoch : Epoch) :
    c.SameGroups (c'.takeAcked epoch) :=
  AckedParts.takeAcked
    { pop := fun _ _ h => { h with }
      ack := fun _ _ h => { h with }
      crypto := fun _ _ h => { h with }
      stream := fun _ _ _ _ _ _ _ h => { h with } } h

private theorem received_keepsGroups {c' : Connection} (h : c.SameGroups c') (pkt : RxPacket)
    (epoch : Epoch) :
    c.SameGroups (received pkt epoch c') := by
  unfold received
  dsimp only
  split_ifs
  · have hcount : c.SameGroups
        { c'.modifySpace epoch pkt.record with recvCount := c'.recvCount + 1 } :=
      { h with }
    have hdrop := dropEpochState_keepsGroups hcount .initial pkt.now
    exact { hdrop with }
  · exact { h with }

private theorem acceptHeader_keepsGroups (pkt : RxPacket) : c.KeepsGroups (acceptHeader pkt) := by
  refine Program.maintains_get_bind fun c' h => Program.ends_ite.mpr ⟨fun _ => h, fun _ => ?_⟩
  refine Program.Maintains.bind (.when fun _ => Program.maintains_modify fun _ h => { h with })
    (fun _ => ?_) c' h
  refine Program.maintains_get_bind fun c' h => Program.ends_ite.mpr ⟨fun _ => h, fun _ =>
    Program.ends_ite.mpr ⟨fun _ => h, fun _ => ?_⟩⟩
  rw [Program.ends_bind, Program.ends_modify]
  exact { h with }

theorem drainLost_keepsGroups (epoch : Epoch) : c.KeepsGroups (drainLost epoch) := by
  have hparts : LostParts c.SameGroups (fun _ => c.SameGroups) epoch :=
    { pop := fun _ _ h => { h with }
      crypto := fun _ _ _ _ h => { h with }
      blockInfo := fun _ _ _ _ h => { h with }
      stream := fun _ _ _ _ _ _ _ _ h => { h with }
      ack := fun _ h => { h with }
      handshakeDone := fun _ h => { h with }
      refused := fun _ _ _ h => { h with } }
  exact maintains_drainLost hparts.takeLost fun _ _ h => { h with }

/-- No call but `send` changes the FEC state. -/
theorem call_keepsGroups {call : Call} (other : ∀ outLen env, call ≠ .send outLen env) :
    c.KeepsGroups call.program := by
  refine Parts.call ?_ other
  exact
    { write := fun id data fin deadline priority now => keepsGroups_of_streaming
        (streamSendFull_streaming id data fin deadline priority now)
      read := fun id cap => keepsGroups_of_streaming (streamRecv_streaming id cap)
      shutdown :=
        fun id direction => keepsGroups_of_streaming (streamShutdown_streaming id direction)
      header := acceptHeader_keepsGroups
      frame := processFrame_keepsGroups
      acked := fun epoch _ h => takeAcked_keepsGroups h epoch
      received := fun pkt epoch _ h => received_keepsGroups h pkt epoch
      timeout := fun env c' h => by
        unfold onTimeout
        split_ifs
        · exact h
        · exact { h with }
        · exact h
      other := fun _ _ _ _ _ _ h => { h with } }

end Keep

end Connection

/-! ### Putting packets together -/

namespace Packing

/-- Fills a packet and pads it. -/
def load (epoch : Epoch) (pnLen : ℕ) (env : SendEnv) : Program Error Packing Unit := do
  fillPacket epoch env
  countProbe epoch
  if (← get).draft.frames.isEmpty then Program.fail .done
  else
    padInitial epoch pnLen
    padPayload epoch

/-- Seals a packet and records it. -/
def finish (epoch : Epoch) (headerLen pnLen avail : ℕ) (env : SendEnv) :
    Program Error Packing ℕ := do
  let written ← sealPacket epoch headerLen pnLen avail
  recordSent epoch written env
  pure written

private theorem packet_eq (epoch : Epoch) (headerLen pnLen avail : ℕ) (env : SendEnv) :
    packet epoch headerLen pnLen avail env =
      (do load epoch pnLen env; finish epoch headerLen pnLen avail env) := by
  simp only [packet, load, finish, bind_assoc]
  congr 1
  funext _
  congr 1
  funext _
  congr 1
  funext p
  split_ifs
  · rfl
  · simp only [bind_assoc]

end Packing

namespace Connection

/-- The FEC state is as before, but redundant packets may have left the queue. -/
structure Unqueues (c c' : Connection) : Prop where
  fec : c'.fec = c.fec
  nextFecGroupId : c'.nextFecGroupId = c.nextFecGroupId
  fecEncoded : c'.fecEncoded <:+ c.fecEncoded

theorem Unqueues.refl (c : Connection) : c.Unqueues c := ⟨rfl, rfl, List.suffix_rfl⟩

theorem Unqueues.trans {c c' c'' : Connection} (h : c.Unqueues c') (h' : c'.Unqueues c'') :
    c.Unqueues c'' :=
  ⟨h'.fec.trans h.fec, h'.nextFecGroupId.trans h.nextFecGroupId, h'.fecEncoded.trans h.fecEncoded⟩

theorem SameGroups.unqueues {c c' : Connection} (h : c.SameGroups c') : c.Unqueues c' :=
  ⟨h.fec, h.nextFecGroupId, h.fecEncoded ▸ List.suffix_rfl⟩

end Connection

namespace Packing

/-- The faults of which nothing is claimed, other than errors. -/
private abbrev onError (P : Packing → Prop) : Lib.Fault Error → Packing → Prop :=
  fun e p => (∃ err, e = .error err) → P p

variable {c : Connection} {epoch : Epoch} {pnLen room : ℕ} {env : SendEnv}

/-- A packet that is filled: redundant packets may have left the queue, and only a packet
without FEC data asks for a new group. -/
structure Drawn (c : Connection) (epoch : Epoch) (room : ℕ) (env : SendEnv) (p : Packing) :
    Prop where
  unqueues : c.Unqueues p.conn
  chosen : p.draft.Chosen c room env
  plain : p.draft.m ≠ 0 → c.fecEncoded = [] ∧ epoch = .application

theorem SameFec.unqueues {d : Draft} {p : Packing} (h : SameFec c ⟨c, d⟩ p) :
    c.Unqueues p.conn :=
  ⟨h.fec, h.nextFecGroupId, h.fecEncoded ▸ List.suffix_rfl⟩

theorem fillPacket_draws :
    (fillPacket epoch env).Ends ⟨c, .new room⟩ (fun _ => Drawn c epoch room env)
    (onError fun p => c.Unqueues p.conn) := by
  rw [fillPacket, Program.ends_bind, Program.ends_get]
  dsimp only
  cases hfec : c.fecEncoded with
  | nil =>
    have hfilling : (writeFrames epoch env).Ends ⟨c, .new room⟩
        (fun _ => Filling (c.Writes epoch) c room) fun _ _ => True :=
      writeFrames_filling env (filling_new _ c room)
    refine (((writeFrames_sameFec epoch _).and hfilling).and (writeFrames_chosen epoch env)).mono
      ?_ ?_
    · rintro _ p ⟨⟨h, hp⟩, hchosen⟩
      refine ⟨h.unqueues, hchosen, fun hm => ⟨hfec, ?_⟩⟩
      cases hp.group hm 0 ⟨[], 0, false⟩
      assumption
    · exact fun e p h he => (h.1.1 he).unqueues
  | cons head rest =>
    obtain ⟨info, len⟩ := head
    have hpop : c.Unqueues { c with fecEncoded := rest } := ⟨rfl, rfl, hfec ▸ List.suffix_cons _ _⟩
    refine Program.ends_ite.mpr ⟨fun _ => ?_, fun _ _ => .refl c⟩
    rw [modifyConn, Program.ends_bind, Program.ends_modify, Program.ends_bind]
    refine (addFrame_writes _ _ _).mono (fun _ p hp => ?_) fun e p he hx =>
      absurd hx.choose_spec (he _)
    have hm : p.draft.m = 0 := hp.2.2.m
    refine ⟨hp.1 ▸ hpop, .inl hm, absurd hm⟩

private theorem countProbe_draws :
    Program.Maintains (Drawn c epoch room env) (onError fun p => c.Unqueues p.conn)
        (countProbe epoch) := by
  refine Program.maintains_get_bind fun p h => Program.ends_ite.mpr ⟨fun _ => ?_, fun _ => h⟩
  exact { h with unqueues := { h.unqueues with } }

private theorem padInitial_draws :
    Program.Maintains (Drawn c epoch room env) (onError fun p => c.Unqueues p.conn)
        (padInitial epoch pnLen) := by
  refine Program.maintains_get_bind fun p h => Program.ends_ite.mpr ⟨fun _ => ?_, fun _ => h⟩
  exact Program.ends_ite.mpr ⟨fun _ _ => h.unqueues, fun _ => { h with }⟩

private theorem padPayload_draws :
    Program.Maintains (Drawn c epoch room env) (onError fun p => c.Unqueues p.conn)
        (padPayload epoch) := by
  refine Program.maintains_get_bind fun p h => Program.ends_ite.mpr ⟨fun _ => ?_, fun _ => h⟩
  exact { h with }

theorem load_draws : (load epoch pnLen env).Ends ⟨c, .new room⟩ (fun _ => Drawn c epoch room env)
    (onError fun p => c.Unqueues p.conn) := by
  refine fillPacket_draws.bind fun _ p₁ h₁ => (countProbe_draws p₁ h₁).bind fun _ p₂ h₂ => ?_
  refine Program.ends_ite.mpr ⟨fun _ _ => h₂.unqueues, fun _ => ?_⟩
  exact (padInitial_draws p₂ h₂).bind fun _ p₃ h₃ => padPayload_draws p₃ h₃

/-- What is left of the padding when the packet belongs to an open group. -/
theorem load_shard {group : FecGroup} (hroom : room < 2 ^ 14) (hfec : c.fec = some group)
    (hencoded : c.fecEncoded = []) (hfits : c.FitsFrames .application room env)
    (hshard : c.controlLen .application room env + 1 ≤ group.shardSize) :
    (load .application pnLen env).Ends ⟨c, .new room⟩
      (fun _ p => p.draft.payloadLen = group.shardSize) fun _ _ => True := by
  have hfill : (fillPacket .application env).Ends ⟨c, .new room⟩
      (fun _ p => p.conn.fec = some group ∧ p.draft.payloadLen ≤ group.shardSize) fun _ _ =>
          True := by
    rw [fillPacket, Program.ends_bind, Program.ends_get]
    dsimp only
    rw [hencoded]
    refine (writeFrames_spends hroom env hfits).mono (fun _ p hp => ⟨?_, ?_⟩) fun _ _ _ => trivial
    · rw [hp.1.filling.fec, hfec]
    · rcases hp.2 with hp | ⟨-, hp⟩
      · exact hp.trans hshard
      · rw [Connection.dataCap, hfec] at hp
        dsimp only at hp
        omega
  refine hfill.bind fun _ p₁ h₁ => ?_
  have hcount : (countProbe .application).Ends p₁
      (fun _ p => p.conn.fec = some group ∧ p.draft.payloadLen ≤ group.shardSize) fun _ _ =>
          True := by
    rw [countProbe, Program.ends_bind, Program.ends_get]
    exact Program.ends_ite.mpr ⟨fun _ => h₁, fun _ => h₁⟩
  refine hcount.bind fun _ p₂ h₂ => Program.ends_ite.mpr ⟨fun _ => trivial, fun _ => ?_⟩
  have hinitial : (padInitial .application pnLen).Ends p₂ (fun _ p => p = p₂) fun _ _ => True := by
    rw [padInitial, Program.ends_bind, Program.ends_get]
    exact Program.ends_ite.mpr ⟨fun h => absurd h.2 (by decide), fun _ => rfl⟩
  refine hinitial.bind fun _ p₃ h₃ => ?_
  subst h₃
  have hmin : p₃.minPayload .application = group.shardSize := by
    rw [minPayload, h₂.1]
    rfl
  rw [padPayload, Program.ends_bind, Program.ends_get, hmin, Program.ends_ite]
  refine ⟨fun _ => ?_, fun hlong => Nat.le_antisymm h₂.2 (not_lt.mp hlong)⟩
  exact Nat.add_sub_cancel' h₂.2

private theorem recordSent_keepsGroups (written : ℕ) :
    Program.Maintains (fun p => c.SameGroups p.conn) (fun _ _ => False)
      (recordSent epoch written env) := by
  intro p h
  have hcounted : c.SameGroups (p.counted epoch written env) := { h with }
  have hsettled : c.SameGroups (p.settled epoch written env) := by
    unfold settled
    dsimp only
    split_ifs
    · exact Connection.dropEpochState_keepsGroups hcounted .initial env.wall
    · exact hcounted
  rw [Program.Ends, recordSent_eq]
  exact { hsettled with }

private theorem joinFecGroup_noError (p : Packing) :
    joinFecGroup.Ends p (fun _ _ => True) noError := by
  rw [joinFecGroup, Program.ends_bind, Program.ends_get]
  exact Program.ends_ite.mpr ⟨fun _ => Fault.panic_ne_error, fun _ => trivial⟩

/-- What `finish` does to the FEC state: if there is room for it and the packet belongs to
a group, it joins the group. -/
inductive Finished (epoch : Epoch) (headerLen pnLen avail : ℕ) (p : Packing) (c : Connection) : Prop
  | long (h : avail < payloadOffset epoch headerLen pnLen p.draft.payloadLen + p.draft.payloadLen)
      (same : p.conn.SameGroups c)
  | alone (h : ¬ p.joinsGroup) (same : p.conn.SameGroups c)
  | joined {p' : Packing}
      (room : payloadOffset epoch headerLen pnLen p.draft.payloadLen + p.draft.payloadLen ≤ avail)
      (h : p.joinsGroup) (join : joinFecGroup p = .ok () p') (same : p'.conn.SameGroups c)

private theorem finish_ends (headerLen avail : ℕ) (p : Packing) :
    (finish epoch headerLen pnLen avail env).Ends p
    (fun _ p' => Finished epoch headerLen pnLen avail p p'.conn)
    (onError fun p' => Finished epoch headerLen pnLen avail p p'.conn) := by
  rw [finish, Program.ends_bind, sealPacket, Program.ends_bind, Program.ends_get]
  refine Program.ends_ite.mpr ⟨fun hlong _ => .long hlong (.refl _), fun hroom => ?_⟩
  refine Program.Ends.bind (R := fun _ p₁ => ∀ c, p₁.conn.SameGroups c →
      Finished epoch headerLen pnLen avail p c) ?_ fun _ p₁ h₁ => ?_
  · refine .when (fun hjoin => ?_) fun halone c hc => .alone halone hc
    refine Program.ends_iff.mpr ⟨fun _ p' join c hc => ?_, fun e p' hp' he => ?_⟩
    · exact .joined (not_lt.mp hroom) hjoin join hc
    · exact absurd he.choose_spec ((joinFecGroup_noError p).error hp' _)
  · refine Program.ends_ite.mpr ⟨fun _ _ => h₁ _ (.refl _), fun _ => ?_⟩
    refine Program.ends_ite.mpr ⟨fun _ _ => h₁ _ (.refl _), fun _ => ?_⟩
    exact Program.Ends.bind ((recordSent_keepsGroups _ p₁ (.refl _)).mono (fun _ _ h => h)
      fun _ _ h => h.elim) fun _ p₂ h₂ => h₁ _ h₂

end Packing

/-! ### Packets that join a group -/

namespace Connection

variable {outLen : ℕ} {env : SendEnv} {c c' : Connection} {epoch : Epoch}

/-- `send` has filled the packet `p`, which fits into its buffer and belongs to a FEC group. -/
inductive Joins (outLen : ℕ) (env : SendEnv) (c : Connection) (epoch : Epoch) (p : Packing) : Prop
  | intro {c₀ c₁ : Connection} {pnLen : ℕ} (prepares : c.Prepares outLen env c₀ epoch pnLen c₁)
      (sends : send outLen env c = sendPacket outLen env c₀ epoch pnLen c₁)
      (load : Packing.load epoch pnLen env
        ⟨c₁, .new (c₁.frameRoom epoch pnLen (c₀.packetCap outLen) env)⟩ = .ok () p)
      (room : Packing.payloadOffset epoch (c₁.headerLen epoch pnLen) pnLen p.draft.payloadLen
        + p.draft.payloadLen ≤ c₀.packetCap outLen)
      (joins : p.joinsGroup)

/-- A packet that joins the FEC group that is being filled, or one that it starts, is a
1-RTT packet, can be padded to the length of its shards, and gives all shards an index
that is a byte. -/
structure SuitsGroup (c : Connection) (epoch : Epoch) (room : ℕ) (env : SendEnv) : Prop where
  short : c.fec.isSome → epoch = .application
  frames : c.fec.isSome → c.FitsFrames epoch room env
  control : ∀ group, c.fec = some group → c.controlLen epoch room env + 1 ≤ group.shardSize
  bytes : c.fecEncoded = [] → epoch = .application → ∀ block tail,
    c.StartsGroup room env block tail →
      groupSize tail + env.redundancy block (groupSize tail) ≤ 255

/-- The packet that is written next suits the FEC group that it belongs to. -/
def Suits (outLen : ℕ) (env : SendEnv) (c : Connection) : Prop :=
  ∀ c₀ epoch pnLen c₁, c.Prepares outLen env c₀ epoch pnLen c₁ →
    c₁.SuitsGroup epoch (c₁.frameRoom epoch pnLen (c₀.packetCap outLen) env) env

theorem Joins.unique {p p' : Packing} {epoch' : Epoch} (h : c.Joins outLen env epoch p)
    (h' : c.Joins outLen env epoch' p') : epoch = epoch' ∧ p = p' := by
  obtain ⟨prepares, -, load, -, -⟩ := h
  obtain ⟨prepares', -, load', -, -⟩ := h'
  obtain ⟨rfl, rfl, rfl, rfl⟩ := prepares.unique prepares'
  cases load.symm.trans load'
  exact ⟨rfl, rfl⟩

/-- What is left of a packet that was put together. -/
theorem sendPacket_ends {c₀ c₁ : Connection} {pnLen : ℕ} :
    (sendPacket outLen env c₀ epoch pnLen).Keeps (fun c₁ c' =>
      (∃ p, Packing.load epoch pnLen env
          ⟨c₁, .new (c₁.frameRoom epoch pnLen (c₀.packetCap outLen) env)⟩ = .ok () p ∧
        Packing.Finished epoch (c₁.headerLen epoch pnLen) pnLen (c₀.packetCap outLen) p c') ∨
      (∀ p, Packing.load epoch pnLen env
          ⟨c₁, .new (c₁.frameRoom epoch pnLen (c₀.packetCap outLen) env)⟩ ≠ .ok () p) ∧
        c₁.Unqueues c') c₁ := by
  unfold Program.Keeps
  rw [sendPacket, Program.ends_bind, Program.ends_get, Program.ends_zoom, Packing.packet_eq,
    Program.ends_bind]
  refine Program.ends_iff.mpr ⟨fun _ p hload => ?_, fun e p hload he => ?_⟩
  · refine (Packing.finish_ends _ _ p).mono (fun _ p' h => .inl ⟨p, hload, h⟩) fun e p' h he => ?_
    exact .inl ⟨p, hload, h he⟩
  · refine .inr ⟨fun p' hp' => ?_, Packing.load_draws.error hload he⟩
    rw [hload] at hp'
    cases hp'

theorem Stops.sameGroups {e : Error} (h : c.Stops outLen env (.error e) c') : c.SameGroups c' := by
  have hhandshake : c.KeepsGroups (Program.when (!c.isClosing) (doHandshake env.handshake)) :=
    .when fun _ => doHandshake_keepsGroups env.handshake
  cases h with
  | refused e => exact .refl c
  | handshake handshake => exact (hhandshake c (.refl c)).error handshake
  | idle e handshake => exact (hhandshake c (.refl c)).ok handshake
  | drain handshake chosen drain =>
    exact (drainLost_keepsGroups _ _ ((hhandshake c (.refl c)).ok handshake)).error drain
  | noRoom e handshake chosen drain =>
    exact (drainLost_keepsGroups _ _ ((hhandshake c (.refl c)).ok handshake)).ok drain

theorem Prepares.sameGroups {c₀ c₁ : Connection} {pnLen : ℕ}
    (h : c.Prepares outLen env c₀ epoch pnLen c₁) : c.SameGroups c₁ := by
  have hhandshake : c.KeepsGroups (Program.when (!c.isClosing) (doHandshake env.handshake)) :=
    .when fun _ => doHandshake_keepsGroups env.handshake
  exact (drainLost_keepsGroups _ _ ((hhandshake c (.refl c)).ok h.handshake)).ok h.drain

/-- `send` adds one packet to a FEC group, or none. -/
theorem send_groups (hstep : (Call.send outLen env).step c = some c') :
    (∃ epoch p p', c.Joins outLen env epoch p ∧ Packing.joinFecGroup p = .ok () p' ∧
      p'.conn.SameGroups c') ∨
    (∀ epoch p, ¬ c.Joins outLen env epoch p) ∧ c.Unqueues c' := by
  have hafter : (send outLen env).after c = some c' := by
    rwa [Call.step, Call.program, Program.discard_after] at hstep
  have hpacket {c₀ c₁ : Connection} {epoch : Epoch} {pnLen : ℕ}
      (heq : send outLen env c = sendPacket outLen env c₀ epoch pnLen c₁) :
      (sendPacket outLen env c₀ epoch pnLen).after c₁ = some c' := by
    rw [← hafter]
    unfold Program.after
    rw [heq]
  by_cases hjoins : ∃ epoch p, c.Joins outLen env epoch p
  · obtain ⟨epoch, p, h⟩ := hjoins
    obtain ⟨prepares, sends, load, room, joins⟩ := id h
    rcases Program.keeps_iff_after.mp sendPacket_ends c' (hpacket sends) with
      ⟨p₁, hload, hfinished⟩ | ⟨hload, -⟩
    · obtain rfl : p = p₁ := by
        rw [load] at hload
        cases hload
        rfl
      cases hfinished with
      | long hlong => omega
      | alone halone => exact absurd joins halone
      | joined _ _ join same => exact .inl ⟨epoch, p, _, h, join, same⟩
    · exact absurd load (hload p)
  · -- no packet joins a group, and the queue of redundant ones only gets shorter
    refine .inr ⟨fun epoch p h => hjoins ⟨epoch, p, h⟩, ?_⟩
    rcases send_cases outLen env c with ⟨e, c'', heq, hstops⟩ | ⟨c₀, epoch, pnLen, c₁, hprep, heq⟩
    · rw [Program.after, heq] at hafter
      cases e with
      | error e =>
        cases hafter
        exact hstops.sameGroups.unqueues
      | _ => cases hafter
    · refine hprep.sameGroups.unqueues.trans ?_
      rcases Program.keeps_iff_after.mp sendPacket_ends c' (hpacket heq) with
        ⟨p, hload, hfinished⟩ | ⟨-, hunqueues⟩
      · have hp : c₁.Unqueues p.conn := (Packing.load_draws.ok hload).unqueues
        cases hfinished with
        | long _ same => exact hp.trans same.unqueues
        | alone _ same => exact hp.trans same.unqueues
        | joined room joins => exact absurd ⟨epoch, p, .intro hprep heq hload room joins⟩ hjoins
      · exact hunqueues

end Connection

/-! ### Histories -/

/-- A packet that was added to a FEC group, and the redundant packets that were queued with
it. -/
structure Added where
  epoch : Epoch
  payloadLen : ℕ
  info : FecStatus
  encoded : List (FecStatus × ℕ)
  deriving DecidableEq

/-- The packet `p` has become `p'` by joining a group. -/
def Added.of (epoch : Epoch) (p p' : Packing) : Added where
  epoch := epoch
  payloadLen := p.draft.payloadLen
  info := p'.draft.fecInfo
  encoded := p'.conn.fecEncoded.drop p.conn.fecEncoded.length

/-- The packet with index `i` of a group with `m` packets of `size` bytes and `n` redundant
packets, which are queued with the last one. -/
def Added.nth (id m n size i : ℕ) : Added where
  epoch := .application
  payloadLen := size
  info := ⟨m, n, id, i⟩
  encoded := if i + 1 = m then (List.range' m n).map fun j => (⟨m, n, id, j⟩, size) else []

namespace Connection

/-- What a call adds to FEC groups, if `ok` holds before every `send`. -/
inductive FecStep (ok : ℕ → SendEnv → Connection → Prop) (c : Connection) :
    List Added → Connection → Prop
  | other {call : Call} {c' : Connection} (h : ∀ outLen env, call ≠ .send outLen env)
      (step : call.step c = some c') : FecStep ok c [] c'
  | alone {outLen : ℕ} {env : SendEnv} {c' : Connection} (h : ok outLen env c)
      (step : (Call.send outLen env).step c = some c')
      (none : ∀ epoch p, ¬ c.Joins outLen env epoch p) : FecStep ok c [] c'
  | joined {outLen : ℕ} {env : SendEnv} {c' : Connection} {epoch : Epoch} {p p' : Packing}
      (h : ok outLen env c) (step : (Call.send outLen env).step c = some c')
      (joins : c.Joins outLen env epoch p) (join : Packing.joinFecGroup p = .ok () p') :
      FecStep ok c [.of epoch p p'] c'

/-- A run from a new connection, with the packets that were added to FEC groups. -/
def FecHistory (ok : ℕ → SendEnv → Connection → Prop) : Connection → List Added → Prop :=
  Lib.Trace (fun c => ∃ config isServer afterRetry now, c = .new config isServer afterRetry now)
    (FecStep ok)

/-- The first `k` packets of a group were added, each with its index and the length of the
shards, and the group was encoded if these are all. -/
structure IsGroup (log : List Added) (id m n size k : ℕ) : Prop where
  bytes : m + n ≤ 255
  pos : 0 < k
  le : k ≤ m
  added : log.filter (fun x => x.info.groupId = id) = (List.range k).map (Added.nth id m n size)

/-- The FEC groups are well formed: all of them but the one that is being filled have their
packets, and the redundant packets that wait are among those that were queued. -/
structure FormsGroups (c : Connection) (log : List Added) : Prop where
  started : ∀ x ∈ log, 0 < x.info.groupId ∧ x.info.groupId < c.nextFecGroupId
  group : ∀ id, 0 < id → id < c.nextFecGroupId → ∃ m n size k, IsGroup log id m n size k ∧
    (k < m → c.fec = some ⟨⟨m, n, id, k - 1⟩, size, k⟩)
  filling : ∀ id m n size i k, c.fec = some ⟨⟨m, n, id, i⟩, size, k⟩ →
    0 < id ∧ id < c.nextFecGroupId ∧ i + 1 = k ∧ k < m ∧ IsGroup log id m n size k
  waiting : c.fecEncoded <:+ log.flatMap Added.encoded

section Groups

variable {outLen : ℕ} {env : SendEnv} {c c' : Connection} {epoch : Epoch} {log : List Added}
  {p p' : Packing} {id m n size i k : ℕ}

/-- The group that a packet joins. -/
def groupOf (p : Packing) : FecGroup :=
  p.conn.fec.getD ⟨⟨p.draft.m, p.draft.n, p.conn.nextFecGroupId, 0⟩, p.draft.payloadLen, 0⟩

/-- Joining a group adds the next packet to it. -/
theorem joinFecGroup_nth (hgroup : groupOf p = ⟨⟨m, n, id, i⟩, size, k⟩)
    (hlen : p.draft.payloadLen = size) (hbytes : m + n ≤ 255) (hk : k < m) :
    ∃ p', Packing.joinFecGroup p = .ok () p' ∧
      Added.of .application p p' = Added.nth id m n size k ∧
      p'.conn.nextFecGroupId = p.conn.nextFecGroupId + (if p.conn.fec.isNone then 1 else 0) ∧
      p'.conn.fec = (if k + 1 = m then none else some ⟨⟨m, n, id, k⟩, size, k + 1⟩) ∧
      p'.conn.fecEncoded = p.conn.fecEncoded ++ (Added.nth id m n size k).encoded := by
  have hnext : m ≤ k + 1 ↔ k + 1 = m := by omega
  rw [Packing.joinFecGroup, Program.bind_apply, Program.get_apply]
  dsimp only
  unfold groupOf at hgroup
  rw [hgroup]
  dsimp only
  rw [if_neg (by omega)]
  refine ⟨_, rfl, ?_, ?_, ?_, ?_⟩
  · simp only [Added.of, Added.nth, hlen, hnext]
    split_ifs <;> simp
  · dsimp only
    split_ifs <;> rfl
  · simp only [hnext]
  · simp only [Added.nth, hnext]
    split_ifs <;> simp

theorem FormsGroups.mono (h : c.FormsGroups log) (hc : c.Unqueues c') : c'.FormsGroups log where
  started x hx := by
    rw [hc.nextFecGroupId]
    exact h.started x hx
  group := by
    rw [hc.nextFecGroupId, hc.fec]
    exact h.group
  filling := by
    rw [hc.nextFecGroupId, hc.fec]
    exact h.filling
  waiting := hc.fecEncoded.trans h.waiting

/-- The groups are well formed, and no redundant packets wait while one is filled. -/
structure Groups (c : Connection) (log : List Added) : Prop extends FormsGroups c log where
  single : c.fec.isSome → c.fecEncoded = []
  pos : 0 < c.nextFecGroupId

theorem Groups.mono (h : c.Groups log) (hc : c.Unqueues c') : c'.Groups log where
  toFormsGroups := h.toFormsGroups.mono hc
  single hfec := by
    have hnil := h.single (by rwa [← hc.fec])
    exact List.suffix_nil.mp (hnil ▸ hc.fecEncoded)
  pos := by
    rw [hc.nextFecGroupId]
    exact h.pos

theorem filter_snoc_nth (log : List Added) (id' : ℕ) :
    (log ++ [Added.nth id m n size k]).filter (fun x => x.info.groupId = id') =
      log.filter (fun x => x.info.groupId = id') ++ if id =
          id' then [Added.nth id m n size k] else [] := by
  rw [List.filter_append, List.filter_singleton]
  congr 1
  by_cases h : id = id'
  · simp [Added.nth, h]
  · simp [Added.nth, h]

/-- One more packet of a group that is filled, or of a new one. -/
theorem Groups.snoc (h : c.Groups log)
    (hadded : log.filter (fun x => x.info.groupId = id) = (List.range k).map
      (Added.nth id m n size))
    (hbytes : m + n ≤ 255) (hk : k < m) (hid : 0 < id)
    (hnext : c'.nextFecGroupId = c.nextFecGroupId ∧ id < c.nextFecGroupId ∨
      c'.nextFecGroupId = c.nextFecGroupId + 1 ∧ id = c.nextFecGroupId)
    (hother : ∀ g, c.fec = some g → g.info.groupId = id)
    (hfec : c'.fec = if k + 1 = m then none else some ⟨⟨m, n, id, k⟩, size, k + 1⟩)
    (hencoded : c'.fecEncoded = (Added.nth id m n size k).encoded) :
    c'.Groups (log ++ [Added.nth id m n size k]) := by
  -- the packet is the next one of its group
  have hgroup : IsGroup (log ++ [Added.nth id m n size k]) id m n size (k + 1) := by
    refine ⟨hbytes, Nat.succ_pos k, hk, ?_⟩
    rw [filter_snoc_nth, if_pos rfl, hadded, List.range_succ, List.map_append]
    rfl
  refine ⟨⟨fun x hx => ?_, fun id' hpos hlt => ?_, fun id' m' n' size' i' k' hsome => ?_, ?_⟩,
    fun hsome => ?_, ?_⟩
  · rcases List.mem_append.mp hx with hx | hx
    · have := h.started x hx
      omega
    · rw [List.mem_singleton.mp hx]
      change 0 < id ∧ id < c'.nextFecGroupId
      omega
  · by_cases hsame : id = id'
    · subst hsame
      refine ⟨m, n, size, k + 1, hgroup, fun hlt => ?_⟩
      rw [hfec, if_neg (by omega)]
      rfl
    · obtain ⟨m', n', size', k', hg, hopen⟩ := h.group id' hpos (by omega)
      refine ⟨m', n', size', k', { hg with added := ?_ }, fun hlt => absurd ?_ hsame⟩
      · rw [filter_snoc_nth, if_neg hsame, List.append_nil, hg.added]
      · exact (hother _ (hopen hlt)).symm
  · rw [hfec] at hsome
    split_ifs at hsome with hfull
    cases hsome
    exact ⟨hid, by omega, rfl, by omega, hgroup⟩
  · rw [hencoded, List.flatMap_append, List.flatMap_singleton]
    exact List.suffix_append _ _
  · rw [hencoded, Added.nth]
    rw [hfec] at hsome
    split_ifs at hsome with hfull
    · cases hsome
    · exact if_neg hfull
  · omega

/-- A packet that suits its group is added to it, and the sender does not panic. -/
theorem Groups.join (h : c.Groups log) (hsuits : c.Suits outLen env)
    (hjoins : c.Joins outLen env epoch p) : ∃ p', Packing.joinFecGroup p = .ok () p' ∧
      ∀ c', p'.conn.SameGroups c' → c'.Groups (log ++ [.of epoch p p']) := by
  obtain @⟨c₀, c₁, pnLen, prepares, -, load, -, joins⟩ := hjoins
  have hsame := prepares.sameGroups
  have hsuit := hsuits _ _ _ _ prepares
  have hdrawn := Packing.load_draws.ok load
  have hp : c.Unqueues p.conn := hsame.unqueues.trans hdrawn.unqueues
  rcases hfec : c.fec with _ | ⟨⟨m, n, id, i⟩, size, k⟩
  · -- the packet starts a group
    have hnone : p.conn.fec = none := hp.fec.trans hfec
    obtain ⟨hm, hn⟩ := joins.resolve_right (by simp [hnone])
    obtain ⟨hnil, rfl⟩ := hdrawn.plain hm
    obtain ⟨block, tail, hstarts, hsize, hred⟩ := (hdrawn.chosen.resolve_left hm).resolve_left hn
    have hbytes := hsuit.bytes hnil rfl block tail hstarts
    rw [← hred, ← hsize] at hbytes
    -- the packet is the first one of the group
    obtain ⟨p', hjoin, hof, hnext', hfec', hencoded'⟩ :=
      joinFecGroup_nth (p := p) (k := 0) (by rw [groupOf, hnone]; rfl) rfl hbytes
        (Nat.pos_of_ne_zero hm)
    refine ⟨p', hjoin, fun c' hc' => hof ▸ h.snoc ?_ hbytes (Nat.pos_of_ne_zero hm) ?_
      (.inr ⟨?_, ?_⟩)
      ?_ (hc'.fec.trans hfec') ?_⟩
    · refine List.filter_eq_nil_iff.mpr fun x hx => ?_
      have := h.started x hx
      simp only [decide_eq_true_eq, hp.nextFecGroupId]
      omega
    · rw [hp.nextFecGroupId]
      exact h.pos
    · rw [hc'.nextFecGroupId, hnext', hnone, hp.nextFecGroupId]
      rfl
    · exact hp.nextFecGroupId
    · simp [hfec]
    · have hempty : p.conn.fecEncoded = [] :=
        List.suffix_nil.mp (hnil ▸ hdrawn.unqueues.fecEncoded)
      rw [hc'.fecEncoded, hencoded', hempty, List.nil_append]
  · -- the packet joins the group that is filled
    obtain ⟨hid, hlt, hi, hk, hg⟩ := h.filling id m n size i k hfec
    have hsome : c₁.fec = some ⟨⟨m, n, id, i⟩, size, k⟩ := hsame.fec.trans hfec
    obtain rfl := hsuit.short (by rw [hsome]; rfl)
    have hnil : c.fecEncoded = [] := h.single (by rw [hfec]; rfl)
    -- it is as long as the shards of the group
    have hlen : p.draft.payloadLen = size := by
      refine (Packing.load_shard ?_ hsome (hsame.fecEncoded.trans hnil) (hsuit.frames ?_)
        (hsuit.control _ hsome)).ok load
      · have := packetRoom_lt c₁ c₀ .application outLen env
        unfold frameRoom
        omega
      · rw [hsome]
        rfl
    have hpfec : p.conn.fec = some ⟨⟨m, n, id, i⟩, size, k⟩ := hp.fec.trans hfec
    obtain ⟨p', hjoin, hof, hnext', hfec', hencoded'⟩ :=
      joinFecGroup_nth (p := p) (by rw [groupOf, hpfec]; rfl) hlen hg.bytes hk
    refine ⟨p', hjoin, fun c' hc' => hof ▸ h.snoc hg.added hg.bytes hk hid (.inl ⟨?_, hlt⟩)
      ?_ (hc'.fec.trans hfec') ?_⟩
    · rw [hc'.nextFecGroupId, hnext', hpfec, hp.nextFecGroupId]
      rfl
    · rw [hfec]
      rintro g ⟨⟩
      rfl
    · have hempty : p.conn.fecEncoded = [] := List.suffix_nil.mp (hnil ▸ hp.fecEncoded)
      rw [hc'.fecEncoded, hencoded', hempty, List.nil_append]

end Groups

/-- Whatever the calls, there is a record of what they add to FEC groups. -/
theorem exists_fecStep {ok : ℕ → SendEnv → Connection → Prop} {c c' : Connection} {call : Call}
    (hok : ∀ outLen env, call = .send outLen env → ok outLen env c)
    (hstep : call.step c = some c') :
    ∃ events, FecStep ok c events c' := by
  by_cases hsend : ∃ outLen env, call = .send outLen env
  · obtain ⟨outLen, env, rfl⟩ := hsend
    rcases send_groups hstep with ⟨epoch, p, p', hjoins, hjoin, -⟩ | ⟨hnone, -⟩
    · exact ⟨_, .joined (hok _ _ rfl) hstep hjoins hjoin⟩
    · exact ⟨_, .alone (hok _ _ rfl) hstep hnone⟩
  · exact ⟨_, .other (fun outLen env h => hsend ⟨outLen, env, h⟩) hstep⟩

/-- Runs have records. -/
theorem FecHistory.exists_of_run {ok : ℕ → SendEnv → Connection → Prop} {c c' : Connection}
    {log : List Added} {calls : List Call} (h : FecHistory ok c log)
    (hok : Lib.AllSteps Call.step (fun c call => ∀ outLen env, call = .send outLen env →
      ok outLen env c)
      c calls)
    (hrun : run Call.step c calls = some c') : ∃ log', FecHistory ok c' log' :=
  have hnext (c : Connection) (call : Call) (c' : Connection)
      (hok : ∀ outLen env, call = .send outLen env → ok outLen env c)
        (hstep : call.step c = some c') :
      ∃ added, FecStep ok c added c' := exists_fecStep hok hstep
  Lib.Trace.exists_of_run hnext h hok hrun

end Connection

/-! ### A group that is not filled -/

namespace Sample

/-- `send` at time `now`, when every block gets one redundant packet for its rest. -/
def redundantEnv (now : ℕ) : SendEnv :=
  { sendEnv now with
    handshake :=
      { (env now).handshake with
        outcome := .finished (.ok
          { params with initialMaxData := 10000, initialMaxStreamDataBidiRemote := 10000 }) }
    redundancy := fun _ _ => 1 }

/-- A block of two packets, of which the first is sent. -/
def startGroup : List Call :=
  [.send 1400 (redundantEnv 0), write 0 (List.replicate 2900 0) true, .send 1400 (redundantEnv 1)]

/-- A Handshake packet arrives that has to be acknowledged. -/
def handshakePing : Call :=
  .recv
    { packets :=
        [{ ty := .handshake
           version := protocolVersionDraft25
           scidLen := 0
           pktNum := 0
           fecInfo := .none
           restored := []
           restoredError := none
           frames := [(.ping, env 2)]
           framesError := none
           now := 2 }]
      error := none
      len := 100 }

/-- A client that adds redundant packets. -/
def fecClient : Connection :=
  .new { config (.basic {}) with tailSize := some 3000 } false false 0

end Sample

namespace Connection

/-- Whether the packet that the next call of `send` builds joins a group that cannot take it. -/
def failsToJoin (outLen : ℕ) (env : SendEnv) (c : Connection) : Bool :=
  match Program.when (!c.isClosing) (doHandshake env.handshake) c with
  | .error _ _ => false
  | .ok _ c₀ =>
    match c₀.writeEpoch with
    | .error _ => false
    | .ok epoch =>
      match drainLost epoch c₀ with
      | .error _ _ => false
      | .ok _ c₁ =>
        match pktNumLen (c₁.pktNumSpaces epoch).nextPktNum with
        | none => false
        | some pnLen =>
          match Packing.load epoch pnLen env
            ⟨c₁, .new (c₁.frameRoom epoch pnLen (c₀.packetCap outLen) env)⟩ with
          | .error _ _ => false
          | .ok _ p =>
            decide (Packing.payloadOffset epoch (c₁.headerLen epoch pnLen) pnLen p.draft.payloadLen
                + p.draft.payloadLen ≤ c₀.packetCap outLen) && decide p.joinsGroup &&
              Packing.joinFecGroup.stopsWith p .panic

end Connection

end Dtp
