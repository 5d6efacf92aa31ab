import Dtp.CallParts
import Dtp.Outstanding
import Dtp.Writers

/-!
# What a packet changes of the packet number spaces

While a packet of some epoch is put together, the other packet number spaces stay as they
are, and of the epoch's own space only the handshake data that waits and the debt of an
ACK frame change. Keys, received packet numbers and the record of sent packets stay until
the packet is recorded.

## Main definitions

* `Connection.SameSpaces`, `Connection.SendsNoData` — a change that leaves keys and
  acknowledgements alone, and one that leaves the handshake data alone as well
* `Packing.Within` — what putting a packet together changes
* `Connection.Rests` — what the other parts of a call leave alone

## Main results

* `Packing.packet_ends` — a packet that is put together is recorded last
* `Connection.processFrames_resting` and the other theorems of this form
-/

namespace Dtp

open Lib (Program)

namespace Connection

/-- Keys, acknowledgements and sent packets stay as they are, but for an ACK frame that
is no longer owed, and for the probes that are used up. -/
structure SameSpaces (epoch : Epoch) (c c' : Connection) : Prop where
  other : ∀ e, e ≠ epoch → c'.pktNumSpaces e = c.pktNumSpaces e
  recvPktNeedAck : (c'.pktNumSpaces epoch).recvPktNeedAck = (c.pktNumSpaces epoch).recvPktNeedAck
  nextPktNum : (c'.pktNumSpaces epoch).nextPktNum = (c.pktNumSpaces epoch).nextPktNum
  ackElicited : (c'.pktNumSpaces epoch).ackElicited = true →
    (c.pktNumSpaces epoch).ackElicited = true
  cryptoOpen : (c'.pktNumSpaces epoch).cryptoOpen = (c.pktNumSpaces epoch).cryptoOpen
  cryptoSeal : (c'.pktNumSpaces epoch).cryptoSeal = (c.pktNumSpaces epoch).cryptoSeal
  recovery : c'.recovery = { c.recovery with lossProbes := c'.recovery.lossProbes }
  lossProbes : ∀ e, c'.recovery.lossProbes e ≤ c.recovery.lossProbes e
  isEstablished : c'.isEstablished = c.isEstablished
  writeLevel : c'.writeLevel = c.writeLevel
  derivedInitialSecrets : c'.derivedInitialSecrets = c.derivedInitialSecrets
  isServer : c'.isServer = c.isServer
  verifiedPeerAddress : c'.verifiedPeerAddress = c.verifiedPeerAddress
  maxSendBytes : c'.maxSendBytes = c.maxSendBytes
  maxTxData : c'.maxTxData = c.maxTxData
  lossDetectionTimer : c'.lossDetectionTimer = c.lossDetectionTimer
  error : c'.error = c.error
  appError : c'.appError = c.appError
  draining : c.draining = true → c'.draining = true

theorem SameSpaces.refl (epoch : Epoch) (c : Connection) : c.SameSpaces epoch c where
  other _ _ := rfl
  recvPktNeedAck := rfl
  nextPktNum := rfl
  ackElicited := id
  cryptoOpen := rfl
  cryptoSeal := rfl
  recovery := rfl
  lossProbes _ := le_rfl
  isEstablished := rfl
  writeLevel := rfl
  derivedInitialSecrets := rfl
  isServer := rfl
  verifiedPeerAddress := rfl
  maxSendBytes := rfl
  maxTxData := rfl
  lossDetectionTimer := rfl
  error := rfl
  appError := rfl
  draining := id

theorem SameSpaces.trans {epoch : Epoch} {c c' c'' : Connection} (h : c.SameSpaces epoch c')
    (h' : c'.SameSpaces epoch c'') : c.SameSpaces epoch c'' where
  other e he := (h'.other e he).trans (h.other e he)
  recvPktNeedAck := h'.recvPktNeedAck.trans h.recvPktNeedAck
  nextPktNum := h'.nextPktNum.trans h.nextPktNum
  ackElicited := h.ackElicited ∘ h'.ackElicited
  cryptoOpen := h'.cryptoOpen.trans h.cryptoOpen
  cryptoSeal := h'.cryptoSeal.trans h.cryptoSeal
  recovery := by rw [h'.recovery, h.recovery]
  lossProbes e := (h'.lossProbes e).trans (h.lossProbes e)
  isEstablished := h'.isEstablished.trans h.isEstablished
  writeLevel := h'.writeLevel.trans h.writeLevel
  derivedInitialSecrets := h'.derivedInitialSecrets.trans h.derivedInitialSecrets
  isServer := h'.isServer.trans h.isServer
  verifiedPeerAddress := h'.verifiedPeerAddress.trans h.verifiedPeerAddress
  maxSendBytes := h'.maxSendBytes.trans h.maxSendBytes
  maxTxData := h'.maxTxData.trans h.maxTxData
  lossDetectionTimer := h'.lossDetectionTimer.trans h.lossDetectionTimer
  error := h'.error.trans h.error
  appError := h'.appError.trans h.appError
  draining := h'.draining ∘ h.draining

@[simp] theorem modifySpace_same (c : Connection) (epoch : Epoch) (f : PktNumSpace → PktNumSpace) :
    (c.modifySpace epoch f).pktNumSpaces epoch = f (c.pktNumSpaces epoch) :=
  Epoch.update_same _ _ _

/-- The spaces of other epochs stay. -/
theorem modifySpace_of_ne (c : Connection) {epoch e : Epoch} (f : PktNumSpace → PktNumSpace)
    (h : e ≠ epoch) : (c.modifySpace epoch f).pktNumSpaces e = c.pktNumSpaces e :=
  Epoch.update_of_ne h

theorem sameSpaces_modifySpace (c : Connection) (epoch : Epoch) {f : PktNumSpace → PktNumSpace}
    (hneed : ∀ s, (f s).recvPktNeedAck = s.recvPktNeedAck)
    (hnext : ∀ s, (f s).nextPktNum = s.nextPktNum)
    (hack : ∀ s, (f s).ackElicited = true → s.ackElicited = true)
    (hopen : ∀ s, (f s).cryptoOpen = s.cryptoOpen) (hseal : ∀ s, (f s).cryptoSeal = s.cryptoSeal) :
    c.SameSpaces epoch (c.modifySpace epoch f) :=
  { SameSpaces.refl epoch c with
    other := fun _ he => c.modifySpace_of_ne f he
    recvPktNeedAck := by rw [modifySpace_same, hneed]
    nextPktNum := by rw [modifySpace_same, hnext]
    ackElicited := by rw [modifySpace_same]; exact hack _
    cryptoOpen := by rw [modifySpace_same, hopen]
    cryptoSeal := by rw [modifySpace_same, hseal] }

/-- A change as `SameSpaces` says in which no data of streams is sent. -/
structure SendsNoData (epoch : Epoch) (c c' : Connection) : Prop extends c.SameSpaces epoch c' where
  txData : c'.txData = c.txData

theorem SendsNoData.refl (epoch : Epoch) (c : Connection) : c.SendsNoData epoch c :=
    ⟨.refl epoch c, rfl⟩

/-- The ranges are those that an ACK frame of the epoch acknowledges, if one is due. -/
structure Acks (c : Connection) (epoch : Epoch) (ranges : RangeSet) : Prop where
  ranges : ranges = (c.pktNumSpaces epoch).recvPktNeedAck
  due : (c.pktNumSpaces epoch).ackElicited = true ∨
    (c.pktNumSpaces epoch).recvPktNeedAck.isEmpty = false

private theorem Acks.of_sameSpaces {epoch : Epoch} {c c' : Connection} {ranges : RangeSet}
    (h : c'.Acks epoch ranges) (hc : c.SameSpaces epoch c') : c.Acks epoch ranges := by
  refine ⟨h.ranges.trans hc.recvPktNeedAck, h.due.imp hc.ackElicited fun hne => ?_⟩
  rwa [hc.recvPktNeedAck] at hne

end Connection

namespace Packing

/-- The connection changes as `SameSpaces` says, and frames are appended to the packet. An
ACK frame among them was owed, or there was something to acknowledge. Data of streams is taken
out of the credit, and only goes into packets with a short header. -/
structure Within (epoch : Epoch) (p p' : Packing) : Prop where
  conn : p.conn.SameSpaces epoch p'.conn
  frames : ∃ fs, p'.draft.frames = p.draft.frames ++ fs ∧
    (∀ packetTime ackDelay ranges, .ack packetTime ackDelay ranges ∈ fs →
      p.conn.Acks epoch ranges) ∧
      p'.conn.txData = p.conn.txData + framesLoad Frame.streamLen fs
  limit : p.conn.txData ≤ p.conn.maxTxData → p'.conn.txData ≤ p.conn.maxTxData
  idle : epoch ≠ .application → p'.conn.txData = p.conn.txData

/-- The connection may change where no data is sent. -/
theorem Within.of_conn {epoch : Epoch} {p : Packing} {c : Connection}
    (h : p.conn.SendsNoData epoch c) :
    p.Within epoch { p with conn := c } :=
  ⟨h.toSameSpaces, ⟨[], (List.append_nil _).symm, nofun, h.txData⟩, h.txData.le.trans, fun _ =>
    h.txData⟩

instance (epoch : Epoch) : IsPreorder Packing (Within epoch) where
  refl p := .of_conn (.refl epoch p.conn)
  trans := by
    intro p p' p'' h h'
    obtain ⟨fs, hframes, hfs, htx⟩ := h.frames
    obtain ⟨gs, hframes', hgs, htx'⟩ := h'.frames
    refine ⟨h.conn.trans h'.conn,
      ⟨fs ++ gs, by rw [hframes', hframes, List.append_assoc], ?_, ?_⟩, ?_, ?_⟩
    · intro packetTime ackDelay ranges hmem
      rcases List.mem_append.mp hmem with hmem | hmem
      · exact hfs _ _ _ hmem
      · exact (hgs _ _ _ hmem).of_sameSpaces h.conn
    · rw [htx', htx, framesLoad_append, Nat.add_assoc]
    · have hlimit := h'.limit
      rw [h.conn.maxTxData] at hlimit
      exact hlimit ∘ h.limit
    · exact fun he => (h'.idle he).trans (h.idle he)

section Write

variable {epoch : Epoch} {p p' : Packing}

theorem modifyConn_within {f : Connection → Connection} (h : p.conn.SendsNoData epoch (f p.conn)) :
    (modifyConn f).Keeps (Within epoch) p := Within.of_conn h

theorem modifyStreams_within (f : StreamMap → StreamMap) (p : Packing) :
    (modifyStreams f).Keeps (Within epoch) p :=
  modifyConn_within { Connection.SendsNoData.refl epoch p.conn with }

/-- A frame without data may be appended: if it is an ACK frame, one is due. -/
def MayAppend (epoch : Epoch) (frame : Frame) (c : Connection) : Prop :=
  frame.streamLen = 0 ∧
    ∀ packetTime ackDelay ranges, frame = .ack packetTime ackDelay ranges → c.Acks epoch ranges

theorem modifyDraft_within {f : Draft → Draft} {fs : List Frame}
    (hframes : (f p.draft).frames = p.draft.frames ++ fs)
    (hfs : ∀ frame ∈ fs, MayAppend epoch frame p.conn) :
    (modifyDraft f).Keeps (Within epoch) p :=
  ⟨.refl epoch p.conn, ⟨fs, hframes, fun _ _ _ hmem => (hfs _ hmem).2 _ _ _ rfl,
    by rw [framesLoad_eq_zero fun f hf => (hfs f hf).1]; rfl⟩, id, fun _ => rfl⟩

/-- The draft changes, but not its frames. -/
theorem modifyDraft_keepsFrames {f : Draft → Draft} (p : Packing)
    (hframes : (f p.draft).frames = p.draft.frames) : (modifyDraft f).Keeps (Within epoch) p :=
  modifyDraft_within (hframes.trans (List.append_nil _).symm) (List.forall_mem_nil _)

theorem addFrame_within {frame : Frame} (hframe : MayAppend epoch frame p.conn) (flag : Bool) :
    (addFrame frame flag).Keeps (Within epoch) p := by
  rw [addFrame, Program.keeps_get_bind]
  refine .ite (fun _ => Program.keeps_crash) fun _ => .ite (fun _ => ?_) fun _ =>
    Program.keeps_underflow
  exact modifyDraft_within rfl (List.forall_mem_singleton.mpr hframe)

theorem tryFrame_within {frame : Frame} (hframe : MayAppend epoch frame p.conn) (flag : Bool) :
    (tryFrame frame flag).Keeps (Within epoch) p := by
  rw [tryFrame, Program.keeps_get_bind]
  refine .ite (fun _ => Program.keeps_crash) fun _ => .ite (fun _ => ?_) fun _ =>
    refl_of (Within epoch) p
  exact .bind (addFrame_within hframe flag) fun _ p _ => refl_of (Within epoch) p

/-- A frame is tried, and the connection changes if it fits. -/
theorem tryFrame_when_within {frame : Frame} {flag : Bool} {f : Connection → Connection}
    (hframe : MayAppend epoch frame p.conn) (hf : ∀ c : Connection, c.SendsNoData epoch (f c)) :
    (do if ← tryFrame frame flag then modifyConn f : Program Error Packing Unit).Keeps
      (Within epoch) p := by
  refine .bind (tryFrame_within hframe flag) fun _ p _ => .ite (fun _ => ?_) fun _ =>
    refl_of (Within epoch) p
  exact modifyConn_within (hf p.conn)

/-- A frame is appended, and then the connection changes. -/
theorem addFrame_then_within {frame : Frame} {flag : Bool} {f : Connection → Connection}
    (hframe : MayAppend epoch frame p.conn) (hf : ∀ c : Connection, c.SendsNoData epoch (f c)) :
    (do addFrame frame flag; modifyConn f : Program Error Packing Unit).Keeps (Within epoch) p :=
  .bind (addFrame_within hframe flag) fun _ p _ => modifyConn_within (hf p.conn)

private theorem writeAck_within (env : SendEnv) (p : Packing) :
    (writeAck epoch env).Keeps (Within epoch) p := by
  rw [writeAck, Program.keeps_get_bind]
  refine .ite (fun hdue => tryFrame_when_within ?_ fun c => ?_) fun _ => refl_of (Within epoch) p
  · refine ⟨rfl, ?_⟩
    rintro _ _ _ ⟨⟩
    exact ⟨rfl, hdue.imp_right fun h => by simpa using h.1⟩
  · refine ⟨?_, rfl⟩
    exact c.sameSpaces_modifySpace epoch (fun _ => rfl) (fun _ => rfl)
      (fun _ h => Bool.noConfusion h) (fun _ => rfl) fun _ => rfl

private theorem writeReset_within (id : ℕ) (p : Packing) : (writeReset id).Keeps
    (Within epoch) p := by
  rw [writeReset, Program.keeps_get_bind]
  refine .bind (modifyStreams_within _ p) fun _ p' _ => ?_
  cases p.conn.streams.streams id with
  | none => exact refl_of (Within epoch) p'
  | some s => exact tryFrame_within ⟨rfl, by simp⟩ _

private theorem writeHandshakeDone_within (p : Packing) :
    writeHandshakeDone.Keeps (Within epoch) p := by
  rw [writeHandshakeDone, Program.keeps_get_bind]
  refine .ite (fun _ => ?_) fun _ => refl_of (Within epoch) p
  refine addFrame_then_within ⟨rfl, by simp⟩ fun c => ?_
  exact { Connection.SendsNoData.refl epoch c with }

private theorem writeMaxStreamsBidi_within (p : Packing) :
    writeMaxStreamsBidi.Keeps (Within epoch) p := by
  rw [writeMaxStreamsBidi, Program.keeps_get_bind]
  refine .ite (fun _ => ?_) fun _ => refl_of (Within epoch) p
  exact .bind (modifyStreams_within _ p) fun _ p _ => addFrame_within ⟨rfl, by simp⟩ _

private theorem writeMaxStreamsUni_within (p : Packing) :
    writeMaxStreamsUni.Keeps (Within epoch) p := by
  rw [writeMaxStreamsUni, Program.keeps_get_bind]
  refine .ite (fun _ => ?_) fun _ => refl_of (Within epoch) p
  exact .bind (modifyStreams_within _ p) fun _ p _ => addFrame_within ⟨rfl, by simp⟩ _

private theorem writeMaxData_within (p : Packing) : writeMaxData.Keeps (Within epoch) p := by
  rw [writeMaxData, Program.keeps_get_bind]
  refine .ite (fun _ => ?_) fun _ => refl_of (Within epoch) p
  refine tryFrame_when_within ⟨rfl, by simp⟩ fun c => ?_
  exact { Connection.SendsNoData.refl epoch c with }

private theorem writeMaxStreamData_within (id : ℕ) (p : Packing) :
    (writeMaxStreamData id).Keeps (Within epoch) p := by
  rw [writeMaxStreamData, Program.keeps_get_bind]
  cases p.conn.streams.streams id with
  | none => exact .bind (modifyStreams_within _ p) fun _ p _ => refl_of (Within epoch) p
  | some s => exact .bind (modifyStreams_within _ p) fun _ p _ => tryFrame_within ⟨rfl, by simp⟩ _

private theorem writeConnectionClose_within (p : Packing) :
    writeConnectionClose.Keeps (Within epoch) p := by
  rw [writeConnectionClose, Program.keeps_get_bind]
  cases p.conn.error with
  | none => exact refl_of (Within epoch) p
  | some err =>
    refine tryFrame_when_within ⟨rfl, by simp⟩ fun c => ?_
    exact { Connection.SendsNoData.refl epoch c with draining := fun _ => rfl }

private theorem writeApplicationClose_within (p : Packing) :
    (writeApplicationClose epoch).Keeps (Within epoch) p := by
  rw [writeApplicationClose, Program.keeps_get_bind]
  dsimp only
  cases p.conn.appError with
  | none => exact refl_of (Within epoch) p
  | some err =>
    refine .ite (fun _ => ?_) fun _ => refl_of (Within epoch) p
    refine addFrame_then_within ⟨rfl, by simp⟩ fun c => ?_
    exact { Connection.SendsNoData.refl epoch c with draining := fun _ => rfl }

private theorem writePathResponse_within (p : Packing) :
    writePathResponse.Keeps (Within epoch) p := by
  rw [writePathResponse, Program.keeps_get_bind]
  cases p.conn.challenge with
  | none => exact refl_of (Within epoch) p
  | some data =>
    refine .ite (fun _ => ?_) fun _ => refl_of (Within epoch) p
    refine addFrame_then_within ⟨rfl, by simp⟩ fun c => ?_
    exact { Connection.SendsNoData.refl epoch c with }

private theorem writeCrypto_within (p : Packing) : (writeCrypto epoch).Keeps (Within epoch) p := by
  rw [writeCrypto, Program.keeps_get_bind]
  refine .ite (fun _ => .bind (modifyConn_within ?_) fun _ p _ => addFrame_within ⟨rfl, by simp⟩ _)
      fun _ =>
    refl_of (Within epoch) p
  refine ⟨?_, rfl⟩
  exact p.conn.sameSpaces_modifySpace epoch (fun _ => rfl) (fun _ => rfl) (fun _ => id)
    (fun _ => rfl) fun _ => rfl

private theorem writePing_within (p : Packing) : (writePing epoch).Keeps (Within epoch) p := by
  rw [writePing, Program.keeps_get_bind]
  exact .ite (fun _ => addFrame_within ⟨rfl, by simp⟩ _) fun _ => refl_of (Within epoch) p

/-- Frames are appended that are no ACK frames, and their data is taken out of the credit. -/
structure AppendsData (p p' : Packing) : Prop where
  frames : ∃ fs, p'.draft.frames = p.draft.frames ++ fs ∧
    (∀ packetTime ackDelay ranges, .ack packetTime ackDelay ranges ∉ fs) ∧
      p'.conn.txData = p.conn.txData + framesLoad Frame.streamLen fs
  maxTxData : p'.conn.maxTxData = p.conn.maxTxData
  limit : p.conn.txData ≤ p.conn.maxTxData → p'.conn.txData ≤ p.conn.maxTxData

instance : IsPreorder Packing AppendsData where
  refl _ := ⟨⟨[], (List.append_nil _).symm, nofun, rfl⟩, rfl, id⟩
  trans := by
    intro p p' p'' h h'
    obtain ⟨fs, hframes, hfs, htx⟩ := h.frames
    obtain ⟨gs, hframes', hgs, htx'⟩ := h'.frames
    refine ⟨⟨fs ++ gs, by rw [hframes', hframes, List.append_assoc], ?_, ?_⟩,
      h'.maxTxData.trans h.maxTxData, ?_⟩
    · intro packetTime ackDelay ranges hmem
      rcases List.mem_append.mp hmem with hmem | hmem
      · exact hfs _ _ _ hmem
      · exact hgs _ _ _ hmem
    · rw [htx', htx, framesLoad_append, Nat.add_assoc]
    · have hlimit := h'.limit
      rw [h.maxTxData] at hlimit
      exact hlimit ∘ h.limit

/-- The announcement of a block is data. -/
theorem Introduced.appendsData {id : ℕ} {s s' : Stream} {p p' : Packing}
    (h : Introduced id s p s' p') : p.AppendsData p' := by
  obtain ⟨fs, hfs, hframes⟩ := h.frames
  obtain ⟨m, -, hconn⟩ := h.conn
  have htx : p'.conn.txData = p.conn.txData := by
    rw [hconn]
    rfl
  refine ⟨⟨fs, hframes, fun _ _ _ hmem => ?_, ?_⟩, by rw [hconn]; rfl, htx.le.trans⟩
  · obtain ⟨_, _, _, _, hinfo⟩ := hfs _ hmem
    cases hinfo
  · rw [htx, framesLoad_eq_zero fun f hf => ?_]
    · rfl
    · obtain ⟨_, _, _, _, rfl⟩ := hfs f hf
      rfl

/-- After a BLOCK_INFO frame, the connection and the packet change, but no frame is added. -/
theorem Introduced.appendsData_of_eq {id : ℕ} {s s' : Stream} {p p₁ p' : Packing} {m : StreamMap}
    (h : Introduced id s p s' p₁) (conn : p'.conn = p.conn.setStreams m)
    (frames : p'.draft.frames = p₁.draft.frames) : p.AppendsData p' := by
  have h₁ := h.appendsData
  obtain ⟨m₁, -, hconn⟩ := h.conn
  obtain ⟨fs, hframes, hfs, htx⟩ := h₁.frames
  have hsame : p'.conn.txData = p₁.conn.txData := by
    rw [conn, hconn]
    rfl
  exact ⟨⟨fs, frames.trans hframes, hfs, hsame.trans htx⟩, by rw [conn]; rfl, fun hle =>
    hsame ▸ h₁.limit hle⟩

/-- The data of a STREAM frame is cut to the credit that is left. -/
theorem Turned.appendsData {id : ℕ} (h : Turned id p p') : p.AppendsData p' := by
  cases h with
  | full _ introduced _ _ conn frames => exact introduced.appendsData_of_eq conn frames
  | tooLarge _ introduced _ _ _ conn frames => exact introduced.appendsData_of_eq conn frames
  | nothing _ introduced _ _ _ _ conn frames => exact introduced.appendsData_of_eq conn frames
  | @sent s s₁ _ p₁ room data send m _ introduced roomFor _ pop _ _ _ conn frames =>
    have h₁ := introduced.appendsData
    obtain ⟨m₁, -, hconn⟩ := introduced.conn
    obtain ⟨fs, hframes, hfs, htx⟩ := h₁.frames
    have hsame : p₁.conn.txData = p.conn.txData := by
      rw [hconn]
      rfl
    -- BLOCK_INFO frames carry no data
    have hzero : framesLoad Frame.streamLen fs = 0 := by omega
    have hlen : data.len ≤ room := by
      have hbounds := (s₁.send.pop_bounds (room - streamOverhead id s₁ room)).1
      rw [pop] at hbounds
      exact hbounds.trans (Nat.sub_le _ _)
    -- the data is within the credit of the connection
    have hroom : room ≤ p.conn.maxTxData - p.conn.txData := by
      have hcredit : room ≤ p₁.conn.maxTxData - p₁.conn.txData := by
        unfold streamRoom at roomFor
        dsimp only at roomFor
        split at roomFor
        · cases roomFor
          exact min_le_right _ _
        · split_ifs at roomFor
          cases roomFor
          exact (min_le_right _ _).trans (min_le_right _ _)
      rwa [h₁.maxTxData, hsame] at hcredit
    refine ⟨⟨fs ++ [.stream id data], by rw [frames, hframes, List.append_assoc],
      fun _ _ _ hmem => ?_, ?_⟩, ?_, ?_⟩
    · rcases List.mem_append.mp hmem with hmem | hmem
      · exact hfs _ _ _ hmem
      · cases List.mem_singleton.mp hmem
    · rw [conn, framesLoad_append, hzero]
      simp [Frame.streamLen]
    · rw [conn]
      rfl
    · intro hle
      rw [conn]
      dsimp only
      omega

/-- A turn of the loop adds data. -/
theorem Stepped.appendsData {env : SendEnv} (h : Stepped env p p') : p.AppendsData p' := by
  cases h with
  | stopped _ conn draft =>
    have htx : p'.conn.txData = p.conn.txData := by
      rw [conn]
      rfl
    exact ⟨⟨[], by rw [draft, List.append_nil], nofun, htx⟩, by rw [conn]; rfl, htx.le.trans⟩
  | turned _ turn =>
    have h := turn.appendsData
    exact ⟨h.frames, h.maxTxData, h.limit⟩

private theorem writeStream_appendsData (env : SendEnv) (fuel : ℕ) (p : Packing) :
    (writeStream env fuel).Keeps AppendsData p := by
  induction fuel generalizing p with
  | zero => simp [writeStream, Program.Keeps]
  | succ fuel ih =>
    have hstep := (streamStep_effect env p).mono fun _ => Stepped.appendsData
    exact .bind hstep fun stop p _ => .ite (fun _ => refl_of AppendsData p) fun _ => ih p

/-- What the loop over the streams does to the connection. -/
def ConnWithin (epoch : Epoch) (p p' : Packing) : Prop := p.conn.SameSpaces epoch p'.conn

instance (epoch : Epoch) : IsPreorder Packing (ConnWithin epoch) where
  refl p := .refl epoch p.conn
  trans _ _ _ h h' := h.trans h'

private theorem loopRel_connWithin (env : SendEnv) : LoopRel env (ConnWithin epoch) where
  peek p _ _ := { Connection.SameSpaces.refl epoch p.conn with }
  put _ _ _ p _ _ := { Connection.SameSpaces.refl epoch p.conn with }
  push _ p := { Connection.SameSpaces.refl epoch p.conn with }
  txData _ p := { Connection.SameSpaces.refl epoch p.conn with }
  frame frame flag p := by
    refine .of_ends (addFrame_ends frame flag p) (fun _ p' h => ?_) fun e _ h => absurd rfl (h e)
    rw [ConnWithin, h.1]
    exact .refl epoch p.conn
  redundancy block tail p := by
    refine .of_ends (chooseRedundancy_effect env block tail p) (fun _ p' h => ?_) fun _ _ h =>
      h.elim
    rw [ConnWithin, h.1]
    exact .refl epoch p.conn

private theorem writeStream_within (hepoch : epoch = .application) (env : SendEnv) (fuel : ℕ)
    (p : Packing) :
    (writeStream env fuel).Keeps (Within epoch) p := by
  have hconn : LoopRel env (ConnWithin epoch) := loopRel_connWithin env
  have hboth := Program.Ends.and (hconn.writeStream fuel p) (writeStream_appendsData env fuel p)
  have hwithin {p' : Packing} (hconn : p.ConnWithin epoch p') (hframes : p.AppendsData p') :
      p.Within epoch p' := by
    obtain ⟨fs, hfs, hack, htx⟩ := hframes.frames
    refine ⟨hconn, ⟨fs, hfs, fun _ _ _ hmem => absurd hmem (hack _ _ _), htx⟩, hframes.limit, ?_⟩
    exact fun hne => absurd hepoch hne
  exact hboth.mono (fun _ _ h => hwithin h.1 h.2) fun _ _ h he => hwithin (h.1 he) (h.2 he)

private theorem writeFrames_within (env : SendEnv) (p : Packing) :
    (writeFrames epoch env).Keeps (Within epoch) p := by
  rw [writeFrames, Program.keeps_get_bind]
  refine .bind (.when fun _ => writeAck_within env p) fun _ p _ => ?_
  refine .bind (.forWhile writeReset_within _ p) fun _ p _ => ?_
  refine .bind (.when fun _ => ?_) fun _ p _ => ?_
  · refine .bind (writeHandshakeDone_within p) fun _ p _ => ?_
    refine .bind (writeMaxStreamsBidi_within p) fun _ p _ => ?_
    refine .bind (writeMaxStreamsUni_within p) fun _ p _ => ?_
    refine .bind (writeMaxData_within p) fun _ p _ => ?_
    exact .forWhile writeMaxStreamData_within _ p
  refine .bind (writeConnectionClose_within p) fun _ p _ => ?_
  refine .bind (writeApplicationClose_within p) fun _ p _ => ?_
  refine .bind (writePathResponse_within p) fun _ p _ => ?_
  refine .bind (.when fun _ => writeCrypto_within p) fun _ p _ => ?_
  rw [Program.keeps_get_bind]
  refine .bind (.when fun hsends => writeStream_within ?_ env _ p) fun _ p _ => ?_
  · cases epoch <;> simp [PacketType.fromEpoch] at hsends ⊢
  exact .when fun _ => writePing_within p

theorem fillPacket_within (env : SendEnv) (p : Packing) :
    (fillPacket epoch env).Keeps (Within epoch) p := by
  rw [fillPacket, Program.keeps_get_bind]
  rcases p.conn.fecEncoded with _ | ⟨⟨info, len⟩, rest⟩
  · exact writeFrames_within env p
  · refine .ite (fun _ => ?_) fun _ => Program.keeps_fail.mpr (refl_of (Within epoch) p)
    refine .bind (modifyConn_within { Connection.SendsNoData.refl epoch p.conn with })
      fun _ p _ => ?_
    exact .bind (addFrame_within ⟨rfl, by simp⟩ _) fun _ p _ => modifyDraft_keepsFrames _ rfl

theorem countProbe_within (p : Packing) : (countProbe epoch).Keeps (Within epoch) p := by
  rw [countProbe, Program.keeps_get_bind]
  refine .ite (fun _ => modifyConn_within ?_) fun _ => refl_of (Within epoch) p
  refine
    { Connection.SendsNoData.refl epoch p.conn with recovery := rfl, lossProbes := fun e => ?_ }
  change Epoch.update p.conn.recovery.lossProbes epoch _ e ≤ _
  rcases eq_or_ne e epoch with rfl | hne
  · rw [Epoch.update_same]
    exact Nat.sub_le _ _
  · rw [Epoch.update_of_ne hne]

theorem addPadding_within (len : ℕ) (p : Packing) : (addPadding len).Keeps (Within epoch) p :=
  modifyDraft_within rfl (List.forall_mem_singleton.mpr ⟨rfl, by simp⟩)

theorem padInitial_within (pnLen : ℕ) (p : Packing) :
    (padInitial epoch pnLen).Keeps (Within epoch) p := by
  rw [padInitial, Program.keeps_get_bind]
  refine .ite (fun _ => ?_) fun _ => refl_of (Within epoch) p
  exact .ite (fun _ => Program.keeps_underflow) fun _ => addPadding_within _ p

theorem padPayload_within (p : Packing) : (padPayload epoch).Keeps (Within epoch) p := by
  rw [padPayload, Program.keeps_get_bind]
  exact .ite (fun _ => addPadding_within _ p) fun _ => refl_of (Within epoch) p

theorem joinFecGroup_within (p : Packing) : joinFecGroup.Keeps (Within epoch) p := by
  rw [joinFecGroup, Program.keeps_get_bind]
  refine .ite (fun _ => Program.keeps_crash) fun _ => ?_
  refine .bind (modifyConn_within ?_) fun _ p _ => modifyDraft_keepsFrames _ rfl
  exact { Connection.SendsNoData.refl epoch p.conn with }

theorem sealPacket_within (headerLen pnLen avail : ℕ) (p : Packing) :
    (sealPacket epoch headerLen pnLen avail).Keeps (Within epoch) p := by
  have hfail (e : Error) (p : Packing) : (Program.fail e : Program Error Packing ℕ).Keeps
      (Within epoch) p := Program.keeps_fail.mpr (refl_of (Within epoch) p)
  rw [sealPacket, Program.keeps_get_bind]
  refine .ite (fun _ => hfail _ p) fun _ =>
    .bind (.when fun _ => joinFecGroup_within p) fun _ p _ => ?_
  exact .ite (fun _ => hfail _ p) fun _ => .ite (fun _ => hfail _ p) fun _ =>
    refl_of (Within epoch) p

/-- The keys to seal the packets of the epoch are there. -/
def CanSeal (epoch : Epoch) (p : Packing) : Prop := (p.conn.pktNumSpaces epoch).cryptoSeal = true

private theorem sealPacket_canSeal (headerLen pnLen avail : ℕ) (p : Packing) :
    (sealPacket epoch headerLen pnLen avail).Ends p (fun _ => CanSeal epoch) anyFault := by
  rw [sealPacket, Program.ends_bind, Program.ends_get]
  refine Program.ends_ite.mpr ⟨fun _ => trivial, fun _ => ?_⟩
  rw [Program.ends_bind]
  refine Program.ends_iff.mpr ⟨fun _ q hq => ?_, fun _ _ _ => trivial⟩
  have hwithin : p.Within epoch q := Program.Keeps.ok (.when fun _ => joinFecGroup_within p) hq
  refine Program.ends_ite.mpr ⟨fun _ => trivial, fun hkey =>
    Program.ends_ite.mpr ⟨fun _ => trivial, fun _ => ?_⟩⟩
  exact hwithin.conn.cryptoSeal.trans (by simpa using hkey)

/-- The last thing that happens to a packet is that it is recorded as sent. Before that, the
connection changes as `SameSpaces` says. -/
theorem packet_ends (headerLen pnLen avail : ℕ) (env : SendEnv) (p : Packing) :
    (packet epoch headerLen pnLen avail env).Ends p
      (fun written p' => ∃ q, p.Within epoch q ∧ q.CanSeal epoch ∧
        p'.conn = q.recorded epoch written env)
      fun e p' => (∃ err, e = .error err) → p.Within epoch p' := by
  have hkeeps {α β : Type} {x : Program Error Packing α} {f : α → Program Error Packing β}
    {q : Packing}
      {Q : β → Packing → Prop} (hq : p.Within epoch q) (hx : x.Keeps (Within epoch) q)
      (hf : ∀ a q', p.Within epoch q' → (f a).Ends q' Q fun e p' => (∃ err, e = .error err) →
        p.Within epoch p') :
      (x >>= f).Ends q Q fun e p' => (∃ err, e = .error err) → p.Within epoch p' := by
    refine Program.Ends.bind (R := fun _ q' => p.Within epoch q') ?_ hf
    exact Program.Ends.mono hx (fun _ _ h => trans_of (Within epoch) hq h) fun _ _ h he =>
      trans_of (Within epoch) hq (h he)
  refine hkeeps (refl_of (Within epoch) p) (fillPacket_within env p) fun _ p₁ h₁ => ?_
  refine hkeeps h₁ (countProbe_within p₁) fun _ p₂ h₂ => ?_
  rw [Program.ends_bind, Program.ends_get]
  refine Program.ends_ite.mpr ⟨fun _ _ => h₂, fun _ => ?_⟩
  refine hkeeps h₂ (padInitial_within pnLen p₂) fun _ p₃ h₃ => ?_
  refine hkeeps h₃ (padPayload_within p₃) fun _ p₄ h₄ => ?_
  have hwithin : (sealPacket epoch headerLen pnLen avail).Keeps (Within epoch) p₄ :=
    sealPacket_within headerLen pnLen avail p₄
  have hseal := Program.Ends.and hwithin (sealPacket_canSeal headerLen pnLen avail p₄)
  rw [Program.ends_bind]
  refine hseal.mono (fun written p₅ h₅ => ?_) fun _ _ h he =>
    trans_of (Within epoch) h₄ (h.1 he)
  rw [Program.ends_bind, Program.Ends, recordSent_eq]
  exact ⟨p₅, trans_of (Within epoch) h₄ h₅.1, h₅.2, rfl⟩

/-- The stages of a packet change the connection as `SameSpaces` says. -/
theorem Built.within {headerLen pnLen avail written : ℕ} {env : SendEnv}
    {filled padded sealed : Packing}
    (h : Built epoch headerLen pnLen avail env p filled padded sealed written p') :
    p.Within epoch sealed := by
  have hpad : (do
      countProbe epoch; padInitial epoch pnLen; padPayload epoch : Program Error Packing Unit).Keeps
      (Within epoch) filled := by
    refine .bind (countProbe_within filled) fun _ p _ => ?_
    exact .bind (padInitial_within pnLen p) fun _ p _ => padPayload_within p
  have hseal : padded.Within epoch sealed := (sealPacket_within _ _ _ padded).ok h.sealing
  exact trans_of (Within epoch) ((fillPacket_within env p).ok h.fill)
    (trans_of (Within epoch) (hpad.ok h.pad) hseal)

end Write

end Packing

/-! ### The other parts of a call -/

namespace Connection

/-- No packet that waits for its acknowledgement comes or goes, no ACK frame comes to be
owed, packet numbers are used up, frames of sent packets only move, and the budget of an
unverified address stays. -/
structure Steady (c c' : Connection) : Prop where
  recvPktNeedAck : ∀ e, (c'.pktNumSpaces e).recvPktNeedAck = (c.pktNumSpaces e).recvPktNeedAck
  nextPktNum : ∀ e, (c.pktNumSpaces e).nextPktNum ≤ (c'.pktNumSpaces e).nextPktNum
  forgets : c.recovery.Forgets c'.recovery
  ackElicited : ∀ e, (c'.pktNumSpaces e).ackElicited = true → (c.pktNumSpaces e).ackElicited = true
  moves : c.recovery.Moves c'.recovery
  isServer : c'.isServer = c.isServer
  verifiedPeerAddress : c'.verifiedPeerAddress = c.verifiedPeerAddress
  maxSendBytes : c'.maxSendBytes = c.maxSendBytes

theorem Steady.refl (c : Connection) : c.Steady c :=
  ⟨fun _ => rfl, fun _ => le_rfl, refl_of Recovery.Forgets _, fun _ => id,
    refl_of Recovery.Moves _, rfl, rfl, rfl⟩

instance : IsPreorder Connection Steady where
  refl := .refl
  trans _ _ _ h h' := ⟨fun e => (h'.recvPktNeedAck e).trans (h.recvPktNeedAck e),
    fun e => (h.nextPktNum e).trans (h'.nextPktNum e),
    trans_of Recovery.Forgets h.forgets h'.forgets,
    fun e => h.ackElicited e ∘ h'.ackElicited e, trans_of Recovery.Moves h.moves h'.moves,
    h'.isServer.trans h.isServer, h'.verifiedPeerAddress.trans h.verifiedPeerAddress,
      h'.maxSendBytes.trans h.maxSendBytes⟩

/-- Where the spaces stay, what is to be acknowledged stays. -/
theorem SameSpaces.steady {epoch : Epoch} {c c' : Connection} (h : c.SameSpaces epoch c') :
    c.Steady c' where
  recvPktNeedAck e := by
    rcases eq_or_ne e epoch with rfl | hne
    · exact h.recvPktNeedAck
    · rw [h.other e hne]
  nextPktNum e := by
    rcases eq_or_ne e epoch with rfl | hne
    · exact h.nextPktNum.ge
    · exact (congrArg PktNumSpace.nextPktNum (h.other e hne)).ge
  forgets := by
    rw [h.recovery]
    exact .of_eq rfl rfl
  ackElicited e := by
    rcases eq_or_ne e epoch with rfl | hne
    · exact h.ackElicited
    · rw [h.other e hne]
      exact id
  moves := by
    rw [h.recovery]
    exact Recovery.moves_of_eq rfl rfl rfl
  isServer := h.isServer
  verifiedPeerAddress := h.verifiedPeerAddress
  maxSendBytes := h.maxSendBytes

private theorem steady_modifySpace (c : Connection) (epoch : Epoch) {f : PktNumSpace → PktNumSpace}
    (hneed : ∀ s, (f s).recvPktNeedAck = s.recvPktNeedAck)
    (hnext : ∀ s, s.nextPktNum ≤ (f s).nextPktNum)
    (hack : ∀ s, (f s).ackElicited = true → s.ackElicited = true) :
    c.Steady (c.modifySpace epoch f) := by
  refine { Steady.refl c with
    recvPktNeedAck := fun e => ?_, nextPktNum := fun e => ?_, ackElicited := fun e => ?_ }
  all_goals rcases eq_or_ne e epoch with rfl | hne
  · rw [modifySpace_same, hneed]
  · rw [modifySpace_of_ne c f hne]
  · rw [modifySpace_same]
    exact hnext _
  · rw [modifySpace_of_ne c f hne]
  · rw [modifySpace_same]
    exact hack _
  · rw [modifySpace_of_ne c f hne]
    exact id

/-- A change as `Steady` says that sends nothing: no credit for data is used, and no frames are
added to those that are outstanding or lost. The limit of the credit only grows, once the
handshake is complete. -/
structure Rests (c c' : Connection) : Prop extends c.Steady c' where
  txData : c'.txData = c.txData
  maxTxData : c.isEstablished = true → c.maxTxData ≤ c'.maxTxData
  isEstablished : c.isEstablished = true → c'.isEstablished = true
  lightens : c.recovery.Lightens c'.recovery

theorem Rests.refl (c : Connection) : c.Rests c :=
  ⟨.refl c, rfl, fun _ => le_rfl, id, refl_of Recovery.Lightens _⟩

instance : IsPreorder Connection Rests where
  refl := .refl
  trans _ _ _ h h' := ⟨trans_of Steady h.toSteady h'.toSteady, h'.txData.trans h.txData,
    fun he => (h.maxTxData he).trans (h'.maxTxData (h.isEstablished he)),
    fun he => h'.isEstablished (h.isEstablished he),
      trans_of Recovery.Lightens h.lightens h'.lightens⟩

theorem rests_modifySpace (c : Connection) (epoch : Epoch) {f : PktNumSpace → PktNumSpace}
    (hneed : ∀ s, (f s).recvPktNeedAck = s.recvPktNeedAck)
    (hnext : ∀ s, s.nextPktNum ≤ (f s).nextPktNum)
    (hack : ∀ s, (f s).ackElicited = true → s.ackElicited = true) :
    c.Rests (c.modifySpace epoch f) :=
  { Rests.refl c with toSteady := c.steady_modifySpace epoch hneed hnext hack }

theorem dropEpochState_rests (c : Connection) (epoch : Epoch) (now : ℕ) :
    c.Rests (c.dropEpochState epoch now) := by
  unfold dropEpochState
  split_ifs
  · have h := c.rests_modifySpace epoch (f := fun s =>
      { s with
        cryptoOpen := false
        cryptoSeal := false
        cryptoStream := PktNumSpace.newCryptoStream now
        ackElicited := false }) (fun _ => rfl) (fun _ => le_rfl) fun _ => nofun
    exact { h with
      forgets := Recovery.dropUnackedData_forgets c.recovery epoch
      moves := Recovery.dropUnackedData_moves c.recovery epoch
      lightens := Recovery.dropUnackedData_lightens c.recovery epoch }
  · exact .refl c

/-- The program changes the connection as `Rests` says, whether or not it fails. -/
abbrev Resting {α : Type} (x : Program Error Connection α) : Prop :=
  ∀ c : Connection, Program.Maintains c.Rests (fun _ => c.Rests) x

section Calls

/-- What sends nothing leaves the rest alone. -/
theorem Resting.keeps {α : Type} {x : Program Error Connection α} (h : Resting x) (c : Connection) :
    x.Keeps Rests c := (h c c (.refl c)).mono (fun _ _ hc => hc) fun _ _ hc _ => hc

private theorem resting_fail {α : Type} (e : Error) :
    Resting (Program.fail e : Program Error Connection α) :=
  fun _ _ h => h

private theorem rests_of_sameTransport {c c' : Connection} (h : c.SameTransport c') :
    c.Rests c' := by
  cases h with
  | intro streams rxData maxRxDataNext maxTxData challenge draining limit =>
    exact { Rests.refl c with maxTxData := fun _ => limit }

/-- What only changes streams sends nothing. -/
theorem Streaming.resting {α : Type} {x : Program Error Connection α} (h : Streaming x) :
    Resting x := fun _ =>
  h.maintains fun _ _ hc hsame => trans_of Rests hc (rests_of_sameTransport hsame)

theorem close_rests {c c' : Connection} {app : Bool} {err : ℕ} {reason : List UInt8}
    (h : c.close app err reason = .ok c') : c.Rests c' := by
  unfold close at h
  split_ifs at h <;> cases h <;> exact { Rests.refl c with }

theorem acceptHeader_resting (pkt : RxPacket) : Resting (acceptHeader pkt) := by
  refine fun c₀ => Program.maintains_get_bind fun c h =>
    Program.ends_ite.mpr ⟨fun _ => h, fun _ => ?_⟩
  refine Program.Maintains.bind (.when fun _ => Program.maintains_modify fun c h => { h with })
    (fun _ => Program.maintains_get_bind fun c h => ?_) c h
  refine Program.ends_ite.mpr ⟨fun _ => h, fun _ => Program.ends_ite.mpr ⟨fun _ => h, fun _ => ?_⟩⟩
  have hkeys := c.rests_modifySpace .initial
    (f := fun s => { s with cryptoOpen := true, cryptoSeal := true }) (fun _ => rfl)
    (fun _ => le_rfl) fun _ => id
  rw [Program.ends_bind, Program.ends_modify, Program.ends_modify]
  exact { trans_of Rests h hkeys with }

theorem doHandshake_resting (hs : HandshakeStep) : Resting (doHandshake hs) := by
  intro c₀
  by_cases hc₀ : c₀.isEstablished = true
  · -- a complete handshake does not go on
    refine Program.maintains_get_bind fun c h => Program.ends_ite.mpr ⟨fun _ => h, fun hopen => ?_⟩
    exact absurd (h.isEstablished hc₀) hopen
  · exact HandshakeParts.maintains
      { write := fun epoch _ _ _ c _ h => by
          refine trans_of Rests h ?_
          exact c.rests_modifySpace epoch (fun _ => rfl) (fun _ => le_rfl) fun _ => id
        full := fun _ h => h
        keys := fun _ h => { h with isEstablished := fun he => absurd he hc₀ }
        failed := fun _ _ _ h => h
        noProtocol := fun _ h => { h with }
        refused := fun _ _ _ h => h
        params := fun _ _ _ h => { h with maxTxData := fun he => absurd he hc₀ } }

private theorem readCrypto_resting (epoch : Epoch) (fuel : ℕ) :
    Resting (readCrypto epoch fuel) := by
  induction fuel with
  | zero => exact fun _ => Program.maintains_pure ()
  | succ fuel ih =>
    refine fun c₀ => Program.maintains_get_bind fun c h => ?_
    dsimp only
    split
    · exact h
    · rw [Program.ends_bind, Program.ends_set]
      refine ih c₀ _ (trans_of Rests h ?_)
      exact c.rests_modifySpace _ (fun _ => rfl) (fun _ => le_rfl) fun _ => id

theorem processFrame_resting (frame : Frame) (epoch : Epoch) (env : Env) :
    Resting (processFrame frame epoch env) := by
  intro c₀
  cases frame with
  | ack packetTime ackDelay ranges =>
    refine Program.maintains_get_bind fun c h => Program.ends_ite.mpr ⟨fun _ => h, fun _ => ?_⟩
    split
    · exact h
    · rename_i recovery hack
      have h' : c₀.Rests (c.setRecovery recovery) :=
        { h with
          forgets := trans_of Recovery.Forgets h.forgets (Recovery.onAckReceived_forgets hack)
          moves := trans_of Recovery.Moves h.moves (Recovery.onAckReceived_moves hack)
          lightens := trans_of Recovery.Lightens h.lightens (Recovery.onAckReceived_lightens hack) }
      refine Program.ends_ite.mpr ⟨fun _ => ?_, fun _ => { h' with }⟩
      refine trans_of Rests ?_ (dropEpochState_rests _ _ _)
      exact { h' with }
  | crypto data =>
    refine Program.maintains_get_bind fun c h => ?_
    dsimp only
    split
    · exact h
    · rw [Program.ends_bind, Program.ends_set]
      refine Program.Maintains.bind (readCrypto_resting _ _ c₀)
        (fun _ => doHandshake_resting env.handshake c₀) _ ?_
      refine trans_of Rests h ?_
      exact c.rests_modifySpace _ (fun _ => rfl) (fun _ => le_rfl) fun _ => id
  | handshakeDone =>
    refine Program.maintains_get_bind fun c h => Program.ends_ite.mpr ⟨fun _ => h, fun _ =>
      Program.ends_ite.mpr ⟨fun _ => h, fun _ => ?_⟩⟩
    have h' : c₀.Rests { c with handshakeConfirmed := true } := { h with }
    exact trans_of Rests h' (dropEpochState_rests _ _ _)
  | _ => exact (processFrame_streaming rfl epoch env).resting c₀

theorem processFrames_resting (frames : List (Frame × Env)) (error : Option Error) (epoch : Epoch) :
    Resting (processFrames frames error epoch) := by
  refine fun c₀ => .bind (.forM (fun (f : Frame × Env) => processFrame_resting f.1 epoch f.2 c₀) _)
    fun _ => ?_
  cases error with
  | none => exact Program.maintains_pure ()
  | some e => exact resting_fail e c₀

theorem onTimeout_rests (c : Connection) (env : Env) : c.Rests (c.onTimeout env) := by
  unfold onTimeout
  split_ifs
  · exact .refl c
  · exact { Rests.refl c with
      forgets := Recovery.onLossDetectionTimeout_forgets _ _ _ _
      moves := Recovery.onLossDetectionTimeout_moves _ _ _ _
      lightens := Recovery.onLossDetectionTimeout_lightens _ _ _ _ }
  · exact .refl c

/-- Taking back a frame of a lost packet, ACK and STREAM frames excepted. -/
theorem drainLostFrame_resting {epoch : Epoch} {frame : Frame}
    (hframe : ∀ packetTime ackDelay ranges, frame ≠ .ack packetTime ackDelay ranges)
    (hstream : ∀ id data, frame ≠ .stream id data) :
    Resting (drainLostFrame epoch frame) := by
  refine fun c₀ => Program.maintains_get_bind fun c h => ?_
  cases frame with
  | ack packetTime ackDelay ranges => exact absurd rfl (hframe _ _ _)
  | crypto data =>
    rw [Program.ends_bind, Program.ends_ofExcept]
    refine ⟨fun send _ => ?_, fun _ _ => h⟩
    refine trans_of Rests h ?_
    exact c.rests_modifySpace _ (fun _ => rfl) (fun _ => le_rfl) fun _ => id
  | blockInfo id _ _ _ _ =>
    dsimp only
    split
    · exact h
    · exact { h with }
  | stream id data => exact absurd rfl (hstream _ _)
  | handshakeDone => exact { h with }
  | _ => exact h

/-- Processing an acked frame, an ACK frame excepted. -/
theorem processAcked_rests {epoch : Epoch} {frame : Frame}
    (hframe : ∀ packetTime ackDelay ranges, frame ≠ .ack packetTime ackDelay ranges)
    (c : Connection) :
    c.Rests (processAcked epoch frame c) := by
  cases frame with
  | ack packetTime ackDelay ranges => exact absurd rfl (hframe _ _ _)
  | crypto data =>
    simp only [processAcked]
    exact c.rests_modifySpace _ (fun _ => rfl) (fun _ => le_rfl) fun _ => id
  | stream id data =>
    unfold processAcked
    dsimp only
    split
    · exact .refl c
    · exact { Rests.refl c with }
  | _ => exact .refl c

/-- After a packet is noted in its space, only its sender's address may come to be verified. -/
theorem received_rests (pkt : RxPacket) (epoch : Epoch) (c : Connection) :
    (c.modifySpace epoch pkt.record).Rests
      { received pkt epoch c with verifiedPeerAddress := c.verifiedPeerAddress } := by
  have hcount : (c.modifySpace epoch pkt.record).Rests
      { c.modifySpace epoch pkt.record with recvCount := c.recvCount + 1 } := { Rests.refl _ with }
  unfold received
  dsimp only
  split_ifs
  · have hdrop := trans_of Rests hcount (dropEpochState_rests _ .initial pkt.now)
    exact { hdrop with verifiedPeerAddress := rfl }
  · exact { hcount with }

private theorem popLost_rests {epoch : Epoch} {c : Connection} {frame : Frame} {frames : List Frame}
    (h : c.recovery.lost epoch = frame :: frames) :
    c.Rests (c.setRecovery { c.recovery with lost := Epoch.update c.recovery.lost epoch frames }) :=
  { Rests.refl c with
    forgets := .of_eq rfl rfl
    moves := (popLost_calm h).moves
    lightens := Recovery.takeLost_lightens h }

/-- What taking back a lost frame does: after an ACK frame, another one is owed, and the data of
a STREAM frame is credited again. -/
inductive TookBack (epoch : Epoch) (c : Connection) : Connection → Prop
  | rests {c' : Connection} (h : c.Rests c') : TookBack epoch c c'
  | ack {packetTime ackDelay : ℕ} {ranges : RangeSet} {c₁ : Connection}
      (lost : .ack packetTime ackDelay ranges ∈ c.recovery.lost epoch) (h : c.Rests c₁) :
      TookBack epoch c (c₁.modifySpace epoch fun s => { s with ackElicited := true })
  | stream {id : ℕ} {data : RangeBuf} {frames : List Frame} {c' : Connection}
      (lost : c.recovery.lost epoch = .stream id data :: frames)
        (h : c.Rests { c' with txData := c.txData })
      (recovery :
        c'.recovery = { c.recovery with lost := Epoch.update c.recovery.lost epoch frames })
      (txData : c'.txData = c.txData - data.len) : TookBack epoch c c'

/-- Lost frames are taken back. -/
theorem takeLost_tookBack (epoch : Epoch) (c : Connection) :
    (takeLost epoch).Keeps (TookBack epoch) c := by
  rw [takeLost, Program.keeps_get_bind]
  cases hlost : c.recovery.lost epoch with
  | nil => exact .rests (.refl c)
  | cons frame frames =>
    have hpop := popLost_rests hlost
    by_cases hack : ∃ packetTime ackDelay ranges, frame = .ack packetTime ackDelay ranges
    · obtain ⟨packetTime, ackDelay, ranges, rfl⟩ := hack
      exact .ack (hlost ▸ List.mem_cons_self) hpop
    by_cases hstream : ∃ id data, frame = .stream id data
    · obtain ⟨id, data, rfl⟩ := hstream
      change (drainLostFrame epoch (.stream id data)).Ends _ _ _
      rw [drainLostFrame, Program.ends_bind, Program.ends_get]
      dsimp only
      split
      · exact .rests hpop
      · rw [Program.ends_bind, Program.ends_set, Program.ends_bind, Program.ends_ofExcept]
        exact ⟨fun send _ => .stream hlost { hpop with txData := rfl } rfl rfl,
          fun e _ _ => .stream hlost { hpop with txData := rfl } rfl rfl⟩
    · have hresting : Resting (drainLostFrame epoch frame) := drainLostFrame_resting
        (fun packetTime ackDelay ranges h => hack ⟨packetTime, ackDelay, ranges, h⟩)
        fun id data h => hstream ⟨id, data, h⟩
      exact (hresting c _ hpop).mono (fun _ _ h => .rests h) fun _ _ h _ => .rests h

theorem clearLost_rests (epoch : Epoch) (c : Connection) : c.Rests (clearLost epoch c) :=
  { Rests.refl c with
    forgets := .of_eq rfl rfl
    moves := (clearLost_calm epoch c).moves
    lightens := Recovery.clearLost_lightens _ _ }

/-- What putting together a packet does: if it is sent, it is recorded. -/
inductive PutTogether (epoch : Epoch) (c : Connection) : Connection → Prop
  | unsent {room : ℕ} {q : Packing} (within : Packing.Within epoch ⟨c, .new room⟩ q) :
      PutTogether epoch c q.conn
  | sent {room written : ℕ} {env : SendEnv} {q : Packing}
      (within : Packing.Within epoch ⟨c, .new room⟩ q) (canSeal : q.CanSeal epoch) :
      PutTogether epoch c (q.recorded epoch written env)

/-- A packet is put together. -/
theorem packet_putTogether (epoch : Epoch) (room headerLen pnLen avail : ℕ) (env : SendEnv)
    (c : Connection) :
    (Program.zoom (fun c => (⟨c, .new room⟩ : Packing)) (fun p _ => p.conn)
      (Packing.packet epoch headerLen pnLen avail env)).Keeps (PutTogether epoch) c := by
  unfold Program.Keeps
  rw [Program.ends_zoom]
  refine (Packing.packet_ends headerLen pnLen avail env _).mono ?_ fun _ _ h he => .unsent (h he)
  rintro written p ⟨q, within, canSeal, hp⟩
  rw [hp]
  exact .sent within canSeal

theorem counted_rests (epoch : Epoch) (written : ℕ) (env : SendEnv) (q : Packing) :
    (q.conn.setRecovery (q.conn.recovery.onPacketSent (q.toSent epoch written env.instant) epoch
      env.instant)).Rests (q.counted epoch written env) := by
  have h := rests_modifySpace (q.conn.setRecovery (q.conn.recovery.onPacketSent
    (q.toSent epoch written env.instant) epoch env.instant)) epoch
    (f := fun s => { s with nextPktNum := s.nextPktNum + 1 }) (fun _ => rfl)
    (fun s => Nat.le_succ s.nextPktNum) fun _ => id
  exact { h with }

theorem settled_rests (epoch : Epoch) (written : ℕ) (env : SendEnv) (q : Packing) :
    (q.counted epoch written env).Rests (q.settled epoch written env) := by
  unfold Packing.settled
  dsimp only
  split_ifs
  · exact dropEpochState_rests _ _ _
  · exact .refl _

/-- After a packet is added to the sent ones, recording it changes nothing but the budget. -/
theorem recorded_rests (epoch : Epoch) (written : ℕ) (env : SendEnv) (q : Packing) :
    (q.conn.setRecovery (q.conn.recovery.onPacketSent (q.toSent epoch written env.instant) epoch
      env.instant)).Rests
          { q.recorded epoch written env with maxSendBytes := q.conn.maxSendBytes } := by
  have h := trans_of Rests (counted_rests epoch written env q) (settled_rests epoch written env q)
  exact { h with maxSendBytes := rfl }

end Calls

end Connection

end Dtp
