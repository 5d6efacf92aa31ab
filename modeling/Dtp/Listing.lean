import Dtp.Atomicity

/-!
# The list of the blocks in a packet

`send_with_blocks` appends a block to the caller's list as soon as the scheduler has picked
it. Whether the packet gets a frame of that block is decided later: the turn of the loop may
end without one, the loop may fail at the next pick, and the packet may not fit once it is
padded. The list is exact if nothing of this happens.

## Main definitions

* `Connection.ReportsBlocks` — the list gets the blocks of the packet, and nothing on an error
* `Packing.Frames` — a turn of the loop writes a frame of the picked stream
* `Connection.Accountable` — each turn picks another stream and writes a frame of it, and
  the packet can be finished

## Main results

* `Packing.writeStreamWithBlocks_ends` — what the loop lists, and what it writes
* `Connection.reportsBlocks_iff` — the list is exact in calls that are accountable
* `Connection.not_reportsBlocks` — a block on the list of a call that fails
-/

namespace Dtp

open Lib (Fault Program run)
open Lib.Program (lift)

/-- The stream whose data or description a frame carries. -/
def Frame.ofStream : Frame → Option ℕ
  | .stream id _ | .blockInfo id _ _ _ _ => some id
  | _ => none

private theorem Frame.ofStream_of_isQuiet {f : Frame} (h : f.isQuiet = true) :
    f.ofStream = none := by
  cases f <;> first | rfl | cases h

namespace Connection

/-- The list `new` names the streams that have one of the `frames`, each once and as it is
in `c`. -/
structure ListsBlocks (c : Connection) (frames : List Frame) (new : List Block) : Prop where
  once : (new.map Block.blockId).Nodup
  exact : ∀ id, id ∈ new.map Block.blockId ↔ ∃ f ∈ frames, f.ofStream = some id
  asBefore : ∀ b ∈ new, c.streams.getBlock b.blockId = some b

/-- What is listed depends only on the streams of the frames. -/
theorem listsBlocks_congr {c : Connection} {frames frames' : List Frame} {new : List Block}
    (h : ∀ id, (∃ f ∈ frames', f.ofStream = some id) ↔ ∃ f ∈ frames, f.ofStream = some id) :
    c.ListsBlocks frames new ↔ c.ListsBlocks frames' new :=
  ⟨fun hlists => ⟨hlists.once, fun id => (hlists.exact id).trans (h id).symm, hlists.asBefore⟩,
    fun hlists => ⟨hlists.once, fun id => (hlists.exact id).trans (h id), hlists.asBefore⟩⟩

/-- If `sendWithBlocks` returns, the list gets the blocks of the packet, as they are before data
is taken; if it fails, the list gets nothing. -/
def ReportsBlocks (outLen : ℕ) (env : SendEnv) (c : Connection) : Prop :=
  ∀ blocks, (sendWithBlocks outLen env).Ends (c, some blocks)
    (fun written s => ∃ new, s.2 = some (blocks ++ new) ∧ ∃ epoch c₁ pkt,
      c.Sends outLen env epoch c₁ pkt written s.1 ∧ c₁.ListsBlocks pkt.frames new)
    fun e s => (∃ err, e = .error err) → s.2 = some blocks

end Connection

/-! ### When the list is exact -/

/-- The frame that describes the block of a stream. -/
def Connection.blockInfo (c : Connection) (id : ℕ) (s : Stream) : Frame :=
  .blockInfo id s.send.blockSize s.send.priority s.send.deadline
    ((s.send.startTime - c.bctOffset) % 2 ^ 64).toNat

namespace Packing

/-- The block of the stream is not described yet, and its description fits. -/
def Announces (p : Packing) (id : ℕ) (s : Stream) : Prop :=
  s.send.isNew = true ∧ (p.conn.blockInfo id s).wireLen ≤ p.draft.left

/-- There is room for a STREAM frame, and something to put into it. -/
def Carries (p : Packing) (id : ℕ) (s : Stream) : Prop :=
  maxStreamOverhead < p.draft.left ∧ ∃ room, p.streamRoom id = some room ∧
    streamOverhead id s room ≤ room ∧
      let data := (s.send.pop (room - streamOverhead id s room)).1
      ¬ (data.isEmpty && !data.fin) = true

/-- The packet gets a frame of the stream. -/
def Frames (p : Packing) (id : ℕ) : Prop :=
  ∃ s, p.conn.streams.streams id = some s ∧ (p.Announces id s ∨ p.Carries id s)

/-- Each turn of the loop picks a stream that is not among the `picked` ones and is still as it
was in `m₀`, and the packet gets a frame of it. Once a stream is picked no later pick fails, and
the padded payload takes at most `cap` bytes. -/
def Accountable (env : SendEnv) (m₀ : StreamMap) (cap : ℕ) : ℕ → List ℕ → Packing → Prop
  | 0, _, _ => True
  | fuel + 1, picked, p =>
    match StreamMap.peekFlushable env.pace p.conn.streams with
    | .ok none _ => picked ≠ [] → p.minPayload .application ≤ cap
    | .ok (some id) m =>
      let p₁ : Packing := { p with conn := p.conn.setStreams m }
      (id ∉ picked ∧ m₀.getBlock id = m.getBlock id ∧ p₁.Frames id) ∧
        match streamTurn env id p₁ with
        | .ok true p₂ => p₂.minPayload .application ≤ cap
        | .ok false p₂ => p₂.Accountable env m₀ cap fuel (id :: picked)
        | .error _ _ => True
    | .error (.error _) _ => picked = []
    | .error _ _ => True

/-- The frames that are tried before those of the streams. -/
def writeControl (epoch : Epoch) (env : SendEnv) : Program Error Packing Unit := do
  let c := (← get).conn
  let short := PacketType.fromEpoch epoch == .short
  Program.when (!c.isClosing) (writeAck epoch env)
  Program.forWhile writeReset (inOrder env.canceledOrder c.streams.canceled)
  Program.when (short && !c.isClosing) do
    writeHandshakeDone
    writeMaxStreamsBidi
    writeMaxStreamsUni
    writeMaxData
    Program.forWhile writeMaxStreamData (inOrder env.almostFullOrder c.streams.almostFull)
  writeConnectionClose
  writeApplicationClose epoch
  writePathResponse
  Program.when (!c.isClosing) (writeCrypto epoch)

end Packing

namespace Connection

/-- A packet with `room` bytes for its frames comes to the loop over the streams with `p`. -/
structure EntersLoop (c : Connection) (epoch : Epoch) (room : ℕ) (env : SendEnv) (p : Packing) :
    Prop where
  short : epoch = .application
  fecEncoded : c.fecEncoded = []
  live : c.isClosing = false
  control : Packing.writeControl epoch env ⟨c, .new room⟩ = .ok () p
  credit : p.conn.txData < p.conn.maxTxData
  left : maxStreamOverhead < p.draft.left

/-- The loop over the streams, if the packet has one, is accountable. -/
def AccountablePacket (c : Connection) (epoch : Epoch) (room cap : ℕ) (env : SendEnv) : Prop :=
  ∀ p, c.EntersLoop epoch room env p →
    p.Accountable env c.streams cap (p.conn.streams.flushable.length + 2) []

/-- The packet that is put together next is accountable. -/
def Accountable (outLen : ℕ) (env : SendEnv) (c : Connection) : Prop :=
  c.derivedInitialSecrets = true → ∀ c₀ epoch pnLen c₁, c.Prepares outLen env c₀ epoch pnLen c₁ →
    c₁.AccountablePacket epoch (c₁.frameRoom epoch pnLen (c₀.packetCap outLen) env)
      (c₀.packetCap outLen - c₁.packetOverhead epoch pnLen) env

end Connection

/-! ### The frames that come first -/

namespace Packing

/-- Frames are appended that are of no stream. -/
def Plain (p p' : Packing) : Prop :=
  ∃ fs, (∀ f ∈ fs, f.ofStream = none) ∧ p'.draft.frames = p.draft.frames ++ fs

instance : IsPreorder Packing Plain where
  refl p := ⟨[], nofun, (List.append_nil _).symm⟩
  trans := by
    rintro p p' p'' ⟨fs, hfs, hframes⟩ ⟨gs, hgs, hframes'⟩
    refine ⟨fs ++ gs, fun f hf => ?_, by rw [hframes', hframes, List.append_assoc]⟩
    rcases List.mem_append.mp hf with hf | hf
    · exact hfs f hf
    · exact hgs f hf

/-- Nothing is added to the packet. -/
theorem plain_of_frames_eq {p p' : Packing} (h : p'.draft.frames = p.draft.frames) : p.Plain p' :=
  ⟨[], nofun, by rw [h, List.append_nil]⟩

/-- A frame is added that belongs to no stream. -/
theorem plain_of_append {p p' : Packing} {f : Frame} (hf : f.ofStream = none)
    (h : p'.draft.frames = p.draft.frames ++ [f]) : p.Plain p' :=
  ⟨[f], fun g hg => by rwa [List.mem_singleton.mp hg], h⟩

/-- Quiet frames belong to no stream. -/
theorem plain_of_isQuiet {p p' : Packing}
    (h : ∃ fs, fs.all Frame.isQuiet ∧ p'.draft.frames = p.draft.frames ++ fs) : p.Plain p' := by
  obtain ⟨fs, hfs, hframes⟩ := h
  exact ⟨fs, fun f hf => Frame.ofStream_of_isQuiet (List.all_eq_true.mp hfs f hf), hframes⟩

/-- A frame of a stream is none of those that were appended. -/
theorem Plain.mem_iff {p p' : Packing} (h : p.Plain p') (id : ℕ) :
    (∃ f ∈ p'.draft.frames, f.ofStream = some id) ↔ ∃ f ∈ p.draft.frames, f.ofStream = some id := by
  obtain ⟨fs, hfs, hframes⟩ := h
  rw [hframes]
  constructor
  · rintro ⟨f, hf, hid⟩
    rcases List.mem_append.mp hf with hf | hf
    · exact ⟨f, hf, hid⟩
    · rw [hfs f hf] at hid
      cases hid
  · rintro ⟨f, hf, hid⟩
    exact ⟨f, List.mem_append_left _ hf, hid⟩

section Control

variable (epoch : Epoch) (env : SendEnv)

theorem Quiet.plain {p p' : Packing} (h : p.Quiet p') : p.Plain p' := plain_of_isQuiet h.calm.frames

theorem Calm.plain {p p' : Packing} (h : p.Calm p') : p.Plain p' := plain_of_isQuiet h.frames

private theorem writeReset_plain (id : ℕ) (p : Packing) : (writeReset id).Keeps Plain p := by
  refine (writeReset_effect id p).mono fun p' h => ?_
  cases h with
  | skipped conn frames => exact plain_of_frames_eq frames
  | written live conn frames => exact plain_of_append rfl frames

private theorem writeMaxData_plain (p : Packing) : writeMaxData.Keeps Plain p := by
  refine (writeMaxData_effect p).mono fun p' h => ?_
  cases h with
  | skipped conn frames => exact plain_of_frames_eq frames
  | raised conn frames => exact plain_of_append rfl frames

private theorem writeMaxStreamData_plain (id : ℕ) (p : Packing) :
    (writeMaxStreamData id).Keeps Plain p := by
  refine (writeMaxStreamData_effect id p).mono fun p' h => ?_
  cases h with
  | skipped conn frames => exact plain_of_frames_eq frames
  | raised live update updated conn frames =>
    rcases frames with frames | frames
    · exact plain_of_frames_eq frames
    · exact plain_of_append rfl frames

private theorem writeCrypto_plain (p : Packing) : (writeCrypto epoch).Keeps Plain p := by
  refine (writeCrypto_effect epoch p).mono fun p' h => ?_
  rcases h.frames with frames | ⟨data, -, frames⟩
  · exact plain_of_frames_eq frames
  · exact plain_of_append rfl frames

/-- No frame of a stream is written before the loop. -/
theorem writeControl_plain (p : Packing) : (writeControl epoch env).Keeps Plain p := by
  rw [writeControl, Program.keeps_get_bind]
  refine .bind (.when fun _ => (writeAck_quiet epoch env p).mono fun _ => Quiet.plain)
    fun _ p _ => ?_
  refine .bind (.forWhile writeReset_plain _ p) fun _ p _ => ?_
  refine .bind (.when fun _ => ?_) fun _ p _ => ?_
  · refine .bind ((writeHandshakeDone_quiet p).mono fun _ => Quiet.plain) fun _ p _ => ?_
    refine .bind ((writeMaxStreamsBidi_effect p).mono fun _ => Calm.plain) fun _ p _ => ?_
    refine .bind ((writeMaxStreamsUni_effect p).mono fun _ => Calm.plain) fun _ p _ => ?_
    refine .bind (writeMaxData_plain p) fun _ p _ => ?_
    exact .forWhile writeMaxStreamData_plain _ p
  refine .bind ((writeConnectionClose_quiet p).mono fun _ => Quiet.plain) fun _ p _ => ?_
  refine .bind ((writeApplicationClose_quiet epoch p).mono fun _ => Quiet.plain) fun _ p _ => ?_
  refine .bind ((writePathResponse_quiet p).mono fun _ => Quiet.plain) fun _ p _ => ?_
  exact .when fun _ => writeCrypto_plain epoch p

end Control

/-! ### One turn of the loop -/

section Turn

variable (env : SendEnv) {id : ℕ} {s : Stream} {block : Block} {p : Packing}

/-- What a turn does after the block is described. -/
def afterBlockInfo (id : ℕ) (block : Block) (s : Stream) : Program Error Packing Bool := do
  let p ← get
  if p.draft.left ≤ maxStreamOverhead then
    requeue id s
    pure true
  else
    let room ← Program.unwrapSub (p.streamRoom id)
    sendData env id block s room

/-- A block is there for streams that are there. -/
theorem exists_live (hblock : p.conn.streams.getBlock id = some block) :
    ∃ s, p.conn.streams.streams id = some s := by
  obtain ⟨s, live, -⟩ := Option.map_eq_some_iff.mp hblock
  exact ⟨s, live⟩

/-- A turn announces the block, and goes on with its data. -/
theorem streamTurn_apply (hblock : p.conn.streams.getBlock id = some block)
    (live : p.conn.streams.streams id = some s) :
    streamTurn env id p = (writeBlockInfo id s >>= afterBlockInfo env id block) p := by
  rw [streamTurn, Program.bind_apply, Program.get_apply]
  dsimp only
  rw [hblock, Program.unwrap_some, pure_bind, live]
  rfl

private theorem lift_afterBlockInfo (id : ℕ) (block : Block) (s : Stream) :
    (lift (afterBlockInfo env id block s) : Program Error (Packing × Blocks) Bool) = (do
      let p := (← get).1
      if p.draft.left ≤ maxStreamOverhead then
        lift (requeue id s)
        pure true
      else
        let room ← Program.unwrapSub (p.streamRoom id)
        lift (sendData env id block s room)) := by
  rw [afterBlockInfo, Program.lift_get_bind]
  refine bind_congr fun q => ?_
  dsimp only
  by_cases hleft : q.1.draft.left ≤ maxStreamOverhead
  · rw [if_pos hleft, if_pos hleft, Program.lift_bind, Program.lift_pure]
  · rw [if_neg hleft, if_neg hleft, Program.lift_bind]
    cases q.1.streamRoom id with
    | none => rfl
    | some room => rfl

/-- A turn adds the block of the picked stream to the list, and does then what a turn of the
plain loop does. -/
theorem streamTurnWithBlocks_apply (hblock : p.conn.streams.getBlock id = some block) (t : Blocks) :
    streamTurnWithBlocks env id (p, t) = Program.tell (t.map (· ++ [block]))
        (streamTurn env id p) := by
  obtain ⟨s, live⟩ := exists_live hblock
  rw [streamTurn_apply env hblock live, ← Program.lift_apply, Program.lift_bind,
    streamTurnWithBlocks,
    Program.bind_apply, Program.get_apply]
  dsimp only
  rw [hblock, Program.unwrap_some, pure_bind, Program.bind_apply, Program.modify_apply, live]
  dsimp only
  simp only [lift_afterBlockInfo]

/-- Frames of the stream `id` are appended. -/
structure Appends (id : ℕ) (fs : List Frame) (p p' : Packing) : Prop where
  frames : p'.draft.frames = p.draft.frames ++ fs
  own : ∀ f ∈ fs, f.ofStream = some id

/-- No frame is added. -/
theorem appends_nil {p p' : Packing} (h : p'.draft.frames = p.draft.frames) : Appends id [] p p' :=
  ⟨by rw [h, List.append_nil], nofun⟩

/-- A frame of the stream is added. -/
theorem appends_singleton {p p' : Packing} {f : Frame} (hf : f.ofStream = some id)
    (h : p'.draft.frames = p.draft.frames ++ [f]) : Appends id [f] p p' :=
  ⟨h, fun g hg => by rwa [List.mem_singleton.mp hg]⟩

theorem Appends.trans {fs gs : List Frame} {p p' p'' : Packing} (h : Appends id fs p p')
    (h' : Appends id gs p' p'') : Appends id (fs ++ gs) p p'' where
  frames := by rw [h'.frames, h.frames, List.append_assoc]
  own f hf := (List.mem_append.mp hf).elim (h.own f) (h'.own f)

/-- The block is described, or nothing happens. -/
theorem writeBlockInfo_appends (id : ℕ) (s : Stream) (p : Packing) : (writeBlockInfo id s).Ends p
    (fun s' p' => (p.Announces id s ∧ ∃ f, Appends id [f] p p') ∨ ¬ p.Announces id s ∧
      s' = s ∧ p' = p)
    noError := by
  rw [writeBlockInfo, Program.ends_bind, Program.ends_get]
  refine Program.ends_ite.mpr ⟨fun hnew => ?_, fun hnew => .inr ⟨fun h => hnew h.1, rfl, rfl⟩⟩
  change (tryFrame (p.conn.blockInfo id s) true >>= _).Ends p _ _
  rw [Program.ends_bind, tryFrame, Program.ends_bind, Program.ends_get, Program.ends_ite,
    Program.ends_ite]
  refine ⟨fun _ => Fault.panic_ne_error, fun _ => ⟨fun hfits => ?_, fun hfits => ?_⟩⟩
  · rw [Program.ends_bind]
    refine (addFrame_ends _ true p).mono (fun _ p₁ h₁ => ?_) fun _ _ h => h
    exact .inl ⟨⟨hnew, hfits⟩, _, appends_singleton rfl h₁.2⟩
  · exact .inr ⟨fun h => hfits h.2, rfl, rfl⟩

/-- The queue is changed, and not the packet. -/
theorem requeue_draft (id : ℕ) (s : Stream) (p : Packing) :
    (requeue id s).Ends p (fun _ p' => p'.draft = p.draft) noError := by
  rw [requeue, Program.ends_ite]
  exact ⟨fun _ => rfl, fun _ => rfl⟩

/-- The rest of a turn writes a STREAM frame, or none. -/
theorem afterBlockInfo_appends (id : ℕ) (block : Block) (s : Stream) (p : Packing) :
    (afterBlockInfo env id block s).Ends p
      (fun _ p' => ∃ fs, Appends id fs p p' ∧ (fs ≠ [] ↔ p.Carries id s)) noError := by
  rw [afterBlockInfo, Program.ends_bind, Program.ends_get]
  refine Program.ends_ite.mpr ⟨fun hleft => ?_, fun hleft => ?_⟩
  · rw [Program.ends_bind]
    refine (requeue_draft id s p).mono (fun _ p' h => ?_) fun _ _ h => h
    exact ⟨[], appends_nil (by rw [h]), by simp [Carries, hleft.not_gt]⟩
  rw [Program.ends_bind, Program.ends_unwrapSub]
  refine ⟨fun room hroom => ?_, fun _ => nofun⟩
  have hcarries : p.Carries id s ↔ streamOverhead id s room ≤ room ∧
      ¬ ((s.send.pop (room - streamOverhead id s room)).1.isEmpty &&
        !(s.send.pop (room - streamOverhead id s room)).1.fin) = true := by
    simp [Carries, not_le.mp hleft, hroom]
  refine Program.ends_ite.mpr ⟨fun hfits => ?_, fun hfits => ?_⟩
  · refine ⟨[], appends_nil rfl, ?_⟩
    rw [hcarries]
    simp [hfits.not_ge]
  dsimp only [modifyStreams, modifyConn]
  rw [Program.ends_bind, Program.ends_modify]
  refine Program.ends_ite.mpr ⟨fun hempty => ?_, fun hempty => ?_⟩
  · refine ⟨[], appends_nil rfl, ?_⟩
    rw [hcarries]
    simp only [hempty, ne_eq, not_true_eq_false, and_false]
  rw [Program.ends_bind, Program.ends_modify, Program.ends_bind]
  refine (chooseRedundancy_effect env block _ _).mono (fun _ p₁ h₁ => ?_) fun _ _ => False.elim
  rw [Program.ends_bind]
  refine (addFrame_ends _ true p₁).mono (fun _ p₂ h₂ => ?_) fun _ _ h => h
  rw [Program.ends_bind]
  refine (requeue_draft id _ p₂).mono (fun _ p₃ h₃ => ?_) fun _ _ h => h
  have hframes : p₃.draft.frames = p.draft.frames ++
      [.stream id (s.send.pop (room - streamOverhead id s room)).1] := by
    rw [h₃, h₂.2, h₁.2]
  refine ⟨_, appends_singleton rfl hframes, ?_⟩
  rw [hcarries]
  exact ⟨fun _ => ⟨not_lt.mp hfits, hempty⟩, fun _ => List.cons_ne_nil _ _⟩

/-- A turn appends frames of the picked stream only, and some if there are any to append. -/
theorem streamTurn_appends (hblock : p.conn.streams.getBlock id = some block) :
    (streamTurn env id).Ends p
    (fun _ p' => ∃ fs, Appends id fs p p' ∧ (fs ≠ [] ↔ p.Frames id)) noError := by
  obtain ⟨s, live⟩ := exists_live hblock
  have hframes : p.Frames id ↔ p.Announces id s ∨ p.Carries id s := by simp [Frames, live]
  rw [Program.Ends, streamTurn_apply env hblock live]
  change (writeBlockInfo id s >>= afterBlockInfo env id block).Ends p _ _
  refine (writeBlockInfo_appends id s p).bind fun s' p₁ h₁ => ?_
  refine (afterBlockInfo_appends env id block s' p₁).mono (fun _ p' h => ?_) fun _ _ h => h
  obtain ⟨fs, hfs, hiff⟩ := h
  rcases h₁ with ⟨hannounces, f, hf⟩ | ⟨hnot, rfl, rfl⟩
  · exact ⟨[f] ++ fs, hf.trans hfs, by simp [hframes, hannounces]⟩
  · exact ⟨fs, hfs, by rw [hiff, hframes, or_iff_right hnot]⟩

end Turn

/-! ### The loop -/

/-- The blocks `new` are those of the frames `fs`, each once, different from the `picked` ones
and as in `m₀`; if any block was picked, the padded payload takes at most `cap` bytes. -/
structure Tallies (m₀ : StreamMap) (cap : ℕ) (picked : List ℕ) (new : List Block) (fs : List Frame)
    (p : Packing) : Prop where
  once : (new.map Block.blockId).Nodup
  fresh : ∀ b ∈ new, b.blockId ∉ picked
  framed : ∀ b ∈ new, ∃ f ∈ fs, f.ofStream = some b.blockId
  asBefore : ∀ b ∈ new, m₀.getBlock b.blockId = some b
  fits : picked ≠ [] ∨ new ≠ [] → p.minPayload .application ≤ cap

section Loop

variable {env : SendEnv} {m₀ : StreamMap} {cap : ℕ} {picked : List ℕ} {new : List Block}
  {fs fs₁ : List Frame} {b : Block} {p : Packing}

/-- Without frames, all that was picked has to fit. -/
theorem tallies_nil :
    Tallies m₀ cap picked [] fs p ↔ (picked ≠ [] → p.minPayload .application ≤ cap) := by
  constructor
  · exact fun h hne => h.fits (.inl hne)
  · exact fun h => ⟨List.nodup_nil, nofun, nofun, nofun, fun hne => h (hne.resolve_right (· rfl))⟩

/-- A turn is added in front. -/
theorem tallies_cons (hfs₁ : ∀ f ∈ fs₁, f.ofStream = some b.blockId)
    (hfs : ∀ f ∈ fs, ∃ b' ∈ new, f.ofStream = some b'.blockId) :
    Tallies m₀ cap picked (b :: new) (fs₁ ++ fs) p ↔
      (b.blockId ∉ picked ∧ m₀.getBlock b.blockId = some b ∧ fs₁ ≠ []) ∧
        Tallies m₀ cap (b.blockId :: picked) new fs p := by
  constructor
  · intro h
    have hnodup := List.nodup_cons.mp h.once
    -- the frames of the later turns are of other streams
    have hother : ∀ b' ∈ new, b'.blockId ≠ b.blockId := by
      intro b' hb' heq
      exact hnodup.1 (heq ▸ List.mem_map_of_mem hb')
    refine ⟨⟨h.fresh b List.mem_cons_self, h.asBefore b List.mem_cons_self, ?_⟩, ?_⟩
    · rintro rfl
      obtain ⟨f, hf, hid⟩ := h.framed b List.mem_cons_self
      obtain ⟨b', hb', hid'⟩ := hfs f hf
      exact hother b' hb' (Option.some.inj (hid'.symm.trans hid))
    · refine ⟨hnodup.2, fun b' hb' hmem => ?_, fun b' hb' => ?_,
        fun b' hb' => h.asBefore b' (List.mem_cons_of_mem b hb'), fun _ =>
          h.fits (.inr (List.cons_ne_nil _ _))⟩
      · rcases List.mem_cons.mp hmem with heq | hmem
        · exact hother b' hb' heq
        · exact h.fresh b' (List.mem_cons_of_mem b hb') hmem
      · obtain ⟨f, hf, hid⟩ := h.framed b' (List.mem_cons_of_mem b hb')
        rcases List.mem_append.mp hf with hf | hf
        · exact absurd (Option.some.inj (hid.symm.trans (hfs₁ f hf))) (hother b' hb')
        · exact ⟨f, hf, hid⟩
  · rintro ⟨⟨hfresh, hbefore, hne⟩, h⟩
    refine ⟨List.nodup_cons.mpr ⟨fun hmem => ?_, h.once⟩, ?_, ?_, ?_, fun _ =>
      h.fits (.inl (List.cons_ne_nil _ _))⟩
    · obtain ⟨b', hb', heq⟩ := List.mem_map.mp hmem
      exact h.fresh b' hb' (heq ▸ List.mem_cons_self)
    · intro b' hb'
      rcases List.mem_cons.mp hb' with rfl | hb'
      · exact hfresh
      · exact fun hmem => h.fresh b' hb' (List.mem_cons_of_mem _ hmem)
    · intro b' hb'
      rcases List.mem_cons.mp hb' with rfl | hb'
      · obtain ⟨f, hf⟩ := List.exists_mem_of_ne_nil fs₁ hne
        exact ⟨f, List.mem_append_left _ hf, hfs₁ f hf⟩
      · obtain ⟨f, hf, hid⟩ := h.framed b' hb'
        exact ⟨f, List.mem_append_right _ hf, hid⟩
    · intro b' hb'
      rcases List.mem_cons.mp hb' with rfl | hb'
      · exact hbefore
      · exact h.asBefore b' hb'

section Step

variable {fuel : ℕ} {m : StreamMap}

private theorem accountable_stop
    (hpeek : StreamMap.peekFlushable env.pace p.conn.streams = .ok none m) :
    p.Accountable env m₀ cap (fuel + 1) picked ↔
        (picked ≠ [] → p.minPayload .application ≤ cap) := by
  rw [Accountable, hpeek]

private theorem accountable_error {err : Error}
    (hpeek : StreamMap.peekFlushable env.pace p.conn.streams = .error (.error err) m) :
    p.Accountable env m₀ cap (fuel + 1) picked ↔ picked = [] := by
  rw [Accountable, hpeek]

variable {p₂ : Packing}

private theorem accountable_last
    (hpeek : StreamMap.peekFlushable env.pace p.conn.streams = .ok (some b.blockId) m)
    (hblock : m.getBlock b.blockId = some b)
    (hturn : streamTurn env b.blockId { p with conn := p.conn.setStreams m } = .ok true p₂) :
    p.Accountable env m₀ cap (fuel + 1) picked ↔
      (b.blockId ∉ picked ∧ m₀.getBlock b.blockId = some b ∧
        ({ p with conn := p.conn.setStreams m } : Packing).Frames b.blockId) ∧
          p₂.minPayload .application ≤ cap := by
  rw [Accountable, hpeek]
  dsimp only
  rw [hturn, hblock]

/-- A turn that does not stop is followed by the turns of what is left of the queue. -/
theorem accountable_next
    (hpeek : StreamMap.peekFlushable env.pace p.conn.streams = .ok (some b.blockId) m)
    (hblock : m.getBlock b.blockId = some b)
    (hturn : streamTurn env b.blockId { p with conn := p.conn.setStreams m } = .ok false p₂) :
    p.Accountable env m₀ cap (fuel + 1) picked ↔
      (b.blockId ∉ picked ∧ m₀.getBlock b.blockId = some b ∧
        ({ p with conn := p.conn.setStreams m } : Packing).Frames b.blockId) ∧
          p₂.Accountable env m₀ cap fuel (b.blockId :: picked) := by
  rw [Accountable, hpeek]
  dsimp only
  rw [hturn, hblock]

end Step

/-- What the loop adds to the list, what it writes, and when the one agrees with the other. -/
theorem writeStreamWithBlocks_ends (m₀ : StreamMap) (cap fuel : ℕ) (picked : List ℕ) (p : Packing)
    (blocks : List Block) :
    (writeStreamWithBlocks env fuel).Ends (p, some blocks)
      (fun _ s => ∃ new fs, s.2 = some (blocks ++ new) ∧ s.1.draft.frames = p.draft.frames ++ fs ∧
        (∀ f ∈ fs, ∃ b ∈ new, f.ofStream = some b.blockId) ∧
          (p.Accountable env m₀ cap fuel picked ↔ Tallies m₀ cap picked new fs s.1))
      fun e s => (∃ err, e = .error err) → ∃ new, s.2 = some (blocks ++ new) ∧
        (p.Accountable env m₀ cap fuel picked ↔ new = [] ∧ picked = []) := by
  -- one turn at a time: what is picked now is behind what was picked before
  induction fuel generalizing picked p blocks with
  | zero =>
    rintro ⟨err, h⟩
    cases h
  | succ fuel ih =>
    rw [writeStreamWithBlocks, Program.ends_bind, streamStepWithBlocks, Program.ends_bind,
      Program.ends_lift,
      onStreams, Program.ends_zoom]
    refine Program.ends_iff.mpr ⟨fun pick m hpeek => ?_, fun e m hpeek => ?_⟩
    swap
    · rintro ⟨err, rfl⟩
      exact ⟨[], by rw [List.append_nil], by rw [accountable_error hpeek, eq_self, true_and]⟩
    cases pick with
    | none =>
      refine ⟨[], [], by rw [List.append_nil], (List.append_nil _).symm, List.forall_mem_nil _, ?_⟩
      rw [accountable_stop hpeek, tallies_nil]
      rfl
    | some id =>
      dsimp only
      cases hblock : m.getBlock id with
      | none =>
        rw [streamTurnWithBlocks, Program.ends_bind, Program.ends_get, Program.ends_bind,
          Program.ends_unwrap]
        refine ⟨fun b hb => ?_, fun _ => Fault.absurd_error Fault.panic_ne_error⟩
        cases hblock.symm.trans hb
      | some b =>
        obtain rfl : b.blockId = id := StreamMap.getBlock_id hblock
        rw [Program.ends_of_apply_eq_tell (streamTurnWithBlocks_apply env hblock (some blocks))]
        refine Program.ends_iff.mpr ⟨fun stop p₂ hturn => ?_, fun e p₂ hturn => ?_⟩
        swap
        · rintro ⟨err, rfl⟩
          exact absurd rfl ((streamTurn_appends env hblock).error hturn err)
        obtain ⟨fs₁, happends, hne⟩ := (streamTurn_appends env hblock).ok hturn
        cases stop with
        | true =>
          -- the block is the last one
          refine ⟨[b], fs₁, rfl, happends.frames, fun f hf =>
            ⟨b, List.mem_cons_self, happends.own f hf⟩, ?_⟩
          have hlast : ∀ f ∈ ([] : List Frame), ∃ b' ∈ ([] : List Block),
            f.ofStream = some b'.blockId := by simp
          have hcons : Tallies m₀ cap picked [b] (fs₁ ++ []) p₂ ↔ _ :=
            tallies_cons happends.own hlast
          rw [List.append_nil, tallies_nil] at hcons
          rw [accountable_last hpeek hblock hturn, ← hne, hcons]
          simp
        | false =>
          refine (ih (b.blockId :: picked) p₂ (blocks ++ [b])).mono (fun _ s h => ?_)
            fun e s h he => ?_
          · obtain ⟨new, fs, hlist, hframes, hown, hiff⟩ := h
            -- the frames of this turn come before those of the next ones
            refine ⟨b :: new, fs₁ ++ fs, by rw [hlist, List.append_assoc]; rfl, ?_, ?_, ?_⟩
            · rw [hframes, happends.frames, List.append_assoc]
            · intro f hf
              rcases List.mem_append.mp hf with hf | hf
              · exact ⟨b, List.mem_cons_self, happends.own f hf⟩
              · obtain ⟨b', hb', hid⟩ := hown f hf
                exact ⟨b', List.mem_cons_of_mem b hb', hid⟩
            · rw [accountable_next hpeek hblock hturn, ← hne, hiff, tallies_cons happends.own hown]
          · obtain ⟨new, hlist, hiff⟩ := h he
            refine ⟨b :: new, by rw [hlist, List.append_assoc]; rfl, ?_⟩
            rw [accountable_next hpeek hblock hturn, hiff]
            simp

end Loop

/-! ### The packet -/

section Packet

variable {c : Connection} {epoch : Epoch} {room cap : ℕ} {env : SendEnv} {blocks new : List Block}
  {p p' : Packing}

/-- The frames that are tried after those that come first. -/
def writeData (closing : Bool) (epoch : Epoch) (env : SendEnv) :
    Program Error (Packing × Blocks) Unit := do
  let p := (← get).1
  let sendsData := decide (p.conn.txData < p.conn.maxTxData ∧ maxStreamOverhead < p.draft.left)
  Program.when (PacketType.fromEpoch epoch == .short && sendsData && !closing)
    (writeStreamWithBlocks env (p.conn.streams.flushable.length + 2))
  Program.when (!closing) (lift (writePing epoch))

private theorem writeFramesWithBlocks_apply (epoch : Epoch) (env : SendEnv) (p : Packing)
    (t : Blocks) :
    writeFramesWithBlocks epoch env (p, t) =
      (lift (writeControl epoch env) >>= fun _ => writeData p.conn.isClosing epoch env) (p, t) := by
  rw [writeFramesWithBlocks, writeControl, Program.lift_get_bind, bind_assoc, Program.bind_apply,
    Program.bind_apply, Program.get_apply]
  simp only [Program.lift_bind, Program.lift_when, bind_assoc]
  rfl

private theorem Advances.minPayload_eq (h : p.Advances p') (e : Epoch) :
    p'.minPayload e = p.minPayload e := by
  rcases h with rfl | ⟨hconn, -, hask⟩
  · rfl
  · rw [minPayload, minPayload, hconn.fec, hask.m, hask.n]

/-- What is known of the list when the packet is filled: `new` was added to it and names the
streams of all frames, it agrees with the frames if the packet is accountable and is then not
padded too far, and it grows only in the loop. -/
structure Listed (c : Connection) (epoch : Epoch) (room cap : ℕ) (env : SendEnv)
    (blocks new : List Block)
    (s : Packing × Blocks) : Prop where
  list : s.2 = some (blocks ++ new)
  covers : ∀ f ∈ s.1.draft.frames, ∀ id, f.ofStream = some id → id ∈ new.map Block.blockId
  accountable : c.AccountablePacket epoch room cap env ↔
    c.ListsBlocks s.1.draft.frames new ∧ (new ≠ [] → s.1.minPayload .application ≤ cap)
  loop : new ≠ [] → epoch = .application ∧ c.fecEncoded = []

private theorem tallies_iff_listsBlocks {fs frames : List Frame}
    (hframes : ∀ id, (∃ f ∈ frames, f.ofStream = some id) ↔ ∃ f ∈ fs, f.ofStream = some id)
    (hown : ∀ f ∈ fs, ∃ b ∈ new, f.ofStream = some b.blockId) :
    Tallies c.streams cap [] new fs p ↔
      c.ListsBlocks frames new ∧ (new ≠ [] → p.minPayload .application ≤ cap) := by
  constructor
  · intro h
    refine ⟨⟨h.once, fun id => ?_, h.asBefore⟩, fun hne => h.fits (.inr hne)⟩
    rw [hframes]
    constructor
    · intro hid
      obtain ⟨b, hb, rfl⟩ := List.mem_map.mp hid
      exact h.framed b hb
    · rintro ⟨f, hf, hid⟩
      obtain ⟨b, hb, hid'⟩ := hown f hf
      exact List.mem_map.mpr ⟨b, hb, Option.some.inj (hid'.symm.trans hid)⟩
  · rintro ⟨h, hfits⟩
    refine ⟨h.once, nofun, fun b hb => ?_, h.asBefore, fun hne => hfits (hne.resolve_left (· rfl))⟩
    exact (hframes _).mp ((h.exact _).mp (List.mem_map_of_mem hb))

/-- A packet that does not come to the loop adds nothing to the list. -/
theorem listed_of_plain (hnot : ∀ p, ¬ c.EntersLoop epoch room env p)
    (hplain : Plain ⟨c, .new room⟩ p) : Listed c epoch room cap env blocks [] (p, some blocks) where
  list := by rw [List.append_nil]
  covers f hf id hid := by
    obtain ⟨_, hg, _⟩ := (hplain.mem_iff id).mp ⟨f, hf, hid⟩
    cases hg
  accountable := by
    refine ⟨fun _ => ⟨⟨List.nodup_nil, fun id => ?_, nofun⟩, (absurd rfl ·)⟩, fun _ p hp =>
      absurd hp (hnot p)⟩
    rw [hplain.mem_iff]
    exact ⟨nofun, fun ⟨_, hf, _⟩ => nomatch hf⟩
  loop := (absurd rfl ·)

/-- If nothing was added, the list agrees with the frames. -/
theorem Listed.of_nil {s : Packing × Blocks} (h : Listed c epoch room cap env blocks [] s) :
    c.AccountablePacket epoch room cap env := by
  refine h.accountable.mpr ⟨⟨List.nodup_nil, fun id => ?_, nofun⟩, (absurd rfl ·)⟩
  exact ⟨nofun, fun ⟨f, hf, hid⟩ => h.covers f hf id hid⟩

/-- Frames of no stream change nothing about the list. -/
theorem Listed.plain {t : Blocks} (h : Listed c epoch room cap env blocks new (p, t))
    (hplain : p.Plain p')
    (hmin : p'.minPayload .application = p.minPayload .application) :
    Listed c epoch room cap env blocks new (p', t) where
  list := h.list
  covers f hf id hid := by
    obtain ⟨g, hg, hid'⟩ := (hplain.mem_iff id).mp ⟨f, hf, hid⟩
    exact h.covers g hg id hid'
  accountable := by
    rw [h.accountable, hmin]
    exact and_congr_left fun _ => Connection.listsBlocks_congr hplain.mem_iff
  loop := h.loop

/-- A packet is accountable when its loop is. -/
theorem accountablePacket_iff (henters : c.EntersLoop epoch room env p) :
    c.AccountablePacket epoch room cap env ↔
      p.Accountable env c.streams cap (p.conn.streams.flushable.length + 2) [] := by
  refine ⟨fun h => h p henters, fun h p' henters' => ?_⟩
  have heq := henters.control.symm.trans henters'.control
  cases heq
  exact h

/-- An error while the list has grown by `new`. -/
abbrev unlisted (c : Connection) (epoch : Epoch) (room cap : ℕ) (env : SendEnv)
    (blocks : List Block) :
    Lib.Fault Error → Packing × Blocks → Prop := fun e s =>
  (∃ err, e = .error err) → (s.2 = some blocks ↔ c.AccountablePacket epoch room cap env)

private theorem writePing_listed {s : Packing × Blocks} (live : Bool)
    (h : Listed c epoch room cap env blocks new s) :
    (Program.when live (lift (writePing epoch)) : Program Error (Packing × Blocks) Unit).Ends s
      (fun _ s => ∃ new, Listed c epoch room cap env blocks new s)
          (unlisted c epoch room cap env blocks) := by
  refine .when (fun _ => ?_) fun _ => ⟨new, h⟩
  rw [Program.ends_lift]
  refine ((writePing_advances epoch s.1).and (writePing_quiet epoch s.1)).mono (fun _ p' hp => ?_)
    fun e _ he => ?_
  · exact ⟨new, h.plain hp.2.plain (hp.1.minPayload_eq .application)⟩
  · rintro ⟨err, rfl⟩
    exact absurd rfl (he.1 err)

/-- What the loop adds to the list, in the packet that `c` puts together. -/
theorem writeData_listed (hfec : c.fecEncoded = [])
    (control : writeControl epoch env ⟨c, .new room⟩ = .ok () p) :
    (writeData c.isClosing epoch env).Ends (p, some blocks)
      (fun _ s => ∃ new, Listed c epoch room cap env blocks new s)
          (unlisted c epoch room cap env blocks) := by
  have hplain : Plain ⟨c, .new room⟩ p := (writeControl_plain epoch env _).ok control
  rw [writeData, Program.ends_bind, Program.ends_get]
  refine Program.Ends.bind (R := fun _ s => ∃ new, Listed c epoch room cap env blocks new s)
    (.when (fun hdue => ?_) fun hdue => ?_) fun _ s h => ?_
  · simp only [Bool.and_eq_true, decide_eq_true_eq, Bool.not_eq_true'] at hdue
    obtain ⟨⟨hshort, hcredit, hleft⟩, hlive⟩ := hdue
    have henters : c.EntersLoop epoch room env p :=
      ⟨eq_application hshort, hfec, hlive, control, hcredit, hleft⟩
    refine (writeStreamWithBlocks_ends c.streams cap _ [] p blocks).mono (fun _ s h => ?_)
      fun e s h herr => ?_
    · obtain ⟨new, fs, hlist, hframes, hown, hiff⟩ := h
      have hmem (id : ℕ) : (∃ f ∈ s.1.draft.frames, f.ofStream = some id) ↔
          ∃ f ∈ fs, f.ofStream = some id := by
        have hbefore : ¬ ∃ f ∈ p.draft.frames, f.ofStream = some id := by
          rw [hplain.mem_iff]
          exact fun ⟨_, hf, _⟩ => nomatch hf
        simp only [hframes, List.mem_append, or_and_right, exists_or, hbefore, false_or]
      refine ⟨new, hlist, fun f hf id hid => ?_, ?_, fun _ => ⟨henters.short, hfec⟩⟩
      · obtain ⟨g, hg, hid'⟩ := (hmem id).mp ⟨f, hf, hid⟩
        obtain ⟨b, hb, hb'⟩ := hown g hg
        exact List.mem_map.mpr ⟨b, hb, Option.some.inj (hb'.symm.trans hid')⟩
      · rw [accountablePacket_iff henters, hiff]
        exact tallies_iff_listsBlocks hmem hown
    · obtain ⟨new, hlist, hiff⟩ := h herr
      rw [accountablePacket_iff henters, hiff, hlist]
      simp
  · refine ⟨[], listed_of_plain (fun p' henters => hdue ?_) hplain⟩
    have heq := control.symm.trans henters.control
    cases heq
    have hshort := henters.short
    subst hshort
    simp [henters.live, henters.credit, henters.left, PacketType.fromEpoch]
  · obtain ⟨new, hnew⟩ := h
    exact writePing_listed _ hnew

/-- What filling a packet adds to the list. -/
theorem fillPacketWithBlocks_listed :
    (fillPacketWithBlocks epoch env).Ends (⟨c, .new room⟩, some blocks)
      (fun _ s => ∃ new, Listed c epoch room cap env blocks new s)
          (unlisted c epoch room cap env blocks) := by
  rw [fillPacketWithBlocks, Program.ends_bind, Program.ends_get]
  dsimp only
  cases hfec : c.fecEncoded with
  | cons head rest =>
    obtain ⟨info, len⟩ := head
    have hnot (p : Packing) : ¬ c.EntersLoop epoch room env p := by
      intro h
      cases hfec.symm.trans h.fecEncoded
    refine Program.ends_ite.mpr ⟨fun _ => ?_, fun _ _ => iff_of_true rfl fun p henters =>
      absurd henters (hnot p)⟩
    rw [modifyConn, modifyDraft, Program.ends_bind, Program.ends_lift, Program.ends_modify,
      Program.ends_bind,
      Program.ends_lift]
    refine (addFrame_ends (.fec info len) true _).mono (fun _ p h => ?_) fun _ _ =>
      Fault.absurd_error
    rw [Program.ends_lift, Program.ends_modify]
    exact ⟨[], listed_of_plain hnot (plain_of_append rfl h.2)⟩
  | nil =>
    dsimp only
    rw [Program.Ends, writeFramesWithBlocks_apply]
    change (lift (writeControl epoch env) >>= _ : Program Error (Packing × Blocks) Unit).Ends _ _ _
    rw [Program.ends_bind, Program.ends_lift]
    refine Program.ends_iff.mpr ⟨fun _ p control => writeData_listed hfec control,
      fun e p control => ?_⟩
    refine fun _ => iff_of_true rfl fun p' henters => ?_
    cases control.symm.trans henters.control

/-- What is done with a packet that is filled. -/
def complete (epoch : Epoch) (headerLen pnLen avail : ℕ) (env : SendEnv) :
    Program Error Packing ℕ := do
  countProbe epoch
  if (← get).draft.frames.isEmpty then Program.fail .done
  else
    padInitial epoch pnLen
    padPayload epoch
    let written ← sealPacket epoch headerLen pnLen avail
    recordSent epoch written env
    pure written

variable {headerLen pnLen avail : ℕ}

private theorem packetWithBlocks_eq (epoch : Epoch) (headerLen pnLen avail : ℕ) (env : SendEnv) :
    packetWithBlocks epoch headerLen pnLen avail env =
      (fillPacketWithBlocks epoch env >>= fun _ =>
          lift (complete epoch headerLen pnLen avail env)) := by
  rw [packetWithBlocks, complete, Program.lift_bind]
  refine bind_congr fun _ => bind_congr fun _ => ?_
  rw [Program.lift_get_bind]
  refine bind_congr fun s => ?_
  by_cases hempty : s.1.draft.frames.isEmpty = true
  · rw [if_pos hempty, if_pos hempty]
    rfl
  · rw [if_neg hempty, if_neg hempty]
    simp only [Program.lift_bind, Program.lift_pure]

/-- A 1-RTT packet is completed if it has a frame and if its padding fits. -/
theorem complete_ends (env : SendEnv) (hover : headerLen + pnLen + tagLen ≤ avail)
    (hlen : p.draft.payloadLen ≤ avail - (headerLen + pnLen + tagLen))
    (hkey : (p.conn.pktNumSpaces .application).cryptoSeal = true) :
    (complete .application headerLen pnLen avail env).Ends p
      (fun _ _ => p.minPayload .application ≤ avail - (headerLen + pnLen + tagLen))
      fun e _ => (∃ err, e = .error err) → p.draft.frames = [] ∨
        ¬ p.minPayload .application ≤ avail - (headerLen + pnLen + tagLen) := by
  have hprobe : (countProbe .application).Ends p
    (fun _ p' => p'.draft = p.draft ∧ p'.conn.fec = p.conn.fec ∧
      (p'.conn.pktNumSpaces .application).cryptoSeal = true) fun _ _ => False := by
    rw [countProbe, Program.ends_bind, Program.ends_get, Program.ends_ite]
    exact ⟨fun _ => ⟨rfl, rfl, hkey⟩, fun _ => ⟨rfl, rfl, hkey⟩⟩
  rw [complete, Program.ends_bind]
  refine hprobe.mono (fun _ p₁ h₁ => ?_) fun _ _ => False.elim
  obtain ⟨hdraft, hfec, hkey₁⟩ := h₁
  have hmin : p₁.minPayload .application = p.minPayload .application := by
    rw [minPayload, minPayload, hfec, hdraft]
  rw [Program.ends_bind, Program.ends_get, hdraft]
  refine Program.ends_ite.mpr ⟨fun hempty _ => .inl (List.isEmpty_iff.mp hempty), fun _ => ?_⟩
  -- the payload is padded, without regard to the room
  rw [padInitial, Program.ends_bind, Program.ends_bind, Program.ends_get,
    if_neg (by simp [PacketType.fromEpoch]), Program.ends_pure, Program.ends_bind]
  have hlen₁ : p₁.draft.payloadLen = p.draft.payloadLen := by rw [hdraft]
  have hpad : (padPayload .application).Ends p₁ (fun _ p₂ =>
      p₂.draft.payloadLen = max p.draft.payloadLen (p.minPayload .application) ∧
        (p₂.conn.pktNumSpaces .application).cryptoSeal = true) fun _ _ => False := by
    rw [padPayload, Program.ends_bind, Program.ends_get, hmin]
    refine Program.ends_ite.mpr ⟨fun hlt => ⟨?_, hkey₁⟩, fun hle => ⟨by omega, hkey₁⟩⟩
    change p₁.draft.payloadLen + (p.minPayload .application - p₁.draft.payloadLen) = _
    omega
  refine hpad.mono (fun _ p₂ h₂ => ?_) fun _ _ => False.elim
  obtain ⟨hlen₂, hkey₂⟩ := h₂
  by_cases hfits : p.minPayload .application ≤ avail - (headerLen + pnLen + tagLen)
  · have hroom :
      headerLen + pnLen + tagLen + 0 + (avail - (headerLen + pnLen + tagLen)) ≤ avail := by omega
    have hseal : (sealPacket .application headerLen pnLen avail).Ends p₂
        (fun _ _ => True) noError :=
      sealPacket_noError (hlen₂.trans_le (max_le hlen hfits)) (absurd rfl ·) hroom hkey₂
    refine Program.Ends.bind (hseal.mono (fun _ _ h => h) fun _ _ => Fault.absurd_error)
      fun written p₃ _ => ?_
    rw [Program.ends_bind]
    exact (recordSent_noError written env p₃).mono (fun _ _ _ => hfits) fun _ _ =>
      Fault.absurd_error
  · refine Program.Ends.bind (R :=
      fun _ _ => False) (Program.Ends.mono (sealPacket_ends p₂) (fun written p₃ h => ?_)
      fun _ _ _ _ => .inr hfits) fun _ _ => False.elim
    have hwritten := h.written_eq ▸ h.written_le
    rw [payloadOffset, hlen₂] at hwritten
    simp only [PacketType.fromEpoch, if_true] at hwritten
    omega

/-- What putting a packet together adds to the list. -/
theorem packetWithBlocks_listed (env : SendEnv) (blocks : List Block)
    (hover : headerLen + pnLen + tagLen ≤ avail)
    (hroom : epoch = .application → room ≤ cap)
    (hcap : epoch = .application → avail - (headerLen + pnLen + tagLen) = cap)
    (hkey : (c.pktNumSpaces epoch).cryptoSeal = true) :
    (packetWithBlocks epoch headerLen pnLen avail env).Ends (⟨c, .new room⟩, some blocks)
      (fun _ s => ∃ filled new, fillPacket epoch env ⟨c, .new room⟩ = .ok () filled ∧
        s.2 = some (blocks ++ new) ∧
          (c.AccountablePacket epoch room cap env ↔ c.ListsBlocks filled.draft.frames new))
      (unlisted c epoch room cap env blocks) := by
  rw [packetWithBlocks_eq, Program.ends_bind]
  refine Program.ends_iff.mpr ⟨fun _ s hs => ?_, fun e s hs => fillPacketWithBlocks_listed.error hs⟩
  obtain ⟨filled, t⟩ := s
  obtain ⟨new, hlisted⟩ : ∃ new, Listed c epoch room cap env blocks new (filled, t) :=
    fillPacketWithBlocks_listed.ok hs
  have hfill : fillPacket epoch env ⟨c, .new room⟩ = .ok () filled := by
    rw [← fillPacketWithBlocks_erases epoch env ⟨c, .new room⟩ (some blocks), hs]
    rfl
  rw [Program.ends_lift]
  by_cases hnew : new = []
  · subst hnew
    have haccountable := hlisted.accountable
    rw [and_iff_left (absurd rfl ·)] at haccountable
    refine Program.ends_iff.mpr ⟨fun _ p' _ => ⟨filled, [], hfill, hlisted.list, haccountable⟩,
      fun e p' _ _ => ?_⟩
    exact iff_of_true (by simpa using hlisted.list) hlisted.of_nil
  · obtain ⟨rfl, hfec⟩ := hlisted.loop hnew
    have hsame : SameFec c ⟨c, .new room⟩ filled := by
      have hwrite : writeFrames .application env ⟨c, .new room⟩ = .ok () filled := by
        rw [← hfill, fillPacket, Program.bind_apply, Program.get_apply]
        dsimp only
        rw [hfec]
      exact (writeFrames_sameFec .application (.new room)).ok hwrite
    have hbalance : filled.draft.left + filled.draft.payloadLen = room := hsame.balance.trans
      (Nat.add_zero _)
    have hlen := hroom rfl
    have hcomplete := complete_ends env hover (p := filled) (by rw [hcap rfl]; omega)
      ((hsame.cryptoSeal _).trans hkey)
    rw [hcap rfl] at hcomplete
    refine hcomplete.mono (fun _ p' hfits => ?_) fun e p' h herr => ?_
    · refine ⟨filled, new, hfill, hlisted.list, hlisted.accountable.trans ?_⟩
      exact and_iff_left fun _ => hfits
    · -- some block was picked, and the packet is empty or padded too far
      refine iff_of_false (fun heq => hnew ?_) fun haccountable => ?_
      · have hlist := hlisted.list.symm.trans heq
        simpa using hlist
      · obtain ⟨hlists, hfits⟩ := hlisted.accountable.mp haccountable
        rcases h herr with hempty | hlong
        · obtain ⟨b, hb⟩ := List.exists_mem_of_ne_nil new hnew
          obtain ⟨f, hf, -⟩ := (hlists.exact _).mp (List.mem_map_of_mem hb)
          rw [hempty] at hf
          cases hf
        · exact hlong (hfits hnew)

end Packet

end Packing

/-! ### Calls -/

namespace Connection

section Calls

variable {outLen : ℕ} {env : SendEnv} {c c₀ c₁ c' : Connection} {epoch : Epoch} {pnLen written : ℕ}
  {pkt : Sent} {t : Blocks}

private theorem headerLen_pos (c : Connection) (epoch : Epoch) (pnLen : ℕ) :
    0 < c.headerLen epoch pnLen := by
  cases epoch <;> simp only [headerLen] <;> omega

/-- After its preparations `sendWithBlocks` puts together a packet. -/
theorem Prepares.sendWithBlocks_apply (h : c.Prepares outLen env c₀ epoch pnLen c₁)
    (hsecrets : c.derivedInitialSecrets = true) (t : Blocks) :
    sendWithBlocks outLen env (c, t) =
      Program.zoom (fun s =>
        ((⟨s.1, .new (c₁.frameRoom epoch pnLen (c₀.packetCap outLen) env)⟩ : Packing), s.2))
        (fun p _ => (p.1.conn, p.2))
        (Packing.packetWithBlocks epoch (c₁.headerLen epoch pnLen) pnLen (c₀.packetCap outLen) env)
            (c₁, t) := by
  have hheader := h.header
  have hpos := c₁.headerLen_pos epoch pnLen
  have hout : outLen ≠ 0 := by
    rintro rfl
    simp only [packetCap, Nat.min_zero] at hheader
    omega
  rw [sendWithBlocks, Program.bind_apply, Program.get_apply]
  dsimp only
  rw [if_neg hout, if_neg (by simp [h.open_]), if_neg (by simp [hsecrets]), Program.bind_apply,
    ← Program.lift_when,
    Program.lift_apply, h.handshake]
  dsimp only [Program.tell]
  rw [Program.bind_apply, Program.get_apply]
  dsimp only
  rw [Program.bind_apply, h.chosen, Program.ofExcept_ok, Program.pure_apply]
  dsimp only
  rw [Program.bind_apply, Program.lift_apply, h.drain]
  dsimp only [Program.tell]
  rw [Program.bind_apply, Program.get_apply]
  dsimp only
  rw [h.number]
  dsimp only
  rw [if_neg (by simp [h.key])]
  exact (congrFun (if_neg (not_lt.mpr hheader)) _).trans
    (congrFun (if_neg (not_lt.mpr h.overhead)) _)

/-- Without a packet to put together, `sendWithBlocks` fails and leaves the list alone. -/
theorem sendWithBlocks_stops (hnot : c.derivedInitialSecrets = true →
    ∀ c₀ epoch pnLen c₁, ¬ c.Prepares outLen env c₀ epoch pnLen c₁) :
    (sendWithBlocks outLen env).Ends (c, t) (fun _ _ => False) fun _ s => s.2 = t := by
  rw [sendWithBlocks, Program.ends_bind, Program.ends_get]
  refine Program.ends_ite.mpr ⟨fun _ => rfl, fun _ =>
      Program.ends_ite.mpr ⟨fun _ => rfl, fun hopen =>
    Program.ends_ite.mpr ⟨fun _ => rfl, fun hsecrets => ?_⟩⟩⟩
  rw [Program.ends_bind, ← Program.lift_when, Program.ends_lift]
  refine Program.ends_iff.mpr ⟨fun _ c₀ handshake => ?_, fun _ _ _ => rfl⟩
  rw [Program.ends_bind, Program.ends_get, Program.ends_bind, Program.ends_ofExcept]
  refine ⟨fun epoch chosen => ?_, fun _ _ => rfl⟩
  rw [Program.ends_bind, Program.ends_lift]
  refine Program.ends_iff.mpr ⟨fun _ c₁ drain => ?_, fun _ _ _ => rfl⟩
  rw [Program.ends_bind, Program.ends_get]
  dsimp only
  cases number : pktNumLen (c₁.pktNumSpaces epoch).nextPktNum with
  | none => exact rfl
  | some pnLen =>
    refine Program.ends_ite.mpr ⟨fun _ => rfl, fun key =>
        Program.ends_ite.mpr ⟨fun _ => rfl, fun header =>
      Program.ends_ite.mpr ⟨fun _ => rfl, fun overhead => ?_⟩⟩⟩
    refine absurd ?_ (hnot (by simpa using hsecrets) c₀ epoch pnLen c₁)
    exact ⟨by simpa using hopen, handshake, chosen, drain, number, by simpa using key,
      not_lt.mp header,
      not_lt.mp overhead⟩

/-- The packet that is remembered has the frames with which it was filled, as far as they are of
streams. -/
theorem Sends.frames_iff (h : c.Sends outLen env epoch c₁ pkt written c') :
    ∃ c₀ pnLen filled, c.Prepares outLen env c₀ epoch pnLen c₁ ∧
      Packing.fillPacket epoch env ⟨c₁, .new (c₁.frameRoom epoch pnLen (c₀.packetCap outLen) env)⟩ =
        .ok () filled ∧
        ∀ id, (∃ f ∈ pkt.frames, f.ofStream = some id) ↔ ∃ f ∈ filled.draft.frames,
            f.ofStream = some id := by
  obtain ⟨c₀, pnLen, filled, padded, sealed, p', hprep, built, -, rfl⟩ := h.packed
  refine ⟨c₀, pnLen, filled, hprep, built.fill, fun id => ?_⟩
  have hpad : Program.Keeps Packing.Plain
      (do Packing.countProbe epoch; Packing.padInitial epoch pnLen; Packing.padPayload epoch)
          filled := by
    refine .bind ((Packing.countProbe_quiet epoch filled).mono fun _ => Packing.Quiet.plain)
      fun _ p _ => ?_
    refine .bind ((Packing.padInitial_quiet epoch pnLen p).mono fun _ => Packing.Quiet.plain)
      fun _ p _ => ?_
    exact (Packing.padPayload_quiet epoch p).mono fun _ => Packing.Quiet.plain
  have hseal :=
    (Packing.sealPacket_quiet epoch (c₁.headerLen epoch pnLen) pnLen
      (c₀.packetCap outLen) padded).ok
    built.sealing
  exact (hseal.plain.mem_iff id).trans ((hpad.ok built.pad).mem_iff id)

/-- In every call that ends, the list is exact if and only if the call is accountable. -/
theorem sendWithBlocks_decides (c : Connection) (outLen : ℕ) (env : SendEnv) (blocks : List Block) :
    (sendWithBlocks outLen env).Ends (c, some blocks)
      (fun written s => (∃ new, s.2 = some (blocks ++ new) ∧ ∃ epoch c₁ pkt,
        c.Sends outLen env epoch c₁ pkt written s.1 ∧ c₁.ListsBlocks pkt.frames new) ↔
          c.Accountable outLen env)
      fun e s => (∃ err, e = .error err) → (s.2 = some blocks ↔ c.Accountable outLen env) := by
  by_cases hbegins : c.derivedInitialSecrets = true ∧
    ∃ c₀ epoch pnLen c₁, c.Prepares outLen env c₀ epoch pnLen c₁
  swap
  · have hnot (hsecrets : c.derivedInitialSecrets = true) (c₀ : Connection) (epoch : Epoch)
      (pnLen : ℕ)
        (c₁ : Connection) : ¬ c.Prepares outLen env c₀ epoch pnLen c₁ :=
      fun h => hbegins ⟨hsecrets, c₀, epoch, pnLen, c₁, h⟩
    -- no packet is begun, and no block is listed
    refine (sendWithBlocks_stops hnot).mono (fun _ _ => False.elim) fun _ s hs _ =>
      iff_of_true hs ?_
    exact fun hsecrets c₀ epoch pnLen c₁ h => absurd h (hnot hsecrets c₀ epoch pnLen c₁)
  obtain ⟨hsecrets, c₀, epoch, pnLen, c₁, hprep⟩ := hbegins
  -- the packet is the only one that this call may put together
  have haccountable : c.Accountable outLen env ↔
      c₁.AccountablePacket epoch (c₁.frameRoom epoch pnLen (c₀.packetCap outLen) env)
        (c₀.packetCap outLen - c₁.packetOverhead epoch pnLen) env := by
    refine ⟨fun h => h hsecrets c₀ epoch pnLen c₁ hprep, fun h _ c₀' epoch' pnLen' c₁' hprep' => ?_⟩
    obtain ⟨rfl, rfl, rfl, rfl⟩ := hprep.unique hprep'
    exact h
  have hoverhead := hprep.overhead
  have hle := packetRoom_le c₁ epoch (c₀.packetCap outLen) env
  have hover : c₁.headerLen epoch pnLen + pnLen + tagLen ≤ c₀.packetCap outLen := by
    simp only [packetOverhead] at hoverhead
    omega
  have hroom : epoch = .application → c₁.frameRoom epoch pnLen (c₀.packetCap outLen) env ≤
      c₀.packetCap outLen - c₁.packetOverhead epoch pnLen := fun _ => Nat.sub_le_sub_right hle _
  have hpacket := Packing.packetWithBlocks_listed env blocks hover hroom
    (by rintro rfl; rfl) hprep.key
  have happly := hprep.sendWithBlocks_apply hsecrets (some blocks)
  rw [Program.Ends, happly]
  change Program.Ends (Program.zoom _ _ _) _ _ _
  rw [Program.ends_zoom]
  refine Program.ends_iff.mpr ⟨fun written s hs => ?_, fun e s hs herr => ?_⟩
  swap
  · rw [haccountable]
    exact hpacket.error hs herr
  -- the packet that is filled is the one that is sent
  obtain ⟨filled, new, hfill, hlist, hiff⟩ := hpacket.ok hs
  rw [haccountable, hiff]
  constructor
  · rintro ⟨new', hlist', epoch', c₁', pkt, hsends, hlists⟩
    obtain rfl : new = new' := by simpa using hlist.symm.trans hlist'
    obtain ⟨c₀', pnLen', filled', hprep', hfill', hframes⟩ := hsends.frames_iff
    obtain ⟨rfl, rfl, rfl, rfl⟩ := hprep.unique hprep'
    cases hfill.symm.trans hfill'
    exact (listsBlocks_congr hframes).mpr hlists
  · intro hlists
    have hok : c.Returns outLen env written s.1.conn := by
      refine .inr ⟨some blocks, s.2, happly.trans ?_⟩
      unfold Program.zoom
      dsimp only at hs ⊢
      rw [hs]
    obtain ⟨epoch', c₁', pkt, hsends⟩ := exists_sends hok.send
    obtain ⟨c₀', pnLen', filled', hprep', hfill', hframes⟩ := hsends.frames_iff
    obtain ⟨rfl, rfl, rfl, rfl⟩ := hprep.unique hprep'
    cases hfill.symm.trans hfill'
    exact ⟨new, hlist, epoch, c₁, pkt, hsends, (listsBlocks_congr hframes).mp hlists⟩

/-- Whenever `sendWithBlocks` returns, the list is exact if and only if each turn of the loop picks
another stream and writes a frame of it, and the packet can be finished. -/
theorem reportsBlocks_iff (c : Connection) (outLen : ℕ) (env : SendEnv) :
    c.ReportsBlocks outLen env ↔
    (((send outLen env).after c).isSome → c.Accountable outLen env) := by
  have hblocks (blocks : List Block) := Program.ends_iff_after
    (sendWithBlocks_decides c outLen env blocks)
  have hafter (blocks : List Block) := (sendWithBlocks_erases outLen env).after_isSome c
    (some blocks)
  simp only [hafter] at hblocks
  exact ⟨fun h => (hblocks []).mp (h []), fun h blocks => (hblocks blocks).mpr h⟩

end Calls

/-- The packet is padded beyond a small buffer, and the block that it carries is on the list of
the call that fails. -/
theorem not_reportsBlocks : ¬ ∀ (c : Connection) (outLen : ℕ) (env : SendEnv), c.Reachable →
    c.ReportsBlocks outLen env := by
  let env := Sample.redundantEnv 1
  have hrun : blockOfTwo.any (fun c =>
      (sendWithBlocks 500 env).failsWith (c, some []) fun _ s => decide (s.2 ≠ some [])) =
          true := by
    decide +kernel
  obtain ⟨c, hc, hfails⟩ := (Option.any_eq_true _ _).mp hrun
  obtain ⟨e, s, hsend, hlisted⟩ := Program.failsWith_iff.mp hfails
  intro hall
  have hreports := hall c 500 env ⟨_, _, _, _, _, hc⟩ []
  exact of_decide_eq_true hlisted (hreports.error hsend ⟨e, rfl⟩)

end Connection

end Dtp
