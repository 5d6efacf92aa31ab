import Dtp.ClearedEpochs

/-!
# What is checked before the parts of a call

`recv` opens packets only with keys, and reads in them only the frames that their type allows;
`send` seals packets only with keys. A part of a call finds these checks made, as long as TLS
does not take away the keys of the packet that it reads.

## Main definitions

* `HandshakeStep.Orderly` — what TLS does with the keys
* `Part.Checked` — what is checked before a part
* `Connection.RxPacket.Parsed` — the frames of a packet are allowed in it
* `Call.Handshakes` — a property of the steps that TLS takes in a call
* `Connection.KeptByParts` — checked parts keep an invariant

## Main results

* `Connection.KeptByParts.call` — what checked parts keep, calls keep
-/

namespace Dtp

open Lib (Program run AllSteps)

/-- TLS does not touch the Initial keys, gives the keys to open and to seal Handshake packets
together, and keeps them. From then on it does not write in the Initial epoch, and it writes
in the application epoch once the handshake is complete. -/
structure HandshakeStep.Orderly (hs : HandshakeStep) (c : Connection) : Prop where
  initial : hs.keys .initial =
    ((c.pktNumSpaces .initial).cryptoOpen, (c.pktNumSpaces .initial).cryptoSeal)
  together : (hs.keys .handshake).2 = (hs.keys .handshake).1
  keeps : (c.pktNumSpaces .handshake).cryptoOpen = true → (hs.keys .handshake).1 = true
  writes : (c.pktNumSpaces .handshake).cryptoOpen = true → ∀ w ∈ hs.writes, w.1 ≠ .initial
  level : (hs.keys .handshake).1 = true → hs.writeLevel ≠ .initial
  finished : hs.isEstablished = true →
    (hs.keys .handshake).1 = true ∧ hs.writeLevel = .application

instance (hs : HandshakeStep) (c : Connection) : Decidable (hs.Orderly c) :=
  decidable_of_iff
    (hs.keys .initial =
        ((c.pktNumSpaces .initial).cryptoOpen, (c.pktNumSpaces .initial).cryptoSeal) ∧
      (hs.keys .handshake).2 = (hs.keys .handshake).1 ∧
      ((c.pktNumSpaces .handshake).cryptoOpen = true → (hs.keys .handshake).1 = true) ∧
      ((c.pktNumSpaces .handshake).cryptoOpen = true → ∀ w ∈ hs.writes, w.1 ≠ .initial) ∧
      ((hs.keys .handshake).1 = true → hs.writeLevel ≠ .initial) ∧
      (hs.isEstablished = true → (hs.keys .handshake).1 = true ∧ hs.writeLevel = .application))
    ⟨fun ⟨initial, together, keeps, writes, level, finished⟩ =>
        ⟨initial, together, keeps, writes, level, finished⟩,
      fun h => ⟨h.initial, h.together, h.keeps, h.writes, h.level, h.finished⟩⟩

namespace Part

/-- What `recv` and `send` check before the part: packets are only opened with keys, and
HANDSHAKE_DONE is only accepted in 1-RTT packets, which are ignored until the handshake is
complete. Packets are only put together if there are keys to seal them. -/
def Checked (c : Connection) : Part → Prop
  | .frame .handshakeDone _ _ => c.isEstablished = true
  | .received pkt epoch => pkt.ty.toEpoch = some epoch ∧
    (epoch = .application ∨ (c.pktNumSpaces epoch).cryptoOpen = true)
  | .packet epoch _ _ _ _ _ => (c.pktNumSpaces epoch).cryptoSeal = true
  | _ => True

/-- TLS is orderly in the part, unless the handshake is complete. -/
def Orderly (c : Connection) : Part → Prop
  | .handshake hs => c.isEstablished = false → hs.Orderly c
  | .frame (.crypto _) _ env => c.isEstablished = false → env.handshake.Orderly c
  | _ => True

end Part

namespace Connection

section Keys

variable {c c' : Connection}

/-- What TLS writes is queued, before it says which keys there are. -/
structure Queued (c c' : Connection) : Prop where
  derivedInitialSecrets : c'.derivedInitialSecrets = c.derivedInitialSecrets
  isEstablished : c'.isEstablished = c.isEstablished
  writeLevel : c'.writeLevel = c.writeLevel
  recovery : c'.recovery = c.recovery
  cryptoOpen : ∀ e, (c'.pktNumSpaces e).cryptoOpen = (c.pktNumSpaces e).cryptoOpen
  cryptoSeal : ∀ e, (c'.pktNumSpaces e).cryptoSeal = (c.pktNumSpaces e).cryptoSeal
  initial : (c.pktNumSpaces .handshake).cryptoOpen = true →
    c'.pktNumSpaces .initial = c.pktNumSpaces .initial

private theorem writeCrypto_queued {w : Epoch × List UInt8}
    (hw : (c.pktNumSpaces .handshake).cryptoOpen = true → w.1 ≠ .initial) :
    Program.Maintains c.Queued (fun _ => c.Queued) (writeCrypto w.1 w.2) := by
  refine Program.maintains_get_bind fun c₁ h => ?_
  dsimp only
  split
  · rename_i send _
    rw [Program.ends_set]
    refine
      { h with cryptoOpen := fun e => ?_, cryptoSeal := fun e => ?_, initial := fun hopen => ?_ }
    · rcases eq_or_ne e w.1 with rfl | hne
      · rw [modifySpace_same]
        exact h.cryptoOpen _
      · rw [modifySpace_of_ne _ _ hne]
        exact h.cryptoOpen e
    · rcases eq_or_ne e w.1 with rfl | hne
      · rw [modifySpace_same]
        exact h.cryptoSeal _
      · rw [modifySpace_of_ne _ _ hne]
        exact h.cryptoSeal e
    · rw [modifySpace_of_ne _ _ (hw hopen).symm]
      exact h.initial hopen
  · exact h

theorem forM_writeCrypto_queued {writes : List (Epoch × List UInt8)}
    (hwrites : (c.pktNumSpaces .handshake).cryptoOpen = true → ∀ w ∈ writes, w.1 ≠ .initial) :
    Program.Maintains c.Queued (fun _ => c.Queued) (forM writes fun w => writeCrypto w.1 w.2) := by
  induction writes with
  | nil => exact Program.maintains_pure _
  | cons w writes ih =>
    rw [List.forM_cons]
    refine .bind (writeCrypto_queued fun hopen => hwrites hopen w List.mem_cons_self) fun _ => ?_
    exact ih fun hopen w' hw' => hwrites hopen w' (List.mem_cons_of_mem w hw')

/-- Whether TLS is orderly depends on the keys alone. -/
theorem Reads.orderly (h : c.Reads c') {hs : HandshakeStep} (horderly : hs.Orderly c) :
    hs.Orderly c' where
  initial := by
    rw [h.cryptoOpen, h.cryptoSeal]
    exact horderly.initial
  together := horderly.together
  keeps := by
    rw [h.cryptoOpen]
    exact horderly.keeps
  writes := by
    rw [h.cryptoOpen]
    exact horderly.writes
  level := horderly.level
  finished := horderly.finished

/-! ### Packets that are opened -/

/-- There are keys to open packets of the epoch, and packets with a short header are only opened
once the handshake is complete. -/
structure Admits (ty : PacketType) (epoch : Epoch) (c : Connection) : Prop where
  key : epoch = .application ∨ (c.pktNumSpaces epoch).cryptoOpen = true
  complete : ty = .short → c.isEstablished = true

variable {ty : PacketType} {epoch : Epoch}

theorem Admits.congr (h : Admits ty epoch c)
    (hopen : (c'.pktNumSpaces epoch).cryptoOpen = (c.pktNumSpaces epoch).cryptoOpen)
    (hest : c'.isEstablished = c.isEstablished) : Admits ty epoch c' where
  key := hopen ▸ h.key
  complete hshort := hest.trans (h.complete hshort)

/-- An orderly TLS keeps the keys of the packet that it reads. -/
theorem Admits.doHandshake {hs : HandshakeStep} (h : Admits ty epoch c)
    (horderly : c.isEstablished = false → hs.Orderly c) :
    (doHandshake hs).Ends c (fun _ => Admits ty epoch) fun _ _ => True := by
  rw [Connection.doHandshake, Program.ends_bind, Program.ends_get]
  refine Program.ends_ite.mpr ⟨fun _ => h, fun hopen => ?_⟩
  have hest : c.isEstablished = false := by simpa using hopen
  have horderly := horderly hest
  have hlong : ty ≠ .short := fun hshort => hopen (h.complete hshort)
  have hkey : epoch = .application ∨ (hs.keys epoch).1 = true := by
    cases epoch with
    | initial => exact .inr (by rw [horderly.initial]; exact h.key.resolve_left (by decide))
    | handshake => exact .inr (horderly.keeps (h.key.resolve_left (by decide)))
    | application => exact .inl rfl
  rw [Program.ends_bind]
  refine (forM_writeCrypto_queued horderly.writes c
    ⟨rfl, rfl, rfl, rfl, fun _ => rfl, fun _ => rfl, fun _ => rfl⟩).mono (fun _ c₁ _ => ?_)
      fun _ _ _ => trivial
  rw [Program.ends_bind, Program.ends_modify]
  have hkeys : Admits ty epoch
      { c₁ with
        isEstablished := hs.isEstablished
        writeLevel := hs.writeLevel
        pktNumSpaces := fun e =>
          { c₁.pktNumSpaces e with cryptoOpen := (hs.keys e).1, cryptoSeal := (hs.keys e).2 } } :=
    ⟨hkey, fun hshort => absurd hshort hlong⟩
  cases hs.outcome with
  | waiting => exact hkeys
  | failed e => trivial
  | noProtocol => trivial
  | finished peerParams =>
    dsimp only
    rw [Program.ends_bind, Program.ends_get]
    refine Program.ends_ite.mpr ⟨fun _ => hkeys, fun _ => ?_⟩
    rw [Program.ends_bind, Program.ends_ofExcept]
    exact ⟨fun _ _ => { hkeys with }, fun _ _ => trivial⟩

theorem Admits.processCrypto (h : Admits ty epoch c) (data : RangeBuf) {env : Env}
    (horderly : c.isEstablished = false → env.handshake.Orderly c) :
    (processCrypto data epoch env).Ends c (fun _ => Admits ty epoch) fun _ _ => True := by
  rw [Connection.processCrypto, Program.ends_bind, Program.ends_get]
  dsimp only
  split
  · trivial
  · rename_i recv _
    rw [Program.ends_bind, Program.ends_set, Program.ends_bind]
    have hreads := readCrypto_reads epoch (recv.len + recv.data.toList.length + 1) c _
      (c.reads_modifySpace epoch recv)
    refine hreads.mono (fun _ c₁ hc₁ => ?_) fun _ _ _ => trivial
    refine (h.congr (hc₁.cryptoOpen epoch) hc₁.isEstablished).doHandshake fun hest => ?_
    exact hc₁.orderly (horderly (hc₁.isEstablished.symm.trans hest))

/-- Before the application epoch, only TLS changes keys. -/
theorem Admits.processEarly (h : Admits ty epoch c) (hty : ty.toEpoch = some epoch)
    (hearly : epoch ≠ .application) {frame : Frame} (hallowed : frame.allowed ty = true)
    (hcrypto : ∀ data, frame ≠ .crypto data) (env : Env) :
    (processFrame frame epoch env).Ends c (fun _ => Admits ty epoch) fun _ _ => True := by
  have hlong : ty = .initial ∨ ty = .handshake := by
    cases ty <;> cases hty <;> first | exact absurd rfl hearly | simp
  cases frame with
  | crypto data => exact absurd rfl (hcrypto data)
  | padding | ping => exact h
  | connectionClose => exact h.congr rfl rfl
  | ack packetTime ackDelay ranges =>
    change (processAck packetTime ackDelay ranges epoch env).Ends c _ _
    rw [processAck, Program.ends_bind, Program.ends_get]
    refine Program.ends_ite.mpr ⟨fun _ => trivial, fun _ => ?_⟩
    split
    · trivial
    · exact Program.ends_ite.mpr ⟨fun hlate => absurd hlate.1 hearly, fun _ => h.congr rfl rfl⟩
  | _ => rcases hlong with rfl | rfl <;> cases hallowed

theorem Admits.processFrame (h : Admits ty epoch c) (hty : ty.toEpoch = some epoch) {frame : Frame}
    (hallowed : frame.allowed ty = true) {env : Env}
    (horderly : (Part.frame frame epoch env).Orderly c) :
    (processFrame frame epoch env).Ends c (fun _ => Admits ty epoch) fun _ _ => True := by
  by_cases hcrypto : ∃ data, frame = .crypto data
  · obtain ⟨data, rfl⟩ := hcrypto
    exact h.processCrypto data horderly
  have hcrypto (data : RangeBuf) : frame ≠ .crypto data := fun heq => hcrypto ⟨data, heq⟩
  by_cases hlate : epoch = .application
  · have hdone (hframe : frame = .handshakeDone) : c.isEstablished = true := by
      subst hframe
      exact h.complete (by cases ty <;> first | rfl | cases hallowed)
    refine (processFrame_fades hcrypto epoch env hdone c (.refl c)).mono (fun _ c₁ hc₁ => ?_)
      fun _ _ _ => trivial
    exact ⟨.inl hlate, fun hshort => hc₁.isEstablished.trans (h.complete hshort)⟩
  · exact h.processEarly hty hlate hallowed hcrypto env

theorem Admits.modifySpace (h : Admits ty epoch c) (e : Epoch) {f : PktNumSpace → PktNumSpace}
    (hf : ∀ s, (f s).cryptoOpen = s.cryptoOpen) : Admits ty epoch (c.modifySpace e f) := by
  refine h.congr ?_ rfl
  rcases eq_or_ne epoch e with rfl | hne
  · rw [modifySpace_same, hf]
  · rw [modifySpace_of_ne _ _ hne]

theorem Admits.takeAcked (h : Admits ty epoch c) (e : Epoch) : Admits ty epoch (c.takeAcked e) :=
  AckedParts.takeAcked
    { pop := fun _ _ h => h.congr rfl rfl
      ack := fun _ _ h => h.modifySpace e fun _ => rfl
      crypto := fun _ _ h => h.modifySpace e fun _ => rfl
      stream := fun _ _ _ _ _ _ _ h => h.congr rfl rfl } h

end Keys

/-! ### The checked parts of a call -/

/-- A packet as it is parsed: its frames are allowed in it, only a packet with a short header can
belong to a FEC group, and parsing does not fail with `Done`. -/
structure RxPacket.Parsed (pkt : RxPacket) : Prop where
  frames : ∀ f ∈ pkt.frames, f.1.allowed pkt.ty = true
  restored : pkt.ty ≠ .short → pkt.restored = [] ∧ pkt.restoredError = none
  error : pkt.framesError ≠ some .done ∧ pkt.restoredError ≠ some .done

/-- What `P` says of the step that TLS takes for a frame of an epoch. -/
def FrameHandshakes (P : Connection → Option Epoch → HandshakeStep → Prop) (epoch : Epoch)
    (c : Connection) (f : Frame × Env) : Prop :=
  ∀ data, f.1 = .crypto data → P c (some epoch) f.2.handshake

/-- The steps that TLS takes for a packet of the handshake have the property `P`. -/
def RxPacket.Handshakes (P : Connection → Option Epoch → HandshakeStep → Prop) (c : Connection)
    (pkt : RxPacket) : Prop :=
  ∀ epoch c', pkt.ty ≠ .short → pkt.ty.toEpoch = some epoch → acceptHeader pkt c = .ok () c' →
    AllSteps (fun c f => (processFrame f.1 epoch f.2).returned c) (FrameHandshakes P epoch) c'
      pkt.frames

/-- The steps that TLS takes for the packets of a datagram have the property `P`. -/
def Datagram.Handshakes (P : Connection → Option Epoch → HandshakeStep → Prop) (c : Connection)
    (d : Datagram) : Prop :=
  AllSteps (fun c pkt => (recvSingle pkt).returned c) (RxPacket.Handshakes P) c d.packets

end Connection

/-- The steps that TLS takes in a call have the property `P`. -/
def Call.Handshakes (P : Connection → Option Epoch → HandshakeStep → Prop) (c : Connection) :
    Call → Prop
  | .recv d => d.Handshakes P c
  | .send _ env => c.isClosing = false → P c none env.handshake
  | _ => True

/-- The packets that a call receives are as they are parsed. -/
def Call.Parsed : Call → Prop
  | .recv d => ∀ pkt ∈ d.packets, pkt.Parsed
  | _ => True

namespace Connection

/-- TLS is orderly, unless the handshake is complete. -/
def OrderlyTls (c : Connection) (_ : Option Epoch) (hs : HandshakeStep) : Prop :=
  c.isEstablished = false → hs.Orderly c

/-- The parts of a call other than the timer keep an invariant, as far as they are checked. -/
def KeptByParts (I : Connection → Prop) : Prop :=
  ∀ (c : Connection) (part : Part), I c → part.Checked c → part.Orderly c →
    part.isTimeout = false → part.program.Keeps (fun _ => I) c

section KeptByParts

variable {I : Connection → Prop}

instance : IsTrans Connection fun _ => I := ⟨fun _ _ _ _ h => h⟩

/-- What holds after a program that stops with an error. -/
abbrev orError (I : Connection → Prop) (e : Lib.Fault Error) (c : Connection) : Prop :=
  (∃ err, e = .error err) → I c

/-- The frames of a packet are allowed in it, so each finds its checks made. -/
theorem KeptByParts.frame (h : KeptByParts I) {ty : PacketType} {epoch : Epoch}
    (hty : ty.toEpoch = some epoch) {f : Frame × Env} (hallowed : f.1.allowed ty = true)
    {c : Connection} (hc : I c ∧ Admits ty epoch c)
    (horderly : (Part.frame f.1 epoch f.2).Orderly c) :
    (processFrame f.1 epoch f.2).Ends c (fun _ c => I c ∧ Admits ty epoch c) (orError I) := by
  have hchecked : (Part.frame f.1 epoch f.2).Checked c := by
    obtain ⟨frame, env⟩ := f
    cases frame with
    | handshakeDone => exact hc.2.complete (by cases ty <;> first | rfl | cases hallowed)
    | _ => trivial
  have hkept := h c (.frame f.1 epoch f.2) hc.1 hchecked horderly rfl
  exact (Program.Ends.and hkept (hc.2.processFrame hty hallowed horderly)).mono (fun _ _ h => h)
    fun _ _ h => h.1

/-- The frames of a packet of the handshake keep the invariant. -/
theorem KeptByParts.frames (h : KeptByParts I) {pkt : RxPacket} {epoch : Epoch}
    (hty : pkt.ty.toEpoch = some epoch) {frames : List (Frame × Env)}
    (hallowed : ∀ f ∈ frames, f.1.allowed pkt.ty = true) (error : Option Error) {c : Connection}
    (hc : I c ∧ Admits pkt.ty epoch c)
    (htls : AllSteps (fun c f => (processFrame f.1 epoch f.2).returned c)
      (FrameHandshakes OrderlyTls epoch) c frames) :
    (processFrames frames error epoch).Ends c (fun _ c => I c ∧ Admits pkt.ty epoch c)
      (orError I) := by
  have hloop :
    (forM frames fun f => processFrame f.1 epoch f.2 : Program Error Connection Unit).Ends
      c (fun _ c => I c ∧ Admits pkt.ty epoch c) (orError I) := by
    refine Program.Ends.forM_of_allSteps (fun f hf c hc hstep => ?_) hc htls
    refine h.frame hty (hallowed f hf) hc ?_
    obtain ⟨frame, env⟩ := f
    cases frame with
    | crypto data => exact hstep data rfl
    | _ => trivial
  refine hloop.bind fun _ c hc => ?_
  cases error with
  | none => exact hc
  | some e => exact fun _ => hc.1

/-- Packets with a short header are read when the handshake is complete. -/
theorem allSteps_orderly_of_established {epoch : Epoch} {frames : List (Frame × Env)}
    {c : Connection} (hest : c.isEstablished = true) :
    AllSteps (fun c f => (processFrame f.1 epoch f.2).returned c)
      (FrameHandshakes OrderlyTls epoch) c frames := by
  refine Lib.allSteps_of_invariant (I := fun c => c.isEstablished = true) ?_ ?_ hest
  · intro c f c' hest hstep
    exact (((processFrame_resting f.1 epoch f.2).keeps c).returned hstep).isEstablished hest
  · intro c f hest data _ hopen
    rw [hest] at hopen
    cases hopen

/-- What checked parts keep, a received packet keeps. -/
theorem KeptByParts.single (h : KeptByParts I) {pkt : RxPacket} (hparsed : pkt.Parsed)
    {c : Connection} (hc : I c) (htls : pkt.Handshakes OrderlyTls c) :
    (recvSingle pkt).Keeps (fun _ => I) c := by
  rw [recvSingle, Program.keeps_get_bind]
  refine .ite (fun _ => Program.keeps_fail.mpr hc) fun _ => ?_
  cases hty : pkt.ty.toEpoch with
  | none => exact Program.keeps_fail.mpr hc
  | some epoch =>
    refine .ite (fun _ => hc) fun hearly => ?_
    have hheader : (acceptHeader pkt).Keeps (fun _ => I) c :=
      h c (.header pkt) hc trivial trivial rfl
    refine .bind hheader fun _ c₁ haccept => ?_
    have hc₁ : I c₁ := hheader.ok haccept
    rw [Program.keeps_get_bind]
    refine .ite (fun _ => hc₁) fun hkey => .ite (fun _ => Program.keeps_fail.mpr hc₁) fun _ => ?_
    -- what the checks of the header have shown
    have hadmits : Admits pkt.ty epoch c₁ := by
      refine ⟨?_, fun hshort => ?_⟩
      · by_cases hzero : pkt.ty = .zeroRTT
        · rw [hzero] at hty
          exact .inl (Option.some.inj hty).symm
        · exact .inr (by simpa [hzero] using hkey)
      · have hest : c.isEstablished = true := by simpa [hshort] using hearly
        exact (((acceptHeader_resting pkt).keeps c).ok haccept).isEstablished hest
    have hsteps {frames : List (Frame × Env)} {c : Connection} (hc : Admits pkt.ty epoch c)
        (hlong : pkt.ty ≠ .short → frames = pkt.frames ∧ c = c₁) :
        AllSteps (fun c f => (processFrame f.1 epoch f.2).returned c)
          (FrameHandshakes OrderlyTls epoch) c frames := by
      by_cases hshort : pkt.ty = .short
      · exact allSteps_orderly_of_established (hc.complete hshort)
      · obtain ⟨rfl, rfl⟩ := hlong hshort
        exact htls epoch c hshort hty haccept
    -- only short packets complete a FEC group
    have hrestored : (processFrames pkt.restored pkt.restoredError epoch).Ends c₁
        (fun _ c => (I c ∧ Admits pkt.ty epoch c) ∧ (pkt.ty ≠ .short → c = c₁)) (orError I) := by
      by_cases hshort : pkt.ty = .short
      · have hallowed : ∀ f ∈ pkt.restored, f.1.allowed pkt.ty = true :=
          fun f _ => hshort ▸ f.1.allowed_short
        have hframes := h.frames hty hallowed pkt.restoredError ⟨hc₁, hadmits⟩
          (hsteps hadmits fun hlong => absurd hshort hlong)
        exact hframes.mono (fun _ _ hc => ⟨hc, fun hlong => absurd hshort hlong⟩) fun _ _ h => h
      · rw [(hparsed.restored hshort).1, (hparsed.restored hshort).2]
        exact ⟨⟨hc₁, hadmits⟩, fun _ => rfl⟩
    refine Program.Ends.bind hrestored fun _ c₂ hc₂ => ?_
    obtain ⟨hc₂, hsame⟩ := hc₂
    refine (h.frames hty hparsed.frames pkt.framesError hc₂ ?_).bind fun _ c₃ hc₃ => ?_
    · exact hsteps hc₂.2 fun hlong => ⟨rfl, hsame hlong⟩
    -- acknowledged frames are taken, one part each
    have hacked : (drainAcked epoch).Ends c₃ (fun _ c => I c ∧ Admits pkt.ty epoch c)
        (orError I) := by
      rw [drainAcked, Program.ends_bind, Program.ends_get]
      refine Program.Maintains.forM (fun _ => Program.maintains_modify fun c hc =>
        ⟨?_, ?_⟩) _ c₃ hc₃
      · exact Program.keeps_modify.mp (h c (.acked epoch) hc.1 trivial trivial rfl)
      · exact hc.2.takeAcked epoch
    refine hacked.bind fun _ c₄ hc₄ => ?_
    have hchecked : (Part.received pkt epoch).Checked c₄ := ⟨hty, hc₄.2.key⟩
    exact h c₄ (.received pkt epoch) hc₄.1 hchecked trivial rfl

/-- What checked parts keep, the packets of a datagram keep. -/
theorem KeptByParts.packets (h : KeptByParts I) {d : Datagram}
    (hparsed : ∀ pkt ∈ d.packets, pkt.Parsed)
    {c : Connection} (hc : I c) (htls : d.Handshakes OrderlyTls c) :
    (do
      forM d.packets recvSingle
      match d.error with
      | none => pure ()
      | some e => Program.fail e : Program Error Connection Unit).Keeps (fun _ => I) c := by
  have hloop : (forM d.packets recvSingle : Program Error Connection Unit).Ends c
      (fun _ => I) (orError I) :=
    Program.Ends.forM_of_allSteps (fun pkt hpkt c hc hstep =>
      h.single (hparsed pkt hpkt) hc hstep)
      hc htls
  refine Program.Keeps.bind hloop fun _ c' hc' => ?_
  cases d.error with
  | none => exact hloop.ok hc'
  | some e => exact Program.keeps_fail.mpr (hloop.ok hc')

/-- What checked parts keep, a datagram keeps. -/
theorem KeptByParts.recv (h : KeptByParts I) {d : Datagram}
    (hparsed : ∀ pkt ∈ d.packets, pkt.Parsed)
    {c : Connection} (hc : I c) (htls : d.Handshakes OrderlyTls c) :
    (recv d).Keeps (fun _ => I) c := by
  have hclose (c c' : Connection) (app : Bool) (err : ℕ) (reason : List UInt8)
      (hok : c.close app err reason = .ok c') (hc : I c) : I c' := by
    have hkept := h c (.close app err reason) hc trivial trivial rfl
    refine Program.keeps_iff_after.mp hkept c' ?_
    change Program.after (get >>= fun c => Program.ofExcept (c.close app err reason) >>= set) c =
      some c'
    simp only [Program.after, Program.bind_apply, Program.get_apply, hok]
    rfl
  have hkept := keeps_closeOnError (R := fun c c' => I c → I c') hclose
    ((h.packets hparsed hc htls).mono fun _ hc' _ => hc')
  refine Program.Keeps.bind (R := fun _ => I) (hkept.mono fun _ h => h hc) fun _ c' hc' => ?_
  exact h c' (.credit d.len) (hkept.ok hc' hc) trivial trivial rfl

/-- What checked parts keep, `send` keeps. -/
theorem KeptByParts.send (h : KeptByParts I) {outLen : ℕ} {env : SendEnv} {c : Connection}
    (hc : I c) (htls : c.isClosing = false → OrderlyTls c none env.handshake) :
    (send outLen env).Keeps (fun _ => I) c := by
  have hfail {α : Type} {e : Error} {c : Connection} (hc : I c) :
      (Program.fail e : Program Error Connection α).Keeps (fun _ => I) c :=
    Program.keeps_fail.mpr hc
  rw [Connection.send, Program.keeps_get_bind]
  refine .ite (fun _ => hfail hc) fun _ => .ite (fun _ => hfail hc) fun _ =>
    .ite (fun _ => hfail hc) fun _ => ?_
  have hhandshake : (Program.when (!c.isClosing) (Connection.doHandshake env.handshake)).Keeps
      (fun _ => I) c := by
    refine Program.Keeps.ite (fun hopen => ?_) fun _ => hc
    exact h c (.handshake env.handshake) hc trivial (htls (by simpa using hopen)) rfl
  refine .bind hhandshake fun _ c₀ hc₀ => ?_
  have hc₀ : I c₀ := hhandshake.ok hc₀
  rw [Program.keeps_get_bind]
  cases c₀.writeEpoch with
  | error e => exact hfail hc₀
  | ok epoch =>
    have hdrain : (Connection.drainLost epoch).Keeps (fun c c' => I c → I c') c₀ := by
      refine drainLost_keeps (fun c => ?_) (fun c hc => ?_) c₀
      · exact .of_imp fun hc => (h c (.lost epoch) hc trivial trivial rfl).mono fun _ hc' _ => hc'
      · exact Program.keeps_modify.mp (h c (.clearLost epoch) hc trivial trivial rfl)
    change (do
      Connection.drainLost epoch
      _ : Program Error Connection ℕ).Keeps (fun _ => I) c₀
    refine .bind (hdrain.mono fun _ h => h hc₀) fun _ c₁ hc₁ => ?_
    have hc₁ : I c₁ := hdrain.ok hc₁ hc₀
    rw [Program.keeps_get_bind]
    cases pktNumLen (c₁.pktNumSpaces epoch).nextPktNum with
    | none => exact hfail hc₁
    | some pnLen =>
      refine .ite (fun _ => hfail hc₁) fun hkey => .ite (fun _ => hfail hc₁) fun _ =>
        .ite (fun _ => hfail hc₁) fun _ => ?_
      refine .of_discard (h c₁ (.packet epoch _ _ pnLen _ env) hc₁ ?_ trivial rfl)
      exact (by simpa using hkey : (c₁.pktNumSpaces epoch).cryptoSeal = true)

/-- What checked parts and the timer keep, calls keep. -/
theorem KeptByParts.call (h : KeptByParts I) {c c' : Connection} {call : Call} (hc : I c)
    (hparsed : call.Parsed) (htls : call.Handshakes OrderlyTls c)
    (htimeout : ∀ env, call = .onTimeout env → I (c.onTimeout env))
    (hstep : Call.step c call = some c') : I c' := by
  suffices hcall : call.program.Keeps (fun _ => I) c from
    Program.keeps_iff_after.mp hcall c' hstep
  cases call with
  | streamSend streamId data fin deadline priority now =>
    exact h c (.write streamId data fin deadline priority now) hc trivial trivial rfl
  | streamRecv streamId cap => exact h c (.read streamId cap) hc trivial trivial rfl
  | streamShutdown streamId direction =>
    exact h c (.shutdown streamId direction) hc trivial trivial rfl
  | recv d => exact h.recv hparsed hc htls
  | send outLen env => exact (h.send hc htls).discard
  | onTimeout env => exact Program.keeps_modify.mpr (htimeout env rfl)
  | setTail tailSize => exact h c (.setTail tailSize) hc trivial trivial rfl
  | close app err reason => exact h c (.close app err reason) hc trivial trivial rfl

end KeptByParts

end Connection

end Dtp
