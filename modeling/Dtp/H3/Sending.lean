import Dtp.Written
import Dtp.H3.Connection
import Dtp.H3.FrameOrder

/-!
# Sending is all or nothing

A request, a response or a chunk of a body is written as frames. Each part of a frame is written
on its own, and the transport may store a part of it only. Headers are written without a look at
what was stored, and a stream that was shut down pretends to store everything.

## Main definitions

* `H3.WireFrame` — a frame, as it is written
* `Connection.target` — the buffer that a write goes to
* `H3.Session.Sent` — what a buffer has received so far
* `H3.SendCall.AllOrNothing` — either whole frames are written, or nothing changes
* `H3.SendCall.Accepted` — all of it is stored, or it is refused before anything changes

## Main results

* `H3.WireFrame.prefix_of_bytes` — frames are read back from their bytes
* `H3.Session.sendHeaders_ends` — what a stream receives when headers are sent
* `H3.SendCall.allOrNothing_iff` — when sending is all or nothing
-/

namespace Dtp

open Lib (Program)

/-! ### Where a write goes to -/

namespace Connection

/-- The send buffer of a stream. -/
def sendBuf (c : Connection) (id : ℕ) : Option SendBuf := (c.streams.streams id).map Stream.send

/-- The send buffer that a write goes to, if the stream exists or can be opened. -/
def target (c : Connection) (id deadline now : ℕ) : Option SendBuf :=
  if c.sendsOnly id false then none
  else
    match c.getOrCreateStream id true deadline defaultPriority now with
    | .ok (s, _) => some s.send
    | .error _ => none

variable {c : Connection} {id deadline now : ℕ} {buf : SendBuf}

/-- Data goes to a stream that may be sent on, and is there or is opened. -/
theorem target_eq_some (h : c.target id deadline now = some buf) : c.sendsOnly id false = false ∧
    ∃ s m, c.getOrCreateStream id true deadline defaultPriority now = .ok (s, m) ∧
        s.send = buf := by
  unfold target at h
  split_ifs at h with hdirection
  refine ⟨by simpa using hdirection, ?_⟩
  split at h
  · exact ⟨_, _, ‹_›, Option.some.inj h⟩
  · cases h

/-- Data goes to a stream that is there. -/
theorem target_of_live {s : Stream} (hdirection : c.sendsOnly id false = false)
    (live : c.streams.streams id = some s) :
    c.target id deadline now = some s.send := by
  unfold target getOrCreateStream StreamMap.getOrCreate
  rw [hdirection, live]
  rfl

/-- The buffer of the stream, or a new one. -/
theorem target_origin (h : c.target id deadline now = some buf) : c.sendBuf id = some buf ∨
    c.sendBuf id = none ∧ ∃ maxData deadline priority now,
        buf = .newFull maxData deadline priority now := by
  obtain ⟨-, s, m, hopen, rfl⟩ := target_eq_some h
  unfold sendBuf
  cases (getOrCreateStream_spec hopen).1 with
  | live live => exact .inl (by rw [live]; rfl)
  | fresh none _ _ hsend => exact .inr ⟨by rw [none]; rfl, hsend⟩

private theorem streamSendFull_of_none (h : c.target id deadline now = none) (data : List UInt8)
    (fin : Bool) :
    ∃ e, streamSendFull id data fin deadline defaultPriority now c = .error (.error e) c := by
  unfold target at h
  rw [streamSendFull, Program.bind_apply, Program.get_apply]
  dsimp only
  split_ifs at h ⊢ with hdirection
  · exact ⟨_, rfl⟩
  · cases hopen : c.getOrCreateStream id true deadline defaultPriority now with
    | ok sm =>
      rw [hopen] at h
      cases h
    | error e => exact ⟨e, rfl⟩

/-- The write goes to the target, and so do the writes after it. -/
theorem streamSendFull_of_some (h : c.target id deadline now = some buf) (data : List UInt8)
    (fin : Bool) :
    (streamSendFull id data fin deadline defaultPriority now).Ends c
      (fun n c' => ∃ buf', SendBuf.pushSlice data fin buf = .ok n buf' ∧ c'.sendBuf id = some buf' ∧
        ∀ deadline now, c'.target id deadline now = some buf')
      fun e c' => ∃ buf', SendBuf.pushSlice data fin buf = .error e buf' ∧
          c'.sendBuf id = some buf' := by
  obtain ⟨hdirection, s, m, hopen, rfl⟩ := target_eq_some h
  rw [streamSendFull, Program.ends_bind, Program.ends_get, hdirection,
    if_neg Bool.false_ne_true, hopen,
    Program.ofExcept_ok, pure_bind, Program.ends_bind, Program.ends_set]
  cases hpush : SendBuf.pushSlice data fin s.send with
  | error e send =>
    rw [Program.ends_bind, Program.ends_set, Program.ends_throw]
    refine ⟨send, rfl, ?_⟩
    unfold sendBuf
    change Option.map Stream.send ((m.put id { s with send := send }).streams id) = _
    rw [StreamMap.put_streams_self]
    rfl
  | ok sent send =>
    dsimp only
    rw [Program.ends_bind, Program.ends_set, Program.ends_pure]
    -- the queues do not matter
    have hlive (m' : StreamMap) (hm' : m'.streams = (m.put id { s with send := send }).streams) :
        m'.streams id = some { s with send := send } := by
      rw [hm', StreamMap.put_streams_self]
    refine ⟨send, rfl, ?_, fun deadline now => ?_⟩
    · unfold sendBuf
      rw [setStreams, hlive _ (by split_ifs <;> rfl)]
      rfl
    · refine target_of_live (s := { s with send := send }) hdirection ?_
      exact hlive _ (by split_ifs <;> rfl)

end Connection

end Dtp

namespace Dtp.H3

open Lib (Program)
open Lib.Cursor (Reads)

/-! ### Frames on the wire -/

/-- A frame: its type and its payload. -/
structure WireFrame where
  ty : ℕ
  payload : List UInt8
  ty_lt : ty < 2 ^ 62
  len_lt : payload.length < 2 ^ 62

namespace WireFrame

/-- The frame as it is written. -/
def bytes (f : WireFrame) : List UInt8 := varintBytes f.ty ++
    (varintBytes f.payload.length ++ f.payload)

/-- What two readers make of the same bytes is the same. -/
private theorem varint_unique {v v' : ℕ} (hv : v < 2 ^ 62) (hv' : v' < 2 ^ 62)
    {rest rest' : List UInt8}
    (h : varintBytes v ++ rest = varintBytes v' ++ rest') : v = v' ∧ rest = rest' := by
  have hread := Octets.getVarint_reads rest hv []
  rw [h, Octets.getVarint_reads rest' hv' []] at hread
  cases hread
  exact ⟨rfl, rfl⟩

/-- A frame is told apart from others by its first bytes. -/
theorem bytes_append_inj {f g : WireFrame} {rest rest' : List UInt8}
    (h : f.bytes ++ rest = g.bytes ++ rest') :
    f = g ∧ rest = rest' := by
  obtain ⟨ty, payload, hty, hlen⟩ := f
  obtain ⟨ty', payload', hty', hlen'⟩ := g
  simp only [bytes, List.append_assoc] at h
  obtain ⟨rfl, hbehind⟩ := varint_unique hty hty' h
  obtain ⟨hlength, hpayload⟩ := varint_unique hlen hlen' hbehind
  obtain ⟨rfl, rfl⟩ := List.append_inj hpayload hlength
  exact ⟨rfl, rfl⟩

/-- Every frame has a byte. -/
theorem bytes_ne_nil (f : WireFrame) : f.bytes ≠ [] := by
  obtain ⟨b, bytes, hbytes, -⟩ := varintBytes_first f.ty_lt
  rw [WireFrame.bytes, hbytes]
  exact List.cons_ne_nil _ _

/-- Whole frames at the start of some frames are the first ones of them. -/
theorem prefix_of_bytes {fs gs : List WireFrame} (h : fs.flatMap bytes <+: gs.flatMap bytes) :
    fs <+: gs := by
  induction fs generalizing gs with
  | nil => exact List.nil_prefix
  | cons f fs ih =>
    obtain ⟨rest, hrest⟩ := h
    cases gs with
    | nil =>
      have hnil := List.append_eq_nil_iff.mp (List.append_eq_nil_iff.mp hrest).1
      exact absurd hnil.1 f.bytes_ne_nil
    | cons g gs =>
      rw [List.flatMap_cons, List.flatMap_cons, List.append_assoc] at hrest
      obtain ⟨rfl, htail⟩ := bytes_append_inj hrest
      exact List.cons_prefix_cons.mpr ⟨rfl, ih ⟨rest, htail⟩⟩

end WireFrame

/-! ### The parts of a frame -/

namespace Session

variable {s : Session} {buf₀ : SendBuf} {id deadline now : ℕ} {bytes : List UInt8} {env : Env}

/-- The bytes were written to the stream, and as much as there was room for was stored. The next
write has the given deadline. -/
def Sent (buf₀ : SendBuf) (id now : ℕ) (bytes : List UInt8) (deadline : ℕ) (c : Dtp.Connection) :
    Prop :=
  ∃ buf, c.target id deadline now = some buf ∧ buf.finOff = none ∧ buf.isShutdown = false ∧
    buf₀.Receives (bytes.take buf₀.cap) false buf

/-- The buffer before the first write. -/
theorem sent_start {c : Dtp.Connection} {buf : SendBuf} (h : c.target id deadline now = some buf)
    (hopen : buf.finOff = none) (hshut : buf.isShutdown = false) : Sent buf id now [] deadline c :=
  ⟨buf, h, hopen, hshut, by simpa using SendBuf.Receives.refl buf⟩

private theorem cap_left {buf : SendBuf} (h : buf₀.Receives (bytes.take buf₀.cap) false buf) :
    buf.cap = buf₀.cap - bytes.length := by
  have hoff := h.off
  rw [List.length_take] at hoff
  have hmax := h.rest.maxData
  unfold SendBuf.cap at *
  omega

/-- A write appends to what was sent, and fills up the room at most. -/
theorem Sent.write (h : Sent buf₀ id env.now bytes deadline s.conn) (data : List UInt8)
    (fin : Bool) :
    ∃ n s', streamSendFull id data fin deadline env s = .ok n s' ∧ s'.http3 = s.http3 ∧
      n = min (buf₀.cap - bytes.length) data.length ∧
      (∃ buf', s'.conn.sendBuf id = some buf' ∧ buf₀.Receives ((bytes ++ data).take buf₀.cap)
        (fin && decide (data.length ≤ buf₀.cap - bytes.length)) buf') ∧
      (fin = false → ∀ deadline, Sent buf₀ id env.now (bytes ++ data) deadline s'.conn) := by
  obtain ⟨buf, htarget, hopen, hshut, hreceived⟩ := h
  have hcap := cap_left hreceived
  have hwrite := Dtp.Connection.streamSendFull_of_some htarget data fin
  have hpush := SendBuf.pushSlice_receives data fin hopen hshut
  unfold streamSendFull
  rw [transport_apply]
  cases heq : Dtp.Connection.streamSendFull id data fin deadline defaultPriority env.now s.conn with
  | error e c' =>
    obtain ⟨buf', hbuf', -⟩ := hwrite.error heq
    exact (hpush.error hbuf').elim
  | ok n c' =>
    obtain ⟨buf', hbuf', hsend, htarget'⟩ := hwrite.ok heq
    obtain ⟨hn, hmore⟩ := hpush.ok hbuf'
    rw [hcap] at hn hmore
    have hall := hreceived.trans hmore
    have htake : bytes.take buf₀.cap ++ data.take
        (buf₀.cap - bytes.length) = (bytes ++ data).take buf₀.cap :=
      (List.take_append ..).symm
    rw [htake] at hall
    refine ⟨n, _, rfl, rfl, hn, ⟨buf', hsend, hall⟩, ?_⟩
    rintro rfl deadline'
    rw [Bool.false_and] at hall
    exact ⟨buf', htarget' deadline' env.now, hall.finOff.trans (hreceived.finOff.symm.trans hopen),
      hmore.rest.isShutdown.trans hshut, hall⟩

/-! ### Sending headers -/

/-- Reserved values are numbers of variable length, and none of them is a known type. -/
theorem greaseValue_bounds (n : GreaseSeed) : 33 ≤ greaseValue n ∧ greaseValue n < 2 ^ 62 := by
  have hn := n.2
  unfold greaseValue
  omega

/-- The payload of the second reserved frame. -/
def greasePayload : List UInt8 := utf8 "GREASE is the word"

/-- The length of the reserved payload. -/
theorem greasePayload_length : greasePayload.length = 18 := by decide +kernel

/-- The reserved frames that are sent on the first stream. -/
def reserved (env : Env) : List WireFrame :=
  [⟨greaseValue env.greaseSeeds.1, [], (greaseValue_bounds _).2, by decide⟩,
    ⟨greaseValue env.greaseSeeds.2, greasePayload,
      (greaseValue_bounds _).2, by rw [greasePayload_length]; decide⟩]

private theorem reserved_unknown {f : WireFrame} (hf : f ∈ reserved env) :
    knownType f.ty = false := by
  have hlarge : 33 ≤ f.ty := by
    rcases List.mem_cons.mp hf with rfl | hf
    · exact (greaseValue_bounds _).1
    · obtain rfl := List.mem_singleton.mp hf
      exact (greaseValue_bounds _).1
  simp only [knownType, dataFrameTypeId, headersFrameTypeId, cancelPushFrameTypeId,
    settingsFrameTypeId,
    pushPromiseFrameTypeId, goawayFrameTypeId, maxPushFrameTypeId, duplicatePushFrameTypeId,
      Bool.or_eq_false_iff,
    beq_eq_false_iff_ne]
  omega

/-- The frames before the first headers. -/
def lead (s : Session) (env : Env) : List WireFrame :=
  if !s.http3.framesGreased && env.grease then reserved env else []

/-- What is sent before the headers is unknown to the peer. -/
theorem lead_unknown {f : WireFrame} (hf : f ∈ s.lead env) : knownType f.ty = false := by
  unfold lead at hf
  split_ifs at hf
  · exact reserved_unknown hf
  · cases hf

/-- The deadline of the first write. -/
def firstDeadline (s : Session) (env : Env) (deadline : ℕ) : ℕ :=
  if !s.http3.framesGreased && env.grease then maxDeadline else deadline

/-- The header block for some headers, if it does not need more room than is expected. -/
def headerBlock (headers : List Header) : Option (List UInt8) :=
  let headersLen := (headers.map fun h => (utf8 h.value).length + (utf8 h.name).length + 32).sum
  match Qpack.encode headers ⟨[], List.replicate headersLen 0⟩ with
  | .ok len b => some ((b.before ++ b.after).take len)
  | .error _ _ => none

/-- Headers that can be encoded are. -/
theorem encodeHeaderBlock_of_some {headers : List Header} {block : List UInt8}
    (h : headerBlock headers = some block) :
    encodeHeaderBlock headers = pure block := by
  unfold headerBlock at h
  unfold encodeHeaderBlock
  dsimp only at h ⊢
  split at h
  · cases h
    rename_i heq
    rw [heq]
  · cases h

private theorem encodeHeaderBlock_of_none {headers : List Header} {toLowercase : String → String}
    (hlowered : ∀ h ∈ headers, toLowercase h.name = h.name) (h : headerBlock headers = none) :
    encodeHeaderBlock headers = Program.fail .internalError := by
  obtain ⟨output, -, hwrites, hfails, -⟩ := Qpack.exists_block hlowered
  unfold headerBlock at h
  unfold encodeHeaderBlock
  dsimp only at h ⊢
  generalize (headers.map fun h => (utf8 h.value).length + (utf8 h.name).length + 32).sum =
    headersLen at h ⊢
  by_cases hroom : output.length ≤ headersLen
  · rw [hwrites _ (by simpa using hroom)] at h
    cases h
  · obtain ⟨b, hb⟩ := hfails (List.replicate headersLen 0) (by simpa using hroom)
    rw [hb]

/-- The header block is what the headers are read back from. -/
theorem headerBlock_decodes {headers : List Header} {toLowercase : String → String}
    {block : List UInt8}
    (hlowered : ∀ h ∈ headers, toLowercase h.name = h.name) (h : headerBlock headers = some block) :
    block ≠ [] ∧ (block.length < 2 ^ 62 → ∀ maxSize, (headers.map Header.size).sum ≤ maxSize →
      ∃ b, Qpack.decode toLowercase maxSize ⟨[], block⟩ = .ok headers b) := by
  obtain ⟨output, hne, hwrites, hfails, hdecode⟩ := Qpack.exists_block hlowered
  unfold headerBlock at h
  dsimp only at h
  generalize (headers.map fun h => (utf8 h.value).length + (utf8 h.name).length + 32).sum =
    headersLen at h
  by_cases hroom : output.length ≤ headersLen
  · rw [hwrites _ (by simpa using hroom)] at h
    dsimp only at h
    rw [List.take_left] at h
    obtain rfl := Option.some.inj h
    refine ⟨hne, fun hlen maxSize hsize => ?_⟩
    have hmax : output.length ≤ maxSlice := by
      unfold maxSlice
      omega
    exact (hdecode hmax maxSize).1 hsize
  · obtain ⟨b, hb⟩ := hfails (List.replicate headersLen 0) (by simpa using hroom)
    rw [hb] at h
    cases h

/-- What each write to a stream does: `I bytes deadline` holds of the state when `bytes` were
written so far and the next write has this deadline. -/
def Writable (id : ℕ) (env : Env) (I : List UInt8 → ℕ → Dtp.Connection → Prop) : Prop :=
  ∀ bytes deadline data (s : Session), I bytes deadline s.conn → data ≠ [] → ∃ n s',
    streamSendFull id data false deadline env s = .ok n s' ∧ s'.http3 = s.http3 ∧
      ∀ deadline', I (bytes ++ data) deadline' s'.conn

section Writable

variable {I : List UInt8 → ℕ → Dtp.Connection → Prop} {α : Type}
    {f : PUnit → Program Error Session α}
  {Q : α → Session → Prop} {E : Lib.Fault Error → Session → Prop}

/-- A write, and what comes after it. -/
theorem Writable.bind (hI : Writable id env I) (h : I bytes deadline s.conn) {data : List UInt8}
    (hdata : data ≠ [])
    (hf : ∀ s', s'.http3 = s.http3 → (∀ deadline', I (bytes ++ data) deadline' s'.conn) →
      (f ⟨⟩).Ends s' Q E) :
    (discard (streamSendFull id data false deadline env) >>= f).Ends s Q E := by
  obtain ⟨n, s', heq, hhttp3, hnext⟩ := hI bytes deadline data s h hdata
  have hwritten := hf s' hhttp3 hnext
  unfold Program.Ends at hwritten ⊢
  rw [Program.bind_apply, Program.discard_apply, heq]
  exact hwritten

private theorem sendGreaseFrames_ends (hI : Writable id env I) (h : I bytes maxDeadline s.conn) :
    (sendGreaseFrames id env).Ends s (fun _ s' => s'.http3 = s.http3 ∧
      ∀ deadline, I (bytes ++ (reserved env).flatMap WireFrame.bytes) deadline s'.conn) fun _ _ =>
          False := by
  have hlt := greaseValue_bounds env.greaseSeeds.1
  have hlt' := greaseValue_bounds env.greaseSeeds.2
  have hlen := varintLen_le (greaseValue env.greaseSeeds.1)
  have hlen' := varintLen_le (greaseValue env.greaseSeeds.2)
  have hlenEmpty := varintLen_le 0
  have hlenPayload := varintLen_le 18
  unfold sendGreaseFrames streamSend
  dsimp only
  rw [ends_putVarint_bind hlt.2 (by simp only [List.length_replicate]; omega)]
  dsimp only
  -- type and length of the empty frame, then type, length and payload of the other one
  apply hI.bind h (varintBytes_ne_nil _)
  intro s₁ h₁ hI₁
  rw [ends_putVarint_bind (by decide)
    (by simp only [List.length_drop, List.length_replicate]; omega)]
  dsimp only
  apply hI.bind (hI₁ _) (varintBytes_ne_nil _)
  intro s₂ h₂ hI₂
  rw [ends_putVarint_bind hlt'.2 (by simp only [List.length_drop, List.length_replicate]; omega)]
  dsimp only
  apply hI.bind (hI₂ _) (varintBytes_ne_nil _)
  intro s₃ h₃ hI₃
  rw [ends_putVarint_bind (by decide)
    (by simp only [List.length_drop, List.length_replicate]; omega)]
  dsimp only
  apply hI.bind (hI₃ _) (varintBytes_ne_nil _)
  intro s₄ h₄ hI₄
  obtain ⟨n, s₅, heq, h₅, hI₅⟩ := hI _ maxDeadline greasePayload s₄ (hI₄ _) (by decide +kernel)
  have hall : bytes ++ varintBytes (greaseValue env.greaseSeeds.1) ++ varintBytes 0 ++
      varintBytes (greaseValue env.greaseSeeds.2) ++ varintBytes 18 ++ greasePayload =
      bytes ++ (reserved env).flatMap WireFrame.bytes := by
    simp [reserved, WireFrame.bytes, greasePayload_length]
  rw [hall] at hI₅
  unfold greasePayload at heq
  unfold Program.Ends
  rw [Program.discard_apply, heq]
  exact ⟨h₅.trans (h₄.trans (h₃.trans (h₂.trans h₁))), hI₅⟩

/-- Headers are written in three parts behind the reserved frames. There is no encoding for a larger
length. -/
theorem sendHeaders_ends (hI : Writable id env I) (h : I [] (s.firstDeadline env deadline) s.conn)
    {headers : List Header}
    {block : List UInt8} (hblock : headerBlock headers = some block) (fin : Bool)
    {P : Dtp.Connection → Prop}
    (hlast : block.length < 2 ^ 62 → ∀ s' : Session, I ((s.lead env).flatMap WireFrame.bytes ++
      varintBytes headersFrameTypeId ++ varintBytes block.length) deadline s'.conn →
        ∃ n s'', streamSendFull id block fin deadline env s' = .ok n s'' ∧ P s''.conn) :
    (sendHeaders id headers fin deadline env).Ends s (fun _ s' => block.length < 2 ^ 62 ∧ P s'.conn)
      fun e _ => ¬ block.length < 2 ^ 62 ∧ e = .panic := by
  have hlenType : varintLen headersFrameTypeId = 1 := by decide
  have hlenBlock := varintLen_le block.length
  -- the reserved frames come first, if they were not sent before
  have hlead : (Program.when (!s.http3.framesGreased && env.grease) do
      sendGreaseFrames id env
      modify fun s => { s with http3 := { s.http3 with framesGreased := true } }).Ends s
        (fun _ s' => I ((s.lead env).flatMap WireFrame.bytes) deadline s'.conn) fun _ _ =>
            False := by
    rw [Program.ends_when]
    refine ⟨fun hgrease => ?_, fun hgrease => ?_⟩
    · have hframes : s.lead env = reserved env := if_pos hgrease
      have hdeadline : s.firstDeadline env deadline = maxDeadline := if_pos hgrease
      rw [hdeadline] at h
      rw [hframes, Program.ends_bind]
      apply (sendGreaseFrames_ends hI h).mono
      · intro _ s' h'
        exact h'.2 deadline
      · exact fun _ _ => False.elim
    · have hframes : s.lead env = [] := if_neg hgrease
      have hdeadline : s.firstDeadline env deadline = deadline := if_neg hgrease
      rw [hdeadline] at h
      rwa [hframes]
  unfold sendHeaders
  dsimp only
  rw [encodeHeaderBlock_of_some hblock, pure_bind, Program.ends_bind, Program.ends_get,
    Program.ends_bind]
  apply hlead.mono
  · intro _ s₁ h₁
    rw [ends_putVarint_bind (by decide) (by simp only [List.length_replicate]; omega)]
    dsimp only
    apply hI.bind h₁ (varintBytes_ne_nil _)
    intro s₂ _ h₂
    -- then the type, the length and the block
    by_cases hlen : block.length < 2 ^ 62
    · rw [ends_putVarint_bind hlen (by simp only [List.length_drop, List.length_replicate]; omega)]
      dsimp only
      apply hI.bind (h₂ _) (varintBytes_ne_nil _)
      intro s₃ _ h₃
      obtain ⟨n, s₄, heq, hP⟩ := hlast hlen s₃ (h₃ _)
      unfold Program.Ends
      rw [Program.bind_apply, Program.discard_apply, heq]
      dsimp only [Program.modify_apply]
      refine ⟨hlen, ?_⟩
      split_ifs
      · exact hP
      · exact hP
    · have hcrash (b : Octets) : (putVarint block.length b : Program Error Session _) =
          Program.crash := by
        unfold putVarint Octets.putVarint
        rw [if_neg hlen]
        rfl
      rw [hcrash, Program.ends_bind, Program.ends_crash]
      exact ⟨hlen, rfl⟩
  · exact fun _ _ => False.elim

end Writable

/-- A write that fails at once leaves everything as it is. -/
theorem sendHeaders_fails {headers : List Header} {block : List UInt8}
    (hblock : headerBlock headers = some block)
    (fin : Bool) (hfirst : ∀ data, data ≠ [] → ∃ e s', s'.http3 = s.http3 ∧
      s'.conn.sendBuf id = s.conn.sendBuf id ∧
      streamSendFull id data false (s.firstDeadline env deadline) env s = .error (.error e) s') :
    (sendHeaders id headers fin deadline env).Ends s (fun _ _ => False)
      fun e s' => (∃ err, e = .error err) ∧ s'.http3 = s.http3 ∧
          s'.conn.sendBuf id = s.conn.sendBuf id := by
  have hfails {α : Type} {v deadline' : ℕ} (hdeadline : s.firstDeadline env deadline = deadline')
      (f : PUnit → Program Error Session α) :
      (discard (streamSendFull id (varintBytes v) false deadline' env) >>= f).Ends s
        (fun _ _ => False)
        fun e s' => (∃ err, e = .error err) ∧ s'.http3 = s.http3 ∧
            s'.conn.sendBuf id = s.conn.sendBuf id := by
    obtain ⟨e, s', hhttp3, hsend, heq⟩ := hfirst _ (varintBytes_ne_nil v)
    rw [hdeadline] at heq
    unfold Program.Ends
    rw [Program.bind_apply, Program.discard_apply, heq]
    exact ⟨⟨e, rfl⟩, hhttp3, hsend⟩
  unfold sendHeaders
  dsimp only
  rw [encodeHeaderBlock_of_some hblock, pure_bind, Program.ends_bind, Program.ends_get]
  by_cases hgrease : (!s.http3.framesGreased && env.grease) = true
  · have hbounds := greaseValue_bounds env.greaseSeeds.1
    have hlen := varintLen_le (greaseValue env.greaseSeeds.1)
    rw [Program.when, if_pos hgrease, Program.ends_bind, Program.ends_bind]
    unfold sendGreaseFrames streamSend
    dsimp only
    rw [ends_putVarint_bind hbounds.2 (by simp only [List.length_replicate]; omega)]
    dsimp only
    apply (hfails (if_pos hgrease) _).mono
    · exact fun _ _ => False.elim
    · exact fun _ _ h => h
  · rw [Program.when, if_neg hgrease, pure_bind, ends_putVarint_bind (by decide) (by
      simp only [List.length_replicate]
      decide)]
    dsimp only
    exact hfails (if_neg hgrease) _

/-! ### Single writes -/

/-- What the buffer takes is written. -/
theorem write_of_ok {buf buf' : SendBuf} {data : List UInt8} {fin : Bool} {n : ℕ}
    (htarget : s.conn.target id deadline env.now = some buf)
    (hpush : SendBuf.pushSlice data fin buf = .ok n buf') :
    ∃ s', streamSendFull id data fin deadline env s = .ok n s' ∧ s'.http3 = s.http3 ∧
      s'.conn.sendBuf id = some buf' ∧ ∀ deadline', s'.conn.target id deadline' env.now =
          some buf' := by
  have hwrite := Dtp.Connection.streamSendFull_of_some htarget data fin
  unfold streamSendFull
  rw [transport_apply]
  cases heq : Dtp.Connection.streamSendFull id data fin deadline defaultPriority env.now s.conn with
  | error e c' =>
    obtain ⟨buf'', hbuf'', -⟩ := hwrite.error heq
    rw [hpush] at hbuf''
    cases hbuf''
  | ok n' c' =>
    obtain ⟨buf'', hbuf'', hsend, htarget'⟩ := hwrite.ok heq
    rw [hpush] at hbuf''
    cases hbuf''
    exact ⟨_, rfl, rfl, hsend, fun deadline' => htarget' deadline' env.now⟩

/-- What the buffer refuses is not written. -/
theorem write_of_error {buf buf' : SendBuf} {data : List UInt8} {fin : Bool} {e : Dtp.Error}
    (htarget : s.conn.target id deadline env.now = some buf)
    (hpush : SendBuf.pushSlice data fin buf = .error (.error e) buf') :
    ∃ e s', s'.http3 = s.http3 ∧ s'.conn.sendBuf id = some buf' ∧
      streamSendFull id data fin deadline env s = .error (.error e) s' := by
  have hwrite := Dtp.Connection.streamSendFull_of_some htarget data fin
  unfold streamSendFull
  rw [transport_apply]
  cases heq : Dtp.Connection.streamSendFull id data fin deadline defaultPriority env.now s.conn with
  | error e' c' =>
    obtain ⟨buf'', hbuf'', hsend⟩ := hwrite.error heq
    rw [hpush] at hbuf''
    cases hbuf''
    exact ⟨_, { s with conn := c' }, rfl, hsend, rfl⟩
  | ok n' c' =>
    obtain ⟨buf'', hbuf'', -⟩ := hwrite.ok heq
    rw [hpush] at hbuf''
    cases hbuf''

private theorem write_of_none (htarget : s.conn.target id deadline env.now = none)
    (data : List UInt8)
    (fin : Bool) :
    ∃ e, streamSendFull id data fin deadline env s = .error (.error e) s := by
  obtain ⟨e, he⟩ := Dtp.Connection.streamSendFull_of_none htarget data fin
  unfold streamSendFull
  rw [transport_apply, he]
  exact ⟨_, rfl⟩

/-- All that is sent is in the buffer. -/
theorem sent_writable (buf₀ : SendBuf) : Writable id env (Sent buf₀ id env.now) := by
  intro bytes deadline data s h _
  obtain ⟨n, s', heq, hhttp3, -, -, hnext⟩ := h.write data false
  exact ⟨n, s', heq, hhttp3, hnext rfl⟩

/-- A buffer that takes nothing stays as it is. -/
theorem stuck_writable {buf : SendBuf} (hstuck : buf.isShutdown = true ∨ buf.finOff ≠ none ∧
    buf.cap = 0) :
    Writable id env fun _ deadline c => c.target id deadline env.now = some buf := by
  intro bytes deadline data s h hdata
  obtain ⟨n, hpush⟩ := SendBuf.pushSlice_stuck hstuck hdata false
  obtain ⟨s', heq, hhttp3, -, hnext⟩ := write_of_ok h hpush
  exact ⟨n, s', heq, hhttp3, hnext⟩

/-! ### All or nothing -/

/-- The bytes of some frames were put into the send buffer of a stream, which may be a new one. -/
def Delivered (s s' : Session) (id : ℕ) (frames : List WireFrame) (fin : Bool) : Prop :=
  ∃ buf buf', (s.conn.sendBuf id = some buf ∨ s.conn.sendBuf id = none ∧
      ∃ maxData deadline priority now, buf = .newFull maxData deadline priority now) ∧
    s'.conn.sendBuf id = some buf' ∧ buf.Receives (frames.flatMap WireFrame.bytes) fin buf'

/-- Whole frames were written. The last one has the headers, and the others are of unknown types. -/
def DeliveredHeaders (s s' : Session) (toLowercase : String → String) (id : ℕ)
    (headers : List Header) (fin : Bool) :
    Prop :=
  ∃ frames frame, s.Delivered s' id (frames ++ [frame]) fin ∧
    (∀ f ∈ frames, knownType f.ty = false) ∧
    frame.ty = headersFrameTypeId ∧ ∀ maxSize, (headers.map Header.size).sum ≤ maxSize →
      ∃ b, Qpack.decode toLowercase maxSize ⟨[], frame.payload⟩ = .ok headers b

/-- What was written to the stream is the same, and so are the streams and the next stream ID. -/
structure Untouched (s s' : Session) (id : ℕ) : Prop where
  sendBuf : s'.conn.sendBuf id = s.conn.sendBuf id
  streams : s'.http3.streams = s.http3.streams
  nextStreamId : s'.http3.highestRequestStreamId = s.http3.highestRequestStreamId

/-- The header block is written behind the reserved frames, and all of it is stored. -/
def StoresHeaders (s : Session) (env : Env) (id deadline : ℕ) (block : List UInt8) : Prop :=
  block.length < 2 ^ 62 ∧ ∃ buf, s.conn.target id (s.firstDeadline env deadline) env.now =
    some buf ∧
    buf.finOff = none ∧ buf.isShutdown = false ∧ ((s.lead env).flatMap WireFrame.bytes).length +
      varintLen headersFrameTypeId + varintLen block.length + block.length ≤ buf.cap

/-- There is no stream to write to, or it has ended and would have room for more. -/
def RefusesHeaders (s : Session) (env : Env) (id deadline : ℕ) : Prop :=
  ∀ buf, s.conn.target id (s.firstDeadline env deadline) env.now = some buf →
    buf.finOff ≠ none ∧ buf.isShutdown = false ∧ 0 < buf.cap

section Headers

variable {headers : List Header} {block : List UInt8}

/-- A HEADERS frame. -/
def headersFrame (block : List UInt8) (hlen : block.length < 2 ^ 62) : WireFrame :=
  ⟨headersFrameTypeId, block, by decide, hlen⟩

/-- The bytes of the reserved frames and the headers. -/
theorem bytes_headers (hlen : block.length < 2 ^ 62) :
    (s.lead env).flatMap WireFrame.bytes ++ varintBytes headersFrameTypeId ++ varintBytes
      block.length ++ block =
      (s.lead env ++ [headersFrame block hlen]).flatMap WireFrame.bytes := by
  rw [List.flatMap_append, List.flatMap_singleton, WireFrame.bytes]
  simp only [headersFrame, List.append_assoc]

/-- The buffer before a call has nothing queued or acked beyond its offset. -/
theorem target_wf (h : s.conn.Reachable) {buf : SendBuf} (hstart : s.conn.sendBuf id = some buf ∨
    s.conn.sendBuf id = none ∧ ∃ maxData deadline priority now,
      buf = .newFull maxData deadline priority now) :
    buf.WF ∧ buf.ackOff ≤ buf.off := by
  rcases hstart with hlive | ⟨-, maxData, deadline, priority, now, rfl⟩
  · obtain ⟨stream, hstream, rfl⟩ := Option.map_eq_some_iff.mp hlive
    obtain ⟨d, hsound, -⟩ := h.sound
    exact ⟨hsound.wf id stream hstream, (h.acksWritten id stream hstream).ackOff_le⟩
  · exact ⟨SendBuf.newFull_wf ..,
      SendBuf.AcksWritten.ackOff_le (SendBuf.newFull_acksWritten _ _ _ _)⟩

/-- What was delivered is determined. -/
theorem Delivered.eq {s' : Session} {frames : List WireFrame} {fin fin' : Bool}
    (h : s.conn.Reachable)
    (hdelivered : s.Delivered s' id frames fin)
    (htarget : s.conn.target id deadline now = some buf₀) {buf' : SendBuf}
    (hsend : s'.conn.sendBuf id = some buf') (hreceived : buf₀.Receives bytes fin' buf') :
    frames.flatMap WireFrame.bytes = bytes := by
  obtain ⟨buf, buf'', hstart, hsend', hreceived'⟩ := hdelivered
  rw [hsend] at hsend'
  cases hsend'
  have horigin := Dtp.Connection.target_origin htarget
  have hoff : buf₀.off = buf.off := by
    rcases hstart with hlive | ⟨hnone, _, _, _, _, rfl⟩
    · rcases horigin with hlive' | ⟨hnone', -⟩
      · rw [hlive] at hlive'
        cases hlive'
        rfl
      · rw [hlive] at hnone'
        cases hnone'
    · rcases horigin with hlive' | ⟨-, _, _, _, _, rfl⟩
      · rw [hnone] at hlive'
        cases hlive'
      · rfl
  obtain ⟨wf, hack⟩ := target_wf h hstart
  exact hreceived'.unique hreceived hoff wf (target_wf h horigin).1 hack

/-- Nothing is delivered if the buffer stays as it is. -/
theorem not_delivered {s' : Session} {buf : SendBuf} (hlive : s.conn.sendBuf id = some buf)
    (hsend : s'.conn.sendBuf id = some buf) (frames : List WireFrame) (frame : WireFrame)
    (fin : Bool) :
    ¬ s.Delivered s' id (frames ++ [frame]) fin := by
  rintro ⟨buf', buf'', hstart, hsend', hreceived⟩
  rw [hsend] at hsend'
  obtain rfl := Option.some.inj hsend'
  rcases hstart with hlive' | ⟨hnone, -⟩
  · rw [hlive] at hlive'
    obtain rfl := Option.some.inj hlive'
    have hoff := hreceived.off
    have hpos := List.length_pos_iff.mpr frame.bytes_ne_nil
    rw [List.flatMap_append, List.flatMap_singleton, List.length_append] at hoff
    omega
  · rw [hlive] at hnone
    cases hnone

/-- Headers for which there is room are delivered, and if there is none they are cut off. -/
theorem sendHeaders_open {buf : SendBuf} (h : s.conn.Reachable) {toLowercase : String → String}
    (hlowered : ∀ h ∈ headers, toLowercase h.name = h.name)
    (hblock : headerBlock headers = some block)
    (htarget : s.conn.target id (s.firstDeadline env deadline) env.now = some buf)
    (hopen : buf.finOff = none)
    (hshut : buf.isShutdown = false) (fin : Bool) :
    (sendHeaders id headers fin deadline env).Ends s
      (fun _ s' => s.DeliveredHeaders s' toLowercase id headers fin ↔
        s.StoresHeaders env id deadline block)
      fun e _ => ¬ s.StoresHeaders env id deadline block ∧ e = .panic := by
  set total :=
    (s.lead env).flatMap WireFrame.bytes ++ varintBytes headersFrameTypeId ++ varintBytes
      block.length ++
    block with htotal
  -- the headers are stored when all bytes have room
  have hroom (hlen : block.length < 2 ^ 62) : s.StoresHeaders env id deadline block ↔
      total.length ≤ buf.cap := by
    have hlength :
      total.length = ((s.lead env).flatMap WireFrame.bytes).length + varintLen headersFrameTypeId +
        varintLen block.length + block.length := by
      simp only [htotal, List.length_append, varintBytes_length]
    rw [hlength]
    constructor
    · rintro ⟨-, buf', htarget', -, -, hcap⟩
      rw [htarget] at htarget'
      cases htarget'
      exact hcap
    · exact fun hcap => ⟨hlen, buf, htarget, hopen, hshut, hcap⟩
  obtain ⟨hne, hdecode⟩ := headerBlock_decodes hlowered hblock
  have hends := sendHeaders_ends (sent_writable buf) (sent_start htarget hopen hshut) hblock fin
    (P := fun c => ∃ buf', c.sendBuf id = some buf' ∧ buf.Receives (total.take buf.cap)
      (fin && decide (total.length ≤ buf.cap)) buf')
  apply (hends fun hlen s' h' => ?_).mono
  · rintro _ s' ⟨hlen, buf', hsend, hreceived⟩
    rw [hroom hlen]
    constructor
    · -- a part of the frames does not end with the headers
      rintro ⟨frames, frame, hdelivered, hunknown, hty, -⟩
      by_contra hcut
      rw [bytes_headers hlen] at htotal
      have heq := hdelivered.eq h htarget hsend hreceived
      have hstart : frames ++ [frame] <+: s.lead env ++ [headersFrame block hlen] := by
        apply WireFrame.prefix_of_bytes
        rw [heq, htotal]
        exact List.take_prefix _ _
      rcases (List.prefix_concat_iff).mp hstart with hall | hlead
      · rw [hall, ← htotal] at heq
        have hlonger : total.length ≤ buf.cap := by
          rw [heq, List.length_take]
          exact Nat.min_le_left _ _
        exact hcut hlonger
      · -- a frame of the lead is no HEADERS frame
        have hmem : frame ∈ s.lead env :=
          hlead.subset (List.mem_append_right _ (List.mem_singleton_self _))
        have hfalse := lead_unknown hmem
        rw [hty] at hfalse
        exact absurd hfalse (by decide)
    · intro hcap
      rw [List.take_of_length_le hcap, decide_eq_true hcap, Bool.and_true] at hreceived
      -- all bytes are stored, so the peer reads the frames
      refine ⟨s.lead env, headersFrame block hlen, ?_, fun f hf => lead_unknown hf, rfl, ?_⟩
      · rw [htotal, bytes_headers hlen] at hreceived
        exact ⟨buf, buf', Dtp.Connection.target_origin htarget, hsend, hreceived⟩
      · exact hdecode hlen
  · rintro e s' ⟨hlong, he⟩
    exact ⟨fun hstores => hlong hstores.1, he⟩
  · obtain ⟨n, s'', heq, -, -, ⟨buf', hsend, hreceived⟩, -⟩ := h'.write block fin
    refine ⟨n, s'', heq, buf', hsend, ?_⟩
    convert hreceived using 2
    have hpos := List.length_pos_iff.mpr hne
    rw [decide_eq_decide, htotal, List.length_append]
    omega

/-- Nothing of the headers is delivered if the buffer stays as it is. -/
theorem sendHeaders_stuck {buf : SendBuf} (hblock : headerBlock headers = some block)
    (hne : block ≠ [])
    (htarget : s.conn.target id (s.firstDeadline env deadline) env.now = some buf)
    (hstuck : buf.isShutdown = true ∨ buf.finOff ≠ none ∧ buf.cap = 0)
    (toLowercase : String → String) (fin : Bool) :
    (sendHeaders id headers fin deadline env).Ends s
    (fun _ s' => ¬ s.DeliveredHeaders s' toLowercase id headers fin)
      fun e _ => e = .panic := by
  have hlive : s.conn.sendBuf id = some buf := by
    rcases Dtp.Connection.target_origin htarget with hlive | ⟨-, _, _, _, _, rfl⟩
    · exact hlive
    · -- a new buffer is open
      rcases hstuck with hshut | ⟨hfin, -⟩
      · cases hshut
      · exact absurd rfl hfin
  have hends := sendHeaders_ends (stuck_writable hstuck) htarget hblock fin
    (P := fun c => c.sendBuf id = some buf)
  apply (hends fun _ s' h' => ?_).mono
  · rintro _ s' ⟨-, hsend⟩ ⟨frames, frame, hdelivered, -⟩
    exact not_delivered hlive hsend frames frame fin hdelivered
  · exact fun _ _ h => h.2
  · obtain ⟨n, hpush⟩ := SendBuf.pushSlice_stuck hstuck hne fin
    obtain ⟨s'', heq, -, hsend, -⟩ := write_of_ok h' hpush
    exact ⟨n, s'', heq, hsend⟩

private theorem sendHeaders_refused (h : s.conn.Reachable)
    (hblock : headerBlock headers = some block)
    (hrefuses : s.RefusesHeaders env id deadline) (fin : Bool) :
    (sendHeaders id headers fin deadline env).Ends s (fun _ _ => False)
      fun e s' => (∃ err, e = .error err) ∧ s'.http3 = s.http3 ∧
          s'.conn.sendBuf id = s.conn.sendBuf id := by
  apply sendHeaders_fails hblock fin
  intro data hdata
  cases htarget : s.conn.target id (s.firstDeadline env deadline) env.now with
  | none =>
    obtain ⟨e, he⟩ := write_of_none htarget data false
    exact ⟨e, s, rfl, rfl, he⟩
  | some buf =>
    obtain ⟨hfin, hshut, hcap⟩ := hrefuses buf htarget
    have horigin := Dtp.Connection.target_origin htarget
    have hpush := SendBuf.pushSlice_refused (target_wf h horigin).1 hfin hshut hcap hdata false
    obtain ⟨e, s', hhttp3, hsend, he⟩ := write_of_error htarget hpush
    rcases horigin with hlive | ⟨-, _, _, _, _, rfl⟩
    · exact ⟨e, s', hhttp3, hsend.trans hlive.symm, he⟩
    · exact absurd rfl hfin

/-- Headers are delivered if all of them is stored, and nothing happens if they are refused at once.
-/
theorem sendHeaders_iff (h : s.conn.Reachable) {toLowercase : String → String}
    (hlowered : ∀ h ∈ headers, toLowercase h.name = h.name) (fin : Bool) :
    (sendHeaders id headers fin deadline env).Ends s
      (fun _ s' => (s.DeliveredHeaders s' toLowercase id headers fin ↔
          ∃ block, headerBlock headers = some block ∧ s.StoresHeaders env id deadline block) ∧
        ¬ ∀ block, headerBlock headers = some block → s.RefusesHeaders env id deadline)
      fun e s' => (¬ ∃ block, headerBlock headers = some block ∧
        s.StoresHeaders env id deadline block) ∧
        ((∀ block, headerBlock headers = some block → s.RefusesHeaders env id deadline) ∧
            (∃ err, e = .error err) ∧ s'.http3 = s.http3 ∧ s'.conn.sendBuf id = s.conn.sendBuf id ∨
          (¬ ∀ block, headerBlock headers = some block → s.RefusesHeaders env id deadline) ∧
              e = .panic) := by
  cases hblock : headerBlock headers with
  | none =>
    unfold sendHeaders
    dsimp only
    rw [encodeHeaderBlock_of_none hlowered hblock, Program.ends_bind, Program.ends_fail]
    exact ⟨nofun, .inl ⟨nofun, ⟨_, rfl⟩, rfl, rfl⟩⟩
  | some block =>
    obtain ⟨hne, -⟩ := headerBlock_decodes hlowered hblock
    have hstores : (∃ b, some block = some b ∧ s.StoresHeaders env id deadline b) ↔
        s.StoresHeaders env id deadline block := by simp
    have hrefuses : (∀ b, some block = some b → s.RefusesHeaders env id deadline) ↔
        s.RefusesHeaders env id deadline := by simp
    simp only [hstores, hrefuses]
    by_cases hrefused : s.RefusesHeaders env id deadline
    · apply (sendHeaders_refused h hblock hrefused fin).mono
      · exact fun _ _ => False.elim
      · rintro e s' hfails
        refine ⟨?_, .inl ⟨hrefused, hfails⟩⟩
        rintro ⟨-, buf, htarget, hopen, -⟩
        exact (hrefused buf htarget).1 hopen
    · obtain ⟨buf, htarget, hnot⟩ : ∃ buf, s.conn.target id (s.firstDeadline env deadline) env.now =
        some buf ∧
          ¬ (buf.finOff ≠ none ∧ buf.isShutdown = false ∧ 0 < buf.cap) := by
        unfold RefusesHeaders at hrefused
        push Not at hrefused
        obtain ⟨buf, htarget, hnot⟩ := hrefused
        exact ⟨buf, htarget, fun hall => absurd (hnot hall.1 hall.2.1) (by omega)⟩
      by_cases hopen : buf.finOff = none ∧ buf.isShutdown = false
      · apply (sendHeaders_open h hlowered hblock htarget hopen.1 hopen.2 fin).mono
        · exact fun _ _ hiff => ⟨hiff, hrefused⟩
        · exact fun _ _ hpanic => ⟨hpanic.1, .inr ⟨hrefused, hpanic.2⟩⟩
      · have hstuck : buf.isShutdown = true ∨ buf.finOff ≠ none ∧ buf.cap = 0 := by
          cases hshut : buf.isShutdown with
          | true => exact .inl rfl
          | false =>
            have hfin : buf.finOff ≠ none := fun hnone => hopen ⟨hnone, hshut⟩
            have hcap : ¬ 0 < buf.cap := fun hcap => hnot ⟨hfin, hshut, hcap⟩
            exact .inr ⟨hfin, by omega⟩
        -- a buffer that takes nothing stores no headers
        have hcut : ¬ s.StoresHeaders env id deadline block := by
          rintro ⟨-, buf', htarget', hopen', hshut', -⟩
          rw [htarget] at htarget'
          obtain rfl := Option.some.inj htarget'
          exact hopen ⟨hopen', hshut'⟩
        apply (sendHeaders_stuck hblock hne htarget hstuck toLowercase fin).mono
        · exact fun _ _ hnone => ⟨iff_of_false hnone hcut, hrefused⟩
        · exact fun _ _ hpanic => ⟨hcut, .inr ⟨hrefused, hpanic⟩⟩

end Headers

/-! ### Sending a body -/

/-- A stream of the transport that a body may be sent on, with room for a frame. -/
structure TakesBody (s : Session) (id : ℕ) (body : List UInt8) (stream : Dtp.Stream) : Prop where
  known : (s.http3.streams id).isSome
  request : id % 4 = 0
  length : body.length < 2 ^ 62
  live : s.conn.streams.streams id = some stream
  room : varintLen dataFrameTypeId + varintLen body.length < stream.send.cap

/-- The length of the part of a body that is sent. -/
def bodyLen (body : List UInt8) (stream : Dtp.Stream) : ℕ :=
  min body.length (stream.send.cap - (varintLen dataFrameTypeId + varintLen body.length))

section Body

variable {body : List UInt8} {stream : Dtp.Stream}

/-- The body goes to the stream. -/
theorem TakesBody.target (h : s.TakesBody id body stream) (deadline now : ℕ) :
    s.conn.target id deadline now = some stream.send := by
  have hbidi : isBidi id = true := by
    have hid := h.request
    unfold isBidi
    rw [beq_iff_eq]
    omega
  apply Dtp.Connection.target_of_live ?_ h.live
  unfold Dtp.Connection.sendsOnly
  rw [hbidi]
  rfl

/-- The body goes to the buffer of the stream. -/
theorem TakesBody.sendBuf (h : s.TakesBody id body stream) :
    s.conn.sendBuf id = some stream.send := by
  unfold Dtp.Connection.sendBuf
  rw [h.live]
  rfl

/-- A part of a body is written behind the type and the length of the frame. -/
theorem sendBodyFull_ends {I : List UInt8 → ℕ → Dtp.Connection → Prop} (hI : Writable id env I)
    (h : I [] deadline s.conn) (takes : s.TakesBody id body stream) (fin : Bool)
    {P : ℕ → Dtp.Connection → Prop}
    (hlast : ∀ (fin : Bool) (s' : Session),
      I (varintBytes dataFrameTypeId ++ varintBytes (bodyLen body stream)) deadline s'.conn →
        ∃ n s'', streamSendFull id (body.take (bodyLen body stream)) fin deadline env s' =
          .ok n s'' ∧ P n s''.conn) :
    (sendBodyFull id body fin deadline env).Ends s (fun n s' => P n s'.conn) fun _ _ => False := by
  have hlenType : varintLen dataFrameTypeId = 1 := by decide
  have hlenBody := varintLen_le (bodyLen body stream)
  have hshort : bodyLen body stream < 2 ^ 62 := (Nat.min_le_left _ _).trans_lt takes.length
  have hcap : s.streamCapacity id = .ok stream.send.cap := by
    unfold streamCapacity
    rw [takes.live]
  have hvalid : ¬ ((s.http3.streams id).isNone = true ∨ id % 4 ≠ 0) := by
    rintro (hnone | hne)
    · have hknown := takes.known
      rw [Option.isNone_iff_eq_none.mp hnone] at hknown
      cases hknown
    · exact hne takes.request
  unfold sendBodyFull
  dsimp only
  rw [Program.ends_bind, Program.ends_get, if_neg hvalid, Program.when,
    if_neg (Nat.not_le.mpr takes.length), pure_bind,
    hcap, Program.ofExcept_ok, pure_bind, if_neg (Nat.not_le.mpr takes.room), ← bodyLen,
    ends_putVarint_bind (by decide) (by simp only [List.length_replicate]; omega)]
  dsimp only
  -- the header of the frame is written before its payload
  apply hI.bind h (varintBytes_ne_nil _)
  intro s₁ _ h₁
  rw [ends_putVarint_bind hshort (by simp only [List.length_drop, List.length_replicate]; omega)]
  dsimp only
  apply hI.bind (h₁ _) (varintBytes_ne_nil _)
  intro s₂ _ h₂
  obtain ⟨n, s₃, heq, hP⟩ :=
    hlast (if bodyLen body stream ≠ body.length then false else fin) s₂ (h₂ _)
  generalize (if bodyLen body stream ≠ body.length then false else fin) = fin at heq ⊢
  unfold Program.Ends
  rw [Program.bind_apply, heq]
  dsimp only
  rw [Program.bind_apply, Program.modify_apply]
  dsimp only
  rw [Program.pure_apply]
  dsimp only
  split_ifs
  · exact hP
  · exact hP

/-- Without room for a frame, or if the first write fails, the call fails. -/
theorem sendBodyFull_fails (hfirst : ∀ stream, s.TakesBody id body stream → ∀ data, data ≠ [] →
    ∃ e s', streamSendFull id data false deadline env s = .error e s') (fin : Bool) :
    (sendBodyFull id body fin deadline env).Ends s (fun _ _ => False) fun _ _ => True := by
  unfold sendBodyFull
  dsimp only
  rw [Program.ends_bind, Program.ends_get, Program.ends_ite]
  refine ⟨fun _ => trivial, fun hsane => ?_⟩
  push Not at hsane
  rw [Program.ends_bind, Program.ends_when]
  refine ⟨fun _ => trivial, fun hlen => ?_⟩
  rw [Program.ends_bind, Program.ends_ofExcept]
  refine ⟨fun cap hcap => ?_, fun _ _ => trivial⟩
  rw [Program.ends_ite]
  refine ⟨fun _ => trivial, fun hroom => ?_⟩
  unfold streamCapacity at hcap
  cases hlive : s.conn.streams.streams id with
  | none =>
    rw [hlive] at hcap
    cases hcap
  | some stream =>
    rw [hlive] at hcap
    cases hcap
    have hknown : (s.http3.streams id).isSome := Option.isSome_iff_ne_none.mpr
      (by simpa using hsane.1)
    have takes : s.TakesBody id body stream :=
      ⟨hknown, hsane.2, not_le.mp hlen, hlive, not_le.mp hroom⟩
    obtain ⟨e, s', he⟩ := hfirst stream takes _ (varintBytes_ne_nil dataFrameTypeId)
    rw [ends_putVarint_bind (by decide) (by simp only [List.length_replicate]; decide)]
    dsimp only
    unfold Program.Ends
    rw [Program.bind_apply, Program.discard_apply, he]
    trivial

/-- A frame with the first bytes of a body was written. -/
def DeliveredBody (s s' : Session) (id : ℕ) (body : List UInt8) (n : ℕ) : Prop :=
  ∃ frame fin, s.Delivered s' id [frame] fin ∧ frame.ty = dataFrameTypeId ∧
    frame.payload = body.take n ∧
    frame.payload.length = n

/-- After a shutdown, a body for which there seems to be room is not stored. -/
def DropsBody (s : Session) (id : ℕ) (body : List UInt8) : Prop :=
  ∃ stream, s.TakesBody id body stream ∧ stream.send.isShutdown = true

private theorem sendBodyFull_dropped (takes : s.TakesBody id body stream)
    (hshut : stream.send.isShutdown = true) (fin : Bool) :
    ∃ n s', sendBodyFull id body fin deadline env s = .ok n s' ∧
        ¬ s.DeliveredBody s' id body n := by
  have hends := sendBodyFull_ends (stuck_writable (.inl hshut))
    (takes.target deadline env.now) takes fin
    (P := fun _ c => c.sendBuf id = some stream.send)
  have hstays := hends fun fin s' h' => by
    have hpush : SendBuf.pushSlice (body.take (bodyLen body stream)) fin stream.send =
        .ok (body.take (bodyLen body stream)).length stream.send := by
      rw [SendBuf.pushSlice, Program.bind_apply, Program.get_apply]
      dsimp only
      rw [hshut, if_pos rfl]
      rfl
    obtain ⟨s'', heq, -, hsend, -⟩ := write_of_ok h' hpush
    exact ⟨_, s'', heq, hsend⟩
  obtain ⟨n, s', heq, hsend⟩ := hstays.exists_ok
  refine ⟨n, s', heq, ?_⟩
  rintro ⟨frame, fin', hdelivered, -⟩
  exact not_delivered takes.sendBuf hsend [] frame fin' hdelivered

private theorem sendBodyFull_stored (takes : s.TakesBody id body stream)
    (hshut : stream.send.isShutdown = false)
    (hopen : stream.send.finOff = none) (fin : Bool) :
    (sendBodyFull id body fin deadline env).Ends s
    (fun n s' => s.DeliveredBody s' id body n) fun _ _ => False := by
  have hlenBody : varintLen (bodyLen body stream) ≤ varintLen body.length := varintLen_mono
    (Nat.min_le_left _ _)
  have hsmall : bodyLen body stream < 2 ^ 62 := (Nat.min_le_left _ _).trans_lt takes.length
  have hle : bodyLen body stream ≤
      stream.send.cap - (varintLen dataFrameTypeId + varintLen body.length) :=
    Nat.min_le_right _ _
  have hroom := takes.room
  have htake : (body.take (bodyLen body stream)).length = bodyLen body stream :=
    List.length_take_of_le (Nat.min_le_left _ _)
  have hends := sendBodyFull_ends (sent_writable stream.send)
    (sent_start (takes.target deadline env.now) hopen hshut)
    takes fin (P := fun n c => n = bodyLen body stream ∧ ∃ buf' fin', c.sendBuf id = some buf' ∧
      stream.send.Receives (varintBytes dataFrameTypeId ++ varintBytes (bodyLen body stream) ++
        body.take (bodyLen body stream)) fin' buf')
  apply (hends fun fin s' h' => ?_).mono
  · rintro _ s' ⟨rfl, buf', fin', hsend, hreceived⟩
    refine ⟨⟨dataFrameTypeId, body.take (bodyLen body stream), by decide, by rwa [htake]⟩, fin', ?_,
      rfl, rfl, htake⟩
    refine ⟨stream.send, buf', .inl takes.sendBuf, hsend, ?_⟩
    rw [List.flatMap_singleton]
    simp only [WireFrame.bytes, htake]
    rwa [List.append_assoc] at hreceived
  · exact fun _ _ => False.elim
  · obtain ⟨n, s'', heq, -, hn, ⟨buf', hsend, hreceived⟩, -⟩ :=
      h'.write (body.take (bodyLen body stream)) fin
    rw [List.length_append, varintBytes_length, varintBytes_length, htake] at hn
    rw [List.take_of_length_le (by
      simp only [List.length_append, varintBytes_length, htake]
      omega)] at hreceived
    exact ⟨n, s'', heq, by omega, buf', _, hsend, hreceived⟩

/-- A body is written as one frame, unless it is dropped. -/
theorem sendBodyFull_iff (h : s.conn.Reachable) (body : List UInt8) (fin : Bool) :
    (sendBodyFull id body fin deadline env).Ends s (fun n s' => s.DeliveredBody s' id body n)
      (fun _ _ => True) ↔ ¬ s.DropsBody id body := by
  constructor
  · rintro hends ⟨stream, takes, hshut⟩
    obtain ⟨n, s', heq, hnot⟩ := sendBodyFull_dropped takes hshut fin
    exact hnot (hends.ok heq)
  · intro hkeeps
    by_cases hopen : ∃ stream, s.TakesBody id body stream ∧ stream.send.finOff = none
    · obtain ⟨stream, takes, hopen⟩ := hopen
      have hshut : stream.send.isShutdown = false := by
        rw [← Bool.not_eq_true]
        exact fun hshut => hkeeps ⟨stream, takes, hshut⟩
      apply (sendBodyFull_stored takes hshut hopen fin).mono
      · exact fun _ _ hdelivered => hdelivered
      · exact fun _ _ _ => trivial
    · apply (sendBodyFull_fails (fun stream takes data hdata => ?_) fin).mono
      · exact fun _ _ => False.elim
      · exact fun _ _ _ => trivial
      · have hfin : stream.send.finOff ≠ none := fun hnone => hopen ⟨stream, takes, hnone⟩
        have hshut : stream.send.isShutdown = false := by
          rw [← Bool.not_eq_true]
          exact fun hshut => hkeeps ⟨stream, takes, hshut⟩
        have hroom := takes.room
        have wf := (target_wf h (.inl takes.sendBuf)).1
        have hpush := SendBuf.pushSlice_refused wf hfin hshut (by omega) hdata false
        obtain ⟨e, s', -, -, he⟩ := write_of_error (takes.target deadline env.now) hpush
        exact ⟨_, s', he⟩

end Body

end Session

/-! ### Calls -/

/-- A call that sends something on a stream. Header fields are pairs of a name and a value. -/
inductive SendCall
  | request (fields : List (String × String)) (fin : Bool) (deadline : ℕ)
  | response (id : ℕ) (fields : List (String × String)) (fin : Bool) (deadline : ℕ)
  | body (id : ℕ) (chunk : List UInt8) (fin : Bool) (deadline : ℕ)

namespace SendCall

/-- The headers with some fields. -/
def headers (env : Env) (fields : List (String × String)) : List Header :=
  fields.map fun field => Header.new env.toLowercase field.1 field.2

/-- Either whole frames are written, or nothing changes; and of a body as much is written as is
reported. -/
def AllOrNothing (env : Env) (s : Session) : SendCall → Prop
  | request fields fin deadline =>
    (Session.sendRequestFull (headers env fields) fin deadline env).Ends s
      (fun id s' => s.DeliveredHeaders s' env.toLowercase id (headers env fields) fin)
      fun e s' => (∃ err, e = .error err) ∧ s.Untouched s' s.http3.highestRequestStreamId
  | response id fields fin deadline =>
    (Session.sendResponseFull id (headers env fields) fin deadline env).Ends s
      (fun _ s' => s.DeliveredHeaders s' env.toLowercase id (headers env fields) fin)
      fun e s' => (∃ err, e = .error err) ∧ s.Untouched s' id
  | body id chunk fin deadline => (Session.sendBodyFull id chunk fin deadline env).Ends s
      (fun n s' => s.DeliveredBody s' id chunk n) fun _ _ => True

/-- For a request, there is no stream ID left, or the header block can be encoded and all of it is
stored. For a response, the header block cannot be encoded, or all of it is stored, or the first
write is refused. A body is not dropped after a shutdown. -/
def Accepted (env : Env) (s : Session) : SendCall → Prop
  | request fields _ deadline => u64Max ≤ s.http3.highestRequestStreamId ∨
      ∃ block, Session.headerBlock (headers env fields) = some block ∧
        s.StoresHeaders env s.http3.highestRequestStreamId deadline block
  | response id fields _ deadline =>
    ∀ block, Session.headerBlock (headers env fields) = some block →
      s.StoresHeaders env id deadline block ∨ s.RefusesHeaders env id deadline
  | body id chunk _ _ => ¬ s.DropsBody id chunk

/-- In every state of the transport, a call is all or nothing if and only if it is accepted.
Converting a name into lower case twice is the same as doing so once. -/
theorem allOrNothing_iff {env : Env}
    (hlower : ∀ str, env.toLowercase (env.toLowercase str) = env.toLowercase str)
    {s : Session} (h : s.conn.Reachable) (call : SendCall) :
    call.AllOrNothing env s ↔ call.Accepted env s := by
  have hlowered (fields : List (String × String)) : ∀ h ∈ headers env fields,
      env.toLowercase h.name = h.name :=
    Qpack.lowered_new hlower fields
  cases call with
  | request fields fin deadline =>
    unfold AllOrNothing
    apply Program.Ends.iff_of
    unfold Session.sendRequestFull Session.getAvailableRequestStream
    rw [Program.ends_bind, Program.ends_bind, Program.ends_get]
    dsimp only
    rw [Program.ends_ite]
    refine ⟨fun hid => ?_, fun hid => ?_⟩
    · rw [Program.ends_bind, Program.ends_set, Program.ends_pure, Program.ends_bind,
        Program.ends_modify,
        Program.ends_bind]
      have haccepted : Accepted env s (request fields fin deadline) ↔ ∃ block,
          Session.headerBlock (headers env fields) = some block ∧
            s.StoresHeaders env s.http3.highestRequestStreamId deadline block :=
        or_iff_right (not_le.mpr hid)
      rw [haccepted]
      apply (Session.sendHeaders_iff ?_ (hlowered fields) fin).mono
      · exact fun _ s' hheaders => hheaders.1
      · -- the stream ID is already taken, so that an error comes too late
        rintro e s' ⟨hnone, hend⟩
        refine iff_of_false ?_ hnone
        rintro ⟨⟨err, rfl⟩, huntouched⟩
        rcases hend with ⟨-, -, hhttp3, -⟩ | ⟨-, hpanic⟩
        · have hnext := huntouched.nextStreamId
          rw [hhttp3] at hnext
          exact absurd hnext (by simp [Session.putStream])
        · cases hpanic
      · exact h
    · exact iff_of_true ⟨⟨_, rfl⟩, rfl, rfl, rfl⟩ (.inl (not_lt.mp hid))
  | response id fields fin deadline =>
    unfold AllOrNothing
    apply Program.Ends.iff_of
    have haccepted : Accepted env s (response id fields fin deadline) ↔
        (∃ block, Session.headerBlock (headers env fields) = some block ∧
          s.StoresHeaders env id deadline block) ∨
          ∀ block, Session.headerBlock (headers env fields) = some block →
              s.RefusesHeaders env id deadline := by
      change (∀ block, Session.headerBlock (headers env fields) = some block →
        s.StoresHeaders env id deadline block ∨ s.RefusesHeaders env id deadline) ↔ _
      cases Session.headerBlock (headers env fields) with
      | none => simp
      | some block => simp
    rw [haccepted]
    apply (Session.sendHeaders_iff h (hlowered fields) fin).mono
    · rintro _ s' ⟨hiff, hrefused⟩
      rw [hiff, or_iff_left hrefused]
    · rintro e s' ⟨hnone, hend⟩
      rw [or_iff_right hnone]
      rcases hend with ⟨hrefused, herr, hhttp3, hsend⟩ | ⟨hrefused, rfl⟩
      · -- the headers are refused as a whole, and the session is as before
        refine iff_of_true ⟨herr, hsend, ?_, ?_⟩ hrefused
        · rw [hhttp3]
        · rw [hhttp3]
      · -- a length that cannot be written is a panic, and no error
        refine iff_of_false ?_ hrefused
        rintro ⟨⟨err, herr⟩, -⟩
        cases herr
  | body id chunk fin deadline => exact Session.sendBodyFull_iff h chunk fin

end SendCall

namespace Sample

/-- An environment without reserved values. -/
def env : Env where
  toLowercase := String.toLower
  grease := false
  greaseSeeds := (0, 0)
  now := 0

/-- An HTTP/3 client that has made requests up to a stream ID. -/
def session (nextStreamId : ℕ) (c : Dtp.Connection) : Session where
  http3 :=
    { isServer := false
      highestRequestStreamId := nextStreamId
      streams := fun id => if id % 4 = 0 ∧ id < nextStreamId then some (.new id true) else none
      localSettings := ⟨none, none, none⟩
      peerSettings := ⟨none, none, none⟩
      peerControlStreamId := none
      peerEncoderStreamId := none
      peerDecoderStreamId := none
      maxPushId := 0
      finishedStreams := []
      framesGreased := false }
  conn := c
  log := []

/-- A request, as it is written to a stream. -/
def request (id : ℕ) : Call := Dtp.Sample.write id [1, 3, 0, 0, 194] false

/-- A client that has made some requests. -/
def client (requests : List Call) : Option Dtp.Connection := Dtp.Sample.client (.basic {}) requests

/-- A client is reachable. -/
theorem client_reachable {requests : List Call} {c : Dtp.Connection}
    (h : client requests = some c) : c.Reachable :=
  Dtp.Sample.client_reachable h

end Sample

namespace SendCall

/-- The first request of a client. -/
theorem allOrNothing_first : ∃ s : Session, s.conn.Reachable ∧
    AllOrNothing Sample.env s (request [("age", "0")] true 200) := by
  have hroom : (Sample.client []).any (fun c => (c.target 0 200 0).any fun buf =>
      buf.finOff.isNone && !buf.isShutdown && decide (5 ≤ buf.cap)) = true := by
    decide +kernel
  obtain ⟨c, hc, hroom⟩ := (Option.any_eq_true _ _).mp hroom
  obtain ⟨buf, htarget, hbuf⟩ := (Option.any_eq_true _ _).mp hroom
  simp only [Bool.and_eq_true, Option.isNone_iff_eq_none, Bool.not_eq_true',
    decide_eq_true_eq] at hbuf
  refine ⟨Sample.session 0 c, Sample.client_reachable hc, ?_⟩
  rw [allOrNothing_iff Qpack.toLower_toLower (Sample.client_reachable hc)]
  exact .inr ⟨[0, 0, 194], by decide +kernel, by decide, buf, htarget, hbuf.1.1, hbuf.1.2, hbuf.2⟩

/-- The fifth request of a client whose peer allows four streams: it fails, but takes a stream ID.
-/
theorem not_allOrNothing_fifth :
    ∃ c, Sample.client (List.map Sample.request [0, 4, 8, 12]) = some c ∧ c.Reachable ∧
    ¬ AllOrNothing Sample.env (Sample.session 16 c) (request [("age", "0")] true 200) := by
  have hrun : (Sample.client (List.map Sample.request [0, 4, 8, 12])).any (fun c =>
      (Session.sendRequestFull (headers Sample.env [("age", "0")]) true 200 Sample.env).failsWith
        (Sample.session 16 c) fun _ s' => s'.http3.highestRequestStreamId == 20) = true := by
          decide +kernel
  obtain ⟨c, hc, htaken⟩ := (Option.any_eq_true _ _).mp hrun
  obtain ⟨e, s', hfail, hnumber⟩ := Program.failsWith_iff.mp htaken
  refine ⟨c, hc, Sample.client_reachable hc, fun hall => ?_⟩
  unfold AllOrNothing at hall
  obtain ⟨-, huntouched⟩ := hall.error hfail
  have hnext := huntouched.nextStreamId
  rw [beq_iff_eq.mp hnumber] at hnext
  cases hnext

end SendCall

end Dtp.H3
