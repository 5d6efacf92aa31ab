import Dtp.H3.Frame

/-!
# Writing frames of HTTP/3

The length of a frame is computed apart from its bytes. SETTINGS may carry a setting that is of no
use, which the peer has to ignore. A parser is told the length of the payload; that of PUSH_PROMISE
takes the push id to be in its shortest encoding when it looks for the length of the header block.

## Main definitions

* `H3.Frame.toBytes` — a frame with its type and its length
* `H3.Frame.readBack` — reading the frame at the start of some bytes
* `H3.Frame.RoundTrips` — a frame that is written is read back, and nothing more
* `H3.Frame.ReadsPromise` — a promise is read with any encoding of its id

## Main results

* `H3.Frame.putFrame_fills` — the length that is written is that of the payload
* `H3.Frame.fromBytes_payload` — the payload is parsed as the frame
* `H3.Frame.roundTrips_iff_fits` — the frames that are read back
* `H3.Frame.harmless_of_reserved` — a setting of a reserved type does no harm
* `H3.Frame.readsPromise_iff` — the promises that are read
* `H3.Frame.codec_iff` — the frames and the promises that are read as they were meant
-/

namespace Dtp.H3.Frame

open Lib (Program)
open Lib.Cursor (Fills FillsAs Reads)
open Octets (cap getVarint putBytes getVarint_reads getBytes_reads getVarint_reads_in
  putVarint_fills putBytes_fills)

/-! ### Writing -/

/-- The setting of the QPACK table. -/
@[match_pattern] abbrev settingsQpackMaxTableCapacity : ℕ := 0x1

/-- The setting of the header lists. -/
@[match_pattern] abbrev settingsMaxHeaderListSize : ℕ := 0x6

/-- The setting of the blocked streams. -/
@[match_pattern] abbrev settingsQpackBlockedStreams : ℕ := 0x7

/-- The length of a setting with its value, if there is one. -/
def settingLen : Option (ℕ × ℕ) → ℕ
  | some (ty, val) => varintLen ty + varintLen val
  | none => 0

/-- Writes a setting with its value, if there is one. -/
def putSetting : Option (ℕ × ℕ) → Program Dtp.Error Octets Unit
  | some (ty, val) => do
    Octets.putVarint ty
    Octets.putVarint val
  | none => pure ()

/-- The length that is written for SETTINGS. -/
def settingsLen (s : Settings) (grease : Option (ℕ × ℕ)) : ℕ :=
  settingLen (s.maxHeaderListSize.map (settingsMaxHeaderListSize, ·)) +
    settingLen (s.qpackMaxTableCapacity.map (settingsQpackMaxTableCapacity, ·)) +
    settingLen (s.qpackBlockedStreams.map (settingsQpackBlockedStreams, ·)) + settingLen grease

/-- Writes a frame; SETTINGS may have a reserved setting. -/
def putFrame (grease : Option (ℕ × ℕ)) : Frame → Program Dtp.Error Octets Unit
  | .data payload => do
    Octets.putVarint dataFrameTypeId
    Octets.putVarint payload.length
    putBytes payload
  | .headers headerBlock => do
    Octets.putVarint headersFrameTypeId
    Octets.putVarint headerBlock.length
    putBytes headerBlock
  | .cancelPush pushId => do
    Octets.putVarint cancelPushFrameTypeId
    Octets.putVarint (varintLen pushId)
    Octets.putVarint pushId
  | .settings s => do
    Octets.putVarint settingsFrameTypeId
    Octets.putVarint (settingsLen s grease)
    putSetting (s.maxHeaderListSize.map (settingsMaxHeaderListSize, ·))
    putSetting (s.qpackMaxTableCapacity.map (settingsQpackMaxTableCapacity, ·))
    putSetting (s.qpackBlockedStreams.map (settingsQpackBlockedStreams, ·))
    putSetting grease
  | .pushPromise pushId headerBlock => do
    Octets.putVarint pushPromiseFrameTypeId
    Octets.putVarint (varintLen pushId + headerBlock.length)
    Octets.putVarint pushId
    putBytes headerBlock
  | .goAway streamId => do
    Octets.putVarint goawayFrameTypeId
    Octets.putVarint (varintLen streamId)
    Octets.putVarint streamId
  | .maxPushId pushId => do
    Octets.putVarint maxPushFrameTypeId
    Octets.putVarint (varintLen pushId)
    Octets.putVarint pushId
  | .duplicatePush pushId => do
    Octets.putVarint duplicatePushFrameTypeId
    Octets.putVarint (varintLen pushId)
    Octets.putVarint pushId
  | .unknown => Program.crash

/-- Writes a frame and returns how much was written. -/
def toBytes (grease : Option (ℕ × ℕ)) (frame : Frame) : Program Dtp.Error Octets ℕ := do
  let before := cap (← get)
  putFrame grease frame
  pure (before - cap (← get))

/-! ### Reading back -/

/-- Reads the type and the length of the frame at the start of some bytes, and parses the payload
behind them. Returns the frame and what follows it. -/
def readBack (input : List UInt8) : Option (Frame × List UInt8) :=
  let head : Program Dtp.Error Octets (ℕ × ℕ) := do
    let ty ← getVarint
    let len ← getVarint
    pure (ty, len)
  match head ⟨[], input⟩ with
  | .ok (ty, len) b =>
    match fromBytes ty len ⟨[], b.after⟩ with
    | .ok frame _ => some (frame, b.after.drop len)
    | .error _ _ => none
  | .error _ _ => none

/-- The integers of the frame are those of variable length. -/
def Bounded (grease : Option (ℕ × ℕ)) : Frame → Prop
  | .data _ | .headers _ => True
  | .cancelPush id | .goAway id | .maxPushId id | .duplicatePush id | .pushPromise id _ =>
    id < 2 ^ 62
  | .settings s => (∀ val, s.maxHeaderListSize = some val → val < 2 ^ 62) ∧
      (∀ val, s.qpackMaxTableCapacity = some val → val < 2 ^ 62) ∧
      (∀ val, s.qpackBlockedStreams = some val → val < 2 ^ 62) ∧
      ∀ ty val, grease = some (ty, val) → ty < 2 ^ 62 ∧ val < 2 ^ 62
  | .unknown => False

/-- The length of the payload is an integer of variable length. -/
def Fits : Frame → Prop
  | .data payload | .headers payload => payload.length < 2 ^ 62
  | .pushPromise id headerBlock => varintLen id + headerBlock.length < 2 ^ 62
  | _ => True

/-- The reserved setting is not one that is known, unless it says the same. -/
def Harmless (grease : Option (ℕ × ℕ)) : Frame → Prop
  | .settings s => ∀ ty val, grease = some (ty, val) →
      (ty = settingsQpackMaxTableCapacity → s.qpackMaxTableCapacity = some val) ∧
      (ty = settingsMaxHeaderListSize → s.maxHeaderListSize = some val) ∧
      (ty = settingsQpackBlockedStreams → s.qpackBlockedStreams = some val)
  | _ => True

/-- The frame is written where there is room. In front of anything, it is read back without its
reserved setting, and what was written is all that is read. -/
def RoundTrips (grease : Option (ℕ × ℕ)) (frame : Frame) : Prop :=
  ∃ output, FillsAs .bufferTooShort (toBytes grease frame) output output.length ∧
    ∀ rest, readBack (output ++ rest) = some (frame, rest)

/-- The integer can be written in `2 ^ k` bytes. -/
def Permitted (k v : ℕ) : Prop := k < 4 ∧ v < 64 * 256 ^ (2 ^ k - 1)

/-- With its id in `2 ^ k` bytes, a promise is parsed. -/
def ReadsPromise (k pushId : ℕ) (headerBlock : List UInt8) : Prop :=
  let payload := varintIn k pushId ++ headerBlock
  ∃ b, fromBytes pushPromiseFrameTypeId payload.length ⟨[], payload⟩ =
    .ok (.pushPromise pushId headerBlock) b

/-! ### What is written -/

/-- The settings of a frame, in the order in which they are written. -/
def entries (grease : Option (ℕ × ℕ)) (s : Settings) : List (ℕ × ℕ) :=
  (s.maxHeaderListSize.map (settingsMaxHeaderListSize, ·)).toList ++
    ((s.qpackMaxTableCapacity.map (settingsQpackMaxTableCapacity, ·)).toList ++
      ((s.qpackBlockedStreams.map (settingsQpackBlockedStreams, ·)).toList ++ grease.toList))

/-- A setting: its id and its value. -/
def entryBytes (entry : ℕ × ℕ) : List UInt8 := varintBytes entry.1 ++ varintBytes entry.2

/-- The number of the frame's type. -/
def wireType : Frame → ℕ
  | .data _ => dataFrameTypeId
  | .headers _ => headersFrameTypeId
  | .cancelPush _ => cancelPushFrameTypeId
  | .settings _ => settingsFrameTypeId
  | .pushPromise _ _ => pushPromiseFrameTypeId
  | .goAway _ => goawayFrameTypeId
  | .maxPushId _ => maxPushFrameTypeId
  | .duplicatePush _ => duplicatePushFrameTypeId
  | .unknown => 0

/-- What stands behind the length of a frame. -/
def payload (grease : Option (ℕ × ℕ)) : Frame → List UInt8
  | .data payload | .headers payload => payload
  | .cancelPush id | .goAway id | .maxPushId id | .duplicatePush id => varintBytes id
  | .settings s => (entries grease s).flatMap entryBytes
  | .pushPromise id headerBlock => varintBytes id ++ headerBlock
  | .unknown => []

/-- The last part of writing a frame. -/
def putPayload (grease : Option (ℕ × ℕ)) : Frame → Program Dtp.Error Octets Unit
  | .data payload | .headers payload => putBytes payload
  | .cancelPush id | .goAway id | .maxPushId id | .duplicatePush id => Octets.putVarint id
  | .settings s => do
    putSetting (s.maxHeaderListSize.map (settingsMaxHeaderListSize, ·))
    putSetting (s.qpackMaxTableCapacity.map (settingsQpackMaxTableCapacity, ·))
    putSetting (s.qpackBlockedStreams.map (settingsQpackBlockedStreams, ·))
    putSetting grease
  | .pushPromise id headerBlock => do
    Octets.putVarint id
    putBytes headerBlock
  | .unknown => Program.crash

variable {grease : Option (ℕ × ℕ)} {frame : Frame}

/-- Types of frames are numbers of variable length. -/
theorem wireType_lt (frame : Frame) : frame.wireType < 2 ^ 62 := by
  unfold wireType
  split <;> decide

@[simp] theorem entryBytes_length (entry : ℕ × ℕ) :
    (entryBytes entry).length = varintLen entry.1 + varintLen entry.2 := by
  rw [entryBytes, List.length_append, varintBytes_length, varintBytes_length]

private theorem settingLen_eq (o : Option (ℕ × ℕ)) :
    (o.toList.flatMap entryBytes).length = settingLen o := by
  cases o with
  | none => rfl
  | some entry => simp [settingLen]

/-- A setting has sixteen bytes at most. -/
theorem settingLen_le (o : Option (ℕ × ℕ)) : settingLen o ≤ 16 := by
  cases o with
  | none => exact Nat.zero_le _
  | some entry => exact Nat.add_le_add (varintLen_le entry.1) (varintLen_le entry.2)

/-- The length is computed from the settings as they are written. -/
theorem settingsLen_eq (s : Settings) :
    settingsLen s grease = ((entries grease s).flatMap entryBytes).length := by
  simp only [entries, List.flatMap_append, List.length_append, settingLen_eq]
  rw [settingsLen, add_assoc, add_assoc]

private theorem settingsLen_le (s : Settings) : settingsLen s grease ≤ 64 := by
  have hsize := settingLen_le (s.maxHeaderListSize.map (settingsMaxHeaderListSize, ·))
  have hcapacity := settingLen_le (s.qpackMaxTableCapacity.map (settingsQpackMaxTableCapacity, ·))
  have hblocked := settingLen_le (s.qpackBlockedStreams.map (settingsQpackBlockedStreams, ·))
  have hgrease := settingLen_le grease
  unfold settingsLen
  omega

/-- A frame is its type, its length and its payload. -/
theorem putFrame_eq (h : frame ≠ .unknown) : putFrame grease frame = (do
    Octets.putVarint frame.wireType
    Octets.putVarint (frame.payload grease).length
    putPayload grease frame) := by
  cases frame with
  | unknown => exact absurd rfl h
  | settings s =>
    rw [payload, ← settingsLen_eq]
    rfl
  | pushPromise id headerBlock =>
    rw [payload, List.length_append, varintBytes_length]
    rfl
  | cancelPush id | goAway id | maxPushId id | duplicatePush id =>
    rw [payload, varintBytes_length]
    rfl
  | data | headers => rfl

/-- A setting is written, or there is no room for it. -/
theorem putSetting_fills {o : Option (ℕ × ℕ)} (h : ∀ ty val, o = some (ty, val) → ty < 2 ^ 62 ∧
    val < 2 ^ 62) :
    Fills .bufferTooShort (putSetting o) (o.toList.flatMap entryBytes) := by
  cases o with
  | none => exact .pure
  | some entry =>
    obtain ⟨hty, hval⟩ := h entry.1 entry.2 rfl
    have hentry : (some entry).toList.flatMap entryBytes =
        varintBytes entry.1 ++ varintBytes entry.2 := by
      simp [entryBytes]
    rw [hentry]
    exact (putVarint_fills hty).bind (putVarint_fills hval)

/-- A setting of a known type. -/
theorem putSetting_fills_map {ty : ℕ} {o : Option ℕ} (hty : ty < 2 ^ 62)
    (h : ∀ val, o = some val → val < 2 ^ 62) :
    Fills .bufferTooShort (putSetting (o.map (ty, ·)))
        ((o.map (ty, ·)).toList.flatMap entryBytes) := by
  apply putSetting_fills
  intro ty' val heq
  obtain ⟨val, hval, heq⟩ := Option.map_eq_some_iff.mp heq
  cases heq
  exact ⟨hty, h val hval⟩

private theorem putPayload_fills (h : Bounded grease frame) :
    Fills .bufferTooShort (putPayload grease frame) (frame.payload grease) := by
  cases frame with
  | unknown => exact h.elim
  | data payload | headers payload => exact putBytes_fills payload
  | cancelPush id | goAway id | maxPushId id | duplicatePush id => exact putVarint_fills h
  | pushPromise id headerBlock => exact (putVarint_fills h).bind (putBytes_fills headerBlock)
  | settings s =>
    obtain ⟨hsize, hcapacity, hblocked, hgrease⟩ := h
    rw [payload, entries, List.flatMap_append, List.flatMap_append, List.flatMap_append]
    apply (putSetting_fills_map (by decide) hsize).bind
    apply (putSetting_fills_map (by decide) hcapacity).bind
    apply (putSetting_fills_map (by decide) hblocked).bind
    exact putSetting_fills hgrease

/-- The length of a payload is an integer of variable length, if that is so for the parts that are
given. -/
theorem fits_iff (h : Bounded grease frame) :
    Fits frame ↔ (frame.payload grease).length < 2 ^ 62 := by
  cases frame with
  | unknown => exact h.elim
  | data | headers => exact Iff.rfl
  | cancelPush id | goAway id | maxPushId id | duplicatePush id =>
    have hle := varintLen_le id
    rw [payload, varintBytes_length]
    exact iff_of_true trivial (by omega)
  | pushPromise id headerBlock =>
    rw [payload, List.length_append, varintBytes_length]
    exact Iff.rfl
  | settings s =>
    have hle := @settingsLen_le grease s
    rw [payload, ← settingsLen_eq]
    exact iff_of_true trivial (by omega)

/-- The length that is written is that of the payload. -/
theorem putFrame_fills (h : Bounded grease frame) (hfits : Fits frame) :
    Fills .bufferTooShort (putFrame grease frame)
      (varintBytes frame.wireType ++
        (varintBytes (frame.payload grease).length ++ frame.payload grease)) := by
  have hknown : frame ≠ .unknown := by
    rintro rfl
    exact h
  rw [putFrame_eq hknown]
  apply (putVarint_fills (wireType_lt frame)).bind
  apply (putVarint_fills ((fits_iff h).mp hfits)).bind
  exact putPayload_fills h

/-! ### What is parsed -/

/-- The settings after one more that was read. -/
def put (known : Settings) (entry : ℕ × ℕ) : Settings :=
  match entry.1 with
  | settingsQpackMaxTableCapacity => { known with qpackMaxTableCapacity := some entry.2 }
  | settingsMaxHeaderListSize => { known with maxHeaderListSize := some entry.2 }
  | settingsQpackBlockedStreams => { known with qpackBlockedStreams := some entry.2 }
  | _ => known

/-- The frame as the peer takes it. -/
def received (grease : Option (ℕ × ℕ)) : Frame → Frame
  | .settings s => .settings (grease.toList.foldl put s)
  | frame => frame

private theorem length_le_entryBytes (entries : List (ℕ × ℕ)) :
    entries.length ≤ (entries.flatMap entryBytes).length := by
  induction entries with
  | nil => exact le_rfl
  | cons entry entries ih =>
    have hpos := varintLen_pos entry.1
    rw [List.flatMap_cons, List.length_append, List.length_cons, entryBytes_length]
    omega

private theorem parseSettings_reads {entries : List (ℕ × ℕ)}
    (h : ∀ entry ∈ entries, entry.1 < 2 ^ 62 ∧
    entry.2 < 2 ^ 62)
    {fuel settingsLength : ℕ} (hfuel : entries.length < fuel) {before : List UInt8}
    (hlen : before.length + (entries.flatMap entryBytes).length = settingsLength) (known : Settings)
    (rest : List UInt8) :
    parseSettings settingsLength fuel known ⟨before, entries.flatMap entryBytes ++ rest⟩ =
      .ok (entries.foldl put known) ⟨before ++ entries.flatMap entryBytes, rest⟩ := by
  induction entries generalizing fuel known before with
  | nil =>
    obtain ⟨fuel, rfl⟩ := Nat.exists_eq_succ_of_ne_zero (Nat.ne_of_gt hfuel)
    have hend : ¬ before.length < settingsLength := not_lt.mpr hlen.ge
    rw [parseSettings, Program.bind_apply, Program.get_apply]
    dsimp only
    rw [if_neg hend, List.flatMap_nil, List.append_nil]
    rfl
  | cons entry entries ih =>
    obtain ⟨fuel, rfl⟩ := Nat.exists_eq_succ_of_ne_zero (Nat.ne_of_gt (Nat.zero_lt_of_lt hfuel))
    obtain ⟨ty, val⟩ := entry
    obtain ⟨hty, hval⟩ := h (ty, val) List.mem_cons_self
    have hpos := varintLen_pos ty
    have hbytes : ((ty, val) :: entries).flatMap entryBytes =
        varintBytes ty ++ (varintBytes val ++ entries.flatMap entryBytes) := by
      rw [List.flatMap_cons, entryBytes, List.append_assoc]
    rw [hbytes] at hlen ⊢
    simp only [List.length_append, varintBytes_length] at hlen
    have hmore : before.length < settingsLength := by omega
    have hlen' :
      (before ++ varintBytes ty ++ varintBytes val).length + (entries.flatMap entryBytes).length =
        settingsLength := by
      simp only [List.length_append, varintBytes_length]
      omega
    -- the loop goes on behind the first entry
    have htail := ih (fun entry hentry => h entry (List.mem_cons_of_mem _ hentry))
      (Nat.lt_of_succ_lt_succ hfuel)
      hlen' (put known (ty, val))
    rw [List.append_assoc, List.append_assoc, parseSettings, Program.bind_apply, Program.get_apply]
    dsimp only
    rw [if_pos hmore, Program.bind_apply, getVarint_reads _ hty before]
    dsimp only
    rw [Program.bind_apply, getVarint_reads _ hval (before ++ varintBytes ty)]
    dsimp only
    rw [List.foldl_cons, ← List.append_assoc, ← List.append_assoc]
    exact htail

/-- Without the reserved setting, the settings are those of the frame. -/
theorem foldl_entries (s : Settings) :
    (entries grease s).foldl put ⟨none, none, none⟩ = grease.toList.foldl put s := by
  obtain ⟨size, capacity, blocked⟩ := s
  unfold entries
  rw [List.foldl_append, List.foldl_append, List.foldl_append]
  cases size <;> cases capacity <;> cases blocked <;> rfl

/-- Frames are harmless that are received as they are. -/
theorem harmless_iff (frame : Frame) : Harmless grease frame ↔ received grease frame = frame := by
  cases frame with
  | settings s =>
    obtain ⟨size, capacity, blocked⟩ := s
    cases grease with
    | none => exact iff_of_true nofun rfl
    | some entry =>
      obtain ⟨ty, val⟩ := entry
      simp only [Harmless, received, Option.toList_some, List.foldl_cons, List.foldl_nil,
        Option.some.injEq,
        Prod.mk.injEq, put, settings.injEq]
      split <;> simp_all [eq_comm]
  | _ => exact iff_of_true trivial rfl

private theorem entries_bounded {s : Settings} (h : Bounded grease (.settings s)) :
    ∀ entry ∈ entries grease s, entry.1 < 2 ^ 62 ∧ entry.2 < 2 ^ 62 := by
  obtain ⟨hsize, hcapacity, hblocked, hgrease⟩ := h
  have hknown {ty : ℕ} {o : Option ℕ} (hty : ty < 2 ^ 62)
    (ho : ∀ val, o = some val → val < 2 ^ 62) :
      ∀ entry ∈ (o.map (ty, ·)).toList, entry.1 < 2 ^ 62 ∧ entry.2 < 2 ^ 62 := by
    intro entry hentry
    obtain ⟨val, hval, rfl⟩ := Option.map_eq_some_iff.mp (Option.mem_toList.mp hentry)
    exact ⟨hty, ho val hval⟩
  intro entry hentry
  simp only [entries, List.mem_append] at hentry
  rcases hentry with hentry | hentry | hentry | hentry
  · exact hknown (by decide) hsize entry hentry
  · exact hknown (by decide) hcapacity entry hentry
  · exact hknown (by decide) hblocked entry hentry
  · exact hgrease entry.1 entry.2 (Option.mem_toList.mp hentry)

/-- Behind the id of a promise, the parser takes what its shortest encoding would have left. -/
theorem parsePushPromise_varintIn {k id payloadLength : ℕ} (h : Permitted k id)
    (hlen : varintLen id ≤ payloadLength)
    (rest : List UInt8) : parsePushPromise payloadLength ⟨[], varintIn k id ++ rest⟩ =
      (Frame.pushPromise id <$> Octets.getBytes (payloadLength - varintLen id)) ⟨varintIn k id,
          rest⟩ := by
  rw [parsePushPromise, Program.bind_apply, getVarint_reads_in rest h.1 h.2 []]
  dsimp only
  rw [if_neg (not_lt.mpr hlen), Program.unwrapSub_some, pure_bind]
  rfl

private theorem permitted_varintTag {v : ℕ} (h : v < 2 ^ 62) : Permitted (varintTag v) v :=
  ⟨varintTag_lt v, varintTag_fits h⟩

/-- The payload is parsed as the frame. -/
theorem fromBytes_payload (h : Bounded grease frame) (rest : List UInt8) :
    ∃ b, fromBytes frame.wireType (frame.payload grease).length ⟨[], frame.payload grease ++ rest⟩ =
      .ok (received grease frame) b := by
  cases frame with
  | unknown => exact h.elim
  | data payload => exact ⟨_, (getBytes_reads rest rfl).map (f := Frame.data) []⟩
  | headers payload => exact ⟨_, (getBytes_reads rest rfl).map (f := Frame.headers) []⟩
  | cancelPush id => exact ⟨_, (getVarint_reads rest h).map (f := Frame.cancelPush) []⟩
  | goAway id => exact ⟨_, (getVarint_reads rest h).map (f := Frame.goAway) []⟩
  | maxPushId id => exact ⟨_, (getVarint_reads rest h).map (f := Frame.maxPushId) []⟩
  | duplicatePush id => exact ⟨_, (getVarint_reads rest h).map (f := Frame.duplicatePush) []⟩
  | pushPromise id headerBlock =>
    have hlen : (varintBytes id ++ headerBlock).length = varintLen id + headerBlock.length := by
      rw [List.length_append, varintBytes_length]
    have hread := parsePushPromise_varintIn (permitted_varintTag h)
      (Nat.le_add_right _ headerBlock.length)
      (headerBlock ++ rest)
    rw [← varintBytes_eq, ← List.append_assoc, Nat.add_sub_cancel_left,
      (getBytes_reads rest rfl).map (f := Frame.pushPromise id) _, ← hlen] at hread
    exact ⟨_, hread⟩
  | settings s =>
    have hfuel := Nat.lt_succ_of_le (length_le_entryBytes (entries grease s))
    have hlen : ([] : List UInt8).length + ((entries grease s).flatMap entryBytes).length =
        ((entries grease s).flatMap entryBytes).length := Nat.zero_add _
    have hread := parseSettings_reads (entries_bounded h) hfuel hlen ⟨none, none, none⟩ rest
    rw [foldl_entries] at hread
    refine ⟨⟨[] ++ (entries grease s).flatMap entryBytes, rest⟩, ?_⟩
    rw [payload, wireType, fromBytes, Program.map_apply, hread]
    rfl

/-- The payload is read back after its type and length. -/
theorem readBack_payload (h : Bounded grease frame) (hfits : Fits frame) (rest : List UInt8) :
    readBack (varintBytes frame.wireType ++
        (varintBytes (frame.payload grease).length ++ frame.payload grease) ++
      rest) = some (received grease frame, rest) := by
  obtain ⟨b, hparse⟩ := fromBytes_payload h rest
  have hhead : Reads (do
      let ty ← getVarint
      let len ← getVarint
      pure (ty, len))
        (varintBytes frame.wireType ++ (varintBytes (frame.payload grease).length ++ []))
      (frame.payload grease ++ rest) (frame.wireType, (frame.payload grease).length) := by
    apply (getVarint_reads _ (wireType_lt frame)).bind
    apply (getVarint_reads _ ((fits_iff h).mp hfits)).bind
    exact .pure _ _
  have hread := hhead []
  rw [List.append_nil, List.append_assoc] at hread
  rw [readBack, List.append_assoc, List.append_assoc, hread]
  dsimp only
  rw [hparse]
  dsimp only
  rw [List.drop_left]

/-- A frame whose length cannot be written. -/
theorem toBytes_ne_ok (h : Bounded grease frame) (hfits : ¬ Fits frame) (b b' : Octets) (n : ℕ) :
    toBytes grease frame b ≠ .ok n b' := by
  have hknown : frame ≠ .unknown := by
    rintro rfl
    exact h
  have hlen : ¬ (frame.payload grease).length < 2 ^ 62 := mt (fits_iff h).mpr hfits
  rw [toBytes, putFrame_eq hknown, Program.bind_apply, Program.get_apply]
  dsimp only
  rw [Program.bind_apply, Program.bind_apply]
  cases Octets.putVarint frame.wireType b with
  | error e b =>
    intro heq
    cases heq
  | ok u b =>
    dsimp only
    rw [Program.bind_apply, Octets.putVarint, if_neg hlen]
    intro heq
    cases heq

/-- The frames that are read back. -/
theorem roundTrips_iff_fits (h : Bounded grease frame) :
    RoundTrips grease frame ↔ Fits frame ∧ Harmless grease frame := by
  constructor
  · rintro ⟨output, hwrites, hread⟩
    have hfits : Fits frame := by
      by_contra hfits
      exact toBytes_ne_ok h hfits _ _ _ (hwrites.writes [] output le_rfl)
    have hpayload : FillsAs .bufferTooShort (toBytes grease frame) _ _ :=
      (putFrame_fills h hfits).counted
    have hread := hread []
    rw [(hwrites.unique hpayload).1, readBack_payload h hfits []] at hread
    injection hread with hread
    exact ⟨hfits, (harmless_iff frame).mpr (congrArg Prod.fst hread)⟩
  · rintro ⟨hfits, hharmless⟩
    have hpayload : FillsAs .bufferTooShort (toBytes grease frame) _ _ :=
      (putFrame_fills h hfits).counted
    refine ⟨_, hpayload, fun rest => ?_⟩
    rw [readBack_payload h hfits rest, (harmless_iff frame).mp hharmless]

/-! ### Promises -/

private theorem varintLen_le_of_permitted {k v : ℕ} (h : Permitted k v) : varintLen v ≤ 2 ^ k := by
  obtain ⟨hk, hv⟩ := h
  unfold varintLen
  interval_cases k <;> split_ifs <;> omega

/-- A promise is read if its id is in the shortest encoding. -/
theorem readsPromise_iff {k id : ℕ} (h : Permitted k id) (headerBlock : List UInt8) :
    ReadsPromise k id headerBlock ↔ 2 ^ k = varintLen id := by
  have hle := varintLen_le_of_permitted h
  have hlen : (varintIn k id ++ headerBlock).length = 2 ^ k + headerBlock.length := by
    rw [List.length_append, varintIn_length]
  have hparse := parsePushPromise_varintIn h
    (hle.trans (Nat.le_add_right _ headerBlock.length)) headerBlock
  unfold ReadsPromise
  dsimp only
  rw [hlen, fromBytes, hparse]
  constructor
  · rintro ⟨b, hread⟩
    by_contra hne
    have hroom : headerBlock.length < 2 ^ k + headerBlock.length - varintLen id := by omega
    rw [Program.map_apply, Octets.getBytes, Lib.Cursor.take, Program.bind_apply,
      Program.get_apply] at hread
    dsimp only at hread
    rw [if_pos hroom] at hread
    cases hread
  · intro heq
    have hread := (getBytes_reads [] (v := headerBlock) rfl).map (f := Frame.pushPromise id)
      (varintIn k id)
    rw [List.append_nil] at hread
    rw [heq, Nat.add_sub_cancel_left]
    exact ⟨_, hread⟩

/-- A setting of a reserved type does no harm. -/
theorem harmless_of_reserved (h : ∀ ty val, grease = some (ty, val) → ∃ n, ty = 31 * n + 33)
    (frame : Frame) :
    Harmless grease frame := by
  cases frame with
  | settings s =>
    intro ty val heq
    obtain ⟨n, rfl⟩ := h ty val heq
    have hne (known : ℕ) (hknown : known < 33) : 31 * n + 33 ≠ known := by omega
    exact ⟨fun hty => absurd hty (hne _ (by decide)), fun hty => absurd hty (hne _ (by decide)),
      fun hty => absurd hty (hne _ (by decide))⟩
  | _ => exact trivial

/-- The frames and the promises that are read as they were meant. -/
theorem codec_iff (hframe : Bounded grease frame) {k id : ℕ} (hid : Permitted k id)
    (headerBlock : List UInt8) :
    (RoundTrips grease frame ↔ Fits frame ∧ Harmless grease frame) ∧
      (ReadsPromise k id headerBlock ↔ 2 ^ k = varintLen id) :=
  ⟨roundTrips_iff_fits hframe, readsPromise_iff hid headerBlock⟩

/-- SETTINGS with a reserved setting, and a promise whose id takes two bytes. -/
theorem codec_iff_settings : RoundTrips (some (64, 5)) (.settings ⟨some 1000, none, some 0⟩) ∧
    ReadsPromise 1 64 [7] := by
  have hsettings : Bounded (some (64, 5)) (.settings ⟨some 1000, none, some 0⟩) := by
    simp [Bounded]
  have hid : Permitted 1 64 := by
    simp [Permitted]
  obtain ⟨hframe, hpromise⟩ := codec_iff hsettings hid [7]
  refine ⟨hframe.mpr ⟨trivial, ?_⟩, hpromise.mpr rfl⟩
  simp [Harmless]

/-- The id zero may be written in two bytes, but such a promise is not read. -/
theorem not_readsPromise : Permitted 1 0 ∧ varintIn 1 0 = [0x40, 0x00] ∧ ¬ ReadsPromise 1 0 [] := by
  have hid : Permitted 1 0 := by
    simp [Permitted]
  refine ⟨hid, rfl, fun hread => ?_⟩
  have hshortest := (readsPromise_iff hid []).mp hread
  exact absurd hshortest (by decide)

end Dtp.H3.Frame
