import Dtp.Connection
import Dtp.Octets

/-!
# Encoding transport parameters

In the handshake an endpoint announces its parameters as a list of numbered values. A parameter
that is zero is left out, and the reader starts from the default values. The list is put together
in a buffer of its own, of fixed size.

## Main definitions

* `AnnouncedParams` — the transport parameters that are announced
* `AnnouncedParams.encode`, `AnnouncedParams.decode` — writing and reading them
* `AnnouncedParams.entries` — the parameters that are not left out
* `AnnouncedParams.Survives` — the peer gets the parameters that were announced

## Main results

* `AnnouncedParams.decode_bytes` — what the peer gets instead of a parameter left out
* `AnnouncedParams.roundTrips_iff` — which parameters survive
-/

namespace Dtp

open Lib (Program Cursor beBytes)
open Lib.Cursor (Reads Fills)

namespace Octets

/-- The next bytes, after their length. -/
def getBytesWithU16Length : Program Error Octets (List UInt8) := do
  let len ← getU16
  getBytes len

/-- Reads from a buffer of its own. -/
def within {α : Type} (val : List UInt8) (x : Program Error Octets α) : Program Error Octets α :=
  Program.zoom (fun _ => ⟨[], val⟩) (fun _ b => b) x

/-- Writes to a buffer of its own, and returns what was written. -/
def written (buf : List UInt8) (x : Program Error Octets Unit) :
    Program Error Octets (List UInt8) :=
  Program.zoom (fun _ => ⟨[], buf⟩) (fun _ b => b) do
    x
    return (← get).before

/-- Bytes after their length are read. -/
theorem getBytesWithU16Length_reads {v : List UInt8} (h : v.length < 2 ^ 16) (rest : List UInt8) :
    Reads getBytesWithU16Length (beBytes 2 v.length ++ v) rest v :=
  (getUint_reads _ (by omega)).bind (getBytes_reads rest rfl)

/-- A value is read from a buffer that holds nothing else. -/
theorem within_apply {α : Type} {val : List UInt8} {x : Program Error Octets α} {a : α}
    (h : Reads x val [] a)
    (b : Octets) : within val x b = .ok a b := by
  have hx := h []
  rw [List.append_nil] at hx
  rw [within, Program.zoom, hx]

end Octets

open Octets

/-- The transport parameters that an endpoint announces: those that set limits, and the others. -/
structure AnnouncedParams extends TransportParams where
  originalConnectionId : Option (List UInt8)
  maxIdleTimeout : ℕ
  statelessResetToken : Option (List UInt8)
  maxAckDelay : ℕ
  disableActiveMigration : Bool
  activeConnIdLimit : ℕ

namespace AnnouncedParams

/-- The parameters of an endpoint that leaves all of them out. -/
def default : AnnouncedParams where
  toTransportParams := Connection.defaultParams
  originalConnectionId := none
  maxIdleTimeout := 0
  statelessResetToken := none
  maxAckDelay := 25
  disableActiveMigration := false
  activeConnIdLimit := 0

/-! ### Reading -/

/-- Reads an integer, and stores it unless the check fails. -/
def varintParam (val : List UInt8) (check : ℕ → Option Error) (store : ℕ → AnnouncedParams) :
    Program Error Octets AnnouncedParams := do
  let v ← within val getVarint
  match check v with
  | some e => Program.fail e
  | none => pure (store v)

/-- Every value is allowed. -/
def anyValue (_ : ℕ) : Option Error := none

/-- Packets of the least size must be allowed. -/
def checkPacketSize (v : ℕ) : Option Error := if v < 1200 then some .invalidTransportParam else none

/-- The ids of the streams must be encodable. -/
def checkStreams (v : ℕ) : Option Error := if v > 2 ^ 60 then some .streamLimit else none

/-- The exponent of the delay is bounded. -/
def checkDelayExponent (v : ℕ) :
    Option Error := if v > 20 then some .invalidTransportParam else none

/-- The delay is bounded. -/
def checkAckDelay (v : ℕ) : Option Error := if v ≥ 2 ^ 14 then some .invalidTransportParam else none

/-- Reads the value of a parameter. -/
def decodeParam (isServer : Bool) (id : ℕ) (val : List UInt8) (tp : AnnouncedParams) :
    Program Error Octets AnnouncedParams :=
  match id with
  | 0x0000 =>
    if isServer then Program.fail .invalidTransportParam
    else pure { tp with originalConnectionId := some val }
  | 0x0001 => varintParam val anyValue fun v => { tp with maxIdleTimeout := v }
  | 0x0002 =>
    if isServer then Program.fail .invalidTransportParam
    else do
      let token ← within val (getBytes 16)
      pure { tp with statelessResetToken := some token }
  | 0x0003 => varintParam val checkPacketSize fun v => { tp with maxPacketSize := v }
  | 0x0004 => varintParam val anyValue fun v => { tp with initialMaxData := v }
  | 0x0005 => varintParam val anyValue fun v => { tp with initialMaxStreamDataBidiLocal := v }
  | 0x0006 => varintParam val anyValue fun v => { tp with initialMaxStreamDataBidiRemote := v }
  | 0x0007 => varintParam val anyValue fun v => { tp with initialMaxStreamDataUni := v }
  | 0x0008 => varintParam val checkStreams fun v => { tp with initialMaxStreamsBidi := v }
  | 0x0009 => varintParam val checkStreams fun v => { tp with initialMaxStreamsUni := v }
  | 0x000a => varintParam val checkDelayExponent fun v => { tp with ackDelayExponent := v }
  | 0x000b => varintParam val checkAckDelay fun v => { tp with maxAckDelay := v }
  | 0x000c => pure { tp with disableActiveMigration := true }
  | 0x000d => if isServer then Program.fail .invalidTransportParam else pure tp
  | 0x000e => varintParam val anyValue fun v => { tp with activeConnIdLimit := v }
  -- Ignore unknown parameters.
  | _ => pure tp

/-- Reads parameters up to the end of the buffer. -/
def decodeParams (isServer : Bool) : ℕ → AnnouncedParams → Program Error Octets AnnouncedParams
  | 0, _ => throw .hang
  | fuel + 1, tp => do
    if cap (← get) = 0 then pure tp
    else
      let id ← getU16
      let val ← getBytesWithU16Length
      let tp ← decodeParam isServer id val tp
      decodeParams isServer fuel tp

/-- Parses the parameters, after their length. -/
def decode (isServer : Bool) : Program Error Octets AnnouncedParams := do
  let params ← getBytesWithU16Length
  within params (decodeParams isServer (params.length + 1) default)

/-! ### Writing -/

/-- Writes a parameter of bytes. -/
def putBytesParam (id : ℕ) (v : List UInt8) : Program Error Octets Unit := do
  putU16 id
  putU16 v.length
  putBytes v

/-- Writes a parameter that is a number. -/
def putVarintParam (id v : ℕ) : Program Error Octets Unit := do
  putU16 id
  putU16 (varintLen v)
  putVarint v

/-- Writes a parameter that only a server announces. -/
def putServerParam (isServer : Bool) (id : ℕ) (v : Option (List UInt8)) :
    Program Error Octets Unit :=
  match v with
  | some v => Program.when (isServer = true) (putBytesParam id v)
  | none => pure ()

/-- Writes an integer that is not zero. -/
def putNonzero (id v : ℕ) : Program Error Octets Unit := Program.when (v ≠ 0) (putVarintParam id v)

/-- Writes the parameters in order. -/
def encodeParams (tp : AnnouncedParams) (isServer : Bool) : Program Error Octets Unit := do
  putServerParam isServer 0x0000 tp.originalConnectionId
  putNonzero 0x0001 tp.maxIdleTimeout
  putServerParam isServer 0x0002 tp.statelessResetToken
  putNonzero 0x0003 tp.maxPacketSize
  putNonzero 0x0004 tp.initialMaxData
  putNonzero 0x0005 tp.initialMaxStreamDataBidiLocal
  putNonzero 0x0006 tp.initialMaxStreamDataBidiRemote
  putNonzero 0x0007 tp.initialMaxStreamDataUni
  putNonzero 0x0008 tp.initialMaxStreamsBidi
  putNonzero 0x0009 tp.initialMaxStreamsUni
  putNonzero 0x000a tp.ackDelayExponent
  putNonzero 0x000b tp.maxAckDelay
  Program.when (tp.disableActiveMigration = true) (putBytesParam 0x000c [])
  putNonzero 0x000e tp.activeConnIdLimit

/-- The size of the buffer in which the parameters are put together. -/
def paramsSize : ℕ := 128

/-- Writes the parameters, after their length. -/
def encode (tp : AnnouncedParams) (isServer : Bool) : Program Error Octets Unit := do
  let params ← written (List.replicate paramsSize 0) (tp.encodeParams isServer)
  putU16 params.length
  putBytes params

/-! ### The parameters on the wire -/

/-- The encoding of a numbered value. -/
def entryBytes (e : ℕ × List UInt8) : List UInt8 := beBytes 2 e.1 ++ (beBytes 2 e.2.length ++ e.2)

/-- A parameter that only servers send. -/
def serverEntry (isServer : Bool) (id : ℕ) (v : Option (List UInt8)) : List (ℕ × List UInt8) :=
  match v with
  | some v => if isServer = true then [(id, v)] else []
  | none => []

/-- A parameter that is sent unless it is zero. -/
def nonzeroEntry (id v : ℕ) : List (ℕ × List UInt8) := if v ≠ 0 then [(id, varintBytes v)] else []

/-- The parameters that are not left out. -/
def entries (tp : AnnouncedParams) (isServer : Bool) : List (ℕ × List UInt8) :=
  serverEntry isServer 0x0000 tp.originalConnectionId ++ (nonzeroEntry 0x0001 tp.maxIdleTimeout ++
  (serverEntry isServer 0x0002 tp.statelessResetToken ++ (nonzeroEntry 0x0003 tp.maxPacketSize ++
  (nonzeroEntry 0x0004 tp.initialMaxData ++ (nonzeroEntry 0x0005 tp.initialMaxStreamDataBidiLocal ++
  (nonzeroEntry 0x0006 tp.initialMaxStreamDataBidiRemote ++
    (nonzeroEntry 0x0007 tp.initialMaxStreamDataUni ++
  (nonzeroEntry 0x0008 tp.initialMaxStreamsBidi ++ (nonzeroEntry 0x0009 tp.initialMaxStreamsUni ++
  (nonzeroEntry 0x000a tp.ackDelayExponent ++ (nonzeroEntry 0x000b tp.maxAckDelay ++
  ((if tp.disableActiveMigration = true then [(0x000c, [])] else []) ++
    nonzeroEntry 0x000e tp.activeConnIdLimit))))))))))))

/-- The size of the parameters on the wire: numbers and lengths take two bytes each. -/
def wireSize (tp : AnnouncedParams) (isServer : Bool) : ℕ :=
  ((tp.entries isServer).map fun e => 4 + e.2.length).sum

/-- The parameters lie in the ranges that the reader accepts. -/
structure InRange (tp : AnnouncedParams) : Prop where
  originalConnectionId : ∀ cid, tp.originalConnectionId = some cid → cid.length ≤ 20
  maxIdleTimeout : tp.maxIdleTimeout < 2 ^ 62
  statelessResetToken : ∀ token, tp.statelessResetToken = some token → token.length = 16
  maxPacketSize : 1200 ≤ tp.maxPacketSize ∧ tp.maxPacketSize < 2 ^ 62
  initialMaxData : tp.initialMaxData < 2 ^ 62
  initialMaxStreamDataBidiLocal : tp.initialMaxStreamDataBidiLocal < 2 ^ 62
  initialMaxStreamDataBidiRemote : tp.initialMaxStreamDataBidiRemote < 2 ^ 62
  initialMaxStreamDataUni : tp.initialMaxStreamDataUni < 2 ^ 62
  initialMaxStreamsBidi : tp.initialMaxStreamsBidi ≤ 2 ^ 60
  initialMaxStreamsUni : tp.initialMaxStreamsUni ≤ 2 ^ 60
  ackDelayExponent : tp.ackDelayExponent ≤ 20
  maxAckDelay : tp.maxAckDelay < 2 ^ 14
  activeConnIdLimit : tp.activeConnIdLimit < 2 ^ 62

variable {tp tp' tp'' : AnnouncedParams} {isServer : Bool}

/-- A parameter of bytes is its entry. -/
theorem putBytesParam_fills (id : ℕ) (v : List UInt8) :
    Fills .bufferTooShort (putBytesParam id v) (entryBytes (id, v)) :=
  (putUint_fills 2 id).bind ((putUint_fills 2 _).bind (putBytes_fills v))

/-- A parameter of a server is its entry, if there is one. -/
theorem putServerParam_fills (id : ℕ) (v : Option (List UInt8)) : Fills .bufferTooShort
    (putServerParam isServer id v) ((serverEntry isServer id v).flatMap entryBytes) := by
  unfold putServerParam serverEntry
  cases v with
  | none => exact .pure
  | some v =>
    have hwhen := Fills.when (c := isServer = true) fun _ => putBytesParam_fills id v
    cases isServer <;> simpa using hwhen

/-- A number is its entry, unless it is zero. -/
theorem putNonzero_fills (id : ℕ) {v : ℕ} (h : v < 2 ^ 62) : Fills .bufferTooShort (putNonzero id v)
    ((nonzeroEntry id v).flatMap entryBytes) := by
  have hput : Fills .bufferTooShort (putVarintParam id v) (entryBytes (id, varintBytes v)) := by
    rw [entryBytes, varintBytes_length]
    exact (putUint_fills 2 id).bind ((putUint_fills 2 _).bind (putVarint_fills h))
  have hwhen := Fills.when (c := v ≠ 0) fun _ => hput
  unfold putNonzero nonzeroEntry
  split_ifs at hwhen ⊢ with hv
  · simpa using hwhen
  · simpa using hwhen

/-- The parameters are written in the order of their numbers. -/
theorem encodeParams_fills (h : tp.InRange) : Fills .bufferTooShort (tp.encodeParams isServer)
    ((tp.entries isServer).flatMap entryBytes) := by
  have hmigration : Fills .bufferTooShort
      (Program.when (tp.disableActiveMigration = true) (putBytesParam 0x000c []))
      ((if tp.disableActiveMigration = true then [(0x000c, [])] else [] :
          List (ℕ × List UInt8)).flatMap
        entryBytes) := by
    have hwhen := Fills.when (c := tp.disableActiveMigration = true) fun _ =>
      putBytesParam_fills 0x000c []
    split_ifs at hwhen ⊢
    · simpa using hwhen
    · simpa using hwhen
  simp only [entries, List.flatMap_append]
  refine (putServerParam_fills _ _).bind ((putNonzero_fills _ h.maxIdleTimeout).bind ?_)
  refine (putServerParam_fills _ _).bind ((putNonzero_fills _ h.maxPacketSize.2).bind ?_)
  refine (putNonzero_fills _ h.initialMaxData).bind ?_
  refine (putNonzero_fills _ h.initialMaxStreamDataBidiLocal).bind ?_
  refine (putNonzero_fills _ h.initialMaxStreamDataBidiRemote).bind ?_
  refine (putNonzero_fills _ h.initialMaxStreamDataUni).bind ?_
  refine (putNonzero_fills _ (h.initialMaxStreamsBidi.trans_lt (by decide))).bind ?_
  refine (putNonzero_fills _ (h.initialMaxStreamsUni.trans_lt (by decide))).bind ?_
  refine (putNonzero_fills _ (h.ackDelayExponent.trans_lt (by decide))).bind ?_
  refine (putNonzero_fills _ (h.maxAckDelay.trans (by decide))).bind ?_
  exact hmigration.bind (putNonzero_fills _ h.activeConnIdLimit)

/-- The entries are as long as computed. -/
theorem wireSize_eq (tp : AnnouncedParams) (isServer : Bool) :
    ((tp.entries isServer).flatMap entryBytes).length = tp.wireSize isServer := by
  rw [List.length_flatMap, wireSize]
  congr 2
  funext e
  simp only [entryBytes, List.length_append, Lib.beBytes_length]
  omega

/-! ### What the peer reads -/

/-- Reading the values in order turns the first parameters into the second ones. -/
def DecodesAll (isServer : Bool) : AnnouncedParams → List (ℕ × List UInt8) → AnnouncedParams → Prop
  | tp, [], tp' => tp = tp'
  | tp, e :: l, tp' =>
    ∃ t, (∀ b, decodeParam isServer e.1 e.2 tp b = .ok t b) ∧ DecodesAll isServer t l tp'

/-- Entries are decoded one after the other. -/
theorem DecodesAll.append {l l' : List (ℕ × List UInt8)} (h : DecodesAll isServer tp l tp')
    (h' : DecodesAll isServer tp' l' tp'') : DecodesAll isServer tp (l ++ l') tp'' := by
  induction l generalizing tp with
  | nil =>
    cases h
    exact h'
  | cons e l ih =>
    obtain ⟨t, hstep, hrest⟩ := h
    exact ⟨t, hstep, ih hrest⟩

/-- One entry is decoded at once. -/
theorem decodesAll_singleton {id : ℕ} {val : List UInt8}
    (h : ∀ b, decodeParam isServer id val tp b = .ok tp' b) :
    DecodesAll isServer tp [(id, val)] tp' :=
  ⟨tp', h, rfl⟩

/-- A value that stands for `v`, where zero is left out. -/
def orDefault (v d : ℕ) : ℕ := if v = 0 then d else v

@[simp] theorem orDefault_zero (v : ℕ) : orDefault v 0 = v := by
  unfold orDefault
  split_ifs with h
  · exact h.symm
  · rfl

/-- A value that was sent is not replaced. -/
theorem orDefault_of_ne {v : ℕ} (h : v ≠ 0) (d : ℕ) : orDefault v d = v := if_neg h

/-- An integer is stored, or keeps its value. -/
theorem decodesAll_nonzero {id v : ℕ} (store : AnnouncedParams → ℕ → AnnouncedParams)
    (field : AnnouncedParams → ℕ) (check : ℕ → Option Error)
    (hparam : ∀ val t, decodeParam isServer id val t = varintParam val check (store t))
    (hv : v < 2 ^ 62) (hcheck : check v = none)
    (hfield : ∀ t, store t (field t) = t) (t : AnnouncedParams) :
    DecodesAll isServer t (nonzeroEntry id v) (store t (orDefault v (field t))) := by
  unfold nonzeroEntry orDefault
  by_cases hzero : v = 0
  · rw [if_neg (not_not.mpr hzero), if_pos hzero]
    exact (hfield t).symm
  · rw [if_pos hzero, if_neg hzero]
    refine decodesAll_singleton fun b => ?_
    rw [hparam, varintParam, Program.bind_apply, within_apply (getVarint_reads [] hv)]
    simp only [hcheck]
    rfl

/-- A server's parameter is stored by the client. -/
theorem decodesAll_server {id : ℕ} {v : Option (List UInt8)}
    (store : AnnouncedParams → Option (List UInt8) → AnnouncedParams)
    (val : List UInt8 → Program Error Octets (List UInt8))
    (hparam : ∀ bytes t, decodeParam false id bytes t = do return store t (some (← val bytes)))
    (hval : ∀ bytes, v = some bytes → ∀ b, val bytes b = .ok bytes b) {t : AnnouncedParams}
    (hnone : store t none = t) :
    DecodesAll (!isServer) t (serverEntry isServer id v)
        (store t (if isServer then v else none)) := by
  unfold serverEntry
  cases v with
  | none =>
    rw [ite_self]
    exact hnone.symm
  | some bytes =>
    cases isServer with
    | false => exact hnone.symm
    | true =>
      refine decodesAll_singleton fun b => ?_
      rw [Bool.not_true, hparam, Program.bind_apply, hval bytes rfl]
      rfl

/-- The parameters that the peer reads: one that was left out has its default value. -/
def received (tp : AnnouncedParams) (isServer : Bool) : AnnouncedParams where
  initialMaxData := orDefault tp.initialMaxData 0
  initialMaxStreamDataBidiLocal := orDefault tp.initialMaxStreamDataBidiLocal 0
  initialMaxStreamDataBidiRemote := orDefault tp.initialMaxStreamDataBidiRemote 0
  initialMaxStreamDataUni := orDefault tp.initialMaxStreamDataUni 0
  initialMaxStreamsBidi := orDefault tp.initialMaxStreamsBidi 0
  initialMaxStreamsUni := orDefault tp.initialMaxStreamsUni 0
  maxPacketSize := orDefault tp.maxPacketSize 65527
  ackDelayExponent := orDefault tp.ackDelayExponent 3
  originalConnectionId := if isServer then tp.originalConnectionId else none
  maxIdleTimeout := orDefault tp.maxIdleTimeout 0
  statelessResetToken := if isServer then tp.statelessResetToken else none
  maxAckDelay := orDefault tp.maxAckDelay 25
  disableActiveMigration := if tp.disableActiveMigration then true else false
  activeConnIdLimit := orDefault tp.activeConnIdLimit 0

/-- All entries are decoded to what the peer is to receive. -/
theorem decodesAll_entries (h : tp.InRange) (isServer : Bool) :
    DecodesAll (!isServer) default (tp.entries isServer) (tp.received isServer) := by
  have htoken (token : List UInt8) (hsome : tp.statelessResetToken = some token) (b : Octets) :
      within token (getBytes 16) b = .ok token b :=
    within_apply (getBytes_reads [] (h.statelessResetToken token hsome)) b
  have hmigration (t : AnnouncedParams) (ht : t.disableActiveMigration = false) : DecodesAll
    (!isServer) t
      (if tp.disableActiveMigration = true then [(0x000c, [])] else [])
      { t with disableActiveMigration := if tp.disableActiveMigration then true else false } := by
    split_ifs
    · exact decodesAll_singleton fun b => rfl
    · exact ht ▸ rfl
  have hexponent : tp.ackDelayExponent < 2 ^ 62 := h.ackDelayExponent.trans_lt (by decide)
  have hdelay : tp.maxAckDelay < 2 ^ 62 := h.maxAckDelay.trans (by decide)
  have hbidi : tp.initialMaxStreamsBidi < 2 ^ 62 := h.initialMaxStreamsBidi.trans_lt (by decide)
  have huni : tp.initialMaxStreamsUni < 2 ^ 62 := h.initialMaxStreamsUni.trans_lt (by decide)
  -- one step for each parameter, in the order in which they are written
  unfold entries
  refine (decodesAll_server (fun t v => { t with originalConnectionId := v }) pure (fun _ _ => rfl)
    (fun _ _ _ => rfl) rfl).append ?_
  refine (decodesAll_nonzero (fun t v => { t with maxIdleTimeout := v }) (·.maxIdleTimeout) anyValue
    (fun _ _ => rfl) h.maxIdleTimeout rfl (fun _ => rfl) _).append ?_
  refine (decodesAll_server (fun t v => { t with statelessResetToken := v })
    (fun val => within val (getBytes 16)) (fun _ _ => rfl) htoken rfl).append ?_
  refine (decodesAll_nonzero (fun t v => { t with maxPacketSize := v })
    (·.maxPacketSize) checkPacketSize
    (fun _ _ => rfl) h.maxPacketSize.2 (if_neg (not_lt.mpr h.maxPacketSize.1))
    (fun _ => rfl) _).append ?_
  refine (decodesAll_nonzero (fun t v => { t with initialMaxData := v }) (·.initialMaxData) anyValue
    (fun _ _ => rfl) h.initialMaxData rfl (fun _ => rfl) _).append ?_
  refine (decodesAll_nonzero (fun t v => { t with initialMaxStreamDataBidiLocal := v })
    (·.initialMaxStreamDataBidiLocal) anyValue (fun _ _ => rfl)
    h.initialMaxStreamDataBidiLocal rfl (fun _ => rfl) _).append ?_
  refine (decodesAll_nonzero (fun t v => { t with initialMaxStreamDataBidiRemote := v })
    (·.initialMaxStreamDataBidiRemote) anyValue (fun _ _ => rfl)
    h.initialMaxStreamDataBidiRemote rfl (fun _ => rfl) _).append ?_
  refine (decodesAll_nonzero (fun t v => { t with initialMaxStreamDataUni := v })
    (·.initialMaxStreamDataUni) anyValue (fun _ _ => rfl)
    h.initialMaxStreamDataUni rfl (fun _ => rfl) _).append ?_
  refine (decodesAll_nonzero (fun t v => { t with initialMaxStreamsBidi := v })
    (·.initialMaxStreamsBidi) checkStreams (fun _ _ => rfl)
    hbidi (if_neg (not_lt.mpr h.initialMaxStreamsBidi)) (fun _ => rfl) _).append ?_
  refine (decodesAll_nonzero (fun t v => { t with initialMaxStreamsUni := v })
    (·.initialMaxStreamsUni) checkStreams (fun _ _ => rfl)
    huni (if_neg (not_lt.mpr h.initialMaxStreamsUni)) (fun _ => rfl) _).append ?_
  refine (decodesAll_nonzero (fun t v => { t with ackDelayExponent := v })
    (·.ackDelayExponent) checkDelayExponent (fun _ _ => rfl)
    hexponent (if_neg (not_lt.mpr h.ackDelayExponent)) (fun _ => rfl) _).append ?_
  refine (decodesAll_nonzero (fun t v => { t with maxAckDelay := v }) (·.maxAckDelay) checkAckDelay
    (fun _ _ => rfl) hdelay (if_neg (not_le.mpr h.maxAckDelay)) (fun _ => rfl) _).append ?_
  refine (hmigration _ rfl).append ?_
  exact decodesAll_nonzero (fun t v => { t with activeConnIdLimit := v })
    (·.activeConnIdLimit) anyValue
    (fun _ _ => rfl) h.activeConnIdLimit rfl (fun _ => rfl) _

/-- The fields of an entry have room for its sizes. -/
theorem entry_sizes (h : tp.InRange) : ∀ e ∈ tp.entries isServer, e.1 < 2 ^ 16 ∧
    e.2.length < 2 ^ 16 := by
  have hserver {id : ℕ} (hid : id < 2 ^ 16) {v : Option (List UInt8)}
      (hv : ∀ bytes, v = some bytes → bytes.length < 2 ^ 16) :
      ∀ e ∈ serverEntry isServer id v, e.1 < 2 ^ 16 ∧ e.2.length < 2 ^ 16 := by
    intro e he
    cases v with
    | none => cases he
    | some bytes =>
      simp only [serverEntry, List.mem_ite_nil_right, List.mem_singleton] at he
      obtain ⟨-, rfl⟩ := he
      exact ⟨hid, hv bytes rfl⟩
  -- a number takes at most eight bytes
  have hnonzero {id : ℕ} (hid : id < 2 ^ 16) (v : ℕ) :
      ∀ e ∈ nonzeroEntry id v, e.1 < 2 ^ 16 ∧ e.2.length < 2 ^ 16 := by
    intro e he
    simp only [nonzeroEntry, List.mem_ite_nil_right, List.mem_singleton] at he
    obtain ⟨-, rfl⟩ := he
    refine ⟨hid, ?_⟩
    rw [varintBytes_length, varintLen]
    split_ifs <;> omega
  have hmigration : ∀ e ∈ (if tp.disableActiveMigration = true then [(0x000c, [])] else [] :
      List (ℕ × List UInt8)), e.1 < 2 ^ 16 ∧ e.2.length < 2 ^ 16 := by
    intro e he
    simp only [List.mem_ite_nil_right, List.mem_singleton] at he
    obtain ⟨-, rfl⟩ := he
    exact ⟨by decide, by decide⟩
  have hcid (cid : List UInt8) (hsome : tp.originalConnectionId = some cid) :
      cid.length < 2 ^ 16 := by
    have := h.originalConnectionId cid hsome
    omega
  have htoken (token : List UInt8) (hsome : tp.statelessResetToken = some token) :
      token.length < 2 ^ 16 := by
    have := h.statelessResetToken token hsome
    omega
  unfold entries
  simp only [List.forall_mem_append]
  exact ⟨hserver (by decide) hcid, hnonzero (by decide) _, hserver (by decide) htoken,
    hnonzero (by decide) _,
    hnonzero (by decide) _, hnonzero (by decide) _, hnonzero (by decide) _, hnonzero (by decide) _,
    hnonzero (by decide) _, hnonzero (by decide) _, hnonzero (by decide) _, hnonzero (by decide) _,
    hmigration, hnonzero (by decide) _⟩

/-- The loop reads the values in order. -/
theorem decodeParams_reads {l : List (ℕ × List UInt8)}
    (hl : ∀ e ∈ l, e.1 < 2 ^ 16 ∧ e.2.length < 2 ^ 16)
    (h : DecodesAll isServer tp l tp') {fuel : ℕ} (hfuel : l.length < fuel) :
    Reads (decodeParams isServer fuel tp) (l.flatMap entryBytes) [] tp' := by
  induction l generalizing tp fuel with
  | nil =>
    obtain ⟨fuel, rfl⟩ := Nat.exists_eq_succ_of_ne_zero (Nat.ne_of_gt hfuel)
    cases h
    exact fun before => by simp [decodeParams, Program.bind_apply, cap]
  | cons e l ih =>
    obtain ⟨fuel, rfl⟩ := Nat.exists_eq_succ_of_ne_zero (Nat.ne_zero_of_lt hfuel)
    obtain ⟨t, hstep, hrest⟩ := h
    obtain ⟨hid, hlen⟩ := hl e List.mem_cons_self
    have htail := ih (fun e' he' => hl e' (List.mem_cons_of_mem e he')) hrest
      (Nat.lt_of_succ_lt_succ hfuel)
    have hparam : Reads (do let t ← decodeParam isServer e.1 e.2 tp; decodeParams isServer fuel t)
        (l.flatMap entryBytes) [] tp' := by
      intro before
      rw [Program.bind_apply, hstep]
      exact htail before
    have hval := (getBytesWithU16Length_reads hlen (l.flatMap entryBytes ++ [])).bind
      (f := fun val => do let t ← decodeParam isServer e.1 val tp; decodeParams isServer fuel t)
        hparam
    have hid' : e.1 < 256 ^ 2 := by omega
    have hentry := (getUint_reads _ hid').bind (f := fun id => do
      let val ← getBytesWithU16Length
      let t ← decodeParam isServer id val tp
      decodeParams isServer fuel t) hval
    intro before
    have hcap : cap ⟨before, (e :: l).flatMap entryBytes ++ []⟩ ≠ 0 := by
      simp [cap, entryBytes]
    rw [decodeParams, Program.bind_apply, Program.get_apply]
    dsimp only
    rw [if_neg hcap]
    have hrun := hentry before
    simp only [List.flatMap_cons, entryBytes, List.append_assoc] at hrun ⊢
    exact hrun

/-- Every entry has a byte. -/
theorem length_le_bytes (l : List (ℕ × List UInt8)) : l.length ≤ (l.flatMap entryBytes).length := by
  induction l with
  | nil => exact le_rfl
  | cons e l ih =>
    simp only [List.flatMap_cons, List.length_append, List.length_cons, entryBytes,
      Lib.beBytes_length]
    omega

/-- Where there is room, the peer reads the parameters, except for those left out. -/
theorem decode_bytes (h : tp.InRange) (isServer : Bool) : ∃ params : List UInt8,
    params.length = tp.wireSize isServer ∧
    Fills .bufferTooShort (tp.encodeParams isServer) params ∧
    (params.length < 2 ^ 16 → Reads (decode (!isServer)) (beBytes 2 params.length ++ params) []
      (tp.received isServer)) := by
  refine ⟨_, tp.wireSize_eq isServer, encodeParams_fills h, fun hlen => ?_⟩
  have hfuel := Nat.lt_succ_of_le (length_le_bytes (tp.entries isServer))
  have hloop := decodeParams_reads (entry_sizes h) (decodesAll_entries h isServer) hfuel
  have hwithin : Reads (within ((tp.entries isServer).flatMap entryBytes)
      (decodeParams (!isServer) (((tp.entries isServer).flatMap entryBytes).length + 1) default)) []
        []
      (tp.received isServer) := by
    intro before
    rw [within_apply hloop, List.append_nil, List.append_nil]
  have hread := (getBytesWithU16Length_reads hlen ([] ++ [])).bind
    (f := fun params =>
      within params (decodeParams (!isServer) (params.length + 1) default)) hwithin
  rwa [List.append_nil] at hread

/-! ### Parameters that survive -/

/-- The parameters that the peer should get. -/
def announced (tp : AnnouncedParams) (isServer : Bool) : AnnouncedParams :=
  if isServer then tp else { tp with originalConnectionId := none, statelessResetToken := none }

/-- Where the output buffer is large enough, encoding succeeds and the peer gets the parameters. -/
def Survives (tp : AnnouncedParams) (isServer : Bool) : Prop :=
  ∃ size, ∀ out : List UInt8, size ≤ out.length → ∃ b b',
    encode tp isServer ⟨[], out⟩ = .ok () b ∧
    decode (!isServer) ⟨[], b.before⟩ = .ok (tp.announced isServer) b'

/-- What is received is what was announced, but for the defaults. -/
theorem received_eq (h : tp.InRange) : tp.received isServer =
    { tp.announced isServer with
      ackDelayExponent := orDefault tp.ackDelayExponent 3, maxAckDelay :=
          orDefault tp.maxAckDelay 25 } := by
  have hsize : tp.maxPacketSize ≠ 0 := by
    have := h.maxPacketSize
    omega
  have hmigration : (if tp.disableActiveMigration = true then true else false) =
      tp.disableActiveMigration := by
    cases tp.disableActiveMigration <;> rfl
  cases isServer <;> simp [received, announced, orDefault_of_ne hsize, hmigration]

/-- A default takes the place of zero only. -/
theorem orDefault_eq_iff {v d : ℕ} (hd : d ≠ 0) : orDefault v d = v ↔ v ≠ 0 := by
  unfold orDefault
  split_ifs with h
  · exact iff_of_false (fun heq => hd (heq.trans h)) (not_not.mpr h)
  · exact iff_of_true rfl h

/-- The peer reads the values announced unless one with another default is zero. -/
theorem received_eq_announced_iff (h : tp.InRange) :
    tp.received isServer = tp.announced isServer ↔ tp.ackDelayExponent ≠ 0 ∧
        tp.maxAckDelay ≠ 0 := by
  have hexponent : (tp.announced isServer).ackDelayExponent = tp.ackDelayExponent := by
    cases isServer <;> rfl
  have hdelay : (tp.announced isServer).maxAckDelay = tp.maxAckDelay := by cases isServer <;> rfl
  rw [← @orDefault_eq_iff tp.ackDelayExponent 3 (by decide), ← @orDefault_eq_iff tp.maxAckDelay 25
    (by decide),
    received_eq h]
  constructor
  · intro heq
    have hsame := congrArg (·.ackDelayExponent) heq
    have hsame' := congrArg (·.maxAckDelay) heq
    exact ⟨hsame.trans hexponent, hsame'.trans hdelay⟩
  · rintro ⟨hsame, hsame'⟩
    rw [hsame, hsame', ← hexponent, ← hdelay]

/-- Encoding succeeds if the parameters fit the buffer they are put together in. -/
theorem encode_apply {params : List UInt8}
    (h : Fills .bufferTooShort (tp.encodeParams isServer) params)
    {out : List UInt8} (hout : 2 + params.length ≤ out.length) :
    (params.length ≤ paramsSize → ∃ after,
      encode tp isServer ⟨[], out⟩ = .ok () ⟨beBytes 2 params.length ++ params, after⟩) ∧
    (paramsSize < params.length →
      ∃ b, encode tp isServer ⟨[], out⟩ = .error (.error .bufferTooShort) b) := by
  constructor
  · intro hfits
    have hwrites := h.writes [] (List.replicate paramsSize 0) (by rwa [List.length_replicate])
    have hput := (putUint_writes 2 params.length).bind (putBytes_writes params) [] out
      (by simpa using hout)
    refine ⟨out.drop (beBytes 2 params.length ++ params).length, ?_⟩
    rw [encode, Program.bind_apply, written, Program.zoom, Program.bind_apply, hwrites]
    exact hput
  · intro hlong
    obtain ⟨b, hfails⟩ := h.fails [] (List.replicate paramsSize 0) (by rwa [List.length_replicate])
    refine ⟨⟨[], out⟩, ?_⟩
    rw [encode, Program.bind_apply, written, Program.zoom, Program.bind_apply, hfails]

/-- Parameters that survive fit, and are read as they were announced. -/
theorem Survives.received_eq (hsurvives : tp.Survives isServer) (h : tp.InRange) :
    tp.received isServer = tp.announced isServer ∧ tp.wireSize isServer ≤ paramsSize := by
  obtain ⟨params, hsize, hfills, hdecode⟩ := decode_bytes h isServer
  obtain ⟨size, hsurvives⟩ := hsurvives
  have hlarge : size ≤ (List.replicate (size + (2 + params.length)) (0 : UInt8)).length := by
    rw [List.length_replicate]
    exact Nat.le_add_right _ _
  have hroom :
      2 + params.length ≤ (List.replicate (size + (2 + params.length)) (0 : UInt8)).length := by
    rw [List.length_replicate]
    exact Nat.le_add_left _ _
  obtain ⟨b, b', hencode, hread⟩ := hsurvives _ hlarge
  obtain ⟨hok, hfails⟩ := encode_apply hfills hroom
  have hfits : params.length ≤ paramsSize := by
    by_contra hlong
    obtain ⟨b'', hfail⟩ := hfails (not_le.mp hlong)
    rw [hencode] at hfail
    cases hfail
  obtain ⟨after, hencode'⟩ := hok hfits
  rw [hencode] at hencode'
  cases hencode'
  have hread' := hdecode (hfits.trans_lt (by decide)) []
  rw [List.append_nil, hread] at hread'
  exact ⟨(EStateM.Result.ok.inj hread').1.symm, hsize ▸ hfits⟩

/-- Parameters survive exactly if the two with defaults other than zero are not zero and all fit the
buffer they are put together in. -/
theorem roundTrips_iff (h : tp.InRange) (isServer : Bool) : tp.Survives isServer ↔
    tp.ackDelayExponent ≠ 0 ∧ tp.maxAckDelay ≠ 0 ∧ tp.wireSize isServer ≤ paramsSize := by
  rw [← and_assoc, ← @received_eq_announced_iff _ isServer h]
  constructor
  · exact fun hsurvives => hsurvives.received_eq h
  · rintro ⟨hsame, hfits⟩
    obtain ⟨params, hsize, hfills, hdecode⟩ := decode_bytes h isServer
    rw [← hsize] at hfits
    refine ⟨2 + params.length, fun out hout => ?_⟩
    obtain ⟨after, hencode⟩ := (encode_apply hfills hout).1 hfits
    have hread := hdecode (hfits.trans_lt (by decide)) []
    rw [List.append_nil, hsame] at hread
    exact ⟨_, _, hencode, hread⟩

/-- The defaults are in range. -/
theorem inRange_default {maxAckDelay : ℕ} (h : maxAckDelay < 2 ^ 14) :
    InRange { default with maxAckDelay := maxAckDelay } := by
  constructor
  case originalConnectionId | statelessResetToken => exact fun _ hsome => by cases hsome
  case maxAckDelay => exact h
  all_goals
    dsimp only
    decide

/-- The default parameters survive. -/
theorem roundTrips_default : default.Survives true ↔
    default.ackDelayExponent ≠ 0 ∧ default.maxAckDelay ≠ 0 ∧ default.wireSize true ≤ paramsSize :=
  roundTrips_iff (@inRange_default 25 (by decide)) true

/-- A delay of zero becomes the default of 25 milliseconds. -/
theorem not_roundTrips : ¬ ∀ (tp : AnnouncedParams) (isServer : Bool), tp.InRange →
    tp.Survives isServer := by
  intro hall
  have hrange := @inRange_default 0 (by decide)
  obtain ⟨heq, -⟩ := (hall _ true hrange).received_eq hrange
  have hdelay := congrArg (·.maxAckDelay) heq
  cases hdelay

end AnnouncedParams

end Dtp
