import Dtp.Error
import Dtp.Octets

/-!
# Frames of HTTP/3

The payload of a frame is parsed once it has been buffered as a whole. The bytes of a frame of
unknown type are skipped.

## Main definitions

* `H3.Error` — the error codes of HTTP/3
* `H3.Frame`, `H3.Frame.fromBytes` — the frames, and how a payload is parsed
-/

namespace Dtp.H3

open Lib (Program)

/-- An HTTP/3 error. -/
inductive Error
  | done
  | bufferTooShort
  | internalError
  | excessiveLoad
  | idError
  | streamCreationError
  | closedCriticalStream
  | missingSettings
  | frameUnexpected
  | qpackDecompressionFailed
  | transportError (err : Dtp.Error)
  deriving DecidableEq, Repr

namespace Error

/-- The code that is sent when the error closes the connection. -/
def toWire : Error → ℕ
  | .done => 0x100
  | .internalError => 0x102
  | .streamCreationError => 0x103
  | .closedCriticalStream => 0x104
  | .frameUnexpected => 0x105
  | .excessiveLoad => 0x107
  | .idError => 0x108
  | .missingSettings => 0x10a
  | .qpackDecompressionFailed => 0x200
  | .bufferTooShort => 0x999
  | .transportError _ => 0xff

/-- The error for one of the transport. -/
def ofTransport : Dtp.Error → Error
  | .done => .done
  | err => .transportError err

end Error

/-- The type of DATA frames. -/
@[match_pattern] abbrev dataFrameTypeId : ℕ := 0x0

/-- The type of HEADERS frames. -/
@[match_pattern] abbrev headersFrameTypeId : ℕ := 0x1

/-- The type of CANCEL_PUSH frames. -/
@[match_pattern] abbrev cancelPushFrameTypeId : ℕ := 0x3

/-- The type of SETTINGS frames. -/
@[match_pattern] abbrev settingsFrameTypeId : ℕ := 0x4

/-- The type of PUSH_PROMISE frames. -/
@[match_pattern] abbrev pushPromiseFrameTypeId : ℕ := 0x5

/-- The type of GOAWAY frames. -/
@[match_pattern] abbrev goawayFrameTypeId : ℕ := 0x6

/-- The type of MAX_PUSH_ID frames. -/
@[match_pattern] abbrev maxPushFrameTypeId : ℕ := 0xd

/-- The type of DUPLICATE_PUSH frames. -/
@[match_pattern] abbrev duplicatePushFrameTypeId : ℕ := 0xe

/-- The settings in a SETTINGS frame. -/
structure Settings where
  maxHeaderListSize : Option ℕ
  qpackMaxTableCapacity : Option ℕ
  qpackBlockedStreams : Option ℕ
  deriving DecidableEq, Repr

/-- A frame of HTTP/3. -/
inductive Frame
  | data (payload : List UInt8)
  | headers (headerBlock : List UInt8)
  | cancelPush (pushId : ℕ)
  | settings (settings : Settings)
  | pushPromise (pushId : ℕ) (headerBlock : List UInt8)
  | goAway (streamId : ℕ)
  | maxPushId (pushId : ℕ)
  | duplicatePush (pushId : ℕ)
  | unknown
  deriving DecidableEq, Repr

namespace Frame

open Octets

/-- Reads settings up to the length of the frame. -/
def parseSettings (settingsLength : ℕ) : ℕ → Settings → Program Dtp.Error Octets Settings
  | 0, _ => throw .hang
  | fuel + 1, known => do
    if (← get).before.length < settingsLength then
      let settingTy ← getVarint
      let settingsVal ← getVarint
      parseSettings settingsLength fuel
        (match settingTy with
          | 0x1 => { known with qpackMaxTableCapacity := some settingsVal }
          | 0x6 => { known with maxHeaderListSize := some settingsVal }
          | 0x7 => { known with qpackBlockedStreams := some settingsVal }
          -- Unknown Settings parameters must be ignored.
          | _ => known)
    else pure known

/-- Parses a promise: the push id, and the header block in what is left of the payload. -/
def parsePushPromise (payloadLength : ℕ) : Program Dtp.Error Octets Frame := do
  let pushId ← getVarint
  let headerBlockLength ← Program.unwrapSub
    (if payloadLength < varintLen pushId then none else some (payloadLength - varintLen pushId))
  let headerBlock ← getBytes headerBlockLength
  pure (.pushPromise pushId headerBlock)

/-- Parses the payload of a frame. -/
def fromBytes (frameType payloadLength : ℕ) : Program Dtp.Error Octets Frame :=
  match frameType with
  | dataFrameTypeId => .data <$> getBytes payloadLength
  | headersFrameTypeId => .headers <$> getBytes payloadLength
  | cancelPushFrameTypeId => .cancelPush <$> getVarint
  | settingsFrameTypeId =>
    .settings <$> parseSettings payloadLength (payloadLength + 1) ⟨none, none, none⟩
  | pushPromiseFrameTypeId => parsePushPromise payloadLength
  | goawayFrameTypeId => .goAway <$> getVarint
  | maxPushFrameTypeId => .maxPushId <$> getVarint
  | duplicatePushFrameTypeId => .duplicatePush <$> getVarint
  | _ => pure .unknown

end Frame

end Dtp.H3
