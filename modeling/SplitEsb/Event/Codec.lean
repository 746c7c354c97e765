import SplitEsb.Keepalive.Codec

/-! # Event codec
Split peripheral events on the air: a type byte and a payload. Key, sensor and
battery events copy their struct member verbatim, input events are repacked. -/

namespace SplitEsb

open ByteString

/-! ## Control packets that share the uplink -/

def esbHostIndicatorsTag : UInt8 := 0xFC
def esbHostIndicatorsLength : ℕ := 2
def esbRelayPollTag : UInt8 := 0xFB
def esbRelayPollLength : ℕ := 1

def esbIsHostIndicators (data : Bytes) : Bool :=
  if data.length ≠ esbHostIndicatorsLength then false
  else byteAt data 0 == esbHostIndicatorsTag

def esbIsRelayPoll (data : Bytes) : Bool :=
  if data.length ≠ esbRelayPollLength then false
  else byteAt data 0 == esbRelayPollTag

/-! ## Events -/

def inputWireSize : ℕ := 9
def esbWireInputEventSize : ℕ := 10

/-- ZMK's event struct as compiled: the enumerators of the four event types, the
sizes of the union members that travel verbatim, and the fields read from them.
`tags_lt` is the build assertion that keeps event types below the control tags. -/
structure EventLayout where
  keyPositionType : UInt8
  sensorType : UInt8
  inputType : UInt8
  batteryType : UInt8
  keyPositionSize : ℕ
  sensorSize : ℕ
  batterySize : ℕ
  types_nodup : [keyPositionType, sensorType, inputType, batteryType].Nodup
  types_lt : ∀ type ∈ [keyPositionType, sensorType, inputType, batteryType], type < esbRelayPollTag
  sizes_uint8 : ∀ size ∈ [keyPositionSize, sensorSize, batterySize], 0 < size ∧ size < 256
  position : Vector UInt8 keyPositionSize → ℕ
  pressed : Vector UInt8 keyPositionSize → Bool
  keyPositionEvent : ℕ → Bool → Vector UInt8 keyPositionSize
  position_keyPositionEvent : ∀ p < esbKeepalivePositionCount, ∀ b,
    position (keyPositionEvent p b) = p
  pressed_keyPositionEvent : ∀ p b, pressed (keyPositionEvent p b) = b
  sensorIndex : Vector UInt8 sensorSize → UInt8
  sensorVal1 : Vector UInt8 sensorSize → Int32
  sensorVal2 : Vector UInt8 sensorSize → Int32
  sensorWithValue : Vector UInt8 sensorSize → Int32 → Int32 → Vector UInt8 sensorSize
  sensorWithValue_fields : ∀ event a b, sensorIndex (sensorWithValue event a b) = sensorIndex event ∧
    sensorVal1 (sensorWithValue event a b) = a ∧ sensorVal2 (sensorWithValue event a b) = b
  rotationEvent : UInt8 → Int32 → Int32 → Vector UInt8 sensorSize
  rotationEvent_fields : ∀ index a b, sensorIndex (rotationEvent index a b) = index ∧
    sensorVal1 (rotationEvent index a b) = a ∧ sensorVal2 (rotationEvent index a b) = b
  batteryLevel : Vector UInt8 batterySize → UInt8

structure InputEvent where
  reg : UInt8
  sync : UInt8
  type : UInt8
  code : UInt16
  value : Int32
  deriving DecidableEq, Repr

inductive PeripheralEvent (L : EventLayout) where
  | keyPosition (event : Vector UInt8 L.keyPositionSize)
  | sensor (event : Vector UInt8 L.sensorSize)
  | input (event : InputEvent)
  | battery (event : Vector UInt8 L.batterySize)
  deriving DecidableEq

variable {L : EventLayout}

def PeripheralEvent.type : PeripheralEvent L → UInt8
  | .keyPosition _ => L.keyPositionType
  | .sensor _ => L.sensorType
  | .input _ => L.inputType
  | .battery _ => L.batteryType

def PeripheralEvent.IsKey : PeripheralEvent L → Prop
  | .keyPosition _ => True
  | _ => False

def PeripheralEvent.IsInput : PeripheralEvent L → Prop
  | .input _ => True
  | _ => False

/-- On-air payload size of an event type, 0 for a type that is not an event. -/
def payloadSize (L : EventLayout) (type : UInt8) : ℕ :=
  if type = L.keyPositionType then L.keyPositionSize
  else if type = L.sensorType then L.sensorSize
  else if type = L.inputType then inputWireSize
  else if type = L.batteryType then L.batterySize
  else 0

/-! ## Encoder -/

def InputEvent.wire (event : InputEvent) : Bytes :=
  event.reg :: event.sync :: event.type :: (le16 event.code ++ le32 event.value.toUInt32)

def PeripheralEvent.payload : PeripheralEvent L → Bytes
  | .keyPosition event => event.toList
  | .sensor event => event.toList
  | .input event => event.wire
  | .battery event => event.toList

/-- The bytes written; none stands for the return value 0. -/
def esbWireEncodeEvent (outCap : ℕ) (event : PeripheralEvent L) : Option Bytes :=
  let size := payloadSize L event.type
  if size = 0 then none
  else if outCap < 1 + size then none
  else some (event.type :: event.payload)

/-! ## Decoder -/

def objectAt (data : Bytes) (size : ℕ) : Vector UInt8 size :=
  Vector.ofFn fun i => byteAt data i.val

def InputEvent.ofWire (data : Bytes) : InputEvent where
  reg := byteAt data 0
  sync := byteAt data 1
  type := byteAt data 2
  code := getLe16 data 3
  value := (getLe32 data 5).toInt32

/-- The bytes consumed and the event; none stands for the return value 0. -/
def esbWireDecodeEvent (L : EventLayout) (input : Bytes) : Option (ℕ × PeripheralEvent L) :=
  match input with
  | [] => none
  | type :: payload =>
      let size := payloadSize L type
      if size = 0 then none
      else if payload.length < size then none
      else if type = L.inputType then some (1 + size, .input (.ofWire payload))
      else if type = L.keyPositionType then some (1 + size, .keyPosition (objectAt payload _))
      else if type = L.sensorType then some (1 + size, .sensor (objectAt payload _))
      else some (1 + size, .battery (objectAt payload _))

theorem esbWireDecodeEvent_consumed {input : Bytes} {consumed : ℕ} {event : PeripheralEvent L}
    (h : esbWireDecodeEvent L input = some (consumed, event)) :
    0 < consumed ∧ consumed ≤ input.length := by
  cases input with
  | nil => cases h
  | cons type payload =>
      simp only [esbWireDecodeEvent] at h
      split_ifs at h with hzero hshort <;>
        (cases h; rw [List.length_cons]; omega)

/-! ## Coalesced packets -/

section Ingest

variable {σ : Type*}

/-- The decode loop: events are dispatched in order until the packet ends or an
undecodable event drops the rest. -/
def ingestEvents (dispatch : σ → PeripheralEvent L → σ) (data : Bytes) (offset : ℕ) (state : σ) :
    σ :=
  if offset < data.length then
    match _h : esbWireDecodeEvent L (data.drop offset) with
    | none => state
    | some (consumed, event) => ingestEvents dispatch data (offset + consumed) (dispatch state event)
  else state
termination_by data.length - offset
decreasing_by
  have := (esbWireDecodeEvent_consumed _h).1
  omega

/-- What the central does with a packet, given what each kind of packet does to its state. -/
def centralIngestPacket (applyHostIndicators : σ → UInt8 → σ) (ingestKeepalive : σ → Bytes → σ)
    (dispatch : σ → PeripheralEvent L → σ) (state : σ) (data : Bytes) : σ :=
  if esbIsHostIndicators data then applyHostIndicators state (byteAt data 1)
  else if esbKeepaliveMatches data (UInt8.ofNat data.length) then ingestKeepalive state data
  else ingestEvents dispatch data 0 state

end Ingest

end SplitEsb
