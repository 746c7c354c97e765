import Mathlib.Data.List.ReduceOption
import SplitEsb.Central.Input
import SplitEsb.Central.State

/-! # Split peripheral
What a peripheral notes before it sends an event, the totals it keeps, and the
snapshot it builds for a keepalive. -/

namespace SplitEsb

open ByteString BitTable SlotTable

/-- The build options of a peripheral, with the assertions its build makes: one
event and one full keepalive fit a payload, a payload length fits a byte, and a
batch holds at least two input events. -/
structure PeripheralConfig (L : EventLayout) where
  maxPayload : ℕ
  sensorsLen : ℕ
  heldKeysMax : ℕ
  lossyCodes : List (UInt8 × UInt16)
  maxPayload_le : maxPayload ≤ 255
  event_fits : ∀ type, 1 + payloadSize L type ≤ maxPayload
  keepalive_fits : esbKeepaliveLength heldKeysMax lossyCodes.length sensorsLen ≤ maxPayload
  batch_fits : 2 ≤ maxPayload / esbWireInputEventSize

variable {L : EventLayout}

def PeripheralConfig.esbBatchMax (config : PeripheralConfig L) : ℕ :=
  config.maxPayload / esbWireInputEventSize

theorem PeripheralConfig.esbBatchMax_pos (config : PeripheralConfig L) : 0 < config.esbBatchMax :=
  Nat.lt_of_lt_of_le (by decide) config.batch_fits

def PeripheralConfig.motionSlotCount (config : PeripheralConfig L) : ℕ :=
  max config.lossyCodes.length 1

def PeripheralConfig.inputIsLossy (config : PeripheralConfig L)
    (inputType : UInt8) (inputCode : UInt16) : Bool :=
  config.lossyCodes.any fun pair => pair.1 = inputType && pair.2 = inputCode

/-- The input events waiting for a flush; between reports there is room for one more. -/
structure EsbBatch (config : PeripheralConfig L) where
  events : List InputEvent
  wantsAck : Bool
  count_lt : events.length < config.esbBatchMax

/-- A packet handed to the radio, and whether it asks for an acknowledgement. -/
structure UplinkPacket where
  data : Bytes
  ack : Bool

/-- The peripheral's state. The three tables keep the sizes they are built with. -/
structure Peripheral (config : PeripheralConfig L) where
  pressedPositions : PositionBitmap
  sensorTotalUdeg : List Int64
  heldInputKeys : Slots EsbKeepaliveHeldKey Unit
  motionSlots : Slots (UInt8 × UInt8) Int32
  batch : EsbBatch config
  sensorTotalUdeg_length : sensorTotalUdeg.length = config.sensorsLen
  heldInputKeys_length : heldInputKeys.length = config.heldKeysMax
  motionSlots_length : motionSlots.length = config.motionSlotCount

def Peripheral.init (config : PeripheralConfig L) : Peripheral config where
  pressedPositions := Vector.replicate _ 0
  sensorTotalUdeg := List.replicate config.sensorsLen 0
  heldInputKeys := List.replicate config.heldKeysMax none
  motionSlots := List.replicate config.motionSlotCount none
  batch := ⟨[], false, config.esbBatchMax_pos⟩
  sensorTotalUdeg_length := List.length_replicate
  heldInputKeys_length := List.length_replicate
  motionSlots_length := List.length_replicate

/-! ## Held input keys -/

def heldEntryAdd (slots : Slots EsbKeepaliveHeldKey Unit) (key : EsbKeepaliveHeldKey) :
    Slots EsbKeepaliveHeldKey Unit :=
  if (lookup key slots).isSome then slots else (insertFree key () slots).getD slots

theorem length_heldEntryAdd (slots : Slots EsbKeepaliveHeldKey Unit) (key : EsbKeepaliveHeldKey) :
    (heldEntryAdd slots key).length = slots.length := by
  rw [heldEntryAdd]
  split_ifs
  · rfl
  · cases hinsert : insertFree key () slots with
    | none => rfl
    | some slots' => exact length_insertFree hinsert

namespace Peripheral

variable {config : PeripheralConfig L}

def inputNoteEvent (peripheral : Peripheral config) (event : InputEvent) : Peripheral config :=
  if event.type ≠ inputEvKey then peripheral
  else
    let key : EsbKeepaliveHeldKey := ⟨event.reg, event.code⟩
    if event.value ≠ 0 then
      { peripheral with
        heldInputKeys := heldEntryAdd peripheral.heldInputKeys key
        heldInputKeys_length := by rw [length_heldEntryAdd, peripheral.heldInputKeys_length] }
    else
      { peripheral with
        heldInputKeys := release key peripheral.heldInputKeys
        heldInputKeys_length := by rw [length_release, peripheral.heldInputKeys_length] }

/-- `peripheral_input_held_keys`. -/
def inputHeldKeys (peripheral : Peripheral config) : List EsbKeepaliveHeldKey :=
  peripheral.heldInputKeys.reduceOption.map Prod.fst

/-! ## Events that carry totals -/

def noteKeyEvent (peripheral : Peripheral config) (position : ℕ) (pressed : Bool) :
    Peripheral config :=
  { peripheral with
    pressedPositions := setBit peripheral.pressedPositions (position % 256) pressed }

def sensorEventToTotal (peripheral : Peripheral config) (event : Vector UInt8 L.sensorSize) :
    Peripheral config × Vector UInt8 L.sensorSize :=
  let sensorIndex := (L.sensorIndex event).toNat
  match peripheral.sensorTotalUdeg[sensorIndex]? with
  | none => (peripheral, event)
  | some last =>
      let total := last + esbSensorUdeg (L.sensorVal1 event) (L.sensorVal2 event)
      ({ peripheral with
          sensorTotalUdeg := peripheral.sensorTotalUdeg.set sensorIndex total
          sensorTotalUdeg_length := by rw [List.length_set, peripheral.sensorTotalUdeg_length] },
        L.sensorWithValue event (esbSensorUdegVal1 total) (esbSensorUdegVal2 total))

/-- Notes an event and encodes it for the wire buffer, which fits any event. -/
def encodeEvent (peripheral : Peripheral config) :
    PeripheralEvent L → Peripheral config × Option Bytes
  | .keyPosition event =>
      (peripheral.noteKeyEvent (L.position event) (L.pressed event),
        esbWireEncodeEvent config.maxPayload (.keyPosition event))
  | .sensor event =>
      let (peripheral, event) := peripheral.sensorEventToTotal event
      (peripheral, esbWireEncodeEvent config.maxPayload (.sensor event))
  | .input event =>
      (peripheral.inputNoteEvent event,
        esbWireEncodeEvent config.maxPayload (.input event : PeripheralEvent L))
  | .battery event => (peripheral, esbWireEncodeEvent config.maxPayload (.battery event))

end Peripheral

/-! ## Motion totals -/

/-- Finds the slot of an axis or claims the first unclaimed slot, whichever the
scan meets first. -/
def motionSlotFor (axis : UInt8 × UInt8) : Slots (UInt8 × UInt8) Int32 →
    Option (Slots (UInt8 × UInt8) Int32 × Int32)
  | [] => none
  | none :: slots => some (some (axis, 0) :: slots, 0)
  | some (claimed, total) :: slots =>
      if claimed = axis then some (some (claimed, total) :: slots, total)
      else (motionSlotFor axis slots).map fun (slots, found) =>
        (some (claimed, total) :: slots, found)

theorem length_motionSlotFor {axis : UInt8 × UInt8} {slots slots' : Slots (UInt8 × UInt8) Int32}
    {total : Int32} (h : motionSlotFor axis slots = some (slots', total)) :
    slots'.length = slots.length := by
  induction slots generalizing slots' with
  | nil => cases h
  | cons slot slots ih =>
      cases slot with
      | none =>
          cases h
          rfl
      | some entry =>
          obtain ⟨claimed, last⟩ := entry
          rw [motionSlotFor] at h
          split_ifs at h
          · cases h
            rfl
          · obtain ⟨⟨rest, found⟩, hrest, heq⟩ := Option.map_eq_some_iff.mp h
            cases heq
            rw [List.length_cons, List.length_cons, ih hrest]

def motionRecord (slot : (UInt8 × UInt8) × Int32) : EsbKeepaliveMotionTotal where
  reg := slot.1.1
  code := slot.1.2
  shortTotal := slot.2.toInt16

def motionTotalsSnapshot (slots : Slots (UInt8 × UInt8) Int32) : List EsbKeepaliveMotionTotal :=
  slots.reduceOption.map motionRecord

/-! ## Batching -/

/-- Encodes the buffered events one behind the other. -/
def batchWire (config : PeripheralConfig L) (events : List InputEvent) : Bytes :=
  events.foldl (fun wire event =>
    wire ++ (esbWireEncodeEvent (config.maxPayload - wire.length)
      (.input event : PeripheralEvent L)).getD []) []

def batchFlush (config : PeripheralConfig L) (events : List InputEvent) (wantsAck : Bool) :
    List UplinkPacket :=
  if events = [] then [] else [⟨batchWire config events, wantsAck⟩]

def batchFlushDue (config : PeripheralConfig L) (events : List InputEvent) (event : InputEvent) :
    Bool :=
  if event.sync &&& esbWireInputSync ≠ 0 then true
  else if event.type = inputEvKey then true
  else config.esbBatchMax ≤ events.length

theorem length_lt_of_not_batchFlushDue {config : PeripheralConfig L} {events : List InputEvent}
    {event : InputEvent} (h : batchFlushDue config events event = false) :
    events.length < config.esbBatchMax := by
  rw [batchFlushDue] at h
  split_ifs at h
  exact Nat.lt_of_not_le (of_decide_eq_false h)

def batchReportEvent {config : PeripheralConfig L} (batch : EsbBatch config) (event : InputEvent)
    (wantsAck : Bool) : EsbBatch config × List UplinkPacket :=
  let events := batch.events ++ [event]
  let wantsAck := batch.wantsAck || wantsAck
  match h : batchFlushDue config events event with
  | true => (⟨[], false, config.esbBatchMax_pos⟩, batchFlush config events wantsAck)
  | false => (⟨events, wantsAck, length_lt_of_not_batchFlushDue h⟩, [])

namespace Peripheral

variable {config : PeripheralConfig L}

/-- Replaces an increment by the running total of its axis and flags it. -/
def motionToTotal (peripheral : Peripheral config) (event : InputEvent) :
    Peripheral config × InputEvent :=
  if event.type ≠ inputEvRel ∨ 255 < event.code.toNat then (peripheral, event)
  else
    let axis := (event.reg, event.code.toUInt8)
    match h : motionSlotFor axis peripheral.motionSlots with
    | none => (peripheral, event)
    | some (slots, last) =>
        let total := esbMotionTotalAdd last event.value
        ({ peripheral with
            motionSlots := store axis total slots
            motionSlots_length := by
              rw [length_store, length_motionSlotFor h, peripheral.motionSlots_length] },
          { event with value := total, sync := event.sync ||| esbWireInputTotal })

/-! ## Reports and keepalives -/

/-- The state after an event is reported and the packets handed to the radio. -/
def reportEvent (peripheral : Peripheral config) :
    PeripheralEvent L → Peripheral config × List UplinkPacket
  | .input event =>
      let peripheral := peripheral.inputNoteEvent event
      let wantsAck := !config.inputIsLossy event.type event.code
      let (peripheral, sent) :=
        if wantsAck then (peripheral, event) else peripheral.motionToTotal event
      let (batch, packets) := batchReportEvent peripheral.batch sent wantsAck
      ({ peripheral with batch := batch }, packets)
  | event =>
      let (peripheral, wire) := peripheral.encodeEvent event
      (peripheral, wire.toList.map fun data => ⟨data, true⟩)

theorem heldKeysMax_lt (config : PeripheralConfig L) : config.heldKeysMax < 256 := by
  have hfits := config.keepalive_fits
  have hmax := config.maxPayload_le
  rw [esbKeepaliveLength_eq] at hfits
  omega

theorem motionSlotCount_lt (config : PeripheralConfig L) : config.motionSlotCount < 256 := by
  have hfits := config.keepalive_fits
  have hmax := config.maxPayload_le
  rw [esbKeepaliveLength_eq] at hfits
  rw [PeripheralConfig.motionSlotCount]
  omega

theorem sensorsLen_lt (config : PeripheralConfig L) : config.sensorsLen < 256 := by
  have hfits := config.keepalive_fits
  have hmax := config.maxPayload_le
  rw [esbKeepaliveLength_eq] at hfits
  omega

/-- The snapshot a keepalive carries, given the motion totals read for it. -/
def keepaliveSnapshot (peripheral : Peripheral config) (state linkCostX10 batteryLevel : UInt8)
    (motionTotals : List EsbKeepaliveMotionTotal)
    (hmotion : motionTotals.length ≤ config.motionSlotCount) : EsbKeepaliveSnapshot where
  state := state
  linkCostX10 := linkCostX10
  batteryLevel := batteryLevel
  positionBitmap := peripheral.pressedPositions
  heldKeys := peripheral.inputHeldKeys
  motionTotals := motionTotals
  sensorTotalsUdeg := peripheral.sensorTotalUdeg
  heldCount_lt := by
    have hlen := List.reduceOption_length_le peripheral.heldInputKeys
    rw [peripheral.heldInputKeys_length] at hlen
    rw [inputHeldKeys, List.length_map]
    exact Nat.lt_of_le_of_lt hlen (heldKeysMax_lt config)
  motionCount_lt := Nat.lt_of_le_of_lt hmotion (motionSlotCount_lt config)
  sensorCount_lt := by
    rw [peripheral.sensorTotalUdeg_length]
    exact sensorsLen_lt config

/-- The packet of a keepalive; none when nothing is sent. -/
def keepaliveFill (peripheral : Peripheral config) (state linkCostX10 batteryLevel : UInt8)
    (motionTotals : List EsbKeepaliveMotionTotal)
    (hmotion : motionTotals.length ≤ config.motionSlotCount) : Option UplinkPacket :=
  let (length, out) := esbKeepaliveEncode (List.replicate config.maxPayload 0)
    (peripheral.keepaliveSnapshot state linkCostX10 batteryLevel motionTotals hmotion)
  if length = 0 then none else some ⟨out.take length, true⟩

theorem motionTotalsSnapshot_length_le (peripheral : Peripheral config) :
    (motionTotalsSnapshot peripheral.motionSlots).length ≤ config.motionSlotCount := by
  rw [motionTotalsSnapshot, List.length_map, ← peripheral.motionSlots_length]
  exact List.reduceOption_length_le _

/-- The keepalive of a tick that reads every motion slot at one moment. -/
def esbLinkKeepaliveFill (peripheral : Peripheral config)
    (state linkCostX10 batteryLevel : UInt8) : Option UplinkPacket :=
  peripheral.keepaliveFill state linkCostX10 batteryLevel
    (motionTotalsSnapshot peripheral.motionSlots) peripheral.motionTotalsSnapshot_length_le

end Peripheral

end SplitEsb
