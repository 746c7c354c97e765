import SplitEsb.Event.RoundTrip
import SplitEsb.Keepalive.RoundTrip
import SplitEsb.Peripheral.State

/-! # Packets of a split peripheral
Every report leaves as whole encoded events and every keepalive as one whole
encoded snapshot. -/

namespace SplitEsb

open ByteString BitTable

variable {L : EventLayout}

/-! ## Events -/

/-- The wire buffer of a single event fits any event. -/
theorem esbWireEncodeEvent_maxPayload (config : PeripheralConfig L) (event : PeripheralEvent L) :
    esbWireEncodeEvent config.maxPayload event = some event.encoding := by
  have hfits := config.event_fits event.type
  rw [esbWireEncodeEvent_eq, encoding_length_event, if_pos hfits]

theorem input_encoding_length (event : InputEvent) :
    (PeripheralEvent.input event : PeripheralEvent L).encoding.length = esbWireInputEventSize := by
  change (event.wire).length + 1 = _
  rw [inputEvent_wire_length]
  rfl

/-- A batch that fits is written whole, behind what the buffer already holds. -/
theorem batchWire_foldl (config : PeripheralConfig L) (events : List InputEvent) (wire : Bytes)
    (h : wire.length + events.length * esbWireInputEventSize ≤ config.maxPayload) :
    events.foldl (fun wire event => wire ++ (esbWireEncodeEvent (config.maxPayload - wire.length)
      (.input event : PeripheralEvent L)).getD []) wire =
      wire ++ (events.map (PeripheralEvent.input (L := L))).flatMap PeripheralEvent.encoding := by
  induction events generalizing wire with
  | nil => simp
  | cons event events ih =>
      have hlen := @input_encoding_length L event
      rw [List.length_cons, Nat.succ_mul] at h
      have hencode : esbWireEncodeEvent (config.maxPayload - wire.length)
          (.input event : PeripheralEvent L) =
            some (PeripheralEvent.input event : PeripheralEvent L).encoding := by
        rw [esbWireEncodeEvent_eq, if_pos (by omega)]
      rw [List.foldl_cons, hencode, Option.getD_some, ih _ (by rw [List.length_append]; omega),
        List.map_cons, List.flatMap_cons, List.append_assoc]

theorem batchWire_eq {config : PeripheralConfig L} {events : List InputEvent}
    (h : events.length ≤ config.esbBatchMax) :
    batchWire config events =
      (events.map (PeripheralEvent.input (L := L))).flatMap PeripheralEvent.encoding := by
  have hfits : events.length * esbWireInputEventSize ≤ config.maxPayload :=
    (Nat.mul_le_mul_right _ h).trans (Nat.div_mul_le_self _ _)
  rw [batchWire, batchWire_foldl config events [] (by simpa using hfits)]
  rfl

/-- A report either joins the batch or flushes it, the new event last. -/
theorem batchReportEvent_cases {config : PeripheralConfig L} (batch : EsbBatch config)
    (event : InputEvent) (wantsAck : Bool) :
    ((batchReportEvent batch event wantsAck).1.events = batch.events ++ [event] ∧
      (batchReportEvent batch event wantsAck).2 = []) ∨
    ((batchReportEvent batch event wantsAck).1.events = [] ∧
      (batchReportEvent batch event wantsAck).2 =
        [⟨((batch.events ++ [event]).map (PeripheralEvent.input (L := L))).flatMap
          PeripheralEvent.encoding, batch.wantsAck || wantsAck⟩]) := by
  rw [batchReportEvent]
  split
  · right
    refine ⟨rfl, ?_⟩
    have hfits : (batch.events ++ [event]).length ≤ config.esbBatchMax := by
      rw [List.length_append, List.length_singleton]
      exact batch.count_lt
    dsimp only
    rw [batchFlush, if_neg (by simp), batchWire_eq hfits]
  · exact Or.inl ⟨rfl, rfl⟩

/-! ## Reports -/

variable {config : PeripheralConfig L}

theorem reportEvent_keyPosition (peripheral : Peripheral config)
    (event : Vector UInt8 L.keyPositionSize) :
    peripheral.reportEvent (.keyPosition event) =
      (peripheral.noteKeyEvent (L.position event) (L.pressed event),
        [⟨(PeripheralEvent.keyPosition event).encoding, true⟩]) := by
  rw [Peripheral.reportEvent]
  · rw [Peripheral.encodeEvent, esbWireEncodeEvent_maxPayload]
    rfl
  · intro event h
    cases h

theorem reportEvent_sensor (peripheral : Peripheral config) (event : Vector UInt8 L.sensorSize) :
    peripheral.reportEvent (.sensor event) =
      ((peripheral.sensorEventToTotal event).1,
        [⟨(PeripheralEvent.sensor (peripheral.sensorEventToTotal event).2).encoding, true⟩]) := by
  rw [Peripheral.reportEvent]
  · rw [Peripheral.encodeEvent]
    dsimp only
    rw [esbWireEncodeEvent_maxPayload]
    rfl
  · intro _ h
    cases h

theorem reportEvent_battery (peripheral : Peripheral config)
    (event : Vector UInt8 L.batterySize) :
    peripheral.reportEvent (.battery event) =
      (peripheral, [⟨(PeripheralEvent.battery event).encoding, true⟩]) := by
  rw [Peripheral.reportEvent]
  · rw [Peripheral.encodeEvent, esbWireEncodeEvent_maxPayload]
    rfl
  · intro _ h
    cases h

theorem motionToTotal_keeps (peripheral : Peripheral config) (event : InputEvent) :
    (peripheral.motionToTotal event).1.pressedPositions = peripheral.pressedPositions ∧
      (peripheral.motionToTotal event).1.sensorTotalUdeg = peripheral.sensorTotalUdeg := by
  rw [Peripheral.motionToTotal]
  split_ifs
  · exact ⟨rfl, rfl⟩
  · dsimp only
    split <;> exact ⟨rfl, rfl⟩

theorem inputNoteEvent_keeps (peripheral : Peripheral config) (event : InputEvent) :
    (peripheral.inputNoteEvent event).pressedPositions = peripheral.pressedPositions ∧
      (peripheral.inputNoteEvent event).sensorTotalUdeg = peripheral.sensorTotalUdeg := by
  rw [Peripheral.inputNoteEvent]
  dsimp only
  split_ifs <;> exact ⟨rfl, rfl⟩

/-- An input event leaves the pressed positions and the sensor totals alone. -/
theorem reportEvent_input_keeps (peripheral : Peripheral config) (event : InputEvent) :
    (peripheral.reportEvent (.input event)).1.pressedPositions = peripheral.pressedPositions ∧
      (peripheral.reportEvent (.input event)).1.sensorTotalUdeg = peripheral.sensorTotalUdeg := by
  obtain ⟨hpressed, htotals⟩ := inputNoteEvent_keeps peripheral event
  rw [Peripheral.reportEvent]
  split_ifs
  · exact ⟨hpressed, htotals⟩
  · obtain ⟨hpressed', htotals'⟩ := motionToTotal_keeps (peripheral.inputNoteEvent event) event
    exact ⟨hpressed'.trans hpressed, htotals'.trans htotals⟩

theorem sensorEventToTotal_pressedPositions (peripheral : Peripheral config)
    (event : Vector UInt8 L.sensorSize) :
    (peripheral.sensorEventToTotal event).1.pressedPositions = peripheral.pressedPositions := by
  rw [Peripheral.sensorEventToTotal]
  dsimp only
  split <;> rfl

/-- A report that is no key event leaves the pressed positions alone. -/
theorem reportEvent_pressedPositions (peripheral : Peripheral config) {event : PeripheralEvent L}
    (h : ¬event.IsKey) :
    (peripheral.reportEvent event).1.pressedPositions = peripheral.pressedPositions := by
  cases event with
  | keyPosition event => exact absurd trivial h
  | sensor event => exact sensorEventToTotal_pressedPositions peripheral event
  | battery event => rfl
  | input event => exact (reportEvent_input_keeps peripheral event).1

/-- Whole encoded events, none of them a key event. -/
def CarriesNoKey (L : EventLayout) (data : Bytes) : Prop :=
  ∃ events : List (PeripheralEvent L), data = events.flatMap PeripheralEvent.encoding ∧
    ∀ event ∈ events, ¬event.IsKey

theorem carriesNoKey_single {event : PeripheralEvent L} (h : ¬event.IsKey) :
    CarriesNoKey L event.encoding :=
  ⟨[event], by simp, fun e he => by rw [List.mem_singleton.mp he]; exact h⟩

/-- A flushed batch is a packet of input events. -/
theorem batchReportEvent_carries (batch : EsbBatch config) (event : InputEvent) (wantsAck : Bool) :
    ∀ packet ∈ (batchReportEvent batch event wantsAck).2, ∃ inputs : List InputEvent,
      packet.data = (inputs.map (PeripheralEvent.input (L := L))).flatMap
        PeripheralEvent.encoding := by
  intro packet hpacket
  rcases batchReportEvent_cases batch event wantsAck with ⟨-, hnone⟩ | ⟨-, hflush⟩
  · rw [hnone] at hpacket
    cases hpacket
  · rw [hflush] at hpacket
    rw [List.mem_singleton.mp hpacket]
    exact ⟨_, rfl⟩

theorem reportEvent_carriesNoKey (peripheral : Peripheral config) {event : PeripheralEvent L}
    (h : ¬event.IsKey) : ∀ packet ∈ (peripheral.reportEvent event).2,
      CarriesNoKey L packet.data := by
  intro packet hpacket
  cases event with
  | keyPosition event => exact absurd trivial h
  | sensor event =>
      rw [reportEvent_sensor] at hpacket
      rw [List.mem_singleton.mp hpacket]
      exact carriesNoKey_single id
  | battery event =>
      rw [reportEvent_battery] at hpacket
      rw [List.mem_singleton.mp hpacket]
      exact carriesNoKey_single id
  | input event =>
      rw [Peripheral.reportEvent] at hpacket
      obtain ⟨inputs, hdata⟩ := batchReportEvent_carries _ _ _ packet hpacket
      refine ⟨_, hdata, fun e he => ?_⟩
      obtain ⟨input, -, rfl⟩ := List.mem_map.mp he
      exact id

/-! ## Keepalives -/

/-- A keepalive that is sent carries the whole encoding of the snapshot. -/
theorem keepaliveFill_data {peripheral : Peripheral config}
    {state linkCostX10 batteryLevel : UInt8} {motionTotals : List EsbKeepaliveMotionTotal}
    {hmotion : motionTotals.length ≤ config.motionSlotCount} {packet : UplinkPacket}
    (h : peripheral.keepaliveFill state linkCostX10 batteryLevel motionTotals hmotion =
      some packet) :
    let snapshot := peripheral.keepaliveSnapshot state linkCostX10 batteryLevel motionTotals hmotion
    packet.data = snapshot.encoding ∧ snapshot.encodedLength ≤ 255 := by
  intro snapshot
  have hmax := config.maxPayload_le
  have hbuffer : (List.replicate config.maxPayload (0 : UInt8)).length = config.maxPayload :=
    List.length_replicate
  rw [Peripheral.keepaliveFill] at h
  by_cases hfit : snapshot.encodedLength ≤ config.maxPayload
  · have hpositive : snapshot.encodedLength ≠ 0 := by
      rw [snapshot.encodedLength_eq]
      omega
    rw [esbKeepaliveEncode_eq (by rw [hbuffer]; exact hfit)] at h
    dsimp only at h
    rw [if_neg hpositive] at h
    cases h
    refine ⟨?_, by omega⟩
    change (snapshot.encoding ++ _).take snapshot.encodedLength = _
    rw [← snapshot.encoding_length, List.take_left]
  · have hshort : (List.replicate config.maxPayload (0 : UInt8)).length <
        snapshot.encodedLength := by rw [hbuffer]; omega
    rw [esbKeepaliveEncode_short hshort] at h
    cases h

/-! ## A build for examples -/

def samplePeripheralConfig : PeripheralConfig zmkLayout where
  maxPayload := 64
  sensorsLen := 0
  heldKeysMax := 4
  lossyCodes := [(2, 0), (2, 1)]
  maxPayload_le := by decide
  event_fits type := by
    rw [payloadSize]
    split_ifs <;> decide
  keepalive_fits := by decide
  batch_fits := by decide

end SplitEsb
