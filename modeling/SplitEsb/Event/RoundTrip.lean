import SplitEsb.Event.Codec

/-! # Event packets round trip
One encoded event decodes to itself whatever follows it, so a packet of encoded
events decodes to their list, and any packet decodes its longest such prefix. -/

namespace SplitEsb

open ByteString

variable {L : EventLayout}

/-! ## One event -/

def PeripheralEvent.encoding (event : PeripheralEvent L) : Bytes := event.type :: event.payload

theorem inputEvent_wire_length (event : InputEvent) : event.wire.length = inputWireSize := by
  simp [InputEvent.wire]
  rfl

theorem payloadSize_pos_or_zero (type : UInt8) :
    0 < payloadSize L type ↔
      type ∈ [L.keyPositionType, L.sensorType, L.inputType, L.batteryType] := by
  have hkey := (L.sizes_uint8 L.keyPositionSize (by simp)).1
  have hsensor := (L.sizes_uint8 L.sensorSize (by simp)).1
  have hbattery := (L.sizes_uint8 L.batterySize (by simp)).1
  rw [payloadSize]
  split_ifs with h1 h2 h3 h4 <;> simp_all [inputWireSize]

theorem type_mem (event : PeripheralEvent L) :
    event.type ∈ [L.keyPositionType, L.sensorType, L.inputType, L.batteryType] := by
  cases event <;> simp [PeripheralEvent.type]

theorem type_lt (event : PeripheralEvent L) : event.type < esbRelayPollTag :=
  L.types_lt _ (type_mem event)

theorem payload_length (event : PeripheralEvent L) :
    event.payload.length = payloadSize L event.type := by
  have hnodup := L.types_nodup
  simp only [List.nodup_cons, List.mem_cons, List.not_mem_nil, or_false, not_or] at hnodup
  obtain ⟨⟨hks, hki, hkb⟩, ⟨hsi, hsb⟩, hib, -⟩ := hnodup
  cases event with
  | keyPosition event => simp [PeripheralEvent.payload, PeripheralEvent.type, payloadSize]
  | sensor event =>
      simp [PeripheralEvent.payload, PeripheralEvent.type, payloadSize, Ne.symm hks]
  | input event =>
      simp [PeripheralEvent.payload, PeripheralEvent.type, payloadSize, Ne.symm hki,
        Ne.symm hsi, inputEvent_wire_length]
  | battery event =>
      simp [PeripheralEvent.payload, PeripheralEvent.type, payloadSize, Ne.symm hkb,
        Ne.symm hsb, Ne.symm hib]

theorem payload_length_pos (event : PeripheralEvent L) : 0 < event.payload.length := by
  rw [payload_length]
  exact (payloadSize_pos_or_zero event.type).mpr (type_mem event)

theorem encoding_length_event (event : PeripheralEvent L) :
    event.encoding.length = 1 + payloadSize L event.type := by
  rw [PeripheralEvent.encoding, List.length_cons, payload_length, add_comm]

theorem esbWireEncodeEvent_eq (outCap : ℕ) (event : PeripheralEvent L) :
    esbWireEncodeEvent outCap event =
      if event.encoding.length ≤ outCap then some event.encoding else none := by
  have hpos := payload_length_pos event
  rw [payload_length] at hpos
  rw [esbWireEncodeEvent, encoding_length_event, if_neg (by omega)]
  by_cases h : 1 + payloadSize L event.type ≤ outCap
  · rw [if_neg (by omega), if_pos h]
    rfl
  · rw [if_pos (by omega), if_neg h]

theorem objectAt_toList {size : ℕ} (object : Vector UInt8 size) (rest : Bytes) :
    objectAt (object.toList ++ rest) size = object := by
  apply Vector.ext
  intro i hi
  have hlt : i < object.toList.length := by simpa using hi
  rw [objectAt, Vector.getElem_ofFn, byteAt_prefix hlt, byteAt, List.getD_eq_getElem?_getD,
    List.getElem?_eq_getElem hlt]
  simp

theorem inputEvent_ofWire (event : InputEvent) (rest : Bytes) :
    InputEvent.ofWire (event.wire ++ rest) = event := by
  have hcode : readAt (event.wire ++ rest) 3 2 = le16 event.code := by
    have hsplit : event.wire ++ rest = [event.reg, event.sync, event.type] ++
        (le16 event.code ++ (le32 event.value.toUInt32 ++ rest)) := by simp [InputEvent.wire]
    rw [hsplit]
    exact readAt_append_of_eq rfl (le16_length _).symm
  have hvalue : readAt (event.wire ++ rest) 5 4 = le32 event.value.toUInt32 := by
    have hsplit : event.wire ++ rest = ([event.reg, event.sync, event.type] ++ le16 event.code) ++
        (le32 event.value.toUInt32 ++ rest) := by simp [InputEvent.wire]
    rw [hsplit]
    exact readAt_append_of_eq (by simp) (le32_length _).symm
  rw [InputEvent.ofWire, getLe16_of_readAt hcode, getLe32_of_readAt hvalue]
  rfl

/-- An encoded event decodes to itself and consumes exactly its own bytes. -/
theorem esbWireDecodeEvent_encoding (event : PeripheralEvent L) (rest : Bytes) :
    esbWireDecodeEvent L (event.encoding ++ rest) = some (event.encoding.length, event) := by
  have hpos := payload_length_pos event
  have hsize := payload_length event
  have hnodup := L.types_nodup
  simp only [List.nodup_cons, List.mem_cons, List.not_mem_nil, or_false, not_or] at hnodup
  obtain ⟨⟨hks, hki, hkb⟩, ⟨hsi, hsb⟩, hib, -⟩ := hnodup
  rw [encoding_length_event, PeripheralEvent.encoding, List.cons_append]
  simp only [esbWireDecodeEvent]
  rw [if_neg (by omega), if_neg (by rw [List.length_append]; omega)]
  cases event with
  | keyPosition event =>
      rw [if_neg (show PeripheralEvent.type (.keyPosition event) ≠ L.inputType from hki),
        if_pos (show PeripheralEvent.type (.keyPosition event) = L.keyPositionType from rfl),
        PeripheralEvent.payload, objectAt_toList]
  | sensor event =>
      rw [if_neg (show PeripheralEvent.type (.sensor event) ≠ L.inputType from hsi),
        if_neg (show PeripheralEvent.type (.sensor event) ≠ L.keyPositionType from Ne.symm hks),
        if_pos (show PeripheralEvent.type (.sensor event) = L.sensorType from rfl),
        PeripheralEvent.payload, objectAt_toList]
  | input event =>
      rw [if_pos (show PeripheralEvent.type (.input event : PeripheralEvent L) = L.inputType
        from rfl), PeripheralEvent.payload, inputEvent_ofWire]
  | battery event =>
      rw [if_neg (show PeripheralEvent.type (.battery event) ≠ L.inputType from Ne.symm hib),
        if_neg (show PeripheralEvent.type (.battery event) ≠ L.keyPositionType from Ne.symm hkb),
        if_neg (show PeripheralEvent.type (.battery event) ≠ L.sensorType from Ne.symm hsb),
        PeripheralEvent.payload, objectAt_toList]

theorem toList_objectAt {payload : Bytes} {size : ℕ} (h : size ≤ payload.length) :
    (objectAt payload size).toList = payload.take size := by
  apply List.ext_getElem
  · simp [h]
  · intro i hi _
    have hlt : i < payload.length := by simp at hi; omega
    simp only [objectAt, Vector.getElem_toList, Vector.getElem_ofFn, List.getElem_take]
    rw [byteAt, List.getD_eq_getElem?_getD, List.getElem?_eq_getElem hlt]
    rfl

theorem inputEvent_wire_ofWire {payload : Bytes} (h : inputWireSize ≤ payload.length) :
    (InputEvent.ofWire payload).wire = payload.take inputWireSize := by
  have hlen : 9 ≤ payload.length := h
  have hsplit : readAt payload 0 9 = readAt payload 0 1 ++ (readAt payload 1 1 ++
      (readAt payload 2 1 ++ (readAt payload 3 2 ++ readAt payload 5 4))) := by
    rw [← readAt_add payload 3 2 4, ← readAt_add payload 2 1 6, ← readAt_add payload 1 1 7,
      ← readAt_add payload 0 1 8]
  change _ = readAt payload 0 9
  rw [hsplit, readAt_one (by omega), readAt_one (by omega), readAt_one (by omega),
    ← le16_getLe16 (by omega), ← le32_getLe32 (by omega)]
  rfl

theorem encoding_append_drop {type : UInt8} {payload : Bytes} {event : PeripheralEvent L}
    (htype : event.type = type) (hpayload : event.payload = payload.take (payloadSize L type)) :
    type :: payload = event.encoding ++ (type :: payload).drop (1 + payloadSize L type) := by
  rw [PeripheralEvent.encoding, htype, hpayload, add_comm, List.drop_succ_cons, List.cons_append,
    List.take_append_drop]

/-- Whatever decodes is the encoding of the event it decodes to. -/
theorem esbWireDecodeEvent_eq_some {input : Bytes} {consumed : ℕ} {event : PeripheralEvent L}
    (h : esbWireDecodeEvent L input = some (consumed, event)) :
    input = event.encoding ++ input.drop consumed := by
  cases input with
  | nil => cases h
  | cons type payload =>
      simp only [esbWireDecodeEvent] at h
      split_ifs at h with hzero hshort hinput hkey hsensor
      · have hsize : payloadSize L type = inputWireSize := by
          have := payload_length (.input (.ofWire payload) : PeripheralEvent L)
          rw [PeripheralEvent.payload, inputEvent_wire_length, PeripheralEvent.type,
            ← hinput] at this
          exact this.symm
        cases h
        refine encoding_append_drop hinput.symm ?_
        rw [PeripheralEvent.payload, hsize]
        exact inputEvent_wire_ofWire (by omega)
      · have hsize : payloadSize L type = L.keyPositionSize := by rw [payloadSize, if_pos hkey]
        cases h
        refine encoding_append_drop hkey.symm ?_
        rw [hsize]
        exact toList_objectAt (by omega)
      · have hsize : payloadSize L type = L.sensorSize := by
          rw [payloadSize, if_neg hkey, if_pos hsensor]
        cases h
        refine encoding_append_drop hsensor.symm ?_
        rw [hsize]
        exact toList_objectAt (by omega)
      · have hbattery : type = L.batteryType := by
          have hmem := (payloadSize_pos_or_zero type).mp (Nat.pos_of_ne_zero hzero)
          simpa [hinput, hkey, hsensor] using hmem
        have hsize : payloadSize L type = L.batterySize := by
          rw [payloadSize, if_neg hkey, if_neg hsensor, if_neg hinput, if_pos hbattery]
        cases h
        refine encoding_append_drop hbattery.symm ?_
        rw [hsize]
        exact toList_objectAt (by omega)

/-! ## Packets of events -/

/-- The events the decode loop finds in a packet. -/
def decodedEvents (L : EventLayout) (data : Bytes) : List (PeripheralEvent L) :=
  match _h : esbWireDecodeEvent L data with
  | none => []
  | some (consumed, event) => event :: decodedEvents L (data.drop consumed)
termination_by data.length
decreasing_by
  have := esbWireDecodeEvent_consumed _h
  rw [List.length_drop]
  omega

theorem decodedEvents_none {data : Bytes} (h : esbWireDecodeEvent L data = none) :
    decodedEvents L data = [] := by
  rw [decodedEvents]
  split
  · rfl
  · simp_all

theorem decodedEvents_some {data : Bytes} {consumed : ℕ} {event : PeripheralEvent L}
    (h : esbWireDecodeEvent L data = some (consumed, event)) :
    decodedEvents L data = event :: decodedEvents L (data.drop consumed) := by
  rw [decodedEvents]
  split
  · simp_all
  · simp_all

/-- The loop dispatches exactly the decoded events, in order. -/
theorem ingestEvents_eq_foldl {σ : Type*} (dispatch : σ → PeripheralEvent L → σ) (data : Bytes)
    (offset : ℕ) (state : σ) :
    ingestEvents dispatch data offset state =
      (decodedEvents L (data.drop offset)).foldl dispatch state := by
  fun_induction ingestEvents dispatch data offset state with
  | case1 offset state hlt hnone => rw [decodedEvents_none hnone]; rfl
  | case2 offset state hlt consumed event hsome ih =>
      rw [decodedEvents_some hsome, List.drop_drop, ih]
      rfl
  | case3 offset state hge =>
      rw [List.drop_eq_nil_of_le (by omega), decodedEvents_none (by rfl)]
      rfl

theorem decodedEvents_encodings (events : List (PeripheralEvent L)) (tail : Bytes) :
    decodedEvents L (events.flatMap PeripheralEvent.encoding ++ tail) =
      events ++ decodedEvents L tail := by
  induction events with
  | nil => rfl
  | cons event events ih =>
      rw [List.flatMap_cons, List.append_assoc,
        decodedEvents_some (esbWireDecodeEvent_encoding event _), List.drop_left, ih]
      rfl

theorem decodedEvents_flatMap (events : List (PeripheralEvent L)) :
    decodedEvents L (events.flatMap PeripheralEvent.encoding) = events := by
  have h := decodedEvents_encodings events []
  rw [List.append_nil] at h
  rw [h, @decodedEvents_none L [] rfl, List.append_nil]

/-- The decoded events are a prefix of the packet, and the loop stops where no
further event decodes. -/
theorem decodedEvents_prefix (data : Bytes) :
    ∃ tail, data = (decodedEvents L data).flatMap PeripheralEvent.encoding ++ tail ∧
      esbWireDecodeEvent L tail = none := by
  fun_induction decodedEvents L data with
  | case1 data hnone => exact ⟨data, rfl, hnone⟩
  | case2 data consumed event hsome ih =>
      obtain ⟨tail, htail, hstop⟩ := ih
      refine ⟨tail, ?_, hstop⟩
      rw [List.flatMap_cons, List.append_assoc, ← htail]
      exact esbWireDecodeEvent_eq_some hsome

/-- A packet filled by successive encoder calls, each given whatever room was left. -/
inductive Coalesced : List (PeripheralEvent L) → Bytes → Prop where
  | nil : Coalesced [] []
  | cons {event events bytes packet} (outCap : ℕ)
      (h : esbWireEncodeEvent outCap event = some bytes) :
      Coalesced events packet → Coalesced (event :: events) (bytes ++ packet)

theorem coalesced_iff (events : List (PeripheralEvent L)) (packet : Bytes) :
    Coalesced events packet ↔ packet = events.flatMap PeripheralEvent.encoding := by
  constructor
  · intro h
    induction h with
    | nil => rfl
    | cons outCap h _ ih =>
        rw [esbWireEncodeEvent_eq] at h
        split_ifs at h with hfit
        cases h
        rw [ih, List.flatMap_cons]
  · intro h
    subst h
    induction events with
    | nil => exact .nil
    | cons event events ih =>
        apply Coalesced.cons event.encoding.length _ ih
        rw [esbWireEncodeEvent_eq, if_pos le_rfl]

/-! ## Telling event packets from control packets -/

/-- The first byte of a nonempty event packet is below every control tag. -/
theorem firstByte_ne {control : UInt8} (hcontrol : esbRelayPollTag ≤ control)
    (event : PeripheralEvent L) (events : List (PeripheralEvent L)) :
    byteAt ((event :: events).flatMap PeripheralEvent.encoding) 0 ≠ control := by
  intro heq
  have hlt : event.type < esbRelayPollTag := type_lt event
  have hfirst : event.type = control := heq
  rw [hfirst] at hlt
  exact absurd hlt (UInt8.not_lt.mpr hcontrol)

theorem not_esbIsHostIndicators (events : List (PeripheralEvent L)) :
    esbIsHostIndicators (events.flatMap PeripheralEvent.encoding) = false := by
  cases events with
  | nil => rfl
  | cons event events =>
      rw [esbIsHostIndicators]
      split_ifs
      · rfl
      · exact beq_eq_false_iff_ne.mpr (firstByte_ne (by decide) event events)

theorem not_esbIsRelayPoll (events : List (PeripheralEvent L)) :
    esbIsRelayPoll (events.flatMap PeripheralEvent.encoding) = false := by
  cases events with
  | nil => rfl
  | cons event events =>
      rw [esbIsRelayPoll]
      split_ifs
      · rfl
      · exact beq_eq_false_iff_ne.mpr (firstByte_ne (by decide) event events)

theorem not_esbKeepaliveMatches (events : List (PeripheralEvent L)) (length : UInt8)
    (hnil : events = [] → length = 0) :
    esbKeepaliveMatches (events.flatMap PeripheralEvent.encoding) length = false := by
  cases events with
  | nil => rw [hnil rfl]; rfl
  | cons event events =>
      have hne : byteAt ((event :: events).flatMap PeripheralEvent.encoding)
          esbKeepaliveTagOffset ≠ esbKeepaliveTag := firstByte_ne (by decide) event events
      rw [esbKeepaliveMatches]
      split_ifs <;> rfl

/-! ## Exactness -/

theorem centralIngestPacket_events {σ : Type*} (applyHostIndicators : σ → UInt8 → σ)
    (ingestKeepalive : σ → Bytes → σ) (dispatch : σ → PeripheralEvent L → σ) (state : σ)
    {data : Bytes} (hind : esbIsHostIndicators data = false)
    (hkeep : esbKeepaliveMatches data (UInt8.ofNat data.length) = false) :
    centralIngestPacket applyHostIndicators ingestKeepalive dispatch state data =
      (decodedEvents L data).foldl dispatch state := by
  rw [centralIngestPacket, hind, hkeep]
  exact ingestEvents_eq_foldl dispatch data 0 state

/-- A coalesced packet is no control packet and dispatches exactly its events; any
other packet that is not taken as a control packet dispatches the events of its
longest prefix of whole encoded events. -/
theorem coalesced_packet_exact :
    (∀ (events : List (PeripheralEvent L)) (packet : Bytes), Coalesced events packet →
      esbIsHostIndicators packet = false ∧
      esbKeepaliveMatches packet (UInt8.ofNat packet.length) = false ∧
      esbIsRelayPoll packet = false ∧
      ∀ {σ : Type} (applyHostIndicators : σ → UInt8 → σ) (ingestKeepalive : σ → Bytes → σ)
        (dispatch : σ → PeripheralEvent L → σ) (state : σ),
        centralIngestPacket applyHostIndicators ingestKeepalive dispatch state packet =
          events.foldl dispatch state) ∧
    (∀ data : Bytes, esbIsHostIndicators data = false →
      esbKeepaliveMatches data (UInt8.ofNat data.length) = false →
      ∃ (events : List (PeripheralEvent L)) (front tail : Bytes),
        Coalesced events front ∧ data = front ++ tail ∧
        (∀ {σ : Type} (applyHostIndicators : σ → UInt8 → σ) (ingestKeepalive : σ → Bytes → σ)
          (dispatch : σ → PeripheralEvent L → σ) (state : σ),
          centralIngestPacket applyHostIndicators ingestKeepalive dispatch state data =
            events.foldl dispatch state) ∧
        ∀ (others : List (PeripheralEvent L)) (front' tail' : Bytes), Coalesced others front' →
          data = front' ++ tail' → others <+: events ∧ front' <+: front) := by
  constructor
  · intro events packet hpacket
    rw [coalesced_iff] at hpacket
    subst hpacket
    have hind := not_esbIsHostIndicators events
    have hkeep := not_esbKeepaliveMatches events
      (UInt8.ofNat (events.flatMap PeripheralEvent.encoding).length) (fun h => by rw [h]; rfl)
    have hnil : decodedEvents L [] = [] := decodedEvents_none rfl
    have hdecoded := decodedEvents_encodings events []
    rw [hnil, List.append_nil, List.append_nil] at hdecoded
    refine ⟨hind, hkeep, not_esbIsRelayPoll events, ?_⟩
    intro σ applyHostIndicators ingestKeepalive dispatch state
    rw [centralIngestPacket_events _ _ _ _ hind hkeep, hdecoded]
  · intro data hind hkeep
    obtain ⟨tail, hdata, -⟩ := decodedEvents_prefix (L := L) data
    refine ⟨decodedEvents L data, _, tail, (coalesced_iff _ _).mpr rfl, hdata, ?_, ?_⟩
    · intro σ applyHostIndicators ingestKeepalive dispatch state
      exact centralIngestPacket_events _ _ _ _ hind hkeep
    · intro others front' tail' hothers hsplit
      rw [coalesced_iff] at hothers
      have hleading : decodedEvents L data = others ++ decodedEvents L tail' := by
        rw [hsplit, hothers, decodedEvents_encodings]
      refine ⟨hleading ▸ List.prefix_append _ _, ?_⟩
      rw [hleading, hothers, List.flatMap_append]
      exact List.prefix_append _ _

/-! ## The layout of a 32-bit build -/

/-- A sensor event struct: two value words, the channel, the index, padding. -/
def rotationBytes (channel : Bytes) (index : UInt8) (val1 val2 : Int32) (padding : Bytes) : Bytes :=
  le32 val1.toUInt32 ++ (le32 val2.toUInt32 ++ (channel ++ (index :: padding)))

theorem rotationBytes_fields {channel padding : Bytes} (index : UInt8) (val1 val2 : Int32)
    (hc : channel.length = 4) (hp : padding.length = 3) :
    byteAt (objectAt (rotationBytes channel index val1 val2 padding) 16).toList 12 = index ∧
    (getLe32 (objectAt (rotationBytes channel index val1 val2 padding) 16).toList 0).toInt32 =
      val1 ∧
    (getLe32 (objectAt (rotationBytes channel index val1 val2 padding) 16).toList 4).toInt32 =
      val2 := by
  have hlen : (rotationBytes channel index val1 val2 padding).length = 16 := by
    simp [rotationBytes, hc, hp]
  have hobject : (objectAt (rotationBytes channel index val1 val2 padding) 16).toList =
      rotationBytes channel index val1 val2 padding := by
    rw [toList_objectAt (by omega), List.take_of_length_le (by omega)]
  rw [hobject]
  refine ⟨?_, ?_, ?_⟩
  · rw [rotationBytes, ← List.append_assoc, ← List.append_assoc]
    exact byteAt_append_of_eq (by simp [hc])
  · have hread : readAt (rotationBytes channel index val1 val2 padding) 0 4 =
        le32 val1.toUInt32 := @readAt_append_of_eq [] _ _ 0 4 rfl (le32_length _).symm
    rw [getLe32_of_readAt hread]
    rfl
  · have hread : readAt (rotationBytes channel index val1 val2 padding) 4 4 =
        le32 val2.toUInt32 := readAt_append_of_eq (le32_length _).symm (le32_length _).symm
    rw [getLe32_of_readAt hread]
    rfl

def zmkLayout : EventLayout where
  keyPositionType := 0
  sensorType := 1
  inputType := 2
  batteryType := 3
  keyPositionSize := 2
  sensorSize := 16
  batterySize := 1
  types_nodup := by decide
  types_lt type htype := by
    simp only [List.mem_cons, List.not_mem_nil, or_false] at htype
    rcases htype with rfl | rfl | rfl | rfl <;> decide
  sizes_uint8 size hsize := by
    simp only [List.mem_cons, List.not_mem_nil, or_false] at hsize
    omega
  position event := event[0].toNat
  pressed event := event[1] != 0
  keyPositionEvent p b := #v[UInt8.ofNat p, if b then 1 else 0]
  position_keyPositionEvent p hp b := by
    have hlt : p < 64 := hp
    exact Nat.mod_eq_of_lt (by omega)
  pressed_keyPositionEvent p b := by cases b <;> rfl
  sensorIndex event := byteAt event.toList 12
  sensorVal1 event := (getLe32 event.toList 0).toInt32
  sensorVal2 event := (getLe32 event.toList 4).toInt32
  sensorWithValue event a b := objectAt (rotationBytes (readAt event.toList 8 4)
    (byteAt event.toList 12) a b (readAt event.toList 13 3)) 16
  sensorWithValue_fields event a b := by
    have hlen : event.toList.length = 16 := Vector.length_toList
    exact rotationBytes_fields _ a b (readAt_length (by omega)) (readAt_length (by omega))
  rotationEvent index a b := objectAt (rotationBytes [37, 0, 0, 0] index a b [0, 0, 0]) 16
  rotationEvent_fields index a b := rotationBytes_fields index a b rfl rfl
  batteryLevel event := event[0]

theorem coalesced_packet_exact_sample :
    esbIsRelayPoll (PeripheralEvent.encoding (L := zmkLayout) (.keyPosition #v[5, 1]) ++
      PeripheralEvent.encoding (L := zmkLayout) (.input ⟨1, 1, 2, 0, -37⟩)) = false ∧
    [.keyPosition #v[5, 1], .battery #v[87]] <+:
      centralIngestPacket (fun _ _ => []) (fun _ _ => [])
        (fun acc (event : PeripheralEvent zmkLayout) => acc ++ [event]) []
        [0, 5, 1, 3, 87, 2, 1] := by
  obtain ⟨hexact, hlongest⟩ := coalesced_packet_exact (L := zmkLayout)
  refine ⟨?_, ?_⟩
  · exact (hexact [.keyPosition #v[5, 1], .input ⟨1, 1, 2, 0, -37⟩] _
      ((coalesced_iff _ _).mpr (by simp))).2.2.1
  · obtain ⟨events, front, tail, -, -, hrun, hmax⟩ := hlongest [0, 5, 1, 3, 87, 2, 1] rfl rfl
    have hcollect : ∀ (events acc : List (PeripheralEvent zmkLayout)),
        events.foldl (fun acc event => acc ++ [event]) acc = acc ++ events := by
      intro events
      induction events with
      | nil => simp
      | cons event events ih => intro acc; rw [List.foldl_cons, ih]; simp
    rw [hrun, hcollect]
    exact (hmax [.keyPosition #v[5, 1], .battery #v[87]] _ [2, 1]
      ((coalesced_iff _ _).mpr rfl) rfl).1

end SplitEsb
