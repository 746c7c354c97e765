import SplitEsb.Link.Keys

/-! # What packets say about keys
A packet, and an item the central queues for one, is a list of snapshots and deltas of
the pressed positions. -/

namespace SplitEsb

open ByteString BitTable Replica

variable {L : EventLayout}

abbrev KeyMessage := Message PositionBitmap (ℕ × Bool)

def PeripheralEvent.keyMessages : PeripheralEvent L → List KeyMessage
  | .keyPosition event => [.delta (L.position event, L.pressed event)]
  | _ => []

/-- What a packet says to a receiver that sorts packets like the central. -/
def packetMessages (L : EventLayout) (data : Bytes) : List KeyMessage :=
  if esbIsHostIndicators data then []
  else if esbKeepaliveMatches data (UInt8.ofNat data.length) then
    [.snapshot (esbKeepaliveBitmap data)]
  else (decodedEvents L data).flatMap PeripheralEvent.keyMessages

/-- What a queued item says about one pipe. -/
def itemMessages (pipe : ℕ) (item : CentralInbound L) : List KeyMessage :=
  if item.source = pipe then
    match item.data with
    | .keepalive data _ => [.snapshot (esbKeepaliveBitmap data)]
    | .event event => event.keyMessages
  else []

/-! ## Packets of a peripheral -/

theorem PeripheralEvent.keyMessages_of_not_isKey {event : PeripheralEvent L} (h : ¬event.IsKey) :
    event.keyMessages = [] := by
  cases event with
  | keyPosition event => exact absurd trivial h
  | sensor event => rfl
  | input event => rfl
  | battery event => rfl

theorem packetMessages_events (events : List (PeripheralEvent L)) :
    packetMessages L (events.flatMap PeripheralEvent.encoding) =
      events.flatMap PeripheralEvent.keyMessages := by
  rw [packetMessages, not_esbIsHostIndicators, not_esbKeepaliveMatches _ _ fun hnil => by
    rw [hnil]; rfl, decodedEvents_flatMap]
  simp

theorem packetMessages_keyPosition (event : Vector UInt8 L.keyPositionSize) :
    packetMessages L (PeripheralEvent.keyPosition event : PeripheralEvent L).encoding =
      [.delta (L.position event, L.pressed event)] := by
  simpa [PeripheralEvent.keyMessages] using
    packetMessages_events [(PeripheralEvent.keyPosition event : PeripheralEvent L)]

theorem packetMessages_carriesNoKey {data : Bytes} (h : CarriesNoKey L data) :
    packetMessages L data = [] := by
  obtain ⟨events, rfl, hevents⟩ := h
  rw [packetMessages_events]
  apply List.flatMap_eq_nil_iff.mpr
  intro event hevent
  exact PeripheralEvent.keyMessages_of_not_isKey (hevents event hevent)

/-- A keepalive says nothing but what its snapshot shows. -/
theorem deltas_packetMessages_snapshot {snapshot : EsbKeepaliveSnapshot}
    (hfit : snapshot.encodedLength ≤ 255) :
    deltas (packetMessages L snapshot.encoding) = [] := by
  have hmatches := esbKeepaliveMatches_encoding [] hfit
  rw [List.append_nil, ← snapshot.encoding_length] at hmatches
  rw [packetMessages, hmatches]
  split_ifs with hindicators hkeepalive
  · rfl
  · rfl
  · exact absurd rfl hkeepalive

/-! ## Items the central queues -/

def queuedItem (pipe : ℕ) : PeripheralEvent L → Option (CentralInbound L)
  | .input _ => none
  | event => some ⟨pipe, .event event⟩

/-- The items a packet queues when there is space for all of them. -/
def packetItems (config : CentralConfig) (pipe : ℕ) (data : Bytes) : List (CentralInbound L) :=
  if esbIsHostIndicators data then []
  else if esbKeepaliveMatches data (UInt8.ofNat data.length) then
    [⟨pipe, .keepalive (data.take config.maxPayload)
      (UInt8.ofNat (min data.length config.maxPayload))⟩]
  else (decodedEvents L data).filterMap (queuedItem pipe)

theorem packetItems_messages (config : CentralConfig) (pipe : ℕ) (data : Bytes) :
    (packetItems config pipe data : List (CentralInbound L)).flatMap (itemMessages pipe) =
      packetMessages L data := by
  rw [packetItems, packetMessages]
  split_ifs
  · rfl
  · simp [itemMessages, esbKeepaliveBitmap_take config.event_fits]
  · induction decodedEvents L data with
    | nil => rfl
    | cons event events ih =>
        cases event with
        | input event =>
            rw [List.filterMap_cons_none rfl]
            simpa [PeripheralEvent.keyMessages] using ih
        | keyPosition event => simpa [queuedItem, itemMessages] using ih
        | sensor event => simpa [queuedItem, itemMessages] using ih
        | battery event => simpa [queuedItem, itemMessages] using ih

theorem putInbound_eventMsgq {config : CentralConfig} {central : Central L}
    (h : central.eventMsgq.length < config.eventQueueSize) (inbound : CentralInbound L) :
    (central.putInbound config inbound).eventMsgq = central.eventMsgq ++ [inbound] := by
  rw [Central.putInbound, if_pos h]

theorem dispatchEvents_eventMsgq (config : CentralConfig) (pipe : ℕ) (now : UInt32)
    {events : List (PeripheralEvent L)} {central : Central L}
    (h : central.eventMsgq.length + (events.filterMap (queuedItem pipe)).length ≤
      config.eventQueueSize) :
    (events.foldl (Central.dispatchEvent config pipe now) central).eventMsgq =
      central.eventMsgq ++ events.filterMap (queuedItem pipe) := by
  induction events generalizing central with
  | nil => simp
  | cons event events ih =>
      cases hitem : queuedItem pipe event with
      | none =>
          cases event with
          | input event =>
              have hsame := inputDeliverEvent_eventMsgq central pipe now event
              rw [List.filterMap_cons_none hitem] at h ⊢
              rw [List.foldl_cons, Central.dispatchEvent, ih (by rw [hsame]; exact h), hsame]
          | keyPosition event => cases hitem
          | sensor event => cases hitem
          | battery event => cases hitem
      | some item =>
          rw [List.filterMap_cons_some hitem, List.length_cons] at h
          have hput : (Central.dispatchEvent config pipe now central event).eventMsgq =
              central.eventMsgq ++ [item] := by
            cases event with
            | input event => cases hitem
            | keyPosition event =>
                cases hitem
                exact putInbound_eventMsgq (by omega) _
            | sensor event =>
                cases hitem
                exact putInbound_eventMsgq (by omega) _
            | battery event =>
                cases hitem
                exact putInbound_eventMsgq (by omega) _
          rw [List.foldl_cons, ih (by rw [hput, List.length_append, List.length_singleton]; omega),
            hput, List.filterMap_cons_some hitem, List.append_assoc]
          rfl

theorem ingestPacket_eventMsgq {config : CentralConfig} {central : Central L} {pipe : ℕ}
    {data : Bytes}
    (h : central.eventMsgq.length + (packetItems config pipe data : List (CentralInbound L)).length ≤
      config.eventQueueSize) (now : UInt32) :
    (central.ingestPacket config pipe now data).eventMsgq =
      central.eventMsgq ++ packetItems config pipe data := by
  rw [packetItems] at h ⊢
  rw [Central.ingestPacket, centralIngestPacket]
  split_ifs at h ⊢
  · rw [applyHostIndicators_eventMsgq, List.append_nil]
  · have hsame := inputReconcile_eventMsgq config central pipe now data
    rw [List.length_singleton] at h
    rw [Central.ingestKeepalive, putInbound_eventMsgq (by rw [hsame]; omega), hsame]
  · rw [ingestEvents_eq_foldl, List.drop_zero]
    exact dispatchEvents_eventMsgq config pipe now h

/-! ## Handling an item -/

/-- An item moves the row of a pipe as its messages say. -/
theorem handleInbound_row (config : CentralConfig) (central : Central L) {pipe : ℕ}
    (hpipe : pipe < esbLinkPipeMax) (item : CentralInbound L) :
    (central.handleInbound config item).trackedPositions pipe =
      (itemMessages pipe item).foldl (fun view message => message.receive applyKey view)
        (central.trackedPositions pipe) := by
  obtain ⟨source, data⟩ := item
  by_cases hsource : source = pipe
  · subst hsource
    rw [itemMessages, if_pos rfl]
    cases data with
    | keepalive data length =>
        change (central.handleKeepalive config source data length).trackedPositions source = _
        rw [(handleKeepalive_replay config central source data length).tracked]
        exact (replayPositionDiff_effect central hpipe _).2
    | event event =>
        by_cases hkey : event.IsKey
        · cases event with
          | keyPosition event =>
              change (central.deliverKeyEvent source event).trackedPositions source =
                setBit (central.trackedPositions source) (L.position event) (L.pressed event)
              by_cases hp : L.position event < esbKeepalivePositionCount
              · exact (deliverKeyEvent_effect central hpipe hp).2
              · rw [setBit_of_le (Nat.not_lt.mp hp)]
                simp only [Central.deliverKeyEvent]
                rw [if_pos (Or.inr (Nat.not_lt.mp hp))]
                rfl
          | sensor event => cases hkey
          | input event => cases hkey
          | battery event => cases hkey
        · dsimp only
          rw [PeripheralEvent.keyMessages_of_not_isKey hkey]
          exact congrFun (handleEvent_silent config central source hkey).tracked source
  · rw [itemMessages, if_neg hsource]
    exact handleInbound_other config central (Ne.symm hsource)

theorem deliverKeyEvent_forwarded_other (central : Central L) {source pipe : ℕ}
    (hne : pipe ≠ source) (event : Vector UInt8 L.keyPositionSize) :
    keyEvents pipe (central.deliverKeyEvent source event).outputs =
      keyEvents pipe central.outputs := by
  by_cases hguard : esbLinkPipeMax ≤ source ∨ esbKeepalivePositionCount ≤ L.position event
  · simp only [Central.deliverKeyEvent]
    rw [if_pos hguard]
    change keyEvents pipe (central.outputs ++ [_]) = _
    rw [keyEvents_append]
    simp [keyEvents, keyEventOf_other hne]
  · exact (deliverKeyEvent_effect central (by omega) (by omega)).1.forwarded_other pipe hne

/-- An item of one pipe forwards no key event of another. -/
theorem handleInbound_forwarded_other (config : CentralConfig) (central : Central L)
    {item : CentralInbound L} {pipe : ℕ} (hne : pipe ≠ item.source) :
    keyEvents pipe (central.handleInbound config item).outputs = keyEvents pipe central.outputs := by
  obtain ⟨source, data⟩ := item
  cases data with
  | keepalive data length =>
      change keyEvents pipe (central.handleKeepalive config source data length).outputs = _
      rw [(handleKeepalive_replay config central source data length).forwarded]
      by_cases hs : source < esbLinkPipeMax
      · exact (replayPositionDiff_effect central hs _).1.forwarded_other pipe hne
      · rw [Central.replayPositionDiff, if_pos (Nat.not_lt.mp hs)]
  | event event =>
      by_cases hkey : event.IsKey
      · cases event with
        | keyPosition event => exact deliverKeyEvent_forwarded_other central hne event
        | sensor event => cases hkey
        | input event => cases hkey
        | battery event => cases hkey
      · exact (handleEvent_silent config central source hkey).forwarded pipe

theorem diffPositions_self (row : PositionBitmap) (start : ℕ) : diffPositions row row start = [] := by
  apply List.filter_eq_nil_iff.mpr
  simp [differs]

/-- A key event says nothing about other positions, whatever the central makes of it. -/
theorem streamAt_deliverFlips_other {position other : ℕ} (hne : other ≠ position)
    (row : PositionBitmap) (pressed : Bool) :
    streamAt position (deliverFlips row other pressed) = [] := by
  rw [deliverFlips]
  split <;> simp [streamAt, hne]

/-- A key event that changes the tracked bit is forwarded as it is. -/
theorem deliverFlips_of_ne {row : PositionBitmap} {position : ℕ} {pressed : Bool}
    (h : getBit row position ≠ pressed) : deliverFlips row position pressed = [(position, pressed)] := by
  cases hbit : getBit row position <;> cases pressed <;>
    simp [deliverFlips, esbKeepaliveKeyVerdict, hbit] at h ⊢

/-- A position whose changes alternate is forwarded as the item says, when the item's
snapshots are in step with the row. -/
theorem handleInbound_stream (config : CentralConfig) (central : Central L) {pipe position : ℕ}
    (hpipe : pipe < esbLinkPipeMax) (hposition : position < esbKeepalivePositionCount)
    {item : CentralInbound L}
    (hstep : InStep applyKey (central.trackedPositions pipe) (itemMessages pipe item))
    (halternate : (getBit (central.trackedPositions pipe) position ::
      streamAt position (deltas (itemMessages pipe item))).IsChain (· ≠ ·)) :
    streamAt position (keyEvents pipe (central.handleInbound config item).outputs) =
      streamAt position (keyEvents pipe central.outputs) ++
        streamAt position (deltas (itemMessages pipe item)) := by
  obtain ⟨source, data⟩ := item
  by_cases hsource : source = pipe
  · subst hsource
    rw [itemMessages, if_pos rfl] at hstep halternate ⊢
    cases data with
    | keepalive data length =>
        have hsame : esbKeepaliveBitmap data = central.trackedPositions source := hstep.1
        change streamAt position (keyEvents source
          (central.handleKeepalive config source data length).outputs) = _
        rw [(handleKeepalive_replay config central source data length).forwarded,
          (replayPositionDiff_effect central hpipe _).1.forwarded, hsame, diffPositions_self]
        simp [streamAt]
    | event event =>
        by_cases hkey : event.IsKey
        · cases event with
          | keyPosition event =>
              change streamAt position (keyEvents source
                (central.deliverKeyEvent source event).outputs) = _
              dsimp only [PeripheralEvent.keyMessages] at halternate ⊢
              by_cases hp : L.position event < esbKeepalivePositionCount
              · rw [(deliverKeyEvent_effect central hpipe hp).1.forwarded, streamAt_append]
                by_cases hsame : L.position event = position
                · have hchanges : getBit (central.trackedPositions source) (L.position event) ≠
                      L.pressed event := by
                    simpa [streamAt, hsame] using halternate
                  rw [deliverFlips_of_ne hchanges]
                  rfl
                · rw [streamAt_deliverFlips_other hsame]
                  simp [streamAt, hsame]
              · simp only [Central.deliverKeyEvent]
                rw [if_pos (Or.inr (Nat.not_lt.mp hp))]
                change streamAt position (keyEvents source (central.outputs ++ [_])) = _
                rw [keyEvents_append]
                simp [streamAt, keyEvents, keyEventOf, hp, show L.position event ≠ position by omega]
          | sensor event => cases hkey
          | input event => cases hkey
          | battery event => cases hkey
        · dsimp only
          rw [PeripheralEvent.keyMessages_of_not_isKey hkey]
          change streamAt position (keyEvents source
            (central.handleEvent config source event).outputs) = _
          rw [(handleEvent_silent config central source hkey).forwarded]
          simp [streamAt]
  · rw [itemMessages, if_neg hsource, handleInbound_forwarded_other config central (Ne.symm hsource)]
    simp [streamAt]

/-! ## The changes of one position -/

/-- A position has the value of its last change. -/
theorem getBit_foldl_applyKey (row : PositionBitmap) (changes : List (ℕ × Bool)) {position : ℕ}
    (hposition : position < esbKeepalivePositionCount) :
    getBit (changes.foldl applyKey row) position =
      (getBit row position :: streamAt position changes).getLast (List.cons_ne_nil _ _) := by
  induction changes generalizing row with
  | nil => rfl
  | cons change changes ih =>
      obtain ⟨other, pressed⟩ := change
      rw [List.foldl_cons, ih, applyKey]
      by_cases hsame : other = position
      · subst hsame
        simp [streamAt, getBit_setBit_self hposition]
      · simp [streamAt, hsame, getBit_setBit_ne (Ne.symm hsame)]

/-- What is left of alternating changes alternates from where the first ones led. -/
theorem isChain_rest {position : ℕ} (hposition : position < esbKeepalivePositionCount)
    {row : PositionBitmap} {front back : List (ℕ × Bool)}
    (h : (getBit row position :: streamAt position (front ++ back)).IsChain (· ≠ ·)) :
    (getBit (front.foldl applyKey row) position :: streamAt position back).IsChain (· ≠ ·) := by
  rw [streamAt_append, ← List.cons_append,
    ← List.dropLast_append_getLast (List.cons_ne_nil _ (streamAt position front)),
    ← getBit_foldl_applyKey row front hposition, List.append_assoc] at h
  exact h.right_of_append

end SplitEsb
