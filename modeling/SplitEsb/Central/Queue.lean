import SplitEsb.Central.State
import SplitEsb.Event.RoundTrip

/-! # What the central queues
The receive thread only ever appends to the event queue, and what it appends is
what the packet carried. -/

namespace SplitEsb

open ByteString

variable {L : EventLayout}

/-- The queue grew by items that all have a property. -/
def Queues (P : CentralInbound L → Prop) (central central' : Central L) : Prop :=
  ∃ items, central'.eventMsgq = central.eventMsgq ++ items ∧ ∀ item ∈ items, P item

variable {P : CentralInbound L → Prop}

theorem queues_of_eq {c c' : Central L} (h : c'.eventMsgq = c.eventMsgq) : Queues P c c' :=
  ⟨[], by rw [h, List.append_nil], by simp⟩

theorem Queues.trans {c c' c'' : Central L} (h : Queues P c c') (h' : Queues P c' c'') :
    Queues P c c'' := by
  obtain ⟨items, hitems, hP⟩ := h
  obtain ⟨more, hmore, hP'⟩ := h'
  refine ⟨items ++ more, by rw [hmore, hitems, List.append_assoc], fun item hitem => ?_⟩
  rcases List.mem_append.mp hitem with hold | hnew
  · exact hP item hold
  · exact hP' item hnew

theorem putInbound_queues (config : CentralConfig) (central : Central L)
    {inbound : CentralInbound L} (h : P inbound) :
    Queues P central (central.putInbound config inbound) := by
  rw [Central.putInbound]
  split_ifs
  · exact ⟨[inbound], rfl, fun item hitem => by rw [List.mem_singleton.mp hitem]; exact h⟩
  · exact queues_of_eq rfl

theorem inputDeliverEvent_eventMsgq (central : Central L) (pipe : ℕ) (now : UInt32)
    (event : InputEvent) :
    (central.inputDeliverEvent pipe now event).eventMsgq = central.eventMsgq := by
  rw [Central.inputDeliverEvent]
  split_ifs <;> rfl

theorem inputReconcile_eventMsgq (config : CentralConfig) (central : Central L) (pipe : ℕ)
    (now : UInt32) (keepalive : Bytes) :
    (central.inputReconcile config pipe now keepalive).eventMsgq = central.eventMsgq := by
  rw [Central.inputReconcile]
  split_ifs <;> rfl

theorem dispatchEvent_queues (config : CentralConfig) (pipe : ℕ) (now : UInt32)
    (central : Central L) {event : PeripheralEvent L} (h : ¬event.IsInput → P ⟨pipe, .event event⟩) :
    Queues P central (Central.dispatchEvent config pipe now central event) := by
  cases event with
  | input event => exact queues_of_eq (inputDeliverEvent_eventMsgq central pipe now event)
  | keyPosition event => exact putInbound_queues config central (h id)
  | sensor event => exact putInbound_queues config central (h id)
  | battery event => exact putInbound_queues config central (h id)

theorem ingestKeepalive_queues (config : CentralConfig) (pipe : ℕ) (now : UInt32)
    (central : Central L) {data : Bytes}
    (h : P ⟨pipe, .keepalive (data.take config.maxPayload)
      (UInt8.ofNat (min data.length config.maxPayload))⟩) :
    Queues P central (Central.ingestKeepalive config pipe now central data) :=
  (queues_of_eq (inputReconcile_eventMsgq config central pipe now data)).trans
    (putInbound_queues config _ h)

theorem applyHostIndicators_eventMsgq (config : CentralConfig) (central : Central L)
    (leds : UInt8) : (central.applyHostIndicators config leds).eventMsgq = central.eventMsgq := by
  rw [Central.applyHostIndicators]
  split_ifs <;> rfl

/-- A packet queues the keepalive it is, or the events it decodes to but for input
events, which are delivered at once. -/
theorem ingestPacket_queues (config : CentralConfig) (central : Central L) {pipe : ℕ}
    (now : UInt32) {data : Bytes}
    (hkeepalive : esbKeepaliveMatches data (UInt8.ofNat data.length) = true →
      P ⟨pipe, .keepalive (data.take config.maxPayload)
        (UInt8.ofNat (min data.length config.maxPayload))⟩)
    (hevents : esbKeepaliveMatches data (UInt8.ofNat data.length) = false →
      ∀ event ∈ decodedEvents L data, ¬event.IsInput → P ⟨pipe, .event event⟩) :
    Queues P central (central.ingestPacket config pipe now data) := by
  rw [Central.ingestPacket, centralIngestPacket]
  split_ifs with _ hmatches
  · exact queues_of_eq (applyHostIndicators_eventMsgq config central _)
  · exact ingestKeepalive_queues config pipe now central (hkeepalive hmatches)
  · rw [ingestEvents_eq_foldl, List.drop_zero]
    replace hevents := hevents (Bool.eq_false_iff.mpr hmatches)
    generalize decodedEvents L data = events at hevents
    induction events generalizing central with
    | nil => exact queues_of_eq rfl
    | cons event events ih =>
        refine (dispatchEvent_queues config pipe now central
          (hevents event List.mem_cons_self)).trans ?_
        exact ih _ fun e he => hevents e (List.mem_cons_of_mem _ he)

/-- Whatever a packet queues comes from its own pipe. -/
theorem ingestPacket_source (config : CentralConfig) (central : Central L) (pipe : ℕ)
    (now : UInt32) (data : Bytes) :
    Queues (fun item => item.source = pipe) central (central.ingestPacket config pipe now data) :=
  ingestPacket_queues config central now (fun _ => rfl) fun _ _ _ _ => rfl

/-! ## Work on queued items -/

def CentralOutput.IsInput : CentralOutput L → Prop
  | .peripheralEvent _ (.input _) => True
  | _ => False

/-- An operation on keys, battery and sensors: the queue and the input split are
left alone and no input event is forwarded. -/
structure LeavesInput (central central' : Central L) : Prop where
  eventMsgq : central'.eventMsgq = central.eventMsgq
  input : central'.input = central.input
  outputs : ∃ more, central'.outputs = central.outputs ++ more ∧ ∀ output ∈ more, ¬output.IsInput

theorem LeavesInput.refl (central : Central L) : LeavesInput central central :=
  ⟨rfl, rfl, [], (List.append_nil _).symm, by simp⟩

/-- Outputs appended one after the other, none of them an input event. -/
theorem noInput_trans {c c' c'' : Central L}
    (h : ∃ more, c'.outputs = c.outputs ++ more ∧ ∀ output ∈ more, ¬output.IsInput)
    (h' : ∃ more, c''.outputs = c'.outputs ++ more ∧ ∀ output ∈ more, ¬output.IsInput) :
    ∃ more, c''.outputs = c.outputs ++ more ∧ ∀ output ∈ more, ¬output.IsInput := by
  obtain ⟨first, hfirst, hno⟩ := h
  obtain ⟨second, hsecond, hno'⟩ := h'
  refine ⟨first ++ second, by rw [hsecond, hfirst, List.append_assoc], fun output houtput => ?_⟩
  rcases List.mem_append.mp houtput with hold | hnew
  · exact hno output hold
  · exact hno' output hnew

theorem LeavesInput.trans {c c' c'' : Central L} (h : LeavesInput c c') (h' : LeavesInput c' c'') :
    LeavesInput c c'' where
  eventMsgq := h'.eventMsgq.trans h.eventMsgq
  input := h'.input.trans h.input
  outputs := noInput_trans h.outputs h'.outputs

theorem emit_leavesInput (central : Central L) {output : CentralOutput L} (h : ¬output.IsInput) :
    LeavesInput central (central.emit output) :=
  ⟨rfl, rfl, [output], rfl, fun o ho => by rw [List.mem_singleton.mp ho]; exact h⟩

theorem setTracked_leavesInput (central : Central L) (source position : ℕ) (pressed : Bool) :
    LeavesInput central (central.setTracked source position pressed) :=
  ⟨rfl, rfl, [], (List.append_nil _).symm, by simp⟩

theorem replayPositions_leavesInput (target : PositionBitmap) (source : ℕ) (central : Central L)
    (position : ℕ) :
    LeavesInput central (Central.replayPositions source target central position) := by
  fun_induction Central.replayPositions source target central position with
  | case1 central position hlt pressed central' ih =>
      exact ((setTracked_leavesInput central source position pressed).trans
        (emit_leavesInput _ id)).trans ih
  | case2 central position hge => exact .refl central

theorem replayPositionDiff_leavesInput (central : Central L) (source : ℕ)
    (target : PositionBitmap) :
    LeavesInput central (central.replayPositionDiff source target) := by
  rw [Central.replayPositionDiff]
  split_ifs
  · exact .refl central
  · exact replayPositions_leavesInput target source central _

theorem deliverKeyEvent_leavesInput (central : Central L) (source : ℕ)
    (event : Vector UInt8 L.keyPositionSize) :
    LeavesInput central (central.deliverKeyEvent source event) := by
  simp only [Central.deliverKeyEvent]
  split_ifs
  · exact emit_leavesInput central id
  · split
    · exact .refl central
    · exact ((emit_leavesInput central id).trans (setTracked_leavesInput _ _ _ _)).trans
        (emit_leavesInput _ id)
    · exact (setTracked_leavesInput central _ _ _).trans (emit_leavesInput _ id)

theorem reconcileBattery_leavesInput (central : Central L) (source : ℕ) (level : UInt8) :
    LeavesInput central (central.reconcileBattery source level) := by
  rw [Central.reconcileBattery]
  split_ifs
  · exact .refl central
  · exact .refl central
  · exact ⟨rfl, rfl, [.batteryState source level], rfl, by simp [CentralOutput.IsInput]⟩

theorem sensorDeltaValue_leavesInput (config : CentralConfig) (central : Central L)
    (source sensorIndex : ℕ) (totalUdeg : Int64) :
    LeavesInput central (central.sensorDeltaValue config source sensorIndex totalUdeg).1 := by
  rw [Central.sensorDeltaValue]
  split_ifs
  · exact .refl central
  · exact ⟨rfl, rfl, [], (List.append_nil _).symm, by simp⟩

theorem reconcileSensorTotal_leavesInput (config : CentralConfig) (source : ℕ) (keepalive : Bytes)
    (central : Central L) (sensorIndex : ℕ) :
    LeavesInput central
      (Central.reconcileSensorTotal config source keepalive central sensorIndex) := by
  have hdelta := sensorDeltaValue_leavesInput config central source sensorIndex
    (esbKeepaliveSensorTotalUdeg keepalive (UInt8.ofNat sensorIndex))
  rw [Central.reconcileSensorTotal]
  dsimp only
  split
  · exact hdelta
  · exact hdelta.trans (emit_leavesInput _ id)

theorem reconcileSensorTotals_leavesInput (config : CentralConfig) (central : Central L)
    (source : ℕ) (keepalive : Bytes) (length : UInt8) :
    LeavesInput central (central.reconcileSensorTotals config source keepalive length) := by
  rw [Central.reconcileSensorTotals]
  split_ifs
  · exact .refl central
  · exact List.foldlRecOn (motive := fun c : Central L => LeavesInput central c) (List.range _) _
      (.refl central) fun c hc sensorIndex _ =>
        hc.trans (reconcileSensorTotal_leavesInput config source keepalive c sensorIndex)

theorem handleKeepalive_leavesInput (config : CentralConfig) (central : Central L) (source : ℕ)
    (keepalive : Bytes) (length : UInt8) :
    LeavesInput central (central.handleKeepalive config source keepalive length) := by
  have hreplay := replayPositionDiff_leavesInput central source (esbKeepaliveBitmap keepalive)
  rw [Central.handleKeepalive]
  split_ifs
  · exact (hreplay.trans (reconcileBattery_leavesInput _ source _)).trans
      (reconcileSensorTotals_leavesInput config _ source keepalive length)
  · exact hreplay.trans (reconcileSensorTotals_leavesInput config _ source keepalive length)

theorem handleEvent_leavesInput (config : CentralConfig) (central : Central L) (source : ℕ)
    {event : PeripheralEvent L} (h : ¬event.IsInput) :
    LeavesInput central (central.handleEvent config source event) := by
  cases event with
  | keyPosition event => exact deliverKeyEvent_leavesInput central source event
  | input event => exact absurd trivial h
  | battery event =>
      rw [Central.handleEvent]
      split_ifs
      · exact reconcileBattery_leavesInput central source _
      · exact .refl central
      · exact emit_leavesInput central id
  | sensor event =>
      have htotal : LeavesInput central (central.sensorEventToDelta config source event).1 := by
        rw [Central.sensorEventToDelta]
        split_ifs
        · exact .refl central
        · exact sensorDeltaValue_leavesInput config central source _ _
      rw [Central.handleEvent]
      dsimp only
      split
      · exact htotal
      · exact htotal.trans (emit_leavesInput _ id)

/-- Items other than input events are handled without touching the input split. -/
theorem handleInbound_leavesInput (config : CentralConfig) (central : Central L)
    {inbound : CentralInbound L} (h : ∀ event, inbound.data = .event event → ¬event.IsInput) :
    LeavesInput central (central.handleInbound config inbound) := by
  cases inbound with
  | mk source data =>
      cases data with
      | keepalive data length => exact handleKeepalive_leavesInput config central source data length
      | event event => exact handleEvent_leavesInput config central source (h event rfl)

theorem handleInbound_eventMsgq (config : CentralConfig) (central : Central L)
    (inbound : CentralInbound L) :
    (central.handleInbound config inbound).eventMsgq = central.eventMsgq := by
  cases inbound with
  | mk source data =>
      cases data with
      | keepalive data length =>
          exact (handleKeepalive_leavesInput config central source data length).eventMsgq
      | event event =>
          by_cases hinput : event.IsInput
          · cases event with
            | input event => rfl
            | keyPosition event => cases hinput
            | sensor event => cases hinput
            | battery event => cases hinput
          · exact (handleEvent_leavesInput config central source hinput).eventMsgq

/-! ## The staleness release -/

/-- No input event is forwarded, and of the input states only that of the pipe
changes, by the pending reset. -/
structure ReleasesInput (pipe : ℕ) (central central' : Central L) : Prop where
  eventMsgq : central'.eventMsgq = central.eventMsgq
  outputs : ∃ more, central'.outputs = central.outputs ++ more ∧ ∀ output ∈ more, ¬output.IsInput
  other : ∀ other ≠ pipe, central'.input other = central.input other
  self : pipe < esbLinkPipeMax → central'.input pipe = (central.input pipe).releasePipe.1

theorem releaseInput_releasesInput (central : Central L) (pipe : ℕ) :
    ReleasesInput pipe central (central.releaseInput pipe) := by
  rw [Central.releaseInput]
  split_ifs with hpipe
  · exact ⟨rfl, ⟨[], (List.append_nil _).symm, by simp⟩, fun _ _ => rfl,
      fun hlt => absurd hpipe (Nat.not_le.mpr hlt)⟩
  · refine ⟨rfl, ⟨_, rfl, fun output houtput => ?_⟩,
      fun other hne => Function.update_of_ne hne _ _, fun _ => Function.update_self pipe _ _⟩
    obtain ⟨reg, -, rfl⟩ := List.mem_map.mp houtput
    exact id

theorem ReleasesInput.after {pipe : ℕ} {c c' c'' : Central L} (h : LeavesInput c c')
    (h' : ReleasesInput pipe c' c'') : ReleasesInput pipe c c'' where
  eventMsgq := h'.eventMsgq.trans h.eventMsgq
  outputs := noInput_trans h.outputs h'.outputs
  other other hne := (h'.other other hne).trans (congrFun h.input other)
  self hpipe := (h'.self hpipe).trans (by rw [h.input])

theorem ReleasesInput.before {pipe : ℕ} {c c' c'' : Central L} (h : ReleasesInput pipe c c')
    (h' : LeavesInput c' c'') : ReleasesInput pipe c c'' where
  eventMsgq := h'.eventMsgq.trans h.eventMsgq
  outputs := noInput_trans h.outputs h'.outputs
  other other hne := (congrFun h'.input other).trans (h.other other hne)
  self hpipe := (congrFun h'.input pipe).trans (h.self hpipe)

theorem sensorTracksReset_leavesInput (central : Central L) (pipe : ℕ) :
    LeavesInput central (central.sensorTracksReset pipe) := by
  rw [Central.sensorTracksReset]
  split_ifs
  · exact .refl central
  · exact ⟨rfl, rfl, [], (List.append_nil _).symm, by simp⟩

theorem releaseStalePipe_releasesInput (central : Central L) (pipe : ℕ) :
    ReleasesInput pipe central (central.releaseStalePipe pipe) :=
  ((releaseInput_releasesInput _ pipe).after (replayPositionDiff_leavesInput central pipe _)).before
    (sensorTracksReset_leavesInput _ pipe)

end SplitEsb
