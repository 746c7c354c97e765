import SplitEsb.Central.KeyStream
import SplitEsb.Central.Motion
import SplitEsb.Central.Queue
import SplitEsb.Peripheral.Motion
import SplitEsb.Shared.Transition

/-! # Lossy motion over a lossy link
One peripheral on one pipe of the central, each thread of both ends taken step by
step: the input thread claims, adds and batches while the keepalive tick reads the
slots, and the receive thread delivers one event at a time while the staleness tick
releases the pipe. -/

namespace SplitEsb

open ByteString SlotTable

variable {L : EventLayout}

/-! ## The system -/

/-- Where the input thread of the peripheral is in a report. -/
inductive InputThread where
  | idle
  /-- A lossy event, to be replaced by a total. -/
  | noted (event : InputEvent)
  /-- An event about to join the batch, and the total it carries. -/
  | ready (sent : InputEvent) (wantsAck : Bool) (carried : Carried)

/-- Both ends and the packets between them. `truth` is the untruncated total of
each axis, every list of `Carried` says what totals the records next to it carry,
and `traces` what the central applied; no step's effect on either end reads them. -/
structure MotionLink (config : PeripheralConfig L) where
  peripheral : Peripheral config
  thread : InputThread
  truth : MotionAxis → ℤ
  batchCarried : List Carried
  read : Option (SnapshotRead config)
  readCarried : List Carried
  air : List (Bytes × List Carried)
  central : Central L
  decoding : List (PeripheralEvent L)
  decodingCarried : List Carried
  traces : MotionAxis → Option AxisTrace

inductive MotionLinkAction (L : EventLayout) where
  /-- The input thread starts the report of an input event. -/
  | note (event : InputEvent)
  | claim
  | total
  | batch
  /-- A key, sensor or battery event, reported by another thread. -/
  | report (event : PeripheralEvent L)
  /-- The keepalive tick starts to read the motion slots. -/
  | readStart
  | readSlot
  | keepalive (state linkCostX10 batteryLevel : UInt8)
  | lose (index : ℕ)
  /-- The oldest packet in the air reaches the central. -/
  | receive (now : UInt32)
  /-- The receive thread delivers the next event of the packet in hand. -/
  | dispatch (now : UInt32)
  | work
  | foreign (source : ℕ) (now : UInt32) (data : Bytes)
  | releaseStale (source : ℕ)

namespace MotionLink

variable {config : PeripheralConfig L}

def init (config : PeripheralConfig L) (centralConfig : CentralConfig) : MotionLink config where
  peripheral := .init config
  thread := .idle
  truth _ := 0
  batchCarried := []
  read := none
  readCarried := []
  air := []
  central := .init L centralConfig
  decoding := []
  decodingCarried := []
  traces _ := none

def note (link : MotionLink config) (event : InputEvent) : MotionLink config :=
  match link.thread with
  | .idle =>
      { link with
        peripheral := link.peripheral.inputNoteEvent event
        thread := if config.inputIsLossy event.type event.code then .noted event
          else .ready event true none }
  | _ => link

def claim (link : MotionLink config) : MotionLink config :=
  match link.thread with
  | .noted event => { link with peripheral := link.peripheral.claimMotionSlot event }
  | _ => link

def total (link : MotionLink config) : MotionLink config :=
  match link.thread with
  | .noted event =>
      let (peripheral, sent) := link.peripheral.motionToTotal event
      if sent.sync &&& esbWireInputTotal = 0 then
        { link with peripheral := peripheral, thread := .ready sent false none }
      else
        let axis := (event.reg, event.code.toUInt8)
        let total := link.truth axis + event.value.toInt
        { link with
          peripheral := peripheral
          thread := .ready sent false (some (axis, total))
          truth := Function.update link.truth axis total }
  | _ => link

def batch (link : MotionLink config) : MotionLink config :=
  match link.thread with
  | .ready sent wantsAck carried =>
      let (batch, packets) := batchReportEvent link.peripheral.batch sent wantsAck
      let batchCarried := link.batchCarried ++ [carried]
      { link with
        peripheral := { link.peripheral with batch := batch }
        thread := .idle
        batchCarried := if batch.events = [] then [] else batchCarried
        air := link.air ++ packets.map fun packet => (packet.data, batchCarried) }
  | _ => link

def report (link : MotionLink config) : PeripheralEvent L → MotionLink config
  | .input _ => link
  | event =>
      let (peripheral, packets) := link.peripheral.reportEvent event
      { link with
        peripheral := peripheral
        air := link.air ++ packets.map fun packet => (packet.data, [none]) }

def readSlot (link : MotionLink config) : MotionLink config :=
  match link.read with
  | none => link
  | some read =>
      let slot := link.peripheral.motionSlots[read.index]?.join
      { link with
        read := some (read.next link.peripheral)
        readCarried := link.readCarried ++
          (slot.map fun slot => some (slot.1, link.truth slot.1)).toList }

/-- Sends the keepalive of a snapshot once every slot has been read. -/
def keepalive (link : MotionLink config) (state linkCostX10 batteryLevel : UInt8) :
    MotionLink config :=
  match link.read with
  | none => link
  | some read =>
      if read.index < config.motionSlotCount then link
      else
        { link with
          read := none
          air := link.air ++ (read.fill link.peripheral state linkCostX10 batteryLevel).toList.map
            fun packet => (packet.data, link.readCarried) }

/-- Takes a packet while none is in hand: a keepalive is reconciled at once, events
are delivered one by one. -/
def receive (centralConfig : CentralConfig) (pipe : ℕ) (link : MotionLink config) (now : UInt32) :
    MotionLink config :=
  match link.decoding, link.air with
  | [], (data, carried) :: air =>
      centralIngestPacket
        (fun link leds =>
          { link with
            central := link.central.applyHostIndicators centralConfig leds, decodingCarried := [] })
        (fun link data =>
          { link with
            central := Central.ingestKeepalive centralConfig pipe now link.central data
            decodingCarried := []
            traces := fun axis =>
              if esbMotionQuietEnough (now - (link.central.input pipe).motionHeardMs)
                  centralConfig.hopWindowMs then
                carried.foldl (heal axis) (link.traces axis)
              else link.traces axis })
        (fun link event => { link with decoding := link.decoding ++ [event] })
        { link with air := air, decodingCarried := carried } data
  | _, _ => link

def dispatch (centralConfig : CentralConfig) (pipe : ℕ) (link : MotionLink config) (now : UInt32) :
    MotionLink config :=
  match link.decoding, link.decodingCarried with
  | event :: decoding, carried :: decodingCarried =>
      { link with
        central := Central.dispatchEvent centralConfig pipe now link.central event
        decoding := decoding
        decodingCarried := decodingCarried
        traces := fun axis => hear link.central.outputs.length axis (link.traces axis) carried }
  | _, _ => link

def step (centralConfig : CentralConfig) (pipe : ℕ) (link : MotionLink config) :
    MotionLinkAction L → MotionLink config
  | .note event => link.note event
  | .claim => link.claim
  | .total => link.total
  | .batch => link.batch
  | .report event => link.report event
  | .readStart => { link with read := some (.start config), readCarried := [] }
  | .readSlot => link.readSlot
  | .keepalive state linkCostX10 batteryLevel => link.keepalive state linkCostX10 batteryLevel
  | .lose index => { link with air := link.air.eraseIdx index }
  | .receive now => link.receive centralConfig pipe now
  | .dispatch now => link.dispatch centralConfig pipe now
  | .work => { link with central := link.central.eventWorkStep centralConfig }
  | .foreign source now data =>
      if source = pipe then link
      else { link with central := link.central.ingestPacket centralConfig source now data }
  | .releaseStale source =>
      { link with
        central := link.central.releaseStalePipe source
        traces := if source = pipe then fun _ => none else link.traces }

end MotionLink

/-- An input event as the peripheral's drivers report it, `sync` a truth value, whose
lossy relative codes are those of the axes. -/
def Reported (config : PeripheralConfig L) (axes : List MotionAxis) (event : InputEvent) : Prop :=
  (event.sync = 0 ∨ event.sync = 1) ∧
    (config.inputIsLossy event.type event.code → event.type = inputEvRel →
      event.code.toNat ≤ 255 → (event.reg, event.code.toUInt8) ∈ axes)

/-- The lossy relative axes of a peripheral: every one is declared lossy. -/
def LossyAxes (config : PeripheralConfig L) (axes : List MotionAxis) : Prop :=
  ∀ axis ∈ axes, config.inputIsLossy inputEvRel axis.2.toUInt16 = true

def MotionLinkAction.Reports (config : PeripheralConfig L) (axes : List MotionAxis) :
    MotionLinkAction L → Prop
  | .note event => Reported config axes event
  | _ => True

/-! ## Motion among the outputs -/

/-- What an output of the central moves an axis of a pipe by. -/
def outputMotion (pipe : ℕ) (axis : MotionAxis) : CentralOutput L → ℤ
  | .peripheralEvent source (.input event) => if source = pipe then motionOf axis event else 0
  | _ => 0

/-- What has been forwarded for an axis of a pipe since there were `mark` outputs. -/
def movedSince (pipe : ℕ) (axis : MotionAxis) (mark : ℕ) (central : Central L) : ℤ :=
  ((central.outputs.drop mark).map (outputMotion pipe axis)).sum

theorem movedSince_append {pipe : ℕ} {axis : MotionAxis} {mark : ℕ} {c c' : Central L}
    {more : List (CentralOutput L)} (h : c'.outputs = c.outputs ++ more)
    (hmark : mark ≤ c.outputs.length) :
    movedSince pipe axis mark c' =
      movedSince pipe axis mark c + (more.map (outputMotion pipe axis)).sum := by
  rw [movedSince, h, List.drop_append_of_le_length hmark, List.map_append, List.sum_append]
  rfl

theorem outputMotion_noInput {pipe : ℕ} {axis : MotionAxis} {output : CentralOutput L}
    (h : ¬output.IsInput) : outputMotion pipe axis output = 0 := by
  cases output with
  | peripheralEvent source event =>
      cases event with
      | input event => exact absurd trivial h
      | keyPosition event => rfl
      | sensor event => rfl
      | battery event => rfl
  | batteryState source level => rfl
  | inputDisconnected reg => rfl
  | hostIndicators leds => rfl

theorem outputMotion_events (pipe : ℕ) (axis : MotionAxis) (events : List InputEvent) :
    ((events.map fun event => (CentralOutput.peripheralEvent pipe (.input event) :
      CentralOutput L)).map (outputMotion pipe axis)).sum = motionSum axis events := by
  rw [List.map_map, motionSum]
  refine congrArg List.sum (List.map_congr_left fun event _ => ?_)
  exact if_pos rfl

/-- An operation that neither changes the input state of a pipe nor forwards motion
for it. -/
structure MotionFrame (pipe : ℕ) (central central' : Central L) : Prop where
  input : central'.input pipe = central.input pipe
  outputs : ∃ more, central'.outputs = central.outputs ++ more ∧
    ∀ output ∈ more, ∀ axis, outputMotion pipe axis output = 0

theorem MotionFrame.refl (pipe : ℕ) (central : Central L) : MotionFrame pipe central central :=
  ⟨rfl, [], (List.append_nil _).symm, by simp⟩

theorem MotionFrame.trans {pipe : ℕ} {c c' c'' : Central L} (h : MotionFrame pipe c c')
    (h' : MotionFrame pipe c' c'') : MotionFrame pipe c c'' where
  input := h'.input.trans h.input
  outputs := by
    obtain ⟨first, hfirst, hno⟩ := h.outputs
    obtain ⟨second, hsecond, hno'⟩ := h'.outputs
    refine ⟨first ++ second, by rw [hsecond, hfirst, List.append_assoc], fun output houtput => ?_⟩
    rcases List.mem_append.mp houtput with hold | hnew
    · exact hno output hold
    · exact hno' output hnew

theorem LeavesInput.frame {c c' : Central L} (h : LeavesInput c c') (pipe : ℕ) :
    MotionFrame pipe c c' where
  input := congrFun h.input pipe
  outputs := by
    obtain ⟨more, hmore, hno⟩ := h.outputs
    exact ⟨more, hmore, fun output houtput _ => outputMotion_noInput (hno output houtput)⟩

theorem putInbound_frame (config : CentralConfig) (central : Central L)
    (inbound : CentralInbound L) (pipe : ℕ) :
    MotionFrame pipe central (central.putInbound config inbound) := by
  rw [Central.putInbound]
  split_ifs
  · exact ⟨rfl, [], (List.append_nil _).symm, by simp⟩
  · exact .refl pipe central

theorem applyHostIndicators_frame (config : CentralConfig) (central : Central L) (leds : UInt8)
    (pipe : ℕ) : MotionFrame pipe central (central.applyHostIndicators config leds) := by
  rw [Central.applyHostIndicators]
  split_ifs
  · exact ⟨rfl, [.hostIndicators leds], rfl, by simp [outputMotion]⟩
  · exact .refl pipe central

theorem emitInput_frame (central : Central L) {source pipe : ℕ} (hne : source ≠ pipe)
    (input : CentralInput) (events : List InputEvent) :
    MotionFrame pipe central (central.emitInput source input events) where
  input := Function.update_of_ne (Ne.symm hne) _ _
  outputs := by
    refine ⟨_, rfl, fun output houtput axis => ?_⟩
    obtain ⟨event, -, rfl⟩ := List.mem_map.mp houtput
    exact if_neg hne

/-- A packet from another pipe. -/
theorem ingestPacket_frame (config : CentralConfig) (central : Central L) {source pipe : ℕ}
    (hne : source ≠ pipe) (now : UInt32) (data : Bytes) :
    MotionFrame pipe central (central.ingestPacket config source now data) := by
  rw [Central.ingestPacket, centralIngestPacket]
  split_ifs
  · exact applyHostIndicators_frame config central _ pipe
  · refine MotionFrame.trans ?_ (putInbound_frame config _ _ pipe)
    rw [Central.inputReconcile]
    split_ifs
    · exact .refl pipe central
    · exact emitInput_frame central hne _ _
  · rw [ingestEvents_eq_foldl]
    refine List.foldlRecOn (motive := fun c : Central L => MotionFrame pipe central c) _ _
      (.refl pipe central) fun c hc event _ => hc.trans ?_
    cases event with
    | keyPosition event => exact putInbound_frame config c _ pipe
    | sensor event => exact putInbound_frame config c _ pipe
    | battery event => exact putInbound_frame config c _ pipe
    | input event =>
        change MotionFrame pipe c (c.inputDeliverEvent source now event)
        rw [Central.inputDeliverEvent]
        split_ifs
        · refine ⟨rfl, [_], rfl, fun output houtput axis => ?_⟩
          rw [List.mem_singleton.mp houtput]
          exact if_neg hne
        · exact emitInput_frame c hne _ _

/-! ## One axis -/

/-- The track of an axis follows what was applied to it, and what was forwarded
since its baseline is what the track moved by. -/
structure AxisInv (pipe : ℕ) (axis : MotionAxis) (central : Central L)
    (trace : Option AxisTrace) : Prop where
  mark_le : ∀ t, trace = some t → t.mark ≤ central.outputs.length
  tracked : Tracked trace (lookup axis (central.input pipe).motions)
    (trace.elim 0 fun t => movedSince pipe axis t.mark central)

variable {pipe : ℕ} {axis : MotionAxis} {central central' : Central L} {trace : Option AxisTrace}

theorem AxisInv.frame (h : AxisInv pipe axis central trace)
    (hframe : MotionFrame pipe central central') : AxisInv pipe axis central' trace := by
  obtain ⟨more, hmore, hzero⟩ := hframe.outputs
  refine ⟨fun t ht => ?_, ?_⟩
  · rw [hmore, List.length_append]
    exact Nat.le_add_right_of_le (h.mark_le t ht)
  · rw [hframe.input]
    cases htrace : trace with
    | none =>
        have htracked := h.tracked
        rw [htrace] at htracked
        exact htracked
    | some t =>
        have htracked := h.tracked
        have hsum : (more.map (outputMotion pipe axis)).sum = 0 := by
          refine List.sum_eq_zero fun value hvalue => ?_
          obtain ⟨output, houtput, rfl⟩ := List.mem_map.mp hvalue
          exact hzero output houtput axis
        rw [htrace] at htracked
        rw [Option.elim_some, movedSince_append hmore (h.mark_le t htrace), hsum, add_zero]
        exact htracked

/-- Forwarding events of the pipe moves the axis by their sum. A trace keeps its
mark, and a new one is marked where the events start. -/
theorem AxisInv.emitInput (h : AxisInv pipe axis central trace) {input : CentralInput}
    {events : List InputEvent} {trace' : Option AxisTrace}
    (hmark : ∀ t', trace' = some t' →
      (∃ t, trace = some t ∧ t'.mark = t.mark) ∨ (trace = none ∧ t'.mark = central.outputs.length))
    (htracked : Tracked trace' (lookup axis input.motions)
      ((trace.elim 0 fun t => movedSince pipe axis t.mark central) + motionSum axis events)) :
    AxisInv pipe axis (central.emitInput pipe input events) trace' := by
  have houtputs : (central.emitInput pipe input events).outputs = central.outputs ++
      events.map fun event => .peripheralEvent pipe (.input event) := rfl
  have hinput : (central.emitInput pipe input events).input pipe = input :=
    Function.update_self pipe _ _
  refine ⟨fun t' ht' => ?_, ?_⟩
  · rw [houtputs, List.length_append]
    rcases hmark t' ht' with ⟨t, ht, heq⟩ | ⟨-, heq⟩
    · rw [heq]
      exact Nat.le_add_right_of_le (h.mark_le t ht)
    · rw [heq]
      exact Nat.le_add_right _ _
  · rw [hinput]
    cases htrace' : trace' with
    | none =>
        rw [htrace'] at htracked
        exact htracked
    | some t' =>
        rw [htrace'] at htracked
        rcases hmark t' htrace' with ⟨t, ht, heq⟩ | ⟨hnone, heq⟩
        · rw [ht, Option.elim_some] at htracked
          rw [Option.elim_some, heq, movedSince_append houtputs (h.mark_le t ht),
            outputMotion_events]
          exact htracked
        · rw [hnone, Option.elim_none, zero_add] at htracked
          have hstart : movedSince pipe axis central.outputs.length central = 0 := by
            rw [movedSince, List.drop_length]
            rfl
          rw [Option.elim_some, heq, movedSince_append houtputs le_rfl, hstart, zero_add,
            outputMotion_events]
          exact htracked

theorem hear_mark {mark : ℕ} {carried : Carried} {t' : AxisTrace}
    (h : hear mark axis trace carried = some t') :
    (∃ t, trace = some t ∧ t'.mark = t.mark) ∨ (trace = none ∧ t'.mark = mark) := by
  cases carried with
  | none => exact Or.inl ⟨t', h, rfl⟩
  | some carried =>
      cases trace with
      | none =>
          rw [hear] at h
          split_ifs at h
          cases h
          exact Or.inr ⟨rfl, rfl⟩
      | some t =>
          rw [hear] at h
          split_ifs at h <;> cases h <;> exact Or.inl ⟨_, rfl, rfl⟩

theorem foldl_heal_mark {carried : List Carried} {t' : AxisTrace}
    (h : carried.foldl (heal axis) trace = some t') : ∃ t, trace = some t ∧ t'.mark = t.mark := by
  induction carried generalizing trace with
  | nil => exact ⟨t', h, rfl⟩
  | cons carried rest ih =>
      obtain ⟨t, ht, hmark⟩ := ih h
      cases carried with
      | none => exact ⟨t, ht, hmark⟩
      | some carried =>
          rw [heal] at ht
          split_ifs at ht
          · obtain ⟨t₀, rfl, rfl⟩ := Option.map_eq_some_iff.mp ht
            exact ⟨t₀, rfl, hmark⟩
          · exact ⟨t, ht, hmark⟩

/-! ## Marks -/

/-- An event of a packet and what it carries. -/
def DispatchMark (axes : List MotionAxis) (event : PeripheralEvent L) (carried : Carried) : Prop :=
  match event with
  | .input event => EventMark axes event carried
  | _ => carried = none

/-- A packet and what its records carry. -/
inductive PacketCarries (L : EventLayout) (axes : List MotionAxis) : Bytes → List Carried → Prop where
  | events {events : List (PeripheralEvent L)} {carried : List Carried}
      (h : List.Forall₂ (DispatchMark axes) events carried) :
      PacketCarries L axes (events.flatMap PeripheralEvent.encoding) carried
  | keepalive {snapshot : EsbKeepaliveSnapshot} {carried : List Carried}
      (hfit : snapshot.encodedLength ≤ 255)
      (h : List.Forall₂ HealMark snapshot.motionTotals carried) :
      PacketCarries L axes snapshot.encoding carried

inductive ThreadMark (config : PeripheralConfig L) (axes : List MotionAxis) : InputThread → Prop where
  | idle : ThreadMark config axes .idle
  | noted {event : InputEvent} (hlossy : config.inputIsLossy event.type event.code = true)
      (hreported : Reported config axes event) : ThreadMark config axes (.noted event)
  | ready {sent : InputEvent} {wantsAck : Bool} {carried : Carried}
      (h : EventMark axes sent carried) : ThreadMark config axes (.ready sent wantsAck carried)

theorem reported_sync {config : PeripheralConfig L} {axes : List MotionAxis} {event : InputEvent}
    (h : Reported config axes event) : event.sync &&& esbWireInputTotal = 0 := by
  rcases h.1 with hsync | hsync <;> rw [hsync] <;> rfl

theorem reported_sync_total {config : PeripheralConfig L} {axes : List MotionAxis}
    {event : InputEvent} (h : Reported config axes event) :
    (event.sync ||| esbWireInputTotal) &&& esbWireInputTotal ≠ 0 := by
  rcases h.1 with hsync | hsync <;> rw [hsync] <;> decide

/-- An event that is not lossy is no motion of a lossy axis. -/
theorem eventMark_of_acked {config : PeripheralConfig L} {axes : List MotionAxis}
    (hlossy : LossyAxes config axes) {event : InputEvent}
    (hacked : config.inputIsLossy event.type event.code = false)
    (hreported : Reported config axes event) : EventMark axes event none := by
  refine .plain (reported_sync hreported) fun axis haxis => if_neg ?_
  rintro ⟨htype, -, hcode⟩
  rw [htype, hcode, hlossy axis haxis] at hacked
  cases hacked

/-- An event the peripheral keeps no total for is no motion of an axis. -/
theorem eventMark_of_skipped {config : PeripheralConfig L} {axes : List MotionAxis}
    {event : InputEvent} (hskip : event.type ≠ inputEvRel ∨ 255 < event.code.toNat)
    (hreported : Reported config axes event) : EventMark axes event none := by
  refine .plain (reported_sync hreported) fun axis _ => if_neg ?_
  rintro ⟨htype, -, hcode⟩
  rcases hskip with hskip | hskip
  · exact hskip htype
  · have hlt := UInt8.toNat_lt axis.2
    rw [hcode, UInt8.toNat_toUInt16] at hskip
    omega

theorem eventMark_of_total {config : PeripheralConfig L} {axes : List MotionAxis}
    {event : InputEvent} (htype : event.type = inputEvRel) (hcode : event.code.toNat ≤ 255)
    (haxis : (event.reg, event.code.toUInt8) ∈ axes) (hreported : Reported config axes event)
    (total : ℤ) :
    EventMark axes
      { event with value := Int32.ofInt total, sync := event.sync ||| esbWireInputTotal }
      (some ((event.reg, event.code.toUInt8), total)) := by
  have hshort : event.code = event.code.toUInt8.toUInt16 := by
    refine UInt16.toNat_inj.mp ?_
    rw [UInt8.toNat_toUInt16, UInt16.toNat_toUInt8]
    exact (Nat.mod_eq_of_lt (by omega)).symm
  exact .total haxis htype rfl hshort (reported_sync_total hreported) rfl

/-! ## The invariant -/

/-- No input event waits in the queue. -/
def QueueNoInput (central : Central L) : Prop :=
  ∀ item ∈ central.eventMsgq, ∀ event, item.data = .event event → ¬event.IsInput

theorem QueueNoInput.queues {c c' : Central L} (h : QueueNoInput c)
    (hqueues : Queues (fun item => ∀ event, item.data = .event event → ¬event.IsInput) c c') :
    QueueNoInput c' := by
  obtain ⟨items, hitems, hno⟩ := hqueues
  intro item hitem
  rw [hitems] at hitem
  rcases List.mem_append.mp hitem with hold | hnew
  · exact h item hold
  · exact hno item hnew

/-- Every record carries the total it is marked with, and every axis on the central
follows what was applied to it. -/
structure MotionLinkInv {config : PeripheralConfig L} (axes : List MotionAxis) (pipe : ℕ)
    (link : MotionLink config) : Prop where
  totals : MotionTotals axes link.peripheral.motionSlots link.truth
  thread : ThreadMark config axes link.thread
  batch : List.Forall₂ (EventMark axes) link.peripheral.batch.events link.batchCarried
  read : ∀ read, link.read = some read → List.Forall₂ HealMark read.totals link.readCarried
  air : ∀ packet ∈ link.air, PacketCarries L axes packet.1 packet.2
  queue : QueueNoInput link.central
  within : Within axes (link.central.input pipe).motions
  decoding : List.Forall₂ (DispatchMark axes) link.decoding link.decodingCarried
  axis : ∀ axis ∈ axes, AxisInv pipe axis link.central (link.traces axis)

namespace MotionLinkInv

variable {config : PeripheralConfig L} {axes : List MotionAxis} {link : MotionLink config}

theorem init (config : PeripheralConfig L) (centralConfig : CentralConfig) (pipe : ℕ)
    (hslots : axes.length ≤ config.motionSlotCount) (htracks : axes.length ≤ motionTracksMax) :
    MotionLinkInv axes pipe (MotionLink.init config centralConfig) where
  totals := motionTotals_init hslots
  thread := .idle
  batch := .nil
  read _ h := by cases h
  air := by simp [MotionLink.init]
  queue _ h := by cases h
  within := within_replicate_none htracks
  decoding := .nil
  axis axis _ := { mark_le := fun _ h => (by cases h), tracked := lookup_replicate_none axis _ }

/-! ### The peripheral -/

theorem note (inv : MotionLinkInv axes pipe link) (hlossy : LossyAxes config axes)
    {event : InputEvent} (hreported : Reported config axes event) :
    MotionLinkInv axes pipe (link.note event) := by
  rw [MotionLink.note]
  split
  · have hslots : (link.peripheral.inputNoteEvent event).motionSlots =
        link.peripheral.motionSlots := by
      rw [Peripheral.inputNoteEvent]
      dsimp only
      split_ifs <;> rfl
    have hbatch : (link.peripheral.inputNoteEvent event).batch = link.peripheral.batch := by
      rw [Peripheral.inputNoteEvent]
      dsimp only
      split_ifs <;> rfl
    refine { inv with totals := ?_, thread := ?_, batch := ?_ }
    · change MotionTotals axes (link.peripheral.inputNoteEvent event).motionSlots link.truth
      rw [hslots]
      exact inv.totals
    · dsimp only
      split_ifs with hkind
      · exact .noted hkind hreported
      · exact .ready (eventMark_of_acked hlossy (Bool.eq_false_iff.mpr hkind) hreported)
    · change List.Forall₂ _ (link.peripheral.inputNoteEvent event).batch.events link.batchCarried
      rw [hbatch]
      exact inv.batch
  · exact inv

theorem claim (inv : MotionLinkInv axes pipe link) : MotionLinkInv axes pipe link.claim := by
  have hthread := inv.thread
  rw [MotionLink.claim]
  split
  · rename_i event hevent
    rw [hevent] at hthread
    cases hthread with
    | noted hkind hreported =>
        obtain ⟨htotals, hbatch⟩ := claimMotionSlot_totals inv.totals
          fun htype hcode => hreported.2 hkind htype hcode
        refine { inv with totals := htotals, thread := ?_, batch := ?_ }
        · change ThreadMark config axes link.thread
          exact inv.thread
        · change List.Forall₂ _ (link.peripheral.claimMotionSlot event).batch.events
            link.batchCarried
          rw [hbatch]
          exact inv.batch
  · exact inv

theorem total (inv : MotionLinkInv axes pipe link) : MotionLinkInv axes pipe link.total := by
  have hthread := inv.thread
  rw [MotionLink.total]
  split
  · rename_i event hevent
    rw [hevent] at hthread
    cases hthread with
    | noted hkind hreported =>
        by_cases hskip : event.type ≠ inputEvRel ∨ 255 < event.code.toNat
        · rw [motionToTotal_skip _ hskip]
          dsimp only
          rw [if_pos (reported_sync hreported)]
          exact { inv with thread := .ready (eventMark_of_skipped hskip hreported) }
        · rw [not_or, not_not, Nat.not_lt] at hskip
          have haxis := hreported.2 hkind hskip.1 hskip.2
          obtain ⟨htotals, hbatch, hsent⟩ :=
            motionToTotal_totals inv.totals hskip.1 hskip.2 haxis
          have hmark := eventMark_of_total hskip.1 hskip.2 haxis hreported
            (link.truth (event.reg, event.code.toUInt8) + event.value.toInt)
          have hflag : (link.peripheral.motionToTotal event).2.sync &&& esbWireInputTotal ≠ 0 := by
            rw [hsent]
            exact reported_sync_total hreported
          dsimp only
          rw [if_neg hflag]
          refine { inv with totals := htotals, thread := ?_, batch := ?_ }
          · rw [← hsent] at hmark
            exact .ready hmark
          · change List.Forall₂ _ (link.peripheral.motionToTotal event).1.batch.events
              link.batchCarried
            rw [hbatch]
            exact inv.batch
  · exact inv

/-- The input events of a batch are the events of its packet. -/
theorem dispatchMarks_of_events {events : List InputEvent} {carried : List Carried}
    (h : List.Forall₂ (EventMark axes) events carried) :
    List.Forall₂ (DispatchMark axes) (events.map (PeripheralEvent.input (L := L))) carried := by
  induction h with
  | nil => exact .nil
  | cons hmark _ ih => exact .cons hmark ih

theorem batchStep (inv : MotionLinkInv axes pipe link) : MotionLinkInv axes pipe link.batch := by
  have hthread := inv.thread
  rw [MotionLink.batch]
  split
  · rename_i sent wantsAck carried hready
    rw [hready] at hthread
    cases hthread with
    | ready hmark =>
        have hall : List.Forall₂ (EventMark axes) (link.peripheral.batch.events ++ [sent])
            (link.batchCarried ++ [carried]) := List.rel_append inv.batch (.cons hmark .nil)
        rcases batchReportEvent_cases link.peripheral.batch sent wantsAck with
          ⟨hevents, hpackets⟩ | ⟨hevents, hpackets⟩
        · refine { inv with thread := .idle, batch := ?_, air := ?_ }
          · dsimp only
            rw [if_neg (by rw [hevents]; simp), hevents]
            exact hall
          · dsimp only
            rw [hpackets, List.map_nil, List.append_nil]
            exact inv.air
        · refine { inv with thread := .idle, batch := ?_, air := ?_ }
          · dsimp only
            rw [if_pos hevents, hevents]
            exact .nil
          · dsimp only
            rw [hpackets]
            intro packet hpacket
            rcases List.mem_append.mp hpacket with hold | hnew
            · exact inv.air packet hold
            · rw [List.mem_singleton.mp hnew]
              exact .events (dispatchMarks_of_events hall)
  · exact inv

theorem report (inv : MotionLinkInv axes pipe link) (event : PeripheralEvent L) :
    MotionLinkInv axes pipe (link.report event) := by
  -- none of the other events reads or writes the motion slots or the batch
  have hother : ∀ {event : PeripheralEvent L} {peripheral : Peripheral config}
      {sent : PeripheralEvent L},
      peripheral.motionSlots = link.peripheral.motionSlots →
      peripheral.batch = link.peripheral.batch → ¬sent.IsInput →
      link.report event = { link with
        peripheral := peripheral
        air := link.air ++ [(PeripheralEvent.encoding sent, [none])] } →
      MotionLinkInv axes pipe (link.report event) := by
    intro event peripheral sent hslots hbatch hinput hreport
    rw [hreport]
    refine { inv with totals := ?_, batch := ?_, air := ?_ }
    · change MotionTotals axes peripheral.motionSlots link.truth
      rw [hslots]
      exact inv.totals
    · change List.Forall₂ _ peripheral.batch.events link.batchCarried
      rw [hbatch]
      exact inv.batch
    · intro packet hpacket
      rcases List.mem_append.mp hpacket with hold | hnew
      · exact inv.air packet hold
      · rw [List.mem_singleton.mp hnew]
        have hmark : List.Forall₂ (DispatchMark axes) [sent] [none] := by
          refine .cons ?_ .nil
          cases sent with
          | input event => exact absurd trivial hinput
          | keyPosition event => rfl
          | sensor event => rfl
          | battery event => rfl
        have hpacket := PacketCarries.events hmark
        rw [List.flatMap_singleton] at hpacket
        exact hpacket
  cases event with
  | input event => exact inv
  | keyPosition event =>
      refine @hother (.keyPosition event)
        (link.peripheral.noteKeyEvent (L.position event) (L.pressed event)) (.keyPosition event)
        rfl rfl id ?_
      rw [MotionLink.report]
      · rw [reportEvent_keyPosition]
        rfl
      · intro _ h
        cases h
  | battery event =>
      refine @hother (.battery event) link.peripheral (.battery event) rfl rfl id ?_
      rw [MotionLink.report]
      · rw [reportEvent_battery]
        rfl
      · intro _ h
        cases h
  | sensor event =>
      have hkeep : (link.peripheral.sensorEventToTotal event).1.motionSlots =
          link.peripheral.motionSlots ∧
          (link.peripheral.sensorEventToTotal event).1.batch = link.peripheral.batch := by
        rw [Peripheral.sensorEventToTotal]
        dsimp only
        split <;> exact ⟨rfl, rfl⟩
      refine @hother (.sensor event) (link.peripheral.sensorEventToTotal event).1
        (.sensor (link.peripheral.sensorEventToTotal event).2) hkeep.1 hkeep.2 id ?_
      rw [MotionLink.report]
      · rw [reportEvent_sensor]
        rfl
      · intro _ h
        cases h

theorem readSlot (inv : MotionLinkInv axes pipe link) :
    MotionLinkInv axes pipe link.readSlot := by
  rw [MotionLink.readSlot]
  split
  · exact inv
  · rename_i read hread
    refine { inv with read := ?_ }
    intro read' hread'
    cases hread'
    have hold := inv.read read hread
    by_cases hlt : read.index < config.motionSlotCount
    · rw [(read.next_spec link.peripheral hlt).2]
      refine List.rel_append hold ?_
      cases hslot : link.peripheral.motionSlots[read.index]? with
      | none => exact .nil
      | some slot =>
          cases slot with
          | none => exact .nil
          | some slot =>
              exact .cons (inv.totals.healMark (List.mem_of_getElem? hslot)) .nil
    · have hend : link.peripheral.motionSlots[read.index]? = none := by
        rw [List.getElem?_eq_none_iff, link.peripheral.motionSlots_length]
        exact Nat.not_lt.mp hlt
      rw [SnapshotRead.next, dif_neg hlt, hend]
      simpa using hold

theorem keepalive (inv : MotionLinkInv axes pipe link) (state linkCostX10 batteryLevel : UInt8) :
    MotionLinkInv axes pipe (link.keepalive state linkCostX10 batteryLevel) := by
  rw [MotionLink.keepalive]
  split
  · exact inv
  · rename_i read hread
    split_ifs
    · exact inv
    · refine { inv with read := fun _ h => (by cases h), air := ?_ }
      intro packet hpacket
      rcases List.mem_append.mp hpacket with hold | hnew
      · exact inv.air packet hold
      · obtain ⟨sent, hsent, rfl⟩ := List.mem_map.mp hnew
        obtain ⟨hdata, hfit⟩ := keepaliveFill_data (Option.mem_toList.mp hsent)
        change PacketCarries L axes sent.data link.readCarried
        rw [hdata]
        exact .keepalive hfit (inv.read read hread)

/-! ### The central -/

/-- A step of the central that leaves the input state of the pipe alone. -/
theorem centralFrame (inv : MotionLinkInv axes pipe link) {central : Central L}
    (hframe : MotionFrame pipe link.central central) (hqueue : QueueNoInput central) :
    MotionLinkInv axes pipe { link with central := central } :=
  { inv with
    queue := hqueue
    within := by
      change Within axes (central.input pipe).motions
      rw [hframe.input]
      exact inv.within
    axis := fun axis haxis => (inv.axis axis haxis).frame hframe }

theorem foldl_decoding (events : List (PeripheralEvent L)) (link : MotionLink config) :
    events.foldl (fun link event => { link with decoding := link.decoding ++ [event] }) link =
      { link with decoding := link.decoding ++ events } := by
  induction events generalizing link with
  | nil => simp
  | cons event events ih => simp [ih]

theorem receiveEvents {air : List (Bytes × List Carried)} (inv : MotionLinkInv axes pipe link)
    (hair : ∀ packet ∈ air, PacketCarries L axes packet.1 packet.2)
    (hdecoding : link.decoding = []) {events : List (PeripheralEvent L)} {carried : List Carried}
    (h : List.Forall₂ (DispatchMark axes) events carried) :
    MotionLinkInv axes pipe
      { link with air := air, decoding := link.decoding ++ events, decodingCarried := carried } :=
  { inv with
    air := hair
    decoding := by
      change List.Forall₂ _ (link.decoding ++ events) carried
      rw [hdecoding]
      exact h }

theorem receiveKeepalive (hpipe : pipe < esbLinkPipeMax) (centralConfig : CentralConfig)
    (inv : MotionLinkInv axes pipe link) {data : Bytes} {carried : List Carried}
    (h : List.Forall₂ HealMark (keepaliveTotals data) carried) (now : UInt32)
    (hdecoding : link.decoding = []) :
    MotionLinkInv axes pipe { link with
      central := Central.ingestKeepalive centralConfig pipe now link.central data
      decodingCarried := []
      traces := fun axis =>
        if esbMotionQuietEnough (now - (link.central.input pipe).motionHeardMs)
            centralConfig.hopWindowMs then
          carried.foldl (heal axis) (link.traces axis)
        else link.traces axis } := by
  obtain ⟨hwithin, htracked⟩ := CentralInput.reconcile_tracked h inv.within now
    centralConfig.hopWindowMs
  set reconciled := (link.central.input pipe).reconcile now centralConfig.hopWindowMs data
    with hreconciled
  have hemit : link.central.inputReconcile centralConfig pipe now data =
      link.central.emitInput pipe reconciled.1 reconciled.2 := by
    rw [Central.inputReconcile, if_neg (Nat.not_le.mpr hpipe)]
  have hput := putInbound_frame centralConfig (link.central.emitInput pipe reconciled.1
    reconciled.2) ⟨pipe, .keepalive (data.take centralConfig.maxPayload)
      (UInt8.ofNat (min data.length centralConfig.maxPayload))⟩ pipe
  have hself : (link.central.emitInput pipe reconciled.1 reconciled.2).input pipe =
      reconciled.1 := Function.update_self pipe _ _
  refine { inv with queue := ?_, within := ?_, decoding := ?_, axis := fun axis haxis => ?_ }
  · exact inv.queue.queues (ingestKeepalive_queues centralConfig pipe now link.central
      fun _ h => by cases h)
  · change Within axes ((Central.ingestKeepalive centralConfig pipe now link.central
      data).input pipe).motions
    rw [Central.ingestKeepalive, hemit, hput.input, hself]
    exact hwithin
  · change List.Forall₂ _ link.decoding []
    rw [hdecoding]
    exact .nil
  · change AxisInv pipe axis (Central.ingestKeepalive centralConfig pipe now link.central data) _
    rw [Central.ingestKeepalive, hemit]
    refine AxisInv.frame ?_ hput
    refine (inv.axis axis haxis).emitInput (fun t ht => Or.inl ?_)
      (htracked axis _ _ (inv.axis axis haxis).tracked)
    dsimp only at ht
    split_ifs at ht
    · exact foldl_heal_mark ht
    · exact ⟨t, ht, rfl⟩

theorem receive (inv : MotionLinkInv axes pipe link) (hpipe : pipe < esbLinkPipeMax)
    (centralConfig : CentralConfig) (now : UInt32) :
    MotionLinkInv axes pipe (link.receive centralConfig pipe now) := by
  rw [MotionLink.receive]
  split
  · rename_i data carried air hdecoding hair
    have hpacket : PacketCarries L axes data carried :=
      inv.air (data, carried) (by rw [hair]; exact List.mem_cons_self)
    have hrest : ∀ packet ∈ air, PacketCarries L axes packet.1 packet.2 := fun packet h =>
      inv.air packet (by rw [hair]; exact List.mem_cons_of_mem _ h)
    cases hpacket with
    | @events events carried hmarks =>
        have hnot := not_esbKeepaliveMatches events
          (UInt8.ofNat (events.flatMap PeripheralEvent.encoding).length) fun hnil => by
            rw [hnil]
            rfl
        rw [centralIngestPacket_events _ _ _ _ (not_esbIsHostIndicators events) hnot,
          decodedEvents_flatMap, foldl_decoding]
        exact inv.receiveEvents hrest hdecoding hmarks
    | @keepalive snapshot carried hfit hmarks =>
        have hmatches := esbKeepaliveMatches_encoding [] hfit
        have hread := read_encoding [] hfit
        rw [List.append_nil] at hmatches hread
        have htotals : keepaliveTotals snapshot.encoding = snapshot.motionTotals :=
          congrArg EsbKeepaliveSnapshot.motionTotals hread
        have hair' : MotionLinkInv axes pipe { link with air := air } := { inv with air := hrest }
        rw [← snapshot.encoding_length] at hmatches
        rw [centralIngestPacket]
        by_cases hind : esbIsHostIndicators snapshot.encoding = true
        · rw [if_pos hind]
          refine ({ hair' with decoding := ?_ } : MotionLinkInv axes pipe
            { link with air := air, decodingCarried := [] }).centralFrame
              (applyHostIndicators_frame centralConfig _ _ pipe) ?_
          · change List.Forall₂ _ link.decoding []
            rw [hdecoding]
            exact .nil
          · exact inv.queue.queues
              (queues_of_eq (applyHostIndicators_eventMsgq centralConfig _ _))
        · rw [if_neg hind, if_pos hmatches]
          exact hair'.receiveKeepalive hpipe centralConfig (by rw [htotals]; exact hmarks) now
            hdecoding
  · exact inv

theorem dispatch (inv : MotionLinkInv axes pipe link) (hpipe : pipe < esbLinkPipeMax)
    (centralConfig : CentralConfig) (now : UInt32) :
    MotionLinkInv axes pipe (link.dispatch centralConfig pipe now) := by
  have hmarks := inv.decoding
  rw [MotionLink.dispatch]
  split
  · rename_i event decoding carried decodingCarried hevent hcarried
    rw [hevent, hcarried, List.forall₂_cons] at hmarks
    obtain ⟨hmark, hrest⟩ := hmarks
    have hqueue : QueueNoInput (Central.dispatchEvent centralConfig pipe now link.central event) :=
      inv.queue.queues (dispatchEvent_queues centralConfig pipe now link.central
        fun hinput e he => by cases he; exact hinput)
    by_cases hinput : event.IsInput
    · cases event with
      | keyPosition event => cases hinput
      | sensor event => cases hinput
      | battery event => cases hinput
      | input event =>
          obtain ⟨hwithin, htracked⟩ := CentralInput.deliverEvent_tracked hmark inv.within now
            link.central.outputs.length
          have hdeliver : Central.dispatchEvent centralConfig pipe now link.central
              (.input event) = link.central.emitInput pipe
                ((link.central.input pipe).deliverEvent now event).1
                ((link.central.input pipe).deliverEvent now event).2 := by
            change link.central.inputDeliverEvent pipe now event = _
            rw [Central.inputDeliverEvent, if_neg (Nat.not_le.mpr hpipe)]
          rw [hdeliver] at hqueue
          rw [hdeliver]
          refine { inv with
            queue := hqueue, within := ?_, decoding := hrest, axis := fun axis haxis => ?_ }
          · have hself : (link.central.emitInput pipe
                ((link.central.input pipe).deliverEvent now event).1
                ((link.central.input pipe).deliverEvent now event).2).input pipe =
                ((link.central.input pipe).deliverEvent now event).1 :=
              Function.update_self pipe _ _
            dsimp only
            rw [hself]
            exact hwithin
          · refine (inv.axis axis haxis).emitInput (fun t ht => hear_mark ht)
              (htracked axis haxis _ _ (inv.axis axis haxis).tracked fun hnone => ?_)
            rw [hnone]
            rfl
    · have hnone : carried = none := by
        cases event with
        | input event => exact absurd trivial hinput
        | keyPosition event => exact hmark
        | sensor event => exact hmark
        | battery event => exact hmark
      have hframe : MotionFrame pipe link.central
          (Central.dispatchEvent centralConfig pipe now link.central event) := by
        cases event with
        | input event => exact absurd trivial hinput
        | keyPosition event => exact putInbound_frame centralConfig link.central _ pipe
        | sensor event => exact putInbound_frame centralConfig link.central _ pipe
        | battery event => exact putInbound_frame centralConfig link.central _ pipe
      subst hnone
      exact { inv.centralFrame hframe hqueue with decoding := hrest }
  · exact inv

theorem work (inv : MotionLinkInv axes pipe link) (centralConfig : CentralConfig) :
    MotionLinkInv axes pipe
      { link with central := link.central.eventWorkStep centralConfig } := by
  rw [Central.eventWorkStep]
  cases hqueue : link.central.eventMsgq with
  | nil => exact inv
  | cons item queue =>
      have hno : ∀ item' ∈ item :: queue, ∀ event, item'.data = .event event → ¬event.IsInput := by
        have h := inv.queue
        rw [QueueNoInput, hqueue] at h
        exact h
      have hhandle := handleInbound_leavesInput centralConfig
        { link.central with eventMsgq := queue } (hno item List.mem_cons_self)
      refine inv.centralFrame ((MotionFrame.trans ?_ (hhandle.frame pipe))) ?_
      · exact ⟨rfl, [], (List.append_nil _).symm, by simp⟩
      · intro item' hitem'
        rw [hhandle.eventMsgq] at hitem'
        exact hno item' (List.mem_cons_of_mem _ hitem')

theorem foreign (inv : MotionLinkInv axes pipe link) (centralConfig : CentralConfig) {source : ℕ}
    (hne : source ≠ pipe) (now : UInt32) (data : Bytes) :
    MotionLinkInv axes pipe
      { link with central := link.central.ingestPacket centralConfig source now data } :=
  inv.centralFrame (ingestPacket_frame centralConfig link.central hne now data)
    (inv.queue.queues (ingestPacket_queues centralConfig link.central now
      (fun _ _ h => by cases h) fun _ _ _ hinput e he => by cases he; exact hinput))

theorem releaseStale (inv : MotionLinkInv axes pipe link) (hpipe : pipe < esbLinkPipeMax)
    (source : ℕ) :
    MotionLinkInv axes pipe
      { link with
        central := link.central.releaseStalePipe source
        traces := if source = pipe then fun _ => none else link.traces } := by
  have hrelease := releaseStalePipe_releasesInput link.central source
  have hqueue : QueueNoInput (link.central.releaseStalePipe source) :=
    inv.queue.queues (queues_of_eq hrelease.eventMsgq)
  obtain ⟨more, hmore, hno⟩ := hrelease.outputs
  by_cases hs : source = pipe
  · subst hs
    have hmotions : ((link.central.releaseStalePipe source).input source).motions =
        List.replicate (link.central.input source).trackedMotions.length none := by
      rw [hrelease.self hpipe]
      rfl
    have hroom : axes.length ≤ (link.central.input source).trackedMotions.length := by
      have hlength : (link.central.input source).motions.length =
          (link.central.input source).trackedMotions.length := by
        rw [CentralInput.motions, CentralInput.applyInputReset]
        split_ifs
        · exact List.length_replicate
        · rfl
      rw [← hlength]
      exact inv.within.room
    refine { inv with queue := hqueue, within := ?_, axis := fun axis _ => ?_ }
    · change Within axes ((link.central.releaseStalePipe source).input source).motions
      rw [hmotions]
      exact within_replicate_none hroom
    · dsimp only
      rw [if_pos rfl]
      refine { mark_le := fun _ h => (by cases h), tracked := ?_ }
      change lookup axis ((link.central.releaseStalePipe source).input source).motions = none
      rw [hmotions]
      exact lookup_replicate_none axis _
  · rw [if_neg hs]
    exact inv.centralFrame ⟨hrelease.other pipe (Ne.symm hs), more, hmore,
      fun output houtput _ => outputMotion_noInput (hno output houtput)⟩ hqueue

theorem step (inv : MotionLinkInv axes pipe link) (hpipe : pipe < esbLinkPipeMax)
    (centralConfig : CentralConfig) (hlossy : LossyAxes config axes)
    {action : MotionLinkAction L} (hreports : action.Reports config axes) :
    MotionLinkInv axes pipe (link.step centralConfig pipe action) := by
  cases action with
  | note event => exact inv.note hlossy hreports
  | claim => exact inv.claim
  | total => exact inv.total
  | batch => exact inv.batchStep
  | report event => exact inv.report event
  | readStart => exact { inv with read := fun _ h => by cases h; exact .nil }
  | readSlot => exact inv.readSlot
  | keepalive state linkCostX10 batteryLevel => exact inv.keepalive state linkCostX10 batteryLevel
  | lose index =>
      exact { inv with air := fun packet h => inv.air packet (List.mem_of_mem_eraseIdx h) }
  | receive now => exact inv.receive hpipe centralConfig now
  | dispatch now => exact inv.dispatch hpipe centralConfig now
  | work => exact inv.work centralConfig
  | foreign source now data =>
      rw [MotionLink.step]
      split_ifs with hs
      · exact inv
      · exact inv.foreign centralConfig hs now data
  | releaseStale source => exact inv.releaseStale hpipe source

end MotionLinkInv

/-- Along every run whose lossy relative events are of the axes the invariant holds. -/
theorem motionLink_invariant {config : PeripheralConfig L} (centralConfig : CentralConfig)
    (hpipe : pipe < esbLinkPipeMax) {axes : List MotionAxis} (hlossy : LossyAxes config axes)
    (hslots : axes.length ≤ config.motionSlotCount) (htracks : axes.length ≤ motionTracksMax)
    {actions : List (MotionLinkAction L)}
    (hreports : ∀ action ∈ actions, action.Reports config axes) :
    MotionLinkInv axes pipe (Transition.run (MotionLink.step centralConfig pipe)
      (MotionLink.init config centralConfig) actions) := by
  induction actions using List.reverseRecOn with
  | nil => exact .init config centralConfig pipe hslots htracks
  | append_singleton actions action ih =>
      rw [Transition.run_append]
      exact (ih fun a ha => hreports a (List.mem_append_left _ ha)).step hpipe centralConfig hlossy
        (hreports action (List.mem_append_right _ (List.mem_singleton_self _)))

/-! ## Conservation -/

/-- In every reachable state and for each axis: while consecutive totals the central
applied differ by at most 8192, what it forwarded since the baseline is the
untruncated total applied last minus the baseline's, and the track holds the last
total's word. The heals of one keepalive carry one sync flag, on the last. -/
theorem lossy_motion_conserved (L : EventLayout) (config : PeripheralConfig L)
    (centralConfig : CentralConfig) (pipe : ℕ) (hpipe : pipe < esbLinkPipeMax)
    (axes : List MotionAxis) (hlossy : LossyAxes config axes)
    (hslots : axes.length ≤ config.motionSlotCount) (htracks : axes.length ≤ motionTracksMax)
    (actions : List (MotionLinkAction L))
    (hreports : ∀ action ∈ actions, action.Reports config axes) :
    let link := Transition.run (MotionLink.step centralConfig pipe)
      (MotionLink.init config centralConfig) actions
    (∀ axis ∈ axes, ∀ trace, link.traces axis = some trace → trace.Bounded →
      movedSince pipe axis trace.mark link.central = trace.last - trace.first ∧
      lookup axis (link.central.input pipe).motions = some ⟨Int32.ofInt trace.last, true⟩) ∧
    ∀ (now : UInt32) (keepalive : Bytes),
      let heals := ((link.central.input pipe).healLostMotion now centralConfig.hopWindowMs
        keepalive).2
      heals = [] ∨ ∃ front last, heals = front ++ [last] ∧ (∀ heal ∈ front, heal.sync = 0) ∧
        last.sync = 1 := by
  intro link
  have inv : MotionLinkInv axes pipe link :=
    motionLink_invariant centralConfig hpipe hlossy hslots htracks hreports
  refine ⟨fun axis haxis trace htrace hbounded => ?_, fun now keepalive =>
    CentralInput.healLostMotion_sync _ now _ keepalive⟩
  have htracked := (inv.axis axis haxis).tracked
  rw [htrace] at htracked
  obtain ⟨track, hslot, hfollows⟩ := htracked
  obtain ⟨hlast, hmoved⟩ := hfollows.exact hbounded
  refine ⟨hmoved, ?_⟩
  rw [hslot, ← hlast, ← hfollows.valid]

def sampleMove (value : Int32) : List (MotionLinkAction zmkLayout) :=
  [.note ⟨0, 1, inputEvRel, 1, value⟩, .claim, .total, .batch]

/-- A move that arrives, one that is lost, and the keepalive that heals it. -/
def sampleMotionRun : List (MotionLinkAction zmkLayout) :=
  sampleMove 5 ++ [.receive 0, .dispatch 0] ++ sampleMove (-8) ++
    [.lose 0, .readStart, .readSlot, .readSlot, .keepalive 0 10 255, .receive 64]

theorem lossy_motion_conserved_sample :
    movedSince 1 (0, 1) 0 (Transition.run (MotionLink.step sampleCentralConfig 1)
      (MotionLink.init samplePeripheralConfig sampleCentralConfig) sampleMotionRun).central = -8 :=
  ((lossy_motion_conserved zmkLayout samplePeripheralConfig sampleCentralConfig 1 (by decide)
    [(0, 0), (0, 1)] (by
      intro axis haxis
      simp only [List.mem_cons, List.not_mem_nil, or_false] at haxis
      rcases haxis with rfl | rfl <;> decide) (by decide) (by decide) sampleMotionRun (by
      intro action haction
      simp only [sampleMotionRun, sampleMove, List.cons_append, List.nil_append, List.mem_cons,
        List.not_mem_nil, or_false] at haction
      rcases haction with rfl | rfl | rfl | rfl | rfl | rfl | rfl | rfl | rfl | rfl | rfl | rfl |
        rfl | rfl | rfl | rfl
      · exact ⟨Or.inr rfl, by decide⟩
      all_goals first | exact trivial | exact ⟨Or.inr rfl, by decide⟩)).1 (0, 1) (by decide)
    ⟨0, 5, [-3]⟩ (by decide +kernel) (by rw [AxisTrace.Bounded, Residue.Bounded]; decide)).1.trans (by decide)

end SplitEsb
