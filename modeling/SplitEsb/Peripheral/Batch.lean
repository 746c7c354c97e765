import SplitEsb.Peripheral.Packets
import SplitEsb.Shared.Transition

/-! # Batches and their sends
A batch as the source keeps it, with what the radio answers to each packet. The packets
are the reported events cut into groups, in order. -/

namespace SplitEsb

open ByteString Transition

variable {L : EventLayout}

/-- A call of esb_link_send, and what it returned. -/
structure LinkSend where
  packet : UplinkPacket
  error : Int32

/-- The used entries of the batch's array and its wish, and the sends so far. -/
structure Batching (config : PeripheralConfig L) where
  events : List InputEvent
  wantsAck : Bool
  sends : List LinkSend

/-- One call of esb_batch_report_event, and what a send in it returns. -/
structure BatchReport where
  event : InputEvent
  wantsAck : Bool
  error : Int32

namespace Batching

variable {config : PeripheralConfig L}

def init (config : PeripheralConfig L) : Batching config := ⟨[], false, []⟩

/-- `esb_batch_flush` and its return value. -/
def esbBatchFlush (batch : Batching config) (error : Int32) : Batching config × Int32 :=
  if batch.events.length = 0 then (batch, 0)
  else
    ({ events := [], wantsAck := false
       sends := batch.sends ++ [⟨⟨batchWire config batch.events, batch.wantsAck⟩, error⟩] }, error)

/-- `esb_batch_report_event`. It fails where the event would land past the array. -/
def esbBatchReportEvent (batch : Batching config) (report : BatchReport) :
    Option (Batching config × Int32) :=
  if config.esbBatchMax ≤ batch.events.length then none
  else
    let batch := { batch with
      events := batch.events ++ [report.event]
      wantsAck := if report.wantsAck then true else batch.wantsAck }
    if batchFlushDue config batch.events report.event then some (batch.esbBatchFlush report.error)
    else some (batch, 0)

def reportFrom (batch : Batching config) (reports : List BatchReport) : Option (Batching config) :=
  reports.foldlM (fun batch report => (batch.esbBatchReportEvent report).map Prod.fst) batch

/-- A run of reports, from an empty batch. -/
def reportAll (config : PeripheralConfig L) (reports : List BatchReport) :
    Option (Batching config) :=
  (init config).reportFrom reports

theorem batchReportEvent_due {batch : EsbBatch config} {event : InputEvent}
    (h : batchFlushDue config (batch.events ++ [event]) event = true) (wantsAck : Bool) :
    batchReportEvent batch event wantsAck = (⟨[], false, config.esbBatchMax_pos⟩,
      batchFlush config (batch.events ++ [event]) (batch.wantsAck || wantsAck)) := by
  rw [batchReportEvent]
  split
  · rfl
  · rename_i hwait
    rw [h] at hwait
    cases hwait

theorem batchReportEvent_wait {batch : EsbBatch config} {event : InputEvent}
    (h : batchFlushDue config (batch.events ++ [event]) event = false) (wantsAck : Bool) :
    batchReportEvent batch event wantsAck = (⟨batch.events ++ [event],
      batch.wantsAck || wantsAck, length_lt_of_not_batchFlushDue h⟩, []) := by
  rw [batchReportEvent]
  split
  · rename_i hdue
    rw [h] at hdue
    cases hdue
  · rfl

/-- With room for the event, the call does what the batch with its bound as a field does. -/
theorem esbBatchReportEvent_eq (batch : EsbBatch config) (sends : List LinkSend)
    (report : BatchReport) :
    let reported := batchReportEvent batch report.event report.wantsAck
    ((⟨batch.events, batch.wantsAck, sends⟩ : Batching config).esbBatchReportEvent report).map
        Prod.fst =
      some ⟨reported.1.events, reported.1.wantsAck,
        sends ++ reported.2.map fun packet => ⟨packet, report.error⟩⟩ := by
  have hroom : ¬config.esbBatchMax ≤ batch.events.length := Nat.not_le.mpr batch.count_lt
  have hwish : (if report.wantsAck then true else batch.wantsAck) =
      (batch.wantsAck || report.wantsAck) := by cases report.wantsAck <;> simp
  rw [esbBatchReportEvent, if_neg hroom, hwish]
  cases hdue : batchFlushDue config (batch.events ++ [report.event]) report.event with
  | true =>
      rw [batchReportEvent_due hdue]
      dsimp only
      rw [hdue, if_pos rfl, esbBatchFlush, if_neg (by simp), batchFlush, if_neg (by simp)]
      rfl
  | false =>
      rw [batchReportEvent_wait hdue]
      dsimp only
      rw [hdue, if_neg Bool.false_ne_true, List.map_nil, List.append_nil]
      rfl

/-! ## Groups -/

/-- An event that flushes the batch whatever waits in it. -/
def Closes (event : InputEvent) : Prop :=
  event.sync &&& esbWireInputSync ≠ 0 ∨ event.type = inputEvKey

instance (event : InputEvent) : Decidable (Closes event) :=
  inferInstanceAs (Decidable (event.sync &&& esbWireInputSync ≠ 0 ∨ event.type = inputEvKey))

/-- The packet of a group carries exactly its events, and asks for an ACK iff one of them
wants one. -/
structure PacketOf (config : PeripheralConfig L) (group : List BatchReport) (send : LinkSend) :
    Prop where
  decoded : decodedEvents L send.packet.data = group.map fun report => .input report.event
  fits : send.packet.data.length ≤ config.maxPayload
  count_pos : 0 < group.length
  count_le : group.length ≤ config.esbBatchMax
  ack : send.packet.ack = group.any BatchReport.wantsAck
  error : group.getLast?.map BatchReport.error = some send.error

/-- The reports so far are the groups sent, in order, and those that wait. -/
structure Grouped (groups : List (List BatchReport)) (waiting : List BatchReport)
    (batch : Batching config) : Prop where
  packets : List.Forall₂ (PacketOf config) groups batch.sends
  events : batch.events = waiting.map BatchReport.event
  wantsAck : batch.wantsAck = waiting.any BatchReport.wantsAck
  room : waiting.length < config.esbBatchMax
  waits : ∀ report ∈ waiting, ¬Closes report.event

variable {groups : List (List BatchReport)} {waiting : List BatchReport} {batch : Batching config}

theorem Grouped.init (config : PeripheralConfig L) : Grouped [] [] (init config) where
  packets := .nil
  events := rfl
  wantsAck := rfl
  room := config.esbBatchMax_pos
  waits := by simp

theorem batchFlushDue_iff (events : List InputEvent) (event : InputEvent) :
    batchFlushDue config events event = true ↔
      Closes event ∨ config.esbBatchMax ≤ events.length := by
  rw [batchFlushDue, Closes]
  split_ifs with hsync hkey
  · simp [hsync]
  · simp [hkey]
  · simp [hkey, not_not.mp hsync]

/-- A report joins those that wait, or goes out with them. -/
theorem Grouped.report (h : Grouped groups waiting batch) (report : BatchReport) :
    ∃ after, (batch.esbBatchReportEvent report).map Prod.fst = some after ∧
      ((¬Closes report.event ∧ waiting.length + 1 < config.esbBatchMax) ∧
          Grouped groups (waiting ++ [report]) after ∧ after.sends = batch.sends ∨
        (Closes report.event ∨ waiting.length + 1 = config.esbBatchMax) ∧
          Grouped (groups ++ [waiting ++ [report]]) [] after) := by
  have hroom := h.room
  have hlength : batch.events.length = waiting.length := by rw [h.events, List.length_map]
  have hall : batch.events ++ [report.event] = (waiting ++ [report]).map BatchReport.event := by
    rw [h.events, List.map_append, List.map_singleton]
  have hwish : (batch.wantsAck || report.wantsAck) =
      (waiting ++ [report]).any BatchReport.wantsAck := by
    rw [h.wantsAck, List.any_append, List.any_cons, List.any_nil, Bool.or_false]
  have hcount : (batch.events ++ [report.event]).length = waiting.length + 1 := by
    rw [List.length_append, hlength, List.length_singleton]
  -- the reports that wait fit the batch, whose own bound keeps the call from failing
  have hcall := esbBatchReportEvent_eq
    (⟨batch.events, batch.wantsAck, hlength.trans_lt hroom⟩ : EsbBatch config) batch.sends report
  refine ⟨_, hcall, ?_⟩
  have hdue := @batchFlushDue_iff L config (batch.events ++ [report.event]) report.event
  rw [hcount] at hdue
  by_cases hclose : Closes report.event ∨ config.esbBatchMax ≤ waiting.length + 1
  · rw [batchReportEvent_due (hdue.mpr hclose), batchFlush, if_neg (by simp)]
    refine .inr ⟨hclose.imp id fun hfull => by omega, ?_⟩
    have hfits : (batch.events ++ [report.event]).length ≤ config.esbBatchMax := by omega
    have hwire := batchWire_eq hfits
    refine ⟨List.rel_append h.packets (.cons ⟨?_, ?_, by simp,
      (List.length_append.trans_le hroom), hwish, by simp⟩
      .nil), rfl, rfl, config.esbBatchMax_pos, by simp⟩
    · dsimp only
      rw [hwire, decodedEvents_flatMap, hall, List.map_map]
      rfl
    · dsimp only
      rw [hwire, List.flatMap_map, flatMap_length fun event => @input_encoding_length L event]
      exact (Nat.mul_le_mul_right _ hfits).trans (Nat.div_mul_le_self _ _)
  · rw [batchReportEvent_wait (Bool.eq_false_iff.mpr fun h => hclose (hdue.mp h))]
    rw [not_or, Nat.not_le] at hclose
    dsimp only
    rw [List.map_nil, List.append_nil]
    refine .inl ⟨hclose, ⟨h.packets, hall, hwish, by simpa using hclose.2, ?_⟩, rfl⟩
    intro other hother
    rcases List.mem_append.mp hother with hold | hnew
    · exact h.waits other hold
    · rw [List.mem_singleton.mp hnew]
      exact hclose.1

/-! ## Every run -/

theorem reportAll_append (config : PeripheralConfig L) (reports : List BatchReport)
    (report : BatchReport) :
    reportAll config (reports ++ [report]) = (reportAll config reports).bind fun batch =>
      (batch.esbBatchReportEvent report).map Prod.fst := by
  simp only [reportAll, reportFrom, List.foldlM_append, List.foldlM_cons, List.foldlM_nil, bind_pure]
  rfl

theorem exists_grouped (config : PeripheralConfig L) (reports : List BatchReport) :
    ∃ batch groups waiting, reportAll config reports = some batch ∧
      reports = groups.flatten ++ waiting ∧ Grouped groups waiting batch := by
  induction reports using List.reverseRecOn with
  | nil => exact ⟨_, [], [], rfl, rfl, .init config⟩
  | append_singleton reports report ih =>
      obtain ⟨batch, groups, waiting, hrun, hsplit, hgrouped⟩ := ih
      obtain ⟨after, hcall, ⟨-, hnext, -⟩ | ⟨-, hnext⟩⟩ := hgrouped.report report
      · refine ⟨after, groups, waiting ++ [report], ?_, ?_, hnext⟩
        · rw [reportAll_append, hrun]
          exact hcall
        · rw [hsplit, List.append_assoc]
      · refine ⟨after, groups ++ [waiting ++ [report]], [], ?_, ?_, hnext⟩
        · rw [reportAll_append, hrun]
          exact hcall
        · rw [hsplit, List.flatten_append, List.flatten_singleton, List.append_nil,
            List.append_assoc]

theorem packets_decoded {sends : List LinkSend} (h : List.Forall₂ (PacketOf config) groups sends) :
    (sends.flatMap fun send => decodedEvents L send.packet.data) =
      groups.flatten.map fun report => .input report.event := by
  induction h with
  | nil => rfl
  | cons hpacket _ ih =>
      rw [List.flatMap_cons, List.flatten_cons, List.map_append, hpacket.decoded, ih]

/-- What the packets and the buffer hold, concatenated. -/
theorem Grouped.decoded (h : Grouped groups waiting batch) :
    (batch.sends.flatMap fun send => decodedEvents L send.packet.data) ++
        batch.events.map .input =
      (groups.flatten ++ waiting).map fun report => .input report.event := by
  rw [packets_decoded h.packets, h.events, List.map_map, List.map_append]
  rfl

/-! ## What the radio answers makes no difference -/

/-- Reports that differ only in what their sends return. -/
def SameReport (report other : BatchReport) : Prop :=
  report.event = other.event ∧ report.wantsAck = other.wantsAck

/-- Batches that differ only in what their sends returned. -/
structure SamePackets (batch other : Batching config) : Prop where
  events : batch.events = other.events
  wantsAck : batch.wantsAck = other.wantsAck
  packets : batch.sends.map LinkSend.packet = other.sends.map LinkSend.packet

theorem SamePackets.report {batch other after : Batching config} (h : SamePackets batch other)
    {report otherReport : BatchReport} (hreport : SameReport report otherReport)
    (hcall : (batch.esbBatchReportEvent report).map Prod.fst = some after) :
    ∃ otherAfter, (other.esbBatchReportEvent otherReport).map Prod.fst = some otherAfter ∧
      SamePackets after otherAfter := by
  rw [esbBatchReportEvent] at hcall ⊢
  rw [← h.events, ← h.wantsAck, ← hreport.1, ← hreport.2]
  by_cases hfull : config.esbBatchMax ≤ batch.events.length
  · rw [if_pos hfull] at hcall
    cases hcall
  · rw [if_neg hfull] at hcall ⊢
    dsimp only at hcall ⊢
    by_cases hdue : batchFlushDue config (batch.events ++ [report.event]) report.event = true
    · rw [if_pos hdue, esbBatchFlush, if_neg (by simp)] at hcall
      rw [if_pos hdue, esbBatchFlush, if_neg (by simp)]
      cases hcall
      refine ⟨_, rfl, rfl, rfl, ?_⟩
      dsimp only
      rw [List.map_append, List.map_append, h.packets]
      rfl
    · rw [if_neg hdue] at hcall
      rw [if_neg hdue]
      cases hcall
      exact ⟨_, rfl, rfl, rfl, h.packets⟩

theorem SamePackets.reportFrom {batch other after : Batching config} (h : SamePackets batch other)
    {reports others : List BatchReport} (hreports : List.Forall₂ SameReport reports others)
    (hrun : batch.reportFrom reports = some after) :
    ∃ otherAfter, other.reportFrom others = some otherAfter ∧ SamePackets after otherAfter := by
  induction hreports generalizing batch other with
  | nil =>
      cases hrun
      exact ⟨other, rfl, h⟩
  | cons hreport _ ih =>
      rw [Batching.reportFrom, List.foldlM_cons] at hrun
      obtain ⟨next, hcall, hrest⟩ := Option.bind_eq_some_iff.mp hrun
      obtain ⟨otherNext, hotherCall, hnext⟩ := h.report hreport hcall
      obtain ⟨otherAfter, hotherRest, hafter⟩ := ih hnext hrest
      refine ⟨otherAfter, ?_, hafter⟩
      rw [Batching.reportFrom, List.foldlM_cons, hotherCall]
      exact hotherRest

/-- Packets and buffer together hold exactly the reported events, cut into groups; whatever
the sends return, a closing or filling event empties the batch. -/
theorem batching_transparent (config : PeripheralConfig L) (reports : List BatchReport) :
    ∃ batch groups waiting, reportAll config reports = some batch ∧
      reports = groups.flatten ++ waiting ∧ Grouped groups waiting batch ∧
      (batch.sends.flatMap fun send => decodedEvents L send.packet.data) ++
          batch.events.map .input = reports.map (fun report => .input report.event) ∧
      (∀ report : BatchReport, ∃ after,
        (batch.esbBatchReportEvent report).map Prod.fst = some after ∧
          if Closes report.event ∨ batch.events.length + 1 = config.esbBatchMax then
            after.events = [] ∧ after.wantsAck = false
          else after.events = batch.events ++ [report.event] ∧ after.sends = batch.sends) ∧
      ∀ others, List.Forall₂ SameReport reports others →
        ∃ other, reportAll config others = some other ∧ SamePackets batch other := by
  obtain ⟨batch, groups, waiting, hrun, hsplit, hgrouped⟩ := exists_grouped config reports
  refine ⟨batch, groups, waiting, hrun, hsplit, hgrouped, ?_, fun report => ?_, fun others hothers =>
    SamePackets.reportFrom ⟨rfl, rfl, rfl⟩ hothers hrun⟩
  · rw [hsplit]
    exact hgrouped.decoded
  · have hlength : batch.events.length = waiting.length := by
      rw [hgrouped.events, List.length_map]
    obtain ⟨after, hcall, ⟨⟨hopen, hroom⟩, hnext, hsends⟩ | ⟨hclose, hnext⟩⟩ :=
      hgrouped.report report
    · refine ⟨after, hcall, ?_⟩
      have hwait : ¬(Closes report.event ∨ batch.events.length + 1 = config.esbBatchMax) := by
        rintro (hclose | hfull)
        · exact hopen hclose
        · omega
      rw [if_neg hwait, hnext.events, hgrouped.events, List.map_append]
      exact ⟨rfl, hsends⟩
    · refine ⟨after, hcall, ?_⟩
      rw [if_pos (by rw [hlength]; exact hclose)]
      exact ⟨hnext.events, hnext.wantsAck⟩

end Batching

end SplitEsb
