import SplitEsb.Reply.Delivery

/-! # Totals in the payloads
While the relay is active, every mouse report of a payload carries the totals of the
moment the payload was handed over. -/

namespace SplitEsb

open ByteString

variable {config : ReplyConfig}

/-! ## What is stamped -/

/-- Every mouse report of the payload carries these totals. -/
def Stamped (config : ReplyConfig) (totals : PointerTotals Int16) (data : Bytes) : Prop :=
  ∀ report ∈ relayReports config data, byteAt report 0 = zmkHidReportIdMouse →
    ∀ axis, shortTotalAt report axis = totals.get axis

/-- The payload goes to esb_hid_relay_deliver once the FIFO took it. -/
def AckWrite.delivers (write : AckWrite) : Bool :=
  match write.source with
  | .control _ _ => false
  | _ => write.accepted

/-- What the relay keepalive latches: whole reports of held state, none of the pointer. -/
def HoldsStates (config : ReplyConfig) (data : Bytes) : Prop :=
  ∃ reports : List Bytes, data = reports.flatten ∧
    ∀ report ∈ reports, IsRelayReport config report ∧ byteAt report 0 ≠ zmkHidReportIdMouse

/-- What an active relay does: whole reports, latched states, no pause. -/
def ActiveRelay (config : ReplyConfig) : ReplyAction → Prop
  | .put pipe data => config.relayPipe pipe = true → IsRelayReport config data
  | .latchIdle pipe data => config.relayPipe pipe = true → HoldsStates config data
  | .pointer (.pause on) => on = false
  | _ => True

namespace RelayPointer

variable {pointer : RelayPointer}

theorem totals_of_take {room : ℕ} {changesQueued : Bool} {bytes : Bytes}
    (hactive : pointer.active = true) (h : pointer.take room changesQueued = some bytes) :
    ∃ body : MouseReportBody, bytes = body.encode ∧ body.totals = pointer.shortTotals := by
  simp only [take] at h
  split_ifs at h
  refine ⟨_, (Option.some.inj h).symm, ?_⟩
  rw [stampTotals, if_pos hactive]

theorem totals_of_stamp {bytes stamped : Bytes} (hactive : pointer.active = true)
    (h : pointer.stamp bytes = some stamped) :
    ∃ body : MouseReportBody, stamped = body.encode ∧ body.totals = pointer.shortTotals := by
  obtain ⟨-, rfl⟩ := stamp_eq_some_iff.mp h
  exact ⟨_, rfl, by simp [stampTotals, hactive]⟩

end RelayPointer

theorem shortTotalAt_of_totals {body : MouseReportBody} {totals : PointerTotals Int16}
    (h : body.totals = totals) (axis : PointerAxis) :
    shortTotalAt body.encode axis = totals.get axis := by
  rw [MouseReportBody.shortTotalAt_encode, h]

theorem isMouseReport_of_isRelayReport {report : Bytes} (h : IsRelayReport config report)
    (hid : byteAt report 0 = zmkHidReportIdMouse) : RelayPointer.isMouseReport report = true := by
  have hlength := h.length
  rw [hid] at hlength
  have hten : relayReportLength config zmkHidReportIdMouse = esbHidRelayPointerLength := rfl
  simp [RelayPointer.isMouseReport, hid, hlength, hten]

namespace ReplyLink

variable {pipe : ℕ} {link : ReplyLink config}

/-- The pointer report at the end of a payload carries the totals too. -/
theorem stamped_append {reports : List Bytes} {totals : PointerTotals Int16}
    (hwhole : ∀ report ∈ reports, IsRelayReport config report)
    (hreports : ∀ report ∈ reports, byteAt report 0 = zmkHidReportIdMouse →
      ∀ axis, shortTotalAt report axis = totals.get axis)
    {pointer : Option MouseReportBody} (hpointer : ∀ body ∈ pointer, body.totals = totals) :
    Stamped config totals (reports.flatten ++ (pointer.map MouseReportBody.encode).getD []) := by
  intro report hmem hid axis
  rw [relayReports_flatten_append hwhole] at hmem
  rcases List.mem_append.mp hmem with hold | hlast
  · exact hreports report hold hid axis
  · cases pointer with
    | none => cases hlast
    | some body =>
        rw [List.mem_singleton.mp hlast]
        exact shortTotalAt_of_totals (hpointer body rfl) axis

theorem exists_pointer {data : Bytes} {report : Option Bytes}
    (hactive : link.pointer.active = true)
    (hreport : ∀ bytes ∈ report, ∃ changesQueued,
      link.appendPointer pipe data changesQueued = some bytes) :
    ∃ pointer : Option MouseReportBody, report = pointer.map MouseReportBody.encode ∧
      ∀ body ∈ pointer, body.totals = link.pointer.shortTotals := by
  cases report with
  | none => exact ⟨none, rfl, by simp⟩
  | some bytes =>
      obtain ⟨changesQueued, happend⟩ := hreport bytes rfl
      rw [appendPointer] at happend
      split at happend
      · cases happend
      · obtain ⟨body, rfl, htotals⟩ := RelayPointer.totals_of_take hactive happend
        refine ⟨some body, rfl, fun other hother => ?_⟩
        cases hother
        exact htotals

theorem stamped_packed (hactive : link.pointer.active = true)
    (hrelay : config.relayPipe pipe = true)
    (hwhole : ∀ packet ∈ link.queue pipe, IsRelayReport config packet) :
    Stamped config link.pointer.shortTotals (link.withPointer pipe (link.packed pipe)).data := by
  obtain ⟨report, hdata, hreport⟩ := data_withPointer link pipe (link.packed pipe)
  obtain ⟨pointer, rfl, hpointer⟩ := exists_pointer hactive hreport
  rw [hdata, data_packed, hrelay]
  refine stamped_append (fun sent hmem => ?_) (fun sent hmem hid axis => ?_) hpointer
  · obtain ⟨packet, hpacket, rfl⟩ := List.mem_map.mp hmem
    exact isRelayReport_of_rewritten (rewritten_sentForm packet)
      (hwhole packet (List.mem_of_mem_take hpacket))
  · obtain ⟨packet, hpacket, rfl⟩ := List.mem_map.mp hmem
    have hreport := hwhole packet (List.mem_of_mem_take hpacket)
    rw [sentForm, if_pos rfl] at hid ⊢
    cases hstamp : link.pointer.stamp packet with
    | some stamped =>
        obtain ⟨body, rfl, htotals⟩ := RelayPointer.totals_of_stamp hactive hstamp
        exact shortTotalAt_of_totals htotals axis
    | none =>
        rw [hstamp] at hid
        have hmouse := isMouseReport_of_isRelayReport hreport hid
        simp [RelayPointer.stamp, hmouse] at hstamp

theorem stamped_idle (hactive : link.pointer.active = true) {latched : Bytes}
    (hlatched : HoldsStates config latched) : Stamped config link.pointer.shortTotals
      (latched ++ (link.appendPointer pipe latched false).getD []) := by
  obtain ⟨reports, rfl, hreports⟩ := hlatched
  have happend : ∀ bytes ∈ link.appendPointer pipe reports.flatten false, ∃ changesQueued,
      link.appendPointer pipe reports.flatten changesQueued = some bytes :=
    fun bytes hbytes => ⟨false, hbytes⟩
  obtain ⟨pointer, hpointer, htotals⟩ := exists_pointer hactive happend
  rw [hpointer]
  exact stamped_append (fun report hmem => (hreports report hmem).1)
    (fun report hmem hid => absurd hid (hreports report hmem).2) htotals

/-! ## Through the interrupt -/

/-- The payloads handed over for the pipe since the start carry the totals of the start. -/
def HandsOver (pipe : ℕ) (start link : ReplyLink config) : Prop :=
  ∃ made, link.writesOf pipe = start.writesOf pipe ++ made ∧ ∀ write ∈ made,
    write.delivers = true → Stamped config start.pointer.shortTotals write.data

/-- What an interrupt keeps of a relay pipe since it started. -/
structure Stamps (pipe : ℕ) (start link : ReplyLink config) : Prop where
  relay : link.RelaySound pipe
  states : (link.idle pipe).Calls fun call => HoldsStates config call.data
  active : link.pointer.active = true
  sums : link.pointer.sums = start.pointer.sums
  made : HandsOver pipe start link

theorem pointer_sent_if (pointer : RelayPointer) (sent : Bool) (bytes : Bytes) :
    (if sent then pointer.sent bytes else pointer).active = pointer.active ∧
      (if sent then pointer.sent bytes else pointer).sums = pointer.sums := by
  cases sent <;> exact ⟨rfl, rfl⟩

theorem pointer_writeFresh (link : ReplyLink config) (fifo : AckFifo) (turn : ℕ)
    (fresh : Option ℕ) :
    (link.writeFresh fifo turn fresh).pointer.active = link.pointer.active ∧
      (link.writeFresh fifo turn fresh).pointer.sums = link.pointer.sums := by
  rw [writeFresh_eq]
  dsimp only
  split
  · exact ⟨rfl, rfl⟩
  · exact pointer_sent_if ..

/-- The interrupt moves neither the totals nor the pause. -/
theorem pointer_replyTo (link : ReplyLink config) (fifo : AckFifo) (turn : ℕ) :
    (replyTo fifo link turn).pointer.active = link.pointer.active ∧
      (replyTo fifo link turn).pointer.sums = link.pointer.sums := by
  refine replyTo_cases (motive := fun after => after.pointer.active = link.pointer.active ∧
    after.pointer.sums = link.pointer.sums) ?_ ?_ ?_
  · intro kind slot _
    rw [writeControl_eq]
    exact ⟨rfl, rfl⟩
  · intro _ _
    rw [writePacked_eq]
    exact pointer_sent_if ..
  · intro _ _
    have hwritten := pointer_writeFresh (link.freshIdleReply turn).1 fifo turn
      (link.freshIdleReply turn).2
    rw [(freshIdleReply_keeps link turn).2.2.1] at hwritten
    exact hwritten

/-- One more payload of the pipe. -/
theorem HandsOver.attempt {start after : ReplyLink config} (h : HandsOver pipe start link)
    (hsums : link.pointer.sums = start.pointer.sums) {fifo : AckFifo} {source : ReplySource}
    {data : Bytes} (hwrites : after.writes = link.writes ++ [link.attempt fifo pipe source data])
    (hdata : (link.attempt fifo pipe source data).delivers = true →
      Stamped config link.pointer.shortTotals data) : HandsOver pipe start after := by
  obtain ⟨made, hmade, hstamped⟩ := h
  refine ⟨made ++ [link.attempt fifo pipe source data], ?_, fun write hmem hdelivers => ?_⟩
  · rw [writesOf_attempt hwrites, hmade, List.append_assoc]
  · rcases List.mem_append.mp hmem with hold | hnew
    · exact hstamped write hold hdelivers
    · rw [List.mem_singleton.mp hnew] at hdelivers ⊢
      have htotals : link.pointer.shortTotals = start.pointer.shortTotals := by
        rw [RelayPointer.shortTotals, hsums, RelayPointer.shortTotals]
      exact htotals ▸ hdata hdelivers

/-- What is served of the idle latch is nothing or what was latched last. -/
theorem idleBytes_last (hcells : link.CellsSound) {fresh : Option ℕ}
    (hfresh : ∀ slot ∈ fresh, (link.idle pipe).latch.peek = some slot) :
    link.idleBytes pipe fresh = [] ∨
      ∃ call ∈ (link.idle pipe).history.getLast?, link.idleBytes pipe fresh = call.data := by
  cases fresh with
  | none => exact .inl rfl
  | some slot =>
      obtain ⟨-, call, hcall, hfilled⟩ := (hcells.idle pipe).peek slot (hfresh slot rfl)
      exact .inr ⟨call, hcall, hfilled.bytes⟩

/-- What is served of the idle latch is nothing or what a call latched. -/
theorem idleBytes_cases {ok : Bytes → Prop} (hcells : link.CellsSound)
    (hcalls : (link.idle pipe).Calls fun call => ok call.data) {fresh : Option ℕ}
    (hfresh : ∀ slot ∈ fresh, (link.idle pipe).latch.peek = some slot) :
    link.idleBytes pipe fresh = [] ∨ ok (link.idleBytes pipe fresh) := by
  refine (idleBytes_last hcells hfresh).imp_right ?_
  rintro ⟨call, hcall, hbytes⟩
  rw [hbytes]
  exact hcalls.history call (List.mem_of_getLast? hcall)

/-- The idle reply that is served holds states only. -/
theorem HandsOver.writeFresh {start : ReplyLink config} (h : HandsOver pipe start link)
    (hsums : link.pointer.sums = start.pointer.sums) (hactive : link.pointer.active = true)
    (hcells : link.CellsSound)
    (hstates : (link.idle pipe).Calls fun call => HoldsStates config call.data) (fifo : AckFifo)
    {fresh : Option ℕ} (hfresh : ∀ slot ∈ fresh, (link.idle pipe).latch.peek = some slot) :
    HandsOver pipe start (link.writeFresh fifo pipe fresh) := by
  have hlatched : HoldsStates config (link.idleBytes pipe fresh) := by
    rcases idleBytes_cases hcells hstates hfresh with hnone | hheld
    · exact hnone ▸ ⟨[], rfl, by simp⟩
    · exact hheld
  rw [writeFresh_eq]
  dsimp only
  split
  · exact h
  · exact h.attempt hsums rfl fun _ => stamped_idle hactive hlatched

theorem idleStore_data {repliesStaged : UInt32} {counted done : ℕ} {call next : IdleCall}
    {slot value : IdleReply config}
    (h : IdleReply.store repliesStaged counted done call slot = some (next, value)) :
    next.data = call.data := by
  rw [IdleReply.store] at h
  split_ifs at h <;> cases h <;> rfl

/-- A step of a thread keeps what the calls of the idle latch latch. -/
theorem calls_thread {ok : Bytes → Prop} (h : (link.idle pipe).Calls fun call => ok call.data)
    {action : ReplyAction} (hlatch : ∀ data, action = .latchIdle pipe data → ok data)
    (hthread : ∀ pipesAcked fifo, action ≠ .rxDone pipesAcked fifo) :
    ((link.step action).idle pipe).Calls fun call => ok call.data := by
  cases action with
  | put other data =>
      change ((link.stagePut other data).idle pipe).Calls _
      rw [stagePut]
      split_ifs <;> exact h
  | count other =>
      change ((link.stageCount other).idle pipe).Calls _
      rw [stageCount]
      split_ifs <;> exact h
  | latchControl other kind data =>
      change ((link.latchControl other kind data).idle pipe).Calls _
      rw [latchControl]
      split_ifs <;> exact h
  | controlStatement other kind => exact h
  | latchIdle other data =>
      change ((link.latchIdleReply other data).idle pipe).Calls _
      rw [latchIdleReply]
      split_ifs
      · exact h
      · exact h
      · rw [idle_setIdle]
        split
        case isTrue hsame =>
            subst hsame
            exact h.begin (hlatch data rfl)
        case isFalse => exact h
  | idleStatement other =>
      change ((link.idleStatement other).idle pipe).Calls _
      rw [idleStatement, idle_setIdle]
      split
      case isTrue hsame =>
          subst hsame
          refine h.advance fun hcall hvalue => ?_
          rw [idleStore_data hvalue]
          exact hcall
      case isFalse => exact h
  | pointer action => exact h
  | rxDone pipesAcked fifo => exact absurd rfl (hthread pipesAcked fifo)

/-- Releasing the latch keeps its calls. -/
theorem calls_replyTo (link : ReplyLink config) (fifo : AckFifo) (pipe : ℕ) :
    ((replyTo fifo link pipe).idle pipe).writer = (link.idle pipe).writer ∧
      ((replyTo fifo link pipe).idle pipe).history = (link.idle pipe).history := by
  refine replyTo_cases (motive := fun after => (after.idle pipe).writer = (link.idle pipe).writer ∧
    (after.idle pipe).history = (link.idle pipe).history) ?_ ?_ ?_
  · intro kind slot _
    rw [writeControl_eq]
    exact ⟨rfl, rfl⟩
  · intro _ _
    rw [writePacked_eq]
    exact ⟨rfl, rfl⟩
  · intro _ _
    have hwritten := calls_writeFresh (link.freshIdleReply pipe).1 fifo pipe
      (link.freshIdleReply pipe).2
    have hfresh := calls_freshIdleReply link pipe
    exact ⟨hwritten.1.trans hfresh.1, hwritten.2.trans hfresh.2⟩

/-- The turn of the relay pipe itself. -/
theorem Stamps.handsOver {start : ReplyLink config} (h : Stamps pipe start link)
    (hrelay : config.relayPipe pipe = true) (fifo : AckFifo) :
    HandsOver pipe start (ReplyLink.replyTo fifo link pipe) := by
  refine replyTo_cases (motive := HandsOver pipe start) ?_ ?_ ?_
  · intro kind slot _
    rw [writeControl_eq]
    exact h.made.attempt h.sums rfl nofun
  · intro _ _
    rw [writePacked_eq]
    exact h.made.attempt h.sums rfl fun _ =>
      stamped_packed h.active hrelay (h.relay.queued hrelay)
  · intro _ _
    obtain ⟨hwrites, -, hpointer, -⟩ := freshIdleReply_keeps link pipe
    have hmade : HandsOver pipe start (link.freshIdleReply pipe).1 := by
      rw [HandsOver, writesOf, hwrites]
      exact h.made
    have hcalls := calls_freshIdleReply link pipe
    have hstates : ((link.freshIdleReply pipe).1.idle pipe).Calls
        fun call => HoldsStates config call.data :=
      ⟨hcalls.1 ▸ h.states.writer, hcalls.2 ▸ h.states.history⟩
    exact hmade.writeFresh (hpointer ▸ h.sums) (hpointer ▸ h.active)
      (h.relay.cells.freshIdleReply pipe) hstates fifo fun slot hslot => peek_of_fresh hslot

theorem Stamps.replyTo {start : ReplyLink config} (h : Stamps pipe start link)
    (hrelay : config.relayPipe pipe = true) (fifo : AckFifo) (turn : ℕ) :
    Stamps pipe start (ReplyLink.replyTo fifo link turn) := by
  have hpointer := pointer_replyTo link fifo turn
  have hsound := h.relay.replyTo fifo turn
  rcases eq_or_ne pipe turn with rfl | hne
  · have hcalls := calls_replyTo link fifo pipe
    exact ⟨hsound, ⟨hcalls.1 ▸ h.states.writer, hcalls.2 ▸ h.states.history⟩,
      hpointer.1.trans h.active, hpointer.2.trans h.sums, h.handsOver hrelay fifo⟩
  · have hsame : Untouched pipe link (ReplyLink.replyTo fifo link turn) := .replyTo fifo hne
    refine ⟨hsound, hsame.idle ▸ h.states, hpointer.1.trans h.active, hpointer.2.trans h.sums, ?_⟩
    rw [HandsOver, hsame.writesOf]
    exact h.made

theorem Stamps.rxDone (h : Stamps pipe link link) (hrelay : config.relayPipe pipe = true)
    (fifo : AckFifo) (pipesAcked : UInt8) : Stamps pipe link (link.rxDone fifo pipesAcked) :=
  rxDone_turns (Stamps pipe link) (fun _ _ => True) (fun _ _ _ _ _ => trivial)
    (fun _ turn _ _ hlink => hlink.replyTo hrelay fifo turn) h fun _ _ => trivial

end ReplyLink

end SplitEsb
