import SplitEsb.Relay.Deliver
import SplitEsb.Reply.Queue

/-! # Every staged report is delivered once
The queued parts of the accepted payloads, one after the other, are the staged reports
in order, and the dongle splits each payload into what was packed. -/

namespace SplitEsb

open ByteString Transition

variable {config : ReplyConfig}

/-! ## What a payload carries -/

/-- A report as it leaves: a mouse report keeps its buttons while the relay is active,
and gets other totals. -/
def Rewritten (active : Bool) (packet sent : Bytes) : Prop :=
  if RelayPointer.isMouseReport packet then
    ∃ totals : PointerTotals Int16, sent = (MouseReportBody.mk
      (if active then byteAt packet esbHidRelayPointerButtonsOffset else 0) totals).encode
  else sent = packet

def AckWrite.takesQueued (write : AckWrite) : Bool :=
  match write.source with
  | .queued _ => write.accepted
  | _ => false

/-- A relay payload holds the reports of its part and at most a pointer report after
them; any other payload is one packet. -/
structure AckWrite.CarriesPart (config : ReplyConfig) (write : AckWrite) (part : List Bytes) :
    Prop where
  part_ne : part ≠ []
  relay : config.relayPipe write.pipe = true → ∃ (sent : List Bytes) (pointer : Option MouseReportBody),
    List.Forall₂ (Rewritten write.active) part sent ∧
      write.data = sent.flatten ++ (pointer.map MouseReportBody.encode).getD [] ∧
      relayReports config write.data = sent ++ (pointer.map MouseReportBody.encode).toList
  command : config.relayPipe write.pipe = false → part = [write.data]

/-- Relay pipes get whole reports; any packet of at most a payload may go elsewhere. -/
def WholeReports (config : ReplyConfig) : ReplyAction → Prop
  | .put pipe data => config.relayPipe pipe = true → IsRelayReport config data
  | _ => True

instance (config : ReplyConfig) (action : ReplyAction) : Decidable (WholeReports config action) :=
  action.casesOn
    (fun pipe data =>
      inferInstanceAs (Decidable (config.relayPipe pipe = true → IsRelayReport config data)))
    (fun _ => .isTrue trivial) (fun _ _ _ => .isTrue trivial) (fun _ _ => .isTrue trivial)
    (fun _ _ => .isTrue trivial) (fun _ => .isTrue trivial) (fun _ => .isTrue trivial)
    (fun _ _ => .isTrue trivial)

namespace ReplyLink

/-! ## Packing -/

theorem rewritten_sentForm {pointer : RelayPointer} (packet : Bytes) :
    Rewritten pointer.active packet (sentForm true pointer packet) := by
  rw [Rewritten, sentForm, if_pos rfl]
  cases hstamp : pointer.stamp packet with
  | some stamped =>
      obtain ⟨hmouse, rfl⟩ := RelayPointer.stamp_eq_some_iff.mp hstamp
      rw [if_pos hmouse]
      exact ⟨_, rfl⟩
  | none =>
      cases hmouse : RelayPointer.isMouseReport packet with
      | false => simp
      | true => simp [RelayPointer.stamp, hmouse] at hstamp

theorem relayReports_flatten_append {reports : List Bytes}
    (h : ∀ report ∈ reports, IsRelayReport config report) (pointer : Option MouseReportBody) :
    relayReports config (reports.flatten ++ (pointer.map MouseReportBody.encode).getD []) =
      reports ++ (pointer.map MouseReportBody.encode).toList := by
  have hwhole : ∀ report ∈ reports ++ (pointer.map MouseReportBody.encode).toList,
      IsRelayReport config report := by
    intro report hmem
    rcases List.mem_append.mp hmem with hold | hlast
    · exact h report hold
    · cases pointer with
      | none => cases hlast
      | some body =>
          rw [List.mem_singleton.mp hlast]
          exact isRelayReport_encode body
  rw [← relayReports_flatten hwhole]
  cases pointer <;> simp [relayReports_flatten h]

theorem isRelayReport_of_rewritten {active : Bool} {packet sent : Bytes}
    (h : Rewritten active packet sent) (hpacket : IsRelayReport config packet) :
    IsRelayReport config sent := by
  rw [Rewritten] at h
  split at h
  · obtain ⟨totals, rfl⟩ := h
    exact isRelayReport_encode _
  · rw [h]
    exact hpacket

variable {pipe : ℕ} {link : ReplyLink config}

/-- What a turn packs is carried whole by the payload it hands over. -/
theorem carriesPart_attempt (fifo : AckFifo)
    (hwhole : config.relayPipe pipe = true → ∀ packet ∈ link.queue pipe, IsRelayReport config packet)
    (htaken : (link.packed pipe).taken ≠ 0) :
    (link.attempt fifo pipe (.queued (link.packed pipe).taken)
      (link.withPointer pipe (link.packed pipe)).data).CarriesPart config
        ((link.queue pipe).take (link.packed pipe).taken) := by
  have hle := taken_packed_le link pipe
  obtain ⟨report, hdata, hreport⟩ := data_withPointer link pipe (link.packed pipe)
  refine ⟨fun hnil => ?_, fun hrelay => ?_, fun hcommand => ?_⟩
  · have := congrArg List.length hnil
    rw [List.length_take_of_le hle] at this
    exact htaken this
  · have hrelay : config.relayPipe pipe = true := hrelay
    obtain ⟨pointer, hpointer⟩ : ∃ pointer : Option MouseReportBody,
        report = pointer.map MouseReportBody.encode := by
      cases report with
      | none => exact ⟨none, rfl⟩
      | some bytes =>
          obtain ⟨changesQueued, happend⟩ := hreport bytes rfl
          rw [appendPointer, hrelay] at happend
          obtain ⟨body, rfl⟩ := RelayPointer.encode_of_take happend
          exact ⟨some body, rfl⟩
    have hsent := data_packed link pipe
    rw [hrelay] at hsent
    have hdata : (link.withPointer pipe (link.packed pipe)).data =
        (((link.queue pipe).take (link.packed pipe).taken).map
          (sentForm true link.pointer)).flatten ++ (pointer.map MouseReportBody.encode).getD [] := by
      rw [hdata, hsent, hpointer]
    refine ⟨_, pointer, List.forall₂_map_right_iff.mpr (List.forall₂_same.mpr fun packet _ =>
      rewritten_sentForm packet), hdata, ?_⟩
    refine (congrArg (relayReports config) hdata).trans (relayReports_flatten_append ?_ pointer)
    intro sent hmem
    obtain ⟨packet, hpacket, rfl⟩ := List.mem_map.mp hmem
    exact isRelayReport_of_rewritten (rewritten_sentForm packet)
      (hwhole hrelay packet (List.mem_of_mem_take hpacket))
  · have hcommand : config.relayPipe pipe = false := hcommand
    have hone := (packs_packed link pipe).alone hcommand
    have hreport : report = none := by
      refine Option.eq_none_iff_forall_not_mem.mpr fun bytes hbytes => ?_
      obtain ⟨changesQueued, happend⟩ := hreport bytes hbytes
      rw [appendPointer, hcommand] at happend
      cases happend
    have hsent := data_packed link pipe
    rw [hcommand] at hsent
    obtain ⟨packet, packets, hqueue⟩ := List.exists_cons_of_length_pos
      (Nat.lt_of_lt_of_le (Nat.pos_of_ne_zero htaken) hle)
    have htaken : (link.packed pipe).taken = 1 := by omega
    change (link.queue pipe).take _ = [(link.withPointer pipe (link.packed pipe)).data]
    rw [hdata, hsent, hreport, htaken, hqueue]
    simp [sentForm]

/-! ## Every run -/

/-- The accepted payloads of the queue carry the staged reports, in order and each once,
up to those still queued. A payload with no queued report is one pointer report. -/
structure RelaysExactly (pipe : ℕ) (link : ReplyLink config) : Prop where
  parts : ∃ parts : List (List Bytes), link.staged pipe = parts.flatten ++ link.queue pipe ∧
    List.Forall₂ (AckWrite.CarriesPart config)
      ((link.writesOf pipe).filter AckWrite.takesQueued) parts
  bounded : ∀ write ∈ link.writesOf pipe, write.data.length ≤ config.maxPayload
  pointerAlone : ∀ write ∈ link.writesOf pipe, write.source = .idle none →
    ∃ body : MouseReportBody, write.data = body.encode ∧
      relayReports config write.data = [body.encode]

theorem RelaysExactly.boot (config : ReplyConfig) (pipe : ℕ) : (boot config).RelaysExactly pipe where
  parts := ⟨[], rfl, .nil⟩
  bounded := by intro write hmem; cases hmem
  pointerAlone := by intro write hmem; cases hmem

theorem RelaysExactly.frame {after : ReplyLink config} (h : link.RelaysExactly pipe)
    (hsame : Untouched pipe link after) : after.RelaysExactly pipe where
  parts := by simpa only [hsame.staged, hsame.queue, hsame.writesOf] using h.parts
  bounded := by simpa only [hsame.writesOf] using h.bounded
  pointerAlone := by simpa only [hsame.writesOf] using h.pointerAlone

theorem writesOf_attempt {after : ReplyLink config} {fifo : AckFifo} {source : ReplySource}
    {data : Bytes} (hwrites : after.writes = link.writes ++ [link.attempt fifo pipe source data]) :
    after.writesOf pipe = link.writesOf pipe ++ [link.attempt fifo pipe source data] := by
  rw [writesOf, hwrites, List.filter_append]
  simp [writesOf, attempt]

/-- A write takes its part from the front of the queue, or nothing. -/
theorem RelaysExactly.write {after : ReplyLink config} (h : link.RelaysExactly pipe)
    {fifo : AckFifo} {source : ReplySource} {data : Bytes}
    (hwrites : after.writes = link.writes ++ [link.attempt fifo pipe source data])
    (hstaged : after.staged pipe = link.staged pipe) (part : List Bytes)
    (hqueue : link.queue pipe = part ++ after.queue pipe)
    (hpart : if (link.attempt fifo pipe source data).takesQueued then
      (link.attempt fifo pipe source data).CarriesPart config part else part = [])
    (hle : data.length ≤ config.maxPayload)
    (halone : source = .idle none → ∃ body : MouseReportBody, data = body.encode) :
    after.RelaysExactly pipe := by
  refine ⟨?_, ?_, ?_⟩ <;> rw [writesOf_attempt hwrites]
  · obtain ⟨parts, hsplit, hcarries⟩ := h.parts
    rw [hstaged, List.filter_append]
    split at hpart
    case isTrue htakes =>
        refine ⟨parts ++ [part], ?_, ?_⟩
        · rw [hsplit, hqueue, List.flatten_append, List.flatten_singleton, List.append_assoc]
        · simp only [List.filter_singleton, htakes]
          exact List.rel_append hcarries (.cons hpart .nil)
    case isFalse htakes =>
        refine ⟨parts, ?_, ?_⟩
        · rw [hsplit, hqueue, hpart, List.nil_append]
        · simpa [htakes] using hcarries
  · intro write hmem
    rcases List.mem_append.mp hmem with hold | hnew
    · exact h.bounded write hold
    · rw [List.mem_singleton.mp hnew]
      exact hle
  · intro write hmem hsource
    rcases List.mem_append.mp hmem with hold | hnew
    · exact h.pointerAlone write hold hsource
    · rw [List.mem_singleton.mp hnew] at hsource ⊢
      obtain ⟨body, hbody⟩ := halone hsource
      have hdata : (link.attempt fifo pipe source data).data = body.encode := hbody
      have hwhole : relayReports config [body.encode].flatten = [body.encode] := by
        refine relayReports_flatten fun report hreport => ?_
        rw [List.mem_singleton.mp hreport]
        exact isRelayReport_encode body
      refine ⟨body, hdata, ?_⟩
      rw [hdata]
      simpa using hwhole

theorem RelaysExactly.writeControl (h : link.RelaysExactly pipe) (hsound : link.CellsSound)
    (fifo : AckFifo) {kind : EsbLinkControl} {slot : ℕ}
    (hpending : link.pendingControl pipe = some (kind, slot)) :
    (link.writeControl fifo pipe kind slot).RelaysExactly pipe := by
  obtain ⟨-, call, -, hfilled⟩ :=
    (hsound.control pipe kind).peek slot (pendingControl_eq_some hpending)
  rw [writeControl_eq]
  refine h.write rfl rfl [] (List.nil_append _).symm rfl ?_ nofun
  rw [hfilled.bytes]
  exact hfilled.length_le.trans config.control_fits

theorem RelaysExactly.writePacked (h : link.RelaysExactly pipe) (fifo : AckFifo)
    (hwhole : config.relayPipe pipe = true → ∀ packet ∈ link.queue pipe, IsRelayReport config packet)
    (htaken : (link.packed pipe).taken ≠ 0) :
    (link.writePacked fifo pipe (link.withPointer pipe (link.packed pipe))).RelaysExactly pipe := by
  have hcarries := carriesPart_attempt fifo hwhole htaken
  have hle := length_withPointer_le link pipe (length_data_packed_le link pipe)
  rw [writePacked_eq]
  dsimp only
  rw [taken_withPointer]
  have htakes : (link.attempt fifo pipe (.queued (link.packed pipe).taken)
      (link.withPointer pipe (link.packed pipe)).data).takesQueued = (link.attempt fifo pipe
        (.queued (link.packed pipe).taken) (link.withPointer pipe (link.packed pipe)).data).accepted :=
    rfl
  cases haccepted : (link.attempt fifo pipe (.queued (link.packed pipe).taken)
    (link.withPointer pipe (link.packed pipe)).data).accepted with
  | true =>
      refine h.write rfl rfl ((link.queue pipe).take (link.packed pipe).taken) ?_ ?_ hle nofun
      · simp
      · rw [htakes, if_pos haccepted]
        exact hcarries
  | false =>
      refine h.write rfl rfl [] (List.nil_append _).symm ?_ hle nofun
      rw [htakes, haccepted, if_neg Bool.false_ne_true]

/-- A payload of the idle path with no latched reply is a pointer report. -/
theorem RelaysExactly.writeFresh (h : link.RelaysExactly pipe) (hsound : link.CellsSound)
    (fifo : AckFifo) {fresh : Option ℕ}
    (hfresh : ∀ slot ∈ fresh, (link.idle pipe).latch.peek = some slot) :
    (link.writeFresh fifo pipe fresh).RelaysExactly pipe := by
  have hle := length_idleBytes_le hsound hfresh
  have hlatched : fresh = none → link.idleBytes pipe fresh = [] := by
    rintro rfl
    rfl
  rw [writeFresh_eq]
  dsimp only
  generalize link.idleBytes pipe fresh = latched at hle hlatched ⊢
  split
  case isTrue => exact h
  case isFalse hempty =>
      refine h.write rfl rfl [] (List.nil_append _).symm rfl ?_ fun hsource => ?_
      · cases happend : link.appendPointer pipe latched false with
        | none => simpa using hle
        | some report =>
            have := (length_appendPointer happend).2
            simp only [Option.getD_some, List.length_append]
            omega
      · have hnone : fresh = none := by
          cases fresh with
          | none => rfl
          | some slot => cases hsource
        rw [hlatched hnone] at hempty ⊢
        cases happend : link.appendPointer pipe [] false with
        | none => simp [happend] at hempty
        | some report =>
            rw [appendPointer] at happend
            split at happend
            · cases happend
            · obtain ⟨body, rfl⟩ := RelayPointer.encode_of_take happend
              exact ⟨body, rfl⟩

theorem RelaysExactly.writeIdleReply (h : link.RelaysExactly pipe) (hsound : link.CellsSound)
    (fifo : AckFifo) : (link.writeIdleReply fifo pipe).RelaysExactly pipe := by
  have hfresh : (link.freshIdleReply pipe).1.RelaysExactly pipe := by
    rw [freshIdleReply]
    dsimp only
    split
    · exact h
    · split_ifs
      · exact ⟨h.parts, h.bounded, h.pointerAlone⟩
      · exact h
  exact hfresh.writeFresh (hsound.freshIdleReply pipe) fifo fun slot hslot => peek_of_fresh hslot

/-! ### The invariant of a pipe -/

/-- What holds of a pipe between the steps of a run with whole reports. -/
structure RelaySound (pipe : ℕ) (link : ReplyLink config) : Prop where
  cells : link.CellsSound
  queue : link.QueueSound pipe
  whole : config.relayPipe pipe = true → ∀ packet ∈ link.staged pipe, IsRelayReport config packet
  exactly : link.RelaysExactly pipe

theorem RelaySound.queued (h : link.RelaySound pipe) (hrelay : config.relayPipe pipe = true) :
    ∀ packet ∈ link.queue pipe, IsRelayReport config packet :=
  fun packet hmem => h.whole hrelay packet (h.queue.mem_staged hmem)

theorem RelaySound.replyTo (h : link.RelaySound pipe) (fifo : AckFifo) (turn : ℕ) :
    (replyTo fifo link turn).RelaySound pipe := by
  refine ⟨h.cells.replyTo fifo turn, h.queue.replyTo_other fifo turn, ?_, ?_⟩
  · rw [staged_replyTo]
    exact h.whole
  · rcases eq_or_ne pipe turn with rfl | hne
    · apply replyTo_cases
      · exact fun kind slot hpending => h.exactly.writeControl h.cells fifo hpending
      · exact fun _ htaken => h.exactly.writePacked fifo h.queued htaken
      · exact fun _ _ => h.exactly.writeIdleReply h.cells fifo
    · exact h.exactly.frame (.replyTo fifo hne)

theorem RelaySound.stagePut (h : link.RelaySound pipe) {data : Bytes}
    (hdata : config.relayPipe pipe = true → IsRelayReport config data) :
    (link.stagePut pipe data).RelaySound pipe := by
  have hcells := h.cells.stagePut pipe data
  have hqueue := h.queue.stagePut data
  rw [ReplyLink.stagePut] at hcells hqueue ⊢
  split_ifs at hcells hqueue ⊢
  · exact h
  · exact h
  · exact h
  · refine ⟨hcells, hqueue, fun hrelay packet hmem => ?_, ?_, h.exactly.bounded,
      h.exactly.pointerAlone⟩
    · simp only [Function.update_self] at hmem
      rcases List.mem_append.mp hmem with hold | hnew
      · exact h.whole hrelay packet hold
      · rw [List.mem_singleton.mp hnew]
        exact hdata hrelay
    · obtain ⟨parts, hsplit, hcarries⟩ := h.exactly.parts
      refine ⟨parts, ?_, hcarries⟩
      simp only [Function.update_self]
      rw [hsplit, List.append_assoc]

theorem RelaySound.step (h : link.RelaySound pipe) {action : ReplyAction}
    (hwhole : WholeReports config action) : (link.step action).RelaySound pipe := by
  have hcells := h.cells.step action
  have hqueue := h.queue.step action
  cases action with
  | put other data =>
      rcases eq_or_ne pipe other with rfl | hne
      · exact h.stagePut hwhole
      · have hsame : Untouched pipe link (link.stagePut other data) := .stagePut hne data
        refine ⟨hcells, hqueue, fun hrelay => ?_, h.exactly.frame hsame⟩
        change ∀ packet ∈ (link.stagePut other data).staged pipe, _
        rw [hsame.staged]
        exact h.whole hrelay
  | count other =>
      change (link.stageCount other).RelaySound pipe
      replace hcells : (link.stageCount other).CellsSound := hcells
      replace hqueue : (link.stageCount other).QueueSound pipe := hqueue
      rw [stageCount] at hcells hqueue ⊢
      split_ifs at hcells hqueue ⊢
      · exact h
      · exact ⟨hcells, hqueue, h.whole, h.exactly.parts, h.exactly.bounded, h.exactly.pointerAlone⟩
  | latchControl other kind data =>
      change (link.latchControl other kind data).RelaySound pipe
      replace hcells : (link.latchControl other kind data).CellsSound := hcells
      replace hqueue : (link.latchControl other kind data).QueueSound pipe := hqueue
      rw [latchControl] at hcells hqueue ⊢
      split_ifs at hcells hqueue ⊢
      · exact h
      · exact h
      · exact ⟨hcells, hqueue, h.whole, h.exactly.parts, h.exactly.bounded, h.exactly.pointerAlone⟩
  | latchIdle other data =>
      change (link.latchIdleReply other data).RelaySound pipe
      replace hcells : (link.latchIdleReply other data).CellsSound := hcells
      replace hqueue : (link.latchIdleReply other data).QueueSound pipe := hqueue
      rw [latchIdleReply] at hcells hqueue ⊢
      split_ifs at hcells hqueue ⊢
      · exact h
      · exact h
      · exact ⟨hcells, hqueue, h.whole, h.exactly.parts, h.exactly.bounded, h.exactly.pointerAlone⟩
  | controlStatement other kind =>
      exact ⟨hcells, hqueue, h.whole, h.exactly.parts, h.exactly.bounded, h.exactly.pointerAlone⟩
  | idleStatement other =>
      exact ⟨hcells, hqueue, h.whole, h.exactly.parts, h.exactly.bounded, h.exactly.pointerAlone⟩
  | pointer action =>
      exact ⟨hcells, hqueue, h.whole, h.exactly.parts, h.exactly.bounded, h.exactly.pointerAlone⟩
  | rxDone pipesAcked fifo =>
      exact rxDone_turns (RelaySound pipe) (fun _ _ => True) (fun _ _ _ _ _ => trivial)
        (fun _ turn _ _ hlink => hlink.replyTo fifo turn) h fun _ _ => trivial

theorem RelaySound.run (config : ReplyConfig) (pipe : ℕ) {actions : List ReplyAction}
    (hwhole : ∀ action ∈ actions, WholeReports config action) :
    (run ReplyLink.step (boot config) actions).RelaySound pipe := by
  refine run_invariant_forall (fun _ _ hlink haction => hlink.step haction)
    ⟨.boot config, .boot config pipe, ?_, .boot config pipe⟩ hwhole
  intro _ packet hmem
  cases hmem

/-- The turn of the pipe in one run of the interrupt: one payload of queued replies,
which leave the queue once it is accepted and stay there when it is refused. -/
structure QueueAdvances (pipe : ℕ) (before after : ReplyLink config) (write : AckWrite) (taken : ℕ) :
    Prop where
  writes : after.writesOf pipe = before.writesOf pipe ++ [write]
  source : write.source = .queued taken
  taken_pos : 0 < taken
  queue : after.queue pipe =
    if write.accepted then (before.queue pipe).drop taken else before.queue pipe

/-- The first queued reply always fits, beside a pointer report if motion waits. -/
theorem taken_packed_ne_zero (h : link.QueueSound pipe)
    (hwhole : config.relayPipe pipe = true → ∀ packet ∈ link.queue pipe, IsRelayReport config packet)
    (hqueue : link.queue pipe ≠ []) : (link.packed pipe).taken ≠ 0 := by
  obtain ⟨packet, packets, hcons⟩ := List.exists_cons_of_ne_nil hqueue
  have hmem : packet ∈ link.queue pipe := hcons ▸ List.mem_cons_self
  have hle := (h.fits packet (h.mem_staged hmem)).2
  refine (packs_packed link pipe).first packet (hcons ▸ rfl) ?_ |>.ne'
  rw [queuedRoom]
  cases hrelay : config.relayPipe pipe with
  | false => simpa using hle
  | true =>
      have hreport := (hwhole hrelay packet hmem).length_le
      split_ifs
      · simpa using hle
      · simpa using hreport

theorem queueAdvances_writePacked (fifo : AckFifo) (htaken : (link.packed pipe).taken ≠ 0) :
    QueueAdvances pipe link
      (link.writePacked fifo pipe (link.withPointer pipe (link.packed pipe)))
      (link.attempt fifo pipe (.queued (link.packed pipe).taken)
        (link.withPointer pipe (link.packed pipe)).data) (link.packed pipe).taken := by
  rw [writePacked_eq]
  dsimp only
  rw [taken_withPointer]
  refine ⟨writesOf_attempt rfl, rfl, Nat.pos_of_ne_zero htaken, ?_⟩
  dsimp only
  split
  · exact Function.update_self ..
  · rfl

theorem QueueAdvances.frame {before turn served after : ReplyLink config} {write : AckWrite}
    {taken : ℕ} (hbefore : Untouched pipe before turn) (hafter : Untouched pipe served after)
    (h : QueueAdvances pipe turn served write taken) :
    QueueAdvances pipe before after write taken where
  writes := by rw [hafter.writesOf, h.writes, hbefore.writesOf]
  source := h.source
  taken_pos := h.taken_pos
  queue := by rw [hafter.queue, h.queue, hbefore.queue]

theorem RelaySound.queueAdvances (h : link.RelaySound pipe) (fifo : AckFifo) {pipesAcked : UInt8}
    (hserved : pipe ∈ servedPipes config pipesAcked) (hpending : link.pendingControl pipe = none)
    (hqueue : link.queue pipe ≠ []) :
    ∃ write taken, QueueAdvances pipe link (link.rxDone fifo pipesAcked) write taken := by
  obtain ⟨turn, hbefore, hafter⟩ := exists_turn link fifo hserved
  have htaken : (turn.packed pipe).taken ≠ 0 := by
    refine taken_packed_ne_zero (h.queue.frame hbefore) ?_ ?_ <;> rw [hbefore.queue]
    · exact h.queued
    · exact hqueue
  have hturn : turn.pendingControl pipe = none := hbefore.pendingControl.trans hpending
  have hserve : ∃ write taken, QueueAdvances pipe turn (ReplyLink.replyTo fifo turn pipe) write taken := by
    refine replyTo_cases
      (motive := fun after => ∃ write taken, QueueAdvances pipe turn after write taken) ?_ ?_ ?_
    · intro kind slot hcontrol
      rw [hturn] at hcontrol
      cases hcontrol
    · exact fun _ _ => ⟨_, _, queueAdvances_writePacked fifo htaken⟩
    · exact fun _ hzero => absurd hzero htaken
  obtain ⟨write, taken, hadvances⟩ := hserve
  exact ⟨write, taken, hadvances.frame hbefore hafter⟩

/-- With whole reports put on the relay pipes, the reply queue of every pipe loses,
repeats, reorders and tears nothing, and each interrupt that finds it waiting moves it
on. -/
theorem reply_queue_exact (config : ReplyConfig) (actions : List ReplyAction)
    (hwhole : ∀ action ∈ actions, WholeReports config action) (pipe : ℕ) :
    (run ReplyLink.step (boot config) actions).RelaysExactly pipe ∧
      ∀ (fifo : AckFifo) (pipesAcked : UInt8), pipe ∈ servedPipes config pipesAcked →
        (run ReplyLink.step (boot config) actions).pendingControl pipe = none →
        (run ReplyLink.step (boot config) actions).queue pipe ≠ [] →
          ∃ write taken, QueueAdvances pipe (run ReplyLink.step (boot config) actions)
            ((run ReplyLink.step (boot config) actions).rxDone fifo pipesAcked) write taken := by
  have h := RelaySound.run config pipe hwhole
  exact ⟨h.exactly, fun fifo _ => h.queueAdvances fifo⟩

/-- A key goes down and up on the dongle's pipe, the second write after a refusal. -/
theorem reply_queue_exact_sample :
    (run ReplyLink.step (boot sampleReplyConfig)
      [.put 0 [1, 0, 0, 4, 0, 0, 0, 0, 0], .put 0 [1, 0, 0, 0, 0, 0, 0, 0, 0],
        .rxDone 1 fun _ _ _ => false, .rxDone 1 fun _ _ _ => true]).RelaysExactly 0 :=
  (reply_queue_exact sampleReplyConfig _ (by decide) 0).1

end ReplyLink

end SplitEsb
