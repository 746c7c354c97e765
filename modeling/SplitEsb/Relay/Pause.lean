import SplitEsb.Relay.LastReport

/-! # The relay halves of the central
Threads report keycodes and pointer events, the system workqueue latches the states and
follows the endpoint, the radio interrupt writes in between. -/

namespace SplitEsb

open ByteString Transition

variable {config : ReplyConfig}

/-! ## What the halves do -/

def releasedKeyboard (config : ReplyConfig) : Bytes :=
  zmkHidReportIdKeyboard :: List.replicate (config.keyboardReportLength - 1) 0

def releasedConsumer (config : ReplyConfig) : Bytes :=
  zmkHidReportIdConsumer :: List.replicate (config.consumerReportLength - 1) 0

/-- The idle reply a paused relay latches. -/
def releasedReports (config : ReplyConfig) : Bytes :=
  releasedKeyboard config ++ releasedConsumer config

/-- The pipes the loops over relay pipes visit. -/
def relayPipes (config : ReplyConfig) : List ℕ :=
  (List.range config.pipeCount).filter config.relayPipe

/-- How far a call of `stage_keycode` or `relay_pointer_handle_event` is. Staging goes
through the relay pipes; without a report of its own it stages ZMK's live one. -/
inductive RelayCall where
  | idle
  | checked (event : PointerEvent)
  | buttonSet (sync changed : Bool)
  | handled (sync : Bool)
  | claimed
  | staging (report : Option Bytes) (pipes : List ℕ)
  | counting (report : Option Bytes) (pipe : ℕ) (pipes : List ℕ)

/-- How far the workqueue is with `follow_endpoint`, which switches, or with
`latch_relay_reports` alone; `active` is what the latter read. -/
inductive RelayWork where
  | idle
  | reset
  | latch (switching : Bool)
  | latching (switching active : Bool) (pipes : List ℕ)
  | filling (switching active : Bool) (pipe : ℕ) (pipes : List ℕ)

/-- `calls` gives the call each thread is in. -/
structure RelayCentral (config : ReplyConfig) where
  link : ReplyLink config
  calls : ℕ → RelayCall
  work : RelayWork

/-- A call comes in and checks whether the relay is active; a thread or the workqueue
takes its next statement, with what ZMK holds then; the relay keepalive fires; the
endpoint changes; anything else happens on the reverse channel. -/
inductive RelayAction where
  | keycode (thread : ℕ)
  | event (thread : ℕ) (event : PointerEvent)
  | call (thread : ℕ) (live : Bytes)
  | keepalive
  | endpoint (paused : Bool)
  | work (held : UInt8) (live : Bytes)
  | other (action : ReplyAction)

namespace RelayCentral

def boot (config : ReplyConfig) : RelayCentral config where
  link := .boot config
  calls _ := .idle
  work := .idle

def setPointer (central : RelayCentral config) (pointer : RelayPointer) : RelayCentral config :=
  { central with link := { central.link with pointer := pointer } }

def setCall (central : RelayCentral config) (thread : ℕ) (call : RelayCall) :
    RelayCentral config :=
  { central with calls := Function.update central.calls thread call }

/-! ### Calls -/

def keycode (central : RelayCentral config) (thread : ℕ) : RelayCentral config :=
  match central.calls thread with
  | .idle =>
      if !central.link.pointer.active then central
      else central.setCall thread (.staging none (relayPipes config))
  | _ => central

def event (central : RelayCentral config) (thread : ℕ) (event : PointerEvent) :
    RelayCentral config :=
  match central.calls thread with
  | .idle =>
      if !central.link.pointer.active then central
      else central.setCall thread (.checked event)
  | _ => central

/-- Motion is added, or a button set; both return what comes next of the call. -/
def takeEvent (pointer : RelayPointer) (event : PointerEvent) : RelayPointer × RelayCall :=
  if event.type = inputEvTypeRel then
    (pointer.addMotion event.code event.value, .handled event.sync)
  else if event.type = inputEvTypeKey then
    match RelayPointer.buttonBit event.code with
    | none => (pointer, .handled event.sync)
    | some bit =>
        let pressed := event.value != 0
        let wasPressed := pointer.buttons &&& bit != 0
        let buttons := if pressed then pointer.buttons ||| bit else pointer.buttons &&& ~~~bit
        ({ pointer with buttons := buttons }, .buttonSet event.sync (wasPressed != pressed))
  else (pointer, .handled event.sync)

/-- The put of a report on one relay pipe; a full queue drops it there. -/
def putReport (central : RelayCentral config) (thread : ℕ) (report : Option Bytes) (live : Bytes)
    (pipe : ℕ) (pipes : List ℕ) : RelayCentral config :=
  let link := central.link.stagePut pipe (report.getD live)
  let call : RelayCall :=
    if (link.staged pipe).length = (central.link.staged pipe).length then .staging report pipes
    else .counting report pipe pipes
  { central with link := link }.setCall thread call

/-- The next statement of the call a thread is in. -/
def call (central : RelayCentral config) (thread : ℕ) (live : Bytes) : RelayCentral config :=
  let pointer := central.link.pointer
  match central.calls thread with
  | .idle => central
  | .checked event =>
      let (pointer, call) := takeEvent pointer event
      (central.setPointer pointer).setCall thread call
  | .buttonSet sync changed =>
      (central.setPointer
        { pointer with buttonsChanged := pointer.buttonsChanged || changed }).setCall thread
          (.handled sync)
  | .handled sync =>
      if sync && pointer.buttonsChanged then
        (central.setPointer { pointer with buttonsChanged := false }).setCall thread .claimed
      else central.setCall thread .idle
  | .claimed =>
      central.setCall thread (.staging (some pointer.buttonReport) (relayPipes config))
  | .staging _ [] => central.setCall thread .idle
  | .staging report (pipe :: pipes) => central.putReport thread report live pipe pipes
  | .counting report pipe pipes =>
      { central with link := central.link.stageCount pipe }.setCall thread (.staging report pipes)

/-! ### The workqueue -/

/-- `hid_relay_keepalive_fire`. -/
def keepalive (central : RelayCentral config) : RelayCentral config :=
  match central.work with
  | .idle => { central with work := .latch false }
  | _ => central

/-- `follow_endpoint` up to its `atomic_set`. -/
def endpoint (central : RelayCentral config) (paused : Bool) : RelayCentral config :=
  match central.work with
  | .idle => { central.setPointer (central.link.pointer.setPaused paused) with work := .reset }
  | _ => central

/-- The next statement of `follow_endpoint` or `latch_relay_reports`. A reply is latched
one statement at a time. -/
def workStep (central : RelayCentral config) (held : UInt8) (live : Bytes) :
    RelayCentral config :=
  match central.work with
  | .idle => central
  | .reset =>
      { central.setPointer (central.link.pointer.reset held) with work := .latch true }
  | .latch switching =>
      { central with
        work := .latching switching central.link.pointer.active (relayPipes config) }
  | .latching _ _ [] =>
      { central.setPointer central.link.pointer.refresh with work := .idle }
  | .latching switching active (pipe :: pipes) =>
      { central with
        link := central.link.latchIdleReply pipe (if active then live else releasedReports config)
        work := .filling switching active pipe pipes }
  | .filling switching active pipe pipes =>
      let link := central.link.idleStatement pipe
      let work : RelayWork :=
        if (link.idle pipe).writer.isNone then .latching switching active pipes
        else .filling switching active pipe pipes
      { central with link := link, work := work }

def step (central : RelayCentral config) : RelayAction → RelayCentral config
  | .keycode thread => central.keycode thread
  | .event thread input => central.event thread input
  | .call thread live => central.call thread live
  | .keepalive => central.keepalive
  | .endpoint paused => central.endpoint paused
  | .work held live => central.workStep held live
  | .other action => { central with link := central.link.step action }

end RelayCentral

/-! ## What may happen -/

/-- What the rest of the firmware does to the reverse channel: controls for any pipe,
commands for the others, and the radio interrupt. -/
def Elsewhere (config : ReplyConfig) : ReplyAction → Prop
  | .put pipe _ => config.relayPipe pipe = false
  | .count pipe => config.relayPipe pipe = false
  | .latchIdle .. | .idleStatement _ | .pointer _ => False
  | _ => True

/-- ZMK holds whole reports. -/
def RelayAction.Whole (config : ReplyConfig) : RelayAction → Prop
  | .call _ live => IsRelayReport config live
  | .work _ live => HoldsBoth config live
  | .other action => Elsewhere config action
  | _ => True

/-! ## A latch call -/

theorem holdsBoth_released (config : ReplyConfig) : HoldsBoth config (releasedReports config) := by
  have hkeyboard := config.keyboardReport_pos
  have hconsumer := config.consumerReport_pos
  have hlengths : relayReportLength config zmkHidReportIdKeyboard = config.keyboardReportLength ∧
      relayReportLength config zmkHidReportIdConsumer = config.consumerReportLength := ⟨rfl, rfl⟩
  refine ⟨releasedKeyboard config, releasedConsumer config, rfl, ⟨⟨?_, ?_⟩, rfl⟩, ⟨?_, ?_⟩, rfl⟩
  · exact Nat.succ_pos _
  · change _ = relayReportLength config zmkHidReportIdKeyboard
    rw [hlengths.1, releasedKeyboard, List.length_cons, List.length_replicate]
    omega
  · exact Nat.succ_pos _
  · change _ = relayReportLength config zmkHidReportIdConsumer
    rw [hlengths.2, releasedConsumer, List.length_cons, List.length_replicate]
    omega

/-- Both states fit a payload and are not empty. -/
theorem HoldsBoth.fits {data : Bytes} (h : HoldsBoth config data) :
    ¬ (data.length = 0 ∨ config.maxPayload < data.length) := by
  have hroom := h.room
  have hfit := config.reports_fit
  have hlength : esbHidRelayPointerLength = 10 := rfl
  obtain ⟨keyboard, consumer, rfl, ⟨hkeyboard, -⟩, -⟩ := h
  have hpos := hkeyboard.length_pos
  rw [List.length_append] at hroom ⊢
  omega

/-- A latch call begins on a relay pipe that is in none. -/
theorem idle_latchIdleReply {link : ReplyLink config} {pipe : ℕ} (hpipe : pipe < config.pipeCount)
    {data : Bytes} (hdata : HoldsBoth config data) (hquiet : (link.idle pipe).writer = none) :
    ∃ writer, ((link.latchIdleReply pipe data).idle pipe).writer = some writer ∧
      writer.call.data = data ∧
      ((link.latchIdleReply pipe data).idle pipe).history = (link.idle pipe).history := by
  rw [ReplyLink.latchIdleReply, if_neg (Nat.not_le.mpr hpipe), if_neg hdata.fits,
    ReplyLink.idle_setIdle, if_pos rfl, LatchCell.begin, hquiet]
  exact ⟨_, rfl, rfl, rfl⟩

/-- A statement of a latch call stores on, or publishes what it was called with. -/
theorem idle_idleStatement {link : ReplyLink config} {pipe : ℕ} {writer : LatchCall IdleCall}
    (hwriter : (link.idle pipe).writer = some writer) :
    (∃ next, ((link.idleStatement pipe).idle pipe).writer = some next ∧
        next.call.data = writer.call.data ∧
        ((link.idleStatement pipe).idle pipe).history = (link.idle pipe).history) ∨
      ((link.idleStatement pipe).idle pipe).writer = none ∧
        ((link.idleStatement pipe).idle pipe).history = (link.idle pipe).history ++ [writer.call] := by
  rw [ReplyLink.idleStatement, ReplyLink.idle_setIdle, if_pos rfl, LatchCell.advance, hwriter]
  dsimp only
  split
  · next hstore => exact .inl ⟨_, rfl, ReplyLink.idleStore_data hstore, rfl⟩
  · exact .inr ⟨rfl, rfl⟩

/-! ## What the workqueue latches -/

/-- `follow_endpoint` is under way. -/
def RelayWork.switching : RelayWork → Bool
  | .reset => true
  | .latch switching => switching
  | .latching switching .. => switching
  | .filling switching .. => switching
  | .idle => false

/-- The pipe whose idle reply is being latched. -/
def RelayWork.fills : RelayWork → Option ℕ
  | .filling _ _ pipe _ => some pipe
  | _ => none

/-- `follow_endpoint` has yet to latch the states of this pipe. -/
def RelayWork.Owes (pipe : ℕ) : RelayWork → Prop
  | .reset => True
  | .latch switching => switching = true
  | .latching switching _ pipes => switching = true ∧ pipe ∈ pipes
  | .filling switching _ filled pipes => switching = true ∧ (pipe = filled ∨ pipe ∈ pipes)
  | .idle => False

/-- The pause was read as it is, and the loop visits relay pipes. -/
def RelayWork.Sound (config : ReplyConfig) (active : Bool) : RelayWork → Prop
  | .latching _ read pipes => read = active ∧ pipes ⊆ relayPipes config
  | .filling _ read pipe pipes => read = active ∧ pipe :: pipes ⊆ relayPipes config
  | _ => True

/-- A paused relay fills its latch with released reports, and has done so last once it
owes the pipe none. -/
structure LatchesReleased (pipe : ℕ) (paused : Bool) (work : RelayWork)
    (cell : LatchCell IdleCall (IdleReply config)) : Prop where
  quiet : work.fills ≠ some pipe → cell.writer = none
  filling : work.fills = some pipe → ∃ writer, cell.writer = some writer ∧
    (paused = true → writer.call.data = releasedReports config)
  last : paused = true → ¬ work.Owes pipe →
    ∀ call ∈ cell.history.getLast?, call.data = releasedReports config

/-- Between two latch calls. -/
theorem LatchesReleased.between {pipe : ℕ} {paused : Bool} {before after : RelayWork}
    {cell : LatchCell IdleCall (IdleReply config)} (h : LatchesReleased pipe paused before cell)
    (hbefore : before.fills = none) (hafter : after.fills = none)
    (howes : ¬ after.Owes pipe → ¬ before.Owes pipe) :
    LatchesReleased pipe paused after cell where
  quiet _ := h.quiet (by rw [hbefore]; exact (Option.some_ne_none pipe).symm)
  filling hfills := absurd (hafter.symm.trans hfills) (Option.some_ne_none pipe).symm
  last hpaused hclear := h.last hpaused (howes hclear)

/-- The report a call stages, when it has its own. -/
def RelayCall.report : RelayCall → Option Bytes
  | .staging report _ => report
  | .counting report .. => report
  | _ => none

namespace RelayCentral

structure Inv (central : RelayCentral config) : Prop where
  last : central.link.KeepsLast
  whole : ∀ thread, ∀ report ∈ (central.calls thread).report, IsRelayReport config report
  work : central.work.Sound config central.link.pointer.active
  latched : ∀ pipe ∈ relayPipes config,
    LatchesReleased pipe central.link.pointer.paused central.work (central.link.idle pipe)

theorem Inv.boot (config : ReplyConfig) : (boot config).Inv where
  last := .boot config
  whole _ := nofun
  work := trivial
  latched _ _ := by
    refine ⟨fun _ => rfl, fun hfills => ?_, fun hpaused => ?_⟩
    · cases hfills
    · cases hpaused

variable {central : RelayCentral config}

/-! ### Calls -/

/-- The pointer may change as long as what was written last does not. -/
theorem keepsLast_setPointer {link : ReplyLink config} (h : link.KeepsLast) {pointer : RelayPointer}
    (hbody : pointer.writtenBody = link.pointer.writtenBody) :
    ({ link with pointer := pointer } : ReplyLink config).KeepsLast where
  sound pipe :=
    have hsound := h.sound pipe
    ⟨⟨hsound.cells.control, hsound.cells.idle, hsound.cells.repliesStaged⟩,
      ⟨hsound.queue.left_le, hsound.queue.queue, hsound.queue.fits⟩, hsound.whole,
      ⟨hsound.exactly.parts, hsound.exactly.bounded, hsound.exactly.pointerAlone⟩⟩
  states := h.states
  written := hbody.trans h.written

/-- A call changes no latch and no pause. -/
theorem Inv.setCall (h : central.Inv) {link : ReplyLink config} (hlast : link.KeepsLast)
    (hidle : link.idle = central.link.idle)
    (hpaused : link.pointer.paused = central.link.pointer.paused) (thread : ℕ) {call : RelayCall}
    (hwhole : ∀ report ∈ call.report, IsRelayReport config report) :
    ({ central with link := link }.setCall thread call).Inv where
  last := hlast
  whole other := by
    rw [RelayCentral.setCall]
    dsimp only
    by_cases hsame : other = thread
    · rw [hsame, Function.update_self]
      exact hwhole
    · rw [Function.update_of_ne hsame]
      exact h.whole other
  work := by
    change central.work.Sound config (!link.pointer.paused)
    rw [hpaused]
    exact h.work
  latched pipe hpipe := by
    change LatchesReleased pipe link.pointer.paused central.work (link.idle pipe)
    rw [hpaused, hidle]
    exact h.latched pipe hpipe

theorem Inv.setPointer (h : central.Inv) {pointer : RelayPointer}
    (hbody : pointer.writtenBody = central.link.pointer.writtenBody)
    (hpaused : pointer.paused = central.link.pointer.paused) (thread : ℕ) {call : RelayCall}
    (hcall : call.report = none) :
    ((central.setPointer pointer).setCall thread call).Inv := by
  refine h.setCall (keepsLast_setPointer h.last hbody) rfl hpaused thread fun report hreport => ?_
  rw [hcall] at hreport
  cases hreport

theorem Inv.keycode (h : central.Inv) (thread : ℕ) : (central.keycode thread).Inv := by
  rw [RelayCentral.keycode]
  split
  · split_ifs
    · exact h
    · exact h.setCall h.last rfl rfl thread nofun
  · exact h

theorem Inv.event (h : central.Inv) (thread : ℕ) (event : PointerEvent) :
    (central.event thread event).Inv := by
  rw [RelayCentral.event]
  split
  · split_ifs
    · exact h
    · exact h.setCall h.last rfl rfl thread nofun
  · exact h

/-- An event changes neither what was written last nor the pause, and stages nothing yet. -/
theorem takeEvent_keeps (pointer : RelayPointer) (event : PointerEvent) :
    (takeEvent pointer event).1.writtenBody = pointer.writtenBody ∧
      (takeEvent pointer event).1.paused = pointer.paused ∧
      (takeEvent pointer event).2.report = none := by
  rw [takeEvent]
  split
  · rw [RelayPointer.addMotion]
    split <;> exact ⟨rfl, rfl, rfl⟩
  · split
    · split <;> exact ⟨rfl, rfl, rfl⟩
    · exact ⟨rfl, rfl, rfl⟩

theorem Inv.putReport (h : central.Inv) (thread : ℕ) {report : Option Bytes} {live : Bytes}
    (hreport : ∀ own ∈ report, IsRelayReport config own) (hlive : IsRelayReport config live)
    (pipe : ℕ) (pipes : List ℕ) : (central.putReport thread report live pipe pipes).Inv := by
  have hput : IsRelayReport config (report.getD live) := by
    cases report with
    | none => exact hlive
    | some own => exact hreport own rfl
  have hrun : RelayRun config (.put pipe (report.getD live)) := fun _ => hput
  have hlast : (central.link.stagePut pipe (report.getD live)).KeepsLast := h.last.step hrun
  have hkept : (central.link.stagePut pipe (report.getD live)).idle = central.link.idle ∧
      (central.link.stagePut pipe (report.getD live)).pointer = central.link.pointer := by
    rw [ReplyLink.stagePut]
    split_ifs <;> exact ⟨rfl, rfl⟩
  rw [RelayCentral.putReport]
  refine h.setCall hlast hkept.1 (by rw [hkept.2]) thread ?_
  split_ifs <;> exact hreport

theorem Inv.call (h : central.Inv) (thread : ℕ) {live : Bytes}
    (hlive : IsRelayReport config live) : (central.call thread live).Inv := by
  have hwhole := h.whole thread
  rw [RelayCentral.call]
  split
  · exact h
  · next event _ =>
      obtain ⟨hbody, hpaused, hcall⟩ := takeEvent_keeps central.link.pointer event
      exact h.setPointer hbody hpaused thread hcall
  · refine h.setPointer ?_ ?_ thread ?_ <;> rfl
  · split
    · refine h.setPointer ?_ ?_ thread ?_ <;> rfl
    · exact h.setCall h.last rfl rfl thread nofun
  · refine h.setCall h.last rfl rfl thread fun report hreport => ?_
    rw [← Option.mem_some_iff.mp hreport]
    exact isRelayReport_encode _
  · exact h.setCall h.last rfl rfl thread nofun
  · next hcall =>
      rw [hcall] at hwhole
      exact h.putReport thread hwhole hlive _ _
  · next pipe _ hcall =>
      rw [hcall] at hwhole
      have hrun : RelayRun config (.count pipe) := trivial
      have hlast : (central.link.stageCount pipe).KeepsLast := h.last.step hrun
      have hkept : (central.link.stageCount pipe).idle = central.link.idle ∧
          (central.link.stageCount pipe).pointer = central.link.pointer := by
        rw [ReplyLink.stageCount]
        split_ifs <;> exact ⟨rfl, rfl⟩
      exact h.setCall hlast hkept.1 (by rw [hkept.2]) thread hwhole

/-! ### The workqueue -/

theorem mem_relayPipes {pipe : ℕ} :
    pipe ∈ relayPipes config ↔ pipe < config.pipeCount ∧ config.relayPipe pipe = true := by
  simp [relayPipes]

/-- The workqueue moves on without a latch. -/
theorem Inv.setWork (h : central.Inv) {work : RelayWork}
    (hwork : work.Sound config central.link.pointer.active) (hbefore : central.work.fills = none)
    (hafter : work.fills = none)
    (howes : ∀ pipe ∈ relayPipes config, ¬ work.Owes pipe → ¬ central.work.Owes pipe) :
    ({ central with work := work } : RelayCentral config).Inv where
  last := h.last
  whole := h.whole
  work := hwork
  latched pipe hpipe := (h.latched pipe hpipe).between hbefore hafter (howes pipe hpipe)

theorem Inv.keepalive (h : central.Inv) : central.keepalive.Inv := by
  rw [RelayCentral.keepalive]
  split
  · next hwork =>
      refine h.setWork trivial (by rw [hwork]; rfl) rfl fun _ _ _ => ?_
      rw [hwork]
      exact id
  · exact h

/-- A switch owes every pipe its states. -/
theorem Inv.endpoint (h : central.Inv) (paused : Bool) : (central.endpoint paused).Inv := by
  rw [RelayCentral.endpoint]
  split
  · next hwork =>
      refine ⟨keepsLast_setPointer h.last rfl, h.whole, trivial, fun pipe hpipe => ?_⟩
      have hlatched := h.latched pipe hpipe
      rw [hwork] at hlatched
      refine ⟨fun _ => hlatched.quiet (Option.some_ne_none pipe).symm, fun hfills => ?_,
        fun _ howes => absurd trivial howes⟩
      cases hfills
  · exact h

/-- The loop begins to latch the states for a pipe. -/
theorem Inv.beginLatch (h : central.Inv) {switching active : Bool} {pipe : ℕ} {pipes : List ℕ}
    (hwork : central.work = .latching switching active (pipe :: pipes)) {live : Bytes}
    (hlive : HoldsBoth config live) :
    ({ central with
        link := central.link.latchIdleReply pipe (if active then live else releasedReports config)
        work := .filling switching active pipe pipes } : RelayCentral config).Inv := by
  have hsound := h.work
  rw [hwork] at hsound
  obtain ⟨hactive, hpipes⟩ := hsound
  have hpipe := mem_relayPipes.mp (hpipes (List.mem_cons_self ..))
  generalize hdata : (if active then live else releasedReports config) = data
  have hboth : HoldsBoth config data := by
    rw [← hdata]
    split_ifs
    · exact hlive
    · exact holdsBoth_released config
  have hrun : RelayRun config (.latchIdle pipe data) := fun _ => hboth
  have hpointer : (central.link.latchIdleReply pipe data).pointer = central.link.pointer := by
    rw [ReplyLink.latchIdleReply]
    split_ifs <;> rfl
  refine ⟨h.last.step hrun, h.whole, ⟨?_, hpipes⟩, fun other hother => ?_⟩
  · rw [hpointer]
    exact hactive
  · have hlatched := h.latched other hother
    have hquiet : (central.link.idle other).writer = none :=
      hlatched.quiet (by rw [hwork]; exact (Option.some_ne_none other).symm)
    dsimp only
    rw [hpointer]
    rcases eq_or_ne other pipe with rfl | hne
    · obtain ⟨writer, hwriter, hcall, hhistory⟩ := idle_latchIdleReply hpipe.1 hboth hquiet
      refine ⟨fun hother => (hother rfl).elim, fun _ => ⟨writer, hwriter, ?_⟩, ?_⟩
      · intro hpaused
        rw [hcall, ← hdata, hactive, RelayPointer.active, hpaused]
        rfl
      · intro hpaused howes
        rw [hhistory]
        refine hlatched.last hpaused fun howed => howes ?_
        rw [hwork] at howed
        exact ⟨howed.1, .inl rfl⟩
    · have hsame : (central.link.latchIdleReply pipe data).idle other = central.link.idle other :=
        (ReplyLink.Untouched.latchIdleReply hne data).idle
      rw [hsame]
      refine ⟨fun _ => hquiet, fun hfills => ?_, fun hpaused howes => ?_⟩
      · exact absurd (Option.some_inj.mp hfills).symm hne
      · refine hlatched.last hpaused fun howed => howes ?_
        rw [hwork] at howed
        exact ⟨howed.1, List.mem_cons.mp howed.2⟩

/-- A statement of the latch call under way; the last one publishes. -/
theorem Inv.fillLatch (h : central.Inv) {switching active : Bool} {pipe : ℕ} {pipes : List ℕ}
    (hwork : central.work = .filling switching active pipe pipes) :
    ({ central with
        link := central.link.idleStatement pipe
        work := if ((central.link.idleStatement pipe).idle pipe).writer.isNone then
          .latching switching active pipes else .filling switching active pipe pipes } :
      RelayCentral config).Inv := by
  have hsound := h.work
  rw [hwork] at hsound
  obtain ⟨hactive, hpipes⟩ := hsound
  have hrun : RelayRun config (.idleStatement pipe) := trivial
  have hlast : (central.link.idleStatement pipe).KeepsLast := h.last.step hrun
  obtain ⟨writer, hwriter, hcall⟩ :=
    (h.latched pipe (hpipes (List.mem_cons_self ..))).filling (by rw [hwork]; rfl)
  have hkept : ∀ other ≠ pipe,
      (central.link.idleStatement pipe).idle other = central.link.idle other := by
    intro other hne
    rw [ReplyLink.idleStatement, ReplyLink.idle_setIdle, if_neg hne]
  have hothers : ∀ other ≠ pipe, central.work.fills ≠ some other := by
    intro other hne hfills
    rw [hwork] at hfills
    exact hne (Option.some_inj.mp hfills).symm
  rcases idle_idleStatement hwriter with ⟨next, hnext, hsame, hhistory⟩ | ⟨hnone, hhistory⟩
  · rw [hnext, Option.isNone_some, if_neg Bool.false_ne_true]
    refine ⟨hlast, h.whole, ⟨hactive, hpipes⟩, fun other hother => ?_⟩
    have hlatched := h.latched other hother
    rcases eq_or_ne other pipe with rfl | hne
    · refine ⟨fun hquiet => (hquiet rfl).elim, fun _ => ⟨next, hnext, ?_⟩, ?_⟩
      · exact fun hpaused => hsame.trans (hcall hpaused)
      · dsimp only
        rw [hhistory, ← hwork]
        exact hlatched.last
    · dsimp only
      rw [hkept other hne, ← hwork]
      exact hlatched
  · rw [hnone, Option.isNone_none, if_pos rfl]
    have hrest : pipes ⊆ relayPipes config := fun other hmem =>
      hpipes (List.mem_cons_of_mem _ hmem)
    refine ⟨hlast, h.whole, ⟨hactive, hrest⟩, fun other hother => ?_⟩
    have hlatched := h.latched other hother
    rcases eq_or_ne other pipe with rfl | hne
    · refine ⟨fun _ => hnone, fun hfills => absurd hfills.symm (Option.some_ne_none _),
        fun hpaused _ call hmem => ?_⟩
      dsimp only at hmem
      rw [hhistory, List.getLast?_concat, Option.mem_some_iff] at hmem
      rw [← hmem]
      exact hcall hpaused
    · dsimp only
      rw [hkept other hne]
      refine ⟨fun _ => hlatched.quiet (hothers other hne),
        fun hfills => absurd hfills.symm (Option.some_ne_none _), fun hpaused howes => ?_⟩
      refine hlatched.last hpaused fun howed => howes ?_
      rw [hwork] at howed
      exact ⟨howed.1, howed.2.resolve_left hne⟩

theorem Inv.workStep (h : central.Inv) {held : UInt8} {live : Bytes}
    (hlive : HoldsBoth config live) : (central.workStep held live).Inv := by
  rw [RelayCentral.workStep]
  split
  · exact h
  · next hwork =>
      refine ⟨keepsLast_setPointer h.last rfl, h.whole, trivial, fun pipe hpipe => ?_⟩
      refine (h.latched pipe hpipe).between (by rw [hwork]; rfl) rfl fun howes => ?_
      exact absurd rfl howes
  · next switching hwork =>
      refine h.setWork ⟨rfl, List.Subset.refl _⟩ (by rw [hwork]; rfl) rfl fun pipe hpipe howes => ?_
      rw [hwork]
      exact fun howed => howes ⟨howed, hpipe⟩
  · next hwork =>
      refine ⟨keepsLast_setPointer h.last rfl, h.whole, trivial, fun pipe hpipe => ?_⟩
      refine (h.latched pipe hpipe).between (by rw [hwork]; rfl) rfl fun _ => ?_
      rw [hwork]
      exact fun howed => List.not_mem_nil howed.2
  · next hwork => exact h.beginLatch hwork hlive
  · next hwork => exact h.fillLatch hwork

/-! ### The rest of the firmware -/

/-- An idle latch is in the same call, and was in the same ones before. -/
def SameCalls (before after : ReplyLink config) : Prop :=
  ∀ pipe, (after.idle pipe).writer = (before.idle pipe).writer ∧
    (after.idle pipe).history = (before.idle pipe).history

theorem sameCalls_replyTo (link : ReplyLink config) (fifo : AckFifo) (turn : ℕ) :
    SameCalls link (ReplyLink.replyTo fifo link turn) := by
  intro pipe
  rcases eq_or_ne pipe turn with rfl | hne
  · exact ReplyLink.calls_replyTo link fifo pipe
  · have hsame := (ReplyLink.Untouched.replyTo fifo hne : ReplyLink.Untouched pipe link _).idle
    exact ⟨by rw [hsame], by rw [hsame]⟩

/-- The rest of the firmware neither calls an idle latch nor pauses. -/
theorem sameCalls_elsewhere (link : ReplyLink config) {action : ReplyAction}
    (haction : Elsewhere config action) :
    SameCalls link (link.step action) ∧ (link.step action).pointer.active = link.pointer.active := by
  cases action with
  | put pipe data =>
      change SameCalls link (link.stagePut pipe data) ∧ (link.stagePut pipe data).pointer.active = _
      rw [ReplyLink.stagePut]
      split_ifs <;> exact ⟨fun _ => ⟨rfl, rfl⟩, rfl⟩
  | count pipe =>
      change SameCalls link (link.stageCount pipe) ∧ (link.stageCount pipe).pointer.active = _
      rw [ReplyLink.stageCount]
      split_ifs <;> exact ⟨fun _ => ⟨rfl, rfl⟩, rfl⟩
  | latchControl pipe kind data =>
      change SameCalls link (link.latchControl pipe kind data) ∧
        (link.latchControl pipe kind data).pointer.active = _
      rw [ReplyLink.latchControl]
      split_ifs <;> exact ⟨fun _ => ⟨rfl, rfl⟩, rfl⟩
  | controlStatement pipe kind => exact ⟨fun _ => ⟨rfl, rfl⟩, rfl⟩
  | rxDone pipesAcked fifo =>
      refine ReplyLink.rxDone_turns
        (fun after => SameCalls link after ∧ after.pointer.active = link.pointer.active)
        (fun _ _ => True) (fun _ _ _ _ _ => trivial) ?_ ⟨fun _ => ⟨rfl, rfl⟩, rfl⟩ fun _ _ => trivial
      rintro between turn - - ⟨hcalls, hactive⟩
      refine ⟨fun pipe => ?_, (ReplyLink.pointer_replyTo between fifo turn).1.trans hactive⟩
      have hturn := sameCalls_replyTo between fifo turn pipe
      exact ⟨hturn.1.trans (hcalls pipe).1, hturn.2.trans (hcalls pipe).2⟩
  | latchIdle pipe data => exact haction.elim
  | idleStatement pipe => exact haction.elim
  | pointer action => exact haction.elim

/-- What stays off the relay pipes is a run of whole reports. -/
theorem relayRun_elsewhere {action : ReplyAction} (h : Elsewhere config action) :
    RelayRun config action := by
  cases action with
  | put pipe data => exact fun hrelay => absurd (h.symm.trans hrelay) Bool.false_ne_true
  | latchIdle pipe data => exact h.elim
  | _ => trivial

theorem Inv.other (h : central.Inv) {action : ReplyAction} (haction : Elsewhere config action) :
    ({ central with link := central.link.step action } : RelayCentral config).Inv := by
  obtain ⟨hcalls, hactive⟩ := sameCalls_elsewhere central.link haction
  refine ⟨h.last.step (relayRun_elsewhere haction), h.whole, ?_, fun pipe hpipe => ?_⟩
  · rw [hactive]
    exact h.work
  · have hlatched := h.latched pipe hpipe
    have hpaused : (central.link.step action).pointer.paused = central.link.pointer.paused :=
      Bool.not_inj hactive
    obtain ⟨hwriter, hhistory⟩ := hcalls pipe
    dsimp only
    rw [hpaused]
    refine ⟨fun hquiet => hwriter.trans (hlatched.quiet hquiet), fun hfills => ?_,
      fun hpaused howes => ?_⟩
    · rw [hwriter]
      exact hlatched.filling hfills
    · rw [hhistory]
      exact hlatched.last hpaused howes

/-! ### Every run -/

theorem Inv.step (h : central.Inv) {action : RelayAction} (haction : action.Whole config) :
    (central.step action).Inv := by
  cases action with
  | keycode thread => exact h.keycode thread
  | event thread event => exact h.event thread event
  | call thread live => exact h.call thread haction
  | keepalive => exact h.keepalive
  | endpoint paused => exact h.endpoint paused
  | work held live => exact h.workStep haction
  | other action => exact h.other haction

theorem Inv.run (config : ReplyConfig) {actions : List RelayAction}
    (hactions : ∀ action ∈ actions, action.Whole config) :
    (Transition.run RelayCentral.step (RelayCentral.boot config) actions).Inv :=
  run_invariant_forall (fun _ _ hlink haction => hlink.step haction) (.boot config) hactions

end RelayCentral

end SplitEsb
