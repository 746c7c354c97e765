import SplitEsb.Relay.ButtonOrder

/-! # Every queued click is written
The input thread keeps the order at each of its steps, so the radio interrupt may poll
between any two of them. -/

namespace SplitEsb

open ByteString Transition ReplyLink RelayPointer

variable {config : ReplyConfig} {pipe : ℕ}

theorem ReplyLink.RelaySound.setPointer {link : ReplyLink config} (h : link.RelaySound pipe)
    (pointer : RelayPointer) :
    ({ link with pointer := pointer } : ReplyLink config).RelaySound pipe where
  cells := ⟨h.cells.control, h.cells.idle, h.cells.repliesStaged⟩
  queue := ⟨h.queue.left_le, h.queue.queue, h.queue.fits⟩
  whole := h.whole
  exactly := ⟨h.exactly.parts, h.exactly.bounded, h.exactly.pointerAlone⟩

namespace ButtonPath

variable {path : ButtonPath config}

/-! ## The input thread keeps the order -/

theorem Ordered.setStage (h : path.Ordered pipe) {stage : InputStage}
    (hstage : ∀ version buttons, stage = .wordRead version buttons →
      version + 1 = path.words.length ∧ Carries path.words version buttons) :
    ({ path with stage := stage } : ButtonPath config).Ordered pipe :=
  ⟨h.sound, h.states, h.active, h.first, h.word, h.body, h.written, h.waiting, h.sorted,
    h.sortedWaiting, h.behind, h.left, h.complete, hstage⟩

theorem Ordered.setPointer (h : path.Ordered pipe) {pointer : RelayPointer}
    (hbuttons : pointer.buttons = path.link.pointer.buttons)
    (hactive : pointer.active = path.link.pointer.active)
    (hbody : pointer.writtenBody = path.link.pointer.writtenBody) :
    (path.setPointer pointer).Ordered pipe :=
  h.setLink ⟨rfl, rfl, rfl, hbuttons, hactive, hbody⟩ (h.sound.setPointer pointer) h.states

/-- A new value of the word comes after all that are written or wait. -/
theorem Ordered.setButton (h : path.Ordered pipe) (sync : Bool) (bit : UInt8) (pressed : Bool) :
    (path.setButton sync bit pressed).Ordered pipe := by
  rw [ButtonPath.setButton]
  generalize (if pressed then path.link.pointer.buttons ||| bit
    else path.link.pointer.buttons &&& ~~~bit) = buttons
  have hlater : ∀ {versions : List ℕ} {carried : List UInt8},
      List.Forall₂ (Carries path.words) versions carried →
        List.Forall₂ (Carries (path.words ++ [buttons])) versions carried :=
    fun hcarries => hcarries.imp fun _ _ hold => hold.append _
  obtain ⟨front, hstaged, hleft⟩ := h.left
  refine ⟨h.sound.setPointer _, h.states, h.active, h.first.append _, ?_, h.body, hlater h.written,
    hlater h.waiting, h.sorted, h.sortedWaiting, h.behind, ⟨front, hstaged, hlater hleft⟩,
    h.complete, fun _ _ hstage => by cases hstage⟩
  change (path.words ++ [buttons])[(path.words ++ [buttons]).length - 1]? = some buttons
  simp

theorem addMotion_keeps (pointer : RelayPointer) (code : UInt16) (value : Int32) :
    (pointer.addMotion code value).buttons = pointer.buttons ∧
      (pointer.addMotion code value).active = pointer.active ∧
      (pointer.addMotion code value).writtenBody = pointer.writtenBody := by
  rw [addMotion]
  cases relAxis code <;> exact ⟨rfl, rfl, rfl⟩

theorem Ordered.start (h : path.Ordered pipe) (event : PointerEvent) :
    (path.start event).Ordered pipe := by
  rw [ButtonPath.start]
  dsimp only
  split_ifs
  · exact h
  · obtain ⟨hbuttons, hactive, hbody⟩ :=
      addMotion_keeps path.link.pointer event.code event.value
    exact (h.setPointer hbuttons hactive hbody).setStage fun _ _ hstage => by cases hstage
  · cases buttonBit event.code with
    | none => exact h.setStage fun _ _ hstage => by cases hstage
    | some bit => exact h.setButton event.sync bit (event.value != 0)
  · exact h.setStage fun _ _ hstage => by cases hstage

/-- The report carries the live value: the thread that reads the word alone changes it. -/
theorem Ordered.putReport (h : path.Ordered pipe) {version : ℕ} {buttons : UInt8}
    (hstage : path.stage = .wordRead version buttons) :
    (path.putReport pipe version buttons).Ordered pipe := by
  obtain ⟨hlive, hcarries⟩ := h.stage version buttons hstage
  have hsound := h.sound.stagePut (fun _ => isRelayReport_encode
    { MouseReportBody.zero with buttons := buttons })
  have hstates : ((path.link.stagePut pipe (wordReport buttons)).idle pipe).Calls
      fun call => HoldsStates config call.data := by
    rw [stagePut]
    split_ifs <;> exact h.states
  rw [ButtonPath.putReport]
  rcases stagePut_cases path.link pipe (wordReport buttons) with
    hsame | ⟨hqueue, hstaged, hpointer, hwrites⟩
  · rw [hsame, if_pos rfl]
    exact h.setStage fun _ _ hother => by cases hother
  · have hlonger : ¬ ((path.link.stagePut pipe (wordReport buttons)).staged pipe).length =
        (path.link.staged pipe).length := by
      rw [hstaged, List.length_append, List.length_singleton]
      omega
    rw [if_neg hlonger]
    have hreport : buttonReports [wordReport buttons] = [buttons] := by
      rw [buttonReports, wordReport, List.filter_cons_of_pos (isMouseReport_encode _)]
      rfl
    have hversion : List.Forall₂ (Carries path.words) [version]
        (buttonReports [wordReport buttons]) := by
      rw [hreport]
      exact .cons hcarries .nil
    have hput := h.append hqueue hstaged hpointer hwrites hsound hstates hversion
      fun other hother => by
        rw [List.mem_singleton.mp hother]
        exact hlive
    exact hput.setStage fun _ _ hother => by cases hother

theorem Ordered.work (h : path.Ordered pipe) : (path.work pipe).Ordered pipe := by
  rw [ButtonPath.work]
  cases hstage : path.stage with
  | idle => exact h
  | buttonSet sync changed =>
      have hnoted : (path.setPointer { path.link.pointer with
          buttonsChanged := path.link.pointer.buttonsChanged || changed }).Ordered pipe :=
        h.setPointer rfl rfl rfl
      exact hnoted.setStage fun _ _ hother => by cases hother
  | handled sync =>
      have hclaimed : (path.setPointer
          { path.link.pointer with buttonsChanged := false }).Ordered pipe :=
        h.setPointer rfl rfl rfl
      dsimp only
      split_ifs
      · exact hclaimed.setStage fun _ _ hother => by cases hother
      · exact h.setStage fun _ _ hother => by cases hother
  | claimed =>
      refine h.setStage fun version buttons hother => ?_
      cases hother
      obtain ⟨hlt, -⟩ := List.getElem?_eq_some_iff.mp h.word
      exact ⟨by omega, h.word⟩
  | wordRead version buttons => exact h.putReport hstage
  | reportPut =>
      have hwhole : WholeReports config (.count pipe) := trivial
      have hsame : SameReplies pipe path.link (path.link.step (.count pipe)) :=
        sameReplies_thread path.link trivial (fun _ _ hput => by cases hput)
          fun _ _ hrx => by cases hrx
      have hstates : ((path.link.step (.count pipe)).idle pipe).Calls
          fun call => HoldsStates config call.data :=
        calls_thread h.states (fun _ hlatch => by cases hlatch) fun _ _ hrx => by cases hrx
      exact (h.setLink hsame (h.sound.step hwhole) hstates).setStage
        fun _ _ hother => by cases hother

theorem Ordered.event (h : path.Ordered pipe) (event : PointerEvent) :
    (path.step pipe (.event event)).Ordered pipe := by
  rw [ButtonPath.step]
  cases path.stage with
  | idle => exact h.start event
  | _ => exact h

/-! ## Every run -/

/-- The relay stays active; only the input thread queues button reports. -/
def ActiveInput (config : ReplyConfig) : ButtonAction → Prop
  | .other action => OtherThread config action
  | _ => True

theorem Ordered.step (h : path.Ordered pipe)
    (honly : ∀ other, config.relayPipe other = true ↔ other = pipe) {action : ButtonAction}
    (hactive : ActiveInput config action) : (path.step pipe action).Ordered pipe := by
  cases action with
  | event event => exact h.event event
  | work => exact h.work
  | other action => exact h.other honly hactive

/-- With one relay pipe and the interrupt polling between any two steps, buttons are
written in order and no queued button report is skipped. -/
theorem buttons_in_order (config : ReplyConfig) (pipe : ℕ)
    (honly : ∀ other, config.relayPipe other = true ↔ other = pipe) (actions : List ButtonAction)
    (hactive : ∀ action ∈ actions, ActiveInput config action) :
    (run (ButtonPath.step pipe) (boot config) actions).ButtonsInOrder pipe := by
  have h : (run (ButtonPath.step pipe) (boot config) actions).Ordered pipe :=
    run_invariant_forall (fun _ _ hpath haction => hpath.step honly haction)
      (Ordered.boot config pipe) hactive
  exact h.buttonsInOrder

/-- A click; the dongle polls once the button is down in the word, and after the release
is queued. -/
def polledClick : List ButtonAction :=
  .event ⟨inputEvTypeKey, inputBtn0, 1, true⟩ :: .other (.rxDone 1 fun _ _ _ => true) ::
    (List.replicate 5 ButtonAction.work ++
      .event ⟨inputEvTypeKey, inputBtn0, 0, true⟩ :: List.replicate 5 ButtonAction.work ++
        [ButtonAction.other (.rxDone 1 fun _ _ _ => true)])

theorem buttons_in_order_sample :
    (run (ButtonPath.step 0) (boot sampleReplyConfig) polledClick).ButtonsInOrder 0 ∧
      writtenButtons (run (ButtonPath.step 0) (boot sampleReplyConfig) polledClick).link 0 =
        [1, 1, 0] := by
  refine ⟨buttons_in_order sampleReplyConfig 0 (fun other => ?_) polledClick ?_, by decide +kernel⟩
  · simp [sampleReplyConfig]
  · simp [polledClick, ActiveInput, OtherThread]

/-- A press and a release that left the queue are written as a press, then a release. -/
theorem ButtonsInOrder.click (h : path.ButtonsInOrder pipe) {front : List Bytes}
    (hfront : path.link.staged pipe = front ++ path.link.queue pipe) {press release : UInt8}
    (hclick : [press, release].Sublist (buttonReports front)) :
    [press, release].Sublist (writtenButtons path.link pipe) := by
  obtain ⟨left, hstaged, hwritten⟩ := h.complete
  have hsame : front = left := List.append_cancel_right (hfront.symm.trans hstaged)
  rw [hsame] at hclick
  exact hclick.trans hwritten

end ButtonPath

end SplitEsb
