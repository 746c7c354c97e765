import SplitEsb.Relay.Turn

/-! # Button events, step by step
The input thread changes the button word, notes the change, claims it at a sync, reads
the word and queues the report. The radio interrupt may poll between any two of these. -/

namespace SplitEsb

open ByteString

variable {config : ReplyConfig}

/-- How far `relay_pointer_handle_event` is with an event. The number only records which
of the button word's values was read. -/
inductive InputStage where
  | idle
  | buttonSet (sync changed : Bool)
  | handled (sync : Bool)
  | claimed
  | wordRead (version : ℕ) (buttons : UInt8)
  | reportPut
  deriving DecidableEq, Repr

/-- The reverse channel and the input thread. The fields after them only record: the
values the button word has had, by number, and which of them the button reports carry
that left the queue and that wait in it, and the pointer reports written. -/
structure ButtonPath (config : ReplyConfig) where
  link : ReplyLink config
  stage : InputStage
  words : List UInt8
  left : List ℕ
  waiting : List ℕ
  written : List ℕ

/-- An event comes in; the input thread takes its next step; anything else happens. -/
inductive ButtonAction where
  | event (event : PointerEvent)
  | work
  | other (action : ReplyAction)

namespace ButtonPath

def boot (config : ReplyConfig) : ButtonPath config where
  link := .boot config
  stage := .idle
  words := [0]
  left := []
  waiting := []
  written := []

def setPointer (path : ButtonPath config) (pointer : RelayPointer) : ButtonPath config :=
  { path with link := { path.link with pointer := pointer } }

/-! ## The input thread -/

/-- `set_button`: one atomic operation on the word, which returns the word before. -/
def setButton (path : ButtonPath config) (sync : Bool) (bit : UInt8) (pressed : Bool) :
    ButtonPath config :=
  let pointer := path.link.pointer
  let wasPressed := pointer.buttons &&& bit != 0
  let buttons := if pressed then pointer.buttons ||| bit else pointer.buttons &&& ~~~bit
  { path.setPointer { pointer with buttons := buttons } with
    words := path.words ++ [buttons]
    stage := .buttonSet sync (wasPressed != pressed) }

def start (path : ButtonPath config) (event : PointerEvent) : ButtonPath config :=
  let pointer := path.link.pointer
  if !pointer.active then path
  else if event.type = inputEvTypeRel then
    { path.setPointer (pointer.addMotion event.code event.value) with stage := .handled event.sync }
  else if event.type = inputEvTypeKey then
    match RelayPointer.buttonBit event.code with
    | none => { path with stage := .handled event.sync }
    | some bit => path.setButton event.sync bit (event.value != 0)
  else { path with stage := .handled event.sync }

/-- The report of `stage_buttons`, with the word it read. -/
def wordReport (buttons : UInt8) : Bytes := { MouseReportBody.zero with buttons := buttons }.encode

/-- The put of `stage_buttons` on the relay pipe; a full queue drops the report. -/
def putReport (pipe : ℕ) (path : ButtonPath config) (version : ℕ) (buttons : UInt8) :
    ButtonPath config :=
  let link := path.link.stagePut pipe (wordReport buttons)
  if (link.staged pipe).length = (path.link.staged pipe).length then
    { path with link := link, stage := .idle }
  else { path with link := link, stage := .reportPut, waiting := path.waiting ++ [version] }

/-- The next statement of `relay_pointer_handle_event`. -/
def work (pipe : ℕ) (path : ButtonPath config) : ButtonPath config :=
  let pointer := path.link.pointer
  match path.stage with
  | .idle => path
  | .buttonSet sync changed =>
      { path.setPointer { pointer with buttonsChanged := pointer.buttonsChanged || changed } with
        stage := .handled sync }
  | .handled sync =>
      if sync && pointer.buttonsChanged then
        { path.setPointer { pointer with buttonsChanged := false } with stage := .claimed }
      else { path with stage := .idle }
  | .claimed => { path with stage := .wordRead (path.words.length - 1) pointer.buttons }
  | .wordRead version buttons => path.putReport pipe version buttons
  | .reportPut => { path with link := path.link.stageCount pipe, stage := .idle }

/-! ## Everything else -/

/-- Which values the pointer reports carry that a step wrote for the pipe. Those queued
carry what they were queued with. One appended carries the value written last while
replies stay queued, the live one otherwise. -/
def carried (pipe : ℕ) (path : ButtonPath config) (after : ReplyLink config) : List ℕ :=
  let queue := path.link.queue pipe
  let taken := queue.length - (after.queue pipe).length
  let left := ((queue.take taken).filter RelayPointer.isMouseReport).length
  let made := (pointerReports config (after.writesOf pipe)).length -
    (pointerReports config (path.link.writesOf pipe)).length
  if 0 < left then path.waiting.take left
  else
    List.replicate made
      (if taken < queue.length then path.written.getLast?.getD 0 else path.words.length - 1)

/-- A step of another thread or a run of the radio interrupt. -/
def other (pipe : ℕ) (path : ButtonPath config) (action : ReplyAction) : ButtonPath config :=
  let link := path.link.step action
  let queue := path.link.queue pipe
  let taken := queue.length - (link.queue pipe).length
  let left := ((queue.take taken).filter RelayPointer.isMouseReport).length
  { path with
    link := link
    left := path.left ++ path.waiting.take left
    waiting := path.waiting.drop left
    written := path.written ++ path.carried pipe link }

def step (pipe : ℕ) (path : ButtonPath config) : ButtonAction → ButtonPath config
  | .event event =>
      match path.stage with
      | .idle => path.start event
      | _ => path
  | .work => path.work pipe
  | .other action => path.other pipe action

end ButtonPath

end SplitEsb
