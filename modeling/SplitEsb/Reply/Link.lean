import SplitEsb.Hop.Control
import SplitEsb.Latch.Cell
import SplitEsb.Relay.Pointer
import SplitEsb.Shared.Transition

/-! # Reverse channel of the central
Per pipe: the reply queue, the two control latches and the idle reply latch. Threads
fill them; the radio interrupt writes at most one payload for each pipe it acked. -/

namespace SplitEsb

open ByteString

/-- The devicetree and Kconfig values of the reverse channel, with the assertions of
the build. ZMK fixes the report and command sizes; a command names its behavior in
sixteen characters and carries two parameters of four bytes. -/
structure ReplyConfig where
  maxPayload : ℕ
  pipeCount : ℕ
  relayPipe : ℕ → Bool
  replyQueueDepth : ℕ → ℕ
  keyboardReportLength : ℕ
  consumerReportLength : ℕ
  commandLength : ℕ
  pipeCount_le : pipeCount ≤ 8
  maxPayload_le : maxPayload ≤ 252
  keyboardReport_pos : 0 < keyboardReportLength
  consumerReport_pos : 0 < consumerReportLength
  control_fits : esbLinkControlMaxLength ≤ maxPayload
  reports_fit :
    keyboardReportLength + consumerReportLength + esbHidRelayPointerLength ≤ maxPayload
  command_fits : commandLength ≤ maxPayload
  commandLength_ge : 24 ≤ commandLength

/-- A dongle on the first of two pipes, with the default sizes. -/
def sampleReplyConfig : ReplyConfig where
  maxPayload := 48
  pipeCount := 2
  relayPipe pipe := pipe = 0
  replyQueueDepth _ := 8
  keyboardReportLength := 9
  consumerReportLength := 13
  commandLength := 40
  pipeCount_le := by decide
  maxPayload_le := by decide
  keyboardReport_pos := by decide
  consumerReport_pos := by decide
  control_fits := by decide
  reports_fit := by decide
  command_fits := by decide
  commandLength_ge := by decide

/-! ## Latched values -/

structure ControlPayload where
  data : Vector UInt8 esbLinkControlMaxLength
  length : UInt8

structure IdleReply (config : ReplyConfig) where
  data : Vector UInt8 config.maxPayload
  length : UInt8
  repliesStaged : UInt32

/-- A call of esb_link_latch_idle_reply, with the reports put before it and the
increments its read of the counter saw. -/
structure IdleCall where
  data : Bytes
  after : ℕ
  counted : ℕ

variable {config : ReplyConfig}

def ControlPayload.cleared : ControlPayload := ⟨Vector.replicate _ 0, 0⟩

def ControlPayload.bytes (slot : ControlPayload) : Bytes := slot.data.toList.take slot.length.toNat

/-- The statements after the claim: each byte of the memcpy, then the length. -/
def ControlPayload.store (done : ℕ) (call : Bytes) (slot : ControlPayload) :
    Option (Bytes × ControlPayload) :=
  if done < call.length then
    some (call, { slot with data := slot.data.setIfInBounds done (byteAt call done) })
  else if done = call.length then
    some (call, { slot with length := UInt8.ofNat call.length })
  else none

def IdleReply.cleared : IdleReply config := ⟨Vector.replicate _ 0, 0, 0⟩

def IdleReply.bytes (slot : IdleReply config) : Bytes := slot.data.toList.take slot.length.toNat

/-- Each byte of the memcpy, then the length, then the count of staged replies. -/
def IdleReply.store (repliesStaged : UInt32) (counted done : ℕ) (call : IdleCall)
    (slot : IdleReply config) : Option (IdleCall × IdleReply config) :=
  if done < call.data.length then
    some (call, { slot with data := slot.data.setIfInBounds done (byteAt call.data done) })
  else if done = call.data.length then
    some (call, { slot with length := UInt8.ofNat call.data.length })
  else if done = call.data.length + 1 then
    some ({ call with counted := counted }, { slot with repliesStaged := repliesStaged })
  else none

/-! ## The reverse channel -/

/-- Which writer built a payload: the number of the latched value in its latch, or how
many queued replies were packed. -/
inductive ReplySource where
  | control (kind : EsbLinkControl) (number : ℕ)
  | queued (taken : ℕ)
  | idle (number : Option ℕ)
  deriving DecidableEq, Repr

/-- A payload handed to esb_write_payload, whether it was taken, how many queued
replies of the pipe had left before it, and whether the relay was active. -/
structure AckWrite where
  pipe : ℕ
  source : ReplySource
  data : Bytes
  accepted : Bool
  leftBefore : ℕ
  active : Bool
  deriving DecidableEq, Repr

/-- What esb_write_payload answers after the writes so far. -/
abbrev AckFifo := List AckWrite → ℕ → Bytes → Bool

/-- `uncounted` counts the calls of esb_link_stage_reply between their put and their
increment. The fields after it only record: the replies put, the increments, the
replies that left, the idle replies dropped, and every write. -/
structure ReplyLink (config : ReplyConfig) where
  queue : ℕ → List Bytes
  control : ℕ → EsbLinkControl → LatchCell Bytes ControlPayload
  idle : ℕ → LatchCell IdleCall (IdleReply config)
  repliesStaged : ℕ → UInt32
  pointer : RelayPointer
  uncounted : ℕ → ℕ
  staged : ℕ → List Bytes
  counted : ℕ → ℕ
  left : ℕ → ℕ
  dropped : ℕ → List ℕ
  writes : List AckWrite

/-- What the input listener and the relay keepalive do to the pointer. -/
inductive PointerAction where
  | event (event : PointerEvent)
  | refresh
  | reset (held : UInt8)
  | pause (paused : Bool)

def PointerAction.apply (pointer : RelayPointer) : PointerAction → RelayPointer
  | .event input => (pointer.handleEvent input).1
  | .refresh => pointer.refresh
  | .reset buttons => pointer.reset buttons
  | .pause on => pointer.setPaused on

/-- One statement of a thread with an effect outside it, or one run of the interrupt. -/
inductive ReplyAction where
  | put (pipe : ℕ) (data : Bytes)
  | count (pipe : ℕ)
  | latchControl (pipe : ℕ) (kind : EsbLinkControl) (data : Bytes)
  | controlStatement (pipe : ℕ) (kind : EsbLinkControl)
  | latchIdle (pipe : ℕ) (data : Bytes)
  | idleStatement (pipe : ℕ)
  | pointer (action : PointerAction)
  | rxDone (pipesAcked : UInt8) (fifo : AckFifo)

def controlLatchSlots : UInt8 := 2
def idleReplySlots : UInt8 := 2

namespace ReplyLink

def boot (config : ReplyConfig) : ReplyLink config where
  queue _ := []
  control _ _ := LatchCell.empty controlLatchSlots .cleared
  idle _ := LatchCell.empty idleReplySlots .cleared
  repliesStaged _ := 0
  pointer := .zero
  uncounted _ := 0
  staged _ := []
  counted _ := 0
  left _ := 0
  dropped _ := []
  writes := []

/-! ### From the threads -/

/-- esb_link_stage_reply up to k_msgq_put. -/
def stagePut (link : ReplyLink config) (pipe : ℕ) (data : Bytes) : ReplyLink config :=
  if config.pipeCount ≤ pipe then link
  else if data.length = 0 ∨ config.maxPayload < data.length then link
  else if config.replyQueueDepth pipe ≤ (link.queue pipe).length then link
  else
    { link with
      queue := Function.update link.queue pipe (link.queue pipe ++ [data])
      uncounted := Function.update link.uncounted pipe (link.uncounted pipe + 1)
      staged := Function.update link.staged pipe (link.staged pipe ++ [data]) }

/-- The increment after a put. -/
def stageCount (link : ReplyLink config) (pipe : ℕ) : ReplyLink config :=
  if link.uncounted pipe = 0 then link
  else
    { link with
      uncounted := Function.update link.uncounted pipe (link.uncounted pipe - 1)
      repliesStaged := Function.update link.repliesStaged pipe (link.repliesStaged pipe + 1)
      counted := Function.update link.counted pipe (link.counted pipe + 1) }

def setControl (link : ReplyLink config) (pipe : ℕ) (kind : EsbLinkControl)
    (cell : LatchCell Bytes ControlPayload) : ReplyLink config :=
  { link with
    control := Function.update link.control pipe (Function.update (link.control pipe) kind cell) }

def setIdle (link : ReplyLink config) (pipe : ℕ) (cell : LatchCell IdleCall (IdleReply config)) :
    ReplyLink config :=
  { link with idle := Function.update link.idle pipe cell }

def latchControl (link : ReplyLink config) (pipe : ℕ) (kind : EsbLinkControl) (data : Bytes) :
    ReplyLink config :=
  if config.pipeCount ≤ pipe then link
  else if data.length = 0 ∨ esbLinkControlMaxLength < data.length then link
  else link.setControl pipe kind ((link.control pipe kind).begin data)

def controlStatement (link : ReplyLink config) (pipe : ℕ) (kind : EsbLinkControl) :
    ReplyLink config :=
  link.setControl pipe kind ((link.control pipe kind).advance ControlPayload.store)

def latchIdleReply (link : ReplyLink config) (pipe : ℕ) (data : Bytes) : ReplyLink config :=
  if config.pipeCount ≤ pipe then link
  else if data.length = 0 ∨ config.maxPayload < data.length then link
  else link.setIdle pipe ((link.idle pipe).begin ⟨data, (link.staged pipe).length, 0⟩)

def idleStatement (link : ReplyLink config) (pipe : ℕ) : ReplyLink config :=
  link.setIdle pipe
    ((link.idle pipe).advance (IdleReply.store (link.repliesStaged pipe) (link.counted pipe)))

/-! ### The radio interrupt -/

/-- Hands a payload to the radio, which takes it or refuses. -/
def writeReply (link : ReplyLink config) (fifo : AckFifo) (pipe : ℕ) (source : ReplySource)
    (data : Bytes) : ReplyLink config × Bool :=
  let accepted := fifo link.writes pipe data
  ({ link with
      writes := link.writes ++
        [⟨pipe, source, data, accepted, link.left pipe, link.pointer.active⟩] }, accepted)

/-- The first kind with a published payload, and its slot. -/
def pendingControl (link : ReplyLink config) (pipe : ℕ) : Option (EsbLinkControl × ℕ) :=
  [EsbLinkControl.beacon, .mask].findSome? fun kind =>
    (link.control pipe kind).latch.peek.map fun slot => (kind, slot)

/-- Writes the published control payload of a slot, and releases it once taken. -/
def writeControl (link : ReplyLink config) (fifo : AckFifo) (pipe : ℕ) (kind : EsbLinkControl)
    (slot : ℕ) : ReplyLink config :=
  let cell := link.control pipe kind
  let (link, accepted) := link.writeReply fifo pipe (.control kind (cell.history.length - 1))
    (cell.pool slot).bytes
  if accepted then link.setControl pipe kind (cell.release slot) else link

def writePendingControl (link : ReplyLink config) (fifo : AckFifo) (pipe : ℕ) :
    ReplyLink config × Bool :=
  match link.pendingControl pipe with
  | none => (link, false)
  | some (kind, slot) => (link.writeControl fifo pipe kind slot, true)

def commitPointer (link : ReplyLink config) (data : Bytes) (offset : ℕ) (hasPointer : Bool) :
    ReplyLink config :=
  if hasPointer then { link with pointer := link.pointer.sent (data.drop offset) } else link

/-- The pointer report a relay payload still has room for. -/
def appendPointer (link : ReplyLink config) (pipe : ℕ) (data : Bytes) (changesQueued : Bool) :
    Option Bytes :=
  if !config.relayPipe pipe then none
  else link.pointer.take (config.maxPayload - data.length) changesQueued

structure PackedReplies where
  data : Bytes
  taken : ℕ
  pointerOffset : ℕ
  hasPointer : Bool
  deriving DecidableEq, Repr

/-- Motion that waits keeps room for its report. -/
def queuedRoom (link : ReplyLink config) (pipe : ℕ) : ℕ :=
  if !config.relayPipe pipe || !link.pointer.motionPending then config.maxPayload
  else config.maxPayload - esbHidRelayPointerLength

/-- Appends one reply, a mouse report for a relay with the totals stamped in. -/
def packReply (relay : Bool) (pointer : RelayPointer) (packet : Bytes) (packed : PackedReplies) :
    PackedReplies :=
  let stamped := if relay then pointer.stamp packet else none
  { data := packed.data ++ stamped.getD packet
    taken := packed.taken + 1
    pointerOffset := if stamped.isSome then packed.data.length else packed.pointerOffset
    hasPointer := packed.hasPointer || stamped.isSome }

/-- Packs queued replies until one does not fit; a command always goes alone. -/
def packQueuedReplies (relay : Bool) (pointer : RelayPointer) (room : ℕ) :
    List Bytes → PackedReplies → PackedReplies
  | [], packed => packed
  | packet :: packets, packed =>
      if room < packed.data.length + packet.length then packed
      else if relay then
        packQueuedReplies relay pointer room packets (packReply relay pointer packet packed)
      else packReply relay pointer packet packed

def packed (link : ReplyLink config) (pipe : ℕ) : PackedReplies :=
  packQueuedReplies (config.relayPipe pipe) link.pointer (link.queuedRoom pipe) (link.queue pipe)
    ⟨[], 0, 0, false⟩

/-- The packed payload with a pointer report, unless it holds one or none is due. -/
def withPointer (link : ReplyLink config) (pipe : ℕ) (packed : PackedReplies) : PackedReplies :=
  if packed.hasPointer then packed
  else
    let report := link.appendPointer pipe packed.data
      (decide (packed.taken < (link.queue pipe).length))
    { packed with
      data := packed.data ++ report.getD []
      pointerOffset := packed.data.length
      hasPointer := report.isSome }

/-- The replies that were packed leave the queue. -/
def dequeue (link : ReplyLink config) (pipe taken : ℕ) : ReplyLink config :=
  { link with
    queue := Function.update link.queue pipe ((link.queue pipe).drop taken)
    left := Function.update link.left pipe (link.left pipe + taken) }

/-- Writes the packed replies, which leave the queue once taken. -/
def writePacked (link : ReplyLink config) (fifo : AckFifo) (pipe : ℕ) (packed : PackedReplies) :
    ReplyLink config :=
  let (link, accepted) := link.writeReply fifo pipe (.queued packed.taken) packed.data
  if accepted then
    (link.dequeue pipe packed.taken).commitPointer packed.data packed.pointerOffset packed.hasPointer
  else link

def writeQueuedReplies (link : ReplyLink config) (fifo : AckFifo) (pipe : ℕ) :
    ReplyLink config × Bool :=
  let packed := link.packed pipe
  if packed.taken = 0 then (link, false)
  else (link.writePacked fifo pipe (link.withPointer pipe packed), true)

/-- The published idle reply, unless a reply was staged since: then it is released. -/
def freshIdleReply (link : ReplyLink config) (pipe : ℕ) : ReplyLink config × Option ℕ :=
  let cell := link.idle pipe
  match cell.latch.peek with
  | none => (link, none)
  | some slot =>
      if (cell.pool slot).repliesStaged ≠ link.repliesStaged pipe then
        ({ link.setIdle pipe (cell.release slot) with
            dropped :=
              Function.update link.dropped pipe (link.dropped pipe ++ [cell.history.length - 1]) },
          none)
      else (link, some slot)

/-- The bytes of the fresh idle reply, if there is one. -/
def idleBytes (link : ReplyLink config) (pipe : ℕ) (fresh : Option ℕ) : Bytes :=
  (fresh.map fun slot => ((link.idle pipe).pool slot).bytes).getD []

def releaseIdle (link : ReplyLink config) (pipe : ℕ) : Option ℕ → ReplyLink config
  | none => link
  | some slot => link.setIdle pipe ((link.idle pipe).release slot)

/-- Writes the fresh idle reply and a pointer report, if there is any of them. -/
def writeFresh (link : ReplyLink config) (fifo : AckFifo) (pipe : ℕ) (fresh : Option ℕ) :
    ReplyLink config :=
  let latched := link.idleBytes pipe fresh
  let report := link.appendPointer pipe latched false
  let data := latched ++ report.getD []
  if data.length = 0 then link
  else
    let number := fresh.map fun _ => (link.idle pipe).history.length - 1
    let (link, accepted) := link.writeReply fifo pipe (.idle number) data
    if accepted then
      (link.releaseIdle pipe fresh).commitPointer data latched.length report.isSome
    else link

def writeIdleReply (link : ReplyLink config) (fifo : AckFifo) (pipe : ℕ) : ReplyLink config :=
  let (link, fresh) := link.freshIdleReply pipe
  link.writeFresh fifo pipe fresh

/-- One pipe of esb_link_role_rx_done. -/
def replyTo (fifo : AckFifo) (link : ReplyLink config) (pipe : ℕ) : ReplyLink config :=
  let (link, written) := link.writePendingControl fifo pipe
  if written then link
  else
    let (link, written) := link.writeQueuedReplies fifo pipe
    if written then link else link.writeIdleReply fifo pipe

/-- esb_link_role_rx_done. -/
def rxDone (link : ReplyLink config) (fifo : AckFifo) (pipesAcked : UInt8) : ReplyLink config :=
  ((List.range config.pipeCount).filter fun pipe => BitTable.readBit pipesAcked pipe).foldl
    (replyTo fifo) link

def step (link : ReplyLink config) : ReplyAction → ReplyLink config
  | .put pipe data => link.stagePut pipe data
  | .count pipe => link.stageCount pipe
  | .latchControl pipe kind data => link.latchControl pipe kind data
  | .controlStatement pipe kind => link.controlStatement pipe kind
  | .latchIdle pipe data => link.latchIdleReply pipe data
  | .idleStatement pipe => link.idleStatement pipe
  | .pointer action => { link with pointer := action.apply link.pointer }
  | .rxDone pipesAcked fifo => link.rxDone fifo pipesAcked

/-! ### What each writer changes -/

/-- The record of a payload of the pipe handed over now. -/
def attempt (link : ReplyLink config) (fifo : AckFifo) (pipe : ℕ) (source : ReplySource)
    (data : Bytes) : AckWrite :=
  ⟨pipe, source, data, fifo link.writes pipe data, link.left pipe, link.pointer.active⟩

variable (link : ReplyLink config) (fifo : AckFifo) (pipe : ℕ)

theorem writeControl_eq (kind : EsbLinkControl) (slot : ℕ) :
    link.writeControl fifo pipe kind slot =
      let cell := link.control pipe kind
      let write := link.attempt fifo pipe (.control kind (cell.history.length - 1))
        (cell.pool slot).bytes
      { link with
        control := if write.accepted then
          Function.update link.control pipe
            (Function.update (link.control pipe) kind (cell.release slot)) else link.control
        writes := link.writes ++ [write] } := by
  rw [writeControl]
  dsimp only [writeReply, attempt]
  split <;> rfl

theorem writePacked_eq (packed : PackedReplies) :
    link.writePacked fifo pipe packed =
      let write := link.attempt fifo pipe (.queued packed.taken) packed.data
      { link with
        queue := if write.accepted then
          Function.update link.queue pipe ((link.queue pipe).drop packed.taken) else link.queue
        pointer := if write.accepted && packed.hasPointer then
          link.pointer.sent (packed.data.drop packed.pointerOffset) else link.pointer
        left := if write.accepted then
          Function.update link.left pipe (link.left pipe + packed.taken) else link.left
        writes := link.writes ++ [write] } := by
  rw [writePacked]
  dsimp only [writeReply, attempt]
  split
  case isTrue haccepted =>
      cases hpointer : packed.hasPointer <;> simp [dequeue, commitPointer, haccepted]
  case isFalse hrefused => simp [hrefused]

/-- A fresh idle reply is the one published, of the count reached now. -/
theorem freshIdleReply_eq : link.freshIdleReply pipe =
    let cell := link.idle pipe
    match cell.latch.peek with
    | none => (link, none)
    | some slot =>
        if (cell.pool slot).repliesStaged = link.repliesStaged pipe then (link, some slot)
        else
          ({ link with
              idle := Function.update link.idle pipe (cell.release slot)
              dropped := Function.update link.dropped pipe
                (link.dropped pipe ++ [cell.history.length - 1]) }, none) := by
  rw [freshIdleReply]
  dsimp only
  cases (link.idle pipe).latch.peek with
  | none => rfl
  | some slot => simp only [ne_eq, ite_not, setIdle]

theorem writeFresh_eq (fresh : Option ℕ) :
    link.writeFresh fifo pipe fresh =
      let cell := link.idle pipe
      let latched := link.idleBytes pipe fresh
      let report := link.appendPointer pipe latched false
      let data := latched ++ report.getD []
      if data.length = 0 then link
      else
        let write := link.attempt fifo pipe (.idle (fresh.map fun _ => cell.history.length - 1)) data
        { link with
          idle := if write.accepted then
            (link.releaseIdle pipe fresh).idle else link.idle
          pointer := if write.accepted && report.isSome then
            link.pointer.sent (data.drop latched.length) else link.pointer
          writes := link.writes ++ [write] } := by
  rw [writeFresh]
  dsimp only [writeReply, attempt]
  generalize link.idleBytes pipe fresh = latched
  generalize link.appendPointer pipe latched false = report
  split
  · rfl
  · split
    case isTrue haccepted =>
        cases fresh <;> cases report <;> simp_all [releaseIdle, setIdle, commitPointer]
    case isFalse hrefused => simp [hrefused]

/-! ### What the interrupt keeps -/

/-- The turn of a pipe goes to the control latches, the queue or the idle reply. -/
@[elab_as_elim]
theorem replyTo_cases {motive : ReplyLink config → Prop} {fifo : AckFifo}
    {link : ReplyLink config} {pipe : ℕ}
    (hcontrol : ∀ kind slot, link.pendingControl pipe = some (kind, slot) →
      motive (link.writeControl fifo pipe kind slot))
    (hqueued : link.pendingControl pipe = none → (link.packed pipe).taken ≠ 0 →
      motive (link.writePacked fifo pipe (link.withPointer pipe (link.packed pipe))))
    (hidle : link.pendingControl pipe = none → (link.packed pipe).taken = 0 →
      motive (link.writeIdleReply fifo pipe)) : motive (replyTo fifo link pipe) := by
  rw [replyTo, writePendingControl]
  cases hpending : link.pendingControl pipe with
  | some pending => exact hcontrol _ _ hpending
  | none =>
      dsimp only
      rw [if_neg Bool.false_ne_true, writeQueuedReplies]
      by_cases htaken : (link.packed pipe).taken = 0
      · rw [if_pos htaken]
        exact hidle hpending htaken
      · rw [if_neg htaken]
        exact hqueued hpending htaken

/-- What each of the writers keeps, in the states its turn comes in, one run of the
interrupt keeps. -/
theorem rxDone_invariant {Inv : ReplyLink config → Prop} {fifo : AckFifo}
    (hcontrol : ∀ link pipe kind slot, pipe < config.pipeCount →
      link.pendingControl pipe = some (kind, slot) → Inv link →
        Inv (link.writeControl fifo pipe kind slot))
    (hqueued : ∀ link pipe, pipe < config.pipeCount → link.pendingControl pipe = none →
      (link.packed pipe).taken ≠ 0 → Inv link →
        Inv (link.writePacked fifo pipe (link.withPointer pipe (link.packed pipe))))
    (hidle : ∀ link pipe, pipe < config.pipeCount → link.pendingControl pipe = none →
      (link.packed pipe).taken = 0 → Inv link → Inv (link.writeIdleReply fifo pipe))
    {link : ReplyLink config} (h : Inv link) (pipesAcked : UInt8) : Inv (link.rxDone fifo pipesAcked) := by
  have hreply : ∀ link pipe, pipe < config.pipeCount → Inv link → Inv (replyTo fifo link pipe) := by
    intro link pipe hpipe hlink
    apply replyTo_cases
    · exact fun kind slot hpending => hcontrol link pipe kind slot hpipe hpending hlink
    · exact fun hpending htaken => hqueued link pipe hpipe hpending htaken hlink
    · exact fun hpending htaken => hidle link pipe hpipe hpending htaken hlink
  have hfold : ∀ (pipes : List ℕ) (link : ReplyLink config),
      (∀ pipe ∈ pipes, pipe < config.pipeCount) → Inv link →
        Inv (pipes.foldl (replyTo fifo) link) := by
    intro pipes
    induction pipes with
    | nil => exact fun _ _ hlink => hlink
    | cons pipe pipes ih =>
        intro link hpipes hlink
        refine ih _ (fun other hmem => hpipes other (List.mem_cons_of_mem _ hmem)) ?_
        exact hreply link pipe (hpipes pipe (List.mem_cons_self ..)) hlink
  refine hfold _ link (fun pipe hmem => ?_) h
  exact List.mem_range.mp (List.mem_filter.mp hmem).1

end ReplyLink

end SplitEsb
