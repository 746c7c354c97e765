import SplitEsb.Relay.Turn

/-! # Who has the pointer state
`written_body` and `refresh_due` are shared by the relay pipes: a pipe that finds nothing
to write has the state only if it was the last to be written to, or was written the same. -/

namespace SplitEsb

open ByteString Transition

variable {config : ReplyConfig}

/-- A keyboard report and a consumer report, as the relay keepalive latches them. -/
def HoldsBoth (config : ReplyConfig) (data : Bytes) : Prop :=
  ∃ keyboard consumer, data = keyboard ++ consumer ∧
    (IsRelayReport config keyboard ∧ byteAt keyboard 0 = zmkHidReportIdKeyboard) ∧
      IsRelayReport config consumer ∧ byteAt consumer 0 = zmkHidReportIdConsumer

/-- What the central does, paused or not: whole reports and latched states go to the relay
pipes. -/
def RelayRun (config : ReplyConfig) : ReplyAction → Prop
  | .put pipe data => config.relayPipe pipe = true → IsRelayReport config data
  | .latchIdle pipe data => config.relayPipe pipe = true → HoldsBoth config data
  | _ => True

/-- The last pointer report of these payloads; both ends boot with the zero body. -/
def lastPointer (config : ReplyConfig) (writes : List AckWrite) : MouseReportBody :=
  (pointerReports config writes).getLast?.getD .zero

theorem lastPointer_append (front back : List AckWrite) : lastPointer config (front ++ back) =
    (pointerReports config back).getLast?.getD (lastPointer config front) := by
  rw [lastPointer, pointerReports_append, List.getLast?_append, lastPointer]
  cases (pointerReports config back).getLast? <;> rfl

theorem HoldsBoth.states {data : Bytes} (h : HoldsBoth config data) : HoldsStates config data := by
  obtain ⟨keyboard, consumer, rfl, ⟨hkeyboard, hfirst⟩, hconsumer, hsecond⟩ := h
  refine ⟨[keyboard, consumer], by simp, fun report hmem => ?_⟩
  rcases List.mem_cons.mp hmem with rfl | hmem
  · exact ⟨hkeyboard, hfirst ▸ by decide⟩
  · rw [List.mem_singleton.mp hmem]
    exact ⟨hconsumer, hsecond ▸ by decide⟩

/-- Both states leave room for a pointer report. -/
theorem HoldsBoth.room {data : Bytes} (h : HoldsBoth config data) :
    esbHidRelayPointerLength ≤ config.maxPayload - data.length := by
  obtain ⟨keyboard, consumer, rfl, ⟨hkeyboard, hfirst⟩, hconsumer, hsecond⟩ := h
  have hlength : relayReportLength config zmkHidReportIdKeyboard = config.keyboardReportLength ∧
      relayReportLength config zmkHidReportIdConsumer = config.consumerReportLength := ⟨rfl, rfl⟩
  have hfit := config.reports_fit
  rw [List.length_append, hkeyboard.length, hconsumer.length, hfirst, hsecond, hlength.1, hlength.2]
  omega

namespace RelayPointer

/-- The live state as a report carries it. -/
def currentBody (pointer : RelayPointer) : MouseReportBody := ⟨pointer.buttons, pointer.shortTotals⟩

/-- With room and nothing queued, an active relay has nothing to write only if it wrote
the current state last. -/
theorem writtenBody_of_take {pointer : RelayPointer} {room : ℕ} (hactive : pointer.active = true)
    (hroom : esbHidRelayPointerLength ≤ room) (h : pointer.take room false = none) :
    pointer.writtenBody = pointer.currentBody := by
  have hbody : pointer.stampTotals
      { MouseReportBody.zero with buttons := pointer.reportButtons false } = pointer.currentBody := by
    simp [stampTotals, reportButtons, hactive, currentBody]
  rw [take, if_neg (Nat.not_lt.mpr hroom)] at h
  dsimp only at h
  rw [hbody] at h
  split at h
  case isTrue hwritten =>
      rw [Bool.and_eq_true, bodyIsWritten, beq_iff_eq] at hwritten
      exact hwritten.1.symm
  case isFalse => cases h

end RelayPointer

namespace ReplyLink

/-- The payloads handed over for any relay pipe. -/
def relayWrites (link : ReplyLink config) : List AckWrite :=
  link.writes.filter fun write => config.relayPipe write.pipe

/-- The state in which one run of the interrupt comes to the turn of a pipe. -/
def AtTurn (link : ReplyLink config) (fifo : AckFifo) (pipesAcked : UInt8) (pipe : ℕ)
    (turn : ReplyLink config) : Prop :=
  ∃ front back, servedPipes config pipesAcked = front ++ pipe :: back ∧
    turn = front.foldl (replyTo fifo) link

theorem atTurn_alone (link : ReplyLink config) (fifo : AckFifo) {pipesAcked : UInt8} {pipe : ℕ}
    (hserved : servedPipes config pipesAcked = [pipe]) : link.AtTurn fifo pipesAcked pipe link :=
  ⟨[], [], hserved, rfl⟩

/-- No control is pending, no reply queued, and the pointer yields no report. -/
structure Quiet (pipe : ℕ) (link : ReplyLink config) : Prop where
  control : link.pendingControl pipe = none
  queue : link.queue pipe = []
  nothing : (link.freshIdleReply pipe).1.appendPointer pipe
    ((link.freshIdleReply pipe).1.idleBytes pipe (link.freshIdleReply pipe).2) false = none

/-! ## What is written last -/

variable {link : ReplyLink config} {pipe : ℕ}

/-- `written_body` is the last pointer report of all relay pipes. -/
structure KeepsLast (link : ReplyLink config) : Prop where
  sound : ∀ pipe, link.RelaySound pipe
  states : ∀ pipe, config.relayPipe pipe = true →
    (link.idle pipe).Calls fun call => HoldsBoth config call.data
  written : link.pointer.writtenBody = lastPointer config link.relayWrites

theorem KeepsLast.boot (config : ReplyConfig) : (boot config).KeepsLast where
  sound pipe := RelaySound.run config pipe (List.forall_mem_nil _)
  states _ _ := .empty ..
  written := rfl

theorem packQueuedReplies_command (pointer : RelayPointer) (room : ℕ) (packets : List Bytes)
    (packed : PackedReplies) :
    (packQueuedReplies false pointer room packets packed).hasPointer = packed.hasPointer := by
  cases packets with
  | nil => rfl
  | cons packet packets =>
      rw [packQueuedReplies]
      split
      · rfl
      · simp [packReply]

/-- The turn of a pipe without a relay leaves the pointer alone. -/
theorem replyTo_command (link : ReplyLink config) (fifo : AckFifo)
    (hcommand : config.relayPipe pipe = false) :
    (replyTo fifo link pipe).pointer = link.pointer ∧
      (replyTo fifo link pipe).relayWrites = link.relayWrites := by
  have happend : ∀ (link : ReplyLink config) (data : Bytes) (changesQueued : Bool),
      link.appendPointer pipe data changesQueued = none := by
    intro link data changesQueued
    rw [appendPointer, hcommand]
    rfl
  have hwrites : ∀ (writes : List AckWrite) (write : AckWrite), write.pipe = pipe →
      (writes ++ [write]).filter (fun write => config.relayPipe write.pipe) =
        writes.filter fun write => config.relayPipe write.pipe := by
    intro writes write hwrite
    simp [hwrite, hcommand]
  refine replyTo_cases (motive := fun after => after.pointer = link.pointer ∧
    after.relayWrites = link.relayWrites) ?_ ?_ ?_
  · intro kind slot _
    rw [writeControl_eq]
    exact ⟨rfl, hwrites _ _ rfl⟩
  · intro _ _
    have hnone : (link.withPointer pipe (link.packed pipe)).hasPointer = false := by
      have hpacked : (link.packed pipe).hasPointer = false := by
        rw [packed, hcommand, packQueuedReplies_command]
      rw [withPointer, hpacked, happend]
      rfl
    rw [writePacked_eq]
    dsimp only
    rw [hnone, Bool.and_false]
    exact ⟨rfl, hwrites _ _ rfl⟩
  · intro _ _
    obtain ⟨hkept, -, hpointer, -⟩ := freshIdleReply_keeps link pipe
    have hsame : (link.freshIdleReply pipe).1.relayWrites = link.relayWrites := by
      rw [relayWrites, hkept, relayWrites]
    rw [writeIdleReply, ← hpointer, ← hsame]
    dsimp only
    rw [writeFresh_eq]
    dsimp only
    rw [happend]
    split
    · exact ⟨rfl, rfl⟩
    · rw [Option.isSome_none, Bool.and_false]
      exact ⟨rfl, hwrites _ _ rfl⟩

theorem KeepsLast.replyTo (h : link.KeepsLast) (fifo : AckFifo) (turn : ℕ) :
    (replyTo fifo link turn).KeepsLast where
  sound pipe := (h.sound pipe).replyTo fifo turn
  states pipe hrelay := by
    rcases eq_or_ne pipe turn with rfl | hne
    · have hcalls := calls_replyTo link fifo pipe
      exact ⟨hcalls.1 ▸ (h.states pipe hrelay).writer, hcalls.2 ▸ (h.states pipe hrelay).history⟩
    · rw [(Untouched.replyTo fifo hne : Untouched pipe link _).idle]
      exact h.states pipe hrelay
  written := by
    cases hrelay : config.relayPipe turn with
    | false =>
        obtain ⟨hpointer, hwrites⟩ := replyTo_command link fifo hrelay
        rw [hpointer, hwrites]
        exact h.written
    | true =>
        have hstates : (link.idle turn).Calls fun call => HoldsStates config call.data :=
          ⟨fun writer hwriter => ((h.states turn hrelay).writer writer hwriter).states,
            fun call hcall => ((h.states turn hrelay).history call hcall).states⟩
        obtain ⟨taken, made, hturn⟩ := exists_pointerTurn (h.sound turn) hstates hrelay fifo
        obtain ⟨new, hwrites, hpipe, rfl⟩ := hturn.writes
        obtain ⟨refreshDue, hpointer⟩ := hturn.pointer
        have hnew : (new.filter fun write => config.relayPipe write.pipe) = new :=
          List.filter_eq_self.mpr fun write hmem => by rw [hpipe write hmem, hrelay]
        rw [relayWrites, hwrites, List.filter_append, hnew, lastPointer_append, hpointer]
        change (pointerReports config new).getLast?.getD link.pointer.writtenBody = _
        rw [h.written]
        rfl

/-! ## Every run -/

theorem wholeReports_of_relayRun {action : ReplyAction} (h : RelayRun config action) :
    WholeReports config action := by
  cases action with
  | put pipe data => exact h
  | _ => trivial

/-- The input listener and the relay keepalive write no report. -/
theorem writtenBody_thread (link : ReplyLink config) {action : ReplyAction}
    (hthread : ∀ pipesAcked fifo, action ≠ .rxDone pipesAcked fifo) :
    (link.step action).pointer.writtenBody = link.pointer.writtenBody := by
  cases action with
  | put pipe data =>
      rw [step, stagePut]
      split_ifs <;> rfl
  | count pipe =>
      rw [step, stageCount]
      split_ifs <;> rfl
  | latchControl pipe kind data =>
      rw [step, latchControl]
      split_ifs <;> rfl
  | latchIdle pipe data =>
      rw [step, latchIdleReply]
      split_ifs <;> rfl
  | pointer action =>
      cases action with
      | event event =>
          change (link.pointer.handleEvent event).1.writtenBody = link.pointer.writtenBody
          simp only [RelayPointer.handleEvent, RelayPointer.addMotion, RelayPointer.addButton]
          split_ifs <;> (repeat' split) <;> rfl
      | _ => rfl
  | rxDone pipesAcked fifo => exact absurd rfl (hthread pipesAcked fifo)
  | _ => rfl

theorem KeepsLast.step (h : link.KeepsLast) {action : ReplyAction}
    (haction : RelayRun config action) : (link.step action).KeepsLast := by
  rcases writes_thread link action with ⟨pipesAcked, fifo, rfl⟩ | ⟨hthread, hwrites⟩
  · exact rxDone_turns KeepsLast (fun _ _ => True) (fun _ _ _ _ _ => trivial)
      (fun _ turn _ _ hlink => hlink.replyTo fifo turn) h fun _ _ => trivial
  · refine ⟨fun pipe => (h.sound pipe).step (wholeReports_of_relayRun haction),
      fun pipe hrelay => calls_thread (h.states pipe hrelay) ?_ hthread, ?_⟩
    · rintro data rfl
      exact haction hrelay
    · rw [writtenBody_thread link hthread, relayWrites, hwrites]
      exact h.written

theorem KeepsLast.run (config : ReplyConfig) {actions : List ReplyAction}
    (hactions : ∀ action ∈ actions, RelayRun config action) :
    (Transition.run ReplyLink.step (ReplyLink.boot config) actions).KeepsLast :=
  run_invariant_forall (fun _ _ hlink haction => hlink.step haction) (.boot config) hactions

theorem KeepsLast.atTurn (h : link.KeepsLast) {fifo : AckFifo} {pipesAcked : UInt8}
    {turn : ReplyLink config} (hturn : link.AtTurn fifo pipesAcked pipe turn) : turn.KeepsLast := by
  obtain ⟨front, back, -, rfl⟩ := hturn
  induction front generalizing link with
  | nil => exact h
  | cons first front ih => exact ih (h.replyTo fifo first)

/-- An active relay with nothing to write for a pipe wrote the current state last. -/
theorem KeepsLast.current (h : link.KeepsLast) (hrelay : config.relayPipe pipe = true)
    (hactive : link.pointer.active = true) (hquiet : link.Quiet pipe) :
    lastPointer config link.relayWrites = link.pointer.currentBody := by
  have hpointer := (freshIdleReply_keeps link pipe).2.2.1
  have hcalls := calls_freshIdleReply link pipe
  have hheld : ((link.freshIdleReply pipe).1.idle pipe).Calls
      fun call => HoldsBoth config call.data :=
    ⟨hcalls.1 ▸ (h.states pipe hrelay).writer, hcalls.2 ▸ (h.states pipe hrelay).history⟩
  have hroom : esbHidRelayPointerLength ≤ config.maxPayload -
      ((link.freshIdleReply pipe).1.idleBytes pipe (link.freshIdleReply pipe).2).length := by
    rcases idleBytes_cases ((h.sound pipe).cells.freshIdleReply pipe) hheld
      (fun slot hslot => peek_of_fresh hslot) with hnone | hboth
    · rw [hnone]
      have hfit := config.reports_fit
      have hlength : ([] : Bytes).length = 0 := rfl
      omega
    · exact hboth.room
  have hnothing := hquiet.nothing
  rw [appendPointer, hrelay, hpointer] at hnothing
  rw [← h.written]
  exact RelayPointer.writtenBody_of_take hactive hroom hnothing

/-- Where a poll finds nothing to write for a relay pipe, the last pointer report of that
pipe carries the current state iff it is the last one of all relay pipes. -/
theorem quiet_poll_current_iff (config : ReplyConfig) (actions : List ReplyAction)
    (hactions : ∀ action ∈ actions, RelayRun config action) (fifo : AckFifo) (pipesAcked : UInt8)
    (pipe : ℕ) (turn : ReplyLink config)
    (hturn : (run step (boot config) actions).AtTurn fifo pipesAcked pipe turn)
    (hrelay : config.relayPipe pipe = true) (hactive : turn.pointer.active = true)
    (hquiet : turn.Quiet pipe) :
    lastPointer config (turn.writesOf pipe) = turn.pointer.currentBody ↔
      lastPointer config (turn.writesOf pipe) = lastPointer config turn.relayWrites := by
  have h : turn.KeepsLast := (KeepsLast.run config hactions).atTurn hturn
  rw [h.current hrelay hactive hquiet]

/-- Motion reaches the only relay pipe; its next poll finds nothing to write. -/
def movedAndPolled : List ReplyAction :=
  [.pointer (.event ⟨inputEvTypeRel, inputRelX, 5, true⟩), .rxDone 1 fun _ _ _ => true]

theorem quiet_poll_current_sample :
    lastPointer sampleReplyConfig
        ((run step (boot sampleReplyConfig) movedAndPolled).writesOf 0) =
      (run step (boot sampleReplyConfig) movedAndPolled).pointer.currentBody := by
  have hturn : (run step (boot sampleReplyConfig) movedAndPolled).AtTurn (fun _ _ _ => true) 1 0
      (run step (boot sampleReplyConfig) movedAndPolled) := atTurn_alone _ _ (by decide)
  have hquiet : (run step (boot sampleReplyConfig) movedAndPolled).Quiet 0 :=
    ⟨by decide +kernel, by decide +kernel, by decide +kernel⟩
  refine (quiet_poll_current_iff sampleReplyConfig movedAndPolled ?_ _ 1 0 _ hturn rfl
    (by decide +kernel) hquiet).mpr (by decide +kernel)
  simp [movedAndPolled, RelayRun]

/-- With one relay pipe, every poll that finds nothing finds the pipe up to date. -/
theorem current_of_one_relay (config : ReplyConfig) (actions : List ReplyAction)
    (hactions : ∀ action ∈ actions, RelayRun config action) (fifo : AckFifo) (pipesAcked : UInt8)
    (pipe : ℕ) (honly : ∀ other, config.relayPipe other = true ↔ other = pipe)
    (turn : ReplyLink config)
    (hturn : (run step (boot config) actions).AtTurn fifo pipesAcked pipe turn)
    (hactive : turn.pointer.active = true) (hquiet : turn.Quiet pipe) :
    lastPointer config (turn.writesOf pipe) = turn.pointer.currentBody := by
  have h : turn.KeepsLast := (KeepsLast.run config hactions).atTurn hturn
  have hsame : turn.writesOf pipe = turn.relayWrites := by
    refine List.filter_congr fun write _ => ?_
    rw [Bool.eq_iff_iff, decide_eq_true_iff, honly]
  rw [hsame]
  exact h.current ((honly pipe).mpr rfl) hactive hquiet

/-- Both pipes are relays. -/
def pairReplyConfig : ReplyConfig := { sampleReplyConfig with relayPipe := fun pipe => pipe < 2 }

/-- The second pipe gets the first move, the first pipe the next one. -/
def movedBetweenPolls : List ReplyAction :=
  [.pointer (.event ⟨inputEvTypeRel, inputRelX, 3, true⟩), .rxDone 2 fun _ _ _ => true,
    .pointer (.event ⟨inputEvTypeRel, inputRelX, 5, true⟩), .rxDone 1 fun _ _ _ => true]

/-- The second pipe keeps the totals of the first move and is written nothing more. -/
theorem second_relay_outdated : ¬ ∀ (config : ReplyConfig) (actions : List ReplyAction)
    (pipesAcked : UInt8) (pipe : ℕ) (turn : ReplyLink config),
    (∀ action ∈ actions, RelayRun config action) →
    (run step (boot config) actions).AtTurn (fun _ _ _ => true) pipesAcked pipe turn →
    config.relayPipe pipe = true → turn.pointer.active = true → turn.Quiet pipe →
      lastPointer config (turn.writesOf pipe) = turn.pointer.currentBody := by
  intro h
  have hturn : (run step (boot pairReplyConfig) movedBetweenPolls).AtTurn (fun _ _ _ => true) 2 1
      (run step (boot pairReplyConfig) movedBetweenPolls) := atTurn_alone _ _ (by decide)
  have hquiet : (run step (boot pairReplyConfig) movedBetweenPolls).Quiet 1 :=
    ⟨by decide +kernel, by decide +kernel, by decide +kernel⟩
  have hcurrent := h pairReplyConfig movedBetweenPolls 2 1 _ (by simp [movedBetweenPolls, RelayRun])
    hturn rfl (by decide +kernel) hquiet
  exact absurd hcurrent (by decide +kernel)

end ReplyLink

end SplitEsb
