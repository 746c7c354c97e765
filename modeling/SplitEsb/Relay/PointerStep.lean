import SplitEsb.Relay.LastReport

/-! # One run of the interrupt with one relay pipe
The other pipes leave the pointer alone, so the run does what the turn of the relay pipe
does, or nothing. -/

namespace SplitEsb

open ByteString ReplyLink

variable {config : ReplyConfig}

/-- What a step writes of the pointer for its relay pipe. -/
structure PointerStep (pipe : ℕ) (before after : ReplyLink config) (taken : ℕ)
    (made : List MouseReportBody) : Prop where
  taken_le : taken ≤ (before.queue pipe).length
  queue : after.queue pipe = (before.queue pipe).drop taken
  staged : after.staged pipe = before.staged pipe
  written : pointerReports config (after.writesOf pipe) =
    pointerReports config (before.writesOf pipe) ++ made
  buttons : after.pointer.buttons = before.pointer.buttons
  active : after.pointer.active = before.pointer.active
  body : after.pointer.writtenBody = made.getLast?.getD before.pointer.writtenBody
  bodies : made = (((before.queue pipe).take taken).filter RelayPointer.isMouseReport).map
      before.pointer.stampedBody ∨
    ((before.queue pipe).take taken).filter RelayPointer.isMouseReport = [] ∧ made =
      [before.pointer.appendedBody (decide (taken < (before.queue pipe).length))]

theorem PointerStep.untouched {pipe : ℕ} {before after : ReplyLink config}
    (hsame : Untouched pipe before after) (hpointer : after.pointer = before.pointer) :
    PointerStep pipe before after 0 [] where
  taken_le := Nat.zero_le _
  queue := hsame.queue
  staged := hsame.staged
  written := by rw [hsame.writesOf, List.append_nil]
  buttons := by rw [hpointer]
  active := by rw [hpointer]
  body := by rw [hpointer]; rfl
  bodies := .inl rfl

theorem PointerStep.frame {pipe : ℕ} {before turn served after : ReplyLink config} {taken : ℕ}
    {made : List MouseReportBody} (hbefore : Untouched pipe before turn)
    (hstart : turn.pointer = before.pointer) (h : PointerStep pipe turn served taken made)
    (hafter : Untouched pipe served after) (hend : after.pointer = served.pointer) :
    PointerStep pipe before after taken made where
  taken_le := by simpa only [hbefore.queue] using h.taken_le
  queue := by rw [hafter.queue, h.queue, hbefore.queue]
  staged := by rw [hafter.staged, h.staged, hbefore.staged]
  written := by rw [hafter.writesOf, h.written, hbefore.writesOf]
  buttons := by rw [hend, h.buttons, hstart]
  active := by rw [hend, h.active, hstart]
  body := by rw [hend, h.body, hstart]
  bodies := by simpa only [hbefore.queue, hstart] using h.bodies

theorem ReplyLink.PointerTurn.pointerStep {pipe : ℕ} {before after : ReplyLink config} {taken : ℕ}
    {made : List MouseReportBody} (h : PointerTurn pipe before after taken made)
    (hstaged : after.staged pipe = before.staged pipe) :
    PointerStep pipe before after taken made := by
  obtain ⟨refreshDue, hpointer⟩ := h.pointer
  refine ⟨h.taken_le, h.queue, hstaged, ?_, ?_, ?_, ?_, h.bodies⟩
  · obtain ⟨new, hwrites, hpipe, rfl⟩ := h.writes
    have hnew : (new.filter fun write => decide (write.pipe = pipe)) = new :=
      List.filter_eq_self.mpr fun write hmem => decide_eq_true (hpipe write hmem)
    rw [writesOf, hwrites, List.filter_append, hnew, pointerReports_append, writesOf]
  · rw [hpointer]
  · rw [hpointer]
    rfl
  · rw [hpointer]

variable {pipe : ℕ} {link : ReplyLink config}

theorem foldl_command (fifo : AckFifo) {pipes : List ℕ}
    (hcommand : ∀ other ∈ pipes, config.relayPipe other = false) :
    (pipes.foldl (replyTo fifo) link).pointer = link.pointer := by
  induction pipes generalizing link with
  | nil => rfl
  | cons other pipes ih =>
      obtain ⟨hfirst, hrest⟩ := List.forall_mem_cons.mp hcommand
      exact (ih hrest).trans (replyTo_command link fifo hfirst).1

/-- With one relay pipe, a run of the interrupt is its turn or nothing. -/
theorem exists_pointerStep (honly : ∀ other, config.relayPipe other = true ↔ other = pipe)
    (h : link.RelaySound pipe)
    (hstates : (link.idle pipe).Calls fun call => HoldsStates config call.data) (fifo : AckFifo)
    (pipesAcked : UInt8) : ∃ taken made,
      PointerStep pipe link (link.rxDone fifo pipesAcked) taken made := by
  have hcommand : ∀ pipes : List ℕ, pipe ∉ pipes →
      ∀ other ∈ pipes, config.relayPipe other = false := by
    intro pipes habsent other hmem
    rw [← Bool.not_eq_true, honly]
    exact fun hsame => habsent (hsame ▸ hmem)
  by_cases hserved : pipe ∈ servedPipes config pipesAcked
  · obtain ⟨front, back, hfront, hback, hrun⟩ := rxDone_split link fifo hserved
    have hbefore : Untouched pipe link (front.foldl (replyTo fifo) link) := .foldl fifo hfront
    have hturn : (front.foldl (replyTo fifo) link).RelaySound pipe := by
      have hfold : ∀ (pipes : List ℕ) (link : ReplyLink config), link.RelaySound pipe →
          (pipes.foldl (replyTo fifo) link).RelaySound pipe := by
        intro pipes
        induction pipes with
        | nil => exact fun _ hlink => hlink
        | cons other pipes ih => exact fun _ hlink => ih _ (hlink.replyTo fifo other)
      exact hfold front link h
    obtain ⟨taken, made, hmade⟩ := exists_pointerTurn hturn (hbefore.idle ▸ hstates)
      ((honly pipe).mpr rfl) fifo
    refine ⟨taken, made, ?_⟩
    rw [hrun]
    exact .frame hbefore (foldl_command fifo (hcommand front hfront))
      (hmade.pointerStep (congrFun (staged_replyTo _ fifo pipe) pipe)) (.foldl fifo hback)
      (foldl_command fifo (hcommand back hback))
  · exact ⟨0, [], .untouched (.foldl fifo hserved) (foldl_command fifo (hcommand _ hserved))⟩

end SplitEsb
