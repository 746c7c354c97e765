import SplitEsb.Relay.Stamping

/-! # Commands in the reply queue
On a pipe that is no relay's a turn of the interrupt hands over one control payload or
one command, and a command leaves the queue once the radio took it. -/

namespace SplitEsb

open ByteString Transition

variable {config : ReplyConfig}

namespace ReplyLink

/-- The payloads of the pipe that the radio took, in order. -/
def handedOver (link : ReplyLink config) (pipe : ℕ) : List Bytes :=
  ((link.writesOf pipe).filter AckWrite.accepted).map AckWrite.data

/-- How many control latches of the pipe hold a payload. -/
def pendingControls (link : ReplyLink config) (pipe : ℕ) : ℕ :=
  [EsbLinkControl.beacon, .mask].countP fun kind => (link.control pipe kind).latch.peek.isSome

/-- What the turn of a pipe does, when only commands are queued and no idle reply is
latched. -/
inductive CommandTurn (carries : Bytes → Bool) (pipe : ℕ) (before after : ReplyLink config) : Prop
  | control (write : AckWrite) (hwrites : after.writesOf pipe = before.writesOf pipe ++ [write])
      (hdata : carries write.data = false) (hqueue : after.queue pipe = before.queue pipe)
      (hpending : write.accepted = true →
        after.pendingControls pipe + 1 = before.pendingControls pipe)
  | command (write : AckWrite) (commands : List Bytes)
      (hwrites : after.writesOf pipe = before.writesOf pipe ++ [write])
      (hqueue : before.queue pipe = write.data :: commands)
      (hafter : after.queue pipe = if write.accepted then commands else before.queue pipe)
      (hpending : after.pendingControls pipe = 0)
  | nothing (hwrites : after.writesOf pipe = before.writesOf pipe)
      (hqueue : before.queue pipe = []) (hafter : after.queue pipe = [])
      (hpending : after.pendingControls pipe = 0)

variable {link : ReplyLink config} {pipe : ℕ} {carries : Bytes → Bool}

theorem pendingControls_eq_zero (h : link.pendingControl pipe = none) :
    link.pendingControls pipe = 0 := by
  rw [pendingControl, List.findSome?_eq_none_iff] at h
  rw [pendingControls, List.countP_eq_zero]
  intro kind hkind hwaits
  obtain ⟨slot, hslot⟩ := Option.isSome_iff_exists.mp hwaits
  have hnone := h kind hkind
  rw [hslot] at hnone
  cases hnone

/-- A control payload that was taken leaves its latch, and the other kind waits on. -/
theorem pendingControls_release {kind : EsbLinkControl} {slot : ℕ}
    (hpeek : (link.control pipe kind).latch.peek = some slot) :
    (link.setControl pipe kind ((link.control pipe kind).release slot)).pendingControls pipe + 1 =
      link.pendingControls pipe := by
  have hempty : ((link.control pipe kind).release slot).latch.peek = none :=
    SpscLatch.peek_release hpeek
  cases kind <;>
    simp [pendingControls, List.countP_cons, control_setControl, hpeek, hempty, Nat.add_comm]

theorem commandTurn_writeControl (hcells : link.CellsSound)
    (hcontrol : ∀ kind, (link.control pipe kind).Calls fun data => carries data = false)
    (fifo : AckFifo) {kind : EsbLinkControl} {slot : ℕ}
    (hpending : link.pendingControl pipe = some (kind, slot)) :
    CommandTurn carries pipe link (link.writeControl fifo pipe kind slot) := by
  have hpeek := pendingControl_eq_some hpending
  obtain ⟨-, call, hcall, hfilled⟩ := (hcells.control pipe kind).peek slot hpeek
  have hmem : call ∈ (link.control pipe kind).history := List.mem_of_getLast? hcall
  refine .control (link.attempt fifo pipe (.control kind ((link.control pipe kind).history.length - 1))
    ((link.control pipe kind).pool slot).bytes) ?_ ?_ ?_ fun haccepted => ?_
  · rw [writeControl_eq]
    exact writesOf_attempt rfl
  · exact hfilled.bytes ▸ (hcontrol kind).history call hmem
  · rw [writeControl_eq]
  · rw [writeControl_eq, ← pendingControls_release hpeek]
    dsimp only
    rw [if_pos haccepted]
    rfl

/-- A command goes alone, as it was put. -/
theorem commandTurn_writePacked (hplain : config.relayPipe pipe = false) (fifo : AckFifo)
    (hpending : link.pendingControl pipe = none) (htaken : (link.packed pipe).taken ≠ 0) :
    CommandTurn carries pipe link
      (link.writePacked fifo pipe (link.withPointer pipe (link.packed pipe))) := by
  have hpacks := packs_packed link pipe
  have hone : (link.packed pipe).taken = 1 := by
    have := hpacks.alone hplain
    omega
  have hle := taken_packed_le link pipe
  obtain ⟨command, commands, hqueue⟩ : ∃ command commands, link.queue pipe = command :: commands :=
    List.exists_cons_of_length_pos (by omega)
  have hsent : sentForm (config.relayPipe pipe) link.pointer command = command := by
    rw [sentForm, hplain, if_neg Bool.false_ne_true]
    rfl
  have hdata : (link.withPointer pipe (link.packed pipe)).data = command := by
    obtain ⟨report, hwith, hreport⟩ := data_withPointer link pipe (link.packed pipe)
    have hnone : report = none := by
      refine Option.eq_none_iff_forall_ne_some.mpr fun bytes hbytes => ?_
      obtain ⟨changesQueued, happend⟩ := hreport bytes hbytes
      rw [appendPointer, hplain] at happend
      cases happend
    rw [hwith, hnone, data_packed, hone, hqueue]
    simp [hsent]
  have hadvances := queueAdvances_writePacked fifo htaken
  refine .command _ commands hadvances.writes ?_ ?_ ?_
  · rw [hqueue]
    exact congrArg (· :: commands) hdata.symm
  · have hdrop : (link.queue pipe).drop (link.packed pipe).taken = commands := by
      rw [hone, hqueue]
      rfl
    exact hadvances.queue.trans (by rw [hdrop])
  · rw [writePacked_eq]
    exact pendingControls_eq_zero hpending

/-- With no idle reply ever latched the idle turn writes nothing. -/
theorem writeIdleReply_plain (hplain : config.relayPipe pipe = false) (hcells : link.CellsSound)
    (hidle : (link.idle pipe).Calls fun _ => False) (fifo : AckFifo) :
    link.writeIdleReply fifo pipe = link := by
  have hnone : (link.idle pipe).latch.peek = none := by
    refine Option.eq_none_iff_forall_ne_some.mpr fun slot hslot => ?_
    obtain ⟨-, call, hcall, -⟩ := (hcells.idle pipe).peek slot hslot
    exact hidle.history call (List.mem_of_getLast? hcall)
  have hfresh : link.freshIdleReply pipe = (link, none) := by
    rw [freshIdleReply_eq]
    dsimp only
    rw [hnone]
  rw [writeIdleReply, hfresh]
  simp [writeFresh, idleBytes, appendPointer, hplain]

theorem commandTurn_replyTo (hplain : config.relayPipe pipe = false) (hcells : link.CellsSound)
    (hqueue : link.QueueSound pipe)
    (hcontrol : ∀ kind, (link.control pipe kind).Calls fun data => carries data = false)
    (hidle : (link.idle pipe).Calls fun _ => False) (fifo : AckFifo) :
    CommandTurn carries pipe link (replyTo fifo link pipe) := by
  refine replyTo_cases (motive := CommandTurn carries pipe link) ?_ ?_ ?_
  · exact fun kind slot hpending => commandTurn_writeControl hcells hcontrol fifo hpending
  · exact fun hpending htaken => commandTurn_writePacked hplain fifo hpending htaken
  · intro hpending htaken
    rw [writeIdleReply_plain hplain hcells hidle]
    have hempty : link.queue pipe = [] := by
      by_contra hsome
      refine taken_packed_ne_zero hqueue (fun hrelay => ?_) hsome htaken
      cases hplain.symm.trans hrelay
    exact .nothing rfl hempty hempty (pendingControls_eq_zero hpending)

/-! ## Invariant -/

/-- What was staged for the pipe is what the radio took, and the queue. -/
structure ServesCommands (carries : Bytes → Bool) (pipe : ℕ) (link : ReplyLink config) : Prop where
  control : ∀ kind, (link.control pipe kind).Calls fun data => carries data = false
  idle : (link.idle pipe).Calls fun _ => False
  carried : ∀ command ∈ link.staged pipe, carries command = true
  staged : link.staged pipe = (link.handedOver pipe).filter carries ++ link.queue pipe

/-- What the threads may do to the pipe: commands are put, other payloads are latched. -/
def CommandsOnly (carries : Bytes → Bool) (pipe : ℕ) : ReplyAction → Prop
  | .put other data => other = pipe → carries data = true
  | .latchControl other _ data => other = pipe → carries data = false
  | .latchIdle other _ => other ≠ pipe
  | _ => True

theorem ServesCommands.boot (config : ReplyConfig) (carries : Bytes → Bool) (pipe : ℕ) :
    (boot config).ServesCommands carries pipe where
  control _ := .empty _ _
  idle := .empty _ _
  carried _ hmem := by cases hmem
  staged := rfl

theorem handedOver_attempt {after : ReplyLink config} {write : AckWrite}
    (hwrites : after.writesOf pipe = link.writesOf pipe ++ [write]) :
    after.handedOver pipe =
      link.handedOver pipe ++ if write.accepted then [write.data] else [] := by
  rw [handedOver, hwrites, List.filter_append, List.map_append, handedOver]
  cases haccepted : write.accepted <;> simp [haccepted]

theorem ServesCommands.frame {after : ReplyLink config} (h : link.ServesCommands carries pipe)
    (hsame : Untouched pipe link after) : after.ServesCommands carries pipe where
  control := by simpa only [hsame.control] using h.control
  idle := by simpa only [hsame.idle] using h.idle
  carried := by simpa only [hsame.staged] using h.carried
  staged := by simpa only [handedOver, hsame.staged, hsame.queue, hsame.writesOf] using h.staged

/-- Serving the pipe moves a command from the queue to the radio, or nothing. -/
theorem ServesCommands.replyTo (h : link.ServesCommands carries pipe)
    (hplain : config.relayPipe pipe = false) (hcells : link.CellsSound)
    (hqueue : link.QueueSound pipe) (fifo : AckFifo) :
    (replyTo fifo link pipe).ServesCommands carries pipe := by
  have hstaged : (ReplyLink.replyTo fifo link pipe).staged = link.staged :=
    staged_replyTo link fifo pipe
  have hcalls := calls_replyTo link fifo pipe
  refine ⟨fun kind => ?_, ⟨hcalls.1 ▸ h.idle.writer, hcalls.2 ▸ h.idle.history⟩, ?_, ?_⟩
  · have hkept : ∀ after : ReplyLink config,
        (after.control pipe kind).writer = (link.control pipe kind).writer ∧
          (after.control pipe kind).history = (link.control pipe kind).history →
        (after.control pipe kind).Calls fun data => carries data = false :=
      fun after hsame => ⟨hsame.1 ▸ (h.control kind).writer, hsame.2 ▸ (h.control kind).history⟩
    refine hkept _ ?_
    refine replyTo_cases (motive := fun after =>
      (after.control pipe kind).writer = (link.control pipe kind).writer ∧
        (after.control pipe kind).history = (link.control pipe kind).history) ?_ ?_ ?_
    · intro other slot _
      rw [writeControl_eq]
      dsimp only
      split
      · rw [Function.update_self]
        rcases eq_or_ne kind other with rfl | hne
        · simp
        · simp [hne]
      · exact ⟨rfl, rfl⟩
    · intro _ _
      rw [writePacked_eq]
      exact ⟨rfl, rfl⟩
    · intro _ _
      rw [writeIdleReply_plain hplain hcells h.idle]
      exact ⟨rfl, rfl⟩
  · rw [hstaged]
    exact h.carried
  · rw [hstaged, h.staged]
    rcases commandTurn_replyTo hplain hcells hqueue h.control h.idle fifo with
      ⟨write, hwrites, hdata, hkept, -⟩ | ⟨write, commands, hwrites, hfirst, hafter, -⟩ |
      ⟨hwrites, hempty, hafter, -⟩
    · rw [handedOver_attempt hwrites, hkept, List.filter_append]
      cases write.accepted <;> simp [hdata]
    · have hdata : carries write.data = true :=
        h.carried _ (hqueue.mem_staged (hfirst ▸ List.mem_cons_self))
      rw [handedOver_attempt hwrites, hafter, hfirst, List.filter_append]
      cases write.accepted <;> simp [hdata]
    · rw [handedOver, handedOver, hwrites, hafter, hempty]

theorem ServesCommands.stagePut (h : link.ServesCommands carries pipe) {data : Bytes}
    (hdata : carries data = true) : (link.stagePut pipe data).ServesCommands carries pipe := by
  rw [ReplyLink.stagePut]
  split_ifs
  · exact h
  · exact h
  · exact h
  · refine ⟨h.control, h.idle, ?_, ?_⟩
    · dsimp only
      rw [Function.update_self]
      intro command hmem
      rcases List.mem_append.mp hmem with hold | hnew
      · exact h.carried command hold
      · exact List.mem_singleton.mp hnew ▸ hdata
    · dsimp only
      rw [Function.update_self, Function.update_self, h.staged, List.append_assoc]
      rfl

theorem ServesCommands.setControl (h : link.ServesCommands carries pipe) (other : ℕ)
    (kind : EsbLinkControl) {cell : LatchCell Bytes ControlPayload}
    (hcell : other = pipe → cell.Calls fun data => carries data = false) :
    (link.setControl other kind cell).ServesCommands carries pipe := by
  refine ⟨fun otherKind => ?_, h.idle, h.carried, h.staged⟩
  rw [control_setControl]
  split
  next hsame => exact hcell hsame.1.symm
  next => exact h.control otherKind

theorem ServesCommands.step (h : link.ServesCommands carries pipe) {action : ReplyAction}
    (haction : CommandsOnly carries pipe action)
    (hthread : ∀ pipesAcked fifo, action ≠ .rxDone pipesAcked fifo) :
    (link.step action).ServesCommands carries pipe := by
  cases action with
  | put other data =>
      rcases eq_or_ne pipe other with rfl | hne
      · exact h.stagePut (haction rfl)
      · exact h.frame (.stagePut hne data)
  | count other =>
      change (link.stageCount other).ServesCommands carries pipe
      rw [stageCount]
      split_ifs
      · exact h
      · exact ⟨h.control, h.idle, h.carried, h.staged⟩
  | latchControl other kind data =>
      change (link.latchControl other kind data).ServesCommands carries pipe
      rw [latchControl]
      split_ifs
      · exact h
      · exact h
      · exact h.setControl other kind fun hsame => (hsame ▸ h.control kind).begin (haction hsame)
  | controlStatement other kind =>
      refine h.setControl other kind fun hsame => (hsame ▸ h.control kind).advance ?_
      intro done call value next stored hcall hstore
      rw [ControlPayload.store] at hstore
      split_ifs at hstore <;> exact (Prod.mk.inj (Option.some.inj hstore)).1 ▸ hcall
  | latchIdle other data => exact h.frame (.latchIdleReply (Ne.symm haction) data)
  | idleStatement other =>
      have hcalls : ((link.step (.idleStatement other)).idle pipe).Calls fun _ => False :=
        @calls_thread config pipe link (fun _ => False) h.idle (.idleStatement other)
          (fun _ hlatch => by cases hlatch) hthread
      exact ⟨h.control, hcalls, h.carried, h.staged⟩
  | pointer action => exact ⟨h.control, h.idle, h.carried, h.staged⟩
  | rxDone pipesAcked fifo => exact absurd rfl (hthread pipesAcked fifo)

end ReplyLink

end SplitEsb
