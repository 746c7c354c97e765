import SplitEsb.Reply.Latches
import SplitEsb.Reply.Packing
import SplitEsb.Reply.Turn

/-! # Idle replies against queued changes
An idle reply is fresh while the count of staged replies it was latched with still
stands. The count moves one statement after the queue, and an interrupt may come
between the two. -/

namespace SplitEsb

open ByteString Transition

variable {config : ReplyConfig}

/-- No reply put after the idle reply was latched had left before this write. -/
def AckWrite.KeepsOrder (history : List IdleCall) (write : AckWrite) : Prop :=
  match write.source with
  | .idle (some number) =>
      write.accepted = true → ∃ call ∈ history[number]?, write.leftBefore ≤ call.after
  | _ => True

instance (history : List IdleCall) (write : AckWrite) : Decidable (write.KeepsOrder history) := by
  unfold AckWrite.KeepsOrder
  split <;> infer_instance

namespace ReplyLink

/-- One thread makes the calls of a pipe: each starts after the one before it returned. -/
def OneThread (pipe : ℕ) (link : ReplyLink config) : ReplyAction → Prop
  | .put other _ => other = pipe → link.uncounted pipe = 0 ∧ (link.idle pipe).writer.isNone = true
  | .latchIdle other _ =>
      other = pipe → link.uncounted pipe = 0 ∧ (link.idle pipe).writer.isNone = true
  | _ => True

instance (pipe : ℕ) (link : ReplyLink config) (action : ReplyAction) :
    Decidable (OneThread pipe link action) := by
  unfold OneThread
  split <;> infer_instance

/-- The pipe would serve an idle reply that counts as fresh, while the last reply put
has left before it was counted, or the count came round. -/
structure Overtaken (pipe : ℕ) (link : ReplyLink config) : Prop where
  pendingControl : link.pendingControl pipe = none
  fresh : ∃ slot ∈ (link.idle pipe).latch.peek,
    ((link.idle pipe).pool slot).repliesStaged = link.repliesStaged pipe
  missed : (link.queue pipe = [] ∧ link.uncounted pipe ≠ 0) ∨
    ∃ call ∈ (link.idle pipe).history.getLast?, call.counted + 2 ^ 32 ≤ link.counted pipe

instance (pipe : ℕ) (link : ReplyLink config) : Decidable (Overtaken pipe link) :=
  decidable_of_iff
    (link.pendingControl pipe = none ∧
      (∃ slot ∈ (link.idle pipe).latch.peek,
        ((link.idle pipe).pool slot).repliesStaged = link.repliesStaged pipe) ∧
      ((link.queue pipe = [] ∧ link.uncounted pipe ≠ 0) ∨
        ∃ call ∈ (link.idle pipe).history.getLast?, call.counted + 2 ^ 32 ≤ link.counted pipe))
    ⟨fun h => ⟨h.1, h.2.1, h.2.2⟩, fun h => ⟨h.1, h.2, h.3⟩⟩

/-- The interrupt never serves the pipe while it is overtaken. -/
def ServedInTime (pipe : ℕ) (link : ReplyLink config) : ReplyAction → Prop
  | .rxDone pipesAcked _ => pipe ∈ servedPipes config pipesAcked → ¬ link.Overtaken pipe
  | _ => True

instance (pipe : ℕ) (link : ReplyLink config) (action : ReplyAction) :
    Decidable (ServedInTime pipe link action) := by
  unfold ServedInTime
  split <;> infer_instance

/-! ## What the counts say -/

/-- The counts of a pipe, the idle reply being latched, and the writes so far. -/
structure Counts (pipe : ℕ) (link : ReplyLink config) : Prop where
  uncounted_le : link.uncounted pipe ≤ 1
  staged : (link.staged pipe).length = link.counted pipe + link.uncounted pipe
  left : link.left pipe + (link.queue pipe).length = (link.staged pipe).length
  writer : ∀ writer, (link.idle pipe).writer = some writer → link.uncounted pipe = 0 ∧
    writer.call.after = link.counted pipe ∧
      (writer.call.data.length + 1 < writer.done → writer.call.counted = link.counted pipe)
  history : ∀ call ∈ (link.idle pipe).history, call.counted = call.after
  writes : ∀ write ∈ link.writes, write.pipe = pipe →
    write.KeepsOrder (link.idle pipe).history

variable {pipe : ℕ} {link : ReplyLink config}

theorem Counts.boot (config : ReplyConfig) (pipe : ℕ) : (boot config).Counts pipe where
  uncounted_le := Nat.zero_le _
  staged := rfl
  left := rfl
  writer := by intro writer h; cases h
  history := by intro call h; cases h
  writes := by intro write h; cases h

theorem Counts.frame {after : ReplyLink config} (h : link.Counts pipe)
    (hsame : Untouched pipe link after) : after.Counts pipe where
  uncounted_le := by simpa only [hsame.uncounted] using h.uncounted_le
  staged := by simpa only [hsame.staged, hsame.counted, hsame.uncounted] using h.staged
  left := by simpa only [hsame.left, hsame.queue, hsame.staged] using h.left
  writer := by simpa only [hsame.idle, hsame.uncounted, hsame.counted] using h.writer
  history := by simpa only [hsame.idle] using h.history
  writes := by
    intro write hmem hpipe
    have hold := hsame.writesOf ▸ mem_writesOf.mpr ⟨hmem, hpipe⟩
    rw [hsame.idle]
    exact h.writes write (mem_writesOf.mp hold).1 hpipe

/-! ### The threads -/

theorem Counts.stagePut (h : link.Counts pipe) {data : Bytes} (hcounted : link.uncounted pipe = 0)
    (hidle : (link.idle pipe).writer.isNone = true) : (link.stagePut pipe data).Counts pipe := by
  rw [ReplyLink.stagePut]
  split_ifs
  · exact h
  · exact h
  · exact h
  · have hstaged := h.staged
    have hleft := h.left
    refine ⟨?_, ?_, ?_, fun writer hwriter => ?_, h.history, h.writes⟩
    · simp [hcounted]
    · simp only [Function.update_self, List.length_append, List.length_singleton]
      omega
    · simp only [Function.update_self, List.length_append, List.length_singleton]
      omega
    · have hsome : (link.idle pipe).writer = some writer := hwriter
      simp [hsome] at hidle

/-- While an idle reply is being latched, no put waits for its count. -/
theorem Counts.stageCount (h : link.Counts pipe) : (link.stageCount pipe).Counts pipe := by
  rw [ReplyLink.stageCount]
  split_ifs with hcounted
  · exact h
  · have hle := h.uncounted_le
    have hstaged := h.staged
    refine ⟨?_, ?_, h.left, fun writer hwriter => ?_, h.history, h.writes⟩
    · simp only [Function.update_self]
      omega
    · simp only [Function.update_self]
      omega
    · exact absurd (h.writer writer hwriter).1 hcounted

theorem KeepsOrder.mono {history longer : List IdleCall} {write : AckWrite}
    (hgrows : ∀ (number : ℕ) (call : IdleCall), history[number]? = some call →
      longer[number]? = some call)
    (h : write.KeepsOrder history) : write.KeepsOrder longer := by
  rw [AckWrite.KeepsOrder] at h ⊢
  split at h
  case h_1 number hsource =>
      intro haccepted
      obtain ⟨call, hcall, hle⟩ := h haccepted
      exact ⟨call, hgrows number call hcall, hle⟩
  case h_2 => trivial

/-- Replacing the latch keeps the counts if its own history and call agree with them. -/
theorem Counts.setIdle (h : link.Counts pipe) {cell : LatchCell IdleCall (IdleReply config)}
    (hwriter : ∀ writer, cell.writer = some writer → link.uncounted pipe = 0 ∧
      writer.call.after = link.counted pipe ∧
        (writer.call.data.length + 1 < writer.done → writer.call.counted = link.counted pipe))
    (hhistory : ∀ call ∈ cell.history, call.counted = call.after)
    (hgrows : ∀ (number : ℕ) (call : IdleCall), (link.idle pipe).history[number]? = some call →
      cell.history[number]? = some call) : (link.setIdle pipe cell).Counts pipe := by
  have hcell : (link.setIdle pipe cell).idle pipe = cell := Function.update_self ..
  refine ⟨h.uncounted_le, h.staged, h.left, ?_, ?_, fun write hmem hpipe => ?_⟩
  · rw [hcell]
    exact hwriter
  · rw [hcell]
    exact hhistory
  · rw [hcell]
    exact KeepsOrder.mono hgrows (h.writes write hmem hpipe)

theorem Counts.latchIdleReply (h : link.Counts pipe) {data : Bytes}
    (hcounted : link.uncounted pipe = 0) (hidle : (link.idle pipe).writer.isNone = true) :
    (link.latchIdleReply pipe data).Counts pipe := by
  rw [ReplyLink.latchIdleReply]
  split_ifs
  · exact h
  · exact h
  · have hstaged := h.staged
    rw [Option.isNone_iff_eq_none] at hidle
    rw [LatchCell.begin, hidle]
    refine h.setIdle (fun writer hwriter => ?_) h.history fun number call hcall => hcall
    cases hwriter
    exact ⟨hcounted, by dsimp only; omega, fun hdone => absurd hdone (Nat.not_lt_zero _)⟩

/-- The last store keeps the count it read with the call. -/
theorem IdleReply.store_counts {word : UInt32} {counted done : ℕ} {call next : IdleCall}
    {slot value : IdleReply config} (h : IdleReply.store word counted done call slot = some (next, value)) :
    next.after = call.after ∧
      (next.data.length + 1 < done + 1 → next.counted = counted) := by
  rw [IdleReply.store] at h
  split_ifs at h with hcopy hlength hcount
  · cases h
    exact ⟨rfl, fun hdone => by omega⟩
  · cases h
    exact ⟨rfl, fun hdone => by omega⟩
  · cases h
    exact ⟨rfl, fun _ => rfl⟩

theorem IdleReply.store_eq_none {word : UInt32} {counted done : ℕ} {call : IdleCall}
    {slot : IdleReply config} (h : IdleReply.store word counted done call slot = none) :
    call.data.length + 1 < done := by
  rw [IdleReply.store] at h
  split_ifs at h
  omega

theorem Counts.idleStatement (h : link.Counts pipe) : (link.idleStatement pipe).Counts pipe := by
  rw [ReplyLink.idleStatement]
  refine h.setIdle (fun writer hwriter => ?_) ?_
    fun number call hcall => LatchCell.getElem?_advance hcall
  · rw [LatchCell.advance] at hwriter
    split at hwriter
    case h_1 hnone => simp [hnone] at hwriter
    case h_2 current hcurrent =>
        obtain ⟨hzero, hafter, -⟩ := h.writer current hcurrent
        split at hwriter
        case h_1 call value hvalue =>
            cases hwriter
            obtain ⟨hkept, hcount⟩ := IdleReply.store_counts hvalue
            exact ⟨hzero, hkept.trans hafter, hcount⟩
        case h_2 => cases hwriter
  · rw [LatchCell.advance]
    split
    case h_1 => exact h.history
    case h_2 current hcurrent =>
        obtain ⟨-, hafter, hcounted⟩ := h.writer current hcurrent
        split
        case h_1 => exact h.history
        case h_2 hnone =>
            intro call hmem
            rcases List.mem_append.mp hmem with hold | hnew
            · exact h.history call hold
            · rw [List.mem_singleton.mp hnew, hcounted (IdleReply.store_eq_none hnone), hafter]

/-! ### The interrupt -/

theorem Counts.writeControl (h : link.Counts pipe) (fifo : AckFifo) (kind : EsbLinkControl)
    (slot : ℕ) : (link.writeControl fifo pipe kind slot).Counts pipe := by
  rw [writeControl_eq]
  refine ⟨h.uncounted_le, h.staged, h.left, h.writer, h.history, fun write hmem hpipe => ?_⟩
  rcases List.mem_append.mp hmem with hold | hnew
  · exact h.writes write hold hpipe
  · rw [List.mem_singleton.mp hnew]
    trivial

/-- What leaves the queue is counted as left. -/
theorem Counts.writePacked (h : link.Counts pipe) (fifo : AckFifo) {packed : PackedReplies}
    (hle : packed.taken ≤ (link.queue pipe).length) : (link.writePacked fifo pipe packed).Counts pipe := by
  have hleft := h.left
  rw [writePacked_eq]
  refine ⟨h.uncounted_le, h.staged, ?_, h.writer, h.history, fun write hmem hpipe => ?_⟩
  · dsimp only
    split_ifs
    · simp only [Function.update_self, List.length_drop]
      omega
    · exact hleft
  · rcases List.mem_append.mp hmem with hold | hnew
    · exact h.writes write hold hpipe
    · rw [List.mem_singleton.mp hnew]
      trivial

theorem Counts.release (h : link.Counts pipe) (slot : ℕ) :
    (link.setIdle pipe ((link.idle pipe).release slot)).Counts pipe :=
  h.setIdle h.writer h.history fun _ _ hcall => hcall

theorem Counts.freshIdleReply (h : link.Counts pipe) : (link.freshIdleReply pipe).1.Counts pipe := by
  rw [ReplyLink.freshIdleReply]
  dsimp only
  split
  case h_1 => exact h
  case h_2 slot hpeek =>
      split_ifs
      · have hreleased := h.release slot
        exact ⟨hreleased.uncounted_le, hreleased.staged, hreleased.left, hreleased.writer,
          hreleased.history, hreleased.writes⟩
      · exact h

/-- The idle reply that is served was latched after every reply that has left. -/
def Latest (pipe : ℕ) (link : ReplyLink config) : Prop :=
  ∃ call, (link.idle pipe).history.getLast? = some call ∧ link.left pipe ≤ call.after

theorem Counts.writeFresh (h : link.Counts pipe) (fifo : AckFifo) {fresh : Option ℕ}
    (hlatest : ∀ slot ∈ fresh, link.Latest pipe) : (link.writeFresh fifo pipe fresh).Counts pipe := by
  rw [writeFresh_eq]
  dsimp only
  have hcalls := calls_releaseIdle link pipe fresh
  split
  · exact h
  · have hmade : ∀ write ∈ link.writes ++ [link.attempt fifo pipe
        (.idle (fresh.map fun _ => (link.idle pipe).history.length - 1))
        (link.idleBytes pipe fresh ++
          (link.appendPointer pipe (link.idleBytes pipe fresh) false).getD [])],
        write.pipe = pipe → write.KeepsOrder (link.idle pipe).history := by
      intro write hmem hpipe
      rcases List.mem_append.mp hmem with hold | hnew
      · exact h.writes write hold hpipe
      · rw [List.mem_singleton.mp hnew]
        cases fresh with
        | none => trivial
        | some slot =>
            intro _
            obtain ⟨call, hlast, hle⟩ := hlatest slot rfl
            rw [List.getLast?_eq_getElem?] at hlast
            exact ⟨call, hlast, hle⟩
    split
    · refine ⟨h.uncounted_le, h.staged, h.left, ?_, ?_, ?_⟩
      · rw [hcalls.1]
        exact h.writer
      · rw [hcalls.2]
        exact h.history
      · rw [hcalls.2]
        exact hmade
    · exact ⟨h.uncounted_le, h.staged, h.left, h.writer, h.history, hmade⟩

/-- A fresh idle reply served in time was latched with the count of every reply that
has left: at most the one uncounted reply could have passed it. -/
theorem Counts.latest_of_fresh (h : link.Counts pipe) (hsound : link.CellsSound)
    (hpending : link.pendingControl pipe = none) (htimely : ¬ link.Overtaken pipe) {slot : ℕ}
    (hpeek : (link.idle pipe).latch.peek = some slot)
    (hfresh : ((link.idle pipe).pool slot).repliesStaged = link.repliesStaged pipe) :
    link.Latest pipe := by
  obtain ⟨-, call, hcall, hfilled⟩ := (hsound.idle pipe).peek slot hpeek
  have hword := hfilled.repliesStaged.symm.trans (hfresh.trans (hsound.repliesStaged pipe))
  have hle := hfilled.counted_le
  have hmod := congrArg UInt32.toNat hword
  rw [UInt32.toNat_ofNat', UInt32.toNat_ofNat'] at hmod
  have hnear : ¬ call.counted + 2 ^ 32 ≤ link.counted pipe := fun hfar =>
    htimely ⟨hpending, ⟨slot, hpeek, hfresh⟩, .inr ⟨call, hcall, hfar⟩⟩
  have hcounted : call.counted = link.counted pipe := by omega
  have hafter := h.history call (List.mem_of_getLast? hcall)
  have hcount : link.left pipe ≤ link.counted pipe := by
    have hstaged := h.staged
    have hleft := h.left
    have hone := h.uncounted_le
    rcases Nat.eq_zero_or_pos (link.uncounted pipe) with hzero | hpos
    · omega
    · have hqueue : link.queue pipe ≠ [] := fun hempty =>
        htimely ⟨hpending, ⟨slot, hpeek, hfresh⟩, .inl ⟨hempty, hpos.ne'⟩⟩
      have := List.length_pos_iff.mpr hqueue
      omega
  exact ⟨call, hcall, by omega⟩

theorem Counts.writeIdleReply (h : link.Counts pipe) (hsound : link.CellsSound) (fifo : AckFifo)
    (hpending : link.pendingControl pipe = none) (htimely : ¬ link.Overtaken pipe) :
    (link.writeIdleReply fifo pipe).Counts pipe := by
  have hlatest : ∀ slot ∈ (link.freshIdleReply pipe).2,
      (link.freshIdleReply pipe).1.Latest pipe := by
    intro slot hslot
    rw [freshIdleReply_eq] at hslot ⊢
    dsimp only at hslot ⊢
    cases hpeek : (link.idle pipe).latch.peek with
    | none =>
        rw [hpeek] at hslot
        cases hslot
    | some found =>
        rw [hpeek] at hslot
        dsimp only at hslot ⊢
        by_cases hfresh : ((link.idle pipe).pool found).repliesStaged = link.repliesStaged pipe
        · rw [if_pos hfresh]
          exact h.latest_of_fresh hsound hpending htimely hpeek hfresh
        · rw [if_neg hfresh] at hslot
          cases hslot
  exact h.freshIdleReply.writeFresh fifo hlatest

/-- The turn of the pipe itself. -/
theorem Counts.replyTo (h : link.Counts pipe) (hsound : link.CellsSound) (fifo : AckFifo)
    (htimely : ¬ link.Overtaken pipe) : (replyTo fifo link pipe).Counts pipe := by
  apply replyTo_cases
  · exact fun kind slot _ => h.writeControl fifo kind slot
  · intro _ _
    apply h.writePacked fifo
    rw [taken_withPointer]
    exact taken_packed_le link pipe
  · exact fun hpending _ => h.writeIdleReply hsound fifo hpending htimely

theorem Overtaken.frame {before after : ReplyLink config} (hsame : Untouched pipe before after)
    (h : after.Overtaken pipe) : before.Overtaken pipe where
  pendingControl := hsame.pendingControl.symm.trans h.pendingControl
  fresh := by simpa only [hsame.idle, hsame.repliesStaged] using h.fresh
  missed := by simpa only [hsame.queue, hsame.uncounted, hsame.idle, hsame.counted] using h.missed

theorem Counts.rxDone (h : link.Counts pipe) (hsound : link.CellsSound) {pipesAcked : UInt8}
    (fifo : AckFifo) (hserved : pipe ∈ servedPipes config pipesAcked → ¬ link.Overtaken pipe) :
    (link.rxDone fifo pipesAcked).Counts pipe := by
  refine (rxDone_turns (fun link => link.CellsSound ∧ link.Counts pipe)
    (fun turn link => turn = pipe → ¬ link.Overtaken pipe) ?_ ?_ ⟨hsound, h⟩ ?_).2
  · intro turn before after hsame hready hturn hovertaken
    subst hturn
    exact hready rfl (hovertaken.frame hsame)
  · intro link turn _ hready hlink
    refine ⟨hlink.1.replyTo fifo turn, ?_⟩
    rcases eq_or_ne turn pipe with rfl | hne
    · exact hlink.2.replyTo hlink.1 fifo (hready rfl)
    · exact hlink.2.frame (.replyTo fifo hne.symm)
  · intro turn hmem hturn
    subst hturn
    exact hserved hmem

/-! ## Every run -/

theorem Counts.step (h : link.Counts pipe) (hsound : link.CellsSound) {action : ReplyAction}
    (hthread : OneThread pipe link action) (hserved : ServedInTime pipe link action) :
    (link.step action).Counts pipe := by
  cases action with
  | put other data =>
      rcases eq_or_ne pipe other with rfl | hne
      · exact h.stagePut (hthread rfl).1 (hthread rfl).2
      · exact h.frame (.stagePut hne data)
  | count other =>
      rcases eq_or_ne pipe other with rfl | hne
      · exact h.stageCount
      · exact h.frame (.stageCount hne)
  | latchControl other kind data =>
      change (link.latchControl other kind data).Counts pipe
      rw [ReplyLink.latchControl]
      split_ifs
      · exact h
      · exact h
      · exact ⟨h.uncounted_le, h.staged, h.left, h.writer, h.history, h.writes⟩
  | controlStatement other kind =>
      exact ⟨h.uncounted_le, h.staged, h.left, h.writer, h.history, h.writes⟩
  | latchIdle other data =>
      rcases eq_or_ne pipe other with rfl | hne
      · exact h.latchIdleReply (hthread rfl).1 (hthread rfl).2
      · exact h.frame (.latchIdleReply hne data)
  | idleStatement other =>
      rcases eq_or_ne pipe other with rfl | hne
      · exact h.idleStatement
      · exact h.frame (.setIdle hne _)
  | pointer action => exact ⟨h.uncounted_le, h.staged, h.left, h.writer, h.history, h.writes⟩
  | rxDone pipesAcked fifo => exact h.rxDone hsound fifo hserved

/-- While the interrupt serves a pipe only in time, no idle reply of it is written
after a reply that was put after the idle reply was latched. -/
theorem idle_reply_keeps_order (config : ReplyConfig) (pipe : ℕ) (actions : List ReplyAction)
    (hthread : Along step (OneThread pipe) (boot config) actions)
    (hserved : Along step (ServedInTime pipe) (boot config) actions) :
    ∀ write ∈ (run step (boot config) actions).writes, write.pipe = pipe →
      write.KeepsOrder ((run step (boot config) actions).idle pipe).history := by
  have hstep : ∀ (link : ReplyLink config) (action : ReplyAction),
      link.CellsSound ∧ link.Counts pipe →
      OneThread pipe link action ∧ ServedInTime pipe link action →
        (link.step action).CellsSound ∧ (link.step action).Counts pipe :=
    fun link action h hok => ⟨h.1.step action, h.2.step h.1 hok.1 hok.2⟩
  have hrun := run_invariant_along hstep ⟨CellsSound.boot config, Counts.boot config pipe⟩
    (hthread.and hserved)
  exact hrun.2.writes

/-- The keyboard report of the first key of the alphabet. -/
def keyDown : Bytes := [1, 0, 0, 4, 0, 0, 0, 0, 0]

/-- The state the relay latches between key events: nothing is held. -/
def nothingHeld : Bytes := [1, 0, 0, 0, 0, 0, 0, 0, 0, 2, 0, 0, 0, 0, 0, 0, 0, 0, 0, 0, 0, 0]

def latchNothingHeld : List ReplyAction :=
  .latchIdle 0 nothingHeld :: List.replicate 25 (.idleStatement 0)

def countedInTime : List ReplyAction :=
  latchNothingHeld ++ [.rxDone 1 fun _ _ _ => true, .put 0 keyDown,
    .rxDone 1 fun _ _ _ => true, .count 0, .rxDone 1 fun _ _ _ => true]

/-- With the put counted before the last interrupt, the idle reply written first is
the only one. -/
theorem idle_reply_keeps_order_sample :
    ∃ write ∈ (run step (boot sampleReplyConfig) countedInTime).writes,
      write.source = .idle (some 0) ∧
        write.KeepsOrder ((run step (boot sampleReplyConfig) countedInTime).idle 0).history := by
  have hwrite : ∃ write ∈ (run step (boot sampleReplyConfig) countedInTime).writes,
      write.pipe = 0 ∧ write.source = .idle (some 0) := by decide +kernel
  obtain ⟨write, hmem, hpipe, hsource⟩ := hwrite
  refine ⟨write, hmem, hsource, ?_⟩
  exact idle_reply_keeps_order sampleReplyConfig 0 countedInTime (by decide +kernel)
    (by decide +kernel) write hmem hpipe

/-- Two interrupts between the put and its count: the second writes that nothing is
held after the first has written the key. -/
theorem idle_reply_undoes_press : ¬ ∀ (config : ReplyConfig) (pipe : ℕ)
    (actions : List ReplyAction), config.relayPipe pipe = true →
    Along step (OneThread pipe) (boot config) actions →
    ∀ write ∈ (run step (boot config) actions).writes, write.pipe = pipe →
      write.KeepsOrder ((run step (boot config) actions).idle pipe).history := by
  intro h
  have hundone := h sampleReplyConfig 0 (latchNothingHeld ++ [.put 0 keyDown,
    .rxDone 1 fun _ _ _ => true, .rxDone 1 fun _ _ _ => true, .count 0]) rfl
  revert hundone
  decide +kernel

end ReplyLink

end SplitEsb
