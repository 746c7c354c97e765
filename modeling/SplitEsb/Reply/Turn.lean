import SplitEsb.Reply.Link

/-! # Turns of the radio interrupt
The interrupt serves each pipe it acked once. Serving one pipe leaves what the
others hold alone, so a fact about a pipe before the interrupt holds at its turn. -/

namespace SplitEsb

open ByteString

variable {config : ReplyConfig}

namespace ReplyLink

/-- The payloads handed over for a pipe. -/
def writesOf (link : ReplyLink config) (pipe : ℕ) : List AckWrite :=
  link.writes.filter fun write => decide (write.pipe = pipe)

theorem mem_writesOf {link : ReplyLink config} {pipe : ℕ} {write : AckWrite} :
    write ∈ link.writesOf pipe ↔ write ∈ link.writes ∧ write.pipe = pipe := by
  simp [writesOf]

/-- What a pipe holds is the same, and so is what was written for it. -/
structure Untouched (pipe : ℕ) (before after : ReplyLink config) : Prop where
  queue : after.queue pipe = before.queue pipe
  control : after.control pipe = before.control pipe
  idle : after.idle pipe = before.idle pipe
  repliesStaged : after.repliesStaged pipe = before.repliesStaged pipe
  uncounted : after.uncounted pipe = before.uncounted pipe
  staged : after.staged pipe = before.staged pipe
  counted : after.counted pipe = before.counted pipe
  left : after.left pipe = before.left pipe
  writesOf : after.writesOf pipe = before.writesOf pipe

namespace Untouched

variable {link : ReplyLink config} {pipe other : ℕ}

theorem refl (pipe : ℕ) (link : ReplyLink config) : Untouched pipe link link :=
  ⟨rfl, rfl, rfl, rfl, rfl, rfl, rfl, rfl, rfl⟩

theorem trans {before between after : ReplyLink config} (hfirst : Untouched pipe before between)
    (hsecond : Untouched pipe between after) : Untouched pipe before after where
  queue := hsecond.queue.trans hfirst.queue
  control := hsecond.control.trans hfirst.control
  idle := hsecond.idle.trans hfirst.idle
  repliesStaged := hsecond.repliesStaged.trans hfirst.repliesStaged
  uncounted := hsecond.uncounted.trans hfirst.uncounted
  staged := hsecond.staged.trans hfirst.staged
  counted := hsecond.counted.trans hfirst.counted
  left := hsecond.left.trans hfirst.left
  writesOf := hsecond.writesOf.trans hfirst.writesOf

theorem pendingControl {before after : ReplyLink config} (h : Untouched pipe before after) :
    after.pendingControl pipe = before.pendingControl pipe := by
  rw [ReplyLink.pendingControl, ReplyLink.pendingControl, h.control]

/-! ### The threads -/

theorem stagePut (hne : pipe ≠ other) (data : Bytes) :
    Untouched pipe link (link.stagePut other data) := by
  rw [ReplyLink.stagePut]
  split_ifs
  · exact refl pipe link
  · exact refl pipe link
  · exact refl pipe link
  · refine ⟨?_, rfl, rfl, rfl, ?_, ?_, rfl, rfl, rfl⟩ <;> simp [hne]

theorem stageCount (hne : pipe ≠ other) : Untouched pipe link (link.stageCount other) := by
  rw [ReplyLink.stageCount]
  split_ifs
  · exact refl pipe link
  · refine ⟨rfl, rfl, rfl, ?_, ?_, rfl, ?_, rfl, rfl⟩ <;> simp [hne]

theorem setIdle (hne : pipe ≠ other) (cell : LatchCell IdleCall (IdleReply config)) :
    Untouched pipe link (link.setIdle other cell) := by
  refine ⟨rfl, rfl, ?_, rfl, rfl, rfl, rfl, rfl, rfl⟩
  simp [ReplyLink.setIdle, hne]

theorem latchIdleReply (hne : pipe ≠ other) (data : Bytes) :
    Untouched pipe link (link.latchIdleReply other data) := by
  rw [ReplyLink.latchIdleReply]
  split_ifs
  · exact refl pipe link
  · exact refl pipe link
  · exact setIdle hne _

/-! ### The interrupt -/

/-- A payload of one pipe is not among those of another. -/
theorem filter_attempt (hne : pipe ≠ other) {writes : List AckWrite} {write : AckWrite}
    (hwrite : write.pipe = other) :
    (writes ++ [write]).filter (fun made => decide (made.pipe = pipe)) =
      writes.filter fun made => decide (made.pipe = pipe) := by
  simp [hwrite, hne.symm]

variable (fifo : AckFifo)

theorem writeControl (hne : pipe ≠ other) (kind : EsbLinkControl) (slot : ℕ) :
    Untouched pipe link (link.writeControl fifo other kind slot) := by
  rw [writeControl_eq]
  refine ⟨rfl, ?_, rfl, rfl, rfl, rfl, rfl, rfl, filter_attempt hne rfl⟩
  dsimp only
  split_ifs
  · exact Function.update_of_ne hne ..
  · rfl

theorem writePacked (hne : pipe ≠ other) (packed : PackedReplies) :
    Untouched pipe link (link.writePacked fifo other packed) := by
  rw [writePacked_eq]
  refine ⟨?_, rfl, rfl, rfl, rfl, rfl, rfl, ?_, filter_attempt hne rfl⟩ <;> dsimp only <;> split_ifs
  · exact Function.update_of_ne hne ..
  · rfl
  · exact Function.update_of_ne hne ..
  · rfl

theorem freshIdleReply (hne : pipe ≠ other) :
    Untouched pipe link (link.freshIdleReply other).1 := by
  rw [ReplyLink.freshIdleReply]
  dsimp only
  split
  case h_1 => exact refl pipe link
  case h_2 slot hpeek =>
    split_ifs
    · have h : Untouched pipe link (link.setIdle other ((link.idle other).release slot)) :=
        setIdle hne _
      exact ⟨h.queue, h.control, h.idle, h.repliesStaged, h.uncounted, h.staged, h.counted, h.left,
        h.writesOf⟩
    · exact refl pipe link

theorem releaseIdle (hne : pipe ≠ other) (fresh : Option ℕ) :
    Untouched pipe link (link.releaseIdle other fresh) := by
  cases fresh with
  | none => exact refl pipe link
  | some slot => exact setIdle hne _

theorem writeFresh (hne : pipe ≠ other) (fresh : Option ℕ) :
    Untouched pipe link (link.writeFresh fifo other fresh) := by
  rw [writeFresh_eq]
  dsimp only
  split
  · exact refl pipe link
  · refine ⟨rfl, rfl, ?_, rfl, rfl, rfl, rfl, rfl, filter_attempt hne rfl⟩
    split
    · exact (releaseIdle hne fresh).idle
    · rfl

theorem writeIdleReply (hne : pipe ≠ other) :
    Untouched pipe link (link.writeIdleReply fifo other) :=
  (freshIdleReply hne).trans (writeFresh fifo hne _)

theorem replyTo (hne : pipe ≠ other) : Untouched pipe link (replyTo fifo link other) := by
  apply replyTo_cases
  · exact fun kind slot _ => writeControl fifo hne kind slot
  · exact fun _ _ => writePacked fifo hne _
  · exact fun _ _ => writeIdleReply fifo hne

theorem foldl {pipes : List ℕ} (hpipes : pipe ∉ pipes) :
    Untouched pipe link (pipes.foldl (ReplyLink.replyTo fifo) link) := by
  induction pipes generalizing link with
  | nil => exact refl pipe link
  | cons other pipes ih =>
      obtain ⟨hne, hrest⟩ := not_or.mp (List.mem_cons.not.mp hpipes)
      exact (replyTo fifo hne).trans (ih hrest)

end Untouched

/-- The threads write nothing. -/
theorem writes_thread (link : ReplyLink config) (action : ReplyAction) :
    (∃ pipesAcked fifo, action = .rxDone pipesAcked fifo) ∨
      (∀ pipesAcked fifo, action ≠ .rxDone pipesAcked fifo) ∧
        (link.step action).writes = link.writes := by
  cases action with
  | put pipe data =>
      refine .inr ⟨nofun, ?_⟩
      change (link.stagePut pipe data).writes = link.writes
      rw [stagePut]
      split_ifs <;> rfl
  | count pipe =>
      refine .inr ⟨nofun, ?_⟩
      change (link.stageCount pipe).writes = link.writes
      rw [stageCount]
      split_ifs <;> rfl
  | latchControl pipe kind data =>
      refine .inr ⟨nofun, ?_⟩
      change (link.latchControl pipe kind data).writes = link.writes
      rw [latchControl]
      split_ifs <;> rfl
  | controlStatement pipe kind => exact .inr ⟨nofun, rfl⟩
  | latchIdle pipe data =>
      refine .inr ⟨nofun, ?_⟩
      change (link.latchIdleReply pipe data).writes = link.writes
      rw [latchIdleReply]
      split_ifs <;> rfl
  | idleStatement pipe => exact .inr ⟨nofun, rfl⟩
  | pointer action => exact .inr ⟨nofun, rfl⟩
  | rxDone pipesAcked fifo => exact .inl ⟨pipesAcked, fifo, rfl⟩

/-- The pipes one run of the interrupt serves, in order. -/
def servedPipes (config : ReplyConfig) (pipesAcked : UInt8) : List ℕ :=
  (List.range config.pipeCount).filter fun pipe => BitTable.readBit pipesAcked pipe

theorem mem_servedPipes {pipesAcked : UInt8} {pipe : ℕ} :
    pipe ∈ servedPipes config pipesAcked ↔
      pipe < config.pipeCount ∧ BitTable.readBit pipesAcked pipe = true := by
  simp [servedPipes]

theorem nodup_servedPipes (pipesAcked : UInt8) : (servedPipes config pipesAcked).Nodup :=
  List.nodup_range.filter _

/-- The invariant rule for an interrupt whose turns are ready: what is ready for a
pipe before the interrupt still is at its turn. -/
theorem rxDone_turns (Inv : ReplyLink config → Prop) (Ready : ℕ → ReplyLink config → Prop)
    {fifo : AckFifo}
    (hframe : ∀ pipe before after, Untouched pipe before after → Ready pipe before →
      Ready pipe after)
    (hturn : ∀ link pipe, pipe < config.pipeCount → Ready pipe link → Inv link →
      Inv (replyTo fifo link pipe))
    {link : ReplyLink config} (h : Inv link) {pipesAcked : UInt8}
    (hready : ∀ pipe ∈ servedPipes config pipesAcked, Ready pipe link) :
    Inv (link.rxDone fifo pipesAcked) := by
  have hfold : ∀ (pipes : List ℕ) (link : ReplyLink config), pipes.Nodup →
      (∀ pipe ∈ pipes, pipe < config.pipeCount ∧ Ready pipe link) → Inv link →
        Inv (pipes.foldl (replyTo fifo) link) := by
    intro pipes
    induction pipes with
    | nil => exact fun _ _ _ hlink => hlink
    | cons pipe pipes ih =>
        intro link hnodup hpipes hlink
        obtain ⟨hpipe, hrest⟩ := List.forall_mem_cons.mp hpipes
        obtain ⟨hfirst, hnodup⟩ := List.nodup_cons.mp hnodup
        refine ih _ hnodup (fun other hmem => ?_) (hturn link pipe hpipe.1 hpipe.2 hlink)
        have hne : other ≠ pipe := fun hsame => hfirst (hsame ▸ hmem)
        exact ⟨(hrest other hmem).1,
          hframe other _ _ (Untouched.replyTo fifo hne) (hrest other hmem).2⟩
  refine hfold _ link (nodup_servedPipes pipesAcked) (fun pipe hmem => ?_) h
  exact ⟨(mem_servedPipes.mp hmem).1, hready pipe hmem⟩

/-- One run of the interrupt serves a pipe once, between the other pipes it acked. -/
theorem rxDone_split (link : ReplyLink config) (fifo : AckFifo) {pipesAcked : UInt8} {pipe : ℕ}
    (hserved : pipe ∈ servedPipes config pipesAcked) :
    ∃ front back : List ℕ, pipe ∉ front ∧ pipe ∉ back ∧ link.rxDone fifo pipesAcked =
      back.foldl (replyTo fifo) (replyTo fifo (front.foldl (replyTo fifo) link) pipe) := by
  obtain ⟨front, back, hsplit⟩ := List.append_of_mem hserved
  have hnodup : (servedPipes config pipesAcked).Nodup := nodup_servedPipes pipesAcked
  rw [hsplit, List.nodup_append, List.nodup_cons] at hnodup
  obtain ⟨-, ⟨hback, -⟩, hdisjoint⟩ := hnodup
  have hfront : pipe ∉ front := fun hmem => hdisjoint pipe hmem pipe List.mem_cons_self rfl
  refine ⟨front, back, hfront, hback, ?_⟩
  change (servedPipes config pipesAcked).foldl (replyTo fifo) link = _
  rw [hsplit, List.foldl_append, List.foldl_cons]

/-- The one turn of a served pipe, with nothing done to the pipe before or after it. -/
theorem exists_turn (link : ReplyLink config) (fifo : AckFifo) {pipesAcked : UInt8} {pipe : ℕ}
    (hserved : pipe ∈ servedPipes config pipesAcked) : ∃ turn, Untouched pipe link turn ∧
      Untouched pipe (replyTo fifo turn pipe) (link.rxDone fifo pipesAcked) := by
  obtain ⟨front, back, hfront, hback, hrun⟩ := rxDone_split link fifo hserved
  refine ⟨front.foldl (replyTo fifo) link, .foldl fifo hfront, ?_⟩
  rw [hrun]
  exact .foldl fifo hback

end ReplyLink

end SplitEsb
