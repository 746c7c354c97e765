import SplitEsb.Reply.Latches
import SplitEsb.Reply.Packing
import SplitEsb.Reply.Turn

/-! # The reply queue in every run
What is still queued is what was staged and has not left, and every turn of a pipe
hands over at most one payload, never empty and never too long. -/

namespace SplitEsb

open ByteString

variable {config : ReplyConfig}

namespace ReplyLink

/-! ## Staged, left and queued -/

structure QueueSound (pipe : ℕ) (link : ReplyLink config) : Prop where
  left_le : link.left pipe ≤ (link.staged pipe).length
  queue : link.queue pipe = (link.staged pipe).drop (link.left pipe)
  fits : ∀ packet ∈ link.staged pipe, 0 < packet.length ∧ packet.length ≤ config.maxPayload

variable {pipe : ℕ} {link : ReplyLink config}

theorem QueueSound.boot (config : ReplyConfig) (pipe : ℕ) : (boot config).QueueSound pipe :=
  ⟨Nat.le_refl _, rfl, by intro packet hmem; cases hmem⟩

theorem QueueSound.frame {after : ReplyLink config} (h : link.QueueSound pipe)
    (hsame : Untouched pipe link after) : after.QueueSound pipe where
  left_le := by simpa only [hsame.left, hsame.staged] using h.left_le
  queue := by simpa only [hsame.queue, hsame.left, hsame.staged] using h.queue
  fits := by simpa only [hsame.staged] using h.fits

theorem QueueSound.stagePut (h : link.QueueSound pipe) (data : Bytes) :
    (link.stagePut pipe data).QueueSound pipe := by
  have hle := h.left_le
  rw [ReplyLink.stagePut]
  split_ifs with hpipe hlength
  · exact h
  · exact h
  · exact h
  · refine ⟨?_, ?_, ?_⟩
    · simp only [Function.update_self, List.length_append]
      omega
    · simp only [Function.update_self]
      rw [h.queue, List.drop_append_of_le_length hle]
    · simp only [Function.update_self]
      intro packet hmem
      rcases List.mem_append.mp hmem with hold | hnew
      · exact h.fits packet hold
      · rw [List.mem_singleton.mp hnew]
        omega

theorem QueueSound.mem_staged (h : link.QueueSound pipe) {packet : Bytes}
    (hmem : packet ∈ link.queue pipe) : packet ∈ link.staged pipe := by
  rw [h.queue] at hmem
  exact List.mem_of_mem_drop hmem

theorem QueueSound.length_queue (h : link.QueueSound pipe) :
    link.left pipe + (link.queue pipe).length = (link.staged pipe).length := by
  have hle := h.left_le
  rw [h.queue, List.length_drop]
  omega

/-- A turn changes the queue only by what it packed and got accepted. -/
theorem QueueSound.writePacked (h : link.QueueSound pipe) (fifo : AckFifo)
    {packed : PackedReplies} (hle : packed.taken ≤ (link.queue pipe).length) :
    (link.writePacked fifo pipe packed).QueueSound pipe := by
  have hlength := h.length_queue
  rw [writePacked_eq]
  refine ⟨?_, ?_, h.fits⟩
  · dsimp only
    split_ifs
    · simp only [Function.update_self]
      omega
    · exact h.left_le
  · dsimp only
    split_ifs
    · simp only [Function.update_self]
      rw [h.queue, List.drop_drop]
    · exact h.queue

theorem QueueSound.freshIdleReply (h : link.QueueSound pipe) :
    (link.freshIdleReply pipe).1.QueueSound pipe := by
  rw [ReplyLink.freshIdleReply]
  dsimp only
  split
  · exact h
  · split_ifs
    · exact ⟨h.left_le, h.queue, h.fits⟩
    · exact h

theorem QueueSound.writeIdleReply (h : link.QueueSound pipe) (fifo : AckFifo) :
    (link.writeIdleReply fifo pipe).QueueSound pipe := by
  have hwritten : ∀ (link : ReplyLink config) (fresh : Option ℕ), link.QueueSound pipe →
      (link.writeFresh fifo pipe fresh).QueueSound pipe := by
    intro link fresh hlink
    rw [writeFresh_eq]
    dsimp only
    split
    · exact hlink
    · exact ⟨hlink.left_le, hlink.queue, hlink.fits⟩
  exact hwritten _ _ h.freshIdleReply

theorem QueueSound.replyTo (h : link.QueueSound pipe) (fifo : AckFifo) :
    (replyTo fifo link pipe).QueueSound pipe := by
  apply replyTo_cases
  · intro kind slot _
    rw [writeControl_eq]
    exact ⟨h.left_le, h.queue, h.fits⟩
  · intro _ _
    apply h.writePacked fifo
    rw [taken_withPointer]
    exact taken_packed_le link pipe
  · exact fun _ _ => h.writeIdleReply fifo

theorem QueueSound.replyTo_other (h : link.QueueSound pipe) (fifo : AckFifo) (turn : ℕ) :
    (ReplyLink.replyTo fifo link turn).QueueSound pipe := by
  rcases eq_or_ne pipe turn with rfl | hne
  · exact h.replyTo fifo
  · exact h.frame (.replyTo fifo hne)

theorem QueueSound.step (h : link.QueueSound pipe) (action : ReplyAction) :
    (link.step action).QueueSound pipe := by
  cases action with
  | put other data =>
      rcases eq_or_ne pipe other with rfl | hne
      · exact h.stagePut data
      · exact h.frame (.stagePut hne data)
  | count other =>
      change (link.stageCount other).QueueSound pipe
      rw [stageCount]
      split_ifs
      · exact h
      · exact ⟨h.left_le, h.queue, h.fits⟩
  | latchControl other kind data =>
      change (link.latchControl other kind data).QueueSound pipe
      rw [latchControl]
      split_ifs
      · exact h
      · exact h
      · exact ⟨h.left_le, h.queue, h.fits⟩
  | controlStatement other kind => exact ⟨h.left_le, h.queue, h.fits⟩
  | latchIdle other data =>
      change (link.latchIdleReply other data).QueueSound pipe
      rw [latchIdleReply]
      split_ifs
      · exact h
      · exact h
      · exact ⟨h.left_le, h.queue, h.fits⟩
  | idleStatement other => exact ⟨h.left_le, h.queue, h.fits⟩
  | pointer action => exact ⟨h.left_le, h.queue, h.fits⟩
  | rxDone pipesAcked fifo =>
      exact rxDone_turns (QueueSound pipe) (fun _ _ => True) (fun _ _ _ _ _ => trivial)
        (fun _ turn _ _ hlink => hlink.replyTo_other fifo turn) h fun _ _ => trivial

/-! ## One payload a turn -/

/-- The turn of the pipe hands over at most one payload, one that the radio can take. -/
def WritesOnce (fifo : AckFifo) (pipe : ℕ) (before after : ReplyLink config) : Prop :=
  after.writes = before.writes ∨ ∃ source data, 0 < data.length ∧
    data.length ≤ config.maxPayload ∧
      after.writes = before.writes ++ [before.attempt fifo pipe source data]

theorem writesOnce_writeControl (h : link.CellsSound) (fifo : AckFifo) {kind : EsbLinkControl}
    {slot : ℕ} (hpending : link.pendingControl pipe = some (kind, slot)) :
    WritesOnce fifo pipe link (link.writeControl fifo pipe kind slot) := by
  obtain ⟨-, call, -, hfilled⟩ := (h.control pipe kind).peek slot (pendingControl_eq_some hpending)
  rw [writeControl_eq]
  refine .inr ⟨_, _, ?_, ?_, rfl⟩
  · rw [hfilled.bytes]
    exact hfilled.length_pos
  · rw [hfilled.bytes]
    exact hfilled.length_le.trans config.control_fits

/-- Packing that takes anything takes a packet that is not empty. -/
theorem length_data_packed_pos (h : link.QueueSound pipe) (htaken : (link.packed pipe).taken ≠ 0) :
    0 < (link.packed pipe).data.length := by
  have hle := taken_packed_le link pipe
  rw [data_packed]
  cases hqueue : link.queue pipe with
  | nil =>
      rw [hqueue] at hle
      exact absurd (Nat.le_zero.mp hle) htaken
  | cons packet packets =>
      have hpos := (h.fits packet (h.mem_staged (hqueue ▸ List.mem_cons_self))).1
      obtain ⟨count, hcount⟩ := Nat.exists_eq_succ_of_ne_zero htaken
      rw [hcount, List.take_succ_cons, List.map_cons, List.flatten_cons, List.length_append,
        length_sentForm]
      omega

theorem writesOnce_writePacked (h : link.QueueSound pipe) (fifo : AckFifo)
    (htaken : (link.packed pipe).taken ≠ 0) : WritesOnce fifo pipe link
      (link.writePacked fifo pipe (link.withPointer pipe (link.packed pipe))) := by
  obtain ⟨report, hdata, -⟩ := data_withPointer link pipe (link.packed pipe)
  rw [writePacked_eq]
  refine .inr ⟨_, _, ?_, length_withPointer_le link pipe (length_data_packed_le link pipe), rfl⟩
  have := length_data_packed_pos h htaken
  rw [hdata, List.length_append]
  omega

theorem length_idleBytes_le (h : link.CellsSound) {fresh : Option ℕ}
    (hfresh : ∀ slot ∈ fresh, (link.idle pipe).latch.peek = some slot) :
    (link.idleBytes pipe fresh).length ≤ config.maxPayload := by
  cases fresh with
  | none => exact Nat.zero_le _
  | some slot =>
      obtain ⟨-, call, -, hfilled⟩ := (h.idle pipe).peek slot (hfresh slot rfl)
      have hbytes : link.idleBytes pipe (some slot) = call.data := hfilled.bytes
      rw [hbytes]
      exact hfilled.length_le

theorem writesOnce_writeFresh (h : link.CellsSound) (fifo : AckFifo) {fresh : Option ℕ}
    (hfresh : ∀ slot ∈ fresh, (link.idle pipe).latch.peek = some slot) :
    WritesOnce fifo pipe link (link.writeFresh fifo pipe fresh) := by
  have hle := length_idleBytes_le h hfresh
  rw [writeFresh_eq]
  dsimp only
  generalize link.idleBytes pipe fresh = latched at hle ⊢
  split
  case isTrue => exact .inl rfl
  case isFalse hempty =>
      refine .inr ⟨_, _, Nat.pos_of_ne_zero hempty, ?_, rfl⟩
      cases happend : link.appendPointer pipe latched false with
      | none => simpa using hle
      | some report =>
          have := (length_appendPointer happend).2
          simp only [Option.getD_some, List.length_append]
          omega

theorem freshIdleReply_keeps (link : ReplyLink config) (pipe : ℕ) :
    (link.freshIdleReply pipe).1.writes = link.writes ∧
      (link.freshIdleReply pipe).1.left = link.left ∧
      (link.freshIdleReply pipe).1.pointer = link.pointer ∧
      (link.freshIdleReply pipe).1.staged = link.staged := by
  rw [freshIdleReply]
  dsimp only
  split
  · exact ⟨rfl, rfl, rfl, rfl⟩
  · split_ifs
    · exact ⟨rfl, rfl, rfl, rfl⟩
    · exact ⟨rfl, rfl, rfl, rfl⟩

theorem staged_writeFresh (link : ReplyLink config) (fifo : AckFifo) (pipe : ℕ)
    (fresh : Option ℕ) : (link.writeFresh fifo pipe fresh).staged = link.staged := by
  rw [writeFresh_eq]
  dsimp only
  split <;> rfl

/-- The interrupt stages nothing. -/
theorem staged_replyTo (link : ReplyLink config) (fifo : AckFifo) (pipe : ℕ) :
    (replyTo fifo link pipe).staged = link.staged := by
  refine replyTo_cases (motive := fun after => after.staged = link.staged) ?_ ?_ ?_
  · intro kind slot _
    rw [writeControl_eq]
  · intro _ _
    rw [writePacked_eq]
  · intro _ _
    exact (staged_writeFresh _ fifo pipe _).trans (freshIdleReply_keeps link pipe).2.2.2

theorem writesOnce_replyTo (h : link.CellsSound) (hqueue : link.QueueSound pipe)
    (fifo : AckFifo) : WritesOnce fifo pipe link (replyTo fifo link pipe) := by
  apply replyTo_cases
  · exact fun kind slot hpending => writesOnce_writeControl h fifo hpending
  · exact fun _ htaken => writesOnce_writePacked hqueue fifo htaken
  · intro _ _
    have hwritten := writesOnce_writeFresh (h.freshIdleReply pipe) fifo
      fun slot hslot => peek_of_fresh hslot
    obtain ⟨hwrites, hleft, hpointer, -⟩ := freshIdleReply_keeps link pipe
    rcases hwritten with hkept | ⟨source, data, hpos, hle, hmade⟩
    · exact .inl (hkept.trans hwrites)
    · refine .inr ⟨source, data, hpos, hle, hmade.trans ?_⟩
      simp only [attempt, hwrites, hleft, hpointer]

end ReplyLink

end SplitEsb
