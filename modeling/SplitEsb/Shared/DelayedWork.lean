import Mathlib.Order.Lattice.Nat

/-! # Delayed work
A work item with a timer. The timer queues the item when it expires, and a queue runs what is
queued. An item that runs is no longer queued, so a cancel does not reach it. -/

namespace DelayedWork

structure Item where
  due : Option ℕ
  queued : Bool
  deriving DecidableEq, Repr

namespace Item

def off : Item := ⟨none, false⟩

/-- Moves the timer; an item already queued stays queued. -/
def reschedule (item : Item) (dueMs : ℕ) : Item := { item with due := some dueMs }

def cancel (_ : Item) : Item := off

/-- The timer's interrupt. -/
def expire (item : Item) (nowMs : ℕ) : Item :=
  match item.due with
  | none => item
  | some dueMs => if dueMs ≤ nowMs then ⟨none, true⟩ else item

/-- What is left of the timer, zero when it does not run. -/
def remaining (item : Item) (nowMs : ℕ) : ℕ :=
  match item.due with
  | none => 0
  | some dueMs => dueMs - nowMs

/-- The queue takes the item out to run it. -/
def start (item : Item) : Item := { item with queued := false }

/-- Queued, or queued by then at the latest. -/
def DueBy (item : Item) (limitMs : ℕ) : Prop :=
  item.queued = true ∨ ∃ dueMs, item.due = some dueMs ∧ dueMs ≤ limitMs

variable {item : Item} {nowMs limitMs : ℕ}

@[simp] theorem expire_off (nowMs : ℕ) : off.expire nowMs = off := rfl

@[simp] theorem remaining_off (nowMs : ℕ) : off.remaining nowMs = 0 := rfl

theorem reschedule_ne_off (item : Item) (dueMs : ℕ) : item.reschedule dueMs ≠ off := by
  intro h
  cases congrArg Item.due h

theorem dueBy_reschedule (item : Item) {dueMs : ℕ} (hle : dueMs ≤ limitMs) :
    (item.reschedule dueMs).DueBy limitMs := .inr ⟨dueMs, rfl, hle⟩

theorem DueBy.mono (h : item.DueBy limitMs) {laterMs : ℕ} (hle : limitMs ≤ laterMs) :
    item.DueBy laterMs :=
  h.imp id fun ⟨dueMs, hdue, hlimit⟩ => ⟨dueMs, hdue, hlimit.trans hle⟩

theorem DueBy.expire (h : item.DueBy limitMs) (nowMs : ℕ) :
    (item.expire nowMs).DueBy limitMs := by
  rw [Item.expire]
  cases hdue : item.due with
  | none => exact h
  | some dueMs =>
      dsimp only
      split_ifs
      · exact .inl rfl
      · exact h

/-- With little of the timer left, an item that is due at all is due soon. -/
theorem DueBy.of_remaining (h : item.DueBy limitMs) {periodMs : ℕ}
    (hleft : item.remaining nowMs ≤ periodMs) : item.DueBy (nowMs + periodMs) := by
  rcases h with hqueued | ⟨dueMs, hdue, -⟩
  · exact .inl hqueued
  · refine .inr ⟨dueMs, hdue, ?_⟩
    rw [remaining, hdue] at hleft
    exact Nat.sub_le_iff_le_add'.mp hleft

end Item

end DelayedWork
