import Mathlib.Data.List.Basic

/-! # Bursts after a change
A counter is loaded at every change and counts down a turn at a time; it fires while it
is not empty. Histories are listed newest first. -/

namespace Burst

/-- The counter after a turn, and whether the turn fires. -/
def turn (repeats left : ℕ) (changed : Bool) : ℕ × Bool :=
  let left := if changed then repeats else left
  (left - 1, decide (0 < left))

/-- The counter after a history of turns. -/
def left (repeats start : ℕ) : List Bool → ℕ
  | [] => start
  | changed :: older => (turn repeats (left repeats start older) changed).1

variable {repeats start : ℕ}

/-- The counter says how recent the last change is; without one it still counts down
from the start. -/
theorem lt_left_iff (hstart : start ≤ repeats) (history : List Bool) (k : ℕ) :
    k < left repeats start history ↔
      true ∈ history.take (repeats - 1 - k) ∨ k + history.length < start := by
  induction history generalizing k with
  | nil => simp [left]
  | cons changed older ih =>
      cases changed with
      | true =>
          have hleft : left repeats start (true :: older) = repeats - 1 := rfl
          rw [hleft]
          cases hroom : repeats - 1 - k with
          | zero =>
              simp only [List.take_zero, List.not_mem_nil, List.length_cons, false_or]
              omega
          | succ room =>
              simp only [List.take_succ_cons, List.mem_cons, true_or, iff_true]
              omega
      | false =>
          have hleft : left repeats start (false :: older) = left repeats start older - 1 := rfl
          rw [hleft, Nat.lt_sub_iff_add_lt, ih (k + 1), List.length_cons, Nat.sub_add_eq]
          have hlength : k + 1 + older.length = k + (older.length + 1) := by omega
          rw [hlength]
          refine or_congr_left ?_
          cases repeats - 1 - k with
          | zero => simp
          | succ room => simp

/-- A turn fires exactly when one of the last turns, itself included, changed. -/
theorem fires_iff (hstart : start ≤ repeats) (history : List Bool) (changed : Bool) :
    (turn repeats (left repeats start history) changed).2 = true ↔
      true ∈ (changed :: history).take repeats ∨ history.length < start := by
  rw [turn, decide_eq_true_iff]
  cases repeats with
  | zero =>
      obtain rfl : start = 0 := Nat.le_zero.mp hstart
      cases changed with
      | true => simp
      | false =>
          have hnone := lt_left_iff hstart history 0
          simpa using hnone
  | succ repeats =>
      cases changed with
      | true => simp
      | false =>
          have hold := lt_left_iff hstart history 0
          simpa using hold

end Burst
