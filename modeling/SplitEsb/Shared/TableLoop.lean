import Mathlib.Data.Finset.Lattice.Fold
import Mathlib.Data.Finset.Range
import Mathlib.Order.Lattice.Nat

/-! # Loops over a table
One pass over the first places of a table, changing each from its own value alone, and one
that keeps the largest value it comes across. -/

namespace TableLoop

variable {α : Type*}

/-- Changes the first `count` places one after the other. -/
def visit (change : ℕ → α → α) (count : ℕ) (table : ℕ → α) : ℕ → α :=
  (List.range count).foldl
    (fun table index => Function.update table index (change index (table index))) table

theorem visit_succ (change : ℕ → α → α) (count : ℕ) (table : ℕ → α) :
    visit change (count + 1) table =
      Function.update (visit change count table) count (change count (visit change count table count)) := by
  rw [visit, List.range_succ, List.foldl_append]
  rfl

/-- No place sees what the loop did to another. -/
theorem visit_apply (change : ℕ → α → α) (count : ℕ) (table : ℕ → α) (index : ℕ) :
    visit change count table index =
      if index < count then change index (table index) else table index := by
  induction count generalizing index with
  | zero => rfl
  | succ count ih =>
      rw [visit_succ]
      rcases eq_or_ne index count with rfl | hne
      · rw [Function.update_self, ih, if_neg (lt_irrefl index), if_pos index.lt_succ_self]
      · rw [Function.update_of_ne hne, ih]
        exact if_congr (by omega) rfl rfl

/-- A step that takes the larger of two readings leads to the largest. -/
theorem foldl_range_sup (read : α → ℕ) {value : ℕ → ℕ} {step : α → ℕ → α}
    (hstep : ∀ worst index, read (step worst index) = max (read worst) (value index))
    {start : α} (hstart : read start = 0) (count : ℕ) :
    read ((List.range count).foldl step start) = (Finset.range count).sup value := by
  induction count with
  | zero => exact hstart
  | succ count ih =>
      rw [List.range_succ, List.foldl_append, Finset.range_add_one, Finset.sup_insert, ← ih, max_comm]
      exact hstep _ count

end TableLoop
