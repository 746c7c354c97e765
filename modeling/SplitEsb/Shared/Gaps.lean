import Mathlib.Algebra.Group.Basic
import Mathlib.Algebra.BigOperators.Group.List.Basic

/-! # Gaps between consecutive values
A running total that is followed value by value moves by the gaps between them. -/

namespace Gaps

variable {α : Type*} [AddCommGroup α]

def gaps : α → List α → List α
  | _, [] => []
  | last, value :: values => (value - last) :: gaps value values

theorem gaps_concat (first : α) (values : List α) (value : α) :
    gaps first (values ++ [value]) =
      gaps first values ++ [value - (first :: values).getLast (List.cons_ne_nil _ _)] := by
  induction values generalizing first with
  | nil => simp [gaps]
  | cons next values ih => simp [gaps, ih]

/-- The gaps add up to the way from the first value to the last. -/
theorem sum_gaps (first : α) (values : List α) :
    (gaps first values).sum = (first :: values).getLast (List.cons_ne_nil _ _) - first := by
  induction values generalizing first with
  | nil => simp [gaps]
  | cons next values ih => simp [gaps, ih]

/-- Leaving out the empty gaps changes no sum. -/
theorem sum_filter_ne_zero [DecidableEq α] (values : List α) :
    (values.filter (· ≠ 0)).sum = values.sum := by
  induction values with
  | nil => simp
  | cons value values ih =>
      by_cases hzero : value = 0
      · simpa [hzero] using ih
      · simpa [hzero] using ih

end Gaps
