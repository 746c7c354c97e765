import Mathlib.Algebra.BigOperators.Group.List.Basic
import Mathlib.Algebra.GroupWithZero.Nat
import Mathlib.Data.List.DropRight

/-! # The total of an unbroken run
An accumulator that a zero clears and that saturates at a cap holds the sum of the
values since the last zero, cut at the cap. -/

namespace RunTotal

/-- The sum of the nonzero values at the end of a list. -/
def runTotal (values : List ℕ) : ℕ := (values.rtakeWhile (· ≠ 0)).sum

/-- One step of the accumulator. -/
def accumulate (cap total value : ℕ) : ℕ := if value = 0 then 0 else min cap (total + value)

@[simp] theorem runTotal_nil : runTotal [] = 0 := by simp [runTotal]

theorem runTotal_concat (values : List ℕ) (value : ℕ) :
    runTotal (values ++ [value]) = if value = 0 then 0 else runTotal values + value := by
  by_cases hzero : value = 0
  · simp [runTotal, hzero]
  · simp [runTotal, hzero]

/-- One more value keeps the accumulator at the total of the run, cut at the cap. -/
theorem accumulate_runTotal (cap : ℕ) (values : List ℕ) (value : ℕ) :
    accumulate cap (min cap (runTotal values)) value = min cap (runTotal (values ++ [value])) := by
  rw [accumulate, runTotal_concat]
  by_cases hzero : value = 0
  · simp [hzero]
  · simp only [hzero, if_false]
    omega

end RunTotal
