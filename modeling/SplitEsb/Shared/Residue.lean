import Mathlib.Algebra.Order.Group.Unbundled.Int
import Mathlib.Data.List.Chain
import Mathlib.Tactic.Linarith

/-! # Integers followed through fixed-width words
A running integer is sent truncated to a machine word. A receiver recovers the
steps it takes from the words alone as long as the steps are small, whichever
width each word has and however often it wraps. -/

namespace Residue

/-! ## Small steps -/

/-- Consecutive values differ by at most `limit`. -/
def Bounded (limit : ℤ) (values : List ℤ) : Prop := values.IsChain fun a b => |b - a| ≤ limit

theorem bounded_concat {limit value : ℤ} {values : List ℤ} (hne : values ≠ []) :
    Bounded limit (values ++ [value]) ↔
      Bounded limit values ∧ |value - values.getLast hne| ≤ limit := by
  rw [Bounded, List.isChain_append]
  constructor
  · rintro ⟨hvalues, -, hstep⟩
    exact ⟨hvalues, hstep _ (List.getLast_mem_getLast? hne) _ rfl⟩
  · rintro ⟨hvalues, hstep⟩
    refine ⟨hvalues, List.isChain_singleton _, fun a ha b hb => ?_⟩
    rw [List.getLast?_eq_some_getLast hne] at ha
    cases ha
    cases hb
    exact hstep

/-! ## Words -/

theorem toInt_ofInt_small {value : ℤ} (h : |value| ≤ 8192) : (Int32.ofInt value).toInt = value := by
  have hbounds := abs_le.mp h
  exact Int32.toInt_ofInt_of_le (by omega) (by omega)

/-- The difference of two words is the word of the difference. -/
theorem word_gap (a b : ℤ) : Int32.ofInt b - Int32.ofInt a = Int32.ofInt (b - a) :=
  (Int32.ofInt_sub b a).symm

/-- The low halves of two words give the same small difference. -/
theorem short_gap {a b : ℤ} (h : |b - a| ≤ 8192) :
    (Int16.ofInt b - (Int32.ofInt a).toInt16).toInt32 = Int32.ofInt (b - a) := by
  have hbounds := abs_le.mp h
  have hmin : Int16.minValue.toInt = -32768 := rfl
  have hmax : Int16.maxValue.toInt = 32767 := rfl
  rw [Int32.toInt16_ofInt, ← Int16.ofInt_sub]
  exact Int16.toInt32_ofInt (by omega) (by omega)

theorem word_step (a b : ℤ) : Int32.ofInt a + Int32.ofInt (b - a) = Int32.ofInt b := by
  rw [← Int32.ofInt_add, add_sub_cancel]

end Residue
