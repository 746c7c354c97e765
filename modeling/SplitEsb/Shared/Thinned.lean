import Mathlib.Data.List.Basic

/-! # A line that loses items
What comes out of a lossy line is what went in, in order, less a number of items. Lines
one after another lose what each of them loses. -/

namespace Thinned

variable {α : Type*}

/-- The output is the input without so many of its items. -/
structure Thins (input output : List α) (lost : ℕ) : Prop where
  sublist : output.Sublist input
  length : output.length + lost = input.length

namespace Thins

variable {input middle output front back : List α} {lost more : ℕ}

theorem refl (input : List α) : Thins input input 0 := ⟨List.Sublist.refl input, rfl⟩

theorem trans (hfirst : Thins input middle lost) (hsecond : Thins middle output more) :
    Thins input output (lost + more) where
  sublist := hsecond.sublist.trans hfirst.sublist
  length := by
    have := hfirst.length
    have := hsecond.length
    omega

theorem append (hfront : Thins input output lost) (hback : Thins front back more) :
    Thins (input ++ front) (output ++ back) (lost + more) where
  sublist := hfront.sublist.append hback.sublist
  length := by
    have := hfront.length
    have := hback.length
    simp only [List.length_append]
    omega

/-- Items that went through after the others. -/
theorem through (h : Thins input output lost) (items : List α) :
    Thins (input ++ items) (output ++ items) lost :=
  h.append (refl items)

/-- Items that were lost after the others. -/
theorem without (h : Thins input output lost) (items : List α) :
    Thins (input ++ items) output (lost + items.length) := by
  have hlost : Thins items [] items.length := ⟨List.nil_sublist items, Nat.zero_add _⟩
  exact List.append_nil output ▸ h.append hlost

end Thins

end Thinned
