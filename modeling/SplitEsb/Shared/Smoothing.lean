import Mathlib.Algebra.Order.Group.Unbundled.Int
import Mathlib.Order.Interval.Set.UnorderedInterval
import Mathlib.Order.Lattice.Nat

/-! # Steps toward a target, and ramps
A step that lands between a value and its target, and moves whenever they differ, reaches
the target and stays there. A ramp rises from a floor to a ceiling between two breakpoints. -/

namespace Smoothing

/-! ## Steps toward a target -/

/-- A step brings what it reads of a state closer to a target, never past it. -/
structure StepsToward {σ : Type*} (read : σ → ℤ) (target : ℤ) (next : σ → σ) : Prop where
  mem_uIcc : ∀ state, read (next state) ∈ Set.uIcc (read state) target
  moves : ∀ state, read state ≠ target → read (next state) ≠ read state

section

variable {σ : Type*} {read : σ → ℤ} {target : ℤ} {next : σ → σ}

theorem StepsToward.stays (h : StepsToward read target next) {state : σ}
    (hread : read state = target) : read (next state) = target := by
  have hmem := h.mem_uIcc state
  rw [hread, Set.uIcc_self] at hmem
  exact hmem

theorem StepsToward.closer (h : StepsToward read target next) {state : σ}
    (hread : read state ≠ target) :
    (read (next state) - target).natAbs < (read state - target).natAbs := by
  have hmoves := h.moves state hread
  rcases Set.mem_uIcc.mp (h.mem_uIcc state) with ⟨hlow, hhigh⟩ | ⟨hlow, hhigh⟩ <;> omega

/-- As many steps as the distance are enough. -/
theorem StepsToward.iterate (h : StepsToward read target next) {steps : ℕ} {state : σ}
    (hsteps : (read state - target).natAbs ≤ steps) : read (next^[steps] state) = target := by
  induction steps generalizing state with
  | zero =>
      change read state = target
      omega
  | succ steps ih =>
      rw [Function.iterate_succ_apply]
      apply ih
      by_cases hread : read state = target
      · rw [h.stays hread, sub_self]
        exact Nat.zero_le _
      · have hcloser := h.closer hread
        omega

end

/-- A share of the difference, rounded toward zero but never to nothing. -/
def share (divisor difference : ℤ) : ℤ :=
  let delta := difference.tdiv divisor
  let delta := if delta = 0 ∧ difference > 0 then 1 else delta
  if delta = 0 ∧ difference < 0 then -1 else delta

variable {divisor difference : ℤ}

theorem share_of_pos (hdivisor : 0 < divisor) (hpos : 0 < difference) :
    0 < share divisor difference ∧ share divisor difference ≤ difference := by
  have hnonneg : 0 ≤ difference.tdiv divisor := Int.tdiv_nonneg hpos.le hdivisor.le
  have hle : (difference.tdiv divisor).natAbs ≤ difference.natAbs :=
    Int.natAbs_tdiv_le_natAbs difference divisor
  simp only [share]
  split_ifs <;> omega

theorem share_neg (divisor difference : ℤ) :
    share divisor (-difference) = -share divisor difference := by
  simp only [share, Int.neg_tdiv]
  split_ifs <;> omega

theorem share_of_neg (hdivisor : 0 < divisor) (hneg : difference < 0) :
    share divisor difference < 0 ∧ difference ≤ share divisor difference := by
  have hopposite := share_of_pos hdivisor (Int.neg_pos.mpr hneg)
  rw [share_neg] at hopposite
  omega

theorem add_share_mem_uIcc (hdivisor : 0 < divisor) (value target : ℤ) :
    value + share divisor (target - value) ∈ Set.uIcc value target := by
  rw [Set.mem_uIcc]
  rcases lt_trichotomy (target - value) 0 with hneg | hzero | hpos
  · have hshare := share_of_neg hdivisor hneg
    omega
  · have hshare : share divisor 0 = 0 := by simp [share]
    rw [hzero, hshare]
    omega
  · have hshare := share_of_pos hdivisor hpos
    omega

theorem share_ne_zero (hdivisor : 0 < divisor) (hdifference : difference ≠ 0) :
    share divisor difference ≠ 0 := by
  rcases lt_or_gt_of_ne hdifference with hneg | hpos
  · exact (share_of_neg hdivisor hneg).1.ne
  · exact (share_of_pos hdivisor hpos).1.ne'

/-! ## Ramps -/

/-- Linear between the breakpoints, rounded down. -/
def ramp (low high floor ceiling value : ℕ) : ℕ :=
  if value ≤ low then floor
  else if high ≤ value then ceiling
  else floor + (value - low) * (ceiling - floor) / (high - low)

variable {low high floor ceiling value : ℕ}

theorem ramp_of_le (h : value ≤ low) : ramp low high floor ceiling value = floor := if_pos h

theorem ramp_of_ge (hlow : low < value) (h : high ≤ value) :
    ramp low high floor ceiling value = ceiling := by
  rw [ramp, if_neg (Nat.not_le.mpr hlow), if_pos h]

theorem rise_le (hvalue : value ≤ high) :
    (value - low) * (ceiling - floor) / (high - low) ≤ ceiling - floor :=
  Nat.div_le_of_le_mul (Nat.mul_le_mul_right _ (Nat.sub_le_sub_right hvalue low))

theorem ramp_mem_Icc (h : floor ≤ ceiling) (low high value : ℕ) :
    ramp low high floor ceiling value ∈ Set.Icc floor ceiling := by
  rw [ramp]
  split_ifs with hlow hhigh
  · exact ⟨le_rfl, h⟩
  · exact ⟨h, le_rfl⟩
  · have hrise : (value - low) * (ceiling - floor) / (high - low) ≤ ceiling - floor :=
      rise_le (Nat.le_of_not_le hhigh)
    exact ⟨Nat.le_add_right _ _, by omega⟩

theorem ramp_mono (h : floor ≤ ceiling) (low high : ℕ) : Monotone (ramp low high floor ceiling) := by
  intro value value' hvalue
  obtain ⟨hfloor, -⟩ := ramp_mem_Icc h low high value'
  obtain ⟨-, hceiling⟩ := ramp_mem_Icc h low high value
  by_cases hlow : value ≤ low
  · rwa [ramp_of_le hlow]
  · by_cases hhigh : high ≤ value'
    · rwa [ramp_of_ge (by omega) hhigh]
    · rw [ramp, ramp, if_neg hlow, if_neg (by omega), if_neg (by omega), if_neg hhigh]
      exact Nat.add_le_add_left (Nat.div_le_div_right
        (Nat.mul_le_mul_right _ (Nat.sub_le_sub_right hvalue low))) floor

end Smoothing
