import SplitEsb.Hop.Vote
import SplitEsb.Shared.TableLoop

/-! # Channel blame and the hop vote
`hop_policy_window_penalty` scores the channel and `hop_policy_accrue_loss` feeds the vote.
Each has the grading of a pipe written out in its own loop. -/

namespace SplitEsb

open TableLoop

/-! ## The two loops -/

def hopPolicyWindowPenaltyLoop (motionMask activeMask : UInt32) (rssiDbm : ℕ → Int8)
    (floorDbm : Int8) (count : ℕ) : UInt8 :=
  (List.range count).foldl (fun worst index =>
    if !maskHasBit activeMask index then worst
    else
      let penalty :=
        if maskHasBit motionMask index then hopPolicyLossPenalty (rssiDbm index) floorDbm
        else UInt8.ofNat hopPolicyMaxLossPenalty
      if penalty > worst then penalty else worst) 0

/-- Changes `linkLoss` in place, one pipe after the other. -/
def hopPolicyAccrueLossLoop (linkLoss : ℕ → UInt8) (count : ℕ) (motionMask activeMask : UInt32)
    (rssiDbm : ℕ → Int8) (floorDbm : Int8) : ℕ → UInt8 :=
  (List.range count).foldl (fun linkLoss index =>
    if !maskHasBit activeMask index then Function.update linkLoss index 0
    else
      let penalty :=
        if maskHasBit motionMask index then hopPolicyLossPenalty (rssiDbm index) floorDbm
        else UInt8.ofNat hopPolicyMaxLossPenalty
      if penalty = 0 then Function.update linkLoss index 0
      else
        Function.update linkLoss index (hopPolicySaturatingAdd (linkLoss index) penalty)) linkLoss

variable {motionMask activeMask : UInt32} {rssiDbm : ℕ → Int8} {floorDbm : Int8} {count : ℕ}

/-- Both loops judge a pipe as one function would. -/
theorem hopPolicyWindowPenaltyLoop_eq (motionMask activeMask : UInt32) (rssiDbm : ℕ → Int8)
    (floorDbm : Int8) (count : ℕ) :
    hopPolicyWindowPenaltyLoop motionMask activeMask rssiDbm floorDbm count =
      hopPolicyWindowPenalty motionMask activeMask rssiDbm floorDbm count := rfl

theorem hopPolicyAccrueLossLoop_eq (linkLoss : ℕ → UInt8) (count : ℕ)
    (motionMask activeMask : UInt32) (rssiDbm : ℕ → Int8) (floorDbm : Int8) :
    hopPolicyAccrueLossLoop linkLoss count motionMask activeMask rssiDbm floorDbm =
      hopPolicyAccrueLoss linkLoss count motionMask activeMask rssiDbm floorDbm := by
  have hvisit : hopPolicyAccrueLossLoop linkLoss count motionMask activeMask rssiDbm floorDbm =
      visit (fun index loss =>
        if !maskHasBit activeMask index then 0
        else
          let penalty := activePipePenalty motionMask rssiDbm floorDbm index
          if penalty = 0 then 0 else hopPolicySaturatingAdd loss penalty) count linkLoss := by
    rw [hopPolicyAccrueLossLoop, visit]
    congr 1
    funext linkLoss index
    dsimp only [activePipePenalty]
    split_ifs <;> rfl
  funext index
  rw [hvisit, visit_apply, hopPolicyAccrueLoss]
  by_cases hindex : index < count
  · rw [if_pos hindex, if_neg (Nat.not_le.mpr hindex)]
  · rw [if_neg hindex, if_pos (Nat.le_of_not_lt hindex)]

/-! ## What a window adds -/

theorem hopPolicySaturatingAdd_eq_zero_iff (value add : UInt8) :
    hopPolicySaturatingAdd value add = 0 ↔ value = 0 ∧ add = 0 := by
  rw [← UInt8.toNat_inj, ← UInt8.toNat_inj, ← UInt8.toNat_inj, toNat_hopPolicySaturatingAdd]
  change min 255 _ = 0 ↔ _ = 0 ∧ _ = 0
  omega

theorem zero_hopPolicySaturatingAdd (add : UInt8) : hopPolicySaturatingAdd 0 add = add := by
  have hadd := add.toNat_lt
  rw [← UInt8.toNat_inj, toNat_hopPolicySaturatingAdd]
  change min 255 (0 + _) = _
  omega

/-- The amount a window adds to the loss of a pipe, none where it clears the pipe. -/
def pipeAmount (motionMask activeMask : UInt32) (rssiDbm : ℕ → Int8) (floorDbm : Int8)
    (index : ℕ) : UInt8 :=
  if maskHasBit activeMask index then activePipePenalty motionMask rssiDbm floorDbm index else 0

theorem hopPolicyAccrueLoss_eq {index : ℕ} (hindex : index < count) (linkLoss : ℕ → UInt8) :
    hopPolicyAccrueLoss linkLoss count motionMask activeMask rssiDbm floorDbm index =
      if pipeAmount motionMask activeMask rssiDbm floorDbm index = 0 then 0
      else hopPolicySaturatingAdd (linkLoss index)
        (pipeAmount motionMask activeMask rssiDbm floorDbm index) := by
  rw [hopPolicyAccrueLoss, if_neg (Nat.not_le.mpr hindex), pipeAmount]
  cases maskHasBit activeMask index <;> rfl

theorem hopPolicyAccrueLoss_eq_zero_iff {index : ℕ} (hindex : index < count)
    (linkLoss : ℕ → UInt8) :
    hopPolicyAccrueLoss linkLoss count motionMask activeMask rssiDbm floorDbm index = 0 ↔
      pipeAmount motionMask activeMask rssiDbm floorDbm index = 0 := by
  rw [hopPolicyAccrueLoss_eq hindex]
  split_ifs with hzero
  · exact iff_of_true rfl hzero
  · exact iff_of_false (fun h => hzero ((hopPolicySaturatingAdd_eq_zero_iff _ _).mp h).2) hzero

/-- Over a table without loss the amount is all there is. -/
theorem hopPolicyAccrueLoss_zero {index : ℕ} (hindex : index < count) :
    hopPolicyAccrueLoss (fun _ => 0) count motionMask activeMask rssiDbm floorDbm index =
      pipeAmount motionMask activeMask rssiDbm floorDbm index := by
  rw [hopPolicyAccrueLoss_eq hindex, zero_hopPolicySaturatingAdd]
  split_ifs with hzero
  · exact hzero.symm
  · rfl

/-- The penalty is the largest amount. -/
theorem toNat_hopPolicyWindowPenalty (motionMask activeMask : UInt32) (rssiDbm : ℕ → Int8)
    (floorDbm : Int8) (count : ℕ) :
    (hopPolicyWindowPenalty motionMask activeMask rssiDbm floorDbm count).toNat =
      (Finset.range count).sup fun index =>
        (pipeAmount motionMask activeMask rssiDbm floorDbm index).toNat := by
  refine foldl_range_sup UInt8.toNat (fun worst index => ?_) rfl count
  rw [pipeAmount]
  cases maskHasBit activeMask index with
  | false => exact (Nat.max_zero _).symm
  | true =>
      set penalty := activePipePenalty motionMask rssiDbm floorDbm index
      change (if penalty > worst then penalty else worst).toNat = max worst.toNat penalty.toNat
      split_ifs with hworse
      · exact (max_eq_right (UInt8.lt_iff_toNat_lt.mp hworse).le).symm
      · exact (max_eq_left (UInt8.le_iff_toNat_le.mp (UInt8.not_lt.mp hworse))).symm

theorem hopPolicyWindowPenalty_eq_zero_iff (linkLoss : ℕ → UInt8) :
    hopPolicyWindowPenalty motionMask activeMask rssiDbm floorDbm count = 0 ↔
      ∀ index < count,
        hopPolicyAccrueLoss linkLoss count motionMask activeMask rssiDbm floorDbm index = 0 := by
  rw [← UInt8.toNat_inj, toNat_hopPolicyWindowPenalty]
  change (Finset.range count).sup _ = ⊥ ↔ _
  rw [Finset.sup_eq_bot_iff]
  refine forall_congr' fun index => ?_
  rw [Finset.mem_range]
  refine imp_congr_right fun hindex => ?_
  rw [hopPolicyAccrueLoss_eq_zero_iff hindex, ← UInt8.toNat_inj]
  rfl

/-- The penalty is zero exactly when no pipe is left with a loss. With `amount` what a
window adds to each pipe, read off a table without loss, it is the largest amount. -/
theorem blame_and_vote_agree (linkLoss : ℕ → UInt8) (count : ℕ) (motionMask activeMask : UInt32)
    (rssiDbm : ℕ → Int8) (floorDbm : Int8) :
    (hopPolicyWindowPenaltyLoop motionMask activeMask rssiDbm floorDbm count = 0 ↔
        ∀ index < count,
          hopPolicyAccrueLossLoop linkLoss count motionMask activeMask rssiDbm floorDbm index = 0) ∧
      let amount :=
        hopPolicyAccrueLossLoop (fun _ => 0) count motionMask activeMask rssiDbm floorDbm
      (∀ index < count,
          hopPolicyAccrueLossLoop linkLoss count motionMask activeMask rssiDbm floorDbm index =
            if amount index = 0 then 0
            else hopPolicySaturatingAdd (linkLoss index) (amount index)) ∧
        (hopPolicyWindowPenaltyLoop motionMask activeMask rssiDbm floorDbm count).toNat =
          (Finset.range count).sup fun index => (amount index).toNat := by
  rw [hopPolicyAccrueLossLoop_eq, hopPolicyWindowPenaltyLoop_eq]
  refine ⟨hopPolicyWindowPenalty_eq_zero_iff linkLoss, ?_⟩
  intro amount
  have hamount : ∀ index < count,
      amount index = pipeAmount motionMask activeMask rssiDbm floorDbm index := by
    intro index hindex
    rw [← hopPolicyAccrueLoss_zero hindex, ← hopPolicyAccrueLossLoop_eq]
  refine ⟨fun index hindex => ?_, ?_⟩
  · rw [hamount index hindex]
    exact hopPolicyAccrueLoss_eq hindex linkLoss
  · refine (toNat_hopPolicyWindowPenalty ..).trans (Finset.sup_congr rfl fun index hindex => ?_)
    rw [hamount index (Finset.mem_range.mp hindex)]

end SplitEsb
