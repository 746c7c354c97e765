import SplitEsb.Hop.TickSteps
import SplitEsb.Shared.Smoothing

/-! # The adaptive retransmit budget
The peripheral smooths the worst attempts of its connected windows, in tenths, and lets
the radio retransmit more the higher that average is. -/

namespace SplitEsb

open ByteString Smoothing Transition

def adaptiveRetransmitsMin : UInt8 := 2

def HopPeripheral.retransmitBudget {config : HopConfig} (peripheral : HopPeripheral config)
    (retransmitCeiling : UInt8) : UInt8 :=
  let ceiling := retransmitCeiling
  if config.hopCount ≤ 1 then ceiling
  else
    let retransmitFloor := min adaptiveRetransmitsMin ceiling
    hopPolicyAdaptiveRetransmits peripheral.attemptsEwmaX10 retransmitFloor ceiling

/-! ## The average -/

/-- What an update adds to the average. -/
def ewmaDelta (ewmaX10 : UInt16) (sample : UInt8) : ℤ :=
  share (2 ^ hopPolicyAttemptsEwmaShift) (10 * sample.toNat - ewmaX10.toNat)

theorem hopPolicyEwmaUpdate_eq (ewmaX10 : UInt16) (sample : UInt8) :
    hopPolicyEwmaUpdate ewmaX10 sample = UInt16.ofInt (ewmaX10.toNat + ewmaDelta ewmaX10 sample) := by
  rw [ewmaDelta, mul_comm]
  rfl

theorem toNat_ofInt_of_mem {value : ℤ} (hlow : 0 ≤ value) (hhigh : value < 2 ^ 16) :
    ((UInt16.ofInt value).toNat : ℤ) = value := by
  rw [UInt16.ofInt, UInt16.toNat_ofNat', Int.emod_eq_of_lt hlow hhigh]
  omega

/-- The sum lies between two words of sixteen bits, so the cast loses nothing. -/
theorem toNat_hopPolicyEwmaUpdate (ewmaX10 : UInt16) (sample : UInt8) :
    ((hopPolicyEwmaUpdate ewmaX10 sample).toNat : ℤ) =
      ewmaX10.toNat + ewmaDelta ewmaX10 sample := by
  have hmem : (ewmaX10.toNat : ℤ) + ewmaDelta ewmaX10 sample ∈
      Set.uIcc (ewmaX10.toNat : ℤ) (10 * sample.toNat) := add_share_mem_uIcc (by decide) _ _
  have hewma := ewmaX10.toNat_lt
  have hsample := sample.toNat_lt
  rw [hopPolicyEwmaUpdate_eq]
  rcases Set.mem_uIcc.mp hmem with ⟨hlow, hhigh⟩ | ⟨hlow, hhigh⟩ <;>
    exact toNat_ofInt_of_mem (by omega) (by omega)

theorem hopPolicyEwmaUpdate_stepsToward (sample : UInt8) :
    StepsToward (fun ewmaX10 : UInt16 => (ewmaX10.toNat : ℤ)) (10 * sample.toNat)
      (hopPolicyEwmaUpdate · sample) where
  mem_uIcc ewmaX10 := by
    rw [toNat_hopPolicyEwmaUpdate]
    exact add_share_mem_uIcc (by decide) _ _
  moves ewmaX10 hne := by
    rw [toNat_hopPolicyEwmaUpdate]
    have hdelta : ewmaDelta ewmaX10 sample ≠ 0 :=
      share_ne_zero (by decide) (sub_ne_zero.mpr hne.symm)
    omega

/-- Samples of at least one attempt keep the average between one attempt and the most a
sample can report. -/
def AverageSound (ewmaX10 : UInt16) : Prop := 10 ≤ ewmaX10.toNat ∧ ewmaX10.toNat ≤ 10 * 255

theorem AverageSound.update {ewmaX10 : UInt16} (h : AverageSound ewmaX10) {sample : UInt8}
    (hsample : 0 < sample) : AverageSound (hopPolicyEwmaUpdate ewmaX10 sample) := by
  have hpos : 0 < sample.toNat := UInt8.lt_iff_toNat_lt.mp hsample
  have hlt := sample.toNat_lt
  have hmem := Set.mem_uIcc.mp ((hopPolicyEwmaUpdate_stepsToward sample).mem_uIcc ewmaX10)
  obtain ⟨hlow, hhigh⟩ := h
  exact ⟨by omega, by omega⟩

namespace UplinkTick

variable {config : HopConfig}

theorem average_retain (state : UplinkTick config) :
    state.retain.peripheral.attemptsEwmaX10 = state.peripheral.attemptsEwmaX10 := by
  rw [retain]
  split_ifs <;> rfl

theorem average_succeed (state : UplinkTick config) (attempts : UInt8) :
    (state.succeed attempts).peripheral.attemptsEwmaX10 = state.peripheral.attemptsEwmaX10 := by
  rw [succeed]
  split
  · rfl
  · simp only [HopPeripheral.hopNoteTxSuccess, HopPeripheral.recordTxAttempts]
    split_ifs <;> rfl

theorem average_fail (state : UplinkTick config) (retry : Bool) :
    (state.fail retry).peripheral.attemptsEwmaX10 = state.peripheral.attemptsEwmaX10 := by
  rw [fail]
  split
  · simp only [HopPeripheral.hopNoteTxFailed, HopPeripheral.recordTxAttempts]
    split_ifs <;> rfl
  · rfl

theorem average_hopConsumeRx (pipe : ℕ) (peripheral : HopPeripheral config) (data : Bytes) :
    (peripheral.hopConsumeRx pipe data).attemptsEwmaX10 = peripheral.attemptsEwmaX10 := by
  simp only [HopPeripheral.hopConsumeRx, HopPeripheral.consumeBeacon,
    HopPeripheral.consumeMaskUpdate]
  split_ifs <;> rfl

/-- Choosing the window starts the average again with a new epoch. -/
theorem average_chooseWindow (state : UplinkTick config) :
    state.chooseWindow.peripheral.attemptsEwmaX10 = state.peripheral.attemptsEwmaX10 ∨
      state.chooseWindow.peripheral.attemptsEwmaX10 = 10 := by
  have hensure : state.peripheral.ensureMask.attemptsEwmaX10 = state.peripheral.attemptsEwmaX10 := by
    rw [HopPeripheral.ensureMask]
    split_ifs <;> rfl
  simp only [chooseWindow]
  split_ifs
  · exact .inr rfl
  · exact .inl hensure
  · exact .inl hensure

theorem average_endWindow (state : UplinkTick config) (kind : WindowKind) (worst : UInt8)
    (sum packets : UInt32) :
    let average := state.peripheral.attemptsEwmaX10
    let average' := (state.endWindow kind worst sum packets).peripheral.attemptsEwmaX10
    average' = average ∨ 0 < worst ∧ average' = hopPolicyEwmaUpdate average worst := by
  cases kind with
  | adopt => exact .inl (average_retain _)
  | connected =>
      dsimp only [endWindow]
      rw [average_retain]
      by_cases hworst : 0 < worst
      · refine .inr ⟨hworst, ?_⟩
        simp only [HopPeripheral.gradeWindow, if_pos hworst]
        split_ifs <;> rfl
      · refine .inl ?_
        simp only [HopPeripheral.gradeWindow, if_neg hworst]
        split_ifs <;> rfl
  | lost =>
      refine .inl ((average_retain _).trans ?_)
      simp only [HopPeripheral.lostWindowEnd]
      split_ifs <;> rfl

/-- A tick that ends a connected window is all that updates the average, and adopting an
epoch all that starts it again. -/
theorem average_step (state : UplinkTick config) (action : UplinkAction) :
    let average := state.peripheral.attemptsEwmaX10
    let average' := (state.step action).peripheral.attemptsEwmaX10
    average' = average ∨ average' = 10 ∨
      ∃ sample, 0 < sample ∧ average' = hopPolicyEwmaUpdate average sample := by
  cases action with
  | submit ack => exact .inl rfl
  | noteFlag =>
      dsimp only [step, noteFlag]
      split_ifs <;> exact .inl rfl
  | noteCount =>
      dsimp only [step, noteCount]
      split_ifs <;> exact .inl rfl
  | succeed attempts => exact .inl (average_succeed state attempts)
  | fail retry => exact .inl (average_fail state retry)
  | flush => exact .inl rfl
  | receive pipe data => exact .inl (average_hopConsumeRx pipe _ data)
  | tick =>
      dsimp only [step]
      split_ifs <;> exact .inl rfl
  | work =>
      dsimp only [step, work]
      cases state.stage with
      | idle | start | failedTaken | succeededTaken | window | worstTaken | sumTaken =>
          exact .inl rfl
      | settled =>
          dsimp only
          split_ifs
          · exact .inl rfl
          · exact (average_chooseWindow state).imp_right .inl
      | packetsTaken kind worst sum packets =>
          exact (average_endWindow state kind worst sum packets).imp_right fun h => .inr ⟨worst, h⟩

/-- The average of every run from boot is sound. -/
theorem averageSound_run (retained : HopRetained config) (actions : List UplinkAction) :
    AverageSound (run step (boot retained) actions).peripheral.attemptsEwmaX10 := by
  refine @run_invariant _ _ step (fun state => AverageSound state.peripheral.attemptsEwmaX10)
    (fun state action h => ?_) _ ?_ actions
  · rcases average_step state action with hsame | hstart | ⟨sample, hsample, hupdate⟩
    · rwa [hsame]
    · rw [hstart]
      exact ⟨by decide, by decide⟩
    · rw [hupdate]
      exact h.update hsample
  · have hboot : (HopPeripheral.boot retained).attemptsEwmaX10 = 10 := by
      simp only [HopPeripheral.boot, HopPeripheral.hopRestore, HopPeripheral.ensureMask]
      split_ifs <;> rfl
    change AverageSound (HopPeripheral.boot retained).attemptsEwmaX10
    rw [hboot]
    exact ⟨by decide, by decide⟩

end UplinkTick

/-! ## The budget -/

/-- Within its assertion the budget is a ramp over the average. -/
theorem toNat_hopPolicyAdaptiveRetransmits {countMin countMax : UInt8} (h : countMin ≤ countMax)
    (ewmaX10 : UInt16) : (hopPolicyAdaptiveRetransmits ewmaX10 countMin countMax).toNat =
      ramp 15 45 countMin.toNat countMax.toNat ewmaX10.toNat := by
  have hcount := UInt8.le_iff_toNat_le.mp h
  have hmax := countMax.toNat_lt
  have hlowWord : ewmaX10 ≤ hopPolicyRetryEwmaLowX10 ↔ ewmaX10.toNat ≤ 15 := UInt16.le_iff_toNat_le
  have hhighWord : hopPolicyRetryEwmaHighX10 ≤ ewmaX10 ↔ 45 ≤ ewmaX10.toNat :=
    UInt16.le_iff_toNat_le
  rw [hopPolicyAdaptiveRetransmits, ramp]
  by_cases hlow : ewmaX10.toNat ≤ 15
  · rw [if_pos (hlowWord.mpr hlow), if_pos hlow]
  · rw [if_neg (hlowWord.not.mpr hlow), if_neg hlow]
    by_cases hhigh : 45 ≤ ewmaX10.toNat
    · rw [if_pos (hhighWord.mpr hhigh), if_pos hhigh]
    · rw [if_neg (hhighWord.not.mpr hhigh), if_neg hhigh]
      have hinto : (ewmaX10.toUInt32 - hopPolicyRetryEwmaLowX10.toUInt32).toNat =
          ewmaX10.toNat - 15 := by
        refine UInt32.toNat_sub_of_le _ _ (UInt32.le_iff_toNat_le.mpr ?_)
        exact Nat.le_of_not_le hlow
      have hspan : (countMax.toUInt32 - countMin.toUInt32).toNat =
          countMax.toNat - countMin.toNat :=
        UInt32.toNat_sub_of_le _ _ (UInt32.le_iff_toNat_le.mpr hcount)
      have hrise : (ewmaX10.toNat - 15) * (countMax.toNat - countMin.toNat) ≤ 30 * 255 :=
        Nat.mul_le_mul (by omega) (by omega)
      dsimp only
      rw [UInt32.toNat_toUInt8, UInt32.toNat_add, UInt32.toNat_div, UInt32.toNat_mul, hinto, hspan,
        UInt8.toNat_toUInt32]
      change (countMin.toNat + _ % 2 ^ 32 / 30) % 2 ^ 32 % 2 ^ 8 = countMin.toNat + _ / 30
      have hshare := @rise_le 15 45 countMin.toNat countMax.toNat ewmaX10.toNat (by omega)
      rw [Nat.mod_eq_of_lt (by omega : _ < 2 ^ 32), Nat.mod_eq_of_lt, Nat.mod_eq_of_lt]
      · omega
      · omega

theorem min_adaptiveRetransmitsMin_le (ceiling : UInt8) :
    min adaptiveRetransmitsMin ceiling ≤ ceiling := by
  by_cases hle : adaptiveRetransmitsMin ≤ ceiling
  · rwa [show min adaptiveRetransmitsMin ceiling = adaptiveRetransmitsMin from if_pos hle]
  · rw [show min adaptiveRetransmitsMin ceiling = ceiling from if_neg hle]
    exact UInt8.le_refl ceiling

theorem hopPolicyAdaptiveRetransmits_mem {countMin countMax : UInt8} (h : countMin ≤ countMax)
    (ewmaX10 : UInt16) : countMin ≤ hopPolicyAdaptiveRetransmits ewmaX10 countMin countMax ∧
      hopPolicyAdaptiveRetransmits ewmaX10 countMin countMax ≤ countMax := by
  obtain ⟨hlow, hhigh⟩ := ramp_mem_Icc (UInt8.le_iff_toNat_le.mp h) 15 45 ewmaX10.toNat
  rw [← toNat_hopPolicyAdaptiveRetransmits h] at hlow hhigh
  exact ⟨UInt8.le_iff_toNat_le.mpr hlow, UInt8.le_iff_toNat_le.mpr hhigh⟩

/-- Whatever the pool, the radio retransmits within the configured ceiling. -/
theorem HopPeripheral.retransmitBudget_mem {config : HopConfig} (peripheral : HopPeripheral config)
    (ceiling : UInt8) : min adaptiveRetransmitsMin ceiling ≤ peripheral.retransmitBudget ceiling ∧
      peripheral.retransmitBudget ceiling ≤ ceiling := by
  have hfloor := min_adaptiveRetransmitsMin_le ceiling
  rw [HopPeripheral.retransmitBudget]
  split_ifs
  · exact ⟨hfloor, UInt8.le_refl ceiling⟩
  · exact hopPolicyAdaptiveRetransmits_mem hfloor peripheral.attemptsEwmaX10

/-- The average follows the samples without passing them or wrapping, and settles on a
sample that repeats. The budget it gives stays between the floor and the ceiling, whatever
the pool, rises with it, and is the floor up to one and a half attempts and the ceiling from
four and a half. -/
theorem adaptive_retransmits_settle :
    (∀ (start : UInt16) (samples : List UInt8) (sample : UInt8),
      let average := run hopPolicyEwmaUpdate start samples
      ((hopPolicyEwmaUpdate average sample).toNat : ℤ) = average.toNat + ewmaDelta average sample ∧
        (hopPolicyEwmaUpdate average sample).toNat ∈
          Set.uIcc average.toNat (10 * sample.toNat) ∧
        ∃ updates, ∀ more, updates ≤ more →
          (run hopPolicyEwmaUpdate average (List.replicate more sample)).toNat =
            10 * sample.toNat) ∧
      ∀ ceiling : UInt8,
        let floor := min adaptiveRetransmitsMin ceiling
        let budget := fun average => hopPolicyAdaptiveRetransmits average floor ceiling
        (∀ average, floor ≤ budget average ∧ budget average ≤ ceiling) ∧
          (∀ average average', average ≤ average' → budget average ≤ budget average') ∧
          (∀ average, average ≤ 15 → budget average = floor) ∧
          (∀ average, 45 ≤ average → budget average = ceiling) ∧
          ∀ (config : HopConfig) (peripheral : HopPeripheral config),
            floor ≤ peripheral.retransmitBudget ceiling ∧
              peripheral.retransmitBudget ceiling ≤ ceiling := by
  constructor
  · intro start samples sample average
    have htoward := hopPolicyEwmaUpdate_stepsToward sample
    refine ⟨toNat_hopPolicyEwmaUpdate average sample, ?_, ?_⟩
    · have hmem := Set.mem_uIcc.mp (htoward.mem_uIcc average)
      rw [Set.mem_uIcc]
      omega
    · refine ⟨((average.toNat : ℤ) - 10 * sample.toNat).natAbs, fun more hmore => ?_⟩
      rw [run_replicate]
      have hsettled := htoward.iterate hmore
      omega
  · intro ceiling floor budget
    have hfloor : floor ≤ ceiling := min_adaptiveRetransmitsMin_le ceiling
    have hramp := toNat_hopPolicyAdaptiveRetransmits hfloor
    have hbounds := UInt8.le_iff_toNat_le.mp hfloor
    refine ⟨hopPolicyAdaptiveRetransmits_mem hfloor, fun average average' hle => ?_,
      fun average hle => ?_, fun average hle => ?_,
      fun _ peripheral => peripheral.retransmitBudget_mem ceiling⟩
    · rw [UInt8.le_iff_toNat_le, hramp, hramp]
      exact ramp_mono hbounds 15 45 (UInt16.le_iff_toNat_le.mp hle)
    · exact if_pos hle
    · rw [← UInt8.toNat_inj, hramp]
      have hhigh : 45 ≤ average.toNat := UInt16.le_iff_toNat_le.mp hle
      exact ramp_of_ge (by omega) hhigh

end SplitEsb
