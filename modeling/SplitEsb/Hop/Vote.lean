import SplitEsb.Hop.Walk
import SplitEsb.Shared.RunTotal

/-! # What the vote weighs
The loss of a pipe is the total of its unbroken run of penalties since the last hop,
cut at 255, so the vote is a closed form over the history of the windows. -/

namespace SplitEsb

open ByteString RunTotal Transition

variable {config : HopConfig}

/-! ## Penalties -/

/-- The penalty of a pipe in a window, none for a pipe that did not poll. -/
def HopConfig.pipePenalty (config : HopConfig) (pipe : ℕ) (window : HopWindow) : ℕ :=
  if maskHasBit window.active pipe then
    (activePipePenalty window.motion window.rssiDbm config.rssiFloorDbm pipe).toNat
  else 0

/-- The penalties of the current run of a pipe over these windows. -/
def HopConfig.lossRun (config : HopConfig) (windows : List HopWindow) (pipe : ℕ) : ℕ :=
  runTotal (windows.map (config.pipePenalty pipe))

theorem HopConfig.pipePenalty_of_idle {pipe : ℕ} {window : HopWindow}
    (h : maskHasBit window.active pipe = false) : config.pipePenalty pipe window = 0 := by
  simp [pipePenalty, h]

/-- A pipe without a penalty in the last window has no run. -/
theorem HopConfig.lossRun_of_clean {pipe : ℕ} {window : HopWindow}
    (h : config.pipePenalty pipe window = 0) (windows : List HopWindow) :
    config.lossRun (windows ++ [window]) pipe = 0 := by
  simp [lossRun, runTotal_concat, h]

theorem toNat_hopPolicySaturatingAdd (value add : UInt8) :
    (hopPolicySaturatingAdd value add).toNat = min 255 (value.toNat + add.toNat) := by
  have hvalue := value.toNat_lt
  have hadd := add.toNat_lt
  have hroom : (255 - add : UInt8).toNat = 255 - add.toNat :=
    UInt8.toNat_sub_of_le _ _ (UInt8.le_iff_toNat_le.mpr (by change _ ≤ 255; omega))
  rw [hopPolicySaturatingAdd]
  by_cases habove : value > 255 - add
  · rw [if_pos habove]
    rw [gt_iff_lt, UInt8.lt_iff_toNat_lt, hroom] at habove
    change 255 = _
    omega
  · rw [if_neg habove, UInt8.toNat_add]
    rw [gt_iff_lt, UInt8.lt_iff_toNat_lt, hroom] at habove
    omega

/-- A window adds to the loss of a pipe as one step of the accumulator. -/
theorem toNat_hopPolicyAccrueLoss (linkLoss : ℕ → UInt8) (window : HopWindow) {pipe : ℕ}
    (hpipe : pipe < config.peripheralCount) :
    (hopPolicyAccrueLoss linkLoss config.peripheralCount window.motion window.active
      window.rssiDbm config.rssiFloorDbm pipe).toNat =
      accumulate 255 (linkLoss pipe).toNat (config.pipePenalty pipe window) := by
  rw [hopPolicyAccrueLoss, if_neg (by omega), HopConfig.pipePenalty]
  cases hactive : maskHasBit window.active pipe with
  | false => simp [accumulate]
  | true =>
      simp only [Bool.not_true, Bool.false_eq_true, if_false, if_true]
      by_cases hzero : activePipePenalty window.motion window.rssiDbm config.rssiFloorDbm pipe = 0
      · simp [hzero, accumulate]
      · have hne : (activePipePenalty window.motion window.rssiDbm config.rssiFloorDbm pipe).toNat ≠ 0 :=
          fun h => hzero (UInt8.toNat_inj.mp h)
        rw [if_neg hzero, toNat_hopPolicySaturatingAdd, accumulate, if_neg hne]

namespace HopCentral

/-! ## The windows since the last hop -/

/-- `decision_work_fn` hops by vote; a fixed link takes no vote. -/
def hopsByVote (central : HopCentral config) (window : HopWindow) : Bool :=
  decide (1 < config.hopCount) && (central.observe window).votesHop

/-- A window, with the windows since the last hop by vote or out of silence. -/
def windowSinceHop (state : HopCentral config × List HopWindow) (window : HopWindow) :
    HopCentral config × List HopWindow :=
  ((state.1.decisionWork window).1,
    if (state.1.hopCalls window).isEmpty then state.2 ++ [window] else [])

theorem run_windowSinceHop_fst (central : HopCentral config) (since windows : List HopWindow) :
    (run windowSinceHop (central, since) windows).1 = central.runWindows windows := by
  induction windows generalizing central since with
  | nil => rfl
  | cons window windows ih => exact ih ..

/-! ## The loss is the run -/

/-- Each loss is the total of its pipe's run since the last hop. -/
structure LossRuns (central : HopCentral config) (since : List HopWindow) : Prop where
  ready : central.maskReady = true
  loss : ∀ pipe < config.peripheralCount,
    (central.pipeLoss pipe).toNat = min 255 (config.lossRun since pipe)

/-- What the vote of a window weighs. -/
theorem LossRuns.observe {central : HopCentral config} {since : List HopWindow}
    (h : central.LossRuns since) (window : HopWindow) :
    (central.observe window).LossRuns (since ++ [window]) := by
  refine ⟨?_, fun pipe hpipe => ?_⟩
  · have htuning := congrArg (fun parts => parts.2.2.2) (observe_tuning h.ready window)
    exact htuning.trans h.ready
  · rw [pipeLoss_observe h.ready, accrueLoss]
    dsimp only
    rw [toNat_hopPolicyAccrueLoss _ _ hpipe, h.loss pipe hpipe, HopConfig.lossRun,
      accumulate_runTotal, HopConfig.lossRun, List.map_append, List.map_singleton]

/-- A hop of any kind clears every loss. -/
theorem LossRuns.hopToNextEpoch {central : HopCentral config} (hready : central.maskReady = true) :
    central.hopToNextEpoch.LossRuns [] := by
  refine ⟨?_, fun pipe hpipe => ?_⟩
  · simp only [HopCentral.hopToNextEpoch, commitPendingMask]
    split_ifs <;> exact hready
  · simp [HopCentral.hopToNextEpoch, clearPipeLoss, hpipe, HopConfig.lossRun]

theorem LossRuns.hopOnVote {central : HopCentral config} {since : List HopWindow}
    (h : central.LossRuns since) :
    central.hopOnVote.LossRuns (if central.votesHop then [] else since) := by
  rw [HopCentral.hopOnVote]
  split_ifs
  · exact .hopToNextEpoch h.ready
  · exact h

theorem LossRuns.hopOutOfSilence {central : HopCentral config} {since : List HopWindow}
    (h : central.LossRuns since) :
    central.hopOutOfSilence.LossRuns (if central.escapesSilence then [] else since) := by
  rw [HopCentral.hopOutOfSilence]
  split_ifs
  · exact .hopToNextEpoch h.ready
  · exact h

theorem LossRuns.of_skeleton {central other : HopCentral config} {since : List HopWindow}
    (h : central.LossRuns since) (hskeleton : other.skeleton = central.skeleton) :
    other.LossRuns since := by
  have hready := congrArg HopCentral.maskReady hskeleton
  have hloss := congrArg HopCentral.pipeLoss hskeleton
  exact ⟨hready.trans h.ready, fun pipe hpipe => (congrArg UInt8.toNat (congrFun hloss pipe)).trans
    (h.loss pipe hpipe)⟩

theorem LossRuns.decisionWork {central : HopCentral config} {since : List HopWindow}
    (h : central.LossRuns since) (hcount : 1 < config.hopCount) (window : HopWindow) :
    (central.decisionWork window).1.LossRuns (windowSinceHop (central, since) window).2 := by
  have hhopped := (h.observe window).hopOnVote.hopOutOfSilence
  have hsince : (windowSinceHop (central, since) window).2 =
      if (central.observe window).hopOnVote.escapesSilence then []
      else if (central.observe window).votesHop then [] else since ++ [window] := by
    rw [windowSinceHop, hopCalls, if_neg (Nat.not_le.mpr hcount)]
    dsimp only
    by_cases hescape : (central.observe window).hopOnVote.escapesSilence = true
    · simp [hescape]
    · by_cases hvote : (central.observe window).votesHop = true <;> simp [hescape, hvote]
  rw [hsince, decisionWork_fst hcount]
  exact (hhopped.of_skeleton (stageBeacon_skeleton _ window)).of_skeleton
    (stageMaskUpdate_skeleton _ window)

theorem LossRuns.run {central : HopCentral config} {since : List HopWindow}
    (h : central.LossRuns since) (hcount : 1 < config.hopCount) (windows : List HopWindow) :
    (run windowSinceHop (central, since) windows).1.LossRuns
      (run windowSinceHop (central, since) windows).2 :=
  @run_invariant _ _ windowSinceHop (fun state => state.1.LossRuns state.2)
    (fun _ window hstate => hstate.decisionWork hcount window) _ h windows

/-- Boot accrues nothing. -/
theorem boot_pipeLoss (config : HopConfig) (stored : Option Bytes) (energyDbm : ℕ → Int8) :
    (boot config stored energyDbm).pipeLoss = fun _ => 0 := by
  rw [boot, hopBootMask]
  split_ifs
  · rfl
  · dsimp only
    cases stored.bind (hopMaskSettingsSet config) <;> split_ifs <;> rfl

theorem LossRuns.boot (hcount : 1 < config.hopCount) (stored : Option Bytes)
    (energyDbm : ℕ → Int8) : (HopCentral.boot config stored energyDbm).LossRuns [] := by
  refine ⟨(Tuned.boot config stored energyDbm).maskReady hcount, fun pipe _ => ?_⟩
  simp [boot_pipeLoss, HopConfig.lossRun]

/-- The vote sums the runs up to and with this window. -/
theorem LossRuns.hopsByVote_iff {central : HopCentral config} {since : List HopWindow}
    (h : central.LossRuns since) (hcount : 1 < config.hopCount) (window : HopWindow) :
    central.hopsByVote window = true ↔ config.hopThreshold.toNat ≤
      ((List.range config.peripheralCount).map fun pipe =>
        min 255 (config.lossRun (since ++ [window]) pipe) * (config.pipeWeights.getD pipe 0).toNat).sum := by
  have hweighted : ((List.range config.peripheralCount).map fun pipe =>
      min 255 (config.lossRun (since ++ [window]) pipe) * (config.pipeWeights.getD pipe 0).toNat) =
      (List.range config.pipeWeights.length).map fun pipe =>
        ((central.observe window).pipeLoss pipe).toNat * (config.pipeWeights.getD pipe 0).toNat := by
    refine List.map_congr_left fun pipe hmem => ?_
    rw [(h.observe window).loss pipe (List.mem_range.mp hmem)]
  simp only [hopsByVote, hcount, decide_true, Bool.true_and, votesHop, hopPolicyHopVote, hweighted,
    decide_eq_true_eq]

/-- The vote of every window weighs each pipe's run of penalties since the last hop. A
pipe without a penalty weighs nothing, so windows nobody polls in never vote a hop. -/
theorem hop_vote_exact (config : HopConfig) (hcount : 1 < config.hopCount)
    (hthreshold : 1 ≤ config.hopThreshold) (stored : Option Bytes) (energyDbm : ℕ → Int8)
    (windows : List HopWindow) (window : HopWindow) :
    let state := run windowSinceHop (boot config stored energyDbm, []) windows
    state.1 = (boot config stored energyDbm).runWindows windows ∧
      (state.1.hopsByVote window = true ↔ config.hopThreshold.toNat ≤
        ((List.range config.peripheralCount).map fun pipe =>
          min 255 (config.lossRun (state.2 ++ [window]) pipe) *
            (config.pipeWeights.getD pipe 0).toNat).sum) ∧
      (∀ pipe, config.pipePenalty pipe window = 0 → config.lossRun (state.2 ++ [window]) pipe = 0) ∧
      ((∀ pipe < config.peripheralCount, maskHasBit window.active pipe = false) →
        state.1.hopsByVote window = false) := by
  intro state
  have hvote := ((LossRuns.boot hcount stored energyDbm).run hcount windows).hopsByVote_iff hcount window
  refine ⟨run_windowSinceHop_fst _ _ windows, hvote, fun pipe hclean => HopConfig.lossRun_of_clean hclean _, fun hidle => ?_⟩
  have hnone : ∀ pipe ∈ List.range config.peripheralCount,
      min 255 (config.lossRun (state.2 ++ [window]) pipe) * (config.pipeWeights.getD pipe 0).toNat = 0 := by
    intro pipe hmem
    have hclean := config.pipePenalty_of_idle (hidle pipe (List.mem_range.mp hmem))
    simp [HopConfig.lossRun_of_clean hclean]
  have hsum : ((List.range config.peripheralCount).map fun pipe =>
      min 255 (config.lossRun (state.2 ++ [window]) pipe) *
        (config.pipeWeights.getD pipe 0).toNat).sum = 0 := by
    refine List.sum_eq_zero fun weighted hmem => ?_
    obtain ⟨pipe, hpipe, rfl⟩ := List.mem_map.mp hmem
    exact hnone pipe hpipe
  rw [hsum] at hvote
  refine Bool.eq_false_iff.mpr fun hhops => ?_
  have hzero : config.hopThreshold.toNat ≤ 0 := hvote.mp hhops
  have hone : 1 ≤ config.hopThreshold.toNat := UInt16.le_iff_toNat_le.mp hthreshold
  omega

/-- The run of a keyboard that polled without motion for six windows carries the vote. -/
theorem hop_vote_exact_sample :
    (run windowSinceHop (boot sampleHopConfig none fun _ => -100, [])
      (List.replicate 5 lostWindow)).1.hopsByVote lostWindow = true :=
  (hop_vote_exact sampleHopConfig (by decide) (by decide) none _ _ lostWindow).2.1.mpr
    (by decide +kernel)

end HopCentral

end SplitEsb
