import SplitEsb.Hop.Central
import SplitEsb.Shared.Transition

/-! # Where the central is tuned
The central's channel is always the one its epoch and mask map to. A hop maps the
next epoch, so it leaves a channel only when the mapping happens to. -/

namespace SplitEsb

open ByteString CyclicProbe

variable {config : HopConfig}

namespace HopCentral

def runWindows (central : HopCentral config) (windows : List HopWindow) : HopCentral config :=
  Transition.run (fun central window => (central.decisionWork window).1) central windows

/-! ## What a window leaves alone -/

/-- The state but for the bookkeeping a window rewrites and what staging counts. -/
def skeleton (central : HopCentral config) : HopCentral config :=
  { central with
    pipeWasLost := fun _ => false
    beaconedEpoch := 0
    beaconRepeatsLeft := 0
    beaconWindow := 0
    channelBad := fun _ => 0
    channelMaskedWindows := fun _ => 0
    channelActiveWindows := fun _ => 0
    channelRetestLevel := fun _ => 0
    pendingMask := Vector.replicate _ 0
    pendingValid := false
    maskUpdateRepeats := 0
    maskWindow := 0 }

theorem scoreCurrentChannel_skeleton (central : HopCentral config) (window : HopWindow) :
    (central.scoreCurrentChannel window).skeleton = central.skeleton := by
  rw [scoreCurrentChannel]
  split <;> rfl

theorem recomputeChannel_skeleton (active : UInt32) (state : HopCentral config × Bool)
    (channel : ℕ) : (recomputeChannel active state channel).1.skeleton = state.1.skeleton := by
  simp only [recomputeChannel]
  split_ifs <;> rfl

theorem foldl_recomputeChannel_skeleton (active : UInt32) (state : HopCentral config × Bool)
    (channels : List ℕ) :
    (channels.foldl (recomputeChannel active) state).1.skeleton = state.1.skeleton := by
  induction channels generalizing state with
  | nil => rfl
  | cons channel channels ih => rw [List.foldl_cons, ih, recomputeChannel_skeleton]

theorem maskWorstChannel_skeleton (state : HopCentral config × Bool) :
    (maskWorstChannel state).1.skeleton = state.1.skeleton := by
  simp only [maskWorstChannel]
  split_ifs <;> rfl

theorem ensureMask_of_ready {central : HopCentral config} (hready : central.maskReady = true) :
    central.ensureMask = central := by
  rw [ensureMask, if_pos hready]

theorem recomputeMask_skeleton {central : HopCentral config} (hready : central.maskReady = true)
    (active : UInt32) : (central.recomputeMask active).skeleton = central.skeleton := by
  have hloop := maskWorstChannel_skeleton
    ((List.range config.hopCount).foldl (recomputeChannel active) (central.ensureMask, false))
  rw [foldl_recomputeChannel_skeleton, ensureMask_of_ready hready] at hloop
  rw [← hloop, recomputeMask, ensureMask_of_ready hready]
  dsimp only
  split <;> rfl

theorem countSilence_skeleton (central : HopCentral config) (heard : UInt32) :
    (central.countSilence heard).skeleton = central.skeleton.countSilence heard := by
  simp only [countSilence]
  split <;> rfl

/-- Before the hops, a window accrues loss and counts silence. -/
theorem observe_skeleton {central : HopCentral config} (hready : central.maskReady = true)
    (window : HopWindow) : (central.observe window).skeleton =
      (central.accrueLoss window).skeleton.countSilence window.heard := by
  have hscore := scoreCurrentChannel_skeleton (central.accrueLoss window) window
  have hready' : ((central.accrueLoss window).scoreCurrentChannel window).maskReady = true :=
    (congrArg maskReady hscore).trans hready
  rw [observe, countSilence_skeleton]
  exact congrArg (countSilence · window.heard)
    ((recomputeMask_skeleton hready' window.active).trans hscore)

theorem pipeLoss_observe {central : HopCentral config} (hready : central.maskReady = true)
    (window : HopWindow) : (central.observe window).pipeLoss = (central.accrueLoss window).pipeLoss := by
  have hskeleton := congrArg HopCentral.pipeLoss (observe_skeleton hready window)
  rw [countSilence] at hskeleton
  split at hskeleton <;> exact hskeleton

theorem stageBeacon_skeleton (central : HopCentral config) (window : HopWindow) :
    (central.stageBeacon window).1.skeleton = central.skeleton := rfl

theorem stageMaskUpdate_skeleton (central : HopCentral config) (window : HopWindow) :
    (central.stageMaskUpdate window).1.skeleton = central.skeleton := by
  simp only [stageMaskUpdate]
  split_ifs <;> rfl

/-- The part of the state that only a hop changes once the masks are set up. -/
def tuning (central : HopCentral config) : UInt8 × ℕ × HopMask config.hopCount × Bool :=
  (central.hopEpoch, central.hopIndex, central.activeMask, central.maskReady)

theorem tuning_of_skeleton {central other : HopCentral config}
    (h : other.skeleton = central.skeleton) : other.tuning = central.tuning := by
  have htuning := congrArg tuning h
  exact htuning

theorem observe_tuning {central : HopCentral config} (hready : central.maskReady = true)
    (window : HopWindow) : (central.observe window).tuning = central.tuning := by
  have htuning := congrArg tuning (observe_skeleton hready window)
  rw [countSilence] at htuning
  split at htuning <;> exact htuning

theorem stageBeacon_tuning (central : HopCentral config) (window : HopWindow) :
    (central.stageBeacon window).1.tuning = central.tuning := rfl

theorem stageMaskUpdate_tuning (central : HopCentral config) (window : HopWindow) :
    (central.stageMaskUpdate window).1.tuning = central.tuning :=
  tuning_of_skeleton (stageMaskUpdate_skeleton central window)

/-! ## The channel follows the epoch -/

structure Tuned (central : HopCentral config) : Prop where
  hopIndex_eq : central.hopIndex =
    hopPolicyChannelForEpochMasked central.hopEpoch.toUInt16 central.activeMask config.hopCount
  maskReady : 1 < config.hopCount → central.maskReady = true

theorem Tuned.of_tuning {central other : HopCentral config} (h : central.Tuned)
    (htuning : other.tuning = central.tuning) : other.Tuned := by
  obtain ⟨hepoch, hindex, hmask, hready⟩ : other.hopEpoch = central.hopEpoch ∧
      other.hopIndex = central.hopIndex ∧ other.activeMask = central.activeMask ∧
      other.maskReady = central.maskReady := by
    simpa only [tuning, Prod.mk.injEq] using htuning
  refine ⟨?_, fun hcount => hready.trans (h.maskReady hcount)⟩
  rw [hindex, hepoch, hmask]
  exact h.hopIndex_eq

theorem Tuned.hopIndex_lt {central : HopCentral config} (h : central.Tuned) :
    central.hopIndex < config.hopCount := by
  rw [h.hopIndex_eq]
  exact hopPolicyChannelForEpochMasked_lt _ _ config.hopChannels_pos

theorem Tuned.hopToNextEpoch {central : HopCentral config} (h : central.Tuned) :
    central.hopToNextEpoch.Tuned := by
  refine ⟨rfl, fun hcount => ?_⟩
  have hready := h.maskReady hcount
  simp only [HopCentral.hopToNextEpoch, commitPendingMask]
  split_ifs <;> exact hready

theorem Tuned.observe {central : HopCentral config} (h : central.Tuned)
    (hcount : 1 < config.hopCount) (window : HopWindow) : (central.observe window).Tuned :=
  h.of_tuning (observe_tuning (h.maskReady hcount) window)

theorem Tuned.hopOnVote {central : HopCentral config} (h : central.Tuned) :
    central.hopOnVote.Tuned := by
  rw [HopCentral.hopOnVote]
  split_ifs
  · exact h.hopToNextEpoch
  · exact h

theorem Tuned.hopOutOfSilence {central : HopCentral config} (h : central.Tuned) :
    central.hopOutOfSilence.Tuned := by
  rw [HopCentral.hopOutOfSilence]
  split_ifs
  · exact Tuned.hopToNextEpoch ⟨h.hopIndex_eq, h.maskReady⟩
  · exact h

/-- The hops and the staging of a window over more than one channel. -/
theorem decisionWork_fst {central : HopCentral config} (hcount : 1 < config.hopCount)
    (window : HopWindow) : (central.decisionWork window).1 =
      (((central.observe window).hopOnVote.hopOutOfSilence.stageBeacon window).1.stageMaskUpdate
        window).1 := by
  rw [decisionWork, if_neg (by omega)]

theorem Tuned.decisionWork {central : HopCentral config} (h : central.Tuned)
    (window : HopWindow) : (central.decisionWork window).1.Tuned := by
  by_cases hcount : config.hopCount ≤ 1
  · rw [HopCentral.decisionWork, if_pos hcount]
    exact h.of_tuning (stageBeacon_tuning central window)
  · have hhop := ((h.observe (by omega) window).hopOnVote).hopOutOfSilence
    rw [decisionWork_fst (by omega)]
    exact (hhop.of_tuning (stageBeacon_tuning _ window)).of_tuning (stageMaskUpdate_tuning _ window)

theorem Tuned.ensureMask_zero (config : HopConfig) : (zero config).ensureMask.Tuned := by
  refine ⟨(hopPolicyChannelForEpochMasked_of_active ?_ ?_).symm, fun _ => rfl⟩
  · exact (Nat.zero_mod _).symm
  · exact (hopPolicyMaskGet_fillMask _ _ config.hopChannels_pos).trans rfl

/-- Boot starts on the channel of its epoch, whatever it masks. -/
theorem Tuned.boot (config : HopConfig) (stored : Option Bytes) (energyDbm : ℕ → Int8) :
    (boot config stored energyDbm).Tuned := by
  rw [HopCentral.boot, hopBootMask]
  split_ifs with hcount
  · have hone : config.hopCount = 1 := by
      have : 0 < config.hopCount := config.hopChannels_pos
      omega
    refine ⟨?_, fun h => by omega⟩
    have := hopPolicyChannelForEpochMasked_lt (0 : UInt16) (zero config).activeMask
      config.hopChannels_pos
    exact (Nat.lt_one_iff.mp (hone ▸ this)).symm
  · have hready := Tuned.ensureMask_zero config
    dsimp only
    cases stored.bind (hopMaskSettingsSet config) with
    | none =>
        split_ifs
        · exact hready.of_tuning rfl
        · exact ⟨rfl, fun _ => rfl⟩
    | some persisted =>
        split_ifs
        · exact hready.of_tuning rfl
        · exact ⟨rfl, fun _ => rfl⟩

theorem Tuned.run (config : HopConfig) (stored : Option Bytes) (energyDbm : ℕ → Int8)
    (windows : List HopWindow) : (runWindows (HopCentral.boot config stored energyDbm) windows).Tuned :=
  Transition.run_invariant (fun _ window h => h.decisionWork window)
    (Tuned.boot config stored energyDbm) windows

/-! ## Hops and the channel they leave -/

/-- The states in which a window calls `hop_to_next_epoch`, in order: for the vote,
and for the silent escape. -/
def hopCalls (central : HopCentral config) (window : HopWindow) : List (HopCentral config) :=
  if config.hopCount ≤ 1 then []
  else
    let observed := central.observe window
    let voted := observed.hopOnVote
    (if observed.votesHop then [observed] else []) ++
      if voted.escapesSilence then [voted.noteEscape.clearSilence] else []

theorem hopToNextEpoch_hopEpoch (before : HopCentral config) :
    before.hopToNextEpoch.hopEpoch = before.hopEpoch + 1 := by
  simp only [hopToNextEpoch, commitPendingMask]
  split_ifs <;> rfl

theorem hopToNextEpoch_hopIndex (before : HopCentral config) :
    before.hopToNextEpoch.hopIndex = hopPolicyChannelForEpochMasked
      (before.hopEpoch + 1).toUInt16 before.commitPendingMask.activeMask config.hopCount := by
  simp only [hopToNextEpoch, commitPendingMask]
  split_ifs <;> rfl

theorem hopOnVote_hopEpoch (central : HopCentral config) : central.hopOnVote.hopEpoch =
    central.hopEpoch + if central.votesHop then 1 else 0 := by
  rw [hopOnVote]
  split_ifs
  · exact hopToNextEpoch_hopEpoch central
  · exact (UInt8.add_zero _).symm

theorem hopOutOfSilence_hopEpoch (central : HopCentral config) : central.hopOutOfSilence.hopEpoch =
    central.hopEpoch + if central.escapesSilence then 1 else 0 := by
  rw [hopOutOfSilence]
  split_ifs
  · exact hopToNextEpoch_hopEpoch _
  · exact (UInt8.add_zero _).symm

/-- The epoch moves once for every call, so no call is missed. -/
theorem decisionWork_hopEpoch {central : HopCentral config} (htuned : central.Tuned)
    (window : HopWindow) : (central.decisionWork window).1.hopEpoch =
      central.hopEpoch + UInt8.ofNat (central.hopCalls window).length := by
  rw [hopCalls]
  by_cases hcount : config.hopCount ≤ 1
  · rw [decisionWork, if_pos hcount, if_pos hcount]
    exact (UInt8.add_zero _).symm
  · have hobserve : (central.observe window).hopEpoch = central.hopEpoch :=
      congrArg Prod.fst (observe_tuning (htuned.maskReady (by omega)) window)
    have hstage : ∀ hopped : HopCentral config,
        ((hopped.stageBeacon window).1.stageMaskUpdate window).1.hopEpoch = hopped.hopEpoch :=
      fun hopped => congrArg Prod.fst
        ((stageMaskUpdate_tuning _ window).trans (stageBeacon_tuning hopped window))
    rw [decisionWork_fst (by omega), if_neg hcount]
    dsimp only
    rw [hstage, hopOutOfSilence_hopEpoch, hopOnVote_hopEpoch, hobserve, UInt8.add_assoc]
    split_ifs <;> rfl

/-- The mask after the commit either leaves out the channel the hop is called on,
or has another active channel on the way to it from the next epoch's place. -/
def LeavesChannel (before : HopCentral config) : Prop :=
  let mask := before.commitPendingMask.activeMask
  let base := (before.hopEpoch + 1).toNat % config.hopCount
  hopPolicyMaskGet mask before.hopIndex = false ∨
    ∃ step < distance config.hopCount base before.hopIndex,
      hopPolicyMaskGet mask ((base + step) % config.hopCount) = true

instance (before : HopCentral config) : Decidable before.LeavesChannel :=
  inferInstanceAs (Decidable (_ ∨ _))

theorem observe_mem_hopCalls {central : HopCentral config} {window : HopWindow}
    (hcount : 1 < config.hopCount) (hvote : (central.observe window).votesHop = true) :
    central.observe window ∈ central.hopCalls window := by
  rw [hopCalls, if_neg (by omega)]
  exact List.mem_append_left _ (by rw [if_pos hvote]; exact List.mem_singleton_self _)

theorem Tuned.hopCalls {central before : HopCentral config} (htuned : central.Tuned)
    {window : HopWindow} (hcall : before ∈ central.hopCalls window) : before.Tuned := by
  rw [HopCentral.hopCalls] at hcall
  split_ifs at hcall with hcount
  · cases hcall
  · have hobserved := htuned.observe (by omega) window
    rcases List.mem_append.mp hcall with hmem | hmem
    · split at hmem
      · rw [List.mem_singleton.mp hmem]
        exact hobserved
      · cases hmem
    · split at hmem
      · rw [List.mem_singleton.mp hmem]
        exact ⟨hobserved.hopOnVote.hopIndex_eq, hobserved.hopOnVote.maskReady⟩
      · cases hmem

end HopCentral

open HopCentral

/-- In every window of every run a hop leaves its channel exactly when the mask and
the next epoch let it, and the window moves the epoch once for every hop counted here. -/
theorem hop_leaves_channel_iff (config : HopConfig) (stored : Option Bytes) (energyDbm : ℕ → Int8)
    (windows : List HopWindow) (window : HopWindow) :
    let central := (boot config stored energyDbm).runWindows windows
    (∀ before ∈ central.hopCalls window,
      2 ≤ hopPolicyMaskActiveCount before.commitPendingMask.activeMask config.hopCount →
        (before.hopToNextEpoch.hopIndex ≠ before.hopIndex ↔ before.LeavesChannel)) ∧
      (central.decisionWork window).1.hopEpoch =
        central.hopEpoch + UInt8.ofNat (central.hopCalls window).length := by
  intro central
  have htuned : central.Tuned := Tuned.run config stored energyDbm windows
  refine ⟨fun before hcall hactive => ?_, decisionWork_hopEpoch htuned window⟩
  have hlt := (htuned.hopCalls hcall).hopIndex_lt
  have hsmall : (before.hopEpoch + 1).toUInt16.toNat = (before.hopEpoch + 1).toNat :=
    UInt8.toNat_toUInt16 _
  rw [hopToNextEpoch_hopIndex, hopPolicyChannelForEpochMasked_ne_iff (by omega) hlt, hsmall]
  rfl

/-- A pool of four channels with the default anchors, and one keyboard half. -/
def sampleHopConfig : HopConfig where
  hopChannels := [74, 75, 76, 77]
  hopAnchors := none
  pipeWeights := [1]
  selfPipe _ := false
  wirePipe _ := false
  hopThreshold := 24
  hopMaskThreshold := 16
  hopRestoreWindows := 64
  hopMinActive := 2
  rssiFloorDbm := -85
  surveyThresholdDbm := -65
  hopWindowMs := 32
  idleKeepaliveMs := 128
  hopChannels_pos := by decide
  hopChannels_lt := by decide
  hopAnchors_ne_nil := by simp
  hopAnchors_subset := by simp
  beacon_fits := by decide
  maskUpdate_fits := by decide

/-- The second channel of the pool is noisy at boot. -/
def noisySecondChannel (channel : ℕ) : Int8 := if channel = 1 then -50 else -100

/-- The keyboard polled, and none of its motion arrived. -/
def lostWindow : HopWindow where
  heard := 1
  motion := 0
  active := 1
  rssiDbm _ := -60
  quietMs _ := 0
  updateQuietMs _ := 0
  peers _ := ⟨100, -60⟩
  hidModifiers := 0
  hidIndicators := 0
  wireUp := false

/-- The central after five lost windows, one short of the threshold. -/
def afterLostWindows (energyDbm : ℕ → Int8) : HopCentral sampleHopConfig :=
  (boot sampleHopConfig none energyDbm).runWindows (List.replicate 5 lostWindow)

/-- The sixth lost window hops from the third channel to the third channel. -/
theorem hop_stays_on_channel : ¬ ∀ (config : HopConfig) (stored : Option Bytes)
    (energyDbm : ℕ → Int8) (windows : List HopWindow) (window : HopWindow),
    2 ≤ config.hopCount →
    ∀ before ∈ ((boot config stored energyDbm).runWindows windows).hopCalls window,
      2 ≤ hopPolicyMaskActiveCount before.commitPendingMask.activeMask config.hopCount →
      before.hopToNextEpoch.hopIndex ≠ before.hopIndex := by
  intro h
  have hcall : (afterLostWindows noisySecondChannel).observe lostWindow ∈
      (afterLostWindows noisySecondChannel).hopCalls lostWindow :=
    observe_mem_hopCalls (by decide) (by decide +kernel)
  refine h sampleHopConfig none noisySecondChannel (List.replicate 5 lostWindow) lostWindow
    (by decide) _ hcall (by decide +kernel) ?_
  decide +kernel

/-- With every channel quiet the same window leaves the channel. -/
theorem hop_leaves_channel_iff_sample :
    let voting := (afterLostWindows fun _ => -100).observe lostWindow
    voting.hopToNextEpoch.hopIndex ≠ voting.hopIndex :=
  ((hop_leaves_channel_iff sampleHopConfig none (fun _ => -100) (List.replicate 5 lostWindow)
    lostWindow).1 _ (observe_mem_hopCalls (by decide) (by decide +kernel)) (by decide +kernel)).mpr
    (by decide +kernel)

end SplitEsb
