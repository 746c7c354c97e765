import SplitEsb.Hop.Tuning

/-! # What masking keeps
The running engine edits a mask in two ways: a channel comes back, or the worst
channel that is no anchor leaves while more than the floor are active. What both
edits keep holds of both masks from boot on. -/

namespace SplitEsb

open BitTable ByteString CyclicProbe

variable {config : HopConfig}

/-! ## Anchors -/

theorem HopConfig.anchorIndices_lt {channel : ℕ} (h : channel ∈ config.anchorIndices) :
    channel < config.hopCount := by
  rw [HopConfig.anchorIndices] at h
  cases hanchors : config.hopAnchors with
  | some anchors =>
      rw [hanchors] at h
      obtain ⟨anchor, hmem, rfl⟩ := List.mem_map.mp h
      exact List.idxOf_lt_length_of_mem (config.hopAnchors_subset anchors hanchors hmem)
  | none =>
      rw [hanchors] at h
      obtain ⟨slot, hmem, rfl⟩ := List.mem_map.mp h
      have hslot : slot < min 3 config.hopCount := List.mem_range.mp hmem
      refine Nat.div_lt_of_lt_mul ?_
      have hpool : 0 < config.hopCount := config.hopChannels_pos
      calc config.hopCount * (2 * slot + 1) < config.hopCount * (2 * min 3 config.hopCount) :=
            Nat.mul_lt_mul_of_pos_left (by omega) hpool
        _ = 2 * min 3 config.hopCount * config.hopCount := Nat.mul_comm ..

theorem HopConfig.anchorIndices_ne_nil (config : HopConfig) : config.anchorIndices ≠ [] := by
  rw [HopConfig.anchorIndices]
  cases hanchors : config.hopAnchors with
  | some anchors =>
      have hne : anchors ≠ [] := fun hnil => config.hopAnchors_ne_nil (hnil ▸ hanchors)
      simpa using hne
  | none =>
      have hpool : 0 < config.hopCount := config.hopChannels_pos
      simp only [ne_eq, List.map_eq_nil_iff, List.range_eq_nil]
      omega

/-! ## Mask edits -/

/-- What the two edits of the running engine keep. -/
structure MaskRule (config : HopConfig) (P : HopMask config.hopCount → Prop) : Prop where
  admits : ∀ (mask : HopMask config.hopCount) (channel : ℕ), channel < config.hopCount → P mask →
    P (hopPolicyMaskSet mask channel true)
  bench : ∀ (mask : HopMask config.hopCount) (channel : ℕ), channel < config.hopCount →
    config.hopIsAnchorIndex channel = false → hopPolicyMaskGet mask channel = true →
    config.hopMinActive.toNat < hopPolicyMaskActiveCount mask config.hopCount → P mask →
    P (hopPolicyMaskSet mask channel false)

/-- The anchor mask holds the anchors. -/
def AnchorMask (mask : HopMask config.hopCount) : Prop :=
  ∀ channel < config.hopCount, hopPolicyMaskGet mask channel = config.hopIsAnchorIndex channel

variable {P : HopMask config.hopCount → Prop}

theorem MaskRule.survey (rule : MaskRule config P) {energyDbm : ℕ → Int8}
    {anchorMask mask : HopMask config.hopCount} {thresholdDbm : Int8}
    (hanchors : AnchorMask anchorMask) (hmask : P mask) :
    P (hopPolicySurveyMask energyDbm anchorMask config.hopMinActive.toNat thresholdDbm mask).1 := by
  fun_induction hopPolicySurveyMask energyDbm anchorMask config.hopMinActive.toNat thresholdDbm mask
  case case1 => exact hmask
  case case2 mask habove eligible worst hfound left masked hrec ih =>
    obtain ⟨hlt, heligible⟩ := eligible_of_worstEligible hfound
    simp only [eligible, Bool.and_eq_true, Bool.not_eq_true'] at heligible
    have hplain : config.hopIsAnchorIndex worst = false :=
      (hanchors worst hlt).symm.trans heligible.1.1
    have hleft := ih (rule.bench mask worst hlt hplain heligible.1.2 habove hmask)
    rw [hrec] at hleft
    exact hleft
  case case3 => exact hmask

namespace HopCentral

/-- Both masks have the property, and the engine knows its anchors. -/
structure MaskSafe (P : HopMask config.hopCount → Prop) (central : HopCentral config) : Prop where
  active : P central.activeMask
  pending : P central.pendingMask
  anchors : AnchorMask central.anchorMask
  ready : central.maskReady = true

/-- The part of the state masking is about. -/
def maskParts (central : HopCentral config) :
    HopMask config.hopCount × HopMask config.hopCount × HopMask config.hopCount × Bool :=
  (central.activeMask, central.pendingMask, central.anchorMask, central.maskReady)

theorem MaskSafe.of_maskParts {central other : HopCentral config} (h : central.MaskSafe P)
    (hparts : other.maskParts = central.maskParts) : other.MaskSafe P := by
  obtain ⟨hactive, hpending, hanchor, hready⟩ : other.activeMask = central.activeMask ∧
      other.pendingMask = central.pendingMask ∧ other.anchorMask = central.anchorMask ∧
      other.maskReady = central.maskReady := by
    simpa only [maskParts, Prod.mk.injEq] using hparts
  refine ⟨?_, ?_, ?_, hready.trans h.ready⟩
  · rw [hactive]
    exact h.active
  · rw [hpending]
    exact h.pending
  · rw [hanchor]
    exact h.anchors

/-! ## One window -/

theorem MaskSafe.scoreCurrentChannel {central : HopCentral config} (h : central.MaskSafe P)
    (window : HopWindow) : (central.scoreCurrentChannel window).MaskSafe P := by
  rw [HopCentral.scoreCurrentChannel]
  split
  · exact h
  · exact h.of_maskParts rfl

theorem MaskSafe.recomputeChannel {state : HopCentral config × Bool} (h : state.1.MaskSafe P)
    (rule : MaskRule config P) (active : UInt32) {channel : ℕ} (hchannel : channel < config.hopCount) :
    (recomputeChannel active state channel).1.MaskSafe P := by
  simp only [HopCentral.recomputeChannel]
  split_ifs
  · exact h.of_maskParts rfl
  · exact h.of_maskParts rfl
  · exact h
  · exact ⟨h.active, rule.admits _ _ hchannel h.pending, h.anchors, h.ready⟩
  · exact h.of_maskParts rfl

theorem MaskSafe.foldl_recomputeChannel (rule : MaskRule config P) (active : UInt32)
    {channels : List ℕ} (hchannels : ∀ channel ∈ channels, channel < config.hopCount)
    {state : HopCentral config × Bool} (h : state.1.MaskSafe P) :
    (channels.foldl (HopCentral.recomputeChannel active) state).1.MaskSafe P := by
  induction channels generalizing state with
  | nil => exact h
  | cons channel channels ih =>
      apply ih
      · exact fun other hmem => hchannels other (List.mem_cons_of_mem _ hmem)
      · exact h.recomputeChannel rule active (hchannels channel (List.mem_cons_self ..))

theorem MaskSafe.maskWorstChannel {state : HopCentral config × Bool} (h : state.1.MaskSafe P)
    (rule : MaskRule config P) : (maskWorstChannel state).1.MaskSafe P := by
  simp only [HopCentral.maskWorstChannel]
  split
  case isFalse => exact h
  case isTrue habove =>
  split
  case isFalse => exact h
  case isTrue hworst =>
    obtain ⟨hlt, heligible⟩ := eligible_of_worstEligible hworst.ne
    simp only [Bool.and_eq_true, Bool.not_eq_true'] at heligible
    have hplain := (h.anchors _ hlt).symm.trans heligible.1.1
    exact ⟨h.active, rule.bench _ _ hlt hplain heligible.1.2 habove h.pending, h.anchors, h.ready⟩

theorem MaskSafe.recomputeMask {central : HopCentral config} (h : central.MaskSafe P)
    (rule : MaskRule config P) (active : UInt32) : (central.recomputeMask active).MaskSafe P := by
  have hloop : ((List.range config.hopCount).foldl (HopCentral.recomputeChannel active)
      (central.ensureMask, false)).1.MaskSafe P := by
    rw [ensureMask_of_ready h.ready]
    exact MaskSafe.foldl_recomputeChannel rule active (fun _ hmem => List.mem_range.mp hmem) h
  have hworst := hloop.maskWorstChannel rule
  rw [HopCentral.recomputeMask]
  dsimp only
  split
  · exact hworst.of_maskParts rfl
  · exact hworst

theorem MaskSafe.countSilence {central : HopCentral config} (h : central.MaskSafe P)
    (heard : UInt32) : (central.countSilence heard).MaskSafe P := by
  rw [HopCentral.countSilence]
  split <;> exact h.of_maskParts rfl

theorem MaskSafe.observe {central : HopCentral config} (h : central.MaskSafe P)
    (rule : MaskRule config P) (window : HopWindow) : (central.observe window).MaskSafe P := by
  have haccrue : (central.accrueLoss window).MaskSafe P := h.of_maskParts rfl
  have hmask := (haccrue.scoreCurrentChannel window).recomputeMask rule window.active
  have hlost : ((((central.accrueLoss window).scoreCurrentChannel window).recomputeMask
      window.active).noteLostPipes window).MaskSafe P := hmask.of_maskParts rfl
  exact hlost.countSilence window.heard

theorem MaskSafe.hopToNextEpoch {central : HopCentral config} (h : central.MaskSafe P) :
    central.hopToNextEpoch.MaskSafe P := by
  simp only [HopCentral.hopToNextEpoch, commitPendingMask]
  split_ifs
  · exact ⟨h.pending, h.pending, h.anchors, h.ready⟩
  · exact h.of_maskParts rfl

theorem MaskSafe.hopOnVote {central : HopCentral config} (h : central.MaskSafe P) :
    central.hopOnVote.MaskSafe P := by
  rw [HopCentral.hopOnVote]
  split_ifs
  · exact h.hopToNextEpoch
  · exact h

theorem MaskSafe.hopOutOfSilence {central : HopCentral config} (h : central.MaskSafe P) :
    central.hopOutOfSilence.MaskSafe P := by
  rw [HopCentral.hopOutOfSilence]
  split_ifs
  · exact MaskSafe.hopToNextEpoch (h.of_maskParts rfl)
  · exact h

theorem stageBeacon_maskParts (central : HopCentral config) (window : HopWindow) :
    (central.stageBeacon window).1.maskParts = central.maskParts := rfl

theorem stageMaskUpdate_maskParts (central : HopCentral config) (window : HopWindow) :
    (central.stageMaskUpdate window).1.maskParts = central.maskParts := by
  simp only [stageMaskUpdate]
  split_ifs <;> rfl

theorem MaskSafe.decisionWork {central : HopCentral config} (h : central.MaskSafe P)
    (rule : MaskRule config P) (hcount : 1 < config.hopCount) (window : HopWindow) :
    (central.decisionWork window).1.MaskSafe P := by
  have hhop := ((h.observe rule window).hopOnVote).hopOutOfSilence
  rw [decisionWork_fst hcount]
  exact (hhop.of_maskParts (stageBeacon_maskParts _ window)).of_maskParts
    (stageMaskUpdate_maskParts _ window)

theorem MaskSafe.run {central : HopCentral config} (h : central.MaskSafe P)
    (rule : MaskRule config P) (hcount : 1 < config.hopCount) (windows : List HopWindow) :
    (central.runWindows windows).MaskSafe P :=
  Transition.run_invariant (fun _ window hsafe => hsafe.decisionWork rule hcount window) h windows

/-! ## Boot -/

theorem anchorMask_ensureMask (config : HopConfig) :
    AnchorMask (HopCentral.zero config).ensureMask.anchorMask := by
  intro channel hchannel
  refine (hopPolicyMaskGet_fillMask _ _ hchannel).trans ?_
  simp [HopCentral.zero]

/-- The mask boot starts from: the full pool, less what the settings stored as masked. -/
def restoredMask (config : HopConfig) (stored : Option Bytes) : HopMask config.hopCount :=
  match stored.bind (hopMaskSettingsSet config) with
  | none => (HopCentral.zero config).ensureMask.pendingMask
  | some persisted => ((HopCentral.zero config).ensureMask.benchPersisted persisted).pendingMask

theorem MaskSafe.boot (rule : MaskRule config P) (hcount : 1 < config.hopCount)
    (stored : Option Bytes) (energyDbm : ℕ → Int8)
    (hfull : P (HopCentral.zero config).ensureMask.activeMask) (hrestored : P (restoredMask config stored)) :
    (HopCentral.boot config stored energyDbm).MaskSafe P := by
  have hsurvey : P (hopPolicySurveyMask energyDbm (HopCentral.zero config).ensureMask.anchorMask
      config.hopMinActive.toNat config.surveyThresholdDbm (restoredMask config stored)).1 :=
    rule.survey (anchorMask_ensureMask config) hrestored
  rw [HopCentral.boot, hopBootMask, if_neg (by omega)]
  rw [restoredMask] at hsurvey
  dsimp only
  cases hstored : stored.bind (hopMaskSettingsSet config) with
  | none =>
      rw [hstored] at hsurvey
      split_ifs
      · exact ⟨hfull, hsurvey, anchorMask_ensureMask config, rfl⟩
      · exact ⟨hsurvey, hsurvey, anchorMask_ensureMask config, rfl⟩
  | some persisted =>
      rw [hstored] at hsurvey
      split_ifs
      · exact ⟨hfull, hsurvey, anchorMask_ensureMask config, rfl⟩
      · exact ⟨hsurvey, hsurvey, anchorMask_ensureMask config, rfl⟩

end HopCentral

open HopCentral

theorem hopPolicyMaskGet_ensureMask_zero (config : HopConfig) {channel : ℕ}
    (hchannel : channel < config.hopCount) :
    hopPolicyMaskGet (zero config).ensureMask.pendingMask channel = true :=
  hopPolicyMaskGet_fillMask _ _ hchannel

/-- A channel survives a restore if it was stored as active or is an anchor. -/
theorem hopPolicyMaskGet_benchPersisted {config : HopConfig} (persisted : HopMask config.hopCount)
    {channel : ℕ} (hchannel : channel < config.hopCount) :
    hopPolicyMaskGet ((zero config).ensureMask.benchPersisted persisted).pendingMask channel =
      (hopPolicyMaskGet persisted channel || config.hopIsAnchorIndex channel) := by
  rw [benchPersisted, hopPolicyMaskGet_foldl_set (fun channel => !hopPolicyMaskGet persisted channel &&
    !hopPolicyMaskGet (zero config).ensureMask.anchorMask channel) false _ hchannel,
    anchorMask_ensureMask config channel hchannel, hopPolicyMaskGet_ensureMask_zero config hchannel]
  cases hopPolicyMaskGet persisted channel <;> cases config.hopIsAnchorIndex channel <;> rfl

/-! ## Anchors stay active -/

def KeepsAnchors (mask : HopMask config.hopCount) : Prop :=
  ∀ channel ∈ config.anchorIndices, hopPolicyMaskGet mask channel = true

theorem hopIsAnchorIndex_iff {channel : ℕ} :
    config.hopIsAnchorIndex channel = true ↔ channel ∈ config.anchorIndices := by
  simp [HopConfig.hopIsAnchorIndex]

theorem keepsAnchors_rule (config : HopConfig) : MaskRule config KeepsAnchors where
  admits mask channel hchannel hmask anchor hanchor := by
    rw [hopPolicyMaskGet_set hchannel]
    split
    · rfl
    · exact hmask anchor hanchor
  bench mask channel hchannel hplain _ _ hmask anchor hanchor := by
    have hne : anchor ≠ channel := by
      rintro rfl
      rw [hopIsAnchorIndex_iff.mpr hanchor] at hplain
      cases hplain
    rw [hopPolicyMaskGet_set hchannel, if_neg hne]
    exact hmask anchor hanchor

theorem keepsAnchors_restoredMask (config : HopConfig) (stored : Option Bytes) :
    KeepsAnchors (restoredMask config stored) := by
  intro channel hanchor
  have hlt := HopConfig.anchorIndices_lt hanchor
  rw [restoredMask]
  cases stored.bind (hopMaskSettingsSet config) with
  | none => exact hopPolicyMaskGet_ensureMask_zero config hlt
  | some persisted =>
      rw [hopPolicyMaskGet_benchPersisted persisted hlt, hopIsAnchorIndex_iff.mpr hanchor, Bool.or_true]

/-- Some anchor is always active, so the pool is never empty. -/
theorem KeepsAnchors.activeCount_pos {mask : HopMask config.hopCount} (h : KeepsAnchors mask) :
    0 < hopPolicyMaskActiveCount mask config.hopCount := by
  obtain ⟨anchor, hanchor⟩ := List.exists_mem_of_ne_nil _ config.anchorIndices_ne_nil
  exact List.countP_pos_iff.mpr
    ⟨anchor, List.mem_range.mpr (HopConfig.anchorIndices_lt hanchor), h anchor hanchor⟩

/-- From every boot and after every window the anchors are active in both masks, and
the central is on the active channel its epoch maps to. -/
theorem central_on_derivable_channel (config : HopConfig) (hcount : 2 ≤ config.hopCount)
    (stored : Option Bytes) (energyDbm : ℕ → Int8) (windows : List HopWindow) :
    let central := (boot config stored energyDbm).runWindows windows
    (∀ channel ∈ config.anchorIndices, hopPolicyMaskGet central.activeMask channel = true ∧
        hopPolicyMaskGet central.pendingMask channel = true) ∧
      central.hopIndex = hopPolicyChannelForEpochMasked central.hopEpoch.toUInt16 central.activeMask
        config.hopCount ∧
      central.hopIndex < config.hopCount ∧
      hopPolicyMaskGet central.activeMask central.hopIndex = true := by
  have hfull : KeepsAnchors (zero config).ensureMask.activeMask := fun channel hanchor =>
    hopPolicyMaskGet_ensureMask_zero config (HopConfig.anchorIndices_lt hanchor)
  have hsafe := (MaskSafe.boot (keepsAnchors_rule config) hcount stored energyDbm hfull
    (keepsAnchors_restoredMask config stored)).run (keepsAnchors_rule config) hcount windows
  have htuned := Tuned.run config stored energyDbm windows
  refine ⟨fun channel hanchor => ⟨hsafe.active channel hanchor, hsafe.pending channel hanchor⟩,
    htuned.hopIndex_eq, htuned.hopIndex_lt, ?_⟩
  rw [htuned.hopIndex_eq]
  exact hopPolicyMaskGet_channelForEpochMasked hsafe.active.activeCount_pos

theorem central_on_derivable_channel_sample :
    let central := (boot sampleHopConfig none noisySecondChannel).runWindows [lostWindow]
    (∀ channel ∈ sampleHopConfig.anchorIndices,
        hopPolicyMaskGet central.activeMask channel = true ∧
        hopPolicyMaskGet central.pendingMask channel = true) ∧
      central.hopIndex = hopPolicyChannelForEpochMasked central.hopEpoch.toUInt16 central.activeMask
        sampleHopConfig.hopCount ∧
      central.hopIndex < sampleHopConfig.hopCount ∧
      hopPolicyMaskGet central.activeMask central.hopIndex = true :=
  central_on_derivable_channel sampleHopConfig (by decide) none noisySecondChannel [lostWindow]

/-! ## The floor -/

/-- The floor as far as the pool can meet it. -/
def HopConfig.activeFloor (config : HopConfig) : ℕ := min config.hopMinActive.toNat config.hopCount

def MeetsFloor (mask : HopMask config.hopCount) : Prop :=
  config.activeFloor ≤ hopPolicyMaskActiveCount mask config.hopCount

theorem meetsFloor_rule (config : HopConfig) : MaskRule config MeetsFloor where
  admits mask channel hchannel hmask := hmask.trans (hopPolicyMaskActiveCount_le_set hchannel)
  bench mask channel hchannel _ hset habove _ := by
    have hclear := hopPolicyMaskActiveCount_clear hchannel hset
    have hfloor : config.activeFloor ≤ config.hopMinActive.toNat := Nat.min_le_left ..
    rw [MeetsFloor]
    omega

theorem activeCount_ensureMask_zero (config : HopConfig) :
    hopPolicyMaskActiveCount (zero config).ensureMask.pendingMask config.hopCount =
      config.hopCount := by
  rw [hopPolicyMaskActiveCount, List.countP_eq_length.mpr fun channel hmem =>
    hopPolicyMaskGet_ensureMask_zero config (List.mem_range.mp hmem), List.length_range]

/-- What the settings stored leaves, with the anchors, at least the floor active. A
fixed link never sets its masks up, so it meets no floor but zero. -/
def RestoreMeetsFloor (config : HopConfig) (stored : Option Bytes) : Prop :=
  if config.hopCount ≤ 1 then config.hopMinActive = 0
  else
    match stored.bind (hopMaskSettingsSet config) with
    | none => True
    | some persisted => config.activeFloor ≤ (List.range config.hopCount).countP fun channel =>
        hopPolicyMaskGet persisted channel || config.hopIsAnchorIndex channel

theorem restoreMeetsFloor_iff {config : HopConfig} (hcount : 1 < config.hopCount)
    (stored : Option Bytes) : RestoreMeetsFloor config stored ↔
      MeetsFloor (restoredMask config stored) := by
  rw [RestoreMeetsFloor, if_neg (by omega), restoredMask]
  cases stored.bind (hopMaskSettingsSet config) with
  | none =>
      refine iff_of_true trivial ?_
      rw [MeetsFloor, activeCount_ensureMask_zero]
      exact Nat.min_le_right ..
  | some persisted =>
      rw [MeetsFloor, hopPolicyMaskActiveCount]
      refine iff_of_eq (congrArg (config.activeFloor ≤ ·) (List.countP_congr fun channel hmem => ?_))
      rw [hopPolicyMaskGet_benchPersisted persisted (List.mem_range.mp hmem)]

theorem benchPersisted_anchorMask (central : HopCentral config)
    (persisted : HopMask config.hopCount) :
    (central.benchPersisted persisted).anchorMask = central.anchorMask := rfl

theorem advanceEpoch_pendingMask (central : HopCentral config) :
    central.advanceEpoch.pendingMask = central.pendingMask := rfl

theorem boot_pendingMask {config : HopConfig} (hcount : 1 < config.hopCount)
    (stored : Option Bytes) (energyDbm : ℕ → Int8) :
    (boot config stored energyDbm).pendingMask =
      (hopPolicySurveyMask energyDbm (zero config).ensureMask.anchorMask config.hopMinActive.toNat
        config.surveyThresholdDbm (restoredMask config stored)).1 := by
  rw [boot, hopBootMask, if_neg (by omega), restoredMask]
  dsimp only
  cases stored.bind (hopMaskSettingsSet config) with
  | none =>
      dsimp only
      rw [apply_ite pendingMask, advanceEpoch_pendingMask, ite_self]
  | some persisted =>
      dsimp only
      rw [benchPersisted_anchorMask, apply_ite pendingMask, advanceEpoch_pendingMask, ite_self]

/-- A survey leaves a pool at or under the floor alone. -/
theorem hopPolicySurveyMask_of_le {n minActive : ℕ} {anchorMask mask : HopMask n}
    (h : hopPolicyMaskActiveCount mask n ≤ minActive) (energyDbm : ℕ → Int8) (thresholdDbm : Int8) :
    hopPolicySurveyMask energyDbm anchorMask minActive thresholdDbm mask = (mask, 0) := by
  rw [hopPolicySurveyMask, if_neg (by omega)]

/-- Boot cannot lift a restored mask to the floor. -/
theorem not_meetsFloor_boot {config : HopConfig} (hcount : 1 < config.hopCount)
    {stored : Option Bytes} (hbelow : ¬MeetsFloor (restoredMask config stored))
    (energyDbm : ℕ → Int8) : ¬MeetsFloor (boot config stored energyDbm).pendingMask := by
  have hfloor : config.activeFloor ≤ config.hopMinActive.toNat := Nat.min_le_left ..
  rw [MeetsFloor, Nat.not_le] at hbelow
  rw [boot_pendingMask hcount, hopPolicySurveyMask_of_le (by omega), MeetsFloor, Nat.not_le]
  exact hbelow

/-- Masks as cleared memory has them. -/
def MasksUnset (central : HopCentral config) : Prop := central.maskParts = (zero config).maskParts

/-- A fixed link never sets its masks up. -/
theorem masksUnset_of_fixed {config : HopConfig} (hcount : config.hopCount ≤ 1)
    (stored : Option Bytes) (energyDbm : ℕ → Int8) (windows : List HopWindow) :
    MasksUnset ((boot config stored energyDbm).runWindows windows) := by
  have hstep : ∀ (central : HopCentral config) (window : HopWindow), MasksUnset central →
      MasksUnset (central.decisionWork window).1 := by
    intro central window hunset
    rw [decisionWork, if_pos hcount]
    exact hunset
  have hboot : MasksUnset (boot config stored energyDbm) := by
    rw [boot, hopBootMask, if_pos hcount, MasksUnset]
  exact Transition.run_invariant hstep hboot windows

theorem activeCount_zero (config : HopConfig) :
    hopPolicyMaskActiveCount (zero config).activeMask config.hopCount = 0 :=
  List.countP_eq_zero.mpr fun _ _ => by simp [zero]

/-- Both masks meet the floor in every state a boot reaches iff the restored mask
does when boot restores it. -/
theorem mask_floor_iff (config : HopConfig) (stored : Option Bytes) (energyDbm : ℕ → Int8) :
    (∀ windows : List HopWindow,
      let central := (boot config stored energyDbm).runWindows windows
      min config.hopMinActive.toNat config.hopCount ≤
          hopPolicyMaskActiveCount central.pendingMask config.hopCount ∧
        min config.hopMinActive.toNat config.hopCount ≤
          hopPolicyMaskActiveCount central.activeMask config.hopCount) ↔
      RestoreMeetsFloor config stored := by
  by_cases hcount : config.hopCount ≤ 1
  · have hunset := masksUnset_of_fixed hcount stored energyDbm
    have hpool : 0 < config.hopCount := config.hopChannels_pos
    rw [RestoreMeetsFloor, if_pos hcount, ← UInt8.toNat_inj]
    constructor
    · intro h
      have hactive := (h []).2
      have hzero : ((boot config stored energyDbm).runWindows []).activeMask = (zero config).activeMask :=
        congrArg Prod.fst (hunset [])
      rw [hzero, activeCount_zero] at hactive
      change config.hopMinActive.toNat = 0
      omega
    · intro h windows
      change config.hopMinActive.toNat = 0 at h
      simp [h]
  · rw [restoreMeetsFloor_iff (by omega) stored]
    constructor
    · intro h
      by_contra hbelow
      exact not_meetsFloor_boot (by omega) hbelow energyDbm (h []).1
    · intro hrestored windows
      have hfull : MeetsFloor (zero config).ensureMask.activeMask :=
        (Nat.min_le_right ..).trans (activeCount_ensureMask_zero config).ge
      have hsafe := (MaskSafe.boot (meetsFloor_rule config) (by omega) stored energyDbm hfull
        hrestored).run (meetsFloor_rule config) (by omega) windows
      exact ⟨hsafe.pending, hsafe.active⟩

/-- The sample pool rebuilt with a floor of all four channels. -/
def raisedFloorConfig : HopConfig := { sampleHopConfig with hopMinActive := 4 }

/-- A mask stored while the floor was lower still benches its channel. -/
theorem stored_mask_breaks_floor : ¬ ∀ (config : HopConfig) (stored : Option Bytes)
    (energyDbm : ℕ → Int8) (windows : List HopWindow),
    let central := (boot config stored energyDbm).runWindows windows
    min config.hopMinActive.toNat config.hopCount ≤
        hopPolicyMaskActiveCount central.pendingMask config.hopCount ∧
      min config.hopMinActive.toNat config.hopCount ≤
        hopPolicyMaskActiveCount central.activeMask config.hopCount := by
  intro h
  have hboot := h raisedFloorConfig (some [4, 74, 75, 76, 77, 13]) (fun _ => -100) []
  have hbelow : ¬MeetsFloor (restoredMask raisedFloorConfig (some [4, 74, 75, 76, 77, 13])) := by
    have haccepted : (some [4, 74, 75, 76, 77, 13]).bind (hopMaskSettingsSet raisedFloorConfig) =
        some (Vector.ofFn fun _ => 13) := by decide +kernel
    rw [← restoreMeetsFloor_iff (by decide), RestoreMeetsFloor, if_neg (by decide), haccepted]
    decide +kernel
  exact not_meetsFloor_boot (by decide) hbelow _ hboot.1

end SplitEsb
