import SplitEsb.Hop.Masks

/-! # The saved mask
A mask change schedules a save. The save stores the mask in force when the debounce
expires; a change that waits for its hop longer than that is committed unsaved. -/

namespace SplitEsb

open ByteString Transition

/-! ## The store -/

def hopPolicyMaskStoreEncode {n : ℕ} (storedSize : ℕ) (channels : List UInt8) (mask : HopMask n)
    (poolCount : ℕ) : Option Bytes :=
  if poolCount > 255 ∨ storedSize < hopPolicyMaskStoreLength poolCount then none
  else some (UInt8.ofNat poolCount :: (channels ++ mask.toList))

variable {config : HopConfig}

/-- A stored mask is restored by the pool it was stored for. -/
theorem hopMaskSettingsSet_encode (config : HopConfig) (mask : HopMask config.hopCount) :
    (hopPolicyMaskStoreEncode (hopPolicyMaskStoreLength config.hopCount) config.hopChannels mask
      config.hopCount).bind (HopCentral.hopMaskSettingsSet config) = some mask := by
  have hpool : ¬config.hopCount > 255 := by
    have : config.hopCount < 255 := config.hopChannels_lt
    omega
  have hlength : (UInt8.ofNat config.hopCount :: (config.hopChannels ++ mask.toList)).length =
      hopPolicyMaskStoreLength config.hopCount := by
    simp only [List.length_cons, List.length_append, Vector.length_toList]
    rw [hopPolicyMaskStoreLength, HopConfig.hopCount, esbHopMaskBytes]
    omega
  have hcount : (byteAt (UInt8.ofNat config.hopCount :: (config.hopChannels ++ mask.toList)) 0).toNat =
      config.hopCount := Nat.mod_eq_of_lt (by omega)
  have hchannels : readAt (UInt8.ofNat config.hopCount :: (config.hopChannels ++ mask.toList)) 1
      config.hopCount = config.hopChannels := by
    simp [readAt, HopConfig.hopCount]
  have hmask : hopPolicyMaskStoreMask
      (UInt8.ofNat config.hopCount :: (config.hopChannels ++ mask.toList)) config.hopCount = mask := by
    refine Vector.ext fun index hindex => ?_
    have hcons : 1 + config.hopCount + index = (config.hopChannels.length + index) + 1 := by
      rw [HopConfig.hopCount]
      omega
    rw [hopPolicyMaskStoreMask, Vector.getElem_ofFn, byteAt, hcons, List.getD_cons_succ,
      List.getD_eq_getElem?_getD, List.getElem?_append_right (Nat.le_add_right ..),
      Nat.add_sub_cancel_left]
    simp [hindex]
  rw [hopPolicyMaskStoreEncode, if_neg (by omega), Option.bind_some, HopCentral.hopMaskSettingsSet,
    if_neg (not_not_intro hlength), hmask]
  have hmatches : hopPolicyMaskStoreMatches
      (UInt8.ofNat config.hopCount :: (config.hopChannels ++ mask.toList)) config.hopChannels
      config.hopCount = true := by
    rw [hopPolicyMaskStoreMatches, if_neg (by omega), if_neg (by omega), hchannels]
    exact beq_self_eq_true _
  rw [if_pos hmatches]

/-! ## The engine with its settings -/

namespace HopCentral

/-- The window's recompute changes the pending mask. -/
def changesMask (central : HopCentral config) (window : HopWindow) : Bool :=
  decide (1 < config.hopCount) &&
    (maskWorstChannel ((List.range config.hopCount).foldl (recomputeChannel window.active)
      (((central.accrueLoss window).scoreCurrentChannel window).ensureMask, false))).2

/-- A hop of the window swaps the pending mask in. -/
def commitsMask (central : HopCentral config) (window : HopWindow) : Bool :=
  (central.observe window).pendingValid && !(central.hopCalls window).isEmpty

theorem recomputeChannel_pendingValid (active : UInt32) (state : HopCentral config × Bool)
    (channel : ℕ) :
    (recomputeChannel active state channel).1.pendingValid = state.1.pendingValid := by
  simp only [recomputeChannel]
  split_ifs <;> rfl

theorem maskWorstChannel_pendingValid (state : HopCentral config × Bool) :
    (maskWorstChannel state).1.pendingValid = state.1.pendingValid := by
  simp only [maskWorstChannel]
  split_ifs <;> rfl

/-- A change that waits after the recompute waited before it, or is the window's own. -/
theorem pendingValid_observe {central : HopCentral config} {window : HopWindow}
    (hcount : 1 < config.hopCount) (h : (central.observe window).pendingValid = true) :
    central.pendingValid = true ∨ central.changesMask window = true := by
  cases hchanged : central.changesMask window with
  | true => exact .inr rfl
  | false =>
      refine .inl ?_
      rw [changesMask, decide_eq_true hcount, Bool.true_and] at hchanged
      have hensure : ((central.accrueLoss window).scoreCurrentChannel window).ensureMask.pendingValid =
          central.pendingValid := by
        rw [ensureMask, scoreCurrentChannel]
        split_ifs <;> rfl
      have hfold := @run_invariant _ _ (recomputeChannel window.active)
        (fun state : HopCentral config × Bool => state.1.pendingValid = central.pendingValid)
        (fun state channel hstate =>
          (recomputeChannel_pendingValid window.active state channel).trans hstate)
        (((central.accrueLoss window).scoreCurrentChannel window).ensureMask, false) hensure
        (List.range config.hopCount)
      have hobserve : (central.observe window).pendingValid =
          (((central.accrueLoss window).scoreCurrentChannel window).recomputeMask
            window.active).pendingValid := by
        rw [observe, countSilence, noteLostPipes]
        split_ifs <;> rfl
      rw [hobserve, recomputeMask] at h
      dsimp only at h
      rw [hchanged, if_neg Bool.false_ne_true, maskWorstChannel_pendingValid] at h
      exact hfold.symm.trans h

/-- A hop swaps the pending mask in, if there is one. -/
theorem maskState_hopToNextEpoch (central : HopCentral config) :
    central.hopToNextEpoch.activeMask =
        (if central.pendingValid then central.pendingMask else central.activeMask) ∧
      central.hopToNextEpoch.pendingMask = central.pendingMask ∧
      central.hopToNextEpoch.pendingValid = false := by
  simp only [hopToNextEpoch, commitPendingMask]
  split_ifs with hpending
  · exact ⟨rfl, rfl, rfl⟩
  · exact ⟨rfl, rfl, Bool.eq_false_iff.mpr hpending⟩

theorem maskState_hopOnVote (central : HopCentral config) :
    central.hopOnVote.activeMask =
        (if central.votesHop && central.pendingValid then central.pendingMask else central.activeMask) ∧
      central.hopOnVote.pendingMask = central.pendingMask ∧
      central.hopOnVote.pendingValid = (central.pendingValid && !central.votesHop) := by
  rw [hopOnVote]
  cases hvote : central.votesHop with
  | true => simpa using maskState_hopToNextEpoch central
  | false => simp

theorem activeMask_hopOutOfSilence (central : HopCentral config) :
    central.hopOutOfSilence.activeMask =
      if central.escapesSilence && central.pendingValid then central.pendingMask
      else central.activeMask := by
  rw [hopOutOfSilence]
  cases hescape : central.escapesSilence with
  | true =>
      simp only [if_true, Bool.true_and]
      exact (maskState_hopToNextEpoch central.noteEscape.clearSilence).1
  | false => simp

/-- The mask in force changes in the windows that commit one. -/
theorem decisionWork_activeMask {central : HopCentral config} (htuned : central.Tuned)
    (window : HopWindow) : (central.decisionWork window).1.activeMask =
      if central.commitsMask window then (central.observe window).pendingMask
      else central.activeMask := by
  by_cases hcount : config.hopCount ≤ 1
  · rw [decisionWork, if_pos hcount, commitsMask, hopCalls, if_pos hcount, List.isEmpty_nil,
      Bool.not_true, Bool.and_false, if_neg Bool.false_ne_true]
    exact congrArg (fun parts => parts.2.2.1) (stageBeacon_tuning central window)
  · have hobserve : (central.observe window).activeMask = central.activeMask :=
      congrArg (fun parts => parts.2.2.1) (observe_tuning (htuned.maskReady (by omega)) window)
    have hstage : ∀ hopped : HopCentral config,
        ((hopped.stageBeacon window).1.stageMaskUpdate window).1.activeMask = hopped.activeMask :=
      fun hopped => congrArg (fun parts => parts.2.2.1)
        ((stageMaskUpdate_tuning _ window).trans (stageBeacon_tuning hopped window))
    obtain ⟨hactive, hpending, hvalid⟩ := maskState_hopOnVote (central.observe window)
    rw [decisionWork_fst (by omega), hstage, activeMask_hopOutOfSilence, hactive, hpending, hvalid,
      hobserve, commitsMask, hopCalls, if_neg hcount]
    cases (central.observe window).pendingValid with
    | false => simp
    | true =>
        by_cases hvote : (central.observe window).votesHop = true
        · simp [hvote]
        · by_cases hescape : (central.observe window).hopOnVote.escapesSilence = true <;>
            simp [hvote, hescape]

end HopCentral

/-- `saved` records whether a save has run since boot. -/
structure HopSettings (config : HopConfig) where
  central : HopCentral config
  saveScheduled : Bool
  stored : Option Bytes
  saved : Bool

/-- A decision window, or the debounce of the save expiring. -/
inductive HopSettingsAction where
  | window (window : HopWindow)
  | expire

namespace HopSettings

def boot (config : HopConfig) (stored : Option Bytes) (energyDbm : ℕ → Int8) : HopSettings config :=
  ⟨.boot config stored energyDbm, false, stored, false⟩

/-- `mask_save_work_fn`, with a settings backend that saves. -/
def maskSaveWork (settings : HopSettings config) : HopSettings config :=
  let settings := { settings with saveScheduled := false }
  match hopPolicyMaskStoreEncode (hopPolicyMaskStoreLength config.hopCount) config.hopChannels
      settings.central.activeMask config.hopCount with
  | none => settings
  | some stored => { settings with stored := some stored, saved := true }

def step (settings : HopSettings config) : HopSettingsAction → HopSettings config
  | .window window =>
      { settings with
        central := (settings.central.decisionWork window).1
        saveScheduled := settings.saveScheduled || settings.central.changesMask window }
  | .expire => if settings.saveScheduled then settings.maskSaveWork else settings

/-- The mask the next boot would restore. -/
def storedMask (settings : HopSettings config) : Option (HopMask config.hopCount) :=
  settings.stored.bind (HopCentral.hopMaskSettingsSet config)

/-- After a save, and with none scheduled, the stored mask is the one in force. -/
def StoredInForce (settings : HopSettings config) : Prop :=
  settings.saved = true → settings.saveScheduled = false →
    settings.storedMask = some settings.central.activeMask

/-- A window that hops while a mask change waits finds the save still scheduled, or none
has run yet. -/
def CommitsInTime (settings : HopSettings config) : HopSettingsAction → Prop
  | .window window => settings.central.pendingValid = true →
      settings.central.hopCalls window ≠ [] → settings.saveScheduled = true ∨ settings.saved = false
  | .expire => True

instance (settings : HopSettings config) : DecidablePred settings.CommitsInTime
  | .window window => inferInstanceAs (Decidable (settings.central.pendingValid = true →
      ¬settings.central.hopCalls window = [] →
        settings.saveScheduled = true ∨ settings.saved = false))
  | .expire => inferInstanceAs (Decidable True)

/-! ## Every run -/

variable {settings : HopSettings config}

theorem tuned_step (h : settings.central.Tuned) (action : HopSettingsAction) :
    (settings.step action).central.Tuned := by
  cases action with
  | window window => exact h.decisionWork window
  | expire =>
      rw [step, maskSaveWork]
      dsimp only
      split
      · split <;> exact h
      · exact h

/-- A save stores the mask in force. -/
theorem storedInForce_maskSaveWork (settings : HopSettings config) :
    settings.maskSaveWork.StoredInForce := by
  intro _ _
  have hrestored := hopMaskSettingsSet_encode config settings.central.activeMask
  rw [maskSaveWork]
  dsimp only
  cases hencode : hopPolicyMaskStoreEncode (hopPolicyMaskStoreLength config.hopCount)
      config.hopChannels settings.central.activeMask config.hopCount with
  | none => simp [hencode] at hrestored
  | some stored =>
      rw [hencode] at hrestored
      exact hrestored

/-- The save of a change that is committed while it is scheduled is still to come. -/
theorem storedInForce_step (htuned : settings.central.Tuned) (h : settings.StoredInForce)
    {action : HopSettingsAction} (htime : settings.CommitsInTime action) :
    (settings.step action).StoredInForce := by
  cases action with
  | expire =>
      rw [step]
      split
      · exact storedInForce_maskSaveWork settings
      · exact h
  | window window =>
      intro hsaved hscheduled
      obtain ⟨hold, hsame⟩ := Bool.or_eq_false_iff.mp hscheduled
      have hmask := HopCentral.decisionWork_activeMask htuned window
      cases hcommits : settings.central.commitsMask window with
      | false =>
          rw [hcommits, if_neg Bool.false_ne_true] at hmask
          exact (h hsaved hold).trans (congrArg some hmask.symm)
      | true =>
          obtain ⟨hpending, hhops⟩ := Bool.and_eq_true_iff.mp hcommits
          have hcalls : settings.central.hopCalls window ≠ [] := by
            simpa [List.isEmpty_iff] using hhops
          have hcount : 1 < config.hopCount := by
            by_contra hle
            exact hcalls (by rw [HopCentral.hopCalls, if_pos (by omega)])
          have hwaits := (HopCentral.pendingValid_observe hcount hpending).resolve_right (by simp [hsame])
          rcases htime hwaits hcalls with hearly | hnone
          · exact absurd hearly (by simp [hold])
          · exact absurd hsaved (by simp [show settings.saved = false from hnone, step])

/-- The stored mask is in force in every state of a run whose hops commit each change
before its save has run. -/
theorem stored_mask_in_force (config : HopConfig) (stored : Option Bytes) (energyDbm : ℕ → Int8)
    {actions : List HopSettingsAction}
    (htime : Along step CommitsInTime (boot config stored energyDbm) actions) :
    (run step (boot config stored energyDbm) actions).StoredInForce := by
  have hboot : (boot config stored energyDbm).central.Tuned ∧
      (boot config stored energyDbm).StoredInForce :=
    ⟨HopCentral.Tuned.boot config stored energyDbm, nofun⟩
  have hrun := @run_invariant_along _ _ step
    (fun settings : HopSettings config => settings.central.Tuned ∧ settings.StoredInForce)
    CommitsInTime
    (fun _ action h haction => ⟨tuned_step h.1 action, storedInForce_step h.1 h.2 haction⟩)
    _ hboot actions htime
  exact hrun.2

/-- A window that heard the keyboard and nobody polled in. -/
def idleWindow : HopWindow := { lostWindow with active := 0 }

/-- A channel masked at boot comes back after 64 windows and is committed by a hop before
the save runs. -/
def committedInTime : List HopSettingsAction :=
  List.replicate 64 (.window idleWindow) ++ List.replicate 6 (.window lostWindow) ++ [.expire]

theorem stored_mask_in_force_sample :
    let settings := run step (boot sampleHopConfig none noisySecondChannel) committedInTime
    settings.saved = true ∧ settings.storedMask = some settings.central.activeMask := by
  have hforce := @stored_mask_in_force sampleHopConfig none noisySecondChannel committedInTime
    (by decide +kernel)
  exact ⟨by decide +kernel, hforce (by decide +kernel) (by decide +kernel)⟩

/-- A channel masked at boot comes back after 64 windows, its save runs, and the next hop
commits it unsaved. -/
theorem commits_unsaved : ¬ ∀ (config : HopConfig) (stored : Option Bytes) (energyDbm : ℕ → Int8)
    (actions : List HopSettingsAction),
    (run step (boot config stored energyDbm) actions).StoredInForce := by
  intro h
  have hrun := h sampleHopConfig none noisySecondChannel
    (List.replicate 64 (.window idleWindow) ++ .expire :: List.replicate 6 (.window lostWindow))
  revert hrun
  unfold StoredInForce
  decide +kernel

end HopSettings

end SplitEsb
