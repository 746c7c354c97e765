import SplitEsb.Hop.Masks
import SplitEsb.Shared.WrappedWalk

/-! # The silent walk
Through one silence the escapes step the epoch once for each channel of the pool.
Where the epoch wraps inside the walk, some channels' places are skipped. -/

namespace SplitEsb

open CyclicProbe Transition WrappedWalk

variable {config : HopConfig}

namespace HopCentral

/-- The channels a window tunes to, one for each hop it takes. -/
def tunedIn (central : HopCentral config) (window : HopWindow) : List ℕ :=
  (central.hopCalls window).map fun before => before.hopToNextEpoch.hopIndex

def tunedAlong : HopCentral config → List HopWindow → List ℕ
  | _, [] => []
  | central, window :: windows =>
      central.tunedIn window ++ tunedAlong (central.decisionWork window).1 windows

/-- A window of silence: no pipe heard, so none polled, and no mask change waiting. -/
def Hushed (central : HopCentral config) (window : HopWindow) : Prop :=
  window.heard = 0 ∧ window.active = 0 ∧ (central.observe window).pendingValid = false

/-! ## The epochs of a walk -/

/-- The channels of the next `count` epochs. -/
def walk (mask : HopMask config.hopCount) (epoch : UInt8) (count : ℕ) : List ℕ :=
  (List.range count).map fun step =>
    hopPolicyChannelForEpochMasked (epoch + 1 + UInt8.ofNat step).toUInt16 mask config.hopCount

@[simp] theorem length_walk (mask : HopMask config.hopCount) (epoch : UInt8) (count : ℕ) :
    (walk mask epoch count).length = count := by
  simp [walk]

theorem walk_add (mask : HopMask config.hopCount) (epoch : UInt8) (first second : ℕ) :
    walk mask epoch (first + second) =
      walk mask epoch first ++ walk mask (epoch + UInt8.ofNat first) second := by
  have hstep : ∀ step : ℕ, epoch + 1 + UInt8.ofNat (first + step) =
      epoch + UInt8.ofNat first + 1 + UInt8.ofNat step := by
    intro step
    rw [UInt8.ofNat_add, UInt8.add_assoc epoch, UInt8.add_assoc epoch, UInt8.add_assoc epoch,
      ← UInt8.add_assoc 1, UInt8.add_comm 1, UInt8.add_assoc]
  simp only [walk, List.range_add, List.map_append, List.map_map, Function.comp_def, hstep]

theorem mem_walk_iff {mask : HopMask config.hopCount} {epoch : UInt8} {count channel : ℕ}
    (hchannel : channel < config.hopCount) (hactive : hopPolicyMaskGet mask channel = true) :
    channel ∈ walk mask epoch count ↔
      Finds (hopPolicyMaskGet mask) 256 config.hopCount epoch.toNat count channel := by
  have hvalue : ∀ step : ℕ, (epoch + 1 + UInt8.ofNat step).toUInt16.toNat =
      (epoch.toNat + 1 + step) % 256 := by
    intro step
    rw [UInt8.toNat_toUInt16, UInt8.toNat_add, UInt8.toNat_add, UInt8.toNat_ofNat']
    simp [Nat.add_mod]
  simp only [walk, List.mem_map, List.mem_range, Finds,
    hopPolicyChannelForEpochMasked_eq_iff hchannel hactive, hvalue]

/-! ## One window of silence -/

theorem hopToNextEpoch_of_not_pending {before : HopCentral config}
    (hpending : before.pendingValid = false) :
    before.hopToNextEpoch = before.advanceEpoch.clearPipeLoss := by
  simp [hopToNextEpoch, commitPendingMask, hpending]

/-- Where a walk stands: its mask, the epoch reached, and the silence counted. -/
structure OnCourse (mask : HopMask config.hopCount) (epoch : UInt8) (silentWindows : UInt16)
    (silentEscapes : UInt8) (central : HopCentral config) : Prop where
  activeMask : central.activeMask = mask
  hopEpoch : central.hopEpoch = epoch
  silentWindows : central.silentWindows = silentWindows
  silentEscapes : central.silentEscapes = silentEscapes
  maskReady : central.maskReady = true

variable {mask : HopMask config.hopCount} {epoch : UInt8} {silentWindows : UInt16}
  {silentEscapes : UInt8}

theorem OnCourse.of_skeleton {central other : HopCentral config}
    (h : central.OnCourse mask epoch silentWindows silentEscapes)
    (hskeleton : other.skeleton = central.skeleton) :
    other.OnCourse mask epoch silentWindows silentEscapes := by
  have hmask := congrArg HopCentral.activeMask hskeleton
  have hepoch := congrArg HopCentral.hopEpoch hskeleton
  have hwindows := congrArg HopCentral.silentWindows hskeleton
  have hescapes := congrArg HopCentral.silentEscapes hskeleton
  have hready := congrArg HopCentral.maskReady hskeleton
  exact ⟨hmask.trans h.activeMask, hepoch.trans h.hopEpoch, hwindows.trans h.silentWindows,
    hescapes.trans h.silentEscapes, hready.trans h.maskReady⟩

theorem OnCourse.observe {central : HopCentral config}
    (h : central.OnCourse mask epoch silentWindows silentEscapes) {window : HopWindow}
    (hheard : window.heard = 0) :
    (central.observe window).OnCourse mask epoch (silentWindows + 1) silentEscapes := by
  have hskeleton := observe_skeleton h.maskReady window
  rw [HopCentral.countSilence, if_neg (not_not_intro hheard)] at hskeleton
  have hcounted : ({ (central.accrueLoss window).skeleton with
      silentWindows := central.silentWindows + 1 } : HopCentral config).OnCourse mask epoch
      (silentWindows + 1) silentEscapes :=
    ⟨h.activeMask, h.hopEpoch, congrArg (· + 1) h.silentWindows, h.silentEscapes, h.maskReady⟩
  exact hcounted.of_skeleton hskeleton

/-- The vote over a window nobody polled in carries only at threshold zero. -/
theorem votesHop_observe {central : HopCentral config} (hready : central.maskReady = true)
    {window : HopWindow} (hactive : window.active = 0) :
    (central.observe window).votesHop = decide (config.hopThreshold = 0) := by
  have hzero : ∀ index ∈ List.range config.pipeWeights.length,
      (central.observe window).pipeLoss index = 0 := by
    intro index hmem
    have hpipe : ¬config.peripheralCount ≤ index := Nat.not_le.mpr (List.mem_range.mp hmem)
    rw [pipeLoss_observe hready, accrueLoss]
    simp [hopPolicyAccrueLoss, hpipe, hactive, maskHasBit]
  have hsum : ((List.range config.pipeWeights.length).map fun index =>
      ((central.observe window).pipeLoss index).toNat *
        (config.pipeWeights.getD index 0).toNat).sum = 0 := by
    refine List.sum_eq_zero_iff_forall_eq_nat.mpr fun term hmem => ?_
    obtain ⟨index, hindex, rfl⟩ := List.mem_map.mp hmem
    rw [hzero index hindex]
    exact Nat.zero_mul _
  rw [votesHop, hopPolicyHopVote, hsum]
  exact decide_eq_decide.mpr (Nat.le_zero.trans (UInt16.toNat_inj (b := 0)))

/-- The hops of a window: whether it votes, and whether it escapes. -/
def voteHops (observed : HopCentral config) : ℕ := if observed.votesHop then 1 else 0

def escapeHops (voted : HopCentral config) : ℕ := if voted.escapesSilence then 1 else 0

theorem OnCourse.hopToNextEpoch {before : HopCentral config}
    (h : before.OnCourse mask epoch silentWindows silentEscapes)
    (hpending : before.pendingValid = false) :
    before.hopToNextEpoch.OnCourse mask (epoch + 1) silentWindows silentEscapes := by
  rw [hopToNextEpoch_of_not_pending hpending]
  exact ⟨h.activeMask, congrArg (· + 1) h.hopEpoch, h.silentWindows, h.silentEscapes, h.maskReady⟩

theorem OnCourse.hopIndex_hopToNextEpoch {before : HopCentral config}
    (h : before.OnCourse mask epoch silentWindows silentEscapes)
    (hpending : before.pendingValid = false) : [before.hopToNextEpoch.hopIndex] = walk mask epoch 1 := by
  rw [hopToNextEpoch_of_not_pending hpending, ← h.activeMask, ← h.hopEpoch]
  exact congrArg (fun next : UInt8 =>
    [hopPolicyChannelForEpochMasked next.toUInt16 before.activeMask config.hopCount])
    (UInt8.add_zero _).symm

theorem hopOnVote_pendingValid {observed : HopCentral config}
    (hpending : observed.pendingValid = false) : observed.hopOnVote.pendingValid = false := by
  rw [hopOnVote]
  split_ifs
  · rw [hopToNextEpoch_of_not_pending hpending]
    exact hpending
  · exact hpending

theorem OnCourse.hopOnVote {observed : HopCentral config}
    (h : observed.OnCourse mask epoch silentWindows silentEscapes)
    (hpending : observed.pendingValid = false) :
    observed.hopOnVote.OnCourse mask (epoch + UInt8.ofNat observed.voteHops) silentWindows
      silentEscapes := by
  rw [HopCentral.hopOnVote, voteHops]
  split_ifs
  · exact h.hopToNextEpoch hpending
  · simpa using h

theorem OnCourse.noteEscape {voted : HopCentral config}
    (h : voted.OnCourse mask epoch silentWindows silentEscapes) :
    voted.noteEscape.clearSilence.OnCourse mask epoch 0 (silentEscapes + 1) :=
  ⟨h.activeMask, h.hopEpoch, rfl, congrArg (· + 1) h.silentEscapes, h.maskReady⟩

theorem OnCourse.hopOutOfSilence {voted : HopCentral config}
    (h : voted.OnCourse mask epoch silentWindows silentEscapes)
    (hpending : voted.pendingValid = false) :
    voted.hopOutOfSilence.OnCourse mask (epoch + UInt8.ofNat voted.escapeHops)
      (if voted.escapesSilence then 0 else silentWindows)
      (if voted.escapesSilence then silentEscapes + 1 else silentEscapes) := by
  rw [HopCentral.hopOutOfSilence, escapeHops]
  split_ifs
  · exact h.noteEscape.hopToNextEpoch hpending
  · simpa using h

/-- The channels of a silent window are those of the next epochs. -/
theorem OnCourse.tunedIn {central : HopCentral config}
    (h : central.OnCourse mask epoch silentWindows silentEscapes) (hcount : 1 < config.hopCount)
    {window : HopWindow} (hhushed : central.Hushed window) :
    central.tunedIn window = walk mask epoch ((central.observe window).voteHops +
      (central.observe window).hopOnVote.escapeHops) := by
  obtain ⟨hheard, -, hpending⟩ := hhushed
  have hobserved := h.observe hheard
  have hvoted := hobserved.hopOnVote hpending
  have hvotedPending := hopOnVote_pendingValid hpending
  have hfirst : (if (central.observe window).votesHop then [central.observe window] else []).map
      (fun before => before.hopToNextEpoch.hopIndex) = walk mask epoch (central.observe window).voteHops := by
    rw [voteHops]
    split_ifs
    · exact hobserved.hopIndex_hopToNextEpoch hpending
    · rfl
  rw [HopCentral.tunedIn, hopCalls, if_neg (by omega), walk_add, ← hfirst]
  dsimp only
  rw [List.map_append]
  refine congrArg (_ ++ ·) ?_
  rw [escapeHops]
  split_ifs
  · exact hvoted.noteEscape.hopIndex_hopToNextEpoch hvotedPending
  · rfl

theorem OnCourse.decisionWork {central : HopCentral config}
    (h : central.OnCourse mask epoch silentWindows silentEscapes) (hcount : 1 < config.hopCount)
    {window : HopWindow} (hhushed : central.Hushed window) :
    (central.decisionWork window).1.OnCourse mask
      (epoch + UInt8.ofNat ((central.observe window).voteHops +
        (central.observe window).hopOnVote.escapeHops))
      (if (central.observe window).hopOnVote.escapesSilence then 0 else silentWindows + 1)
      (if (central.observe window).hopOnVote.escapesSilence then silentEscapes + 1
        else silentEscapes) := by
  obtain ⟨hheard, -, hpending⟩ := hhushed
  have hhopped := ((h.observe hheard).hopOnVote hpending).hopOutOfSilence
    (hopOnVote_pendingValid hpending)
  rw [decisionWork_fst hcount, UInt8.ofNat_add, ← UInt8.add_assoc]
  exact (hhopped.of_skeleton (stageBeacon_skeleton _ window)).of_skeleton
    (stageMaskUpdate_skeleton _ window)

/-! ## The whole silence -/

/-- One silence tunes through consecutive epochs under one mask. -/
theorem OnCourse.tunedAlong {central : HopCentral config} {windows : List HopWindow}
    (h : central.OnCourse mask epoch silentWindows silentEscapes) (hcount : 1 < config.hopCount)
    (hhushed : Along (fun central window => (central.decisionWork window).1) Hushed central windows) :
    central.tunedAlong windows = walk mask epoch (central.tunedAlong windows).length := by
  induction windows generalizing central epoch silentWindows silentEscapes with
  | nil => rfl
  | cons window windows ih =>
      have hrest := ih (h.decisionWork hcount hhushed.1) hhushed.2
      rw [HopCentral.tunedAlong, List.length_append, h.tunedIn hcount hhushed.1, length_walk, walk_add _ _ (_ + _)]
      exact congrArg (_ ++ ·) hrest

theorem toNat_add_one_of_lt_cap {count : UInt16} (h : count.toNat < silentEscapeCap) :
    (count + 1).toNat = count.toNat + 1 := by
  rw [UInt16.toNat_add]
  rw [silentEscapeCap] at h
  exact Nat.mod_eq_of_lt (by change _ + 1 < _; omega)

theorem toNat_add_one_of_lt_pool {count : UInt8} (h : count.toNat < config.hopCount) :
    (count + 1).toNat = count.toNat + 1 := by
  have hpool : config.hopCount < 255 := config.hopChannels_lt
  rw [UInt8.toNat_add]
  exact Nat.mod_eq_of_lt (by change _ + 1 < _; omega)

theorem HopConfig.silentEscapeWindows_pos (hcount : 1 < config.hopCount) :
    0 < config.silentEscapeWindows := Nat.lt_min.mpr ⟨by omega, by decide⟩

/-- Without a vote the hops of a silence are its escapes: one for every full count of
silent windows, up to the limit. -/
theorem OnCourse.length_tunedAlong {central : HopCentral config} {windows : List HopWindow}
    (h : central.OnCourse mask epoch silentWindows silentEscapes) (hcount : 1 < config.hopCount)
    (hthreshold : config.hopThreshold ≠ 0)
    (hhushed : Along (fun central window => (central.decisionWork window).1) Hushed central windows)
    (hlimit : silentEscapes.toNat ≤ config.hopCount)
    (hwindows : silentEscapes.toNat < config.hopCount →
      silentWindows.toNat < config.silentEscapeWindows) :
    (central.tunedAlong windows).length = min (config.hopCount - silentEscapes.toNat)
      ((silentWindows.toNat + windows.length) / config.silentEscapeWindows) := by
  induction windows generalizing central epoch silentWindows silentEscapes with
  | nil =>
      rcases Nat.lt_or_ge silentEscapes.toNat config.hopCount with hbelow | hdone
      · simp [HopCentral.tunedAlong, Nat.div_eq_of_lt (hwindows hbelow)]
      · simp [HopCentral.tunedAlong, Nat.sub_eq_zero_of_le hdone]
  | cons window windows ih =>
      have hnext := h.decisionWork hcount hhushed.1
      have hvoted := (h.observe hhushed.1.1).hopOnVote hhushed.1.2.2
      have hvote : (central.observe window).voteHops = 0 := by
        rw [voteHops, votesHop_observe h.maskReady hhushed.1.2.1]
        simp [hthreshold]
      have hpos := HopConfig.silentEscapeWindows_pos hcount
      have hcap : config.silentEscapeWindows ≤ silentEscapeCap := Nat.min_le_right ..
      have hescape_iff : (central.observe window).hopOnVote.escapesSilence = true ↔
          config.silentEscapeWindows ≤ (silentWindows + 1).toNat ∧
            silentEscapes.toNat < config.hopCount := by
        rw [escapesSilence, hvoted.silentWindows, hvoted.silentEscapes, Bool.and_eq_true,
          decide_eq_true_eq, decide_eq_true_eq, HopConfig.silentEscapeLimit]
      rw [HopCentral.tunedAlong, List.length_append, h.tunedIn hcount hhushed.1, length_walk, hvote,
        Nat.zero_add, List.length_cons, escapeHops]
      rcases Nat.lt_or_ge silentEscapes.toNat config.hopCount with hbelow | hdone
      · have hlt := hwindows hbelow
        have hs := toNat_add_one_of_lt_cap (Nat.lt_of_lt_of_le hlt hcap)
        rw [hs] at hescape_iff
        by_cases hescape : (central.observe window).hopOnVote.escapesSilence = true
        · -- the count is full, so this window escapes and the count starts over
          rw [if_pos hescape, if_pos hescape] at hnext
          have hc := toNat_add_one_of_lt_pool hbelow
          have hfull : silentWindows.toNat + (windows.length + 1) =
              config.silentEscapeWindows + windows.length := by
            have := (hescape_iff.mp hescape).1
            omega
          have hrest := ih hnext hhushed.2 (by omega) fun _ => hpos
          have hzero : (0 : UInt16).toNat + windows.length = windows.length := Nat.zero_add _
          rw [hc, hzero] at hrest
          rw [if_pos hescape, hrest, hfull, Nat.add_div_left _ hpos]
          omega
        · rw [if_neg hescape, if_neg hescape] at hnext
          have hshort : silentWindows.toNat + 1 < config.silentEscapeWindows := by
            by_contra hge
            exact hescape (hescape_iff.mpr ⟨Nat.not_lt.mp hge, hbelow⟩)
          have hrest := ih hnext hhushed.2 hlimit fun _ => hs ▸ hshort
          rw [if_neg hescape, hrest, hs, Nat.zero_add,
            show silentWindows.toNat + 1 + windows.length =
              silentWindows.toNat + (windows.length + 1) by omega]
      · have hescape : ¬(central.observe window).hopOnVote.escapesSilence = true :=
          fun hescape => Nat.not_lt.mpr hdone (hescape_iff.mp hescape).2
        rw [if_neg hescape, if_neg hescape] at hnext
        have hrest := ih hnext hhushed.2 hlimit fun hbelow => absurd hbelow (Nat.not_lt.mpr hdone)
        rw [if_neg hescape, hrest, Nat.sub_eq_zero_of_le hdone, Nat.zero_min, Nat.zero_min]

/-- At threshold zero every window hops. -/
theorem OnCourse.le_length_tunedAlong {central : HopCentral config} {windows : List HopWindow}
    (h : central.OnCourse mask epoch silentWindows silentEscapes) (hcount : 1 < config.hopCount)
    (hthreshold : config.hopThreshold = 0)
    (hhushed : Along (fun central window => (central.decisionWork window).1) Hushed central windows) :
    windows.length ≤ (central.tunedAlong windows).length := by
  induction windows generalizing central epoch silentWindows silentEscapes with
  | nil => exact Nat.zero_le _
  | cons window windows ih =>
      have hrest := ih (h.decisionWork hcount hhushed.1) hhushed.2
      have hvote : (central.observe window).voteHops = 1 := by
        rw [voteHops, votesHop_observe h.maskReady hhushed.1.2.1]
        simp [hthreshold]
      rw [HopCentral.tunedAlong, List.length_append, h.tunedIn hcount hhushed.1, length_walk, hvote,
        List.length_cons]
      omega

/-! ## Silence over a clean pool -/

/-- Every channel is in use and none has a bad score, so nothing is due. -/
structure Clean (central : HopCentral config) : Prop where
  maskReady : central.maskReady = true
  pendingValid : central.pendingValid = false
  pending : ∀ channel < config.hopCount, hopPolicyMaskGet central.pendingMask channel = true
  bad : ∀ channel < config.hopCount,
    (central.channelBad channel).toNat < config.hopMaskThreshold.toNat

theorem Clean.recomputeChannel {central : HopCentral config} (h : central.Clean) {channel : ℕ}
    (hchannel : channel < config.hopCount) :
    HopCentral.recomputeChannel 0 (central, false) channel = (central, false) := by
  simp [HopCentral.recomputeChannel, h.pending channel hchannel]

theorem Clean.foldl_recomputeChannel {central : HopCentral config} (h : central.Clean)
    {channels : List ℕ} (hchannels : ∀ channel ∈ channels, channel < config.hopCount) :
    channels.foldl (HopCentral.recomputeChannel 0) (central, false) = (central, false) := by
  induction channels with
  | nil => rfl
  | cons channel channels ih =>
      rw [List.foldl_cons, h.recomputeChannel (hchannels channel (List.mem_cons_self ..))]
      exact ih fun other hmem => hchannels other (List.mem_cons_of_mem _ hmem)

theorem Clean.worstChannel {central : HopCentral config} (h : central.Clean) :
    hopPolicyWorstChannel central.channelBad central.pendingMask central.anchorMask
      config.hopCount config.hopMaskThreshold = config.hopCount := by
  by_contra hworst
  obtain ⟨hlt, heligible⟩ := eligible_of_worstEligible hworst
  simp only [Bool.and_eq_true, decide_eq_true_eq] at heligible
  exact Nat.not_lt.mpr heligible.2 (h.bad _ hlt)

theorem Clean.recomputeMask {central : HopCentral config} (h : central.Clean) :
    central.recomputeMask 0 = central := by
  have hloop := h.foldl_recomputeChannel
    fun channel (hmem : channel ∈ List.range config.hopCount) => List.mem_range.mp hmem
  have hworst : maskWorstChannel (central, false) = (central, false) := by
    simp [maskWorstChannel, h.worstChannel]
  rw [HopCentral.recomputeMask, ensureMask_of_ready h.maskReady, hloop, hworst]
  rfl

theorem Clean.observe {central : HopCentral config} (h : central.Clean) {window : HopWindow}
    (hactive : window.active = 0) : (central.observe window).Clean := by
  have haccrued : (central.accrueLoss window).Clean :=
    ⟨h.maskReady, h.pendingValid, h.pending, h.bad⟩
  rw [HopCentral.observe, scoreCurrentChannel, if_pos hactive, hactive, haccrued.recomputeMask,
    countSilence]
  split
  · exact ⟨h.maskReady, h.pendingValid, h.pending, h.bad⟩
  · exact ⟨h.maskReady, h.pendingValid, h.pending, h.bad⟩

theorem Clean.hopToNextEpoch {central : HopCentral config} (h : central.Clean) :
    central.hopToNextEpoch.Clean := by
  rw [hopToNextEpoch_of_not_pending h.pendingValid]
  exact ⟨h.maskReady, h.pendingValid, h.pending, h.bad⟩

theorem Clean.hopOnVote {central : HopCentral config} (h : central.Clean) :
    central.hopOnVote.Clean := by
  rw [HopCentral.hopOnVote]
  split
  · exact h.hopToNextEpoch
  · exact h

theorem Clean.hopOutOfSilence {central : HopCentral config} (h : central.Clean) :
    central.hopOutOfSilence.Clean := by
  rw [HopCentral.hopOutOfSilence]
  split
  · exact Clean.hopToNextEpoch ⟨h.maskReady, h.pendingValid, h.pending, h.bad⟩
  · exact h

theorem Clean.stageBeacon {central : HopCentral config} (h : central.Clean) (window : HopWindow) :
    (central.stageBeacon window).1.Clean :=
  ⟨h.maskReady, h.pendingValid, h.pending, h.bad⟩

theorem Clean.stageMaskUpdate {central : HopCentral config} (h : central.Clean)
    (window : HopWindow) : (central.stageMaskUpdate window).1.Clean := by
  rw [HopCentral.stageMaskUpdate]
  dsimp only
  split
  · exact ⟨h.maskReady, h.pendingValid, h.pending, h.bad⟩
  · exact ⟨h.maskReady, h.pendingValid, h.pending, h.bad⟩

theorem Clean.decisionWork {central : HopCentral config} (h : central.Clean)
    (hcount : 1 < config.hopCount) {window : HopWindow} (hactive : window.active = 0) :
    (central.decisionWork window).1.Clean := by
  have hhopped := (h.observe hactive).hopOnVote.hopOutOfSilence
  rw [decisionWork_fst hcount]
  exact (hhopped.stageBeacon window).stageMaskUpdate window

theorem Clean.along {central : HopCentral config} (h : central.Clean) (hcount : 1 < config.hopCount)
    {window : HopWindow} (hheard : window.heard = 0) (hactive : window.active = 0) (count : ℕ) :
    Along (fun central window => (central.decisionWork window).1) Hushed central
      (List.replicate count window) := by
  induction count generalizing central with
  | zero => trivial
  | succ count ih =>
      exact ⟨⟨hheard, hactive, (h.observe hactive).pendingValid⟩, ih (h.decisionWork hcount hactive)⟩

/-! ## What the walk covers -/

/-- Either the vote hops in every window too, or at most one active channel lies
where the wrap of the epoch makes the walk skip. -/
def WalkCovers (central : HopCentral config) : Prop :=
  config.hopThreshold = 0 ∨
    ∀ first second, gapStart 256 config.hopCount central.hopEpoch.toNat ≤ first → first < second →
      second ≤ gapEnd 256 config.hopCount central.hopEpoch.toNat →
        ¬(hopPolicyMaskGet central.activeMask first = true ∧
          hopPolicyMaskGet central.activeMask second = true)

/-- The start of a silence: masks set up, nothing counted yet. -/
structure AtSilence (central : HopCentral config) : Prop where
  maskReady : central.maskReady = true
  silentWindows : central.silentWindows = 0
  silentEscapes : central.silentEscapes = 0

theorem AtSilence.onCourse {central : HopCentral config} (h : central.AtSilence) :
    central.OnCourse central.activeMask central.hopEpoch 0 0 :=
  ⟨rfl, rfl, h.silentWindows, h.silentEscapes, h.maskReady⟩

theorem AtSilence.length_tunedAlong {central : HopCentral config} (h : central.AtSilence)
    (hcount : 1 < config.hopCount) (hthreshold : config.hopThreshold ≠ 0) {windows : List HopWindow}
    (hhushed : Along (fun central window => (central.decisionWork window).1) Hushed central windows)
    (hlong : config.hopCount * config.silentEscapeWindows ≤ windows.length) :
    (central.tunedAlong windows).length = config.hopCount := by
  have hpos := HopConfig.silentEscapeWindows_pos hcount
  have hlength := h.onCourse.length_tunedAlong hcount hthreshold hhushed (Nat.zero_le _)
    fun _ => hpos
  have hescapes : config.hopCount ≤
      ((0 : UInt16).toNat + windows.length) / config.silentEscapeWindows := by
    rw [Nat.le_div_iff_mul_le hpos]
    exact hlong.trans (Nat.le_add_left ..)
  rw [hlength]
  exact Nat.min_eq_left hescapes

end HopCentral

open HopCentral

/-- A silence long enough for every escape tunes to every active channel iff the wrap
of the epoch skips none of them. -/
theorem silent_walk_covers_iff (config : HopConfig) (hcount : 2 ≤ config.hopCount)
    (central : HopCentral config) (hsilence : central.AtSilence) (windows : List HopWindow)
    (hhushed : Along (fun central window => (central.decisionWork window).1) Hushed central windows)
    (hlong : config.hopCount * config.silentEscapeWindows ≤ windows.length) :
    (∀ channel < config.hopCount, hopPolicyMaskGet central.activeMask channel = true →
        channel ∈ central.tunedAlong windows) ↔ central.WalkCovers := by
  have hpool : config.hopCount < 255 := config.hopChannels_lt
  have hepoch : central.hopEpoch.toNat < 256 := central.hopEpoch.toNat_lt
  have hwalk := hsilence.onCourse.tunedAlong hcount hhushed
  by_cases hthreshold : config.hopThreshold = 0
  · -- two hops and more for each channel
    refine iff_of_true (fun channel hchannel hactive => ?_) (.inl hthreshold)
    have hhops := hsilence.onCourse.le_length_tunedAlong hcount hthreshold hhushed
    have htwice : 2 ≤ config.silentEscapeWindows := Nat.le_min.mpr ⟨by omega, by decide⟩
    have := Nat.mul_le_mul_left config.hopCount htwice
    rw [hwalk, mem_walk_iff hchannel hactive]
    exact finds_of_visits hchannel hactive
      (visits_of_double (by omega) hepoch hchannel (by omega))
  · rw [hwalk, hsilence.length_tunedAlong hcount hthreshold hhushed hlong, WalkCovers,
      or_iff_right hthreshold, ← finds_all_iff (by omega) hepoch]
    constructor
    · intro h channel hchannel hactive
      exact (mem_walk_iff hchannel hactive).mp (h channel hchannel hactive)
    · intro h channel hchannel hactive
      exact (mem_walk_iff hchannel hactive).mpr (h channel hchannel hactive)

/-- The default pool, with one keyboard half. -/
def defaultHopConfig : HopConfig where
  hopChannels := [74, 75, 76, 77, 78, 79, 80, 81, 82, 83]
  hopAnchors := none
  pipeWeights := [1]
  selfPipe _ := false
  wirePipe _ := false
  hopThreshold := 24
  hopMaskThreshold := 16
  hopRestoreWindows := 64
  hopMinActive := 6
  rssiFloorDbm := -85
  surveyThresholdDbm := -65
  hopWindowMs := 32
  idleKeepaliveMs := 128
  hopChannels_pos := by decide
  hopChannels_lt := by decide
  hopAnchors_ne_nil := sampleHopConfig.hopAnchors_ne_nil
  hopAnchors_subset := by simp
  beacon_fits := sampleHopConfig.beacon_fits
  maskUpdate_fits := by decide

/-- A window in which no pipe is heard. -/
def quietWindow : HopWindow where
  heard := 0
  motion := 0
  active := 0
  rssiDbm _ := -60
  quietMs _ := 5000
  updateQuietMs _ := 5000
  peers _ := ⟨100, -60⟩
  hidModifiers := 0
  hidIndicators := 0
  wireUp := false

/-- The booted central once its epoch has come to 250, on the first channel. -/
def nearWrap : HopCentral defaultHopConfig :=
  { (boot defaultHopConfig none fun _ => -100) with hopEpoch := 250 }

/-- From epoch 250 the ten escapes tune to the first six channels only. -/
theorem silent_walk_skips_channels : ¬ ∀ (config : HopConfig), 2 ≤ config.hopCount →
    ∀ (central : HopCentral config), central.Tuned → central.AtSilence →
      ∀ windows : List HopWindow,
        Along (fun central window => (central.decisionWork window).1) Hushed central windows →
        config.hopCount * config.silentEscapeWindows ≤ windows.length →
        ∀ channel < config.hopCount, hopPolicyMaskGet central.activeMask channel = true →
          channel ∈ central.tunedAlong windows := by
  intro h
  have hclean : nearWrap.Clean :=
    ⟨by decide +kernel, by decide +kernel, by decide +kernel, by decide +kernel⟩
  have hsilence : nearWrap.AtSilence := ⟨by decide +kernel, by decide +kernel, by decide +kernel⟩
  have htuned : nearWrap.Tuned := ⟨by decide +kernel, fun _ => by decide +kernel⟩
  have hcount : 2 ≤ defaultHopConfig.hopCount := by decide
  have hhushed : Along (fun central window => (central.decisionWork window).1) Hushed nearWrap
      (List.replicate 200 quietWindow) := hclean.along hcount rfl rfl 200
  have hlong : defaultHopConfig.hopCount * defaultHopConfig.silentEscapeWindows ≤
      (List.replicate 200 quietWindow).length := by
    rw [List.length_replicate]
    decide
  have htunes := h defaultHopConfig hcount nearWrap htuned hsilence _ hhushed hlong 7 (by decide)
    (by decide +kernel)
  rw [hsilence.onCourse.tunedAlong hcount hhushed,
    hsilence.length_tunedAlong hcount (by decide) hhushed hlong] at htunes
  exact absurd htunes (by decide +kernel)

/-- From epoch zero the escapes of a pool of four tune to all of it. -/
theorem silent_walk_covers_sample :
    let central := boot sampleHopConfig none fun _ => -100
    ∀ channel < sampleHopConfig.hopCount, hopPolicyMaskGet central.activeMask channel = true →
      channel ∈ central.tunedAlong (List.replicate 32 quietWindow) := by
  have hclean : (boot sampleHopConfig none fun _ => -100).Clean :=
    ⟨by decide +kernel, by decide +kernel, by decide +kernel, by decide +kernel⟩
  refine (silent_walk_covers_iff sampleHopConfig (by decide) (boot sampleHopConfig none fun _ => -100)
    ⟨by decide +kernel, by decide +kernel, by decide +kernel⟩ (List.replicate 32 quietWindow)
    (hclean.along (by decide) rfl rfl 32) (by decide)).mpr (.inr fun first second hstart hlt hend => ?_)
  have hgap : gapEnd 256 sampleHopConfig.hopCount
      (boot sampleHopConfig none fun _ => -100).hopEpoch.toNat ≤
      gapStart 256 sampleHopConfig.hopCount
        (boot sampleHopConfig none fun _ => -100).hopEpoch.toNat := by decide +kernel
  omega

end SplitEsb
