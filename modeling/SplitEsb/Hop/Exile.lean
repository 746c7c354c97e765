import SplitEsb.Hop.Masks
import SplitEsb.Shared.RetestLadder

/-! # Exile of a masked channel
Every channel climbs a ladder of its own: masked, counted back in, and masked again for
longer unless it served a full restore period live in between. -/

namespace SplitEsb

open RetestLadder Transition

variable {config : HopConfig}

theorem hopPolicyRetestThreshold_toNat (base : UInt16) (level : UInt8) :
    (hopPolicyRetestThreshold base level).toNat =
      min 65535 (base.toNat <<< min level.toNat hopPolicyRetestLevelMax.toNat) := by
  have hlevel : (if level > hopPolicyRetestLevelMax then hopPolicyRetestLevelMax else level).toNat =
      min level.toNat hopPolicyRetestLevelMax.toNat := by
    split_ifs with habove
    · exact (Nat.min_eq_right (Nat.le_of_lt (UInt8.lt_iff_toNat_lt.mp habove))).symm
    · exact (Nat.min_eq_left (Nat.le_of_not_lt fun hlt => habove (UInt8.lt_iff_toNat_lt.mpr hlt))).symm
  simp only [hopPolicyRetestThreshold, hlevel]
  generalize base.toNat <<< min level.toNat hopPolicyRetestLevelMax.toNat = threshold
  split_ifs with hover
  · rw [Nat.min_eq_left (by omega)]
    rfl
  · rw [Nat.min_eq_right (by omega), UInt16.toNat_ofNat_of_lt' (by simp [UInt16.size]; omega)]

/-- The exile of a level of at most six retests. -/
theorem hopPolicyRetestThreshold_le (base : UInt16) (level : UInt8) :
    (hopPolicyRetestThreshold base level).toNat ≤ min 65535 (64 * base.toNat) := by
  rw [hopPolicyRetestThreshold_toNat, Nat.shiftLeft_eq]
  have hpow : 2 ^ min level.toNat hopPolicyRetestLevelMax.toNat ≤ 2 ^ 6 :=
    Nat.pow_le_pow_right (by decide) (Nat.min_le_right ..)
  have hmul := Nat.mul_le_mul_left base.toNat hpow
  omega

theorem hopPolicyRetestThreshold_pos {base : UInt16} (hbase : 0 < base.toNat) (level : UInt8) :
    0 < (hopPolicyRetestThreshold base level).toNat := by
  rw [hopPolicyRetestThreshold_toNat, Nat.shiftLeft_eq]
  have hpos := Nat.mul_pos hbase (Nat.two_pow_pos (min level.toNat hopPolicyRetestLevelMax.toNat))
  omega

theorem toNat_add_one_of_lt {count bound : UInt16} (h : count.toNat < bound.toNat) :
    (count + 1).toNat = count.toNat + 1 := by
  have hbound := bound.toNat_lt
  rw [UInt16.toNat_add, UInt16.toNat_one, Nat.mod_eq_of_lt (by omega)]

def HopConfig.ladder (config : HopConfig) (hrestore : 0 < config.hopRestoreWindows.toNat) : Ladder where
  term := config.hopRestoreWindows.toNat
  cap := hopPolicyRetestLevelMax.toNat
  exile level := (hopPolicyRetestThreshold config.hopRestoreWindows (UInt8.ofNat level)).toNat
  term_pos := hrestore
  exile_pos _ := hopPolicyRetestThreshold_pos hrestore _

namespace HopCentral

/-- A channel on the mask the engine writes. -/
def rung (central : HopCentral config) (channel : ℕ) : Rung where
  live := hopPolicyMaskGet central.pendingMask channel
  exiled := (central.channelMaskedWindows channel).toNat
  service := (central.channelActiveWindows channel).toNat
  level := (central.channelRetestLevel channel).toNat

/-- The window serves a channel live. -/
def serves (central : HopCentral config) (active : UInt32) (channel : ℕ) : Bool :=
  channel = central.hopIndex ∧ active ≠ 0

variable {hrestore : 0 < config.hopRestoreWindows.toNat}

/-! ## The recompute loop -/

theorem ladder_exile (central : HopCentral config) (channel : ℕ) :
    (config.ladder hrestore).exile (central.rung channel).level =
      (hopPolicyRetestThreshold config.hopRestoreWindows
        (central.channelRetestLevel channel)).toNat := by
  have hlevel : UInt8.ofNat (central.channelRetestLevel channel).toNat =
      central.channelRetestLevel channel := UInt8.ofNat_toNat
  exact congrArg (fun level => (hopPolicyRetestThreshold config.hopRestoreWindows level).toNat) hlevel

theorem recomputeChannel_live (active : UInt32) (state : HopCentral config × Bool) {channel : ℕ}
    (hlive : (state.1.rung channel).live = true) :
    (recomputeChannel active state channel).1.rung channel =
      serve (config.ladder hrestore) (state.1.serves active channel) (state.1.rung channel) := by
  obtain ⟨central, changed⟩ := state
  have hmask : hopPolicyMaskGet central.pendingMask channel = true := hlive
  simp only [recomputeChannel, hmask, if_true, serve]
  by_cases hserved : (channel = central.hopIndex ∧ active ≠ 0) ∧
      central.channelActiveWindows channel < config.hopRestoreWindows
  · have hlt : (central.channelActiveWindows channel).toNat < config.hopRestoreWindows.toNat :=
      UInt16.lt_iff_toNat_lt.mp hserved.2
    have hsucc := toNat_add_one_of_lt hlt
    have hterm : central.channelActiveWindows channel + 1 ≥ config.hopRestoreWindows ↔
        config.hopRestoreWindows.toNat ≤ (central.channelActiveWindows channel).toNat + 1 := by
      rw [ge_iff_le, UInt16.le_iff_toNat_le, hsucc]
    have hserves : central.serves active channel = true ∧
        (central.rung channel).service < (config.ladder hrestore).term :=
      ⟨by simpa [serves] using hserved.1, hlt⟩
    rw [if_pos hserved, if_pos hserves]
    simp only [rung, Function.update_self, hsucc, HopConfig.ladder, hterm]
    split_ifs with hfull
    · simp [hfull]
    · simp [hfull]
  · rw [if_neg hserved, if_neg]
    rintro ⟨hserves, hlt⟩
    exact hserved ⟨by simpa [serves] using hserves, UInt16.lt_iff_toNat_lt.mpr hlt⟩

theorem recomputeChannel_exiled (active : UInt32) (state : HopCentral config × Bool) {channel : ℕ}
    (hchannel : channel < config.hopCount) (hlive : (state.1.rung channel).live = false)
    (h : Sound (config.ladder hrestore) (state.1.rung channel)) :
    let after := (recomputeChannel active state channel).1
    after.rung channel = age (config.ladder hrestore) (state.1.rung channel) ∧
      ((after.rung channel).live = true → after.channelBad channel = 0) := by
  obtain ⟨central, changed⟩ := state
  have hmask : hopPolicyMaskGet central.pendingMask channel = false := hlive
  have hexile := h.exiled_lt hlive
  rw [ladder_exile] at hexile
  have hsucc := toNat_add_one_of_lt hexile
  simp only [recomputeChannel, hmask, Bool.false_eq_true, if_false, age, ladder_exile]
  by_cases hback : central.channelMaskedWindows channel + 1 ≥
      hopPolicyRetestThreshold config.hopRestoreWindows (central.channelRetestLevel channel)
  · have hreturn : (hopPolicyRetestThreshold config.hopRestoreWindows
        (central.channelRetestLevel channel)).toNat ≤ (central.rung channel).exiled + 1 :=
      hsucc ▸ UInt16.le_iff_toNat_le.mp hback
    rw [if_pos hback, if_pos hreturn]
    simp [rung, hopPolicyMaskGet_set hchannel]
  · have hstays : ¬ (hopPolicyRetestThreshold config.hopRestoreWindows
        (central.channelRetestLevel channel)).toNat ≤ (central.rung channel).exiled + 1 :=
      fun hle => hback (UInt16.le_iff_toNat_le.mpr (hsucc.symm ▸ hle))
    rw [if_neg hback, if_neg hstays]
    simp only [rung, hmask, Function.update_self]
    exact ⟨by rw [hsucc], fun hactive => absurd hactive Bool.false_ne_true⟩

theorem recomputeChannel_other (active : UInt32) (state : HopCentral config × Bool)
    {channel other : ℕ} (hchannel : channel < config.hopCount) (hne : other ≠ channel) :
    let after := (recomputeChannel active state channel).1
    after.rung other = state.1.rung other ∧ after.channelBad other = state.1.channelBad other := by
  obtain ⟨central, changed⟩ := state
  simp only [recomputeChannel]
  split_ifs <;> simp [rung, hne, hopPolicyMaskGet_set hchannel]

theorem recomputeChannel_hopIndex (active : UInt32) (state : HopCentral config × Bool)
    (channel : ℕ) : (recomputeChannel active state channel).1.hopIndex = state.1.hopIndex :=
  congrArg (fun tuning => tuning.2.1)
    (tuning_of_skeleton (recomputeChannel_skeleton active state channel))

/-- What the loop does to a channel; one that came back has a clean score. -/
def LoopedRung (ladder : Ladder) (active : UInt32) (before after : HopCentral config)
    (channel : ℕ) : Prop :=
  (after.rung channel =
      if (before.rung channel).live then
        serve ladder (before.serves active channel) (before.rung channel)
      else age ladder (before.rung channel)) ∧
    ((before.rung channel).live = false → (after.rung channel).live = true →
      after.channelBad channel = 0)

theorem LoopedRung.sound {ladder : Ladder} {active : UInt32} {before after : HopCentral config}
    {channel : ℕ} (hloop : LoopedRung ladder active before after channel)
    (h : Sound ladder (before.rung channel)) : Sound ladder (after.rung channel) := by
  rw [hloop.1]
  cases hlive : (before.rung channel).live with
  | true => exact h.serve hlive _
  | false => exact h.age

theorem recomputeChannel_rung (active : UInt32) (state : HopCentral config × Bool) {channel : ℕ}
    (hchannel : channel < config.hopCount)
    (h : Sound (config.ladder hrestore) (state.1.rung channel)) :
    LoopedRung (config.ladder hrestore) active state.1 (recomputeChannel active state channel).1
      channel := by
  cases hlive : (state.1.rung channel).live with
  | true =>
      refine ⟨?_, fun hout => absurd (hlive.symm.trans hout) nofun⟩
      rw [hlive, if_pos rfl]
      exact recomputeChannel_live active state hlive
  | false =>
      obtain ⟨hage, hclean⟩ := recomputeChannel_exiled active state hchannel hlive h
      refine ⟨?_, fun _ => hclean⟩
      rw [hlive, if_neg Bool.false_ne_true]
      exact hage

/-- The loop visits every channel of its list once. -/
theorem foldl_recomputeChannel_rung (active : UInt32) {channels : List ℕ} (hnodup : channels.Nodup)
    (hpool : ∀ channel ∈ channels, channel < config.hopCount) (state : HopCentral config × Bool)
    {channel : ℕ} (h : Sound (config.ladder hrestore) (state.1.rung channel)) :
    let after := (channels.foldl (recomputeChannel active) state).1
    if channel ∈ channels then
      LoopedRung (config.ladder hrestore) active state.1 after channel
    else after.rung channel = state.1.rung channel ∧
      after.channelBad channel = state.1.channelBad channel := by
  induction channels generalizing state with
  | nil => exact ⟨rfl, rfl⟩
  | cons first channels ih =>
      obtain ⟨hfresh, hrest⟩ := List.nodup_cons.mp hnodup
      obtain ⟨hfirst, hin⟩ := List.forall_mem_cons.mp hpool
      rw [List.foldl_cons]
      by_cases hsame : channel = first
      · subst hsame
        have hvisit := recomputeChannel_rung active state hfirst h
        have hafter := ih hrest hin (recomputeChannel active state channel) (hvisit.sound h)
        rw [if_neg hfresh] at hafter
        obtain ⟨hrung, hbad⟩ := hafter
        rw [if_pos (List.mem_cons_self ..), LoopedRung, hrung, hbad]
        exact hvisit
      · obtain ⟨hrung, hbad⟩ := recomputeChannel_other active state hfirst hsame
        have hafter := ih hrest hin (recomputeChannel active state first) (by rwa [hrung])
        have hserves : (recomputeChannel active state first).1.serves active channel =
            state.1.serves active channel := by
          rw [serves, serves, recomputeChannel_hopIndex]
        simp only [LoopedRung, hrung, hserves, hbad, List.mem_cons, hsame, false_or] at hafter ⊢
        exact hafter

/-! ## One window -/

theorem hopPolicyWorstChannel_spec {channelBad : ℕ → UInt8} {mask anchorMask : HopMask config.hopCount}
    {poolCount : ℕ} {maskThreshold : UInt16} {worst : ℕ}
    (hfound : hopPolicyWorstChannel channelBad mask anchorMask poolCount maskThreshold = worst)
    (hlt : worst < poolCount) :
    hopPolicyMaskGet mask worst = true ∧ hopPolicyMaskGet anchorMask worst = false ∧
      maskThreshold.toNat ≤ (channelBad worst).toNat := by
  subst hfound
  obtain ⟨-, heligible⟩ := eligible_of_worstEligible hlt.ne
  simp only [Bool.and_eq_true, Bool.not_eq_true', decide_eq_true_eq] at heligible
  exact ⟨heligible.1.2, heligible.1.1, heligible.2⟩

/-- The worst channel is banished, if one is bad enough. -/
theorem maskWorstChannel_rung (hrestore : 0 < config.hopRestoreWindows.toNat)
    (state : HopCentral config × Bool) :
    ∃ worst, (worst < config.hopCount →
        (state.1.rung worst).live = true ∧ hopPolicyMaskGet state.1.anchorMask worst = false ∧
          config.hopMaskThreshold.toNat ≤ (state.1.channelBad worst).toNat) ∧
      ∀ channel < config.hopCount, (maskWorstChannel state).1.rung channel =
        if channel = worst then banish (config.ladder hrestore) (state.1.rung channel)
        else state.1.rung channel := by
  obtain ⟨central, changed⟩ := state
  have hnone : ∃ worst, (worst < config.hopCount →
        (central.rung worst).live = true ∧ hopPolicyMaskGet central.anchorMask worst = false ∧
          config.hopMaskThreshold.toNat ≤ (central.channelBad worst).toNat) ∧
      ∀ channel < config.hopCount, central.rung channel =
        if channel = worst then banish (config.ladder hrestore) (central.rung channel)
        else central.rung channel :=
    ⟨config.hopCount, fun hlt => absurd hlt (Nat.lt_irrefl _),
      fun channel hlt => (if_neg (Nat.ne_of_lt hlt)).symm⟩
  simp only [maskWorstChannel]
  split
  case isFalse => exact hnone
  case isTrue habove =>
  generalize hfound : hopPolicyWorstChannel central.channelBad central.pendingMask central.anchorMask
    config.hopCount config.hopMaskThreshold = worst
  split
  case isFalse => exact hnone
  case isTrue hworst =>
    refine ⟨worst, hopPolicyWorstChannel_spec hfound, fun channel hchannel => ?_⟩
    by_cases hsame : channel = worst
    · subst hsame
      have hraise : central.channelActiveWindows channel < config.hopRestoreWindows ∧
          central.channelRetestLevel channel < hopPolicyRetestLevelMax ↔
            (central.rung channel).service < (config.ladder hrestore).term ∧
              (central.rung channel).level < (config.ladder hrestore).cap :=
        and_congr UInt16.lt_iff_toNat_lt UInt8.lt_iff_toNat_lt
      rw [if_pos rfl, banish]
      simp only [hraise]
      split_ifs with hup
      · have hlevel : (central.channelRetestLevel channel + 1).toNat =
            (central.rung channel).level + 1 := by
          have hcap : (central.rung channel).level < 6 := hup.2
          rw [UInt8.toNat_add, UInt8.toNat_one, Nat.mod_eq_of_lt]
          · rfl
          · simp only [rung] at hcap
            omega
        simp only [rung, hopPolicyMaskGet_set hworst, if_true, Function.update_self] at hlevel ⊢
        rw [hlevel]
        rfl
      · simp only [rung, hopPolicyMaskGet_set hworst, if_true, Function.update_self]
        rfl
    · rw [if_neg hsame]
      split_ifs <;> simp [rung, hopPolicyMaskGet_set hworst, hsame]

theorem rung_scoreCurrentChannel (central : HopCentral config) (window : HopWindow) (channel : ℕ) :
    (central.scoreCurrentChannel window).rung channel = central.rung channel := by
  rw [scoreCurrentChannel]
  split <;> rfl

theorem rung_hopToNextEpoch (central : HopCentral config) (channel : ℕ) :
    central.hopToNextEpoch.rung channel = central.rung channel := by
  simp only [hopToNextEpoch, commitPendingMask]
  split <;> rfl

theorem rung_hopOnVote (central : HopCentral config) (channel : ℕ) :
    central.hopOnVote.rung channel = central.rung channel := by
  rw [hopOnVote]
  split
  · exact rung_hopToNextEpoch central channel
  · rfl

theorem rung_hopOutOfSilence (central : HopCentral config) (channel : ℕ) :
    central.hopOutOfSilence.rung channel = central.rung channel := by
  rw [hopOutOfSilence]
  split
  · exact rung_hopToNextEpoch _ channel
  · rfl

theorem rung_stageMaskUpdate (central : HopCentral config) (window : HopWindow) (channel : ℕ) :
    (central.stageMaskUpdate window).1.rung channel = central.rung channel := by
  simp only [stageMaskUpdate]
  split_ifs <;> rfl

theorem rung_observe (central : HopCentral config) (window : HopWindow) (channel : ℕ) :
    (central.observe window).rung channel =
      (((central.accrueLoss window).scoreCurrentChannel window).recomputeMask window.active).rung
        channel := by
  rw [observe, countSilence]
  split <;> rfl

/-- The hops and the staging leave the ladder to the recompute. -/
theorem rung_decisionWork (hcount : 1 < config.hopCount) (central : HopCentral config)
    (window : HopWindow) (channel : ℕ) :
    (central.decisionWork window).1.rung channel =
      (((central.accrueLoss window).scoreCurrentChannel window).recomputeMask window.active).rung
        channel := by
  have hbeacon (central : HopCentral config) :
      (central.stageBeacon window).1.rung channel = central.rung channel := rfl
  rw [decisionWork_fst hcount, rung_stageMaskUpdate, hbeacon, rung_hopOutOfSilence, rung_hopOnVote,
    rung_observe]

/-- The recompute serves or ages every channel and banishes at most one, no anchor. -/
theorem recomputeMask_rung (hrestore : 0 < config.hopRestoreWindows.toNat)
    {central : HopCentral config} (hready : central.maskReady = true)
    (hthreshold : 0 < config.hopMaskThreshold.toNat) (active : UInt32)
    (h : ∀ channel < config.hopCount, Sound (config.ladder hrestore) (central.rung channel)) :
    ∃ worst, (worst < config.hopCount →
        (central.rung worst).live = true ∧ hopPolicyMaskGet central.anchorMask worst = false) ∧
      ∀ channel < config.hopCount, (central.recomputeMask active).rung channel =
        RetestLadder.step (config.ladder hrestore) (central.serves active channel)
          (decide (channel = worst)) (central.rung channel) := by
  set looped := (List.range config.hopCount).foldl (recomputeChannel active) (central, false)
    with hlooped
  have hloop : ∀ channel < config.hopCount,
      LoopedRung (config.ladder hrestore) active central looped.1 channel := by
    intro channel hchannel
    have hfold := foldl_recomputeChannel_rung active List.nodup_range
      (fun _ hmem => List.mem_range.mp hmem) (central, false) (h channel hchannel)
    rwa [if_pos (List.mem_range.mpr hchannel)] at hfold
  have hanchors : looped.1.anchorMask = central.anchorMask := by
    have hskeleton := congrArg anchorMask (foldl_recomputeChannel_skeleton active (central, false)
      (List.range config.hopCount))
    exact hskeleton
  obtain ⟨worst, hworst, hrungs⟩ := maskWorstChannel_rung hrestore looped
  refine ⟨worst, fun hlt => ?_, fun channel hchannel => ?_⟩
  · obtain ⟨hlive, hanchor, hbad⟩ := hworst hlt
    rw [hanchors] at hanchor
    refine ⟨?_, hanchor⟩
    -- a channel that just came back has a clean score
    by_contra hout
    rw [(hloop worst hlt).2 (eq_false_of_ne_true hout) hlive] at hbad
    exact Nat.not_le_of_lt hthreshold hbad
  · have hmask : (central.recomputeMask active).rung channel =
        (maskWorstChannel looped).1.rung channel := by
      rw [recomputeMask, ensureMask_of_ready hready]
      dsimp only
      split <;> rfl
    rw [hmask, hrungs channel hchannel, (hloop channel hchannel).1, RetestLadder.step]
    simp only [decide_eq_true_eq]

theorem decisionWork_rung (hcount : 1 < config.hopCount) {central : HopCentral config}
    (hready : central.maskReady = true) (hthreshold : 0 < config.hopMaskThreshold.toNat)
    (window : HopWindow)
    (h : ∀ channel < config.hopCount, Sound (config.ladder hrestore) (central.rung channel)) :
    ∃ worst, (worst < config.hopCount →
        (central.rung worst).live = true ∧ hopPolicyMaskGet central.anchorMask worst = false) ∧
      ∀ channel < config.hopCount, (central.decisionWork window).1.rung channel =
        RetestLadder.step (config.ladder hrestore) (central.serves window.active channel)
          (decide (channel = worst)) (central.rung channel) := by
  set scored := (central.accrueLoss window).scoreCurrentChannel window with hscored
  have hsame : scored.anchorMask = central.anchorMask ∧ scored.hopIndex = central.hopIndex ∧
      scored.maskReady = central.maskReady := by
    rw [hscored, scoreCurrentChannel]
    split <;> exact ⟨rfl, rfl, rfl⟩
  obtain ⟨hanchors, hindex, hscoredReady⟩ := hsame
  have hrung (channel : ℕ) : scored.rung channel = central.rung channel :=
    rung_scoreCurrentChannel (central.accrueLoss window) window channel
  have hserves (channel : ℕ) : scored.serves window.active channel =
      central.serves window.active channel := by rw [serves, serves, hindex]
  obtain ⟨worst, hworst, hrungs⟩ := recomputeMask_rung hrestore
    (hscoredReady.trans hready) hthreshold window.active
    fun channel hchannel => (hrung channel).symm ▸ h channel hchannel
  rw [hrung, hanchors] at hworst
  refine ⟨worst, hworst, fun channel hchannel => ?_⟩
  rw [rung_decisionWork hcount, hrungs channel hchannel, hrung, hserves]

/-! ## Runs -/

theorem rung_boot (config : HopConfig) (stored : Option ByteString.Bytes) (energyDbm : ℕ → Int8)
    (channel : ℕ) : ∃ live, (boot config stored energyDbm).rung channel = ⟨live, 0, 0, 0⟩ := by
  rw [boot, hopBootMask]
  split_ifs with hcount
  · exact ⟨_, rfl⟩
  · dsimp only
    cases stored.bind (hopMaskSettingsSet config) with
    | none => split_ifs <;> exact ⟨_, rfl⟩
    | some persisted => split_ifs <;> exact ⟨_, rfl⟩

end HopCentral

/-- A run of decision windows from boot. -/
structure HopRun (config : HopConfig) where
  stored : Option ByteString.Bytes
  energyDbm : ℕ → Int8
  windows : List HopWindow

namespace HopRun

open HopCentral

variable (hops : HopRun config)

/-- The engine before a window. -/
def central (window : ℕ) : HopCentral config :=
  (boot config hops.stored hops.energyDbm).runWindows (hops.windows.take window)

def live (channel window : ℕ) : Bool := hopPolicyMaskGet (hops.central window).pendingMask channel

/-- The window has an active pipe and the channel is the live one. -/
def served (channel window : ℕ) : Bool :=
  match hops.windows[window]? with
  | some hopWindow => (hops.central window).serves hopWindow.active channel
  | none => false

/-- The window clears the channel. -/
def masked (channel window : ℕ) : Bool :=
  hops.live channel window && !hops.live channel (window + 1)

def level (channel window : ℕ) : UInt8 := (hops.central window).channelRetestLevel channel

/-- The windows that served the channel while set, up to this one, since it was masked. -/
def service (channel window : ℕ) : ℕ :=
  serviceThrough (hops.live channel) (hops.served channel) (hops.masked channel) window

/-- Exiles last as long as the retest level says; the level goes up for a channel masked
before its restore period was served, and to zero as the period is complete; a window
masks one channel at most, and no anchor. -/
structure PacesExile : Prop where
  returns : ∀ channel < config.hopCount, ∀ window < hops.windows.length,
    hops.masked channel window = true →
      let exile := (hopPolicyRetestThreshold config.hopRestoreWindows
        (hops.level channel (window + 1))).toNat
      (∀ passed < exile, window + 1 + passed ≤ hops.windows.length →
        hops.live channel (window + 1 + passed) = false) ∧
      (window + 1 + exile ≤ hops.windows.length → hops.live channel (window + 1 + exile) = true) ∧
      exile ≤ min 65535 (64 * config.hopRestoreWindows.toNat)
  level_le : ∀ channel < config.hopCount, ∀ window ≤ hops.windows.length,
    (hops.level channel window).toNat ≤ hopPolicyRetestLevelMax.toNat
  level_succ : ∀ channel < config.hopCount, ∀ window < hops.windows.length,
    (hops.level channel (window + 1)).toNat =
      if hops.masked channel window ∧
          hops.service channel window < config.hopRestoreWindows.toNat then
        min ((hops.level channel window).toNat + 1) hopPolicyRetestLevelMax.toNat
      else if (hops.live channel window ∧ hops.served channel window) ∧
          hops.service channel window = config.hopRestoreWindows.toNat then 0
      else (hops.level channel window).toNat
  masked_unique : ∀ window < hops.windows.length, ∀ channel < config.hopCount,
    ∀ other < config.hopCount, hops.masked channel window = true → hops.masked other window = true →
      channel = other
  masked_plain : ∀ window < hops.windows.length, ∀ channel < config.hopCount,
    hops.masked channel window = true → config.hopIsAnchorIndex channel = false

variable {hops}

theorem central_succ {window : ℕ} (hwindow : window < hops.windows.length) :
    hops.central (window + 1) =
      ((hops.central window).decisionWork (hops.windows.get ⟨window, hwindow⟩)).1 := by
  rw [central, List.take_succ_eq_append_getElem hwindow, runWindows, run_append]
  rfl

theorem exists_masked {hrestore : 0 < config.hopRestoreWindows.toNat}
    (hcount : 1 < config.hopCount) (hthreshold : 0 < config.hopMaskThreshold.toNat)
    {window : ℕ} (hwindow : window < hops.windows.length)
    (h : ∀ channel < config.hopCount,
      Sound (config.ladder hrestore) ((hops.central window).rung channel)) :
    ∃ worst, (worst < config.hopCount → hopPolicyMaskGet (hops.central window).anchorMask worst = false) ∧
      ∀ channel < config.hopCount, hops.masked channel window = decide (channel = worst) ∧
        (hops.central (window + 1)).rung channel = RetestLadder.step (config.ladder hrestore)
          (hops.served channel window) (hops.masked channel window)
          ((hops.central window).rung channel) := by
  have hready : (hops.central window).maskReady = true :=
    (Tuned.run config hops.stored hops.energyDbm (hops.windows.take window)).maskReady hcount
  obtain ⟨worst, hworst, hrungs⟩ := decisionWork_rung hcount hready hthreshold
    (hops.windows.get ⟨window, hwindow⟩) h
  refine ⟨worst, fun hlt => (hworst hlt).2, fun channel hchannel => ?_⟩
  have hserved : hops.served channel window =
      (hops.central window).serves (hops.windows.get ⟨window, hwindow⟩).active channel := by
    rw [served, List.getElem?_eq_getElem hwindow]
    rfl
  have hnext : (hops.central (window + 1)).rung channel = RetestLadder.step (config.ladder hrestore)
      (hops.served channel window) (decide (channel = worst)) ((hops.central window).rung channel) := by
    rw [central_succ hwindow, hrungs channel hchannel, hserved]
  have hlive : decide (channel = worst) = true → ((hops.central window).rung channel).live = true := by
    intro hsame
    rw [of_decide_eq_true hsame] at hchannel ⊢
    exact (hworst hchannel).1
  have hmasked : hops.masked channel window = decide (channel = worst) := by
    rw [banished_eq hlive, ← hnext]
    rfl
  exact ⟨hmasked, hmasked ▸ hnext⟩

theorem sound (hrestore : 0 < config.hopRestoreWindows.toNat) (hcount : 1 < config.hopCount)
    (hthreshold : 0 < config.hopMaskThreshold.toNat) {window : ℕ} (hwindow : window ≤ hops.windows.length) :
    ∀ channel < config.hopCount,
      Sound (config.ladder hrestore) ((hops.central window).rung channel) := by
  induction window with
  | zero =>
      intro channel _
      obtain ⟨live, hboot⟩ := rung_boot config hops.stored hops.energyDbm channel
      have hstart : (hops.central 0).rung channel = ⟨live, 0, 0, 0⟩ := hboot
      rw [hstart]
      exact ⟨fun _ => (config.ladder hrestore).exile_pos _, Nat.zero_le _, Nat.zero_le _⟩
  | succ window ih =>
      intro channel hchannel
      have hsound := ih (Nat.le_of_succ_le hwindow)
      obtain ⟨worst, -, hrungs⟩ := exists_masked hcount hthreshold hwindow hsound
      rw [(hrungs channel hchannel).2]
      exact (hsound channel hchannel).step _ _

/-- Every channel climbs its ladder. -/
theorem climbs (hops : HopRun config) (hrestore : 0 < config.hopRestoreWindows.toNat) (hcount : 1 < config.hopCount)
    (hthreshold : 0 < config.hopMaskThreshold.toNat) {channel : ℕ}
    (hchannel : channel < config.hopCount) :
    Run (config.ladder hrestore) hops.windows.length (fun window => (hops.central window).rung channel)
      (hops.served channel) (hops.masked channel) where
  start := sound hrestore hcount hthreshold (Nat.zero_le _) channel hchannel
  step window hwindow := by
    obtain ⟨worst, -, hrungs⟩ := exists_masked hcount hthreshold hwindow
      (sound hrestore hcount hthreshold (Nat.le_of_lt hwindow))
    exact (hrungs channel hchannel).2
  live window hwindow hmasked := by
    rw [masked, Bool.and_eq_true] at hmasked
    exact hmasked.1

theorem anchorMask_central (hops : HopRun config) (hcount : 1 < config.hopCount) (window : ℕ) :
    AnchorMask (hops.central window).anchorMask := by
  have hfull : KeepsAnchors (zero config).ensureMask.activeMask := fun channel hanchor =>
    hopPolicyMaskGet_ensureMask_zero config (HopConfig.anchorIndices_lt hanchor)
  exact ((MaskSafe.boot (keepsAnchors_rule config) hcount hops.stored hops.energyDbm hfull
    (keepsAnchors_restoredMask config hops.stored)).run (keepsAnchors_rule config) hcount
      (hops.windows.take window)).anchors

end HopRun

open HopRun HopCentral

/-- In every run the retest ladder paces the exile of every channel. -/
theorem retest_paces_exile (hops : HopRun config) (hcount : 2 ≤ config.hopCount)
    (hrestore : 1 ≤ config.hopRestoreWindows.toNat)
    (hthreshold : 1 ≤ config.hopMaskThreshold.toNat) : hops.PacesExile where
  returns channel hchannel window hwindow hmasked := by
    have hrun := climbs hops hrestore hcount hthreshold hchannel
    have hexile : (config.ladder hrestore).exile ((hops.central (window + 1)).rung channel).level =
        (hopPolicyRetestThreshold config.hopRestoreWindows (hops.level channel (window + 1))).toNat :=
      ladder_exile _ channel
    refine ⟨fun passed hpassed hlength => ?_, fun hlength => ?_, hopPolicyRetestThreshold_le _ _⟩
    · exact (hrun.exile_counts hwindow hmasked passed (hexile.symm ▸ hpassed) hlength).1
    · have hback := hrun.exile_ends hwindow hmasked (hexile.symm ▸ hlength)
      rw [hexile] at hback
      exact hback
  level_le channel hchannel window hwindow := by
    have hrun := climbs hops hrestore hcount hthreshold hchannel
    exact (hrun.sound hwindow).level_le
  level_succ channel hchannel window hwindow := by
    have hrun := climbs hops hrestore hcount hthreshold hchannel
    obtain ⟨live, hboot⟩ := rung_boot config hops.stored hops.energyDbm channel
    exact hrun.level_succ (congrArg Rung.service hboot) hwindow
  masked_unique window hwindow channel hchannel other hother hfirst hsecond := by
    obtain ⟨worst, -, hrungs⟩ := exists_masked hcount hthreshold hwindow
      (sound hrestore hcount hthreshold (Nat.le_of_lt hwindow))
    rw [(hrungs channel hchannel).1, decide_eq_true_eq] at hfirst
    rw [(hrungs other hother).1, decide_eq_true_eq] at hsecond
    exact hfirst.trans hsecond.symm
  masked_plain window hwindow channel hchannel hmasked := by
    obtain ⟨worst, hworst, hrungs⟩ := exists_masked hcount hthreshold hwindow
      (sound hrestore hcount hthreshold (Nat.le_of_lt hwindow))
    rw [(hrungs channel hchannel).1, decide_eq_true_eq] at hmasked
    rw [← hmasked] at hworst
    exact (anchorMask_central hops hcount window channel hchannel).symm.trans (hworst hchannel)

/-- The second channel, tuned while the keyboard's motion is lost, is masked after four
windows of service of the six it owes, and comes back after two restore periods. -/
theorem retest_paces_exile_sample :
    let hops : HopRun { sampleHopConfig with hopRestoreWindows := 6 } :=
      ⟨none, fun _ => -100, List.replicate 24 lostWindow⟩
    hops.masked 1 9 = true ∧ hops.level 1 10 = 1 ∧ hops.live 1 21 = false ∧
      hops.live 1 22 = true ∧ hops.PacesExile := by
  intro hops
  exact ⟨by decide +kernel, by decide +kernel, by decide +kernel, by decide +kernel,
    retest_paces_exile hops (by decide) (by decide) (by decide)⟩

end SplitEsb
