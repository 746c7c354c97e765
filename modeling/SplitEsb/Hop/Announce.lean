import SplitEsb.Hop.MaskSave
import SplitEsb.Shared.Burst

/-! # What a decision window announces
A change of the epoch or of the mask is announced in a burst of windows, and refreshed
periodically; a pipe heard again after being lost gets its beacon at once. -/

namespace SplitEsb

open ByteString Burst

variable {config : HopConfig}

namespace HopCentral

/-! ## What the counters count -/

/-- The counters of the beacons and the period of the mask updates. -/
def cadence (central : HopCentral config) : UInt8 × UInt8 × UInt8 × UInt8 :=
  (central.beaconedEpoch, central.beaconRepeatsLeft, central.beaconWindow, central.maskWindow)

theorem recomputeChannel_cadence (active : UInt32) (state : HopCentral config × Bool)
    (channel : ℕ) : (recomputeChannel active state channel).1.cadence = state.1.cadence ∧
      (recomputeChannel active state channel).1.maskUpdateRepeats = state.1.maskUpdateRepeats := by
  simp only [recomputeChannel]
  split_ifs <;> exact ⟨rfl, rfl⟩

theorem foldl_recomputeChannel_cadence (active : UInt32) (state : HopCentral config × Bool)
    (channels : List ℕ) :
    (channels.foldl (recomputeChannel active) state).1.cadence = state.1.cadence ∧
      (channels.foldl (recomputeChannel active) state).1.maskUpdateRepeats =
        state.1.maskUpdateRepeats := by
  induction channels generalizing state with
  | nil => exact ⟨rfl, rfl⟩
  | cons channel channels ih =>
      obtain ⟨hcadence, hrepeats⟩ := recomputeChannel_cadence active state channel
      rw [List.foldl_cons, (ih _).1, (ih _).2]
      exact ⟨hcadence, hrepeats⟩

theorem maskWorstChannel_cadence (state : HopCentral config × Bool) :
    (maskWorstChannel state).1.cadence = state.1.cadence ∧
      (maskWorstChannel state).1.maskUpdateRepeats = state.1.maskUpdateRepeats := by
  simp only [maskWorstChannel]
  split_ifs <;> exact ⟨rfl, rfl⟩

theorem ensureMask_cadence (central : HopCentral config) :
    central.ensureMask.cadence = central.cadence ∧
      central.ensureMask.maskUpdateRepeats = central.maskUpdateRepeats := by
  rw [ensureMask]
  split_ifs <;> exact ⟨rfl, rfl⟩

theorem countSilence_cadence (central : HopCentral config) (heard : UInt32) :
    (central.countSilence heard).cadence = central.cadence ∧
      (central.countSilence heard).maskUpdateRepeats = central.maskUpdateRepeats := by
  rw [countSilence]
  split_ifs <;> exact ⟨rfl, rfl⟩

/-- A recompute loads the update counter when it changed the mask. -/
theorem observe_cadence (hcount : 1 < config.hopCount) (central : HopCentral config)
    (window : HopWindow) : (central.observe window).cadence = central.cadence ∧
      (central.observe window).maskUpdateRepeats =
        if central.changesMask window then maskUpdateRepeatWindows else central.maskUpdateRepeats := by
  have hscore : ((central.accrueLoss window).scoreCurrentChannel window).cadence = central.cadence ∧
      ((central.accrueLoss window).scoreCurrentChannel window).maskUpdateRepeats =
        central.maskUpdateRepeats := by
    rw [scoreCurrentChannel]
    split <;> exact ⟨rfl, rfl⟩
  generalize hscored : (central.accrueLoss window).scoreCurrentChannel window = scored at hscore
  have hloop := maskWorstChannel_cadence
    ((List.range config.hopCount).foldl (recomputeChannel window.active) (scored.ensureMask, false))
  rw [(foldl_recomputeChannel_cadence _ _ _).1, (foldl_recomputeChannel_cadence _ _ _).2,
    (ensureMask_cadence scored).1, (ensureMask_cadence scored).2, hscore.1, hscore.2] at hloop
  have hrecompute : (scored.recomputeMask window.active).cadence = central.cadence ∧
      (scored.recomputeMask window.active).maskUpdateRepeats =
        if central.changesMask window then maskUpdateRepeatWindows
        else central.maskUpdateRepeats := by
    have hchanges : central.changesMask window =
        (maskWorstChannel ((List.range config.hopCount).foldl (recomputeChannel window.active)
          (scored.ensureMask, false))).2 := by
      rw [changesMask, hscored, decide_eq_true hcount, Bool.true_and]
    rw [recomputeMask, hchanges]
    dsimp only
    split_ifs
    · exact ⟨hloop.1, rfl⟩
    · exact hloop
  rw [observe, hscored, (countSilence_cadence _ _).1, (countSilence_cadence _ _).2]
  exact hrecompute

theorem hopToNextEpoch_cadence (central : HopCentral config) :
    central.hopToNextEpoch.cadence = central.cadence ∧
      central.hopToNextEpoch.maskUpdateRepeats = central.maskUpdateRepeats := by
  simp only [hopToNextEpoch, commitPendingMask]
  split_ifs <;> exact ⟨rfl, rfl⟩

theorem hopped_cadence (central : HopCentral config) :
    central.hopOnVote.hopOutOfSilence.cadence = central.cadence ∧
      central.hopOnVote.hopOutOfSilence.maskUpdateRepeats = central.maskUpdateRepeats := by
  have hvote : central.hopOnVote.cadence = central.cadence ∧
      central.hopOnVote.maskUpdateRepeats = central.maskUpdateRepeats := by
    rw [hopOnVote]
    split_ifs
    · exact hopToNextEpoch_cadence central
    · exact ⟨rfl, rfl⟩
  rw [← hvote.1, ← hvote.2, hopOutOfSilence]
  split_ifs
  · exact hopToNextEpoch_cadence central.hopOnVote.noteEscape.clearSilence
  · exact ⟨rfl, rfl⟩

/-! ## Turns of the counters -/

theorem hopPolicyShouldBeacon_turn (epoch beaconedEpoch repeatsLeft repeatWindows : UInt8) :
    (hopPolicyShouldBeacon epoch beaconedEpoch repeatsLeft repeatWindows).1 = epoch ∧
      (hopPolicyShouldBeacon epoch beaconedEpoch repeatsLeft repeatWindows).2.1.toNat =
        (turn repeatWindows.toNat repeatsLeft.toNat (epoch != beaconedEpoch)).1 ∧
      (hopPolicyShouldBeacon epoch beaconedEpoch repeatsLeft repeatWindows).2.2 =
        (turn repeatWindows.toNat repeatsLeft.toNat (epoch != beaconedEpoch)).2 := by
  have hload : (if epoch ≠ beaconedEpoch then repeatWindows else repeatsLeft).toNat =
      if (epoch != beaconedEpoch) = true then repeatWindows.toNat else repeatsLeft.toNat := by
    simp only [bne_iff_ne]
    split_ifs <;> rfl
  rw [hopPolicyShouldBeacon, turn, ← hload]
  generalize (if epoch ≠ beaconedEpoch then repeatWindows else repeatsLeft) = left
  have hpos : left > 0 ↔ 0 < left.toNat := UInt8.lt_iff_toNat_lt
  dsimp only
  split_ifs with hleft
  · have hone : (1 : UInt8) ≤ left := UInt8.le_iff_toNat_le.mpr (hpos.mp hleft)
    exact ⟨rfl, UInt8.toNat_sub_of_le _ _ hone, (decide_eq_true (hpos.mp hleft)).symm⟩
  · have hzero : left.toNat = 0 := Nat.eq_zero_of_not_pos (mt hpos.mpr hleft)
    exact ⟨rfl, by rw [hzero], by rw [hzero]; rfl⟩

/-- A period fires at every multiple of it. -/
theorem hopPolicyWindowPeriodFires_turn {counter period : UInt8} {count : ℕ}
    (hperiod : 0 < period.toNat) (hcounter : counter.toNat = count % period.toNat) :
    (hopPolicyWindowPeriodFires counter period).1.toNat = (count + 1) % period.toNat ∧
      ((hopPolicyWindowPeriodFires counter period).2 = true ↔ period.toNat ∣ count + 1) := by
  have hlt : counter.toNat < period.toNat := hcounter ▸ Nat.mod_lt count hperiod
  have hnext : (counter + 1).toNat = counter.toNat + 1 := by
    have hbyte : period.toNat < 256 := period.toNat_lt
    rw [UInt8.toNat_add, UInt8.toNat_one]
    exact Nat.mod_eq_of_lt (by omega)
  have hcount : count + 1 = period.toNat * (count / period.toNat) + (counter.toNat + 1) := by
    have := Nat.div_add_mod count period.toNat
    omega
  have hmod : (count + 1) % period.toNat = (counter.toNat + 1) % period.toNat := by
    rw [hcount, Nat.mul_add_mod]
  rw [hopPolicyWindowPeriodFires, Nat.dvd_iff_mod_eq_zero, hmod]
  split_ifs with hfires
  · have hle : period.toNat ≤ counter.toNat + 1 := hnext ▸ UInt8.le_iff_toNat_le.mp hfires
    have hwhole : counter.toNat + 1 = period.toNat := by omega
    rw [hwhole, Nat.mod_self]
    exact ⟨rfl, iff_of_true rfl rfl⟩
  · have hmore : counter.toNat + 1 < period.toNat := by
      by_contra hge
      exact hfires (UInt8.le_iff_toNat_le.mpr (by omega))
    rw [Nat.mod_eq_of_lt hmore]
    exact ⟨hnext, by simp⟩

/-! ## One window -/

/-- The state after the hops of a window. -/
def hopped (central : HopCentral config) (window : HopWindow) : HopCentral config :=
  (central.observe window).hopOnVote.hopOutOfSilence

theorem hopped_counters (hcount : 1 < config.hopCount) (central : HopCentral config)
    (window : HopWindow) : (central.hopped window).cadence = central.cadence ∧
      (central.hopped window).maskUpdateRepeats =
        if central.changesMask window then maskUpdateRepeatWindows else central.maskUpdateRepeats := by
  rw [hopped, (hopped_cadence _).1, (hopped_cadence _).2]
  exact observe_cadence hcount central window

theorem hopped_pipeWasLost (central : HopCentral config) (window : HopWindow) (pipe : ℕ) :
    (central.hopped window).pipeWasLost pipe = true ↔
      pipe < config.peripheralCount ∧
        config.hopPipeNeedsRendezvous window.quietMs pipe = true := by
  have hhop : ∀ central : HopCentral config,
      central.hopToNextEpoch.pipeWasLost = central.pipeWasLost := by
    intro central
    simp only [hopToNextEpoch, commitPendingMask]
    split_ifs <;> rfl
  have hvote : (central.observe window).hopOnVote.pipeWasLost =
      (central.observe window).pipeWasLost := by
    rw [hopOnVote]
    split_ifs
    · exact hhop _
    · rfl
  have hescape : (central.hopped window).pipeWasLost =
      (central.observe window).hopOnVote.pipeWasLost := by
    rw [hopped, hopOutOfSilence]
    split_ifs
    · exact hhop _
    · rfl
  have hobserve : (central.observe window).pipeWasLost pipe =
      (pipe < config.peripheralCount && config.hopPipeNeedsRendezvous window.quietMs pipe) := by
    rw [observe, countSilence]
    split_ifs <;> rfl
  rw [hescape, hvote, hobserve, Bool.and_eq_true, decide_eq_true_iff]

/-- A window with a burst or a refresh of the beacons, and of the mask updates. -/
def beaconBurst (central : HopCentral config) (window : HopWindow) : Bool :=
  (hopPolicyShouldBeacon (central.hopped window).hopEpoch central.beaconedEpoch
    central.beaconRepeatsLeft beaconRepeatWindows).2.2

def beaconRefresh (central : HopCentral config) : Bool :=
  (hopPolicyWindowPeriodFires central.beaconWindow beaconRssiPeriodWindows).2

def maskBurst (central : HopCentral config) (window : HopWindow) : Bool :=
  (turn maskUpdateRepeatWindows.toNat central.maskUpdateRepeats.toNat
    (central.changesMask window)).2

def maskRefresh (central : HopCentral config) : Bool :=
  (hopPolicyWindowPeriodFires central.maskWindow maskRefreshWindows).2

/-- The mask an update offers: the pending one until it is committed. -/
def offeredMask (central : HopCentral config) : HopMask config.hopCount :=
  if central.pendingValid then central.pendingMask else central.activeMask

theorem stageBeacon_eq (central : HopCentral config) (window : HopWindow) :
    central.stageBeacon window =
      ({ central with
          beaconedEpoch := (hopPolicyShouldBeacon central.hopEpoch central.beaconedEpoch
            central.beaconRepeatsLeft beaconRepeatWindows).1
          beaconRepeatsLeft := (hopPolicyShouldBeacon central.hopEpoch central.beaconedEpoch
            central.beaconRepeatsLeft beaconRepeatWindows).2.1
          beaconWindow :=
            (hopPolicyWindowPeriodFires central.beaconWindow beaconRssiPeriodWindows).1 },
        (central.stageBeacon window).2) := rfl

theorem stageBeacon_kept (central : HopCentral config) (window : HopWindow) :
    (central.stageBeacon window).1.hopEpoch = central.hopEpoch ∧
      (central.stageBeacon window).1.pipeWasLost = central.pipeWasLost ∧
      (central.stageBeacon window).1.offeredMask = central.offeredMask := ⟨rfl, rfl, rfl⟩

/-- What the counters are after a window. -/
structure Counted (central : HopCentral config) (window : HopWindow) (next : HopCentral config) :
    Prop where
  hopEpoch : next.hopEpoch = (central.hopped window).hopEpoch
  beaconedEpoch : next.beaconedEpoch = next.hopEpoch
  repeatsLeft : next.beaconRepeatsLeft.toNat =
    (turn beaconRepeatWindows.toNat central.beaconRepeatsLeft.toNat
      (next.hopEpoch != central.beaconedEpoch)).1
  beaconWindow : next.beaconWindow =
    (hopPolicyWindowPeriodFires central.beaconWindow beaconRssiPeriodWindows).1
  maskRepeats : next.maskUpdateRepeats.toNat =
    (turn maskUpdateRepeatWindows.toNat central.maskUpdateRepeats.toNat
      (central.changesMask window)).1
  maskWindow : next.maskWindow = (hopPolicyWindowPeriodFires central.maskWindow maskRefreshWindows).1
  pipeWasLost : next.pipeWasLost = (central.hopped window).pipeWasLost
  offered : next.offeredMask = (central.hopped window).offeredMask

theorem stageMaskUpdate_fields (central : HopCentral config) (window : HopWindow) :
    (central.stageMaskUpdate window).1.hopEpoch = central.hopEpoch ∧
      (central.stageMaskUpdate window).1.beaconedEpoch = central.beaconedEpoch ∧
      (central.stageMaskUpdate window).1.beaconRepeatsLeft = central.beaconRepeatsLeft ∧
      (central.stageMaskUpdate window).1.beaconWindow = central.beaconWindow ∧
      (central.stageMaskUpdate window).1.maskUpdateRepeats.toNat =
        central.maskUpdateRepeats.toNat - 1 ∧
      (central.stageMaskUpdate window).1.maskWindow =
        (hopPolicyWindowPeriodFires central.maskWindow maskRefreshWindows).1 ∧
      (central.stageMaskUpdate window).1.pipeWasLost = central.pipeWasLost ∧
      (central.stageMaskUpdate window).1.offeredMask = central.offeredMask := by
  have hpos : central.maskUpdateRepeats > 0 ↔ 0 < central.maskUpdateRepeats.toNat :=
    UInt8.lt_iff_toNat_lt
  have hdown : central.maskUpdateRepeats > 0 →
      (central.maskUpdateRepeats - 1).toNat = central.maskUpdateRepeats.toNat - 1 := by
    intro hburst
    exact UInt8.toNat_sub_of_le _ _ (UInt8.le_iff_toNat_le.mpr (hpos.mp hburst))
  have hzero : ¬central.maskUpdateRepeats > 0 →
      central.maskUpdateRepeats.toNat = central.maskUpdateRepeats.toNat - 1 := by
    intro hburst
    have := mt hpos.mpr hburst
    omega
  simp only [stageMaskUpdate]
  by_cases hburst : central.maskUpdateRepeats > 0
  · rw [if_pos (Or.inl hburst)]
    exact ⟨rfl, rfl, rfl, rfl, by rw [if_pos hburst]; exact hdown hburst, rfl, rfl, rfl⟩
  · by_cases hrefresh :
      (hopPolicyWindowPeriodFires central.maskWindow maskRefreshWindows).2 = true
    · rw [if_pos (Or.inr hrefresh)]
      exact ⟨rfl, rfl, rfl, rfl, by rw [if_neg hburst]; exact hzero hburst, rfl, rfl, rfl⟩
    · rw [if_neg (not_or.mpr ⟨hburst, hrefresh⟩)]
      exact ⟨rfl, rfl, rfl, rfl, hzero hburst, rfl, rfl, rfl⟩

theorem counted (hcount : 1 < config.hopCount) (central : HopCentral config) (window : HopWindow) :
    central.Counted window (central.decisionWork window).1 := by
  obtain ⟨hcadence, hrepeats⟩ := hopped_counters hcount central window
  obtain ⟨hbeaconed, hleft, hwindow, hmaskWindow⟩ :
      (central.hopped window).beaconedEpoch = central.beaconedEpoch ∧
      (central.hopped window).beaconRepeatsLeft = central.beaconRepeatsLeft ∧
      (central.hopped window).beaconWindow = central.beaconWindow ∧
      (central.hopped window).maskWindow = central.maskWindow := by
    simpa only [cadence, Prod.mk.injEq] using hcadence
  obtain ⟨hturnEpoch, hturnLeft, -⟩ := hopPolicyShouldBeacon_turn (central.hopped window).hopEpoch
    central.beaconedEpoch central.beaconRepeatsLeft beaconRepeatWindows
  obtain ⟨hepoch, hstaged, hstagedLeft, hstagedWindow, hmask, hperiod, hlost, hoffered⟩ :=
    stageMaskUpdate_fields ((central.hopped window).stageBeacon window).1 window
  have hnext : (central.decisionWork window).1 =
      (((central.hopped window).stageBeacon window).1.stageMaskUpdate window).1 :=
    decisionWork_fst hcount window
  obtain ⟨hkeptEpoch, hkeptLost, hkeptOffered⟩ := stageBeacon_kept (central.hopped window) window
  rw [hkeptEpoch] at hepoch
  rw [hnext]
  refine ⟨hepoch, ?_, ?_, ?_, ?_, ?_, hlost.trans hkeptLost, hoffered.trans hkeptOffered⟩
  · rw [hstaged, hepoch, stageBeacon_eq, hbeaconed, hleft]
    exact hturnEpoch
  · rw [hstagedLeft, hepoch, stageBeacon_eq, hbeaconed, hleft]
    exact hturnLeft
  · rw [hstagedWindow, stageBeacon_eq, hwindow]
  · rw [hmask, stageBeacon_eq, hrepeats, turn]
    split_ifs <;> rfl
  · rw [hperiod, stageBeacon_eq, hmaskWindow]

/-! ## What it sends -/

/-- The window beacons this pipe: it comes back from being lost, or it is no pipe of our
own and the window has a burst, or a refresh and a packet of the pipe. -/
def Beacons (central : HopCentral config) (window : HopWindow) (pipe : ℕ) : Prop :=
  pipe ∈ central.rejoining window ∨
    config.selfPipe pipe = false ∧ (central.beaconBurst window = true ∨
      central.beaconRefresh = true ∧ pipeHeardInWindow config window pipe = true)

/-- The window updates the mask of this pipe. -/
def UpdatesMask (central : HopCentral config) (window : HopWindow) (pipe : ℕ) : Prop :=
  (config.selfPipe pipe = false ∧ config.wirePipe pipe = false ∧
    config.hopPipeNeedsRendezvous window.updateQuietMs pipe = false) ∧
    (central.maskBurst window = true ∨ central.maskRefresh = true)

theorem beaconFor_congr {central other : HopCentral config}
    (h : other.hopEpoch = central.hopEpoch) (window : HopWindow) :
    other.stageBeaconTo window = central.stageBeaconTo window := by
  funext pipe
  rw [stageBeaconTo, stageBeaconTo, beaconFor, beaconFor, h]

theorem mem_stageBeacon (central : HopCentral config) (window : HopWindow) (output : HopOutput) :
    output ∈ (central.stageBeacon window).2 ↔ ∃ pipe < config.peripheralCount,
      output = central.stageBeaconTo window pipe ∧ config.selfPipe pipe = false ∧
        ((hopPolicyShouldBeacon central.hopEpoch central.beaconedEpoch central.beaconRepeatsLeft
            beaconRepeatWindows).2.2 = true ∨
          central.beaconRefresh = true ∧ pipeHeardInWindow config window pipe = true) := by
  rw [beaconRefresh, stageBeacon]
  dsimp only
  generalize (hopPolicyShouldBeacon central.hopEpoch central.beaconedEpoch
    central.beaconRepeatsLeft beaconRepeatWindows).2.2 = burst
  generalize (hopPolicyWindowPeriodFires central.beaconWindow beaconRssiPeriodWindows).2 = refresh
  have hsame : ∀ pipe, stageBeaconTo
      { central with
        beaconedEpoch := (hopPolicyShouldBeacon central.hopEpoch central.beaconedEpoch
          central.beaconRepeatsLeft beaconRepeatWindows).1
        beaconRepeatsLeft := (hopPolicyShouldBeacon central.hopEpoch central.beaconedEpoch
          central.beaconRepeatsLeft beaconRepeatWindows).2.1
        beaconWindow :=
          (hopPolicyWindowPeriodFires central.beaconWindow beaconRssiPeriodWindows).1 } window pipe =
      central.stageBeaconTo window pipe := fun _ => rfl
  simp only [List.mem_map, hsame]
  constructor
  · rintro ⟨pipe, hpipe, rfl⟩
    split_ifs at hpipe with hfires
    · obtain ⟨hrange, hchosen⟩ := List.mem_filter.mp hpipe
      refine ⟨pipe, List.mem_range.mp hrange, rfl, ?_⟩
      cases burst <;> simp_all
    · cases hpipe
  · rintro ⟨pipe, hlt, rfl, hself, hchosen⟩
    refine ⟨pipe, ?_, rfl⟩
    cases burst <;> simp_all

theorem mem_stageMaskUpdate (central : HopCentral config) (window : HopWindow)
    (output : HopOutput) : output ∈ (central.stageMaskUpdate window).2 ↔
      ∃ pipe < config.peripheralCount,
        output = .latchControl pipe .mask (encodeMaskUpdate central.offeredMask) ∧
          (config.selfPipe pipe = false ∧ config.wirePipe pipe = false ∧
            config.hopPipeNeedsRendezvous window.updateQuietMs pipe = false) ∧
          (central.maskUpdateRepeats > 0 ∨ central.maskRefresh = true) := by
  rw [maskRefresh, stageMaskUpdate]
  dsimp only
  rw [offeredMask]
  by_cases hfires : central.maskUpdateRepeats > 0 ∨
      (hopPolicyWindowPeriodFires central.maskWindow maskRefreshWindows).2 = true
  · rw [if_pos hfires]
    simp only [List.mem_map, List.mem_filter, List.mem_range, hfires, and_true]
    constructor
    · rintro ⟨pipe, ⟨hlt, hchosen⟩, rfl⟩
      refine ⟨pipe, hlt, rfl, ?_⟩
      simpa [and_assoc] using hchosen
    · rintro ⟨pipe, hlt, rfl, hchosen⟩
      refine ⟨pipe, ⟨hlt, ?_⟩, rfl⟩
      simpa [and_assoc] using hchosen
  · rw [if_neg hfires]
    simp [hfires]

/-- All a window sends. -/
theorem mem_decisionWork (hcount : 1 < config.hopCount) (central : HopCentral config)
    (window : HopWindow) (output : HopOutput) :
    output ∈ (central.decisionWork window).2 ↔
      ∃ pipe < config.peripheralCount,
        (output = (central.decisionWork window).1.stageBeaconTo window pipe ∧
          central.Beacons window pipe) ∨
        (output = .latchControl pipe .mask
            (encodeMaskUpdate (central.decisionWork window).1.offeredMask) ∧
          central.UpdatesMask window pipe) := by
  have hcounted := counted hcount central window
  obtain ⟨hcadence, hrepeats⟩ := hopped_counters hcount central window
  obtain ⟨hbeaconed, hleft, hwindow, hmaskWindow⟩ :
      (central.hopped window).beaconedEpoch = central.beaconedEpoch ∧
      (central.hopped window).beaconRepeatsLeft = central.beaconRepeatsLeft ∧
      (central.hopped window).beaconWindow = central.beaconWindow ∧
      (central.hopped window).maskWindow = central.maskWindow := by
    simpa only [cadence, Prod.mk.injEq] using hcadence
  have houtputs : (central.decisionWork window).2 =
      (central.rejoining window).map ((central.hopped window).stageBeaconTo window) ++
        ((central.hopped window).stageBeacon window).2 ++
        (((central.hopped window).stageBeacon window).1.stageMaskUpdate window).2 := by
    rw [decisionWork, if_neg (by omega)]
    rfl
  have hbeacon : (central.decisionWork window).1.stageBeaconTo window =
      (central.hopped window).stageBeaconTo window := beaconFor_congr hcounted.hopEpoch window
  have hrefresh : (central.hopped window).beaconRefresh = central.beaconRefresh := by
    rw [beaconRefresh, beaconRefresh, hwindow]
  have hperiod : ((central.hopped window).stageBeacon window).1.maskRefresh =
      central.maskRefresh := by
    rw [maskRefresh, maskRefresh, stageBeacon_eq, hmaskWindow]
  have hburst : ((central.hopped window).stageBeacon window).1.maskUpdateRepeats > 0 ↔
      central.maskBurst window = true := by
    rw [stageBeacon_eq, hrepeats, maskBurst, turn, decide_eq_true_iff]
    split_ifs <;> exact UInt8.lt_iff_toNat_lt
  have hoffered : ((central.hopped window).stageBeacon window).1.offeredMask =
      (central.decisionWork window).1.offeredMask := hcounted.offered.symm
  rw [houtputs, List.mem_append, List.mem_append, mem_stageBeacon, mem_stageMaskUpdate, hbeacon,
    hrefresh, hperiod, hburst, hoffered, hbeaconed, hleft]
  constructor
  · rintro ((hrejoin | ⟨pipe, hlt, rfl, hchosen⟩) | ⟨pipe, hlt, rfl, hchosen⟩)
    · obtain ⟨pipe, hpipe, rfl⟩ := List.mem_map.mp hrejoin
      have hlt : pipe < config.peripheralCount := List.mem_range.mp (List.mem_filter.mp hpipe).1
      exact ⟨pipe, hlt, .inl ⟨rfl, .inl hpipe⟩⟩
    · exact ⟨pipe, hlt, .inl ⟨rfl, .inr hchosen⟩⟩
    · exact ⟨pipe, hlt, .inr ⟨rfl, hchosen⟩⟩
  · rintro ⟨pipe, hlt, ⟨rfl, hrejoin | hchosen⟩ | ⟨rfl, hchosen⟩⟩
    · exact .inl (.inl (List.mem_map.mpr ⟨pipe, hrejoin, rfl⟩))
    · exact .inl (.inr ⟨pipe, hlt, rfl, hchosen⟩)
    · exact .inr ⟨pipe, hlt, rfl, hchosen⟩

end HopCentral

/-! ## The history of changes -/

/-- The central with its history, newest window first: whether the window ended on
another epoch than the one before, and whether it changed the mask. -/
structure HopWatch (config : HopConfig) where
  central : HopCentral config
  epochChanges : List Bool
  maskChanges : List Bool
  lastEpoch : UInt8
  lastWindow : Option HopWindow

namespace HopWatch

/-- The epoch before the first window counts as zero. -/
def boot (config : HopConfig) (stored : Option Bytes) (energyDbm : ℕ → Int8) : HopWatch config :=
  ⟨.boot config stored energyDbm, [], [], 0, none⟩

def step (watch : HopWatch config) (window : HopWindow) : HopWatch config :=
  let next := (watch.central.decisionWork window).1
  { central := next
    epochChanges := (next.hopEpoch != watch.lastEpoch) :: watch.epochChanges
    maskChanges := watch.central.changesMask window :: watch.maskChanges
    lastEpoch := next.hopEpoch
    lastWindow := some window }

/-- The counters agree with the history. -/
structure InCadence (start : ℕ) (watch : HopWatch config) : Prop where
  beaconed : watch.central.beaconedEpoch = watch.lastEpoch
  repeatsLeft : watch.central.beaconRepeatsLeft.toNat =
    Burst.left beaconRepeatWindows.toNat 0 watch.epochChanges
  beaconWindow : watch.central.beaconWindow.toNat =
    watch.epochChanges.length % beaconRssiPeriodWindows.toNat
  maskRepeats : watch.central.maskUpdateRepeats.toNat =
    Burst.left maskUpdateRepeatWindows.toNat start watch.maskChanges
  maskWindow : watch.central.maskWindow.toNat =
    watch.epochChanges.length % maskRefreshWindows.toNat
  wasLost : ∀ pipe, watch.central.pipeWasLost pipe = true ↔
    pipe < config.peripheralCount ∧
      ∃ window ∈ watch.lastWindow, config.hopPipeNeedsRendezvous window.quietMs pipe = true
  lengths : watch.maskChanges.length = watch.epochChanges.length

variable {start : ℕ} {watch : HopWatch config}

/-- Boot leaves the counters alone, but for the updates of a mask it adopts. -/
theorem hopBootMask_counters (central : HopCentral config) (stored : Option Bytes)
    (energyDbm : ℕ → Int8) :
    (central.hopBootMask stored energyDbm).cadence = central.cadence ∧
      (central.hopBootMask stored energyDbm).pipeWasLost = central.pipeWasLost ∧
      ((central.hopBootMask stored energyDbm).maskUpdateRepeats = central.maskUpdateRepeats ∨
        (central.hopBootMask stored energyDbm).maskUpdateRepeats = maskUpdateRepeatWindows) := by
  have hensure : central.ensureMask.cadence = central.cadence ∧
      central.ensureMask.pipeWasLost = central.pipeWasLost ∧
      central.ensureMask.maskUpdateRepeats = central.maskUpdateRepeats := by
    rw [HopCentral.ensureMask]
    split_ifs <;> exact ⟨rfl, rfl, rfl⟩
  rw [HopCentral.hopBootMask, ← hensure.1, ← hensure.2.1, ← hensure.2.2]
  split_ifs with hcount
  · exact ⟨hensure.1.symm, hensure.2.1.symm, .inl hensure.2.2.symm⟩
  · generalize central.ensureMask = ensured
    cases stored.bind (HopCentral.hopMaskSettingsSet config) with
    | none =>
        dsimp only
        split_ifs
        · exact ⟨rfl, rfl, .inl rfl⟩
        · exact ⟨rfl, rfl, .inr rfl⟩
    | some persisted =>
        dsimp only
        split_ifs
        · exact ⟨rfl, rfl, .inl rfl⟩
        · exact ⟨rfl, rfl, .inr rfl⟩

theorem boot_counters (config : HopConfig) (stored : Option Bytes) (energyDbm : ℕ → Int8) :
    (HopCentral.boot config stored energyDbm).cadence = (0, 0, 0, 0) ∧
      (∀ pipe, (HopCentral.boot config stored energyDbm).pipeWasLost pipe = false) ∧
      (HopCentral.boot config stored energyDbm).maskUpdateRepeats.toNat ≤
        maskUpdateRepeatWindows.toNat := by
  obtain ⟨hcadence, hlost, hrepeats⟩ :=
    hopBootMask_counters (HopCentral.zero config) stored energyDbm
  rw [HopCentral.boot]
  refine ⟨hcadence, fun pipe => congrFun hlost pipe, ?_⟩
  rcases hrepeats with hzero | hloaded
  · rw [hzero]
    exact Nat.zero_le _
  · rw [hloaded]

theorem InCadence.boot (stored : Option Bytes) (energyDbm : ℕ → Int8) :
    (boot config stored energyDbm).InCadence
      (HopCentral.boot config stored energyDbm).maskUpdateRepeats.toNat := by
  obtain ⟨hcadence, hlost, -⟩ := boot_counters config stored energyDbm
  obtain ⟨hbeaconed, hleft, hwindow, hmask⟩ :
      (HopCentral.boot config stored energyDbm).beaconedEpoch = 0 ∧
      (HopCentral.boot config stored energyDbm).beaconRepeatsLeft = 0 ∧
      (HopCentral.boot config stored energyDbm).beaconWindow = 0 ∧
      (HopCentral.boot config stored energyDbm).maskWindow = 0 := by
    simpa only [HopCentral.cadence, Prod.mk.injEq] using hcadence
  refine ⟨hbeaconed, congrArg UInt8.toNat hleft, congrArg UInt8.toNat hwindow, rfl,
    congrArg UInt8.toNat hmask, fun pipe => ?_, rfl⟩
  refine iff_of_false (Bool.eq_false_iff.mp (hlost pipe)) ?_
  rintro ⟨-, window, hwindow, -⟩
  cases hwindow

theorem InCadence.step (hcount : 1 < config.hopCount) (h : watch.InCadence start)
    (window : HopWindow) : (watch.step window).InCadence start := by
  have hcounted := HopCentral.counted hcount watch.central window
  refine ⟨hcounted.beaconedEpoch, ?_, ?_, ?_, ?_, fun pipe => ?_, ?_⟩
  · rw [HopWatch.step, Burst.left, ← h.repeatsLeft, ← h.beaconed]
    exact hcounted.repeatsLeft
  · rw [HopWatch.step, List.length_cons]
    dsimp only
    rw [hcounted.beaconWindow]
    exact (HopCentral.hopPolicyWindowPeriodFires_turn (by decide) h.beaconWindow).1
  · rw [HopWatch.step, Burst.left, ← h.maskRepeats]
    exact hcounted.maskRepeats
  · rw [HopWatch.step, List.length_cons]
    dsimp only
    rw [hcounted.maskWindow]
    exact (HopCentral.hopPolicyWindowPeriodFires_turn (by decide) h.maskWindow).1
  · rw [HopWatch.step]
    dsimp only
    rw [hcounted.pipeWasLost, HopCentral.hopped_pipeWasLost]
    refine and_congr_right fun _ => ?_
    simp
  · rw [HopWatch.step]
    simpa using h.lengths

/-! ## The announcements of any window -/

/-- One of the last windows, this one included, changed: the first of the list is this. -/
def Recently (repeats : ℕ) (changes : List Bool) : Prop := true ∈ changes.take repeats

instance (repeats : ℕ) (changes : List Bool) : Decidable (Recently repeats changes) :=
  inferInstanceAs (Decidable (true ∈ changes.take repeats))

/-- The pipe was lost at the end of the window before and is heard in this one. -/
def ComesBack (watch : HopWatch config) (window : HopWindow) (pipe : ℕ) : Prop :=
  maskHasBit window.heard pipe = true ∧
    ∃ last ∈ watch.lastWindow, config.hopPipeNeedsRendezvous last.quietMs pipe = true

/-- Why the next window beacons a pipe. -/
def DueBeacon (watch : HopWatch config) (window : HopWindow) (pipe : ℕ) : Prop :=
  watch.ComesBack window pipe ∨
    config.selfPipe pipe = false ∧
      (Recently 4 (watch.step window).epochChanges ∨
        4 ∣ (watch.step window).epochChanges.length ∧
          HopCentral.pipeHeardInWindow config window pipe = true)

/-- Why the next window updates the mask of a pipe; `start` is what boot left to repeat. -/
def DueMask (start : ℕ) (watch : HopWatch config) (window : HopWindow) (pipe : ℕ) : Prop :=
  (config.selfPipe pipe = false ∧ config.wirePipe pipe = false ∧
    config.hopPipeNeedsRendezvous window.updateQuietMs pipe = false) ∧
    (Recently 4 (watch.step window).maskChanges ∨ watch.maskChanges.length < start ∨
      32 ∣ (watch.step window).maskChanges.length)

theorem InCadence.beacons_iff (hcount : 1 < config.hopCount) (h : watch.InCadence start)
    (window : HopWindow) {pipe : ℕ} (hpipe : pipe < config.peripheralCount) :
    watch.central.Beacons window pipe ↔ watch.DueBeacon window pipe := by
  have hcounted := HopCentral.counted hcount watch.central window
  have hrejoin : pipe ∈ watch.central.rejoining window ↔ watch.ComesBack window pipe := by
    rw [HopCentral.rejoining, List.mem_filter, List.mem_range, Bool.and_eq_true, h.wasLost,
      ComesBack]
    simp [hpipe]
  have hburst : watch.central.beaconBurst window = true ↔
      Recently 4 (watch.step window).epochChanges := by
    rw [HopCentral.beaconBurst, (HopCentral.hopPolicyShouldBeacon_turn _ _ _ _).2.2,
      h.repeatsLeft, Burst.fires_iff (Nat.zero_le _), ← hcounted.hopEpoch, h.beaconed]
    simp [Recently, HopWatch.step, beaconRepeatWindows]
  have hrefresh : watch.central.beaconRefresh = true ↔
      4 ∣ (watch.step window).epochChanges.length :=
    (HopCentral.hopPolicyWindowPeriodFires_turn (by decide) h.beaconWindow).2
  rw [HopCentral.Beacons, DueBeacon, hrejoin, hburst, hrefresh]

theorem InCadence.updatesMask_iff (h : watch.InCadence start)
    (hstart : start ≤ maskUpdateRepeatWindows.toNat) (window : HopWindow) (pipe : ℕ) :
    watch.central.UpdatesMask window pipe ↔ watch.DueMask start window pipe := by
  have hburst : watch.central.maskBurst window = true ↔
      Recently 4 (watch.step window).maskChanges ∨ watch.maskChanges.length < start := by
    rw [HopCentral.maskBurst, h.maskRepeats, Burst.fires_iff hstart]
    rfl
  have hrefresh : watch.central.maskRefresh = true ↔
      32 ∣ (watch.step window).maskChanges.length := by
    rw [HopWatch.step, List.length_cons, h.lengths]
    exact (HopCentral.hopPolicyWindowPeriodFires_turn (by decide) h.maskWindow).2
  rw [HopCentral.UpdatesMask, DueMask, hburst, hrefresh, or_assoc]

/-- What the window after any history sends: beacons with the epoch it ends on to the
pipes that are due one, its mask to those due an update, and nothing else. -/
theorem announces_iff (hcount : 1 < config.hopCount) (stored : Option Bytes)
    (energyDbm : ℕ → Int8) (windows : List HopWindow) (window : HopWindow) (output : HopOutput) :
    let watch := Transition.run step (boot config stored energyDbm) windows
    let next := (watch.step window).central
    output ∈ (watch.central.decisionWork window).2 ↔
      ∃ pipe < config.peripheralCount,
        (output = next.stageBeaconTo window pipe ∧ watch.DueBeacon window pipe) ∨
        (output = .latchControl pipe .mask (encodeMaskUpdate next.offeredMask) ∧
          watch.DueMask (HopCentral.boot config stored energyDbm).maskUpdateRepeats.toNat window
            pipe) := by
  intro watch next
  have hcadence : watch.InCadence _ :=
    Transition.run_invariant (fun _ window h => h.step hcount window)
      (InCadence.boot stored energyDbm) windows
  rw [HopCentral.mem_decisionWork hcount]
  refine exists_congr fun pipe => and_congr_right fun hpipe => ?_
  rw [hcadence.beacons_iff hcount window hpipe,
    hcadence.updatesMask_iff (boot_counters config stored energyDbm).2.2 window pipe]
  rfl

/-- The fourth window beacons a pipe that sent a packet in it. -/
theorem announces_iff_sample :
    let watch := Transition.run step (boot sampleHopConfig none fun _ => -100)
      (List.replicate 3 lostWindow)
    (watch.step lostWindow).central.stageBeaconTo lostWindow 0 ∈
      (watch.central.decisionWork lostWindow).2 :=
  (announces_iff (by decide) none (fun _ => -100) (List.replicate 3 lostWindow) lostWindow _).mpr
    ⟨0, by decide, .inl ⟨rfl, .inr ⟨rfl, .inr ⟨by decide, by decide⟩⟩⟩⟩

end HopWatch

end SplitEsb
