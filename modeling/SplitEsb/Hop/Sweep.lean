import SplitEsb.Hop.AckProof
import SplitEsb.Shared.DwellSweep

/-! # Sweep of a lost peripheral
The windows of a run in the order they end, and the walk around the pool that the
lost ones make. -/

namespace SplitEsb

open DwellSweep Transition

variable {config : HopConfig}

/-! ## The windows of a run -/

/-- A window at its end: the channel it was on, whether a degrade step left it, and the
channel it set. -/
structure EndedWindow where
  kind : WindowKind
  held : ℕ
  left : Bool
  index : ℕ
  deriving DecidableEq, Repr

/-- Where the next lost window sets out from; a degrade step is taken back. -/
def EndedWindow.resumes (window : EndedWindow) : ℕ :=
  if window.left then window.held else window.index

namespace UplinkTick

def endedWindow (state : UplinkTick config) : UplinkAction → Option EndedWindow
  | .work =>
      match state.stage with
      | .packetsTaken kind .. =>
          some ⟨kind, state.peripheral.hopIndex, decide (state.departures < state.work.departures),
            state.work.peripheral.hopIndex⟩
      | _ => none
  | _ => none

def windowsAlong : UplinkTick config → List UplinkAction → List EndedWindow
  | _, [] => []
  | state, action :: actions =>
      (state.endedWindow action).toList ++ windowsAlong (state.step action) actions

end UplinkTick

/-! ## The walk of the engine -/

/-- A window that is not lost and has not ended. -/
def TickStage.answered : TickStage → Bool
  | .window kind | .worstTaken kind _ | .sumTaken kind .. | .packetsTaken kind .. => kind ≠ .lost
  | _ => false

/-- The counter of dwelt windows has sixteen bits. -/
def HopConfig.sweepDwell (config : HopConfig) : ℕ := min config.esbHopSweepDwellWindows 65536

theorem HopConfig.one_lt_sweepDwell (config : HopConfig) : 1 < config.sweepDwell := by
  rw [sweepDwell, esbHopSweepDwellWindows]
  generalize (config.idleKeepaliveMs + config.hopWindowMs - 1) / config.hopWindowMs = windows
  omega

/-- The walk, and whether the open window was answered. -/
structure SweepState where
  sweep : Sweep
  answered : Bool

/-- What a step can do to the walk: nothing; answer a window, on any channel; end a lost
window; end an answered one, where it is or off it by a degrade step. -/
inductive SweepEvent (n dwell : ℕ) : SweepState → Option EndedWindow → SweepState → Prop
  | quiet (state) : SweepEvent n dwell state none state
  | answer (sweep place) (h : place < n) :
      SweepEvent n dwell ⟨sweep, false⟩ none ⟨⟨place, 0, none⟩, true⟩
  | lost (sweep) :
      SweepEvent n dwell ⟨sweep, false⟩
        (some ⟨.lost, sweep.place, false, (lose n dwell sweep).place⟩) ⟨lose n dwell sweep, false⟩
  | stay (sweep kind) (h : kind ≠ .lost) :
      SweepEvent n dwell ⟨sweep, true⟩ (some ⟨kind, sweep.place, false, sweep.place⟩)
        ⟨sweep, false⟩
  | leave (sweep place) (h : place < n) :
      SweepEvent n dwell ⟨sweep, true⟩ (some ⟨.connected, sweep.place, true, place⟩)
        ⟨⟨place, sweep.dwelt, some sweep.place⟩, false⟩

/-- A window that was answered starts the walk afresh. -/
structure SweepState.Sound (n dwell : ℕ) (state : SweepState) : Prop where
  sound : DwellSweep.Sound n dwell state.sweep
  fresh : state.answered → state.sweep.dwelt = 0 ∧ state.sweep.back = none

namespace HopPeripheral

def sweep (peripheral : HopPeripheral config) : Sweep where
  place := peripheral.hopIndex
  dwelt := peripheral.sweepWindows.toNat
  back := if peripheral.degradeUndoArmed then some peripheral.degradeUndoIndex else none

/-- The stored counter steps as the dwell does, past its sixteen bits too. -/
theorem toNat_nextSweepWindows {windows : UInt16} (hdwelt : windows.toNat < config.sweepDwell) :
    (UInt16.ofNat ((windows.toNat + 1) % config.esbHopSweepDwellWindows)).toNat =
      (windows.toNat + 1) % config.sweepDwell := by
  rw [UInt16.toNat_ofNat']
  rw [HopConfig.sweepDwell] at hdwelt ⊢
  rcases Nat.le_total config.esbHopSweepDwellWindows 65536 with hle | hge
  · have hlt : (windows.toNat + 1) % config.esbHopSweepDwellWindows <
        config.esbHopSweepDwellWindows := Nat.mod_lt _ (by omega)
    rw [Nat.min_eq_left hle, Nat.mod_eq_of_lt (by omega)]
  · rw [Nat.min_eq_right hge] at hdwelt ⊢
    rcases Nat.lt_or_ge (windows.toNat + 1) config.esbHopSweepDwellWindows with hin | hout
    · rw [Nat.mod_eq_of_lt hin]
    · have hfull : windows.toNat + 1 = config.esbHopSweepDwellWindows := by omega
      have hcap : config.esbHopSweepDwellWindows = 65536 := by omega
      rw [hfull, Nat.mod_self, hcap]

theorem sweep_lostWindowEnd (peripheral : HopPeripheral config)
    (hdwelt : peripheral.sweepWindows.toNat < config.sweepDwell) :
    peripheral.lostWindowEnd.sweep = lose config.hopCount config.sweepDwell peripheral.sweep := by
  have hwindows := toNat_nextSweepWindows hdwelt
  have hzero : UInt16.ofNat ((peripheral.sweepWindows.toNat + 1) %
      config.esbHopSweepDwellWindows) = 0 ↔
        (peripheral.sweepWindows.toNat + 1) % config.sweepDwell = 0 := by
    rw [← hwindows, ← UInt16.toNat_inj, UInt16.toNat_zero]
  rw [lostWindowEnd]
  dsimp only
  cases harmed : peripheral.degradeUndoArmed with
  | true => simp [sweep, lose, harmed, ← hwindows]
  | false =>
      simp only [Bool.false_eq_true, if_false, hzero]
      by_cases hstep : (peripheral.sweepWindows.toNat + 1) % config.sweepDwell = 0
      · simp [sweep, lose, harmed, hstep, hwindows, hopPolicyIndexNext]
      · simp [sweep, lose, harmed, hstep, hwindows]

theorem sweep_ensureMask (peripheral : HopPeripheral config) :
    peripheral.ensureMask.sweep = peripheral.sweep := by
  rw [ensureMask]
  split <;> rfl

theorem sweep_adoptEpochStart (peripheral : HopPeripheral config) (epoch : UInt8) :
    ∃ place < config.hopCount, (peripheral.adoptEpochStart epoch).sweep = ⟨place, 0, none⟩ :=
  ⟨_, hopPolicyChannelForEpochMasked_lt _ _ config.hopChannels_pos, rfl⟩

theorem sweep_hopConsumeRx (pipe : ℕ) (peripheral : HopPeripheral config)
    (data : ByteString.Bytes) : (peripheral.hopConsumeRx pipe data).sweep = peripheral.sweep := by
  simp only [hopConsumeRx, consumeBeacon, consumeMaskUpdate]
  split_ifs <;> rfl

theorem sweep_boot (retained : HopRetained config) :
    ∃ place < config.hopCount, (boot retained).sweep = ⟨place, 0, none⟩ := by
  rw [boot, hopRestore]
  split_ifs with hone hinvalid
  · exact ⟨0, config.hopChannels_pos, rfl⟩
  · exact ⟨0, config.hopChannels_pos, rfl⟩
  · simp only [not_or, not_le] at hinvalid
    exact ⟨_, hinvalid.2.2, rfl⟩

end HopPeripheral

namespace UplinkTick

def sweepState (state : UplinkTick config) : SweepState :=
  ⟨state.peripheral.sweep, state.stage.answered⟩

variable {state : UplinkTick config}

theorem sweepState_retain (state : UplinkTick config) :
    state.retain.sweepState = state.sweepState ∧ state.retain.departures = state.departures := by
  rw [retain]
  split <;> exact ⟨rfl, rfl⟩

theorem sweepState_succeed (state : UplinkTick config) (attempts : UInt8) :
    (state.succeed attempts).sweepState = state.sweepState := by
  rw [succeed]
  split
  · rfl
  · simp only [HopPeripheral.hopNoteTxSuccess]
    split_ifs <;> rfl

theorem sweepState_fail (state : UplinkTick config) (retry : Bool) :
    (state.fail retry).sweepState = state.sweepState := by
  rw [fail]
  split
  · simp only [HopPeripheral.hopNoteTxFailed]
    split <;> rfl
  · rfl

theorem sweepState_noteCount (state : UplinkTick config) :
    state.noteCount.sweepState = state.sweepState := by
  rw [noteCount]
  split_ifs <;> rfl

theorem sweepState_noteFlag (state : UplinkTick config) :
    state.noteFlag.sweepState = state.sweepState := by
  rw [noteFlag]
  split <;> rfl

/-- The choice of the window answers it or leaves the walk as it is. -/
theorem chooseWindow_event (hstage : state.stage = .settled)
    (hplace : state.peripheral.hopIndex < config.hopCount) (dwell : ℕ) :
    SweepEvent config.hopCount dwell state.sweepState none state.chooseWindow.sweepState := by
  have hbefore : state.sweepState = ⟨state.peripheral.ensureMask.sweep, false⟩ := by
    rw [HopPeripheral.sweep_ensureMask, sweepState, hstage]
    rfl
  have hindex : state.peripheral.ensureMask.hopIndex < config.hopCount := by
    rw [HopPeripheral.ensureMask]
    split <;> exact hplace
  rw [hbefore, chooseWindow]
  split_ifs with hepoch hacked
  · obtain ⟨place, hlt, hadopts⟩ := HopPeripheral.sweep_adoptEpochStart
      state.peripheral.ensureMask state.peripheral.ensureMask.beaconEpoch
    rw [sweepState, hadopts]
    exact .answer _ place hlt
  · exact .answer _ _ hindex
  · exact .quiet _

theorem sweep_gradeWindow (peripheral : HopPeripheral config) (worst : UInt8)
    (sum packets noack : UInt32) :
    let leave := (hopPolicyShouldHop peripheral.badWindows
      (HopPeripheral.windowPenalty sum packets noack) config.hopThreshold).2
    (peripheral.gradeWindow worst sum packets noack).sweep =
      if leave then
        ⟨hopPolicyIndexNextActive peripheral.hopIndex peripheral.activeMask config.hopCount,
          peripheral.sweep.dwelt, some peripheral.hopIndex⟩
      else peripheral.sweep := by
  simp only [HopPeripheral.gradeWindow]
  split_ifs <;> rfl

/-- The end of a window, as an event of the walk. -/
theorem endWindow_event {kind : WindowKind} {worst : UInt8} {sum packets : UInt32}
    {completed retried counted : ℕ}
    (hstage : state.stage = .packetsTaken kind worst sum packets completed retried counted)
    (h : state.sweepState.Sound config.hopCount config.sweepDwell) :
    SweepEvent config.hopCount config.sweepDwell state.sweepState (state.endedWindow .work)
      state.work.sweepState := by
  have hwork : state.work = state.endWindow kind worst sum packets := by rw [work, hstage]
  have hended : state.endedWindow .work =
      some ⟨kind, state.peripheral.hopIndex, decide (state.departures < state.work.departures),
        state.work.sweepState.sweep.place⟩ := by
    rw [endedWindow, hstage]
    rfl
  rw [hended, hwork]
  have hbefore : state.sweepState = ⟨state.peripheral.sweep, kind ≠ .lost⟩ := by
    rw [sweepState, hstage]
    rfl
  rw [hbefore]
  cases kind with
  | adopt =>
      rw [endWindow, (sweepState_retain _).1, (sweepState_retain _).2]
      dsimp only
      rw [decide_eq_false (Nat.lt_irrefl _)]
      exact .stay _ .adopt (by decide)
  | connected =>
      rw [endWindow, (sweepState_retain _).1, (sweepState_retain _).2]
      dsimp only [sweepState]
      rw [sweep_gradeWindow]
      dsimp only
      split_ifs with hleave
      · rw [decide_eq_true (Nat.lt_succ_self _)]
        exact .leave _ _ (hopPolicyIndexNextActive_lt _ h.sound.place_lt)
      · rw [decide_eq_false (Nat.lt_irrefl _)]
        exact .stay _ .connected (by decide)
  | lost =>
      rw [endWindow, (sweepState_retain _).1, (sweepState_retain _).2]
      dsimp only [sweepState]
      have hlost := HopPeripheral.sweep_lostWindowEnd
        { state.peripheral with windowNoackPackets := 0 } h.sound.dwelt_lt
      rw [hlost, decide_eq_false (Nat.lt_irrefl _)]
      exact .lost _

theorem step_event (h : state.sweepState.Sound config.hopCount config.sweepDwell)
    (action : UplinkAction) :
    SweepEvent config.hopCount config.sweepDwell state.sweepState (state.endedWindow action)
      (state.step action).sweepState := by
  have hquiet {after : UplinkTick config} (hsame : after.sweepState = state.sweepState) :
      SweepEvent config.hopCount config.sweepDwell state.sweepState none after.sweepState :=
    hsame ▸ .quiet _
  cases action with
  | submit ack => exact .quiet _
  | noteFlag => exact hquiet (sweepState_noteFlag state)
  | noteCount => exact hquiet (sweepState_noteCount state)
  | succeed attempts => exact hquiet (sweepState_succeed state attempts)
  | fail retry => exact hquiet (sweepState_fail state retry)
  | flush => exact .quiet _
  | receive pipe data =>
      refine hquiet ?_
      simp only [step, sweepState, HopPeripheral.sweep_hopConsumeRx]
  | tick =>
      refine hquiet ?_
      rw [step]
      split_ifs with hidle
      · rw [sweepState, sweepState, hidle]
        rfl
      · rfl
  | work =>
      cases hstage : state.stage with
      | packetsTaken kind worst sum packets completed retried counted =>
          exact endWindow_event hstage h
      | settled =>
          have hnone : state.endedWindow .work = none := by rw [endedWindow, hstage]
          rw [hnone, step, work, hstage]
          dsimp only
          split_ifs with hcount
          · exact hquiet (by rw [sweepState, sweepState, hstage]; rfl)
          · exact chooseWindow_event hstage h.sound.place_lt _
      | idle =>
          have hnone : state.endedWindow .work = none := by rw [endedWindow, hstage]
          rw [hnone, step, work, hstage]
          exact .quiet _
      | start | failedTaken | succeededTaken | window | worstTaken | sumTaken =>
          have hnone : state.endedWindow .work = none := by rw [endedWindow, hstage]
          rw [hnone, step, work, hstage]
          exact hquiet (by simp only [sweepState, settle, hstage]; rfl)

end UplinkTick

/-! ## Runs of the walk -/

section Walk

variable {n dwell : ℕ}

theorem SweepEvent.sound {before after : SweepState} {ended : Option EndedWindow}
    (hevent : SweepEvent n dwell before ended after) (h : before.Sound n dwell) :
    after.Sound n dwell := by
  have hpos : 0 < dwell := Nat.zero_lt_of_lt h.sound.dwelt_lt
  cases hevent with
  | quiet => exact h
  | answer sweep place hlt => exact ⟨⟨hlt, hpos, by simp, by simp⟩, by simp⟩
  | lost sweep => exact ⟨h.sound.lose, by simp⟩
  | stay sweep kind hkind => exact ⟨h.sound, by simp⟩
  | leave sweep place hlt =>
      have hplace : sweep.place < n := h.sound.place_lt
      have hfresh : sweep.dwelt = 0 := (h.fresh rfl).1
      exact ⟨⟨hlt, h.sound.dwelt_lt, by simpa using hplace, by simpa using hfresh⟩, by simp⟩

/-- The events of a run, with the windows it ended. -/
inductive SweepRun (n dwell : ℕ) : SweepState → List EndedWindow → SweepState → Prop
  | nil (state) : SweepRun n dwell state [] state
  | cons {before middle after ended windows} (h : SweepEvent n dwell before ended middle)
      (hrest : SweepRun n dwell middle windows after) :
      SweepRun n dwell before (ended.toList ++ windows) after

theorem SweepRun.sound {before after : SweepState} {windows : List EndedWindow}
    (hrun : SweepRun n dwell before windows after) (h : before.Sound n dwell) :
    after.Sound n dwell := by
  induction hrun with
  | nil => exact h
  | cons hevent _ ih => exact ih (hevent.sound h)

theorem SweepRun.split {before after : SweepState} {front back : List EndedWindow}
    (hrun : SweepRun n dwell before (front ++ back) after) :
    ∃ middle, SweepRun n dwell before front middle ∧ SweepRun n dwell middle back after := by
  generalize hall : front ++ back = windows at hrun
  induction hrun generalizing front with
  | nil state =>
      obtain ⟨rfl, rfl⟩ := List.append_eq_nil_iff.mp hall
      exact ⟨state, .nil state, .nil state⟩
  | cons hevent hrest ih =>
      rename_i first second third ended rest
      cases front with
      | nil =>
          refine ⟨first, .nil first, ?_⟩
          rw [List.nil_append] at hall
          exact hall ▸ .cons hevent hrest
      | cons window front =>
          cases ended with
          | none =>
              obtain ⟨middle, hfront, hback⟩ := ih hall
              exact ⟨middle, .cons hevent hfront, hback⟩
          | some ended =>
              injection hall with hwindow hall
              obtain ⟨middle, hfront, hback⟩ := ih hall
              exact ⟨middle, hwindow ▸ .cons hevent hfront, hback⟩

/-- Windows lost one after the other go where the walk goes; with an answered window
open the next one to end is not lost. -/
theorem SweepRun.places {before after : SweepState} {windows : List EndedWindow}
    (hrun : SweepRun n dwell before windows after) (hlost : ∀ window ∈ windows, window.kind = .lost) :
    if before.answered then windows = []
    else windows.map (·.index) = DwellSweep.places n dwell before.sweep windows.length := by
  induction hrun with
  | nil state => split <;> rfl
  | cons hevent _ ih =>
      have ih := ih fun window hwindow => hlost window (List.mem_append_right _ hwindow)
      cases hevent with
      | quiet => exact ih
      | answer sweep place hlt =>
          rw [if_pos rfl] at ih
          rw [ih]
          rfl
      | lost sweep =>
          rw [if_neg Bool.false_ne_true] at ih ⊢
          simpa [DwellSweep.places] using ih
      | stay sweep kind hkind => exact absurd (hlost _ (List.mem_cons_self ..)) hkind
      | leave sweep place hlt =>
          have hkind := hlost _ (List.mem_cons_self ..)
          cases hkind

theorem SweepRun.in_pool {before after : SweepState} {windows : List EndedWindow}
    (hrun : SweepRun n dwell before windows after) (h : before.Sound n dwell) :
    ∀ window ∈ windows, window.held < n ∧ window.index < n := by
  induction hrun with
  | nil => simp
  | cons hevent _ ih =>
      have hplace := h.sound.place_lt
      have hrest := ih (hevent.sound h)
      have hnext := (hevent.sound h).sound.place_lt
      cases hevent with
      | quiet | answer => exact hrest
      | lost | stay | leave => exact List.forall_mem_cons.mpr ⟨⟨hplace, hnext⟩, hrest⟩

/-- The walk stands where the last window left it. -/
def StandsAfter (start : ℕ) (last : Option EndedWindow) (state : SweepState) : Prop :=
  state.answered = false →
    origin state.sweep = last.elim start EndedWindow.resumes ∧
      ∀ window ∈ last, window.left = true → state.sweep.dwelt = 0

theorem getLast?_cons_or {window : EndedWindow} {windows : List EndedWindow}
    {last : Option EndedWindow} :
    (window :: windows).getLast?.or last = windows.getLast?.or (some window) := by
  rw [List.getLast?_cons]
  cases windows.getLast? <;> rfl

theorem SweepRun.standsAfter {start : ℕ} {before after : SweepState} {windows : List EndedWindow}
    (hrun : SweepRun n dwell before windows after) (h : before.Sound n dwell)
    {last : Option EndedWindow} (hstands : StandsAfter start last before) :
    StandsAfter start (windows.getLast?.or last) after := by
  induction hrun generalizing last with
  | nil => exact hstands
  | cons hevent _ ih =>
      have hsound := hevent.sound h
      cases hevent with
      | quiet => exact ih h hstands
      | answer sweep place hlt => exact ih hsound (by simp [StandsAfter])
      | lost sweep =>
          rw [Option.toList_some, List.singleton_append, getLast?_cons_or]
          refine ih hsound fun _ => ⟨?_, by simp⟩
          obtain ⟨place, dwelt, _ | back⟩ := sweep <;> rfl
      | stay sweep kind hkind =>
          rw [Option.toList_some, List.singleton_append, getLast?_cons_or]
          refine ih hsound fun _ => ⟨?_, by simp⟩
          rw [origin, (h.fresh rfl).2]
          rfl
      | leave sweep place hlt =>
          rw [Option.toList_some, List.singleton_append, getLast?_cons_or]
          exact ih hsound fun _ => ⟨rfl, fun _ _ _ => (h.fresh rfl).1⟩

end Walk

namespace UplinkTick

variable {state : UplinkTick config}

theorem windowsAlong_run (h : state.sweepState.Sound config.hopCount config.sweepDwell)
    (actions : List UplinkAction) :
    SweepRun config.hopCount config.sweepDwell state.sweepState (windowsAlong state actions)
      (run step state actions).sweepState := by
  induction actions generalizing state with
  | nil => exact .nil _
  | cons action actions ih =>
      have hevent := step_event h action
      exact .cons hevent (ih (hevent.sound h))

theorem boot_sound (retained : HopRetained config) :
    (boot retained).sweepState.Sound config.hopCount config.sweepDwell := by
  obtain ⟨place, hlt, hsweep⟩ := HopPeripheral.sweep_boot retained
  have hstate : (boot retained).sweepState = ⟨⟨place, 0, none⟩, false⟩ := by
    rw [← hsweep]
    rfl
  have hdwell := config.one_lt_sweepDwell
  rw [hstate]
  exact ⟨⟨hlt, by dsimp only; omega, by simp, by simp⟩, by simp⟩

/-- Windows lost one after the other go where the walk goes, from where the window
before them left it. -/
theorem lost_windows (retained : HopRetained config) {actions : List UplinkAction}
    {before lost after : List EndedWindow}
    (hwindows : windowsAlong (boot retained) actions = before ++ (lost ++ after))
    (hlost : ∀ window ∈ lost, window.kind = .lost) (hsome : lost ≠ []) :
    ∃ sweep, DwellSweep.Sound config.hopCount config.sweepDwell sweep ∧
      lost.map (·.index) = DwellSweep.places config.hopCount config.sweepDwell sweep lost.length ∧
      origin sweep = before.getLast?.elim (boot retained).peripheral.hopIndex
        EndedWindow.resumes ∧
      ∀ window ∈ before.getLast?, window.left = true → sweep.dwelt = 0 := by
  have hboot := boot_sound retained
  have hrun := windowsAlong_run hboot actions
  rw [hwindows] at hrun
  obtain ⟨middle, hbefore, hrest⟩ := hrun.split
  obtain ⟨_, hafter, -⟩ := hrest.split
  have hplaces := hafter.places hlost
  have hopen : middle.answered = false := by
    by_contra hanswered
    rw [if_pos (Bool.eq_true_of_not_eq_false hanswered)] at hplaces
    exact hsome hplaces
  rw [if_neg (by simp [hopen])] at hplaces
  have hstart : StandsAfter (boot retained).peripheral.hopIndex none (boot retained).sweepState := by
    obtain ⟨place, -, hsweep⟩ := HopPeripheral.sweep_boot retained
    intro _
    refine ⟨?_, by simp⟩
    rw [sweepState, boot, hsweep, origin, Option.getD_none]
    exact congrArg Sweep.place hsweep.symm
  have hstands := hbefore.standsAfter hboot hstart hopen
  rw [Option.or_none] at hstands
  exact ⟨middle.sweep, (hbefore.sound hboot).sound, hplaces, hstands⟩

/-- A lost peripheral stays in the pool; windows lost one after the other walk the whole
pool and dwell on each channel; a degrade step just made is taken back first. -/
structure SweepsPool (config : HopConfig) : Prop where
  hopIndex_lt : ∀ (retained : HopRetained config) (actions : List UplinkAction),
    (run step (boot retained) actions).peripheral.hopIndex < config.hopCount
  sweeps : ∀ (retained : HopRetained config) (actions : List UplinkAction)
    (before lost : List EndedWindow), windowsAlong (boot retained) actions = before ++ lost →
    (∀ window ∈ lost, window.kind = .lost) →
    SweepsFrom config.hopCount config.esbHopSweepDwellWindows
      (before.getLast?.elim (boot retained).peripheral.hopIndex EndedWindow.resumes)
      (lost.map (·.index))
  returns : ∀ (retained : HopRetained config) (actions : List UplinkAction)
    (before after : List EndedWindow) (degraded lost : EndedWindow),
    windowsAlong (boot retained) actions = before ++ degraded :: lost :: after →
    degraded.left = true → lost.kind = .lost → lost.index = degraded.held

theorem hopIndex_run_lt (retained : HopRetained config) (actions : List UplinkAction) :
    (run step (boot retained) actions).peripheral.hopIndex < config.hopCount :=
  ((windowsAlong_run (boot_sound retained) actions).sound (boot_sound retained)).sound.place_lt

theorem lost_returns (retained : HopRetained config) {actions : List UplinkAction}
    {before after : List EndedWindow} {degraded lost : EndedWindow}
    (hwindows : windowsAlong (boot retained) actions = before ++ degraded :: lost :: after)
    (hleft : degraded.left = true) (hlost : lost.kind = .lost) : lost.index = degraded.held := by
  have hdwell := config.one_lt_sweepDwell
  have hall : windowsAlong (boot retained) actions = (before ++ [degraded]) ++ ([lost] ++ after) := by
    rw [hwindows, List.append_assoc]
    rfl
  obtain ⟨sweep, hsound, hplaces, horigin, hfresh⟩ := lost_windows retained hall
    (List.forall_mem_singleton.mpr hlost) (List.cons_ne_nil _ _)
  rw [List.getLast?_concat] at horigin hfresh
  have hdwelt : sweep.dwelt = 0 := hfresh degraded rfl hleft
  have hfirst : (DwellSweep.places config.hopCount config.sweepDwell sweep [lost].length)[0]? =
      some lost.index := by
    rw [← hplaces]
    rfl
  have hplace : lost.index =
      (origin sweep + (sweep.dwelt + 0 + 1) / config.sweepDwell) % config.hopCount :=
    place_eq hsound hdwell hfirst
  rw [hplace, hdwelt, Nat.div_eq_of_lt hdwell, Nat.add_zero, Nat.mod_eq_of_lt hsound.origin_lt,
    horigin, Option.elim_some, EndedWindow.resumes, if_pos hleft]

theorem sweepsPool_of_dwell (hdwell : config.esbHopSweepDwellWindows ≤ 65536) :
    SweepsPool config where
  hopIndex_lt := hopIndex_run_lt
  sweeps retained actions before lost hwindows hlost := by
    have hcap : config.sweepDwell = config.esbHopSweepDwellWindows := Nat.min_eq_left hdwell
    rw [← hcap]
    cases lost with
    | nil => exact .nil config.hopChannels_pos (Nat.zero_lt_of_lt config.one_lt_sweepDwell) _
    | cons window lost =>
        have hall : windowsAlong (boot retained) actions = before ++ (window :: lost ++ []) := by
          rw [hwindows, List.append_nil]
        obtain ⟨sweep, hsound, hplaces, horigin, -⟩ :=
          lost_windows retained hall hlost (List.cons_ne_nil _ _)
        rw [hplaces, ← horigin]
        exact sweepsFrom_places hsound config.one_lt_sweepDwell _
  returns retained actions before after degraded lost := lost_returns retained

/-! ## Ticks without an answer -/

/-- The statements left of a tick that found no success and no failure. -/
def stepsLeft : TickStage → Option ℕ
  | .idle => some 0
  | .start => some 8
  | .failedTaken false => some 7
  | .succeededTaken false false .. => some 6
  | .settled => some 5
  | .window .lost => some 4
  | .worstTaken .lost _ => some 3
  | .sumTaken .lost .. => some 2
  | .packetsTaken .lost .. => some 1
  | _ => none

theorem stepsLeft_eq_zero {stage : TickStage} (h : stepsLeft stage = some 0) : stage = .idle := by
  unfold stepsLeft at h
  split at h
  · rfl
  all_goals simp at h

/-- Nothing was sent or heard, before a tick or in one. -/
structure Unheard (left : ℕ) (state : UplinkTick config) : Prop where
  stage : stepsLeft state.stage = some left
  linkAcked : state.peripheral.linkAcked = false
  failed : state.peripheral.txFailedSinceTick = false
  succeeded : state.peripheral.txSucceededSinceTick = false
  epoch : state.peripheral.beaconEpoch = state.peripheral.adoptedEpoch

theorem Unheard.boot (retained : HopRetained config) : (boot retained).Unheard 0 := by
  simp only [UplinkTick.boot, HopPeripheral.boot, HopPeripheral.hopRestore]
  split_ifs <;> exact ⟨rfl, rfl, rfl, rfl, rfl⟩

theorem Unheard.chooseWindow {left : ℕ} (h : state.Unheard left) :
    state.chooseWindow.Unheard 4 := by
  obtain ⟨-, hacked, hfailed, hsucceeded, hepoch⟩ := h
  have hensure : state.peripheral.ensureMask.beaconEpoch = state.peripheral.ensureMask.adoptedEpoch ∧
      state.peripheral.ensureMask.linkAcked = false ∧
      state.peripheral.ensureMask.txFailedSinceTick = false ∧
      state.peripheral.ensureMask.txSucceededSinceTick = false := by
    rw [HopPeripheral.ensureMask]
    split <;> exact ⟨hepoch, hacked, hfailed, hsucceeded⟩
  obtain ⟨hepoch, hacked, hfailed, hsucceeded⟩ := hensure
  rw [UplinkTick.chooseWindow, if_neg (not_not.mpr hepoch), if_neg (by simp [hacked])]
  exact ⟨rfl, hacked, hfailed, hsucceeded, hepoch⟩

theorem Unheard.endWindow {left : ℕ} (h : state.Unheard left) (worst : UInt8)
    (sum packets : UInt32) : (state.endWindow .lost worst sum packets).Unheard 0 := by
  obtain ⟨-, hacked, hfailed, hsucceeded, hepoch⟩ := h
  rw [UplinkTick.endWindow, retain, HopPeripheral.lostWindowEnd]
  dsimp only
  split_ifs <;> exact ⟨rfl, hacked, hfailed, hsucceeded, hepoch⟩

/-- The next statement of such a tick; the last one ends a lost window. -/
theorem Unheard.work (hcount : 1 < config.hopCount) {left : ℕ} (h : state.Unheard (left + 1)) :
    state.work.Unheard left ∧
      if left = 0 then ∃ window, state.endedWindow .work = some window ∧ window.kind = .lost
      else state.endedWindow .work = none := by
  have hpool : ¬ config.hopCount ≤ 1 := by omega
  obtain ⟨hleft, hacked, hfailed, hsucceeded, hepoch⟩ := h
  rw [UplinkTick.work, endedWindow]
  cases hstage : state.stage with
  | idle => simp [hstage, stepsLeft] at hleft
  | start =>
      obtain rfl : left = 7 := by simpa [hstage, stepsLeft, eq_comm] using hleft
      rw [hfailed]
      exact ⟨⟨rfl, hacked, rfl, hsucceeded, hepoch⟩, rfl⟩
  | failedTaken failed =>
      cases failed with
      | true => simp [hstage, stepsLeft] at hleft
      | false =>
          obtain rfl : left = 6 := by simpa [hstage, stepsLeft, eq_comm] using hleft
          rw [hsucceeded]
          exact ⟨⟨rfl, hacked, hfailed, rfl, hepoch⟩, rfl⟩
  | succeededTaken failed succeeded acked noacked =>
      obtain ⟨rfl, rfl, rfl⟩ : failed = false ∧ succeeded = false ∧ left = 5 := by
        cases failed <;> cases succeeded <;> simp_all [stepsLeft]
      exact ⟨⟨rfl, hacked, hfailed, hsucceeded, hepoch⟩, rfl⟩
  | settled =>
      obtain rfl : left = 4 := by simpa [hstage, stepsLeft, eq_comm] using hleft
      dsimp only
      rw [if_neg hpool]
      exact ⟨Unheard.chooseWindow ⟨hleft, hacked, hfailed, hsucceeded, hepoch⟩, rfl⟩
  | window kind =>
      obtain ⟨rfl, rfl⟩ : kind = .lost ∧ left = 3 := by
        cases kind <;> simp_all [stepsLeft]
      exact ⟨⟨rfl, hacked, hfailed, hsucceeded, hepoch⟩, rfl⟩
  | worstTaken kind worst =>
      obtain ⟨rfl, rfl⟩ : kind = .lost ∧ left = 2 := by
        cases kind <;> simp_all [stepsLeft]
      exact ⟨⟨rfl, hacked, hfailed, hsucceeded, hepoch⟩, rfl⟩
  | sumTaken kind worst sum completed retried =>
      obtain ⟨rfl, rfl⟩ : kind = .lost ∧ left = 1 := by
        cases kind <;> simp_all [stepsLeft]
      exact ⟨⟨rfl, hacked, hfailed, hsucceeded, hepoch⟩, rfl⟩
  | packetsTaken kind worst sum packets completed retried counted =>
      obtain ⟨rfl, rfl⟩ : kind = .lost ∧ left = 0 := by
        cases kind <;> simp_all [stepsLeft]
      exact ⟨Unheard.endWindow ⟨hleft, hacked, hfailed, hsucceeded, hepoch⟩ worst sum packets,
        _, rfl, rfl⟩

theorem Unheard.finish (hcount : 1 < config.hopCount) {left : ℕ} (h : state.Unheard (left + 1)) :
    (run step state (List.replicate (left + 1) .work)).Unheard 0 ∧
      ∃ window, windowsAlong state (List.replicate (left + 1) .work) = [window] ∧
        window.kind = .lost := by
  induction left generalizing state with
  | zero =>
      obtain ⟨hwork, window, hwindow, hlost⟩ := h.work hcount
      exact ⟨hwork, window, by simp [windowsAlong, hwindow], hlost⟩
  | succ left ih =>
      obtain ⟨hwork, hnone⟩ := h.work hcount
      rw [if_neg (Nat.succ_ne_zero _)] at hnone
      obtain ⟨hrun, window, hwindow, hlost⟩ := ih hwork
      refine ⟨hrun, window, ?_, hlost⟩
      rw [List.replicate_succ, windowsAlong, hnone]
      exact hwindow

theorem Unheard.wholeTick (hcount : 1 < config.hopCount) (h : state.Unheard 0) :
    (run step state wholeTick).Unheard 0 ∧
      ∃ window, windowsAlong state wholeTick = [window] ∧ window.kind = .lost := by
  have hidle : state.stage = .idle := stepsLeft_eq_zero h.stage
  have hstart : (state.step .tick).Unheard 8 := by
    rw [step, if_pos hidle]
    exact ⟨rfl, h.linkAcked, h.failed, h.succeeded, h.epoch⟩
  exact hstart.finish hcount

theorem windowsAlong_append (state : UplinkTick config) (front back : List UplinkAction) :
    windowsAlong state (front ++ back) =
      windowsAlong state front ++ windowsAlong (run step state front) back := by
  induction front generalizing state with
  | nil => rfl
  | cons action front ih =>
      rw [List.cons_append, windowsAlong, windowsAlong, ih, List.append_assoc]
      rfl

/-- A peripheral left alone loses as many windows as one likes. -/
theorem exists_lost_windows (hcount : 1 < config.hopCount) (h : state.Unheard 0) (windows : ℕ) :
    ∃ actions, (windowsAlong state actions).length = windows ∧
      ∀ window ∈ windowsAlong state actions, window.kind = .lost := by
  induction windows generalizing state with
  | zero => exact ⟨[], rfl, by simp [windowsAlong]⟩
  | succ windows ih =>
      obtain ⟨hrun, window, hwindow, hlost⟩ := h.wholeTick hcount
      obtain ⟨actions, hlength, hall⟩ := ih hrun
      refine ⟨UplinkTick.wholeTick ++ actions, ?_, ?_⟩
      · rw [windowsAlong_append, hwindow, List.length_append, hlength, List.length_singleton,
          Nat.add_comm]
      · rw [windowsAlong_append, hwindow]
        exact List.forall_mem_cons.mpr ⟨hlost, hall⟩

/-- Two dwells of a peripheral left alone show that the counter holds the dwell. -/
theorem dwell_of_sweepsPool (hcount : 1 < config.hopCount) (retained : HopRetained config)
    (h : SweepsPool config) : config.esbHopSweepDwellWindows ≤ 65536 := by
  obtain ⟨actions, hlength, hlost⟩ := exists_lost_windows hcount (.boot retained)
    (2 * config.sweepDwell)
  have hsound := boot_sound retained
  have hplaces := (windowsAlong_run hsound actions).places hlost
  rw [if_neg (by simp [sweepState, boot, TickStage.answered])] at hplaces
  obtain ⟨place, -, hsweep⟩ := HopPeripheral.sweep_boot retained
  have hfresh : (boot retained).sweepState.sweep = ⟨place, 0, none⟩ := hsweep
  have horigin : origin (boot retained).sweepState.sweep = (boot retained).peripheral.hopIndex := by
    rw [hfresh]
    exact congrArg Sweep.place hfresh.symm
  have hsweeps := h.sweeps retained actions [] _ rfl hlost
  rw [List.getLast?_nil, Option.elim_none, ← horigin, hplaces, hlength] at hsweeps
  have hunique := dwell_unique hsound.sound config.one_lt_sweepDwell hcount
    (congrArg Sweep.dwelt hfresh) le_rfl (Nat.min_le_left ..) hsweeps
  rw [hunique]
  exact Nat.min_le_right ..

/-- A pool of one channel has only one place to go. -/
theorem sweepsPool_of_one (hcount : config.hopCount ≤ 1) : SweepsPool config where
  hopIndex_lt := hopIndex_run_lt
  sweeps retained actions before lost hwindows _ := by
    have hpool := (windowsAlong_run (boot_sound retained) actions).in_pool (boot_sound retained)
    have hzero (window : EndedWindow) (hmem : window ∈ lost) : window.index = 0 := by
      have hlt := (hpool window (hwindows ▸ List.mem_append_right _ hmem)).2
      omega
    have hone : config.hopCount = 1 := Nat.le_antisymm hcount config.hopChannels_pos
    have hdwell : 0 < config.esbHopSweepDwellWindows :=
      Nat.zero_lt_of_lt (Nat.lt_of_lt_of_le config.one_lt_sweepDwell (Nat.min_le_left ..))
    rw [hone]
    constructor
    · refine ⟨0, hdwell, fun window place hplace => ?_⟩
      obtain ⟨ended, hmem, rfl⟩ := List.mem_map.mp (List.mem_of_getElem? hplace)
      rw [if_neg (Nat.not_lt_zero _), Nat.mod_one, hzero ended hmem]
    · intro hlength place hplace
      cases lost with
      | nil => simp at hlength; omega
      | cons window lost =>
          obtain ⟨windows, hwindows⟩ := Nat.exists_eq_succ_of_ne_zero (Nat.ne_of_gt hdwell)
          rw [Nat.one_mul, hwindows, List.map_cons, List.take_succ_cons,
            hzero window (List.mem_cons_self ..), Nat.lt_one_iff.mp hplace]
          exact List.mem_cons_self ..
  returns retained actions before after degraded lost := lost_returns retained

end UplinkTick

open UplinkTick

/-- A lost peripheral sweeps its pool in every run exactly when its pool has one
channel or the counter of windows holds the dwell. -/
theorem sweepsPool_iff (config : HopConfig) :
    SweepsPool config ↔ config.hopCount ≤ 1 ∨ config.esbHopSweepDwellWindows ≤ 65536 := by
  constructor
  · intro h
    rcases Nat.lt_or_ge 1 config.hopCount with hcount | hone
    · refine Or.inr (dwell_of_sweepsPool hcount ?_ h)
      exact ⟨0, 0, 0, Vector.replicate _ 0, 0⟩
    · exact Or.inl hone
  · rintro (hone | hdwell)
    · exact sweepsPool_of_one hone
    · exact sweepsPool_of_dwell hdwell

/-- A window of one millisecond and the longest keepalive period. -/
def longDwellConfig : HopConfig :=
  { sampleHopConfig with hopWindowMs := 1, idleKeepaliveMs := 65535 }

/-- There the counter wraps one window short of the dwell. -/
theorem long_dwell_cut_short : ¬ ∀ config : HopConfig, SweepsPool config := by
  intro h
  have hdwell : longDwellConfig.esbHopSweepDwellWindows ≤ 65536 :=
    dwell_of_sweepsPool (by decide) ⟨0, 0, 0, Vector.replicate _ 0, 0⟩ (h longDwellConfig)
  exact absurd hdwell (by decide)

end SplitEsb
