import SplitEsb.Peripheral.ClockGate
import SplitEsb.Shared.Mutex
import SplitEsb.Shared.Transition

/-! # Transmissions without the crystal
The mutex orders holds and releases, but a hold ends before the write it is for. A release
in between leaves the write without the crystal. -/

namespace SplitEsb

open Mutex Transition Uptime

/-! ## Where a call is -/

namespace GateStage

/-- Inside a section of the gate mutex. -/
def Inside : GateStage → Prop
  | .acquire _ | .requested _ | .holdReschedule _ | .holdUnlock _ | .releaseCheck | .release
  | .releaseClear | .releaseUnlock | .setGating _ | .setIdleWork _ | .setIdleUnlock => True
  | _ => False

/-- Past `hfclk_gate_hold`, with a write or a start to come. -/
def Submits : GateStage → Prop
  | .write | .refused | .flush | .mark | .rewrite | .start => True
  | _ => False

/-- Past the acquire of `hfclk_gate_hold`. -/
def Holds : GateStage → Prop
  | .holdReschedule _ | .holdUnlock _ => True
  | stage => stage.Submits

/-- Past the check of `hfclk_release_work_fn` that lets the crystal go. -/
def Releases : GateStage → Prop
  | .release | .releaseClear => True
  | _ => False

theorem Submits.holds {stage : GateStage} (h : stage.Submits) : stage.Holds := by
  cases stage <;> first | exact h | trivial

theorem Releases.inside {stage : GateStage} (h : stage.Releases) : stage.Inside := by
  cases stage <;> first | exact h | trivial

/-- A hold is inside the mutex until its write is due. -/
theorem Holds.submits {stage : GateStage} (h : stage.Holds) (hinside : ¬ stage.Inside) :
    stage.Submits := by
  cases stage <;> first | exact h | exact absurd trivial hinside

end GateStage

theorem AfterAcquire.stage_inside (next : AfterAcquire) :
    next.stage.Inside ∧ ¬ next.stage.Submits ∧ ¬ next.stage.Releases := by
  cases next <;> exact ⟨trivial, nofun, nofun⟩

theorem HoldFor.stage_outside (use : HoldFor) : ¬ use.stage.Inside := by
  cases use <;> exact nofun

namespace ClockGate

/-- The crystal is held while the radio is not idle. -/
def HeldWhileTransmitting (state : ClockGate) : Prop :=
  state.transmitting = true → state.held = true

/-- The release passes its check only when no other call is past its hold and before its
write. -/
def ReleasesUnused (state : ClockGate) : GateAction → Prop
  | .work thread _ =>
      state.calls thread = .releaseCheck →
        hopPolicyHfclkReleaseAllowed state.gating (!state.transmitting) = true →
          ∀ other, ¬ (state.calls other).Submits
  | _ => True

/-! ## The invariant -/

structure Sound (state : ClockGate) : Prop where
  guards : Guards GateStage.Inside state.owner state.calls
  holds : ∀ thread, (state.calls thread).Holds → state.held = true
  transmits : state.HeldWhileTransmitting
  releases : ∀ thread, (state.calls thread).Releases →
    state.transmitting = false ∧ ∀ other, ¬ (state.calls other).Submits

theorem Sound.boot (retransmitCount : UInt8) (retransmitDelayUs : UInt16) :
    (boot retransmitCount retransmitDelayUs).Sound :=
  ⟨nofun, nofun, nofun, nofun⟩

variable {state after : ClockGate} {thread : ℕ} {stage next : GateStage}

/-- Nobody releases while a call has its write to come. -/
theorem Sound.not_releases (h : state.Sound) (hstage : (state.calls thread).Submits) (other : ℕ) :
    ¬ (state.calls other).Releases :=
  fun hother => (h.releases other hother).2 thread hstage

/-- A thread goes on by a statement that leaves the crystal and the radio alone. -/
theorem Sound.move (h : state.Sound) (hstage : state.calls thread = stage)
    (hcalls : after.calls = Function.update state.calls thread next)
    (howner : after.owner = state.owner) (hheld : after.held = state.held)
    (htransmitting : after.transmitting = state.transmitting)
    (hinside : next.Inside → stage.Inside) (hholds : next.Holds → state.held = true)
    (hsubmits : next.Submits → stage.Submits) (hreleases : next.Releases → stage.Releases) :
    after.Sound := by
  subst hstage
  refine ⟨?_, ?_, ?_, ?_⟩
  · rw [hcalls, howner]
    exact h.guards.move hinside
  · rw [hcalls, hheld]
    exact forall_move h.holds hholds
  · rw [HeldWhileTransmitting, htransmitting, hheld]
    exact h.transmits
  · rw [hcalls, htransmitting]
    have hquiet : ∀ other, (state.calls other).Releases → state.transmitting = false ∧
        ∀ another, ¬ (Function.update state.calls thread next another).Submits := by
      intro other hother
      obtain ⟨hidle, hnone⟩ := h.releases other hother
      exact ⟨hidle, forall_move hnone fun hnext => hnone thread (hsubmits hnext)⟩
    exact forall_move hquiet fun hnext => hquiet thread (hreleases hnext)

/-- The free mutex is taken. -/
theorem Sound.lock (h : state.Sound) (hholds : ¬ next.Holds) (hreleases : ¬ next.Releases) :
    (state.lock thread next).Sound := by
  rw [ClockGate.lock]
  split
  case h_1 hfree =>
      have hguards := h.guards
      rw [hfree] at hguards
      have hnone : ∀ other, ¬ (state.calls other).Releases := fun other hother =>
        absurd (hguards other hother.inside) nofun
      refine ⟨hguards.lock, ?_, h.transmits, fun other hother => ?_⟩
      · exact forall_move h.holds fun hnext => absurd hnext hholds
      · exact (forall_move hnone hreleases other hother).elim
  case h_2 => exact h

/-- The owner leaves its section. -/
theorem Sound.unlock (h : state.Sound) (hstage : state.calls thread = stage)
    (hinside : stage.Inside) (hleaves : ¬ next.Inside)
    (hholds : next.Holds → state.held = true) (hstays : ¬ stage.Releases) :
    (state.unlock thread next).Sound := by
  subst hstage
  have hnone : ∀ other, ¬ (state.calls other).Releases := by
    intro other hother
    rw [h.guards.alone hinside hother.inside] at hother
    exact hstays hother
  refine ⟨h.guards.unlock hinside hleaves, forall_move h.holds hholds, h.transmits,
    fun other hother => ?_⟩
  exact (forall_move hnone (fun hnext => hleaves hnext.inside) other hother).elim

/-- A write or a start that comes after its hold. -/
theorem Sound.transmit (h : state.Sound) (hstage : (state.calls thread).Submits)
    (answer : RadioAnswer) {again : GateStage} (hagain : ¬ again.Inside) :
    (state.transmit thread answer again).Sound := by
  have hheld : state.held = true := h.holds thread hstage.holds
  cases answer with
  | taken starts =>
      refine ⟨h.guards.move nofun, fun _ _ => hheld, fun _ => hheld, ?_⟩
      exact forall_move (fun other hother => absurd hother (h.not_releases hstage other)) nofun
  | noMemory =>
      exact h.move rfl rfl rfl rfl rfl (absurd · hagain) (fun _ => hheld) (fun _ => hstage)
        fun hnext => absurd hnext.inside hagain
  | refused => exact h.move rfl rfl rfl rfl rfl nofun nofun nofun nofun

theorem Sound.acquired (h : state.Sound) : ({ state with held := true } : ClockGate).Sound :=
  ⟨h.guards, fun _ _ => rfl, fun _ => rfl, h.releases⟩

/-- The check lets the crystal go only while the radio is idle. -/
theorem idle_of_allowed (h : hopPolicyHfclkReleaseAllowed state.gating (!state.transmitting) = true) :
    state.transmitting = false := by
  rw [hopPolicyHfclkReleaseAllowed] at h
  split_ifs at h
  exact Bool.not_eq_true' _ ▸ h

/-- With no write to come, the crystal goes. -/
theorem Sound.release (h : state.Sound) (hstage : state.calls thread = .releaseClear) :
    ({ state with held := false }.setCall thread .releaseUnlock).Sound := by
  obtain ⟨hidle, hnone⟩ := h.releases thread (by rw [hstage]; trivial)
  have hinside : (state.calls thread).Inside := by
    rw [hstage]
    trivial
  have hunheld : ∀ other, ¬ (state.calls other).Holds := by
    intro other hother
    refine hnone other (hother.submits fun hin => ?_)
    rw [h.guards.alone hinside hin, hstage] at hother
    exact hother
  refine ⟨h.guards.move fun _ => hinside, ?_, fun htransmitting => ?_, ?_⟩
  · exact forall_move (fun other hother => absurd hother (hunheld other)) nofun
  · exact absurd (hidle.symm.trans htransmitting) nofun
  · exact forall_move (fun _ _ => ⟨hidle, forall_move hnone id⟩) nofun

/-- Every statement of every call. -/
theorem Sound.work (h : state.Sound) (answer : RadioAnswer)
    (hunused : state.ReleasesUnused (.work thread answer)) :
    (state.work thread answer).Sound := by
  rw [ClockGate.work]
  split
  · exact h
  · exact h.lock nofun nofun
  · next next hstage =>
      obtain ⟨hinside, hsubmits, hreleases⟩ := next.stage_inside
      split_ifs with hheld
      · exact h.move hstage rfl rfl rfl rfl (fun _ => trivial) (fun _ => hheld)
          (absurd · hsubmits) (absurd · hreleases)
      · exact h.move hstage rfl rfl rfl rfl (fun _ => trivial) nofun nofun nofun
  · next next hstage =>
      obtain ⟨hinside, hsubmits, hreleases⟩ := next.stage_inside
      exact h.acquired.move hstage rfl rfl rfl rfl (fun _ => trivial) (fun _ => rfl)
        (absurd · hsubmits) (absurd · hreleases)
  · next use hstage =>
      have hheld := h.holds thread (by rw [hstage]; trivial)
      split_ifs <;> exact h.move hstage rfl rfl rfl rfl id (fun _ => hheld) nofun nofun
  · next use hstage =>
      have hheld := h.holds thread (by rw [hstage]; trivial)
      exact h.unlock hstage trivial use.stage_outside (fun _ => hheld) nofun
  · next hstage => exact h.transmit (by rw [hstage]; trivial) answer nofun
  · next hstage =>
      have hheld := h.holds thread (by rw [hstage]; trivial)
      dsimp only
      split_ifs
      · exact h.move hstage rfl rfl rfl rfl nofun nofun nofun nofun
      · exact h.move hstage rfl rfl rfl rfl nofun (fun _ => hheld) id nofun
  · next hstage =>
      have hheld := h.holds thread (by rw [hstage]; trivial)
      exact h.move hstage rfl rfl rfl rfl nofun (fun _ => hheld) id nofun
  · next hstage =>
      have hheld := h.holds thread (by rw [hstage]; trivial)
      exact h.move hstage rfl rfl rfl rfl nofun (fun _ => hheld) id nofun
  · next hstage => exact h.transmit (by rw [hstage]; trivial) answer nofun
  · next hstage => exact h.transmit (by rw [hstage]; trivial) answer nofun
  · exact h.lock nofun nofun
  · next hstage =>
      split_ifs with hallowed
      · have hnone : ∀ other, ¬ (state.calls other).Submits := hunused hstage hallowed
        have hidle : state.transmitting = false := idle_of_allowed hallowed
        refine ⟨h.guards.move fun _ => by rw [hstage]; trivial, forall_move h.holds nofun,
          h.transmits, ?_⟩
        exact forall_move (fun _ _ => ⟨hidle, forall_move hnone id⟩)
          fun _ => ⟨hidle, forall_move hnone id⟩
      · exact h.move hstage rfl rfl rfl rfl id nofun nofun nofun
      · exact h.move hstage rfl rfl rfl rfl id nofun nofun nofun
  · next hstage =>
      split_ifs
      · exact h.move hstage rfl rfl rfl rfl id nofun nofun id
      · exact h.move hstage rfl rfl rfl rfl id nofun nofun nofun
  · next hstage => exact h.release hstage
  · next hstage => exact h.unlock hstage trivial nofun nofun nofun
  · exact h.lock nofun nofun
  · next hstage => exact h.move hstage rfl rfl rfl rfl id nofun nofun nofun
  · next hstage =>
      split_ifs <;> exact h.move hstage rfl rfl rfl rfl id nofun nofun nofun
  · next hstage => exact h.unlock hstage trivial nofun nofun nofun

/-- A call begins outside the mutex. -/
theorem Sound.begin (h : state.Sound) (thread : ℕ) (hinside : ¬ next.Inside)
    (hholds : ¬ next.Holds) : (state.begin thread next).Sound := by
  rw [ClockGate.begin]
  split
  · next hstage =>
      exact h.move hstage rfl rfl rfl rfl (absurd · hinside) (absurd · hholds)
        (fun hnext => absurd hnext.holds hholds) fun hnext => absurd hnext.inside hinside
  · exact h

theorem Sound.succeed (h : state.Sound) (more : Bool) : (state.succeed more).Sound := by
  rw [ClockGate.succeed]
  split
  · next htransmitting =>
      refine ⟨h.guards, h.holds, fun _ => h.transmits htransmitting, fun other hother => ?_⟩
      exact absurd (htransmitting.symm.trans (h.releases other hother).1) nofun
  · exact h

theorem Sound.fail (h : state.Sound) (retry : Bool) : (state.fail retry).Sound := by
  rw [ClockGate.fail]
  split
  · exact ⟨h.guards, h.holds, nofun, fun other hother => ⟨rfl, (h.releases other hother).2⟩⟩
  · exact h

/-- The workqueue takes an item. -/
theorem Sound.takeItem (h : state.Sound) {after : ClockGate}
    (hstage : state.calls systemWorkqueue = .idle)
    (hcalls : after.calls = Function.update state.calls systemWorkqueue next)
    (howner : after.owner = state.owner) (hheld : after.held = state.held)
    (htransmitting : after.transmitting = state.transmitting) (hinside : ¬ next.Inside)
    (hholds : ¬ next.Holds) : after.Sound :=
  h.move hstage hcalls howner hheld htransmitting (absurd · hinside) (absurd · hholds)
    (fun hnext => absurd hnext.holds hholds) fun hnext => absurd hnext.inside hinside

theorem Sound.step (h : state.Sound) {action : GateAction} (hunused : state.ReleasesUnused action) :
    (state.step action).Sound := by
  cases action with
  | elapse ms => exact ⟨h.guards, h.holds, h.transmits, h.releases⟩
  | releaseDue =>
      change state.releaseDue.Sound
      rw [releaseDue]
      split
      · exact h
      · split_ifs
        · exact ⟨h.guards, h.holds, h.transmits, h.releases⟩
        · exact h
  | submit thread => exact h.begin thread nofun nofun
  | setIdle thread idle => exact h.begin thread nofun nofun
  | restartWork =>
      change state.restartWork.Sound
      rw [restartWork]
      split
      · next hready =>
          simp only [Bool.and_eq_true, beq_iff_eq] at hready
          exact h.takeItem hready.2 rfl rfl rfl rfl nofun nofun
      · exact h
  | releaseWork =>
      change state.releaseWork.Sound
      rw [releaseWork]
      split
      · next hready =>
          simp only [Bool.and_eq_true, beq_iff_eq] at hready
          exact h.takeItem hready.2 rfl rfl rfl rfl nofun nofun
      · exact h
  | work thread answer => exact h.work answer hunused
  | succeed more => exact h.succeed more
  | fail retry => exact h.fail retry
  | applyRetransmit count delayUs => exact ⟨h.guards, h.holds, h.transmits, h.releases⟩

theorem Sound.run {actions : List GateAction} (h : state.Sound)
    (hunused : Along ClockGate.step ReleasesUnused state actions) :
    (Transition.run ClockGate.step state actions).Sound :=
  run_invariant_along (fun _ _ hstate haction => hstate.step haction) h hunused

/-! ## A release in between -/

/-- Some continuation transmits without the crystal. -/
def MayLose (state : ClockGate) : Prop :=
  ∃ more, ¬ (Transition.run ClockGate.step state more).HeldWhileTransmitting

theorem mayLose_step (action : GateAction) (h : (state.step action).MayLose) : state.MayLose := by
  obtain ⟨more, hmore⟩ := h
  exact ⟨action :: more, hmore⟩

/-- The silence limit is far below what 32 bits of milliseconds hold. -/
theorem stallLimitMs_lt (state : ClockGate) : state.stallLimitMs < 4294967295 := by
  have hcycle : ∀ cycleUs : UInt32, cycleUs / usecPerMsec < 4294967295 := by
    intro cycleUs
    have hlt := cycleUs.toNat_lt
    have husec : usecPerMsec.toNat = 1000 := rfl
    rw [UInt32.lt_iff_toNat_lt, UInt32.toNat_div, husec]
    change _ < 4294967295
    omega
  rw [stallLimitMs, liveRetryCycleMs, hopPolicyRetryCycleMs]
  change (if _ ≤ _ then _ else _) < _
  split_ifs
  · exact hcycle _
  · decide

theorem work_refused (answer : RadioAnswer) (hstage : state.calls thread = .refused)
    (hlong : ¬ uptime32 state.nowMs - uptime32 state.txLastEventMs ≤ state.stallLimitMs) :
    state.work thread answer = state.setCall thread .flush := by
  rw [work, hstage]
  dsimp only
  rw [if_neg hlong]

section Unheld

variable (hheld : state.held = false)
include hheld

/-- The write or the start itself. -/
theorem mayLose_transmit {again : GateStage}
    (hwork : state.work thread (.taken true) = state.transmit thread (.taken true) again) :
    state.MayLose := by
  refine ⟨[.work thread (.taken true)], fun hkept => ?_⟩
  rw [run_cons, run_nil] at hkept
  change (state.work thread (.taken true)).HeldWhileTransmitting at hkept
  rw [hwork] at hkept
  exact absurd (hheld.symm.trans (hkept (Bool.or_true _))) nofun

theorem mayLose_rewrite (hstage : state.calls thread = .rewrite) : state.MayLose :=
  mayLose_transmit hheld (by rw [work, hstage])

theorem mayLose_mark (hstage : state.calls thread = .mark) : state.MayLose := by
  refine mayLose_step (.work thread .refused) ?_
  change (state.work thread .refused).MayLose
  rw [work, hstage]
  exact mayLose_rewrite hheld (Function.update_self ..)

theorem mayLose_flush (hstage : state.calls thread = .flush) : state.MayLose := by
  refine mayLose_step (.work thread .refused) ?_
  change (state.work thread .refused).MayLose
  rw [work, hstage]
  exact mayLose_mark hheld (Function.update_self ..)

/-- After a long silence a refused write is made again. -/
theorem mayLose_refused (hstage : state.calls thread = .refused) : state.MayLose := by
  obtain ⟨ms, hms⟩ := exists_sub_uptime32 state.txLastEventMs state.nowMs 4294967295
  have hlimit : state.stallLimitMs < 4294967295 := state.stallLimitMs_lt
  refine mayLose_step (.elapse ms) (mayLose_step (.work thread .refused) ?_)
  generalize hlater : state.step (.elapse ms) = later
  have hlong : ¬ uptime32 later.nowMs - uptime32 later.txLastEventMs ≤ later.stallLimitMs := by
    rw [← hlater]
    change ¬ uptime32 (state.nowMs + ms) - uptime32 state.txLastEventMs ≤ state.stallLimitMs
    rw [hms]
    exact UInt32.not_le.mpr hlimit
  have hrefused : later.calls thread = .refused := by rw [← hlater]; exact hstage
  have hunheld : later.held = false := by rw [← hlater]; exact hheld
  change (later.work thread .refused).MayLose
  rw [work_refused .refused hrefused hlong]
  exact mayLose_flush hunheld (Function.update_self ..)

/-- A call that has its write to come may make it. -/
theorem mayLose_submits (hstage : (state.calls thread).Submits) : state.MayLose := by
  cases hcase : state.calls thread with
  | write => exact mayLose_transmit hheld (by rw [work, hcase])
  | start => exact mayLose_transmit hheld (by rw [work, hcase])
  | rewrite => exact mayLose_rewrite hheld hcase
  | mark => exact mayLose_mark hheld hcase
  | flush => exact mayLose_flush hheld hcase
  | refused => exact mayLose_refused hheld hcase
  | _ => exact absurd hstage (by rw [hcase]; exact id)

end Unheld

/-- The crystal goes under another call that has its write to come. -/
theorem mayLose_clear {other : ℕ} (hstage : state.calls thread = .releaseClear)
    (hne : other ≠ thread) (hother : (state.calls other).Submits) : state.MayLose := by
  refine mayLose_step (.work thread .refused) ?_
  change (state.work thread .refused).MayLose
  rw [work, hstage]
  have hkept : (Function.update state.calls thread .releaseUnlock other).Submits := by
    rw [Function.update_of_ne hne]
    exact hother
  exact mayLose_submits rfl hkept

theorem mayLose_release {other : ℕ} (hstage : state.calls thread = .release)
    (hne : other ≠ thread) (hother : (state.calls other).Submits) : state.MayLose := by
  by_cases hheld : state.held = true
  · refine mayLose_step (.work thread .refused) ?_
    change (state.work thread .refused).MayLose
    rw [work, hstage]
    dsimp only
    rw [if_pos hheld]
    have hkept : (Function.update state.calls thread .releaseClear other).Submits := by
      rw [Function.update_of_ne hne]
      exact hother
    exact mayLose_clear (Function.update_self ..) hne hkept
  · exact mayLose_submits (Bool.eq_false_iff.mpr hheld) hother

/-- A release that passes its check while a write is to come may lose the crystal. -/
theorem mayLose_used {action : GateAction} (hused : ¬ state.ReleasesUnused action) :
    (state.step action).MayLose := by
  cases action with
  | work thread answer =>
      simp only [ReleasesUnused, not_forall, not_not] at hused
      obtain ⟨hstage, hallowed, other, hother⟩ := hused
      have hne : other ≠ thread := by
        rintro rfl
        rw [hstage] at hother
        exact hother
      have hkept : (Function.update state.calls thread .release other).Submits := by
        rw [Function.update_of_ne hne]
        exact hother
      change (state.work thread answer).MayLose
      rw [work, hstage]
      dsimp only
      rw [if_pos hallowed]
      exact mayLose_release (Function.update_self ..) hne hkept
  | _ => exact absurd trivial hused

/-! ## Every run -/

/-- The crystal is held through every transmission of a run whose releases all pass their
check with no other call between its hold and its write. Any other release has a
continuation that transmits without the crystal. -/
theorem crystal_held_unless_released_between (retransmitCount : UInt8) (retransmitDelayUs : UInt16)
    (actions : List GateAction) :
    let start := boot retransmitCount retransmitDelayUs
    (Along step ReleasesUnused start actions →
      ∀ front, front <+: actions → (run step start front).HeldWhileTransmitting) ∧
    ∀ action, ¬ (run step start actions).ReleasesUnused action →
      ∃ more, ¬ (run step start (actions ++ action :: more)).HeldWhileTransmitting := by
  intro start
  refine ⟨fun hunused front hfront => ?_, fun action hused => ?_⟩
  · exact ((Sound.boot retransmitCount retransmitDelayUs).run (hunused.front hfront)).transmits
  · obtain ⟨more, hmore⟩ := mayLose_used hused
    refine ⟨more, ?_⟩
    rw [run_append, run_cons]
    exact hmore

instance (state : ClockGate) : Decidable state.HeldWhileTransmitting :=
  inferInstanceAs (Decidable (_ → _))

/-- The workqueue, or the input thread with what the radio answers it, goes on. -/
def workqueueGoesOn (statements : ℕ) : List GateAction :=
  List.replicate statements (.work systemWorkqueue .refused)

def inputGoesOn (statements : ℕ) : List GateAction := List.replicate statements (.work 1 (.taken true))

/-- The input thread sends, and the release comes a while after. -/
def sentThenReleased : List GateAction :=
  .setIdle systemWorkqueue true :: workqueueGoesOn 4 ++ .submit 1 :: inputGoesOn 5 ++
    [.succeed false, .elapse 10, .releaseDue, .releaseWork] ++ workqueueGoesOn 5

theorem unused_sentThenReleased : Along step ReleasesUnused (boot 3 600) sentThenReleased := by
  repeat' apply And.intro
  all_goals
    first
      | exact True.intro
      | exact fun hstage => absurd hstage (by decide)
      | exact fun _ _ other => match other with
          | 0 => id
          | 1 => id
          | _ + 2 => id

theorem released_after_send : ∀ front, front <+: sentThenReleased →
    (run step (boot 3 600) front).HeldWhileTransmitting :=
  (crystal_held_unless_released_between 3 600 sentThenReleased).1 unused_sentThenReleased

/-- The delay of an earlier hold ends while the input thread holds again. The workqueue
waits for the mutex, and lets the crystal go before the input thread writes. -/
def releasedBeforeWrite : List GateAction :=
  .setIdle systemWorkqueue true :: workqueueGoesOn 4 ++ .elapse 10 :: .submit 1 :: inputGoesOn 1 ++
    [.releaseDue, .releaseWork] ++ workqueueGoesOn 1 ++ inputGoesOn 3 ++ workqueueGoesOn 4 ++
      inputGoesOn 1

theorem transmits_without_crystal : ¬ ∀ (retransmitCount : UInt8) (retransmitDelayUs : UInt16)
    (actions front : List GateAction), front <+: actions →
      (run step (boot retransmitCount retransmitDelayUs) front).HeldWhileTransmitting := fun h =>
  absurd (h 3 600 releasedBeforeWrite releasedBeforeWrite (List.prefix_refl _)) (by decide)

end ClockGate

end SplitEsb
