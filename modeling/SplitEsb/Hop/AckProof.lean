import SplitEsb.Hop.Lockstep
import SplitEsb.Hop.TickSteps

/-! # What proves an ACK
The tick takes a success after the last failure for an ACK, also when all that succeeded
was sent without asking for one. -/

namespace SplitEsb

open Transition

variable {config : HopConfig}

namespace UplinkTick

/-- The success flag stands for a success since it was last taken, and for every success
without ACK since the last failure. -/
structure FlagStands (succeeded : Bool) (acked noacked : ℕ) : Prop where
  stands : succeeded = true → 0 < acked ∨ 0 < noacked
  raised : 0 < noacked → succeeded = true

/-- The flag, and what the tick took of it, stand for what succeeded. -/
structure FlagSound (state : UplinkTick config) : Prop where
  flag : FlagStands state.peripheral.txSucceededSinceTick state.acked state.noacked
  taken : ∀ failed succeeded acked noacked,
    state.stage = .succeededTaken failed succeeded acked noacked →
      FlagStands succeeded acked noacked

theorem FlagSound.boot (retained : HopRetained config) : (boot retained).FlagSound := by
  refine ⟨⟨fun h => ?_, fun h => absurd h (Nat.lt_irrefl 0)⟩, fun _ _ _ _ h => by cases h⟩
  have hflag : (HopPeripheral.boot retained).txSucceededSinceTick = false := by
    simp only [HopPeripheral.boot, HopPeripheral.hopRestore, HopPeripheral.zero,
      HopPeripheral.ensureMask]
    split_ifs <;> rfl
  rw [show (UplinkTick.boot retained).peripheral = .boot retained from rfl, hflag] at h
  cases h

variable {state : UplinkTick config}

/-! ## The steps -/

theorem retain_flags (state : UplinkTick config) :
    state.retain.peripheral.txSucceededSinceTick = state.peripheral.txSucceededSinceTick ∧
      state.retain.acked = state.acked ∧ state.retain.noacked = state.noacked ∧
      state.retain.linkUps = state.linkUps ∧ state.retain.stage = state.stage := by
  rw [retain]
  split_ifs <;> exact ⟨rfl, rfl, rfl, rfl, rfl⟩

/-- What the end of a window leaves of the flags. -/
theorem endWindow_flags (state : UplinkTick config) (kind : WindowKind) (worst : UInt8)
    (sum packets : UInt32) :
    let ended := state.endWindow kind worst sum packets
    ended.peripheral.txSucceededSinceTick = state.peripheral.txSucceededSinceTick ∧
      ended.acked = state.acked ∧ ended.noacked = state.noacked ∧
      ended.linkUps = state.linkUps ∧ ended.stage = .idle := by
  cases kind with
  | adopt => exact retain_flags _
  | connected =>
      have hgrade := KeepsCounts.gradeWindow { state.peripheral with windowNoackPackets := 0 } worst
        sum packets state.peripheral.windowNoackPackets
      rw [endWindow]
      dsimp only
      exact ⟨(retain_flags _).1.trans hgrade.succeeded, (retain_flags _).2⟩
  | lost =>
      have hlost := KeepsCounts.lostWindowEnd { state.peripheral with windowNoackPackets := 0 }
      rw [endWindow]
      dsimp only
      exact ⟨(retain_flags _).1.trans hlost.succeeded, (retain_flags _).2⟩

theorem chooseWindow_flags (state : UplinkTick config) :
    state.chooseWindow.peripheral.txSucceededSinceTick = state.peripheral.txSucceededSinceTick ∧
      state.chooseWindow.acked = state.acked ∧ state.chooseWindow.noacked = state.noacked ∧
      state.chooseWindow.linkUps = state.linkUps ∧
      ∃ kind, state.chooseWindow.stage = .window kind := by
  have hmask := (KeepsCounts.ensureMask state.peripheral).succeeded
  simp only [chooseWindow]
  split_ifs
  · exact ⟨(KeepsCounts.adoptEpochStart ..).succeeded.trans hmask, rfl, rfl, rfl, _, rfl⟩
  · exact ⟨hmask, rfl, rfl, rfl, _, rfl⟩
  · exact ⟨hmask, rfl, rfl, rfl, _, rfl⟩

/-- A step of the tick that neither takes the success flag nor settles the link. -/
theorem work_flags (hstage : ∀ failed, state.stage ≠ .failedTaken failed)
    (hsettle : ∀ failed succeeded acked noacked,
      state.stage ≠ .succeededTaken failed succeeded acked noacked) :
    state.work.peripheral.txSucceededSinceTick = state.peripheral.txSucceededSinceTick ∧
      state.work.acked = state.acked ∧ state.work.noacked = state.noacked ∧
      state.work.linkUps = state.linkUps ∧
      ∀ failed succeeded acked noacked,
        state.work.stage ≠ .succeededTaken failed succeeded acked noacked := by
  rw [work]
  cases hcase : state.stage with
  | idle => exact ⟨rfl, rfl, rfl, rfl, hsettle⟩
  | start => exact ⟨rfl, rfl, rfl, rfl, fun _ _ _ _ h => by cases h⟩
  | failedTaken failed => exact absurd hcase (hstage failed)
  | succeededTaken failed succeeded acked noacked => exact absurd hcase (hsettle _ _ _ _)
  | settled =>
      dsimp only
      split_ifs
      · exact ⟨rfl, rfl, rfl, rfl, fun _ _ _ _ h => by cases h⟩
      · obtain ⟨hflag, hacked, hnoacked, hlinkUps, kind, hkind⟩ := chooseWindow_flags state
        refine ⟨hflag, hacked, hnoacked, hlinkUps, fun _ _ _ _ h => ?_⟩
        rw [hkind] at h
        cases h
  | window kind => exact ⟨rfl, rfl, rfl, rfl, fun _ _ _ _ h => by cases h⟩
  | worstTaken kind worst => exact ⟨rfl, rfl, rfl, rfl, fun _ _ _ _ h => by cases h⟩
  | sumTaken kind worst sum completed retried =>
      exact ⟨rfl, rfl, rfl, rfl, fun _ _ _ _ h => by cases h⟩
  | packetsTaken kind worst sum packets completed retried counted =>
      obtain ⟨hflag, hacked, hnoacked, hlinkUps, hidle⟩ :=
        endWindow_flags state kind worst sum packets
      refine ⟨hflag, hacked, hnoacked, hlinkUps, fun _ _ _ _ h => ?_⟩
      rw [hidle] at h
      cases h

theorem succeed_keeps (state : UplinkTick config) (attempts : UInt8) :
    (state.succeed attempts).stage = state.stage ∧
      (state.succeed attempts).linkUps = state.linkUps := by
  rw [succeed]
  cases state.txFifo with
  | nil => exact ⟨rfl, rfl⟩
  | cons ack txFifo =>
      dsimp only
      split_ifs <;> exact ⟨rfl, rfl⟩

theorem FlagSound.succeed (h : state.FlagSound) (attempts : UInt8) :
    (state.succeed attempts).FlagSound := by
  refine ⟨?_, by rw [(succeed_keeps state attempts).1]; exact h.taken⟩
  rw [UplinkTick.succeed]
  cases state.txFifo with
  | nil => exact h.flag
  | cons ack txFifo =>
      have hraised : ∀ attempts,
          (state.peripheral.hopNoteTxSuccess attempts).txSucceededSinceTick = true := by
        intro attempts
        rw [HopPeripheral.hopNoteTxSuccess]
        dsimp only
        split_ifs <;> rfl
      have hstands : FlagStands true (if ack = true then state.acked + 1 else state.acked)
          (if ack = true then state.noacked else state.noacked + 1) := by
        refine ⟨fun _ => ?_, fun _ => rfl⟩
        cases ack with
        | true => exact .inl (Nat.succ_pos _)
        | false => exact .inr (Nat.succ_pos _)
      dsimp only
      split_ifs at hstands ⊢ <;> exact (hraised _).symm ▸ hstands

theorem fail_keeps (state : UplinkTick config) (retry : Bool) :
    (state.fail retry).stage = state.stage ∧ (state.fail retry).linkUps = state.linkUps := by
  rw [fail]
  split <;> exact ⟨rfl, rfl⟩

theorem FlagSound.fail (h : state.FlagSound) (retry : Bool) : (state.fail retry).FlagSound := by
  refine ⟨?_, by rw [(fail_keeps state retry).1]; exact h.taken⟩
  rw [UplinkTick.fail]
  split
  · refine ⟨fun hflag => ?_, fun hpos => absurd hpos (Nat.lt_irrefl 0)⟩
    have hcleared : state.peripheral.hopNoteTxFailed.txSucceededSinceTick = false := by
      rw [HopPeripheral.hopNoteTxFailed]
      split_ifs <;> rfl
    rw [hcleared] at hflag
    cases hflag
  · exact h.flag

theorem noteCount_keeps (state : UplinkTick config) :
    state.noteCount.peripheral.txSucceededSinceTick = state.peripheral.txSucceededSinceTick ∧
      state.noteCount.acked = state.acked ∧ state.noteCount.noacked = state.noacked ∧
      state.noteCount.linkUps = state.linkUps ∧ state.noteCount.stage = state.stage := by
  rw [noteCount]
  split_ifs <;> exact ⟨rfl, rfl, rfl, rfl, rfl⟩

theorem noteFlag_keeps (state : UplinkTick config) :
    state.noteFlag.peripheral.txSucceededSinceTick = state.peripheral.txSucceededSinceTick ∧
      state.noteFlag.acked = state.acked ∧ state.noteFlag.noacked = state.noacked ∧
      state.noteFlag.linkUps = state.linkUps ∧ state.noteFlag.stage = state.stage := by
  rw [noteFlag]
  split_ifs <;> exact ⟨rfl, rfl, rfl, rfl, rfl⟩

theorem FlagSound.of_keeps (h : state.FlagSound) {state' : UplinkTick config}
    (hkeeps : state'.peripheral.txSucceededSinceTick = state.peripheral.txSucceededSinceTick ∧
      state'.acked = state.acked ∧ state'.noacked = state.noacked ∧
      state'.linkUps = state.linkUps ∧ state'.stage = state.stage) : state'.FlagSound := by
  obtain ⟨hflag, hacked, hnoacked, -, hstage⟩ := hkeeps
  refine ⟨?_, by rw [hstage]; exact h.taken⟩
  rw [hflag, hacked, hnoacked]
  exact h.flag

theorem FlagSound.work (h : state.FlagSound) : state.work.FlagSound := by
  by_cases hfailed : ∃ failed, state.stage = .failedTaken failed
  · obtain ⟨failed, hfailed⟩ := hfailed
    rw [UplinkTick.work, hfailed]
    refine ⟨⟨fun hflag => absurd hflag Bool.false_ne_true,
      fun hpos => absurd hpos (Nat.lt_irrefl 0)⟩, ?_⟩
    intro _ _ _ _ htaken
    cases htaken
    exact h.flag
  · by_cases hsucceeded : ∃ failed succeeded acked noacked,
        state.stage = .succeededTaken failed succeeded acked noacked
    · obtain ⟨failed, succeeded, acked, noacked, hsucceeded⟩ := hsucceeded
      rw [UplinkTick.work, hsucceeded]
      exact ⟨h.flag, fun _ _ _ _ htaken => by cases htaken⟩
    · obtain ⟨hflag, hacked, hnoacked, -, hstage⟩ := @work_flags config state
        (fun failed hcase => hfailed ⟨failed, hcase⟩)
        (fun failed succeeded acked noacked hcase => hsucceeded ⟨_, _, _, _, hcase⟩)
      refine ⟨?_, fun _ _ _ _ htaken => absurd htaken (hstage _ _ _ _)⟩
      rw [hflag, hacked, hnoacked]
      exact h.flag

theorem FlagSound.step (h : state.FlagSound) (action : UplinkAction) :
    (state.step action).FlagSound := by
  cases action with
  | submit ack => exact ⟨h.flag, h.taken⟩
  | noteFlag => exact h.of_keeps (noteFlag_keeps state)
  | noteCount => exact h.of_keeps (noteCount_keeps state)
  | succeed attempts => exact h.succeed attempts
  | fail retry => exact h.fail retry
  | flush => exact ⟨h.flag, h.taken⟩
  | receive pipe data =>
      exact h.of_keeps
        ⟨(KeepsCounts.hopConsumeRx pipe state.peripheral data).succeeded, rfl, rfl, rfl, rfl⟩
  | tick =>
      rw [UplinkTick.step]
      split_ifs
      · exact ⟨h.flag, fun _ _ _ _ htaken => by cases htaken⟩
      · exact h
  | work => exact h.work

/-! ## The proof of an ACK -/

/-- Each time the link came up, a transmit that asked for an ACK had succeeded since the
tick before took the success flag. -/
def LinkProven (state : UplinkTick config) : Prop := ∀ acks ∈ state.linkUps, 0 < acks

/-- When the tick settles a link that is down and no transmit that asked for an ACK
succeeded since the tick before, no transmit without ACK succeeded since the last failure
either, or the tick took both a failure and the note of a submission without ACK. -/
def LinkUpEvident (state : UplinkTick config) : UplinkAction → Prop
  | .work => ∀ failed succeeded acked noacked,
      state.stage = .succeededTaken failed succeeded acked noacked →
        state.peripheral.linkAcked = true ∨ 0 < acked + state.acked ∨ noacked = 0 ∨
          failed = true ∧ state.peripheral.noackSentSinceTick = true
  | _ => True

/-- The flags bring the link up on a success, unless it may be one without ACK. -/
theorem decideLink_eq_true_iff (failed succeeded noackSent : Bool) :
    HopPeripheral.decideLink failed succeeded noackSent false = true ↔
      succeeded = true ∧ ¬(failed = true ∧ noackSent = true) := by
  revert failed succeeded noackSent
  decide

theorem linkUps_settle_iff {failed succeeded : Bool} {acked noacked : ℕ}
    (hstands : FlagStands succeeded acked noacked) (hproven : state.LinkProven) :
    (state.settle failed succeeded acked).LinkProven ↔
      state.peripheral.linkAcked = true ∨ 0 < acked + state.acked ∨ noacked = 0 ∨
        failed = true ∧ state.peripheral.noackSentSinceTick = true := by
  rw [LinkProven, settle]
  dsimp only
  cases hacked : state.peripheral.linkAcked with
  | true => exact iff_of_true hproven (.inl rfl)
  | false =>
      cases hup : HopPeripheral.decideLink failed succeeded state.peripheral.noackSentSinceTick
          false with
      | false =>
          refine iff_of_true hproven (.inr ?_)
          have hdown := mt (decideLink_eq_true_iff failed succeeded _).mpr (by rw [hup]; decide)
          rcases Nat.eq_zero_or_pos noacked with hnone | hsome
          · exact .inr (.inl hnone)
          · have hboth := not_not.mp fun hnot => hdown ⟨hstands.raised hsome, hnot⟩
            exact .inr (.inr hboth)
      | true =>
          obtain ⟨hsucceeded, hclear⟩ := (decideLink_eq_true_iff failed succeeded _).mp hup
          have hadded : (∀ acks ∈ state.linkUps ++ [acked + state.acked], 0 < acks) ↔
              0 < acked + state.acked := by
            refine ⟨fun hall => hall _ (List.mem_append_right _ (List.mem_singleton_self _)), ?_⟩
            intro hpos acks hmem
            rcases List.mem_append.mp hmem with hmem | hmem
            · exact hproven acks hmem
            · rw [List.mem_singleton.mp hmem]
              exact hpos
          rw [show (!false && true) = true from rfl, if_pos rfl, hadded]
          constructor
          · exact fun hpos => .inr (.inl hpos)
          · rintro (hdown | hpos | hnone | hboth)
            · cases hdown
            · exact hpos
            · have hack := (hstands.stands hsucceeded).resolve_right
                fun hpos => absurd hnone (Nat.ne_of_gt hpos)
              exact Nat.add_pos_left hack _
            · exact absurd hboth hclear

theorem linkProven_step_iff (h : state.FlagSound) (hproven : state.LinkProven)
    (action : UplinkAction) :
    (state.step action).LinkProven ↔ state.LinkUpEvident action := by
  have hsame : ∀ state' : UplinkTick config, state'.linkUps = state.linkUps → state'.LinkProven := by
    intro state' hlinkUps
    rw [LinkProven, hlinkUps]
    exact hproven
  cases action with
  | submit ack => exact iff_of_true (hsame _ rfl) trivial
  | noteFlag => exact iff_of_true (hsame _ (noteFlag_keeps state).2.2.2.1) trivial
  | noteCount => exact iff_of_true (hsame _ (noteCount_keeps state).2.2.2.1) trivial
  | succeed attempts => exact iff_of_true (hsame _ (succeed_keeps state attempts).2) trivial
  | fail retry => exact iff_of_true (hsame _ (fail_keeps state retry).2) trivial
  | flush => exact iff_of_true (hsame _ rfl) trivial
  | receive pipe data => exact iff_of_true (hsame _ rfl) trivial
  | tick =>
      refine iff_of_true (hsame _ ?_) trivial
      rw [step]
      split_ifs <;> rfl
  | work =>
      rw [step]
      by_cases hsettling : ∃ failed succeeded acked noacked,
          state.stage = .succeededTaken failed succeeded acked noacked
      · obtain ⟨failed, succeeded, acked, noacked, hstage⟩ := hsettling
        have hsettle : state.work = state.settle failed succeeded acked := by
          rw [work, hstage]
        rw [hsettle, linkUps_settle_iff (h.taken _ _ _ _ hstage) hproven]
        constructor
        · intro hcase _ _ _ _ hother
          rw [hstage] at hother
          cases hother
          exact hcase
        · exact fun hall => hall _ _ _ _ hstage
      · refine iff_of_true (hsame _ ?_) fun _ _ _ _ hstage => absurd ⟨_, _, _, _, hstage⟩ hsettling
        by_cases hfailed : ∃ failed, state.stage = .failedTaken failed
        · obtain ⟨failed, hfailed⟩ := hfailed
          rw [work, hfailed]
        · exact (work_flags (fun failed hcase => hfailed ⟨failed, hcase⟩)
            fun _ _ _ _ hcase => hsettling ⟨_, _, _, _, hcase⟩).2.2.2.1

/-- In a run `link_acked` is only ever set on an ACK iff each tick that settles a link
that is down has the evidence. -/
theorem link_acked_proven_iff (config : HopConfig) (retained : HopRetained config)
    (actions : List UplinkAction) :
    (∀ front, front <+: actions → (run step (boot retained) front).LinkProven) ↔
      Along step LinkUpEvident (boot retained) actions := by
  have hboot : (boot retained).LinkProven := fun _ hmem => by cases hmem
  exact @forall_prefix_iff_along _ _ (@step config) FlagSound LinkProven LinkUpEvident
    (fun _ action h => h.step action) (fun _ action h hproven => linkProven_step_iff h hproven action)
    _ (.boot retained) hboot actions

/-- The steps of a tick that nothing interrupts. -/
def wholeTick : List UplinkAction := .tick :: List.replicate 8 .work

/-- A motion packet that nobody hears brings the link up. -/
theorem link_acked_unheard : ¬ ∀ (config : HopConfig) (retained : HopRetained config)
    (actions : List UplinkAction), (run step (boot retained) actions).LinkProven := by
  intro h
  have hrun := h sampleHopConfig coldRetained
    ([.submit false, .noteFlag, .noteCount, .succeed 1] ++ wholeTick)
  exact absurd (hrun 0 (by decide +kernel)) (Nat.lt_irrefl 0)

end UplinkTick

end SplitEsb
