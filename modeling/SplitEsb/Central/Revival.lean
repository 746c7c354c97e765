import SplitEsb.Central.Silence

/-! # Pipes that come back by themselves
A tick computes staleness anew. A pipe it marked stale stays so as long as its silence,
modulo 2^32 ms, looks longer than the timeout. -/

namespace SplitEsb

open Uptime Transition

namespace Staleness

variable {config : StalenessConfig}

/-- What a turn has read of a pipe marked stale and silent since. -/
def UnheardTurn (turn : StaleTurn) : Prop :=
  turn.stage = .start ∨ turn.stage.Settled ∨
    turn.arrivedMs = none ∧ ∀ quietMs, turn.stage ≠ .heardRead quietMs false

/-- What holds of the pipes marked stale and silent since. -/
structure UnheardSound (state : Staleness) : Prop where
  seen : ∀ pipe, state.unheard pipe = true → state.pipeEverHeard pipe = true
  turn : ∀ turn ∈ state.turn, state.unheard turn.pipe = true → UnheardTurn turn

theorem UnheardSound.boot : (boot : Staleness).UnheardSound := ⟨nofun, nofun⟩

variable {state : Staleness} {turn : StaleTurn}

/-! ## The steps -/

theorem UnheardSound.packet (h : state.UnheardSound) (pipe : ℕ) :
    (state.step config (.packet pipe)).UnheardSound := by
  rw [step, notePacket]
  split_ifs
  · exact h
  · refine ⟨fun other hunheard => ?_, fun turn hturn hunheard => ?_⟩
    · dsimp only at hunheard ⊢
      rcases eq_or_ne other pipe with rfl | hne
      · exact Function.update_self ..
      · rw [Function.update_of_ne hne] at hunheard ⊢
        exact h.seen other hunheard
    · obtain ⟨old, hold, rfl⟩ := Option.mem_map.mp hturn
      rw [StaleTurn.noteArrival] at hunheard ⊢
      split_ifs at hunheard ⊢ with hpipe
      · simp [hpipe] at hunheard
      · simp only [Function.update_of_ne hpipe] at hunheard
        exact h.turn old hold hunheard

/-- A step of a turn that hears no packet. -/
theorem UnheardSound.unheardTurn_workOn (h : state.UnheardSound) (hturn : state.turn = some turn)
    (clockFirst : Bool) :
    ∀ next ∈ (state.workOn config clockFirst turn).turn,
      (state.workOn config clockFirst turn).unheard next.pipe = true → UnheardTurn next := by
  obtain ⟨pipe, stage, clockMs, arrivedMs⟩ := turn
  have hold := h.turn _ hturn
  intro next hnext hunheard
  cases stage with
  | start =>
      cases clockFirst <;> rw [← Option.mem_some_iff.mp hnext] <;> exact .inr (.inr ⟨rfl, nofun⟩)
  | clockRead =>
      obtain rfl := Option.mem_some_iff.mp hnext
      obtain hstart | hsettled | ⟨hnone, -⟩ := hold hunheard
      · cases hstart
      · cases hsettled
      · exact .inr (.inr ⟨hnone, nofun⟩)
  | stampRead heardMs =>
      obtain rfl := Option.mem_some_iff.mp hnext
      obtain hstart | hsettled | ⟨hnone, -⟩ := hold hunheard
      · cases hstart
      · cases hsettled
      · exact .inr (.inr ⟨hnone, nofun⟩)
  | quietRead quietMs =>
      obtain rfl := Option.mem_some_iff.mp hnext
      obtain hstart | hsettled | ⟨hnone, -⟩ := hold hunheard
      · cases hstart
      · cases hsettled
      · refine .inr (.inr ⟨hnone, fun _ hnever => ?_⟩)
        have hseen : state.pipeEverHeard pipe = true := h.seen pipe hunheard
        injection hnever with _ hnever
        rw [hseen] at hnever
        cases hnever
  | heardRead quietMs heard =>
      simp only [workOn, settle] at hnext
      split_ifs at hnext <;> rw [← Option.mem_some_iff.mp hnext] <;> exact .inr (.inl trivial)
  | release =>
      rw [← Option.mem_some_iff.mp hnext]
      exact .inr (.inl trivial)
  | report heard =>
      rw [← Option.mem_some_iff.mp hnext]
      exact .inl rfl

/-- The work marks only pipes it has heard. -/
theorem UnheardSound.seen_workOn (hinv : state.Inv config) (h : state.UnheardSound) (hturn : state.turn = some turn)
    (clockFirst : Bool) :
    ∀ pipe, (state.workOn config clockFirst turn).unheard pipe = true →
      (state.workOn config clockFirst turn).pipeEverHeard pipe = true := by
  obtain ⟨pipe, stage, clockMs, arrivedMs⟩ := turn
  intro other hunheard
  cases stage with
  | start => cases clockFirst <;> exact h.seen other hunheard
  | clockRead => exact h.seen other hunheard
  | stampRead heardMs => exact h.seen other hunheard
  | quietRead quietMs => exact h.seen other hunheard
  | heardRead quietMs heard =>
      have hever := (hinv.turn _ hturn).stage.2.1
      simp only [workOn, settle] at hunheard ⊢
      split_ifs at hunheard ⊢ with hnever
      · exact h.seen other hunheard
      · exact h.seen other hunheard
      · rcases eq_or_ne other pipe with rfl | hne
        · exact hever (by simpa using hnever)
        · refine h.seen other ?_
          simpa [setStage, note, markStale, hne] using hunheard
      · exact h.seen other hunheard
  | release => exact h.seen other hunheard
  | report heard =>
      obtain ⟨-, -, -, hever, -, hmarked, -⟩ :=
        reportConnection_keeps state ⟨pipe, .report heard, clockMs, arrivedMs⟩ heard
      simp only [workOn, nextPipe, hever, hmarked] at hunheard ⊢
      exact h.seen other hunheard

theorem UnheardSound.work (hinv : state.Inv config) (h : state.UnheardSound) (clockFirst : Bool) :
    (state.step config (.work clockFirst)).UnheardSound := by
  rw [step, stalenessWork]
  cases hturn : state.turn with
  | none => exact h
  | some turn =>
      dsimp only
      split_ifs
      · rw [finishTick]
        split_ifs <;> exact ⟨h.seen, fun _ hnone => absurd hnone (Option.not_mem_none _)⟩
      · refine ⟨h.seen, fun next hnext _ => ?_⟩
        rw [← Option.mem_some_iff.mp hnext]
        exact .inl rfl
      · exact ⟨seen_workOn hinv h hturn clockFirst, h.unheardTurn_workOn hturn clockFirst⟩

theorem UnheardSound.step (hinv : state.Inv config) (h : state.UnheardSound)
    (action : StalenessAction) : (state.step config action).UnheardSound := by
  cases action with
  | elapse ms => exact ⟨h.seen, h.turn⟩
  | packet pipe => exact h.packet pipe
  | wireBytes => exact ⟨h.seen, h.turn⟩
  | tick =>
      rw [Staleness.step]
      split
      · exact h
      · refine ⟨h.seen, fun turn hturn _ => ?_⟩
        rw [← Option.mem_some_iff.mp hturn]
        exact .inl rfl
  | work clockFirst => exact h.work hinv clockFirst

/-! ## Silent peripherals -/

/-- A pipe marked stale and silent since is stale and, once its turn is over, reported
disconnected. -/
def StaysGone (state : Staleness) : Prop :=
  ∀ pipe, state.unheard pipe = true → state.pipeStale pipe = true ∧
    (state.pipeConnected pipe = true → ∃ turn ∈ state.turn, turn.pipe = pipe ∧ turn.stage.Settled)

/-- The verdict on a pipe marked stale and silent since comes while its silence, modulo
2^32 ms, is longer than the timeout, or over a wire while the link is down. -/
def SilenceShows (config : StalenessConfig) (state : Staleness) : StalenessAction → Prop
  | .work _ => ∀ turn ∈ state.turn, turn.pipe < min config.pipeCount esbLinkPipeMax →
      config.selfPipe turn.pipe = false → state.unheard turn.pipe = true →
      (∃ quietMs, turn.stage = .heardRead quietMs true) →
      ∀ ms ∈ state.lastPacketMs turn.pipe,
        config.peripheralTimeoutMs.toNat < (turn.clockMs - ms) % 2 ^ 32 ∨
          config.wirePipe turn.pipe = true ∧ state.wireLinkIsUp config = false
  | _ => True

/-- The staleness of the unheard pipes is all there is to keep. -/
theorem Inv.staysGone (h : state.Inv config)
    (hstale : ∀ pipe, state.unheard pipe = true → state.pipeStale pipe = true) : state.StaysGone := by
  intro pipe hunheard
  refine ⟨hstale pipe hunheard, fun hconnected => ?_⟩
  refine (h.connected pipe hconnected).2.resolve_left fun hfresh => ?_
  rw [hstale pipe hunheard] at hfresh
  cases hfresh

/-- What a turn read of an unheard pipe looks active iff the silence does not show. -/
theorem UnheardSound.peerActive_iff (hinv : state.Inv config) (h : state.UnheardSound) (hturn : state.turn = some turn)
    (hunheard : state.unheard turn.pipe = true) {quietMs : UInt32} {heard : Bool}
    (hstage : turn.stage = .heardRead quietMs heard) :
    heard = true ∧ (state.peerActive config turn.pipe quietMs = false ↔
      ∀ ms ∈ state.lastPacketMs turn.pipe,
        config.peripheralTimeoutMs.toNat < (turn.clockMs - ms) % 2 ^ 32 ∨
          config.wirePipe turn.pipe = true ∧ state.wireLinkIsUp config = false) := by
  have hsound := (hinv.turn turn hturn).stage
  obtain hstart | hsettled | ⟨hnone, hheard⟩ := h.turn turn hturn hunheard
  · rw [hstage] at hstart
    cases hstart
  · rw [hstage] at hsettled
    cases hsettled
  · rw [StageSound, hstage] at hsound
    have htrue : heard = true := by
      refine Bool.not_eq_false _ ▸ fun hfalse => ?_
      exact hheard quietMs (hfalse ▸ hstage)
    refine ⟨htrue, ?_⟩
    obtain ⟨last, hlast⟩ := hinv.heard turn.pipe (h.seen turn.pipe hunheard)
    obtain ⟨hle, hquietMs⟩ := hsound.1.quiet hnone last hlast
    have hquiet : quietMs.toNat = (turn.clockMs - last) % 2 ^ 32 := by
      rw [hquietMs]
      exact toNat_sub_uptime32 hle
    have hall : (∀ ms ∈ state.lastPacketMs turn.pipe,
        config.peripheralTimeoutMs.toNat < (turn.clockMs - ms) % 2 ^ 32 ∨
          config.wirePipe turn.pipe = true ∧ state.wireLinkIsUp config = false) ↔
        config.peripheralTimeoutMs < quietMs ∨
          config.wirePipe turn.pipe = true ∧ state.wireLinkIsUp config = false := by
      rw [UInt32.lt_iff_toNat_lt, hquiet]
      refine ⟨fun hevery => hevery last hlast, fun hone ms hms => ?_⟩
      rw [Option.mem_unique hms hlast]
      exact hone
    rw [hall, peerActive]
    simp only [Bool.and_eq_false_iff, decide_eq_false_iff_not, UInt32.not_le, Bool.not_eq_false',
      Bool.and_eq_true, Bool.not_eq_true']

/-- A step of the work keeps the unheard pipes stale iff it finds none active. -/
theorem stale_workOn_iff
    (hstale : ∀ pipe, state.unheard pipe = true → state.pipeStale pipe = true)
    (hturn : state.turn = some turn) (clockFirst : Bool) :
    (∀ pipe, (state.workOn config clockFirst turn).unheard pipe = true →
      (state.workOn config clockFirst turn).pipeStale pipe = true) ↔
      (state.unheard turn.pipe = true → ∀ quietMs, turn.stage = .heardRead quietMs true →
        state.peerActive config turn.pipe quietMs = false) := by
  obtain ⟨pipe, stage, clockMs, arrivedMs⟩ := turn
  cases stage with
  | start => cases clockFirst <;> exact iff_of_true hstale fun _ _ hstage => by cases hstage
  | clockRead => exact iff_of_true hstale fun _ _ hstage => by cases hstage
  | stampRead heardMs => exact iff_of_true hstale fun _ _ hstage => by cases hstage
  | quietRead quietMs => exact iff_of_true hstale fun _ _ hstage => by cases hstage
  | heardRead quietMs heard =>
      simp only [workOn, settle]
      split_ifs with hunheard hactive hfresh
      · refine iff_of_true hstale fun hmarked quiet hstage => ?_
        injection hstage with _ htrue
        simp [htrue] at hunheard
      · have htrue : heard = true := by simpa using hunheard
        subst htrue
        constructor
        · intro hafter hmarked
          have hkept := hafter pipe hmarked
          simp [setStage] at hkept
        · intro hquiet other hmarked
          rcases eq_or_ne other pipe with rfl | hne
          · rw [hquiet hmarked quietMs rfl] at hactive
            cases hactive
          · simpa [setStage, hne] using hstale other hmarked
      · refine iff_of_true (fun other hmarked => ?_) fun _ quiet hstage => ?_
        · rcases eq_or_ne other pipe with rfl | hne
          · exact Function.update_self ..
          · simp only [setStage, note, markStale, Function.update_of_ne hne] at hmarked ⊢
            exact hstale other hmarked
        · injection hstage with hsame
          exact hsame ▸ Bool.eq_false_iff.mpr hactive
      · refine iff_of_true hstale fun _ quiet hstage => ?_
        injection hstage with hsame
        exact hsame ▸ Bool.eq_false_iff.mpr hactive
  | release => exact iff_of_true hstale fun _ _ hstage => by cases hstage
  | report heard =>
      obtain ⟨-, -, -, -, hkept, hmarked, -⟩ :=
        reportConnection_keeps state ⟨pipe, .report heard, clockMs, arrivedMs⟩ heard
      refine iff_of_true (fun other => ?_) fun _ _ hstage => by cases hstage
      simp only [workOn, nextPipe, hkept, hmarked]
      exact hstale other

/-- A step keeps the silent pipes gone iff their silence shows. -/
theorem staysGone_step_iff (hinv : state.Inv config) (h : state.UnheardSound) (hgone : state.StaysGone)
    (action : StalenessAction) :
    (state.step config action).StaysGone ↔ state.SilenceShows config action := by
  have hstale : ∀ pipe, state.unheard pipe = true → state.pipeStale pipe = true :=
    fun pipe hunheard => (hgone pipe hunheard).1
  have hreduce : (state.step config action).StaysGone ↔
      ∀ pipe, (state.step config action).unheard pipe = true →
        (state.step config action).pipeStale pipe = true :=
    ⟨fun hafter pipe hunheard => (hafter pipe hunheard).1, (hinv.step action).staysGone⟩
  rw [hreduce]
  cases action with
  | elapse ms => exact iff_of_true hstale trivial
  | packet pipe =>
      refine iff_of_true (fun other hunheard => ?_) trivial
      rw [step, notePacket] at hunheard ⊢
      split_ifs at hunheard ⊢
      · exact hstale other hunheard
      · refine hstale other ?_
        rcases eq_or_ne other pipe with rfl | hne
        · simp at hunheard
        · simpa [hne] using hunheard
  | wireBytes => exact iff_of_true hstale trivial
  | tick =>
      refine iff_of_true ?_ trivial
      rw [step]
      split <;> exact hstale
  | work clockFirst =>
      rw [step, stalenessWork]
      cases hturn : state.turn with
      | none =>
          refine iff_of_true hstale fun turn hsome => ?_
          rw [hturn] at hsome
          cases hsome
      | some turn =>
          dsimp only
          have hshows : state.SilenceShows config (.work clockFirst) ↔
              (turn.pipe < min config.pipeCount esbLinkPipeMax →
                config.selfPipe turn.pipe = false → state.unheard turn.pipe = true →
                ∀ quietMs, turn.stage = .heardRead quietMs true →
                  state.peerActive config turn.pipe quietMs = false) := by
            rw [SilenceShows, hturn]
            constructor
            · intro hevery hplace hself hunheard quietMs hstage
              refine (h.peerActive_iff hinv hturn hunheard hstage).2.mpr ?_
              exact hevery turn rfl hplace hself hunheard ⟨quietMs, hstage⟩
            · intro hone other hother hplace hself hunheard hstage
              rw [← Option.mem_some_iff.mp hother] at hplace hself hunheard hstage ⊢
              obtain ⟨quietMs, hstage⟩ := hstage
              refine (h.peerActive_iff hinv hturn hunheard hstage).2.mp ?_
              exact hone hplace hself hunheard quietMs hstage
          rw [hshows]
          split_ifs with hend hself
          · refine iff_of_true ?_ fun hplace => absurd hplace (Nat.not_lt.mpr hend)
            rw [finishTick]
            split_ifs <;> exact hstale
          · refine iff_of_true hstale fun _ hother => ?_
            rw [hself] at hother
            cases hother
          · rw [stale_workOn_iff hstale hturn clockFirst]
            refine ⟨fun hone _ _ => hone, fun hone => ?_⟩
            exact hone (Nat.not_le.mp hend) (Bool.eq_false_iff.mpr hself)

/-- In a run a pipe marked stale stays stale and disconnected while it is silent iff its
silence shows in each of its turns. -/
theorem silent_peripheral_gone_iff (config : StalenessConfig) (actions : List StalenessAction) :
    (∀ front, front <+: actions → (run (step config) boot front).StaysGone) ↔
      Along (step config) (SilenceShows config) boot actions := by
  have hboot : (boot : Staleness).StaysGone := nofun
  exact @forall_prefix_iff_along _ _ (step config)
    (fun state : Staleness => state.Inv config ∧ state.UnheardSound)
    (fun state : Staleness => state.StaysGone) (SilenceShows config)
    (fun _ action h => ⟨h.1.step action, h.2.step h.1 action⟩)
    (fun _ action h hgone => staysGone_step_iff h.1 h.2 hgone action)
    boot ⟨Inv.boot config, UnheardSound.boot⟩ hboot actions

/-- The work of a tick over two pipes, the first the central's own. -/
def sampleTurns (steps : ℕ) : List StalenessAction :=
  .tick :: List.replicate (steps + 2) (.work true)

/-- Heard once and gone, a peripheral is connected again 2^32 ms later. -/
theorem silent_peripheral_returns : ¬ ∀ (config : StalenessConfig) (actions : List StalenessAction),
    (run (step config) boot actions).StaysGone := by
  intro h
  have hrun := h sampleStalenessConfig ([.elapse 400, .packet 1, .elapse 100] ++ sampleTurns 6 ++
    [.elapse 4000] ++ sampleTurns 7 ++ [.elapse (2 ^ 32 - 4000)] ++ sampleTurns 6)
  exact absurd (hrun 1 (by decide +kernel)).1 (by decide +kernel)

end Staleness

end SplitEsb
