import SplitEsb.Central.Staleness

/-! # Who the tick takes for silent
A turn acts on the difference of two reads. What it takes for silence is silence up to
its first read; a packet inside the turn goes unnoticed, and 2^32 ms of silence look
like none. -/

namespace SplitEsb

open Uptime Transition

variable {config : StalenessConfig}

/-- The verdict of the turn is past, its report is not. -/
def TurnStage.Settled : TurnStage → Prop
  | .release => True
  | .report _ => True
  | _ => False

namespace Staleness

/-! ## What a turn has read -/

/-- The difference is the time from the last packet to the clock read, unless a packet
arrived in between. -/
structure QuietSound (state : Staleness) (turn : StaleTurn) (quietMs : UInt32) : Prop where
  clock : turn.clockMs ≤ state.nowMs
  quiet : turn.arrivedMs = none → ∀ ms ∈ state.lastPacketMs turn.pipe,
    ms ≤ turn.clockMs ∧ quietMs = uptime32 turn.clockMs - uptime32 ms

/-- A radio pipe was silent past the timeout, unless a packet arrived during the turn. -/
def SilentSound (config : StalenessConfig) (state : Staleness) (turn : StaleTurn) : Prop :=
  config.wirePipe turn.pipe = false → turn.arrivedMs = none →
    ∀ ms ∈ state.lastPacketMs turn.pipe, ms + config.peripheralTimeoutMs.toNat < state.nowMs

def StageSound (config : StalenessConfig) (state : Staleness) (turn : StaleTurn) : Prop :=
  match turn.stage with
  | .start => True
  | .clockRead => turn.clockMs ≤ state.nowMs ∧
      (turn.arrivedMs = none → ∀ ms ∈ state.lastPacketMs turn.pipe, ms ≤ turn.clockMs)
  | .stampRead heardMs => turn.arrivedMs = none → ∀ ms ∈ state.lastPacketMs turn.pipe,
      heardMs = uptime32 ms
  | .quietRead quietMs => state.QuietSound turn quietMs
  | .heardRead quietMs heard => state.QuietSound turn quietMs ∧
      (heard = true → state.pipeEverHeard turn.pipe = true) ∧
      (heard = false → state.pipeConnected turn.pipe = false)
  | .release => state.pipeEverHeard turn.pipe = true ∧ state.SilentSound config turn
  | .report heard => (heard = true → state.pipeEverHeard turn.pipe = true) ∧
      (state.pipeConnected turn.pipe = true → (heard && !state.pipeStale turn.pipe) = false →
        state.SilentSound config turn)

/-- What holds of the turn under way. -/
structure TurnSound (config : StalenessConfig) (state : Staleness) (turn : StaleTurn) : Prop where
  place : turn.stage = .start ∨
    turn.pipe < min config.pipeCount esbLinkPipeMax ∧ config.selfPipe turn.pipe = false
  arrived : ∀ ms ∈ turn.arrivedMs, state.lastPacketMs turn.pipe = some ms
  stage : state.StageSound config turn

/-- What holds between any two steps of a run. -/
structure Inv (config : StalenessConfig) (state : Staleness) : Prop where
  stamp : ∀ pipe, ∀ ms ∈ state.lastPacketMs pipe,
    state.pipeLastHeardMs pipe = uptime32 ms ∧ ms ≤ state.nowMs
  heard : ∀ pipe, state.pipeEverHeard pipe = true → ∃ ms, state.lastPacketMs pipe = some ms
  connected : ∀ pipe, state.pipeConnected pipe = true → state.pipeEverHeard pipe = true ∧
    (state.pipeStale pipe = false ∨
      ∃ turn ∈ state.turn, turn.pipe = pipe ∧ turn.stage.Settled)
  turn : ∀ turn ∈ state.turn, state.TurnSound config turn

theorem Inv.boot (config : StalenessConfig) : (boot : Staleness).Inv config where
  stamp := nofun
  heard := nofun
  connected := nofun
  turn := nofun

variable {state : Staleness} {turn : StaleTurn}

/-! ## Time and packets -/

theorem QuietSound.elapse {quietMs : UInt32} (h : state.QuietSound turn quietMs) (ms : ℕ) :
    ({ state with nowMs := state.nowMs + ms } : Staleness).QuietSound turn quietMs :=
  ⟨h.clock.trans (Nat.le_add_right ..), h.quiet⟩

theorem SilentSound.elapse (h : state.SilentSound config turn) (ms : ℕ) :
    ({ state with nowMs := state.nowMs + ms } : Staleness).SilentSound config turn :=
  fun hradio harrived last hlast => (h hradio harrived last hlast).trans_le (Nat.le_add_right ..)

theorem TurnSound.elapse (h : state.TurnSound config turn) (ms : ℕ) :
    ({ state with nowMs := state.nowMs + ms } : Staleness).TurnSound config turn := by
  obtain ⟨pipe, stage, clockMs, arrivedMs⟩ := turn
  obtain ⟨hplace, harrived, hstage⟩ := h
  refine ⟨hplace, harrived, ?_⟩
  cases stage with
  | start => trivial
  | clockRead => exact ⟨hstage.1.trans (Nat.le_add_right ..), hstage.2⟩
  | stampRead heardMs => exact hstage
  | quietRead quietMs => exact QuietSound.elapse hstage ms
  | heardRead quietMs heard => exact ⟨hstage.1.elapse ms, hstage.2⟩
  | release => exact ⟨hstage.1, hstage.2.elapse ms⟩
  | report heard =>
      exact ⟨hstage.1, fun hconnected hleft => (hstage.2 hconnected hleft).elapse ms⟩

theorem Inv.elapse (h : state.Inv config) (ms : ℕ) :
    (state.step config (.elapse ms)).Inv config where
  stamp pipe last hlast := ⟨(h.stamp pipe last hlast).1,
    (h.stamp pipe last hlast).2.trans (Nat.le_add_right ..)⟩
  heard := h.heard
  connected := h.connected
  turn turn hturn := (h.turn turn hturn).elapse ms

/-- A packet of the turn's pipe leaves nothing to hold of its reads. -/
theorem TurnSound.noteOwn (h : state.TurnSound config turn) {state' : Staleness}
    (hnow : state'.nowMs = state.nowMs) (hlast : state'.lastPacketMs turn.pipe = some state.nowMs)
    (hheard : state'.pipeEverHeard turn.pipe = true)
    (hconnected : state'.pipeConnected = state.pipeConnected) :
    state'.TurnSound config { turn with arrivedMs := some state.nowMs } := by
  obtain ⟨pipe, stage, clockMs, arrivedMs⟩ := turn
  obtain ⟨hplace, -, hstage⟩ := h
  refine ⟨hplace, fun ms hms => ?_, ?_⟩
  · rw [← Option.mem_some_iff.mp hms]
    exact hlast
  · cases stage with
    | start => trivial
    | clockRead => exact ⟨hstage.1.trans hnow.ge, nofun⟩
    | stampRead heardMs => exact nofun
    | quietRead quietMs => exact ⟨(QuietSound.clock hstage).trans hnow.ge, nofun⟩
    | heardRead quietMs heard =>
        exact ⟨⟨hstage.1.clock.trans hnow.ge, nofun⟩, fun _ => hheard,
          fun hnever => (congrFun hconnected pipe).trans (hstage.2.2 hnever)⟩
    | release => exact ⟨hheard, fun _ => nofun⟩
    | report heard => exact ⟨fun _ => hheard, fun _ _ _ => nofun⟩

/-- What a turn is sound about: the time, and what is kept of its pipe. -/
theorem TurnSound.congr (h : state.TurnSound config turn) {state' : Staleness}
    (hnow : state'.nowMs = state.nowMs)
    (hlast : state'.lastPacketMs turn.pipe = state.lastPacketMs turn.pipe)
    (hheard : state'.pipeEverHeard turn.pipe = state.pipeEverHeard turn.pipe)
    (hconnected : state'.pipeConnected turn.pipe = state.pipeConnected turn.pipe)
    (hstale : state'.pipeStale turn.pipe = state.pipeStale turn.pipe) :
    state'.TurnSound config turn := by
  obtain ⟨hplace, harrived, hstage⟩ := h
  refine ⟨hplace, ?_, ?_⟩
  · rw [hlast]
    exact harrived
  · have hquiet : ∀ {quietMs}, state.QuietSound turn quietMs → state'.QuietSound turn quietMs :=
      fun hold => ⟨hnow ▸ hold.clock, hlast ▸ hold.quiet⟩
    have hsilent : state.SilentSound config turn → state'.SilentSound config turn := by
      intro hold
      rw [SilentSound, hnow, hlast]
      exact hold
    obtain ⟨pipe, stage, clockMs, arrivedMs⟩ := turn
    cases stage with
    | start => trivial
    | clockRead => exact ⟨hnow ▸ hstage.1, hlast ▸ hstage.2⟩
    | stampRead heardMs => exact fun hnone ms hms => hstage hnone ms (hlast ▸ hms)
    | quietRead quietMs => exact hquiet hstage
    | heardRead quietMs heard =>
        exact ⟨hquiet hstage.1, hheard ▸ hstage.2.1, hconnected ▸ hstage.2.2⟩
    | release => exact ⟨hheard ▸ hstage.1, hsilent hstage.2⟩
    | report heard =>
        refine ⟨hheard ▸ hstage.1, fun hcase hleft => ?_⟩
        exact hsilent (hstage.2 (hconnected ▸ hcase) (hstale ▸ hleft))

theorem Inv.packet (h : state.Inv config) (pipe : ℕ) : (state.step config (.packet pipe)).Inv config := by
  rw [step, notePacket]
  split_ifs
  · exact h
  · refine ⟨fun other ms hms => ?_, fun other hheard => ?_, fun other hconnected => ?_,
      fun turn hturn => ?_⟩
    · dsimp only at hms ⊢
      rcases eq_or_ne other pipe with rfl | hne
      · rw [Function.update_self] at hms
        rw [Function.update_self, Option.mem_some_iff.mp hms]
        exact ⟨rfl, le_rfl⟩
      · rw [Function.update_of_ne hne] at hms ⊢
        exact h.stamp other ms hms
    · dsimp only at hheard ⊢
      rcases eq_or_ne other pipe with rfl | hne
      · exact ⟨_, Function.update_self ..⟩
      · rw [Function.update_of_ne hne] at hheard ⊢
        exact h.heard other hheard
    · obtain ⟨hheard, hcase⟩ := h.connected other hconnected
      refine ⟨?_, hcase.imp_right ?_⟩
      · dsimp only
        rcases eq_or_ne other pipe with rfl | hne
        · exact Function.update_self ..
        · rw [Function.update_of_ne hne]
          exact hheard
      · rintro ⟨turn, hturn, hpipe, hsettled⟩
        refine ⟨turn.noteArrival pipe state.nowMs, Option.mem_map_of_mem _ hturn, ?_⟩
        rw [StaleTurn.noteArrival]
        split_ifs <;> exact ⟨hpipe, hsettled⟩
    · obtain ⟨turn, hold, rfl⟩ := Option.mem_map.mp hturn
      have hsound := h.turn turn hold
      rw [StaleTurn.noteArrival]
      split_ifs with hpipe
      · exact hsound.noteOwn rfl (by simp [hpipe]) (by simp [hpipe]) rfl
      · exact hsound.congr rfl (Function.update_of_ne hpipe ..) (Function.update_of_ne hpipe ..) rfl rfl

/-! ## The steps of a turn -/

/-- A step of a turn on its way to the verdict. -/
theorem Inv.read (h : state.Inv config) (hturn : state.turn = some turn)
    (hunsettled : ¬turn.stage.Settled) {next : StaleTurn} (hsound : state.TurnSound config next) :
    ({ state with turn := some next } : Staleness).Inv config where
  stamp := h.stamp
  heard := h.heard
  connected pipe hconnected := by
    obtain ⟨hheard, hstale | ⟨old, hold, -, hsettled⟩⟩ := h.connected pipe hconnected
    · exact ⟨hheard, .inl hstale⟩
    · rw [hturn, Option.mem_some_iff] at hold
      exact absurd (hold ▸ hsettled) hunsettled
  turn new hnew := by
    rw [← Option.mem_some_iff.mp hnew]
    exact hsound.congr rfl rfl rfl rfl rfl

/-- What a pipe's connection needs once the turn that may be past its verdict is another. -/
theorem Inv.connected_of_unsettled (h : state.Inv config) (hturn : state.turn = some turn) {pipe : ℕ}
    (hother : turn.pipe ≠ pipe ∨ ¬turn.stage.Settled) (hconnected : state.pipeConnected pipe = true) :
    state.pipeEverHeard pipe = true ∧ state.pipeStale pipe = false := by
  obtain ⟨hheard, hstale | ⟨old, hold, hpipe, hsettled⟩⟩ := h.connected pipe hconnected
  · exact ⟨hheard, hstale⟩
  · rw [hturn, Option.mem_some_iff] at hold
    subst hold
    rcases hother with hne | hunsettled
    · exact absurd hpipe hne
    · exact absurd hsettled hunsettled

/-- The next step of the turn marks the pipe stale, releases it or reports it
disconnected. -/
def ActsOn (config : StalenessConfig) (state : Staleness) (turn : StaleTurn) : Prop :=
  turn.pipe < min config.pipeCount esbLinkPipeMax ∧ config.selfPipe turn.pipe = false ∧
    match turn.stage with
    | .heardRead quietMs heard => heard = true ∧ state.peerActive config turn.pipe quietMs = false ∧
        state.pipeStale turn.pipe = false
    | .release => True
    | .report heard => state.pipeConnected turn.pipe = true ∧
        (heard && !state.pipeStale turn.pipe) = false
    | _ => False

/-- What the tick acts on was silent up to its first read. -/
theorem TurnSound.silent (h : state.TurnSound config turn) (hacts : state.ActsOn config turn) :
    state.SilentSound config turn := by
  obtain ⟨pipe, stage, clockMs, arrivedMs⟩ := turn
  obtain ⟨-, -, hstage⟩ := h
  obtain ⟨-, -, hacts⟩ := hacts
  cases stage with
  | start => cases hacts
  | clockRead => cases hacts
  | stampRead heardMs => cases hacts
  | quietRead quietMs => cases hacts
  | heardRead quietMs heard =>
      intro hradio hnone last hlast
      obtain ⟨hle, hquietMs⟩ := hstage.1.quiet hnone last hlast
      have hpast : config.peripheralTimeoutMs < quietMs := by
        simpa [peerActive, show config.wirePipe pipe = false from hradio] using hacts.2.1
      exact (lt_of_lt_sub hle (hquietMs ▸ hpast)).trans_le hstage.1.clock
  | release => exact hstage.2
  | report heard => exact hstage.2 hacts.1 hacts.2

theorem Inv.settle (h : state.Inv config) {pipe clockMs : ℕ} {arrivedMs : Option ℕ}
    {quietMs : UInt32} {heard : Bool}
    (hturn : state.turn = some ⟨pipe, .heardRead quietMs heard, clockMs, arrivedMs⟩) :
    (state.settle config ⟨pipe, .heardRead quietMs heard, clockMs, arrivedMs⟩ quietMs heard).Inv
      config := by
  have hsound := h.turn _ hturn
  obtain ⟨hplace, harrived, -, hever, hnever⟩ := h.turn _ hturn
  have hunsettled : ¬(TurnStage.heardRead quietMs heard).Settled := id
  rw [Staleness.settle]
  split_ifs with hunheard hactive hfresh
  · have hfalse : heard = false := by simpa using hunheard
    refine h.read hturn hunsettled ⟨.inr (hplace.resolve_left nofun), harrived, hever, fun hconnected => ?_⟩
    rw [hnever hfalse] at hconnected
    cases hconnected
  · have htrue : heard = true := by simpa using hunheard
    refine ⟨h.stamp, h.heard, fun other hconnected => ?_, fun next hnext => ?_⟩
    · obtain ⟨hheard, hstale⟩ := h.connected_of_unsettled hturn (.inr hunsettled) hconnected
      refine ⟨hheard, .inl ?_⟩
      simp only [setStage, Function.update_apply, hstale, ite_self]
    · rw [← Option.mem_some_iff.mp hnext]
      refine ⟨.inr (hplace.resolve_left nofun), harrived, hever, fun _ hleft => ?_⟩
      simp [setStage, htrue] at hleft
  · have htrue : heard = true := by simpa using hunheard
    refine ⟨h.stamp, h.heard, fun other hconnected => ?_, fun next hnext => ?_⟩
    · obtain ⟨hheard, hstale⟩ := h.connected_of_unsettled hturn (.inr hunsettled) hconnected
      refine ⟨hheard, ?_⟩
      rcases eq_or_ne other pipe with rfl | hne
      · exact .inr ⟨_, rfl, rfl, trivial⟩
      · left
        simpa [setStage, note, markStale, hne] using hstale
    · rw [← Option.mem_some_iff.mp hnext]
      have hinside := hplace.resolve_left nofun
      refine ⟨.inr hinside, harrived, hever htrue, hsound.silent ⟨hinside.1, hinside.2, htrue, ?_⟩⟩
      exact ⟨Bool.eq_false_iff.mpr hactive, by simpa using hfresh⟩
  · refine ⟨h.stamp, h.heard, fun other hconnected => ?_, fun next hnext => ?_⟩
    · obtain ⟨hheard, hstale⟩ := h.connected_of_unsettled hturn (.inr hunsettled) hconnected
      exact ⟨hheard, .inl hstale⟩
    · rw [← Option.mem_some_iff.mp hnext]
      refine ⟨.inr (hplace.resolve_left nofun), harrived, hever, fun hconnected => ?_⟩
      have hstale := (h.connected_of_unsettled hturn (.inr hunsettled) hconnected).2
      rw [hstale] at hfresh
      exact absurd rfl hfresh

theorem Inv.release (h : state.Inv config) {pipe clockMs : ℕ} {arrivedMs : Option ℕ}
    (hturn : state.turn = some ⟨pipe, .release, clockMs, arrivedMs⟩) :
    ((state.note .released pipe).setStage ⟨pipe, .release, clockMs, arrivedMs⟩ (.report true)).Inv
      config := by
  obtain ⟨hplace, harrived, hever, hsilent⟩ := h.turn _ hturn
  refine ⟨h.stamp, h.heard, fun other hconnected => ?_, fun next hnext => ?_⟩
  · obtain ⟨hheard, hstale | ⟨old, hold, hpipe, -⟩⟩ := h.connected other hconnected
    · exact ⟨hheard, .inl hstale⟩
    · rw [hturn, Option.mem_some_iff] at hold
      exact ⟨hheard, .inr ⟨_, rfl, (congrArg StaleTurn.pipe hold).trans hpipe, trivial⟩⟩
  · rw [← Option.mem_some_iff.mp hnext]
    exact ⟨.inr (hplace.resolve_left nofun), harrived, fun _ => hever, fun _ _ => hsilent⟩

theorem reportConnection_keeps (state : Staleness) (turn : StaleTurn) (heard : Bool) :
    (state.reportConnection turn heard).lastPacketMs = state.lastPacketMs ∧
      (state.reportConnection turn heard).pipeLastHeardMs = state.pipeLastHeardMs ∧
      (state.reportConnection turn heard).nowMs = state.nowMs ∧
      (state.reportConnection turn heard).pipeEverHeard = state.pipeEverHeard ∧
      (state.reportConnection turn heard).pipeStale = state.pipeStale ∧
      (state.reportConnection turn heard).unheard = state.unheard ∧
      (state.reportConnection turn heard).pipeConnected =
        Function.update state.pipeConnected turn.pipe (heard && !state.pipeStale turn.pipe) := by
  rw [reportConnection]
  dsimp only
  split_ifs with hsame
  · exact ⟨rfl, rfl, rfl, rfl, rfl, rfl, by rw [hsame, Function.update_eq_self]⟩
  · exact ⟨rfl, rfl, rfl, rfl, rfl, rfl, rfl⟩
  · exact ⟨rfl, rfl, rfl, rfl, rfl, rfl, rfl⟩

theorem Inv.report (h : state.Inv config) {pipe clockMs : ℕ} {arrivedMs : Option ℕ} {heard : Bool}
    (hturn : state.turn = some ⟨pipe, .report heard, clockMs, arrivedMs⟩) :
    ((state.reportConnection ⟨pipe, .report heard, clockMs, arrivedMs⟩ heard).nextPipe
      ⟨pipe, .report heard, clockMs, arrivedMs⟩).Inv config := by
  obtain ⟨-, -, hever, -⟩ := h.turn _ hturn
  obtain ⟨hlast, hstamp, hnow, hheard, hstale, -, hconnected⟩ :=
    reportConnection_keeps state ⟨pipe, .report heard, clockMs, arrivedMs⟩ heard
  refine ⟨?_, ?_, fun other hcase => ?_, fun next hnext => ?_⟩
  · simp only [nextPipe, hlast, hstamp, hnow]
    exact h.stamp
  · simp only [nextPipe, hlast, hheard]
    exact h.heard
  · simp only [nextPipe, hheard, hstale, hconnected] at hcase ⊢
    rcases eq_or_ne other pipe with rfl | hne
    · rw [Function.update_self] at hcase
      obtain ⟨htrue, hfresh⟩ : heard = true ∧ state.pipeStale other = false := by simpa using hcase
      exact ⟨hever htrue, .inl hfresh⟩
    · rw [Function.update_of_ne hne] at hcase
      obtain ⟨hsome, hfresh⟩ := h.connected_of_unsettled hturn (.inl (Ne.symm hne)) hcase
      exact ⟨hsome, .inl hfresh⟩
  · rw [← Option.mem_some_iff.mp hnext]
    exact ⟨.inl rfl, nofun, trivial⟩

theorem Inv.workOn (h : state.Inv config) (hturn : state.turn = some turn)
    (hplace : turn.pipe < min config.pipeCount esbLinkPipeMax ∧ config.selfPipe turn.pipe = false)
    (clockFirst : Bool) : (state.workOn config clockFirst turn).Inv config := by
  obtain ⟨pipe, stage, clockMs, arrivedMs⟩ := turn
  have hsound := h.turn _ hturn
  cases stage with
  | start =>
      rw [Staleness.workOn]
      dsimp only
      split
      · refine h.read hturn id ⟨.inr hplace, nofun, le_rfl, fun _ ms hms => ?_⟩
        exact (h.stamp pipe ms hms).2
      · exact h.read hturn id ⟨.inr hplace, nofun, fun _ ms hms => (h.stamp pipe ms hms).1⟩
  | clockRead =>
      refine h.read hturn id ⟨.inr hplace, hsound.arrived, hsound.stage.1, fun hnone ms hms => ?_⟩
      exact ⟨hsound.stage.2 hnone ms hms, congrArg (uptime32 clockMs - ·) (h.stamp pipe ms hms).1⟩
  | stampRead heardMs =>
      refine h.read hturn id ⟨.inr hplace, hsound.arrived, le_rfl, fun hnone ms hms => ?_⟩
      exact ⟨(h.stamp pipe ms hms).2,
        congrArg (uptime32 state.nowMs - ·) (hsound.stage hnone ms hms)⟩
  | quietRead quietMs =>
      have hquiet : state.QuietSound ⟨pipe, .quietRead quietMs, clockMs, arrivedMs⟩ quietMs :=
        hsound.stage
      refine h.read hturn id ⟨.inr hplace, hsound.arrived, ⟨hquiet.clock, hquiet.quiet⟩, id,
        fun hnever => ?_⟩
      refine Bool.eq_false_iff.mpr fun hconnected => ?_
      rw [(h.connected pipe hconnected).1] at hnever
      cases hnever
  | heardRead quietMs heard => exact h.settle hturn
  | release => exact h.release hturn
  | report heard => exact h.report hturn

theorem Inv.work (h : state.Inv config) (clockFirst : Bool) :
    (state.stalenessWork config clockFirst).Inv config := by
  rw [stalenessWork]
  cases hturn : state.turn with
  | none => exact h
  | some turn =>
      have hsound := h.turn turn hturn
      have hleave : turn.stage = .start → ∀ next, (∀ new ∈ next, state.TurnSound config new) →
          ({ state with turn := next } : Staleness).Inv config := by
        intro hstart next hnext
        refine ⟨h.stamp, h.heard, fun pipe hconnected => ?_, fun new hnew => ?_⟩
        · have hunsettled : ¬turn.stage.Settled := by
            rw [hstart]
            exact id
          obtain ⟨hheard, hstale⟩ := h.connected_of_unsettled hturn (.inr hunsettled) hconnected
          exact ⟨hheard, .inl hstale⟩
        · exact (hnext new hnew).congr rfl rfl rfl rfl rfl
      dsimp only
      split_ifs with hend hself
      · have hstart := hsound.place.resolve_right fun hplace => absurd hplace.1 (Nat.not_lt.mpr hend)
        have hidle := hleave hstart none nofun
        rw [finishTick]
        split_ifs
        · exact hidle
        · exact ⟨hidle.stamp, hidle.heard, hidle.connected, nofun⟩
      · have hstart := hsound.place.resolve_right fun hplace => by simp [hself] at hplace
        refine hleave hstart (some (.begin (turn.pipe + 1))) fun new hnew => ?_
        rw [← Option.mem_some_iff.mp hnew]
        exact ⟨.inl rfl, nofun, trivial⟩
      · exact h.workOn hturn ⟨Nat.not_le.mp hend, Bool.eq_false_iff.mpr hself⟩ clockFirst

theorem Inv.step (h : state.Inv config) (action : StalenessAction) :
    (state.step config action).Inv config := by
  cases action with
  | elapse ms => exact h.elapse ms
  | packet pipe => exact h.packet pipe
  | wireBytes =>
      exact ⟨h.stamp, h.heard, h.connected, fun turn hturn => (h.turn turn hturn).congr rfl rfl rfl rfl rfl⟩
  | tick =>
      rw [Staleness.step]
      split
      case isTrue => exact h
      case isFalse hnone =>
        have hturn : state.turn = none := by simpa using hnone
        refine ⟨h.stamp, h.heard, fun pipe hconnected => ?_, fun turn hnew => ?_⟩
        · obtain ⟨hheard, hcase⟩ := h.connected pipe hconnected
          refine ⟨hheard, .inl (hcase.resolve_right ?_)⟩
          rintro ⟨turn, hsome, -⟩
          rw [hturn] at hsome
          cases hsome
        · rw [← Option.mem_some_iff.mp hnew]
          exact ⟨.inl rfl, nofun, trivial⟩
  | work clockFirst => exact h.work clockFirst

/-! ## Live peripherals -/

/-- Whatever the tick did to a radio pipe, no packet of it had come within the timeout. -/
def LiveKept (config : StalenessConfig) (state : Staleness) : Prop :=
  ∀ act ∈ state.acts, config.wirePipe act.pipe = false →
    ∀ ms ∈ act.lastPacketMs, ms + config.peripheralTimeoutMs.toNat < act.atMs

/-- When a step of the work marks a radio pipe stale, releases it or reports it
disconnected, no packet of the pipe came since the first read of its turn, or none
within the timeout. -/
def ActsUndisturbed (config : StalenessConfig) (state : Staleness) : StalenessAction → Prop
  | .work _ => ∀ turn ∈ state.turn, state.ActsOn config turn → config.wirePipe turn.pipe = false →
      ∀ ms ∈ turn.arrivedMs, ms + config.peripheralTimeoutMs.toNat < state.nowMs
  | _ => True

/-- A step of the work acts on the pipe of its turn, or on none. -/
theorem acts_stalenessWork (config : StalenessConfig) (state : Staleness) (clockFirst : Bool) :
    (∃ turn ∈ state.turn, state.ActsOn config turn ∧ ∃ kind,
      (state.stalenessWork config clockFirst).acts =
        state.acts ++ [⟨kind, turn.pipe, state.nowMs, state.lastPacketMs turn.pipe⟩]) ∨
      (∀ turn ∈ state.turn, ¬state.ActsOn config turn) ∧
        (state.stalenessWork config clockFirst).acts = state.acts := by
  rw [stalenessWork]
  cases hturn : state.turn with
  | none => exact .inr ⟨nofun, rfl⟩
  | some turn =>
      have hidle : ¬state.ActsOn config turn → ∀ next : Staleness, next.acts = state.acts →
          (∀ other ∈ some turn, ¬state.ActsOn config other) ∧ next.acts = state.acts := by
        intro hnot next hsame
        refine ⟨fun other hother => ?_, hsame⟩
        rw [← Option.mem_some_iff.mp hother]
        exact hnot
      dsimp only
      split_ifs with hend hself
      · refine .inr (hidle (fun hacts => absurd hacts.1 (Nat.not_lt.mpr hend)) _ ?_)
        rw [finishTick]
        split_ifs <;> rfl
      · refine .inr (hidle (fun hacts => ?_) _ rfl)
        have hother := hacts.2.1
        rw [hself] at hother
        cases hother
      · have hplace : turn.pipe < min config.pipeCount esbLinkPipeMax ∧
            config.selfPipe turn.pipe = false := ⟨Nat.not_le.mp hend, Bool.eq_false_iff.mpr hself⟩
        obtain ⟨pipe, stage, clockMs, arrivedMs⟩ := turn
        cases stage with
        | start =>
            refine .inr (hidle (fun hacts => hacts.2.2) _ ?_)
            cases clockFirst <;> rfl
        | clockRead => exact .inr (hidle (fun hacts => hacts.2.2) _ rfl)
        | stampRead heardMs => exact .inr (hidle (fun hacts => hacts.2.2) _ rfl)
        | quietRead quietMs => exact .inr (hidle (fun hacts => hacts.2.2) _ rfl)
        | heardRead quietMs heard =>
            simp only [workOn, settle]
            split_ifs with hunheard hactive hfresh
            · refine .inr (hidle (fun hacts => ?_) _ rfl)
              have htrue : heard = true := hacts.2.2.1
              simp [htrue] at hunheard
            · refine .inr (hidle (fun hacts => ?_) _ rfl)
              have hquiet : state.peerActive config pipe quietMs = false := hacts.2.2.2.1
              rw [hquiet] at hactive
              cases hactive
            · refine .inl ⟨_, rfl, ⟨hplace.1, hplace.2, ?_, ?_, ?_⟩, .markedStale, rfl⟩
              · simpa using hunheard
              · exact Bool.eq_false_iff.mpr hactive
              · simpa using hfresh
            · refine .inr (hidle (fun hacts => ?_) _ rfl)
              have hstale : state.pipeStale pipe = false := hacts.2.2.2.2
              simp [hstale] at hfresh
        | release => exact .inl ⟨_, rfl, ⟨hplace.1, hplace.2, trivial⟩, .released, rfl⟩
        | report heard =>
            simp only [workOn, reportConnection]
            split_ifs with hsame hconnected
            · refine .inr (hidle (fun hacts => ?_) _ rfl)
              have hlost : state.pipeConnected pipe = true ∧
                  (heard && !state.pipeStale pipe) = false := hacts.2.2
              rw [hlost.1, hlost.2] at hsame
              cases hsame
            · refine .inr (hidle (fun hacts => ?_) _ rfl)
              have hlost : (heard && !state.pipeStale pipe) = false := hacts.2.2.2
              rw [hlost] at hconnected
              cases hconnected
            · have hgone : (heard && !state.pipeStale pipe) = false := Bool.eq_false_iff.mpr hconnected
              refine .inl ⟨_, rfl, ⟨hplace.1, hplace.2, ?_, hgone⟩, .disconnected, rfl⟩
              rw [hgone] at hsame
              exact Bool.not_eq_false _ ▸ Ne.symm hsame

/-- A step keeps live peripherals alone iff no packet slipped into the turn it acts in. -/
theorem liveKept_step_iff (h : state.Inv config) (hkept : state.LiveKept config)
    (action : StalenessAction) :
    (state.step config action).LiveKept config ↔ state.ActsUndisturbed config action := by
  have hsame : ∀ next : Staleness, next.acts = state.acts → next.LiveKept config :=
    fun next hacts => by
      rw [LiveKept, hacts]
      exact hkept
  cases action with
  | elapse ms => exact iff_of_true (hsame _ rfl) trivial
  | packet pipe =>
      refine iff_of_true (hsame _ ?_) trivial
      rw [step, notePacket]
      split_ifs <;> rfl
  | wireBytes => exact iff_of_true (hsame _ rfl) trivial
  | tick =>
      refine iff_of_true (hsame _ ?_) trivial
      rw [step]
      split <;> rfl
  | work clockFirst =>
      rcases acts_stalenessWork config state clockFirst with
        ⟨turn, hturn, hacts, kind, hnew⟩ | ⟨hnone, hold⟩
      · have hsound := h.turn turn hturn
        have hsilent := hsound.silent hacts
        constructor
        · intro hafter other hother hother' hradio ms hms
          rw [Option.mem_unique hother hturn] at hms hradio
          have hmem : (⟨kind, turn.pipe, state.nowMs, state.lastPacketMs turn.pipe⟩ : StaleAct) ∈
              (state.step config (.work clockFirst)).acts := by
            change _ ∈ (state.stalenessWork config clockFirst).acts
            rw [hnew]
            exact List.mem_append_right _ (List.mem_singleton_self _)
          exact hafter _ hmem hradio ms (hsound.arrived ms hms)
        · intro hquiet act hmem hradio ms hms
          change act ∈ (state.stalenessWork config clockFirst).acts at hmem
          rw [hnew] at hmem
          rcases List.mem_append.mp hmem with hmem | hmem
          · exact hkept act hmem hradio ms hms
          · rw [List.mem_singleton.mp hmem] at hradio hms ⊢
            cases harrived : turn.arrivedMs with
            | none => exact hsilent hradio harrived ms hms
            | some last =>
                have hlast := hsound.arrived last harrived
                rw [hlast, Option.mem_some_iff] at hms
                subst hms
                exact hquiet turn hturn hacts hradio last harrived
      · refine iff_of_true (hsame _ hold) fun turn hturn hacts => ?_
        exact absurd hacts (hnone turn hturn)

/-- In a run no pipe is marked stale, released or reported disconnected within the
timeout of a packet iff no packet slips into a turn that acts. -/
theorem live_peripheral_kept_iff (config : StalenessConfig) (actions : List StalenessAction) :
    (∀ front, front <+: actions → (run (step config) boot front).LiveKept config) ↔
      Along (step config) (ActsUndisturbed config) boot actions := by
  have hboot : (boot : Staleness).LiveKept config := nofun
  exact @forall_prefix_iff_along _ _ (step config) (fun state : Staleness => state.Inv config)
    (fun state : Staleness => state.LiveKept config) (ActsUndisturbed config)
    (fun _ action h => h.step action) (fun _ action h hkept => liveKept_step_iff h hkept action)
    boot (Inv.boot config) hboot actions

/-- Two pipes, the first the central's own. -/
def sampleStalenessConfig : StalenessConfig where
  pipeCount := 2
  selfPipe pipe := pipe = 0
  wirePipe _ := false
  peripheralTimeoutMs := 3000
  wireTimeoutMs := 500

/-- A peripheral heard every few milliseconds is released: the clock is read first, and
its packet comes with the next millisecond. -/
theorem live_peripheral_released : ¬ ∀ (config : StalenessConfig) (actions : List StalenessAction),
    (run (step config) boot actions).LiveKept config := by
  intro h
  have hrun := h sampleStalenessConfig [.elapse 496, .packet 1, .elapse 4, .tick, .work true,
    .work true, .elapse 1, .packet 1, .work true, .work true, .work true]
  have hact := hrun ⟨.markedStale, 1, 501, some 501⟩ (by decide +kernel) rfl 501 rfl
  exact absurd hact (by decide)

end Staleness

end SplitEsb
