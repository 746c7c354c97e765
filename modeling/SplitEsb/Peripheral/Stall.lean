import SplitEsb.Peripheral.Submit

/-! # Which silence is a stall
The check measures from the last event, not from when the FIFO filled, and acts on a
difference read before the flush. After an idle link the first burst too large for the
FIFO loses the packets in it. -/

namespace SplitEsb

open Uptime Transition

/-- At the flush the FIFO had been non-empty, and the radio had reported nothing, for
longer than the limit. -/
def StallFlush.Stalled (flush : StallFlush) : Prop :=
  (∃ since ∈ flush.busySinceMs, since + flush.limitMs.toNat < flush.atMs) ∧
    ∀ event ∈ flush.lastEventMs, event + flush.limitMs.toNat < flush.atMs

/-- The next statement of the call is its flush. -/
def SubmitStage.flushesNext : SubmitStage → Bool
  | .stalled .. => true
  | _ => false

namespace SubmitPath

def OnlyStalledFlushed (state : SubmitPath) : Prop := ∀ flush ∈ state.flushes, flush.Stalled

/-! ## What a call has read -/

/-- While the stamp stays what it was, a call read it, and its clock not before it; one
that goes on to flush found the difference past the limit. -/
def StageSound (nowMs markMs : ℕ) : SubmitStage → Prop
  | .clockRead clockMs => markMs ≤ clockMs ∧ clockMs ≤ nowMs
  | .stampRead stampMs => stampMs = markMs
  | .silenceRead clockMs stampMs => stampMs = markMs ∧ markMs ≤ clockMs ∧ clockMs ≤ nowMs
  | .countRead clockMs stampMs _ => stampMs = markMs ∧ markMs ≤ clockMs ∧ clockMs ≤ nowMs
  | .stalled clockMs stampMs limitMs =>
      (stampMs = markMs ∧ markMs ≤ clockMs ∧ clockMs ≤ nowMs) ∧
        limitMs < uptime32 clockMs - uptime32 stampMs
  | _ => True

/-- No stamp is of the future, and calls that saw no other one are sound. -/
structure CallsSound (state : SubmitPath) : Prop where
  past : state.txLastEventMs ≤ state.nowMs
  marking : ∀ call clockMs, state.calls call = .markRead clockMs → clockMs ≤ state.nowMs
  calls : ∀ call, state.quiet call = true →
    StageSound state.nowMs state.txLastEventMs (state.calls call)

theorem CallsSound.boot (config : SubmitConfig) : (boot config).CallsSound :=
  ⟨le_rfl, fun _ _ h => (by cases h), fun _ _ => trivial⟩

theorem StageSound.mono {nowMs laterMs markMs : ℕ} (hle : nowMs ≤ laterMs) {stage : SubmitStage}
    (h : StageSound nowMs markMs stage) : StageSound laterMs markMs stage := by
  cases stage with
  | clockRead clockMs => exact ⟨h.1, h.2.trans hle⟩
  | stampRead stampMs => exact h
  | silenceRead clockMs stampMs => exact ⟨h.1, h.2.1, h.2.2.trans hle⟩
  | countRead clockMs stampMs count => exact ⟨h.1, h.2.1, h.2.2.trans hle⟩
  | stalled clockMs stampMs limitMs => exact ⟨⟨h.1.1, h.1.2.1, h.1.2.2.trans hle⟩, h.2⟩
  | _ => trivial

variable {state : SubmitPath}

theorem CallsSound.congr (h : state.CallsSound) {state' : SubmitPath}
    (hnow : state'.nowMs = state.nowMs) (hmark : state'.txLastEventMs = state.txLastEventMs)
    (hquiet : state'.quiet = state.quiet) (hcalls : state'.calls = state.calls) :
    state'.CallsSound := by
  refine ⟨?_, ?_, ?_⟩
  · rw [hnow, hmark]
    exact h.past
  · rw [hnow, hcalls]
    exact h.marking
  · rw [hnow, hmark, hquiet, hcalls]
    exact h.calls

theorem CallsSound.setCall (h : state.CallsSound) (call : ℕ) {stage : SubmitStage}
    (hmarking : ∀ clockMs, stage = .markRead clockMs → clockMs ≤ state.nowMs)
    (hstage : state.quiet call = true → StageSound state.nowMs state.txLastEventMs stage) :
    (state.setCall call stage).CallsSound := by
  refine ⟨h.past, fun other => ?_, fun other => ?_⟩
  all_goals rcases eq_or_ne other call with rfl | hother
  · simpa only [SubmitPath.setCall, Function.update_self] using hmarking
  · simpa only [SubmitPath.setCall, Function.update_of_ne hother] using h.marking other
  · simpa only [SubmitPath.setCall, Function.update_self] using hstage
  · simpa only [SubmitPath.setCall, Function.update_of_ne hother] using h.calls other

theorem CallsSound.mark (h : state.CallsSound) {clockMs : ℕ} (hclock : clockMs ≤ state.nowMs) :
    (state.mark clockMs).CallsSound :=
  ⟨hclock, h.marking, fun _ hquiet => (by cases hquiet)⟩

theorem CallsSound.markEvent (h : state.CallsSound) : state.markEvent.CallsSound :=
  (h.mark le_rfl).congr rfl rfl rfl rfl

variable {config : SubmitConfig}

theorem CallsSound.refuse (h : state.CallsSound) (call : ℕ) : (state.refuse call).CallsSound := by
  refine ⟨h.past, fun other => ?_, fun other => ?_⟩
  all_goals rcases eq_or_ne other call with rfl | hother
  · simp [SubmitPath.refuse, SubmitPath.setCall]
  · simpa only [SubmitPath.refuse, SubmitPath.setCall, Function.update_of_ne hother] using
      h.marking other
  · simp [SubmitPath.refuse, SubmitPath.setCall, StageSound]
  · simpa only [SubmitPath.refuse, SubmitPath.setCall, Function.update_of_ne hother] using
      h.calls other

theorem CallsSound.submit (h : state.CallsSound) (call : ℕ) :
    (state.submit config call).CallsSound := by
  rw [SubmitPath.submit]
  cases state.calls call with
  | idle =>
      dsimp only
      split_ifs
      · exact h.congr rfl rfl rfl rfl
      · exact h.refuse call
  | _ => exact h

theorem CallsSound.work (h : state.CallsSound) (call : ℕ) (clockFirst : Bool) :
    (state.work config call clockFirst).CallsSound := by
  have hcall := h.calls call
  rw [SubmitPath.work]
  cases hstage : state.calls call with
  | idle => exact h
  | refused =>
      cases clockFirst with
      | true => exact h.setCall call nofun fun _ => ⟨h.past, le_rfl⟩
      | false => exact h.setCall call nofun fun _ => rfl
  | clockRead clockMs =>
      rw [hstage] at hcall
      exact h.setCall call nofun fun hquiet => ⟨rfl, hcall hquiet⟩
  | stampRead stampMs =>
      rw [hstage] at hcall
      exact h.setCall call nofun fun hquiet => ⟨hcall hquiet, h.past, le_rfl⟩
  | silenceRead clockMs stampMs =>
      rw [hstage] at hcall
      exact h.setCall call nofun hcall
  | countRead clockMs stampMs count =>
      rw [hstage] at hcall
      dsimp only
      split_ifs with hlimit
      · exact h.setCall call nofun fun _ => trivial
      · exact h.setCall call nofun fun hquiet => ⟨hcall hquiet, UInt32.not_le.mp hlimit⟩
  | stalled clockMs stampMs limitMs =>
      have hflushed : (state.flushStalled limitMs).CallsSound := h.congr rfl rfl rfl rfl
      exact hflushed.setCall call nofun fun _ => trivial
  | flushed =>
      refine h.setCall call (fun clockMs hread => ?_) fun _ => trivial
      cases hread
      exact le_rfl
  | markRead clockMs =>
      exact (h.mark (h.marking call clockMs hstage)).setCall call nofun fun _ => trivial
  | marked =>
      dsimp only
      split_ifs
      · have hwritten : state.write.CallsSound := h.congr rfl rfl rfl rfl
        exact hwritten.setCall call nofun fun _ => trivial
      · exact h.setCall call nofun fun _ => trivial

theorem CallsSound.succeed (h : state.CallsSound) : state.succeed.CallsSound := by
  rw [SubmitPath.succeed]
  split_ifs
  · exact h
  · exact h.markEvent.congr rfl rfl rfl rfl
  · exact h.markEvent.congr rfl rfl rfl rfl

theorem CallsSound.fail (h : state.CallsSound) (retry : Bool) : (state.fail retry).CallsSound := by
  rw [SubmitPath.fail]
  split_ifs
  · exact h
  · exact h.markEvent
  · exact h.markEvent.congr rfl rfl rfl rfl

theorem CallsSound.step (h : state.CallsSound) (action : SubmitAction) :
    (state.step config action).CallsSound := by
  cases action with
  | elapse ms =>
      have hlater : state.nowMs ≤ state.nowMs + ms := Nat.le_add_right ..
      exact ⟨h.past.trans hlater, fun call clockMs hread => (h.marking call clockMs hread).trans hlater,
        fun call hquiet => (h.calls call hquiet).mono hlater⟩
  | submit call => exact h.submit call
  | work call clockFirst => exact h.work call clockFirst
  | succeed => exact h.succeed
  | fail retry => exact h.fail retry
  | applyRetransmitCount count => exact h.congr rfl rfl rfl rfl
  | applyRetransmitDelay delayUs => exact h.congr rfl rfl rfl rfl

/-! ## The flush -/

theorem succeed_flushes (state : SubmitPath) : state.succeed.flushes = state.flushes := by
  rw [succeed]
  split_ifs <;> rfl

theorem fail_flushes (state : SubmitPath) (retry : Bool) :
    (state.fail retry).flushes = state.flushes := by
  rw [fail]
  split_ifs <;> rfl

theorem submit_flushes (config : SubmitConfig) (state : SubmitPath) (call : ℕ) :
    (state.submit config call).flushes = state.flushes := by
  rw [submit]
  cases state.calls call with
  | idle =>
      dsimp only
      split_ifs <;> rfl
  | _ => rfl

/-- Only a call that took the radio for stalled flushes. -/
theorem work_flushes (config : SubmitConfig) (state : SubmitPath) (call : ℕ) (clockFirst : Bool) :
    (∃ clockMs stampMs limitMs, state.calls call = .stalled clockMs stampMs limitMs ∧
      (state.work config call clockFirst).flushes =
        state.flushes ++ [⟨state.nowMs, limitMs, state.busySinceMs, state.lastEventMs⟩]) ∨
    (∀ clockMs stampMs limitMs, state.calls call ≠ .stalled clockMs stampMs limitMs) ∧
      (state.work config call clockFirst).flushes = state.flushes := by
  rw [work]
  cases hstage : state.calls call with
  | stalled clockMs stampMs limitMs => exact .inl ⟨clockMs, stampMs, limitMs, rfl, rfl⟩
  | countRead clockMs stampMs count =>
      refine .inr ⟨fun _ _ _ h => (by cases h), ?_⟩
      dsimp only
      split_ifs <;> rfl
  | marked =>
      refine .inr ⟨fun _ _ _ h => (by cases h), ?_⟩
      dsimp only
      split_ifs <;> rfl
  | _ => exact .inr ⟨fun _ _ _ h => (by cases h), rfl⟩

theorem onlyStalledFlushed_of_same (h : state.OnlyStalledFlushed) {state' : SubmitPath}
    (hflushes : state'.flushes = state.flushes) : state'.OnlyStalledFlushed := by
  rw [OnlyStalledFlushed, hflushes]
  exact h

/-- A call that flushes finds the FIFO non-empty since before the stamp, which is no older
than the radio's last event and was not stored again since the call was refused. -/
def FlushesQuiet (state : SubmitPath) : SubmitAction → Prop
  | .work call _ => (state.calls call).flushesNext = true →
      state.quiet call = true ∧ (∃ since ∈ state.busySinceMs, since ≤ state.txLastEventMs) ∧
        ∀ event ∈ state.lastEventMs, event ≤ state.txLastEventMs
  | _ => True

instance (state : SubmitPath) : DecidablePred state.FlushesQuiet
  | .work call _ => inferInstanceAs (Decidable ((state.calls call).flushesNext = true →
      state.quiet call = true ∧ (∃ since ∈ state.busySinceMs, since ≤ state.txLastEventMs) ∧
        ∀ event ∈ state.lastEventMs, event ≤ state.txLastEventMs))
  | .elapse _ | .submit _ | .succeed | .fail _ | .applyRetransmitCount _ | .applyRetransmitDelay _ =>
      inferInstanceAs (Decidable True)

/-- What is no newer than the stamp that a call found past its limit is past it still. -/
theorem StageSound.silent {nowMs markMs clockMs stampMs before : ℕ} {limitMs : UInt32}
    (h : StageSound nowMs markMs (.stalled clockMs stampMs limitMs)) (hbefore : before ≤ markMs) :
    before + limitMs.toNat < nowMs := by
  obtain ⟨⟨hstamp, hclock, hnow⟩, hpast⟩ := h
  calc before + limitMs.toNat ≤ stampMs + limitMs.toNat :=
      Nat.add_le_add_right (hbefore.trans_eq hstamp.symm) _
    _ < clockMs := lt_of_lt_sub (hstamp.trans_le hclock) hpast
    _ ≤ nowMs := hnow

theorem onlyStalledFlushed_step (h : state.CallsSound) (hflushed : state.OnlyStalledFlushed)
    {action : SubmitAction} (hquiet : state.FlushesQuiet action) :
    (state.step config action).OnlyStalledFlushed := by
  cases action with
  | work call clockFirst =>
      rcases work_flushes config state call clockFirst with
        ⟨clockMs, stampMs, limitMs, hstage, hflushes⟩ | ⟨-, hflushes⟩
      · obtain ⟨hsame, ⟨since, hsince, hbusy⟩, hevents⟩ := hquiet (by rw [hstage]; rfl)
        have hcall := h.calls call hsame
        rw [hstage] at hcall
        intro flush hmem
        change flush ∈ (state.work config call clockFirst).flushes at hmem
        rw [hflushes] at hmem
        rcases List.mem_append.mp hmem with hold | hnew
        · exact hflushed flush hold
        · rw [List.mem_singleton.mp hnew]
          exact ⟨⟨since, hsince, hcall.silent hbusy⟩,
            fun event hevent => hcall.silent (hevents event hevent)⟩
      · exact onlyStalledFlushed_of_same hflushed hflushes
  | elapse ms => exact hflushed
  | submit call => exact onlyStalledFlushed_of_same hflushed (submit_flushes ..)
  | succeed => exact onlyStalledFlushed_of_same hflushed (succeed_flushes state)
  | fail retry => exact onlyStalledFlushed_of_same hflushed (fail_flushes state retry)
  | applyRetransmitCount count => exact hflushed
  | applyRetransmitDelay delayUs => exact hflushed

/-- A run flushes nothing but a stalled radio where the FIFO was busy since before each
flush's stamp, and nothing stamped since its call was refused. -/
theorem flushes_only_stalled (config : SubmitConfig) {actions : List SubmitAction}
    (hquiet : Along (step config) FlushesQuiet (boot config) actions) :
    (run (step config) (boot config) actions).OnlyStalledFlushed := by
  have hboot : (boot config).CallsSound ∧ (boot config).OnlyStalledFlushed :=
    ⟨.boot config, fun _ h => absurd h List.not_mem_nil⟩
  have hrun := @run_invariant_along _ _ (step config)
    (fun state => state.CallsSound ∧ state.OnlyStalledFlushed) FlushesQuiet
    (fun _ action h haction => ⟨h.1.step action, onlyStalledFlushed_step h.1 h.2 haction⟩)
    (boot config) hboot actions hquiet
  exact hrun.2

/-- The defaults of the link, a FIFO of eight. -/
def sampleSubmitConfig : SubmitConfig := ⟨8, 12, 600⟩

/-- The FIFO fills at boot, the radio says nothing for 150 ms, and a ninth payload comes. -/
def stalledRadio : List SubmitAction :=
  List.replicate 8 (.submit 0) ++ [.elapse 150, .submit 0] ++ List.replicate 5 (.work 0 true)

theorem flushes_only_stalled_sample :
    ∃ flush ∈ (run (step sampleSubmitConfig) (boot sampleSubmitConfig) stalledRadio).flushes,
      flush.atMs = 150 ∧ flush.Stalled := by
  refine ⟨⟨150, 100, some 0, none⟩, by decide +kernel, rfl, ?_⟩
  exact @flushes_only_stalled sampleSubmitConfig stalledRadio (by decide +kernel) _ (by decide +kernel)

/-- 200 ms after boot nine payloads come at once; the ninth finds the FIFO full. -/
def idleBurst : List SubmitAction :=
  [.elapse 200] ++ List.replicate 9 (.submit 0) ++ List.replicate 5 (.work 0 true)

/-- The burst costs the eight packets queued in the same millisecond. -/
theorem idle_burst_flushed : ¬ ∀ (config : SubmitConfig) (actions : List SubmitAction),
    (run (step config) (boot config) actions).OnlyStalledFlushed := by
  intro h
  have hflush := h sampleSubmitConfig idleBurst ⟨200, 100, some 200, none⟩ (by decide +kernel)
  obtain ⟨since, hsince, hlate⟩ := hflush.1
  rw [← Option.mem_some_iff.mp hsince] at hlate
  exact absurd hlate (by decide)

end SubmitPath

end SplitEsb
