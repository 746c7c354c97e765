import SplitEsb.Keepalive.Codec
import SplitEsb.Shared.DelayedWork
import SplitEsb.Shared.Gathered
import SplitEsb.Shared.Transition

/-! # Pace of the keepalives
A peripheral's tick re-arms itself, slowly while nothing is sent; a send brings a slow tick
forward. Sends come from any thread, at any point of the tick. -/

namespace SplitEsb

open DelayedWork Gathered Transition

structure PaceConfig where
  hopWindowMs : ℕ
  idleKeepaliveMs : ℕ
  hidRelayPollMs : ℕ
  selfIsRelay : Bool

/-- Where the work queue is in `keepalive_work_fn` or `relay_poll_work_fn`; it runs one item
at a time. -/
inductive PaceStage where
  | idle
  | settling
  | chosen (active : Bool)
  | sent (periodMs : ℕ)
  | polling
  | polled
  deriving DecidableEq, Repr

/-- Where a thread is in `hop_note_data_sent`: the flag is up, the timer was read to be far. -/
inductive DataNote where
  | idle
  | flagged
  | far
  deriving DecidableEq, Repr

/-- Whether the second statement of `hop_start` or `hop_stop` is still to come. -/
inductive PaceControl where
  | idle
  | starting
  | stopping
  deriving DecidableEq, Repr

/-- The items, the queue, the flag, the notes by thread and the thread that starts and stops
the engine. The rest records: whether the engine was started last, the notes by the takes
before them with the takes, what was sent, and the time of the newest note or start the tick
has yet to answer. -/
structure KeepalivePace (κ : Type*) where
  nowMs : ℕ
  keepalive : Item
  relayPoll : Item
  stage : PaceStage
  dataSent : Bool
  notes : κ → DataNote
  control : PaceControl
  started : Bool
  noted : List (ℕ × Unit)
  taken : List Bool
  keepalives : List (ℕ × UInt8)
  polls : List ℕ
  askedMs : Option ℕ

/-- A millisecond passes; `hop_start` or `hop_stop` is called or goes on; the queue takes an
item or goes on with one, its statements seeing the link acknowledged or not; a thread notes a
send or goes on. -/
inductive PaceAction (κ : Type*) where
  | elapse
  | hopStart
  | hopStop
  | advanceControl
  | runKeepalive
  | runRelayPoll
  | advance (searching : Bool)
  | hopNoteDataSent (thread : κ)
  | advanceNote (thread : κ)

namespace KeepalivePace

variable {κ : Type*} [DecidableEq κ]

def boot : KeepalivePace κ where
  nowMs := 0
  keepalive := .off
  relayPoll := .off
  stage := .idle
  dataSent := false
  notes _ := .idle
  control := .idle
  started := false
  noted := []
  taken := []
  keepalives := []
  polls := []
  askedMs := none

variable (config : PaceConfig)

def hopStart (pace : KeepalivePace κ) : KeepalivePace κ :=
  { pace with
    keepalive := pace.keepalive.reschedule (pace.nowMs + config.hopWindowMs)
    control := .starting
    askedMs := pace.askedMs.map fun _ => pace.nowMs }

def startRelayPoll (pace : KeepalivePace κ) : KeepalivePace κ :=
  { pace with
    relayPoll :=
      if config.selfIsRelay then pace.relayPoll.reschedule (pace.nowMs + config.hidRelayPollMs)
      else pace.relayPoll
    control := .idle
    started := true }

def hopStop (pace : KeepalivePace κ) : KeepalivePace κ :=
  { pace with
    keepalive := pace.keepalive.cancel
    control := .stopping
    started := false
    askedMs := none }

def stopRelayPoll (pace : KeepalivePace κ) : KeepalivePace κ :=
  { pace with relayPoll := pace.relayPoll.cancel, control := .idle }

/-- The second statement of the call. -/
def advanceControl (pace : KeepalivePace κ) : KeepalivePace κ :=
  match pace.control with
  | .idle => pace
  | .starting => pace.startRelayPoll config
  | .stopping => pace.stopRelayPoll

/-- The next statement of the item that runs. -/
def advance (pace : KeepalivePace κ) (searching : Bool) : KeepalivePace κ :=
  match pace.stage with
  | .idle => pace
  | .settling =>
      { pace with
        dataSent := false
        taken := pace.taken ++ [pace.dataSent]
        askedMs := none
        stage := .chosen pace.dataSent }
  | .chosen active =>
      let state := esbKeepalivePeripheralState active searching
      { pace with
        keepalives := pace.keepalives ++ [(pace.nowMs, state)]
        stage := .sent (if active || searching then config.hopWindowMs else config.idleKeepaliveMs) }
  | .sent periodMs =>
      { pace with
        keepalive := pace.keepalive.reschedule (pace.nowMs + periodMs)
        stage := .idle }
  | .polling => { pace with polls := pace.polls ++ [pace.nowMs], stage := .polled }
  | .polled =>
      { pace with
        relayPoll := pace.relayPoll.reschedule (pace.nowMs + config.hidRelayPollMs)
        stage := .idle }

/-- The tick took the flag and has yet to set the timer. -/
def PastTake (pace : KeepalivePace κ) : Bool :=
  match pace.stage with
  | .chosen _ | .sent _ => true
  | _ => false

/-- The engine is started, from the first statement of `hop_start` on. -/
def runs (pace : KeepalivePace κ) : Bool := pace.started || decide (pace.control = .starting)

/-- A note returns. It asks for the tick unless the engine is off or the tick, past its take,
will still set the timer. -/
def noteReturns (pace : KeepalivePace κ) (thread : κ) : KeepalivePace κ :=
  { pace with
    notes := Function.update pace.notes thread .idle
    askedMs :=
      if pace.runs && pace.dataSent && !pace.PastTake then some pace.nowMs else pace.askedMs }

def advanceNote (pace : KeepalivePace κ) (thread : κ) : KeepalivePace κ :=
  match pace.notes thread with
  | .idle => pace
  | .flagged =>
      if config.hopWindowMs < pace.keepalive.remaining pace.nowMs then
        { pace with notes := Function.update pace.notes thread .far }
      else pace.noteReturns thread
  | .far =>
      noteReturns { pace with
        keepalive := pace.keepalive.reschedule (pace.nowMs + config.hopWindowMs) } thread

def step (pace : KeepalivePace κ) : PaceAction κ → KeepalivePace κ
  | .elapse =>
      let nowMs := pace.nowMs + 1
      { pace with
        nowMs := nowMs
        keepalive := pace.keepalive.expire nowMs
        relayPoll := pace.relayPoll.expire nowMs }
  | .hopStart => if pace.control = .idle then pace.hopStart config else pace
  | .hopStop => if pace.control = .idle then pace.hopStop else pace
  | .advanceControl => pace.advanceControl config
  | .runKeepalive =>
      if pace.stage = .idle ∧ pace.keepalive.queued = true then
        { pace with keepalive := pace.keepalive.start, stage := .settling }
      else pace
  | .runRelayPoll =>
      if pace.stage = .idle ∧ pace.relayPoll.queued = true then
        { pace with relayPoll := pace.relayPoll.start, stage := .polling }
      else pace
  | .advance searching => pace.advance config searching
  | .hopNoteDataSent thread =>
      if pace.notes thread = .idle then
        { pace with
          dataSent := true
          noted := pace.noted ++ [(pace.taken.length, ())]
          notes := Function.update pace.notes thread .flagged }
      else pace
  | .advanceNote thread => pace.advanceNote config thread

/-! ## Invariant -/

def InTick (pace : KeepalivePace κ) : Prop :=
  pace.stage = .settling ∨ pace.PastTake = true

def InPoll (pace : KeepalivePace κ) : Prop :=
  pace.stage = .polling ∨ pace.stage = .polled

def slowestMs : ℕ := max config.hopWindowMs config.idleKeepaliveMs

/-- Each keepalive says what its tick took. -/
def Reports (pace : KeepalivePace κ) : Prop :=
  (match pace.stage with
    | .chosen active => pace.taken.length = pace.keepalives.length + 1 ∧
        pace.taken[pace.keepalives.length]? = some active
    | _ => pace.taken.length = pace.keepalives.length) ∧
  ∀ k sentMs : ℕ, pace.keepalives[k]? = some (sentMs, esbKeepaliveActive) → pace.taken[k]? = some true

structure Holds (pace : KeepalivePace κ) : Prop where
  armed : pace.runs = true →
    pace.InTick ∨ pace.keepalive.DueBy (pace.nowMs + slowestMs config)
  stopping : pace.control = .stopping → pace.started = false
  polls : pace.started = true → config.selfIsRelay = true →
    pace.InPoll ∨ pace.relayPoll.DueBy (pace.nowMs + config.hidRelayPollMs)
  asked : ∀ askedMs, pace.askedMs = some askedMs → pace.runs = true ∧ pace.dataSent = true ∧
    pace.PastTake = false ∧
    (pace.stage = .settling ∨ pace.keepalive.DueBy (askedMs + config.hopWindowMs))
  period : ∀ periodMs, pace.stage = .sent periodMs → periodMs ≤ slowestMs config
  gathers : Gathers (fun _ _ => true) false pace.dataSent pace.taken pace.noted
  reports : pace.Reports

omit [DecidableEq κ] in
theorem Holds.boot : (boot : KeepalivePace κ).Holds config where
  armed hruns := absurd hruns Bool.false_ne_true
  stopping h := by cases h
  polls h := by cases h
  asked _ h := by cases h
  period _ h := by cases h
  gathers := .start
  reports := ⟨rfl, fun _ _ h => by cases h⟩

variable {config} {pace : KeepalivePace κ}

omit [DecidableEq κ] in
theorem Holds.elapse (h : pace.Holds config) :
    ({ pace with
        nowMs := pace.nowMs + 1
        keepalive := pace.keepalive.expire (pace.nowMs + 1)
        relayPoll := pace.relayPoll.expire (pace.nowMs + 1) } : KeepalivePace κ).Holds config where
  armed hstarted := (h.armed hstarted).imp_right fun hdue =>
    (hdue.mono (Nat.add_le_add_right (Nat.le_succ _) _)).expire _
  stopping := h.stopping
  polls hstarted hrelay := (h.polls hstarted hrelay).imp_right fun hdue =>
    (hdue.mono (Nat.add_le_add_right (Nat.le_succ _) _)).expire _
  asked askedMs hasked := by
    obtain ⟨hruns, hflag, hpast, hdue⟩ := h.asked askedMs hasked
    exact ⟨hruns, hflag, hpast, hdue.imp_right (·.expire _)⟩
  period := h.period
  gathers := h.gathers
  reports := h.reports

omit [DecidableEq κ] in
theorem Holds.hopStart (h : pace.Holds config) : (pace.hopStart config).Holds config where
  armed _ := .inr (Item.dueBy_reschedule _ (Nat.add_le_add_left (le_max_left _ _) _))
  stopping hcontrol := by cases hcontrol
  polls := h.polls
  asked askedMs hasked := by
    obtain ⟨before, hbefore, rfl⟩ := Option.map_eq_some_iff.mp hasked
    obtain ⟨-, hflag, hpast, -⟩ := h.asked before hbefore
    exact ⟨Bool.or_true _, hflag, hpast, .inr (Item.dueBy_reschedule _ le_rfl)⟩
  period := h.period
  gathers := h.gathers
  reports := h.reports

omit [DecidableEq κ] in
theorem runs_of_starting (pace : KeepalivePace κ) (h : pace.control = .starting) :
    pace.runs = true := by
  rw [runs, h]
  exact Bool.or_true _

omit [DecidableEq κ] in
theorem Holds.startRelayPoll (h : pace.Holds config) (hstarting : pace.control = .starting) :
    (pace.startRelayPoll config).Holds config where
  armed _ := h.armed (pace.runs_of_starting hstarting)
  stopping hcontrol := by cases hcontrol
  polls _ hrelay := by
    refine .inr ?_
    change (if config.selfIsRelay then pace.relayPoll.reschedule _ else pace.relayPoll).DueBy _
    rw [if_pos hrelay]
    exact Item.dueBy_reschedule _ le_rfl
  asked askedMs hasked := by
    obtain ⟨-, hflag, hpast, hdue⟩ := h.asked askedMs hasked
    exact ⟨rfl, hflag, hpast, hdue⟩
  period := h.period
  gathers := h.gathers
  reports := h.reports

omit [DecidableEq κ] in
theorem Holds.hopStop (h : pace.Holds config) : pace.hopStop.Holds config where
  armed hruns := absurd hruns Bool.false_ne_true
  stopping _ := rfl
  polls hstarted := by cases hstarted
  asked _ hasked := by cases hasked
  period := h.period
  gathers := h.gathers
  reports := h.reports

omit [DecidableEq κ] in
theorem Holds.not_runs (h : pace.Holds config) (hstopping : pace.control = .stopping) :
    pace.runs = false := by
  rw [runs, h.stopping hstopping, hstopping]
  rfl

omit [DecidableEq κ] in
theorem Holds.stopRelayPoll (h : pace.Holds config) (hstopping : pace.control = .stopping) :
    pace.stopRelayPoll.Holds config where
  armed hruns := by
    have hstarted : pace.started = true := (Bool.or_false _).symm.trans hruns
    cases (h.stopping hstopping).symm.trans hstarted
  stopping hcontrol := by cases hcontrol
  polls hstarted := by cases (h.stopping hstopping).symm.trans hstarted
  asked askedMs hasked := by
    cases (h.not_runs hstopping).symm.trans (h.asked askedMs hasked).1
  period := h.period
  gathers := h.gathers
  reports := h.reports

omit [DecidableEq κ] in
theorem Holds.advanceControl (h : pace.Holds config) : (pace.advanceControl config).Holds config := by
  rw [KeepalivePace.advanceControl]
  cases hcontrol : pace.control with
  | idle => exact h
  | starting => exact h.startRelayPoll hcontrol
  | stopping => exact h.stopRelayPoll hcontrol

omit [DecidableEq κ] in
theorem Holds.runKeepalive (h : pace.Holds config) (hidle : pace.stage = .idle) :
    ({ pace with keepalive := pace.keepalive.start, stage := .settling } :
      KeepalivePace κ).Holds config where
  armed _ := .inl (.inl rfl)
  stopping := h.stopping
  polls hstarted hrelay := by
    refine .inr ((h.polls hstarted hrelay).resolve_left ?_)
    rintro (hpoll | hpoll) <;> cases hidle.symm.trans hpoll
  asked askedMs hasked := by
    obtain ⟨hruns, hflag, -, -⟩ := h.asked askedMs hasked
    exact ⟨hruns, hflag, rfl, .inl rfl⟩
  period _ hstage := by cases hstage
  gathers := h.gathers
  reports := by
    have hreports := h.reports
    rw [Reports, hidle] at hreports
    exact hreports

omit [DecidableEq κ] in
/-- The queue turns to the poll, or is done with it. -/
theorem Holds.poll (h : pace.Holds config) (hstage : pace.stage = .idle ∨ pace.InPoll)
    {stage : PaceStage} (hnext : stage = .idle ∨ stage = .polling ∨ stage = .polled) {item : Item}
    {polls : List ℕ}
    (hitem : pace.started = true → config.selfIsRelay = true →
      stage = .polling ∨ stage = .polled ∨ item.DueBy (pace.nowMs + config.hidRelayPollMs)) :
    ({ pace with stage := stage, relayPoll := item, polls := polls } :
      KeepalivePace κ).Holds config := by
  have hnotick : ¬ pace.InTick := by
    rintro (htick | htick)
    · rcases hstage with hidle | hpoll | hpoll <;> simp_all
    · rw [PastTake] at htick
      rcases hstage with hidle | hpoll | hpoll <;> simp_all
  refine ⟨?_, h.stopping, ?_, ?_, ?_, h.gathers, ?_⟩
  · exact fun hruns => .inr ((h.armed hruns).resolve_left hnotick)
  · intro hstarted hrelay
    rcases hitem hstarted hrelay with hpoll | hpoll | hdue
    · exact .inl (.inl hpoll)
    · exact .inl (.inr hpoll)
    · exact .inr hdue
  · intro askedMs hasked
    obtain ⟨hruns, hflag, -, hdue⟩ := h.asked askedMs hasked
    refine ⟨hruns, hflag, ?_, .inr (hdue.resolve_left fun htick => hnotick (.inl htick))⟩
    rcases hnext with rfl | rfl | rfl <;> rfl
  · intro periodMs hsent
    rcases hnext with rfl | rfl | rfl <;> cases hsent
  · have hreports := h.reports
    rw [Reports] at hreports ⊢
    refine ⟨?_, hreports.2⟩
    have hlength : pace.taken.length = pace.keepalives.length := by
      rcases hstage with hidle | hpoll | hpoll
      · rw [hidle] at hreports
        exact hreports.1
      · rw [hpoll] at hreports
        exact hreports.1
      · rw [hpoll] at hreports
        exact hreports.1
    rcases hnext with rfl | rfl | rfl <;> exact hlength

omit [DecidableEq κ] in
theorem Holds.take (h : pace.Holds config) (hsettling : pace.stage = .settling) :
    ({ pace with
        dataSent := false
        taken := pace.taken ++ [pace.dataSent]
        askedMs := none
        stage := .chosen pace.dataSent } : KeepalivePace κ).Holds config where
  armed _ := .inl (.inr rfl)
  stopping := h.stopping
  polls hstarted hrelay := by
    refine .inr ((h.polls hstarted hrelay).resolve_left ?_)
    rintro (hpoll | hpoll) <;> cases hsettling.symm.trans hpoll
  asked _ hasked := by cases hasked
  period _ hstage := by cases hstage
  gathers := h.gathers.take
  reports := by
    have hreports := h.reports
    rw [Reports, hsettling] at hreports
    obtain ⟨hlength, hactive⟩ := hreports
    refine ⟨⟨?_, ?_⟩, fun k sentMs hsent => ?_⟩
    · rw [List.length_append, List.length_singleton, hlength]
    · rw [← hlength, List.getElem?_concat_length]
    · have htaken := hactive k sentMs hsent
      rwa [List.getElem?_append_left (List.getElem?_eq_some_iff.mp htaken).1]

theorem esbKeepalivePeripheralState_active {active searching : Bool}
    (h : esbKeepalivePeripheralState active searching = esbKeepaliveActive) : active = true := by
  cases active with
  | true => rfl
  | false => cases h

omit [DecidableEq κ] in
theorem Holds.send (h : pace.Holds config) {active : Bool} (hchosen : pace.stage = .chosen active)
    (searching : Bool) :
    ({ pace with
        keepalives := pace.keepalives ++
          [(pace.nowMs, esbKeepalivePeripheralState active searching)]
        stage := .sent (if active || searching then config.hopWindowMs else config.idleKeepaliveMs) } :
      KeepalivePace κ).Holds config where
  armed _ := .inl (.inr rfl)
  stopping := h.stopping
  polls hstarted hrelay := by
    refine .inr ((h.polls hstarted hrelay).resolve_left ?_)
    rintro (hpoll | hpoll) <;> cases hchosen.symm.trans hpoll
  asked askedMs hasked := by
    obtain ⟨-, -, hpast, -⟩ := h.asked askedMs hasked
    rw [PastTake, hchosen] at hpast
    cases hpast
  period periodMs hstage := by
    cases hstage
    split_ifs
    · exact le_max_left _ _
    · exact le_max_right _ _
  gathers := h.gathers
  reports := by
    have hreports := h.reports
    rw [Reports, hchosen] at hreports
    obtain ⟨⟨hlength, hlast⟩, hactive⟩ := hreports
    refine ⟨?_, fun k sentMs hsent => ?_⟩
    · change pace.taken.length = (pace.keepalives ++ [_]).length
      rw [List.length_append, List.length_singleton, hlength]
    · rcases Nat.lt_trichotomy k pace.keepalives.length with hlt | rfl | hgt
      · rw [List.getElem?_append_left hlt] at hsent
        exact hactive k sentMs hsent
      · rw [List.getElem?_concat_length] at hsent
        have hstate := congrArg Prod.snd (Option.some.inj hsent)
        rw [hlast, esbKeepalivePeripheralState_active hstate]
      · rw [List.getElem?_eq_none (by rw [List.length_append, List.length_singleton]; omega)]
          at hsent
        cases hsent

omit [DecidableEq κ] in
theorem Holds.rearm (h : pace.Holds config) {periodMs : ℕ} (hsent : pace.stage = .sent periodMs) :
    ({ pace with
        keepalive := pace.keepalive.reschedule (pace.nowMs + periodMs)
        stage := .idle } : KeepalivePace κ).Holds config where
  armed _ := .inr (Item.dueBy_reschedule _ (Nat.add_le_add_left (h.period periodMs hsent) _))
  stopping := h.stopping
  polls hstarted hrelay := by
    refine .inr ((h.polls hstarted hrelay).resolve_left ?_)
    rintro (hpoll | hpoll) <;> cases hsent.symm.trans hpoll
  asked askedMs hasked := by
    obtain ⟨-, -, hpast, -⟩ := h.asked askedMs hasked
    rw [PastTake, hsent] at hpast
    cases hpast
  period _ hstage := by cases hstage
  gathers := h.gathers
  reports := by
    have hreports := h.reports
    rw [Reports, hsent] at hreports
    exact hreports

omit [DecidableEq κ] in
theorem Holds.advance (h : pace.Holds config) (searching : Bool) :
    (pace.advance config searching).Holds config := by
  rw [KeepalivePace.advance]
  cases hstage : pace.stage with
  | idle => exact h
  | settling => exact h.take hstage
  | chosen active => exact h.send hstage searching
  | sent periodMs => exact h.rearm hstage
  | polling =>
      exact h.poll (.inr (.inl hstage)) (.inr (.inr rfl)) fun _ _ => .inr (.inl rfl)
  | polled =>
      exact h.poll (.inr (.inr hstage)) (.inl rfl) fun _ _ =>
        .inr (.inr (Item.dueBy_reschedule _ le_rfl))

/-- A note returns with the tick due in time, unless the tick is past its take. -/
theorem Holds.noteReturns (h : pace.Holds config) {item : Item} (thread : κ)
    (harmed : pace.runs = true →
      pace.InTick ∨ item.DueBy (pace.nowMs + slowestMs config))
    (hnow : pace.runs = true → pace.PastTake = false →
      pace.stage = .settling ∨ item.DueBy (pace.nowMs + config.hopWindowMs)) :
    (KeepalivePace.noteReturns { pace with keepalive := item } thread).Holds config where
  armed := harmed
  stopping := h.stopping
  polls := h.polls
  asked askedMs hasked := by
    change (if (pace.runs && pace.dataSent && !pace.PastTake) = true then some pace.nowMs
      else pace.askedMs) = some askedMs at hasked
    have hasks : pace.runs = true ∧ pace.dataSent = true ∧ pace.PastTake = false := by
      split_ifs at hasked with hasks
      · simpa [and_assoc] using hasks
      · obtain ⟨hruns, hflag, hpast, -⟩ := h.asked askedMs hasked
        exact ⟨hruns, hflag, hpast⟩
    obtain ⟨hruns, hflag, hpast⟩ := hasks
    rw [hruns, hflag, hpast] at hasked
    obtain rfl := Option.some.inj hasked
    exact ⟨hruns, hflag, hpast, hnow hruns hpast⟩
  period := h.period
  gathers := h.gathers
  reports := h.reports

theorem Holds.advanceNote (h : pace.Holds config) (thread : κ) :
    (pace.advanceNote config thread).Holds config := by
  rw [KeepalivePace.advanceNote]
  cases hnote : pace.notes thread with
  | idle => exact h
  | flagged =>
      dsimp only
      split_ifs with hfar
      · exact ⟨h.armed, h.stopping, h.polls, h.asked, h.period, h.gathers, h.reports⟩
      · refine h.noteReturns thread h.armed fun hruns hpast => ?_
        rcases h.armed hruns with htick | hdue
        · refine .inl (htick.resolve_right ?_)
          rw [hpast]
          exact Bool.false_ne_true
        · exact .inr (hdue.of_remaining (Nat.le_of_not_lt hfar))
  | far =>
      refine h.noteReturns thread (fun _ => .inr ?_) fun _ _ => .inr ?_
      · exact Item.dueBy_reschedule _ (Nat.add_le_add_left (le_max_left _ _) _)
      · exact Item.dueBy_reschedule _ le_rfl

theorem Holds.step (h : pace.Holds config) (action : PaceAction κ) :
    (pace.step config action).Holds config := by
  cases action with
  | elapse => exact h.elapse
  | hopStart =>
      rw [KeepalivePace.step]
      split_ifs
      · exact h.hopStart
      · exact h
  | hopStop =>
      rw [KeepalivePace.step]
      split_ifs
      · exact h.hopStop
      · exact h
  | advanceControl => exact h.advanceControl
  | runKeepalive =>
      rw [KeepalivePace.step]
      split_ifs with hruns
      · exact h.runKeepalive hruns.1
      · exact h
  | runRelayPoll =>
      rw [KeepalivePace.step]
      split_ifs with hruns
      · exact h.poll (.inl hruns.1) (.inr (.inl rfl)) fun _ _ => .inl rfl
      · exact h
  | advance searching => exact h.advance searching
  | hopNoteDataSent thread =>
      rw [KeepalivePace.step]
      split_ifs
      · refine ⟨h.armed, h.stopping, h.polls, fun askedMs hasked => ?_, h.period,
          h.gathers.put (), h.reports⟩
        obtain ⟨hruns, -, hpast, hdue⟩ := h.asked askedMs hasked
        exact ⟨hruns, rfl, hpast, hdue⟩
      · exact h
  | advanceNote thread => exact h.advanceNote thread

/-! ## Pace -/

theorem gather_noted (period : ℕ) (noted : List (ℕ × Unit)) :
    gather (fun _ _ => true) false period noted = true ↔ (period, ()) ∈ noted := by
  have hflag := @gather_flag Unit Bool (fun _ _ => true) false noted id (fun _ => true) rfl
    (fun _ _ _ => (Bool.or_true _).symm) period
  refine hflag.trans ⟨?_, fun hmem => ⟨_, hmem, rfl, rfl⟩⟩
  rintro ⟨entry, hmem, rfl, -⟩
  exact hmem

/-- What the pace promises in a state. -/
structure Paced (config : PaceConfig) (pace : KeepalivePace κ) : Prop where
  /-- A started engine runs its tick or has it due. -/
  armed : pace.runs = true →
    pace.InTick ∨ pace.keepalive.DueBy (pace.nowMs + slowestMs config)
  polls : pace.started = true → config.selfIsRelay = true →
    pace.InPoll ∨ pace.relayPoll.DueBy (pace.nowMs + config.hidRelayPollMs)
  /-- The tick that answers a send is due within a hop window of its note. -/
  asked : ∀ askedMs, pace.askedMs = some askedMs →
    pace.stage = .settling ∨ pace.keepalive.DueBy (askedMs + config.hopWindowMs)
  /-- The tick took the flag raised exactly when a send was noted since the take before. -/
  taken : ∀ k active, pace.taken[k]? = some active → (active = true ↔ (k, ()) ∈ pace.noted)
  /-- An active keepalive has sends behind it. -/
  reports : ∀ k sentMs : ℕ, pace.keepalives[k]? = some (sentMs, esbKeepaliveActive) →
    (k, ()) ∈ pace.noted

/-- However sends fall into the tick, the engine never loses it: it is due within the slower
period, and within a hop window of a send noted while it was not past taking the flag. -/
theorem keepalives_paced (config : PaceConfig) (actions : List (PaceAction κ)) :
    (run (step config) (boot : KeepalivePace κ) actions).Paced config := by
  have hholds : (run (step config) (boot : KeepalivePace κ) actions).Holds config :=
    run_invariant (fun _ action h => h.step action) (Holds.boot config) actions
  have htaken : ∀ k active, (run (step config) (boot : KeepalivePace κ) actions).taken[k]? =
      some active → (active = true ↔ (k, ()) ∈ (run (step config) boot actions).noted) := by
    intro k active hactive
    rw [hholds.gathers.earlier k active hactive]
    exact gather_noted k _
  refine ⟨hholds.armed, hholds.polls, fun askedMs hasked => ?_, htaken, fun k sentMs hsent => ?_⟩
  · exact (hholds.asked askedMs hasked).2.2.2
  · exact (htaken k true (hholds.reports.2 k sentMs hsent)).mp rfl

/-! ## Stopping -/

/-- An item has its timer set or is queued. -/
def Armed (pace : KeepalivePace κ) : Prop := pace.keepalive ≠ .off ∨ pace.relayPoll ≠ .off

/-- Nothing is armed and nothing was sent since. -/
structure Silent (before pace : KeepalivePace κ) : Prop where
  keepalive : pace.keepalive = .off
  relayPoll : pace.relayPoll = .off
  keepalives : pace.keepalives = before.keepalives
  polls : pace.polls = before.polls

/-- No item runs and no note is about to move the timer. -/
structure Resting (pace : KeepalivePace κ) : Prop where
  stage : pace.stage = .idle
  notes : ∀ thread, pace.notes thread ≠ .far

/-- Nothing is left that could arm the tick. -/
structure Settled (pace : KeepalivePace κ) : Prop extends pace.Resting where
  keepalive : pace.keepalive = .off

/-- Without a start and a poll, what is settled stays settled, and sends nothing. -/
theorem Settled.step (settled : pace.Settled) (hcontrol : pace.control ≠ .starting)
    {action : PaceAction κ} (hstart : action ≠ .hopStart)
    (hpoll : action = .runRelayPoll → pace.relayPoll.queued = false) :
    (pace.step config action).Settled ∧ (pace.step config action).control ≠ .starting ∧
      (pace.relayPoll = .off → (pace.step config action).relayPoll = .off) ∧
      (pace.step config action).keepalives = pace.keepalives ∧
      (pace.step config action).polls = pace.polls := by
  obtain ⟨⟨hstage, hnotes⟩, hkeepalive⟩ := settled
  have hupdate : ∀ (thread : κ) {note : DataNote}, note ≠ .far →
      ∀ other, Function.update pace.notes thread note other ≠ .far := by
    intro thread note hnote other
    rcases eq_or_ne other thread with rfl | hne
    · rw [Function.update_self]
      exact hnote
    · rw [Function.update_of_ne hne]
      exact hnotes other
  have hsame : pace.Settled ∧ pace.control ≠ .starting ∧
      (pace.relayPoll = .off → pace.relayPoll = .off) ∧ pace.keepalives = pace.keepalives ∧
      pace.polls = pace.polls := ⟨⟨⟨hstage, hnotes⟩, hkeepalive⟩, hcontrol, id, rfl, rfl⟩
  cases action with
  | elapse =>
      refine ⟨⟨⟨hstage, hnotes⟩, hkeepalive ▸ Item.expire_off _⟩, hcontrol, fun hoff => ?_, rfl, rfl⟩
      exact hoff ▸ Item.expire_off _
  | hopStart => exact absurd rfl hstart
  | hopStop =>
      rw [KeepalivePace.step]
      split_ifs
      · exact ⟨⟨⟨hstage, hnotes⟩, rfl⟩, fun h => (by cases h), id, rfl, rfl⟩
      · exact hsame
  | advanceControl =>
      rw [KeepalivePace.step, advanceControl]
      cases hcase : pace.control with
      | idle => exact hsame
      | starting => exact absurd hcase hcontrol
      | stopping =>
          exact ⟨⟨⟨hstage, hnotes⟩, hkeepalive⟩, fun h => (by cases h), fun _ => rfl, rfl, rfl⟩
  | runKeepalive =>
      have hqueued : ¬ (pace.stage = .idle ∧ pace.keepalive.queued = true) := by
        rw [hkeepalive]
        exact fun h => Bool.false_ne_true h.2
      rw [KeepalivePace.step, if_neg hqueued]
      exact hsame
  | runRelayPoll =>
      have hqueued : ¬ (pace.stage = .idle ∧ pace.relayPoll.queued = true) := by
        rw [hpoll rfl]
        exact fun h => Bool.false_ne_true h.2
      rw [KeepalivePace.step, if_neg hqueued]
      exact hsame
  | advance searching =>
      rw [KeepalivePace.step, KeepalivePace.advance, hstage]
      exact hsame
  | hopNoteDataSent thread =>
      rw [KeepalivePace.step]
      split_ifs
      · exact ⟨⟨⟨hstage, hupdate thread (by decide)⟩, hkeepalive⟩, hcontrol, id, rfl, rfl⟩
      · exact hsame
  | advanceNote thread =>
      rw [KeepalivePace.step, KeepalivePace.advanceNote]
      cases hnote : pace.notes thread with
      | idle => exact hsame
      | far => exact absurd hnote (hnotes thread)
      | flagged =>
          -- the timer does not run, so the note leaves it alone
          have hnear : ¬ config.hopWindowMs < pace.keepalive.remaining pace.nowMs := by
            rw [hkeepalive, Item.remaining_off]
            exact Nat.not_lt_zero _
          dsimp only
          rw [if_neg hnear]
          exact ⟨⟨⟨hstage, hupdate thread (by decide)⟩, hkeepalive⟩, hcontrol, id, rfl, rfl⟩

/-- With the poll off too, the engine is silent. -/
theorem Settled.silent_run (settled : pace.Settled) (hcontrol : pace.control ≠ .starting)
    (hoff : pace.relayPoll = .off) {actions : List (PaceAction κ)} (hstart : .hopStart ∉ actions) :
    pace.Silent (run (KeepalivePace.step config) pace actions) := by
  induction actions generalizing pace with
  | nil => exact ⟨settled.keepalive, hoff, rfl, rfl⟩
  | cons action actions ih =>
      have hfirst : action ≠ .hopStart := fun h => hstart (h ▸ List.mem_cons_self)
      obtain ⟨hsettled, hidle, hpoll, hkeepalives, hpolls⟩ :=
        @settled.step _ _ config pace hcontrol action hfirst fun _ => hoff ▸ rfl
      obtain ⟨htick, hrelay, hsent, hpolled⟩ := ih hsettled hidle (hpoll hoff) fun hmem =>
        hstart (List.mem_cons_of_mem _ hmem)
      exact ⟨htick, hrelay, hsent.trans hkeepalives, hpolled.trans hpolls⟩

/-- Before the second cancel it takes a poll to unsettle the engine. -/
theorem Settled.run (settled : pace.Settled) (hcontrol : pace.control ≠ .starting)
    {actions : List (PaceAction κ)} (hstart : .hopStart ∉ actions) (hpoll : .runRelayPoll ∉ actions) :
    (Transition.run (KeepalivePace.step config) pace actions).Settled := by
  induction actions generalizing pace with
  | nil => exact settled
  | cons action actions ih =>
      have hfirst : action ≠ .hopStart := fun h => hstart (h ▸ List.mem_cons_self)
      obtain ⟨hsettled, hidle, -⟩ := @settled.step _ _ config pace hcontrol action hfirst
        fun h => absurd (h ▸ List.mem_cons_self) hpoll
      exact ih hsettled hidle (fun hmem => hstart (List.mem_cons_of_mem _ hmem))
        fun hmem => hpoll (List.mem_cons_of_mem _ hmem)

/-- What runs, or is about to move the timer, arms an item once it goes on. -/
theorem exists_armed (config : PaceConfig) (hunsettled : ¬ pace.Settled) :
    ∃ actions : List (PaceAction κ), .hopStart ∉ actions ∧
      (run (step config) pace.stopRelayPoll actions).Armed := by
  have hadvance : ∀ n, PaceAction.hopStart ∉ List.replicate n (PaceAction.advance true : PaceAction κ) :=
    fun n hmem => by cases List.eq_of_mem_replicate hmem
  cases hstage : pace.stage with
  | idle =>
      by_cases hkeepalive : pace.keepalive = .off
      · have hfar : ∃ thread, pace.notes thread = .far := by
          by_contra hnone
          exact hunsettled ⟨⟨hstage, fun thread hfar => hnone ⟨thread, hfar⟩⟩, hkeepalive⟩
        obtain ⟨thread, hthread⟩ := hfar
        refine ⟨[.advanceNote thread], by simp, .inl ?_⟩
        simp only [run_cons, run_nil, step, advanceNote, stopRelayPoll, hthread]
        exact Item.reschedule_ne_off _ _
      · exact ⟨[], List.not_mem_nil, .inl hkeepalive⟩
  | settling =>
      refine ⟨_, hadvance 3, .inl ?_⟩
      simp only [List.replicate, run_cons, run_nil, step, advance, stopRelayPoll, hstage]
      exact Item.reschedule_ne_off _ _
  | chosen active =>
      refine ⟨_, hadvance 2, .inl ?_⟩
      simp only [List.replicate, run_cons, run_nil, step, advance, stopRelayPoll, hstage]
      exact Item.reschedule_ne_off _ _
  | sent periodMs =>
      refine ⟨_, hadvance 1, .inl ?_⟩
      simp only [List.replicate, run_cons, run_nil, step, advance, stopRelayPoll, hstage]
      exact Item.reschedule_ne_off _ _
  | polling =>
      refine ⟨_, hadvance 2, .inr ?_⟩
      simp only [List.replicate, run_cons, run_nil, step, advance, stopRelayPoll, hstage]
      exact Item.reschedule_ne_off _ _
  | polled =>
      refine ⟨_, hadvance 1, .inr ?_⟩
      simp only [List.replicate, run_cons, run_nil, step, advance, stopRelayPoll, hstage]
      exact Item.reschedule_ne_off _ _

/-- A stop silences the engine until the next start exactly when its second cancel finds the
tick off, no item running and no note between reading the timer and moving it; else an item
is armed again. An engine at rest at the first cancel still is at the second, unless the poll
is run in between. -/
theorem stop_silences_iff (config : PaceConfig) (pace : KeepalivePace κ) :
    (pace.Settled ↔ ∀ actions, .hopStart ∉ actions →
      pace.Silent (run (step config) pace.stopRelayPoll actions)) ∧
    (¬ pace.Settled → ∃ actions, .hopStart ∉ actions ∧
      (run (step config) pace.stopRelayPoll actions).Armed) ∧
    (pace.Resting → ∀ between, .hopStart ∉ between → .runRelayPoll ∉ between →
      (run (step config) pace.hopStop between).Settled) := by
  refine ⟨⟨fun settled actions hstart => ?_, fun hsilent => ?_⟩, exists_armed config,
    fun resting between hstart hpoll => ?_⟩
  · have hstopped : pace.stopRelayPoll.Settled :=
      ⟨⟨settled.stage, settled.notes⟩, settled.keepalive⟩
    obtain ⟨htick, hrelay, hsent, hpolls⟩ :=
      @hstopped.silent_run _ _ config _ (fun h => by cases h) rfl actions hstart
    exact ⟨htick, hrelay, hsent, hpolls⟩
  · by_contra hunsettled
    obtain ⟨actions, hstart, harmed⟩ := exists_armed config hunsettled
    rcases harmed with htick | hrelay
    · exact htick (hsilent actions hstart).keepalive
    · exact hrelay (hsilent actions hstart).relayPoll
  · have hstopped : pace.hopStop.Settled := ⟨⟨resting.stage, resting.notes⟩, rfl⟩
    exact hstopped.run (fun h => by cases h) hstart hpoll

end KeepalivePace

end SplitEsb
