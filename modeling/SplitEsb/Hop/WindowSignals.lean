import Mathlib.Data.List.GetD
import SplitEsb.Hop.Tuning
import SplitEsb.Link.Receive
import SplitEsb.Shared.Gathered

/-! # The signals of a decision window
The radio interrupt sets a pipe's bits in three masks, which the decision work takes one
after the other. A packet can land between two of them. -/

namespace SplitEsb

open ByteString Gathered Transition

/-! ## The radio's side -/

def hopPolicyKeepaliveIsActive (byte : UInt8) : Bool := byte == esbKeepaliveActive

def hopPolicyRssiToDbm (rssiMagnitude : Int8) : Int8 := -rssiMagnitude

/-- `atomic_or` of `BIT(pipe)`. -/
def orPipe (mask : UInt32) (pipe : ℕ) : UInt32 := mask ||| 1 <<< UInt32.ofNat pipe

structure PipeSignals where
  pipeRssiDbm : ℕ → Int8
  pipeHeardMask : UInt32
  pipeMotionMask : UInt32
  pipeActiveMask : UInt32
  pipeLastHeardMs : ℕ → UInt32
  pipeEverHeard : ℕ → Bool

/-- Neither a keepalive nor a relay poll. -/
def EsbPayload.isData (payload : EsbPayload) : Bool :=
  !esbKeepaliveMatches payload.data (UInt8.ofNat payload.data.length) &&
    !esbIsRelayPoll payload.data

/-- Data, or a keepalive whose sender is at work. -/
def EsbPayload.isActive (payload : EsbPayload) : Bool :=
  if esbIsRelayPoll payload.data then false
  else if esbKeepaliveMatches payload.data (UInt8.ofNat payload.data.length) then
    hopPolicyKeepaliveIsActive (esbKeepaliveState payload.data)
  else true

namespace PipeSignals

def zero : PipeSignals := ⟨fun _ => 0, 0, 0, 0, fun _ => 0, fun _ => false⟩

/-- `hop_consume_rx` of the central, and whether it keeps the payload. -/
def hopConsumeRx (config : HopConfig) (uptimeMs : UInt32) (signals : PipeSignals)
    (payload : EsbPayload) : Bool × PipeSignals :=
  if config.peripheralCount ≤ payload.pipe then (false, signals)
  else
    let keepalive := esbKeepaliveMatches payload.data (UInt8.ofNat payload.data.length)
    let poll := esbIsRelayPoll payload.data
    let signals :=
      if !keepalive && !poll then
        { signals with
          pipeRssiDbm :=
            Function.update signals.pipeRssiDbm payload.pipe (hopPolicyRssiToDbm payload.rssi) }
      else signals
    let signals := { signals with
      pipeHeardMask := orPipe signals.pipeHeardMask payload.pipe
      pipeLastHeardMs := Function.update signals.pipeLastHeardMs payload.pipe uptimeMs
      pipeEverHeard := Function.update signals.pipeEverHeard payload.pipe true }
    if poll then (true, signals)
    else if config.hopCount ≤ 1 then (false, signals)
    else if keepalive then
      if hopPolicyKeepaliveIsActive (esbKeepaliveState payload.data) then
        (false, { signals with pipeActiveMask := orPipe signals.pipeActiveMask payload.pipe })
      else (false, signals)
    else
      (false, { signals with
        pipeActiveMask := orPipe signals.pipeActiveMask payload.pipe
        pipeMotionMask := orPipe signals.pipeMotionMask payload.pipe })

end PipeSignals

/-! ## The decision work -/

/-- Where `decision_work_fn` stands, with the values it read so far. -/
inductive DecisionStage where
  | idle
  | heardTaken (heard : UInt32)
  | motionTaken (heard motion : UInt32)
  | snapshot (heard motion active : UInt32) (rssi : List Int8)

/-- A reception, with how often each mask had been taken when it arrived. -/
structure Reception where
  payload : EsbPayload
  heardWindow : ℕ
  motionWindow : ℕ
  activeWindow : ℕ

/-- The engine between the interrupt and the decision work. `windows` records what each
run of the work read, `log` the receptions. -/
structure HopListening (config : HopConfig) where
  signals : PipeSignals
  central : HopCentral config
  stage : DecisionStage
  windows : List HopWindow
  log : List Reception

inductive ListenAction where
  | received (uptimeMs : UInt32) (payload : EsbPayload)
  /-- A step of the decision work. Its last step reads all but the masks and the signals
  from `rest`. -/
  | work (rest : HopWindow)

variable {config : HopConfig}

namespace HopListening

def boot (central : HopCentral config) : HopListening config :=
  ⟨.zero, central, .idle, [], []⟩

/-! What each mask was taken as so far, the window in progress included. -/

def heardTaken (listening : HopListening config) : List UInt32 :=
  listening.windows.map HopWindow.heard ++
    match listening.stage with
    | .idle => []
    | .heardTaken heard => [heard]
    | .motionTaken heard _ => [heard]
    | .snapshot heard _ _ _ => [heard]

def motionTaken (listening : HopListening config) : List UInt32 :=
  listening.windows.map HopWindow.motion ++
    match listening.stage with
    | .idle => []
    | .heardTaken _ => []
    | .motionTaken _ motion => [motion]
    | .snapshot _ motion _ _ => [motion]

def activeTaken (listening : HopListening config) : List UInt32 :=
  listening.windows.map HopWindow.active ++
    match listening.stage with
    | .snapshot _ _ active _ => [active]
    | _ => []

def onReceived (listening : HopListening config) (uptimeMs : UInt32) (payload : EsbPayload) :
    HopListening config :=
  let (_, signals) := listening.signals.hopConsumeRx config uptimeMs payload
  { listening with
    signals := signals
    log :=
      if config.peripheralCount ≤ payload.pipe then listening.log
      else listening.log ++ [{
        payload := payload
        heardWindow := listening.heardTaken.length
        motionWindow := listening.motionTaken.length
        activeWindow := listening.activeTaken.length }] }

/-- The work acts on the window it read. -/
def conclude (listening : HopListening config) (window : HopWindow) : HopListening config :=
  { listening with
    central := (listening.central.decisionWork window).1
    stage := .idle
    windows := listening.windows ++ [window] }

def work (listening : HopListening config) (rest : HopWindow) : HopListening config :=
  match listening.stage with
  | .idle =>
      let heard := listening.signals.pipeHeardMask
      let listening := { listening with
        signals := { listening.signals with pipeHeardMask := 0 } }
      if config.hopCount ≤ 1 then
        listening.conclude { rest with heard := heard, motion := 0, active := 0 }
      else { listening with stage := .heardTaken heard }
  | .heardTaken heard =>
      { listening with
        signals := { listening.signals with pipeMotionMask := 0 }
        stage := .motionTaken heard listening.signals.pipeMotionMask }
  | .motionTaken heard motion =>
      { listening with
        signals := { listening.signals with pipeActiveMask := 0 }
        stage := .snapshot heard motion listening.signals.pipeActiveMask [] }
  | .snapshot heard motion active rssi =>
      if rssi.length < config.peripheralCount then
        { listening with
          stage := .snapshot heard motion active
            (rssi ++ [listening.signals.pipeRssiDbm rssi.length]) }
      else
        listening.conclude { rest with
          heard := heard, motion := motion, active := active
          rssiDbm := fun pipe => rssi.getD pipe 0 }

def step (listening : HopListening config) : ListenAction → HopListening config
  | .received uptimeMs payload => listening.onReceived uptimeMs payload
  | .work rest => listening.work rest

/-! ## Invariant -/

/-- The signal `dbm` came with data of the pipe, no older than any data of the period. -/
def Shows (log : List Reception) (pipe period : ℕ) (dbm : Int8) : Prop :=
  ∀ reception ∈ log, reception.payload.isData = true → reception.payload.pipe = pipe →
    reception.motionWindow ≤ period →
      ∃ latest ∈ log, latest.payload.isData = true ∧ latest.payload.pipe = pipe ∧
        reception.motionWindow ≤ latest.motionWindow ∧
        dbm = hopPolicyRssiToDbm latest.payload.rssi

/-- The pipes that set a bit, each with the window it set it in. -/
def entries (counts : EsbPayload → Bool) (window : Reception → ℕ) (log : List Reception) :
    List (ℕ × ℕ) :=
  (log.filter fun reception => counts reception.payload).map fun reception =>
    (window reception, reception.payload.pipe)

structure Holds (listening : HopListening config) : Prop where
  heard : Gathers orPipe 0 listening.signals.pipeHeardMask listening.heardTaken
    (entries (fun _ => true) Reception.heardWindow listening.log)
  motion : Gathers orPipe 0 listening.signals.pipeMotionMask listening.motionTaken
    (entries EsbPayload.isData Reception.motionWindow listening.log)
  active : Gathers orPipe 0 listening.signals.pipeActiveMask listening.activeTaken
    (entries EsbPayload.isActive Reception.activeWindow listening.log)
  pipes : ∀ reception ∈ listening.log, reception.payload.pipe < config.peripheralCount
  order : ∀ reception ∈ listening.log, reception.activeWindow ≤ reception.motionWindow ∧
    reception.motionWindow ≤ reception.heardWindow ∧
    reception.heardWindow ≤ reception.activeWindow + 1
  past : ∀ reception ∈ listening.log, reception.motionWindow ≤ listening.motionTaken.length
  rssi : ∀ pipe, Shows listening.log pipe listening.motionTaken.length
    (listening.signals.pipeRssiDbm pipe)
  snapshot : ∀ heard motion active rssi, listening.stage = .snapshot heard motion active rssi →
    rssi.length ≤ config.peripheralCount ∧
      ∀ pipe < rssi.length, Shows listening.log pipe listening.windows.length (rssi.getD pipe 0)
  windows : ∀ (period : ℕ) window, listening.windows[period]? = some window →
    ∀ pipe < config.peripheralCount, Shows listening.log pipe period (window.rssiDbm pipe)

variable {listening : HopListening config}

theorem Shows.mono {log : List Reception} {pipe period earlier : ℕ} {dbm : Int8}
    (h : Shows log pipe period dbm) (hle : earlier ≤ period) : Shows log pipe earlier dbm :=
  fun reception hmem hdata hpipe hperiod =>
    h reception hmem hdata hpipe (hperiod.trans hle)

/-- A later reception leaves what was shown of a period. -/
theorem Shows.concat {log : List Reception} {pipe period : ℕ} {dbm : Int8}
    (h : Shows log pipe period dbm) {arrival : Reception}
    (hlater : arrival.payload.isData = true → arrival.payload.pipe = pipe →
      period < arrival.motionWindow) : Shows (log ++ [arrival]) pipe period dbm := by
  intro reception hmem hdata hpipe hperiod
  rcases List.mem_append.mp hmem with hmem | hmem
  · obtain ⟨latest, hlatest, hrest⟩ := h reception hmem hdata hpipe hperiod
    exact ⟨latest, List.mem_append_left _ hlatest, hrest⟩
  · rw [List.mem_singleton.mp hmem] at hdata hpipe hperiod
    exact absurd hperiod (Nat.not_le.mpr (hlater hdata hpipe))

/-- Data that arrives brings the signal shown from then on. -/
theorem shows_concat_self {log : List Reception} {arrival : Reception}
    (hdata : arrival.payload.isData = true)
    (hpast : ∀ reception ∈ log, reception.motionWindow ≤ arrival.motionWindow) (period : ℕ) :
    Shows (log ++ [arrival]) arrival.payload.pipe period
      (hopPolicyRssiToDbm arrival.payload.rssi) := by
  intro reception hmem _ _ _
  refine ⟨arrival, List.mem_concat_self, hdata, rfl, ?_, rfl⟩
  rcases List.mem_append.mp hmem with hmem | hmem
  · exact hpast reception hmem
  · rw [List.mem_singleton.mp hmem]

theorem gathers_concat {word : UInt32} {taken : List UInt32} {counts : EsbPayload → Bool}
    {window : Reception → ℕ} {log : List Reception}
    (h : Gathers orPipe 0 word taken (entries counts window log)) {arrival : Reception}
    (hnow : window arrival = taken.length) :
    Gathers orPipe 0 (if counts arrival.payload then orPipe word arrival.payload.pipe else word)
      taken (entries counts window (log ++ [arrival])) := by
  rw [entries, List.filter_append, List.map_append]
  cases hcounts : counts arrival.payload with
  | true =>
      have hput := h.put arrival.payload.pipe
      rw [← hnow] at hput
      simpa [entries, hcounts] using hput
  | false => simpa [entries, hcounts] using h

/-- What `hop_consume_rx` leaves in the masks for a pipe of the central's. -/
theorem hopConsumeRx_signals (hcount : 1 < config.hopCount) (uptimeMs : UInt32)
    (signals : PipeSignals) {payload : EsbPayload} (hpipe : payload.pipe < config.peripheralCount) :
    let after := (signals.hopConsumeRx config uptimeMs payload).2
    after.pipeHeardMask = orPipe signals.pipeHeardMask payload.pipe ∧
      after.pipeMotionMask =
        (if payload.isData then orPipe signals.pipeMotionMask payload.pipe
        else signals.pipeMotionMask) ∧
      after.pipeActiveMask =
        (if payload.isActive then orPipe signals.pipeActiveMask payload.pipe
        else signals.pipeActiveMask) ∧
      after.pipeRssiDbm =
        if payload.isData then
          Function.update signals.pipeRssiDbm payload.pipe (hopPolicyRssiToDbm payload.rssi)
        else signals.pipeRssiDbm := by
  rw [PipeSignals.hopConsumeRx, if_neg (Nat.not_le.mpr hpipe), EsbPayload.isData,
    EsbPayload.isActive]
  simp only [if_neg (Nat.not_le.mpr hcount)]
  cases esbIsRelayPoll payload.data <;>
    cases esbKeepaliveMatches payload.data (UInt8.ofNat payload.data.length) <;>
    cases hopPolicyKeepaliveIsActive (esbKeepaliveState payload.data) <;>
    exact ⟨rfl, rfl, rfl, rfl⟩

theorem Holds.boot (central : HopCentral config) : (boot central).Holds where
  heard := Gathers.start
  motion := Gathers.start
  active := Gathers.start
  pipes _ h := by cases h
  order _ h := by cases h
  past _ h := by cases h
  rssi _ _ h := by cases h
  snapshot _ _ _ _ h := by cases h
  windows _ _ h := by cases h

theorem length_taken (listening : HopListening config) :
    listening.activeTaken.length ≤ listening.motionTaken.length ∧
      listening.motionTaken.length ≤ listening.heardTaken.length ∧
      listening.heardTaken.length ≤ listening.activeTaken.length + 1 ∧
      listening.windows.length ≤ listening.activeTaken.length := by
  rw [heardTaken, motionTaken, activeTaken]
  cases listening.stage <;> simp

theorem Holds.onReceived (hcount : 1 < config.hopCount) (h : listening.Holds) (uptimeMs : UInt32)
    (payload : EsbPayload) : (listening.onReceived uptimeMs payload).Holds := by
  by_cases hpipe : payload.pipe < config.peripheralCount
  · obtain ⟨hheard, hmotion, hactive, hrssi⟩ :=
      hopConsumeRx_signals hcount uptimeMs listening.signals hpipe
    rw [HopListening.onReceived, if_neg (Nat.not_le.mpr hpipe)]
    generalize (listening.signals.hopConsumeRx config uptimeMs payload) = consumed at *
    obtain ⟨kept, signals⟩ := consumed
    dsimp only at hheard hmotion hactive hrssi ⊢
    obtain ⟨hle, hle', hle'', hwindows⟩ := length_taken listening
    have hpast : ∀ reception ∈ listening.log,
        reception.motionWindow ≤ listening.motionTaken.length := h.past
    set arrival : Reception := ⟨payload, listening.heardTaken.length,
      listening.motionTaken.length, listening.activeTaken.length⟩
    refine ⟨?_, ?_, ?_, ?_, ?_, ?_, ?_, ?_, ?_⟩
    · have hput := @gathers_concat _ _ _ Reception.heardWindow _ h.heard arrival rfl
      rw [if_pos rfl] at hput
      exact hheard.symm ▸ hput
    · rw [hmotion]
      exact @gathers_concat _ _ _ Reception.motionWindow _ h.motion arrival rfl
    · rw [hactive]
      exact @gathers_concat _ _ _ Reception.activeWindow _ h.active arrival rfl
    · exact List.forall_mem_append.mpr ⟨h.pipes, by simpa using hpipe⟩
    · exact List.forall_mem_append.mpr ⟨h.order, by simpa using ⟨hle, hle', hle''⟩⟩
    · exact List.forall_mem_append.mpr ⟨hpast, by simp; exact Nat.le_refl _⟩
    · intro pipe
      rw [hrssi]
      split_ifs with hdata
      · rcases eq_or_ne pipe payload.pipe with rfl | hne
        · rw [Function.update_self]
          exact @shows_concat_self _ arrival hdata hpast _
        · rw [Function.update_of_ne hne]
          exact (h.rssi pipe).concat fun _ hsame => absurd hsame.symm hne
      · exact (h.rssi pipe).concat fun hsame => absurd hsame hdata
    · intro heard motion active rssi hstage
      obtain ⟨hlength, hshows⟩ := h.snapshot heard motion active rssi hstage
      refine ⟨hlength, fun pipe hread => (hshows pipe hread).concat fun _ _ => ?_⟩
      change listening.windows.length < listening.motionTaken.length
      rw [motionTaken, hstage]
      simp
    · intro period window hwindow pipe hpipe
      refine (h.windows period window hwindow pipe hpipe).concat fun _ _ => ?_
      have hlt : period < listening.windows.length := (List.getElem?_eq_some_iff.mp hwindow).1
      change period < listening.motionTaken.length
      omega
  · rw [HopListening.onReceived, if_pos (Nat.le_of_not_lt hpipe), PipeSignals.hopConsumeRx,
      if_pos (Nat.le_of_not_lt hpipe)]
    exact h

theorem Holds.conclude (h : listening.Holds) {heard motion active : UInt32} {rssi : List Int8}
    (hstage : listening.stage = .snapshot heard motion active rssi)
    (hfull : ¬ rssi.length < config.peripheralCount) (rest : HopWindow) :
    (listening.conclude { rest with
      heard := heard, motion := motion, active := active
      rssiDbm := fun pipe => rssi.getD pipe 0 }).Holds := by
  obtain ⟨hlength, hshows⟩ := h.snapshot heard motion active rssi hstage
  have hheard := h.heard
  have hmotion := h.motion
  have hactive := h.active
  have hpast := h.past
  have hrssi := h.rssi
  rw [heardTaken, hstage] at hheard
  rw [motionTaken, hstage] at hmotion hpast hrssi
  rw [activeTaken, hstage] at hactive
  refine ⟨?_, ?_, ?_, h.pipes, h.order, ?_, ?_, ?_, ?_⟩
  · simpa [heardTaken, HopListening.conclude] using hheard
  · simpa [motionTaken, HopListening.conclude] using hmotion
  · simpa [activeTaken, HopListening.conclude] using hactive
  · simpa [motionTaken, HopListening.conclude] using hpast
  · simpa [motionTaken, HopListening.conclude] using hrssi
  · intro _ _ _ _ hidle
    cases hidle
  · intro period window hwindow pipe hpipe
    rcases Nat.lt_trichotomy period listening.windows.length with hlt | rfl | hgt
    · rw [HopListening.conclude] at hwindow
      dsimp only at hwindow
      rw [List.getElem?_append_left hlt] at hwindow
      exact h.windows period window hwindow pipe hpipe
    · rw [HopListening.conclude] at hwindow
      dsimp only at hwindow
      rw [List.getElem?_concat_length, Option.some.injEq] at hwindow
      rw [← hwindow]
      exact hshows pipe (by omega)
    · rw [HopListening.conclude, List.getElem?_eq_none
        (by rw [List.length_append, List.length_singleton]; omega)] at hwindow
      cases hwindow

theorem Holds.work (hcount : 1 < config.hopCount) (h : listening.Holds) (rest : HopWindow) :
    (listening.work rest).Holds := by
  have hheard := h.heard
  have hmotion := h.motion
  have hactive := h.active
  have hpast := h.past
  have hrssi := h.rssi
  rw [HopListening.work]
  cases hstage : listening.stage with
  | idle =>
      dsimp only
      rw [if_neg (Nat.not_le.mpr hcount)]
      rw [heardTaken, hstage, List.append_nil] at hheard
      rw [motionTaken, hstage] at hmotion hpast hrssi
      rw [activeTaken, hstage] at hactive
      exact ⟨hheard.take, hmotion, hactive, h.pipes, h.order, hpast, hrssi,
        (fun _ _ _ _ hother => by cases hother), h.windows⟩
  | heardTaken heard =>
      rw [heardTaken, hstage] at hheard
      rw [motionTaken, hstage, List.append_nil] at hmotion hpast
      rw [activeTaken, hstage] at hactive
      refine ⟨hheard, hmotion.take, hactive, h.pipes, h.order, ?_, ?_,
        (fun _ _ _ _ hother => by cases hother), h.windows⟩
      · intro reception hmem
        refine (hpast reception hmem).trans ?_
        simp [motionTaken]
      · intro pipe reception hmem hdata hpipe _
        exact hrssi pipe reception hmem hdata hpipe (h.past reception hmem)
  | motionTaken heard motion =>
      rw [heardTaken, hstage] at hheard
      rw [motionTaken, hstage] at hmotion hpast hrssi
      rw [activeTaken, hstage, List.append_nil] at hactive
      refine ⟨hheard, hmotion, hactive.take, h.pipes, h.order, hpast, hrssi, ?_, h.windows⟩
      rintro _ _ _ _ ⟨⟩
      exact ⟨Nat.zero_le _, fun pipe hread => absurd hread (Nat.not_lt_zero _)⟩
  | snapshot heard motion active rssi =>
      dsimp only
      split_ifs with hmore
      · obtain ⟨hlength, hshows⟩ := h.snapshot heard motion active rssi hstage
        rw [heardTaken, hstage] at hheard
        rw [motionTaken, hstage] at hmotion hpast
        rw [activeTaken, hstage] at hactive
        refine ⟨hheard, hmotion, hactive, h.pipes, h.order, hpast, ?_, ?_, h.windows⟩
        · rw [motionTaken, hstage] at hrssi
          exact hrssi
        · rintro _ _ _ _ ⟨⟩
          rw [List.length_append, List.length_singleton]
          refine ⟨hmore, fun pipe hread => ?_⟩
          rcases Nat.lt_or_ge pipe rssi.length with hlt | hge
          · rw [List.getD_append _ _ _ _ hlt]
            exact hshows pipe hlt
          · have hnow : pipe = rssi.length := by omega
            subst hnow
            rw [List.getD_append_right _ _ _ _ (Nat.le_refl _), Nat.sub_self]
            refine (hrssi rssi.length).mono ?_
            simp [motionTaken, hstage]
      · exact h.conclude hstage hmore rest

theorem Holds.step (hcount : 1 < config.hopCount) (h : listening.Holds) (action : ListenAction) :
    (listening.step action).Holds := by
  cases action with
  | received uptimeMs payload => exact h.onReceived hcount uptimeMs payload
  | work rest => exact h.work hcount rest

/-! ## What a window reads -/

/-- The bits of a pipe in a window, by the receptions that fell in its periods. A pipe
counts as lost, active without motion, only where none of its data came before the motion
was taken: what came between the two takes is the next window's motion. -/
structure Books (log : List Reception) (period : ℕ) (window : HopWindow) (pipe : ℕ) : Prop where
  heard : maskHasBit window.heard pipe = true ↔
    ∃ reception ∈ log, reception.payload.pipe = pipe ∧ reception.heardWindow = period
  motion : maskHasBit window.motion pipe = true ↔
    ∃ reception ∈ log, reception.payload.isData = true ∧ reception.payload.pipe = pipe ∧
      reception.motionWindow = period
  active : maskHasBit window.active pipe = true ↔
    ∃ reception ∈ log, reception.payload.isActive = true ∧ reception.payload.pipe = pipe ∧
      reception.activeWindow = period
  signal : maskHasBit window.motion pipe = true →
    ∃ reception ∈ log, reception.payload.isData = true ∧ reception.payload.pipe = pipe ∧
      period ≤ reception.motionWindow ∧
      window.rssiDbm pipe = hopPolicyRssiToDbm reception.payload.rssi
  lost : maskHasBit window.active pipe = true → maskHasBit window.motion pipe = false →
    ∀ reception ∈ log, reception.payload.isData = true → reception.payload.pipe = pipe →
      reception.activeWindow = period → reception.motionWindow = period + 1

theorem maskHasBit_zero (pipe : ℕ) : maskHasBit 0 pipe = false := by
  rw [maskHasBit, UInt32.zero_and]
  rfl

theorem pipeBit_ne_zero {pipe : ℕ} (hpipe : pipe < 8) :
    (1 : UInt32) <<< UInt32.ofNat pipe ≠ 0 := by
  have hall : ∀ pipe < 8, (1 : UInt32) <<< UInt32.ofNat pipe ≠ 0 := by decide
  exact hall pipe hpipe

theorem pipeBit_and_pipeBit {pipe other : ℕ} (hpipe : pipe < 8) (hother : other < 8)
    (hne : other ≠ pipe) :
    ((1 : UInt32) <<< UInt32.ofNat other) &&& (1 <<< UInt32.ofNat pipe) = 0 := by
  have hall : ∀ pipe < 8, ∀ other < 8, other ≠ pipe →
      ((1 : UInt32) <<< UInt32.ofNat other) &&& (1 <<< UInt32.ofNat pipe) = 0 := by decide
  exact hall pipe hpipe other hother hne

theorem maskHasBit_orPipe {pipe other : ℕ} (hpipe : pipe < 8) (hother : other < 8)
    (mask : UInt32) :
    maskHasBit (orPipe mask other) pipe = (maskHasBit mask pipe || decide (other = pipe)) := by
  have hdistrib (a b c : UInt32) : (a ||| b) &&& c = a &&& c ||| b &&& c := by
    refine UInt32.toBitVec_inj.mp (BitVec.eq_of_getLsbD_eq fun i _ => ?_)
    simp only [UInt32.toBitVec_and, UInt32.toBitVec_or, BitVec.getLsbD_and, BitVec.getLsbD_or,
      Bool.and_or_distrib_right]
  rw [Bool.eq_iff_iff, Bool.or_eq_true, decide_eq_true_iff, maskHasBit, maskHasBit, orPipe,
    hdistrib, bne_iff_ne, bne_iff_ne, Ne, UInt32.or_eq_zero_iff]
  rcases eq_or_ne other pipe with rfl | hne
  · rw [UInt32.and_self]
    exact iff_of_true (fun h => pipeBit_ne_zero hpipe h.2) (.inr rfl)
  · rw [pipeBit_and_pipeBit hpipe hother hne]
    simp [hne]

theorem peripheralCount_lt (config : HopConfig) : config.peripheralCount < 8 := by
  have hfits := config.beacon_fits
  rw [esbBeaconLength, esbLinkControlMaxLength] at hfits
  rw [HopConfig.peripheralCount]
  omega

theorem mem_entries {counts : EsbPayload → Bool} {window : Reception → ℕ} {log : List Reception}
    {entry : ℕ × ℕ} :
    entry ∈ entries counts window log ↔ ∃ reception ∈ log, counts reception.payload = true ∧
      (window reception, reception.payload.pipe) = entry := by
  simp [entries, and_assoc]

/-- A pipe's bit in what a period gathered. -/
theorem maskHasBit_gather {counts : EsbPayload → Bool} {window : Reception → ℕ}
    {log : List Reception}
    (hpipes : ∀ reception ∈ log, reception.payload.pipe < config.peripheralCount) {pipe : ℕ}
    (hpipe : pipe < config.peripheralCount) (period : ℕ) :
    maskHasBit (gather orPipe 0 period (entries counts window log)) pipe = true ↔
      ∃ reception ∈ log, counts reception.payload = true ∧ reception.payload.pipe = pipe ∧
        window reception = period := by
  have hjoin (word : UInt32) : ∀ entry ∈ entries counts window log,
      maskHasBit (orPipe word entry.2) pipe =
        (maskHasBit word pipe || decide (entry.2 = pipe)) := by
    intro entry hentry
    obtain ⟨reception, hmem, -, rfl⟩ := mem_entries.mp hentry
    exact maskHasBit_orPipe (hpipe.trans (peripheralCount_lt config))
      ((hpipes reception hmem).trans (peripheralCount_lt config)) word
  have hflag := @gather_flag _ _ orPipe 0 (entries counts window log) (maskHasBit · pipe)
    (fun other => decide (other = pipe)) (maskHasBit_zero pipe) hjoin period
  refine hflag.trans ?_
  simp only [mem_entries, decide_eq_true_iff]
  constructor
  · rintro ⟨_, ⟨reception, hmem, hcounts, rfl⟩, hperiod, hsame⟩
    exact ⟨reception, hmem, hcounts, hsame, hperiod⟩
  · rintro ⟨reception, hmem, hcounts, hsame, hperiod⟩
    exact ⟨_, ⟨reception, hmem, hcounts, rfl⟩, hperiod, hsame⟩

/-- The masks and signals the decision work reads, whatever lands between its steps. -/
theorem window_signals (config : HopConfig) (hcount : 1 < config.hopCount)
    (central : HopCentral config) (actions : List ListenAction) :
    let listening := run step (boot central) actions
    (∀ reception ∈ listening.log,
      reception.activeWindow ≤ reception.motionWindow ∧
        reception.motionWindow ≤ reception.heardWindow ∧
        reception.heardWindow ≤ reception.activeWindow + 1) ∧
      ∀ (period : ℕ) window, listening.windows[period]? = some window →
        ∀ pipe < config.peripheralCount, Books listening.log period window pipe := by
  intro listening
  have hholds : listening.Holds :=
    run_invariant (fun _ action h => h.step hcount action) (Holds.boot central) actions
  refine ⟨hholds.order, fun period window hwindow pipe hpipe => ?_⟩
  have hlt : period < listening.windows.length := (List.getElem?_eq_some_iff.mp hwindow).1
  have htaken {field : HopWindow → UInt32} {rest : List UInt32} :
      (listening.windows.map field ++ rest)[period]? = some (field window) := by
    rw [List.getElem?_append_left (by rw [List.length_map]; exact hlt), List.getElem?_map, hwindow]
    rfl
  have hheard := hholds.heard.earlier period _ htaken
  have hmotion := hholds.motion.earlier period _ htaken
  have hactive := hholds.active.earlier period _ htaken
  have hmotionBit : maskHasBit window.motion pipe = true ↔
      ∃ reception ∈ listening.log, reception.payload.isData = true ∧
        reception.payload.pipe = pipe ∧ reception.motionWindow = period := by
    rw [hmotion]
    exact maskHasBit_gather hholds.pipes hpipe period
  refine ⟨?_, hmotionBit, ?_, ?_, ?_⟩
  · rw [hheard, maskHasBit_gather hholds.pipes hpipe period]
    simp
  · rw [hactive]
    exact maskHasBit_gather hholds.pipes hpipe period
  · intro hbit
    obtain ⟨reception, hmem, hdata, hsame, hperiod⟩ := hmotionBit.mp hbit
    obtain ⟨latest, hlatest, hlatestData, hlatestPipe, hle, hrssi⟩ :=
      hholds.windows period window hwindow pipe hpipe reception hmem hdata hsame hperiod.le
    exact ⟨latest, hlatest, hlatestData, hlatestPipe, hperiod ▸ hle, hrssi⟩
  · intro _ hstill reception hmem hdata hsame hperiod
    obtain ⟨hle, hle', hle''⟩ := hholds.order reception hmem
    have hne : reception.motionWindow ≠ period := by
      intro hin
      have hbit := hmotionBit.mpr ⟨reception, hmem, hdata, hsame, hin⟩
      cases hstill.symm.trans hbit
    omega

/-- The packet lands between the takes of motion and of activity. -/
def tornWindow : List ListenAction :=
  [.work lostWindow, .work lostWindow, .received 0 ⟨0, false, 40, [1, 2, 3]⟩,
    .work lostWindow, .work lostWindow, .work lostWindow]

/-- It counts as lost in the first window. -/
theorem window_signals_sample :
    let listening :=
      run step (boot (HopCentral.boot sampleHopConfig none fun _ => -100)) tornWindow
    ∃ window, listening.windows[0]? = some window ∧ maskHasBit window.active 0 = true ∧
      maskHasBit window.motion 0 = false ∧ Books listening.log 0 window 0 := by
  intro listening
  have hbooks := (window_signals sampleHopConfig (by decide)
    (HopCentral.boot sampleHopConfig none fun _ => -100) tornWindow).2 0
  have hwindow : listening.windows[0]? = some { lostWindow with
      heard := 0, motion := 0, active := 1, rssiDbm := fun pipe => [-40].getD pipe 0 } := rfl
  refine ⟨_, hwindow, rfl, rfl, ?_⟩
  have hpipes := hbooks _ hwindow
  exact hpipes 0 (by decide)

end HopListening

end SplitEsb
