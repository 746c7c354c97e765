import SplitEsb.Hop.Retained
import SplitEsb.Hop.Sweep

/-! # The channel last acknowledged
The tick retains the link when the window before it was acknowledged, after it may have
moved to another channel. The record is compared with the channel of the last ACK. -/

namespace SplitEsb

open Transition

variable {config : HopConfig}

/-- The engine, the index it was set to at the last success of a transmit that asked for
an ACK, whether it moved since, and the index of that ACK as of the last write of the
record. -/
structure AckedRecord (config : HopConfig) where
  tick : UplinkTick config
  ackedOn : Option ℕ
  moved : Bool
  writtenOn : Option ℕ

/-- A step of the engine or the radio, or a reset that only the record survives. -/
inductive RecordAction where
  | uplink (action : UplinkAction)
  | reset
  deriving DecidableEq, Repr

def TickStage.windowKind : TickStage → Option WindowKind
  | .window kind | .worstTaken kind _ | .sumTaken kind .. | .packetsTaken kind .. => some kind
  | _ => none

namespace UplinkTick

/-- A transmit that asked for an ACK succeeds. -/
def acks (state : UplinkTick config) : UplinkAction → Bool
  | .succeed _ => state.txFifo.head? = some true
  | _ => false

/-- The tick writes the record. -/
def writes (state : UplinkTick config) : UplinkAction → Bool
  | .work =>
      match state.stage with
      | .packetsTaken .. => state.peripheral.linkAcked
      | _ => false
  | _ => false

/-- The window that ends was a connected one, and its penalty reaches the threshold. -/
def degrades (state : UplinkTick config) : Bool :=
  match state.stage with
  | .packetsTaken .connected _ sum packets .. =>
      (hopPolicyShouldHop state.peripheral.badWindows
        (HopPeripheral.windowPenalty sum packets state.peripheral.windowNoackPackets)
        config.hopThreshold).2
  | _ => false

end UplinkTick

namespace AckedRecord

def boot (retained : HopRetained config) : AckedRecord config :=
  ⟨.boot retained, none, false, none⟩

/-- The next state of the engine, with the channel it leaves behind, if any. -/
def movesTo (state : AckedRecord config) (tick : UplinkTick config) : AckedRecord config :=
  { state with
    tick := tick
    moved := state.moved || decide (tick.peripheral.hopIndex ≠ state.tick.peripheral.hopIndex) }

def step (state : AckedRecord config) : RecordAction → AckedRecord config
  | .uplink action =>
      let next := state.movesTo (state.tick.step action)
      { next with
        ackedOn :=
          if state.tick.acks action then some state.tick.peripheral.hopIndex else state.ackedOn
        moved := !state.tick.acks action && next.moved
        writtenOn := if state.tick.writes action then state.ackedOn else state.writtenOn }
  | .reset => state.movesTo (.boot state.tick.peripheral.retainedLink)

/-- A valid record names the channel of the last ACK as of its last write. -/
def NamesAcked (state : AckedRecord config) : Prop :=
  let retained := state.tick.peripheral.retainedLink
  retained.Valid → state.writtenOn = some retained.hopIndex.toNat

/-- A tick that writes the record comes after an ACK, and the channel moved neither since
that ACK nor by the degrade step of the window that ends. -/
def Unmoved (state : AckedRecord config) : RecordAction → Prop
  | .uplink action => state.tick.writes action = true →
      state.ackedOn ≠ none ∧ state.moved = false ∧ state.tick.degrades = false
  | .reset => True

instance (state : AckedRecord config) : DecidablePred state.Unmoved
  | .uplink action => inferInstanceAs (Decidable (state.tick.writes action = true →
      ¬state.ackedOn = none ∧ state.moved = false ∧ state.tick.degrades = false))
  | .reset => inferInstanceAs (Decidable True)

end AckedRecord

/-! ## What a step keeps of the link -/

/-- Neither the channel nor the verdict or the record is touched. -/
structure KeepsLink (peripheral peripheral' : HopPeripheral config) : Prop where
  hopIndex : peripheral'.hopIndex = peripheral.hopIndex
  linkAcked : peripheral'.linkAcked = peripheral.linkAcked
  retainedLink : peripheral'.retainedLink = peripheral.retainedLink

namespace KeepsLink

theorem refl (peripheral : HopPeripheral config) : KeepsLink peripheral peripheral :=
  ⟨rfl, rfl, rfl⟩

theorem hopConsumeRx (pipe : ℕ) (peripheral : HopPeripheral config) (data : ByteString.Bytes) :
    KeepsLink peripheral (peripheral.hopConsumeRx pipe data) := by
  simp only [HopPeripheral.hopConsumeRx, HopPeripheral.consumeBeacon,
    HopPeripheral.consumeMaskUpdate]
  split_ifs <;> exact ⟨rfl, rfl, rfl⟩

theorem succeed (state : UplinkTick config) (attempts : UInt8) :
    KeepsLink state.peripheral (state.succeed attempts).peripheral := by
  rw [UplinkTick.succeed]
  split
  · exact refl _
  · simp only [HopPeripheral.hopNoteTxSuccess]
    split_ifs <;> exact ⟨rfl, rfl, rfl⟩

theorem fail (state : UplinkTick config) (retry : Bool) :
    KeepsLink state.peripheral (state.fail retry).peripheral := by
  rw [UplinkTick.fail]
  split
  · simp only [HopPeripheral.hopNoteTxFailed]
    split <;> exact ⟨rfl, rfl, rfl⟩
  · exact refl _

theorem noteFlag (state : UplinkTick config) :
    KeepsLink state.peripheral state.noteFlag.peripheral := by
  rw [UplinkTick.noteFlag]
  split <;> exact ⟨rfl, rfl, rfl⟩

theorem noteCount (state : UplinkTick config) :
    KeepsLink state.peripheral state.noteCount.peripheral := by
  rw [UplinkTick.noteCount]
  split_ifs <;> exact ⟨rfl, rfl, rfl⟩

end KeepsLink

/-! ## The open window -/

/-- A lost window found the link down. -/
structure WindowSound (state : UplinkTick config) : Prop where
  walk : state.sweepState.Sound config.hopCount config.sweepDwell
  lost : state.stage.windowKind = some .lost → state.peripheral.linkAcked = false

namespace WindowSound

open UplinkTick AckedRecord

variable {state : UplinkTick config}

theorem boot (retained : HopRetained config) : WindowSound (UplinkTick.boot retained) :=
  ⟨boot_sound retained, nofun⟩

theorem of_keeps (h : WindowSound state) {after : UplinkTick config}
    (hwalk : after.sweepState.Sound config.hopCount config.sweepDwell)
    (hkeeps : KeepsLink state.peripheral after.peripheral)
    (hstage : ∀ kind, after.stage.windowKind = some kind → state.stage.windowKind = some kind) :
    WindowSound after := by
  refine ⟨hwalk, fun hkind => ?_⟩
  rw [hkeeps.linkAcked]
  exact h.lost (hstage _ hkind)

theorem chooseWindow (hwalk : state.chooseWindow.sweepState.Sound config.hopCount config.sweepDwell) :
    WindowSound state.chooseWindow := by
  refine ⟨hwalk, ?_⟩
  rw [UplinkTick.chooseWindow]
  split_ifs with hepoch hacked
  · intro hkind
    cases hkind
  · intro hkind
    cases hkind
  · intro _
    exact Bool.eq_false_of_not_eq_true hacked

theorem work (h : WindowSound state)
    (hwalk : state.work.sweepState.Sound config.hopCount config.sweepDwell) :
    WindowSound state.work := by
  have hclosed {after : UplinkTick config} (hnone : after.stage.windowKind = none)
      (hwalk : after.sweepState.Sound config.hopCount config.sweepDwell) : WindowSound after :=
    ⟨hwalk, by simp [hnone]⟩
  rw [UplinkTick.work] at hwalk ⊢
  cases hstage : state.stage with
  | settled =>
      rw [hstage] at hwalk
      dsimp only at hwalk ⊢
      split_ifs at hwalk ⊢
      · exact hclosed rfl hwalk
      · exact chooseWindow hwalk
  | packetsTaken kind worst sum packets completed retried counted =>
      rw [hstage] at hwalk
      refine hclosed ?_ hwalk
      rw [(endWindow_flags state kind worst sum packets).2.2.2.2]
      rfl
  | idle | start | failedTaken | succeededTaken =>
      rw [hstage] at hwalk
      exact hclosed (by first | rfl | (rw [hstage]; rfl)) hwalk
  | window | worstTaken | sumTaken =>
      rw [hstage] at hwalk
      exact h.of_keeps hwalk ⟨rfl, rfl, rfl⟩ (by rw [hstage]; exact fun _ => id)

theorem step (h : WindowSound state) (action : UplinkAction) :
    WindowSound (state.step action) := by
  have hwalk := (step_event h.walk action).sound h.walk
  have hkeeps {after : UplinkTick config} (hafter : state.step action = after)
      (hlink : KeepsLink state.peripheral after.peripheral) (hstage : after.stage = state.stage) :
      WindowSound (state.step action) := by
    rw [hafter] at hwalk ⊢
    exact h.of_keeps hwalk hlink (by rw [hstage]; exact fun _ => id)
  cases action with
  | submit ack => exact hkeeps rfl (.refl _) rfl
  | noteFlag => exact hkeeps rfl (.noteFlag state) (noteFlag_keeps state).2.2.2.2
  | noteCount => exact hkeeps rfl (.noteCount state) (noteCount_keeps state).2.2.2.2
  | succeed attempts => exact hkeeps rfl (.succeed state attempts) (succeed_keeps state attempts).1
  | fail retry => exact hkeeps rfl (.fail state retry) (fail_keeps state retry).1
  | flush => exact hkeeps rfl (.refl _) rfl
  | receive pipe data => exact hkeeps rfl (.hopConsumeRx pipe state.peripheral data) rfl
  | tick =>
      rw [UplinkTick.step] at hwalk ⊢
      split_ifs at hwalk ⊢
      · refine ⟨hwalk, fun hkind => ?_⟩
        cases hkind
      · exact h
  | work => exact h.work hwalk

end WindowSound

/-! ## The record -/

namespace UplinkTick

variable {state : UplinkTick config}

/-- A record just written is valid and names the channel of the engine. -/
theorem retainLinkState_record (peripheral : HopPeripheral config)
    (hlt : peripheral.hopIndex < config.hopCount) :
    peripheral.retainLinkState.retainedLink.Valid ∧
      peripheral.retainLinkState.retainedLink.hopIndex.toNat = peripheral.hopIndex := by
  have hindex : (UInt8.ofNat peripheral.hopIndex).toNat = peripheral.hopIndex :=
    UInt8.toNat_ofNat_of_lt' (Nat.lt_trans hlt (Nat.lt_trans config.hopChannels_lt (by decide)))
  exact ⟨⟨rfl, rfl, hindex.symm ▸ hlt⟩, hindex⟩

theorem gradeWindow_record (peripheral : HopPeripheral config) (worst : UInt8)
    (sum packets noack : UInt32) :
    (peripheral.gradeWindow worst sum packets noack).linkAcked = peripheral.linkAcked ∧
      (peripheral.gradeWindow worst sum packets noack).retainedLink = peripheral.retainedLink := by
  simp only [HopPeripheral.gradeWindow]
  split_ifs <;> exact ⟨rfl, rfl⟩

theorem lostWindowEnd_record (peripheral : HopPeripheral config) :
    peripheral.lostWindowEnd.linkAcked = peripheral.linkAcked ∧
      peripheral.lostWindowEnd.retainedLink = peripheral.retainedLink := by
  simp only [HopPeripheral.lostWindowEnd]
  split_ifs <;> exact ⟨rfl, rfl⟩

/-- A window with no degrade step stays on its channel. -/
theorem gradeWindow_hopIndex {peripheral : HopPeripheral config} (worst : UInt8)
    {sum packets : UInt32} (hstays : (hopPolicyShouldHop peripheral.badWindows
      (HopPeripheral.windowPenalty sum packets peripheral.windowNoackPackets)
      config.hopThreshold).2 = false) :
    ({ peripheral with windowNoackPackets := 0 }.gradeWindow worst sum packets
      peripheral.windowNoackPackets).hopIndex = peripheral.hopIndex := by
  simp only [HopPeripheral.gradeWindow, hstays, Bool.false_eq_true, if_false]

/-- The end of a window with no degrade step writes the record of the channel it is on, or
leaves the record alone. -/
theorem endWindow_record (h : WindowSound state) {kind : WindowKind} {worst : UInt8}
    {sum packets : UInt32} {completed retried counted : ℕ}
    (hstage : state.stage = .packetsTaken kind worst sum packets completed retried counted) :
    if state.peripheral.linkAcked then
      state.degrades = false → state.work.peripheral.retainedLink.Valid ∧
        state.work.peripheral.retainedLink.hopIndex.toNat = state.peripheral.hopIndex
    else state.work.peripheral.retainedLink = state.peripheral.retainedLink := by
  have hplace : state.peripheral.hopIndex < config.hopCount := h.walk.sound.place_lt
  have hwork : state.work = state.endWindow kind worst sum packets := by rw [work, hstage]
  rw [hwork, degrades, hstage]
  cases kind with
  | adopt =>
      rw [endWindow, (retain_spec _).1]
      dsimp only
      split_ifs
      · exact fun _ => retainLinkState_record _ hplace
      · rfl
  | connected =>
      obtain ⟨hacked, hrecord⟩ := gradeWindow_record { state.peripheral with windowNoackPackets := 0 }
        worst sum packets state.peripheral.windowNoackPackets
      rw [endWindow, (retain_spec _).1]
      dsimp only at hacked ⊢
      rw [hacked]
      split_ifs
      · intro hstays
        have hsame := gradeWindow_hopIndex worst hstays
        obtain ⟨hvalid, hindex⟩ := retainLinkState_record _ (hsame.trans_lt hplace)
        exact ⟨hvalid, hindex.trans hsame⟩
      · exact hrecord
  | lost =>
      obtain ⟨hacked, hrecord⟩ := lostWindowEnd_record
        { state.peripheral with windowNoackPackets := 0 }
      have hdown := h.lost (by rw [hstage]; rfl)
      rw [endWindow, (retain_spec _).1]
      dsimp only at hacked ⊢
      rw [hacked]
      split_ifs with hup
      · exact absurd hup (by simp [hdown])
      · exact hrecord

theorem chooseWindow_record (state : UplinkTick config) :
    state.chooseWindow.peripheral.retainedLink = state.peripheral.retainedLink := by
  have hensure : state.peripheral.ensureMask.retainedLink = state.peripheral.retainedLink := by
    rw [HopPeripheral.ensureMask]
    split <;> rfl
  rw [chooseWindow]
  split_ifs
  · simp only [HopPeripheral.adoptEpochStart, HopPeripheral.adoptStagedMask]
    split <;> exact hensure
  · exact hensure
  · exact hensure

/-- A step that does not write leaves the record alone. -/
theorem step_record (h : WindowSound state) {action : UplinkAction}
    (hwrites : state.writes action = false) :
    (state.step action).peripheral.retainedLink = state.peripheral.retainedLink := by
  cases action with
  | submit | flush => rfl
  | noteFlag => exact (KeepsLink.noteFlag state).retainedLink
  | noteCount => exact (KeepsLink.noteCount state).retainedLink
  | succeed attempts => exact (KeepsLink.succeed state attempts).retainedLink
  | fail retry => exact (KeepsLink.fail state retry).retainedLink
  | receive pipe data => exact (KeepsLink.hopConsumeRx pipe state.peripheral data).retainedLink
  | tick =>
      rw [step]
      split_ifs <;> rfl
  | work =>
      rw [step]
      cases hstage : state.stage with
      | packetsTaken kind worst sum packets completed retried counted =>
          have hrecord := endWindow_record h hstage
          have hdown : state.peripheral.linkAcked = false := by
            rw [writes, hstage] at hwrites
            exact hwrites
          rwa [hdown, if_neg Bool.false_ne_true] at hrecord
      | settled =>
          rw [work, hstage]
          dsimp only
          split_ifs
          · rfl
          · exact chooseWindow_record state
      | succeededTaken =>
          rw [work, hstage]
          rfl
      | idle | start | failedTaken | window | worstTaken | sumTaken => rw [work, hstage]

theorem boot_record (retained : HopRetained config) :
    (boot retained).peripheral.retainedLink = retained := by
  simp only [boot, HopPeripheral.boot, HopPeripheral.hopRestore, HopPeripheral.ensureMask]
  split_ifs <;> rfl

end UplinkTick

namespace AckedRecord

open UplinkTick

variable {state : AckedRecord config}

/-- Until it moves the engine is on the channel of the last ACK. -/
def StaysAcked (state : AckedRecord config) : Prop :=
  state.moved = false → ∀ index ∈ state.ackedOn, index = state.tick.peripheral.hopIndex

theorem StaysAcked.movesTo (h : state.StaysAcked) (tick : UplinkTick config) :
    (state.movesTo tick).StaysAcked := by
  intro hstays index hindex
  obtain ⟨hbefore, hsame⟩ := Bool.or_eq_false_iff.mp hstays
  exact (h hbefore index hindex).trans (not_not.mp (decide_eq_false_iff_not.mp hsame)).symm

theorem StaysAcked.step (h : state.StaysAcked) (action : RecordAction) :
    (state.step action).StaysAcked := by
  cases action with
  | reset => exact h.movesTo _
  | uplink action =>
      cases hacks : state.tick.acks action with
      | false =>
          have hmoves := h.movesTo (state.tick.step action)
          simpa [AckedRecord.step, AckedRecord.movesTo, StaysAcked, hacks] using hmoves
      | true =>
          intro _ index hindex
          cases action with
          | succeed attempts =>
              have hkeeps : (state.tick.succeed attempts).peripheral.hopIndex =
                  state.tick.peripheral.hopIndex := (KeepsLink.succeed state.tick attempts).hopIndex
              simp only [AckedRecord.step, hacks, if_true, Option.mem_some_iff] at hindex
              exact hindex.symm.trans hkeeps.symm
          | _ => simp [acks] at hacks

theorem namesAcked_step (h : WindowSound state.tick) (hstays : state.StaysAcked)
    (hnames : state.NamesAcked) {action : RecordAction} (hunmoved : state.Unmoved action) :
    (state.step action).NamesAcked := by
  cases action with
  | reset =>
      rw [NamesAcked, step, movesTo]
      dsimp only
      rw [boot_record]
      exact hnames
  | uplink action =>
      cases hwrites : state.tick.writes action with
      | false =>
          rw [NamesAcked, step, movesTo]
          dsimp only
          rw [step_record h hwrites, hwrites]
          exact hnames
      | true =>
          obtain ⟨hacked, hbefore, hsame⟩ := hunmoved hwrites
          obtain ⟨index, hindex⟩ := Option.ne_none_iff_exists'.mp hacked
          cases action with
          | work =>
              obtain ⟨kind, worst, sum, packets, completed, retried, counted, hstage⟩ :
                  ∃ kind worst sum packets completed retried counted,
                    state.tick.stage = .packetsTaken kind worst sum packets completed retried
                      counted := by
                cases hstage : state.tick.stage <;> simp [writes, hstage] at hwrites ⊢
              have hup : state.tick.peripheral.linkAcked = true := by
                rwa [writes, hstage] at hwrites
              have hrecord := endWindow_record h hstage
              rw [hup, if_pos rfl] at hrecord
              obtain ⟨-, hon⟩ := hrecord hsame
              rw [NamesAcked, step, movesTo]
              dsimp only
              rw [hwrites, if_pos rfl, hindex]
              intro _
              exact congrArg some ((hstays hbefore index hindex).trans hon.symm)
          | _ => simp [writes] at hwrites

/-- From a record that a power-on left invalid, through resets, the record names the
channel last acknowledged where the channel did not move between that ACK and its write. -/
theorem names_acked_unmoved (config : HopConfig) (retained : HopRetained config)
    (hcold : ¬ retained.Valid) {actions : List RecordAction}
    (hunmoved : Along step Unmoved (boot retained) actions) :
    (run step (boot retained) actions).NamesAcked := by
  have hboot : (boot retained).NamesAcked := by
    intro hvalid
    exact absurd (boot_record retained ▸ hvalid) hcold
  have hsound (state : AckedRecord config) (action : RecordAction) (h : WindowSound state.tick) :
      WindowSound (state.step action).tick := by
    cases action with
    | uplink action => exact h.step action
    | reset => exact .boot _
  have hstart : WindowSound (boot retained).tick ∧ (boot retained).StaysAcked ∧
      (boot retained).NamesAcked :=
    ⟨.boot retained, fun _ _ hindex => (by cases hindex), hboot⟩
  have hrun := @run_invariant_along _ _ (@step config)
    (fun state => WindowSound state.tick ∧ state.StaysAcked ∧ state.NamesAcked) Unmoved
    (fun state action h haction => ⟨hsound state action h.1, h.2.1.step action,
      namesAcked_step h.1 h.2.1 h.2.2 haction⟩) _ hstart actions hunmoved
  exact hrun.2.2

/-- Cold memory holds no record. -/
theorem coldRetained_invalid : ¬ coldRetained.Valid := by decide

/-- A packet with ACK at the first attempt, then a tick. -/
def ackedTick : List RecordAction :=
  ([UplinkAction.submit true, .succeed 1] ++ wholeTick).map .uplink

theorem names_acked_unmoved_sample :
    let state := run step (boot (coldRetained : HopRetained sampleHopConfig)) ackedTick
    state.tick.peripheral.retainedLink.Valid ∧ state.NamesAcked := by
  have hnames := names_acked_unmoved sampleHopConfig coldRetained coldRetained_invalid
    (show Along step Unmoved (boot coldRetained) ackedTick by decide +kernel)
  exact ⟨by decide +kernel, hnames⟩

/-- Six packets of sixteen attempts each, with a tick after every one. -/
def retriedTicks : List RecordAction :=
  (List.replicate 6 ([UplinkAction.submit true, .succeed 16] ++ wholeTick)).flatten.map .uplink

/-- The sixth tick takes the degrade step and retains the channel it moved to, on which
nothing was sent yet. -/
theorem retains_degraded_channel : ¬ ∀ (config : HopConfig) (retained : HopRetained config)
    (actions : List RecordAction), ¬ retained.Valid →
      (run step (boot retained) actions).NamesAcked := by
  intro h
  have hnames := h sampleHopConfig coldRetained retriedTicks coldRetained_invalid
  exact absurd (hnames (by decide +kernel)) (by decide +kernel)

end AckedRecord

end SplitEsb
