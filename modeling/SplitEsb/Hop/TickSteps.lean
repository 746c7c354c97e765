import SplitEsb.Hop.Peripheral
import SplitEsb.Shared.Transition

/-! # Keepalive tick, read by read
The tick takes flags and counters one after the other. Between any two of these reads
the radio interrupt completes packets, and a submission goes on. -/

namespace SplitEsb

open ByteString

variable {config : HopConfig}

namespace HopPeripheral

/-- What `settle_link_state` makes of the three flags. -/
def decideLink (failed succeeded noackSent linkAcked : Bool) : Bool :=
  let ackProven := succeeded && !noackSent
  if failed && !ackProven then false
  else if succeeded then true
  else linkAcked

/-- `adopt_epoch` up to the window counters. -/
def adoptEpochStart (peripheral : HopPeripheral config) (epoch : UInt8) : HopPeripheral config :=
  let peripheral := { peripheral with adoptedEpoch := epoch }.adoptStagedMask
  { peripheral with
    hopIndex :=
      hopPolicyChannelForEpochMasked epoch.toUInt16 peripheral.activeMask config.hopCount
    badWindows := 0
    sweepWindows := 0
    degradeUndoArmed := false
    attemptsEwmaX10 := 10 }

/-- The penalty of a connected window. -/
def windowPenalty (attemptsSum packets noackPackets : UInt32) : UInt8 :=
  let typicalAttempts := hopPolicyAckedWindowAttempts attemptsSum packets noackPackets
  hopPolicyAttemptsPenalty typicalAttempts hopPolicyGoodTxAttempts

/-- `connected_window` once it has read the window counters. -/
def gradeWindow (peripheral : HopPeripheral config) (worstAttempts : UInt8)
    (attemptsSum packets noackPackets : UInt32) : HopPeripheral config :=
  let penalty := windowPenalty attemptsSum packets noackPackets
  let (badWindows, leave) :=
    hopPolicyShouldHop peripheral.badWindows penalty config.hopThreshold
  let peripheral := { peripheral with
    attemptsEwmaX10 :=
      if worstAttempts > 0 then hopPolicyEwmaUpdate peripheral.attemptsEwmaX10 worstAttempts
      else peripheral.attemptsEwmaX10
    badWindows := badWindows }
  if leave then
    { peripheral with
      degradeUndoIndex := peripheral.hopIndex
      degradeUndoArmed := true
      hopIndex :=
        hopPolicyIndexNextActive peripheral.hopIndex peripheral.activeMask config.hopCount }
  else peripheral

/-- `lost_window` once it has cleared the window counters. -/
def lostWindowEnd (peripheral : HopPeripheral config) : HopPeripheral config :=
  let sweepWindows :=
    UInt16.ofNat ((peripheral.sweepWindows.toNat + 1) % config.esbHopSweepDwellWindows)
  let peripheral := { peripheral with badWindows := 0, sweepWindows := sweepWindows }
  if peripheral.degradeUndoArmed then
    { peripheral with degradeUndoArmed := false, hopIndex := peripheral.degradeUndoIndex }
  else if sweepWindows = 0 then
    { peripheral with hopIndex := hopPolicyIndexNext peripheral.hopIndex config.hopCount }
  else peripheral

end HopPeripheral

/-- Nothing the radio and the submissions count is touched. -/
structure KeepsCounts (peripheral peripheral' : HopPeripheral config) : Prop where
  succeeded : peripheral'.txSucceededSinceTick = peripheral.txSucceededSinceTick
  sum : peripheral'.windowAttemptsSum = peripheral.windowAttemptsSum
  packets : peripheral'.windowPackets = peripheral.windowPackets
  noack : peripheral'.windowNoackPackets = peripheral.windowNoackPackets

namespace KeepsCounts

open HopPeripheral

theorem hopConsumeRx (pipe : ℕ) (peripheral : HopPeripheral config) (data : Bytes) :
    KeepsCounts peripheral (peripheral.hopConsumeRx pipe data) := by
  simp only [HopPeripheral.hopConsumeRx, consumeBeacon, consumeMaskUpdate]
  split_ifs <;> exact ⟨rfl, rfl, rfl, rfl⟩

theorem ensureMask (peripheral : HopPeripheral config) :
    KeepsCounts peripheral peripheral.ensureMask := by
  rw [HopPeripheral.ensureMask]
  split_ifs <;> exact ⟨rfl, rfl, rfl, rfl⟩

theorem adoptEpochStart (peripheral : HopPeripheral config) (epoch : UInt8) :
    KeepsCounts peripheral (peripheral.adoptEpochStart epoch) := by
  simp only [HopPeripheral.adoptEpochStart, adoptStagedMask]
  split <;> exact ⟨rfl, rfl, rfl, rfl⟩

theorem gradeWindow (peripheral : HopPeripheral config) (worst : UInt8)
    (sum packets noack : UInt32) :
    KeepsCounts peripheral (peripheral.gradeWindow worst sum packets noack) := by
  simp only [HopPeripheral.gradeWindow]
  split_ifs <;> exact ⟨rfl, rfl, rfl, rfl⟩

theorem lostWindowEnd (peripheral : HopPeripheral config) :
    KeepsCounts peripheral peripheral.lostWindowEnd := by
  simp only [HopPeripheral.lostWindowEnd]
  split_ifs <;> exact ⟨rfl, rfl, rfl, rfl⟩

end KeepsCounts

/-- What the tick does with a window, after it has settled the link. -/
inductive WindowKind where
  | adopt
  | connected
  | lost
  deriving DecidableEq, Repr

/-- How far the tick is. All three kinds of window take the counters in the same order.
Naturals only record: the successes the flag stood for, and the completions behind the
counters taken. -/
inductive TickStage where
  | idle
  | start
  | failedTaken (failed : Bool)
  | succeededTaken (failed succeeded : Bool) (acked noacked : ℕ)
  | settled
  | window (kind : WindowKind)
  | worstTaken (kind : WindowKind) (worst : UInt8)
  | sumTaken (kind : WindowKind) (worst : UInt8) (sum : UInt32) (completed retried : ℕ)
  | packetsTaken (kind : WindowKind) (worst : UInt8) (sum packets : UInt32)
      (completed retried counted : ℕ)
  deriving DecidableEq, Repr

/-- The counters a connected window graded. -/
structure GradedWindow where
  sum : UInt32
  packets : UInt32
  noack : UInt32
  deriving DecidableEq, Repr

/-- The engine, the radio's TX FIFO (whether each packet asks for an ACK) and the no-ACK
submissions whose note is still to come. The fields from `acked` on only record:
successes since the tick took the success flag (those without ACK also since the last
failure), for each time the link came up the ACKs since the previous tick, the
completions behind the counters, the windows graded and the times one left the channel. -/
structure UplinkTick (config : HopConfig) where
  peripheral : HopPeripheral config
  txFifo : List Bool
  unflagged : ℕ
  uncounted : ℕ
  stage : TickStage
  acked : ℕ
  noacked : ℕ
  linkUps : List ℕ
  completed : ℕ
  retried : ℕ
  counted : ℕ
  noted : ℕ
  graded : List GradedWindow
  departures : ℕ

/-- A payload enters the TX FIFO; the two halves of `hop_note_noack_sent`; the head of
the FIFO succeeds, or fails and stays for a retry or is flushed with the rest; a stalled
radio is flushed; the central's packet arrives; the tick is due, or takes its next step. -/
inductive UplinkAction where
  | submit (ack : Bool)
  | noteFlag
  | noteCount
  | succeed (attempts : UInt8)
  | fail (retry : Bool)
  | flush
  | receive (pipe : ℕ) (data : Bytes)
  | tick
  | work
  deriving DecidableEq, Repr

namespace UplinkTick

def boot (retained : HopRetained config) : UplinkTick config where
  peripheral := .boot retained
  txFifo := []
  unflagged := 0
  uncounted := 0
  stage := .idle
  acked := 0
  noacked := 0
  linkUps := []
  completed := 0
  retried := 0
  counted := 0
  noted := 0
  graded := []
  departures := 0

/-! ## Submissions and completions -/

/-- Without an ACK the note follows once the payload is in the FIFO. -/
def submit (state : UplinkTick config) (ack : Bool) : UplinkTick config :=
  { state with
    txFifo := state.txFifo ++ [ack]
    unflagged := if ack then state.unflagged else state.unflagged + 1 }

def noteFlag (state : UplinkTick config) : UplinkTick config :=
  if state.unflagged = 0 then state
  else
    { state with
      peripheral := { state.peripheral with noackSentSinceTick := true }
      unflagged := state.unflagged - 1
      uncounted := state.uncounted + 1 }

def noteCount (state : UplinkTick config) : UplinkTick config :=
  if state.uncounted = 0 then state
  else if 1 < config.hopCount then
    { state with
      peripheral := { state.peripheral with
        windowNoackPackets := state.peripheral.windowNoackPackets + 1 }
      uncounted := state.uncounted - 1
      noted := state.noted + 1 }
  else { state with uncounted := state.uncounted - 1 }

/-- A packet without ACK is sent once and succeeds once it is sent. -/
def succeed (state : UplinkTick config) (attempts : UInt8) : UplinkTick config :=
  match state.txFifo with
  | [] => state
  | ack :: txFifo =>
      let attempts := if ack then attempts else 1
      let state := { state with
        peripheral := state.peripheral.hopNoteTxSuccess attempts
        txFifo := txFifo
        acked := if ack then state.acked + 1 else state.acked
        noacked := if ack then state.noacked else state.noacked + 1 }
      if 1 < config.hopCount then
        { state with
          completed := state.completed + 1
          retried := if attempts = 1 then state.retried else state.retried + 1
          counted := state.counted + 1 }
      else state

def fail (state : UplinkTick config) (retry : Bool) : UplinkTick config :=
  match state.txFifo with
  | true :: _ =>
      { state with
        peripheral := state.peripheral.hopNoteTxFailed
        txFifo := if retry then state.txFifo else []
        noacked := 0 }
  | _ => state

/-! ## The tick -/

/-- Sets `link_acked` from the flags. -/
def settle (state : UplinkTick config) (failed succeeded : Bool) (acked : ℕ) : UplinkTick config :=
  let peripheral := state.peripheral
  let linkAcked := HopPeripheral.decideLink failed succeeded peripheral.noackSentSinceTick
    peripheral.linkAcked
  { state with
    peripheral := { peripheral with noackSentSinceTick := false, linkAcked := linkAcked }
    linkUps :=
      if !peripheral.linkAcked && linkAcked then state.linkUps ++ [acked + state.acked]
      else state.linkUps
    stage := .settled }

def chooseWindow (state : UplinkTick config) : UplinkTick config :=
  let peripheral := state.peripheral.ensureMask
  if peripheral.beaconEpoch ≠ peripheral.adoptedEpoch then
    { state with
      peripheral := peripheral.adoptEpochStart peripheral.beaconEpoch
      stage := .window .adopt }
  else if peripheral.linkAcked then
    { state with
      peripheral := { peripheral with sweepWindows := 0, degradeUndoArmed := false }
      stage := .window .connected }
  else { state with peripheral := peripheral, stage := .window .lost }

def retain (state : UplinkTick config) : UplinkTick config :=
  if state.peripheral.linkAcked then
    { state with peripheral := state.peripheral.retainLinkState }
  else state

/-- The last counter is taken and the window ends. -/
def endWindow (state : UplinkTick config) (kind : WindowKind) (worst : UInt8)
    (sum packets : UInt32) : UplinkTick config :=
  let noack := state.peripheral.windowNoackPackets
  let peripheral := { state.peripheral with windowNoackPackets := 0 }
  let ended : UplinkTick config := { state with noted := 0, stage := .idle }
  match kind with
  | .adopt => retain { ended with peripheral := peripheral }
  | .connected =>
      let leave := (hopPolicyShouldHop peripheral.badWindows
        (HopPeripheral.windowPenalty sum packets noack) config.hopThreshold).2
      retain { ended with
        peripheral := peripheral.gradeWindow worst sum packets noack
        graded := state.graded ++ [⟨sum, packets, noack⟩]
        departures := if leave then state.departures + 1 else state.departures }
  | .lost => retain { ended with peripheral := peripheral.lostWindowEnd }

/-- The next statement of `keepalive_work_fn`. -/
def work (state : UplinkTick config) : UplinkTick config :=
  let peripheral := state.peripheral
  match state.stage with
  | .idle => state
  | .start =>
      { state with
        peripheral := { peripheral with txFailedSinceTick := false }
        stage := .failedTaken peripheral.txFailedSinceTick }
  | .failedTaken failed =>
      { state with
        peripheral := { peripheral with txSucceededSinceTick := false }
        acked := 0
        noacked := 0
        stage := .succeededTaken failed peripheral.txSucceededSinceTick state.acked state.noacked }
  | .succeededTaken failed succeeded acked _ => state.settle failed succeeded acked
  | .settled =>
      if config.hopCount ≤ 1 then { state with stage := .idle } else state.chooseWindow
  | .window kind =>
      { state with
        peripheral := { peripheral with maxTxAttempts := 0 }
        stage := .worstTaken kind peripheral.maxTxAttempts }
  | .worstTaken kind worst =>
      { state with
        peripheral := { peripheral with windowAttemptsSum := 0 }
        completed := 0
        retried := 0
        stage := .sumTaken kind worst peripheral.windowAttemptsSum state.completed state.retried }
  | .sumTaken kind worst sum completed retried =>
      { state with
        peripheral := { peripheral with windowPackets := 0 }
        counted := 0
        stage := .packetsTaken kind worst sum peripheral.windowPackets completed retried state.counted }
  | .packetsTaken kind worst sum packets _ _ _ => state.endWindow kind worst sum packets

def step (state : UplinkTick config) : UplinkAction → UplinkTick config
  | .submit ack => state.submit ack
  | .noteFlag => state.noteFlag
  | .noteCount => state.noteCount
  | .succeed attempts => state.succeed attempts
  | .fail retry => state.fail retry
  | .flush => { state with txFifo := [] }
  | .receive pipe data =>
      { state with peripheral := state.peripheral.hopConsumeRx pipe data }
  | .tick => if state.stage = .idle then { state with stage := .start } else state
  | .work => state.work

theorem retain_spec (state : UplinkTick config) :
    state.retain.peripheral =
        (if state.peripheral.linkAcked then state.peripheral.retainLinkState
          else state.peripheral) ∧
      state.retain.stage = state.stage := by
  rw [retain]
  split <;> exact ⟨rfl, rfl⟩

end UplinkTick

end SplitEsb
