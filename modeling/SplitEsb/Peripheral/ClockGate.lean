import SplitEsb.Peripheral.Submit

/-! # The crystal between transmissions
An idle peripheral lets the crystal go between transmissions. Whoever transmits holds it
under a mutex and writes after the mutex is free again; a work item lets it go once the
radio is idle. Any thread may be preempted after any statement. -/

namespace SplitEsb

open Uptime

def hfclkIdleHoldMargin : UInt8 := 2
def hfclkIdleHoldFloorMs : UInt32 := 10

/-- Who called `hfclk_gate_hold`. -/
inductive HoldFor where
  | write
  | restart
  deriving DecidableEq, Repr

/-- What follows `esb_link_hfclk_acquire`. -/
inductive AfterAcquire where
  | hold (use : HoldFor)
  | setIdle
  deriving DecidableEq, Repr

/-- The statement a thread comes to next: of `hfclk_gate_hold`, of `submit_payload` and
`tx_restart_work_fn` after it, of `hfclk_release_work_fn`, of `esb_link_set_idle`. The
mutex of esb_link_hfclk.c is only taken under the gate's. -/
inductive GateStage where
  | idle
  | holdLock (use : HoldFor)
  | acquire (next : AfterAcquire)
  | requested (next : AfterAcquire)
  | holdReschedule (use : HoldFor)
  | holdUnlock (use : HoldFor)
  | write
  | refused
  | flush
  | mark
  | rewrite
  | start
  | releaseLock
  | releaseCheck
  | release
  | releaseClear
  | releaseUnlock
  | setIdleLock (idle : Bool)
  | setGating (idle : Bool)
  | setIdleWork (idle : Bool)
  | setIdleUnlock
  deriving DecidableEq, Repr

def AfterAcquire.stage : AfterAcquire → GateStage
  | .hold use => .holdReschedule use
  | .setIdle => .setIdleUnlock

def HoldFor.stage : HoldFor → GateStage
  | .write => .write
  | .restart => .start

/-- What the radio driver answers a write or a start; one that is taken may start a
transmission. -/
inductive RadioAnswer where
  | taken (starts : Bool)
  | noMemory
  | refused
  deriving DecidableEq, Repr

/-- `transmitting` says that `esb_is_idle` would answer no. The work items are delayed
until a time, or queued. -/
structure ClockGate where
  nowMs : ℕ
  calls : ℕ → GateStage
  owner : Option ℕ
  gating : Bool
  held : Bool
  transmitting : Bool
  releaseDueMs : Option ℕ
  releaseQueued : Bool
  restartQueued : Bool
  retransmitCount : UInt8
  retransmitDelayUs : UInt16
  txLastEventMs : ℕ

/-- Time passes; the delay of the release ends; a thread calls `submit_payload` or
`esb_link_set_idle`; the workqueue takes an item; a thread goes on by a statement; a
packet is delivered, with more to send or not, or is given up; a setting is applied. -/
inductive GateAction where
  | elapse (ms : ℕ)
  | releaseDue
  | submit (thread : ℕ)
  | setIdle (thread : ℕ) (idle : Bool)
  | restartWork
  | releaseWork
  | work (thread : ℕ) (answer : RadioAnswer)
  | succeed (more : Bool)
  | fail (retry : Bool)
  | applyRetransmit (count : UInt8) (delayUs : UInt16)
  deriving DecidableEq, Repr

/-- The thread of the system workqueue, which runs one item at a time. -/
def systemWorkqueue : ℕ := 0

namespace ClockGate

/-- The link starts with the crystal held. -/
def boot (retransmitCount : UInt8) (retransmitDelayUs : UInt16) : ClockGate where
  nowMs := 0
  calls _ := .idle
  owner := none
  gating := false
  held := true
  transmitting := false
  releaseDueMs := none
  releaseQueued := false
  restartQueued := false
  retransmitCount := retransmitCount
  retransmitDelayUs := retransmitDelayUs
  txLastEventMs := 0

def setCall (state : ClockGate) (thread : ℕ) (stage : GateStage) : ClockGate :=
  { state with calls := Function.update state.calls thread stage }

/-- A call begins in a thread that is in none. -/
def begin (state : ClockGate) (thread : ℕ) (stage : GateStage) : ClockGate :=
  match state.calls thread with
  | .idle => state.setCall thread stage
  | _ => state

/-! ## The mutex -/

/-- `k_mutex_lock`: a thread waits for the owner. -/
def lock (state : ClockGate) (thread : ℕ) (next : GateStage) : ClockGate :=
  match state.owner with
  | none => { state with owner := some thread }.setCall thread next
  | some _ => state

def unlock (state : ClockGate) (thread : ℕ) (next : GateStage) : ClockGate :=
  { state with owner := none }.setCall thread next

/-! ## The work item -/

def liveRetryCycleMs (state : ClockGate) (margin : UInt8) (floorMs : UInt32) : UInt32 :=
  hopPolicyRetryCycleMs state.retransmitCount state.retransmitDelayUs margin floorMs

/-- `k_work_reschedule` restarts the delay; an item already queued stays queued. -/
def rescheduleRelease (state : ClockGate) : ClockGate :=
  { state with
    releaseDueMs := some (state.nowMs +
      (state.liveRetryCycleMs hfclkIdleHoldMargin hfclkIdleHoldFloorMs).toNat) }

/-- `k_work_cancel_delayable` does not stop an item that runs. -/
def cancelRelease (state : ClockGate) : ClockGate :=
  { state with releaseDueMs := none, releaseQueued := false }

def releaseDue (state : ClockGate) : ClockGate :=
  match state.releaseDueMs with
  | none => state
  | some dueMs =>
      if dueMs ≤ state.nowMs then { state with releaseDueMs := none, releaseQueued := true }
      else state

def releaseWork (state : ClockGate) : ClockGate :=
  if state.releaseQueued && state.calls systemWorkqueue == .idle then
    { state with releaseQueued := false }.setCall systemWorkqueue .releaseLock
  else state

def restartWork (state : ClockGate) : ClockGate :=
  if state.restartQueued && state.calls systemWorkqueue == .idle then
    { state with restartQueued := false }.setCall systemWorkqueue (.holdLock .restart)
  else state

/-! ## The statements -/

def stallLimitMs (state : ClockGate) : UInt32 :=
  state.liveRetryCycleMs txStallMargin txStallFloorMs

/-- A write or a start; `again` follows a refusal for want of memory. -/
def transmit (state : ClockGate) (thread : ℕ) (answer : RadioAnswer) (again : GateStage) :
    ClockGate :=
  match answer with
  | .taken starts =>
      { state with transmitting := state.transmitting || starts }.setCall thread .idle
  | .noMemory => state.setCall thread again
  | .refused => state.setCall thread .idle

/-- The next statement of the call a thread is in. -/
def work (state : ClockGate) (thread : ℕ) (answer : RadioAnswer) : ClockGate :=
  match state.calls thread with
  | .idle => state
  | .holdLock use => state.lock thread (.acquire (.hold use))
  | .acquire next => state.setCall thread (if state.held then next.stage else .requested next)
  | .requested next => { state with held := true }.setCall thread next.stage
  | .holdReschedule use =>
      (if state.gating then state.rescheduleRelease else state).setCall thread (.holdUnlock use)
  | .holdUnlock use => state.unlock thread use.stage
  | .write => state.transmit thread answer .refused
  | .refused =>
      let silenceMs := uptime32 state.nowMs - uptime32 state.txLastEventMs
      state.setCall thread (if silenceMs ≤ state.stallLimitMs then .idle else .flush)
  | .flush => state.setCall thread .mark
  | .mark => { state with txLastEventMs := state.nowMs }.setCall thread .rewrite
  | .rewrite => state.transmit thread answer .idle
  | .start => state.transmit thread answer .idle
  | .releaseLock => state.lock thread .releaseCheck
  | .releaseCheck =>
      if hopPolicyHfclkReleaseAllowed state.gating (!state.transmitting) then
        state.setCall thread .release
      else
        (if state.gating then state.rescheduleRelease else state).setCall thread .releaseUnlock
  | .release => state.setCall thread (if state.held then .releaseClear else .releaseUnlock)
  | .releaseClear => { state with held := false }.setCall thread .releaseUnlock
  | .releaseUnlock => state.unlock thread .idle
  | .setIdleLock idle => state.lock thread (.setGating idle)
  | .setGating idle => { state with gating := idle }.setCall thread (.setIdleWork idle)
  | .setIdleWork idle =>
      if idle then state.rescheduleRelease.setCall thread .setIdleUnlock
      else state.cancelRelease.setCall thread (.acquire .setIdle)
  | .setIdleUnlock => state.unlock thread .idle

/-! ## The radio -/

/-- A transmission ends delivered; the driver goes on with the next packet if there is one. -/
def succeed (state : ClockGate) (more : Bool) : ClockGate :=
  if state.transmitting then { state with transmitting := more, txLastEventMs := state.nowMs }
  else state

/-- A packet is given up, and started again by the workqueue or flushed. -/
def fail (state : ClockGate) (retry : Bool) : ClockGate :=
  if state.transmitting then
    { state with
      transmitting := false
      txLastEventMs := state.nowMs
      restartQueued := state.restartQueued || retry }
  else state

def step (state : ClockGate) : GateAction → ClockGate
  | .elapse ms => { state with nowMs := state.nowMs + ms }
  | .releaseDue => state.releaseDue
  | .submit thread => state.begin thread (.holdLock .write)
  | .setIdle thread idle => state.begin thread (.setIdleLock idle)
  | .restartWork => state.restartWork
  | .releaseWork => state.releaseWork
  | .work thread answer => state.work thread answer
  | .succeed more => state.succeed more
  | .fail retry => state.fail retry
  | .applyRetransmit count delayUs =>
      { state with retransmitCount := count, retransmitDelayUs := delayUs }

end ClockGate

end SplitEsb
