import Mathlib.Logic.Function.Basic
import SplitEsb.Hop.Policy
import SplitEsb.Shared.Transition
import SplitEsb.Shared.Uptime

/-! # Submissions to the radio
A submission the TX FIFO refuses looks at how long ago the radio last reported, and past
a few retry cycles takes the engine for stalled and flushes. Any number of submissions
go on at once; the radio interrupt runs between any two of their steps. -/

namespace SplitEsb

open Uptime Transition

structure SubmitConfig where
  txFifoSize : ℕ
  retransmitCount : UInt8
  retransmitDelayUs : UInt16
  deriving DecidableEq, Repr

def txStallMargin : UInt8 := 4
def txStallFloorMs : UInt32 := 100

/-- How far a call of `submit_payload` is. The two reads of the silence come in either
order; the code keeps the low 32 bits of both. -/
inductive SubmitStage where
  | idle
  | refused
  | clockRead (clockMs : ℕ)
  | stampRead (stampMs : ℕ)
  | silenceRead (clockMs stampMs : ℕ)
  | countRead (clockMs stampMs : ℕ) (count : UInt8)
  | stalled (clockMs stampMs : ℕ) (limitMs : UInt32)
  | flushed
  | markRead (clockMs : ℕ)
  | marked
  deriving DecidableEq, Repr

/-- A flush by `submit_payload`: when, past which limit, since when the FIFO had been
non-empty and when the radio had last reported. -/
structure StallFlush where
  atMs : ℕ
  limitMs : UInt32
  busySinceMs : Option ℕ
  lastEventMs : Option ℕ
  deriving DecidableEq, Repr

/-- The FIFO's fill, the settings applied to the radio and the calls under way. The code
keeps the low 32 bits of `txLastEventMs`. The last four fields only record: since when
the FIFO is non-empty, the radio's last event, the calls refused after `txLastEventMs` was
last stored, and the flushes. -/
structure SubmitPath where
  nowMs : ℕ
  queued : ℕ
  txLastEventMs : ℕ
  retransmitCount : UInt8
  retransmitDelayUs : UInt16
  calls : ℕ → SubmitStage
  busySinceMs : Option ℕ
  lastEventMs : Option ℕ
  quiet : ℕ → Bool
  flushes : List StallFlush

/-- Time passes; a call is made, or takes its next step; the head of the FIFO succeeds,
or fails and stays for a retry or is flushed with the rest; the radio takes a setting. -/
inductive SubmitAction where
  | elapse (ms : ℕ)
  | submit (call : ℕ)
  | work (call : ℕ) (clockFirst : Bool)
  | succeed
  | fail (retry : Bool)
  | applyRetransmitCount (count : UInt8)
  | applyRetransmitDelay (delayUs : UInt16)
  deriving DecidableEq, Repr

namespace SubmitPath

def boot (config : SubmitConfig) : SubmitPath where
  nowMs := 0
  queued := 0
  txLastEventMs := 0
  retransmitCount := config.retransmitCount
  retransmitDelayUs := config.retransmitDelayUs
  calls := fun _ => .idle
  busySinceMs := none
  lastEventMs := none
  quiet := fun _ => false
  flushes := []

def setCall (state : SubmitPath) (call : ℕ) (stage : SubmitStage) : SubmitPath :=
  { state with calls := Function.update state.calls call stage }

/-! ## The FIFO -/

/-- `esb_write_payload` under the interrupt lock, where the FIFO has room. -/
def write (state : SubmitPath) : SubmitPath :=
  { state with
    queued := state.queued + 1
    busySinceMs := if state.queued = 0 then some state.nowMs else state.busySinceMs }

def esbFlushTx (state : SubmitPath) : SubmitPath :=
  { state with queued := 0, busySinceMs := none }

/-- The store of `esb_link_mark_tx_event`. -/
def mark (state : SubmitPath) (clockMs : ℕ) : SubmitPath :=
  { state with txLastEventMs := clockMs, quiet := fun _ => false }

/-- The radio event marks its time. -/
def markEvent (state : SubmitPath) : SubmitPath :=
  { state.mark state.nowMs with lastEventMs := some state.nowMs }

def succeed (state : SubmitPath) : SubmitPath :=
  if state.queued = 0 then state
  else if state.queued = 1 then { state.markEvent with queued := 0, busySinceMs := none }
  else { state.markEvent with queued := state.queued - 1 }

def fail (state : SubmitPath) (retry : Bool) : SubmitPath :=
  if state.queued = 0 then state
  else if retry then state.markEvent
  else state.markEvent.esbFlushTx

/-! ## `submit_payload` -/

/-- `live_retry_cycle_ms` of the stall check, once it has read the count. -/
def stallLimitMs (state : SubmitPath) (count : UInt8) : UInt32 :=
  hopPolicyRetryCycleMs count state.retransmitDelayUs txStallMargin txStallFloorMs

def refuse (state : SubmitPath) (call : ℕ) : SubmitPath :=
  { state.setCall call .refused with quiet := Function.update state.quiet call true }

/-- A call whose payload is accepted looks at the silence to no effect. -/
def submit (config : SubmitConfig) (state : SubmitPath) (call : ℕ) : SubmitPath :=
  match state.calls call with
  | .idle => if state.queued < config.txFifoSize then state.write else state.refuse call
  | _ => state

def flushStalled (state : SubmitPath) (limitMs : UInt32) : SubmitPath :=
  { state.esbFlushTx with
    flushes :=
      state.flushes ++ [⟨state.nowMs, limitMs, state.busySinceMs, state.lastEventMs⟩] }

/-- The next statement of the call. The second write may be refused as the first was. -/
def work (config : SubmitConfig) (state : SubmitPath) (call : ℕ) (clockFirst : Bool) :
    SubmitPath :=
  match state.calls call with
  | .idle => state
  | .refused =>
      state.setCall call
        (if clockFirst then .clockRead state.nowMs else .stampRead state.txLastEventMs)
  | .clockRead clockMs => state.setCall call (.silenceRead clockMs state.txLastEventMs)
  | .stampRead stampMs => state.setCall call (.silenceRead state.nowMs stampMs)
  | .silenceRead clockMs stampMs =>
      state.setCall call (.countRead clockMs stampMs state.retransmitCount)
  | .countRead clockMs stampMs count =>
      let silenceMs := uptime32 clockMs - uptime32 stampMs
      if silenceMs ≤ state.stallLimitMs count then state.setCall call .idle
      else state.setCall call (.stalled clockMs stampMs (state.stallLimitMs count))
  | .stalled _ _ limitMs => (state.flushStalled limitMs).setCall call .flushed
  | .flushed => state.setCall call (.markRead state.nowMs)
  | .markRead clockMs => (state.mark clockMs).setCall call .marked
  | .marked =>
      if state.queued < config.txFifoSize then state.write.setCall call .idle
      else state.setCall call .idle

def step (config : SubmitConfig) (state : SubmitPath) : SubmitAction → SubmitPath
  | .elapse ms => { state with nowMs := state.nowMs + ms }
  | .submit call => state.submit config call
  | .work call clockFirst => state.work config call clockFirst
  | .succeed => state.succeed
  | .fail retry => state.fail retry
  | .applyRetransmitCount count => { state with retransmitCount := count }
  | .applyRetransmitDelay delayUs => { state with retransmitDelayUs := delayUs }

end SubmitPath

end SplitEsb
