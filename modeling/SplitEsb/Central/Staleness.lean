import Mathlib.Logic.Function.Basic
import SplitEsb.Central.State
import SplitEsb.Shared.Transition
import SplitEsb.Shared.Uptime

/-! # Staleness tick
Each tick asks every pipe how long it has been quiet. The tick is taken statement by
statement, so that the radio interrupt can stamp a pipe between any two reads. -/

namespace SplitEsb

open Uptime

structure StalenessConfig where
  pipeCount : ℕ
  selfPipe : ℕ → Bool
  wirePipe : ℕ → Bool
  peripheralTimeoutMs : UInt32
  wireTimeoutMs : UInt32

inductive ConnectionsStatus where
  | disconnected
  | someConnected
  | allConnected
  deriving DecidableEq, Repr

/-- How far the turn of a pipe is. `hop_pipe_quiet_ms` subtracts two reads whose order
C leaves open; the value of a clock read is that of `clockMs`. -/
inductive TurnStage where
  | start
  | clockRead
  | stampRead (heardMs : UInt32)
  | quietRead (quietMs : UInt32)
  | heardRead (quietMs : UInt32) (heard : Bool)
  | release
  | report (heard : Bool)
  deriving DecidableEq, Repr

/-- One turn of the tick's loop. `arrivedMs` only records: the last packet of the pipe
since the turn's first read. -/
structure StaleTurn where
  pipe : ℕ
  stage : TurnStage
  clockMs : ℕ
  arrivedMs : Option ℕ
  deriving DecidableEq, Repr

inductive StaleActKind where
  | markedStale
  | released
  | disconnected
  deriving DecidableEq, Repr

/-- A pipe marked stale, released or reported disconnected, when, and the last packet it
had sent by then. -/
structure StaleAct where
  kind : StaleActKind
  pipe : ℕ
  atMs : ℕ
  lastPacketMs : Option ℕ
  deriving DecidableEq, Repr

/-- The fields after the turn only record: the last packet of each pipe, whether it was
marked stale with no packet since, what the ticks did, and the status callbacks. -/
structure Staleness where
  nowMs : ℕ
  pipeLastHeardMs : ℕ → UInt32
  pipeEverHeard : ℕ → Bool
  wirePeerLastRxUptime : UInt32
  pipeStale : ℕ → Bool
  pipeConnected : ℕ → Bool
  lastConnections : ConnectionsStatus
  turn : Option StaleTurn
  lastPacketMs : ℕ → Option ℕ
  unheard : ℕ → Bool
  acts : List StaleAct
  statusCalls : List ConnectionsStatus

/-- Time passes, a packet or bytes of the wire peer arrive, the tick is due, or the work
takes its next step. `clockFirst` is the order the compiler chose for the two reads. -/
inductive StalenessAction where
  | elapse (ms : ℕ)
  | packet (pipe : ℕ)
  | wireBytes
  | tick
  | work (clockFirst : Bool)
  deriving DecidableEq, Repr

def StaleTurn.begin (pipe : ℕ) : StaleTurn := ⟨pipe, .start, 0, none⟩

/-- A packet of the pipe during its turn. -/
def StaleTurn.noteArrival (turn : StaleTurn) (pipe nowMs : ℕ) : StaleTurn :=
  if turn.pipe = pipe then { turn with arrivedMs := some nowMs } else turn

namespace Staleness

def boot : Staleness where
  nowMs := 0
  pipeLastHeardMs _ := 0
  pipeEverHeard _ := false
  wirePeerLastRxUptime := 0
  pipeStale _ := false
  pipeConnected _ := false
  lastConnections := .disconnected
  turn := none
  lastPacketMs _ := none
  unheard _ := false
  acts := []
  statusCalls := []

variable (config : StalenessConfig)

/-! ## Packets -/

/-- The stamp `hop_consume_rx` and `hop_pipe_note_seen` leave. -/
def notePacket (state : Staleness) (pipe : ℕ) : Staleness :=
  if config.pipeCount ≤ pipe then state
  else
    { state with
      pipeLastHeardMs := Function.update state.pipeLastHeardMs pipe (uptime32 state.nowMs)
      pipeEverHeard := Function.update state.pipeEverHeard pipe true
      turn := state.turn.map (·.noteArrival pipe state.nowMs)
      lastPacketMs := Function.update state.lastPacketMs pipe (some state.nowMs)
      unheard := Function.update state.unheard pipe false }

def noteWireBytes (state : Staleness) : Staleness :=
  { state with wirePeerLastRxUptime := uptime32 state.nowMs }

def wireLinkIsUp (state : Staleness) : Bool :=
  if state.wirePeerLastRxUptime = 0 then false
  else uptime32 state.nowMs - state.wirePeerLastRxUptime ≤ config.wireTimeoutMs

/-! ## The tick -/

def setStage (state : Staleness) (turn : StaleTurn) (stage : TurnStage) : Staleness :=
  { state with turn := some { turn with stage := stage } }

def note (state : Staleness) (kind : StaleActKind) (pipe : ℕ) : Staleness :=
  { state with acts := state.acts ++ [⟨kind, pipe, state.nowMs, state.lastPacketMs pipe⟩] }

/-- A peer heard within the timeout, and over a wire also up. -/
def peerActive (state : Staleness) (pipe : ℕ) (quietMs : UInt32) : Bool :=
  decide (quietMs ≤ config.peripheralTimeoutMs) &&
    !(config.wirePipe pipe && !state.wireLinkIsUp config)

def markStale (state : Staleness) (pipe : ℕ) : Staleness :=
  { state with
    pipeStale := Function.update state.pipeStale pipe true
    unheard := Function.update state.unheard pipe true }

/-- The verdict on a pipe. -/
def settle (state : Staleness) (turn : StaleTurn) (quietMs : UInt32) (heard : Bool) : Staleness :=
  if !heard then state.setStage turn (.report heard)
  else if state.peerActive config turn.pipe quietMs then
    { state with pipeStale := Function.update state.pipeStale turn.pipe false }.setStage turn
      (.report heard)
  else if !state.pipeStale turn.pipe then
    ((state.markStale turn.pipe).note .markedStale turn.pipe).setStage turn .release
  else state.setStage turn (.report heard)

def nextPipe (state : Staleness) (turn : StaleTurn) : Staleness :=
  { state with turn := some (.begin (turn.pipe + 1)) }

/-- Raises a connection event when the pipe's connection changed. -/
def reportConnection (state : Staleness) (turn : StaleTurn) (heard : Bool) : Staleness :=
  let connected := heard && !state.pipeStale turn.pipe
  if connected = state.pipeConnected turn.pipe then state
  else
    let state := { state with
      pipeConnected := Function.update state.pipeConnected turn.pipe connected }
    if connected then state else state.note .disconnected turn.pipe

def centralConnectionsStatus (state : Staleness) : ConnectionsStatus :=
  let pipes := (List.range (min config.pipeCount esbLinkPipeMax)).filter fun pipe =>
    !config.selfPipe pipe
  let connected := pipes.countP state.pipeConnected
  if connected = 0 then .disconnected
  else if connected < pipes.length then .someConnected
  else .allConnected

def finishTick (state : Staleness) : Staleness :=
  let connections := state.centralConnectionsStatus config
  if connections = state.lastConnections then { state with turn := none }
  else
    { state with
      turn := none
      lastConnections := connections
      statusCalls := state.statusCalls ++ [connections] }

/-- The next statement of a pipe's turn. -/
def workOn (clockFirst : Bool) (state : Staleness) (turn : StaleTurn) : Staleness :=
  match turn.stage with
  | .start =>
      if clockFirst then
        state.setStage { turn with clockMs := state.nowMs, arrivedMs := none } .clockRead
      else
        state.setStage { turn with arrivedMs := none } (.stampRead (state.pipeLastHeardMs turn.pipe))
  | .clockRead =>
      state.setStage turn (.quietRead (uptime32 turn.clockMs - state.pipeLastHeardMs turn.pipe))
  | .stampRead heardMs =>
      state.setStage { turn with clockMs := state.nowMs }
        (.quietRead (uptime32 state.nowMs - heardMs))
  | .quietRead quietMs =>
      state.setStage turn (.heardRead quietMs (state.pipeEverHeard turn.pipe))
  | .heardRead quietMs heard => state.settle config turn quietMs heard
  | .release => (state.note .released turn.pipe).setStage turn (.report true)
  | .report heard => (state.reportConnection turn heard).nextPipe turn

/-- The next step of `staleness_work_fn`. -/
def stalenessWork (clockFirst : Bool) (state : Staleness) : Staleness :=
  match state.turn with
  | none => state
  | some turn =>
      if min config.pipeCount esbLinkPipeMax ≤ turn.pipe then state.finishTick config
      else if config.selfPipe turn.pipe then state.nextPipe turn
      else state.workOn config clockFirst turn

def step (state : Staleness) : StalenessAction → Staleness
  | .elapse ms => { state with nowMs := state.nowMs + ms }
  | .packet pipe => state.notePacket config pipe
  | .wireBytes => state.noteWireBytes
  | .tick => if state.turn.isSome then state else { state with turn := some (.begin 0) }
  | .work clockFirst => state.stalenessWork config clockFirst

end Staleness

end SplitEsb
