import Mathlib.Logic.Function.Basic
import SplitEsb.Central.Input

/-! # Split central
The queue of inbound events and keepalives, the state tracked for each pipe, and
the work that replays them into ZMK. The source id of an event is its pipe. -/

namespace SplitEsb

open ByteString BitTable

def esbLinkPipeMax : ℕ := 8

/-- The build options the central's code reads. A payload holds a whole event
struct, which is larger than any event on the air. -/
structure CentralConfig where
  maxPayload : ℕ
  event_fits : esbWireInputEventSize ≤ maxPayload
  eventQueueSize : ℕ
  sensorsLen : ℕ
  heldKeysMax : ℕ
  hopWindowMs : UInt32
  batteryReporting : Bool
  batteryLevelFetching : Bool
  hidIndicators : Bool

/-! ## Sensor tracks -/

structure EsbSensorTrack where
  lastUdeg : Int64
  valid : Bool
  deriving DecidableEq, Repr

def esbSensorMicrodegPerDeg : Int64 := 1000000
def esbSensorResyncUdeg : Int64 := 180 * esbSensorMicrodegPerDeg

def esbSensorUdeg (val1 val2 : Int32) : Int64 :=
  val1.toInt64 * esbSensorMicrodegPerDeg + val2.toInt64

def esbSensorUdegVal1 (udeg : Int64) : Int32 := (udeg / esbSensorMicrodegPerDeg).toInt32

def esbSensorUdegVal2 (udeg : Int64) : Int32 := (udeg % esbSensorMicrodegPerDeg).toInt32

/-- Adopts the total either way; the delta is present when something forwards. -/
def esbSensorTrackDelta (track : EsbSensorTrack) (totalUdeg : Int64) :
    EsbSensorTrack × Option Int64 :=
  let delta := totalUdeg - track.lastUdeg
  let adopted : EsbSensorTrack := { lastUdeg := totalUdeg, valid := true }
  if !track.valid ∨ delta = 0 ∨ delta > esbSensorResyncUdeg ∨ delta < -esbSensorResyncUdeg then
    (adopted, none)
  else (adopted, some delta)

/-! ## State -/

/-- A call out of the central, in the order the calls are made. -/
inductive CentralOutput (L : EventLayout) where
  | peripheralEvent (source : ℕ) (event : PeripheralEvent L)
  | batteryState (source : ℕ) (level : UInt8)
  | inputDisconnected (reg : ℕ)
  | hostIndicators (leds : UInt8)

inductive CentralInboundData (L : EventLayout) where
  | event (event : PeripheralEvent L)
  | keepalive (data : Bytes) (length : UInt8)

structure CentralInbound (L : EventLayout) where
  source : ℕ
  data : CentralInboundData L

structure Central (L : EventLayout) where
  eventMsgq : List (CentralInbound L)
  trackedPositions : ℕ → PositionBitmap
  trackedBatteryLevels : ℕ → UInt8
  sensorTracks : ℕ → ℕ → EsbSensorTrack
  input : ℕ → CentralInput
  outputs : List (CentralOutput L)

variable {L : EventLayout}

def Central.init (L : EventLayout) (config : CentralConfig) : Central L where
  eventMsgq := []
  trackedPositions _ := Vector.replicate _ 0
  trackedBatteryLevels _ := esbKeepaliveBatteryUnknown
  sensorTracks _ _ := ⟨0, false⟩
  input _ := .init config.heldKeysMax
  outputs := []

namespace Central

def emit (central : Central L) (output : CentralOutput L) : Central L :=
  { central with outputs := central.outputs ++ [output] }

/-! ## Key positions -/

def setTracked (central : Central L) (source position : ℕ) (pressed : Bool) : Central L :=
  { central with
    trackedPositions := Function.update central.trackedPositions source
      (setBit (central.trackedPositions source) position pressed) }

def forwardKeyPosition (central : Central L) (source position : ℕ) (pressed : Bool) : Central L :=
  central.emit (.peripheralEvent source (.keyPosition (L.keyPositionEvent position pressed)))

end Central

inductive EsbKeepaliveKeyVerdict where
  | forward
  | dropOrphanRelease
  | healLostRelease
  deriving DecidableEq, Repr

def esbKeepaliveKeyVerdict (tracked : PositionBitmap) (position : ℕ) (pressed : Bool) :
    EsbKeepaliveKeyVerdict :=
  if !pressed && !getBit tracked position then .dropOrphanRelease
  else if pressed && getBit tracked position then .healLostRelease
  else .forward

/-- The next position from `position` upward whose bits differ, or the position count. -/
def esbKeepaliveBitmapDiffNext (tracked received : PositionBitmap) (position : ℕ) : ℕ :=
  ((List.range' position (esbKeepalivePositionCount - position)).find? fun p =>
    getBit tracked p != getBit received p).getD esbKeepalivePositionCount

theorem esbKeepaliveBitmapDiffNext_ge {position : ℕ} (h : position ≤ esbKeepalivePositionCount)
    (tracked received : PositionBitmap) :
    position ≤ esbKeepaliveBitmapDiffNext tracked received position := by
  rw [esbKeepaliveBitmapDiffNext]
  cases hfind : (List.range' position (esbKeepalivePositionCount - position)).find? fun p =>
      getBit tracked p != getBit received p with
  | none => exact h
  | some found =>
      have hmem := List.mem_of_find?_eq_some hfind
      rw [List.mem_range'_1] at hmem
      exact hmem.1

namespace Central

/-- The replay loop, entered at a position the difference scan returned. -/
def replayPositions (source : ℕ) (target : PositionBitmap) (central : Central L) (position : ℕ) :
    Central L :=
  if position < esbKeepalivePositionCount then
    let pressed := getBit target position
    let central := (central.setTracked source position pressed).forwardKeyPosition source position
      pressed
    replayPositions source target central
      (esbKeepaliveBitmapDiffNext (central.trackedPositions source) target (position + 1))
  else central
termination_by esbKeepalivePositionCount - position
decreasing_by
  exact Nat.sub_lt_sub_left (by assumption)
    (Nat.lt_of_succ_le (esbKeepaliveBitmapDiffNext_ge (by omega) _ _))

def replayPositionDiff (central : Central L) (source : ℕ) (target : PositionBitmap) : Central L :=
  if esbLinkPipeMax ≤ source then central
  else replayPositions source target central
    (esbKeepaliveBitmapDiffNext (central.trackedPositions source) target 0)

def deliverKeyEvent (central : Central L) (source : ℕ) (event : Vector UInt8 L.keyPositionSize) :
    Central L :=
  let position := L.position event
  let pressed := L.pressed event
  if esbLinkPipeMax ≤ source ∨ esbKeepalivePositionCount ≤ position then
    central.emit (.peripheralEvent source (.keyPosition event))
  else
    match esbKeepaliveKeyVerdict (central.trackedPositions source) position pressed with
    | .dropOrphanRelease => central
    | .healLostRelease =>
        ((central.forwardKeyPosition source position false).setTracked source position
          pressed).emit (.peripheralEvent source (.keyPosition event))
    | .forward =>
        (central.setTracked source position pressed).emit
          (.peripheralEvent source (.keyPosition event))

/-! ## Battery and sensors -/

def reconcileBattery (central : Central L) (source : ℕ) (level : UInt8) : Central L :=
  if esbLinkPipeMax ≤ source ∨ level = esbKeepaliveBatteryUnknown then central
  else if central.trackedBatteryLevels source = level then central
  else
    ({ central with
        trackedBatteryLevels := Function.update central.trackedBatteryLevels source level }).emit
      (.batteryState source level)

/-- The two value words of the delta to a sensor total, when one forwards. -/
def sensorDeltaValue (config : CentralConfig) (central : Central L) (source sensorIndex : ℕ)
    (totalUdeg : Int64) : Central L × Option (Int32 × Int32) :=
  if esbLinkPipeMax ≤ source ∨ config.sensorsLen ≤ sensorIndex then (central, none)
  else
    let (track, delta) := esbSensorTrackDelta (central.sensorTracks source sensorIndex) totalUdeg
    ({ central with
        sensorTracks := Function.update central.sensorTracks source
          (Function.update (central.sensorTracks source) sensorIndex track) },
      delta.map fun delta => (esbSensorUdegVal1 delta, esbSensorUdegVal2 delta))

/-- The event with its total replaced by the delta; without sensors it passes unchanged. -/
def sensorEventToDelta (config : CentralConfig) (central : Central L) (source : ℕ)
    (event : Vector UInt8 L.sensorSize) : Central L × Option (Vector UInt8 L.sensorSize) :=
  if config.sensorsLen = 0 then (central, some event)
  else
    let (central, value) := central.sensorDeltaValue config source (L.sensorIndex event).toNat
      (esbSensorUdeg (L.sensorVal1 event) (L.sensorVal2 event))
    (central, value.map fun value => L.sensorWithValue event value.1 value.2)

def sensorTracksReset (central : Central L) (source : ℕ) : Central L :=
  if esbLinkPipeMax ≤ source then central
  else
    { central with
      sensorTracks := Function.update central.sensorTracks source fun sensorIndex =>
        { central.sensorTracks source sensorIndex with valid := false } }

def reconcileSensorTotal (config : CentralConfig) (source : ℕ) (keepalive : Bytes)
    (central : Central L) (sensorIndex : ℕ) : Central L :=
  let (central, value) := central.sensorDeltaValue config source sensorIndex
    (esbKeepaliveSensorTotalUdeg keepalive (UInt8.ofNat sensorIndex))
  match value with
  | none => central
  | some (val1, val2) => central.emit
      (.peripheralEvent source (.sensor (L.rotationEvent (UInt8.ofNat sensorIndex) val1 val2)))

def reconcileSensorTotals (config : CentralConfig) (central : Central L) (source : ℕ)
    (keepalive : Bytes) (length : UInt8) : Central L :=
  if config.sensorsLen = 0 then central
  else (List.range (esbKeepaliveSensorCount keepalive length).toNat).foldl
    (reconcileSensorTotal config source keepalive) central

/-! ## The event work -/

def handleKeepalive (config : CentralConfig) (central : Central L) (source : ℕ) (keepalive : Bytes)
    (length : UInt8) : Central L :=
  let central := central.replayPositionDiff source (esbKeepaliveBitmap keepalive)
  let central := if config.batteryReporting && !config.batteryLevelFetching then
      central.reconcileBattery source (esbKeepaliveBatteryLevel keepalive)
    else central
  central.reconcileSensorTotals config source keepalive length

def handleEvent (config : CentralConfig) (central : Central L) (source : ℕ) :
    PeripheralEvent L → Central L
  | .keyPosition event => central.deliverKeyEvent source event
  | .battery event =>
      if !config.batteryLevelFetching then
        if config.batteryReporting then central.reconcileBattery source (L.batteryLevel event)
        else central
      else central.emit (.peripheralEvent source (.battery event))
  | .sensor event =>
      let (central, event) := central.sensorEventToDelta config source event
      match event with
      | none => central
      | some event => central.emit (.peripheralEvent source (.sensor event))
  | .input event => central.emit (.peripheralEvent source (.input event))

/-- One turn of the work loop on an inbound item. -/
def handleInbound (config : CentralConfig) (central : Central L) (inbound : CentralInbound L) :
    Central L :=
  match inbound.data with
  | .keepalive data length => central.handleKeepalive config inbound.source data length
  | .event event => central.handleEvent config inbound.source event

/-- One turn of the work loop; an empty queue ends the work. -/
def eventWorkStep (config : CentralConfig) (central : Central L) : Central L :=
  match central.eventMsgq with
  | [] => central
  | inbound :: queue => ({ central with eventMsgq := queue }).handleInbound config inbound

/-! ## The staleness release -/

def releaseInput (central : Central L) (pipe : ℕ) : Central L :=
  if esbLinkPipeMax ≤ pipe then central
  else
    let (input, regs) := (central.input pipe).releasePipe
    { central with
      input := Function.update central.input pipe input
      outputs := central.outputs ++ regs.map .inputDisconnected }

/-- The keys, the input state and the sensor baselines of a pipe gone silent. -/
def releaseStalePipe (central : Central L) (pipe : ℕ) : Central L :=
  ((central.replayPositionDiff pipe (Vector.replicate _ 0)).releaseInput pipe).sensorTracksReset
    pipe

/-! ## Packets -/

/-- Queues an item for the work, or drops it when the queue is full. -/
def putInbound (config : CentralConfig) (central : Central L) (inbound : CentralInbound L) :
    Central L :=
  if central.eventMsgq.length < config.eventQueueSize then
    { central with eventMsgq := central.eventMsgq ++ [inbound] }
  else central

def emitInput (central : Central L) (pipe : ℕ) (input : CentralInput) (events : List InputEvent) :
    Central L :=
  { central with
    input := Function.update central.input pipe input
    outputs := central.outputs ++ events.map fun event => .peripheralEvent pipe (.input event) }

def inputReconcile (config : CentralConfig) (central : Central L) (pipe : ℕ) (now : UInt32)
    (keepalive : Bytes) : Central L :=
  if esbLinkPipeMax ≤ pipe then central
  else
    let (input, events) := (central.input pipe).reconcile now config.hopWindowMs keepalive
    central.emitInput pipe input events

def inputDeliverEvent (central : Central L) (pipe : ℕ) (now : UInt32) (event : InputEvent) :
    Central L :=
  if esbLinkPipeMax ≤ pipe then central.emit (.peripheralEvent pipe (.input event))
  else
    let (input, events) := (central.input pipe).deliverEvent now event
    central.emitInput pipe input events

def ingestKeepalive (config : CentralConfig) (pipe : ℕ) (now : UInt32) (central : Central L)
    (data : Bytes) : Central L :=
  (central.inputReconcile config pipe now data).putInbound config
    ⟨pipe, .keepalive (data.take config.maxPayload)
      (UInt8.ofNat (min data.length config.maxPayload))⟩

def dispatchEvent (config : CentralConfig) (pipe : ℕ) (now : UInt32) (central : Central L) :
    PeripheralEvent L → Central L
  | .input event => central.inputDeliverEvent pipe now event
  | event => central.putInbound config ⟨pipe, .event event⟩

def applyHostIndicators (config : CentralConfig) (central : Central L) (leds : UInt8) : Central L :=
  if config.hidIndicators then central.emit (.hostIndicators leds) else central

/-- A packet on a pipe, handed over by the receive thread. -/
def ingestPacket (config : CentralConfig) (central : Central L) (pipe : ℕ) (now : UInt32)
    (data : Bytes) : Central L :=
  centralIngestPacket (applyHostIndicators config) (ingestKeepalive config pipe now)
    (dispatchEvent config pipe now) central data

end Central

end SplitEsb
