import SplitEsb.Event.Codec
import SplitEsb.Motion.Total
import SplitEsb.Shared.SlotTable

/-! # Input split on the central
Per pipe: the input registers seen, the keys held, and one motion track for each
lossy axis. Every operation returns the events it forwards. -/

namespace SplitEsb

open ByteString SlotTable

def inputEvKey : UInt8 := 0x01
def inputEvRel : UInt8 := 0x02
def esbWireInputSync : UInt8 := 0x01
def esbWireInputTotal : UInt8 := 0x02
def centralInputRegMax : ℕ := 32
def motionTracksMax : ℕ := 4

/-- The input state of one pipe. A slot that is not held or not used is free. -/
structure CentralInput where
  seenInputRegs : UInt32
  trackedInputKeys : Slots EsbKeepaliveHeldKey Unit
  trackedMotions : Slots (UInt8 × UInt8) EsbMotionTrack
  motionHeardMs : UInt32
  inputReset : Bool

def CentralInput.init (heldKeysMax : ℕ) : CentralInput where
  seenInputRegs := 0
  trackedInputKeys := List.replicate heldKeysMax none
  trackedMotions := List.replicate motionTracksMax none
  motionHeardMs := 0
  inputReset := false

namespace CentralInput

def noteInputReg (input : CentralInput) (reg : UInt8) : CentralInput :=
  if reg.toNat < centralInputRegMax then
    { input with seenInputRegs := input.seenInputRegs ||| UInt32.ofNat (1 <<< reg.toNat) }
  else input

/-- Takes the pending reset: every key slot and every motion slot becomes free. -/
def applyInputReset (input : CentralInput) : CentralInput :=
  if input.inputReset then
    { input with
      trackedInputKeys := List.replicate input.trackedInputKeys.length none
      trackedMotions := List.replicate input.trackedMotions.length none
      inputReset := false }
  else input

/-! ## Events -/

/-- Replaces a total by the delta to the last one, 0 when nothing forwards or no
track is free, and strips the total flag. -/
def motionTotalToDelta (input : CentralInput) (now : UInt32) (event : InputEvent) :
    CentralInput × InputEvent :=
  let sync := event.sync &&& esbWireInputSync
  let axis := (event.reg, event.code.toUInt8)
  match claim axis .fresh input.trackedMotions with
  | none => ({ input with motionHeardMs := now }, { event with sync := sync, value := 0 })
  | some motions =>
      let (track, delta) := esbMotionTrackDelta ((lookup axis motions).getD .fresh) event.value
      ({ input with motionHeardMs := now, trackedMotions := store axis track motions },
        { event with sync := sync, value := delta.getD 0 })

/-- The key bookkeeping of an event; nothing when a repeated press is dropped. -/
def trackKeyEvent (input : CentralInput) (event : InputEvent) : Option CentralInput :=
  if event.type ≠ inputEvKey then some input
  else
    let key : EsbKeepaliveHeldKey := ⟨event.reg, event.code⟩
    if event.value = 0 then
      some { input with trackedInputKeys := release key input.trackedInputKeys }
    else if (lookup key input.trackedInputKeys).isSome then none
    else
      some { input with trackedInputKeys :=
        (insertFree key () input.trackedInputKeys).getD input.trackedInputKeys }

def deliverEvent (input : CentralInput) (now : UInt32) (event : InputEvent) :
    CentralInput × List InputEvent :=
  let input := (input.applyInputReset).noteInputReg event.reg
  match input.trackKeyEvent event with
  | none => (input, [])
  | some input =>
      if event.sync &&& esbWireInputTotal ≠ 0 then
        let (input, delivered) := input.motionTotalToDelta now event
        (input, [delivered])
      else (input, [event])

/-! ## Keepalives -/

def replayInputKey (key : EsbKeepaliveHeldKey) (pressed : Bool) : InputEvent where
  reg := key.reg
  sync := 1
  type := inputEvKey
  code := key.code
  value := if pressed then 1 else 0

def keepaliveHoldsInputKey (keepalive : Bytes) (key : EsbKeepaliveHeldKey) : Bool :=
  (List.range (esbKeepaliveHeldCount keepalive).toNat).any fun index =>
    esbKeepaliveHeldKeyAt keepalive (UInt8.ofNat index) = key

def releaseUnheldInputKeys (keepalive : Bytes) :
    Slots EsbKeepaliveHeldKey Unit → Slots EsbKeepaliveHeldKey Unit × List InputEvent
  | [] => ([], [])
  | none :: slots =>
      let (rest, events) := releaseUnheldInputKeys keepalive slots
      (none :: rest, events)
  | some (key, ()) :: slots =>
      let (rest, events) := releaseUnheldInputKeys keepalive slots
      if keepaliveHoldsInputKey keepalive key then (some (key, ()) :: rest, events)
      else (none :: rest, replayInputKey key false :: events)

def pressHeldInputKey (input : CentralInput) (key : EsbKeepaliveHeldKey) :
    CentralInput × List InputEvent :=
  if (lookup key input.trackedInputKeys).isSome then (input, [])
  else
    match insertFree key () input.trackedInputKeys with
    | none => (input, [])
    | some keys =>
        (({ input with trackedInputKeys := keys }).noteInputReg key.reg, [replayInputKey key true])

def pressHeldInputKeys (input : CentralInput) : List EsbKeepaliveHeldKey →
    CentralInput × List InputEvent
  | [] => (input, [])
  | key :: held =>
      let (input, events) := input.pressHeldInputKey key
      let (input, more) := input.pressHeldInputKeys held
      (input, events ++ more)

/-- The heal event of one keepalive total, without its sync flag. -/
def motionHealEvent (motion : EsbKeepaliveMotionTotal) (delta : Int32) : InputEvent where
  reg := motion.reg
  sync := 0
  type := inputEvRel
  code := motion.code.toUInt16
  value := delta

def motionHealAt (input : CentralInput) (motion : EsbKeepaliveMotionTotal) :
    CentralInput × Option InputEvent :=
  let axis := (motion.reg, motion.code)
  match lookup axis input.trackedMotions with
  | none => (input, none)
  | some track =>
      let (track, delta) := esbMotionTrackShortDelta track motion.shortTotal
      ({ input with trackedMotions := store axis track input.trackedMotions },
        delta.map (motionHealEvent motion))

/-- The heal loop: a heal is delivered once the next one is found, so that only
the last carries the sync flag. -/
def healTotals (input : CentralInput) (pending : Option InputEvent) :
    List EsbKeepaliveMotionTotal → CentralInput × List InputEvent
  | [] => (input, pending.toList.map fun heal => { heal with sync := 1 })
  | motion :: totals =>
      let (input, heal) := input.motionHealAt motion
      match heal with
      | none => input.healTotals pending totals
      | some heal =>
          let (input, events) := input.healTotals (some heal) totals
          (input, pending.toList.map (fun heal => { heal with sync := 0 }) ++ events)

def healLostMotion (input : CentralInput) (now hopWindowMs : UInt32) (keepalive : Bytes) :
    CentralInput × List InputEvent :=
  if esbMotionQuietEnough (now - input.motionHeardMs) hopWindowMs then
    input.healTotals none
      ((List.range (esbKeepaliveMotionCount keepalive).toNat).map fun index =>
        esbKeepaliveMotionTotalAt keepalive (UInt8.ofNat index))
  else (input, [])

def reconcile (input : CentralInput) (now hopWindowMs : UInt32) (keepalive : Bytes) :
    CentralInput × List InputEvent :=
  let input := input.applyInputReset
  let (keys, released) := releaseUnheldInputKeys keepalive input.trackedInputKeys
  let (input, pressed) := ({ input with trackedInputKeys := keys }).pressHeldInputKeys
    ((List.range (esbKeepaliveHeldCount keepalive).toNat).map fun index =>
      esbKeepaliveHeldKeyAt keepalive (UInt8.ofNat index))
  let (input, healed) := input.healLostMotion now hopWindowMs keepalive
  (input, released ++ (pressed ++ healed))

/-- The staleness tick disconnects every register seen and only flags the reset,
which the next event or keepalive applies. -/
def releasePipe (input : CentralInput) : CentralInput × List ℕ :=
  ({ input with inputReset := true },
    (List.range centralInputRegMax).filter fun reg =>
      input.seenInputRegs &&& UInt32.ofNat (1 <<< reg) != 0)

end CentralInput

end SplitEsb
