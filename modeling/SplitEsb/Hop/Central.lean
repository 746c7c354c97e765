import Mathlib.Logic.Function.Basic
import SplitEsb.Hop.Control

/-! # Central hop engine
The state the decision work keeps, the boot that seeds it, and one decision
window: accrue loss, score the channel, rework the mask, hop on a vote or out of
silence, then stage beacons and the mask update. -/

namespace SplitEsb

open ByteString

def beaconRepeatWindows : UInt8 := 4
def beaconRssiPeriodWindows : UInt8 := 4
def maskUpdateRepeatWindows : UInt8 := 4
def maskRefreshWindows : UInt8 := 32
def channelBadDecay : UInt8 := 1
def silentEscapeCap : ℕ := 32

def HopConfig.silentEscapeWindows (config : HopConfig) : ℕ := min (2 * config.hopCount) silentEscapeCap

def HopConfig.silentEscapeLimit (config : HopConfig) : ℕ := config.hopCount

structure HopCentral (config : HopConfig) where
  hopEpoch : UInt8
  hopIndex : ℕ
  pipeLoss : ℕ → UInt8
  silentWindows : UInt16
  silentEscapes : UInt8
  pipeWasLost : ℕ → Bool
  beaconedEpoch : UInt8
  beaconRepeatsLeft : UInt8
  beaconWindow : UInt8
  channelBad : ℕ → UInt8
  channelMaskedWindows : ℕ → UInt16
  channelActiveWindows : ℕ → UInt16
  channelRetestLevel : ℕ → UInt8
  activeMask : HopMask config.hopCount
  pendingMask : HopMask config.hopCount
  anchorMask : HopMask config.hopCount
  pendingValid : Bool
  maskReady : Bool
  maskUpdateRepeats : UInt8
  maskWindow : UInt8

/-- What a decision window reads from outside the engine: the masks and signals
the radio left since the last window, how long each pipe has been quiet at the two
places that ask, and the state of the host and the wire peer. -/
structure HopWindow where
  heard : UInt32
  motion : UInt32
  active : UInt32
  rssiDbm : ℕ → Int8
  quietMs : ℕ → ℕ
  updateQuietMs : ℕ → ℕ
  peers : ℕ → EsbBeaconPeer
  hidModifiers : UInt8
  hidIndicators : UInt8
  wireUp : Bool

/-- What a decision window stages for its peripherals. -/
inductive HopOutput where
  | latchControl (pipe : ℕ) (kind : EsbLinkControl) (data : Bytes)
  | wireSend (data : Bytes)

variable {config : HopConfig}

def HopConfig.hopPipeNeedsRendezvous (config : HopConfig) (quietMs : ℕ → ℕ) (pipe : ℕ) : Bool :=
  if config.peripheralCount ≤ pipe then true
  else if config.selfPipe pipe || config.wirePipe pipe then false
  else config.esbHopLossDetectMs ≤ quietMs pipe

namespace HopCentral

def ensureMask (central : HopCentral config) : HopCentral config :=
  if central.maskReady then central
  else
    { central with
      activeMask := fillMask (fun _ => true) central.activeMask
      pendingMask := fillMask (fun _ => true) central.pendingMask
      anchorMask := fillMask config.hopIsAnchorIndex central.anchorMask
      maskReady := true }

/-! ## Hops -/

def commitPendingMask (central : HopCentral config) : HopCentral config :=
  if central.pendingValid then
    { central with activeMask := central.pendingMask, pendingValid := false }
  else central

def clearPipeLoss (central : HopCentral config) : HopCentral config :=
  { central with
    pipeLoss := fun pipe => if pipe < config.peripheralCount then 0 else central.pipeLoss pipe }

def advanceEpoch (central : HopCentral config) : HopCentral config :=
  let epoch := central.hopEpoch + 1
  { central with
    hopEpoch := epoch
    hopIndex := hopPolicyChannelForEpochMasked epoch.toUInt16 central.activeMask config.hopCount }

def hopToNextEpoch (central : HopCentral config) : HopCentral config :=
  central.commitPendingMask.advanceEpoch.clearPipeLoss

def clearSilence (central : HopCentral config) : HopCentral config :=
  { central with silentWindows := 0 }

def escapeSilentChannel (central : HopCentral config) : HopCentral config :=
  central.clearSilence.hopToNextEpoch

/-! ## Boot -/

/-- The engine's memory before boot. -/
def zero (config : HopConfig) : HopCentral config where
  hopEpoch := 0
  hopIndex := 0
  pipeLoss _ := 0
  silentWindows := 0
  silentEscapes := 0
  pipeWasLost _ := false
  beaconedEpoch := 0
  beaconRepeatsLeft := 0
  beaconWindow := 0
  channelBad _ := 0
  channelMaskedWindows _ := 0
  channelActiveWindows _ := 0
  channelRetestLevel _ := 0
  activeMask := Vector.replicate _ 0
  pendingMask := Vector.replicate _ 0
  anchorMask := Vector.replicate _ 0
  pendingValid := false
  maskReady := false
  maskUpdateRepeats := 0
  maskWindow := 0

/-- `hop_mask_settings_set`: the stored mask, when it was stored for this pool. -/
def hopMaskSettingsSet (config : HopConfig) (stored : Bytes) : Option (HopMask config.hopCount) :=
  if stored.length ≠ hopPolicyMaskStoreLength config.hopCount then none
  else if hopPolicyMaskStoreMatches stored config.hopChannels config.hopCount then
    some (hopPolicyMaskStoreMask stored config.hopCount)
  else none

/-- Masks the channels a persisted mask leaves out, anchors exempt. -/
def benchPersisted (central : HopCentral config) (persisted : HopMask config.hopCount) :
    HopCentral config :=
  { central with
    pendingMask := (List.range config.hopCount).foldl (fun mask channel =>
      if !hopPolicyMaskGet persisted channel && !hopPolicyMaskGet central.anchorMask channel then
        hopPolicyMaskSet mask channel false
      else mask) central.pendingMask }

/-- Boot with what the settings stored, if anything, and the survey's energies. -/
def hopBootMask (central : HopCentral config) (stored : Option Bytes) (energyDbm : ℕ → Int8) :
    HopCentral config :=
  if config.hopCount ≤ 1 then central
  else
    let central := central.ensureMask
    let central := match stored.bind (hopMaskSettingsSet config) with
      | none => central
      | some persisted => central.benchPersisted persisted
    let central := { central with
      pendingMask := (hopPolicySurveyMask energyDbm central.anchorMask config.hopMinActive.toNat
        config.surveyThresholdDbm central.pendingMask).1 }
    if hopPolicyMaskActiveCount central.pendingMask config.hopCount = config.hopCount then central
    else
      { central with
        activeMask := central.pendingMask
        maskUpdateRepeats := maskUpdateRepeatWindows }.advanceEpoch

def boot (config : HopConfig) (stored : Option Bytes) (energyDbm : ℕ → Int8) : HopCentral config :=
  (zero config).hopBootMask stored energyDbm

/-! ## Scoring and masking -/

def accrueLoss (central : HopCentral config) (window : HopWindow) : HopCentral config :=
  { central with
    pipeLoss := hopPolicyAccrueLoss central.pipeLoss config.peripheralCount window.motion
      window.active window.rssiDbm config.rssiFloorDbm }

def scoreCurrentChannel (central : HopCentral config) (window : HopWindow) : HopCentral config :=
  if window.active = 0 then central
  else
    let penalty := hopPolicyWindowPenalty window.motion window.active window.rssiDbm
      config.rssiFloorDbm config.peripheralCount
    { central with
      channelBad := Function.update central.channelBad central.hopIndex
        (hopPolicyScoreUpdate (central.channelBad central.hopIndex) penalty channelBadDecay) }

/-- One channel of the recompute loop, and whether a channel came back so far. -/
def recomputeChannel (active : UInt32) (state : HopCentral config × Bool) (channel : ℕ) :
    HopCentral config × Bool :=
  let (central, changed) := state
  if hopPolicyMaskGet central.pendingMask channel then
    -- Only time served live counts: a pool channel nobody visits proves nothing.
    let served := channel = central.hopIndex ∧ active ≠ 0
    if served ∧ central.channelActiveWindows channel < config.hopRestoreWindows then
      let windows := central.channelActiveWindows channel + 1
      ({ central with
          channelActiveWindows := Function.update central.channelActiveWindows channel windows
          channelRetestLevel :=
            if windows ≥ config.hopRestoreWindows then
              Function.update central.channelRetestLevel channel 0
            else central.channelRetestLevel }, changed)
    else (central, changed)
  else
    let retest := hopPolicyRetestThreshold config.hopRestoreWindows
      (central.channelRetestLevel channel)
    let windows := central.channelMaskedWindows channel + 1
    if windows ≥ retest then
      ({ central with
          pendingMask := hopPolicyMaskSet central.pendingMask channel true
          channelBad := Function.update central.channelBad channel 0
          channelMaskedWindows := Function.update central.channelMaskedWindows channel 0 }, true)
    else
      ({ central with
          channelMaskedWindows := Function.update central.channelMaskedWindows channel windows },
        changed)

/-- Masks the worst channel while more than the floor stay active. -/
def maskWorstChannel (state : HopCentral config × Bool) : HopCentral config × Bool :=
  let (central, changed) := state
  if config.hopMinActive.toNat < hopPolicyMaskActiveCount central.pendingMask config.hopCount then
    let worst := hopPolicyWorstChannel central.channelBad central.pendingMask central.anchorMask
      config.hopCount config.hopMaskThreshold
    if worst < config.hopCount then
      ({ central with
          pendingMask := hopPolicyMaskSet central.pendingMask worst false
          channelMaskedWindows := Function.update central.channelMaskedWindows worst 0
          channelRetestLevel :=
            if central.channelActiveWindows worst < config.hopRestoreWindows ∧
                central.channelRetestLevel worst < hopPolicyRetestLevelMax then
              Function.update central.channelRetestLevel worst
                (central.channelRetestLevel worst + 1)
            else central.channelRetestLevel
          channelActiveWindows := Function.update central.channelActiveWindows worst 0 }, true)
    else (central, changed)
  else (central, changed)

def recomputeMask (central : HopCentral config) (active : UInt32) : HopCentral config :=
  let (central, changed) := maskWorstChannel
    ((List.range config.hopCount).foldl (recomputeChannel active) (central.ensureMask, false))
  if changed then
    { central with pendingValid := true, maskUpdateRepeats := maskUpdateRepeatWindows }
  else central

/-! ## One window -/

/-- The pipes heard in this window that were lost in the last. -/
def rejoining (central : HopCentral config) (window : HopWindow) : List ℕ :=
  (List.range config.peripheralCount).filter fun pipe =>
    maskHasBit window.heard pipe && central.pipeWasLost pipe

def noteLostPipes (central : HopCentral config) (window : HopWindow) : HopCentral config :=
  { central with
    pipeWasLost := fun pipe => pipe < config.peripheralCount &&
      config.hopPipeNeedsRendezvous window.quietMs pipe }

def countSilence (central : HopCentral config) (heard : UInt32) : HopCentral config :=
  if heard ≠ 0 then { central with silentWindows := 0, silentEscapes := 0 }
  else { central with silentWindows := central.silentWindows + 1 }

/-- Everything a window does before it decides whether to hop. -/
def observe (central : HopCentral config) (window : HopWindow) : HopCentral config :=
  ((((central.accrueLoss window).scoreCurrentChannel window).recomputeMask
    window.active).noteLostPipes window).countSilence window.heard

def votesHop (central : HopCentral config) : Bool :=
  hopPolicyHopVote central.pipeLoss config.pipeWeights config.hopThreshold

def hopOnVote (central : HopCentral config) : HopCentral config :=
  if central.votesHop then central.hopToNextEpoch else central

def escapesSilence (central : HopCentral config) : Bool :=
  config.silentEscapeWindows ≤ central.silentWindows.toNat &&
    central.silentEscapes.toNat < config.silentEscapeLimit

def noteEscape (central : HopCentral config) : HopCentral config :=
  { central with silentEscapes := central.silentEscapes + 1 }

def hopOutOfSilence (central : HopCentral config) : HopCentral config :=
  if central.escapesSilence then central.noteEscape.escapeSilentChannel else central

def beaconFor (central : HopCentral config) (window : HopWindow) : EsbBeacon where
  epoch := central.hopEpoch
  hidModifiers := window.hidModifiers
  hidIndicators := window.hidIndicators
  peers := (List.range config.peripheralCount).map window.peers

def stageBeaconTo (central : HopCentral config) (window : HopWindow) (pipe : ℕ) : HopOutput :=
  let data := (central.beaconFor window).encode
  if config.wirePipe pipe then .wireSend data else .latchControl pipe .beacon data

def pipeHeardInWindow (config : HopConfig) (window : HopWindow) (pipe : ℕ) : Bool :=
  if config.wirePipe pipe then window.wireUp else maskHasBit window.heard pipe

def stageBeacon (central : HopCentral config) (window : HopWindow) :
    HopCentral config × List HopOutput :=
  let (beaconedEpoch, repeatsLeft, burst) := hopPolicyShouldBeacon central.hopEpoch
    central.beaconedEpoch central.beaconRepeatsLeft beaconRepeatWindows
  let (beaconWindow, refresh) :=
    hopPolicyWindowPeriodFires central.beaconWindow beaconRssiPeriodWindows
  let central := { central with
    beaconedEpoch := beaconedEpoch, beaconRepeatsLeft := repeatsLeft, beaconWindow := beaconWindow }
  let pipes := if burst || refresh then
    (List.range config.peripheralCount).filter fun pipe =>
      !config.selfPipe pipe && (burst || pipeHeardInWindow config window pipe) else []
  (central, pipes.map (central.stageBeaconTo window))

def stageMaskUpdate (central : HopCentral config) (window : HopWindow) :
    HopCentral config × List HopOutput :=
  let burst := central.maskUpdateRepeats > 0
  let (maskWindow, refresh) := hopPolicyWindowPeriodFires central.maskWindow maskRefreshWindows
  let central := { central with maskWindow := maskWindow }
  if burst ∨ refresh then
    let mask := if central.pendingValid then central.pendingMask else central.activeMask
    -- A quiet pipe rejoins on its rejoin beacon instead.
    let pipes := (List.range config.peripheralCount).filter fun pipe =>
      !config.selfPipe pipe && !config.wirePipe pipe &&
        !config.hopPipeNeedsRendezvous window.updateQuietMs pipe
    ({ central with
        maskUpdateRepeats :=
          if burst then central.maskUpdateRepeats - 1 else central.maskUpdateRepeats },
      pipes.map fun pipe => .latchControl pipe .mask (encodeMaskUpdate mask))
  else (central, [])

def decisionWork (central : HopCentral config) (window : HopWindow) :
    HopCentral config × List HopOutput :=
  if config.hopCount ≤ 1 then central.stageBeacon window
  else
    let rejoining := central.rejoining window
    let central := (central.observe window).hopOnVote.hopOutOfSilence
    let rejoinBeacons := rejoining.map (central.stageBeaconTo window)
    let (central, beacons) := central.stageBeacon window
    let (central, maskUpdates) := central.stageMaskUpdate window
    (central, rejoinBeacons ++ beacons ++ maskUpdates)

end HopCentral

end SplitEsb
