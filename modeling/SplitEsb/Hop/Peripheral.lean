import SplitEsb.Hop.Control

/-! # Peripheral hop engine
What the radio leaves for the keepalive tick, and the tick: adopt a new epoch with
the staged mask, else judge the window the central answered, else sweep. -/

namespace SplitEsb

open ByteString

def hopRetainedMagic : UInt32 := 0x484F5031

/-- The link state kept in memory a reset does not clear. -/
structure HopRetained (config : HopConfig) where
  magic : UInt32
  hopIndex : UInt8
  epoch : UInt8
  mask : HopMask config.hopCount
  checksum : UInt8

structure HopPeripheral (config : HopConfig) where
  hopIndex : ℕ
  beaconEpoch : UInt8
  adoptedEpoch : UInt8
  activeMask : HopMask config.hopCount
  maskReady : Bool
  stagedMask : Option (HopMask config.hopCount)
  linkAcked : Bool
  badWindows : UInt8
  sweepWindows : UInt16
  degradeUndoIndex : ℕ
  degradeUndoArmed : Bool
  attemptsEwmaX10 : UInt16
  maxTxAttempts : UInt8
  windowAttemptsSum : UInt32
  windowPackets : UInt32
  windowNoackPackets : UInt32
  txSucceededSinceTick : Bool
  txFailedSinceTick : Bool
  noackSentSinceTick : Bool
  uplinkRssiDbm : Int8
  hidModifiers : UInt8
  hidIndicators : UInt8
  peerTable : List EsbBeaconPeer
  retainedLink : HopRetained config

variable {config : HopConfig}

def retainedChecksum (retained : HopRetained config) : UInt8 :=
  retained.mask.toList.foldl (· ^^^ ·) (retained.hopIndex ^^^ retained.epoch)

namespace HopPeripheral

/-- Memory at reset: everything cleared but the retained record. -/
def zero (retained : HopRetained config) : HopPeripheral config where
  hopIndex := 0
  beaconEpoch := 0
  adoptedEpoch := 0
  activeMask := Vector.replicate _ 0
  maskReady := false
  stagedMask := none
  linkAcked := false
  badWindows := 0
  sweepWindows := 0
  degradeUndoIndex := 0
  degradeUndoArmed := false
  attemptsEwmaX10 := 10
  maxTxAttempts := 0
  windowAttemptsSum := 0
  windowPackets := 0
  windowNoackPackets := 0
  txSucceededSinceTick := false
  txFailedSinceTick := false
  noackSentSinceTick := false
  uplinkRssiDbm := 0
  hidModifiers := 0
  hidIndicators := 0
  peerTable := []
  retainedLink := retained

def ensureMask (peripheral : HopPeripheral config) : HopPeripheral config :=
  if peripheral.maskReady then peripheral
  else
    { peripheral with
      activeMask := fillMask (fun _ => true) peripheral.activeMask
      maskReady := true }

def retainLinkState (peripheral : HopPeripheral config) : HopPeripheral config :=
  let retained : HopRetained config :=
    { magic := hopRetainedMagic, hopIndex := UInt8.ofNat peripheral.hopIndex,
      epoch := peripheral.adoptedEpoch, mask := peripheral.activeMask, checksum := 0 }
  { peripheral with
    retainedLink := { retained with checksum := retainedChecksum retained } }

def hopRestore (peripheral : HopPeripheral config) : HopPeripheral config :=
  let retained := peripheral.retainedLink
  if config.hopCount ≤ 1 then peripheral
  else if retained.magic ≠ hopRetainedMagic ∨ retained.checksum ≠ retainedChecksum retained ∨
      config.hopCount ≤ retained.hopIndex.toNat then peripheral
  else
    { peripheral.ensureMask with
      activeMask := retained.mask
      adoptedEpoch := retained.epoch
      beaconEpoch := retained.epoch
      hopIndex := retained.hopIndex.toNat }

def boot (retained : HopRetained config) : HopPeripheral config := (zero retained).hopRestore

/-! ## From the radio -/

/-- A beacon of another length belongs to another peripheral list and is ignored. -/
def consumeBeacon (pipe : ℕ) (peripheral : HopPeripheral config) (data : Bytes) :
    HopPeripheral config :=
  if data.length ≠ esbBeaconLength config.peripheralCount then peripheral
  else
    let beacon := decodeBeacon config.peripheralCount data
    { peripheral with
      beaconEpoch := beacon.epoch
      uplinkRssiDbm := (beacon.peers.map EsbBeaconPeer.rssiDbm).getD pipe 0
      hidModifiers := beacon.hidModifiers
      hidIndicators := beacon.hidIndicators
      peerTable := beacon.peers }

def consumeMaskUpdate (peripheral : HopPeripheral config) (data : Bytes) : HopPeripheral config :=
  if data.length ≠ esbMaskUpdateLength config.hopCount then peripheral
  else { peripheral with stagedMask := some (decodeMaskUpdate config.hopCount data) }

def hopConsumeRx (pipe : ℕ) (peripheral : HopPeripheral config) (data : Bytes) :
    HopPeripheral config :=
  if esbHasTag esbBeaconTag data then peripheral.consumeBeacon pipe data
  else if config.hopCount ≤ 1 then peripheral
  else if esbHasTag esbMaskUpdateTag data then peripheral.consumeMaskUpdate data
  else peripheral

def recordTxAttempts (peripheral : HopPeripheral config) (attempts : UInt8) :
    HopPeripheral config :=
  { peripheral with maxTxAttempts := max peripheral.maxTxAttempts attempts }

def hopNoteTxSuccess (peripheral : HopPeripheral config) (attempts : UInt8) :
    HopPeripheral config :=
  let peripheral := { peripheral with txSucceededSinceTick := true }
  if 1 < config.hopCount then
    let peripheral := peripheral.recordTxAttempts attempts
    { peripheral with
      windowAttemptsSum := peripheral.windowAttemptsSum + attempts.toUInt32
      windowPackets := peripheral.windowPackets + 1 }
  else peripheral

def hopNoteTxFailed (peripheral : HopPeripheral config) : HopPeripheral config :=
  let peripheral := { peripheral with txFailedSinceTick := true, txSucceededSinceTick := false }
  if 1 < config.hopCount then peripheral.recordTxAttempts 0xFF else peripheral

def hopNoteNoackSent (peripheral : HopPeripheral config) : HopPeripheral config :=
  let peripheral := { peripheral with noackSentSinceTick := true }
  if 1 < config.hopCount then
    { peripheral with windowNoackPackets := peripheral.windowNoackPackets + 1 }
  else peripheral

/-! ## The keepalive tick -/

def adoptStagedMask (peripheral : HopPeripheral config) : HopPeripheral config :=
  match peripheral.stagedMask with
  | none => peripheral
  | some mask => { peripheral with activeMask := mask, stagedMask := none }

def clearWindowAttempts (peripheral : HopPeripheral config) : HopPeripheral config :=
  { peripheral with
    maxTxAttempts := 0
    windowAttemptsSum := 0
    windowPackets := 0
    windowNoackPackets := 0 }

def adoptEpoch (peripheral : HopPeripheral config) (epoch : UInt8) : HopPeripheral config :=
  let peripheral := { peripheral with adoptedEpoch := epoch }.adoptStagedMask
  { peripheral with
    hopIndex :=
      hopPolicyChannelForEpochMasked epoch.toUInt16 peripheral.activeMask config.hopCount
    badWindows := 0
    sweepWindows := 0
    degradeUndoArmed := false
    attemptsEwmaX10 := 10 }.clearWindowAttempts

def connectedWindow (peripheral : HopPeripheral config) : HopPeripheral config :=
  let worstAttempts := peripheral.maxTxAttempts
  let typicalAttempts := hopPolicyAckedWindowAttempts peripheral.windowAttemptsSum
    peripheral.windowPackets peripheral.windowNoackPackets
  let penalty := hopPolicyAttemptsPenalty typicalAttempts hopPolicyGoodTxAttempts
  let (badWindows, leave) :=
    hopPolicyShouldHop peripheral.badWindows penalty config.hopThreshold
  let peripheral := { peripheral with
    sweepWindows := 0
    degradeUndoArmed := false
    attemptsEwmaX10 :=
      if worstAttempts > 0 then hopPolicyEwmaUpdate peripheral.attemptsEwmaX10 worstAttempts
      else peripheral.attemptsEwmaX10
    badWindows := badWindows }.clearWindowAttempts
  if leave then
    { peripheral with
      degradeUndoIndex := peripheral.hopIndex
      degradeUndoArmed := true
      hopIndex :=
        hopPolicyIndexNextActive peripheral.hopIndex peripheral.activeMask config.hopCount }
  else peripheral

def lostWindow (peripheral : HopPeripheral config) : HopPeripheral config :=
  let sweepWindows :=
    UInt16.ofNat ((peripheral.sweepWindows.toNat + 1) % config.esbHopSweepDwellWindows)
  let peripheral :=
    { peripheral with badWindows := 0, sweepWindows := sweepWindows }.clearWindowAttempts
  if peripheral.degradeUndoArmed then
    { peripheral with degradeUndoArmed := false, hopIndex := peripheral.degradeUndoIndex }
  else if sweepWindows = 0 then
    { peripheral with hopIndex := hopPolicyIndexNext peripheral.hopIndex config.hopCount }
  else peripheral

/-- A success after the last failure proves an acknowledgement only in a window
without fire-and-forget sends. -/
def settleLinkState (peripheral : HopPeripheral config) : HopPeripheral config :=
  let failed := peripheral.txFailedSinceTick
  let succeeded := peripheral.txSucceededSinceTick
  let ackProven := succeeded && !peripheral.noackSentSinceTick
  { peripheral with
    txFailedSinceTick := false
    txSucceededSinceTick := false
    noackSentSinceTick := false
    linkAcked :=
      if failed && !ackProven then false
      else if succeeded then true
      else peripheral.linkAcked }

/-- The hop part of the tick, on a pool of more than one channel. -/
def hopWindow (peripheral : HopPeripheral config) : HopPeripheral config :=
  let peripheral := peripheral.ensureMask
  let peripheral :=
    if peripheral.beaconEpoch ≠ peripheral.adoptedEpoch then
      peripheral.adoptEpoch peripheral.beaconEpoch
    else if peripheral.linkAcked then peripheral.connectedWindow
    else peripheral.lostWindow
  if peripheral.linkAcked then peripheral.retainLinkState else peripheral

def keepaliveWork (peripheral : HopPeripheral config) : HopPeripheral config :=
  if config.hopCount ≤ 1 then peripheral.settleLinkState
  else peripheral.settleLinkState.hopWindow

end HopPeripheral

end SplitEsb
