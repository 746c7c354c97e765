import SplitEsb.Hop.Peripheral
import SplitEsb.Hop.Tuning

/-! # Mask and epoch on both ends
The central's decision windows, the acknowledgements of one pipe, and the ticks of
the peripheral behind it. The peripheral's mask is always the last one it was sent,
so it swaps in lockstep exactly when that mask is the one the central committed. -/

namespace SplitEsb

open ByteString Transition

variable {config : HopConfig}

/-- Payloads the central wrote ride to the peripheral in order; `carried` lists the
ones that arrived. -/
structure HopLink (config : HopConfig) where
  central : HopCentral config
  latches : ControlLatches
  inFlight : List Bytes
  peripheral : HopPeripheral config
  carried : List Bytes

inductive HopAction where
  | decide (window : HopWindow)
  | ackOpportunity (accepted : Bool)
  | ackArrives
  | keepaliveTick
  | txSuccess (attempts : UInt8)
  | txFailed
  | noackSent

/-- Where an output of the central lands in the latches of a pipe. -/
def HopOutput.stage (pipe : ℕ) (latches : ControlLatches) : HopOutput → ControlLatches
  | .latchControl target kind data =>
      if target = pipe then latches.latchControl kind data else latches
  | .wireSend _ => latches

namespace HopLink

def boot (config : HopConfig) (stored : Option Bytes) (energyDbm : ℕ → Int8)
    (retained : HopRetained config) : HopLink config where
  central := .boot config stored energyDbm
  latches := .empty
  inFlight := []
  peripheral := .boot retained
  carried := []

def step (pipe : ℕ) (link : HopLink config) : HopAction → HopLink config
  | .decide window =>
      let (central, outputs) := link.central.decisionWork window
      { link with central := central, latches := outputs.foldl (HopOutput.stage pipe) link.latches }
  | .ackOpportunity accepted =>
      let (latches, written) := link.latches.writePendingControl accepted
      { link with latches := latches, inFlight := link.inFlight ++ written.toList }
  | .ackArrives =>
      match link.inFlight with
      | [] => link
      | data :: inFlight =>
          { link with
            inFlight := inFlight
            peripheral := link.peripheral.hopConsumeRx pipe data
            carried := link.carried ++ [data] }
  | .keepaliveTick => { link with peripheral := link.peripheral.keepaliveWork }
  | .txSuccess attempts => { link with peripheral := link.peripheral.hopNoteTxSuccess attempts }
  | .txFailed => { link with peripheral := link.peripheral.hopNoteTxFailed }
  | .noackSent => { link with peripheral := link.peripheral.hopNoteNoackSent }

end HopLink

/-! ## The mask a peripheral was last sent -/

/-- `esb_is_mask_update`. -/
def esbIsMaskUpdate (hopCount : ℕ) (data : Bytes) : Bool :=
  if data.length ≠ esbMaskUpdateLength hopCount then false else esbHasTag esbMaskUpdateTag data

/-- The last mask update among the payloads, or the mask to start from. -/
def carriedMask (start : HopMask config.hopCount) (carried : List Bytes) :
    HopMask config.hopCount :=
  carried.foldl (fun mask data =>
    if esbIsMaskUpdate config.hopCount data then decodeMaskUpdate config.hopCount data else mask)
    start

namespace HopPeripheral

/-- The mask the next adopted epoch would swap in. -/
def newestMask (peripheral : HopPeripheral config) : HopMask config.hopCount :=
  peripheral.stagedMask.getD peripheral.ensureMask.activeMask

def masks (peripheral : HopPeripheral config) :
    Option (HopMask config.hopCount) × HopMask config.hopCount × Bool :=
  (peripheral.stagedMask, peripheral.activeMask, peripheral.maskReady)

theorem newestMask_congr {peripheral other : HopPeripheral config}
    (h : other.masks = peripheral.masks) : other.newestMask = peripheral.newestMask := by
  obtain ⟨hstaged, hactive, hready⟩ : other.stagedMask = peripheral.stagedMask ∧
      other.activeMask = peripheral.activeMask ∧ other.maskReady = peripheral.maskReady := by
    simpa only [masks, Prod.mk.injEq] using h
  rw [newestMask, newestMask, hstaged, ensureMask, ensureMask, hready]
  split_ifs
  · rw [hactive]
  · simp only [hactive]

theorem hopNoteTxSuccess_masks (peripheral : HopPeripheral config) (attempts : UInt8) :
    (peripheral.hopNoteTxSuccess attempts).masks = peripheral.masks := by
  simp only [hopNoteTxSuccess]
  split_ifs <;> rfl

theorem hopNoteTxFailed_masks (peripheral : HopPeripheral config) :
    peripheral.hopNoteTxFailed.masks = peripheral.masks := by
  simp only [hopNoteTxFailed]
  split_ifs <;> rfl

theorem hopNoteNoackSent_masks (peripheral : HopPeripheral config) :
    peripheral.hopNoteNoackSent.masks = peripheral.masks := by
  simp only [hopNoteNoackSent]
  split_ifs <;> rfl

theorem connectedWindow_masks (peripheral : HopPeripheral config) :
    peripheral.connectedWindow.masks = peripheral.masks := by
  simp only [connectedWindow]
  split_ifs <;> rfl

theorem lostWindow_masks (peripheral : HopPeripheral config) :
    peripheral.lostWindow.masks = peripheral.masks := by
  simp only [lostWindow]
  split_ifs <;> rfl

theorem ensureMask_maskReady (peripheral : HopPeripheral config) :
    peripheral.ensureMask.maskReady = true := by
  rw [ensureMask]
  split_ifs with h
  · exact h
  · rfl

theorem newestMask_of_ready {peripheral : HopPeripheral config}
    (hready : peripheral.maskReady = true) :
    peripheral.newestMask = peripheral.stagedMask.getD peripheral.activeMask := by
  rw [newestMask, ensureMask, if_pos hready]

theorem newestMask_ensureMask (peripheral : HopPeripheral config) :
    peripheral.ensureMask.newestMask = peripheral.newestMask := by
  have hstaged : peripheral.ensureMask.stagedMask = peripheral.stagedMask := by
    rw [ensureMask]
    split_ifs <;> rfl
  rw [newestMask_of_ready peripheral.ensureMask_maskReady, hstaged, newestMask]

/-! ## Adoption -/

theorem adoptEpoch_activeMask {peripheral : HopPeripheral config}
    (hready : peripheral.maskReady = true) (epoch : UInt8) :
    (peripheral.adoptEpoch epoch).activeMask = peripheral.newestMask := by
  rw [newestMask_of_ready hready]
  cases hstaged : peripheral.stagedMask <;>
    simp [adoptEpoch, adoptStagedMask, clearWindowAttempts, hstaged]

theorem adoptEpoch_newestMask {peripheral : HopPeripheral config}
    (hready : peripheral.maskReady = true) (epoch : UInt8) :
    (peripheral.adoptEpoch epoch).newestMask = peripheral.newestMask := by
  have hready' : (peripheral.adoptEpoch epoch).maskReady = true := by
    cases hstaged : peripheral.stagedMask <;>
      simp [adoptEpoch, adoptStagedMask, clearWindowAttempts, hstaged, hready]
  have hnone : (peripheral.adoptEpoch epoch).stagedMask = none := by
    cases hstaged : peripheral.stagedMask <;>
      simp [adoptEpoch, adoptStagedMask, clearWindowAttempts, hstaged]
  rw [newestMask_of_ready hready', hnone, Option.getD_none, adoptEpoch_activeMask hready]

theorem adoptEpoch_hopIndex (peripheral : HopPeripheral config) (epoch : UInt8) :
    (peripheral.adoptEpoch epoch).hopIndex = hopPolicyChannelForEpochMasked epoch.toUInt16
      (peripheral.adoptEpoch epoch).activeMask config.hopCount := rfl

/-- A tick that finds a new epoch. -/
def Adopts (peripheral : HopPeripheral config) : Prop :=
  1 < config.hopCount ∧ peripheral.beaconEpoch ≠ peripheral.adoptedEpoch

theorem retain_masks_hopIndex (peripheral : HopPeripheral config) :
    let kept := if peripheral.linkAcked then peripheral.retainLinkState else peripheral
    kept.masks = peripheral.masks ∧ kept.hopIndex = peripheral.hopIndex := by
  dsimp only
  split_ifs <;> exact ⟨rfl, rfl⟩

theorem newestMask_keepaliveWork (peripheral : HopPeripheral config) :
    peripheral.keepaliveWork.newestMask = peripheral.newestMask := by
  have hsettle : peripheral.settleLinkState.newestMask = peripheral.newestMask :=
    newestMask_congr rfl
  rw [keepaliveWork]
  split_ifs
  · exact hsettle
  · have hensure := newestMask_ensureMask peripheral.settleLinkState
    have hready := ensureMask_maskReady peripheral.settleLinkState
    rw [hopWindow, newestMask_congr (retain_masks_hopIndex _).1, ← hsettle, ← hensure]
    split_ifs
    · exact adoptEpoch_newestMask hready _
    · exact newestMask_congr (connectedWindow_masks _)
    · exact newestMask_congr (lostWindow_masks _)

/-- An adopting tick swaps in the newest mask and tunes to its channel of the epoch. -/
theorem Adopts.keepaliveWork {peripheral : HopPeripheral config} (h : peripheral.Adopts) :
    peripheral.keepaliveWork.activeMask = peripheral.newestMask ∧
      peripheral.keepaliveWork.hopIndex = hopPolicyChannelForEpochMasked
        peripheral.beaconEpoch.toUInt16 peripheral.newestMask config.hopCount := by
  have hready := ensureMask_maskReady peripheral.settleLinkState
  have hnewest : peripheral.settleLinkState.ensureMask.newestMask = peripheral.newestMask :=
    (newestMask_ensureMask _).trans (newestMask_congr rfl)
  have hepochs : peripheral.settleLinkState.ensureMask.beaconEpoch = peripheral.beaconEpoch ∧
      peripheral.settleLinkState.ensureMask.adoptedEpoch = peripheral.adoptedEpoch := by
    rw [ensureMask]
    split_ifs <;> exact ⟨rfl, rfl⟩
  have hadopt : peripheral.settleLinkState.ensureMask.beaconEpoch ≠
      peripheral.settleLinkState.ensureMask.adoptedEpoch := by
    rw [hepochs.1, hepochs.2]
    exact h.2
  obtain ⟨hmasks, hindex⟩ := retain_masks_hopIndex
    (peripheral.settleLinkState.ensureMask.adoptEpoch peripheral.beaconEpoch)
  have hactive := adoptEpoch_activeMask hready peripheral.beaconEpoch
  rw [hnewest] at hactive
  rw [HopPeripheral.keepaliveWork, if_neg (by have := h.1; omega), hopWindow]
  rw [if_pos hadopt, hepochs.1, hindex, adoptEpoch_hopIndex, hactive]
  exact ⟨(congrArg (fun masks => masks.2.1) hmasks).trans hactive, rfl⟩

/-! ## Payloads -/

theorem not_isMaskUpdate_of_beacon {data : Bytes} (hopCount : ℕ)
    (hbeacon : esbHasTag esbBeaconTag data = true) : esbIsMaskUpdate hopCount data = false := by
  have hne : byteAt data 0 ≠ esbMaskUpdateTag := by
    intro htag
    rw [esbHasTag, htag] at hbeacon
    split_ifs at hbeacon
    cases hbeacon
  rw [esbIsMaskUpdate, esbHasTag]
  split_ifs
  · rfl
  · rfl
  · exact beq_false_of_ne hne

theorem newestMask_hopConsumeRx (pipe : ℕ) (peripheral : HopPeripheral config) (data : Bytes)
    (hcount : 1 < config.hopCount) : (peripheral.hopConsumeRx pipe data).newestMask =
      if esbIsMaskUpdate config.hopCount data then decodeMaskUpdate config.hopCount data
      else peripheral.newestMask := by
  rw [hopConsumeRx]
  by_cases hbeacon : esbHasTag esbBeaconTag data = true
  · rw [if_pos hbeacon, not_isMaskUpdate_of_beacon config.hopCount hbeacon,
      if_neg Bool.false_ne_true, consumeBeacon]
    split_ifs
    · rfl
    · exact newestMask_congr rfl
  · rw [if_neg hbeacon, if_neg (by omega), consumeMaskUpdate, esbIsMaskUpdate]
    by_cases hlength : data.length = esbMaskUpdateLength config.hopCount
    · rw [if_neg (not_not_intro hlength), if_neg (not_not_intro hlength)]
      split_ifs <;> rfl
    · rw [if_pos hlength, if_pos hlength, if_neg Bool.false_ne_true]
      split_ifs <;> rfl

end HopPeripheral

namespace HopLink

/-- The central sits where its epoch and mask put it, and the peripheral holds the
last mask the acknowledgements carried. -/
structure Synced (start : HopMask config.hopCount) (link : HopLink config) : Prop where
  tuned : link.central.Tuned
  newest : 1 < config.hopCount → link.peripheral.newestMask = carriedMask start link.carried

theorem Synced.boot (config : HopConfig) (stored : Option Bytes) (energyDbm : ℕ → Int8)
    (retained : HopRetained config) :
    (boot config stored energyDbm retained).Synced (HopPeripheral.boot retained).newestMask :=
  ⟨.boot config stored energyDbm, fun _ => rfl⟩

theorem Synced.step {start : HopMask config.hopCount} {link : HopLink config} (h : link.Synced start)
    (pipe : ℕ) (action : HopAction) : (link.step pipe action).Synced start := by
  cases action with
  | decide window => exact ⟨h.tuned.decisionWork window, h.newest⟩
  | ackOpportunity accepted => exact ⟨h.tuned, h.newest⟩
  | ackArrives =>
      rw [HopLink.step]
      split
      · exact h
      · refine ⟨h.tuned, fun hcount => ?_⟩
        rw [HopPeripheral.newestMask_hopConsumeRx _ _ _ hcount, h.newest hcount]
        simp [carriedMask]
  | keepaliveTick =>
      exact ⟨h.tuned, fun hcount => (HopPeripheral.newestMask_keepaliveWork _).trans (h.newest hcount)⟩
  | txSuccess attempts =>
      exact ⟨h.tuned, fun hcount => (HopPeripheral.newestMask_congr
        (HopPeripheral.hopNoteTxSuccess_masks _ _)).trans (h.newest hcount)⟩
  | txFailed =>
      exact ⟨h.tuned, fun hcount => (HopPeripheral.newestMask_congr
        (HopPeripheral.hopNoteTxFailed_masks _)).trans (h.newest hcount)⟩
  | noackSent =>
      exact ⟨h.tuned, fun hcount => (HopPeripheral.newestMask_congr
        (HopPeripheral.hopNoteNoackSent_masks _)).trans (h.newest hcount)⟩

/-! ## Lockstep -/

/-- The action is a tick that adopts the epoch the central is on. -/
def AdoptsCurrent (link : HopLink config) (action : HopAction) : Prop :=
  action = .keepaliveTick ∧ link.peripheral.Adopts ∧
    link.peripheral.beaconEpoch = link.central.hopEpoch

/-- Such a tick leaves both ends with one mask, and so on one channel. -/
def InLockstep (pipe : ℕ) (link : HopLink config) (action : HopAction) : Prop :=
  link.AdoptsCurrent action →
    (link.step pipe action).peripheral.activeMask = (link.step pipe action).central.activeMask ∧
      (link.step pipe action).peripheral.hopIndex = (link.step pipe action).central.hopIndex

/-- Such a tick comes when the last mask the acknowledgements carried is the one the
central has committed. -/
def CommittedMaskCarried (start : HopMask config.hopCount) (link : HopLink config)
    (action : HopAction) : Prop :=
  link.AdoptsCurrent action → carriedMask start link.carried = link.central.activeMask

theorem Synced.inLockstep_iff {start : HopMask config.hopCount} {link : HopLink config}
    (h : link.Synced start) (pipe : ℕ) (action : HopAction) :
    link.InLockstep pipe action ↔ link.CommittedMaskCarried start action := by
  refine forall_congr' fun hadopts => ?_
  obtain ⟨rfl, hadopts, hepoch⟩ := hadopts
  obtain ⟨hmask, hindex⟩ := hadopts.keepaliveWork
  rw [h.newest hadopts.1] at hmask hindex
  change link.peripheral.keepaliveWork.activeMask = link.central.activeMask ∧
    link.peripheral.keepaliveWork.hopIndex = link.central.hopIndex ↔ _
  rw [hmask, hindex, h.tuned.hopIndex_eq, hepoch]
  constructor
  · exact fun hboth => hboth.1
  · intro hcarried
    rw [hcarried]
    exact ⟨rfl, rfl⟩

end HopLink

open HopLink

/-- Over every run from every boot, the ends are in lockstep at every adoption iff
every adoption finds the committed mask carried. -/
theorem mask_rides_epoch_iff (config : HopConfig) (pipe : ℕ) (stored : Option Bytes)
    (energyDbm : ℕ → Int8) (retained : HopRetained config) (actions : List HopAction) :
    Along (step pipe) (InLockstep pipe) (boot config stored energyDbm retained) actions ↔
      Along (step pipe) (CommittedMaskCarried (HopPeripheral.boot retained).newestMask)
        (boot config stored energyDbm retained) actions :=
  along_congr (fun _ action h => h.step pipe action) (fun _ action h => h.inLockstep_iff pipe action)
    (Synced.boot config stored energyDbm retained) actions

/-- A peripheral that powers up cold. -/
def coldRetained : HopRetained sampleHopConfig where
  magic := 0
  hopIndex := 0
  epoch := 0
  mask := Vector.replicate _ 0
  checksum := 0

/-- One clean window, one acknowledgement, one tick. -/
def firstExchange : List HopAction :=
  [.decide { lostWindow with motion := 1 }, .ackOpportunity true, .ackArrives, .keepaliveTick]

/-- The beacon of the boot epoch arrives ahead of the boot mask, and the tick between
them adopts the epoch with the full pool. -/
theorem mask_trails_epoch : ¬ ∀ (config : HopConfig) (pipe : ℕ) (stored : Option Bytes)
    (energyDbm : ℕ → Int8) (retained : HopRetained config) (actions : List HopAction),
    Along (step pipe) (InLockstep pipe) (boot config stored energyDbm retained) actions := by
  intro h
  have hrun := h sampleHopConfig 0 none noisySecondChannel coldRetained firstExchange
  have hadopts : HopPeripheral.Adopts (run (step 0) (boot sampleHopConfig none noisySecondChannel
      coldRetained) (firstExchange.take 3)).peripheral := ⟨by decide, by decide +kernel⟩
  have hlockstep := hrun.2.2.2.1 ⟨rfl, hadopts, by decide +kernel⟩
  exact absurd hlockstep.2 (by decide +kernel)

end SplitEsb
