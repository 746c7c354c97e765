import SplitEsb.Hop.Policy

/-! # Hop pool and control payloads
The devicetree the two hop engines are built from, and what the central sends a
peripheral on the reverse channel: beacons and mask updates, each in a latch of
its own that the newest value overwrites. -/

namespace SplitEsb

open ByteString

/-! ## The pool -/

def esbLinkControlMaxLength : ℕ := 16

def esbBeaconLength (peerCount : ℕ) : ℕ := 4 + peerCount * 2

def esbMaskUpdateLength (hopCount : ℕ) : ℕ := 1 + esbHopMaskBytes hopCount

/-- The devicetree properties the hop engines read, with the assertions their
build makes on them. -/
structure HopConfig where
  hopChannels : List UInt8
  hopAnchors : Option (List UInt8)
  pipeWeights : List UInt8
  selfPipe : ℕ → Bool
  wirePipe : ℕ → Bool
  hopThreshold : UInt16
  hopMaskThreshold : UInt16
  hopRestoreWindows : UInt16
  hopMinActive : UInt8
  rssiFloorDbm : Int8
  surveyThresholdDbm : Int8
  hopWindowMs : ℕ
  idleKeepaliveMs : ℕ
  hopChannels_pos : 0 < hopChannels.length
  hopChannels_lt : hopChannels.length < 255
  hopAnchors_ne_nil : hopAnchors ≠ some []
  hopAnchors_subset : ∀ anchors ∈ hopAnchors, anchors ⊆ hopChannels
  beacon_fits : esbBeaconLength pipeWeights.length ≤ esbLinkControlMaxLength
  maskUpdate_fits : esbMaskUpdateLength hopChannels.length ≤ esbLinkControlMaxLength

def hopPolicyAnchorDefaultIndex (slot poolCount anchorCount : ℕ) : ℕ :=
  poolCount * (2 * slot + 1) / (2 * anchorCount)

namespace HopConfig

variable (config : HopConfig)

def hopCount : ℕ := config.hopChannels.length

def peripheralCount : ℕ := config.pipeWeights.length

def esbHopLossDetectMs : ℕ := 2 * config.idleKeepaliveMs

def esbHopSweepDwellWindows : ℕ :=
  (config.idleKeepaliveMs + config.hopWindowMs - 1) / config.hopWindowMs + 2

/-- The anchors of the devicetree by their first place in the pool, else up to
three spread over it. -/
def anchorIndices : List ℕ :=
  match config.hopAnchors with
  | some anchors => anchors.map config.hopChannels.idxOf
  | none =>
      let anchorCount := min 3 config.hopCount
      (List.range anchorCount).map fun slot =>
        hopPolicyAnchorDefaultIndex slot config.hopCount anchorCount

def hopIsAnchorIndex (index : ℕ) : Bool := config.anchorIndices.contains index

end HopConfig

/-- Sets the bit of every chosen channel of the pool. -/
def fillMask {n : ℕ} (chosen : ℕ → Bool) (mask : HopMask n) : HopMask n :=
  (List.range n).foldl (fun mask channel =>
    if chosen channel then hopPolicyMaskSet mask channel true else mask) mask

/-- Writing one value to the chosen channels of a pool writes it to each of them. -/
theorem hopPolicyMaskGet_foldl_set {n : ℕ} (chosen : ℕ → Bool) (active : Bool) (mask : HopMask n)
    {channel : ℕ} (hchannel : channel < n) :
    hopPolicyMaskGet ((List.range n).foldl (fun mask channel =>
        if chosen channel then hopPolicyMaskSet mask channel active else mask) mask) channel =
      if chosen channel then active else hopPolicyMaskGet mask channel := by
  have hfold : ∀ (channels : List ℕ) (mask : HopMask n), (∀ other ∈ channels, other < n) →
      hopPolicyMaskGet (channels.foldl (fun mask channel =>
        if chosen channel then hopPolicyMaskSet mask channel active else mask) mask) channel =
      if channel ∈ channels ∧ chosen channel then active else hopPolicyMaskGet mask channel := by
    intro channels
    induction channels with
    | nil => simp
    | cons other channels ih =>
        intro mask hchannels
        rw [List.foldl_cons, ih _ fun o hmem => hchannels o (List.mem_cons_of_mem _ hmem)]
        by_cases hchosen : chosen other = true
        · rw [if_pos hchosen, hopPolicyMaskGet_set (hchannels other (List.mem_cons_self ..))]
          by_cases hsame : channel = other
          · simp [hsame, hchosen]
          · simp [hsame]
        · by_cases hsame : channel = other
          · simp [hsame, hchosen]
          · simp [hsame, hchosen]
  rw [hfold _ mask fun _ hmem => List.mem_range.mp hmem]
  simp [hchannel]

theorem hopPolicyMaskGet_fillMask {n : ℕ} (chosen : ℕ → Bool) (mask : HopMask n) {channel : ℕ}
    (hchannel : channel < n) : hopPolicyMaskGet (fillMask chosen mask) channel =
      (chosen channel || hopPolicyMaskGet mask channel) := by
  rw [fillMask, hopPolicyMaskGet_foldl_set chosen true mask hchannel]
  cases chosen channel <;> rfl

/-! ## Payloads -/

def esbMaskUpdateTag : UInt8 := 0xFD
def esbBeaconTag : UInt8 := 0xFE

structure EsbBeaconPeer where
  battery : UInt8
  rssiDbm : Int8

structure EsbBeacon where
  epoch : UInt8
  hidModifiers : UInt8
  hidIndicators : UInt8
  peers : List EsbBeaconPeer

def EsbBeacon.encode (beacon : EsbBeacon) : Bytes :=
  esbBeaconTag :: beacon.epoch :: beacon.hidModifiers :: beacon.hidIndicators ::
    beacon.peers.flatMap fun peer => [peer.battery, peer.rssiDbm.toUInt8]

def encodeMaskUpdate {n : ℕ} (mask : HopMask n) : Bytes := esbMaskUpdateTag :: mask.toList

def esbHasTag (tag : UInt8) (data : Bytes) : Bool :=
  if data.length = 0 then false else byteAt data 0 == tag

def decodeBeacon (peerCount : ℕ) (data : Bytes) : EsbBeacon where
  epoch := byteAt data 1
  hidModifiers := byteAt data 2
  hidIndicators := byteAt data 3
  peers := (List.range peerCount).map fun peer =>
    ⟨byteAt data (4 + peer * 2), (byteAt data (4 + peer * 2 + 1)).toInt8⟩

def decodeMaskUpdate (n : ℕ) (data : Bytes) : HopMask n :=
  Vector.ofFn fun index => byteAt data (1 + index)

/-! ## Control latches -/

inductive EsbLinkControl where
  | beacon
  | mask
  deriving DecidableEq, Repr

/-- The control latches of one pipe; a publish replaces what is pending. -/
structure ControlLatches where
  beacon : Option Bytes
  mask : Option Bytes
  deriving DecidableEq, Repr

namespace ControlLatches

def empty : ControlLatches := ⟨none, none⟩

def peek (latches : ControlLatches) : EsbLinkControl → Option Bytes
  | .beacon => latches.beacon
  | .mask => latches.mask

def put (latches : ControlLatches) (kind : EsbLinkControl) (value : Option Bytes) :
    ControlLatches :=
  match kind with
  | .beacon => { latches with beacon := value }
  | .mask => { latches with mask := value }

/-- `esb_link_latch_control`, for a pipe of the table. -/
def latchControl (latches : ControlLatches) (kind : EsbLinkControl) (data : Bytes) :
    ControlLatches :=
  if data.length = 0 ∨ data.length > esbLinkControlMaxLength then latches
  else latches.put kind (some data)

/-- The first kind with a pending value is written; a refused write keeps it. -/
def writePendingControl (latches : ControlLatches) (accepted : Bool) :
    ControlLatches × Option Bytes :=
  match [EsbLinkControl.beacon, .mask].find? fun kind => (latches.peek kind).isSome with
  | none => (latches, none)
  | some kind =>
      if accepted then (latches.put kind none, latches.peek kind) else (latches, none)

end ControlLatches

end SplitEsb
