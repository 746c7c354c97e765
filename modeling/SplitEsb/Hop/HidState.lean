import SplitEsb.Central.State
import SplitEsb.Hop.Announce
import SplitEsb.Hop.Lockstep

/-! # Host state on the peripherals
The central's modifiers and indicators ride the beacons: staged at once when they
change, and again with every refresh. A peripheral shows what its last beacon said. -/

namespace SplitEsb

open ByteString Transition

/-! ## The state word -/

def esbHidStateIndicatorsShift : UInt16 := 8

def esbHidStatePack (modifiers indicators : UInt8) : UInt16 :=
  modifiers.toUInt16 ||| (indicators.toUInt16 <<< esbHidStateIndicatorsShift)

def esbHidStateModifiers (state : UInt16) : UInt8 := state.toUInt8

def esbHidStateIndicators (state : UInt16) : UInt8 := (state >>> esbHidStateIndicatorsShift).toUInt8

@[simp] theorem esbHidStateModifiers_pack (modifiers indicators : UInt8) :
    esbHidStateModifiers (esbHidStatePack modifiers indicators) = modifiers := by
  refine UInt8.toBitVec_inj.mp (BitVec.eq_of_getLsbD_eq fun i hi => ?_)
  simp [esbHidStateModifiers, esbHidStatePack, esbHidStateIndicatorsShift]

@[simp] theorem esbHidStateIndicators_pack (modifiers indicators : UInt8) :
    esbHidStateIndicators (esbHidStatePack modifiers indicators) = indicators := by
  refine UInt8.toBitVec_inj.mp (BitVec.eq_of_getLsbD_eq fun i hi => ?_)
  simp [esbHidStateIndicators, esbHidStatePack, esbHidStateIndicatorsShift]
  have hlow : 8 + i < 16 ∧ i < 16 := by omega
  simp [hi, hlow]

/-! ## Beacons -/

structure HidState where
  modifiers : UInt8
  indicators : UInt8
  deriving DecidableEq, Repr

def EsbBeacon.hidState (beacon : EsbBeacon) : HidState := ⟨beacon.hidModifiers, beacon.hidIndicators⟩

theorem length_flatMap_peers (peers : List EsbBeaconPeer) :
    (peers.flatMap fun peer => [peer.battery, peer.rssiDbm.toUInt8]).length = 2 * peers.length := by
  induction peers with
  | nil => rfl
  | cons peer peers ih =>
      rw [List.flatMap_cons, List.length_append, ih, List.length_cons, List.length_cons,
        List.length_nil, List.length_cons]
      omega

theorem EsbBeacon.length_encode (beacon : EsbBeacon) :
    beacon.encode.length = esbBeaconLength beacon.peers.length := by
  rw [EsbBeacon.encode]
  simp only [List.length_cons, length_flatMap_peers]
  rw [esbBeaconLength]
  omega

theorem EsbBeacon.hasTag_encode (beacon : EsbBeacon) :
    esbHasTag esbBeaconTag beacon.encode = true := rfl

theorem not_hasTag_maskUpdate {n : ℕ} (mask : HopMask n) :
    esbHasTag esbBeaconTag (encodeMaskUpdate mask) = false := rfl

theorem getElem?_flatMap_peers (peers : List EsbBeaconPeer) (peer : ℕ) :
    (peers.flatMap fun peer => [peer.battery, peer.rssiDbm.toUInt8])[2 * peer]? =
        peers[peer]?.map EsbBeaconPeer.battery ∧
      (peers.flatMap fun peer => [peer.battery, peer.rssiDbm.toUInt8])[2 * peer + 1]? =
        peers[peer]?.map fun peer => peer.rssiDbm.toUInt8 := by
  induction peers generalizing peer with
  | nil => exact ⟨rfl, rfl⟩
  | cons first peers ih =>
      cases peer with
      | zero => exact ⟨rfl, rfl⟩
      | succ peer => exact ih peer

/-- A peripheral reads back the beacon the central wrote. -/
theorem decodeBeacon_encode (beacon : EsbBeacon) :
    decodeBeacon beacon.peers.length beacon.encode = beacon := by
  have hpeers : (List.range beacon.peers.length).map (fun peer =>
      (⟨byteAt beacon.encode (4 + peer * 2), (byteAt beacon.encode (4 + peer * 2 + 1)).toInt8⟩ :
        EsbBeaconPeer)) = beacon.peers := by
    refine List.ext_getElem (by simp) fun peer hpeer hlt => ?_
    obtain ⟨hbattery, hrssi⟩ := getElem?_flatMap_peers beacon.peers peer
    have hfirst : byteAt beacon.encode (4 + peer * 2) = beacon.peers[peer].battery := by
      have hplace : 4 + peer * 2 = 2 * peer + 1 + 1 + 1 + 1 := by omega
      rw [byteAt, EsbBeacon.encode, hplace]
      simp [List.getD_eq_getElem?_getD, hbattery, hlt]
    have hsecond : byteAt beacon.encode (4 + peer * 2 + 1) =
        beacon.peers[peer].rssiDbm.toUInt8 := by
      have hplace : 4 + peer * 2 + 1 = (2 * peer + 1) + 1 + 1 + 1 + 1 := by omega
      rw [byteAt, EsbBeacon.encode, hplace]
      simp [List.getD_eq_getElem?_getD, hrssi, hlt]
    rw [List.getElem_map, List.getElem_range, hfirst, hsecond]
    rfl
  rw [decodeBeacon, hpeers]
  rfl

variable {config : HopConfig}

/-- The peripheral's state word after a payload. -/
def hidStateAfter (config : HopConfig) (word : UInt16) (data : Bytes) : UInt16 :=
  if esbHasTag esbBeaconTag data && data.length == esbBeaconLength config.peripheralCount then
    let beacon := decodeBeacon config.peripheralCount data
    esbHidStatePack beacon.hidModifiers beacon.hidIndicators
  else word

/-! ## Staging -/

/-- `hop_stage_beacon`; nothing for a pipe the table does not have. -/
def HopCentral.hopStageBeacon (central : HopCentral config) (peers : ℕ → EsbBeaconPeer) (pipe : ℕ)
    (state : HidState) : Option HopOutput :=
  if config.peripheralCount ≤ pipe then none
  else
    let beacon : EsbBeacon :=
      ⟨central.hopEpoch, state.modifiers, state.indicators,
        (List.range config.peripheralCount).map peers⟩
    some (if config.wirePipe pipe then .wireSend beacon.encode
      else .latchControl pipe .beacon beacon.encode)

/-- What the work has staged by pipe, and whether it knows. -/
structure HidStateSent where
  known : ℕ → Bool
  state : ℕ → HidState

/-- One pipe of the loop in `hid_state_work_fn`; `wireTakes` is whether the wire's ring
has space for a beacon. -/
def HopCentral.hidStatePipe (central : HopCentral config) (peers : ℕ → EsbBeaconPeer)
    (quietMs : ℕ → ℕ) (wireTakes : Bool) (state : HidState)
    (staged : HidStateSent × List HopOutput) (pipe : ℕ) : HidStateSent × List HopOutput :=
  let (sent, outputs) := staged
  if config.hopPipeNeedsRendezvous quietMs pipe then
    -- The rejoin beacon carries a state that is not remembered here.
    ({ sent with known := Function.update sent.known pipe false }, outputs)
  else if sent.known pipe && sent.state pipe == state then (sent, outputs)
  else
    match central.hopStageBeacon peers pipe state with
    | none => (sent, outputs)
    | some output =>
        if config.wirePipe pipe && !wireTakes then (sent, outputs)
        else
          ({ known := Function.update sent.known pipe true
             state := Function.update sent.state pipe state }, outputs ++ [output])

def HopCentral.hidStateWork (central : HopCentral config) (peers : ℕ → EsbBeaconPeer)
    (quietMs : ℕ → ℕ) (wireTakes : Bool) (state : HidState) (sent : HidStateSent) :
    HidStateSent × List HopOutput :=
  (List.range (min config.peripheralCount esbLinkPipeMax)).foldl
    (central.hidStatePipe peers quietMs wireTakes state) (sent, [])

/-! ## The system -/

/-- The central with the host's state, the link to one pipe, and the word of the
peripheral behind it. `sampled` records the states put into beacons. -/
structure HidSync (config : HopConfig) where
  link : HopLink config
  host : HidState
  sent : HidStateSent
  syncedHidState : UInt16
  sampled : List HidState

inductive HidAction where
  /-- The host's state changes. -/
  | host (state : HidState)
  /-- The work reads the modifiers, and the indicators after the host moved on to `late`. -/
  | hidStateWork (late : HidState) (quietMs : ℕ → ℕ) (peers : ℕ → EsbBeaconPeer)
      (wireTakes : Bool)
  | hop (action : HopAction)
  /-- The reply first in flight never arrives. -/
  | lost

def HopAction.withHost (host : HidState) : HopAction → HopAction
  | .decide window =>
      .decide { window with hidModifiers := host.modifiers, hidIndicators := host.indicators }
  | action => action

/-- Only a decision window reads the host's state. -/
def HopAction.samples (host : HidState) : HopAction → List HidState
  | .decide _ => [host]
  | _ => []

/-- The payload the action brings to the peripheral. -/
def HopLink.arriving (link : HopLink config) : HopAction → Option Bytes
  | .ackArrives => link.inFlight.head?
  | _ => none

namespace HidSync

def boot (config : HopConfig) (stored : Option Bytes) (energyDbm : ℕ → Int8)
    (retained : HopRetained config) (host : HidState) : HidSync config where
  link := .boot config stored energyDbm retained
  host := host
  sent := ⟨fun _ => false, fun _ => ⟨0, 0⟩⟩
  syncedHidState := 0
  sampled := []

def step (pipe : ℕ) (sync : HidSync config) : HidAction → HidSync config
  | .host state => { sync with host := state }
  | .hidStateWork late quietMs peers wireTakes =>
      let state : HidState := ⟨sync.host.modifiers, late.indicators⟩
      let (sent, outputs) :=
        sync.link.central.hidStateWork peers quietMs wireTakes state sync.sent
      { sync with
        host := late
        sent := sent
        link := { sync.link with
          latches := outputs.foldl (HopOutput.stage pipe) sync.link.latches }
        sampled := sync.sampled ++ [state] }
  | .hop action =>
      { sync with
        link := sync.link.step pipe (action.withHost sync.host)
        syncedHidState :=
          (sync.link.arriving action).elim sync.syncedHidState
            (hidStateAfter config sync.syncedHidState)
        sampled := sync.sampled ++ action.samples sync.host }
  | .lost => { sync with link := { sync.link with inFlight := sync.link.inFlight.tail } }

/-- What the getters of the peripheral return. -/
def shown (sync : HidSync config) : HidState :=
  ⟨esbHidStateModifiers sync.syncedHidState, esbHidStateIndicators sync.syncedHidState⟩

end HidSync

end SplitEsb
