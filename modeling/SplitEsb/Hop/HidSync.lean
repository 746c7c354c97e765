import SplitEsb.Hop.HidState
import SplitEsb.Shared.Mirror

/-! # The host state reaches the peripherals
The latch of a pipe, its payloads in flight and the states a peripheral showed are a
mirror of the host's state: a beacon is a sample, and a refresh leaves one in the latch. -/

namespace SplitEsb

open ByteString Transition Mirror

variable {config : HopConfig}

/-! ## Payloads and outputs -/

/-- The state a peripheral takes from a payload. -/
def hidStateIn (config : HopConfig) (data : Bytes) : Option HidState :=
  if esbHasTag esbBeaconTag data && data.length == esbBeaconLength config.peripheralCount then
    some (decodeBeacon config.peripheralCount data).hidState
  else none

theorem hidStateAfter_eq (config : HopConfig) (word : UInt16) (data : Bytes) :
    hidStateAfter config word data = (hidStateIn config data).elim word fun state =>
      esbHidStatePack state.modifiers state.indicators := by
  rw [hidStateAfter, hidStateIn]
  split_ifs <;> rfl

theorem hidStateIn_encode {beacon : EsbBeacon} (hpeers : beacon.peers.length = config.peripheralCount) :
    hidStateIn config beacon.encode = some beacon.hidState := by
  rw [hidStateIn, beacon.hasTag_encode, beacon.length_encode, ← hpeers, beq_self_eq_true,
    Bool.true_and, if_pos rfl, decodeBeacon_encode]

theorem hidStateIn_maskUpdate {n : ℕ} (mask : HopMask n) :
    hidStateIn config (encodeMaskUpdate mask) = none := by
  rw [hidStateIn, not_hasTag_maskUpdate, Bool.false_and, if_neg Bool.false_ne_true]

/-- A beacon carries the state, and a mask update none. -/
def HopOutput.Carries (config : HopConfig) (state : HidState) : HopOutput → Prop
  | .latchControl _ .beacon data => hidStateIn config data = some state
  | .latchControl _ .mask data => hidStateIn config data = none
  | .wireSend _ => True

/-- The output leaves a beacon in the latch of the pipe. -/
def HopOutput.beacons (pipe : ℕ) : HopOutput → Bool
  | .latchControl target .beacon data =>
      decide (target = pipe ∧ ¬(data.length = 0 ∨ data.length > esbLinkControlMaxLength))
  | _ => false

/-- What waits in the latch for the peripheral's state. -/
def ControlLatches.hidState (config : HopConfig) (latches : ControlLatches) : Option HidState :=
  latches.beacon.bind (hidStateIn config)

/-- The mask that waits carries no state. -/
def ControlLatches.MaskClear (config : HopConfig) (latches : ControlLatches) : Prop :=
  ∀ data ∈ latches.mask, hidStateIn config data = none

section Staging

variable {state : HidState} {latches : ControlLatches}

theorem stage_hidState {output : HopOutput} (hlatches : latches.MaskClear config)
    (houtput : output.Carries config state) (pipe : ℕ) :
    (output.stage pipe latches).MaskClear config ∧
      (output.stage pipe latches).hidState config =
        if output.beacons pipe then some state else latches.hidState config := by
  cases output with
  | wireSend data => exact ⟨hlatches, rfl⟩
  | latchControl target kind data =>
      rw [HopOutput.stage, ControlLatches.latchControl]
      cases kind with
      | beacon =>
          have hcarries : hidStateIn config data = some state := houtput
          simp only [HopOutput.beacons, decide_eq_true_eq]
          by_cases htarget : target = pipe
          · by_cases hrefused : data.length = 0 ∨ data.length > esbLinkControlMaxLength
            · rw [if_pos htarget, if_pos hrefused, if_neg fun h => h.2 hrefused]
              exact ⟨hlatches, rfl⟩
            · rw [if_pos htarget, if_neg hrefused, if_pos ⟨htarget, hrefused⟩]
              exact ⟨hlatches, hcarries⟩
          · rw [if_neg htarget, if_neg fun h => htarget h.1]
            exact ⟨hlatches, rfl⟩
      | mask =>
          have hcarries : hidStateIn config data = none := houtput
          have hno : (HopOutput.latchControl target .mask data).beacons pipe = false := rfl
          rw [hno, if_neg Bool.false_ne_true]
          split_ifs
          · exact ⟨hlatches, rfl⟩
          · exact ⟨fun _ hmask => Option.some.inj hmask ▸ hcarries, rfl⟩
          · exact ⟨hlatches, rfl⟩

theorem foldl_stage_hidState {outputs : List HopOutput} (hlatches : latches.MaskClear config)
    (houtputs : ∀ output ∈ outputs, output.Carries config state) (pipe : ℕ) :
    (outputs.foldl (HopOutput.stage pipe) latches).MaskClear config ∧
      (outputs.foldl (HopOutput.stage pipe) latches).hidState config =
        if outputs.any (HopOutput.beacons pipe) then some state else latches.hidState config := by
  induction outputs generalizing latches with
  | nil => exact ⟨hlatches, rfl⟩
  | cons output outputs ih =>
      rw [List.forall_mem_cons] at houtputs
      obtain ⟨hclear, hstate⟩ := stage_hidState hlatches houtputs.1 pipe
      obtain ⟨hrest, hfinal⟩ := ih hclear houtputs.2
      refine ⟨hrest, ?_⟩
      rw [List.foldl_cons, hfinal, hstate, List.any_cons]
      cases output.beacons pipe <;> simp

end Staging

/-! ## What the central stages -/

namespace HopCentral

theorem stageBeaconTo_carries (central : HopCentral config) (window : HopWindow) (pipe : ℕ) :
    (central.stageBeaconTo window pipe).Carries config
      ⟨window.hidModifiers, window.hidIndicators⟩ := by
  have hpeers : (central.beaconFor window).peers.length = config.peripheralCount := by
    rw [beaconFor, List.length_map, List.length_range]
  rw [stageBeaconTo]
  split_ifs
  · trivial
  · exact hidStateIn_encode hpeers

theorem decisionWork_carries (central : HopCentral config) (window : HopWindow) :
    ∀ output ∈ (central.decisionWork window).2,
      output.Carries config ⟨window.hidModifiers, window.hidIndicators⟩ := by
  intro output houtput
  by_cases hcount : 1 < config.hopCount
  · obtain ⟨pipe, -, ⟨rfl, -⟩ | ⟨rfl, -⟩⟩ := (mem_decisionWork hcount _ _ _).mp houtput
    · exact stageBeaconTo_carries _ _ _
    · exact hidStateIn_maskUpdate _
  · rw [decisionWork, if_pos (by omega), mem_stageBeacon] at houtput
    obtain ⟨pipe, -, rfl, -⟩ := houtput
    exact stageBeaconTo_carries _ _ _

/-- A refresh leaves a beacon for a radio pipe that sent a packet. -/
theorem decisionWork_refreshes {pipe : ℕ} (hpipe : pipe < config.peripheralCount)
    (hself : config.selfPipe pipe = false) (hradio : config.wirePipe pipe = false)
    (central : HopCentral config) (window : HopWindow) (hheard : maskHasBit window.heard pipe = true)
    (hrefresh : central.beaconRefresh = true) :
    (central.decisionWork window).2.any (HopOutput.beacons pipe) = true := by
  have hpipeHeard : pipeHeardInWindow config window pipe = true := by
    rw [pipeHeardInWindow, hradio, if_neg Bool.false_ne_true]
    exact hheard
  have hbeacons (central : HopCentral config) :
      (central.stageBeaconTo window pipe).beacons pipe = true := by
    have hlength : (central.beaconFor window).encode.length =
        esbBeaconLength config.peripheralCount := by
      rw [EsbBeacon.length_encode, beaconFor, List.length_map, List.length_range]
    have hfits := config.beacon_fits
    have hpos : 0 < esbBeaconLength config.peripheralCount := by
      rw [esbBeaconLength]
      omega
    rw [stageBeaconTo, hradio, if_neg Bool.false_ne_true, HopOutput.beacons, hlength,
      decide_eq_true_eq]
    exact ⟨rfl, not_or.mpr ⟨hpos.ne', Nat.not_lt.mpr hfits⟩⟩
  rw [List.any_eq_true]
  by_cases hcount : 1 < config.hopCount
  · refine ⟨_, ?_, hbeacons (central.decisionWork window).1⟩
    rw [mem_decisionWork hcount]
    exact ⟨pipe, hpipe, .inl ⟨rfl, .inr ⟨hself, .inr ⟨hrefresh, hpipeHeard⟩⟩⟩⟩
  · refine ⟨_, ?_, hbeacons central⟩
    rw [decisionWork, if_pos (by omega), mem_stageBeacon]
    exact ⟨pipe, hpipe, rfl, hself, .inr ⟨hrefresh, hpipeHeard⟩⟩

theorem decisionWork_beaconWindow (central : HopCentral config) (window : HopWindow) :
    (central.decisionWork window).1.beaconWindow =
      (hopPolicyWindowPeriodFires central.beaconWindow beaconRssiPeriodWindows).1 := by
  by_cases hcount : 1 < config.hopCount
  · exact (counted hcount central window).beaconWindow
  · rw [decisionWork, if_pos (by omega), stageBeacon_eq]

theorem hidStatePipe_carries (central : HopCentral config) (peers : ℕ → EsbBeaconPeer)
    (quietMs : ℕ → ℕ) (wireTakes : Bool) (state : HidState)
    {staged : HidStateSent × List HopOutput}
    (hstaged : ∀ output ∈ staged.2, output.Carries config state) (pipe : ℕ) :
    ∀ output ∈ (central.hidStatePipe peers quietMs wireTakes state staged pipe).2,
      output.Carries config state := by
  have hbeacon : ∀ output ∈ central.hopStageBeacon peers pipe state,
      output.Carries config state := by
    intro output houtput
    rw [hopStageBeacon] at houtput
    split_ifs at houtput
    · cases houtput
    · obtain rfl := Option.some.inj houtput
      trivial
    · obtain rfl := Option.some.inj houtput
      exact hidStateIn_encode (by simp)
  cases hstage : central.hopStageBeacon peers pipe state with
  | none =>
      simp only [hidStatePipe, hstage]
      split_ifs <;> exact hstaged
  | some output =>
      have happend : ∀ other ∈ staged.2 ++ [output], other.Carries config state := by
        intro other hother
        rcases List.mem_append.mp hother with hother | hother
        · exact hstaged other hother
        · exact List.mem_singleton.mp hother ▸ hbeacon output hstage
      simp only [hidStatePipe, hstage]
      split_ifs
      · exact hstaged
      · exact hstaged
      · exact hstaged
      · exact happend

theorem hidStateWork_carries (central : HopCentral config) (peers : ℕ → EsbBeaconPeer)
    (quietMs : ℕ → ℕ) (wireTakes : Bool) (state : HidState) (sent : HidStateSent) :
    ∀ output ∈ (central.hidStateWork peers quietMs wireTakes state sent).2,
      output.Carries config state :=
  @run_invariant _ _ (central.hidStatePipe peers quietMs wireTakes state)
    (fun staged => ∀ output ∈ staged.2, output.Carries config state)
    (fun _ pipe hstaged => hidStatePipe_carries central peers quietMs wireTakes state hstaged pipe)
    (sent, []) (fun _ houtput => absurd houtput List.not_mem_nil) _

end HopCentral

/-! ## The mirror -/

namespace HidSync

variable {sync : HidSync config} {state : HidState} {pipe : ℕ}

def mirror (sync : HidSync config) : Mirror HidState where
  sampled := sync.sampled
  slot := sync.link.latches.hidState config
  line := sync.link.inFlight.filterMap (hidStateIn config)
  shown := sync.link.carried.filterMap (hidStateIn config)

/-- What an action is to the mirror. -/
def acts (pipe : ℕ) (sync : HidSync config) : HidAction → List (Act HidState)
  | .hidStateWork late quietMs peers wireTakes =>
      let state : HidState := ⟨sync.host.modifiers, late.indicators⟩
      let outputs := (sync.link.central.hidStateWork peers quietMs wireTakes state sync.sent).2
      [.sample state (outputs.any (HopOutput.beacons pipe))]
  | .hop (.decide window) =>
      let window := { window with
        hidModifiers := sync.host.modifiers, hidIndicators := sync.host.indicators }
      let outputs := (sync.link.central.decisionWork window).2
      [.sample sync.host (outputs.any (HopOutput.beacons pipe))]
  | .hop (.ackOpportunity accepted) => if accepted then [.send] else []
  | .hop .ackArrives =>
      if (sync.link.inFlight.head?.bind (hidStateIn config)).isSome then [.arrive] else []
  | .lost => if (sync.link.inFlight.head?.bind (hidStateIn config)).isSome then [.lose] else []
  | _ => []

/-- The word of the peripheral is the one the mirror shows. -/
structure Mirrored (sync : HidSync config) : Prop where
  maskClear : sync.link.latches.MaskClear config
  shown : sync.shown = sync.mirror.current ⟨0, 0⟩

theorem writePendingControl_hidState {latches : ControlLatches} (hclear : latches.MaskClear config)
    (accepted : Bool) :
    (latches.writePendingControl accepted).1.MaskClear config ∧
      ((latches.writePendingControl accepted).1.hidState config =
        if accepted then none else latches.hidState config) ∧
      (latches.writePendingControl accepted).2.toList.filterMap (hidStateIn config) =
        if accepted then (latches.hidState config).toList else [] := by
  obtain ⟨beacon, mask⟩ := latches
  cases accepted with
  | false => cases beacon <;> cases mask <;> exact ⟨hclear, rfl, rfl⟩
  | true =>
      cases beacon with
      | some data =>
          refine ⟨hclear, rfl, ?_⟩
          change [data].filterMap (hidStateIn config) = (hidStateIn config data).toList
          cases hdata : hidStateIn config data <;> simp [hdata]
      | none =>
          cases mask with
          | none => exact ⟨hclear, rfl, rfl⟩
          | some data =>
              have hnone : (ControlLatches.mk none none).MaskClear config := by
                intro _ hmask
                cases hmask
              exact ⟨hnone, rfl, List.filterMap_cons_none (hclear data rfl)⟩

theorem Mirrored.step (h : sync.Mirrored) (pipe : ℕ) (action : HidAction) :
    (HidSync.step pipe sync action).Mirrored ∧ (HidSync.step pipe sync action).mirror =
      run Mirror.step sync.mirror (sync.acts pipe action) := by
  cases action with
  | host next => exact ⟨⟨h.maskClear, h.shown⟩, rfl⟩
  | hidStateWork late quietMs peers wireTakes =>
      obtain ⟨hclear, hslot⟩ := foldl_stage_hidState h.maskClear
        (sync.link.central.hidStateWork_carries peers quietMs wireTakes
          ⟨sync.host.modifiers, late.indicators⟩ sync.sent) pipe
      refine ⟨⟨hclear, h.shown⟩, ?_⟩
      rw [mirror, HidSync.step]
      dsimp only
      rw [hslot]
      rfl
  | lost =>
      rw [acts]
      cases hcons : sync.link.inFlight with
      | nil =>
          refine ⟨⟨h.maskClear, h.shown⟩, ?_⟩
          rw [mirror, mirror, HidSync.step, hcons]
          rfl
      | cons data inFlight =>
          refine ⟨⟨h.maskClear, h.shown⟩, ?_⟩
          rw [mirror, mirror, HidSync.step, hcons]
          cases hdata : hidStateIn config data with
          | none => simp [hdata]
          | some state => simp [hdata, Mirror.step]
  | hop action =>
      cases action with
      | decide window =>
          obtain ⟨hclear, hslot⟩ := foldl_stage_hidState h.maskClear
            (sync.link.central.decisionWork_carries { window with
              hidModifiers := sync.host.modifiers, hidIndicators := sync.host.indicators }) pipe
          refine ⟨⟨hclear, h.shown⟩, ?_⟩
          rw [mirror, HidSync.step]
          dsimp only [HopAction.withHost, HopLink.step, HopAction.samples]
          rw [hslot]
          rfl
      | ackOpportunity accepted =>
          obtain ⟨hclear, hslot, hline⟩ := writePendingControl_hidState h.maskClear accepted
          refine ⟨⟨hclear, h.shown⟩, ?_⟩
          rw [mirror, mirror, acts, HidSync.step]
          dsimp only [HopAction.withHost, HopLink.step, HopAction.samples]
          rw [hslot, List.filterMap_append, hline]
          cases accepted <;> simp [Mirror.step]
      | ackArrives =>
          cases hcons : sync.link.inFlight with
          | nil =>
              have hsame : HidSync.step pipe sync (.hop .ackArrives) = sync := by
                rw [HidSync.step]
                simp [HopAction.withHost, HopLink.step, HopLink.arriving, HopAction.samples, hcons]
              rw [hsame, acts, hcons]
              exact ⟨h, rfl⟩
          | cons data inFlight =>
              have hlink : (HidSync.step pipe sync (.hop .ackArrives)).link.inFlight = inFlight ∧
                  (HidSync.step pipe sync (.hop .ackArrives)).link.carried =
                    sync.link.carried ++ [data] ∧
                  (HidSync.step pipe sync (.hop .ackArrives)).link.latches = sync.link.latches ∧
                  (HidSync.step pipe sync (.hop .ackArrives)).syncedHidState =
                    hidStateAfter config sync.syncedHidState data := by
                rw [HidSync.step]
                simp [HopAction.withHost, HopLink.step, HopLink.arriving, hcons]
              obtain ⟨hrest, hcarried, hlatches, hword⟩ := hlink
              have hmirror : (HidSync.step pipe sync (.hop .ackArrives)).mirror =
                  run Mirror.step sync.mirror (sync.acts pipe (.hop .ackArrives)) := by
                rw [mirror, mirror, acts, hrest, hcarried, hlatches, hcons]
                cases hdata : hidStateIn config data <;>
                  simp [hdata, Mirror.step, HidSync.step, HopAction.samples]
              refine ⟨⟨hlatches ▸ h.maskClear, ?_⟩, hmirror⟩
              rw [HidSync.shown, hword, Mirror.current, mirror, hcarried, List.filterMap_append]
              dsimp only
              cases hdata : hidStateIn config data with
              | none =>
                  rw [hidStateAfter_eq, hdata, List.filterMap_cons_none hdata, List.filterMap_nil,
                    List.append_nil]
                  exact h.shown
              | some state =>
                  rw [hidStateAfter_eq, hdata, List.filterMap_cons_some hdata, List.filterMap_nil,
                    List.getLast?_concat]
                  simp
      | keepaliveTick | txSuccess attempts | txFailed | noackSent =>
          refine ⟨⟨h.maskClear, h.shown⟩, ?_⟩
          simp [mirror, HidSync.step, HopAction.withHost, HopLink.step, HopAction.samples, acts]

theorem Mirrored.boot (config : HopConfig) (stored : Option Bytes) (energyDbm : ℕ → Int8)
    (retained : HopRetained config) (host : HidState) :
    (boot config stored energyDbm retained host).Mirrored := by
  have hzero : (⟨esbHidStateModifiers 0, esbHidStateIndicators 0⟩ : HidState) = ⟨0, 0⟩ := by decide
  exact ⟨fun _ hmask => absurd hmask (Option.not_mem_none _), hzero⟩

/-! ## Runs of the host -/

end HidSync

/-- The host stays in the state. -/
def HidAction.Rests (state : HidState) : HidAction → Prop
  | .host next => next = state
  | .hidStateWork late _ _ _ => late = state
  | _ => True

/-- Windows hear the pipe, and no reply is lost. -/
def HidAction.Hears (pipe : ℕ) : HidAction → Prop
  | .hop (.decide window) => maskHasBit window.heard pipe = true
  | .lost => False
  | _ => True

def HidAction.decides : HidAction → Bool
  | .hop (.decide _) => true
  | _ => false

theorem HidAction.eq_decide {action : HidAction} (hdecides : action.decides = true) :
    ∃ window, action = .hop (.decide window) := by
  cases action with
  | hop action =>
      cases action with
      | decide window => exact ⟨window, rfl⟩
      | _ => cases hdecides
  | _ => cases hdecides

namespace HidSync

variable {sync : HidSync config} {state : HidState} {pipe : ℕ}

theorem host_step (hhost : sync.host = state) {action : HidAction} (haction : action.Rests state)
    (pipe : ℕ) : (step pipe sync action).host = state := by
  cases action with
  | host next => exact haction
  | hidStateWork late quietMs peers wireTakes => exact haction
  | hop action => exact hhost
  | lost => exact hhost

theorem acts_samples (hhost : sync.host = state) {action : HidAction}
    (haction : action.Rests state) (pipe : ℕ) :
    ∀ act ∈ sync.acts pipe action, act.Samples state := by
  intro act hact
  cases action with
  | host next => cases hact
  | hidStateWork late quietMs peers wireTakes =>
      obtain rfl : late = state := haction
      subst hhost
      rw [List.mem_singleton.mp hact]
      rfl
  | lost =>
      rw [acts] at hact
      split_ifs at hact
      · rw [List.mem_singleton.mp hact]
        trivial
      · cases hact
  | hop action =>
      cases action with
      | decide window =>
          rw [List.mem_singleton.mp hact]
          exact hhost
      | ackOpportunity accepted =>
          rw [acts] at hact
          split_ifs at hact
          · rw [List.mem_singleton.mp hact]
            trivial
          · cases hact
      | ackArrives =>
          rw [acts] at hact
          split_ifs at hact
          · rw [List.mem_singleton.mp hact]
            trivial
          · cases hact
      | keepaliveTick | txSuccess attempts | txFailed | noackSent => cases hact

/-- Only a loss takes something from the line. -/
theorem acts_keeps (hhost : sync.host = state) {action : HidAction} (haction : action.Rests state)
    (hhears : action.Hears pipe) : ∀ act ∈ sync.acts pipe action, act.Keeps state := by
  intro act hact
  have hsamples := acts_samples hhost haction pipe act hact
  cases act with
  | sample value waits => exact hsamples
  | send => trivial
  | arrive => trivial
  | lose =>
      exfalso
      cases action with
      | host next => cases hact
      | hidStateWork late quietMs peers wireTakes => cases List.mem_singleton.mp hact
      | lost => exact hhears
      | hop action =>
          cases action with
          | decide window => cases List.mem_singleton.mp hact
          | ackOpportunity accepted | ackArrives =>
              rw [acts] at hact
              split_ifs at hact
              · cases List.mem_singleton.mp hact
              · cases hact
          | keepaliveTick | txSuccess attempts | txFailed | noackSent => cases hact

/-- The counter of the refresh is below its period. -/
structure Ready (sync : HidSync config) : Prop where
  mirrored : sync.Mirrored
  beaconWindow : sync.link.central.beaconWindow.toNat < 4

structure Live (state : HidState) (sync : HidSync config) : Prop extends sync.Ready where
  host : sync.host = state

theorem central_step (sync : HidSync config) {action : HidAction} (haction : action.decides = false)
    (pipe : ℕ) : (step pipe sync action).link.central = sync.link.central := by
  cases action with
  | host next => rfl
  | hidStateWork late quietMs peers wireTakes => rfl
  | lost => rfl
  | hop action =>
      cases action with
      | decide window => cases haction
      | ackArrives =>
          rw [step]
          cases hcons : sync.link.inFlight <;> simp [HopAction.withHost, HopLink.step, hcons]
      | ackOpportunity accepted => rfl
      | keepaliveTick | txSuccess attempts | txFailed | noackSent => rfl

/-- A decision counts the refresh on. -/
theorem beaconWindow_decide (sync : HidSync config)
    (hwindow : sync.link.central.beaconWindow.toNat < 4) (window : HopWindow) (pipe : ℕ) :
    (step pipe sync (.hop (.decide window))).link.central.beaconWindow.toNat =
        (sync.link.central.beaconWindow.toNat + 1) % 4 ∧
      (sync.link.central.beaconRefresh = true ↔ sync.link.central.beaconWindow.toNat = 3) := by
  have hmod : sync.link.central.beaconWindow.toNat =
      sync.link.central.beaconWindow.toNat % beaconRssiPeriodWindows.toNat :=
    (Nat.mod_eq_of_lt hwindow).symm
  obtain ⟨hnext, hfires⟩ := HopCentral.hopPolicyWindowPeriodFires_turn (by decide) hmod
  constructor
  · exact (congrArg UInt8.toNat (HopCentral.decisionWork_beaconWindow _ _)).trans hnext
  · refine hfires.trans ?_
    have hperiod : beaconRssiPeriodWindows.toNat = 4 := rfl
    rw [hperiod]
    omega

theorem Ready.step (h : sync.Ready) (pipe : ℕ) (action : HidAction) :
    (HidSync.step pipe sync action).Ready := by
  refine ⟨(h.mirrored.step pipe action).1, ?_⟩
  cases hdecides : action.decides with
  | false =>
      rw [central_step sync hdecides]
      exact h.beaconWindow
  | true =>
      obtain ⟨window, rfl⟩ := HidAction.eq_decide hdecides
      rw [(beaconWindow_decide sync h.beaconWindow window pipe).1]
      exact Nat.mod_lt _ (by decide)

theorem Live.step (h : sync.Live state) {action : HidAction} (haction : action.Rests state)
    (pipe : ℕ) : (HidSync.step pipe sync action).Live state :=
  ⟨h.toReady.step pipe action, host_step h.host haction pipe⟩

theorem Ready.boot (config : HopConfig) (stored : Option Bytes) (energyDbm : ℕ → Int8)
    (retained : HopRetained config) (host : HidState) :
    (boot config stored energyDbm retained host).Ready := by
  refine ⟨.boot config stored energyDbm retained host, ?_⟩
  have hcadence := (HopWatch.boot_counters config stored energyDbm).1
  have hzero : (HopCentral.boot config stored energyDbm).beaconWindow = 0 :=
    congrArg (fun cadence => cadence.2.2.1) hcadence
  rw [HidSync.boot, HopLink.boot, hzero]
  decide

/-- A property of the mirror that no act of a step breaks. -/
theorem Mirrored.keeps {P : Mirror HidState → Prop} {ok : Act HidState → Prop}
    (hstep : ∀ mirror act, P mirror → ok act → P (Mirror.step mirror act)) (h : sync.Mirrored)
    (hmirror : P sync.mirror) {action : HidAction} (hacts : ∀ act ∈ sync.acts pipe action, ok act) :
    P (HidSync.step pipe sync action).mirror := by
  rw [(h.step pipe action).2]
  exact run_invariant_forall hstep hmirror hacts

/-- The host's state is on its way, behind everything else. -/
structure Headed (state : HidState) (sync : HidSync config) : Prop extends sync.Live state where
  destined : sync.mirror.destined ⟨0, 0⟩ = state

theorem Headed.step (h : sync.Headed state) {action : HidAction} (haction : action.Rests state)
    (hhears : action.Hears pipe) : (HidSync.step pipe sync action).Headed state := by
  have hdestined := h.mirrored.keeps (P := fun mirror => mirror.destined ⟨0, 0⟩ = state)
    (fun _ _ hmirror hact => destined_step hmirror hact) h.destined
    (acts_keeps h.host haction hhears)
  exact ⟨h.toLive.step haction pipe, hdestined⟩

theorem Headed.run (h : sync.Headed state) {actions : List HidAction}
    (hrests : ∀ action ∈ actions, action.Rests state)
    (hhears : ∀ action ∈ actions, action.Hears pipe) :
    (Transition.run (HidSync.step pipe) sync actions).Headed state := by
  induction actions generalizing sync with
  | nil => exact h
  | cons action actions ih =>
      rw [List.forall_mem_cons] at hrests hhears
      exact ih (h.step hrests.1 hhears.1) hrests.2 hhears.2

/-- Four windows that hear the pipe refresh it. -/
theorem Live.headed (hpipe : pipe < config.peripheralCount) (hself : config.selfPipe pipe = false)
    (hradio : config.wirePipe pipe = false) (h : sync.Live state) {actions : List HidAction}
    (hrests : ∀ action ∈ actions, action.Rests state)
    (hhears : ∀ action ∈ actions, action.Hears pipe)
    (hcount : 4 ≤ sync.link.central.beaconWindow.toNat + actions.countP HidAction.decides) :
    (Transition.run (HidSync.step pipe) sync actions).Headed state := by
  have hlt := h.beaconWindow
  induction actions generalizing sync with
  | nil =>
      rw [List.countP_nil] at hcount
      omega
  | cons action actions ih =>
      rw [List.forall_mem_cons] at hrests hhears
      have hnext := h.step hrests.1 pipe
      rw [run_cons]
      cases hdecides : action.decides with
      | false =>
          rw [List.countP_cons_of_neg (by simp [hdecides])] at hcount
          refine ih hnext hrests.2 hhears.2 ?_ hnext.beaconWindow
          rwa [central_step sync hdecides]
      | true =>
          obtain ⟨window, rfl⟩ := HidAction.eq_decide hdecides
          rw [List.countP_cons_of_pos hdecides] at hcount
          obtain ⟨hcounter, hrefresh⟩ := beaconWindow_decide sync hlt window pipe
          by_cases hfires : sync.link.central.beaconRefresh = true
          · have hstaged : (HidSync.step pipe sync (.hop (.decide window))).Headed state := by
              refine ⟨hnext, ?_⟩
              have hany := HopCentral.decisionWork_refreshes hpipe hself hradio sync.link.central
                { window with
                  hidModifiers := sync.host.modifiers, hidIndicators := sync.host.indicators }
                hhears.1 hfires
              rw [(h.mirrored.step pipe _).2, acts, hany]
              exact h.host ▸ destined_sample _ _ _
            exact hstaged.run hrests.2 hhears.2
          · refine ih hnext hrests.2 hhears.2 ?_ hnext.beaconWindow
            rw [hcounter]
            have := mt hrefresh.mpr hfires
            omega

/-! ## Draining the link -/

/-- One packet of the peripheral takes the beacon, and the replies in flight arrive. -/
def drain (sync : HidSync config) : List HidAction :=
  .hop (.ackOpportunity true) ::
    List.replicate (sync.link.inFlight.length + 1) (.hop .ackArrives)

theorem beacon_writePendingControl (latches : ControlLatches) :
    (latches.writePendingControl true).1.beacon = none := by
  obtain ⟨beacon, mask⟩ := latches
  cases beacon <;> cases mask <;> rfl

theorem run_ackArrives (pipe : ℕ) {count : ℕ} (hcount : sync.link.inFlight.length ≤ count) :
    (run (step pipe) sync (List.replicate count (.hop .ackArrives))).link.inFlight = [] ∧
      (run (step pipe) sync (List.replicate count (.hop .ackArrives))).link.latches =
        sync.link.latches := by
  induction count generalizing sync with
  | zero => exact ⟨List.eq_nil_of_length_eq_zero (Nat.le_zero.mp hcount), rfl⟩
  | succ count ih =>
      have hnext : (step pipe sync (.hop .ackArrives)).link.inFlight = sync.link.inFlight.tail ∧
          (step pipe sync (.hop .ackArrives)).link.latches = sync.link.latches := by
        rw [step]
        cases hcons : sync.link.inFlight <;> simp [HopAction.withHost, HopLink.step, hcons]
      rw [List.replicate_succ, run_cons, ← hnext.2]
      refine ih ?_
      rw [hnext.1, List.length_tail]
      omega

theorem onTheWay_drain (sync : HidSync config) (pipe : ℕ) :
    (run (step pipe) sync sync.drain).mirror.onTheWay = [] := by
  have hsent : (step pipe sync (.hop (.ackOpportunity true))).link.inFlight.length ≤
      sync.link.inFlight.length + 1 := by
    rw [step]
    dsimp only [HopAction.withHost, HopLink.step]
    rw [List.length_append]
    cases (sync.link.latches.writePendingControl true).2 <;> simp
  obtain ⟨hflight, hlatches⟩ := run_ackArrives pipe hsent
  have hbeacon : (step pipe sync (.hop (.ackOpportunity true))).link.latches.beacon = none :=
    beacon_writePendingControl sync.link.latches
  rw [drain, run_cons, onTheWay, mirror, hflight, hlatches, ControlLatches.hidState, hbeacon]
  rfl

theorem drain_rests (sync : HidSync config) (state : HidState) (pipe : ℕ) :
    ∀ action ∈ sync.drain, action.Rests state ∧ action.Hears pipe := by
  intro action haction
  rcases List.mem_cons.mp haction with rfl | haction
  · exact ⟨trivial, trivial⟩
  · rw [List.eq_of_mem_replicate haction]
    exact ⟨trivial, trivial⟩

/-- The peripheral shows the state, and nothing else is coming. -/
structure Settled (state : HidState) (sync : HidSync config) : Prop extends sync.Live state where
  rests : sync.mirror.Rests ⟨0, 0⟩ state

theorem Headed.settled (h : sync.Headed state) (pipe : ℕ) :
    (Transition.run (HidSync.step pipe) sync sync.drain).Settled state := by
  have hdrained := h.run (fun action haction => (drain_rests sync state pipe action haction).1)
    fun action haction => (drain_rests sync state pipe action haction).2
  exact ⟨hdrained.toLive, rests_of_destined hdrained.destined (onTheWay_drain sync pipe)⟩

theorem Settled.step (h : sync.Settled state) {action : HidAction} (haction : action.Rests state)
    (pipe : ℕ) : (HidSync.step pipe sync action).Settled state := by
  have hrests := h.mirrored.keeps (P := Mirror.Rests (⟨0, 0⟩ : HidState) state)
    (fun _ _ hmirror hact => hmirror.step hact) h.rests (acts_samples h.host haction pipe)
  exact ⟨h.toLive.step haction pipe, hrests⟩

theorem Settled.shown (h : sync.Settled state) : sync.shown = state :=
  h.mirrored.shown.trans h.rests.current

/-! ## Over whole runs -/

/-- The states a peripheral showed were read from the host, in this order, and it shows
the last of them. -/
theorem shown_in_order (stored : Option Bytes) (energyDbm : ℕ → Int8)
    (retained : HopRetained config) (host : HidState) (pipe : ℕ) (actions : List HidAction) :
    let sync := run (step pipe) (boot config stored energyDbm retained host) actions
    (sync.link.carried.filterMap (hidStateIn config)).Sublist sync.sampled ∧
      sync.shown = (sync.link.carried.filterMap (hidStateIn config)).getLast?.getD ⟨0, 0⟩ := by
  intro sync
  have hordered (sync : HidSync config) (action : HidAction)
      (h : sync.Mirrored ∧ sync.mirror.InOrder) :
      (step pipe sync action).Mirrored ∧ (step pipe sync action).mirror.InOrder := by
    refine ⟨(h.1.step pipe action).1, ?_⟩
    rw [(h.1.step pipe action).2]
    exact run_invariant (fun _ act hmirror => hmirror.step act) h.2 _
  obtain ⟨hmirrored, horder⟩ : sync.Mirrored ∧ sync.mirror.InOrder :=
    run_invariant hordered ⟨.boot config stored energyDbm retained host, inOrder_empty⟩ actions
  exact ⟨(List.sublist_append_left _ _).trans horder, hmirrored.shown⟩

/-- Once the host's state rests, four windows that hear the pipe without a loss and the
replies that follow bring it to the peripheral, which shows it until the host's state
changes, whatever is lost. -/
theorem hid_state_converges {pipe : ℕ} (hpipe : pipe < config.peripheralCount)
    (hself : config.selfPipe pipe = false) (hradio : config.wirePipe pipe = false)
    (stored : Option Bytes) (energyDbm : ℕ → Int8) (retained : HopRetained config)
    (host state : HidState) (before heard after : List HidAction)
    (hstate : (run (step pipe) (boot config stored energyDbm retained host) before).host = state)
    (hheard : ∀ action ∈ heard, action.Rests state ∧ action.Hears pipe)
    (hcount : 4 ≤ heard.countP HidAction.decides)
    (hafter : ∀ action ∈ after, action.Rests state) :
    let sync := run (step pipe) (boot config stored energyDbm retained host) (before ++ heard)
    (run (step pipe) sync (sync.drain ++ after)).shown = state := by
  intro sync
  have hready : (run (step pipe) (boot config stored energyDbm retained host) before).Ready :=
    run_invariant (fun _ action h => h.step pipe action)
      (Ready.boot config stored energyDbm retained host) before
  have hlive : (run (step pipe) (boot config stored energyDbm retained host) before).Live state :=
    ⟨hready, hstate⟩
  have hheaded : sync.Headed state := by
    have hsplit : sync = run (step pipe) (run (step pipe)
        (boot config stored energyDbm retained host) before) heard := run_append ..
    rw [hsplit]
    exact hlive.headed hpipe hself hradio (fun action haction => (hheard action haction).1)
      (fun action haction => (hheard action haction).2) (by omega)
  have hsettled : (run (step pipe) (run (step pipe) sync sync.drain) after).Settled state :=
    run_invariant_forall (fun _ _ h haction => h.step haction pipe) (hheaded.settled pipe) hafter
  rw [run_append]
  exact hsettled.shown

/-- Caps lock and a held shift reach the peripheral, and a later loss changes nothing. -/
theorem hid_state_converges_sample :
    let sync := run (step 0) (boot sampleHopConfig none (fun _ => -100) coldRetained ⟨0, 0⟩)
      ([.host ⟨2, 2⟩] ++ List.replicate 4 (.hop (.decide lostWindow)))
    (run (step 0) sync (sync.drain ++ [.lost])).shown = ⟨2, 2⟩ :=
  hid_state_converges (by decide) rfl rfl none (fun _ => -100) coldRetained ⟨0, 0⟩ ⟨2, 2⟩
    [.host ⟨2, 2⟩] (List.replicate 4 (.hop (.decide lostWindow))) [.lost] rfl
    (fun action haction => by
      rw [List.eq_of_mem_replicate haction]
      exact ⟨trivial, rfl⟩)
    (by rw [List.countP_replicate]; decide)
    (fun action haction => by
      rw [List.mem_singleton.mp haction]
      trivial)

end HidSync

end SplitEsb
