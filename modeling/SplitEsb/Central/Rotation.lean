import Mathlib.Tactic.Linarith
import SplitEsb.Central.State
import SplitEsb.Event.RoundTrip
import SplitEsb.Shared.Gaps

/-! # Rotation of a sensor
A sensor total crosses the air whole or as degrees and a remainder; the central
keeps the last total of each sensor of each pipe and forwards the gap to the next. -/

namespace SplitEsb

open ByteString Gaps

/-! ## Microdegrees -/

/-- The largest total whose degrees fit an int32. -/
def udegMax : ℤ := (2 ^ 31 - 1) * 1000000

def resyncUdeg : ℤ := 180 * 1000000

theorem esbSensorMicrodegPerDeg_toInt : esbSensorMicrodegPerDeg.toInt = 1000000 := by decide

theorem esbSensorResyncUdeg_toInt : esbSensorResyncUdeg.toInt = resyncUdeg := by decide

theorem neg_esbSensorResyncUdeg_toInt : (-esbSensorResyncUdeg).toInt = -resyncUdeg := by decide

theorem esbSensorUdeg_toInt (val1 val2 : Int32) :
    (esbSensorUdeg val1 val2).toInt = val1.toInt * 1000000 + val2.toInt := by
  have hval1 := val1.toInt_lt
  have hval1' := val1.le_toInt
  have hval2 := val2.toInt_lt
  have hval2' := val2.le_toInt
  rw [esbSensorUdeg, Int64.toInt_add, Int64.toInt_mul, Int32.toInt_toInt64, Int32.toInt_toInt64,
    esbSensorMicrodegPerDeg_toInt]
  simp only [Int.bmod_def]
  omega

theorem bmod_word {value : ℤ} (h : |value| < 2 ^ 31) : value.bmod (2 ^ 32) = value := by
  have hbounds := abs_lt.mp h
  rw [Int.bmod_def]
  omega

/-- Degrees and remainder, both truncated towards zero, make up the total again. -/
theorem esbSensorUdeg_split {udeg : Int64} (h : |udeg.toInt| ≤ udegMax) :
    (esbSensorUdegVal1 udeg).toInt * 1000000 + (esbSensorUdegVal2 udeg).toInt = udeg.toInt := by
  have hne : esbSensorMicrodegPerDeg ≠ -1 := by decide
  have hbounds := abs_le.mp h
  rw [udegMax] at hbounds
  rw [esbSensorUdegVal1, esbSensorUdegVal2, Int64.toInt_toInt32, Int64.toInt_toInt32,
    Int64.toInt_div_of_ne_right _ _ hne, Int64.toInt_mod, esbSensorMicrodegPerDeg_toInt]
  have hsplit := Int.mul_tdiv_add_tmod udeg.toInt 1000000
  have hbelow := Int.tmod_lt_of_pos udeg.toInt (b := 1000000) (by decide)
  have habove := Int.lt_tmod_of_pos udeg.toInt (b := 1000000) (by decide)
  have hval1 : |udeg.toInt.tdiv 1000000| < 2 ^ 31 := by
    rw [abs_lt]
    omega
  have hval2 : |udeg.toInt.tmod 1000000| < 2 ^ 31 := by
    rw [abs_lt]
    omega
  rw [bmod_word hval1, bmod_word hval2]
  omega

/-! ## Tracks -/

/-- What a track forwards for a total: one gap or nothing. -/
def forwardedUdeg (track : EsbSensorTrack) (total : Int64) : List ℤ :=
  ((esbSensorTrackDelta track total).2.map Int64.toInt).toList

variable {track : EsbSensorTrack} {total : Int64}

theorem esbSensorTrackDelta_track : (esbSensorTrackDelta track total).1 = ⟨total, true⟩ := by
  rw [esbSensorTrackDelta]
  split_ifs <;> rfl

/-- A gap that forwards is within the cap. -/
theorem esbSensorTrackDelta_le {delta : Int64}
    (h : (esbSensorTrackDelta track total).2 = some delta) : |delta.toInt| ≤ udegMax := by
  rw [esbSensorTrackDelta] at h
  split_ifs at h with hskip
  cases h
  simp only [not_or, gt_iff_lt, Int64.lt_iff_toInt_lt, esbSensorResyncUdeg_toInt,
    neg_esbSensorResyncUdeg_toInt, resyncUdeg] at hskip
  rw [abs_le, udegMax]
  omega

theorem forwardedUdeg_fresh (h : track.valid = false) : forwardedUdeg track total = [] := by
  simp [forwardedUdeg, esbSensorTrackDelta, h]

/-- Between totals of the range, a gap within the cap forwards as it is, unless it is zero. -/
theorem forwardedUdeg_exact (hvalid : track.valid = true) (htotal : |total.toInt| ≤ udegMax)
    (hlast : |track.lastUdeg.toInt| ≤ udegMax)
    (hgap : |total.toInt - track.lastUdeg.toInt| ≤ resyncUdeg) :
    forwardedUdeg track total = [total.toInt - track.lastUdeg.toInt].filter (· ≠ 0) := by
  have hdelta : (total - track.lastUdeg).toInt = total.toInt - track.lastUdeg.toInt := by
    have htotal := abs_le.mp htotal
    have hlast := abs_le.mp hlast
    rw [udegMax] at htotal hlast
    rw [Int64.toInt_sub, Int.bmod_def]
    omega
  have hbounds := abs_le.mp hgap
  have hover : ¬total - track.lastUdeg > esbSensorResyncUdeg := by
    rw [gt_iff_lt, Int64.lt_iff_toInt_lt, hdelta, esbSensorResyncUdeg_toInt]
    exact Int.not_lt.mpr hbounds.2
  have hunder : ¬total - track.lastUdeg < -esbSensorResyncUdeg := by
    rw [Int64.lt_iff_toInt_lt, hdelta, neg_esbSensorResyncUdeg_toInt]
    exact Int.not_lt.mpr hbounds.1
  have hzero : total - track.lastUdeg = 0 ↔ total.toInt - track.lastUdeg.toInt = 0 := by
    rw [← hdelta, ← Int64.toInt_inj, Int64.toInt_zero]
  by_cases hsame : total.toInt - track.lastUdeg.toInt = 0
  · simp [forwardedUdeg, esbSensorTrackDelta, hzero.mpr hsame, hsame]
  · simp [forwardedUdeg, esbSensorTrackDelta, hvalid, hover, hunder, hzero, hsame, hdelta]

/-! ## Rotation among the outputs -/

variable {L : EventLayout}

/-- What an output of the central rotates a sensor of a pipe by. -/
def rotationOf (pipe sensor : ℕ) : CentralOutput L → Option ℤ
  | .peripheralEvent source (.sensor event) =>
      if source = pipe ∧ (L.sensorIndex event).toNat = sensor then
        some ((L.sensorVal1 event).toInt * 1000000 + (L.sensorVal2 event).toInt)
      else none
  | _ => none

def rotations (pipe sensor : ℕ) (outputs : List (CentralOutput L)) : List ℤ :=
  outputs.filterMap (rotationOf pipe sensor)

/-- The track of a sensor after an operation, and what was forwarded for it. -/
structure SensorEffect (pipe sensor : ℕ) (track : EsbSensorTrack) (moved : List ℤ)
    (central central' : Central L) : Prop where
  track : central'.sensorTracks pipe sensor = track
  outputs : ∃ more, central'.outputs = central.outputs ++ more ∧ rotations pipe sensor more = moved

/-- The sensor takes a total if there is one, and is left alone otherwise. -/
def SensorTakes (pipe sensor : ℕ) (total : Option Int64) (central central' : Central L) : Prop :=
  SensorEffect pipe sensor
    (total.elim (central.sensorTracks pipe sensor) fun total => ⟨total, true⟩)
    (total.elim [] (forwardedUdeg (central.sensorTracks pipe sensor))) central central'

section Quiet

variable {pipe sensor : ℕ} {c c' c'' : Central L}

theorem SensorEffect.trans {track track' : EsbSensorTrack} {moved moved' : List ℤ}
    (h : SensorEffect pipe sensor track moved c c')
    (h' : SensorEffect pipe sensor track' moved' c' c'') :
    SensorEffect pipe sensor track' (moved ++ moved') c c'' where
  track := h'.track
  outputs := by
    obtain ⟨first, hfirst, hmoved⟩ := h.outputs
    obtain ⟨second, hsecond, hmoved'⟩ := h'.outputs
    refine ⟨first ++ second, by rw [hsecond, hfirst, List.append_assoc], ?_⟩
    rw [rotations, List.filterMap_append, ← hmoved, ← hmoved']
    rfl

theorem SensorTakes.before_quiet {total : Option Int64} (h : SensorTakes pipe sensor total c c')
    (h' : SensorTakes pipe sensor none c' c'') : SensorTakes pipe sensor total c c'' := by
  have hboth := SensorEffect.trans h h'
  rw [Option.elim_none, Option.elim_none, List.append_nil, h.track] at hboth
  exact hboth

theorem SensorTakes.after_quiet {total : Option Int64} (h : SensorTakes pipe sensor none c c')
    (h' : SensorTakes pipe sensor total c' c'') : SensorTakes pipe sensor total c c'' := by
  have hboth := SensorEffect.trans h h'
  rw [Option.elim_none, List.nil_append, h.track] at hboth
  exact hboth

theorem quiet_of_outputs {more : List (CentralOutput L)} (htracks : c'.sensorTracks = c.sensorTracks)
    (houtputs : c'.outputs = c.outputs ++ more)
    (h : ∀ output ∈ more, rotationOf pipe sensor output = none) :
    SensorTakes pipe sensor none c c' where
  track := by rw [htracks]; rfl
  outputs := ⟨more, houtputs, List.filterMap_eq_nil_iff.mpr h⟩

theorem quiet_refl (central : Central L) : SensorTakes pipe sensor none central central :=
  quiet_of_outputs rfl (List.append_nil _).symm (by simp)

theorem emit_quiet (central : Central L) {output : CentralOutput L}
    (h : rotationOf pipe sensor output = none) :
    SensorTakes pipe sensor none central (central.emit output) :=
  quiet_of_outputs rfl rfl fun o ho => by rw [List.mem_singleton.mp ho]; exact h

theorem setTracked_quiet (central : Central L) (source position : ℕ) (pressed : Bool) :
    SensorTakes pipe sensor none central (central.setTracked source position pressed) :=
  quiet_of_outputs rfl (List.append_nil _).symm (by simp)

theorem replayPositions_quiet (target : PositionBitmap) (source : ℕ) (central : Central L)
    (position : ℕ) :
    SensorTakes pipe sensor none central
      (Central.replayPositions source target central position) := by
  fun_induction Central.replayPositions source target central position with
  | case1 central position hlt pressed central' ih =>
      exact ((setTracked_quiet central source position pressed).before_quiet
        (emit_quiet _ rfl)).before_quiet ih
  | case2 central position hge => exact quiet_refl central

theorem replayPositionDiff_quiet (central : Central L) (source : ℕ) (target : PositionBitmap) :
    SensorTakes pipe sensor none central (central.replayPositionDiff source target) := by
  rw [Central.replayPositionDiff]
  split_ifs
  · exact quiet_refl central
  · exact replayPositions_quiet target source central _

theorem deliverKeyEvent_quiet (central : Central L) (source : ℕ)
    (event : Vector UInt8 L.keyPositionSize) :
    SensorTakes pipe sensor none central (central.deliverKeyEvent source event) := by
  simp only [Central.deliverKeyEvent]
  split_ifs
  · exact emit_quiet central rfl
  · split
    · exact quiet_refl central
    · exact ((emit_quiet central rfl).before_quiet (setTracked_quiet _ _ _ _)).before_quiet
        (emit_quiet _ rfl)
    · exact (setTracked_quiet central _ _ _).before_quiet (emit_quiet _ rfl)

theorem reconcileBattery_quiet (central : Central L) (source : ℕ) (level : UInt8) :
    SensorTakes pipe sensor none central (central.reconcileBattery source level) := by
  rw [Central.reconcileBattery]
  split_ifs
  · exact quiet_refl central
  · exact quiet_refl central
  · exact quiet_of_outputs rfl rfl (by simp [rotationOf])

theorem releaseInput_quiet (central : Central L) (source : ℕ) :
    SensorTakes pipe sensor none central (central.releaseInput source) := by
  rw [Central.releaseInput]
  split_ifs
  · exact quiet_refl central
  · refine quiet_of_outputs rfl rfl fun output houtput => ?_
    obtain ⟨reg, -, rfl⟩ := List.mem_map.mp houtput
    rfl

theorem putInbound_quiet (config : CentralConfig) (central : Central L)
    (inbound : CentralInbound L) :
    SensorTakes pipe sensor none central (central.putInbound config inbound) := by
  rw [Central.putInbound]
  split_ifs
  · exact quiet_of_outputs rfl (List.append_nil _).symm (by simp)
  · exact quiet_refl central

theorem emitInput_quiet (central : Central L) (source : ℕ) (input : CentralInput)
    (events : List InputEvent) :
    SensorTakes pipe sensor none central (central.emitInput source input events) := by
  refine quiet_of_outputs rfl rfl fun output houtput => ?_
  obtain ⟨event, -, rfl⟩ := List.mem_map.mp houtput
  rfl

theorem dispatchEvent_quiet (config : CentralConfig) (source : ℕ) (now : UInt32)
    (central : Central L) (event : PeripheralEvent L) :
    SensorTakes pipe sensor none central
      (Central.dispatchEvent config source now central event) := by
  cases event with
  | keyPosition event => exact putInbound_quiet config central _
  | sensor event => exact putInbound_quiet config central _
  | battery event => exact putInbound_quiet config central _
  | input event =>
      change SensorTakes pipe sensor none central (central.inputDeliverEvent source now event)
      rw [Central.inputDeliverEvent]
      split_ifs
      · exact emit_quiet central rfl
      · exact emitInput_quiet central source _ _

/-- Packets only queue what carries rotation. -/
theorem ingestPacket_quiet (config : CentralConfig) (central : Central L) (source : ℕ)
    (now : UInt32) (data : Bytes) :
    SensorTakes pipe sensor none central (central.ingestPacket config source now data) := by
  rw [Central.ingestPacket, centralIngestPacket]
  split_ifs
  · rw [Central.applyHostIndicators]
    split_ifs
    · exact emit_quiet central rfl
    · exact quiet_refl central
  · refine SensorTakes.before_quiet ?_ (putInbound_quiet config _ _)
    rw [Central.inputReconcile]
    split_ifs
    · exact quiet_refl central
    · exact emitInput_quiet central source _ _
  · rw [ingestEvents_eq_foldl]
    refine List.foldlRecOn (motive := fun c : Central L => SensorTakes pipe sensor none central c)
      _ _ (quiet_refl central) fun c hc event _ => ?_
    exact hc.before_quiet (dispatchEvent_quiet config source now c event)

end Quiet

/-! ## Items of the queue -/

/-- The total an item carries for a sensor. -/
def CentralInboundData.sensorUdeg (sensor : ℕ) : CentralInboundData L → Option Int64
  | .event (.sensor total) =>
      if (L.sensorIndex total).toNat = sensor then
        some (esbSensorUdeg (L.sensorVal1 total) (L.sensorVal2 total))
      else none
  | .event _ => none
  | .keepalive data length =>
      if sensor < (esbKeepaliveSensorCount data length).toNat then
        some (esbKeepaliveSensorTotalUdeg data (UInt8.ofNat sensor))
      else none

/-- The total an item delivers to a sensor of a pipe. -/
def CentralInbound.delivers (pipe sensor : ℕ) (inbound : CentralInbound L) : Option Int64 :=
  if inbound.source = pipe then inbound.data.sensorUdeg sensor else none

section Handle

variable {config : CentralConfig} {pipe sensor : ℕ} (hpipe : pipe < esbLinkPipeMax)
  (hsensor : sensor < config.sensorsLen)
include hpipe hsensor

/-- The gap to a total is forwarded in degrees and a remainder by an event of its sensor. -/
theorem sensorDeltaValue_takes (central : Central L) (source index : ℕ) (total : Int64)
    (event : Int32 → Int32 → Vector UInt8 L.sensorSize)
    (hevent : ∀ val1 val2, (L.sensorIndex (event val1 val2)).toNat = index ∧
      L.sensorVal1 (event val1 val2) = val1 ∧ L.sensorVal2 (event val1 val2) = val2) :
    SensorTakes pipe sensor (if source = pipe ∧ index = sensor then some total else none) central
      ((central.sensorDeltaValue config source index total).2.elim
        (central.sensorDeltaValue config source index total).1 fun value =>
          (central.sensorDeltaValue config source index total).1.emit
            (.peripheralEvent source (.sensor (event value.1 value.2)))) := by
  by_cases hguard : esbLinkPipeMax ≤ source ∨ config.sensorsLen ≤ index
  · rw [Central.sensorDeltaValue, if_pos hguard, if_neg (by omega)]
    exact quiet_refl central
  rw [Central.sensorDeltaValue, if_neg hguard]
  dsimp only
  have htrack := @esbSensorTrackDelta_track (central.sensorTracks source index) total
  by_cases hhere : source = pipe ∧ index = sensor
  · obtain ⟨rfl, rfl⟩ := hhere
    rw [if_pos ⟨rfl, rfl⟩]
    cases hdelta : (esbSensorTrackDelta (central.sensorTracks source index) total).2 with
    | none =>
        refine ⟨?_, [], (List.append_nil _).symm, ?_⟩
        · simp [htrack]
        · simp [forwardedUdeg, hdelta, rotations]
    | some delta =>
        have hsplit := esbSensorUdeg_split (esbSensorTrackDelta_le hdelta)
        obtain ⟨hindex, hval1, hval2⟩ := hevent (esbSensorUdegVal1 delta) (esbSensorUdegVal2 delta)
        refine ⟨?_, [_], rfl, ?_⟩
        · simp [Central.emit, htrack]
        · simp [forwardedUdeg, hdelta, rotations, rotationOf, hindex, hval1, hval2, hsplit]
  · rw [if_neg hhere]
    have hother : Function.update central.sensorTracks source
        (Function.update (central.sensorTracks source) index
          (esbSensorTrackDelta (central.sensorTracks source index) total).1) pipe sensor =
            central.sensorTracks pipe sensor := by
      rcases eq_or_ne pipe source with rfl | hne
      · rw [Function.update_self, Function.update_of_ne (by omega)]
      · rw [Function.update_of_ne hne]
    cases hdelta : (esbSensorTrackDelta (central.sensorTracks source index) total).2 with
    | none => exact ⟨hother, [], (List.append_nil _).symm, rfl⟩
    | some delta =>
        obtain ⟨hindex, -⟩ := hevent (esbSensorUdegVal1 delta) (esbSensorUdegVal2 delta)
        refine ⟨hother, [_], rfl, ?_⟩
        simp [rotations, rotationOf, hindex, hhere]

theorem reconcileSensorTotal_takes (central : Central L) (source : ℕ) (keepalive : Bytes)
    {index : ℕ} (hindex : index < 256) :
    SensorTakes pipe sensor
      (if source = pipe ∧ index = sensor then
        some (esbKeepaliveSensorTotalUdeg keepalive (UInt8.ofNat index)) else none)
      central (Central.reconcileSensorTotal config source keepalive central index) := by
  have htakes := sensorDeltaValue_takes hpipe hsensor central source index
    (esbKeepaliveSensorTotalUdeg keepalive (UInt8.ofNat index))
    (L.rotationEvent (UInt8.ofNat index)) fun val1 val2 => by
      obtain ⟨hfield, hval1, hval2⟩ := L.rotationEvent_fields (UInt8.ofNat index) val1 val2
      exact ⟨by rw [hfield, UInt8.toNat_ofNat', Nat.mod_eq_of_lt hindex], hval1, hval2⟩
  rw [Central.reconcileSensorTotal]
  dsimp only
  cases hvalue : (central.sensorDeltaValue config source index
      (esbKeepaliveSensorTotalUdeg keepalive (UInt8.ofNat index))).2 with
  | none =>
      rw [hvalue] at htakes
      exact htakes
  | some value =>
      rw [hvalue] at htakes
      exact htakes

/-- Every sensor the keepalive counts takes its own total, once. -/
theorem reconcileSensorTotals_takes (central : Central L) (source : ℕ) (keepalive : Bytes)
    (length : UInt8) :
    SensorTakes pipe sensor
      (if source = pipe then (CentralInboundData.keepalive keepalive length :
        CentralInboundData L).sensorUdeg sensor else none)
      central (central.reconcileSensorTotals config source keepalive length) := by
  rw [Central.reconcileSensorTotals, if_neg (by omega : ¬config.sensorsLen = 0)]
  simp only [CentralInboundData.sensorUdeg, ← ite_and]
  have hcount := (esbKeepaliveSensorCount keepalive length).toNat_lt
  generalize (esbKeepaliveSensorCount keepalive length).toNat = count at hcount
  induction count with
  | zero => simpa using quiet_refl central
  | succ count ih =>
      have hbefore := ih (by omega)
      have hturn := reconcileSensorTotal_takes hpipe hsensor
        ((List.range count).foldl (Central.reconcileSensorTotal config source keepalive) central)
        source keepalive (by omega : count < 256)
      rw [List.range_succ, List.foldl_append]
      rcases lt_trichotomy sensor count with hlt | rfl | hgt
      · rw [if_neg (by omega)] at hturn
        have hcond : (source = pipe ∧ sensor < count + 1) = (source = pipe ∧ sensor < count) := by
          simp [hlt, Nat.lt_succ_of_lt hlt]
        simp only [hcond]
        exact hbefore.before_quiet hturn
      · rw [if_neg (by omega)] at hbefore
        simpa using hbefore.after_quiet hturn
      · rw [if_neg (by omega)] at hbefore hturn
        rw [if_neg (by omega)]
        exact hbefore.before_quiet hturn

theorem handleKeepalive_takes (central : Central L) (source : ℕ) (keepalive : Bytes)
    (length : UInt8) :
    SensorTakes pipe sensor
      (if source = pipe then (CentralInboundData.keepalive keepalive length :
        CentralInboundData L).sensorUdeg sensor else none)
      central (central.handleKeepalive config source keepalive length) := by
  have hbefore : SensorTakes pipe sensor none central
      (if config.batteryReporting && !config.batteryLevelFetching then
        (central.replayPositionDiff source (esbKeepaliveBitmap keepalive)).reconcileBattery source
          (esbKeepaliveBatteryLevel keepalive)
      else central.replayPositionDiff source (esbKeepaliveBitmap keepalive)) := by
    split
    · exact (replayPositionDiff_quiet central source _).before_quiet (reconcileBattery_quiet _ _ _)
    · exact replayPositionDiff_quiet central source _
  exact hbefore.after_quiet (reconcileSensorTotals_takes hpipe hsensor _ source keepalive length)

theorem handleEvent_takes (central : Central L) (source : ℕ) (event : PeripheralEvent L) :
    SensorTakes pipe sensor
      (if source = pipe then (CentralInboundData.event event).sensorUdeg sensor else none)
      central (central.handleEvent config source event) := by
  cases event with
  | keyPosition event =>
      simp only [CentralInboundData.sensorUdeg, ite_self]
      exact deliverKeyEvent_quiet central source event
  | input event =>
      simp only [CentralInboundData.sensorUdeg, ite_self]
      exact emit_quiet central rfl
  | battery event =>
      rw [Central.handleEvent]
      simp only [CentralInboundData.sensorUdeg, ite_self]
      split_ifs
      · exact reconcileBattery_quiet central source _
      · exact quiet_refl central
      · exact emit_quiet central rfl
  | sensor event =>
      have htakes := sensorDeltaValue_takes hpipe hsensor central source
        (L.sensorIndex event).toNat (esbSensorUdeg (L.sensorVal1 event) (L.sensorVal2 event))
        (L.sensorWithValue event) fun val1 val2 => by
          obtain ⟨hfield, hval1, hval2⟩ := L.sensorWithValue_fields event val1 val2
          exact ⟨by rw [hfield], hval1, hval2⟩
      rw [Central.handleEvent, Central.sensorEventToDelta,
        if_neg (by omega : ¬config.sensorsLen = 0)]
      simp only [CentralInboundData.sensorUdeg, ← ite_and]
      cases hvalue : (central.sensorDeltaValue config source (L.sensorIndex event).toNat
          (esbSensorUdeg (L.sensorVal1 event) (L.sensorVal2 event))).2 with
      | none =>
          rw [hvalue] at htakes
          exact htakes
      | some value =>
          rw [hvalue] at htakes
          exact htakes

/-- A sensor takes what an item delivers to it. -/
theorem handleInbound_takes (central : Central L) (inbound : CentralInbound L) :
    SensorTakes pipe sensor (inbound.delivers pipe sensor) central
      (central.handleInbound config inbound) := by
  cases inbound with
  | mk source data =>
      cases data with
      | keepalive data length => exact handleKeepalive_takes hpipe hsensor central source data length
      | event event => exact handleEvent_takes hpipe hsensor central source event

end Handle

/-- A staleness release drops the baselines of its pipe and forwards no rotation. -/
theorem releaseStalePipe_sensor {pipe : ℕ} (hpipe : pipe < esbLinkPipeMax) (sensor : ℕ)
    (central : Central L) (source : ℕ) :
    SensorEffect pipe sensor
      (if source = pipe then { central.sensorTracks pipe sensor with valid := false }
        else central.sensorTracks pipe sensor) []
      central (central.releaseStalePipe source) := by
  have hbefore : SensorTakes pipe sensor none central
      ((central.replayPositionDiff source (Vector.replicate _ 0)).releaseInput source) :=
    (replayPositionDiff_quiet central source _).before_quiet (releaseInput_quiet _ source)
  obtain ⟨more, hmore, hnone⟩ := hbefore.outputs
  rw [Central.releaseStalePipe, Central.sensorTracksReset]
  rcases eq_or_ne source pipe with rfl | hne
  · have htrack := hbefore.track
    rw [if_pos rfl, if_neg (by omega)]
    refine ⟨?_, more, hmore, hnone⟩
    simp only [Function.update_self, htrack, Option.elim_none]
  · rw [if_neg hne]
    split_ifs
    · exact hbefore
    · refine ⟨?_, more, hmore, hnone⟩
      simp only [Function.update_of_ne hne.symm]
      exact hbefore.track

end SplitEsb
