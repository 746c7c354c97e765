import SplitEsb.Central.Motion
import SplitEsb.Central.Queue
import SplitEsb.Central.Rotation
import SplitEsb.Link.Keys
import SplitEsb.Shared.Residue

/-! # Sensor rotation over a lossy link
The peripheral and the pipe of the key link, followed for the totals of the
sensors: every packet is marked with the rotation of each sensor when it was sent. -/

namespace SplitEsb

open ByteString Gaps

variable {L : EventLayout}

/-! ## The system -/

/-- Both ends and the packets between them. `truth` is the rotation of each sensor
since boot, every packet and queued item is marked with it as it was when the packet
was sent, and `traces` is what totals were delivered; no step's effect on either end
reads them. -/
structure SensorLink (config : PeripheralConfig L) where
  peripheral : Peripheral config
  truth : ℕ → ℤ
  air : List (Bytes × (ℕ → ℤ))
  central : Central L
  queued : List (ℕ → ℤ)
  traces : ℕ → Option AxisTrace

/-- What an event rotates the sensors by that the peripheral keeps totals of. -/
def rotate (config : PeripheralConfig L) (truth : ℕ → ℤ) : PeripheralEvent L → ℕ → ℤ
  | .sensor event =>
      let index := (L.sensorIndex event).toNat
      if index < config.sensorsLen then
        Function.update truth index
          (truth index + ((L.sensorVal1 event).toInt * 1000000 + (L.sensorVal2 event).toInt))
      else truth
  | _ => truth

/-- A delivered total extends the trace, or becomes its baseline. -/
def adopt (mark : ℕ) (trace : Option AxisTrace) : Option Int64 → Option AxisTrace
  | none => trace
  | some total =>
      match trace with
      | none => some ⟨mark, total.toInt, []⟩
      | some trace => some (trace.extend total.toInt)

namespace SensorLink

variable {config : PeripheralConfig L}

def init (config : PeripheralConfig L) (centralConfig : CentralConfig) : SensorLink config where
  peripheral := .init config
  truth _ := 0
  air := []
  central := .init L centralConfig
  queued := []
  traces _ := none

/-- Hands a packet to the central; the items it queues inherit its mark. -/
def ingest (centralConfig : CentralConfig) (link : SensorLink config) (source : ℕ) (now : UInt32)
    (data : Bytes) (mark : ℕ → ℤ) : SensorLink config :=
  let central := link.central.ingestPacket centralConfig source now data
  { link with
    central := central
    queued := link.queued ++
      List.replicate (central.eventMsgq.length - link.central.eventMsgq.length) mark }

def send (link : SensorLink config) (peripheral : Peripheral config) (truth : ℕ → ℤ)
    (packets : List UplinkPacket) : SensorLink config :=
  { link with
    peripheral := peripheral
    truth := truth
    air := link.air ++ packets.map fun packet => (packet.data, truth) }

def work (centralConfig : CentralConfig) (pipe : ℕ) (link : SensorLink config) :
    SensorLink config :=
  { link with
    central := link.central.eventWorkStep centralConfig
    queued := link.queued.tail
    traces := fun sensor => adopt link.central.outputs.length (link.traces sensor)
      (link.central.eventMsgq.head?.bind fun inbound => inbound.delivers pipe sensor) }

def step (centralConfig : CentralConfig) (pipe : ℕ) (link : SensorLink config) :
    KeyLinkAction L → SensorLink config
  | .report event =>
      link.send (link.peripheral.reportEvent event).1 (rotate config link.truth event)
        (link.peripheral.reportEvent event).2
  | .keepalive state linkCostX10 batteryLevel =>
      link.send link.peripheral link.truth
        (link.peripheral.esbLinkKeepaliveFill state linkCostX10 batteryLevel).toList
  | .lose index => { link with air := link.air.eraseIdx index }
  | .receive now =>
      match link.air with
      | [] => link
      | (data, mark) :: air => ({ link with air := air }).ingest centralConfig pipe now data mark
  | .work => link.work centralConfig pipe
  | .foreign source now data =>
      if source = pipe then link else link.ingest centralConfig source now data link.truth
  | .releaseStale source =>
      { link with
        central := link.central.releaseStalePipe source
        traces := if source = pipe then fun _ => none else link.traces }

/-- The rotation of a sensor stays within the totals whose degrees fit an int32. -/
def InRange (centralConfig : CentralConfig) (pipe sensor : ℕ) (link : SensorLink config)
    (action : KeyLinkAction L) : Prop :=
  |(link.step centralConfig pipe action).truth sensor| ≤ udegMax

instance (centralConfig : CentralConfig) (pipe sensor : ℕ) (link : SensorLink config)
    (action : KeyLinkAction L) : Decidable (link.InRange centralConfig pipe sensor action) :=
  Int.decLe _ _

end SensorLink

/-! ## What a packet carries -/

/-- Whichever way a packet carries the total of a sensor, it carries this one. -/
structure CarriesTotal (L : EventLayout) (sensor : ℕ) (data : Bytes) (total : ℤ) : Prop where
  keepalive : esbKeepaliveMatches data (UInt8.ofNat data.length) = true →
    sensor < (esbKeepaliveSensorCount data (UInt8.ofNat data.length)).toNat ∧
      (esbKeepaliveSensorTotalUdeg data (UInt8.ofNat sensor)).toInt = total
  event : esbKeepaliveMatches data (UInt8.ofNat data.length) = false →
    ∀ event, .sensor event ∈ decodedEvents L data → (L.sensorIndex event).toNat = sensor →
      (esbSensorUdeg (L.sensorVal1 event) (L.sensorVal2 event)).toInt = total

variable {sensor : ℕ} {total : ℤ}

theorem CarriesTotal.events {events : List (PeripheralEvent L)}
    (h : ∀ event, .sensor event ∈ events → (L.sensorIndex event).toNat = sensor →
      (esbSensorUdeg (L.sensorVal1 event) (L.sensorVal2 event)).toInt = total) :
    CarriesTotal L sensor (events.flatMap PeripheralEvent.encoding) total where
  keepalive hmatches := by
    rw [not_esbKeepaliveMatches events _ fun hnil => by rw [hnil]; rfl] at hmatches
    cases hmatches
  event _ := by
    rw [decodedEvents_flatMap]
    exact h

theorem CarriesTotal.single {event : PeripheralEvent L}
    (h : ∀ found, event = .sensor found → (L.sensorIndex found).toNat = sensor →
      (esbSensorUdeg (L.sensorVal1 found) (L.sensorVal2 found)).toInt = total) :
    CarriesTotal L sensor event.encoding total := by
  have hevents : CarriesTotal L sensor ([event].flatMap PeripheralEvent.encoding) total :=
    .events fun found hfound => h found (List.mem_singleton.mp hfound).symm
  simpa using hevents

theorem CarriesTotal.snapshot {snapshot : EsbKeepaliveSnapshot} (hfit : snapshot.encodedLength ≤ 255)
    {word : Int64} (hword : snapshot.sensorTotalsUdeg[sensor]? = some word)
    (htotal : word.toInt = total) : CarriesTotal L sensor snapshot.encoding total where
  keepalive _ := by
    obtain ⟨hlt, hget⟩ := List.getElem?_eq_some_iff.mp hword
    have hcount := esbKeepaliveSensorCount_encoding [] hfit
    have hread := sensorTotal_encoding snapshot [] sensor hlt
    rw [List.append_nil] at hcount hread
    rw [snapshot.encoding_length, hcount, hread, hget]
    exact ⟨hlt, htotal⟩
  event hnot := by
    have hmatches := esbKeepaliveMatches_encoding [] hfit
    rw [List.append_nil, ← snapshot.encoding_length, hnot] at hmatches
    cases hmatches

/-- A copy cut short reads the totals it counts as the whole keepalive does. -/
theorem esbKeepaliveSensorTotalUdeg_prefix {data : Bytes} (tail : Bytes) {length : UInt8}
    (hlength : length.toNat ≤ data.length)
    (hsensor : sensor < (esbKeepaliveSensorCount data length).toNat) :
    esbKeepaliveSensorTotalUdeg (data ++ tail) (UInt8.ofNat sensor) =
      esbKeepaliveSensorTotalUdeg data (UInt8.ofNat sensor) := by
  have hindex : (UInt8.ofNat sensor).toNat = sensor := by
    have := (esbKeepaliveSensorCount data length).toNat_lt
    rw [UInt8.toNat_ofNat']
    omega
  rw [esbKeepaliveSensorCount] at hsensor
  split_ifs at hsensor with hmotion htotals
  · cases hsensor
  · cases hsensor
  · have hoffset := esbKeepaliveMotionCountOffset_eq (esbKeepaliveHeldCount data).toNat
    rw [motionCountOffset, hoffset] at hmotion
    have hheld : esbKeepaliveHeldCount (data ++ tail) = esbKeepaliveHeldCount data :=
      byteAt_prefix (by
        have : esbKeepaliveHeldCountOffset = 12 := rfl
        omega)
    have hmotions : esbKeepaliveMotionCount (data ++ tail) = esbKeepaliveMotionCount data := by
      rw [esbKeepaliveMotionCount, esbKeepaliveMotionCount, motionCountOffset, motionCountOffset,
        hheld]
      exact byteAt_prefix (by rw [hoffset]; omega)
    have hoffsets : sensorOffset (data ++ tail) = sensorOffset data := by
      rw [sensorOffset, sensorOffset, hheld, hmotions]
    rw [UInt8.toNat_ofNat'] at hsensor
    rw [esbKeepaliveSensorTotalUdeg, esbKeepaliveSensorTotalUdeg, getLe64, getLe64,
      sensorEntryOffset, sensorEntryOffset, hoffsets, hindex, readAt_prefix]
    rw [esbKeepaliveSensorBytes] at hsensor ⊢
    omega

/-- Whatever a packet queues on the pipe delivers the total it carries. -/
theorem CarriesTotal.queues {data : Bytes} (h : CarriesTotal L sensor data total)
    (config : CentralConfig) (central : Central L) (source pipe : ℕ) (now : UInt32) :
    Queues (fun item => ∀ word, item.delivers pipe sensor = some word → word.toInt = total) central
      (central.ingestPacket config source now data) := by
  refine ingestPacket_queues config central now (fun hmatches word hword => ?_)
    fun hnot event hmem _ word hword => ?_
  · obtain ⟨-, htotal⟩ := h.keepalive hmatches
    rw [CentralInbound.delivers, CentralInboundData.sensorUdeg] at hword
    split_ifs at hword with _ hcount
    cases hword
    have hlength : (UInt8.ofNat (min data.length config.maxPayload)).toNat ≤
        (data.take config.maxPayload).length := by
      rw [UInt8.toNat_ofNat', List.length_take, min_comm]
      exact Nat.mod_le _ _
    have hread := esbKeepaliveSensorTotalUdeg_prefix (data.drop config.maxPayload) hlength hcount
    rw [List.take_append_drop] at hread
    rw [← hread]
    exact htotal
  · rw [CentralInbound.delivers] at hword
    split_ifs at hword
    cases event with
    | sensor event =>
        rw [CentralInboundData.sensorUdeg] at hword
        split_ifs at hword with hindex
        cases hword
        exact h.event hnot event hmem hindex
    | keyPosition event => cases hword
    | input event => cases hword
    | battery event => cases hword

/-! ## The peripheral -/

variable {config : PeripheralConfig L}

/-- The word a peripheral keeps for a sensor is its rotation. -/
def KeepsTotal (sensor : ℕ) (peripheral : Peripheral config) (total : ℤ) : Prop :=
  ∃ word, peripheral.sensorTotalUdeg[sensor]? = some word ∧ word.toInt = total

theorem keepsTotal_init (hsensor : sensor < config.sensorsLen) :
    KeepsTotal sensor (Peripheral.init config) 0 :=
  ⟨0, by simp [Peripheral.init, hsensor], rfl⟩

theorem KeepsTotal.of_eq {peripheral peripheral' : Peripheral config}
    (h : KeepsTotal sensor peripheral total)
    (hsame : peripheral'.sensorTotalUdeg = peripheral.sensorTotalUdeg) :
    KeepsTotal sensor peripheral' total := by
  rw [KeepsTotal, hsame]
  exact h

/-- A rotation that stays in range moves the kept total and sends it. -/
theorem KeepsTotal.sensorEventToTotal {peripheral : Peripheral config} {truth : ℕ → ℤ}
    (h : KeepsTotal sensor peripheral (truth sensor)) (event : Vector UInt8 L.sensorSize)
    (hrange : |rotate config truth (.sensor event) sensor| ≤ udegMax) :
    KeepsTotal sensor (peripheral.sensorEventToTotal event).1
        (rotate config truth (.sensor event) sensor) ∧
      CarriesTotal L sensor
        (PeripheralEvent.sensor (peripheral.sensorEventToTotal event).2).encoding
        (rotate config truth (.sensor event) sensor) := by
  obtain ⟨word, hword, htotal⟩ := h
  have hkept := (List.getElem?_eq_some_iff.mp hword).1
  rw [peripheral.sensorTotalUdeg_length] at hkept
  rw [rotate] at hrange ⊢
  rw [Peripheral.sensorEventToTotal]
  rcases eq_or_ne (L.sensorIndex event).toNat sensor with hindex | hne
  · subst hindex
    rw [if_pos hkept, Function.update_self] at hrange ⊢
    have hsum : (word + esbSensorUdeg (L.sensorVal1 event) (L.sensorVal2 event)).toInt =
        truth (L.sensorIndex event).toNat +
          ((L.sensorVal1 event).toInt * 1000000 + (L.sensorVal2 event).toInt) := by
      have hbounds := abs_le.mp hrange
      rw [udegMax] at hbounds
      rw [Int64.toInt_add, esbSensorUdeg_toInt, htotal, Int.bmod_def]
      omega
    rw [hword]
    dsimp only
    refine ⟨⟨_, by simp [peripheral.sensorTotalUdeg_length, hkept], hsum⟩, .single fun found hfound _ => ?_⟩
    cases hfound
    obtain ⟨-, hval1, hval2⟩ := L.sensorWithValue_fields event
      (esbSensorUdegVal1 (word + esbSensorUdeg (L.sensorVal1 event) (L.sensorVal2 event)))
      (esbSensorUdegVal2 (word + esbSensorUdeg (L.sensorVal1 event) (L.sensorVal2 event)))
    rw [← hsum] at hrange ⊢
    rw [hval1, hval2, esbSensorUdeg_toInt, esbSensorUdeg_split hrange]
  · have hsame : (if (L.sensorIndex event).toNat < config.sensorsLen then
        Function.update truth (L.sensorIndex event).toNat (truth (L.sensorIndex event).toNat +
          ((L.sensorVal1 event).toInt * 1000000 + (L.sensorVal2 event).toInt))
      else truth) sensor = truth sensor := by
      split_ifs
      · exact Function.update_of_ne hne.symm _ _
      · rfl
    rw [hsame]
    cases peripheral.sensorTotalUdeg[(L.sensorIndex event).toNat]? with
    | none =>
        refine ⟨⟨word, hword, htotal⟩, .single fun found hfound hindex => ?_⟩
        cases hfound
        exact absurd hindex hne
    | some last =>
        refine ⟨⟨word, ?_, htotal⟩, .single fun found hfound hindex => ?_⟩
        · dsimp only
          rw [List.getElem?_set_ne hne]
          exact hword
        · cases hfound
          rw [(L.sensorWithValue_fields event _ _).1] at hindex
          exact absurd hindex hne

/-- A report keeps the total of a sensor and sends nothing else for it. -/
theorem KeepsTotal.reportEvent {peripheral : Peripheral config} {truth : ℕ → ℤ}
    (h : KeepsTotal sensor peripheral (truth sensor)) (event : PeripheralEvent L)
    (hrange : |rotate config truth event sensor| ≤ udegMax) :
    KeepsTotal sensor (peripheral.reportEvent event).1 (rotate config truth event sensor) ∧
      ∀ packet ∈ (peripheral.reportEvent event).2,
        CarriesTotal L sensor packet.data (rotate config truth event sensor) := by
  cases event with
  | sensor event =>
      rw [reportEvent_sensor]
      obtain ⟨hkeeps, hcarries⟩ := h.sensorEventToTotal event hrange
      refine ⟨hkeeps, fun packet hpacket => ?_⟩
      rw [List.mem_singleton.mp hpacket]
      exact hcarries
  | keyPosition event =>
      rw [reportEvent_keyPosition]
      refine ⟨h, fun packet hpacket => ?_⟩
      rw [List.mem_singleton.mp hpacket]
      exact .single fun _ hfound => by cases hfound
  | battery event =>
      rw [reportEvent_battery]
      refine ⟨h, fun packet hpacket => ?_⟩
      rw [List.mem_singleton.mp hpacket]
      exact .single fun _ hfound => by cases hfound
  | input event =>
      refine ⟨h.of_eq (reportEvent_input_keeps peripheral event).2, fun packet hpacket => ?_⟩
      rw [Peripheral.reportEvent] at hpacket
      obtain ⟨inputs, hdata⟩ := batchReportEvent_carries _ _ _ packet hpacket
      rw [hdata]
      refine .events fun found hfound => ?_
      obtain ⟨input, -, heq⟩ := List.mem_map.mp hfound
      cases heq

theorem keepaliveFill_carries {peripheral : Peripheral config}
    (h : KeepsTotal sensor peripheral total) (state linkCostX10 batteryLevel : UInt8) :
    ∀ packet ∈ peripheral.esbLinkKeepaliveFill state linkCostX10 batteryLevel,
      CarriesTotal L sensor packet.data total := by
  intro packet hpacket
  obtain ⟨hdata, hfit⟩ := keepaliveFill_data hpacket
  obtain ⟨word, hword, htotal⟩ := h
  rw [hdata]
  exact .snapshot hfit hword htotal

/-! ## The central -/

variable {pipe : ℕ} {central central' : Central L}

/-- The track follows a trace, and what was forwarded since the baseline is every gap
between the delivered totals that is not zero. -/
structure FollowsRotation (pipe sensor : ℕ) (central : Central L) (trace : AxisTrace) : Prop where
  mark_le : trace.mark ≤ central.outputs.length
  valid : (central.sensorTracks pipe sensor).valid = true
  last : (central.sensorTracks pipe sensor).lastUdeg.toInt = trace.last
  range : |trace.last| ≤ udegMax
  exact : Residue.Bounded resyncUdeg trace.applied →
    rotations pipe sensor (central.outputs.drop trace.mark) =
      (gaps trace.first trace.rest).filter (· ≠ 0)

/-- No total has been delivered since the baselines were dropped, or the track follows. -/
def Rotated (pipe sensor : ℕ) (central : Central L) : Option AxisTrace → Prop
  | none => (central.sensorTracks pipe sensor).valid = false
  | some trace => FollowsRotation pipe sensor central trace

theorem rotations_drop {outputs more : List (CentralOutput L)} {mark : ℕ}
    (hmark : mark ≤ outputs.length) :
    rotations pipe sensor ((outputs ++ more).drop mark) =
      rotations pipe sensor (outputs.drop mark) ++ rotations pipe sensor more := by
  rw [List.drop_append_of_le_length hmark, rotations, List.filterMap_append]
  rfl

/-- Outputs that rotate nothing keep what the trace says, if the track stays. -/
theorem FollowsRotation.quiet {trace : AxisTrace} (h : FollowsRotation pipe sensor central trace)
    (hquiet : SensorEffect pipe sensor (central.sensorTracks pipe sensor) [] central central') :
    FollowsRotation pipe sensor central' trace := by
  obtain ⟨more, hmore, hnone⟩ := hquiet.outputs
  refine ⟨?_, ?_, ?_, h.range, fun hbounded => ?_⟩
  · rw [hmore, List.length_append]
    exact Nat.le_add_right_of_le h.mark_le
  · rw [hquiet.track]
    exact h.valid
  · rw [hquiet.track]
    exact h.last
  · rw [hmore, rotations_drop h.mark_le, hnone, List.append_nil]
    exact h.exact hbounded

theorem Rotated.takes {trace : Option AxisTrace} (h : Rotated pipe sensor central trace)
    {total : Option Int64} (hrange : ∀ word, total = some word → |word.toInt| ≤ udegMax)
    (htakes : SensorTakes pipe sensor total central central') :
    Rotated pipe sensor central' (adopt central.outputs.length trace total) := by
  cases total with
  | none =>
      cases trace with
      | none =>
          rw [adopt, Rotated, htakes.track]
          exact h
      | some trace => exact h.quiet htakes
  | some word =>
      obtain ⟨more, hmore, hmoved⟩ := htakes.outputs
      have htrack := htakes.track
      rw [Option.elim_some] at htrack hmoved
      have hword := hrange word rfl
      cases trace with
      | none =>
          refine ⟨?_, by rw [htrack], by rw [htrack]; rfl, hword, fun _ => ?_⟩
          · rw [hmore, List.length_append]
            exact Nat.le_add_right _ _
          · rw [hmore, List.drop_left, hmoved]
            exact forwardedUdeg_fresh h
      | some trace =>
          refine ⟨?_, by rw [htrack], ?_, ?_, fun hbounded => ?_⟩
          · rw [hmore, List.length_append]
            exact Nat.le_add_right_of_le h.mark_le
          · rw [htrack, AxisTrace.last_extend]
          · rw [AxisTrace.last_extend]
            exact hword
          · rw [AxisTrace.applied_extend] at hbounded
            obtain ⟨hbefore, hgap⟩ := (Residue.bounded_concat (List.cons_ne_nil _ _)).mp hbounded
            have hlast := h.last
            have hforwarded := forwardedUdeg_exact h.valid hword
              (by rw [hlast]; exact h.range) (by rw [hlast]; exact hgap)
            rw [hmore]
            change rotations pipe sensor ((central.outputs ++ more).drop trace.mark) =
              (gaps trace.first (trace.rest ++ [word.toInt])).filter (· ≠ 0)
            rw [rotations_drop h.mark_le, h.exact hbefore, hmoved, hforwarded, hlast, gaps_concat,
              List.filter_append]
            rfl

/-! ## The invariant -/

/-- An item delivers the total it is marked with, and that total is in range. -/
def ItemTotal (pipe sensor : ℕ) (item : CentralInbound L) (mark : ℕ → ℤ) : Prop :=
  (∀ word, item.delivers pipe sensor = some word → word.toInt = mark sensor) ∧
    |mark sensor| ≤ udegMax

structure SensorLinkInv {config : PeripheralConfig L} (pipe sensor : ℕ) (link : SensorLink config) :
    Prop where
  keeps : KeepsTotal sensor link.peripheral (link.truth sensor)
  range : |link.truth sensor| ≤ udegMax
  air : ∀ packet ∈ link.air,
    CarriesTotal L sensor packet.1 (packet.2 sensor) ∧ |packet.2 sensor| ≤ udegMax
  queue : List.Forall₂ (ItemTotal pipe sensor) link.central.eventMsgq link.queued
  rotated : Rotated pipe sensor link.central (link.traces sensor)

namespace SensorLinkInv

variable {link : SensorLink config} {centralConfig : CentralConfig}

theorem init (centralConfig : CentralConfig) (pipe : ℕ) (hsensor : sensor < config.sensorsLen) :
    SensorLinkInv pipe sensor (SensorLink.init config centralConfig) where
  keeps := keepsTotal_init hsensor
  range := by simp [SensorLink.init, udegMax]
  air := by simp [SensorLink.init]
  queue := .nil
  rotated := rfl

theorem send (inv : SensorLinkInv pipe sensor link) {peripheral : Peripheral config}
    {truth : ℕ → ℤ} {packets : List UplinkPacket} (hkeeps : KeepsTotal sensor peripheral (truth sensor))
    (hrange : |truth sensor| ≤ udegMax)
    (hpackets : ∀ packet ∈ packets, CarriesTotal L sensor packet.data (truth sensor)) :
    SensorLinkInv pipe sensor (link.send peripheral truth packets) where
  keeps := hkeeps
  range := hrange
  air packet hpacket := by
    rcases List.mem_append.mp hpacket with hold | hnew
    · exact inv.air packet hold
    · obtain ⟨sent, hsent, rfl⟩ := List.mem_map.mp hnew
      exact ⟨hpackets sent hsent, hrange⟩
  queue := inv.queue
  rotated := inv.rotated

theorem ingest (inv : SensorLinkInv pipe sensor link) {source : ℕ} {now : UInt32} {data : Bytes}
    {mark : ℕ → ℤ} (hrange : |mark sensor| ≤ udegMax)
    (hqueues : Queues (fun item => ∀ word, item.delivers pipe sensor = some word →
      word.toInt = mark sensor) link.central
        (link.central.ingestPacket centralConfig source now data)) :
    SensorLinkInv pipe sensor (link.ingest centralConfig source now data mark) where
  keeps := inv.keeps
  range := inv.range
  air := inv.air
  queue := by
    obtain ⟨items, hitems, hmarked⟩ := hqueues
    have hgrowth : (link.central.ingestPacket centralConfig source now data).eventMsgq.length -
        link.central.eventMsgq.length = items.length := by
      rw [hitems, List.length_append]
      omega
    rw [SensorLink.ingest]
    dsimp only
    rw [hgrowth, hitems]
    refine List.rel_append inv.queue ?_
    clear hitems hgrowth
    induction items with
    | nil => exact .nil
    | cons item items ih =>
        exact .cons ⟨hmarked item List.mem_cons_self, hrange⟩
          (ih fun i hi => hmarked i (List.mem_cons_of_mem _ hi))
  rotated := by
    have hquiet := @ingestPacket_quiet L pipe sensor centralConfig link.central source now data
    exact inv.rotated.takes (by simp) hquiet

theorem work (inv : SensorLinkInv pipe sensor link) (hpipe : pipe < esbLinkPipeMax)
    (hsensor : sensor < centralConfig.sensorsLen) :
    SensorLinkInv pipe sensor (link.work centralConfig pipe) := by
  have hqueue := inv.queue
  rw [SensorLink.work, Central.eventWorkStep]
  cases hmsgq : link.central.eventMsgq with
  | nil =>
      rw [hmsgq, List.forall₂_nil_left_iff] at hqueue
      refine ⟨inv.keeps, inv.range, inv.air, ?_, inv.rotated⟩
      dsimp only
      rw [hmsgq, hqueue]
      exact .nil
  | cons item queue =>
      rw [hmsgq, List.forall₂_cons_left_iff] at hqueue
      obtain ⟨mark, marks, hitem, htail, hqueued⟩ := hqueue
      refine ⟨inv.keeps, inv.range, inv.air, ?_, ?_⟩
      · dsimp only
        rw [handleInbound_eventMsgq, hqueued]
        exact htail
      · have htakes :=
          handleInbound_takes hpipe hsensor { link.central with eventMsgq := queue } item
        refine inv.rotated.takes (fun word hword => ?_) ⟨htakes.track, htakes.outputs⟩
        rw [hitem.1 word hword]
        exact hitem.2

theorem releaseStale (inv : SensorLinkInv pipe sensor link) (hpipe : pipe < esbLinkPipeMax)
    (source : ℕ) :
    SensorLinkInv pipe sensor (link.step centralConfig pipe (.releaseStale source)) := by
  have heffect := releaseStalePipe_sensor hpipe sensor link.central source
  refine ⟨inv.keeps, inv.range, inv.air, ?_, ?_⟩
  · change List.Forall₂ _ (link.central.releaseStalePipe source).eventMsgq link.queued
    rw [(releaseStalePipe_releasesInput link.central source).eventMsgq]
    exact inv.queue
  · rw [SensorLink.step]
    dsimp only
    split_ifs at heffect ⊢ with hhere
    · rw [Rotated, heffect.track]
    · have hquiet : SensorTakes pipe sensor none link.central
          (link.central.releaseStalePipe source) := heffect
      exact inv.rotated.takes (by simp) hquiet

theorem step (inv : SensorLinkInv pipe sensor link) (hpipe : pipe < esbLinkPipeMax)
    (hsensor : sensor < centralConfig.sensorsLen) {action : KeyLinkAction L}
    (hrange : link.InRange centralConfig pipe sensor action) :
    SensorLinkInv pipe sensor (link.step centralConfig pipe action) := by
  cases action with
  | report event =>
      obtain ⟨hkeeps, hpackets⟩ := inv.keeps.reportEvent event hrange
      exact inv.send hkeeps hrange hpackets
  | keepalive state linkCostX10 batteryLevel =>
      refine inv.send inv.keeps inv.range fun packet hpacket => ?_
      exact keepaliveFill_carries inv.keeps state linkCostX10 batteryLevel packet
        (Option.mem_toList.mp hpacket)
  | lose index =>
      exact { inv with air := fun packet h => inv.air packet (List.mem_of_mem_eraseIdx h) }
  | receive now =>
      rw [SensorLink.step]
      split
      · exact inv
      · rename_i data mark air hair
        obtain ⟨hcarries, hmark⟩ := inv.air (data, mark) (by rw [hair]; exact List.mem_cons_self)
        have hrest : SensorLinkInv pipe sensor { link with air := air } :=
          { inv with air := fun packet h => inv.air packet (by
              rw [hair]
              exact List.mem_cons_of_mem _ h) }
        exact hrest.ingest hmark (hcarries.queues centralConfig link.central pipe pipe now)
  | work => exact inv.work hpipe hsensor
  | foreign source now data =>
      rw [SensorLink.step]
      split_ifs with hs
      · exact inv
      · obtain ⟨items, hitems, hsource⟩ :=
          ingestPacket_source centralConfig link.central source now data
        refine inv.ingest inv.range ⟨items, hitems, fun item hitem word hword => ?_⟩
        rw [CentralInbound.delivers, hsource item hitem, if_neg hs] at hword
        cases hword
  | releaseStale source => exact inv.releaseStale hpipe source

end SensorLinkInv

/-! ## Conservation -/

/-- In every reachable state: packets and queued items carry the rotation of the sensor
as it was when they were sent, whichever path they take, and while consecutive totals
delivered differ by at most 180 degrees the central has forwarded, since the baseline,
every gap that is not zero, which add up to the last total minus the baseline. -/
theorem sensor_rotation_conserved (L : EventLayout) (config : PeripheralConfig L)
    (centralConfig : CentralConfig) (pipe sensor : ℕ) (hpipe : pipe < esbLinkPipeMax)
    (hkept : sensor < config.sensorsLen) (htracked : sensor < centralConfig.sensorsLen)
    (actions : List (KeyLinkAction L))
    (hrange : Transition.Along (SensorLink.step centralConfig pipe)
      (SensorLink.InRange centralConfig pipe sensor) (SensorLink.init config centralConfig)
      actions) :
    let link := Transition.run (SensorLink.step centralConfig pipe)
      (SensorLink.init config centralConfig) actions
    (∀ packet ∈ link.air, CarriesTotal L sensor packet.1 (packet.2 sensor)) ∧
    List.Forall₂ (fun item mark => ∀ word, item.delivers pipe sensor = some word →
      word.toInt = mark sensor) link.central.eventMsgq link.queued ∧
    ∀ trace, link.traces sensor = some trace → Residue.Bounded resyncUdeg trace.applied →
      rotations pipe sensor (link.central.outputs.drop trace.mark) =
          (gaps trace.first trace.rest).filter (· ≠ 0) ∧
        (rotations pipe sensor (link.central.outputs.drop trace.mark)).sum =
          trace.last - trace.first := by
  intro link
  have inv : SensorLinkInv pipe sensor link :=
    Transition.run_invariant_along (fun _ _ inv hok => inv.step hpipe htracked hok)
      (SensorLinkInv.init centralConfig pipe hkept) hrange
  refine ⟨fun packet hpacket => (inv.air packet hpacket).1, ?_, fun trace htrace hbounded => ?_⟩
  · exact inv.queue.imp fun _ _ h => h.1
  · have hrotated := inv.rotated
    rw [htrace] at hrotated
    have hexact := hrotated.exact hbounded
    refine ⟨hexact, ?_⟩
    rw [hexact, sum_filter_ne_zero, sum_gaps]
    rfl

def sampleSensorConfig : PeripheralConfig zmkLayout :=
  { samplePeripheralConfig with sensorsLen := 1, keepalive_fits := by decide }

def sampleSensorCentral : CentralConfig := { sampleCentralConfig with sensorsLen := 1 }

/-- A turn back that arrives, one that is lost, and the keepalive that carries both. -/
def sampleSensorRun : List (KeyLinkAction zmkLayout) :=
  [.report (.sensor (zmkLayout.rotationEvent 0 (-3) (-500000))), .receive 0, .work,
    .report (.sensor (zmkLayout.rotationEvent 0 (-1) (-250000))), .lose 0,
    .keepalive 0 10 255, .receive 64, .work]

/-- What was lost is forwarded once, from a total that is no whole degree. -/
theorem sensor_rotation_conserved_sample :
    (rotations 1 0 (Transition.run (SensorLink.step sampleSensorCentral 1)
      (SensorLink.init sampleSensorConfig sampleSensorCentral)
        sampleSensorRun).central.outputs).sum = -1250000 :=
  ((sensor_rotation_conserved zmkLayout sampleSensorConfig sampleSensorCentral 1 0 (by decide)
    (by decide) (by decide) sampleSensorRun (by decide +kernel)).2.2 ⟨0, -3500000, [-4750000]⟩
      (by decide +kernel) (by rw [Residue.Bounded]; decide)).2.trans (by decide)

end SplitEsb
