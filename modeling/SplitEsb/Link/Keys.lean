import SplitEsb.Central.KeyStream
import SplitEsb.Central.Queue
import SplitEsb.Peripheral.Packets
import SplitEsb.Shared.Replica

/-! # Key state over a lossy link
One peripheral on one pipe of the central. Its packets travel in order and may be
lost, in the air or before a full queue; other pipes do what they like. -/

namespace SplitEsb

open ByteString BitTable Replica

variable {L : EventLayout}

/-! ## The system -/

def applyKey (row : PositionBitmap) (change : ℕ × Bool) : PositionBitmap :=
  setBit row change.1 change.2

/-- A numbered key event or keepalive and the bitmap pressed when it was sent. -/
abbrev KeySent := Sent PositionBitmap (ℕ × Bool)

/-- Both ends and the packets between them. `sent`, the marks on packets and
queued items, and `handled` record what happened and are read by no step;
in `handled`, `none` is a staleness release. -/
structure KeyLink (config : PeripheralConfig L) where
  peripheral : Peripheral config
  sent : List KeySent
  air : List (Bytes × Option KeySent)
  central : Central L
  queued : List (Option KeySent)
  handled : List (Option KeySent)

inductive KeyLinkAction (L : EventLayout) where
  | report (event : PeripheralEvent L)
  | keepalive (state linkCostX10 batteryLevel : UInt8)
  /-- A packet in the air is lost, to the radio or to a flush. -/
  | lose (index : ℕ)
  /-- The oldest packet in the air reaches the central at an uptime. -/
  | receive (now : UInt32)
  /-- The event work takes the next queued item. -/
  | work
  /-- A packet from another pipe. -/
  | foreign (source : ℕ) (now : UInt32) (data : Bytes)
  | releaseStale (source : ℕ)

/-- Key events of positions the bitmap covers. -/
def KeyLinkAction.Covered : KeyLinkAction L → Prop
  | .report (.keyPosition event) => L.position event < esbKeepalivePositionCount
  | _ => True

namespace KeyLink

variable {config : PeripheralConfig L}

def init (config : PeripheralConfig L) (centralConfig : CentralConfig) : KeyLink config where
  peripheral := .init config
  sent := []
  air := []
  central := .init L centralConfig
  queued := []
  handled := []

/-- Hands a packet to the central; the items it queues inherit its mark. -/
def ingest (centralConfig : CentralConfig) (link : KeyLink config) (source : ℕ) (now : UInt32)
    (data : Bytes) (mark : Option KeySent) : KeyLink config :=
  let central := link.central.ingestPacket centralConfig source now data
  { link with
    central := central
    queued := link.queued ++
      List.replicate (central.eventMsgq.length - link.central.eventMsgq.length) mark }

/-- Notes a message of the peripheral together with its pressed positions. -/
def send (link : KeyLink config) (peripheral : Peripheral config)
    (message : Message PositionBitmap (ℕ × Bool)) (packets : List UplinkPacket) :
    KeyLink config :=
  let sent : KeySent := ⟨link.sent.length, message, peripheral.pressedPositions⟩
  { link with
    peripheral := peripheral
    sent := link.sent ++ [sent]
    air := link.air ++ packets.map fun packet => (packet.data, some sent) }

def step (centralConfig : CentralConfig) (pipe : ℕ) (link : KeyLink config) :
    KeyLinkAction L → KeyLink config
  | .report (.keyPosition event) =>
      let (peripheral, packets) := link.peripheral.reportEvent (.keyPosition event)
      link.send peripheral (.delta (L.position event, L.pressed event)) packets
  | .report event =>
      let (peripheral, packets) := link.peripheral.reportEvent event
      { link with
        peripheral := peripheral
        air := link.air ++ packets.map fun packet => (packet.data, none) }
  | .keepalive state linkCostX10 batteryLevel =>
      link.send link.peripheral (.snapshot link.peripheral.pressedPositions)
        (link.peripheral.esbLinkKeepaliveFill state linkCostX10 batteryLevel).toList
  | .lose index => { link with air := link.air.eraseIdx index }
  | .receive now =>
      match link.air with
      | [] => link
      | (data, mark) :: air => ({ link with air := air }).ingest centralConfig pipe now data mark
  | .work =>
      match link.queued with
      | [] => { link with central := link.central.eventWorkStep centralConfig }
      | mark :: queued =>
          { link with
            central := link.central.eventWorkStep centralConfig
            queued := queued
            handled := link.handled ++ mark.toList.map some }
  | .foreign source now data =>
      if source = pipe then link else link.ingest centralConfig source now data none
  | .releaseStale source =>
      { link with
        central := link.central.releaseStalePipe source
        handled := if source = pipe then link.handled ++ [none] else link.handled }

end KeyLink

/-! ## Marks -/

/-- A packet of the peripheral and the mark it travels with. -/
inductive PacketMark (L : EventLayout) : Bytes → Option KeySent → Prop where
  | keepalive {snapshot : EsbKeepaliveSnapshot} {sent : KeySent}
      (hfit : snapshot.encodedLength ≤ 255)
      (h : sent.message = .snapshot snapshot.positionBitmap) :
      PacketMark L snapshot.encoding (some sent)
  | key {event : Vector UInt8 L.keyPositionSize} {sent : KeySent}
      (hp : L.position event < esbKeepalivePositionCount)
      (h : sent.message = .delta (L.position event, L.pressed event)) :
      PacketMark L (PeripheralEvent.keyPosition event).encoding (some sent)
  | other {data : Bytes} (h : CarriesNoKey L data) : PacketMark L data none

/-- A queued item and the mark of the packet that queued it. -/
inductive ItemMark (pipe : ℕ) : CentralInbound L → Option KeySent → Prop where
  | keepalive {data : Bytes} {length : UInt8} {sent : KeySent}
      (h : sent.message = .snapshot (esbKeepaliveBitmap data)) :
      ItemMark pipe ⟨pipe, .keepalive data length⟩ (some sent)
  | key {event : Vector UInt8 L.keyPositionSize} {sent : KeySent}
      (hp : L.position event < esbKeepalivePositionCount)
      (h : sent.message = .delta (L.position event, L.pressed event)) :
      ItemMark pipe ⟨pipe, .event (.keyPosition event)⟩ (some sent)
  | other {event : PeripheralEvent L} (h : ¬event.IsKey) : ItemMark pipe ⟨pipe, .event event⟩ none
  | foreign {item : CentralInbound L} (h : item.source ≠ pipe) : ItemMark pipe item none

theorem esbKeepaliveBitmap_take {data : Bytes} {n : ℕ} (h : esbWireInputEventSize ≤ n) :
    esbKeepaliveBitmap (data.take n) = esbKeepaliveBitmap data := by
  refine Vector.ext fun i hi => ?_
  have hlt : esbKeepaliveBitmapOffset + i < n := by
    have : i < 8 := hi
    have : esbKeepaliveBitmapOffset = 2 := rfl
    have : esbWireInputEventSize = 10 := rfl
    omega
  rw [esbKeepaliveBitmap, Vector.getElem_ofFn, esbKeepaliveBitmap, Vector.getElem_ofFn, byteAt,
    byteAt, List.getD_eq_getElem?_getD, List.getElem?_take_of_lt hlt,
    List.getD_eq_getElem?_getD]

/-- The items a marked packet queues inherit its mark. -/
theorem PacketMark.queues {data : Bytes} {mark : Option KeySent} (h : PacketMark L data mark)
    (config : CentralConfig) (central : Central L) (pipe : ℕ) (now : UInt32) :
    Queues (fun item => ItemMark pipe item mark) central
      (central.ingestPacket config pipe now data) := by
  cases h with
  | @keepalive snapshot sent hfit hmessage =>
      have hmatches := esbKeepaliveMatches_encoding [] hfit
      rw [List.append_nil, ← snapshot.encoding_length] at hmatches
      refine ingestPacket_queues config central now (fun _ => .keepalive ?_) fun hnot => ?_
      · have hbitmap := esbKeepaliveBitmap_encoding snapshot []
        rw [List.append_nil] at hbitmap
        rw [esbKeepaliveBitmap_take config.event_fits, hbitmap]
        exact hmessage
      · rw [hmatches] at hnot
        cases hnot
  | @key event sent hp hmessage =>
      have hdata : (PeripheralEvent.keyPosition event : PeripheralEvent L).encoding =
          [PeripheralEvent.keyPosition event].flatMap PeripheralEvent.encoding := by simp
      have hnot := not_esbKeepaliveMatches [PeripheralEvent.keyPosition event]
        (UInt8.ofNat (PeripheralEvent.keyPosition event : PeripheralEvent L).encoding.length)
        (by simp)
      have hdecoded := decodedEvents_flatMap [PeripheralEvent.keyPosition event]
      rw [← hdata] at hnot hdecoded
      refine ingestPacket_queues config central now (fun hmatches => ?_) fun _ e he _ => ?_
      · rw [hnot] at hmatches
        cases hmatches
      · rw [hdecoded] at he
        rw [List.mem_singleton.mp he]
        exact .key hp hmessage
  | other hnone =>
      obtain ⟨events, rfl, hevents⟩ := hnone
      have hnot := not_esbKeepaliveMatches events
        (UInt8.ofNat (events.flatMap PeripheralEvent.encoding).length) fun hnil => by
          rw [hnil]
          rfl
      refine ingestPacket_queues config central now (fun hmatches => ?_) fun _ e he _ => ?_
      · rw [hnot] at hmatches
        cases hmatches
      · rw [decodedEvents_flatMap] at he
        exact .other (hevents e he)

/-- Handling an item does to the row of the pipe what its mark says. -/
theorem ItemMark.handleInbound_row {pipe : ℕ} {item : CentralInbound L} {mark : Option KeySent}
    (h : ItemMark pipe item mark) (hpipe : pipe < esbLinkPipeMax) (config : CentralConfig)
    (central : Central L) :
    (central.handleInbound config item).trackedPositions pipe =
      mark.elim (central.trackedPositions pipe) fun sent =>
        sent.message.receive applyKey (central.trackedPositions pipe) := by
  cases h with
  | @keepalive data length sent hmessage =>
      change (central.handleKeepalive config pipe data length).trackedPositions pipe =
        sent.message.receive applyKey (central.trackedPositions pipe)
      rw [hmessage, (handleKeepalive_replay config central pipe data length).tracked]
      exact (replayPositionDiff_effect central hpipe _).2
  | @key event sent hp hmessage =>
      change (central.deliverKeyEvent pipe event).trackedPositions pipe =
        sent.message.receive applyKey (central.trackedPositions pipe)
      rw [hmessage]
      exact (deliverKeyEvent_effect central hpipe hp).2
  | other hkey => exact congrFun (handleEvent_silent config central pipe hkey).tracked pipe
  | foreign hne => exact handleInbound_other config central (Ne.symm hne)

/-! ## The invariant -/

/-- The log is faithful, every mark is in the log and belongs to what it marks, and
the row of the pipe is what a receiver makes of everything handled. -/
structure KeyLinkInv {config : PeripheralConfig L} (pipe : ℕ) (link : KeyLink config) : Prop where
  faithful : Faithful applyKey link.sent link.peripheral.pressedPositions
  air : ∀ entry ∈ link.air, PacketMark L entry.1 entry.2
  air_sent : ∀ entry ∈ link.air, ∀ sent, entry.2 = some sent → sent ∈ link.sent
  queue : List.Forall₂ (ItemMark pipe) link.central.eventMsgq link.queued
  queue_sent : ∀ sent, some sent ∈ link.queued → sent ∈ link.sent
  handled_sent : ∀ sent, some sent ∈ link.handled → sent ∈ link.sent
  row : link.central.trackedPositions pipe =
    viewAfter applyKey (Vector.replicate _ 0) link.handled
  flips : Flips (Vector.replicate _ 0) (keyEvents pipe link.central.outputs)
    (link.central.trackedPositions pipe)

namespace KeyLinkInv

variable {config : PeripheralConfig L} {pipe : ℕ} {link : KeyLink config}

theorem init (config : PeripheralConfig L) (centralConfig : CentralConfig) (pipe : ℕ) :
    KeyLinkInv pipe (KeyLink.init config centralConfig) where
  faithful := faithful_nil _ _
  air := by simp [KeyLink.init]
  air_sent := by simp [KeyLink.init]
  queue := .nil
  queue_sent := by simp [KeyLink.init]
  handled_sent := by simp [KeyLink.init]
  row := rfl
  flips := .nil _

/-- The peripheral sends a message that leads its bitmap to the one now pressed. -/
theorem send (inv : KeyLinkInv pipe link) {peripheral : Peripheral config}
    {message : Message PositionBitmap (ℕ × Bool)} {packets : List UplinkPacket}
    (hstate : message.receive applyKey link.peripheral.pressedPositions =
      peripheral.pressedPositions)
    (hpackets : ∀ packet ∈ packets, ∀ sent : KeySent, sent.message = message →
      PacketMark L packet.data (some sent)) :
    KeyLinkInv pipe (link.send peripheral message packets) where
  faithful := inv.faithful.send hstate
  air entry hentry := by
    rcases List.mem_append.mp hentry with hold | hnew
    · exact inv.air entry hold
    · obtain ⟨packet, hpacket, rfl⟩ := List.mem_map.mp hnew
      exact hpackets packet hpacket _ rfl
  air_sent entry hentry sent hsent := by
    rcases List.mem_append.mp hentry with hold | hnew
    · exact List.mem_append_left _ (inv.air_sent entry hold sent hsent)
    · obtain ⟨packet, -, rfl⟩ := List.mem_map.mp hnew
      cases hsent
      exact List.mem_append_right _ (List.mem_singleton_self _)
  queue := inv.queue
  queue_sent sent hsent := List.mem_append_left _ (inv.queue_sent sent hsent)
  handled_sent sent hsent := List.mem_append_left _ (inv.handled_sent sent hsent)
  row := inv.row
  flips := inv.flips

/-- The central takes in a packet whose items get the mark they are queued with. -/
theorem ingest (inv : KeyLinkInv pipe link) (centralConfig : CentralConfig) {source : ℕ}
    {now : UInt32} {data : Bytes} {mark : Option KeySent}
    (hmark : ∀ sent, mark = some sent → sent ∈ link.sent)
    (hqueues : Queues (fun item => ItemMark pipe item mark) link.central
      (link.central.ingestPacket centralConfig source now data)) :
    KeyLinkInv pipe (link.ingest centralConfig source now data mark) := by
  obtain ⟨items, hitems, hmarked⟩ := hqueues
  have hsilent := ingestPacket_silent centralConfig link.central source now data
  have hgrowth : (link.central.ingestPacket centralConfig source now data).eventMsgq.length -
      link.central.eventMsgq.length = items.length := by
    rw [hitems, List.length_append]
    omega
  have hnew : List.Forall₂ (ItemMark pipe) items (List.replicate items.length mark) := by
    clear hitems hgrowth
    induction items with
    | nil => exact .nil
    | cons item items ih =>
        rw [List.length_cons, List.replicate_succ]
        exact .cons (hmarked item List.mem_cons_self)
          (ih fun i hi => hmarked i (List.mem_cons_of_mem _ hi))
  exact {
    faithful := inv.faithful
    air := inv.air
    air_sent := inv.air_sent
    queue := by
      change List.Forall₂ _ (link.central.ingestPacket centralConfig source now data).eventMsgq
        (link.queued ++ List.replicate _ mark)
      rw [hgrowth, hitems]
      exact List.rel_append inv.queue hnew
    queue_sent := by
      intro sent hsent
      rcases List.mem_append.mp hsent with hold | hnew
      · exact inv.queue_sent sent hold
      · exact hmark sent (List.eq_of_mem_replicate hnew).symm
    handled_sent := inv.handled_sent
    row := by
      change (link.central.ingestPacket centralConfig source now data).trackedPositions pipe = _
      rw [hsilent.tracked]
      exact inv.row
    flips := by
      change Flips _ (keyEvents pipe (link.central.ingestPacket centralConfig source now
        data).outputs) ((link.central.ingestPacket centralConfig source now data).trackedPositions
          pipe)
      rw [hsilent.tracked, hsilent.forwarded]
      exact inv.flips }

/-- A key growth of the central keeps the flips of the pipe. -/
theorem flips_growth (inv : KeyLinkInv pipe link) {central : Central L}
    (hgrowth : KeyGrowth pipe link.central central) :
    Flips (Vector.replicate _ 0) (keyEvents pipe central.outputs)
      (central.trackedPositions pipe) := by
  obtain ⟨events, hflips, hforwarded⟩ := hgrowth
  rw [hforwarded]
  exact inv.flips.append hflips

theorem work (inv : KeyLinkInv pipe link) (hpipe : pipe < esbLinkPipeMax)
    (centralConfig : CentralConfig) : KeyLinkInv pipe (link.step centralConfig pipe .work) := by
  have hqueue := inv.queue
  cases link with
  | mk peripheral sent air central queued handled =>
      cases queued with
      | nil =>
          rw [List.forall₂_nil_right_iff] at hqueue
          have hidle : central.eventWorkStep centralConfig = central := by
            rw [Central.eventWorkStep, hqueue]
          rw [KeyLink.step, hidle]
          exact inv
      | cons mark queued =>
          rw [List.forall₂_cons_right_iff] at hqueue
          obtain ⟨item, queue, hitem, htail, hmsgq⟩ := hqueue
          have hwork : central.eventWorkStep centralConfig =
              ({ central with eventMsgq := queue }).handleInbound centralConfig item := by
            rw [Central.eventWorkStep, hmsgq]
          have hrow := hitem.handleInbound_row hpipe centralConfig
            { central with eventMsgq := queue }
          refine
            { faithful := inv.faithful
              air := inv.air
              air_sent := inv.air_sent
              queue := ?_
              queue_sent := fun s hs => inv.queue_sent s (List.mem_cons_of_mem _ hs)
              handled_sent := ?_
              row := ?_
              flips := inv.flips_growth
                (central_step_growth centralConfig central .work hpipe) }
          · change List.Forall₂ _ (central.eventWorkStep centralConfig).eventMsgq queued
            rw [hwork, handleInbound_eventMsgq]
            exact htail
          · intro s hs
            rcases List.mem_append.mp hs with hold | hnew
            · exact inv.handled_sent s hold
            · obtain ⟨s', hs', heq⟩ := List.mem_map.mp hnew
              cases heq
              rw [Option.mem_toList.mp hs'] at inv
              exact inv.queue_sent s List.mem_cons_self
          · change (central.eventWorkStep centralConfig).trackedPositions pipe =
              viewAfter applyKey _ (handled ++ mark.toList.map some)
            rw [hwork, hrow]
            cases mark with
            | none =>
                rw [Option.toList_none, List.map_nil, List.append_nil]
                exact inv.row
            | some s =>
                have hview := inv.row
                change central.trackedPositions pipe = viewAfter applyKey _ handled at hview
                change s.message.receive applyKey (central.trackedPositions pipe) =
                  viewAfter applyKey _ (handled ++ [some s])
                rw [viewAfter_append, hview]
                rfl

theorem releaseStale (inv : KeyLinkInv pipe link) (hpipe : pipe < esbLinkPipeMax)
    (centralConfig : CentralConfig) (source : ℕ) :
    KeyLinkInv pipe (link.step centralConfig pipe (.releaseStale source)) where
  faithful := inv.faithful
  air := inv.air
  air_sent := inv.air_sent
  queue := by
    change List.Forall₂ _ (link.central.releaseStalePipe source).eventMsgq link.queued
    rw [(releaseStalePipe_releasesInput link.central source).eventMsgq]
    exact inv.queue
  queue_sent := inv.queue_sent
  handled_sent sent hsent := by
    change some sent ∈ (if source = pipe then link.handled ++ [none] else link.handled) at hsent
    split_ifs at hsent
    · rcases List.mem_append.mp hsent with hold | hnew
      · exact inv.handled_sent sent hold
      · cases List.mem_singleton.mp hnew
    · exact inv.handled_sent sent hsent
  row := by
    change (link.central.releaseStalePipe source).trackedPositions pipe =
      viewAfter applyKey _ (if source = pipe then link.handled ++ [none] else link.handled)
    by_cases hs : source = pipe
    · subst hs
      rw [if_pos rfl, viewAfter_append]
      exact releaseStalePipe_row link.central hpipe
    · rw [if_neg hs, ← inv.row]
      exact releaseStalePipe_other link.central (Ne.symm hs)
  flips := inv.flips_growth
    (central_step_growth centralConfig link.central (.releaseStale source) hpipe)

theorem report (inv : KeyLinkInv pipe link) (centralConfig : CentralConfig)
    {event : PeripheralEvent L} (hcovered : (KeyLinkAction.report event).Covered) :
    KeyLinkInv pipe (link.step centralConfig pipe (.report event)) := by
  by_cases hkey : event.IsKey
  · cases event with
    | keyPosition event =>
        have hp : L.position event < esbKeepalivePositionCount := hcovered
        rw [KeyLink.step, reportEvent_keyPosition]
        refine inv.send ?_ fun packet hpacket sent hsent => ?_
        · have hmod : L.position event % 256 = L.position event :=
            Nat.mod_eq_of_lt (hp.trans (by decide))
          change setBit _ _ _ = setBit _ (L.position event % 256) _
          rw [hmod]
        · rw [List.mem_singleton.mp hpacket]
          exact .key hp hsent
    | sensor event => cases hkey
    | input event => cases hkey
    | battery event => cases hkey
  · have hstep : link.step centralConfig pipe (.report event) =
        { link with
          peripheral := (link.peripheral.reportEvent event).1
          air := link.air ++ (link.peripheral.reportEvent event).2.map
            fun packet => (packet.data, none) } := by
      cases event with
      | keyPosition event => exact absurd trivial hkey
      | sensor event => rfl
      | input event => rfl
      | battery event => rfl
    rw [hstep]
    exact {
      faithful := by
        change Faithful _ link.sent (link.peripheral.reportEvent event).1.pressedPositions
        rw [reportEvent_pressedPositions _ hkey]
        exact inv.faithful
      air := by
        intro entry hentry
        rcases List.mem_append.mp hentry with hold | hnew
        · exact inv.air entry hold
        · obtain ⟨packet, hpacket, rfl⟩ := List.mem_map.mp hnew
          exact .other (reportEvent_carriesNoKey _ hkey packet hpacket)
      air_sent := by
        intro entry hentry sent hsent
        rcases List.mem_append.mp hentry with hold | hnew
        · exact inv.air_sent entry hold sent hsent
        · obtain ⟨packet, -, rfl⟩ := List.mem_map.mp hnew
          cases hsent
      queue := inv.queue
      queue_sent := inv.queue_sent
      handled_sent := inv.handled_sent
      row := inv.row
      flips := inv.flips }

theorem keepalive (inv : KeyLinkInv pipe link) (centralConfig : CentralConfig)
    (state linkCostX10 batteryLevel : UInt8) :
    KeyLinkInv pipe
      (link.step centralConfig pipe (.keepalive state linkCostX10 batteryLevel)) := by
  refine inv.send rfl fun packet hpacket sent hsent => ?_
  obtain ⟨hdata, hfit⟩ := keepaliveFill_data (Option.mem_toList.mp hpacket)
  rw [hdata]
  exact .keepalive hfit hsent

theorem lose (inv : KeyLinkInv pipe link) (centralConfig : CentralConfig) (index : ℕ) :
    KeyLinkInv pipe (link.step centralConfig pipe (.lose index)) where
  faithful := inv.faithful
  air entry hentry := inv.air entry (List.mem_of_mem_eraseIdx hentry)
  air_sent entry hentry := inv.air_sent entry (List.mem_of_mem_eraseIdx hentry)
  queue := inv.queue
  queue_sent := inv.queue_sent
  handled_sent := inv.handled_sent
  row := inv.row
  flips := inv.flips

theorem receive (inv : KeyLinkInv pipe link) (centralConfig : CentralConfig) (now : UInt32) :
    KeyLinkInv pipe (link.step centralConfig pipe (.receive now)) := by
  cases link with
  | mk peripheral sent air central queued handled =>
      cases air with
      | nil => exact inv
      | cons entry air =>
          obtain ⟨data, mark⟩ := entry
          have hmark := inv.air (data, mark) List.mem_cons_self
          have hrest : KeyLinkInv pipe (⟨peripheral, sent, air, central, queued, handled⟩ :
              KeyLink config) :=
            { faithful := inv.faithful
              air := fun e he => inv.air e (List.mem_cons_of_mem _ he)
              air_sent := fun e he => inv.air_sent e (List.mem_cons_of_mem _ he)
              queue := inv.queue
              queue_sent := inv.queue_sent
              handled_sent := inv.handled_sent
              row := inv.row
              flips := inv.flips }
          exact hrest.ingest centralConfig
            (fun s hs => inv.air_sent (data, mark) List.mem_cons_self s hs)
            (hmark.queues centralConfig central pipe now)

theorem foreign (inv : KeyLinkInv pipe link) (centralConfig : CentralConfig) (source : ℕ)
    (now : UInt32) (data : Bytes) :
    KeyLinkInv pipe (link.step centralConfig pipe (.foreign source now data)) := by
  rw [KeyLink.step]
  split_ifs with hs
  · exact inv
  · obtain ⟨items, hitems, hsource⟩ := ingestPacket_source centralConfig link.central source now data
    refine inv.ingest centralConfig (by simp) ⟨items, hitems, fun item hitem => .foreign ?_⟩
    rw [hsource item hitem]
    exact hs

theorem step (inv : KeyLinkInv pipe link) (hpipe : pipe < esbLinkPipeMax)
    (centralConfig : CentralConfig) {action : KeyLinkAction L} (hcovered : action.Covered) :
    KeyLinkInv pipe (link.step centralConfig pipe action) := by
  cases action with
  | report event => exact inv.report centralConfig hcovered
  | keepalive state linkCostX10 batteryLevel =>
      exact inv.keepalive centralConfig state linkCostX10 batteryLevel
  | lose index => exact inv.lose centralConfig index
  | receive now => exact inv.receive centralConfig now
  | work => exact inv.work hpipe centralConfig
  | foreign source now data => exact inv.foreign centralConfig source now data
  | releaseStale source => exact inv.releaseStale hpipe centralConfig source

/-- The positions forwarded as pressed and not yet released are the tracked ones. -/
theorem forwarded (inv : KeyLinkInv pipe link) (position : ℕ) :
    (streamAt position (keyEvents pipe link.central.outputs)).getLast?.getD false =
      getBit (link.central.trackedPositions pipe) position := by
  have hlast := (inv.flips.alternates position).2
  rw [getBit_replicate_zero, List.getLast_eq_iff_getLast?_eq_some, List.getLast?_cons] at hlast
  exact Option.some.inj hlast

theorem converges (inv : KeyLinkInv pipe link) {before : List (Option KeySent)}
    {first : KeySent} {rest : List KeySent} (hsnapshot : first.IsSnapshot)
    (hhandled : link.handled = before ++ (first :: rest).map some)
    (hchain : (first :: rest).IsChain Consecutive) :
    link.central.trackedPositions pipe =
      ((first :: rest).getLast (List.cons_ne_nil _ _)).state := by
  rw [inv.row, hhandled]
  refine inv.faithful.converges before hsnapshot (fun sent hsent => ?_) hchain
  refine inv.handled_sent sent ?_
  rw [hhandled]
  exact List.mem_append_right _ (List.mem_map_of_mem hsent)

end KeyLinkInv

/-- Along every run whose key events the bitmap covers the invariant holds. -/
theorem keyLink_invariant (config : PeripheralConfig L) (centralConfig : CentralConfig) {pipe : ℕ}
    (hpipe : pipe < esbLinkPipeMax) {actions : List (KeyLinkAction L)}
    (hcovered : ∀ action ∈ actions, action.Covered) :
    KeyLinkInv pipe (Transition.run (KeyLink.step centralConfig pipe)
      (KeyLink.init config centralConfig) actions) := by
  induction actions using List.reverseRecOn with
  | nil => exact .init config centralConfig pipe
  | append_singleton actions action ih =>
      rw [Transition.run_append]
      exact (ih fun a ha => hcovered a (List.mem_append_left _ ha)).step hpipe centralConfig
        (hcovered action (List.mem_append_right _ (List.mem_singleton_self _)))

/-! ## Convergence -/

/-- Both views of a pipe's keys on the central: the row tracked, and what has been
forwarded as pressed and not yet released. -/
def KeysEqual {config : PeripheralConfig L} (pipe : ℕ) (link : KeyLink config)
    (bitmap : PositionBitmap) : Prop :=
  link.central.trackedPositions pipe = bitmap ∧
    ∀ position < esbKeepalivePositionCount,
      (streamAt position (keyEvents pipe link.central.outputs)).getLast?.getD false =
        getBit bitmap position

/-- In every reachable state: handling a keepalive leaves the central's keys equal
to the bitmap pressed when the keepalive was built, and they equal the bitmap at
the last handled packet while no number is skipped and nothing is released. -/
theorem key_state_converges (L : EventLayout) (config : PeripheralConfig L)
    (centralConfig : CentralConfig) (pipe : ℕ) (hpipe : pipe < esbLinkPipeMax)
    (actions : List (KeyLinkAction L)) (hcovered : ∀ action ∈ actions, action.Covered) :
    let link := Transition.run (KeyLink.step centralConfig pipe)
      (KeyLink.init config centralConfig) actions
    (∀ data length queue, link.central.eventMsgq = ⟨pipe, .keepalive data length⟩ :: queue →
      ∃ sent ∈ link.sent, sent.IsSnapshot ∧
        (link.step centralConfig pipe .work).handled = link.handled ++ [some sent] ∧
        KeysEqual pipe (link.step centralConfig pipe .work) sent.state) ∧
    ∀ before first rest, first.IsSnapshot → (first :: rest).IsChain Consecutive →
      link.handled = before ++ (first :: rest).map some →
        KeysEqual pipe link ((first :: rest).getLast (List.cons_ne_nil _ _)).state := by
  intro link
  have inv : KeyLinkInv pipe link := keyLink_invariant config centralConfig hpipe hcovered
  have hequal : ∀ {link' : KeyLink config}, KeyLinkInv pipe link' → ∀ before first rest,
      first.IsSnapshot → (first :: rest).IsChain Consecutive →
      link'.handled = before ++ (first :: rest).map some →
      KeysEqual pipe link' ((first :: rest).getLast (List.cons_ne_nil _ _)).state := by
    intro link' inv' before first rest hsnapshot hchain hhandled
    have hrow := inv'.converges hsnapshot hhandled hchain
    exact ⟨hrow, fun position _ => by rw [inv'.forwarded, hrow]⟩
  refine ⟨fun data length queue hqueue => ?_, hequal inv⟩
  have hmarks := inv.queue
  rw [hqueue, List.forall₂_cons_left_iff] at hmarks
  obtain ⟨mark, queued, hmark, -, hqueued⟩ := hmarks
  cases hmark with
  | foreign hne => exact absurd rfl hne
  | @keepalive _ _ sent hmessage =>
      have hhandled : (link.step centralConfig pipe .work).handled =
          link.handled ++ [some sent] := by
        rw [KeyLink.step, hqueued]
        rfl
      exact ⟨sent, inv.queue_sent sent (by rw [hqueued]; exact List.mem_cons_self),
        ⟨_, hmessage⟩, hhandled,
        hequal (inv.work hpipe centralConfig) link.handled sent [] ⟨_, hmessage⟩
          (List.isChain_singleton _) hhandled⟩

def sampleKeyRun : List (KeyLinkAction zmkLayout) :=
  [.report (.keyPosition (zmkLayout.keyPositionEvent 5 true)), .lose 0, .keepalive 0 10 255,
    .receive 0, .work]

def samplePressed : PositionBitmap := setBit (Vector.replicate _ 0) 5 true

/-- A lost press is tracked and forwarded once the next keepalive is handled. -/
theorem key_state_converges_sample :
    KeysEqual 1 (Transition.run (KeyLink.step sampleCentralConfig 1)
      (KeyLink.init samplePeripheralConfig sampleCentralConfig) sampleKeyRun) samplePressed :=
  (key_state_converges zmkLayout samplePeripheralConfig sampleCentralConfig 1 (by decide)
    sampleKeyRun (by
      intro action haction
      simp only [sampleKeyRun, List.mem_cons, List.not_mem_nil, or_false] at haction
      rcases haction with rfl | rfl | rfl | rfl | rfl
      · change zmkLayout.position (zmkLayout.keyPositionEvent 5 true) < _
        decide
      all_goals exact trivial)).2 [] ⟨1, .snapshot samplePressed, samplePressed⟩ []
    ⟨_, rfl⟩ (List.isChain_singleton _) rfl
end SplitEsb
