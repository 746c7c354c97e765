import SplitEsb.Link.KeyMessages
import SplitEsb.Wire.Peripheral

/-! # Key events over the wire
A wire peripheral and the central it is wired to. Key events and snapshots leave through
different rings, so a snapshot can go out before or after key events it does not count. -/

namespace SplitEsb

open ByteString BitTable Replica FrameMux Transition

variable {L : EventLayout}

/-! ## The system -/

/-- Both ends of the wire. `parsed` counts the bytes the receiver has taken; `reported`
records the key events reported, and nothing reads it. -/
structure WireKeyLink (config : PeripheralConfig L) where
  side : WirePeripheral config
  parser : WireFrameParser
  parsed : ℕ
  central : Central L
  reported : List (ℕ × Bool)

inductive WireKeyAction (L : EventLayout) where
  | report (sentMs : UInt32) (event : PeripheralEvent L)
  | keepalive (nowMs sentMs : UInt32) (batteryLevel : UInt8)
  | heartbeat
  /-- A turn of the transmit interrupt. -/
  | interrupt (claim : ℕ) (accepted : ℤ)
  /-- The receive thread parses the next byte. -/
  | receive (now : UInt32)
  /-- The event work of the central takes the next queued item. -/
  | work
  /-- A packet from another pipe. -/
  | foreign (source : ℕ) (now : UInt32) (data : Bytes)

def keyChange : PeripheralEvent L → List (ℕ × Bool)
  | .keyPosition event => [(L.position event, L.pressed event)]
  | _ => []

namespace WireKeyLink

variable {config : PeripheralConfig L}

def init (config : PeripheralConfig L) (centralConfig : CentralConfig) : WireKeyLink config where
  side := .boot config
  parser := .empty false
  parsed := 0
  central := .init L centralConfig
  reported := []

/-- The bytes sent so far. -/
def line (link : WireKeyLink config) : Bytes := link.side.tx.log.map SentByte.byte

/-- `wire_on_frame` and `wire_central_on_frame`. -/
def wireOnFrame (centralConfig : CentralConfig) (pipe : ℕ) (now : UInt32) (central : Central L)
    (payload : Bytes) : Central L :=
  if payload.length = 0 then central else central.ingestPacket centralConfig pipe now payload

variable (crc8 : Bytes → UInt8) (centralConfig : CentralConfig) (idleKeepaliveMs : UInt32)
  (pipe : ℕ)

def step (link : WireKeyLink config) : WireKeyAction L → WireKeyLink config
  | .report sentMs event =>
      { link with
        side := (link.side.wirePeripheralReportEvent crc8 sentMs event).1
        reported := link.reported ++ keyChange event }
  | .keepalive nowMs sentMs batteryLevel =>
      { link with
        side := link.side.wirePeripheralKeepaliveFire crc8 idleKeepaliveMs nowMs sentMs
          batteryLevel }
  | .heartbeat => { link with side := link.side.wireKeepaliveFire crc8 }
  | .interrupt claim accepted => { link with side := link.side.interrupt claim accepted }
  | .receive now =>
      match link.line[link.parsed]? with
      | none => link
      | some byte =>
          let (parser, payload) := wireFrameParserIngestByte crc8 link.parser byte
          { link with
            parser := parser
            parsed := link.parsed + 1
            central := payload.elim link.central
              (wireOnFrame centralConfig pipe now link.central) }
  | .work => { link with central := link.central.eventWorkStep centralConfig }
  | .foreign source now data =>
      if source = pipe then link
      else { link with central := link.central.ingestPacket centralConfig source now data }

/-! ## Conditions -/

/-- No key event is refused by its ring, and the central's queue has space for what a
frame carries. -/
def Lossless (link : WireKeyLink config) : WireKeyAction L → Prop
  | .report sentMs (.keyPosition event) =>
      (link.side.wirePeripheralReportEvent crc8 sentMs (.keyPosition event)).2 = none
  | .receive _ =>
      ∀ byte ∈ link.line[link.parsed]?,
        ∀ payload ∈ (wireFrameParserIngestByte crc8 link.parser byte).2,
          link.central.eventMsgq.length +
            (packetItems centralConfig pipe payload : List (CentralInbound L)).length ≤
              centralConfig.eventQueueSize
  | _ => True

/-- What bytes on the wire say about keys, frame by frame. -/
def lineMessages (L : EventLayout) (line : Bytes) : List KeyMessage :=
  (wireFrameParserIngest crc8 (.empty false) line).2.flatMap (packetMessages L)

def released : PositionBitmap := Vector.replicate _ 0

/-- A snapshot that goes out shows what the key events sent before it leave pressed. -/
def SnapshotsInStep (link : WireKeyLink config) : WireKeyAction L → Prop
  | .interrupt claim accepted =>
      InStep applyKey released
        (lineMessages crc8 L ((link.side.tx.interrupt claim accepted).log.map SentByte.byte))
  | _ => True

/-- Everything sent was handled, and nothing waits to be sent. -/
def Drained (link : WireKeyLink config) : Prop :=
  (∀ ring, link.side.tx.rings ring = []) ∧ link.parsed = link.line.length ∧
    ∀ item ∈ link.central.eventMsgq, item.source ≠ pipe

/-! ## What the line says -/

/-- The changes a frame reports. -/
def frameChanges (L : EventLayout) (frame : Bytes) : List (ℕ × Bool) :=
  deltas (lineMessages crc8 L frame)

variable {crc8}

theorem lineMessages_take (line : Bytes) (count : ℕ) :
    lineMessages crc8 L (line.take count) <+: lineMessages crc8 L line := by
  conv_rhs => rw [← List.take_append_drop count line]
  rw [lineMessages, lineMessages, wireFrameParserIngest_append, List.flatMap_append]
  exact List.prefix_append _ _

theorem lineMessages_wrote {payload frame : Bytes} (h : WroteFrame crc8 payload frame) :
    lineMessages crc8 L frame = packetMessages L payload := by
  have hpayloads := framePayloads_eq h
  rw [framePayloads] at hpayloads
  rw [lineMessages, hpayloads]
  simp

theorem deltas_flatMap (frames : List Bytes) :
    deltas (frames.flatMap (lineMessages crc8 L)) = frames.flatMap (frameChanges crc8 L) := by
  induction frames with
  | nil => rfl
  | cons frame frames ih => simp [ih, frameChanges]

/-- What the transmitter was given: key events on the event ring only. -/
structure Given (crc8 : Bytes → UInt8) (L : EventLayout) (tx : WireTx)
    (reported : List (ℕ × Bool)) : Prop where
  wrote : ∀ ring, ∀ frame ∈ tx.accepted ring, ∃ payload, WroteFrame crc8 payload frame
  events : (tx.accepted .event).flatMap (frameChanges crc8 L) = reported
  others : ∀ ring ≠ .event, ∀ frame ∈ tx.accepted ring, frameChanges crc8 L frame = []

variable {tx : WireTx} {reported : List (ℕ × Bool)}

/-- The frames on the line report the first of the key events, and all of them when the
rings are empty. -/
theorem Given.line (given : Given crc8 L tx reported) (sound : tx.Sound) :
    deltas (lineMessages crc8 L (tx.log.map SentByte.byte)) <+: reported ∧
      ((∀ ring, tx.rings ring = []) →
        deltas (lineMessages crc8 L (tx.log.map SentByte.byte)) = reported) := by
  obtain ⟨order, part, hsent, hpart, hframes, hall⟩ := sound.framed.parts
  have hmem : ∀ entry ∈ order, entry.2 ∈ tx.accepted entry.1 :=
    fun entry hentry => (hframes entry.1).subset (mem_framesOf.mpr hentry)
  have hline : tx.log.map SentByte.byte = (order.map Prod.snd).flatten ++ part.map Prod.snd := by
    have hbytes := congrArg (List.map Prod.snd) hsent
    simpa [WireTx.toMux, symbols, List.map_flatMap, List.flatMap_def, Function.comp_def] using hbytes
  have hnone : (wireFrameParserIngest crc8 (.empty false) (part.map Prod.snd)).2 = [] := by
    apply wireFrameParserIngest_unended
    intro byte hbyte
    obtain ⟨symbol, hsymbol, rfl⟩ := List.mem_map.mp hbyte
    exact of_decide_eq_false (hpart symbol hsymbol)
  have hwrote : ∀ frame ∈ order.map Prod.snd, ∃ payload, WroteFrame crc8 payload frame := by
    intro frame hframe
    obtain ⟨entry, hentry, rfl⟩ := List.mem_map.mp hframe
    exact given.wrote entry.1 _ (hmem entry hentry)
  have hmessages : lineMessages crc8 L (tx.log.map SentByte.byte) =
      (order.map Prod.snd).flatMap (lineMessages crc8 L) := by
    rw [lineMessages, hline, wireFrameParserIngest_append, wireFrameParserIngest_flatten hwrote,
      hnone, List.append_nil, List.flatMap_assoc]
    rfl
  have hchanges : deltas (lineMessages crc8 L (tx.log.map SentByte.byte)) =
      (framesOf .event order).flatMap (frameChanges crc8 L) := by
    rw [hmessages, deltas_flatMap, List.flatMap_map]
    exact flatMap_framesOf fun entry hentry hne =>
      given.others entry.1 hne entry.2 (hmem entry hentry)
  refine ⟨?_, fun hempty => ?_⟩
  · obtain ⟨rest, hrest⟩ := hframes .event
    have haccepted : tx.accepted .event = framesOf .event order ++ rest := hrest.symm
    rw [hchanges, ← given.events, haccepted, List.flatMap_append]
    exact List.prefix_append _ _
  · have haccepted : framesOf .event order = tx.accepted .event := hall hempty .event
    rw [hchanges, haccepted, given.events]

/-- One more frame on a ring, with what it reports. -/
theorem Given.enqueued (given : Given crc8 L tx reported) {ring : WireTxRing} {payload : Bytes}
    {tx' : WireTx} (h : tx.Enqueued crc8 ring payload tx')
    (hring : ring ≠ .event → deltas (packetMessages L payload) = []) :
    Given crc8 L tx' (reported ++ deltas (packetMessages L payload)) := by
  obtain ⟨frame, hwrote, haccepted⟩ := h.accepted
  have hframe : frameChanges crc8 L frame = deltas (packetMessages L payload) := by
    rw [frameChanges, lineMessages_wrote hwrote]
  refine ⟨fun other found hfound => ?_, ?_, fun other hother found hfound => ?_⟩
  · rw [haccepted] at hfound
    rcases eq_or_ne other ring with rfl | hne
    · rw [Function.update_self] at hfound
      rcases List.mem_append.mp hfound with hold | hnew
      · exact given.wrote other found hold
      · exact ⟨payload, List.mem_singleton.mp hnew ▸ hwrote⟩
    · rw [Function.update_of_ne hne] at hfound
      exact given.wrote other found hfound
  · rw [haccepted]
    rcases eq_or_ne ring .event with rfl | hne
    · simp [given.events, hframe]
    · rw [Function.update_of_ne (Ne.symm hne), given.events, hring hne, List.append_nil]
  · rw [haccepted] at hfound
    rcases eq_or_ne other ring with rfl | hne
    · rw [Function.update_self] at hfound
      rcases List.mem_append.mp hfound with hold | hnew
      · exact given.others other hother found hold
      · rw [List.mem_singleton.mp hnew, hframe]
        exact hring hother
    · rw [Function.update_of_ne hne] at hfound
      exact given.others other hother found hfound

/-! ## The invariant -/

/-- What the central has made of the messages it has handled: positions whose reports
alternate were forwarded as they are. -/
structure Handled (pipe : ℕ) (central : Central L) (reported : List (ℕ × Bool))
    (handled : List KeyMessage) : Prop where
  row : central.trackedPositions pipe = (deltas handled).foldl applyKey released
  stream : ∀ position < esbKeepalivePositionCount,
    (false :: streamAt position reported).IsChain (· ≠ ·) →
      streamAt position (keyEvents pipe central.outputs) = streamAt position (deltas handled)

/-- The receiver is where the bytes it parsed lead, and what they said is handled or
queued, in order. -/
structure Inv (crc8 : Bytes → UInt8) (pipe : ℕ) (link : WireKeyLink config) : Prop where
  sound : link.side.tx.Sound
  idle : ∀ ring, link.side.tx.entered ring = none
  given : Given crc8 L link.side.tx link.reported
  parsed_le : link.parsed ≤ link.line.length
  parser : link.parser =
    (wireFrameParserIngest crc8 (.empty false) (link.line.take link.parsed)).1
  handled : ∃ handled, Handled pipe link.central link.reported handled ∧
    handled ++ link.central.eventMsgq.flatMap (itemMessages pipe) =
      lineMessages crc8 L (link.line.take link.parsed)
  inStep : InStep applyKey released (lineMessages crc8 L link.line)

variable {link : WireKeyLink config} {centralConfig} {pipe} {idleKeepaliveMs}

theorem Inv.init (crc8 : Bytes → UInt8) (config : PeripheralConfig L)
    (centralConfig : CentralConfig) (pipe : ℕ) :
    (WireKeyLink.init config centralConfig).Inv crc8 pipe where
  sound := .boot
  idle _ := rfl
  given := ⟨by simp [WireKeyLink.init, WirePeripheral.boot, WireTx.boot], rfl,
    by simp [WireKeyLink.init, WirePeripheral.boot, WireTx.boot]⟩
  parsed_le := le_rfl
  parser := rfl
  handled := ⟨[], ⟨rfl, fun _ _ _ => rfl⟩, rfl⟩
  inStep := trivial

/-- More reports leave what was forwarded for alternating positions as it is. -/
theorem Handled.reports {central : Central L} {handled : List KeyMessage}
    (h : Handled pipe central reported handled) (more : List (ℕ × Bool)) :
    Handled pipe central (reported ++ more) handled where
  row := h.row
  stream position hposition halternate := by
    apply h.stream position hposition
    rw [streamAt_append, ← List.cons_append] at halternate
    exact halternate.left_of_append

/-- The transmitter is given more, and sends nothing. -/
theorem Inv.gives (inv : link.Inv crc8 pipe) {side : WirePeripheral config}
    {more : List (ℕ × Bool)} (hsound : side.tx.Sound)
    (hidle : ∀ ring, side.tx.entered ring = none)
    (hgiven : Given crc8 L side.tx (link.reported ++ more))
    (hlog : side.tx.log = link.side.tx.log) :
    ({ link with side := side, reported := link.reported ++ more } : WireKeyLink config).Inv
      crc8 pipe := by
  have hline : ({ link with side := side, reported := link.reported ++ more } :
      WireKeyLink config).line = link.line := by rw [line, line, hlog]
  obtain ⟨handled, hhandled, hqueue⟩ := inv.handled
  refine ⟨hsound, hidle, hgiven, ?_, ?_, ⟨handled, hhandled.reports more, ?_⟩, ?_⟩
  · rw [hline]
    exact inv.parsed_le
  · rw [hline]
    exact inv.parser
  · rw [hline]
    exact hqueue
  · rw [hline]
    exact inv.inStep

/-- The peripheral hands over a payload that says what is reported with it. -/
theorem Inv.sends (inv : link.Inv crc8 pipe) (side : WirePeripheral config) (ring : WireTxRing)
    (payload : Bytes) (htx : side.tx = (link.side.tx.enqueue crc8 ring payload).1)
    (hring : ring ≠ .event → deltas (packetMessages L payload) = [])
    (hrefused : (link.side.tx.enqueue crc8 ring payload).2 ≠ none →
      deltas (packetMessages L payload) = []) :
    ({ link with
        side := side
        reported := link.reported ++ deltas (packetMessages L payload) } :
      WireKeyLink config).Inv crc8 pipe := by
  rcases WireTx.enqueue_cases crc8 inv.idle ring payload with ⟨error, hfailed⟩ | ⟨-, hput⟩
  · rw [hfailed] at htx hrefused
    refine inv.gives ?_ ?_ ?_ ?_
    · rw [htx]
      exact inv.sound
    · rw [htx]
      exact inv.idle
    · rw [htx, hrefused (by simp), List.append_nil]
      exact inv.given
    · rw [htx]
  · refine inv.gives ?_ ?_ ?_ ?_
    · rw [htx]
      exact inv.sound.enqueue ring payload
    · rw [htx]
      exact hput.entered
    · rw [htx]
      exact inv.given.enqueued hput hring
    · rw [htx, hput.log]

/-- A payload without key events reports nothing. -/
theorem Inv.sends_quiet (inv : link.Inv crc8 pipe) (side : WirePeripheral config)
    (ring : WireTxRing) (payload : Bytes)
    (htx : side.tx = (link.side.tx.enqueue crc8 ring payload).1)
    (hquiet : deltas (packetMessages L payload) = []) :
    ({ link with side := side } : WireKeyLink config).Inv crc8 pipe := by
  simpa [hquiet] using inv.sends side ring payload htx (fun _ => hquiet) fun _ => hquiet

/-! ## The steps -/

theorem Inv.report (inv : link.Inv crc8 pipe) {sentMs : UInt32} {event : PeripheralEvent L}
    (hlossless : link.Lossless crc8 centralConfig pipe (.report sentMs event)) :
    (link.step crc8 centralConfig idleKeepaliveMs pipe (.report sentMs event)).Inv crc8 pipe := by
  by_cases hkey : event.IsKey
  · cases event with
    | keyPosition event =>
        have hmessages := packetMessages_keyPosition (L := L) event
        have hencoded := encodeEvent_keyPosition link.side.peripheral event
        have hsends := inv.sends
          (link.side.wirePeripheralReportEvent crc8 sentMs (.keyPosition event)).1 .event
          (PeripheralEvent.keyPosition event : PeripheralEvent L).encoding
          (by rw [WirePeripheral.wirePeripheralReportEvent]; simp only [hencoded]; rfl)
          (fun hne => absurd rfl hne) (fun hrefused => absurd ?_ hrefused)
        · rw [hmessages] at hsends
          exact hsends
        · rw [Lossless, WirePeripheral.wirePeripheralReportEvent] at hlossless
          simp only [hencoded] at hlossless
          exact hlossless
    | sensor event => cases hkey
    | input event => cases hkey
    | battery event => cases hkey
  · obtain ⟨wire, hencoded, hnone⟩ := encodeEvent_carriesNoKey link.side.peripheral hkey
    have hchange : keyChange event = [] := by
      cases event with
      | keyPosition event => exact absurd trivial hkey
      | sensor event => rfl
      | input event => rfl
      | battery event => rfl
    rw [step, hchange, List.append_nil]
    refine inv.sends_quiet _ (reportRing event) wire ?_ ?_
    · rw [WirePeripheral.wirePeripheralReportEvent]
      simp only [hencoded]
      rfl
    · rw [packetMessages_carriesNoKey hnone]
      rfl

theorem Inv.keepalive (inv : link.Inv crc8 pipe) (nowMs sentMs : UInt32) (batteryLevel : UInt8) :
    (link.step crc8 centralConfig idleKeepaliveMs pipe
      (.keepalive nowMs sentMs batteryLevel)).Inv crc8 pipe := by
  rw [step, WirePeripheral.wirePeripheralKeepaliveFire]
  split_ifs
  · exact inv
  · cases hfill : link.side.peripheral.keepaliveFill esbKeepaliveIdle 0 batteryLevel []
        (Nat.zero_le _) with
    | none => exact inv
    | some packet =>
        obtain ⟨hdata, hfit⟩ := keepaliveFill_data hfill
        refine inv.sends_quiet _ .keepalive packet.data rfl ?_
        rw [hdata]
        exact deltas_packetMessages_snapshot hfit

theorem packetMessages_nil : packetMessages L [] = [] :=
  packetMessages_events ([] : List (PeripheralEvent L))

theorem Inv.heartbeat (inv : link.Inv crc8 pipe) :
    (link.step crc8 centralConfig idleKeepaliveMs pipe .heartbeat).Inv crc8 pipe := by
  have htx : (link.side.wireKeepaliveFire crc8).tx =
      (link.side.tx.enqueue crc8 .keepalive []).1 := by rw [WirePeripheral.wireKeepaliveFire]
  exact inv.sends_quiet _ .keepalive [] htx (by rw [packetMessages_nil]; rfl)

theorem Inv.interrupt (inv : link.Inv crc8 pipe) {claim : ℕ} {accepted : ℤ}
    (hstep : link.SnapshotsInStep crc8 (.interrupt claim accepted)) :
    (link.step crc8 centralConfig idleKeepaliveMs pipe (.interrupt claim accepted)).Inv crc8
      pipe := by
  obtain ⟨sent, hlog⟩ : ∃ sent, (link.side.tx.interrupt claim accepted).log =
      link.side.tx.log ++ sent := ⟨_, rfl⟩
  have hline : (link.step crc8 centralConfig idleKeepaliveMs pipe
      (.interrupt claim accepted)).line = link.line ++ sent.map SentByte.byte := by
    rw [step, line, WirePeripheral.interrupt, hlog, List.map_append]
    rfl
  have hparsed : (link.line ++ sent.map SentByte.byte).take link.parsed =
      link.line.take link.parsed := List.take_append_of_le_length inv.parsed_le
  refine ⟨inv.sound.interrupt claim accepted, inv.idle, ?_, ?_, ?_, ?_, hstep⟩
  · exact ⟨inv.given.wrote, inv.given.events, inv.given.others⟩
  · rw [hline, List.length_append]
    exact inv.parsed_le.trans (Nat.le_add_right _ _)
  · rw [hline]
    change link.parser = (wireFrameParserIngest crc8 (.empty false)
      ((link.line ++ sent.map SentByte.byte).take link.parsed)).1
    rw [hparsed]
    exact inv.parser
  · rw [hline]
    change ∃ handled, Handled pipe link.central link.reported handled ∧
      handled ++ link.central.eventMsgq.flatMap (itemMessages pipe) =
        lineMessages crc8 L ((link.line ++ sent.map SentByte.byte).take link.parsed)
    rw [hparsed]
    exact inv.handled

/-- An operation of the central that forwards no key event and only adds to its queue. -/
theorem Handled.silent {central central' : Central L} {handled : List KeyMessage}
    (h : Handled pipe central reported handled) (hsilent : KeySilent central central') :
    Handled pipe central' reported handled where
  row := by
    rw [hsilent.tracked]
    exact h.row
  stream := by
    rw [hsilent.forwarded]
    exact h.stream

/-- A frame that finds space queues items that say what its payload says. -/
theorem wireOnFrame_spec {central : Central L} {payload : Bytes}
    (hroom : central.eventMsgq.length +
      (packetItems centralConfig pipe payload : List (CentralInbound L)).length ≤
        centralConfig.eventQueueSize) (now : UInt32) :
    KeySilent central (wireOnFrame centralConfig pipe now central payload) ∧
      (wireOnFrame centralConfig pipe now central payload).eventMsgq.flatMap (itemMessages pipe) =
        central.eventMsgq.flatMap (itemMessages pipe) ++ packetMessages L payload := by
  rw [wireOnFrame]
  split_ifs with hempty
  · rw [List.length_eq_zero_iff.mp hempty, packetMessages_nil, List.append_nil]
    exact ⟨.refl central, rfl⟩
  · refine ⟨ingestPacket_silent centralConfig central pipe now payload, ?_⟩
    rw [ingestPacket_eventMsgq hroom, List.flatMap_append, packetItems_messages]

theorem Inv.receive (inv : link.Inv crc8 pipe) {now : UInt32}
    (hlossless : link.Lossless crc8 centralConfig pipe (.receive now)) :
    (link.step crc8 centralConfig idleKeepaliveMs pipe (.receive now)).Inv crc8 pipe := by
  obtain ⟨handled, hhandled, hqueue⟩ := inv.handled
  rw [step]
  cases hbyte : link.line[link.parsed]? with
  | none => exact inv
  | some byte =>
      obtain ⟨hlt, -⟩ := List.getElem?_eq_some_iff.mp hbyte
      have htake : link.line.take (link.parsed + 1) = link.line.take link.parsed ++ [byte] := by
        rw [List.take_add_one, hbyte]
        rfl
      rw [Lossless, hbyte] at hlossless
      have hroom := hlossless byte rfl
      dsimp only
      have hone : wireFrameParserIngest crc8 link.parser [byte] =
          ((wireFrameParserIngestByte crc8 link.parser byte).1,
            (wireFrameParserIngestByte crc8 link.parser byte).2.toList) := by
        simp [wireFrameParserIngest]
      have hmessages : lineMessages crc8 L (link.line.take (link.parsed + 1)) =
          lineMessages crc8 L (link.line.take link.parsed) ++
            (wireFrameParserIngestByte crc8 link.parser byte).2.toList.flatMap
              (packetMessages L) := by
        rw [lineMessages, htake, wireFrameParserIngest_append, ← inv.parser, hone,
          List.flatMap_append]
        rfl
      refine ⟨inv.sound, inv.idle, inv.given, hlt, ?_, ?_, inv.inStep⟩
      · change (wireFrameParserIngestByte crc8 link.parser byte).1 =
          (wireFrameParserIngest crc8 (.empty false) (link.line.take (link.parsed + 1))).1
        rw [htake, wireFrameParserIngest_append, ← inv.parser, hone]
      · cases hpayload : (wireFrameParserIngestByte crc8 link.parser byte).2 with
        | none =>
            refine ⟨handled, hhandled, ?_⟩
            change handled ++ link.central.eventMsgq.flatMap (itemMessages pipe) =
              lineMessages crc8 L (link.line.take (link.parsed + 1))
            rw [hmessages, hpayload, hqueue]
            simp
        | some payload =>
            obtain ⟨hsilent, hitems⟩ := wireOnFrame_spec (hroom payload hpayload) now
            refine ⟨handled, hhandled.silent hsilent, ?_⟩
            change handled ++ (wireOnFrame centralConfig pipe now link.central
              payload).eventMsgq.flatMap (itemMessages pipe) =
                lineMessages crc8 L (link.line.take (link.parsed + 1))
            rw [hmessages, hpayload, hitems, ← List.append_assoc, hqueue]
            simp

/-- The central handles an item whose snapshots are in step with what it has handled. -/
theorem Handled.item {central : Central L} {handled : List KeyMessage} {item : CentralInbound L}
    (h : Handled pipe central reported handled) (hpipe : pipe < esbLinkPipeMax)
    (hstep : InStep applyKey (central.trackedPositions pipe) (itemMessages pipe item))
    (hleads : deltas (handled ++ itemMessages pipe item) <+: reported) :
    Handled pipe (central.handleInbound centralConfig item) reported
      (handled ++ itemMessages pipe item) where
  row := by
    rw [handleInbound_row centralConfig central hpipe item, hstep.receive, h.row, deltas_append,
      List.foldl_append]
  stream position hposition halternate := by
    have hfirst : (getBit released position :: streamAt position
        (deltas handled ++ deltas (itemMessages pipe item))).IsChain (· ≠ ·) := by
      rw [← deltas_append, released, getBit_replicate_zero]
      exact List.IsChain.infix halternate
        (List.cons_prefix_cons.mpr ⟨rfl, hleads.filterMap _⟩).isInfix
    have hrest := isChain_rest hposition hfirst
    rw [← h.row] at hrest
    rw [handleInbound_stream centralConfig central hpipe hposition hstep hrest,
      h.stream position hposition halternate, deltas_append, streamAt_append]

theorem Inv.work (inv : link.Inv crc8 pipe) (hpipe : pipe < esbLinkPipeMax) :
    (link.step crc8 centralConfig idleKeepaliveMs pipe .work).Inv crc8 pipe := by
  obtain ⟨handled, hhandled, hqueue⟩ := inv.handled
  cases hmsgq : link.central.eventMsgq with
  | nil =>
      have hidle : link.central.eventWorkStep centralConfig = link.central := by
        rw [Central.eventWorkStep, hmsgq]
      rw [step, hidle]
      exact inv
  | cons item queue =>
      have hwork : link.central.eventWorkStep centralConfig =
          ({ link.central with eventMsgq := queue }).handleInbound centralConfig item := by
        rw [Central.eventWorkStep, hmsgq]
      rw [hmsgq, List.flatMap_cons, ← List.append_assoc] at hqueue
      have hmessages : handled ++ itemMessages pipe item <+: lineMessages crc8 L link.line :=
        List.IsPrefix.trans ⟨_, hqueue⟩ (lineMessages_take link.line link.parsed)
      have hchanges : deltas (handled ++ itemMessages pipe item) <+: link.reported :=
        (hmessages.filterMap _).trans (inv.given.line inv.sound).1
      have hstep : InStep applyKey (link.central.trackedPositions pipe)
          (itemMessages pipe item) := by
        obtain ⟨rest, hrest⟩ := hmessages
        have hinStep := inv.inStep
        rw [← hrest, List.append_assoc] at hinStep
        rw [hhandled.row]
        exact (inStep_append.mp (inStep_append.mp hinStep).2).1
      have hsame : Handled pipe { link.central with eventMsgq := queue } link.reported handled :=
        ⟨hhandled.row, hhandled.stream⟩
      rw [step, hwork]
      refine ⟨inv.sound, inv.idle, inv.given, inv.parsed_le, inv.parser,
        ⟨_, hsame.item hpipe hstep hchanges, ?_⟩, inv.inStep⟩
      rw [handleInbound_eventMsgq]
      exact hqueue

theorem Inv.foreign (inv : link.Inv crc8 pipe) (source : ℕ) (now : UInt32) (data : Bytes) :
    (link.step crc8 centralConfig idleKeepaliveMs pipe (.foreign source now data)).Inv crc8
      pipe := by
  obtain ⟨handled, hhandled, hqueue⟩ := inv.handled
  rw [step]
  split_ifs with hsource
  · exact inv
  · obtain ⟨items, hitems, hforeign⟩ :=
      ingestPacket_source centralConfig link.central source now data
    refine ⟨inv.sound, inv.idle, inv.given, inv.parsed_le, inv.parser, ⟨handled,
      hhandled.silent (ingestPacket_silent centralConfig link.central source now data), ?_⟩,
      inv.inStep⟩
    have hnone : items.flatMap (itemMessages pipe) = [] := by
      apply List.flatMap_eq_nil_iff.mpr
      intro item hitem
      rw [itemMessages, if_neg (by rw [hforeign item hitem]; exact hsource)]
    rw [hitems, List.flatMap_append, hnone, List.append_nil]
    exact hqueue

theorem Inv.step (inv : link.Inv crc8 pipe) (hpipe : pipe < esbLinkPipeMax)
    {action : WireKeyAction L} (hlossless : link.Lossless crc8 centralConfig pipe action)
    (hinStep : link.SnapshotsInStep crc8 action) :
    (link.step crc8 centralConfig idleKeepaliveMs pipe action).Inv crc8 pipe := by
  cases action with
  | report sentMs event => exact inv.report hlossless
  | keepalive nowMs sentMs batteryLevel => exact inv.keepalive nowMs sentMs batteryLevel
  | heartbeat => exact inv.heartbeat
  | interrupt claim accepted => exact inv.interrupt hinStep
  | receive now => exact inv.receive hlossless
  | work => exact inv.work hpipe
  | foreign source now data => exact inv.foreign source now data

/-! ## Every run -/

/-- A position was forwarded as it was reported, so far as the central has got; once the
link is drained, all of it was. -/
def Forwards (pipe : ℕ) (link : WireKeyLink config) (position : ℕ) : Prop :=
  streamAt position (keyEvents pipe link.central.outputs) <+: streamAt position link.reported ∧
    (link.Drained pipe →
      streamAt position (keyEvents pipe link.central.outputs) = streamAt position link.reported)

/-- A drained link has handled everything that was reported. -/
theorem Inv.drained (inv : link.Inv crc8 pipe) (hdrained : link.Drained pipe)
    {handled : List KeyMessage}
    (hqueue : handled ++ link.central.eventMsgq.flatMap (itemMessages pipe) =
      lineMessages crc8 L (link.line.take link.parsed)) : deltas handled = link.reported := by
  obtain ⟨hrings, hparsed, hitems⟩ := hdrained
  have hnone : link.central.eventMsgq.flatMap (itemMessages pipe) = [] := by
    apply List.flatMap_eq_nil_iff.mpr
    intro item hitem
    rw [itemMessages, if_neg (hitems item hitem)]
  rw [hnone, List.append_nil, hparsed, List.take_length] at hqueue
  rw [hqueue]
  exact (inv.given.line inv.sound).2 hrings

theorem Inv.forwards (inv : link.Inv crc8 pipe) {position : ℕ}
    (hposition : position < esbKeepalivePositionCount)
    (halternate : (false :: streamAt position link.reported).IsChain (· ≠ ·)) :
    Forwards pipe link position := by
  obtain ⟨handled, hhandled, hqueue⟩ := inv.handled
  rw [Forwards, hhandled.stream position hposition halternate]
  constructor
  · have hmessages : handled <+: lineMessages crc8 L link.line :=
      List.IsPrefix.trans ⟨_, hqueue⟩ (lineMessages_take link.line link.parsed)
    exact ((hmessages.filterMap _).trans (inv.given.line inv.sound).1).filterMap _
  · intro hdrained
    rw [inv.drained hdrained hqueue]

/-- Along every run that loses nothing and in which every snapshot goes out in step with the
key events: a position that is pressed and released in turn is forwarded exactly as it
was reported. -/
theorem wire_keys_exact (L : EventLayout) (config : PeripheralConfig L)
    (centralConfig : CentralConfig) (crc8 : Bytes → UInt8) (idleKeepaliveMs : UInt32) (pipe : ℕ)
    (hpipe : pipe < esbLinkPipeMax) (actions : List (WireKeyAction L))
    (hlossless : Along (step crc8 centralConfig idleKeepaliveMs pipe)
      (Lossless crc8 centralConfig pipe) (init config centralConfig) actions)
    (hinStep : Along (step crc8 centralConfig idleKeepaliveMs pipe) (SnapshotsInStep crc8)
      (init config centralConfig) actions) :
    let link := run (step crc8 centralConfig idleKeepaliveMs pipe) (init config centralConfig)
      actions
    ∀ position < esbKeepalivePositionCount,
      (false :: streamAt position link.reported).IsChain (· ≠ ·) → Forwards pipe link position := by
  intro link position hposition halternate
  have hinv : link.Inv crc8 pipe :=
    run_invariant_along (fun _ _ inv hok => inv.step hpipe hok.1 hok.2)
      (.init crc8 config centralConfig pipe) (hlossless.and hinStep)
  exact hinv.forwards hposition halternate

/-! ## A snapshot overtaken by a press -/

instance (link : WireKeyLink config) (action : WireKeyAction L) :
    Decidable (link.Lossless crc8 centralConfig pipe action) :=
  action.casesOn
    (fun sentMs event => event.casesOn
      (fun event => inferInstanceAs (Decidable
        ((link.side.wirePeripheralReportEvent crc8 sentMs (.keyPosition event)).2 = none)))
      (fun _ => .isTrue trivial) (fun _ => .isTrue trivial) (fun _ => .isTrue trivial))
    (fun _ _ _ => .isTrue trivial) (.isTrue trivial) (fun _ _ => .isTrue trivial)
    (fun _ => inferInstanceAs (Decidable (∀ byte ∈ link.line[link.parsed]?,
      ∀ payload ∈ (wireFrameParserIngestByte crc8 link.parser byte).2,
        link.central.eventMsgq.length +
          (packetItems centralConfig pipe payload : List (CentralInbound L)).length ≤
            centralConfig.eventQueueSize)))
    (.isTrue trivial) (fun _ _ _ => .isTrue trivial)

instance (link : WireKeyLink config) (action : WireKeyAction L) :
    Decidable (link.SnapshotsInStep crc8 action) :=
  action.casesOn (fun _ _ => .isTrue trivial) (fun _ _ _ => .isTrue trivial) (.isTrue trivial)
    (fun claim accepted => inferInstanceAs (Decidable (InStep applyKey released
      (lineMessages crc8 L ((link.side.tx.interrupt claim accepted).log.map SentByte.byte)))))
    (fun _ => .isTrue trivial) (.isTrue trivial) (fun _ _ _ => .isTrue trivial)

def pressReport : WireKeyAction zmkLayout :=
  .report 201 (.keyPosition (zmkLayout.keyPositionEvent 5 true))

/-- A press, its frame, a keepalive and its frame, and all of it received and handled. -/
def orderedRun : List (WireKeyAction zmkLayout) :=
  [pressReport, .interrupt 64 64, .keepalive 400 400 255, .interrupt 64 64] ++
    List.replicate 23 (.receive 401) ++ [.work, .work]

/-- The press is forwarded once. -/
theorem wire_keys_exact_sample :
    Forwards 1 (run (step crc8Ccitt sampleCentralConfig 128 1)
      (init samplePeripheralConfig sampleCentralConfig) orderedRun) 5 :=
  wire_keys_exact zmkLayout samplePeripheralConfig sampleCentralConfig crc8Ccitt 128 1
    (by decide) orderedRun (by decide +kernel) (by decide +kernel) 5 (by decide) (by decide +kernel)

/-- A heartbeat is under way when the snapshot is put behind it and a key is pressed; the
event ring goes first at the end of the heartbeat. -/
def overtakenRun : List (WireKeyAction zmkLayout) :=
  [.heartbeat, .interrupt 64 1, .keepalive 200 200 255, pressReport, .interrupt 64 2,
    .interrupt 64 64, .interrupt 64 64] ++ List.replicate 26 (.receive 202) ++ [.work, .work]

/-- The snapshot from before the press releases the key that is still held. -/
theorem snapshot_undoes_press :
    ¬∀ (L : EventLayout) (config : PeripheralConfig L) (centralConfig : CentralConfig)
      (crc8 : Bytes → UInt8) (idleKeepaliveMs : UInt32) (pipe : ℕ), pipe < esbLinkPipeMax →
      ∀ actions : List (WireKeyAction L),
      Along (step crc8 centralConfig idleKeepaliveMs pipe) (Lossless crc8 centralConfig pipe)
        (init config centralConfig) actions →
      ∀ position < esbKeepalivePositionCount,
        (false :: streamAt position (run (step crc8 centralConfig idleKeepaliveMs pipe)
          (init config centralConfig) actions).reported).IsChain (· ≠ ·) →
        Forwards pipe (run (step crc8 centralConfig idleKeepaliveMs pipe)
          (init config centralConfig) actions) position := by
  intro hclaim
  have hforwards := hclaim zmkLayout samplePeripheralConfig sampleCentralConfig crc8Ccitt 128
    1 (by decide) overtakenRun (by decide +kernel) 5 (by decide) (by decide +kernel)
  have hbroken : ¬streamAt 5 (keyEvents 1 (run (step crc8Ccitt sampleCentralConfig 128 1)
      (init samplePeripheralConfig sampleCentralConfig) overtakenRun).central.outputs) <+:
      streamAt 5 (run (step crc8Ccitt sampleCentralConfig 128 1)
        (init samplePeripheralConfig sampleCentralConfig) overtakenRun).reported := by
    decide +kernel
  exact hbroken hforwards.1

end WireKeyLink

end SplitEsb
