import SplitEsb.Peripheral.Packets
import SplitEsb.Wire.Transmit

/-! # Wire peripheral
The reports, keepalives and heartbeats of a peripheral on the UART. The event and keepalive
rings are filled from the system workqueue, so each call gets to its put before the next. -/

namespace SplitEsb

open ByteString

/-! ## Whole calls -/

/-- A call of `wire_link_send_*` with its put. -/
def WireTx.enqueue (crc8 : Bytes → UInt8) (tx : WireTx) (ring : WireTxRing) (payload : Bytes) :
    WireTx × Option WireLinkError :=
  let (tx, error) := tx.sendOn crc8 true ring payload
  (tx.put ring, error)

/-- The frames each ring was given, with one more on one ring. -/
structure WireTx.Enqueued (crc8 : Bytes → UInt8) (ring : WireTxRing) (payload : Bytes)
    (tx tx' : WireTx) : Prop where
  accepted : ∃ frame, WroteFrame crc8 payload frame ∧
    tx'.accepted = Function.update tx.accepted ring (tx.accepted ring ++ [frame])
  log : tx'.log = tx.log
  entered : ∀ other, tx'.entered other = none

/-- A call fails and changes nothing, or puts the frame of its payload. -/
theorem WireTx.enqueue_cases (crc8 : Bytes → UInt8) {tx : WireTx}
    (hidle : ∀ ring, tx.entered ring = none) (ring : WireTxRing) (payload : Bytes) :
    (∃ error, tx.enqueue crc8 ring payload = (tx, some error)) ∨
      (tx.enqueue crc8 ring payload).2 = none ∧
        tx.Enqueued crc8 ring payload (tx.enqueue crc8 ring payload).1 := by
  rw [enqueue]
  rcases sendOn_cases crc8 true tx ring payload with ⟨error, hsend⟩ | ⟨frame, hwrote, -, hsend⟩
  · rw [hsend]
    exact .inl ⟨error, by simp [put_of_idle (hidle ring)]⟩
  · rw [hsend]
    obtain ⟨-, hproducers, haccepted, -, hlog⟩ := @put_of_entered
      { tx with entered := Function.update tx.entered ring (some frame) } ring frame
      (Function.update_self ..)
    refine .inr ⟨rfl, ⟨frame, hwrote, haccepted⟩, hlog, fun other => ?_⟩
    dsimp only
    rw [hproducers]
    rcases eq_or_ne other ring with rfl | hne
    · simp
    · simp [hne, hidle]

theorem WireTx.Sound.enqueue {crc8 : Bytes → UInt8} {tx : WireTx} (h : tx.Sound)
    (ring : WireTxRing) (payload : Bytes) : (tx.enqueue crc8 ring payload).1.Sound :=
  (h.sendOn ring payload).put ring

variable {L : EventLayout} {config : PeripheralConfig L}

/-! ## The transport -/

/-- A wire keepalive carries no motion totals. -/
theorem noMotionTotals_le (config : PeripheralConfig L) :
    ([] : List EsbKeepaliveMotionTotal).length ≤ config.motionSlotCount :=
  Nat.zero_le _

structure WirePeripheral (config : PeripheralConfig L) where
  peripheral : Peripheral config
  tx : WireTx
  lastWireSendMs : UInt32

def WirePeripheral.boot (config : PeripheralConfig L) : WirePeripheral config :=
  ⟨.init config, .boot, 0⟩

def reportRing : PeripheralEvent L → WireTxRing
  | .input _ => .input
  | _ => .event

namespace WirePeripheral

variable (crc8 : Bytes → UInt8)

/-- Hands a payload to the link and notes when it was taken. -/
def handOver (side : WirePeripheral config) (ring : WireTxRing) (payload : Bytes)
    (sentMs : UInt32) : WirePeripheral config × Option WireLinkError :=
  let (tx, error) := side.tx.enqueue crc8 ring payload
  ({ side with
      tx := tx
      lastWireSendMs := if error.isNone then sentMs else side.lastWireSendMs }, error)

def wirePeripheralReportEvent (side : WirePeripheral config) (sentMs : UInt32)
    (event : PeripheralEvent L) : WirePeripheral config × Option WireLinkError :=
  let (peripheral, encoded) := side.peripheral.encodeEvent event
  match encoded with
  | none => ({ side with peripheral := peripheral }, some .enotsup)
  | some wire => ({ side with peripheral := peripheral }).handOver crc8 (reportRing event) wire sentMs

def wirePeripheralKeepaliveFire (idleKeepaliveMs : UInt32) (side : WirePeripheral config)
    (nowMs sentMs : UInt32) (batteryLevel : UInt8) : WirePeripheral config :=
  if nowMs - side.lastWireSendMs < idleKeepaliveMs then side
  else
    (side.peripheral.keepaliveFill esbKeepaliveIdle 0 batteryLevel [] (noMotionTotals_le config)).elim side
      fun packet => (side.handOver crc8 .keepalive packet.data sentMs).1

/-- The heartbeat of the link: an empty payload. -/
def wireKeepaliveFire (side : WirePeripheral config) : WirePeripheral config :=
  { side with tx := (side.tx.enqueue crc8 .keepalive []).1 }

def interrupt (side : WirePeripheral config) (claim : ℕ) (accepted : ℤ) : WirePeripheral config :=
  { side with tx := side.tx.interrupt claim accepted }

end WirePeripheral

/-! ## What a report sends -/

theorem encodeEvent_keyPosition (peripheral : Peripheral config)
    (event : Vector UInt8 L.keyPositionSize) :
    (peripheral.encodeEvent (.keyPosition event)).2 =
      some (PeripheralEvent.keyPosition event : PeripheralEvent L).encoding := by
  rw [Peripheral.encodeEvent, esbWireEncodeEvent_maxPayload]

/-- A report that is no key event sends one event that is none either. -/
theorem encodeEvent_carriesNoKey (peripheral : Peripheral config) {event : PeripheralEvent L}
    (h : ¬event.IsKey) :
    ∃ wire, (peripheral.encodeEvent event).2 = some wire ∧ CarriesNoKey L wire := by
  cases event with
  | keyPosition event => exact absurd trivial h
  | sensor event =>
      rw [Peripheral.encodeEvent]
      dsimp only
      rw [esbWireEncodeEvent_maxPayload]
      exact ⟨_, rfl, carriesNoKey_single id⟩
  | input event =>
      rw [Peripheral.encodeEvent, esbWireEncodeEvent_maxPayload]
      exact ⟨_, rfl, carriesNoKey_single id⟩
  | battery event =>
      rw [Peripheral.encodeEvent, esbWireEncodeEvent_maxPayload]
      exact ⟨_, rfl, carriesNoKey_single id⟩

end SplitEsb
