import SplitEsb.Shared.Bytes

/-! # Relayed pointer on the central
Relative motion adds to four running totals. A pointer report is ZMK's mouse report:
its id, the buttons, then the low half of each total. -/

namespace SplitEsb

open ByteString

def inputEvTypeKey : UInt8 := 0x01
def inputEvTypeRel : UInt8 := 0x02
def inputRelX : UInt16 := 0x00
def inputRelY : UInt16 := 0x01
def inputRelHwheel : UInt16 := 0x06
def inputRelWheel : UInt16 := 0x08
def inputBtn0 : UInt16 := 0x100
def inputBtnTouch : UInt16 := 0x14A
def zmkHidMouseNumButtons : UInt16 := 5
def zmkHidReportIdKeyboard : UInt8 := 0x01
def zmkHidReportIdConsumer : UInt8 := 0x02
def zmkHidReportIdMouse : UInt8 := 0x03
def esbHidRelayPointerLength : ℕ := 10
def esbHidRelayPointerButtonsOffset : ℕ := 1
def esbHidRelayPointerMotionOffset : ℕ := 2

/-- The axes of a mouse report, in its order. -/
inductive PointerAxis where
  | x
  | y
  | scrollY
  | scrollX
  deriving DecidableEq, Repr

structure PointerTotals (α : Type) where
  dX : α
  dY : α
  dScrollY : α
  dScrollX : α
  deriving DecidableEq, Repr

namespace PointerTotals

variable {α β : Type}

def get (totals : PointerTotals α) : PointerAxis → α
  | .x => totals.dX
  | .y => totals.dY
  | .scrollY => totals.dScrollY
  | .scrollX => totals.dScrollX

def ofFn (f : PointerAxis → α) : PointerTotals α := ⟨f .x, f .y, f .scrollY, f .scrollX⟩

def map (f : α → β) (totals : PointerTotals α) : PointerTotals β :=
  ⟨f totals.dX, f totals.dY, f totals.dScrollY, f totals.dScrollX⟩

def modify (totals : PointerTotals α) (axis : PointerAxis) (f : α → α) : PointerTotals α :=
  ofFn fun other => if other = axis then f (totals.get other) else totals.get other

@[simp] theorem get_ofFn (f : PointerAxis → α) (axis : PointerAxis) : (ofFn f).get axis = f axis := by
  cases axis <;> rfl

@[simp] theorem get_map (f : α → β) (totals : PointerTotals α) (axis : PointerAxis) :
    (totals.map f).get axis = f (totals.get axis) := by
  cases axis <;> rfl

@[simp] theorem get_modify (totals : PointerTotals α) (axis other : PointerAxis) (f : α → α) :
    (totals.modify axis f).get other = if other = axis then f (totals.get other) else totals.get other := by
  rw [modify, get_ofFn]

end PointerTotals

structure MouseReportBody where
  buttons : UInt8
  totals : PointerTotals Int16
  deriving DecidableEq, Repr

namespace MouseReportBody

def zero : MouseReportBody := ⟨0, ⟨0, 0, 0, 0⟩⟩

def encodeTotals (totals : PointerTotals Int16) : Bytes :=
  le16 totals.dX.toUInt16 ++ le16 totals.dY.toUInt16 ++ le16 totals.dScrollY.toUInt16 ++
    le16 totals.dScrollX.toUInt16

/-- The whole report, id included. -/
def encode (body : MouseReportBody) : Bytes :=
  zmkHidReportIdMouse :: body.buttons :: encodeTotals body.totals

end MouseReportBody

/-- Where an axis lies in a report. -/
def pointerAxisOffset : PointerAxis → ℕ
  | .x => esbHidRelayPointerMotionOffset
  | .y => esbHidRelayPointerMotionOffset + 2
  | .scrollY => esbHidRelayPointerMotionOffset + 4
  | .scrollX => esbHidRelayPointerMotionOffset + 6

def shortTotalAt (bytes : Bytes) (axis : PointerAxis) : Int16 :=
  (getLe16 bytes (pointerAxisOffset axis)).toInt16

def MouseReportBody.decode (bytes : Bytes) : MouseReportBody where
  buttons := byteAt bytes esbHidRelayPointerButtonsOffset
  totals := PointerTotals.ofFn (shortTotalAt bytes)

@[simp] theorem MouseReportBody.length_encode (body : MouseReportBody) :
    body.encode.length = esbHidRelayPointerLength := by
  simp [encode, encodeTotals, esbHidRelayPointerLength]

theorem MouseReportBody.shortTotalAt_encode (body : MouseReportBody) (axis : PointerAxis) :
    shortTotalAt body.encode axis = body.totals.get axis := by
  have hread : readAt body.encode (pointerAxisOffset axis) 2 = le16 (body.totals.get axis).toUInt16 := by
    cases axis <;> rfl
  rw [shortTotalAt, getLe16_of_readAt hread]
  rfl

@[simp] theorem MouseReportBody.decode_encode (body : MouseReportBody) :
    decode body.encode = body := by
  simp only [decode, PointerTotals.ofFn, shortTotalAt_encode]
  rfl

/-- What follows a report in the payload is not read. -/
theorem MouseReportBody.decode_encode_append (body : MouseReportBody) (rest : Bytes) :
    decode (body.encode ++ rest) = body := by
  have haxis : ∀ axis, shortTotalAt (body.encode ++ rest) axis = shortTotalAt body.encode axis := by
    intro axis
    cases axis <;> rfl
  have hsame : decode (body.encode ++ rest) = decode body.encode := by
    simp only [decode, PointerTotals.ofFn, haxis]
    rfl
  rw [hsame, decode_encode]

/-! ## The pointer state -/

/-- `paused` belongs to the keyboard half of the relay; `writtenBody` is the body of
the last report the ACK FIFO took. -/
structure RelayPointer where
  sums : PointerTotals Int32
  buttons : UInt8
  buttonsChanged : Bool
  refreshDue : Bool
  writtenBody : MouseReportBody
  paused : Bool
  deriving DecidableEq, Repr

/-- `struct input_event`, as the listener sees it. -/
structure PointerEvent where
  type : UInt8
  code : UInt16
  value : Int32
  sync : Bool
  deriving DecidableEq, Repr

/-- The axis a relative code moves; the listener ignores the others. -/
def relAxis (code : UInt16) : Option PointerAxis :=
  if code = inputRelX then some .x
  else if code = inputRelY then some .y
  else if code = inputRelWheel then some .scrollY
  else if code = inputRelHwheel then some .scrollX
  else none

namespace RelayPointer

def zero : RelayPointer where
  sums := ⟨0, 0, 0, 0⟩
  buttons := 0
  buttonsChanged := false
  refreshDue := false
  writtenBody := .zero
  paused := false

def active (pointer : RelayPointer) : Bool := !pointer.paused

/-! ### From the input listener -/

def addMotion (pointer : RelayPointer) (code : UInt16) (value : Int32) : RelayPointer :=
  match relAxis code with
  | none => pointer
  | some axis => { pointer with sums := pointer.sums.modify axis (· + value) }

def buttonBit (code : UInt16) : Option UInt8 :=
  if code = inputBtnTouch then some 1
  else if code < inputBtn0 ∨ inputBtn0 + zmkHidMouseNumButtons ≤ code then none
  else some (1 <<< (code - inputBtn0).toUInt8)

def addButton (pointer : RelayPointer) (code : UInt16) (value : Int32) : RelayPointer :=
  match buttonBit code with
  | none => pointer
  | some bit =>
      let pressed := value != 0
      let wasPressed := pointer.buttons &&& bit != 0
      { pointer with
        buttons := if pressed then pointer.buttons ||| bit else pointer.buttons &&& ~~~bit
        buttonsChanged := pointer.buttonsChanged || wasPressed != pressed }

/-- The report `stage_buttons` queues on every relay pipe. -/
def buttonReport (pointer : RelayPointer) : Bytes :=
  { MouseReportBody.zero with buttons := pointer.buttons }.encode

/-- The pointer after an event, and the button report to stage at a sync. -/
def handleEvent (pointer : RelayPointer) (event : PointerEvent) : RelayPointer × Option Bytes :=
  if !pointer.active then (pointer, none)
  else
    let pointer :=
      if event.type = inputEvTypeRel then pointer.addMotion event.code event.value
      else if event.type = inputEvTypeKey then pointer.addButton event.code event.value
      else pointer
    if event.sync && pointer.buttonsChanged then
      let pointer := { pointer with buttonsChanged := false }
      (pointer, some pointer.buttonReport)
    else (pointer, none)

def refresh (pointer : RelayPointer) : RelayPointer := { pointer with refreshDue := true }

/-- `held` is what ZMK holds pressed. -/
def reset (pointer : RelayPointer) (held : UInt8) : RelayPointer :=
  { pointer with buttons := if pointer.active then held else 0 }

def setPaused (pointer : RelayPointer) (paused : Bool) : RelayPointer :=
  { pointer with paused := paused }

/-! ### From the radio interrupt -/

def shortTotals (pointer : RelayPointer) : PointerTotals Int16 := pointer.sums.map Int32.toInt16

/-- Paused, totals stay where the dongle last saw them. -/
def stampTotals (pointer : RelayPointer) (body : MouseReportBody) : MouseReportBody :=
  { body with
    totals := if pointer.active then pointer.shortTotals else pointer.writtenBody.totals }

/-- Paused, every report releases the buttons; a change still queued must not be
overtaken. -/
def reportButtons (pointer : RelayPointer) (changesQueued : Bool) : UInt8 :=
  if !pointer.active then 0
  else if changesQueued then pointer.writtenBody.buttons
  else pointer.buttons

def bodyIsWritten (pointer : RelayPointer) (body : MouseReportBody) : Bool :=
  body == pointer.writtenBody

/-- The report to append, if there is room and news or a refresh is due. -/
def take (pointer : RelayPointer) (room : ℕ) (changesQueued : Bool) : Option Bytes :=
  if room < esbHidRelayPointerLength then none
  else
    let body := pointer.stampTotals
      { MouseReportBody.zero with buttons := pointer.reportButtons changesQueued }
    if pointer.bodyIsWritten body && !pointer.refreshDue then none else some body.encode

def motionPending (pointer : RelayPointer) : Bool :=
  !pointer.bodyIsWritten (pointer.stampTotals pointer.writtenBody)

def isMouseReport (bytes : Bytes) : Bool :=
  bytes.length = esbHidRelayPointerLength && byteAt bytes 0 == zmkHidReportIdMouse

/-- The queued mouse report with the running totals, none for any other report. -/
def stamp (pointer : RelayPointer) (bytes : Bytes) : Option Bytes :=
  if !isMouseReport bytes then none
  else
    let body := MouseReportBody.decode bytes
    let body := if !pointer.active then { body with buttons := 0 } else body
    some (pointer.stampTotals body).encode

def sent (pointer : RelayPointer) (bytes : Bytes) : RelayPointer :=
  { pointer with writtenBody := .decode bytes, refreshDue := false }

/-! ### Reports on the wire -/

theorem encode_of_take {pointer : RelayPointer} {room : ℕ} {changesQueued : Bool} {bytes : Bytes}
    (h : pointer.take room changesQueued = some bytes) :
    ∃ body : MouseReportBody, bytes = body.encode := by
  simp only [take] at h
  split_ifs at h
  exact ⟨_, (Option.some.inj h).symm⟩

theorem length_of_take {pointer : RelayPointer} {room : ℕ} {changesQueued : Bool} {bytes : Bytes}
    (h : pointer.take room changesQueued = some bytes) :
    bytes.length = esbHidRelayPointerLength ∧ esbHidRelayPointerLength ≤ room := by
  simp only [take] at h
  split_ifs at h with hroom
  cases h
  exact ⟨MouseReportBody.length_encode _, Nat.not_lt.mp hroom⟩

theorem stamp_eq_some_iff {pointer : RelayPointer} {bytes stamped : Bytes} :
    pointer.stamp bytes = some stamped ↔ isMouseReport bytes = true ∧
      (pointer.stampTotals { MouseReportBody.decode bytes with
        buttons := if pointer.active then byteAt bytes esbHidRelayPointerButtonsOffset else 0
      }).encode = stamped := by
  cases hmouse : isMouseReport bytes
  · simp [stamp, hmouse]
  · cases hactive : pointer.active <;> simp [stamp, hmouse, hactive, MouseReportBody.decode]

theorem length_of_stamp {pointer : RelayPointer} {bytes stamped : Bytes}
    (h : pointer.stamp bytes = some stamped) : stamped.length = bytes.length := by
  obtain ⟨hmouse, rfl⟩ := stamp_eq_some_iff.mp h
  simp only [isMouseReport, Bool.and_eq_true, decide_eq_true_eq] at hmouse
  rw [MouseReportBody.length_encode, hmouse.1]

end RelayPointer

end SplitEsb
