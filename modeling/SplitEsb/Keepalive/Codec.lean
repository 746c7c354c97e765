import SplitEsb.Shared.BitTable
import SplitEsb.Shared.Bytes

/-! # Keepalive codec
The periodic snapshot a peripheral sends and the central reconciles against: one
tag byte, fixed header fields, and three runs of records. -/

namespace SplitEsb

open ByteString BitTable

/-! ## Wire layout -/

def esbKeepaliveTag : UInt8 := 0xFF
def esbKeepaliveTagOffset : ℕ := 0
def esbKeepaliveStateOffset : ℕ := 1
def esbKeepaliveIdle : UInt8 := 0x00
def esbKeepaliveActive : UInt8 := 0x01
def esbKeepaliveBitmapOffset : ℕ := 2
def esbKeepaliveBitmapBytes : ℕ := 8
def esbKeepalivePositionCount : ℕ := esbKeepaliveBitmapBytes * 8
def esbKeepaliveBatteryOffset : ℕ := esbKeepaliveBitmapOffset + esbKeepaliveBitmapBytes
def esbKeepaliveBatteryUnknown : UInt8 := 0xFF
def esbKeepaliveLinkCostOffset : ℕ := esbKeepaliveBatteryOffset + 1
def esbKeepaliveHeldCountOffset : ℕ := esbKeepaliveLinkCostOffset + 1
def esbKeepaliveHeldOffset : ℕ := esbKeepaliveHeldCountOffset + 1
def esbKeepaliveHeldBytes : ℕ := 3
def esbKeepaliveMotionBytes : ℕ := 4
def esbKeepaliveSensorBytes : ℕ := 8

def esbKeepaliveMotionCountOffset (held : ℕ) : ℕ :=
  esbKeepaliveHeldOffset + held * esbKeepaliveHeldBytes

def esbKeepaliveMotionOffset (held : ℕ) : ℕ := esbKeepaliveMotionCountOffset held + 1

def esbKeepaliveSensorOffset (held motion : ℕ) : ℕ :=
  esbKeepaliveMotionOffset held + motion * esbKeepaliveMotionBytes

def esbKeepaliveLength (held motion sensors : ℕ) : ℕ :=
  esbKeepaliveSensorOffset held motion + sensors * esbKeepaliveSensorBytes

def esbKeepaliveBaseLength : ℕ := esbKeepaliveLength 0 0 0

theorem esbKeepaliveMotionCountOffset_eq (held : ℕ) :
    esbKeepaliveMotionCountOffset held = 13 + held * 3 := rfl

theorem esbKeepaliveMotionOffset_eq (held : ℕ) :
    esbKeepaliveMotionOffset held = 14 + held * 3 := by
  rw [esbKeepaliveMotionOffset, esbKeepaliveMotionCountOffset_eq]
  omega

theorem esbKeepaliveSensorOffset_eq (held motion : ℕ) :
    esbKeepaliveSensorOffset held motion = 14 + held * 3 + motion * 4 := by
  rw [esbKeepaliveSensorOffset, esbKeepaliveMotionOffset_eq]
  rfl

theorem esbKeepaliveLength_eq (held motion sensors : ℕ) :
    esbKeepaliveLength held motion sensors = 14 + held * 3 + motion * 4 + sensors * 8 := by
  rw [esbKeepaliveLength, esbKeepaliveSensorOffset_eq]
  rfl

/-! ## Snapshot -/

structure EsbKeepaliveHeldKey where
  reg : UInt8
  code : UInt16
  deriving DecidableEq, Repr

structure EsbKeepaliveMotionTotal where
  reg : UInt8
  code : UInt8
  shortTotal : Int16
  deriving DecidableEq, Repr

abbrev PositionBitmap := Vector UInt8 esbKeepaliveBitmapBytes

/-- The three counts are the lengths of the lists, each in one byte on the wire. -/
@[ext] structure EsbKeepaliveSnapshot where
  state : UInt8
  linkCostX10 : UInt8
  batteryLevel : UInt8
  positionBitmap : PositionBitmap
  heldKeys : List EsbKeepaliveHeldKey
  motionTotals : List EsbKeepaliveMotionTotal
  sensorTotalsUdeg : List Int64
  heldCount_lt : heldKeys.length < 256
  motionCount_lt : motionTotals.length < 256
  sensorCount_lt : sensorTotalsUdeg.length < 256

def EsbKeepaliveSnapshot.encodedLength (snapshot : EsbKeepaliveSnapshot) : ℕ :=
  esbKeepaliveLength snapshot.heldKeys.length snapshot.motionTotals.length
    snapshot.sensorTotalsUdeg.length

/-! ## Encoder -/

def EsbKeepaliveHeldKey.entry (key : EsbKeepaliveHeldKey) : Bytes := key.reg :: le16 key.code

def EsbKeepaliveMotionTotal.entry (total : EsbKeepaliveMotionTotal) : Bytes :=
  total.reg :: total.code :: le16 total.shortTotal.toUInt16

def sensorEntry (total : Int64) : Bytes := le64 total.toUInt64

def encodeHeldKeys (out : Bytes) (heldKeys : List EsbKeepaliveHeldKey) : Bytes :=
  writeRecords EsbKeepaliveHeldKey.entry esbKeepaliveHeldBytes esbKeepaliveHeldOffset
    (writeAt out esbKeepaliveHeldCountOffset [UInt8.ofNat heldKeys.length]) 0 heldKeys

def encodeMotionTotals (out : Bytes) (heldCount : ℕ)
    (motionTotals : List EsbKeepaliveMotionTotal) : Bytes :=
  writeRecords EsbKeepaliveMotionTotal.entry esbKeepaliveMotionBytes
    (esbKeepaliveMotionOffset heldCount)
    (writeAt out (esbKeepaliveMotionCountOffset heldCount) [UInt8.ofNat motionTotals.length]) 0
    motionTotals

/-- Returns the encoded length and the buffer, 0 and the untouched buffer when it is too small. -/
def esbKeepaliveEncode (out : Bytes) (snapshot : EsbKeepaliveSnapshot) : ℕ × Bytes :=
  let length := snapshot.encodedLength
  if out.length < length then (0, out)
  else
    let out := writeAt out esbKeepaliveTagOffset [esbKeepaliveTag]
    let out := writeAt out esbKeepaliveStateOffset [snapshot.state]
    let out := writeAt out esbKeepaliveBitmapOffset snapshot.positionBitmap.toList
    let out := writeAt out esbKeepaliveBatteryOffset [snapshot.batteryLevel]
    let out := writeAt out esbKeepaliveLinkCostOffset [snapshot.linkCostX10]
    let out := encodeHeldKeys out snapshot.heldKeys
    let out := encodeMotionTotals out snapshot.heldKeys.length snapshot.motionTotals
    let totalsOffset :=
      esbKeepaliveSensorOffset snapshot.heldKeys.length snapshot.motionTotals.length
    (length, writeRecords sensorEntry esbKeepaliveSensorBytes totalsOffset out 0
      snapshot.sensorTotalsUdeg)

/-! ## Accessors -/

def esbKeepaliveHeldCount (data : Bytes) : UInt8 := byteAt data esbKeepaliveHeldCountOffset

def motionCountOffset (data : Bytes) : ℕ :=
  esbKeepaliveMotionCountOffset (esbKeepaliveHeldCount data).toNat

def esbKeepaliveMotionCount (data : Bytes) : UInt8 := byteAt data (motionCountOffset data)

def sensorOffset (data : Bytes) : ℕ :=
  esbKeepaliveSensorOffset (esbKeepaliveHeldCount data).toNat (esbKeepaliveMotionCount data).toNat

def heldEntryOffset (index : UInt8) : ℕ :=
  esbKeepaliveHeldOffset + index.toNat * esbKeepaliveHeldBytes

def motionEntryOffset (heldCount index : UInt8) : ℕ :=
  esbKeepaliveMotionOffset heldCount.toNat + index.toNat * esbKeepaliveMotionBytes

def sensorEntryOffset (data : Bytes) (sensorIndex : UInt8) : ℕ :=
  sensorOffset data + sensorIndex.toNat * esbKeepaliveSensorBytes

def esbKeepaliveMatches (data : Bytes) (length : UInt8) : Bool :=
  if length.toNat < esbKeepaliveBaseLength then false
  else if byteAt data esbKeepaliveTagOffset ≠ esbKeepaliveTag then false
  else if length.toNat ≤ motionCountOffset data then false
  else if length.toNat < sensorOffset data then false
  else (length.toNat - sensorOffset data) % esbKeepaliveSensorBytes == 0

def esbKeepaliveHeldKeyAt (data : Bytes) (index : UInt8) : EsbKeepaliveHeldKey where
  reg := byteAt data (heldEntryOffset index)
  code := getLe16 data (heldEntryOffset index + 1)

def esbKeepaliveMotionTotalAt (data : Bytes) (index : UInt8) : EsbKeepaliveMotionTotal where
  reg := byteAt data (motionEntryOffset (esbKeepaliveHeldCount data) index)
  code := byteAt data (motionEntryOffset (esbKeepaliveHeldCount data) index + 1)
  shortTotal := (getLe16 data (motionEntryOffset (esbKeepaliveHeldCount data) index + 2)).toInt16

def esbKeepaliveSensorCount (data : Bytes) (length : UInt8) : UInt8 :=
  if length.toNat ≤ motionCountOffset data then 0
  else if length.toNat < sensorOffset data then 0
  else UInt8.ofNat ((length.toNat - sensorOffset data) / esbKeepaliveSensorBytes)

def esbKeepaliveSensorTotalUdeg (data : Bytes) (sensorIndex : UInt8) : Int64 :=
  (getLe64 data (sensorEntryOffset data sensorIndex)).toInt64

def esbKeepaliveState (data : Bytes) : UInt8 := byteAt data esbKeepaliveStateOffset

/-- Active only while searching. -/
def esbKeepalivePeripheralState (active searching : Bool) : UInt8 :=
  if active && searching then esbKeepaliveActive else esbKeepaliveIdle

def esbKeepaliveBitmap (data : Bytes) : PositionBitmap :=
  Vector.ofFn fun i => byteAt data (esbKeepaliveBitmapOffset + i.val)

def esbKeepaliveBatteryLevel (data : Bytes) : UInt8 := byteAt data esbKeepaliveBatteryOffset

def esbKeepaliveLinkCostX10 (data : Bytes) : UInt8 := byteAt data esbKeepaliveLinkCostOffset

/-- Everything the accessors read from a packet, indices bounded by the counts. -/
def EsbKeepaliveSnapshot.read (data : Bytes) (length : UInt8) : EsbKeepaliveSnapshot where
  state := esbKeepaliveState data
  linkCostX10 := esbKeepaliveLinkCostX10 data
  batteryLevel := esbKeepaliveBatteryLevel data
  positionBitmap := esbKeepaliveBitmap data
  heldKeys := (List.range (esbKeepaliveHeldCount data).toNat).map fun index =>
    esbKeepaliveHeldKeyAt data (UInt8.ofNat index)
  motionTotals := (List.range (esbKeepaliveMotionCount data).toNat).map fun index =>
    esbKeepaliveMotionTotalAt data (UInt8.ofNat index)
  sensorTotalsUdeg := (List.range (esbKeepaliveSensorCount data length).toNat).map fun index =>
    esbKeepaliveSensorTotalUdeg data (UInt8.ofNat index)
  heldCount_lt := by simpa using UInt8.toNat_lt _
  motionCount_lt := by simpa using UInt8.toNat_lt _
  sensorCount_lt := by simpa using UInt8.toNat_lt _

end SplitEsb
