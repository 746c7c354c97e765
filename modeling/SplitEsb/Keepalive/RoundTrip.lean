import SplitEsb.Keepalive.Codec

/-! # Keepalive round trip
The bytes the encoder leaves are one concatenation, the accessors read that
concatenation back, and every accepted packet is such a concatenation. -/

namespace SplitEsb

open ByteString

/-! ## The encoded bytes -/

@[simp] theorem heldKey_entry_length (key : EsbKeepaliveHeldKey) :
    key.entry.length = esbKeepaliveHeldBytes := by simp [EsbKeepaliveHeldKey.entry]; rfl

@[simp] theorem motionTotal_entry_length (total : EsbKeepaliveMotionTotal) :
    total.entry.length = esbKeepaliveMotionBytes := by simp [EsbKeepaliveMotionTotal.entry]; rfl

@[simp] theorem sensorEntry_length (total : Int64) :
    (sensorEntry total).length = esbKeepaliveSensorBytes := le64_length _

theorem positionBitmap_toList_length (bitmap : PositionBitmap) : bitmap.toList.length = 8 :=
  Vector.length_toList

namespace EsbKeepaliveSnapshot

variable (snapshot : EsbKeepaliveSnapshot)

def header : Bytes :=
  [esbKeepaliveTag, snapshot.state] ++ (snapshot.positionBitmap.toList ++
    [snapshot.batteryLevel, snapshot.linkCostX10])

def heldSection : Bytes :=
  UInt8.ofNat snapshot.heldKeys.length :: snapshot.heldKeys.flatMap EsbKeepaliveHeldKey.entry

def motionSection : Bytes :=
  UInt8.ofNat snapshot.motionTotals.length ::
    snapshot.motionTotals.flatMap EsbKeepaliveMotionTotal.entry

def sensorSection : Bytes := snapshot.sensorTotalsUdeg.flatMap sensorEntry

/-- The packet a snapshot stands for. -/
def encoding : Bytes :=
  snapshot.header ++ (snapshot.heldSection ++ (snapshot.motionSection ++ snapshot.sensorSection))

@[simp] theorem header_length : snapshot.header.length = 12 := by
  simp only [header, List.length_append, List.length_cons, List.length_nil,
    positionBitmap_toList_length]

@[simp] theorem heldSection_length :
    snapshot.heldSection.length = 1 + snapshot.heldKeys.length * 3 := by
  rw [heldSection, List.length_cons, flatMap_length heldKey_entry_length, add_comm]
  rfl

@[simp] theorem motionSection_length :
    snapshot.motionSection.length = 1 + snapshot.motionTotals.length * 4 := by
  rw [motionSection, List.length_cons, flatMap_length motionTotal_entry_length, add_comm]
  rfl

@[simp] theorem sensorSection_length :
    snapshot.sensorSection.length = snapshot.sensorTotalsUdeg.length * 8 :=
  flatMap_length sensorEntry_length _

theorem encodedLength_eq : snapshot.encodedLength =
    14 + snapshot.heldKeys.length * 3 + snapshot.motionTotals.length * 4 +
      snapshot.sensorTotalsUdeg.length * 8 := esbKeepaliveLength_eq _ _ _

theorem encoding_length : snapshot.encoding.length = snapshot.encodedLength := by
  rw [encodedLength_eq, encoding]
  simp only [List.length_append, header_length, heldSection_length, motionSection_length,
    sensorSection_length]
  omega

end EsbKeepaliveSnapshot

theorem encodeHeldKeys_writeAt {out bytes : Bytes} (hb : bytes.length = 12)
    (heldKeys : List EsbKeepaliveHeldKey) (h : 13 + heldKeys.length * 3 ≤ out.length) :
    encodeHeldKeys (writeAt out 0 bytes) heldKeys = writeAt out 0
      (bytes ++ (UInt8.ofNat heldKeys.length ::
        heldKeys.flatMap EsbKeepaliveHeldKey.entry)) := by
  have hcount : esbKeepaliveHeldCountOffset = 0 + bytes.length := by rw [hb]; rfl
  rw [encodeHeldKeys, writeAt_writeAt hcount (by omega),
    writeRecords_writeAt heldKey_entry_length (by rw [List.length_append, hb]; rfl)]
  · simp
  · simpa [esbKeepaliveHeldOffset, esbKeepaliveHeldBytes, esbKeepaliveHeldCountOffset,
      esbKeepaliveLinkCostOffset, esbKeepaliveBatteryOffset, esbKeepaliveBitmapOffset,
      esbKeepaliveBitmapBytes] using h

theorem encodeMotionTotals_writeAt {out bytes : Bytes} {held : ℕ}
    (hb : bytes.length = 13 + held * 3) (motionTotals : List EsbKeepaliveMotionTotal)
    (h : 14 + held * 3 + motionTotals.length * 4 ≤ out.length) :
    encodeMotionTotals (writeAt out 0 bytes) held motionTotals = writeAt out 0
      (bytes ++ (UInt8.ofNat motionTotals.length ::
        motionTotals.flatMap EsbKeepaliveMotionTotal.entry)) := by
  have hcount : esbKeepaliveMotionCountOffset held = 0 + bytes.length := by
    rw [hb, esbKeepaliveMotionCountOffset_eq]
    omega
  have hbase : esbKeepaliveMotionOffset held =
      0 + (bytes ++ [UInt8.ofNat motionTotals.length]).length := by
    rw [List.length_append, hb, esbKeepaliveMotionOffset_eq, List.length_singleton]
    omega
  rw [encodeMotionTotals, writeAt_writeAt hcount (by omega),
    writeRecords_writeAt motionTotal_entry_length hbase]
  · simp
  · rw [esbKeepaliveMotionOffset_eq]
    exact h

theorem header_writeAt {out : Bytes} (h : 12 ≤ out.length) (snapshot : EsbKeepaliveSnapshot) :
    writeAt (writeAt (writeAt (writeAt (writeAt out esbKeepaliveTagOffset [esbKeepaliveTag])
      esbKeepaliveStateOffset [snapshot.state])
      esbKeepaliveBitmapOffset snapshot.positionBitmap.toList)
      esbKeepaliveBatteryOffset [snapshot.batteryLevel])
      esbKeepaliveLinkCostOffset [snapshot.linkCostX10] = writeAt out 0 snapshot.header := by
  have hbitmap := positionBitmap_toList_length snapshot.positionBitmap
  -- each field starts where the previous one ended
  have hstate := @writeAt_writeAt out 0 1 [esbKeepaliveTag] [snapshot.state] rfl (by omega)
  have hbits := @writeAt_writeAt out 0 2 ([esbKeepaliveTag] ++ [snapshot.state])
    snapshot.positionBitmap.toList rfl (by omega)
  have hbattery := @writeAt_writeAt out 0 10
    ([esbKeepaliveTag] ++ [snapshot.state] ++ snapshot.positionBitmap.toList)
    [snapshot.batteryLevel] (by rw [List.length_append, hbitmap]; rfl) (by omega)
  have hcost := @writeAt_writeAt out 0 11
    ([esbKeepaliveTag] ++ [snapshot.state] ++ snapshot.positionBitmap.toList ++
      [snapshot.batteryLevel]) [snapshot.linkCostX10]
    (by rw [List.length_append, List.length_append, hbitmap]; rfl) (by omega)
  change writeAt (writeAt (writeAt (writeAt (writeAt out 0 _) 1 _) 2 _) 10 _) 11 _ = _
  rw [hstate, hbits, hbattery, hcost]
  simp [EsbKeepaliveSnapshot.header]

theorem esbKeepaliveEncode_short {out : Bytes} {snapshot : EsbKeepaliveSnapshot}
    (h : out.length < snapshot.encodedLength) : esbKeepaliveEncode out snapshot = (0, out) := by
  rw [esbKeepaliveEncode]
  exact if_pos h

/-- A large enough buffer receives exactly the encoding and keeps its tail. -/
theorem esbKeepaliveEncode_eq {out : Bytes} {snapshot : EsbKeepaliveSnapshot}
    (h : snapshot.encodedLength ≤ out.length) :
    esbKeepaliveEncode out snapshot =
      (snapshot.encodedLength, snapshot.encoding ++ out.drop snapshot.encodedLength) := by
  have hlen := snapshot.encodedLength_eq
  have hheld : (snapshot.header ++ snapshot.heldSection).length =
      13 + snapshot.heldKeys.length * 3 := by simp; omega
  have hmotion : esbKeepaliveSensorOffset snapshot.heldKeys.length snapshot.motionTotals.length =
      0 + (snapshot.header ++ snapshot.heldSection ++ snapshot.motionSection).length := by
    rw [esbKeepaliveSensorOffset_eq, List.length_append, hheld,
      EsbKeepaliveSnapshot.motionSection_length]
    omega
  have hsensors : snapshot.encodedLength = 14 + snapshot.heldKeys.length * 3 +
      snapshot.motionTotals.length * 4 + snapshot.sensorTotalsUdeg.length *
        esbKeepaliveSensorBytes := hlen
  have hencoding : snapshot.header ++ snapshot.heldSection ++ snapshot.motionSection ++
      snapshot.sensorSection = snapshot.encoding := by simp [EsbKeepaliveSnapshot.encoding]
  rw [esbKeepaliveEncode, if_neg (by omega)]
  dsimp only
  rw [header_writeAt (by omega), encodeHeldKeys_writeAt snapshot.header_length _ (by omega),
    ← EsbKeepaliveSnapshot.heldSection, encodeMotionTotals_writeAt hheld _ (by omega),
    ← EsbKeepaliveSnapshot.motionSection, writeRecords_writeAt sensorEntry_length hmotion _
      (by rw [esbKeepaliveSensorOffset_eq]; omega),
    ← EsbKeepaliveSnapshot.sensorSection, hencoding, writeAt_zero,
    EsbKeepaliveSnapshot.encoding_length]

/-! ## Reading an encoding back -/

section ReadBack

variable (snapshot : EsbKeepaliveSnapshot) (tail : Bytes)

theorem encoding_split :
    snapshot.encoding ++ tail = snapshot.header ++ (snapshot.heldSection ++
      (snapshot.motionSection ++ (snapshot.sensorSection ++ tail))) := by
  simp [EsbKeepaliveSnapshot.encoding]

theorem byteAt_header {offset : ℕ} (h : offset < 12) :
    byteAt (snapshot.encoding ++ tail) offset = byteAt snapshot.header offset := by
  rw [encoding_split, byteAt_prefix (by simpa using h)]

theorem esbKeepaliveTag_encoding :
    byteAt (snapshot.encoding ++ tail) esbKeepaliveTagOffset = esbKeepaliveTag := by
  rw [byteAt_header _ _ (by decide)]
  rfl

theorem esbKeepaliveState_encoding :
    esbKeepaliveState (snapshot.encoding ++ tail) = snapshot.state := by
  rw [esbKeepaliveState, byteAt_header _ _ (by decide)]
  rfl

theorem header_readBattery : byteAt snapshot.header esbKeepaliveBatteryOffset =
    snapshot.batteryLevel := by
  have hbitmap := positionBitmap_toList_length snapshot.positionBitmap
  rw [EsbKeepaliveSnapshot.header, ← List.append_assoc]
  exact byteAt_append_of_eq (by rw [List.length_append, hbitmap]; rfl)

theorem header_readLinkCost : byteAt snapshot.header esbKeepaliveLinkCostOffset =
    snapshot.linkCostX10 := by
  have hbitmap := positionBitmap_toList_length snapshot.positionBitmap
  have hsplit : snapshot.header = ([esbKeepaliveTag, snapshot.state] ++
      snapshot.positionBitmap.toList ++ [snapshot.batteryLevel]) ++ [snapshot.linkCostX10] := by
    simp [EsbKeepaliveSnapshot.header]
  rw [hsplit]
  exact byteAt_append_of_eq (by simp only [List.length_append, hbitmap]; rfl)

theorem header_readBitmap (i : Fin esbKeepaliveBitmapBytes) :
    byteAt snapshot.header (esbKeepaliveBitmapOffset + i.val) = snapshot.positionBitmap[i] := by
  have hi : i.val < snapshot.positionBitmap.toList.length := by
    rw [positionBitmap_toList_length]; exact i.isLt
  have hoffset : esbKeepaliveBitmapOffset = 2 := rfl
  rw [EsbKeepaliveSnapshot.header, byteAt, hoffset, add_comm]
  simp only [List.cons_append, List.nil_append, List.getD_cons_succ]
  rw [List.getD_eq_getElem?_getD, List.getElem?_append_left hi, List.getElem?_eq_getElem hi]
  simp

theorem esbKeepaliveBatteryLevel_encoding :
    esbKeepaliveBatteryLevel (snapshot.encoding ++ tail) = snapshot.batteryLevel := by
  rw [esbKeepaliveBatteryLevel, byteAt_header _ _ (by decide), header_readBattery]

theorem esbKeepaliveLinkCostX10_encoding :
    esbKeepaliveLinkCostX10 (snapshot.encoding ++ tail) = snapshot.linkCostX10 := by
  rw [esbKeepaliveLinkCostX10, byteAt_header _ _ (by decide), header_readLinkCost]

theorem esbKeepaliveBitmap_encoding :
    esbKeepaliveBitmap (snapshot.encoding ++ tail) = snapshot.positionBitmap := by
  refine Vector.ext fun i hi => ?_
  rw [esbKeepaliveBitmap, Vector.getElem_ofFn]
  have hlt : esbKeepaliveBitmapOffset + i < 12 := by
    have : i < 8 := hi
    have : esbKeepaliveBitmapOffset = 2 := rfl
    omega
  rw [byteAt_header _ _ hlt]
  exact header_readBitmap snapshot ⟨i, hi⟩

theorem esbKeepaliveHeldCount_encoding :
    (esbKeepaliveHeldCount (snapshot.encoding ++ tail)).toNat = snapshot.heldKeys.length := by
  have hcount : esbKeepaliveHeldCount (snapshot.encoding ++ tail) =
      UInt8.ofNat snapshot.heldKeys.length := by
    rw [encoding_split, EsbKeepaliveSnapshot.heldSection, List.cons_append]
    exact byteAt_append_of_eq snapshot.header_length.symm
  rw [hcount, UInt8.toNat_ofNat']
  exact Nat.mod_eq_of_lt snapshot.heldCount_lt

theorem motionCountOffset_encoding : motionCountOffset (snapshot.encoding ++ tail) =
    13 + snapshot.heldKeys.length * 3 := by
  rw [motionCountOffset, esbKeepaliveHeldCount_encoding, esbKeepaliveMotionCountOffset_eq]

theorem esbKeepaliveMotionCount_encoding :
    (esbKeepaliveMotionCount (snapshot.encoding ++ tail)).toNat =
      snapshot.motionTotals.length := by
  have hcount : esbKeepaliveMotionCount (snapshot.encoding ++ tail) =
      UInt8.ofNat snapshot.motionTotals.length := by
    rw [esbKeepaliveMotionCount, motionCountOffset_encoding, encoding_split, ← List.append_assoc,
      EsbKeepaliveSnapshot.motionSection, List.cons_append]
    refine byteAt_append_of_eq ?_
    rw [List.length_append, snapshot.header_length, snapshot.heldSection_length]
    omega
  rw [hcount, UInt8.toNat_ofNat']
  exact Nat.mod_eq_of_lt snapshot.motionCount_lt

theorem sensorOffset_encoding : sensorOffset (snapshot.encoding ++ tail) =
    14 + snapshot.heldKeys.length * 3 + snapshot.motionTotals.length * 4 := by
  rw [sensorOffset, esbKeepaliveHeldCount_encoding, esbKeepaliveMotionCount_encoding,
    esbKeepaliveSensorOffset_eq]

end ReadBack

/-! ## Entries -/

theorem heldKeyAt_of_readAt {data : Bytes} {index : UInt8} {key : EsbKeepaliveHeldKey}
    (h : readAt data (heldEntryOffset index) esbKeepaliveHeldBytes = key.entry) :
    esbKeepaliveHeldKeyAt data index = key := by
  obtain ⟨hreg, hcode⟩ := readAt_cons h
  rw [esbKeepaliveHeldKeyAt, hreg, getLe16_of_readAt hcode]

theorem motionTotalAt_of_readAt {data : Bytes} {index : UInt8} {total : EsbKeepaliveMotionTotal}
    (h : readAt data (motionEntryOffset (esbKeepaliveHeldCount data) index)
      esbKeepaliveMotionBytes = total.entry) :
    esbKeepaliveMotionTotalAt data index = total := by
  obtain ⟨hreg, hrest⟩ := readAt_cons h
  obtain ⟨hcode, htotal⟩ := readAt_cons hrest
  rw [esbKeepaliveMotionTotalAt, hreg, hcode, getLe16_of_readAt htotal]
  rfl

theorem sensorTotal_of_readAt {data : Bytes} {index : UInt8} {total : Int64}
    (h : readAt data (sensorEntryOffset data index) esbKeepaliveSensorBytes = sensorEntry total) :
    esbKeepaliveSensorTotalUdeg data index = total := by
  rw [esbKeepaliveSensorTotalUdeg, getLe64_of_readAt h]
  rfl

theorem heldKeyAt_entry {data : Bytes} {index : UInt8}
    (h : heldEntryOffset index + esbKeepaliveHeldBytes ≤ data.length) :
    (esbKeepaliveHeldKeyAt data index).entry =
      readAt data (heldEntryOffset index) esbKeepaliveHeldBytes := by
  have hw : esbKeepaliveHeldBytes = 1 + 2 := rfl
  rw [hw] at h ⊢
  rw [readAt_add, readAt_one (by omega), ← le16_getLe16 (by omega)]
  rfl

theorem motionTotalAt_entry {data : Bytes} {index : UInt8}
    (h : motionEntryOffset (esbKeepaliveHeldCount data) index + esbKeepaliveMotionBytes ≤
      data.length) :
    (esbKeepaliveMotionTotalAt data index).entry =
      readAt data (motionEntryOffset (esbKeepaliveHeldCount data) index)
        esbKeepaliveMotionBytes := by
  have hw : esbKeepaliveMotionBytes = 1 + (1 + 2) := rfl
  rw [hw] at h ⊢
  rw [readAt_add, readAt_add, readAt_one (by omega), readAt_one (by omega), add_assoc,
    ← le16_getLe16 (by omega)]
  rfl

theorem sensorTotal_entry {data : Bytes} {index : UInt8}
    (h : sensorEntryOffset data index + esbKeepaliveSensorBytes ≤ data.length) :
    sensorEntry (esbKeepaliveSensorTotalUdeg data index) =
      readAt data (sensorEntryOffset data index) esbKeepaliveSensorBytes :=
  le64_getLe64 h

section ReadEntries

variable (snapshot : EsbKeepaliveSnapshot) (tail : Bytes)

theorem heldKeyAt_encoding (i : ℕ) (hi : i < snapshot.heldKeys.length) :
    esbKeepaliveHeldKeyAt (snapshot.encoding ++ tail) (UInt8.ofNat i) = snapshot.heldKeys[i] := by
  have hindex : (UInt8.ofNat i).toNat = i := by
    rw [UInt8.toNat_ofNat']
    exact Nat.mod_eq_of_lt (by have := snapshot.heldCount_lt; omega)
  refine heldKeyAt_of_readAt ?_
  have hsplit : snapshot.encoding ++ tail =
      (snapshot.header ++ [UInt8.ofNat snapshot.heldKeys.length]) ++
        (snapshot.heldKeys.flatMap EsbKeepaliveHeldKey.entry ++
          (snapshot.motionSection ++ (snapshot.sensorSection ++ tail))) := by
    simp [encoding_split, EsbKeepaliveSnapshot.heldSection]
  have hfront : (snapshot.header ++ [UInt8.ofNat snapshot.heldKeys.length]).length =
      esbKeepaliveHeldOffset := by
    rw [List.length_append, snapshot.header_length]
    rfl
  rw [heldEntryOffset, hindex, hsplit, ← hfront]
  exact readAt_flatMap heldKey_entry_length _ _ _ i hi

theorem motionTotalAt_encoding (i : ℕ) (hi : i < snapshot.motionTotals.length) :
    esbKeepaliveMotionTotalAt (snapshot.encoding ++ tail) (UInt8.ofNat i) =
      snapshot.motionTotals[i] := by
  have hindex : (UInt8.ofNat i).toNat = i := by
    rw [UInt8.toNat_ofNat']
    exact Nat.mod_eq_of_lt (by have := snapshot.motionCount_lt; omega)
  refine motionTotalAt_of_readAt ?_
  have hsplit : snapshot.encoding ++ tail =
      (snapshot.header ++ snapshot.heldSection ++ [UInt8.ofNat snapshot.motionTotals.length]) ++
        (snapshot.motionTotals.flatMap EsbKeepaliveMotionTotal.entry ++
          (snapshot.sensorSection ++ tail)) := by
    simp [encoding_split, EsbKeepaliveSnapshot.motionSection]
  have hfront : (snapshot.header ++ snapshot.heldSection ++
      [UInt8.ofNat snapshot.motionTotals.length]).length =
      esbKeepaliveMotionOffset snapshot.heldKeys.length := by
    simp only [List.length_append, snapshot.header_length, snapshot.heldSection_length,
      esbKeepaliveMotionOffset_eq, List.length_singleton]
    omega
  rw [motionEntryOffset, hindex, esbKeepaliveHeldCount_encoding, hsplit, ← hfront]
  exact readAt_flatMap motionTotal_entry_length _ _ _ i hi

theorem sensorTotal_encoding (i : ℕ) (hi : i < snapshot.sensorTotalsUdeg.length) :
    esbKeepaliveSensorTotalUdeg (snapshot.encoding ++ tail) (UInt8.ofNat i) =
      snapshot.sensorTotalsUdeg[i] := by
  have hindex : (UInt8.ofNat i).toNat = i := by
    rw [UInt8.toNat_ofNat']
    exact Nat.mod_eq_of_lt (by have := snapshot.sensorCount_lt; omega)
  refine sensorTotal_of_readAt ?_
  have hsplit : snapshot.encoding ++ tail =
      (snapshot.header ++ snapshot.heldSection ++ snapshot.motionSection) ++
        (snapshot.sensorTotalsUdeg.flatMap sensorEntry ++ tail) := by
    simp [encoding_split, EsbKeepaliveSnapshot.sensorSection]
  have hfront : (snapshot.header ++ snapshot.heldSection ++ snapshot.motionSection).length =
      14 + snapshot.heldKeys.length * 3 + snapshot.motionTotals.length * 4 := by
    simp only [List.length_append, snapshot.header_length, snapshot.heldSection_length,
      snapshot.motionSection_length]
    omega
  rw [sensorEntryOffset, hindex, sensorOffset_encoding, hsplit, ← hfront]
  exact readAt_flatMap sensorEntry_length _ _ _ i hi

/-! ## The accepted length -/

variable {snapshot} (hfit : snapshot.encodedLength ≤ 255)
include hfit

theorem encodedLength_toNat :
    (UInt8.ofNat snapshot.encodedLength).toNat = snapshot.encodedLength := by
  rw [UInt8.toNat_ofNat']
  exact Nat.mod_eq_of_lt (by omega)

theorem esbKeepaliveMatches_encoding :
    esbKeepaliveMatches (snapshot.encoding ++ tail)
      (UInt8.ofNat snapshot.encodedLength) = true := by
  have hlen := snapshot.encodedLength_eq
  have hbase : ¬snapshot.encodedLength < esbKeepaliveBaseLength := by
    rw [esbKeepaliveBaseLength, esbKeepaliveLength_eq]
    omega
  rw [esbKeepaliveMatches, encodedLength_toNat hfit, if_neg hbase,
    if_neg (by simpa using esbKeepaliveTag_encoding snapshot tail), motionCountOffset_encoding,
    if_neg (by omega), sensorOffset_encoding, if_neg (by omega), hlen, Nat.add_sub_cancel_left]
  exact beq_iff_eq.mpr (Nat.mul_mod_left _ _)

theorem esbKeepaliveSensorCount_encoding :
    (esbKeepaliveSensorCount (snapshot.encoding ++ tail)
      (UInt8.ofNat snapshot.encodedLength)).toNat = snapshot.sensorTotalsUdeg.length := by
  have hlen := snapshot.encodedLength_eq
  rw [esbKeepaliveSensorCount, encodedLength_toNat hfit, motionCountOffset_encoding,
    if_neg (by omega), sensorOffset_encoding, if_neg (by omega), hlen, Nat.add_sub_cancel_left,
    esbKeepaliveSensorBytes, Nat.mul_div_left _ (by omega), UInt8.toNat_ofNat']
  exact Nat.mod_eq_of_lt snapshot.sensorCount_lt

/-- The accessors read every field of an encoded snapshot back. -/
theorem read_encoding :
    EsbKeepaliveSnapshot.read (snapshot.encoding ++ tail)
      (UInt8.ofNat snapshot.encodedLength) = snapshot := by
  ext1
  · exact esbKeepaliveState_encoding snapshot tail
  · exact esbKeepaliveLinkCostX10_encoding snapshot tail
  · exact esbKeepaliveBatteryLevel_encoding snapshot tail
  · exact esbKeepaliveBitmap_encoding snapshot tail
  · refine List.ext_getElem (by simp [EsbKeepaliveSnapshot.read, esbKeepaliveHeldCount_encoding])
      fun i _ hi => ?_
    simpa [EsbKeepaliveSnapshot.read] using heldKeyAt_encoding snapshot tail i hi
  · refine List.ext_getElem
      (by simp [EsbKeepaliveSnapshot.read, esbKeepaliveMotionCount_encoding]) fun i _ hi => ?_
    simpa [EsbKeepaliveSnapshot.read] using motionTotalAt_encoding snapshot tail i hi
  · refine List.ext_getElem
      (by simp [EsbKeepaliveSnapshot.read, esbKeepaliveSensorCount_encoding tail hfit])
      fun i _ hi => ?_
    simpa [EsbKeepaliveSnapshot.read] using sensorTotal_encoding snapshot tail i hi

end ReadEntries

/-! ## Accepted packets -/

/-- What acceptance says about a packet: the tag, and a length that is exactly
the layout of the counts the packet carries. -/
structure KeepaliveLayout (data : Bytes) : Prop where
  tag : byteAt data esbKeepaliveTagOffset = esbKeepaliveTag
  length_eq : data.length =
    14 + (esbKeepaliveHeldCount data).toNat * 3 + (esbKeepaliveMotionCount data).toNat * 4 +
      (esbKeepaliveSensorCount data (UInt8.ofNat data.length)).toNat * 8

theorem esbKeepaliveMatches_layout {data : Bytes} (hlen : data.length ≤ 255)
    (h : esbKeepaliveMatches data (UInt8.ofNat data.length) = true) : KeepaliveLayout data := by
  have hl : (UInt8.ofNat data.length).toNat = data.length := by
    rw [UInt8.toNat_ofNat']
    exact Nat.mod_eq_of_lt (by omega)
  rw [esbKeepaliveMatches, hl] at h
  split_ifs at h with hbase htag hcount hsensor
  have hoff : sensorOffset data = 14 + (esbKeepaliveHeldCount data).toNat * 3 +
      (esbKeepaliveMotionCount data).toNat * 4 := esbKeepaliveSensorOffset_eq _ _
  have hmod : (data.length - sensorOffset data) % 8 = 0 := beq_iff_eq.mp h
  refine ⟨not_not.mp htag, ?_⟩
  have hsensors : (esbKeepaliveSensorCount data (UInt8.ofNat data.length)).toNat =
      (data.length - sensorOffset data) / 8 := by
    rw [esbKeepaliveSensorCount, hl, if_neg hcount, if_neg hsensor, UInt8.toNat_ofNat']
    exact Nat.mod_eq_of_lt
      (lt_of_le_of_lt (Nat.div_le_self _ _) (by omega : data.length - sensorOffset data < 2 ^ 8))
  rw [hsensors]
  omega

/-- Every byte an accessor reads, at an index below its count, lies inside the length. -/
structure ReadsInside (data : Bytes) (length : ℕ) : Prop where
  header : esbKeepaliveHeldCountOffset < length
  motionCount : motionCountOffset data < length
  heldKey : ∀ index < esbKeepaliveHeldCount data,
    heldEntryOffset index + esbKeepaliveHeldBytes ≤ length
  motionTotal : ∀ index < esbKeepaliveMotionCount data,
    motionEntryOffset (esbKeepaliveHeldCount data) index + esbKeepaliveMotionBytes ≤ length
  sensorTotal : ∀ index < esbKeepaliveSensorCount data (UInt8.ofNat length),
    sensorEntryOffset data index + esbKeepaliveSensorBytes ≤ length

namespace KeepaliveLayout

variable {data : Bytes} (layout : KeepaliveLayout data)
include layout

theorem readsInside : ReadsInside data data.length := by
  have hlen := layout.length_eq
  refine ⟨?_, ?_, fun index hi => ?_, fun index hi => ?_, fun index hi => ?_⟩
  · have : esbKeepaliveHeldCountOffset = 12 := rfl
    omega
  · rw [motionCountOffset, esbKeepaliveMotionCountOffset_eq]
    omega
  · have hlt := UInt8.lt_iff_toNat_lt.mp hi
    change 13 + index.toNat * 3 + 3 ≤ _
    omega
  · have hlt := UInt8.lt_iff_toNat_lt.mp hi
    rw [motionEntryOffset, esbKeepaliveMotionOffset_eq]
    change 14 + (esbKeepaliveHeldCount data).toNat * 3 + index.toNat * 4 + 4 ≤ _
    omega
  · have hlt := UInt8.lt_iff_toNat_lt.mp hi
    rw [sensorEntryOffset, sensorOffset, esbKeepaliveSensorOffset_eq]
    change 14 + (esbKeepaliveHeldCount data).toNat * 3 +
      (esbKeepaliveMotionCount data).toNat * 4 + index.toNat * 8 + 8 ≤ _
    omega

theorem header_eq (length : UInt8) :
    (EsbKeepaliveSnapshot.read data length).header = readAt data 0 12 := by
  have hlen := layout.length_eq
  have hbitmap : (esbKeepaliveBitmap data).toList = readAt data 2 8 := by
    refine List.ext_getElem ?_ fun i hi _ => ?_
    · rw [positionBitmap_toList_length, readAt_length (by omega)]
    · rw [positionBitmap_toList_length] at hi
      have hget : 2 + i < data.length := by omega
      simp only [esbKeepaliveBitmap, Vector.getElem_toList, Vector.getElem_ofFn, readAt,
        List.getElem_take, List.getElem_drop]
      change byteAt data (2 + i) = _
      rw [byteAt, List.getD_eq_getElem?_getD, List.getElem?_eq_getElem hget]
      rfl
  have hsplit : readAt data 0 12 = readAt data 0 1 ++ (readAt data 1 1 ++ (readAt data 2 8 ++
      (readAt data 10 1 ++ readAt data 11 1))) := by
    rw [← readAt_add data 10 1 1, ← readAt_add data 2 8 2, ← readAt_add data 1 1 10,
      ← readAt_add data 0 1 11]
  rw [hsplit, readAt_one (by omega), readAt_one (by omega), readAt_one (by omega),
    readAt_one (by omega), ← hbitmap]
  change _ = [byteAt data esbKeepaliveTagOffset] ++ _
  rw [layout.tag]
  rfl

theorem heldSection_eq (length : UInt8) :
    (EsbKeepaliveSnapshot.read data length).heldSection =
      readAt data 12 (1 + (esbKeepaliveHeldCount data).toNat * 3) := by
  have hinside := layout.readsInside
  have hlen := layout.length_eq
  have hcount : (EsbKeepaliveSnapshot.read data length).heldKeys.length =
      (esbKeepaliveHeldCount data).toNat := by simp [EsbKeepaliveSnapshot.read]
  rw [readAt_add, readAt_one (by omega), readAt_records, EsbKeepaliveSnapshot.heldSection, hcount,
    UInt8.ofNat_toNat, EsbKeepaliveSnapshot.read, List.flatMap_map]
  refine congrArg (esbKeepaliveHeldCount data :: ·) (List.flatMap_congr fun i hi => ?_)
  have hi' := List.mem_range.mp hi
  have hindex : (UInt8.ofNat i).toNat = i := by
    rw [UInt8.toNat_ofNat']
    exact Nat.mod_eq_of_lt (by have := (esbKeepaliveHeldCount data).toNat_lt; omega)
  rw [heldKeyAt_entry (hinside.heldKey _ (UInt8.lt_iff_toNat_lt.mpr (by omega))),
    heldEntryOffset, hindex]
  rfl

theorem motionSection_eq (length : UInt8) :
    (EsbKeepaliveSnapshot.read data length).motionSection =
      readAt data (motionCountOffset data) (1 + (esbKeepaliveMotionCount data).toNat * 4) := by
  have hinside := layout.readsInside
  have hcount : (EsbKeepaliveSnapshot.read data length).motionTotals.length =
      (esbKeepaliveMotionCount data).toNat := by simp [EsbKeepaliveSnapshot.read]
  rw [readAt_add, readAt_one hinside.motionCount, readAt_records,
    EsbKeepaliveSnapshot.motionSection, hcount, UInt8.ofNat_toNat, EsbKeepaliveSnapshot.read,
    List.flatMap_map]
  refine congrArg (esbKeepaliveMotionCount data :: ·) (List.flatMap_congr fun i hi => ?_)
  have hi' := List.mem_range.mp hi
  have hindex : (UInt8.ofNat i).toNat = i := by
    rw [UInt8.toNat_ofNat']
    exact Nat.mod_eq_of_lt (by have := (esbKeepaliveMotionCount data).toNat_lt; omega)
  rw [motionTotalAt_entry (hinside.motionTotal _ (UInt8.lt_iff_toNat_lt.mpr (by omega))),
    motionEntryOffset, hindex]
  rfl

theorem sensorSection_eq :
    (EsbKeepaliveSnapshot.read data (UInt8.ofNat data.length)).sensorSection =
      readAt data (sensorOffset data)
        ((esbKeepaliveSensorCount data (UInt8.ofNat data.length)).toNat * 8) := by
  have hinside := layout.readsInside
  rw [readAt_records, EsbKeepaliveSnapshot.sensorSection, EsbKeepaliveSnapshot.read,
    List.flatMap_map]
  refine List.flatMap_congr fun i hi => ?_
  have hi' := List.mem_range.mp hi
  have hindex : (UInt8.ofNat i).toNat = i := by
    rw [UInt8.toNat_ofNat']
    exact Nat.mod_eq_of_lt
      (by have := (esbKeepaliveSensorCount data (UInt8.ofNat data.length)).toNat_lt; omega)
  rw [sensorTotal_entry (hinside.sensorTotal _ (UInt8.lt_iff_toNat_lt.mpr (by omega))),
    sensorEntryOffset, hindex]
  rfl

/-- An accepted packet is the encoding of the snapshot read from it. -/
theorem encoding_read :
    (EsbKeepaliveSnapshot.read data (UInt8.ofNat data.length)).encoding = data := by
  have hlen := layout.length_eq
  have hmotion : motionCountOffset data = 12 + (1 + (esbKeepaliveHeldCount data).toNat * 3) := by
    rw [motionCountOffset, esbKeepaliveMotionCountOffset_eq]
    omega
  have hsensor : sensorOffset data = motionCountOffset data +
      (1 + (esbKeepaliveMotionCount data).toNat * 4) := by
    rw [hmotion, sensorOffset, esbKeepaliveSensorOffset_eq]
    omega
  have htotal : data.length = 12 + ((1 + (esbKeepaliveHeldCount data).toNat * 3) +
      ((1 + (esbKeepaliveMotionCount data).toNat * 4) +
        (esbKeepaliveSensorCount data (UInt8.ofNat data.length)).toNat * 8)) := by omega
  rw [EsbKeepaliveSnapshot.encoding, layout.header_eq, layout.heldSection_eq,
    layout.motionSection_eq, layout.sensorSection_eq, hsensor, ← readAt_add, hmotion, ← readAt_add]
  have hzero : (12 : ℕ) = 0 + 12 := rfl
  nth_rewrite 2 [hzero]
  rw [← readAt_add, ← htotal, readAt_zero_length]

end KeepaliveLayout

/-! ## Exactness -/

/-- Encoding and reading are inverse on every snapshot that fits a packet and on
every accepted packet; a short buffer is left alone. -/
theorem esbKeepalive_codec_exact :
    (∀ (snapshot : EsbKeepaliveSnapshot) (out : Bytes),
      snapshot.encodedLength ≤ 255 → snapshot.encodedLength ≤ out.length →
      ∃ packet, esbKeepaliveEncode out snapshot = (snapshot.encodedLength, packet) ∧
        esbKeepaliveMatches packet (UInt8.ofNat snapshot.encodedLength) = true ∧
        EsbKeepaliveSnapshot.read packet (UInt8.ofNat snapshot.encodedLength) = snapshot ∧
        (esbKeepaliveHeldCount packet).toNat = snapshot.heldKeys.length ∧
        (esbKeepaliveMotionCount packet).toNat = snapshot.motionTotals.length ∧
        (esbKeepaliveSensorCount packet (UInt8.ofNat snapshot.encodedLength)).toNat =
          snapshot.sensorTotalsUdeg.length) ∧
    (∀ data : Bytes, data.length ≤ 255 →
      esbKeepaliveMatches data (UInt8.ofNat data.length) = true →
      (∀ out : Bytes, out.length = data.length →
        esbKeepaliveEncode out (EsbKeepaliveSnapshot.read data (UInt8.ofNat data.length)) =
          (data.length, data)) ∧
      ReadsInside data data.length ∧
      ∀ tail : Bytes, EsbKeepaliveSnapshot.read (data ++ tail) (UInt8.ofNat data.length) =
        EsbKeepaliveSnapshot.read data (UInt8.ofNat data.length)) ∧
    (∀ (snapshot : EsbKeepaliveSnapshot) (out : Bytes),
      out.length < snapshot.encodedLength → esbKeepaliveEncode out snapshot = (0, out)) := by
  refine ⟨fun snapshot out hfit hout => ?_, fun data hlen hmatch => ?_,
    fun snapshot out h => esbKeepaliveEncode_short h⟩
  · exact ⟨_, esbKeepaliveEncode_eq hout, esbKeepaliveMatches_encoding _ hfit,
      read_encoding _ hfit, esbKeepaliveHeldCount_encoding _ _,
      esbKeepaliveMotionCount_encoding _ _, esbKeepaliveSensorCount_encoding _ hfit⟩
  · have layout := esbKeepaliveMatches_layout hlen hmatch
    have hencoding := layout.encoding_read
    have hlength : (EsbKeepaliveSnapshot.read data (UInt8.ofNat data.length)).encodedLength =
        data.length := by
      rw [← EsbKeepaliveSnapshot.encoding_length, hencoding]
    refine ⟨fun out hout => ?_, layout.readsInside, fun tail => ?_⟩
    · rw [esbKeepaliveEncode_eq (by omega), hlength, hencoding,
        List.drop_eq_nil_of_le (by omega), List.append_nil]
    · have hread := read_encoding tail (hlength.trans_le hlen)
      rwa [hencoding, hlength] at hread

/-- One entry of each kind, with negative totals. -/
def sampleSnapshot : EsbKeepaliveSnapshot where
  state := esbKeepaliveIdle
  linkCostX10 := 10
  batteryLevel := 87
  positionBitmap := #v[1, 0, 0, 0, 0, 0, 0, 128]
  heldKeys := [⟨2, 0x110⟩]
  motionTotals := [⟨2, 0, -5⟩]
  sensorTotalsUdeg := [-15000000]
  heldCount_lt := by decide
  motionCount_lt := by decide
  sensorCount_lt := by decide

theorem esbKeepalive_codec_exact_sample :
    (∃ packet, esbKeepaliveEncode (List.replicate 40 0) sampleSnapshot = (29, packet) ∧
      EsbKeepaliveSnapshot.read packet 29 = sampleSnapshot) ∧
    ReadsInside sampleSnapshot.encoding 29 ∧
    esbKeepaliveEncode (List.replicate 28 0) sampleSnapshot = (0, List.replicate 28 0) := by
  obtain ⟨hwrite, haccept, hshort⟩ := esbKeepalive_codec_exact
  refine ⟨?_, ?_, hshort sampleSnapshot _ (by decide)⟩
  · obtain ⟨packet, hpacket, -, hread, -⟩ :=
      hwrite sampleSnapshot (List.replicate 40 0) (by decide) (by decide)
    exact ⟨packet, hpacket, hread⟩
  · exact (haccept sampleSnapshot.encoding (by decide) (by decide)).2.1

end SplitEsb
