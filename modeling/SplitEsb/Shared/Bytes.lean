import Mathlib.Data.List.Basic
import Mathlib.Tactic.Ring

/-! # Byte strings
Little-endian integers of any width, reads and writes at an offset, and runs of
fixed-width records laid out one after another. -/

namespace ByteString

abbrev Bytes := List UInt8

/-! ## Little-endian integers -/

def leBytes : ℕ → ℕ → Bytes
  | 0, _ => []
  | n + 1, v => UInt8.ofNat v :: leBytes n (v / 256)

def ofLeBytes : Bytes → ℕ
  | [] => 0
  | b :: bs => b.toNat + 256 * ofLeBytes bs

@[simp] theorem leBytes_length (n v : ℕ) : (leBytes n v).length = n := by
  induction n generalizing v with
  | zero => rfl
  | succ n ih => simp [leBytes, ih]

theorem ofLeBytes_leBytes (n v : ℕ) : ofLeBytes (leBytes n v) = v % 256 ^ n := by
  induction n generalizing v with
  | zero => simp [leBytes, ofLeBytes, Nat.mod_one]
  | succ n ih =>
      have hmod : v % 256 ^ (n + 1) = v % 256 + 256 * (v / 256 % 256 ^ n) := by
        rw [pow_succ', Nat.mod_mul]
      rw [leBytes, ofLeBytes, ih, UInt8.toNat_ofNat', hmod]

theorem ofLeBytes_lt (bs : Bytes) : ofLeBytes bs < 256 ^ bs.length := by
  induction bs with
  | nil => simp [ofLeBytes]
  | cons b bs ih =>
      have hb := b.toNat_lt
      rw [ofLeBytes, List.length_cons, pow_succ]
      omega

theorem leBytes_ofLeBytes (bs : Bytes) : leBytes bs.length (ofLeBytes bs) = bs := by
  induction bs with
  | nil => rfl
  | cons b bs ih =>
      have hb := b.toNat_lt
      have hq : (b.toNat + 256 * ofLeBytes bs) / 256 = ofLeBytes bs := by omega
      have hr : UInt8.ofNat (b.toNat + 256 * ofLeBytes bs) = b := by
        apply UInt8.toNat_inj.mp
        rw [UInt8.toNat_ofNat']
        omega
      rw [ofLeBytes, List.length_cons, leBytes, hq, hr, ih]

/-! ## Reads at an offset -/

def byteAt (data : Bytes) (offset : ℕ) : UInt8 := data.getD offset 0

def readAt (data : Bytes) (offset width : ℕ) : Bytes := (data.drop offset).take width

theorem readAt_length {data : Bytes} {offset width : ℕ} (h : offset + width ≤ data.length) :
    (readAt data offset width).length = width := by
  simp only [readAt, List.length_take, List.length_drop]
  omega

theorem readAt_add (data : Bytes) (offset m n : ℕ) :
    readAt data offset (m + n) = readAt data offset m ++ readAt data (offset + m) n := by
  rw [readAt, List.take_add, List.drop_drop]
  rfl

theorem readAt_zero_length (data : Bytes) : readAt data 0 data.length = data := by
  simp [readAt]

theorem readAt_one {data : Bytes} {offset : ℕ} (h : offset < data.length) :
    readAt data offset 1 = [byteAt data offset] := by
  rw [readAt, List.drop_eq_getElem_cons h, byteAt, List.getD_eq_getElem?_getD,
    List.getElem?_eq_getElem h]
  rfl

/-- A nonempty read is the byte at the offset and the read after it. -/
theorem readAt_cons {data rest : Bytes} {offset width : ℕ} {b : UInt8}
    (h : readAt data offset (width + 1) = b :: rest) :
    byteAt data offset = b ∧ readAt data (offset + 1) width = rest := by
  have hlt : offset < data.length := by
    by_contra hle
    rw [readAt, List.drop_eq_nil_of_le (by omega)] at h
    simp at h
  have hsplit : readAt data offset (width + 1) =
      [byteAt data offset] ++ readAt data (offset + 1) width := by
    rw [add_comm width, readAt_add, readAt_one hlt]
  rw [hsplit] at h
  exact List.cons.inj h

theorem readAt_append (front bytes back : Bytes) :
    readAt (front ++ (bytes ++ back)) front.length bytes.length = bytes := by
  simp [readAt]

theorem readAt_append_of_eq {front bytes back : Bytes} {offset width : ℕ}
    (ho : offset = front.length) (hw : width = bytes.length) :
    readAt (front ++ (bytes ++ back)) offset width = bytes := by
  subst ho hw
  exact readAt_append front bytes back

theorem byteAt_append_of_eq {front back : Bytes} {offset : ℕ} {b : UInt8}
    (ho : offset = front.length) : byteAt (front ++ (b :: back)) offset = b := by
  subst ho
  simp [byteAt]

/-- A read that ends inside the prefix does not see what follows it. -/
theorem readAt_prefix {data tail : Bytes} {offset width : ℕ} (h : offset + width ≤ data.length) :
    readAt (data ++ tail) offset width = readAt data offset width := by
  rw [readAt, List.drop_append_of_le_length (by omega),
    List.take_append_of_le_length (by rw [List.length_drop]; omega)]
  rfl

theorem byteAt_prefix {data tail : Bytes} {offset : ℕ} (h : offset < data.length) :
    byteAt (data ++ tail) offset = byteAt data offset := by
  simp only [byteAt, List.getD_eq_getElem?_getD]
  rw [List.getElem?_append_left h]

/-! ## Fixed-width integers -/

def le16 (value : UInt16) : Bytes := leBytes 2 value.toNat

def le32 (value : UInt32) : Bytes := leBytes 4 value.toNat

def le64 (value : UInt64) : Bytes := leBytes 8 value.toNat

def getLe16 (data : Bytes) (offset : ℕ) : UInt16 := UInt16.ofNat (ofLeBytes (readAt data offset 2))

def getLe32 (data : Bytes) (offset : ℕ) : UInt32 := UInt32.ofNat (ofLeBytes (readAt data offset 4))

def getLe64 (data : Bytes) (offset : ℕ) : UInt64 := UInt64.ofNat (ofLeBytes (readAt data offset 8))

@[simp] theorem le16_length (value : UInt16) : (le16 value).length = 2 := leBytes_length 2 _

@[simp] theorem le32_length (value : UInt32) : (le32 value).length = 4 := leBytes_length 4 _

@[simp] theorem le64_length (value : UInt64) : (le64 value).length = 8 := leBytes_length 8 _

theorem getLe16_of_readAt {data : Bytes} {offset : ℕ} {value : UInt16}
    (h : readAt data offset 2 = le16 value) : getLe16 data offset = value := by
  have hv := value.toNat_lt
  rw [getLe16, h, le16, ofLeBytes_leBytes, Nat.mod_eq_of_lt (by omega), UInt16.ofNat_toNat]

theorem getLe32_of_readAt {data : Bytes} {offset : ℕ} {value : UInt32}
    (h : readAt data offset 4 = le32 value) : getLe32 data offset = value := by
  have hv := value.toNat_lt
  rw [getLe32, h, le32, ofLeBytes_leBytes, Nat.mod_eq_of_lt (by omega), UInt32.ofNat_toNat]

theorem getLe64_of_readAt {data : Bytes} {offset : ℕ} {value : UInt64}
    (h : readAt data offset 8 = le64 value) : getLe64 data offset = value := by
  have hv := value.toNat_lt
  rw [getLe64, h, le64, ofLeBytes_leBytes, Nat.mod_eq_of_lt (by omega), UInt64.ofNat_toNat]

theorem le16_getLe16 {data : Bytes} {offset : ℕ} (h : offset + 2 ≤ data.length) :
    le16 (getLe16 data offset) = readAt data offset 2 := by
  have hlen := readAt_length h
  have hlt := ofLeBytes_lt (readAt data offset 2)
  rw [hlen] at hlt
  rw [le16, getLe16, UInt16.toNat_ofNat', Nat.mod_eq_of_lt (by omega)]
  simpa only [hlen] using leBytes_ofLeBytes (readAt data offset 2)

theorem le32_getLe32 {data : Bytes} {offset : ℕ} (h : offset + 4 ≤ data.length) :
    le32 (getLe32 data offset) = readAt data offset 4 := by
  have hlen := readAt_length h
  have hlt := ofLeBytes_lt (readAt data offset 4)
  rw [hlen] at hlt
  rw [le32, getLe32, UInt32.toNat_ofNat', Nat.mod_eq_of_lt (by omega)]
  simpa only [hlen] using leBytes_ofLeBytes (readAt data offset 4)

theorem le64_getLe64 {data : Bytes} {offset : ℕ} (h : offset + 8 ≤ data.length) :
    le64 (getLe64 data offset) = readAt data offset 8 := by
  have hlen := readAt_length h
  have hlt := ofLeBytes_lt (readAt data offset 8)
  rw [hlen] at hlt
  rw [le64, getLe64, UInt64.toNat_ofNat', Nat.mod_eq_of_lt (by omega)]
  simpa only [hlen] using leBytes_ofLeBytes (readAt data offset 8)

/-! ## Writes at an offset -/

def writeAt (out : Bytes) (offset : ℕ) (bytes : Bytes) : Bytes :=
  out.take offset ++ bytes ++ out.drop (offset + bytes.length)

theorem writeAt_length {out : Bytes} {offset : ℕ} {bytes : Bytes}
    (h : offset + bytes.length ≤ out.length) : (writeAt out offset bytes).length = out.length := by
  simp only [writeAt, List.length_append, List.length_take, List.length_drop]
  omega

/-- Two writes that touch end to end are one write of both byte strings. -/
theorem writeAt_writeAt {out : Bytes} {offset next : ℕ} {bytes more : Bytes}
    (hn : next = offset + bytes.length) (h : next ≤ out.length) :
    writeAt (writeAt out offset bytes) next more = writeAt out offset (bytes ++ more) := by
  have hf : (out.take offset ++ bytes).length = next := by
    simp only [List.length_append, List.length_take]
    omega
  have hd : (writeAt out offset bytes).drop (next + more.length) =
      out.drop (offset + (bytes ++ more).length) := by
    rw [writeAt, List.drop_append, hf, List.drop_eq_nil_of_le (by omega), List.nil_append,
      List.drop_drop, List.length_append]
    congr 1
    omega
  have ht : (writeAt out offset bytes).take next = out.take offset ++ bytes := by
    rw [writeAt, List.take_append_of_le_length (by omega), List.take_of_length_le (by omega)]
  rw [writeAt, ht, hd, writeAt, List.append_assoc (out.take offset)]

theorem writeAt_zero (out bytes : Bytes) :
    writeAt out 0 bytes = bytes ++ out.drop bytes.length := by
  simp [writeAt]

/-! ## Runs of fixed-width records -/

section Records

variable {α : Type*} (encode : α → Bytes) (width : ℕ)

/-- Writes record `i` of the list at `base + i * width`, counting `i` from `start`. -/
def writeRecords (base : ℕ) : Bytes → ℕ → List α → Bytes
  | out, _, [] => out
  | out, start, x :: xs => writeRecords base (writeAt out (base + start * width) (encode x))
      (start + 1) xs

variable {encode width}

theorem writeRecords_from (hw : ∀ x, (encode x).length = width) {out : Bytes} {base start : ℕ}
    (done : Bytes) (hd : done.length = start * width) (xs : List α)
    (h : base + (start + xs.length) * width ≤ out.length) :
    writeRecords encode width base (writeAt out base done) start xs =
      writeAt out base (done ++ xs.flatMap encode) := by
  induction xs generalizing start done with
  | nil => simp [writeRecords]
  | cons x xs ih =>
      have hstep : (start + (xs.length + 1)) * width = (start + 1 + xs.length) * width := by ring
      have hle : start * width ≤ (start + (xs.length + 1)) * width :=
        Nat.mul_le_mul_right _ (by omega)
      rw [List.length_cons] at h
      rw [writeRecords, writeAt_writeAt (by omega) (by omega),
        ih (done ++ encode x) (by rw [List.length_append, hd, hw]; ring) (by omega),
        List.append_assoc, List.flatMap_cons]

/-- The record loop is one write of the concatenated records. -/
theorem writeRecords_eq (hw : ∀ x, (encode x).length = width) {out : Bytes} {base : ℕ}
    (xs : List α) (h : base + xs.length * width ≤ out.length) :
    writeRecords encode width base out 0 xs = writeAt out base (xs.flatMap encode) := by
  have hnil : writeAt out base [] = out := by simp [writeAt]
  have hrun : writeRecords encode width base (writeAt out base []) 0 xs =
      writeAt out base ([] ++ xs.flatMap encode) :=
    writeRecords_from hw [] (by simp) xs (by simpa using h)
  rwa [hnil, List.nil_append] at hrun

/-- A record loop right after a write extends that write. -/
theorem writeRecords_writeAt (hw : ∀ x, (encode x).length = width) {out : Bytes}
    {offset next : ℕ} {bytes : Bytes} (hn : next = offset + bytes.length) (xs : List α)
    (h : next + xs.length * width ≤ out.length) :
    writeRecords encode width next (writeAt out offset bytes) 0 xs =
      writeAt out offset (bytes ++ xs.flatMap encode) := by
  have hlen : (writeAt out offset bytes).length = out.length := writeAt_length (by omega)
  rw [writeRecords_eq hw xs (by omega), writeAt_writeAt hn (by omega)]

theorem flatMap_length (hw : ∀ x, (encode x).length = width) (xs : List α) :
    (xs.flatMap encode).length = xs.length * width := by
  induction xs with
  | nil => simp
  | cons x xs ih => rw [List.flatMap_cons, List.length_append, hw, ih, List.length_cons]; ring

/-- Entry `i` of a record run reads back as record `i`, whatever follows the run. -/
theorem readAt_flatMap (hw : ∀ x, (encode x).length = width) (front back : Bytes) (xs : List α)
    (i : ℕ) (hi : i < xs.length) :
    readAt (front ++ (xs.flatMap encode ++ back)) (front.length + i * width) width =
      encode xs[i] := by
  have hsplit : xs.flatMap encode =
      (xs.take i).flatMap encode ++ (encode xs[i] ++ (xs.drop (i + 1)).flatMap encode) := by
    rw [← List.flatMap_cons, ← List.drop_eq_getElem_cons hi, ← List.flatMap_append,
      List.take_append_drop]
  rw [hsplit, List.append_assoc, List.append_assoc, ← List.append_assoc front]
  refine readAt_append_of_eq ?_ (hw _).symm
  rw [List.length_append, flatMap_length hw, List.length_take, Nat.min_eq_left (by omega)]

theorem readAt_records (data : Bytes) (base count : ℕ) :
    readAt data base (count * width) =
      (List.range count).flatMap (fun i => readAt data (base + i * width) width) := by
  induction count with
  | zero => simp [readAt]
  | succ count ih =>
      rw [Nat.succ_mul, readAt_add, ih, List.range_succ, List.flatMap_append]
      simp

end Records

end ByteString
