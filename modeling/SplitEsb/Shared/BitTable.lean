import Mathlib.Data.List.Basic
import Mathlib.Tactic.Ring

/-! # Bit tables
A vector of bytes read and written one bit at a time. Position `p` lives in byte
`p / 8` under the mask `1 << (p % 8)`; positions past the end read false and
writes to them are dropped. -/

namespace BitTable

/-! ## One byte -/

def bitMask (i : ℕ) : UInt8 := UInt8.ofNat (1 <<< i)

def readBit (byte : UInt8) (i : ℕ) : Bool := byte &&& bitMask i != 0

def writeBit (byte : UInt8) (i : ℕ) (value : Bool) : UInt8 :=
  if value then byte ||| bitMask i else byte &&& ~~~bitMask i

theorem bitMask_getLsbD {i j : ℕ} (hj : j < 8) :
    (bitMask i).toBitVec.getLsbD j = decide (i = j) := by
  change (BitVec.ofNat 8 (1 <<< i)).getLsbD j = _
  rw [BitVec.getLsbD_ofNat, Nat.one_shiftLeft, Nat.testBit_two_pow]
  simp [hj]

theorem readBit_eq_getLsbD {i : ℕ} (hi : i < 8) (byte : UInt8) :
    readBit byte i = byte.toBitVec.getLsbD i := by
  have hbit : ∀ j < 8, (byte &&& bitMask i).toBitVec.getLsbD j =
      (byte.toBitVec.getLsbD j && decide (i = j)) := by
    intro j hj
    rw [UInt8.toBitVec_and, BitVec.getLsbD_and, bitMask_getLsbD hj]
  cases hb : byte.toBitVec.getLsbD i with
  | true =>
      refine bne_iff_ne.mpr fun h => ?_
      have := hbit i hi
      rw [h] at this
      simp [hb] at this
  | false =>
      refine bne_eq_false_iff_eq.mpr (UInt8.toBitVec_inj.mp (BitVec.eq_of_getLsbD_eq ?_))
      intro j hj
      rw [hbit j hj]
      by_cases h : i = j
      · subst h; simp [hb]
      · simp [h]

theorem readBit_writeBit {i j : ℕ} (hj : j < 8) (byte : UInt8) (value : Bool) :
    readBit (writeBit byte i value) j = if i = j then value else readBit byte j := by
  rw [readBit_eq_getLsbD hj, readBit_eq_getLsbD hj]
  cases value with
  | true =>
      change (byte ||| bitMask i).toBitVec.getLsbD j = _
      rw [UInt8.toBitVec_or, BitVec.getLsbD_or, bitMask_getLsbD hj]
      by_cases h : i = j <;> simp [h]
  | false =>
      change (byte &&& ~~~bitMask i).toBitVec.getLsbD j = _
      rw [UInt8.toBitVec_and, UInt8.toBitVec_not, BitVec.getLsbD_and, BitVec.getLsbD_not,
        bitMask_getLsbD hj]
      by_cases h : i = j <;> simp [h, hj]

theorem byte_ext {a b : UInt8} (h : ∀ i < 8, readBit a i = readBit b i) : a = b := by
  refine UInt8.toBitVec_inj.mp (BitVec.eq_of_getLsbD_eq fun i hi => ?_)
  rw [← readBit_eq_getLsbD hi, ← readBit_eq_getLsbD hi, h i hi]

/-! ## A table of bytes -/

section Table

variable {n : ℕ}

def getBit (table : Vector UInt8 n) (position : ℕ) : Bool :=
  if h : position / 8 < n then readBit table[position / 8] (position % 8) else false

def setBit (table : Vector UInt8 n) (position : ℕ) (value : Bool) : Vector UInt8 n :=
  if h : position / 8 < n then
    table.set (position / 8) (writeBit table[position / 8] (position % 8) value) h
  else table

theorem getBit_of_le {table : Vector UInt8 n} {position : ℕ} (h : n * 8 ≤ position) :
    getBit table position = false := dif_neg (by omega)

theorem setBit_of_le {table : Vector UInt8 n} {position : ℕ} (h : n * 8 ≤ position)
    (value : Bool) : setBit table position value = table := dif_neg (by omega)

theorem getBit_setBit {table : Vector UInt8 n} {position : ℕ} (hp : position < n * 8)
    (value : Bool) (q : ℕ) :
    getBit (setBit table position value) q = if q = position then value else getBit table q := by
  by_cases hq : q < n * 8
  · have hp' : position / 8 < n := by omega
    have hq' : q / 8 < n := by omega
    rw [getBit, dif_pos hq', getBit, dif_pos hq', setBit, dif_pos hp']
    rw [Vector.getElem_set]
    by_cases hbyte : position / 8 = q / 8
    · have hsame : q = position ↔ position % 8 = q % 8 := by omega
      simp only [hbyte, if_true, readBit_writeBit (Nat.mod_lt q (by omega)), hsame]
    · have hne : q ≠ position := by omega
      rw [if_neg hbyte, if_neg hne]
  · have hne : q ≠ position := by omega
    rw [getBit_of_le (by omega), getBit_of_le (by omega), if_neg hne]

theorem getBit_setBit_self {table : Vector UInt8 n} {position : ℕ} (hp : position < n * 8)
    (value : Bool) : getBit (setBit table position value) position = value := by
  rw [getBit_setBit hp, if_pos rfl]

theorem getBit_setBit_ne {table : Vector UInt8 n} {position q : ℕ} (hne : q ≠ position)
    (value : Bool) : getBit (setBit table position value) q = getBit table q := by
  by_cases hp : position < n * 8
  · rw [getBit_setBit hp, if_neg hne]
  · rw [setBit_of_le (by omega)]

/-- A table is the bits it holds. -/
theorem table_ext {a b : Vector UInt8 n}
    (h : ∀ position < n * 8, getBit a position = getBit b position) : a = b := by
  refine Vector.ext fun i hi => byte_ext fun j hj => ?_
  have hp : i * 8 + j < n * 8 := by omega
  have hdiv : (i * 8 + j) / 8 = i := by omega
  have hmod : (i * 8 + j) % 8 = j := by omega
  have hi' : (i * 8 + j) / 8 < n := by omega
  have hbit := h (i * 8 + j) hp
  rw [getBit, dif_pos hi', getBit, dif_pos hi'] at hbit
  simpa only [hdiv, hmod] using hbit

theorem table_ext_iff {a b : Vector UInt8 n} :
    a = b ↔ ∀ position, getBit a position = getBit b position :=
  ⟨fun h _ => by rw [h], fun h => table_ext fun position _ => h position⟩

theorem setBit_setBit (table : Vector UInt8 n) (position : ℕ) (first second : Bool) :
    setBit (setBit table position first) position second = setBit table position second := by
  refine table_ext fun q _ => ?_
  by_cases hq : q = position
  · by_cases hp : position < n * 8
    · rw [hq, getBit_setBit_self hp, getBit_setBit_self hp]
    · rw [setBit_of_le (by omega), setBit_of_le (by omega), setBit_of_le (by omega)]
  · rw [getBit_setBit_ne hq, getBit_setBit_ne hq, getBit_setBit_ne hq]

@[simp] theorem getBit_replicate_zero (position : ℕ) :
    getBit (Vector.replicate n (0 : UInt8)) position = false := by
  by_cases h : position / 8 < n
  · rw [getBit, dif_pos h, Vector.getElem_replicate]
    exact bne_eq_false_iff_eq.mpr (UInt8.zero_and)
  · exact getBit_of_le (by omega)

end Table

end BitTable
