import SplitEsb.Frame.Cobs
import SplitEsb.Shared.AccessTrace

/-! # COBS on traced memory
The encoder and the decoder with every access to their buffer recorded, and the decoder
into a separate buffer that the one in place is compared with. -/

namespace SplitEsb

open AccessTrace ByteString Stuffing

/-! ## Encoder -/

structure CobsTracedEncoder where
  output : Traced UInt8
  outputIndex : ℕ
  codePosition : ℕ
  code : UInt8

namespace CobsTracedEncoder

def closeGroup (encoder : CobsTracedEncoder) : CobsTracedEncoder where
  output := encoder.output.store encoder.codePosition encoder.code
  codePosition := encoder.outputIndex
  outputIndex := encoder.outputIndex + 1
  code := 1

def append (encoder : CobsTracedEncoder) (byte : UInt8) : CobsTracedEncoder where
  output := encoder.output.store encoder.outputIndex byte
  codePosition := encoder.codePosition
  outputIndex := encoder.outputIndex + 1
  code := encoder.code + 1

def put (encoder : CobsTracedEncoder) (byte : UInt8) : CobsTracedEncoder :=
  if byte = 0 then encoder.closeGroup
  else if (encoder.append byte).code = 0xFF then (encoder.append byte).closeGroup
  else encoder.append byte

/-- The encoder without the record of its accesses. -/
def untraced (encoder : CobsTracedEncoder) : CobsEncoder where
  output := encoder.output.cells
  outputIndex := encoder.outputIndex
  codePosition := encoder.codePosition
  code := encoder.code

end CobsTracedEncoder

/-- The output index after the delimiter, and the output buffer. -/
def cobsEncodeTraced (input output : Bytes) : Except Errno ℕ × Traced UInt8 :=
  if output.length < cobsMaxEncoded input.length then (.error .enomem, ⟨output, []⟩)
  else
    let encoder := input.foldl CobsTracedEncoder.put ⟨⟨output, []⟩, 1, 0, 1⟩
    let output := encoder.output.store encoder.codePosition encoder.code
    (.ok (encoder.outputIndex + 1), output.store encoder.outputIndex 0)

/-! ## Decoder -/

def copyDownTraced (buffer : Traced UInt8) (inputIndex outputIndex : ℕ) : ℕ → Traced UInt8
  | 0 => buffer
  | count + 1 =>
      let (byte, buffer) := buffer.load inputIndex
      copyDownTraced (buffer.store outputIndex byte) (inputIndex + 1) (outputIndex + 1) count

def cobsDecodeTracedLoop (bufferLength : ℕ) (buffer : Traced UInt8) (inputIndex outputIndex : ℕ) :
    Except Errno ℕ × Traced UInt8 :=
  if inputIndex < bufferLength then
    let (code, buffer) := buffer.load inputIndex
    let start := inputIndex + 1
    let count := code.toNat - 1
    if code = 0 ∨ bufferLength - start < count then (.error .einval, buffer)
    else
      let buffer := copyDownTraced buffer start outputIndex count
      if code < 0xFF ∧ start + count < bufferLength then
        cobsDecodeTracedLoop bufferLength (buffer.store (outputIndex + count) 0) (start + count)
          (outputIndex + count + 1)
      else cobsDecodeTracedLoop bufferLength buffer (start + count) (outputIndex + count)
  else (.ok outputIndex, buffer)
termination_by bufferLength - inputIndex

/-- The number of decoded bytes, and the buffer they are at the front of. -/
def cobsDecodeTraced (buffer : Bytes) : Except Errno ℕ × Traced UInt8 :=
  if buffer.length < 1 then (.error .einval, ⟨buffer, []⟩)
  else cobsDecodeTracedLoop buffer.length ⟨buffer, []⟩ 0 0

/-! ## Decoder into a separate buffer -/

/-- `count` steps of `output[output_index++] = buffer[input_index++]`, the output being the
bytes written so far. -/
def copyAcross (buffer output : Bytes) (inputIndex : ℕ) : ℕ → Bytes
  | 0 => output
  | count + 1 => copyAcross buffer (output ++ [byteAt buffer inputIndex]) (inputIndex + 1) count

def cobsDecodeAcrossLoop (buffer output : Bytes) (inputIndex : ℕ) : Except Errno Bytes :=
  if inputIndex < buffer.length then
    let code := byteAt buffer inputIndex
    let start := inputIndex + 1
    let count := code.toNat - 1
    if code = 0 ∨ buffer.length - start < count then .error .einval
    else
      let output := copyAcross buffer output start count
      if code < 0xFF ∧ start + count < buffer.length then
        cobsDecodeAcrossLoop buffer (output ++ [0]) (start + count)
      else cobsDecodeAcrossLoop buffer output (start + count)
  else .ok output
termination_by buffer.length - inputIndex

def cobsDecodeAcross (buffer : Bytes) : Except Errno Bytes :=
  if buffer.length < 1 then .error .einval else cobsDecodeAcrossLoop buffer [] 0

/-! ## The trace changes nothing -/

theorem untraced_put (encoder : CobsTracedEncoder) (byte : UInt8) :
    (encoder.put byte).untraced = encoder.untraced.put byte := by
  rw [CobsTracedEncoder.put, CobsEncoder.put]
  change _ = if byte = 0 then encoder.untraced.closeGroup
    else if encoder.code + 1 = 0xFF then (encoder.untraced.append byte).closeGroup
    else encoder.untraced.append byte
  change (if byte = 0 then encoder.closeGroup
    else if encoder.code + 1 = 0xFF then (encoder.append byte).closeGroup
    else encoder.append byte).untraced = _
  split_ifs <;> rfl

theorem untraced_foldl (input : Bytes) (encoder : CobsTracedEncoder) :
    (input.foldl CobsTracedEncoder.put encoder).untraced =
      input.foldl CobsEncoder.put encoder.untraced := by
  induction input generalizing encoder with
  | nil => rfl
  | cons byte input ih => rw [List.foldl_cons, List.foldl_cons, ih, untraced_put]

theorem cobsEncode_traced (input output : Bytes) :
    cobsEncode input output = (cobsEncodeTraced input output).1.map
      fun length => (length, (cobsEncodeTraced input output).2.cells) := by
  rw [cobsEncode, cobsEncodeTraced]
  split_ifs
  · rfl
  · have hsame := untraced_foldl input ⟨⟨output, []⟩, 1, 0, 1⟩
    change _ = input.foldl CobsEncoder.put ⟨output, 1, 0, 1⟩ at hsame
    rw [← hsame]
    rfl

theorem cells_copyDownTraced {buffer loaded : Traced UInt8} (h : loaded.cells = buffer.cells)
    (inputIndex outputIndex count : ℕ) :
    (copyDownTraced loaded inputIndex outputIndex count).cells =
      copyDown buffer.cells inputIndex outputIndex count := by
  rw [← h]
  clear h
  induction count generalizing loaded inputIndex outputIndex with
  | zero => rfl
  | succ count ih => exact ih _ _

theorem load_eq {buffer loaded : Traced UInt8} {index : ℕ} {byte : UInt8}
    (h : buffer.load index = (byte, loaded)) : byte = byteAt buffer.cells index ∧
      loaded.cells = buffer.cells ∧ loaded.accesses = buffer.accesses ++ [.read index] := by
  cases h
  exact ⟨rfl, rfl, rfl⟩

theorem cobsDecodeLoop_traced (bufferLength : ℕ) (buffer : Traced UInt8)
    (inputIndex outputIndex : ℕ) :
    cobsDecodeLoop bufferLength buffer.cells inputIndex outputIndex =
      (cobsDecodeTracedLoop bufferLength buffer inputIndex outputIndex).1.map fun length =>
        ((cobsDecodeTracedLoop bufferLength buffer inputIndex outputIndex).2.cells, length) := by
  fun_induction cobsDecodeTracedLoop bufferLength buffer inputIndex outputIndex with
  | case1 buffer inputIndex outputIndex hlt code loaded hload start count hbad =>
      obtain ⟨rfl, -, -⟩ := load_eq hload
      rw [cobsDecodeLoop, if_pos hlt]
      exact if_pos hbad
  | case2 buffer inputIndex outputIndex hlt code loaded hload start count hgood copied hzero ih =>
      obtain ⟨rfl, hcells, -⟩ := load_eq hload
      have hcopied : copied.cells = copyDown buffer.cells start outputIndex count :=
        cells_copyDownTraced hcells ..
      rw [← ih, cobsDecodeLoop, if_pos hlt, Traced.store, hcopied]
      exact (if_neg hgood).trans (if_pos hzero)
  | case3 buffer inputIndex outputIndex hlt code loaded hload start count hgood copied hzero ih =>
      obtain ⟨rfl, hcells, -⟩ := load_eq hload
      have hcopied : copied.cells = copyDown buffer.cells start outputIndex count :=
        cells_copyDownTraced hcells ..
      rw [← ih, cobsDecodeLoop, if_pos hlt, hcopied]
      exact (if_neg hgood).trans (if_neg hzero)
  | case4 buffer inputIndex outputIndex hge => rw [cobsDecodeLoop, if_neg hge]; rfl

theorem cobsDecodeInPlace_traced (buffer : Bytes) :
    cobsDecodeInPlace buffer = (cobsDecodeTraced buffer).1.map
      fun length => ((cobsDecodeTraced buffer).2.cells, length) := by
  rw [cobsDecodeInPlace, cobsDecodeTraced]
  split_ifs
  · rfl
  · exact cobsDecodeLoop_traced buffer.length ⟨buffer, []⟩ 0 0

/-! ## Stores of the encoder -/

/-- One store for each output byte so far but the reserved code, all of them in front of
the output index. -/
structure StoresInFront (encoder : CobsTracedEncoder) : Prop where
  within : Within encoder.outputIndex encoder.output.accesses
  count : encoder.output.accesses.length + 1 = encoder.outputIndex
  codePosition : encoder.codePosition < encoder.outputIndex

theorem StoresInFront.start (output : Bytes) : StoresInFront ⟨⟨output, []⟩, 1, 0, 1⟩ where
  within access hmem := by cases hmem
  count := rfl
  codePosition := Nat.zero_lt_one

theorem StoresInFront.closeGroup {encoder : CobsTracedEncoder} (h : StoresInFront encoder) :
    StoresInFront encoder.closeGroup where
  within := (h.within.mono (Nat.le_succ _)).append (Nat.lt_succ_of_lt h.codePosition)
  count := by
    change (encoder.output.accesses ++ [_]).length + 1 = encoder.outputIndex + 1
    rw [List.length_append, List.length_singleton, h.count]
  codePosition := Nat.lt_succ_self _

theorem StoresInFront.append {encoder : CobsTracedEncoder} (h : StoresInFront encoder)
    (byte : UInt8) : StoresInFront (encoder.append byte) where
  within := (h.within.mono (Nat.le_succ _)).append (Nat.lt_succ_self _)
  count := by
    change (encoder.output.accesses ++ [_]).length + 1 = encoder.outputIndex + 1
    rw [List.length_append, List.length_singleton, h.count]
  codePosition := Nat.lt_succ_of_lt h.codePosition

theorem StoresInFront.put {encoder : CobsTracedEncoder} (h : StoresInFront encoder)
    (byte : UInt8) : StoresInFront (encoder.put byte) := by
  rw [CobsTracedEncoder.put]
  split_ifs
  · exact h.closeGroup
  · exact (h.append byte).closeGroup
  · exact h.append byte

theorem StoresInFront.foldl {encoder : CobsTracedEncoder} (h : StoresInFront encoder)
    (input : Bytes) : StoresInFront (input.foldl CobsTracedEncoder.put encoder) := by
  induction input generalizing encoder with
  | nil => exact h
  | cons byte input ih => exact ih (h.put byte)

/-- From any open group the output index moves by what stuffing the group and the rest
takes, the reserved code being counted already. -/
theorem outputIndex_foldl (data : Bytes) {encoder : CobsEncoder} {group : Bytes}
    (hcode : encoder.code = UInt8.ofNat (group.length + 1)) (hshort : group.length ≤ 253) :
    (data.foldl CobsEncoder.put encoder).outputIndex + group.length + 1 =
      encoder.outputIndex + (stuffFrom group data).length := by
  induction data generalizing encoder group with
  | nil =>
      rw [stuffFrom, List.length_cons]
      rfl
  | cons b rest ih =>
      have hnext : (encoder.append b).code = UInt8.ofNat ((group ++ [b]).length + 1) := by
        change encoder.code + 1 = _
        rw [hcode, List.length_append, List.length_singleton, UInt8.ofNat_add (group.length + 1)]
        rfl
      have hfull : (encoder.append b).code = 0xFF ↔ group.length + 2 = 255 := by
        rw [hnext, List.length_append, List.length_singleton, ← UInt8.toNat_inj,
          UInt8.toNat_ofNat', Nat.mod_eq_of_lt (by omega)]
        rfl
      rw [List.foldl_cons, CobsEncoder.put, stuffFrom]
      simp only [hfull]
      split_ifs with hb hlast
      · have hrest := @ih encoder.closeGroup [] rfl (Nat.zero_le _)
        change _ = encoder.outputIndex + 1 + _ at hrest
        rw [List.length_nil] at hrest
        rw [List.length_cons, List.length_append]
        omega
      · have hrest := @ih (encoder.append b).closeGroup [] rfl (Nat.zero_le _)
        change _ = encoder.outputIndex + 1 + 1 + _ at hrest
        rw [List.length_nil] at hrest
        rw [List.length_cons, List.length_append, List.length_cons]
        omega
      · have hrest := @ih (encoder.append b) (group ++ [b]) hnext
          (by rw [List.length_append, List.length_singleton]; omega)
        change _ = encoder.outputIndex + 1 + _ at hrest
        rw [List.length_append, List.length_singleton] at hrest
        omega

/-- The encoder stores each byte of the stuffed input and its delimiter once, and nothing
behind them. -/
theorem cobsEncodeTraced_stores {input output : Bytes}
    (h : cobsMaxEncoded input.length ≤ output.length) :
    (cobsEncodeTraced input output).1 = .ok ((stuff input).length + 1) ∧
      Within ((stuff input).length + 1) (cobsEncodeTraced input output).2.accesses ∧
      (cobsEncodeTraced input output).2.accesses.length = (stuff input).length + 1 := by
  have hstores := (StoresInFront.start output).foldl input
  have hindex := @outputIndex_foldl input ⟨output, 1, 0, 1⟩ [] rfl (Nat.zero_le _)
  have hsame := untraced_foldl input ⟨⟨output, []⟩, 1, 0, 1⟩
  change _ = input.foldl CobsEncoder.put ⟨output, 1, 0, 1⟩ at hsame
  rw [← hsame] at hindex
  rw [cobsEncodeTraced, if_neg (Nat.not_lt.mpr h)]
  dsimp only
  generalize input.foldl CobsTracedEncoder.put ⟨⟨output, []⟩, 1, 0, 1⟩ = encoder at hstores hindex ⊢
  change encoder.outputIndex + 0 + 1 = 1 + (stuff input).length at hindex
  obtain hlength : encoder.outputIndex = (stuff input).length := by omega
  rw [← hlength]
  refine ⟨rfl, ?_, ?_⟩
  · have hcode : Within encoder.outputIndex
        (encoder.output.accesses ++ [.write encoder.codePosition]) :=
      hstores.within.append hstores.codePosition
    exact (hcode.mono (Nat.le_succ _)).append (Nat.lt_succ_self _)
  · change ((encoder.output.accesses ++ [_]) ++ [_]).length = _
    rw [List.length_append, List.length_append, List.length_singleton, List.length_singleton,
      hstores.count]

/-- With room for the bound, the encoder makes at most that many stores, all of them below
it. What it wrote ends with its only zero, and decoding the rest in place gives the input
back. -/
theorem cobs_round_trip {input output : Bytes}
    (h : cobsMaxEncoded input.length ≤ output.length) :
    ∃ (length : ℕ) (written body : Bytes) (accesses : List Access),
      cobsEncode input output = .ok (length, written) ∧
      cobsEncodeTraced input output = (.ok length, ⟨written, accesses⟩) ∧
      Within (cobsMaxEncoded input.length) accesses ∧
      accesses.length ≤ cobsMaxEncoded input.length ∧
      written.take length = body ++ [0] ∧ length = body.length + 1 ∧ (∀ b ∈ body, b ≠ 0) ∧
      ∃ decoded, cobsDecodeInPlace body = .ok (decoded, input.length) ∧
        decoded.take input.length = input := by
  obtain ⟨hlength, hwithin, hcount⟩ := cobsEncodeTraced_stores h
  have hbound : (stuff input).length + 1 ≤ cobsMaxEncoded input.length := by
    have hstuff := stuff_length_le input
    rw [cobsMaxEncoded]
    omega
  have htraced := cobsEncode_traced input output
  rw [hlength] at htraced
  obtain ⟨length, written, hok, htake⟩ := cobsEncode_eq h
  obtain ⟨rfl, rfl⟩ : (stuff input).length + 1 = length ∧
      (cobsEncodeTraced input output).2.cells = written := by
    have hpair := htraced.symm.trans hok
    exact Prod.mk.inj (Except.ok.inj hpair)
  obtain ⟨back, hdecode⟩ := cobsDecodeInPlace_eq (stuffFrom_ne_nil [] input) (unstuff_stuff input)
  refine ⟨_, _, stuff input, (cobsEncodeTraced input output).2.accesses, hok, ?_,
    hwithin.mono hbound, hcount ▸ hbound, htake, rfl, stuff_nonzero input, _, hdecode,
    List.take_left⟩
  rw [← hlength]

/-- An input with a zero, in a buffer of just the bound. -/
theorem cobs_round_trip_sample :
    ∃ (length : ℕ) (written body : Bytes) (accesses : List Access),
      cobsEncode [1, 0, 2] [7, 7, 7, 7, 7] = .ok (length, written) ∧
      cobsEncodeTraced [1, 0, 2] [7, 7, 7, 7, 7] = (.ok length, ⟨written, accesses⟩) ∧
      Within 5 accesses ∧ accesses.length ≤ 5 ∧
      written.take length = body ++ [0] ∧ length = body.length + 1 ∧ (∀ b ∈ body, b ≠ 0) ∧
      ∃ decoded, cobsDecodeInPlace body = .ok (decoded, 3) ∧ decoded.take 3 = [1, 0, 2] :=
  cobs_round_trip (by decide)

/-! ## Accesses of the decoder -/

theorem readsAhead_copyDownTraced {size : ℕ} (count : ℕ) {buffer : Traced UInt8}
    {inputIndex outputIndex : ℕ} (h : ReadsAhead size inputIndex buffer.accesses)
    (hbehind : outputIndex ≤ inputIndex) (hfits : inputIndex + count ≤ size) :
    ReadsAhead size (inputIndex + count)
      (copyDownTraced buffer inputIndex outputIndex count).accesses := by
  induction count generalizing buffer inputIndex outputIndex with
  | zero => exact h
  | succ count ih =>
      have hread := h.read (by omega)
      have hwritten := hread.write (Nat.lt_succ_of_le hbehind) (by omega)
      rw [show inputIndex + (count + 1) = inputIndex + 1 + count by omega]
      exact ih hwritten (by omega) (by omega)

/-- The reading index leads: the loop reads a group's code before it writes, and what it
writes is one byte shorter. -/
theorem readsAhead_cobsDecodeTracedLoop {size : ℕ} {buffer : Traced UInt8}
    {inputIndex outputIndex : ℕ} (h : ReadsAhead size inputIndex buffer.accesses)
    (hbehind : outputIndex ≤ inputIndex) (hwithin : inputIndex ≤ size) :
    ∃ head, ReadsAhead size head
      (cobsDecodeTracedLoop size buffer inputIndex outputIndex).2.accesses := by
  fun_induction cobsDecodeTracedLoop size buffer inputIndex outputIndex with
  | case1 buffer inputIndex outputIndex hlt code loaded hload start count hbad =>
      obtain ⟨-, -, hread⟩ := load_eq hload
      exact ⟨inputIndex + 1, hread ▸ h.read hlt⟩
  | case2 buffer inputIndex outputIndex hlt code loaded hload start count hgood copied hzero ih =>
      obtain ⟨-, -, hread⟩ := load_eq hload
      have hcopied : ReadsAhead size (start + count) copied.accesses :=
        readsAhead_copyDownTraced count (hread ▸ h.read hlt) (by omega) (by omega)
      exact ih (hcopied.write (by omega) (by omega)) (by omega) (by omega)
  | case3 buffer inputIndex outputIndex hlt code loaded hload start count hgood copied hzero ih =>
      obtain ⟨-, -, hread⟩ := load_eq hload
      have hcopied : ReadsAhead size (start + count) copied.accesses :=
        readsAhead_copyDownTraced count (hread ▸ h.read hlt) (by omega) (by omega)
      exact ih hcopied (by omega) (by omega)
  | case4 buffer inputIndex outputIndex hge => exact ⟨inputIndex, h⟩

theorem readsAhead_cobsDecodeTraced (buffer : Bytes) :
    ∃ head, ReadsAhead buffer.length head (cobsDecodeTraced buffer).2.accesses := by
  rw [cobsDecodeTraced]
  split_ifs
  · exact ⟨0, .start⟩
  · exact readsAhead_cobsDecodeTracedLoop .start (Nat.le_refl 0) (Nat.zero_le _)

/-! ## The separate buffer -/

theorem copyAcross_eq (buffer : Bytes) (count : ℕ) {output : Bytes} {inputIndex : ℕ}
    (hfits : inputIndex + count ≤ buffer.length) :
    copyAcross buffer output inputIndex count = output ++ (buffer.drop inputIndex).take count := by
  induction count generalizing output inputIndex with
  | zero => rw [copyAcross, List.take_zero, List.append_nil]
  | succ count ih =>
      have hlt : inputIndex < buffer.length := by omega
      have hbyte : byteAt buffer inputIndex = buffer.get ⟨inputIndex, hlt⟩ := by
        simp [byteAt, hlt]
      rw [copyAcross, ih (by omega), hbyte, List.drop_eq_getElem_cons hlt, List.take_succ_cons,
        List.append_assoc]
      rfl

/-- Unstuffing from an index, read as the loop reads it. -/
theorem unstuff_drop {buffer : Bytes} {index : ℕ} (h : index < buffer.length) :
    unstuff (buffer.drop index) =
      if byteAt buffer index = 0 ∨ buffer.length - (index + 1) < (byteAt buffer index).toNat - 1 then
        none
      else
        (unstuff (buffer.drop (index + 1 + ((byteAt buffer index).toNat - 1)))).map fun tail =>
          (buffer.drop (index + 1)).take ((byteAt buffer index).toNat - 1) ++
            (if byteAt buffer index < 0xFF ∧
                index + 1 + ((byteAt buffer index).toNat - 1) < buffer.length then 0 :: tail
              else tail) := by
  have hdrop : buffer.drop index = byteAt buffer index :: buffer.drop (index + 1) := by
    rw [List.drop_eq_getElem_cons h]
    simp [byteAt, h]
  rw [hdrop, unstuff_cons, List.length_drop, List.drop_drop]
  simp only [ne_eq, List.drop_eq_nil_iff, Nat.not_le]

/-- A group and the zero behind it, if any, can be appended before the rest is known. -/
theorem map_append_group (output group : Bytes) (zero : Prop) [Decidable zero]
    (rest : Option Bytes) :
    (rest.map fun tail => group ++ if zero then 0 :: tail else tail).map (output ++ ·) =
      rest.map ((output ++ group ++ if zero then [0] else []) ++ ·) := by
  rw [Option.map_map]
  congr 1
  funext tail
  by_cases hzero : zero <;> simp [hzero]

/-- The loop appends the unstuffing of the unread bytes, and fails exactly where
unstuffing does. -/
theorem cobsDecodeAcrossLoop_eq (buffer output : Bytes) (inputIndex : ℕ) :
    cobsDecodeAcrossLoop buffer output inputIndex =
      ((unstuff (buffer.drop inputIndex)).map (output ++ ·)).elim (.error .einval) .ok := by
  fun_induction cobsDecodeAcrossLoop buffer output inputIndex with
  | case1 output inputIndex hlt code start count hbad =>
      rw [unstuff_drop hlt, if_pos hbad]
      rfl
  | case2 output inputIndex hlt code start count hgood copied hzero ih =>
      have hcopied : copied = output ++ (buffer.drop start).take count :=
        copyAcross_eq buffer count (by omega)
      rw [ih, hcopied, unstuff_drop hlt, if_neg hgood, map_append_group, if_pos hzero]
  | case3 output inputIndex hlt code start count hgood copied hzero ih =>
      have hcopied : copied = output ++ (buffer.drop start).take count :=
        copyAcross_eq buffer count (by omega)
      rw [ih, hcopied, unstuff_drop hlt, if_neg hgood, map_append_group, if_neg hzero, List.append_nil]
  | case4 output inputIndex hge =>
      rw [List.drop_of_length_le (Nat.not_lt.mp hge), unstuff_nil, Option.map_some,
        List.append_nil]
      rfl

theorem cobsDecodeAcross_eq {buffer : Bytes} (hne : buffer ≠ []) :
    cobsDecodeAcross buffer = (unstuff buffer).elim (.error .einval) .ok := by
  have hpos := List.length_pos_of_ne_nil hne
  rw [cobsDecodeAcross, if_neg (by omega), cobsDecodeAcrossLoop_eq, List.drop_zero]
  cases unstuff buffer <;> rfl

/-- Decoding in place yields what decoding into a separate buffer does. -/
theorem cobsDecodeInPlace_across (buffer : Bytes) :
    ((cobsDecodeInPlace buffer).map fun done => (done.1.take done.2, done.2)) =
      (cobsDecodeAcross buffer).map fun data => (data, data.length) := by
  rcases eq_or_ne buffer [] with rfl | hne
  · rfl
  · have hpos := List.length_pos_of_ne_nil hne
    rw [cobsDecodeAcross_eq hne, cobsDecodeInPlace, if_neg (by omega)]
    rcases cobsDecodeLoop_eq buffer [] [] rfl with ⟨hnone, herror⟩ | ⟨tail, back, hsome, hok⟩
    · rw [hnone]
      exact congrArg (Except.map _) herror
    · rw [hsome]
      refine (congrArg (Except.map _) hok).trans ?_
      simp [Except.map]

/-- Decoding fails exactly on the empty buffer and where a bad group follows whole ones. -/
theorem cobsDecodeInPlace_error_iff (buffer : Bytes) :
    (∃ error, cobsDecodeInPlace buffer = .error error) ↔
      buffer = [] ∨ ∃ (groups : List Bytes) (rest : Bytes), buffer = groups.flatten ++ rest ∧
        (∀ group ∈ groups, WholeGroup group) ∧ BadGroup rest := by
  rcases eq_or_ne buffer [] with rfl | hne
  · exact iff_of_true ⟨_, rfl⟩ (.inl rfl)
  · have hpos := List.length_pos_of_ne_nil hne
    rw [← unstuff_eq_none_iff, or_iff_right hne, cobsDecodeInPlace, if_neg (by omega)]
    rcases cobsDecodeLoop_eq buffer [] [] rfl with ⟨hnone, herror⟩ | ⟨tail, back, hsome, hok⟩
    · exact iff_of_true ⟨_, herror⟩ hnone
    · refine iff_of_false ?_ (by simp [hsome])
      rintro ⟨error, herror⟩
      exact absurd (hok.symm.trans herror) (by simp)

/-- The decoder works inside any buffer: every access stays in it, no byte is overwritten
before it was read, and result, length and bytes are those of decoding into a separate
buffer. It fails exactly on an empty buffer, a zero code or a group cut short. -/
theorem cobsDecodeInPlace_safe (buffer : Bytes) :
    cobsDecodeInPlace buffer = ((cobsDecodeTraced buffer).1.map
        fun length => ((cobsDecodeTraced buffer).2.cells, length)) ∧
      Within buffer.length (cobsDecodeTraced buffer).2.accesses ∧
      ReadFirst (cobsDecodeTraced buffer).2.accesses ∧
      ((cobsDecodeInPlace buffer).map fun done => (done.1.take done.2, done.2)) =
        ((cobsDecodeAcross buffer).map fun data => (data, data.length)) ∧
      ((∃ error, cobsDecodeInPlace buffer = .error error) ↔
        buffer = [] ∨ ∃ (groups : List Bytes) (rest : Bytes), buffer = groups.flatten ++ rest ∧
          (∀ group ∈ groups, WholeGroup group) ∧ BadGroup rest) := by
  obtain ⟨head, hreads⟩ := readsAhead_cobsDecodeTraced buffer
  exact ⟨cobsDecodeInPlace_traced buffer, hreads.within, hreads.readFirst,
    cobsDecodeInPlace_across buffer, cobsDecodeInPlace_error_iff buffer⟩

end SplitEsb
