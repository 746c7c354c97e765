import SplitEsb.Shared.Stuffing

/-! # COBS byte stuffing
The encoder patches each group's code once the group closes; the decoder moves
the groups down in the buffer it reads from. -/

namespace SplitEsb

open ByteString Stuffing

inductive Errno where
  | einval
  | enomem
  | emsgsize
  deriving DecidableEq, Repr

def cobsMaxEncoded (inputLength : ℕ) : ℕ := inputLength + inputLength / 254 + 2

/-! ## Encoder -/

structure CobsEncoder where
  output : Bytes
  outputIndex : ℕ
  codePosition : ℕ
  code : UInt8

/-- Stores the code of the open group and opens the next one. -/
def CobsEncoder.closeGroup (encoder : CobsEncoder) : CobsEncoder where
  output := encoder.output.set encoder.codePosition encoder.code
  codePosition := encoder.outputIndex
  outputIndex := encoder.outputIndex + 1
  code := 1

def CobsEncoder.append (encoder : CobsEncoder) (byte : UInt8) : CobsEncoder where
  output := encoder.output.set encoder.outputIndex byte
  codePosition := encoder.codePosition
  outputIndex := encoder.outputIndex + 1
  code := encoder.code + 1

def CobsEncoder.put (encoder : CobsEncoder) (byte : UInt8) : CobsEncoder :=
  if byte = 0 then encoder.closeGroup
  else if (encoder.append byte).code = 0xFF then (encoder.append byte).closeGroup
  else encoder.append byte

/-- The output index after the delimiter and the output buffer. -/
def cobsEncode (input output : Bytes) : Except Errno (ℕ × Bytes) :=
  if output.length < cobsMaxEncoded input.length then .error .enomem
  else
    let encoder := input.foldl CobsEncoder.put ⟨output, 1, 0, 1⟩
    let output := encoder.output.set encoder.codePosition encoder.code
    .ok (encoder.outputIndex + 1, output.set encoder.outputIndex 0)

/-! ## Decoder -/

/-- `count` steps of `buffer[output_index++] = buffer[input_index++]`. -/
def copyDown (buffer : Bytes) (inputIndex outputIndex : ℕ) : ℕ → Bytes
  | 0 => buffer
  | count + 1 =>
      copyDown (buffer.set outputIndex (byteAt buffer inputIndex)) (inputIndex + 1)
        (outputIndex + 1) count

/-- The decode loop over a buffer of `bufferLength` bytes. -/
def cobsDecodeLoop (bufferLength : ℕ) (buffer : Bytes) (inputIndex outputIndex : ℕ) :
    Except Errno (Bytes × ℕ) :=
  if inputIndex < bufferLength then
    let code := byteAt buffer inputIndex
    let start := inputIndex + 1
    let count := code.toNat - 1
    if code = 0 ∨ bufferLength - start < count then .error .einval
    else
      let buffer := copyDown buffer start outputIndex count
      if code < 0xFF ∧ start + count < bufferLength then
        cobsDecodeLoop bufferLength (buffer.set (outputIndex + count) 0) (start + count)
          (outputIndex + count + 1)
      else cobsDecodeLoop bufferLength buffer (start + count) (outputIndex + count)
  else .ok (buffer, outputIndex)
termination_by bufferLength - inputIndex

/-- The buffer and the number of decoded bytes at its front. -/
def cobsDecodeInPlace (buffer : Bytes) : Except Errno (Bytes × ℕ) :=
  if buffer.length < 1 then .error .einval else cobsDecodeLoop buffer.length buffer 0 0

/-! ## The encoder writes the stuffed bytes -/

theorem set_at_length {α : Type*} (front back : List α) (x y : α) {i : ℕ}
    (hi : i = front.length) : (front ++ x :: back).set i y = front ++ y :: back := by
  subst hi
  simp

/-- The output is the closed groups, a slot for the open group's code, the open
group and the rest of the buffer. -/
structure EncoderView (encoder : CobsEncoder) (done group free : Bytes) (slot : UInt8) : Prop where
  output : encoder.output = done ++ slot :: (group ++ free)
  codePosition : encoder.codePosition = done.length
  outputIndex : encoder.outputIndex = done.length + 1 + group.length
  code : encoder.code = UInt8.ofNat (group.length + 1)

theorem EncoderView.closeGroup {encoder : CobsEncoder} {done group free : Bytes} {slot next : UInt8}
    (view : EncoderView encoder done group (next :: free) slot) :
    EncoderView encoder.closeGroup (done ++ UInt8.ofNat (group.length + 1) :: group) [] free
      next where
  output := by
    change encoder.output.set encoder.codePosition encoder.code = _
    rw [view.output, view.codePosition, view.code, set_at_length _ _ _ _ rfl]
    simp
  codePosition := by
    change encoder.outputIndex = _
    rw [view.outputIndex, List.length_append, List.length_cons]
    omega
  outputIndex := by
    change encoder.outputIndex + 1 = _
    rw [view.outputIndex, List.length_append, List.length_cons, List.length_nil]
    omega
  code := rfl

/-- A data byte goes to the end of the open group. -/
theorem EncoderView.append {encoder : CobsEncoder} {done group free : Bytes} {slot next : UInt8}
    (view : EncoderView encoder done group (next :: free) slot) (b : UInt8) :
    EncoderView (encoder.append b) done (group ++ [b]) free slot where
  output := by
    have hsplit : encoder.output = (done ++ slot :: group) ++ next :: free := by
      rw [view.output]
      simp
    change encoder.output.set encoder.outputIndex b = _
    rw [hsplit, set_at_length _ _ _ _
      (by rw [view.outputIndex, List.length_append, List.length_cons]; omega)]
    simp
  codePosition := view.codePosition
  outputIndex := by
    change encoder.outputIndex + 1 = _
    rw [view.outputIndex, List.length_append, List.length_singleton]
    omega
  code := by
    change encoder.code + 1 = _
    rw [view.code, List.length_append, List.length_singleton, UInt8.ofNat_add (group.length + 1)]
    rfl

/-- The bytes in front of the output index once the last code and the delimiter are in. -/
def CobsEncoder.finish (encoder : CobsEncoder) : Bytes :=
  ((encoder.output.set encoder.codePosition encoder.code).set encoder.outputIndex 0).take
    (encoder.outputIndex + 1)

theorem EncoderView.finish {encoder : CobsEncoder} {done group free : Bytes} {slot next : UInt8}
    (view : EncoderView encoder done group (next :: free) slot) :
    encoder.finish = done ++ stuffFrom group [] ++ [0] := by
  have hcode : encoder.output.set encoder.codePosition encoder.code =
      (done ++ UInt8.ofNat (group.length + 1) :: group) ++ next :: free := by
    rw [view.output, view.codePosition, view.code, set_at_length _ _ _ _ rfl]
    simp
  have hlen : encoder.outputIndex = (done ++ UInt8.ofNat (group.length + 1) :: group).length := by
    rw [view.outputIndex, List.length_append, List.length_cons]
    omega
  rw [CobsEncoder.finish, hcode, set_at_length _ _ _ _ hlen, List.take_append, hlen,
    List.take_of_length_le (by omega), Nat.add_sub_cancel_left]
  rfl

/-- From any open group, the run over the rest of the input writes what stuffing
the group and that rest gives. -/
theorem cobsEncoder_run (data : Bytes) {encoder : CobsEncoder} {done group free : Bytes}
    {slot : UInt8} (view : EncoderView encoder done group free slot) (hshort : group.length ≤ 253)
    (hfree : (stuffFrom group data).length ≤ group.length + free.length) :
    (data.foldl CobsEncoder.put encoder).finish = done ++ stuffFrom group data ++ [0] := by
  induction data generalizing encoder done group free slot with
  | nil =>
      cases free with
      | nil => simp [stuffFrom] at hfree
      | cons next free => exact view.finish
  | cons b rest ih =>
      have hlt := lt_stuffFrom_length group (b :: rest)
      cases free with
      | nil =>
          rw [List.length_nil] at hfree
          omega
      | cons next free =>
          have hcode : (encoder.append b).code = 0xFF ↔ group.length + 2 = 255 := by
            rw [(view.append b).code, List.length_append, List.length_singleton,
              ← UInt8.toNat_inj, UInt8.toNat_ofNat', Nat.mod_eq_of_lt (by omega)]
            rfl
          rw [stuffFrom] at hfree ⊢
          rw [List.foldl_cons, CobsEncoder.put]
          by_cases hb : b = 0
          · rw [if_pos hb] at hfree ⊢
            rw [if_pos hb, ih view.closeGroup (by simp)
              (by simp only [List.length_cons, List.length_append] at hfree ⊢; omega)]
            simp
          by_cases hfull : group.length + 2 = 255
          · rw [if_neg hb, if_pos hfull] at hfree ⊢
            rw [if_neg hb, if_pos (hcode.mpr hfull)]
            cases free with
            | nil =>
                simp only [List.length_cons, List.length_append, List.length_nil] at hfree
                omega
            | cons next' free =>
                rw [ih (view.append b).closeGroup (by simp)
                  (by simp only [List.length_cons, List.length_append] at hfree ⊢; omega)]
                have hlen : UInt8.ofNat ((group ++ [b]).length + 1) = 255 := by
                  rw [List.length_append, List.length_singleton, hfull]
                  rfl
                rw [hlen]
                simp
          · rw [if_neg hb, if_neg hfull] at hfree ⊢
            rw [if_neg hb, if_neg (fun h => hfull (hcode.mp h)), ih (view.append b)
              (by rw [List.length_append, List.length_singleton]; omega)
              (by simp only [List.length_cons, List.length_append] at hfree ⊢; omega)]

/-- With room for the bound the encoder writes the stuffed input and one delimiter. -/
theorem cobsEncode_eq {input output : Bytes} (h : cobsMaxEncoded input.length ≤ output.length) :
    ∃ length written, cobsEncode input output = .ok (length, written) ∧
      written.take length = stuff input ++ [0] := by
  have hbound := stuff_length_le input
  rw [cobsMaxEncoded] at h
  rw [cobsEncode, if_neg (by rw [cobsMaxEncoded]; omega)]
  refine ⟨_, _, rfl, ?_⟩
  cases output with
  | nil => simp at h
  | cons slot free =>
      have view : EncoderView ⟨slot :: free, 1, 0, 1⟩ [] [] free slot := ⟨rfl, rfl, rfl, rfl⟩
      have hrun := cobsEncoder_run input view (by simp)
        (by rw [List.length_cons] at h; rw [stuff] at hbound; simp only [List.length_nil]; omega)
      exact hrun

/-! ## The decoder reads the stuffed bytes -/

/-- Copying a group down over a nonempty gap leaves a gap of the same length. -/
theorem copyDown_eq (group : Bytes) (out gap rest : Bytes) (hgap : gap ≠ []) :
    ∃ gap' : Bytes, gap'.length = gap.length ∧
      copyDown (out ++ (gap ++ (group ++ rest))) (out.length + gap.length) out.length
        group.length = (out ++ group) ++ (gap' ++ rest) := by
  induction group generalizing out gap with
  | nil => exact ⟨gap, rfl, by simp [copyDown]⟩
  | cons b group ih =>
      cases gap with
      | nil => exact absurd rfl hgap
      | cons g gap =>
          have hbyte : byteAt (out ++ (g :: gap ++ (b :: group ++ rest)))
              (out.length + (g :: gap).length) = b := by
            have hsplit : out ++ (g :: gap ++ (b :: group ++ rest)) =
                (out ++ g :: gap) ++ b :: (group ++ rest) := by simp
            rw [hsplit]
            exact byteAt_append_of_eq (by simp)
          have hset : (out ++ (g :: gap ++ (b :: group ++ rest))).set out.length b =
              (out ++ [b]) ++ ((gap ++ [b]) ++ (group ++ rest)) := by
            rw [List.cons_append, set_at_length _ _ _ _ rfl]
            simp
          obtain ⟨gap', hlen, hcopy⟩ := ih (out ++ [b]) (gap ++ [b]) (by simp)
          refine ⟨gap', by simpa using hlen, ?_⟩
          have hin : out.length + (g :: gap).length + 1 =
              (out ++ [b]).length + (gap ++ [b]).length := by
            simp only [List.length_append, List.length_cons, List.length_nil]
            omega
          have hout : out.length + 1 = (out ++ [b]).length := by simp
          change copyDown ((out ++ (g :: gap ++ (b :: group ++ rest))).set out.length
            (byteAt (out ++ (g :: gap ++ (b :: group ++ rest))) (out.length + (g :: gap).length)))
            (out.length + (g :: gap).length + 1) (out.length + 1) group.length = _
          rw [hbyte, hset, hin, hout, hcopy]
          simp

/-- One pass of the loop over a group that fits: the group moves down behind the
decoded bytes, and a zero follows it when the group was short and more is unread. -/
theorem cobsDecodeLoop_group {code : UInt8} (hcode : code ≠ 0) (out gap group rest : Bytes)
    (hgroup : group.length = code.toNat - 1) {size : ℕ}
    (hsize : size = (out ++ (gap ++ code :: (group ++ rest))).length) :
    ∃ gap' : Bytes,
      let out' := if code < 0xFF ∧ rest ≠ [] then out ++ group ++ [0] else out ++ group
      size = (out' ++ (gap' ++ rest)).length ∧
      cobsDecodeLoop size (out ++ (gap ++ code :: (group ++ rest))) (out.length + gap.length)
        out.length =
      cobsDecodeLoop size (out' ++ (gap' ++ rest)) (out'.length + gap'.length) out'.length := by
  have hlen : size = out.length + gap.length + 1 + group.length + rest.length := by
    rw [hsize]
    simp only [List.length_append, List.length_cons]
    omega
  have hread : byteAt (out ++ (gap ++ code :: (group ++ rest))) (out.length + gap.length) =
      code := by
    rw [← List.append_assoc]
    exact byteAt_append_of_eq (by rw [List.length_append])
  have hsplit : out ++ (gap ++ code :: (group ++ rest)) =
      out ++ ((gap ++ [code]) ++ (group ++ rest)) := by simp
  obtain ⟨moved, hmoved, hcopy⟩ := copyDown_eq group out (gap ++ [code]) rest (by simp)
  have hstart : out.length + (gap ++ [code]).length = out.length + gap.length + 1 := by
    rw [List.length_append, List.length_singleton]
    omega
  rw [← hsplit, hstart] at hcopy
  rw [List.length_append, List.length_singleton] at hmoved
  have hmore : out.length + gap.length + 1 + group.length < size ↔ rest ≠ [] := by
    constructor
    · intro h hnil
      rw [hnil, List.length_nil] at hlen
      omega
    · intro h
      have hpos := List.length_pos_of_ne_nil h
      omega
  have hfits : ¬(code = 0 ∨ size - (out.length + gap.length + 1) < group.length) := by
    rintro (h | h)
    · exact hcode h
    · omega
  have hloop : cobsDecodeLoop size (out ++ (gap ++ code :: (group ++ rest)))
      (out.length + gap.length) out.length =
      if code < 0xFF ∧ rest ≠ [] then
        cobsDecodeLoop size ((out ++ group ++ (moved ++ rest)).set (out.length + group.length) 0)
          (out.length + gap.length + 1 + group.length) (out.length + group.length + 1)
      else cobsDecodeLoop size (out ++ group ++ (moved ++ rest))
        (out.length + gap.length + 1 + group.length) (out.length + group.length) := by
    rw [cobsDecodeLoop, if_pos (by omega)]
    simp only [hread, ← hgroup]
    rw [if_neg hfits, hcopy]
    simp only [hmore]
  rw [hloop]
  by_cases hzero : code < 0xFF ∧ rest ≠ []
  · cases moved with
    | nil => simp at hmoved
    | cons m moved =>
        rw [List.length_cons] at hmoved
        have hset : (out ++ group ++ (m :: moved ++ rest)).set (out.length + group.length) 0 =
            out ++ group ++ [0] ++ (moved ++ rest) := by
          rw [List.cons_append, set_at_length _ _ _ _ (by rw [List.length_append])]
          simp
        have hout : (out ++ group ++ [0]).length = out.length + group.length + 1 := by
          rw [List.length_append, List.length_append, List.length_singleton]
        refine ⟨moved, ?_⟩
        rw [if_pos hzero, if_pos hzero, hset]
        dsimp only
        rw [hout]
        refine ⟨?_, ?_⟩
        · rw [List.length_append, hout, List.length_append]
          omega
        · congr 1
          omega
  · have hout : (out ++ group).length = out.length + group.length := List.length_append
    refine ⟨moved, ?_⟩
    rw [if_neg hzero, if_neg hzero]
    dsimp only
    rw [hout]
    refine ⟨?_, ?_⟩
    · rw [List.length_append, hout, List.length_append]
      omega
    · congr 1
      omega

/-- What the loop returns once it has reached the end of the buffer. -/
theorem cobsDecodeLoop_done (out gap : Bytes) :
    cobsDecodeLoop (out ++ gap).length (out ++ gap) (out.length + gap.length) out.length =
      .ok (out ++ gap, out.length) := by
  rw [cobsDecodeLoop, if_neg (by rw [List.length_append]; omega)]

/-- The loop appends the unstuffing of the unread bytes to what is already decoded,
and fails exactly where unstuffing does. -/
theorem cobsDecodeLoop_eq (unread : Bytes) (out gap : Bytes) {size : ℕ}
    (hsize : size = (out ++ (gap ++ unread)).length) :
    (unstuff unread = none ∧
      cobsDecodeLoop size (out ++ (gap ++ unread)) (out.length + gap.length) out.length =
        .error .einval) ∨
    ∃ tail back : Bytes, unstuff unread = some tail ∧
      cobsDecodeLoop size (out ++ (gap ++ unread)) (out.length + gap.length) out.length =
        .ok ((out ++ tail) ++ back, (out ++ tail).length) := by
  induction unread using unstuff.induct generalizing out gap with
  | case1 =>
      right
      refine ⟨[], gap, unstuff_nil, ?_⟩
      rw [List.append_nil] at hsize ⊢
      rw [hsize, cobsDecodeLoop_done, List.append_nil]
  | case2 code rest hbad =>
      left
      refine ⟨by rw [unstuff_cons, if_pos hbad], ?_⟩
      have hlen : size = out.length + gap.length + 1 + rest.length := by
        rw [hsize]
        simp only [List.length_append, List.length_cons]
        omega
      have hread : byteAt (out ++ (gap ++ code :: rest)) (out.length + gap.length) = code := by
        rw [← List.append_assoc]
        exact byteAt_append_of_eq (by rw [List.length_append])
      rw [cobsDecodeLoop, if_pos (by omega)]
      simp only [hread]
      rw [if_pos]
      rcases hbad with hzero | hlong
      · exact Or.inl hzero
      · right
        omega
  | case3 code rest hgood ih =>
      rw [not_or] at hgood
      obtain ⟨hcode, hfits⟩ := hgood
      have hgroup : (rest.take (code.toNat - 1)).length = code.toNat - 1 := by
        rw [List.length_take]
        omega
      have hrest : rest.take (code.toNat - 1) ++ rest.drop (code.toNat - 1) = rest :=
        List.take_append_drop _ _
      obtain ⟨gap', hsize', hstep⟩ := @cobsDecodeLoop_group code hcode out gap
        (rest.take (code.toNat - 1)) (rest.drop (code.toNat - 1)) hgroup size
        (by rw [hrest]; exact hsize)
      rw [hrest] at hstep
      rw [hstep, unstuff_cons, if_neg (by rw [not_or]; exact ⟨hcode, hfits⟩)]
      rcases ih _ gap' hsize' with ⟨hnone, herr⟩ | ⟨tail, back, hsome, hok⟩
      · exact Or.inl ⟨by rw [hnone]; rfl, herr⟩
      · right
        refine ⟨_, back, by rw [hsome]; rfl, ?_⟩
        rw [hok]
        split_ifs <;> simp

/-- The in-place decoder computes the unstuffing of its buffer. -/
theorem cobsDecodeInPlace_eq {buffer data : Bytes} (hne : buffer ≠ [])
    (h : unstuff buffer = some data) :
    ∃ back : Bytes, cobsDecodeInPlace buffer = .ok (data ++ back, data.length) := by
  have hpos := List.length_pos_of_ne_nil hne
  rw [cobsDecodeInPlace, if_neg (by omega)]
  rcases cobsDecodeLoop_eq buffer [] [] rfl with ⟨hnone, -⟩ | ⟨tail, back, hsome, hok⟩
  · rw [h] at hnone
    cases hnone
  · rw [h] at hsome
    cases hsome
    exact ⟨back, hok⟩

end SplitEsb
