import SplitEsb.Frame.Cobs

/-! # Wire frames
A frame is a stuffed payload with a CRC trailer, closed by a zero byte. The
parser collects the bytes between zeros and discards what outgrows a frame. -/

namespace SplitEsb

open ByteString Stuffing

def wireFrameDelimiter : UInt8 := 0x00
def wireFrameMaxPayload : ℕ := 128
def wireFrameCrcBytes : ℕ := 1
def wireFrameMaxEncoded : ℕ := cobsMaxEncoded (wireFrameMaxPayload + wireFrameCrcBytes)

/-- The used bytes of the accumulator array, which never outgrow it. -/
@[ext] structure WireFrameParser where
  accumulator : Bytes
  discarding : Bool
  fits : accumulator.length ≤ wireFrameMaxEncoded

def WireFrameParser.empty (discarding : Bool) : WireFrameParser := ⟨[], discarding, by simp⟩

section Codec

variable (crc8 : Bytes → UInt8)

/-- The payload handed to the callback, if the frame decodes and its CRC agrees. -/
def deliverFrame (accumulator : Bytes) : Option Bytes :=
  match cobsDecodeInPlace accumulator with
  | .error _ => none
  | .ok (buffer, decodedLength) =>
      if decodedLength < 1 then none
      else
        let payloadLength := decodedLength - 1
        if byteAt buffer payloadLength ≠ crc8 (buffer.take payloadLength) then none
        else some (buffer.take payloadLength)

/-- One byte: the next state, and the payload if the callback is invoked. -/
def wireFrameParserIngestByte (parser : WireFrameParser) (byte : UInt8) :
    WireFrameParser × Option Bytes :=
  if byte = wireFrameDelimiter then
    (.empty false,
      if !parser.discarding && 0 < parser.accumulator.length then
        deliverFrame crc8 parser.accumulator
      else none)
  else if parser.discarding then (parser, none)
  else if h : wireFrameMaxEncoded ≤ parser.accumulator.length then (.empty true, none)
  else
    ({ parser with
        accumulator := parser.accumulator ++ [byte]
        fits := by rw [List.length_append, List.length_singleton]; omega }, none)

/-- The state after a chunk and the payloads delivered along it, in order. -/
def wireFrameParserIngest (parser : WireFrameParser) : Bytes → WireFrameParser × List Bytes
  | [] => (parser, [])
  | byte :: rest =>
      let step := wireFrameParserIngestByte crc8 parser byte
      let run := wireFrameParserIngest step.1 rest
      (run.1, step.2.toList ++ run.2)

def ingestChunks (parser : WireFrameParser) : List Bytes → WireFrameParser × List Bytes
  | [] => (parser, [])
  | chunk :: chunks =>
      let step := wireFrameParserIngest crc8 parser chunk
      let run := ingestChunks step.1 chunks
      (run.1, step.2 ++ run.2)

def wireFrameEncode (payload output : Bytes) : Except Errno (ℕ × Bytes) :=
  if wireFrameMaxPayload < payload.length then .error .emsgsize
  else cobsEncode (payload ++ [crc8 payload]) output

end Codec

section Stream

variable {crc8 : Bytes → UInt8}

/-! ## Chunk boundaries do not matter -/

theorem wireFrameParserIngest_append (parser : WireFrameParser) (front back : Bytes) :
    wireFrameParserIngest crc8 parser (front ++ back) =
      ((wireFrameParserIngest crc8 (wireFrameParserIngest crc8 parser front).1 back).1,
        (wireFrameParserIngest crc8 parser front).2 ++
          (wireFrameParserIngest crc8 (wireFrameParserIngest crc8 parser front).1 back).2) := by
  induction front generalizing parser with
  | nil => rfl
  | cons byte front ih =>
      rw [List.cons_append, wireFrameParserIngest, wireFrameParserIngest, ih]
      simp

theorem ingestChunks_eq_flatten (chunks : List Bytes) (parser : WireFrameParser) :
    ingestChunks crc8 parser chunks = wireFrameParserIngest crc8 parser chunks.flatten := by
  induction chunks generalizing parser with
  | nil => rfl
  | cons chunk chunks ih =>
      rw [ingestChunks, ih, List.flatten_cons, wireFrameParserIngest_append]

/-! ## One frame -/

/-- A delimiter empties the parser, whatever it was doing. -/
theorem wireFrameParserIngest_delimiter (parser : WireFrameParser) (junk : Bytes) :
    (wireFrameParserIngest crc8 parser (junk ++ [wireFrameDelimiter])).1 = .empty false := by
  rw [wireFrameParserIngest_append]
  rfl

theorem wireFrameParserIngestByte_delimiter (parser : WireFrameParser)
    (hkeep : parser.discarding = false) (hpos : 0 < parser.accumulator.length) :
    wireFrameParserIngestByte crc8 parser wireFrameDelimiter =
      (.empty false, deliverFrame crc8 parser.accumulator) := by
  rw [wireFrameParserIngestByte, if_pos rfl, hkeep]
  simp [hpos]

theorem wireFrameParserIngest_nonzero (bytes : Bytes) (hbytes : ∀ b ∈ bytes, b ≠ 0)
    (parser : WireFrameParser) (hkeep : parser.discarding = false)
    (hfits : (parser.accumulator ++ bytes).length ≤ wireFrameMaxEncoded) :
    wireFrameParserIngest crc8 parser bytes = (⟨parser.accumulator ++ bytes, false, hfits⟩, []) := by
  induction bytes generalizing parser with
  | nil =>
      rw [wireFrameParserIngest]
      simp [WireFrameParser.ext_iff, hkeep]
  | cons byte rest ih =>
      have hroom : ¬wireFrameMaxEncoded ≤ parser.accumulator.length := by
        rw [List.length_append, List.length_cons] at hfits
        omega
      have hstep : wireFrameParserIngestByte crc8 parser byte =
          (⟨parser.accumulator ++ [byte], false,
            by rw [List.length_append, List.length_singleton]; omega⟩, none) := by
        have hdata : byte ≠ wireFrameDelimiter := hbytes byte (by simp)
        rw [wireFrameParserIngestByte, if_neg hdata, if_neg (by simp [hkeep]), dif_neg hroom]
        simp [hkeep]
      rw [wireFrameParserIngest, hstep, ih (fun b hb => hbytes b (by simp [hb])) _ rfl
        (by simpa using hfits)]
      simp

theorem deliverFrame_stuff (payload : Bytes) :
    deliverFrame crc8 (stuff (payload ++ [crc8 payload])) = some payload := by
  have hne : stuff (payload ++ [crc8 payload]) ≠ [] := stuffFrom_ne_nil _ _
  obtain ⟨back, hdecode⟩ := cobsDecodeInPlace_eq hne (unstuff_stuff _)
  have hlen : (payload ++ [crc8 payload]).length = payload.length + 1 := by simp
  have htake : (payload ++ [crc8 payload] ++ back).take payload.length = payload := by simp
  have hcrc : byteAt (payload ++ [crc8 payload] ++ back) payload.length = crc8 payload := by
    rw [List.append_assoc]
    exact byteAt_append_of_eq rfl
  rw [deliverFrame, hdecode]
  simp only [hlen, Nat.add_sub_cancel, htake, hcrc]
  rw [if_neg (by omega), if_neg (by simp)]

theorem stuffed_frame_fits {payload : Bytes} (h : payload.length ≤ wireFrameMaxPayload) :
    (stuff (payload ++ [crc8 payload])).length < wireFrameMaxEncoded := by
  have hle : payload.length ≤ 128 := h
  have hbound := stuff_length_le (payload ++ [crc8 payload])
  rw [List.length_append, List.length_singleton] at hbound
  change _ < 131
  omega

/-- A whole frame on an empty parser delivers its payload and empties the parser. -/
theorem wireFrameParserIngest_frame {payload : Bytes} (h : payload.length ≤ wireFrameMaxPayload) :
    wireFrameParserIngest crc8 (.empty false)
      (stuff (payload ++ [crc8 payload]) ++ [wireFrameDelimiter]) =
      (.empty false, [payload]) := by
  have hfits : (stuff (payload ++ [crc8 payload])).length < wireFrameMaxEncoded :=
    stuffed_frame_fits h
  have hpos : 0 < (stuff (payload ++ [crc8 payload])).length :=
    List.length_pos_of_ne_nil (stuffFrom_ne_nil _ _)
  rw [wireFrameParserIngest_append, wireFrameParserIngest_nonzero _ (stuff_nonzero _) _ rfl
    (by rw [WireFrameParser.empty, List.nil_append]; omega)]
  simp only [WireFrameParser.empty, List.nil_append]
  rw [wireFrameParserIngest, wireFrameParserIngestByte_delimiter _ rfl hpos, deliverFrame_stuff]
  rfl

/-! ## A stream of frames -/

/-- The bytes an encoder call left for a payload, in some output buffer. -/
def WroteFrame (crc8 : Bytes → UInt8) (payload frame : Bytes) : Prop :=
  ∃ (output written : Bytes) (length : ℕ),
    wireFrameEncode crc8 payload output = .ok (length, written) ∧ frame = written.take length

theorem wireFrameEncode_eq {payload output : Bytes} (h : payload.length ≤ wireFrameMaxPayload)
    (hout : cobsMaxEncoded (payload.length + 1) ≤ output.length) :
    ∃ length written, wireFrameEncode crc8 payload output = .ok (length, written) ∧
      written.take length = stuff (payload ++ [crc8 payload]) ++ [wireFrameDelimiter] := by
  rw [wireFrameEncode, if_neg (by omega)]
  exact cobsEncode_eq (by rw [List.length_append, List.length_singleton]; exact hout)

theorem wroteFrame_eq {payload frame : Bytes} (h : WroteFrame crc8 payload frame) :
    payload.length ≤ wireFrameMaxPayload ∧
      frame = stuff (payload ++ [crc8 payload]) ++ [wireFrameDelimiter] := by
  obtain ⟨output, written, length, hencode, hframe⟩ := h
  have hshort : payload.length ≤ wireFrameMaxPayload := by
    by_contra hlong
    rw [wireFrameEncode, if_pos (by omega)] at hencode
    cases hencode
  have hroom : cobsMaxEncoded (payload.length + 1) ≤ output.length := by
    by_contra hsmall
    rw [wireFrameEncode, if_neg (by omega), cobsEncode,
      if_pos (by rw [List.length_append, List.length_singleton]; omega)] at hencode
    cases hencode
  obtain ⟨length', written', hok, htake⟩ := wireFrameEncode_eq hshort hroom
  rw [hok] at hencode
  cases hencode
  exact ⟨hshort, hframe.trans htake⟩

theorem wireFrameParserIngest_frames {payloads frames : List Bytes}
    (h : List.Forall₂ (WroteFrame crc8) payloads frames) :
    wireFrameParserIngest crc8 (.empty false) frames.flatten = (.empty false, payloads) := by
  induction h with
  | nil => rfl
  | cons hframe _ ih =>
      obtain ⟨hshort, heq⟩ := wroteFrame_eq hframe
      rw [List.flatten_cons, wireFrameParserIngest_append, heq,
        wireFrameParserIngest_frame hshort, ih]
      rfl

/-- The payloads a frame delivers on an empty parser. -/
def framePayloads (crc8 : Bytes → UInt8) (frame : Bytes) : List Bytes :=
  (wireFrameParserIngest crc8 (.empty false) frame).2

theorem framePayloads_eq {payload frame : Bytes} (h : WroteFrame crc8 payload frame) :
    framePayloads crc8 frame = [payload] := by
  obtain ⟨hshort, heq⟩ := wroteFrame_eq h
  rw [framePayloads, heq, wireFrameParserIngest_frame hshort]

theorem wireFrameParserIngest_flatten {frames : List Bytes}
    (h : ∀ frame ∈ frames, ∃ payload, WroteFrame crc8 payload frame) :
    wireFrameParserIngest crc8 (.empty false) frames.flatten =
      (.empty false, frames.flatMap (framePayloads crc8)) := by
  induction frames with
  | nil => rfl
  | cons frame frames ih =>
      obtain ⟨payload, hframe⟩ := h frame List.mem_cons_self
      obtain ⟨hshort, heq⟩ := wroteFrame_eq hframe
      have hfirst : wireFrameParserIngest crc8 (.empty false) frame = (.empty false, [payload]) := by
        rw [heq, wireFrameParserIngest_frame hshort]
      rw [List.flatten_cons, wireFrameParserIngest_append, hfirst,
        ih fun f hf => h f (List.mem_cons_of_mem _ hf), List.flatMap_cons, framePayloads_eq hframe]

/-- Bytes without a delimiter deliver nothing. -/
theorem wireFrameParserIngest_unended {bytes : Bytes} (h : ∀ b ∈ bytes, b ≠ wireFrameDelimiter)
    (parser : WireFrameParser) : (wireFrameParserIngest crc8 parser bytes).2 = [] := by
  induction bytes generalizing parser with
  | nil => rfl
  | cons byte bytes ih =>
      have hnone : (wireFrameParserIngestByte crc8 parser byte).2 = none := by
        rw [wireFrameParserIngestByte, if_neg (h byte List.mem_cons_self)]
        split_ifs <;> rfl
      rw [wireFrameParserIngest, hnone, ih fun b hb => h b (List.mem_cons_of_mem _ hb)]
      rfl

end Stream

/-- After any bytes that end in a delimiter, a stream of encoded frames delivers
exactly its payloads however it is cut, and every payload of legal size encodes. -/
theorem wireFrame_stream_exact (crc8 : Bytes → UInt8) :
    (∀ payload output : Bytes, payload.length ≤ wireFrameMaxPayload →
      wireFrameMaxEncoded ≤ output.length → ∃ length written,
        wireFrameEncode crc8 payload output = .ok (length, written)) ∧
    ∀ (junk : List Bytes) (payloads frames chunks : List Bytes),
      (∃ before, junk.flatten = before ++ [wireFrameDelimiter]) →
      List.Forall₂ (WroteFrame crc8) payloads frames →
      chunks.flatten = frames.flatten →
      ingestChunks crc8 (ingestChunks crc8 (.empty false) junk).1 chunks =
        (.empty false, payloads) := by
  constructor
  · intro payload output hshort hout
    have hroom : cobsMaxEncoded (payload.length + 1) ≤ output.length := by
      have hle : payload.length ≤ 128 := hshort
      have hcap : 131 ≤ output.length := hout
      rw [cobsMaxEncoded]
      omega
    obtain ⟨length, written, hok, -⟩ := wireFrameEncode_eq hshort hroom
    exact ⟨length, written, hok⟩
  · rintro junk payloads frames chunks ⟨before, hbefore⟩ hframes hchunks
    rw [ingestChunks_eq_flatten, ingestChunks_eq_flatten, hbefore,
      wireFrameParserIngest_delimiter, hchunks, wireFrameParserIngest_frames hframes]

def crc8CcittBit (crc : UInt8) : UInt8 := if 0x80 ≤ crc then (crc <<< 1) ^^^ 0x07 else crc <<< 1

/-- `crc8_ccitt` from the seed the frames use, for examples. -/
def crc8Ccitt (data : Bytes) : UInt8 :=
  data.foldl (fun crc byte => crc8CcittBit^[8] (crc ^^^ byte)) 0

/-- An overlong run of junk, then a frame around a zero byte cut in two. -/
theorem wireFrame_stream_exact_sample :
    ingestChunks crc8Ccitt
      (ingestChunks crc8Ccitt (.empty false) [List.replicate 140 1, [0]]).1
      [[3, 1, 2], [2, 65, 0]] = (.empty false, [[1, 2, 0]]) := by
  obtain ⟨-, hstream⟩ := wireFrame_stream_exact crc8Ccitt
  refine hstream _ [[1, 2, 0]] [[3, 1, 2, 2, 65, 0]] _ ⟨List.replicate 140 1, rfl⟩ ?_ rfl
  have hwrote : WroteFrame crc8Ccitt [1, 2, 0] [3, 1, 2, 2, 65, 0] :=
    ⟨List.replicate 6 0, [3, 1, 2, 2, 65, 0], 6, by decide +kernel, rfl⟩
  exact .cons hwrote .nil

end SplitEsb
