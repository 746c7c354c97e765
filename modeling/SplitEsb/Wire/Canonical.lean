import Mathlib.Data.List.DropRight
import SplitEsb.Wire.Transmit

/-! # Frames the parser accepts
What a delimiter delivers depends on the bytes since the one before it. They are
stuffed data with a CRC, and fit the accumulator up to one byte beyond an encoded frame. -/

namespace SplitEsb

open ByteString Stuffing

/-- The bytes of a stream after its last delimiter. -/
def sinceDelimiter (stream : Bytes) : Bytes := stream.rtakeWhile fun b => b ≠ wireFrameDelimiter

theorem sinceDelimiter_concat (stream : Bytes) (b : UInt8) :
    sinceDelimiter (stream ++ [b]) =
      if b = wireFrameDelimiter then [] else sinceDelimiter stream ++ [b] := by
  by_cases hb : b = wireFrameDelimiter <;> simp [sinceDelimiter, hb]

theorem sinceDelimiter_nonzero (stream : Bytes) : ∀ b ∈ sinceDelimiter stream, b ≠ 0 := by
  intro b hb
  have hkept := List.mem_rtakeWhile_imp hb
  rwa [decide_eq_true_iff] at hkept

theorem sinceDelimiter_of_nonzero {bytes : Bytes} (h : ∀ b ∈ bytes, b ≠ 0) :
    sinceDelimiter bytes = bytes :=
  List.rtakeWhile_eq_self_iff.mpr fun b hb => decide_eq_true (h b hb)

variable {crc8 : Bytes → UInt8}

/-- The accumulator holds the bytes since the delimiter, or they outgrew it. -/
structure Collected (body : Bytes) (parser : WireFrameParser) : Prop where
  kept : body.length ≤ wireFrameMaxEncoded →
    parser.accumulator = body ∧ parser.discarding = false
  outgrown : wireFrameMaxEncoded < body.length → parser.discarding = true

theorem Collected.ingestByte {body : Bytes} {parser : WireFrameParser} (h : Collected body parser)
    (b : UInt8) :
    Collected (if b = wireFrameDelimiter then [] else body ++ [b])
      (wireFrameParserIngestByte crc8 parser b).1 := by
  rw [wireFrameParserIngestByte]
  by_cases hb : b = wireFrameDelimiter
  · rw [if_pos hb, if_pos hb]
    exact ⟨fun _ => ⟨rfl, rfl⟩, fun hlong => absurd hlong (Nat.not_lt_zero _)⟩
  · rw [if_neg hb, if_neg hb]
    have hlength : (body ++ [b]).length = body.length + 1 := by simp
    by_cases hlong : wireFrameMaxEncoded < body.length
    · rw [if_pos (h.outgrown hlong)]
      exact ⟨fun hkept => by omega, fun _ => h.outgrown hlong⟩
    · obtain ⟨hbody, hkeep⟩ := h.kept (Nat.not_lt.mp hlong)
      rw [if_neg (by rw [hkeep]; exact Bool.false_ne_true)]
      by_cases hfull : wireFrameMaxEncoded ≤ parser.accumulator.length
      · rw [dif_pos hfull]
        rw [hbody] at hfull
        exact ⟨fun hkept => by omega, fun _ => rfl⟩
      · rw [dif_neg hfull]
        rw [hbody] at hfull
        exact ⟨fun _ => ⟨congrArg (· ++ [b]) hbody, hkeep⟩, fun hout => by omega⟩

theorem collected_ingest (stream : Bytes) :
    Collected (sinceDelimiter stream) (wireFrameParserIngest crc8 (.empty false) stream).1 := by
  induction stream using List.reverseRecOn with
  | nil => exact ⟨fun _ => ⟨rfl, rfl⟩, fun hlong => absurd hlong (Nat.not_lt_zero _)⟩
  | append_singleton stream b ih =>
      rw [sinceDelimiter_concat, wireFrameParserIngest_append]
      exact ih.ingestByte b

/-- A full accumulator is delivered iff it unstuffs to a payload and its CRC. -/
theorem deliverFrame_iff {accumulator : Bytes} (hne : accumulator ≠ []) (payload : Bytes) :
    deliverFrame crc8 accumulator = some payload ↔
      unstuff accumulator = some (payload ++ [crc8 payload]) := by
  have hpos := List.length_pos_of_ne_nil hne
  rcases cobsDecodeLoop_eq accumulator [] [] rfl with ⟨hnone, herror⟩ | ⟨data, back, hdata, hok⟩
  · have hdecode : cobsDecodeInPlace accumulator = .error .einval := by
      rw [cobsDecodeInPlace, if_neg (by omega)]
      exact herror
    rw [deliverFrame, hdecode, hnone]
    exact iff_of_false (by simp) (by simp)
  · obtain ⟨back, hdecode⟩ := cobsDecodeInPlace_eq hne hdata
    rw [deliverFrame, hdecode, hdata]
    dsimp only
    rcases List.eq_nil_or_concat' data with rfl | ⟨front, crc, rfl⟩
    · exact iff_of_false (by simp) (by simp)
    · have hlength : (front ++ [crc]).length = front.length + 1 := by simp
      have htake : (front ++ [crc] ++ back).take front.length = front := by simp
      have hread : byteAt (front ++ [crc] ++ back) front.length = crc := by
        rw [List.append_assoc]
        exact byteAt_append_of_eq rfl
      rw [hlength, if_neg (by omega), Nat.add_sub_cancel, htake, hread, Option.some_inj]
      constructor
      · intro hdelivered
        split_ifs at hdelivered with hcrc
        cases hdelivered
        rw [not_not.mp hcrc]
      · intro hsame
        obtain ⟨rfl, hcrc⟩ := List.append_inj' hsame rfl
        rw [List.singleton_inj.mp hcrc, if_neg (not_not_intro rfl)]

/-! ## Lengths -/

/-- A stuffed payload fits the accumulator up to one byte more than a frame may carry. -/
theorem stuffed_payload_fits_iff (payload : Bytes) (crc : UInt8) :
    (stuff (payload ++ [crc])).length ≤ wireFrameMaxEncoded ↔
      payload.length ≤ wireFrameMaxPayload + 1 := by
  have hlength : (payload ++ [crc]).length = payload.length + 1 := by simp
  have hlower := lt_stuffFrom_length [] (payload ++ [crc])
  have hupper := stuff_length_le (payload ++ [crc])
  rw [stuff] at hupper ⊢
  rw [List.length_nil, hlength] at hlower
  rw [hlength] at hupper
  change _ ≤ 131 ↔ _ ≤ 129
  omega

/-! ## What a delimiter delivers -/

/-- The payload handed over when a delimiter follows the stream. -/
def deliveredBy (crc8 : Bytes → UInt8) (chunks : List Bytes) : Option Bytes :=
  (wireFrameParserIngestByte crc8 (ingestChunks crc8 (.empty false) chunks).1
    wireFrameDelimiter).2

theorem deliveredBy_iff (chunks : List Bytes) (payload : Bytes) :
    deliveredBy crc8 chunks = some payload ↔
      payload.length ≤ wireFrameMaxPayload + 1 ∧
        sinceDelimiter chunks.flatten = stuff (payload ++ [crc8 payload]) := by
  have h := @collected_ingest crc8 chunks.flatten
  rw [deliveredBy, ingestChunks_eq_flatten, wireFrameParserIngestByte, if_pos rfl]
  dsimp only
  set body := sinceDelimiter chunks.flatten with hbody
  set parser := (wireFrameParserIngest crc8 (.empty false) chunks.flatten).1
  have hnonzero : ∀ b ∈ body, b ≠ 0 := sinceDelimiter_nonzero chunks.flatten
  by_cases hlong : wireFrameMaxEncoded < body.length
  · rw [h.outgrown hlong]
    refine iff_of_false (by simp) ?_
    rintro ⟨hshort, hstuff⟩
    rw [hstuff, ← Nat.not_le, stuffed_payload_fits_iff] at hlong
    exact hlong hshort
  · rw [Nat.not_lt] at hlong
    obtain ⟨hkept, hkeep⟩ := h.kept hlong
    rw [hkept, hkeep]
    by_cases hne : body = []
    · rw [hne]
      refine iff_of_false (by simp) ?_
      rintro ⟨-, hstuff⟩
      exact stuffFrom_ne_nil _ _ hstuff.symm
    · have hpos := List.length_pos_of_ne_nil hne
      rw [if_pos (by simpa using hpos), deliverFrame_iff hne]
      constructor
      · intro hunstuff
        have hstuff := stuff_of_unstuff hnonzero (by change _ ≤ 131 at hlong; omega) hne hunstuff
        rw [← hstuff, stuffed_payload_fits_iff] at hlong
        exact ⟨hlong, hstuff.symm⟩
      · rintro ⟨-, hstuff⟩
        rw [hstuff, unstuff_stuff]

theorem wroteFrame_iff (payload body : Bytes) :
    WroteFrame crc8 payload (body ++ [wireFrameDelimiter]) ↔
      payload.length ≤ wireFrameMaxPayload ∧ body = stuff (payload ++ [crc8 payload]) := by
  constructor
  · intro hwrote
    obtain ⟨hshort, hframe⟩ := wroteFrame_eq hwrote
    exact ⟨hshort, List.append_cancel_right hframe⟩
  · rintro ⟨hshort, rfl⟩
    obtain ⟨length, written, hok, htake⟩ := @wireFrameEncode_eq crc8 payload
      (List.replicate (cobsMaxEncoded (payload.length + 1)) 0) hshort (by simp)
    exact ⟨_, written, length, hok, htake.symm⟩

/-- A delimiter delivers exactly what the encoder wrote since the last one, iff that is not
the stuffing of a payload one byte longer than a frame carries. -/
theorem parser_accepts_frames_iff (crc8 : Bytes → UInt8) (chunks : List Bytes) :
    (∀ payload, deliveredBy crc8 chunks = some payload ↔
      WroteFrame crc8 payload (sinceDelimiter chunks.flatten ++ [wireFrameDelimiter])) ↔
    ∀ payload : Bytes, payload.length = wireFrameMaxPayload + 1 →
      sinceDelimiter chunks.flatten ≠ stuff (payload ++ [crc8 payload]) := by
  simp only [deliveredBy_iff, wroteFrame_iff]
  constructor
  · intro h payload hlength hstuff
    have hshort := ((h payload).mp ⟨hlength.le, hstuff⟩).1
    omega
  · intro h payload
    constructor
    · rintro ⟨hshort, hstuff⟩
      have hne : payload.length ≠ wireFrameMaxPayload + 1 := fun heq => h payload heq hstuff
      exact ⟨by omega, hstuff⟩
    · rintro ⟨hshort, hstuff⟩
      exact ⟨by omega, hstuff⟩

/-- The stuffing of 129 bytes and their CRC fills the accumulator and is delivered. -/
theorem long_payload_delivered :
    ¬∀ (crc8 : Bytes → UInt8) (chunks : List Bytes) (payload : Bytes),
      deliveredBy crc8 chunks = some payload ↔
        WroteFrame crc8 payload (sinceDelimiter chunks.flatten ++ [wireFrameDelimiter]) := by
  intro hclaim
  let payload : Bytes := List.replicate 129 1
  have hlength : payload.length = 129 := List.length_replicate
  have hdelivered : deliveredBy crc8Ccitt
      [stuff (payload ++ [crc8Ccitt payload])] = some payload := by
    rw [deliveredBy_iff, List.flatten_singleton]
    exact ⟨hlength.le, sinceDelimiter_of_nonzero (stuff_nonzero _)⟩
  have hshort := (wroteFrame_eq ((hclaim _ _ _).mp hdelivered)).1
  rw [hlength] at hshort
  exact absurd hshort (by decide)

end SplitEsb
