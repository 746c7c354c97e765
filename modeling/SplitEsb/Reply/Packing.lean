import SplitEsb.Reply.Link

/-! # Packing queued replies
What pack_queued_replies puts into a payload, and the pointer report it may end with. -/

namespace SplitEsb

open ByteString

variable {config : ReplyConfig}

namespace ReplyLink

/-- A queued reply as it is sent: a mouse report for a relay is stamped. -/
def sentForm (relay : Bool) (pointer : RelayPointer) (packet : Bytes) : Bytes :=
  (if relay then pointer.stamp packet else none).getD packet

theorem length_sentForm (relay : Bool) (pointer : RelayPointer) (packet : Bytes) :
    (sentForm relay pointer packet).length = packet.length := by
  rw [sentForm]
  cases hstamp : if relay then pointer.stamp packet else none with
  | none => rfl
  | some stamped =>
      cases relay with
      | false => cases hstamp
      | true => exact RelayPointer.length_of_stamp hstamp

variable {relay : Bool} {pointer : RelayPointer} {room : ℕ}

/-- How packing goes on: so many packets are appended in the form they are sent in. -/
structure Packs (relay : Bool) (pointer : RelayPointer) (room : ℕ) (packets : List Bytes)
    (packed result : PackedReplies) (count : ℕ) : Prop where
  count_le : count ≤ packets.length
  taken : result.taken = packed.taken + count
  data : result.data =
    packed.data ++ ((packets.take count).map (sentForm relay pointer)).flatten
  fits : packed.data.length ≤ room → result.data.length ≤ room
  alone : relay = false → count ≤ 1
  first : ∀ packet ∈ packets.head?, packed.data.length + packet.length ≤ room → 0 < count

theorem length_data_packReply (relay : Bool) (pointer : RelayPointer) (packet : Bytes)
    (packed : PackedReplies) : (packReply relay pointer packet packed).data.length =
      packed.data.length + packet.length := by
  have hlength := length_sentForm relay pointer packet
  rw [sentForm] at hlength
  simp only [packReply, List.length_append, hlength]

theorem exists_packs (relay : Bool) (pointer : RelayPointer) (room : ℕ) (packets : List Bytes)
    (packed : PackedReplies) : ∃ count, Packs relay pointer room packets packed
      (packQueuedReplies relay pointer room packets packed) count := by
  induction packets generalizing packed with
  | nil => exact ⟨0, by simp, rfl, by simp [packQueuedReplies], id, by simp, by simp⟩
  | cons packet packets ih =>
      have hone := length_data_packReply relay pointer packet packed
      rw [packQueuedReplies]
      split_ifs with hfull hrelay
      · refine ⟨0, by simp, rfl, by simp, id, by simp, fun first hfirst hroom => ?_⟩
        cases hfirst
        omega
      · obtain ⟨count, h⟩ := ih (packReply relay pointer packet packed)
        refine ⟨count + 1, by simpa using h.count_le, ?_, ?_, ?_, ?_, by simp⟩
        · rw [h.taken]
          exact Nat.add_right_comm packed.taken 1 count
        · rw [h.data]
          simp [packReply, sentForm]
        · intro _
          exact h.fits (by omega)
        · intro hplain
          rw [hrelay] at hplain
          cases hplain
      · refine ⟨1, by simp, rfl, ?_, ?_, by simp, by simp⟩
        · simp [packReply, sentForm]
        · intro _
          omega

variable (link : ReplyLink config) (pipe : ℕ)

theorem packs_packed : Packs (config.relayPipe pipe) link.pointer (link.queuedRoom pipe)
    (link.queue pipe) ⟨[], 0, 0, false⟩ (link.packed pipe) (link.packed pipe).taken := by
  obtain ⟨count, h⟩ := exists_packs (config.relayPipe pipe) link.pointer (link.queuedRoom pipe)
    (link.queue pipe) ⟨[], 0, 0, false⟩
  have hcount : (link.packed pipe).taken = count := by
    rw [packed, h.taken, Nat.zero_add]
  rw [hcount]
  exact h

theorem taken_packed_le : (link.packed pipe).taken ≤ (link.queue pipe).length :=
  (packs_packed link pipe).count_le

theorem data_packed : (link.packed pipe).data =
    (((link.queue pipe).take (link.packed pipe).taken).map
      (sentForm (config.relayPipe pipe) link.pointer)).flatten :=
  (packs_packed link pipe).data

theorem queuedRoom_le : link.queuedRoom pipe ≤ config.maxPayload := by
  rw [queuedRoom]
  split_ifs
  · exact Nat.le_refl _
  · exact Nat.sub_le _ _

theorem length_data_packed_le : (link.packed pipe).data.length ≤ config.maxPayload :=
  ((packs_packed link pipe).fits (Nat.zero_le _)).trans (queuedRoom_le link pipe)

theorem length_appendPointer {link : ReplyLink config} {pipe : ℕ} {data report : Bytes}
    {changesQueued : Bool} (h : link.appendPointer pipe data changesQueued = some report) :
    report.length = esbHidRelayPointerLength ∧
      report.length ≤ config.maxPayload - data.length := by
  rw [appendPointer] at h
  split_ifs at h
  obtain ⟨hlength, hroom⟩ := RelayPointer.length_of_take h
  exact ⟨hlength, by omega⟩

@[simp] theorem taken_withPointer (packed : PackedReplies) :
    (link.withPointer pipe packed).taken = packed.taken := by
  rw [withPointer]
  split_ifs <;> rfl

/-- The payload is what was packed, and at most a pointer report after it. -/
theorem data_withPointer (packed : PackedReplies) : ∃ report : Option Bytes,
    (link.withPointer pipe packed).data = packed.data ++ report.getD [] ∧
      ∀ bytes ∈ report, ∃ changesQueued,
        link.appendPointer pipe packed.data changesQueued = some bytes := by
  rw [withPointer]
  split_ifs
  · exact ⟨none, by simp, by simp⟩
  · exact ⟨_, rfl, fun bytes hbytes => ⟨_, hbytes⟩⟩

theorem length_withPointer_le {packed : PackedReplies} (h : packed.data.length ≤ config.maxPayload) :
    (link.withPointer pipe packed).data.length ≤ config.maxPayload := by
  obtain ⟨report, hdata, hreport⟩ := data_withPointer link pipe packed
  rw [hdata]
  cases report with
  | none => simpa using h
  | some bytes =>
      obtain ⟨changesQueued, happend⟩ := hreport bytes rfl
      have := (length_appendPointer happend).2
      simp only [Option.getD_some, List.length_append]
      omega

end ReplyLink

end SplitEsb
