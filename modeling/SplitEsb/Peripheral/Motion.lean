import Mathlib.Data.List.TakeDrop
import SplitEsb.Central.Motion
import SplitEsb.Peripheral.Packets

/-! # Motion on the peripheral
The slot an axis claims, the total it keeps, and a snapshot that reads one slot
at a time while the input thread goes on. -/

namespace SplitEsb

open SlotTable Residue

/-! ## Slots -/

/-- The scan that claims the first unclaimed slot it meets is a claim: unclaimed
slots come last. -/
theorem motionSlotFor_eq {axis : MotionAxis} {slots slots' : Slots MotionAxis Int32}
    (packed : Packed slots) (h : claim axis 0 slots = some slots') :
    motionSlotFor axis slots = some (slots', (lookup axis slots).getD 0) ∧ Packed slots' := by
  obtain ⟨entries, n, rfl⟩ := packed
  induction entries generalizing slots' with
  | nil =>
      rw [List.map_nil, List.nil_append] at h ⊢
      cases n with
      | zero => cases h
      | succ n =>
          have hlookup := @lookup_replicate_none MotionAxis Int32 _ axis (n + 1)
          rw [claim, hlookup] at h
          cases h
          exact ⟨by rw [hlookup]; rfl, ⟨[(axis, 0)], n, rfl⟩⟩
  | cons entry entries ih =>
      obtain ⟨claimed, total⟩ := entry
      rw [List.map_cons, List.cons_append] at h ⊢
      by_cases haxis : claimed = axis
      · have hlookup : lookup axis (some (claimed, total) ::
            (entries.map some ++ List.replicate n none)) = some total := if_pos haxis
        rw [claim, hlookup] at h
        cases h
        refine ⟨?_, Packed.cons ⟨entries, n, rfl⟩ _⟩
        rw [hlookup, motionSlotFor, if_pos haxis]
        rfl
      · rw [claim_cons_ne haxis] at h
        obtain ⟨rest, hrest, rfl⟩ := Option.map_eq_some_iff.mp h
        obtain ⟨hslot, hpacked⟩ := ih hrest
        refine ⟨?_, hpacked.cons _⟩
        rw [motionSlotFor, if_neg haxis, hslot, lookup, if_neg haxis]
        rfl

/-- The slots hold the totals of the axes, truncated to their words. -/
structure MotionTotals (axes : List MotionAxis) (slots : Slots MotionAxis Int32)
    (truth : MotionAxis → ℤ) : Prop where
  within : Within axes slots
  packed : Packed slots
  total : ∀ axis, (lookup axis slots).getD 0 = Int32.ofInt (truth axis)
  unclaimed : ∀ axis, lookup axis slots = none → truth axis = 0

theorem motionTotals_init {axes : List MotionAxis} {n : ℕ} (h : axes.length ≤ n) :
    MotionTotals axes (List.replicate n none) fun _ => 0 where
  within := within_replicate_none h
  packed := packed_replicate_none n
  total axis := by rw [lookup_replicate_none]; rfl
  unclaimed _ _ := rfl

theorem MotionTotals.claim {axes : List MotionAxis} {slots : Slots MotionAxis Int32}
    {truth : MotionAxis → ℤ} (h : MotionTotals axes slots truth) {axis : MotionAxis}
    (haxis : axis ∈ axes) :
    ∃ slots', motionSlotFor axis slots = some (slots', Int32.ofInt (truth axis)) ∧
      MotionTotals axes slots' truth ∧ axis ∈ keys slots' := by
  obtain ⟨slots', hclaim, hwithin, hlookup⟩ := h.within.claim haxis (0 : Int32)
  obtain ⟨hslot, hpacked⟩ := motionSlotFor_eq h.packed hclaim
  rw [h.total axis] at hslot hlookup
  refine ⟨slots', hslot, ⟨hwithin, hpacked, fun other => ?_, fun other hnone => ?_⟩, ?_⟩
  · rw [hlookup other]
    split_ifs with hother
    · rw [hother]
      rfl
    · exact h.total other
  · rw [hlookup other] at hnone
    split_ifs at hnone
    exact h.unclaimed other hnone
  · rw [← lookup_isSome_iff, hlookup axis, if_pos rfl]
    rfl

theorem MotionTotals.store {axes : List MotionAxis} {slots : Slots MotionAxis Int32}
    {truth : MotionAxis → ℤ} (h : MotionTotals axes slots truth) {axis : MotionAxis}
    (hheld : axis ∈ keys slots) (total : ℤ) :
    MotionTotals axes (store axis (Int32.ofInt total) slots)
      (Function.update truth axis total) where
  within := h.within.store _ _
  packed := h.packed.store _ _
  total other := by
    by_cases hother : other = axis
    · rw [hother, lookup_store_self hheld, Function.update_self]
      rfl
    · rw [lookup_store_ne hother, Function.update_of_ne hother]
      exact h.total other
  unclaimed other hnone := by
    by_cases hother : other = axis
    · rw [hother, lookup_store_self hheld] at hnone
      cases hnone
    · rw [lookup_store_ne hother] at hnone
      rw [Function.update_of_ne hother]
      exact h.unclaimed other hnone

/-- What a snapshot reads from a slot is the low half of the total of its axis. -/
theorem MotionTotals.healMark {axes : List MotionAxis} {slots : Slots MotionAxis Int32}
    {truth : MotionAxis → ℤ} (h : MotionTotals axes slots truth) {slot : MotionAxis × Int32}
    (hslot : some slot ∈ slots) :
    HealMark (motionRecord slot) (some (slot.1, truth slot.1)) := by
  have hlookup := lookup_of_mem h.within.nodup hslot
  have htotal := h.total slot.1
  rw [hlookup, Option.getD_some] at htotal
  refine ⟨truth slot.1, rfl, ?_⟩
  rw [motionRecord, htotal, Int32.toInt16_ofInt]

/-! ## The input thread -/

variable {L : EventLayout} {config : PeripheralConfig L}

/-- The first half of `motionToTotal`: the slot is claimed, its total still old. -/
def Peripheral.claimMotionSlot (peripheral : Peripheral config) (event : InputEvent) :
    Peripheral config :=
  if event.type ≠ inputEvRel ∨ 255 < event.code.toNat then peripheral
  else
    match h : motionSlotFor (event.reg, event.code.toUInt8) peripheral.motionSlots with
    | none => peripheral
    | some (slots, _) =>
        { peripheral with
          motionSlots := slots
          motionSlots_length := by
            rw [length_motionSlotFor h, peripheral.motionSlots_length] }

theorem claimMotionSlot_totals {axes : List MotionAxis} {truth : MotionAxis → ℤ}
    {peripheral : Peripheral config} (h : MotionTotals axes peripheral.motionSlots truth)
    {event : InputEvent} (haxis : event.type = inputEvRel → event.code.toNat ≤ 255 →
      (event.reg, event.code.toUInt8) ∈ axes) :
    MotionTotals axes (peripheral.claimMotionSlot event).motionSlots truth ∧
      (peripheral.claimMotionSlot event).batch = peripheral.batch := by
  rw [Peripheral.claimMotionSlot]
  split_ifs with hskip
  · exact ⟨h, rfl⟩
  · rw [not_or, not_not, Nat.not_lt] at hskip
    obtain ⟨slots', hslot, htotals, -⟩ := h.claim (haxis hskip.1 hskip.2)
    split
    · exact ⟨h, rfl⟩
    · rename_i found hfound
      rw [hslot] at hfound
      cases hfound
      exact ⟨htotals, rfl⟩

/-- An event that is no motion of an axis keeps its value. -/
theorem motionToTotal_skip (peripheral : Peripheral config) {event : InputEvent}
    (h : event.type ≠ inputEvRel ∨ 255 < event.code.toNat) :
    peripheral.motionToTotal event = (peripheral, event) := if_pos h

/-- An increment is replaced by the flagged total it leads to. -/
theorem motionToTotal_totals {axes : List MotionAxis} {truth : MotionAxis → ℤ}
    {peripheral : Peripheral config} (h : MotionTotals axes peripheral.motionSlots truth)
    {event : InputEvent} (htype : event.type = inputEvRel) (hcode : event.code.toNat ≤ 255)
    (haxis : (event.reg, event.code.toUInt8) ∈ axes) :
    let axis := (event.reg, event.code.toUInt8)
    let total := truth axis + event.value.toInt
    MotionTotals axes (peripheral.motionToTotal event).1.motionSlots
        (Function.update truth axis total) ∧
      (peripheral.motionToTotal event).1.batch = peripheral.batch ∧
      (peripheral.motionToTotal event).2 =
        { event with value := Int32.ofInt total, sync := event.sync ||| esbWireInputTotal } := by
  intro axis total
  obtain ⟨slots', hslot, htotals, hheld⟩ := h.claim haxis
  have hword : esbMotionTotalAdd (Int32.ofInt (truth axis)) event.value = Int32.ofInt total := by
    rw [esbMotionTotalAdd, Int32.ofInt_add, Int32.ofInt_toInt]
  have hkeep : ¬(event.type ≠ inputEvRel ∨ 255 < event.code.toNat) := by
    rw [not_or, not_not]
    exact ⟨htype, Nat.not_lt.mpr hcode⟩
  have hstored := htotals.store hheld total
  rw [← hword] at hstored ⊢
  rw [Peripheral.motionToTotal, if_neg hkeep]
  dsimp only
  split
  · rename_i hnone
    rw [hslot] at hnone
    cases hnone
  · rename_i found last hfound
    rw [hslot] at hfound
    cases hfound
    exact ⟨hstored, rfl, rfl⟩

/-! ## The snapshot -/

/-- A snapshot under way: the slots below `index` have been read. -/
structure SnapshotRead (config : PeripheralConfig L) where
  index : ℕ
  totals : List EsbKeepaliveMotionTotal
  index_le : index ≤ config.motionSlotCount
  totals_le : totals.length ≤ index

namespace SnapshotRead

def start (config : PeripheralConfig L) : SnapshotRead config := ⟨0, [], Nat.zero_le _, le_rfl⟩

/-- Reads the next slot as it is now. -/
def next (read : SnapshotRead config) (peripheral : Peripheral config) : SnapshotRead config :=
  if h : read.index < config.motionSlotCount then
    match peripheral.motionSlots[read.index]?.join with
    | none => ⟨read.index + 1, read.totals, h, Nat.le_succ_of_le read.totals_le⟩
    | some slot => ⟨read.index + 1, read.totals ++ [motionRecord slot], h, by
        rw [List.length_append, List.length_singleton]
        exact Nat.succ_le_succ read.totals_le⟩
  else read

theorem next_spec (read : SnapshotRead config) (peripheral : Peripheral config)
    (h : read.index < config.motionSlotCount) :
    (read.next peripheral).index = read.index + 1 ∧
      (read.next peripheral).totals = read.totals ++
        (peripheral.motionSlots[read.index]?.join.map motionRecord).toList := by
  rw [next, dif_pos h]
  cases peripheral.motionSlots[read.index]?.join with
  | none => exact ⟨rfl, (List.append_nil _).symm⟩
  | some slot => exact ⟨rfl, rfl⟩

/-- The packet of a snapshot that read every slot. -/
def fill (read : SnapshotRead config) (peripheral : Peripheral config)
    (state linkCostX10 batteryLevel : UInt8) : Option UplinkPacket :=
  peripheral.keepaliveFill state linkCostX10 batteryLevel read.totals
    (read.totals_le.trans read.index_le)

end SnapshotRead

end SplitEsb
