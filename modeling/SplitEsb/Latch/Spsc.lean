import Mathlib.Data.List.Basic

/-! # Single-producer latest-value latch
The producer claims the slots in turn and publishes the one it filled; the consumer
peeks at the published slot and releases it. A slot pointer is the slot's index. -/

namespace SplitEsb

structure SpscLatch where
  published : Option ℕ
  nextIndex : UInt32
  slotCount : UInt8
  deriving DecidableEq, Repr

namespace SpscLatch

/-- A latch in cleared memory, once its slot count is set. -/
def init (slotCount : UInt8) : SpscLatch := ⟨none, 0, slotCount⟩

/-- The claimed slot, and the latch after the claim. -/
def claim (latch : SpscLatch) : ℕ × SpscLatch :=
  ((latch.nextIndex % latch.slotCount.toUInt32).toNat,
    { latch with nextIndex := latch.nextIndex + 1 })

def publish (latch : SpscLatch) (slot : ℕ) : SpscLatch := { latch with published := some slot }

def peek (latch : SpscLatch) : Option ℕ := latch.published

/-- Clears the latch only while it still holds the expected slot. -/
def release (latch : SpscLatch) (expected : ℕ) : SpscLatch :=
  if latch.published = some expected then { latch with published := none } else latch

/-! ## Two slots -/

/-- Two slots, of which so many claims were taken so far. -/
structure Claims (latch : SpscLatch) (count : ℕ) : Prop where
  slotCount : latch.slotCount = 2
  nextIndex : latch.nextIndex = UInt32.ofNat count

theorem claims_init : (init 2).Claims 0 := ⟨rfl, rfl⟩

variable {latch : SpscLatch} {count : ℕ}

/-- The slots are claimed in turn, also where the index wraps. -/
theorem Claims.claim_fst (h : latch.Claims count) : latch.claim.1 = count % 2 := by
  rw [claim, h.slotCount, h.nextIndex]
  change (UInt32.ofNat count % 2).toNat = count % 2
  rw [UInt32.toNat_mod, UInt32.toNat_ofNat']
  exact Nat.mod_mod_of_dvd count ⟨2147483648, rfl⟩

theorem Claims.claim (h : latch.Claims count) : latch.claim.2.Claims (count + 1) :=
  ⟨h.slotCount, by rw [SpscLatch.claim, h.nextIndex, UInt32.ofNat_add]; rfl⟩

theorem Claims.publish (h : latch.Claims count) (slot : ℕ) : (latch.publish slot).Claims count :=
  ⟨h.slotCount, h.nextIndex⟩

theorem Claims.release (h : latch.Claims count) (expected : ℕ) :
    (latch.release expected).Claims count := by
  rw [SpscLatch.release]
  split
  · exact ⟨h.slotCount, h.nextIndex⟩
  · exact h

@[simp] theorem peek_publish (slot : ℕ) : (latch.publish slot).peek = some slot := rfl

@[simp] theorem peek_claim : latch.claim.2.peek = latch.peek := rfl

theorem peek_release {expected : ℕ} (h : latch.peek = some expected) :
    (latch.release expected).peek = none := by
  have hpublished : latch.published = some expected := h
  rw [release, if_pos hpublished]
  rfl

theorem peek_release_of_ne {expected : ℕ} (h : latch.peek ≠ some expected) :
    (latch.release expected).peek = latch.peek := by
  have hpublished : latch.published ≠ some expected := h
  rw [release, if_neg hpublished]

/-- A release publishes nothing. -/
theorem peek_of_peek_release {expected slot : ℕ}
    (h : (latch.release expected).peek = some slot) : latch.peek = some slot := by
  by_cases hheld : latch.peek = some expected
  · rw [peek_release hheld] at h
    cases h
  · rw [← peek_release_of_ne hheld, h]

end SpscLatch

end SplitEsb
