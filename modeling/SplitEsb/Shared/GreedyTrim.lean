import Mathlib.Data.Finset.Card
import Mathlib.Order.Basic

/-! # Greedy trimming
While a set is larger than its floor, an eligible member of the highest score is dropped. -/

namespace GreedyTrim

variable {α β : Type*} [DecidableEq α] [Preorder β]

/-- What is kept of the members, and how many drops that took. -/
inductive Trim (eligible : α → Prop) (score : α → β) (floor : ℕ) :
    Finset α → Finset α → ℕ → Prop
  | stop {members : Finset α} (h : members.card ≤ floor ∨ ∀ other ∈ members, ¬eligible other) :
      Trim eligible score floor members members 0
  | drop {members kept : Finset α} {count : ℕ} {worst : α} (habove : floor < members.card)
      (hworst : worst ∈ members) (heligible : eligible worst)
      (hmax : ∀ other ∈ members, eligible other → score other ≤ score worst)
      (hrest : Trim eligible score floor (members.erase worst) kept count) :
      Trim eligible score floor members kept (count + 1)

variable {eligible : α → Prop} {score : α → β} {floor count : ℕ} {members kept : Finset α}

theorem Trim.subset (h : Trim eligible score floor members kept count) : kept ⊆ members := by
  induction h with
  | stop => exact Finset.Subset.refl _
  | drop _ _ _ _ _ ih => exact ih.trans (Finset.erase_subset _ _)

theorem Trim.eligible_of_dropped (h : Trim eligible score floor members kept count) {dropped : α}
    (hmem : dropped ∈ members) (hdropped : dropped ∉ kept) : eligible dropped := by
  induction h with
  | stop => exact absurd hmem hdropped
  | @drop members kept count worst _ _ heligible _ _ ih =>
      rcases eq_or_ne dropped worst with rfl | hne
      · exact heligible
      · exact ih (Finset.mem_erase.mpr ⟨hne, hmem⟩) hdropped

/-- Nothing kept could have been dropped before anything that was. -/
theorem Trim.dominates (h : Trim eligible score floor members kept count) {dropped other : α}
    (hmem : dropped ∈ members) (hdropped : dropped ∉ kept) (hother : other ∈ kept)
    (heligible : eligible other) : score other ≤ score dropped := by
  induction h with
  | stop => exact absurd hmem hdropped
  | @drop members kept count worst _ _ _ hmax hrest ih =>
      rcases eq_or_ne dropped worst with rfl | hne
      · exact hmax other (Finset.mem_of_mem_erase (hrest.subset hother)) heligible
      · exact ih (Finset.mem_erase.mpr ⟨hne, hmem⟩) hdropped hother

theorem Trim.stopped (h : Trim eligible score floor members kept count) :
    kept.card ≤ floor ∨ ∀ other ∈ kept, ¬eligible other := by
  induction h with
  | stop h => exact h
  | drop _ _ _ _ _ ih => exact ih

theorem Trim.card (h : Trim eligible score floor members kept count) :
    kept.card + count = members.card := by
  induction h with
  | stop => rfl
  | drop habove hworst _ _ _ ih =>
      rw [Finset.card_erase_of_mem hworst] at ih
      omega

/-- A set above its floor stays at or above it. -/
theorem Trim.floor_le (h : Trim eligible score floor members kept count) :
    min floor members.card ≤ kept.card := by
  induction h with
  | stop => exact Nat.min_le_right _ _
  | drop habove hworst _ _ _ ih =>
      rw [Finset.card_erase_of_mem hworst] at ih
      omega

theorem Trim.count_eq (h : Trim eligible score floor members kept count) :
    count = (members \ kept).card := by
  have hcard := h.card
  rw [Finset.card_sdiff_of_subset h.subset]
  omega

end GreedyTrim
