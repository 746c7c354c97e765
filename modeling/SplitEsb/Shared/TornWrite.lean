import Mathlib.Data.List.Basic

/-! # Writes cut short
A record rewritten field by field, cut after some of the writes, and what an XOR
checksum over its fields can tell of the cut. -/

namespace TornWrite

variable {α : Type*}

/-- The fields after the first writes of a rewrite. -/
def torn (writes : ℕ) (old new : List α) : List α := new.take writes ++ old.drop writes

/-- One more write sets the next field. -/
theorem torn_succ {old new : List α} (hlen : old.length = new.length) {writes : ℕ}
    (h : writes < new.length) :
    torn (writes + 1) old new = (torn writes old new).set writes (new.get ⟨writes, h⟩) := by
  have htake : (new.take writes).length = writes := List.length_take_of_le (Nat.le_of_lt h)
  have hdrop : old.drop writes = old.get ⟨writes, hlen ▸ h⟩ :: old.drop (writes + 1) :=
    List.drop_eq_getElem_cons (hlen ▸ h)
  rw [torn, torn, hdrop, List.set_append_right _ _ (Nat.le_of_eq htake), htake, Nat.sub_self,
    List.set_cons_zero, List.take_succ_eq_append_getElem h, List.append_assoc]
  rfl

theorem torn_eq_old_iff {old new : List α} (writes : ℕ) :
    torn writes old new = old ↔ new.take writes = old.take writes := by
  rw [torn]
  conv_lhs => rhs; rw [← List.take_append_drop writes old]
  rw [List.append_cancel_right_eq]

theorem torn_eq_new_iff {old new : List α} (writes : ℕ) :
    torn writes old new = new ↔ old.drop writes = new.drop writes := by
  rw [torn]
  conv_lhs => rhs; rw [← List.take_append_drop writes new]
  rw [List.append_cancel_left_eq]

/-! ## An XOR checksum -/

def xorSum (fields : List UInt8) : UInt8 := fields.foldl (· ^^^ ·) 0

theorem foldl_xor (seed : UInt8) (fields : List UInt8) :
    fields.foldl (· ^^^ ·) seed = seed ^^^ xorSum fields := by
  induction fields generalizing seed with
  | nil => exact UInt8.xor_zero.symm
  | cons field fields ih =>
      rw [xorSum, List.foldl_cons, List.foldl_cons, ih (seed ^^^ field), ih (0 ^^^ field),
        UInt8.zero_xor, UInt8.xor_assoc]

theorem xorSum_append (front back : List UInt8) :
    xorSum (front ++ back) = xorSum front ^^^ xorSum back := by
  rw [xorSum, List.foldl_append, foldl_xor]
  rfl

/-- The checksum misses a cut exactly when the differences of the written fields cancel. -/
theorem xorSum_torn_eq_iff (old new : List UInt8) (writes : ℕ) :
    xorSum (torn writes old new) = xorSum old ↔
      xorSum (new.take writes) = xorSum (old.take writes) := by
  conv_lhs => rhs; rw [← List.take_append_drop writes old]
  rw [torn, xorSum_append, xorSum_append, UInt8.xor_left_inj]

end TornWrite
