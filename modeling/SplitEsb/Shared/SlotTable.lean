import Mathlib.Data.Finset.Card
import Mathlib.Data.List.Basic
import Mathlib.Data.List.Nodup
import Mathlib.Data.List.Perm.Subperm

/-! # Slot tables
A fixed number of slots, each free or holding one keyed entry. Lookup finds the
first slot of a key, a claim takes the first free slot. -/

namespace SlotTable

variable {κ α : Type*}

abbrev Slots (κ α : Type*) := List (Option (κ × α))

section Operations

variable [DecidableEq κ]

def lookup (key : κ) : Slots κ α → Option α
  | [] => none
  | none :: slots => lookup key slots
  | some (k, v) :: slots => if k = key then some v else lookup key slots

/-- Overwrites the entry of a key in place. -/
def store (key : κ) (value : α) : Slots κ α → Slots κ α
  | [] => []
  | none :: slots => none :: store key value slots
  | some (k, v) :: slots =>
      if k = key then some (k, value) :: slots else some (k, v) :: store key value slots

/-- Frees the first slot of a key. -/
def release (key : κ) : Slots κ α → Slots κ α
  | [] => []
  | none :: slots => none :: release key slots
  | some (k, v) :: slots => if k = key then none :: slots else some (k, v) :: release key slots

end Operations

def insertFree (key : κ) (value : α) : Slots κ α → Option (Slots κ α)
  | [] => none
  | none :: slots => some (some (key, value) :: slots)
  | some entry :: slots => (insertFree key value slots).map (some entry :: ·)

def keys : Slots κ α → List κ
  | [] => []
  | none :: slots => keys slots
  | some (k, _) :: slots => k :: keys slots

/-! ## Lookup after a write -/

section Lookup

variable [DecidableEq κ]

theorem lookup_isSome_iff (key : κ) (slots : Slots κ α) :
    (lookup key slots).isSome ↔ key ∈ keys slots := by
  induction slots with
  | nil => simp [lookup, keys]
  | cons slot slots ih =>
      cases slot with
      | none => simpa [lookup, keys] using ih
      | some entry =>
          obtain ⟨k, v⟩ := entry
          by_cases h : k = key
          · simp [lookup, keys, h]
          · simp only [lookup, if_neg h, keys, List.mem_cons, ih]
            exact ⟨Or.inr, fun hm => hm.resolve_left (Ne.symm h)⟩

theorem lookup_eq_none_iff (key : κ) (slots : Slots κ α) :
    lookup key slots = none ↔ key ∉ keys slots := by
  rw [← lookup_isSome_iff, Option.not_isSome_iff_eq_none]

theorem lookup_store_self {key : κ} {slots : Slots κ α} (h : key ∈ keys slots) (value : α) :
    lookup key (store key value slots) = some value := by
  induction slots with
  | nil => simp [keys] at h
  | cons slot slots ih =>
      cases slot with
      | none => simpa [lookup, store] using ih h
      | some entry =>
          obtain ⟨k, v⟩ := entry
          by_cases hk : k = key
          · simp [lookup, store, hk]
          · have hm : key ∈ keys slots := by
              simp only [keys, List.mem_cons] at h
              exact h.resolve_left (Ne.symm hk)
            simpa [lookup, store, hk] using ih hm

theorem lookup_store_ne {key other : κ} (hne : other ≠ key) (value : α) (slots : Slots κ α) :
    lookup other (store key value slots) = lookup other slots := by
  induction slots with
  | nil => rfl
  | cons slot slots ih =>
      cases slot with
      | none => simpa [lookup, store] using ih
      | some entry =>
          obtain ⟨k, v⟩ := entry
          by_cases hk : k = key
          · subst hk
            simp [lookup, store, Ne.symm hne]
          · by_cases ho : k = other
            · subst ho
              simp [lookup, store, hk]
            · simp [lookup, store, hk, ho, ih]

theorem lookup_insertFree {key : κ} {value : α} {slots slots' : Slots κ α}
    (h : insertFree key value slots = some slots') (hnew : key ∉ keys slots) (other : κ) :
    lookup other slots' = if other = key then some value else lookup other slots := by
  induction slots generalizing slots' with
  | nil => cases h
  | cons slot slots ih =>
      cases slot with
      | none =>
          cases h
          by_cases ho : key = other
          · simp [lookup, ho]
          · simp [lookup, ho, Ne.symm ho]
      | some entry =>
          obtain ⟨k, v⟩ := entry
          simp only [keys, List.mem_cons, not_or] at hnew
          obtain ⟨rest, hrest, rfl⟩ := Option.map_eq_some_iff.mp h
          have hlook := ih hrest hnew.2
          by_cases ho : k = other
          · subst ho
            simp [lookup, Ne.symm hnew.1]
          · simp [lookup, ho, hlook]

end Lookup

/-! ## Keys -/

theorem keys_store [DecidableEq κ] (key : κ) (value : α) (slots : Slots κ α) :
    keys (store key value slots) = keys slots := by
  induction slots with
  | nil => rfl
  | cons slot slots ih =>
      cases slot with
      | none => simpa [keys, store] using ih
      | some entry =>
          obtain ⟨k, v⟩ := entry
          by_cases hk : k = key <;> simp [keys, store, hk, ih]

theorem keys_release [DecidableEq κ] (key : κ) (slots : Slots κ α) :
    keys (release key slots) = (keys slots).erase key := by
  induction slots with
  | nil => rfl
  | cons slot slots ih =>
      cases slot with
      | none => simpa [keys, release] using ih
      | some entry =>
          obtain ⟨k, v⟩ := entry
          by_cases hk : k = key
          · simp [keys, release, hk]
          · simp [keys, release, hk, ih]

theorem length_store [DecidableEq κ] (key : κ) (value : α) (slots : Slots κ α) :
    (store key value slots).length = slots.length := by
  induction slots with
  | nil => rfl
  | cons slot slots ih =>
      cases slot with
      | none => simpa [store] using ih
      | some entry =>
          obtain ⟨k, v⟩ := entry
          by_cases hk : k = key <;> simp [store, hk, ih]

theorem length_release [DecidableEq κ] (key : κ) (slots : Slots κ α) :
    (release key slots).length = slots.length := by
  induction slots with
  | nil => rfl
  | cons slot slots ih =>
      cases slot with
      | none => simpa [release] using ih
      | some entry =>
          obtain ⟨k, v⟩ := entry
          by_cases hk : k = key <;> simp [release, hk, ih]

theorem keys_insertFree {key : κ} {value : α} {slots slots' : Slots κ α}
    (h : insertFree key value slots = some slots') : (keys slots').Perm (key :: keys slots) := by
  induction slots generalizing slots' with
  | nil => cases h
  | cons slot slots ih =>
      cases slot with
      | none => cases h; exact List.Perm.refl _
      | some entry =>
          obtain ⟨k, v⟩ := entry
          obtain ⟨rest, hrest, rfl⟩ := Option.map_eq_some_iff.mp h
          exact ((ih hrest).cons k).trans (List.Perm.swap _ _ _)

theorem length_insertFree {key : κ} {value : α} {slots slots' : Slots κ α}
    (h : insertFree key value slots = some slots') : slots'.length = slots.length := by
  induction slots generalizing slots' with
  | nil => cases h
  | cons slot slots ih =>
      cases slot with
      | none => cases h; rfl
      | some entry =>
          obtain ⟨rest, hrest, rfl⟩ := Option.map_eq_some_iff.mp h
          rw [List.length_cons, ih hrest, List.length_cons]

/-- A free slot exists while fewer keys are held than there are slots. -/
theorem exists_insertFree (key : κ) (value : α) {slots : Slots κ α}
    (h : (keys slots).length < slots.length) : ∃ slots', insertFree key value slots = some slots' := by
  induction slots with
  | nil => simp at h
  | cons slot slots ih =>
      cases slot with
      | none => exact ⟨_, rfl⟩
      | some entry =>
          obtain ⟨k, v⟩ := entry
          obtain ⟨slots', hslots'⟩ := ih (by simpa [keys] using h)
          exact ⟨_, by rw [insertFree, hslots']; rfl⟩

/-- A new key finds a free slot when it fits together with the held ones. -/
theorem exists_insertFree_of_card [DecidableEq κ] {key : κ} {slots : Slots κ α}
    (hnodup : (keys slots).Nodup) (hnew : key ∉ keys slots)
    (hcard : (insert key (keys slots).toFinset).card ≤ slots.length) (value : α) :
    ∃ slots', insertFree key value slots = some slots' := by
  have hinsert : key ∉ (keys slots).toFinset := fun hmem => hnew (List.mem_toFinset.mp hmem)
  rw [Finset.card_insert_of_notMem hinsert, List.toFinset_card_of_nodup hnodup] at hcard
  exact exists_insertFree key value hcard

theorem length_keys_le (slots : Slots κ α) : (keys slots).length ≤ slots.length := by
  induction slots with
  | nil => exact Nat.le_refl _
  | cons slot slots ih =>
      cases slot with
      | none => exact Nat.le_trans ih (Nat.le_succ _)
      | some entry => exact Nat.succ_le_succ ih

/-! ## Claiming -/

section Claim

variable [DecidableEq κ]

/-- Finds the entry of a key or gives it the first free slot. -/
def claim (key : κ) (fresh : α) (slots : Slots κ α) : Option (Slots κ α) :=
  if (lookup key slots).isSome then some slots else insertFree key fresh slots

/-- A claim holds its key besides the keys held before. -/
theorem mem_keys_claim {key : κ} {fresh : α} {slots slots' : Slots κ α}
    (h : claim key fresh slots = some slots') (other : κ) :
    other ∈ keys slots' ↔ other = key ∨ other ∈ keys slots := by
  rw [claim] at h
  split_ifs at h with hheld
  · cases h
    refine ⟨Or.inr, fun hmem => hmem.elim (fun hself => ?_) id⟩
    exact hself ▸ (lookup_isSome_iff key slots).mp hheld
  · rw [(keys_insertFree h).mem_iff, List.mem_cons]

theorem nodup_keys_claim {key : κ} {fresh : α} {slots slots' : Slots κ α}
    (h : claim key fresh slots = some slots') (hnodup : (keys slots).Nodup) :
    (keys slots').Nodup := by
  rw [claim] at h
  split_ifs at h with hheld
  · cases h
    exact hnodup
  · have hnew : key ∉ keys slots := fun hmem => hheld ((lookup_isSome_iff key slots).mpr hmem)
    exact (keys_insertFree h).nodup_iff.mpr (List.nodup_cons.mpr ⟨hnew, hnodup⟩)

theorem length_claim {key : κ} {fresh : α} {slots slots' : Slots κ α}
    (h : claim key fresh slots = some slots') : slots'.length = slots.length := by
  rw [claim] at h
  split_ifs at h
  · cases h
    rfl
  · exact length_insertFree h

/-- A claim finds its key held, or room while not every slot is. -/
theorem exists_claim {key : κ} {slots : Slots κ α}
    (h : key ∉ keys slots → (keys slots).length < slots.length) (fresh : α) :
    ∃ slots', claim key fresh slots = some slots' := by
  by_cases hheld : (lookup key slots).isSome
  · exact ⟨slots, if_pos hheld⟩
  · have hnew : key ∉ keys slots := fun hmem => hheld ((lookup_isSome_iff key slots).mpr hmem)
    obtain ⟨slots', hslots'⟩ := exists_insertFree key fresh (h hnew)
    exact ⟨slots', (if_neg hheld).trans hslots'⟩

/-- Every held key is distinct and among the given keys, of which there are at
most as many as slots. -/
structure Within (allowed : List κ) (slots : Slots κ α) : Prop where
  nodup : (keys slots).Nodup
  subset : ∀ key ∈ keys slots, key ∈ allowed
  room : allowed.length ≤ slots.length

theorem Within.claim {allowed : List κ} {slots : Slots κ α} (within : Within allowed slots)
    {key : κ} (hkey : key ∈ allowed) (fresh : α) :
    ∃ slots', claim key fresh slots = some slots' ∧ Within allowed slots' ∧
      ∀ other, lookup other slots' =
        if other = key then some ((lookup key slots).getD fresh) else lookup other slots := by
  rw [SlotTable.claim]
  by_cases hheld : (lookup key slots).isSome
  · rw [if_pos hheld]
    refine ⟨slots, rfl, within, fun other => ?_⟩
    split_ifs with ho
    · subst ho
      obtain ⟨v, hv⟩ := Option.isSome_iff_exists.mp hheld
      rw [hv]
      rfl
    · rfl
  · rw [if_neg hheld]
    have hnew : key ∉ keys slots := fun hm => hheld ((lookup_isSome_iff key slots).mpr hm)
    have hnone := (lookup_eq_none_iff key slots).mpr hnew
    have hcons : (key :: keys slots).Nodup := List.nodup_cons.mpr ⟨hnew, within.nodup⟩
    have hsub : (key :: keys slots) ⊆ allowed := by
      intro k hk
      rcases List.mem_cons.mp hk with rfl | hk
      · exact hkey
      · exact within.subset k hk
    have hcount := (hcons.subperm hsub).length_le
    rw [List.length_cons] at hcount
    obtain ⟨slots', hslots'⟩ := exists_insertFree key fresh
      (Nat.lt_of_lt_of_le hcount within.room)
    have hperm := keys_insertFree hslots'
    refine ⟨slots', hslots', ⟨hperm.nodup_iff.mpr hcons, ?_, ?_⟩, fun other => ?_⟩
    · intro k hk
      exact hsub (hperm.subset hk)
    · rw [length_insertFree hslots']
      exact within.room
    · rw [lookup_insertFree hslots' hnew, hnone]
      rfl

theorem Within.store {allowed : List κ} {slots : Slots κ α} (within : Within allowed slots)
    (key : κ) (value : α) : Within allowed (store key value slots) where
  nodup := by rw [keys_store]; exact within.nodup
  subset := by rw [keys_store]; exact within.subset
  room := by rw [length_store]; exact within.room

end Claim

/-- Among distinct keys an entry is what its key looks up. -/
theorem lookup_of_mem [DecidableEq κ] {key : κ} {value : α} {slots : Slots κ α}
    (hnodup : (keys slots).Nodup) (hmem : some (key, value) ∈ slots) :
    lookup key slots = some value := by
  induction slots with
  | nil => cases hmem
  | cons slot slots ih =>
      cases slot with
      | none =>
          rcases List.mem_cons.mp hmem with h | h
          · cases h
          · exact ih hnodup h
      | some entry =>
          obtain ⟨k, v⟩ := entry
          rw [keys, List.nodup_cons] at hnodup
          rcases List.mem_cons.mp hmem with h | h
          · cases h
            exact if_pos rfl
          · have hlookup := ih hnodup.2 h
            have hheld : key ∈ keys slots :=
              (lookup_isSome_iff key slots).mp (by rw [hlookup]; rfl)
            have hne : k ≠ key := fun heq => hnodup.1 (heq ▸ hheld)
            rw [lookup, if_neg hne, hlookup]

/-! ## Tables that are only ever claimed from -/

/-- The held slots come first; so it is while slots are claimed and never freed. -/
def Packed (slots : Slots κ α) : Prop :=
  ∃ (entries : List (κ × α)) (n : ℕ), slots = entries.map some ++ List.replicate n none

theorem packed_replicate_none (n : ℕ) : Packed (List.replicate n (none : Option (κ × α))) :=
  ⟨[], n, rfl⟩

theorem Packed.cons {slots : Slots κ α} (packed : Packed slots) (entry : κ × α) :
    Packed (some entry :: slots) := by
  obtain ⟨entries, n, rfl⟩ := packed
  exact ⟨entry :: entries, n, rfl⟩

theorem Packed.store [DecidableEq κ] {slots : Slots κ α} (packed : Packed slots) (key : κ)
    (value : α) : Packed (store key value slots) := by
  obtain ⟨entries, n, rfl⟩ := packed
  induction entries with
  | nil =>
      have hfree : SlotTable.store key value (List.replicate n (none : Option (κ × α))) =
          List.replicate n none := by
        induction n with
        | zero => rfl
        | succ n ih => rw [List.replicate_succ, SlotTable.store, ih]
      rw [List.map_nil, List.nil_append, hfree]
      exact packed_replicate_none n
  | cons entry entries ih =>
      obtain ⟨k, v⟩ := entry
      rw [List.map_cons, List.cons_append, SlotTable.store]
      split_ifs
      · exact Packed.cons ⟨entries, n, rfl⟩ _
      · exact ih.cons _

/-- Past a slot of another key a claim goes on in the rest. -/
theorem claim_cons_ne [DecidableEq κ] {key k : κ} (hne : k ≠ key) (v fresh : α)
    (slots : Slots κ α) :
    claim key fresh (some (k, v) :: slots) = (claim key fresh slots).map (some (k, v) :: ·) := by
  rw [claim, claim, lookup, if_neg hne]
  split_ifs <;> rfl

/-! ## An empty table -/

@[simp] theorem keys_replicate_none (n : ℕ) : keys (List.replicate n (none : Option (κ × α))) = [] := by
  induction n with
  | zero => rfl
  | succ n ih => simpa [List.replicate_succ, keys] using ih

theorem within_replicate_none {allowed : List κ} {n : ℕ} (h : allowed.length ≤ n) :
    Within allowed (List.replicate n (none : Option (κ × α))) :=
  ⟨by simp, by simp, by simpa using h⟩

@[simp] theorem lookup_replicate_none [DecidableEq κ] (key : κ) (n : ℕ) :
    lookup key (List.replicate n (none : Option (κ × α))) = none :=
  (lookup_eq_none_iff key _).mpr (by simp)

end SlotTable
