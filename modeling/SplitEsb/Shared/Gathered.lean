import Mathlib.Data.List.Basic
import Mathlib.Order.BoundedOrder.Basic
import Mathlib.Order.Lattice

/-! # A word gathered into and taken
Contributions are joined to a word until a reader takes it and leaves the unit. Each
contribution carries the number of takes before it, the period it falls in. -/

namespace Gathered

variable {α M : Type*} (join : M → α → M) (unit : M)

/-- What the contributions of one period come to. -/
def gather (period : ℕ) (entries : List (ℕ × α)) : M :=
  ((entries.filter fun entry => entry.1 = period).map Prod.snd).foldl join unit

/-- The word holds the current period, what was taken the periods before it. -/
structure Gathers (word : M) (taken : List M) (entries : List (ℕ × α)) : Prop where
  current : word = gather join unit taken.length entries
  earlier : ∀ period contents, taken[period]? = some contents →
    contents = gather join unit period entries
  past : ∀ entry ∈ entries, entry.1 ≤ taken.length

variable {join unit} {word : M} {taken : List M} {entries : List (ℕ × α)}

theorem gather_concat_self (period : ℕ) (entries : List (ℕ × α)) (value : α) :
    gather join unit period (entries ++ [(period, value)]) =
      join (gather join unit period entries) value := by
  simp [gather]

theorem gather_concat_ne {period other : ℕ} (hne : other ≠ period) (entries : List (ℕ × α))
    (value : α) :
    gather join unit period (entries ++ [(other, value)]) = gather join unit period entries := by
  simp [gather, hne]

theorem gather_of_past {period : ℕ} (hpast : ∀ entry ∈ entries, entry.1 < period) :
    gather join unit period entries = unit := by
  have hnone : entries.filter (fun entry => entry.1 = period) = [] := by
    refine List.filter_eq_nil_iff.mpr fun entry hentry => ?_
    have := hpast entry hentry
    simpa using Nat.ne_of_lt this
  rw [gather, hnone]
  rfl

theorem Gathers.start : Gathers join unit unit [] [] where
  current := rfl
  earlier _ _ h := by cases h
  past _ h := by cases h

theorem Gathers.put (h : Gathers join unit word taken entries) (value : α) :
    Gathers join unit (join word value) taken (entries ++ [(taken.length, value)]) where
  current := by rw [gather_concat_self, ← h.current]
  earlier period contents hcontents := by
    have hlt : period < taken.length := (List.getElem?_eq_some_iff.mp hcontents).1
    rw [gather_concat_ne (Nat.ne_of_gt hlt)]
    exact h.earlier period contents hcontents
  past entry hentry := by
    rcases List.mem_append.mp hentry with hentry | hentry
    · exact h.past entry hentry
    · exact Nat.le_of_eq (congrArg Prod.fst (List.mem_singleton.mp hentry))

theorem Gathers.take (h : Gathers join unit word taken entries) :
    Gathers join unit unit (taken ++ [word]) entries where
  current := by
    refine (gather_of_past fun entry hentry => ?_).symm
    rw [List.length_append, List.length_singleton]
    exact Nat.lt_succ_of_le (h.past entry hentry)
  earlier period contents hcontents := by
    rcases Nat.lt_trichotomy period taken.length with hlt | rfl | hgt
    · rw [List.getElem?_append_left hlt] at hcontents
      exact h.earlier period contents hcontents
    · rw [List.getElem?_concat_length, Option.some.injEq] at hcontents
      rw [← hcontents, h.current]
    · rw [List.getElem?_eq_none (by rw [List.length_append, List.length_singleton]; omega)]
        at hcontents
      cases hcontents
  past entry hentry := by
    rw [List.length_append, List.length_singleton]
    exact Nat.le_succ_of_le (h.past entry hentry)

/-- A flag a contribution sets is up in a period when one of its contributions sets it. -/
theorem gather_flag {flag : M → Bool} {sets : α → Bool} (hunit : flag unit = false)
    (hjoin : ∀ word, ∀ entry ∈ entries, flag (join word entry.2) = (flag word || sets entry.2))
    (period : ℕ) :
    flag (gather join unit period entries) = true ↔
      ∃ entry ∈ entries, entry.1 = period ∧ sets entry.2 = true := by
  have hfold : ∀ (later : List (ℕ × α)) (word : M), later ⊆ entries →
      flag ((later.map Prod.snd).foldl join word) =
        (flag word || later.any fun entry => sets entry.2) := by
    intro later
    induction later with
    | nil => exact fun word _ => (Bool.or_false _).symm
    | cons entry later ih =>
        intro word hsub
        obtain ⟨hentry, hlater⟩ := List.cons_subset.mp hsub
        rw [List.map_cons, List.foldl_cons, ih _ hlater, hjoin word entry hentry, List.any_cons,
          Bool.or_assoc]
  rw [gather, hfold _ _ (List.filter_subset_self _), hunit, Bool.false_or, List.any_eq_true]
  simp only [List.mem_filter, decide_eq_true_eq, and_assoc]

/-- The periods taken, and the one that runs. -/
theorem Gathers.period (h : Gathers join unit word taken entries) {period : ℕ} {contents : M}
    (hcontents : (taken ++ [word])[period]? = some contents) :
    contents = gather join unit period entries := by
  rcases Nat.lt_trichotomy period taken.length with hlt | rfl | hgt
  · rw [List.getElem?_append_left hlt] at hcontents
    exact h.earlier period contents hcontents
  · rw [List.getElem?_concat_length, Option.some.injEq] at hcontents
    rw [← hcontents, h.current]
  · rw [List.getElem?_eq_none (by rw [List.length_append, List.length_singleton]; omega)]
      at hcontents
    cases hcontents

section Peaks

variable {β : Type*} [LinearOrder β]

theorem foldl_max_mem (values : List β) (start : β) :
    values.foldl max start = start ∨ values.foldl max start ∈ values := by
  induction values generalizing start with
  | nil => exact .inl rfl
  | cons value values ih =>
      rw [List.foldl_cons]
      rcases ih (max start value) with hstart | hmem
      · rcases le_total value start with hle | hle
        · exact .inl (hstart.trans (max_eq_left hle))
        · right
          rw [hstart, max_eq_right hle]
          exact List.mem_cons_self
      · exact .inr (List.mem_cons_of_mem _ hmem)

theorem le_foldl_max (values : List β) (start : β) :
    start ≤ values.foldl max start ∧ ∀ value ∈ values, value ≤ values.foldl max start := by
  induction values generalizing start with
  | nil => exact ⟨le_rfl, fun _ h => by cases h⟩
  | cons value values ih =>
      obtain ⟨hstart, hvalues⟩ := ih (max start value)
      refine ⟨(le_max_left start value).trans hstart, fun other hother => ?_⟩
      rcases List.mem_cons.mp hother with rfl | hother
      · exact (le_max_right start other).trans hstart
      · exact hvalues other hother

variable [OrderBot β]

theorem le_gather_max {peaks : List (ℕ × β)} {period : ℕ} {value : β}
    (hmem : (period, value) ∈ peaks) : value ≤ gather max ⊥ period peaks :=
  (le_foldl_max _ _).2 value (List.mem_map.mpr ⟨(period, value), by simpa using hmem, rfl⟩)

theorem gather_max_mem (period : ℕ) (peaks : List (ℕ × β)) :
    gather max ⊥ period peaks = ⊥ ∨ (period, gather max ⊥ period peaks) ∈ peaks := by
  rcases foldl_max_mem ((peaks.filter fun entry => entry.1 = period).map Prod.snd) ⊥ with
    hnone | hmem
  · exact .inl hnone
  · obtain ⟨entry, hentry, hvalue⟩ := List.mem_map.mp hmem
    obtain ⟨hentry, hperiod⟩ := List.mem_filter.mp hentry
    right
    rw [gather, ← hvalue, ← of_decide_eq_true hperiod]
    exact hentry

end Peaks

end Gathered
