import Mathlib.Data.List.Basic
import Mathlib.Order.Lattice.Nat

/-! # Scanning a table of cells
One writer keeps values in a table, each in a cell of its own, while a reader goes over the
cells one at a time. The table may change between two reads; the scan still shows every value
that was there all along. -/

namespace CellScan

variable {α : Type*} {free : α}

/-- No value is in two cells. -/
def Single (free : α) (cells : List α) : Prop :=
  ∀ (value : α) (i j : ℕ), value ≠ free → cells[i]? = some value → cells[j]? = some value → i = j

/-- A value of both tables is in the same cell. -/
structure Kept (free : α) (before after : List α) : Prop where
  length_eq : after.length = before.length
  stays : ∀ (value : α) (i : ℕ), value ≠ free → before[i]? = some value → value ∈ after →
    after[i]? = some value

theorem Kept.refl {cells : List α} : Kept free cells cells where
  length_eq := rfl
  stays _ _ _ hvalue _ := hvalue

theorem single_replicate (n : ℕ) : Single free (List.replicate n free) := by
  intro value i j hne hi _
  exact absurd (List.eq_of_mem_replicate (List.mem_of_getElem? hi)) hne

/-! ## One write -/

/-- A cell without the new value is given to it. -/
theorem Single.set_new {cells : List α} (h : Single free cells) {value : α}
    (hnew : value ∉ cells) (k : ℕ) : Single free (cells.set k value) := by
  have hother : ∀ {other : α} {i : ℕ}, (cells.set k value)[i]? = some other → i ≠ k →
      cells[i]? = some other := by
    intro other i hi hne
    rwa [List.getElem?_set_ne (Ne.symm hne)] at hi
  have hself : ∀ {other : α}, (cells.set k value)[k]? = some other → other = value := by
    intro other hk
    rw [List.getElem?_set_self'] at hk
    obtain ⟨_, _, heq⟩ := Option.map_eq_some_iff.mp hk
    exact heq.symm
  intro other i j hfree hi hj
  by_cases hik : i = k
  · subst hik
    by_cases hji : j = i
    · exact hji.symm
    · rw [hself hi] at hj
      exact absurd (List.mem_of_getElem? (hother hj hji)) hnew
  · by_cases hjk : j = k
    · subst hjk
      rw [hself hj] at hi
      exact absurd (List.mem_of_getElem? (hother hi hik)) hnew
    · exact h other i j hfree (hother hi hik) (hother hj hjk)

theorem Single.set_free {cells : List α} (h : Single free cells) (k : ℕ) :
    Single free (cells.set k free) := by
  have hbefore : ∀ {other : α} {i : ℕ}, other ≠ free → (cells.set k free)[i]? = some other →
      cells[i]? = some other := by
    intro other i hfree hi
    by_cases hik : i = k
    · subst hik
      rw [List.getElem?_set_self'] at hi
      obtain ⟨_, _, heq⟩ := Option.map_eq_some_iff.mp hi
      exact absurd heq.symm hfree
    · rwa [List.getElem?_set_ne (Ne.symm hik)] at hi
  exact fun other i j hfree hi hj => h other i j hfree (hbefore hfree hi) (hbefore hfree hj)

theorem Kept.set_new {cells : List α} {k : ℕ} (hcell : cells[k]? = some free) (value : α) :
    Kept free cells (cells.set k value) where
  length_eq := List.length_set
  stays other i hfree hi _ := by
    have hne : k ≠ i := by
      rintro rfl
      rw [hcell] at hi
      exact hfree (Option.some.inj hi).symm
    rwa [List.getElem?_set_ne hne]

theorem Kept.set_free {cells : List α} (h : Single free cells) (k : ℕ) :
    Kept free cells (cells.set k free) where
  length_eq := List.length_set
  stays other i hfree hi hmem := by
    by_cases hki : k = i
    · subst hki
      -- the value went from its only cell
      obtain ⟨j, hj⟩ := List.mem_iff_getElem?.mp hmem
      by_cases hkj : k = j
      · subst hkj
        exact hj
      · rw [List.getElem?_set_ne hkj] at hj
        exact absurd (h other k j hfree hi hj) hkj
    · rwa [List.getElem?_set_ne hki]

/-! ## The first cell of a value -/

section Replace

variable [DecidableEq α]

theorem replace_eq_set {cells : List α} {old : α} (hmem : old ∈ cells) (value : α) :
    ∃ k, cells[k]? = some old ∧ cells.replace old value = cells.set k value := by
  induction cells with
  | nil => cases hmem
  | cons cell cells ih =>
      by_cases hcell : cell = old
      · subst hcell
        exact ⟨0, rfl, List.replace_cons_self⟩
      · have hrest : old ∈ cells := (List.mem_cons.mp hmem).resolve_left (Ne.symm hcell)
        obtain ⟨k, hk, hreplace⟩ := ih hrest
        refine ⟨k + 1, hk, ?_⟩
        have hne : (old == cell) = false := beq_false_of_ne (Ne.symm hcell)
        rw [List.replace_cons, hne, hreplace, List.set_cons_succ]

/-- A value not yet held goes into the first free cell, if there is one. -/
def occupy (free : α) (cells : List α) (value : α) : List α :=
  if value ∈ cells then cells else cells.replace free value

def vacate (free : α) (cells : List α) (value : α) : List α := cells.replace value free

theorem Single.occupy {cells : List α} (h : Single free cells) (value : α) :
    Single free (occupy free cells value) ∧ Kept free cells (occupy free cells value) := by
  rw [CellScan.occupy]
  split_ifs with hheld
  · exact ⟨h, .refl⟩
  by_cases hroom : free ∈ cells
  · obtain ⟨k, hk, hreplace⟩ := replace_eq_set hroom value
    rw [hreplace]
    exact ⟨h.set_new hheld k, .set_new hk value⟩
  · rw [List.replace_of_not_mem hroom]
    exact ⟨h, .refl⟩

theorem Single.vacate {cells : List α} (h : Single free cells) (value : α) :
    Single free (vacate free cells value) ∧ Kept free cells (vacate free cells value) := by
  rw [CellScan.vacate]
  by_cases hheld : value ∈ cells
  · obtain ⟨k, _, hreplace⟩ := replace_eq_set hheld free
    rw [hreplace]
    exact ⟨h.set_free k, .set_free h k⟩
  · rw [List.replace_of_not_mem hheld]
    exact ⟨h, .refl⟩

end Replace

/-! ## A scan -/

/-- The table after each write. -/
structure Kepts (free : α) (size : ℕ) (table : ℕ → List α) : Prop where
  length_eq : ∀ n, (table n).length = size
  single : ∀ n, Single free (table n)
  kept : ∀ n, Kept free (table n) (table (n + 1))

variable {table : ℕ → List α} {size : ℕ}

/-- A value in the table all along is in one cell all along. -/
theorem Kepts.stays (h : Kepts free size table) {value : α} (hfree : value ≠ free)
    {since upto : ℕ} (hheld : ∀ n, since ≤ n → n ≤ upto → value ∈ table n) {i : ℕ}
    (hi : (table since)[i]? = some value) :
    ∀ n, since ≤ n → n ≤ upto → (table n)[i]? = some value := by
  intro n hsince
  induction n, hsince using Nat.le_induction with
  | base => exact fun _ => hi
  | succ n hsince ih =>
      intro hupto
      have hn := ih (Nat.le_of_succ_le hupto)
      exact (h.kept n).stays value i hfree hn (hheld (n + 1) (Nat.le_succ_of_le hsince) hupto)

/-- Cells read in order, each with the number of writes before the read. -/
structure Scanned (table : ℕ → List α) (since upto : ℕ) (reads : List (ℕ × α)) : Prop where
  since_le : ∀ entry ∈ reads, since ≤ entry.1
  le_upto : ∀ entry ∈ reads, entry.1 ≤ upto
  value : ∀ (i : ℕ) (entry : ℕ × α), reads[i]? = some entry → (table entry.1)[i]? = some entry.2

theorem Scanned.nil (since upto : ℕ) : Scanned table since upto [] where
  since_le _ hentry := by cases hentry
  le_upto _ hentry := by cases hentry
  value _ _ hentry := by cases hentry

variable {since upto : ℕ} {reads : List (ℕ × α)}

theorem Scanned.later (h : Scanned table since upto reads) {later : ℕ} (hle : upto ≤ later) :
    Scanned table since later reads :=
  ⟨h.since_le, fun entry hentry => (h.le_upto entry hentry).trans hle, h.value⟩

theorem Scanned.congr (h : Scanned table since upto reads) {table' : ℕ → List α}
    (hsame : ∀ n ≤ upto, table' n = table n) : Scanned table' since upto reads where
  since_le := h.since_le
  le_upto := h.le_upto
  value i entry hentry := by
    rw [hsame entry.1 (h.le_upto entry (List.mem_of_getElem? hentry))]
    exact h.value i entry hentry

theorem Scanned.read (h : Scanned table since upto reads) (hle : since ≤ upto) {value : α}
    (hvalue : (table upto)[reads.length]? = some value) :
    Scanned table since upto (reads ++ [(upto, value)]) where
  since_le entry hentry := by
    rcases List.mem_append.mp hentry with hold | hnew
    · exact h.since_le entry hold
    · rw [List.mem_singleton.mp hnew]
      exact hle
  le_upto entry hentry := by
    rcases List.mem_append.mp hentry with hold | hnew
    · exact h.le_upto entry hold
    · rw [List.mem_singleton.mp hnew]
  value i entry hentry := by
    rcases Nat.lt_trichotomy i reads.length with hlt | rfl | hgt
    · rw [List.getElem?_append_left hlt] at hentry
      exact h.value i entry hentry
    · rw [List.getElem?_concat_length] at hentry
      obtain rfl := Option.some.inj hentry
      exact hvalue
    · rw [List.getElem?_eq_none (by simpa using Nat.succ_le_of_lt hgt)] at hentry
      cases hentry

/-- What a scan read was in the table. -/
theorem Scanned.mem (h : Scanned table since upto reads) {value : α}
    (hmem : value ∈ reads.map Prod.snd) : ∃ n, since ≤ n ∧ n ≤ upto ∧ value ∈ table n := by
  obtain ⟨entry, hentry, rfl⟩ := List.mem_map.mp hmem
  obtain ⟨i, hi⟩ := List.mem_iff_getElem?.mp hentry
  exact ⟨entry.1, h.since_le entry hentry, h.le_upto entry hentry,
    List.mem_of_getElem? (h.value i entry hi)⟩

theorem count_eq_one [DecidableEq α] {values : List α} {value : α} (hmem : value ∈ values)
    (honly : ∀ i j : ℕ, values[i]? = some value → values[j]? = some value → i = j) :
    values.count value = 1 := by
  induction values with
  | nil => cases hmem
  | cons head values ih =>
      by_cases hhead : head = value
      · subst hhead
        have hrest : head ∉ values := by
          intro hrest
          obtain ⟨j, hj⟩ := List.mem_iff_getElem?.mp hrest
          cases honly 0 (j + 1) rfl hj
        rw [List.count_cons_self, List.count_eq_zero_of_not_mem hrest]
      · rw [List.count_cons_of_ne hhead]
        refine ih ((List.mem_cons.mp hmem).resolve_left (Ne.symm hhead)) fun i j hi hj => ?_
        exact Nat.succ.inj (honly (i + 1) (j + 1) hi hj)

/-- A whole scan reads a value that was in the table all along exactly once. -/
theorem Scanned.count_eq_one [DecidableEq α] (h : Scanned table since upto reads)
    (kepts : Kepts free size table) (hwhole : reads.length = size) (hle : since ≤ upto)
    {value : α} (hfree : value ≠ free)
    (hheld : ∀ n, since ≤ n → n ≤ upto → value ∈ table n) :
    (reads.map Prod.snd).count value = 1 := by
  obtain ⟨k, hk⟩ := List.mem_iff_getElem?.mp (hheld since le_rfl hle)
  have hstays := kepts.stays hfree hheld hk
  have hread : ∀ i : ℕ, (reads.map Prod.snd)[i]? = some value → i = k := by
    intro i hi
    rw [List.getElem?_map] at hi
    obtain ⟨entry, hentry, rfl⟩ := Option.map_eq_some_iff.mp hi
    have hmem := List.mem_of_getElem? hentry
    have hcell := hstays entry.1 (h.since_le entry hmem) (h.le_upto entry hmem)
    exact kepts.single entry.1 entry.2 i k hfree (h.value i entry hentry) hcell
  refine CellScan.count_eq_one ?_ fun i j hi hj => (hread i hi).trans (hread j hj).symm
  have hlt : k < reads.length := by
    rw [hwhole, ← kepts.length_eq since]
    exact (List.getElem?_eq_some_iff.mp hk).1
  have hentry := List.getElem?_eq_getElem hlt
  have hmem := List.mem_of_getElem? hentry
  have hcell := hstays reads[k].1 (h.since_le _ hmem) (h.le_upto _ hmem)
  have hvalue : reads[k].2 = value :=
    Option.some.inj ((h.value k reads[k] hentry).symm.trans hcell)
  exact List.mem_map.mpr ⟨reads[k], hmem, hvalue⟩

end CellScan
