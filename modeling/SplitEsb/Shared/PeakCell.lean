import Mathlib.Logic.Function.Basic
import Mathlib.Order.BoundedOrder.Basic
import Mathlib.Order.Lattice
import SplitEsb.Shared.Gathered

/-! # A peak kept without a lock
Callers raise a word to their value with compare-and-swap, and try again when another was
faster; a reader takes the word and leaves the bottom. Any statements of any contexts
interleave. -/

namespace PeakCell

open Gathered

/-- A call that runs, since which period, and the value it compares with. -/
structure Call (α : Type*) where
  value : α
  since : ℕ
  loaded : Option α

/-- A call that returned, with the periods of its begin and its return. -/
structure Done (α : Type*) where
  value : α
  since : ℕ
  upto : ℕ

structure Cell (κ α : Type*) where
  word : α
  taken : List α
  calls : κ → Option (Call α)
  done : List (Done α)

namespace Cell

variable {κ α : Type*} [LinearOrder α] [OrderBot α]

def empty : Cell κ α := ⟨⊥, [], fun _ => none, []⟩

def take (cell : Cell κ α) : Cell κ α :=
  { cell with word := ⊥, taken := cell.taken ++ [cell.word] }

variable [DecidableEq κ]

def begin (cell : Cell κ α) (context : κ) (value : α) : Cell κ α :=
  match cell.calls context with
  | none =>
      { cell with
        calls := Function.update cell.calls context (some ⟨value, cell.taken.length, none⟩) }
  | some _ => cell

def returns (cell : Cell κ α) (context : κ) (call : Call α) : Cell κ α :=
  { cell with
    calls := Function.update cell.calls context none
    done := cell.done ++ [⟨call.value, call.since, cell.taken.length⟩] }

/-- The load, or the comparison and the swap after it. -/
def advance (cell : Cell κ α) (context : κ) : Cell κ α :=
  match cell.calls context with
  | none => cell
  | some call =>
      match call.loaded with
      | none =>
          { cell with
            calls := Function.update cell.calls context
              (some { call with loaded := some cell.word }) }
      | some current =>
          if current < call.value then
            if cell.word = current then { cell with word := call.value }.returns context call
            else
              { cell with
                calls := Function.update cell.calls context (some { call with loaded := none }) }
          else cell.returns context call

/-! ## Linearization -/

/-- Every call raised the word at one moment: a swap that succeeds, or the load that finds
the word high enough. `entries` lists these moments by their periods. -/
structure Linear (cell : Cell κ α) (entries : List (ℕ × α)) : Prop where
  gathers : Gathers max ⊥ cell.word cell.taken entries
  begun : ∀ context call, cell.calls context = some call → call.since ≤ cell.taken.length
  raised : ∀ context call current, cell.calls context = some call →
    call.loaded = some current → call.value ≤ current →
      ∃ period, call.since ≤ period ∧ (period, call.value) ∈ entries
  returned : ∀ done ∈ cell.done, ∃ period, done.since ≤ period ∧ period ≤ done.upto ∧
    (period, done.value) ∈ entries
  made : ∀ entry ∈ entries,
    (∃ done ∈ cell.done, done.value = entry.2 ∧ done.since ≤ entry.1 ∧ entry.1 ≤ done.upto) ∨
      ∃ context call, cell.calls context = some call ∧ call.value = entry.2 ∧
        call.since ≤ entry.1

variable {cell : Cell κ α} {entries : List (ℕ × α)}

omit [DecidableEq κ] in
theorem Linear.empty : (empty : Cell κ α).Linear [] where
  gathers := .start
  begun _ _ h := by cases h
  raised _ _ _ h := by cases h
  returned _ h := by cases h
  made _ h := by cases h

omit [DecidableEq κ] in
theorem Linear.take (h : cell.Linear entries) : cell.take.Linear entries where
  gathers := h.gathers.take
  begun context call hcall := by
    have hsince := h.begun context call hcall
    rw [Cell.take, List.length_append]
    exact hsince.trans (Nat.le_add_right _ _)
  raised := h.raised
  returned := h.returned
  made := h.made

theorem Linear.begin (h : cell.Linear entries) (context : κ) (value : α) :
    (cell.begin context value).Linear entries := by
  rw [Cell.begin]
  cases hcall : cell.calls context with
  | some call => exact h
  | none =>
      refine ⟨h.gathers, ?_, ?_, h.returned, ?_⟩
      · intro other call hother
        dsimp only at hother
        rcases eq_or_ne other context with rfl | hne
        · rw [Function.update_self] at hother
          cases hother
          exact Nat.le_refl _
        · rw [Function.update_of_ne hne] at hother
          exact h.begun other call hother
      · intro other call current hother hloaded
        dsimp only at hother
        rcases eq_or_ne other context with rfl | hne
        · rw [Function.update_self] at hother
          cases hother
          cases hloaded
        · rw [Function.update_of_ne hne] at hother
          exact h.raised other call current hother hloaded
      · intro entry hentry
        refine (h.made entry hentry).imp_right ?_
        rintro ⟨other, call, hother, hrest⟩
        refine ⟨other, call, ?_, hrest⟩
        have hne : other ≠ context := by
          rintro rfl
          cases hcall.symm.trans hother
        exact (Function.update_of_ne hne _ _).trans hother

/-- A call whose value is entered may return. -/
theorem Linear.returns (h : cell.Linear entries) {context : κ} {call : Call α}
    (hcall : cell.calls context = some call)
    (hraised : ∃ period, call.since ≤ period ∧ (period, call.value) ∈ entries) :
    (cell.returns context call).Linear entries := by
  have hothers {other : κ} {running : Call α}
      (hother : (cell.returns context call).calls other = some running) :
      cell.calls other = some running := by
    rcases eq_or_ne other context with rfl | hne
    · have hnone : (cell.returns other call).calls other = none := Function.update_self ..
      cases hnone.symm.trans hother
    · change Function.update cell.calls context none other = some running at hother
      rwa [Function.update_of_ne hne] at hother
  refine ⟨h.gathers, fun other running hother => h.begun other running (hothers hother),
    fun other running current hother => h.raised other running current (hothers hother), ?_, ?_⟩
  · intro done hdone
    rcases List.mem_append.mp hdone with hdone | hdone
    · exact h.returned done hdone
    · obtain ⟨period, hsince, hentry⟩ := hraised
      rw [List.mem_singleton.mp hdone]
      exact ⟨period, hsince, h.gathers.past _ hentry, hentry⟩
  · intro entry hentry
    rcases h.made entry hentry with ⟨done, hdone, hrest⟩ | ⟨other, running, hother, hvalue, hle⟩
    · exact .inl ⟨done, List.mem_append_left _ hdone, hrest⟩
    · rcases eq_or_ne other context with rfl | hne
      · cases hcall.symm.trans hother
        exact .inl ⟨_, List.mem_concat_self, hvalue, hle, h.gathers.past _ hentry⟩
      · exact .inr ⟨other, running, (Function.update_of_ne hne _ _).trans hother, hvalue, hle⟩

omit [DecidableEq κ] in
/-- A running call raises the word to its value. -/
theorem Linear.enter (h : cell.Linear entries) {context : κ} {call : Call α}
    (hcall : cell.calls context = some call) :
    ({ cell with word := max cell.word call.value } : Cell κ α).Linear
      (entries ++ [(cell.taken.length, call.value)]) where
  gathers := h.gathers.put call.value
  begun := h.begun
  raised other running current hother hloaded hle := by
    obtain ⟨period, hsince, hentry⟩ := h.raised other running current hother hloaded hle
    exact ⟨period, hsince, List.mem_append_left _ hentry⟩
  returned done hdone := by
    obtain ⟨period, hsince, hupto, hentry⟩ := h.returned done hdone
    exact ⟨period, hsince, hupto, List.mem_append_left _ hentry⟩
  made entry hentry := by
    rcases List.mem_append.mp hentry with hentry | hentry
    · exact h.made entry hentry
    · rw [List.mem_singleton.mp hentry]
      exact .inr ⟨context, call, hcall, rfl, h.begun context call hcall⟩

/-- A call loads the word, or loses what it loaded. -/
theorem Linear.load (h : cell.Linear entries) {context : κ} {call : Call α}
    (hcall : cell.calls context = some call) (loaded : Option α)
    (hloaded : ∀ current, loaded = some current → call.value ≤ current →
      ∃ period, call.since ≤ period ∧ (period, call.value) ∈ entries) :
    ({ cell with
      calls := Function.update cell.calls context (some { call with loaded := loaded }) } :
        Cell κ α).Linear entries := by
  refine ⟨h.gathers, ?_, ?_, h.returned, ?_⟩
  · intro other running hother
    dsimp only at hother
    rcases eq_or_ne other context with rfl | hne
    · rw [Function.update_self] at hother
      cases hother
      exact h.begun other call hcall
    · rw [Function.update_of_ne hne] at hother
      exact h.begun other running hother
  · intro other running current hother hcurrent hle
    dsimp only at hother
    rcases eq_or_ne other context with rfl | hne
    · rw [Function.update_self] at hother
      cases hother
      exact hloaded current hcurrent hle
    · rw [Function.update_of_ne hne] at hother
      exact h.raised other running current hother hcurrent hle
  · intro entry hentry
    refine (h.made entry hentry).imp_right ?_
    rintro ⟨other, running, hother, hvalue, hsince⟩
    rcases eq_or_ne other context with rfl | hne
    · cases hcall.symm.trans hother
      exact ⟨other, _, Function.update_self .., hvalue, hsince⟩
    · exact ⟨other, running, (Function.update_of_ne hne _ _).trans hother, hvalue, hsince⟩

theorem Linear.advance (h : cell.Linear entries) (context : κ) :
    ∃ later, (cell.advance context).Linear (entries ++ later) := by
  rw [Cell.advance]
  cases hcall : cell.calls context with
  | none => exact ⟨[], by rwa [List.append_nil]⟩
  | some call =>
      have hsince := h.begun context call hcall
      cases hloaded : call.loaded with
      | none =>
          simp only [hloaded]
          by_cases hle : call.value ≤ cell.word
          · have hentered := h.enter hcall
            rw [max_eq_left hle] at hentered
            refine ⟨_, hentered.load hcall (some cell.word) fun _ _ _ => ?_⟩
            exact ⟨_, hsince, List.mem_concat_self⟩
          · refine ⟨[], ?_⟩
            rw [List.append_nil]
            refine h.load hcall (some cell.word) fun current hcurrent hhigh => ?_
            cases hcurrent
            exact absurd hhigh hle
      | some current =>
          simp only [hloaded]
          split_ifs with hless hsame
          · have hentered := h.enter hcall
            rw [hsame, max_eq_right hless.le] at hentered
            exact ⟨_, hentered.returns hcall ⟨_, hsince, List.mem_concat_self⟩⟩
          · refine ⟨[], ?_⟩
            rw [List.append_nil]
            exact h.load hcall none fun _ hnone => by cases hnone
          · refine ⟨[], ?_⟩
            rw [List.append_nil]
            exact h.returns hcall
              (h.raised context call current hcall hloaded (not_lt.mp hless))

/-! ## What the reader finds -/

omit [DecidableEq κ] in
/-- No value is lost: a period the call overlapped is at least as high. -/
theorem Linear.covered (h : cell.Linear entries) {done : Done α} (hdone : done ∈ cell.done) :
    ∃ period peak, done.since ≤ period ∧ period ≤ done.upto ∧
      (cell.taken ++ [cell.word])[period]? = some peak ∧ done.value ≤ peak := by
  obtain ⟨period, hsince, hupto, hentry⟩ := h.returned done hdone
  have hlt : period < (cell.taken ++ [cell.word]).length := by
    rw [List.length_append, List.length_singleton]
    exact Nat.lt_succ_of_le (h.gathers.past _ hentry)
  have hpeak := List.getElem?_eq_getElem hlt
  refine ⟨period, _, hsince, hupto, hpeak, ?_⟩
  rw [h.gathers.period hpeak]
  exact le_gather_max hentry

omit [DecidableEq κ] in
/-- No value is made up: the peak of a period is the value of a call that overlapped it. -/
theorem Linear.attained (h : cell.Linear entries) {period : ℕ} {peak : α}
    (hpeak : (cell.taken ++ [cell.word])[period]? = some peak) :
    peak = ⊥ ∨
      (∃ done ∈ cell.done, done.value = peak ∧ done.since ≤ period ∧ period ≤ done.upto) ∨
      ∃ context call, cell.calls context = some call ∧ call.value = peak ∧
        call.since ≤ period := by
  rw [h.gathers.period hpeak]
  rcases gather_max_mem period entries with hnone | hentry
  · exact .inl hnone
  · exact .inr (h.made _ hentry)

end Cell

end PeakCell
