import Mathlib.Algebra.BigOperators.Group.List.Basic
import Mathlib.Algebra.GroupWithZero.Nat
import Mathlib.Order.Lattice.Nat
import SplitEsb.Shared.PeakCell
import SplitEsb.Shared.Transition

/-! # The link's counters
The radio interrupt and any thread count while the statistics work takes the counters and
clears them, all without a lock. -/

namespace SplitEsb

open Gathered PeakCell Transition

inductive EsbStat where
  | sent
  | sendRefused
  | noackSent
  | txOk
  | txRetries
  | txFailed
  | txFlushed
  | relayPolls
  | relayNewMotion
  | relayUsbTook
  | relayUsbRefused
  | replyWritten
  | replyRefused
  | rxPeak
  | rxFull
  | rxRingDropped
  | txPeak
  deriving DecidableEq

/-- The counters that keep the largest value; the others add up. -/
def EsbStat.isPeak : EsbStat → Bool
  | .rxPeak | .txPeak => true
  | _ => false

/-- The 32-bit counters with the calls that run on them, by context. `added` records what
`esb_stat_add` added, with the number of takes before it. -/
structure StatBoard (κ : Type*) where
  counts : EsbStat → Cell κ ℕ
  added : EsbStat → List (ℕ × ℕ)

/-- A context adds, which is one instruction; it enters `esb_stat_peak`, or goes on in it by
a load or a compare-and-swap; the work takes a counter. -/
inductive StatAction (κ : Type*) where
  | esbStatAdd (stat : EsbStat) (counter : stat.isPeak = false) (amount : UInt32)
  | esbStatPeak (stat : EsbStat) (peak : stat.isPeak = true) (context : κ) (value : UInt32)
  | advance (stat : EsbStat) (context : κ)
  | takeCount (stat : EsbStat)

namespace StatBoard

def addCount (count amount : ℕ) : ℕ := (count + amount) % 2 ^ 32

variable {κ : Type*} [DecidableEq κ]

def zero : StatBoard κ := ⟨fun _ => .empty, fun _ => []⟩

def setCount (board : StatBoard κ) (stat : EsbStat) (cell : Cell κ ℕ) : StatBoard κ :=
  { board with counts := Function.update board.counts stat cell }

def step (board : StatBoard κ) : StatAction κ → StatBoard κ
  | .esbStatAdd stat _ amount =>
      let cell := board.counts stat
      { board.setCount stat { cell with word := addCount cell.word amount.toNat } with
        added := Function.update board.added stat
          (board.added stat ++ [(cell.taken.length, amount.toNat)]) }
  | .esbStatPeak stat _ context value =>
      board.setCount stat ((board.counts stat).begin context value.toNat)
  | .advance stat context => board.setCount stat ((board.counts stat).advance context)
  | .takeCount stat => board.setCount stat (board.counts stat).take

/-! ## Invariant -/

structure Counts (board : StatBoard κ) (stat : EsbStat) : Prop where
  idle : ∀ context, (board.counts stat).calls context = none
  gathers : Gathers addCount 0 (board.counts stat).word (board.counts stat).taken
    (board.added stat)

structure Holds (board : StatBoard κ) : Prop where
  counters : ∀ stat, stat.isPeak = false → board.Counts stat
  peaks : ∀ stat, stat.isPeak = true → ∃ entries, (board.counts stat).Linear entries

variable {board : StatBoard κ}

omit [DecidableEq κ] in
theorem Holds.zero : (zero : StatBoard κ).Holds where
  counters _ _ := ⟨fun _ => rfl, .start⟩
  peaks _ _ := ⟨[], .empty⟩

omit [DecidableEq κ] in
/-- A step that changes one counter. -/
theorem Holds.setCount (h : board.Holds) (stat : EsbStat) {cell : Cell κ ℕ}
    (hcounter : stat.isPeak = false → (board.setCount stat cell).Counts stat)
    (hpeak : stat.isPeak = true → ∃ entries, cell.Linear entries) :
    (board.setCount stat cell).Holds where
  counters other hother := by
    rcases eq_or_ne other stat with rfl | hne
    · exact hcounter hother
    · have hsame : (board.setCount stat cell).counts other = board.counts other :=
        Function.update_of_ne hne _ _
      refine ⟨?_, ?_⟩
      · rw [hsame]
        exact (h.counters other hother).idle
      · rw [hsame]
        exact (h.counters other hother).gathers
  peaks other hother := by
    rcases eq_or_ne other stat with rfl | hne
    · have hself : (board.setCount other cell).counts other = cell := Function.update_self ..
      rw [hself]
      exact hpeak hother
    · have hsame : (board.setCount stat cell).counts other = board.counts other :=
        Function.update_of_ne hne _ _
      rw [hsame]
      exact h.peaks other hother

omit [DecidableEq κ] in
theorem Holds.add (h : board.Holds) {stat : EsbStat} (counter : stat.isPeak = false)
    (amount : ℕ) :
    ({ board.setCount stat { board.counts stat with
        word := addCount (board.counts stat).word amount } with
      added := Function.update board.added stat
        (board.added stat ++ [((board.counts stat).taken.length, amount)]) } :
      StatBoard κ).Holds where
  counters other hother := by
    rcases eq_or_ne other stat with rfl | hne
    · refine ⟨?_, ?_⟩
      · intro context
        simp only [StatBoard.setCount, Function.update_self]
        exact (h.counters other hother).idle context
      · simp only [StatBoard.setCount, Function.update_self]
        exact (h.counters other hother).gathers.put amount
    · refine ⟨?_, ?_⟩
      · intro context
        simp only [StatBoard.setCount, Function.update_of_ne hne]
        exact (h.counters other hother).idle context
      · simp only [StatBoard.setCount, Function.update_of_ne hne]
        exact (h.counters other hother).gathers
  peaks other hother := by
    have hne : other ≠ stat := by
      rintro rfl
      cases counter.symm.trans hother
    simp only [StatBoard.setCount, Function.update_of_ne hne]
    exact h.peaks other hother

theorem Holds.step (h : board.Holds) (action : StatAction κ) : (board.step action).Holds := by
  cases action with
  | esbStatAdd stat counter amount => exact h.add counter amount.toNat
  | esbStatPeak stat peak context value =>
      refine h.setCount stat (fun hcounter => ?_) fun _ => ?_
      · cases peak.symm.trans hcounter
      · obtain ⟨entries, hlinear⟩ := h.peaks stat peak
        exact ⟨entries, hlinear.begin context value.toNat⟩
  | advance stat context =>
      refine h.setCount stat (fun hcounter => ?_) fun hpeak => ?_
      · have hidle := (h.counters stat hcounter).idle context
        have hsame : (board.counts stat).advance context = board.counts stat := by
          rw [Cell.advance, hidle]
        rw [hsame, StatBoard.setCount, Function.update_eq_self]
        exact h.counters stat hcounter
      · obtain ⟨entries, hlinear⟩ := h.peaks stat hpeak
        obtain ⟨later, hlater⟩ := hlinear.advance context
        exact ⟨_, hlater⟩
  | takeCount stat =>
      refine h.setCount stat (fun hcounter => ?_) fun hpeak => ?_
      · have hself : (board.setCount stat (board.counts stat).take).counts stat =
          (board.counts stat).take := Function.update_self ..
        refine ⟨?_, ?_⟩
        · rw [hself]
          exact (h.counters stat hcounter).idle
        · rw [hself]
          exact (h.counters stat hcounter).gathers.take
      · obtain ⟨entries, hlinear⟩ := h.peaks stat hpeak
        exact ⟨entries, hlinear.take⟩

/-! ## What the work reads -/

theorem gather_addCount (period : ℕ) (entries : List (ℕ × ℕ)) :
    gather addCount 0 period entries =
      ((entries.filter fun entry => entry.1 = period).map Prod.snd).sum % 2 ^ 32 := by
  have hfold : ∀ (amounts : List ℕ) (count : ℕ), count < 2 ^ 32 →
      amounts.foldl addCount count = (count + amounts.sum) % 2 ^ 32 := by
    intro amounts
    induction amounts with
    | nil => exact fun count hcount => (Nat.mod_eq_of_lt hcount).symm
    | cons amount amounts ih =>
        intro count _
        rw [List.foldl_cons, addCount, ih _ (Nat.mod_lt _ (by decide)), Nat.mod_add_mod,
          List.sum_cons, Nat.add_assoc]
  rw [gather, hfold _ 0 (by decide), Nat.zero_add]

/-- The counter of a period, taken or running. -/
def countOf (board : StatBoard κ) (stat : EsbStat) (period : ℕ) : Option ℕ :=
  ((board.counts stat).taken ++ [(board.counts stat).word])[period]?

/-- A peak misses no call that returned and shows none that was not made. -/
structure PeakSound (board : StatBoard κ) (stat : EsbStat) : Prop where
  covered : ∀ done ∈ (board.counts stat).done, ∃ period peak, done.since ≤ period ∧
    period ≤ done.upto ∧ board.countOf stat period = some peak ∧ done.value ≤ peak
  attained : ∀ period peak, board.countOf stat period = some peak →
    peak = 0 ∨
      (∃ done ∈ (board.counts stat).done, done.value = peak ∧ done.since ≤ period ∧
        period ≤ done.upto) ∨
      ∃ context call, (board.counts stat).calls context = some call ∧ call.value = peak ∧
        call.since ≤ period

/-- However the statements interleave, a counter taken is the sum of what was added since
the take before, and a peak the largest value of the calls between. -/
theorem stats_by_period (actions : List (StatAction κ)) :
    let board := run step (zero : StatBoard κ) actions
    (∀ stat, stat.isPeak = false → ∀ period count, board.countOf stat period = some count →
      count = (((board.added stat).filter fun entry => entry.1 = period).map Prod.snd).sum %
        2 ^ 32) ∧
      ∀ stat, stat.isPeak = true → board.PeakSound stat := by
  intro board
  have hholds : board.Holds :=
    run_invariant (fun _ action h => h.step action) Holds.zero actions
  refine ⟨fun stat hcounter period count hcount => ?_, fun stat hpeak => ?_⟩
  · rw [← gather_addCount]
    exact (hholds.counters stat hcounter).gathers.period hcount
  · obtain ⟨entries, hlinear⟩ := hholds.peaks stat hpeak
    exact ⟨fun done hdone => hlinear.covered hdone, fun period peak hperiod =>
      hlinear.attained hperiod⟩

end StatBoard

end SplitEsb
