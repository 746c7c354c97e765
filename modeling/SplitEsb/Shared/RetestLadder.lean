import Mathlib.Order.Basic
import Mathlib.Tactic.SplitIfs

/-! # A ladder of retests
A member that misbehaves is sent into exile and comes back to be tested again. Each time
it is sent back before it has served long enough the next exile is longer; a full term of
service forgives it. -/

namespace RetestLadder

/-- One member: whether it is in, the windows of its exile, the windows it served, and
how often in a row it failed its test. -/
@[ext] structure Rung where
  live : Bool
  exiled : ℕ
  service : ℕ
  level : ℕ
  deriving DecidableEq, Repr

/-- The term of service that forgives, the highest level, the exile of a level. -/
structure Ladder where
  term : ℕ
  cap : ℕ
  exile : ℕ → ℕ
  term_pos : 0 < term
  exile_pos : ∀ level, 0 < exile level

variable (ladder : Ladder)

/-- A window of a member that is in. -/
def serve (served : Bool) (rung : Rung) : Rung :=
  if served ∧ rung.service < ladder.term then
    { rung with
      service := rung.service + 1
      level := if ladder.term ≤ rung.service + 1 then 0 else rung.level }
  else rung

/-- A window of a member in exile. -/
def age (rung : Rung) : Rung :=
  if ladder.exile rung.level ≤ rung.exiled + 1 then { rung with live := true, exiled := 0 }
  else { rung with exiled := rung.exiled + 1 }

/-- The member is sent into exile. -/
def banish (rung : Rung) : Rung where
  live := false
  exiled := 0
  service := 0
  level := if rung.service < ladder.term ∧ rung.level < ladder.cap then rung.level + 1
    else rung.level

def step (served banished : Bool) (rung : Rung) : Rung :=
  let rung := if rung.live then serve ladder served rung else age ladder rung
  if banished then banish ladder rung else rung

/-- The counters stay in their ranges. -/
structure Sound (rung : Rung) : Prop where
  exiled_lt : rung.live = false → rung.exiled < ladder.exile rung.level
  service_le : rung.service ≤ ladder.term
  level_le : rung.level ≤ ladder.cap

variable {ladder} {rung : Rung}

theorem Sound.serve (h : Sound ladder rung) (hlive : rung.live = true) (served : Bool) :
    Sound ladder (serve ladder served rung) := by
  rw [RetestLadder.serve]
  split_ifs with hserved hterm
  · exact ⟨fun hout => absurd (hlive.symm.trans hout) nofun, hserved.2, Nat.zero_le _⟩
  · exact ⟨fun hout => absurd (hlive.symm.trans hout) nofun, hserved.2, h.level_le⟩
  · exact h

theorem Sound.age (h : Sound ladder rung) : Sound ladder (age ladder rung) := by
  rw [RetestLadder.age]
  split_ifs with hback
  · exact ⟨nofun, h.service_le, h.level_le⟩
  · exact ⟨fun _ => Nat.lt_of_not_le hback, h.service_le, h.level_le⟩

theorem Sound.banish (h : Sound ladder rung) : Sound ladder (banish ladder rung) := by
  refine ⟨fun _ => ladder.exile_pos _, Nat.zero_le _, ?_⟩
  rw [RetestLadder.banish]
  have hlevel := h.level_le
  dsimp only
  split_ifs with hraise
  · exact hraise.2
  · exact hlevel

theorem Sound.step (h : Sound ladder rung) (served banished : Bool) :
    Sound ladder (step ladder served banished rung) := by
  have hfirst : Sound ladder
      (if rung.live then RetestLadder.serve ladder served rung else RetestLadder.age ladder rung) := by
    cases hlive : rung.live with
    | true => exact h.serve hlive served
    | false => exact h.age
  rw [RetestLadder.step]
  split
  · exact hfirst.banish
  · exact hfirst

/-- A member leaves only when it is banished. -/
theorem banished_eq {served banished : Bool} (hlive : banished = true → rung.live = true) :
    banished = (rung.live && !(step ladder served banished rung).live) := by
  rw [step]
  cases banished with
  | true => simp [hlive rfl, banish]
  | false =>
      cases hout : rung.live with
      | false => simp
      | true =>
          simp only [Bool.false_eq_true, if_false, if_true, Bool.true_and, serve]
          split_ifs <;> simp [hout]

/-! ## Runs -/

/-- The windows of a run: a member is banished only from among those that are in. -/
structure Run (ladder : Ladder) (length : ℕ) (rung : ℕ → Rung) (served banished : ℕ → Bool) :
    Prop where
  start : Sound ladder (rung 0)
  step : ∀ window < length,
    rung (window + 1) = RetestLadder.step ladder (served window) (banished window) (rung window)
  live : ∀ window < length, banished window = true → (rung window).live = true

variable {length : ℕ} {rung : ℕ → Rung} {served banished : ℕ → Bool}

theorem Run.sound (h : Run ladder length rung served banished) {window : ℕ}
    (hwindow : window ≤ length) : Sound ladder (rung window) := by
  induction window with
  | zero => exact h.start
  | succ window ih =>
      rw [h.step window hwindow]
      exact (ih (Nat.le_of_succ_le hwindow)).step _ _

/-- A window of exile only counts. -/
theorem Run.exiled_succ (h : Run ladder length rung served banished) {window : ℕ}
    (hwindow : window < length) (hout : (rung window).live = false) :
    rung (window + 1) = age ladder (rung window) := by
  have hkept : banished window = false := by
    by_contra hbanished
    rw [h.live window hwindow (eq_true_of_ne_false hbanished)] at hout
    cases hout
  rw [h.step window hwindow, RetestLadder.step, hout, hkept]
  rfl

theorem Run.banished_succ (h : Run ladder length rung served banished) {window : ℕ}
    (hwindow : window < length) (hbanished : banished window = true) :
    (rung (window + 1)).live = false ∧ (rung (window + 1)).exiled = 0 := by
  rw [h.step window hwindow, RetestLadder.step, hbanished]
  exact ⟨rfl, rfl⟩

/-- During an exile the windows are counted and the level stays. -/
theorem Run.exile_counts (h : Run ladder length rung served banished) {window : ℕ}
    (hwindow : window < length) (hbanished : banished window = true) (passed : ℕ)
    (hpassed : passed < ladder.exile (rung (window + 1)).level)
    (hlength : window + 1 + passed ≤ length) :
    (rung (window + 1 + passed)).live = false ∧ (rung (window + 1 + passed)).exiled = passed ∧
      (rung (window + 1 + passed)).level = (rung (window + 1)).level := by
  induction passed with
  | zero =>
      obtain ⟨hout, hzero⟩ := h.banished_succ hwindow hbanished
      exact ⟨hout, hzero, rfl⟩
  | succ passed ih =>
      obtain ⟨hout, hexiled, hlevel⟩ := ih (by omega) (by omega)
      have hage : ¬ ladder.exile (rung (window + 1 + passed)).level ≤
          (rung (window + 1 + passed)).exiled + 1 := by
        rw [hlevel, hexiled]
        omega
      rw [← Nat.add_assoc, h.exiled_succ (by omega) hout, age, if_neg hage]
      exact ⟨hout, congrArg (· + 1) hexiled, hlevel⟩

/-- An exile ends exactly in its window. -/
theorem Run.exile_ends (h : Run ladder length rung served banished) {window : ℕ}
    (hwindow : window < length) (hbanished : banished window = true)
    (hlength : window + 1 + ladder.exile (rung (window + 1)).level ≤ length) :
    (rung (window + 1 + ladder.exile (rung (window + 1)).level)).live = true := by
  have hpos := ladder.exile_pos (rung (window + 1)).level
  obtain ⟨last, hlast⟩ := Nat.exists_eq_succ_of_ne_zero (Nat.ne_of_gt hpos)
  obtain ⟨hout, hexiled, hlevel⟩ := h.exile_counts hwindow hbanished last (by omega)
    (by omega)
  rw [hlast, Nat.succ_eq_add_one, ← Nat.add_assoc, h.exiled_succ (by omega) hout, age, if_pos]
  rw [hlevel, hexiled]
  exact Nat.le_of_eq hlast

/-! ## Service -/

/-- The windows served while in, since the member was last banished. -/
def serviceBefore (live served banished : ℕ → Bool) : ℕ → ℕ
  | 0 => 0
  | window + 1 =>
      if banished window then 0
      else serviceBefore live served banished window +
        if live window ∧ served window then 1 else 0

/-- The same with this window. -/
def serviceThrough (live served banished : ℕ → Bool) (window : ℕ) : ℕ :=
  serviceBefore live served banished window + if live window ∧ served window then 1 else 0

theorem serve_service {rung : Rung} (served : Bool) {service : ℕ}
    (hservice : rung.service = min ladder.term service) :
    (serve ladder served rung).service = min ladder.term (service + if served then 1 else 0) := by
  rw [serve]
  grind

/-- The counter of a member is its service since it was last banished, up to a term. -/
theorem Run.service_eq (h : Run ladder length rung served banished)
    (hstart : (rung 0).service = 0) {window : ℕ} (hwindow : window ≤ length) :
    (rung window).service =
      min ladder.term (serviceBefore (fun window => (rung window).live) served banished window) := by
  induction window with
  | zero => rw [hstart, serviceBefore, Nat.min_zero]
  | succ window ih =>
      have ih := ih (Nat.le_of_succ_le hwindow)
      rw [h.step window hwindow, RetestLadder.step, serviceBefore]
      cases hbanished : banished window with
      | true => simp [banish]
      | false =>
          cases hlive : (rung window).live with
          | true => simpa using serve_service (served window) ih
          | false =>
              simp only [Bool.false_eq_true, if_false, false_and, Nat.add_zero]
              rw [← ih, age]
              split <;> rfl

/-- The level goes up for a member banished before its term, down to zero as the term is
complete, and stays otherwise. -/
theorem Run.level_succ (h : Run ladder length rung served banished)
    (hstart : (rung 0).service = 0) {window : ℕ} (hwindow : window < length) :
    let service := serviceThrough (fun window => (rung window).live) served banished window
    (rung (window + 1)).level =
      if banished window ∧ service < ladder.term then min ((rung window).level + 1) ladder.cap
      else if ((rung window).live ∧ served window) ∧ service = ladder.term then 0
      else (rung window).level := by
  have hservice := h.service_eq hstart (Nat.le_of_lt hwindow)
  have hcap := (h.sound (Nat.le_of_lt hwindow)).level_le
  have hterm := ladder.term_pos
  dsimp only
  rw [h.step window hwindow, RetestLadder.step, serviceThrough]
  generalize serviceBefore (fun window => (rung window).live) served banished window = before at *
  cases hlive : (rung window).live with
  | false =>
      have hkept : banished window = false := by
        by_contra hbanished
        rw [h.live window hwindow (eq_true_of_ne_false hbanished)] at hlive
        cases hlive
      rw [hkept, age]
      simp only [Bool.false_eq_true, if_false, false_and]
      split <;> rfl
  | true =>
      generalize rung window = rung at hservice hcap
      cases hbanished : banished window <;> cases hserved : served window <;>
        simp only [serve, banish, if_true, if_false, Bool.false_eq_true, true_and, false_and,
          and_true, Nat.add_zero] <;>
        grind

end RetestLadder
