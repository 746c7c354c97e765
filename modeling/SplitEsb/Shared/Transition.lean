import Mathlib.Data.List.Basic
import Mathlib.Logic.Function.Iterate

/-! # Runs of a step function
A system is a total step function; a run folds it over a list of actions. -/

namespace Transition

variable {σ α : Type*} (step : σ → α → σ)

def run (state : σ) (actions : List α) : σ := actions.foldl step state

@[simp] theorem run_nil (state : σ) : run step state [] = state := rfl

@[simp] theorem run_cons (state : σ) (action : α) (actions : List α) :
    run step state (action :: actions) = run step (step state action) actions := rfl

theorem run_append (state : σ) (front back : List α) :
    run step state (front ++ back) = run step (run step state front) back := List.foldl_append

theorem run_replicate (state : σ) (action : α) (count : ℕ) :
    run step state (List.replicate count action) = (step · action)^[count] state := by
  induction count generalizing state with
  | zero => rfl
  | succ count ih => rw [List.replicate_succ, run_cons, ih, Function.iterate_succ_apply]

variable {step}

/-- What holds at the start and is kept by every step holds along every run. -/
theorem run_invariant {Inv : σ → Prop} (hstep : ∀ state action, Inv state → Inv (step state action))
    {state : σ} (hinit : Inv state) (actions : List α) : Inv (run step state actions) := by
  induction actions generalizing state with
  | nil => exact hinit
  | cons action actions ih => exact ih (hstep state action hinit)

/-- Every action of the run meets a condition in the state it is taken in. -/
def Along (step : σ → α → σ) (ok : σ → α → Prop) : σ → List α → Prop
  | _, [] => True
  | state, action :: actions => ok state action ∧ Along step ok (step state action) actions

instance decidableAlong (step : σ → α → σ) (ok : σ → α → Prop)
    [∀ state action, Decidable (ok state action)] :
    ∀ (state : σ) (actions : List α), Decidable (Along step ok state actions)
  | _, [] => inferInstanceAs (Decidable True)
  | state, action :: actions =>
      have := decidableAlong step ok (step state action) actions
      inferInstanceAs (Decidable (ok state action ∧ Along step ok (step state action) actions))

theorem Along.and {first second : σ → α → Prop} {state : σ} {actions : List α}
    (hfirst : Along step first state actions) (hsecond : Along step second state actions) :
    Along step (fun state action => first state action ∧ second state action) state actions := by
  induction actions generalizing state with
  | nil => trivial
  | cons action actions ih => exact ⟨⟨hfirst.1, hsecond.1⟩, ih hfirst.2 hsecond.2⟩

theorem Along.front {ok : σ → α → Prop} {state : σ} {front actions : List α}
    (h : Along step ok state actions) (hfront : front <+: actions) : Along step ok state front := by
  induction front generalizing state actions with
  | nil => trivial
  | cons action front ih =>
      obtain ⟨back, rfl⟩ := hfront
      exact ⟨h.1, ih h.2 ⟨back, rfl⟩⟩

/-- The invariant rule for runs whose actions all meet a condition. -/
theorem run_invariant_along {Inv : σ → Prop} {ok : σ → α → Prop}
    (hstep : ∀ state action, Inv state → ok state action → Inv (step state action))
    {state : σ} (hinit : Inv state) {actions : List α} (halong : Along step ok state actions) :
    Inv (run step state actions) := by
  induction actions generalizing state with
  | nil => exact hinit
  | cons action actions ih => exact ih (hstep state action hinit halong.1) halong.2

/-- The invariant rule for runs whose actions are all allowed in any state. -/
theorem run_invariant_forall {Inv : σ → Prop} {ok : α → Prop}
    (hstep : ∀ state action, Inv state → ok action → Inv (step state action))
    {state : σ} (hinit : Inv state) {actions : List α} (hall : ∀ action ∈ actions, ok action) :
    Inv (run step state actions) := by
  induction actions generalizing state with
  | nil => exact hinit
  | cons action actions ih =>
      obtain ⟨hfirst, hrest⟩ := List.forall_mem_cons.mp hall
      exact ih (hstep state action hinit hfirst) hrest

/-- Two conditions that agree wherever the invariant holds ask the same of a run. -/
theorem along_congr {Inv : σ → Prop} {first second : σ → α → Prop}
    (hstep : ∀ state action, Inv state → Inv (step state action))
    (hiff : ∀ state action, Inv state → (first state action ↔ second state action))
    {state : σ} (hinit : Inv state) (actions : List α) :
    Along step first state actions ↔ Along step second state actions := by
  induction actions generalizing state with
  | nil => exact Iff.rfl
  | cons action actions ih =>
      exact and_congr (hiff state action hinit) (ih (hstep state action hinit))

/-- A property that each step keeps iff the action meets a condition holds in every state
of a run iff all its actions meet the condition; here for actions allowed in any state. -/
theorem forall_prefix_iff_along_of {Inv P : σ → Prop} {ok : σ → α → Prop} {allowed : α → Prop}
    (hinv : ∀ state action, Inv state → allowed action → Inv (step state action))
    (hstep : ∀ state action, Inv state → P state → allowed action →
      (P (step state action) ↔ ok state action))
    {state : σ} (hinit : Inv state) (hstart : P state) {actions : List α}
    (hall : ∀ action ∈ actions, allowed action) :
    (∀ front, front <+: actions → P (run step state front)) ↔ Along step ok state actions := by
  induction actions generalizing state with
  | nil =>
      refine iff_of_true (fun front hfront => ?_) trivial
      rw [List.prefix_nil.mp hfront]
      exact hstart
  | cons action actions ih =>
      obtain ⟨hfirst, hrest⟩ := List.forall_mem_cons.mp hall
      constructor
      · intro h
        have hnext : P (step state action) := h [action] ⟨actions, rfl⟩
        refine ⟨(hstep state action hinit hstart hfirst).mp hnext, ?_⟩
        exact (ih (hinv state action hinit hfirst) hnext hrest).mp fun front hfront =>
          h (action :: front) ((List.prefix_cons_inj action).mpr hfront)
      · intro h front hfront
        have hnext := (hstep state action hinit hstart hfirst).mpr h.1
        rcases List.prefix_cons_iff.mp hfront with rfl | ⟨rest, rfl, hprefix⟩
        · exact hstart
        · exact (ih (hinv state action hinit hfirst) hnext hrest).mpr h.2 rest hprefix

theorem forall_prefix_iff_along {Inv P : σ → Prop} {ok : σ → α → Prop}
    (hinv : ∀ state action, Inv state → Inv (step state action))
    (hstep : ∀ state action, Inv state → P state → (P (step state action) ↔ ok state action))
    {state : σ} (hinit : Inv state) (hstart : P state) (actions : List α) :
    (∀ front, front <+: actions → P (run step state front)) ↔ Along step ok state actions :=
  @forall_prefix_iff_along_of _ _ step Inv P ok (fun _ => True)
    (fun state action h _ => hinv state action h) (fun state action h hP _ => hstep state action h hP)
    state hinit hstart actions fun _ _ => trivial

end Transition
