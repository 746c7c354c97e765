import Mathlib.Logic.Function.Basic

/-! # Sections under a mutex
Threads move through stages, some of them inside the sections of a mutex. Only its owner
is inside, so what one section tests no other section changes before it ends. -/

namespace Mutex

variable {τ σ : Type*} {inside : σ → Prop} {owner : Option τ} {stages : τ → σ}

def Guards (inside : σ → Prop) (owner : Option τ) (stages : τ → σ) : Prop :=
  ∀ thread, inside (stages thread) → owner = some thread

theorem Guards.alone (h : Guards inside owner stages) {thread other : τ}
    (hthread : inside (stages thread)) (hother : inside (stages other)) : other = thread :=
  Option.some_inj.mp ((h other hother).symm.trans (h thread hthread))

variable [DecidableEq τ] {thread : τ} {next : σ}

/-- What follows from a kind of stage for every thread, and for the next stage of one,
follows after its move. -/
theorem forall_move {kind : σ → Prop} {Q : τ → Prop} (h : ∀ other, kind (stages other) → Q other)
    (hnext : kind next → Q thread) (other : τ)
    (hother : kind (Function.update stages thread next other)) : Q other := by
  rcases eq_or_ne other thread with rfl | hne
  · rw [Function.update_self] at hother
    exact hnext hother
  · rw [Function.update_of_ne hne] at hother
    exact h other hother

/-- A thread enters a section only from inside. -/
theorem Guards.move (h : Guards inside owner stages)
    (hnext : inside next → inside (stages thread)) :
    Guards inside owner (Function.update stages thread next) :=
  forall_move h fun hinside => h thread (hnext hinside)

/-- The free mutex is taken. -/
theorem Guards.lock (h : Guards inside none stages) :
    Guards inside (some thread) (Function.update stages thread next) :=
  forall_move (fun other hother => absurd (h other hother) nofun) fun _ => rfl

/-- The owner leaves its section. -/
theorem Guards.unlock (h : Guards inside owner stages) (hthread : inside (stages thread))
    (hnext : ¬ inside next) : Guards inside none (Function.update stages thread next) := by
  intro other hother
  rcases eq_or_ne other thread with rfl | hne
  · rw [Function.update_self] at hother
    exact absurd hother hnext
  · rw [Function.update_of_ne hne] at hother
    exact absurd (h.alone hthread hother) hne

end Mutex
