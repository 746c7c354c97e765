import Mathlib.Data.List.Basic

/-! # Traced memory
A buffer with the accesses made to it. A pass that reads ahead of its writes never
writes a place it has not read, and stays inside the buffer its reads stay inside. -/

namespace AccessTrace

inductive Access where
  | read (index : ℕ)
  | write (index : ℕ)
  deriving DecidableEq, Repr

def Access.index : Access → ℕ
  | read index => index
  | write index => index

def Within (size : ℕ) (accesses : List Access) : Prop := ∀ access ∈ accesses, access.index < size

/-- Every write goes to a place that was read before. -/
def ReadFirst (accesses : List Access) : Prop :=
  ∀ front index back, accesses = front ++ .write index :: back → .read index ∈ front

instance (size : ℕ) (accesses : List Access) : Decidable (Within size accesses) :=
  inferInstanceAs (Decidable (∀ access ∈ accesses, access.index < size))

structure Traced (α : Type*) where
  cells : List α
  accesses : List Access

namespace Traced

variable {α : Type*} [Inhabited α]

def load (memory : Traced α) (index : ℕ) : α × Traced α :=
  (memory.cells.getD index default,
    { memory with accesses := memory.accesses ++ [.read index] })

def store (memory : Traced α) (index : ℕ) (value : α) : Traced α where
  cells := memory.cells.set index value
  accesses := memory.accesses ++ [.write index]

end Traced

variable {size head index : ℕ} {accesses : List Access}

theorem Within.mono (h : Within size accesses) {larger : ℕ} (hle : size ≤ larger) :
    Within larger accesses := fun access hmem => Nat.lt_of_lt_of_le (h access hmem) hle

theorem Within.append (h : Within size accesses) {access : Access} (haccess : access.index < size) :
    Within size (accesses ++ [access]) := by
  intro other hmem
  rcases List.mem_append.mp hmem with hmem | hmem
  · exact h other hmem
  · rw [List.mem_singleton.mp hmem]
    exact haccess

theorem ReadFirst.append (h : ReadFirst accesses) {access : Access}
    (haccess : ∀ index, access = .write index → .read index ∈ accesses) :
    ReadFirst (accesses ++ [access]) := by
  intro front index back hsplit
  rcases List.eq_nil_or_concat back with rfl | ⟨back, last, rfl⟩
  · obtain ⟨rfl, hlast⟩ := List.append_inj' hsplit rfl
    exact haccess index (List.singleton_inj.mp hlast)
  · rw [List.concat_eq_append, ← List.cons_append, ← List.append_assoc] at hsplit
    exact h front index back (List.append_inj' hsplit rfl).1

/-- The places below the reading head were read, and nothing was written unread. -/
structure ReadsAhead (size head : ℕ) (accesses : List Access) : Prop where
  within : Within size accesses
  readFirst : ReadFirst accesses
  reads : ∀ index < head, .read index ∈ accesses

theorem ReadsAhead.start : ReadsAhead size 0 [] where
  within access hmem := by cases hmem
  readFirst front index back hsplit := by simp at hsplit
  reads index hindex := absurd hindex (Nat.not_lt_zero index)

theorem ReadsAhead.read (h : ReadsAhead size head accesses) (hhead : head < size) :
    ReadsAhead size (head + 1) (accesses ++ [.read head]) where
  within := h.within.append hhead
  readFirst := h.readFirst.append fun index hwrite => by cases hwrite
  reads index hindex := by
    rcases Nat.lt_succ_iff_lt_or_eq.mp hindex with hbelow | rfl
    · exact List.mem_append_left _ (h.reads index hbelow)
    · exact List.mem_append_right _ (List.mem_singleton_self _)

/-- Writes stay behind the head. -/
theorem ReadsAhead.write (h : ReadsAhead size head accesses) (hindex : index < head)
    (hhead : head ≤ size) : ReadsAhead size head (accesses ++ [.write index]) where
  within := h.within.append (Nat.lt_of_lt_of_le hindex hhead)
  readFirst := h.readFirst.append fun other hwrite => by
    cases hwrite
    exact h.reads index hindex
  reads other hother := List.mem_append_left _ (h.reads other hother)

end AccessTrace
