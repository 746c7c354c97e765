import Mathlib.Data.List.Basic

/-! # A latest-value register
A writer publishes values, each replacing the one that waits. A consumer offers the
waiting value on, to be taken or refused, or drops it. Values are known by their
number in the order of publication. -/

namespace LatestValue

/-- A value offered on: its number, the form it was offered in, and the answer. -/
structure Offer (β : Type) where
  number : ℕ
  data : β
  accepted : Bool

/-- Later offers are of later values, or of the same value after a refusal. -/
def Offer.Before {β : Type} (first second : Offer β) : Prop :=
  first.number < second.number ∨ first.number = second.number ∧ first.accepted = false

structure Register (α β : Type) where
  values : List α
  offers : List (Offer β)
  waiting : Bool
  dropped : List ℕ

namespace Register

variable {α β : Type}

def empty : Register α β := ⟨[], [], false, []⟩

def newest (register : Register α β) : ℕ := register.values.length - 1

def publish (register : Register α β) (value : α) : Register α β :=
  { register with values := register.values ++ [value], waiting := true }

def offer (register : Register α β) (data : β) (accepted : Bool) : Register α β :=
  { register with
    offers := register.offers ++ [⟨register.newest, data, accepted⟩]
    waiting := !accepted }

def drop (register : Register α β) : Register α β :=
  { register with waiting := false, dropped := register.dropped ++ [register.newest] }

/-- Every offer carries the published value of its number, offers leave in the order
of publication and stop at an acceptance, and the newest value waits unless it was
taken or dropped. -/
structure NewestWins (carries : α → β → Prop) (register : Register α β) : Prop where
  whole : ∀ offer ∈ register.offers, ∃ value, register.values[offer.number]? = some value ∧
    carries value offer.data
  ordered : register.offers.Pairwise Offer.Before
  kept : register.values ≠ [] → register.waiting = true ∨
    (∃ offer ∈ register.offers, offer.number = register.newest ∧ offer.accepted = true) ∨
    register.newest ∈ register.dropped
  waiting : register.waiting = true → register.values ≠ [] ∧
    ∀ offer ∈ register.offers, offer.number < register.newest ∨
      offer.number = register.newest ∧ offer.accepted = false

variable {carries : α → β → Prop} {register : Register α β}

theorem NewestWins.empty : (Register.empty : Register α β).NewestWins carries where
  whole := by intro offer h; cases h
  ordered := List.Pairwise.nil
  kept := by intro h; exact absurd rfl h
  waiting := by intro h; cases h

theorem NewestWins.number_lt (h : register.NewestWins carries) {offer : Offer β}
    (hmem : offer ∈ register.offers) : offer.number < register.values.length := by
  obtain ⟨value, hvalue, -⟩ := h.whole offer hmem
  exact (List.getElem?_eq_some_iff.mp hvalue).1

theorem newest_publish (value : α) : (register.publish value).newest = register.values.length := by
  simp [newest, publish]

theorem NewestWins.publish (h : register.NewestWins carries) (value : α) :
    (register.publish value).NewestWins carries where
  whole := by
    intro offer hmem
    obtain ⟨earlier, hearlier, hcarries⟩ := h.whole offer hmem
    refine ⟨earlier, ?_, hcarries⟩
    rw [Register.publish, List.getElem?_append_left (h.number_lt hmem), hearlier]
  ordered := h.ordered
  kept := fun _ => .inl rfl
  waiting := by
    intro _
    refine ⟨by simp [Register.publish], fun offer hmem => .inl ?_⟩
    rw [newest_publish]
    exact h.number_lt hmem

theorem NewestWins.offer (h : register.NewestWins carries) (hwaiting : register.waiting = true)
    {data : β} {accepted : Bool}
    (hcarries : ∀ value, register.values.getLast? = some value → carries value data) :
    (register.offer data accepted).NewestWins carries := by
  obtain ⟨hvalues, hbefore⟩ := h.waiting hwaiting
  refine ⟨?_, ?_, ?_, ?_⟩
  · intro offer hmem
    rcases List.mem_append.mp hmem with hearlier | hlast
    · exact h.whole offer hearlier
    · rw [List.mem_singleton.mp hlast]
      obtain ⟨value, hvalue⟩ := Option.ne_none_iff_exists'.mp
        (mt List.getLast?_eq_none_iff.mp hvalues)
      refine ⟨value, ?_, hcarries value hvalue⟩
      rw [← hvalue, List.getLast?_eq_getElem?]
      rfl
  · refine List.pairwise_append.mpr ⟨h.ordered, List.pairwise_singleton _ _, ?_⟩
    intro first hfirst second hsecond
    rw [List.mem_singleton.mp hsecond]
    exact hbefore first hfirst
  · intro _
    cases accepted with
    | true => exact .inr (.inl ⟨_, List.mem_append_right _ (List.mem_singleton_self _), rfl, rfl⟩)
    | false => exact .inl rfl
  · intro hstill
    cases accepted with
    | true => cases hstill
    | false =>
        refine ⟨hvalues, fun offer hmem => ?_⟩
        rcases List.mem_append.mp hmem with hearlier | hlast
        · exact hbefore offer hearlier
        · rw [List.mem_singleton.mp hlast]
          exact .inr ⟨rfl, rfl⟩

theorem NewestWins.drop (h : register.NewestWins carries) : register.drop.NewestWins carries where
  whole := h.whole
  ordered := h.ordered
  kept := fun _ => .inr (.inr (List.mem_append_right _ (List.mem_singleton_self _)))
  waiting := by intro hwaiting; cases hwaiting

end Register

end LatestValue
