import Mathlib.Data.List.Basic
import SplitEsb.Shared.Transition

/-! # A value mirrored over a link
A source samples the value it has. A sample waits in a slot, where the next one replaces
it, leaves on a line that keeps the order and may lose samples, and is shown when it
arrives. The last value on the way is the one shown in the end. -/

structure Mirror (α : Type*) where
  sampled : List α
  slot : Option α
  line : List α
  shown : List α

namespace Mirror

open Transition

variable {α : Type*}

inductive Act (α : Type*) where
  | sample (value : α) (waits : Bool)
  | send
  | arrive
  | lose

def empty : Mirror α := ⟨[], none, [], []⟩

def step (mirror : Mirror α) : Act α → Mirror α
  | .sample value waits =>
      { mirror with
        sampled := mirror.sampled ++ [value]
        slot := if waits then some value else mirror.slot }
  | .send => { mirror with slot := none, line := mirror.line ++ mirror.slot.toList }
  | .arrive =>
      { mirror with
        line := mirror.line.tail
        shown := mirror.shown ++ mirror.line.head?.toList }
  | .lose => { mirror with line := mirror.line.tail }

def onTheWay (mirror : Mirror α) : List α := mirror.line ++ mirror.slot.toList

def current (start : α) (mirror : Mirror α) : α := mirror.shown.getLast?.getD start

/-- What is shown once everything on the way has arrived. -/
def destined (start : α) (mirror : Mirror α) : α :=
  (mirror.shown ++ mirror.onTheWay).getLast?.getD start

/-! ## Nothing is shown that was not sampled, and nothing out of order -/

def InOrder (mirror : Mirror α) : Prop :=
  (mirror.shown ++ mirror.onTheWay).Sublist mirror.sampled

theorem inOrder_empty : (empty : Mirror α).InOrder := List.Sublist.refl []

theorem head_append_tail (line : List α) : line.head?.toList ++ line.tail = line := by
  cases line <;> rfl

theorem InOrder.step {mirror : Mirror α} (h : mirror.InOrder) (act : Act α) :
    (Mirror.step mirror act).InOrder := by
  cases act with
  | sample value waits =>
      cases waits with
      | false => exact h.trans (List.sublist_append_left _ _)
      | true =>
          have hline : (mirror.shown ++ mirror.line).Sublist mirror.sampled :=
            ((List.sublist_append_left _ mirror.slot.toList).trans
              (List.append_assoc .. ▸ List.Sublist.refl _)).trans h
          rw [InOrder, onTheWay, ← List.append_assoc]
          exact hline.append (List.Sublist.refl [value])
  | send =>
      rw [InOrder, onTheWay] at h ⊢
      simpa [Mirror.step] using h
  | arrive =>
      have hsame : (mirror.shown ++ mirror.line.head?.toList) ++
          (mirror.line.tail ++ mirror.slot.toList) = mirror.shown ++ mirror.onTheWay := by
        rw [List.append_assoc, ← List.append_assoc _ mirror.line.tail, head_append_tail, onTheWay]
      rw [InOrder, Mirror.step, onTheWay, hsame]
      exact h
  | lose =>
      have htail : (mirror.line.tail ++ mirror.slot.toList).Sublist mirror.onTheWay :=
        (List.tail_sublist _).append (List.Sublist.refl _)
      exact ((List.Sublist.refl _).append htail).trans h

/-! ## What the line settles on -/

/-- Samples only this value, and loses nothing. -/
def Act.Keeps (value : α) : Act α → Prop
  | .sample sampled _ => sampled = value
  | .lose => False
  | _ => True

/-- Samples only this value. -/
def Act.Samples (value : α) : Act α → Prop
  | .sample sampled _ => sampled = value
  | _ => True

variable {start value : α} {mirror : Mirror α}

theorem destined_sample (start value : α) (mirror : Mirror α) :
    (mirror.step (.sample value true)).destined start = value := by
  rw [destined, onTheWay, ← List.append_assoc]
  exact congrArg (·.getD start) List.getLast?_concat

theorem destined_step (h : mirror.destined start = value) {act : Act α} (hact : act.Keeps value) :
    (mirror.step act).destined start = value := by
  cases act with
  | sample sampled waits =>
      cases waits with
      | false => exact h
      | true =>
          obtain rfl : sampled = value := hact
          exact destined_sample start sampled mirror
  | send =>
      rw [destined, onTheWay] at h ⊢
      simpa [step] using h
  | arrive =>
      rw [destined, onTheWay] at h ⊢
      rw [step, List.append_assoc, ← List.append_assoc _ mirror.line.tail, head_append_tail]
      exact h
  | lose => exact hact.elim

/-- The value is shown, and nothing else is on the way. -/
structure Rests (start value : α) (mirror : Mirror α) : Prop where
  current : mirror.current start = value
  onTheWay : ∀ other ∈ mirror.onTheWay, other = value

theorem rests_of_destined (h : mirror.destined start = value) (hempty : mirror.onTheWay = []) :
    mirror.Rests start value := by
  refine ⟨?_, fun other hother => ?_⟩
  · rwa [destined, hempty, List.append_nil] at h
  · rw [hempty] at hother
    cases hother

theorem Rests.step (h : mirror.Rests start value) {act : Act α} (hact : act.Samples value) :
    (Mirror.step mirror act).Rests start value := by
  have hline : ∀ other ∈ mirror.line, other = value := fun other hother =>
    h.onTheWay other (List.mem_append_left _ hother)
  have hslot : ∀ other ∈ mirror.slot.toList, other = value := fun other hother =>
    h.onTheWay other (List.mem_append_right _ hother)
  cases act with
  | sample sampled waits =>
      obtain rfl : sampled = value := hact
      refine ⟨h.current, ?_⟩
      cases waits with
      | false => exact h.onTheWay
      | true =>
          rw [Mirror.onTheWay, List.forall_mem_append]
          exact ⟨hline, fun other hother => List.mem_singleton.mp hother⟩
  | send =>
      refine ⟨h.current, fun other hother => h.onTheWay other ?_⟩
      simpa [Mirror.onTheWay, Mirror.step] using hother
  | arrive =>
      refine ⟨?_, ?_⟩
      · cases hcons : mirror.line with
        | nil =>
            rw [Mirror.current, Mirror.step, hcons, List.head?_nil, Option.toList_none,
              List.append_nil]
            exact h.current
        | cons first line =>
            rw [Mirror.current, Mirror.step, hcons, List.head?_cons, Option.toList_some,
              List.getLast?_concat, Option.getD_some]
            exact hline first (hcons ▸ List.mem_cons_self ..)
      · rw [Mirror.onTheWay, List.forall_mem_append]
        exact ⟨fun other hother => hline other (List.mem_of_mem_tail hother), hslot⟩
  | lose =>
      refine ⟨h.current, ?_⟩
      rw [Mirror.onTheWay, List.forall_mem_append]
      exact ⟨fun other hother => hline other (List.mem_of_mem_tail hother), hslot⟩

end Mirror
