import Mathlib.Data.List.Basic
import Mathlib.Logic.Function.Iterate

/-! # A bounded queue and the signal that wakes its consumer
A producer puts items and signals afterwards. The consumer takes the signal, takes items
until it finds the queue empty, and only then waits for the next signal. -/

namespace WokenQueue

/-- `owed` holds from a put to the signal after it. `accepted` and `taken` record the
items that went in and out. -/
structure Woken (α : Type*) where
  waiting : List α
  owed : Bool
  signal : Bool
  awake : Bool
  accepted : List α
  taken : List α

namespace Woken

variable {α : Type*}

def empty : Woken α := ⟨[], false, false, false, [], []⟩

def offer (capacity : ℕ) (queue : Woken α) (item : α) : Woken α :=
  if queue.waiting.length < capacity then
    { queue with
      waiting := queue.waiting ++ [item], owed := true, accepted := queue.accepted ++ [item] }
  else queue

def give (queue : Woken α) : Woken α := { queue with owed := false, signal := true }

def wake (queue : Woken α) : Woken α :=
  if queue.signal && !queue.awake then { queue with signal := false, awake := true } else queue

def take (queue : Woken α) (count : ℕ) : Woken α :=
  if !queue.awake then queue
  else if queue.waiting = [] then { queue with awake := false }
  else
    { queue with
      waiting := queue.waiting.drop count, taken := queue.taken ++ queue.waiting.take count }

/-! ## Invariant -/

/-- Nothing is lost, doubled or reordered, and a waiting item has a signal, an awake
consumer or a producer on the way to the signal. -/
structure Sound (queue : Woken α) : Prop where
  kept : queue.accepted = queue.taken ++ queue.waiting
  woken : queue.waiting ≠ [] → queue.owed = true ∨ queue.signal = true ∨ queue.awake = true

variable {queue : Woken α}

theorem Sound.empty : (empty : Woken α).Sound := ⟨rfl, fun h => absurd rfl h⟩

theorem Sound.offer (h : queue.Sound) (capacity : ℕ) (item : α) :
    (queue.offer capacity item).Sound := by
  rw [Woken.offer]
  split_ifs
  · refine ⟨?_, fun _ => .inl rfl⟩
    rw [h.kept, List.append_assoc]
  · exact h

theorem Sound.burst (h : queue.Sound) (capacity : ℕ) (items : List α) :
    (items.foldl (Woken.offer capacity) queue).Sound := by
  induction items generalizing queue with
  | nil => exact h
  | cons item items ih => exact ih (h.offer capacity item)

theorem Sound.give (h : queue.Sound) : queue.give.Sound :=
  ⟨h.kept, fun _ => .inr (.inl rfl)⟩

theorem Sound.wake (h : queue.Sound) : queue.wake.Sound := by
  rw [Woken.wake]
  split_ifs
  · exact ⟨h.kept, fun _ => .inr (.inr rfl)⟩
  · exact h

theorem Sound.take (h : queue.Sound) (count : ℕ) : (queue.take count).Sound := by
  rw [Woken.take]
  split_ifs with hasleep hempty
  · exact h
  · exact ⟨h.kept, fun hne => absurd hempty hne⟩
  · refine ⟨?_, fun _ => .inr (.inr (by simpa using hasleep))⟩
    rw [h.kept, List.append_assoc, List.take_append_drop]

theorem Sound.taken_prefix (h : queue.Sound) : queue.taken <+: queue.accepted :=
  ⟨queue.waiting, h.kept.symm⟩

theorem Sound.of_asleep (h : queue.Sound) (howed : queue.owed = false)
    (hsignal : queue.signal = false) (hasleep : queue.awake = false) :
    queue.waiting = [] ∧ queue.taken = queue.accepted := by
  have hempty : queue.waiting = [] := by
    by_contra hne
    rcases h.woken hne with h | h | h <;> simp_all
  exact ⟨hempty, by rw [h.kept, hempty, List.append_nil]⟩

/-! ## Capacity -/

theorem length_waiting_offer {capacity : ℕ} (h : queue.waiting.length ≤ capacity) (item : α) :
    (queue.offer capacity item).waiting.length ≤ capacity := by
  rw [Woken.offer]
  split_ifs with hspace
  · rw [List.length_append, List.length_singleton]
    omega
  · exact h

theorem length_waiting_burst {capacity : ℕ} (h : queue.waiting.length ≤ capacity)
    (items : List α) : (items.foldl (Woken.offer capacity) queue).waiting.length ≤ capacity := by
  induction items generalizing queue with
  | nil => exact h
  | cons item items ih => exact ih (length_waiting_offer h item)

/-- Of a burst the queue takes the first items, as many as it has space for. -/
theorem foldl_offer (capacity : ℕ) (items : List α) (queue : Woken α) :
    items.foldl (Woken.offer capacity) queue =
      { queue with
        waiting := queue.waiting ++ items.take (capacity - queue.waiting.length)
        owed := queue.owed || (!items.isEmpty && queue.waiting.length < capacity)
        accepted := queue.accepted ++ items.take (capacity - queue.waiting.length) } := by
  induction items generalizing queue with
  | nil => simp
  | cons item items ih =>
      rw [List.foldl_cons, ih]
      by_cases hspace : queue.waiting.length < capacity
      · have hroom : capacity - queue.waiting.length =
            (capacity - (queue.waiting ++ [item]).length) + 1 := by
          rw [List.length_append, List.length_singleton]
          omega
        simp only [Woken.offer, if_pos hspace, hroom, List.take_succ_cons, List.append_assoc,
          List.singleton_append]
        simp [hspace]
      · have hroom : capacity - queue.waiting.length = 0 := by omega
        simp [Woken.offer, hroom, hspace]

/-! ## The consumer's loop -/

/-- The consumer waits for the signal, or asks for up to `count` items. -/
def turn (count : ℕ) (queue : Woken α) : Woken α :=
  if queue.awake then queue.take count else queue.wake

theorem Sound.turn (h : queue.Sound) (count : ℕ) : (queue.turn count).Sound := by
  rw [Woken.turn]
  split_ifs
  · exact h.take count
  · exact h.wake

@[simp] theorem accepted_turn (count : ℕ) : (queue.turn count).accepted = queue.accepted := by
  rw [Woken.turn, Woken.take, Woken.wake]
  split_ifs <;> rfl

@[simp] theorem owed_turn (count : ℕ) : (queue.turn count).owed = queue.owed := by
  rw [Woken.turn, Woken.take, Woken.wake]
  split_ifs <;> rfl

theorem length_waiting_turn (count : ℕ) :
    (queue.turn count).waiting.length ≤ queue.waiting.length := by
  rw [Woken.turn, Woken.take, Woken.wake]
  split_ifs <;> simp

theorem waiting_turn_of_nil (h : queue.waiting = []) (count : ℕ) :
    (queue.turn count).waiting = [] := by
  rw [Woken.turn, Woken.take, Woken.wake]
  split_ifs <;> exact h

/-- The items and the wake-up still to come. -/
def toDo (queue : Woken α) : ℕ := queue.waiting.length + if queue.awake then 0 else 1

theorem toDo_turn_lt (h : queue.Sound) (howed : queue.owed = false) {count : ℕ}
    (hcount : 0 < count) (hne : queue.waiting ≠ []) : (queue.turn count).toDo < queue.toDo := by
  have hlength := List.length_pos_of_ne_nil hne
  cases hawake : queue.awake with
  | true =>
      simp only [toDo, Woken.turn, Woken.take, hawake, hne, List.length_drop, if_true, if_false,
        Bool.not_true, Bool.false_eq_true]
      omega
  | false =>
      have hsignal : queue.signal = true := by
        rcases h.woken hne with h | h | h
        · exact absurd h (by simp [howed])
        · exact h
        · exact absurd h (by simp [hawake])
      simp [toDo, Woken.turn, Woken.wake, hawake, hsignal]

/-- Once every signal was given, the consumer alone takes all that was accepted. -/
theorem Sound.settles (h : queue.Sound) (howed : queue.owed = false) {count turns : ℕ}
    (hcount : 0 < count) (hturns : queue.toDo ≤ turns) :
    ((Woken.turn count)^[turns] queue).waiting = [] ∧
      ((Woken.turn count)^[turns] queue).taken = queue.accepted := by
  have hempty : ((Woken.turn count)^[turns] queue).waiting = [] := by
    induction turns generalizing queue with
    | zero =>
        rw [toDo] at hturns
        have hlength : queue.waiting.length = 0 := by omega
        exact List.length_eq_zero_iff.mp hlength
    | succ turns ih =>
        rw [Function.iterate_succ_apply]
        by_cases hnil : queue.waiting = []
        · generalize hturned : queue.turn count = turned
          have hturned : turned.waiting = [] := hturned ▸ waiting_turn_of_nil hnil count
          exact Function.Iterate.rec (fun queue : Woken α => queue.waiting = []) hturned
            (fun _ hw => waiting_turn_of_nil hw count) turns
        · have hless := toDo_turn_lt h howed hcount hnil
          exact ih (h.turn count) (by rw [owed_turn, howed]) (by omega)
  have hsound : ((Woken.turn count)^[turns] queue).Sound :=
    Function.Iterate.rec Woken.Sound h (fun _ hw => hw.turn count) turns
  have haccepted : ((Woken.turn count)^[turns] queue).accepted = queue.accepted :=
    Function.Iterate.rec (fun other : Woken α => other.accepted = queue.accepted) rfl
      (fun _ hw => (accepted_turn count).trans hw) turns
  refine ⟨hempty, ?_⟩
  rw [← haccepted, hsound.kept, hempty, List.append_nil]

end Woken

end WokenQueue
