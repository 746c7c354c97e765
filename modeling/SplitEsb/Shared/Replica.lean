import Mathlib.Data.List.Chain

/-! # Replicas fed by snapshots and deltas
A sender numbers its messages, each either a full copy of its state or one change
to it. A receiver that misses messages is wrong until the next snapshot, and from
there on right for as long as the numbers it handles have no gap. -/

namespace Replica

variable {σ δ : Type*}

inductive Message (σ δ : Type*) where
  | snapshot (state : σ)
  | delta (change : δ)

def Message.receive (apply : σ → δ → σ) (view : σ) : Message σ δ → σ
  | .snapshot state => state
  | .delta change => apply view change

/-- A message with its number and the state of the sender right after sending it. -/
structure Sent (σ δ : Type*) where
  seq : ℕ
  message : Message σ δ
  state : σ

def Sent.IsSnapshot (sent : Sent σ δ) : Prop := ∃ state, sent.message = .snapshot state

def Consecutive (earlier later : Sent σ δ) : Prop := later.seq = earlier.seq + 1

variable {apply : σ → δ → σ} {log : List (Sent σ δ)} {current : σ}

/-- A log of everything sent so far by a sender that is now in state `current`. -/
structure Faithful (apply : σ → δ → σ) (log : List (Sent σ δ)) (current : σ) : Prop where
  numbered : ∀ sent ∈ log, sent.seq < log.length
  snapshot : ∀ sent ∈ log, ∀ view, sent.IsSnapshot →
    sent.message.receive apply view = sent.state
  next : ∀ earlier ∈ log, ∀ later ∈ log, Consecutive earlier later →
    later.message.receive apply earlier.state = later.state
  last : ∀ sent ∈ log, sent.seq + 1 = log.length → sent.state = current

theorem faithful_nil (apply : σ → δ → σ) (current : σ) : Faithful apply [] current :=
  ⟨by simp, by simp, by simp, by simp⟩

/-- Sending a message keeps the log faithful to the state the message leads to. -/
theorem Faithful.send (h : Faithful apply log current) {message : Message σ δ} {state : σ}
    (hstate : message.receive apply current = state) :
    Faithful apply (log ++ [⟨log.length, message, state⟩]) state where
  numbered sent hsent := by
    rw [List.length_append, List.length_singleton]
    rcases List.mem_append.mp hsent with hold | hnew
    · have := h.numbered sent hold
      omega
    · rw [List.mem_singleton.mp hnew]
      exact Nat.lt_succ_self _
  snapshot sent hsent view hsnapshot := by
    rcases List.mem_append.mp hsent with hold | hnew
    · exact h.snapshot sent hold view hsnapshot
    · rw [List.mem_singleton.mp hnew] at hsnapshot ⊢
      obtain ⟨copy, rfl⟩ := hsnapshot
      exact hstate
  next earlier hearlier later hlater hconsecutive := by
    rcases List.mem_append.mp hearlier with hold | hnew
    · rcases List.mem_append.mp hlater with hold' | hnew'
      · exact h.next earlier hold later hold' hconsecutive
      · rw [List.mem_singleton.mp hnew'] at hconsecutive ⊢
        rw [h.last earlier hold hconsecutive.symm]
        exact hstate
    · -- nothing in the log is numbered past the message just sent
      rw [List.mem_singleton.mp hnew] at hconsecutive
      have hseq : later.seq = log.length + 1 := hconsecutive
      rcases List.mem_append.mp hlater with hold' | hnew'
      · have := h.numbered later hold'
        omega
      · rw [List.mem_singleton.mp hnew'] at hseq
        exact absurd hseq (Nat.ne_of_lt (Nat.lt_succ_self _))
  last sent hsent hseq := by
    rcases List.mem_append.mp hsent with hold | hnew
    · have := h.numbered sent hold
      rw [List.length_append, List.length_singleton] at hseq
      omega
    · rw [List.mem_singleton.mp hnew]

/-! ## The receiver -/

/-- One handled message; `none` is a reset. -/
def handle (apply : σ → δ → σ) (initial view : σ) : Option (Sent σ δ) → σ
  | none => initial
  | some sent => sent.message.receive apply view

/-- What a receiver makes of all it handled. -/
def viewAfter (apply : σ → δ → σ) (initial : σ) (handled : List (Option (Sent σ δ))) : σ :=
  handled.foldl (handle apply initial) initial

variable {initial : σ}

theorem viewAfter_append (handled : List (Option (Sent σ δ))) (entry : Option (Sent σ δ)) :
    viewAfter apply initial (handled ++ [entry]) =
      handle apply initial (viewAfter apply initial handled) entry := List.foldl_concat ..

/-- A view that agrees with the sender keeps agreeing over consecutive messages. -/
theorem Faithful.receive_consecutive (h : Faithful apply log current) (rest : List (Sent σ δ))
    {first : Sent σ δ} (hfirst : first ∈ log) (hrest : ∀ sent ∈ rest, sent ∈ log)
    (hchain : (first :: rest).IsChain Consecutive) :
    rest.foldl (fun view sent => sent.message.receive apply view) first.state =
      ((first :: rest).getLast (List.cons_ne_nil _ _)).state := by
  induction rest generalizing first with
  | nil => rfl
  | cons second rest ih =>
      rw [List.isChain_cons_cons] at hchain
      have hsecond : second ∈ log := hrest second List.mem_cons_self
      rw [List.foldl_cons, h.next first hfirst second hsecond hchain.1,
        List.getLast_cons (List.cons_ne_nil _ _)]
      exact ih hsecond (fun sent hsent => hrest sent (List.mem_cons_of_mem _ hsent)) hchain.2

/-- A receiver that handled a snapshot, and from it on every message up to some
later one, has the sender's state at the moment that last message was sent. -/
theorem Faithful.converges (h : Faithful apply log current)
    (before : List (Option (Sent σ δ))) {first : Sent σ δ} {rest : List (Sent σ δ)}
    (hsnapshot : first.IsSnapshot) (hmem : ∀ sent ∈ first :: rest, sent ∈ log)
    (hchain : (first :: rest).IsChain Consecutive) :
    viewAfter apply initial (before ++ (first :: rest).map some) =
      ((first :: rest).getLast (List.cons_ne_nil _ _)).state := by
  have hfirst : first ∈ log := hmem first List.mem_cons_self
  have hview : handle apply initial (before.foldl (handle apply initial) initial) (some first) =
      first.state := h.snapshot first hfirst _ hsnapshot
  rw [viewAfter, List.foldl_append, List.foldl_map, List.foldl_cons, hview]
  exact h.receive_consecutive rest hfirst
    (fun sent hsent => hmem sent (List.mem_cons_of_mem _ hsent)) hchain

/-! ## Snapshots in step with the deltas -/

def Message.change? : Message σ δ → Option δ
  | .snapshot _ => none
  | .delta change => some change

def deltas (messages : List (Message σ δ)) : List δ := messages.filterMap Message.change?

@[simp] theorem deltas_nil : deltas ([] : List (Message σ δ)) = [] := rfl

@[simp] theorem deltas_snapshot (state : σ) (messages : List (Message σ δ)) :
    deltas (.snapshot state :: messages) = deltas messages := rfl

@[simp] theorem deltas_delta (change : δ) (messages : List (Message σ δ)) :
    deltas (.delta change :: messages) = change :: deltas messages := rfl

@[simp] theorem deltas_append (front back : List (Message σ δ)) :
    deltas (front ++ back) = deltas front ++ deltas back := List.filterMap_append

/-- Every snapshot is the state that the deltas before it lead to. -/
def InStep (apply : σ → δ → σ) (state : σ) : List (Message σ δ) → Prop
  | [] => True
  | .snapshot copy :: rest => copy = state ∧ InStep apply state rest
  | .delta change :: rest => InStep apply (apply state change) rest

theorem inStep_append {state : σ} {front back : List (Message σ δ)} :
    InStep apply state (front ++ back) ↔
      InStep apply state front ∧ InStep apply ((deltas front).foldl apply state) back := by
  induction front generalizing state with
  | nil => simp [InStep]
  | cons message front ih =>
      cases message with
      | snapshot copy => simp [InStep, ih, and_assoc]
      | delta change => simp [InStep, ih]

/-- A receiver of snapshots that are in step has the state the deltas lead to. -/
theorem InStep.receive {state : σ} {messages : List (Message σ δ)}
    (h : InStep apply state messages) :
    messages.foldl (fun view message => message.receive apply view) state =
      (deltas messages).foldl apply state := by
  induction messages generalizing state with
  | nil => rfl
  | cons message messages ih =>
      cases message with
      | snapshot copy =>
          obtain ⟨rfl, hrest⟩ := h
          exact ih hrest
      | delta change => exact @ih (apply state change) h

instance decidableInStep [DecidableEq σ] (apply : σ → δ → σ) :
    ∀ (state : σ) (messages : List (Message σ δ)), Decidable (InStep apply state messages)
  | _, [] => inferInstanceAs (Decidable True)
  | state, .snapshot copy :: rest =>
      have := decidableInStep apply state rest
      inferInstanceAs (Decidable (copy = state ∧ InStep apply state rest))
  | state, .delta change :: rest => decidableInStep apply (apply state change) rest

end Replica
