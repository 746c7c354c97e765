import Mathlib.Logic.Function.Basic
import SplitEsb.Latch.Spsc
import SplitEsb.Shared.LatestValue

/-! # A latch with its pool and its producer
The producer claims a slot, fills it one statement at a time and publishes it. The
consumer may peek and release between any two of these. -/

namespace SplitEsb

/-- A call of the producer that is under way: its slot, what it was called with, and
how many of its statements ran since the claim. -/
structure LatchCall (δ : Type) where
  slot : ℕ
  call : δ
  done : ℕ

/-- `history` lists the calls whose slots were published, in order. -/
structure LatchCell (δ α : Type) where
  latch : SpscLatch
  pool : ℕ → α
  writer : Option (LatchCall δ)
  history : List δ

namespace LatchCell

variable {δ α : Type}

def empty (slotCount : UInt8) (cleared : α) : LatchCell δ α where
  latch := SpscLatch.init slotCount
  pool _ := cleared
  writer := none
  history := []

/-- One producer: a call waits for the one under way. -/
def begin (cell : LatchCell δ α) (call : δ) : LatchCell δ α :=
  match cell.writer with
  | some _ => cell
  | none =>
      let (slot, latch) := cell.latch.claim
      { cell with latch := latch, writer := some ⟨slot, call, 0⟩ }

/-- The next statement of the call: a store to the claimed slot, or the publish when
no store is left. -/
def advance (store : ℕ → δ → α → Option (δ × α)) (cell : LatchCell δ α) : LatchCell δ α :=
  match cell.writer with
  | none => cell
  | some writer =>
      match store writer.done writer.call (cell.pool writer.slot) with
      | some (call, value) =>
          { cell with
            pool := Function.update cell.pool writer.slot value
            writer := some ⟨writer.slot, call, writer.done + 1⟩ }
      | none =>
          { cell with
            latch := cell.latch.publish writer.slot
            writer := none
            history := cell.history ++ [writer.call] }

def release (cell : LatchCell δ α) (slot : ℕ) : LatchCell δ α :=
  { cell with latch := cell.latch.release slot }

@[simp] theorem release_history (cell : LatchCell δ α) (slot : ℕ) :
    (cell.release slot).history = cell.history := rfl

@[simp] theorem release_pool (cell : LatchCell δ α) (slot : ℕ) :
    (cell.release slot).pool = cell.pool := rfl

@[simp] theorem release_writer (cell : LatchCell δ α) (slot : ℕ) :
    (cell.release slot).writer = cell.writer := rfl

/-! ## The published slot is never the claimed one -/

/-- What holds of the slot a call fills, and of the slot the last call published. -/
structure Sound (filling : ℕ → δ → α → Prop) (filled : δ → α → Prop) (cell : LatchCell δ α) :
    Prop where
  claims : cell.latch.Claims (cell.history.length + if cell.writer.isSome then 1 else 0)
  writer : ∀ writer, cell.writer = some writer → writer.slot = cell.history.length % 2 ∧
    filling writer.done writer.call (cell.pool writer.slot)
  peek : ∀ slot, cell.latch.peek = some slot → slot = (cell.history.length - 1) % 2 ∧
    ∃ call, cell.history.getLast? = some call ∧ filled call (cell.pool slot)

variable {filling filling' : ℕ → δ → α → Prop} {filled filled' : δ → α → Prop}
  {cell : LatchCell δ α}

theorem Sound.empty (cleared : α) : (LatchCell.empty 2 cleared).Sound filling filled where
  claims := SpscLatch.claims_init
  writer := by intro writer h; cases h
  peek := by intro slot h; cases h

theorem Sound.mono (h : cell.Sound filling filled)
    (hfilling : ∀ done call value, filling done call value → filling' done call value)
    (hfilled : ∀ call value, filled call value → filled' call value) :
    cell.Sound filling' filled' where
  claims := h.claims
  writer := by
    intro writer hwriter
    obtain ⟨hslot, hvalue⟩ := h.writer writer hwriter
    exact ⟨hslot, hfilling _ _ _ hvalue⟩
  peek := by
    intro slot hslot
    obtain ⟨hlast, call, hcall, hvalue⟩ := h.peek slot hslot
    exact ⟨hlast, call, hcall, hfilled _ _ hvalue⟩

theorem Sound.begin (h : cell.Sound filling filled) {call : δ}
    (hstart : ∀ value, filling 0 call value) : (cell.begin call).Sound filling filled := by
  rw [LatchCell.begin]
  split
  case h_1 => exact h
  case h_2 hidle =>
      have hclaims := h.claims
      rw [hidle] at hclaims
      have hslot := hclaims.claim_fst
      have hclaimed := hclaims.claim
      have hpeek := h.peek
      rw [← SpscLatch.peek_claim] at hpeek
      generalize cell.latch.claim = claimed at hslot hclaimed hpeek ⊢
      obtain ⟨slot, latch⟩ := claimed
      refine ⟨hclaimed, ?_, hpeek⟩
      intro writer hwriter
      cases hwriter
      exact ⟨hslot, hstart _⟩

theorem Sound.advance (h : cell.Sound filling filled) {store : ℕ → δ → α → Option (δ × α)}
    (hstore : ∀ {done call value call' value'}, filling done call value →
      store done call value = some (call', value') → filling (done + 1) call' value')
    (hpublish : ∀ {done call value}, filling done call value → store done call value = none →
      filled call value) :
    (cell.advance store).Sound filling filled := by
  rw [LatchCell.advance]
  split
  case h_1 => exact h
  case h_2 writer hwriter =>
      obtain ⟨hslot, hfilling⟩ := h.writer writer hwriter
      have hclaims := h.claims
      rw [hwriter] at hclaims
      split
      case h_1 call value hvalue =>
          refine ⟨hclaims, ?_, ?_⟩
          · intro next hnext
            cases hnext
            refine ⟨hslot, ?_⟩
            simpa using hstore hfilling hvalue
          · intro slot hpeek
            obtain ⟨hlast, last, hcall, hfilled⟩ := h.peek slot hpeek
            have hpos : cell.history.length ≠ 0 := by
              intro hzero
              rw [List.length_eq_zero_iff.mp hzero] at hcall
              cases hcall
            have hother : slot ≠ writer.slot := by omega
            refine ⟨hlast, last, hcall, ?_⟩
            simpa [Function.update_of_ne hother] using hfilled
      case h_2 hnone =>
          refine ⟨?_, ?_, ?_⟩
          · simpa using hclaims.publish writer.slot
          · intro next hnext
            cases hnext
          · intro slot hpeek
            cases hpeek
            refine ⟨by simpa using hslot, writer.call, by simp, hpublish hfilling hnone⟩

theorem Sound.release (h : cell.Sound filling filled) (slot : ℕ) :
    (cell.release slot).Sound filling filled :=
  ⟨h.claims.release slot, h.writer, fun other hother =>
    h.peek other (SpscLatch.peek_of_peek_release hother)⟩

/-- What was published stays in its place. -/
theorem getElem?_begin {number : ℕ} (call : δ) :
    (cell.begin call).history[number]? = cell.history[number]? := by
  rw [LatchCell.begin]
  split <;> rfl

theorem getElem?_advance {store : ℕ → δ → α → Option (δ × α)} {number : ℕ} {call : δ}
    (h : cell.history[number]? = some call) : (cell.advance store).history[number]? = some call := by
  rw [LatchCell.advance]
  split
  case h_1 => exact h
  case h_2 writer hwriter =>
      split
      case h_1 => exact h
      case h_2 =>
          have hlt := (List.getElem?_eq_some_iff.mp h).1
          simpa [List.getElem?_append_left hlt] using h

/-! ## What every call satisfies -/

structure Calls (ok : δ → Prop) (cell : LatchCell δ α) : Prop where
  writer : ∀ writer, cell.writer = some writer → ok writer.call
  history : ∀ call ∈ cell.history, ok call

theorem Calls.empty {ok : δ → Prop} (slotCount : UInt8) (cleared : α) :
    (LatchCell.empty slotCount cleared : LatchCell δ α).Calls ok where
  writer := by intro writer h; cases h
  history := by intro call h; cases h

theorem Calls.begin {ok : δ → Prop} (h : cell.Calls ok) {call : δ} (hcall : ok call) :
    (cell.begin call).Calls ok := by
  rw [LatchCell.begin]
  split
  · exact h
  · refine ⟨fun writer hwriter => ?_, h.history⟩
    cases hwriter
    exact hcall

theorem Calls.advance {ok : δ → Prop} (h : cell.Calls ok) {store : ℕ → δ → α → Option (δ × α)}
    (hstore : ∀ {done call value call' value'}, ok call →
      store done call value = some (call', value') → ok call') : (cell.advance store).Calls ok := by
  rw [LatchCell.advance]
  split
  case h_1 => exact h
  case h_2 writer hwriter =>
      have hcall := h.writer writer hwriter
      split
      case h_1 call value hvalue =>
          refine ⟨fun next hnext => ?_, h.history⟩
          cases hnext
          exact hstore hcall hvalue
      case h_2 =>
          refine ⟨fun next hnext => (by cases hnext), fun call hmem => ?_⟩
          rcases List.mem_append.mp hmem with hold | hnew
          · exact h.history call hold
          · rw [List.mem_singleton.mp hnew]
            exact hcall

/-! ## The latch as a latest-value register -/

open LatestValue

/-- The register a latch implements: its published calls, the offers made of them, and
whether one waits. -/
def register {β γ : Type} (cell : LatchCell δ α) (value : δ → γ) (offers : List (Offer β))
    (dropped : List ℕ) : Register γ β where
  values := cell.history.map value
  offers := offers
  waiting := cell.latch.peek.isSome
  dropped := dropped

variable {β γ : Type} {value : δ → γ} {offers : List (Offer β)} {dropped : List ℕ}

@[simp] theorem register_begin (call : δ) :
    (cell.begin call).register value offers dropped = cell.register value offers dropped := by
  rw [LatchCell.begin]
  split <;> rfl

/-- A statement either leaves the register alone or publishes. -/
theorem register_advance (store : ℕ → δ → α → Option (δ × α)) :
    (cell.advance store).register value offers dropped = cell.register value offers dropped ∨
      ∃ call, (cell.advance store).register value offers dropped =
        (cell.register value offers dropped).publish (value call) := by
  rw [LatchCell.advance]
  split
  case h_1 => exact .inl rfl
  case h_2 writer hwriter =>
      split
      case h_1 => exact .inl rfl
      case h_2 => exact .inr ⟨writer.call, by simp [register, Register.publish]⟩

theorem newestWins_advance {carries : γ → β → Prop} (store : ℕ → δ → α → Option (δ × α))
    (h : (cell.register value offers dropped).NewestWins carries) :
    ((cell.advance store).register value offers dropped).NewestWins carries := by
  rcases cell.register_advance store with hsame | ⟨call, hpublish⟩
  · rw [hsame]
    exact h
  · rw [hpublish]
    exact h.publish _

theorem register_release {slot : ℕ} (hpeek : cell.latch.peek = some slot) :
    (cell.release slot).register value offers dropped =
      { cell.register value offers dropped with waiting := false } := by
  simp [register, release, SpscLatch.peek_release hpeek]

/-- The slot a peek finds holds the newest value. -/
theorem Sound.getLast?_register (h : cell.Sound filling filled) {slot : ℕ}
    (hpeek : cell.latch.peek = some slot) : ∃ call, filled call (cell.pool slot) ∧
      (cell.register value offers dropped).values.getLast? = some (value call) := by
  obtain ⟨-, call, hcall, hfilled⟩ := h.peek slot hpeek
  exact ⟨call, hfilled, by rw [register, List.getLast?_map, hcall]; rfl⟩

end LatchCell

end SplitEsb
