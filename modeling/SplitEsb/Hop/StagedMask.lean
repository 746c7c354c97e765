import SplitEsb.Hop.Control
import SplitEsb.Latch.Spsc
import SplitEsb.Shared.Transition

/-! # The staged mask under interrupts
The radio interrupt publishes mask updates while the keepalive tick copies one out
byte by byte. -/

namespace SplitEsb

open ByteString

variable {n : ℕ}

/-! ## The two parties -/

/-- Where the tick is in adopt_staged_mask. -/
inductive AdoptPhase where
  | idle
  | copying (slot copied : ℕ)
  deriving DecidableEq, Repr

/-- One finished adoption: the masks published until its release, how many were
when it peeked and when it copied each byte, which of them the slot held at each
copy, the mask it copied, and the mask its release left pending. -/
structure Adoption (n : ℕ) where
  history : List (HopMask n)
  atPeek : ℕ
  atCopies : List ℕ
  sources : List ℕ
  mask : HopMask n
  pending : Option (HopMask n)

/-- The latch with its pool, the mask in use, the tick, and a record of both. -/
structure StagedMask (n : ℕ) where
  latch : SpscLatch
  pool : ℕ → HopMask n
  activeMask : HopMask n
  phase : AdoptPhase
  history : List (HopMask n)
  held : ℕ → ℕ
  atPeek : ℕ
  atCopies : List ℕ
  sources : List ℕ
  adoptions : List (Adoption n)

/-- The radio delivers a mask update, or the tick takes its next step. -/
inductive StagedMaskAction where
  | receive (data : Bytes)
  | tick
  deriving DecidableEq, Repr

namespace StagedMask

def stagedMaskSlots : UInt8 := 2

def boot (activeMask : HopMask n) : StagedMask n where
  latch := SpscLatch.init stagedMaskSlots
  pool _ := Vector.replicate _ 0
  activeMask := activeMask
  phase := .idle
  history := []
  held _ := 0
  atPeek := 0
  atCopies := []
  sources := []
  adoptions := []

/-- Runs to completion in the radio interrupt. -/
def consumeMaskUpdate (staged : StagedMask n) (data : Bytes) : StagedMask n :=
  if data.length ≠ esbMaskUpdateLength n then staged
  else
    let (index, latch) := staged.latch.claim
    let mask := decodeMaskUpdate n data
    { staged with
      pool := Function.update staged.pool index mask
      latch := latch.publish index
      history := staged.history ++ [mask]
      held := Function.update staged.held index staged.history.length }

/-- The next step of adopt_staged_mask: peek, copy a byte, or release. -/
def adoptStep (staged : StagedMask n) : StagedMask n :=
  match staged.phase with
  | .idle =>
      match staged.latch.peek with
      | none => staged
      | some slot =>
          { staged with
            phase := .copying slot 0
            atPeek := staged.history.length
            atCopies := []
            sources := [] }
  | .copying slot copied =>
      if h : copied < esbHopMaskBytes n then
        { staged with
          activeMask := staged.activeMask.set copied ((staged.pool slot).get ⟨copied, h⟩)
          phase := .copying slot (copied + 1)
          atCopies := staged.atCopies ++ [staged.history.length]
          sources := staged.sources ++ [staged.held slot] }
      else
        let latch := staged.latch.release slot
        { staged with
          latch := latch
          phase := .idle
          adoptions := staged.adoptions ++ [{
            history := staged.history
            atPeek := staged.atPeek
            atCopies := staged.atCopies
            sources := staged.sources
            mask := staged.activeMask
            pending := latch.peek.map staged.pool }] }

def step (staged : StagedMask n) : StagedMaskAction → StagedMask n
  | .receive data => staged.consumeMaskUpdate data
  | .tick => staged.adoptStep

end StagedMask

/-! ## What an adoption owes -/

namespace Adoption

/-- The bytes all come from one published mask. -/
def Whole (adoption : Adoption n) : Prop :=
  ∃ number, adoption.history[number]? = some adoption.mask ∧
    ∀ source ∈ adoption.sources, source = number

/-- The newest mask published since the peek is still pending. -/
def KeepsNewest (adoption : Adoption n) : Prop :=
  adoption.atPeek < adoption.history.length → adoption.pending = adoption.history.getLast?

/-- The pairs of updates completed since the peek are as many at every copied byte,
and no pair is completed exactly at the release. -/
structure Undisturbed (adoption : Adoption n) : Prop where
  copies : ∀ first ∈ adoption.atCopies, ∀ second ∈ adoption.atCopies,
    (first - adoption.atPeek) / 2 = (second - adoption.atPeek) / 2
  release : adoption.history.length = adoption.atPeek ∨
    (adoption.history.length - adoption.atPeek) % 2 = 1

end Adoption

/-! ## What the latch and the copy keep -/

/-- The publish a slot holds, so many publishes after the peek that returned it. -/
def heldSince (atPeek count : ℕ) : ℕ := atPeek - 1 + 2 * ((count - atPeek) / 2)

namespace StagedMask

/-- The copied bytes, each from the publish its slot then held. -/
structure CopiedBytes (atPeek : ℕ) (history : List (HopMask n)) (atCopies sources : List ℕ)
    (mask : HopMask n) (copied : ℕ) : Prop where
  atPeek_pos : 0 < atPeek
  atPeek_le : atPeek ≤ history.length
  between : ∀ count ∈ atCopies, atPeek ≤ count ∧ count ≤ history.length
  copied_le : copied ≤ esbHopMaskBytes n
  length_eq : atCopies.length = copied
  sources_eq : sources = atCopies.map (heldSince atPeek)
  bytes : ∀ (i : ℕ) (hi : i < esbHopMaskBytes n), i < copied →
    ∃ (number : ℕ) (published : HopMask n), sources[i]? = some number ∧
      history[number]? = some published ∧ published[i] = mask[i]

/-- What the latch and the slots hold after the publishes so far. -/
structure Consistent (staged : StagedMask n) : Prop where
  claims : staged.latch.Claims staged.history.length
  peek : ∀ slot, staged.latch.peek = some slot →
    0 < staged.history.length ∧ slot = (staged.history.length - 1) % 2
  slots : ∀ number < staged.history.length, staged.history.length ≤ number + 2 →
    staged.held (number % 2) = number ∧
      staged.history[number]? = some (staged.pool (number % 2))
  copying : ∀ slot copied, staged.phase = .copying slot copied →
    slot = (staged.atPeek - 1) % 2 ∧
      staged.latch.peek = some ((staged.history.length - 1) % 2) ∧
      CopiedBytes staged.atPeek staged.history staged.atCopies staged.sources staged.activeMask copied
  adoptions : ∀ adoption ∈ staged.adoptions,
    CopiedBytes adoption.atPeek adoption.history adoption.atCopies adoption.sources adoption.mask
        (esbHopMaskBytes n) ∧
      adoption.pending = if (adoption.history.length - adoption.atPeek) % 2 = 0 then none
        else adoption.history.getLast?

theorem Consistent.boot (activeMask : HopMask n) : (boot activeMask).Consistent where
  claims := SpscLatch.claims_init
  peek := by intro slot h; cases h
  slots := by intro number h; cases h
  copying := by intro slot copied h; cases h
  adoptions := by intro adoption h; cases h

theorem CopiedBytes.append {atPeek copied : ℕ} {history : List (HopMask n)}
    {atCopies sources : List ℕ} {mask : HopMask n}
    (h : CopiedBytes atPeek history atCopies sources mask copied) (newest : HopMask n) :
    CopiedBytes atPeek (history ++ [newest]) atCopies sources mask copied where
  atPeek_pos := h.atPeek_pos
  atPeek_le := by simpa using Nat.le_succ_of_le h.atPeek_le
  between := by
    intro count hmem
    have := h.between count hmem
    simp only [List.length_append, List.length_singleton]
    omega
  copied_le := h.copied_le
  length_eq := h.length_eq
  sources_eq := h.sources_eq
  bytes := by
    intro i hi hcopied
    obtain ⟨number, published, hnumber, hpublished, hbyte⟩ := h.bytes i hi hcopied
    have hlt := (List.getElem?_eq_some_iff.mp hpublished).1
    exact ⟨number, published, hnumber, by rw [List.getElem?_append_left hlt, hpublished], hbyte⟩

theorem Consistent.consumeMaskUpdate {staged : StagedMask n} (h : staged.Consistent)
    (data : Bytes) : (staged.consumeMaskUpdate data).Consistent := by
  rw [StagedMask.consumeMaskUpdate]
  split
  · exact h
  · have hindex := h.claims.claim_fst
    have hclaimed := h.claims.claim
    generalize staged.latch.claim = claimed at hindex hclaimed ⊢
    obtain ⟨index, latch⟩ := claimed
    dsimp only at hindex hclaimed ⊢
    subst hindex
    refine ⟨?_, ?_, ?_, ?_, h.adoptions⟩
    · simpa using hclaimed.publish _
    · intro slot hslot
      cases hslot
      simp
    · intro number hlt hle
      simp only [List.length_append, List.length_singleton] at hlt hle
      rcases Nat.lt_succ_iff_lt_or_eq.mp hlt with hbefore | rfl
      · -- the other slot keeps the publish before
        have hother : number % 2 ≠ staged.history.length % 2 := by omega
        obtain ⟨hheld, hpool⟩ := h.slots number hbefore (by omega)
        simp only [Function.update_of_ne hother, List.getElem?_append_left hbefore]
        exact ⟨hheld, hpool⟩
      · simp
    · intro slot copied hphase
      obtain ⟨hslot, -, hcopied⟩ := h.copying slot copied hphase
      refine ⟨hslot, ?_, hcopied.append _⟩
      simp

/-- The slot a peek returned holds every second publish since. -/
theorem Consistent.held {staged : StagedMask n} (h : staged.Consistent) {slot copied : ℕ}
    (hphase : staged.phase = .copying slot copied) :
    staged.held slot = heldSince staged.atPeek staged.history.length ∧
      staged.history[heldSince staged.atPeek staged.history.length]? = some (staged.pool slot) := by
  obtain ⟨hslot, -, hcopied⟩ := h.copying slot copied hphase
  have hpos := hcopied.atPeek_pos
  have hle := hcopied.atPeek_le
  have hvalue : heldSince staged.atPeek staged.history.length =
      staged.atPeek - 1 + 2 * ((staged.history.length - staged.atPeek) / 2) := rfl
  have hparity : heldSince staged.atPeek staged.history.length % 2 = slot := by omega
  rw [← hparity]
  exact h.slots _ (by omega) (by omega)

theorem Consistent.peekStep {staged : StagedMask n} (h : staged.Consistent) {slot : ℕ}
    (hpeek : staged.latch.peek = some slot) :
    StagedMask.Consistent { staged with
      phase := .copying slot 0, atPeek := staged.history.length, atCopies := [], sources := [] } := by
  obtain ⟨hpos, hslot⟩ := h.peek slot hpeek
  refine ⟨h.claims, h.peek, h.slots, ?_, h.adoptions⟩
  intro other copied hphase
  cases hphase
  refine ⟨hslot, by rw [← hslot]; exact hpeek, ?_⟩
  exact ⟨hpos, Nat.le_refl _, by simp, Nat.zero_le _, rfl, rfl, by simp⟩

theorem CopiedBytes.copy {atPeek copied : ℕ} {history : List (HopMask n)}
    {atCopies sources : List ℕ} {mask slotMask : HopMask n}
    (h : CopiedBytes atPeek history atCopies sources mask copied) (hcopied : copied < esbHopMaskBytes n)
    (hheld : history[heldSince atPeek history.length]? = some slotMask) :
    CopiedBytes atPeek history (atCopies ++ [history.length])
      (sources ++ [heldSince atPeek history.length]) (mask.set copied (slotMask.get ⟨copied, hcopied⟩))
      (copied + 1) where
  atPeek_pos := h.atPeek_pos
  atPeek_le := h.atPeek_le
  between := by
    intro count hmem
    rcases List.mem_append.mp hmem with hbefore | hlast
    · exact h.between count hbefore
    · rw [List.mem_singleton.mp hlast]
      exact ⟨h.atPeek_le, Nat.le_refl _⟩
  copied_le := hcopied
  length_eq := by simp [h.length_eq]
  sources_eq := by simp [h.sources_eq]
  bytes := by
    have hlength : sources.length = copied := by rw [h.sources_eq, List.length_map, h.length_eq]
    intro i hi hlt
    rcases Nat.lt_succ_iff_lt_or_eq.mp hlt with hbefore | rfl
    · obtain ⟨number, published, hnumber, hpublished, hbyte⟩ := h.bytes i hi hbefore
      refine ⟨number, published, ?_, hpublished, ?_⟩
      · rw [List.getElem?_append_left (by omega), hnumber]
      · rw [hbyte, Vector.getElem_set_ne _ _ (by omega)]
    · refine ⟨_, slotMask, ?_, hheld, ?_⟩
      · rw [List.getElem?_append_right (by omega), hlength, Nat.sub_self]
        rfl
      · rw [Vector.getElem_set_self]
        rfl

/-- The release finds its own slot still published after an even number of updates. -/
theorem Consistent.peek_release {staged : StagedMask n} (h : staged.Consistent) {slot copied : ℕ}
    (hphase : staged.phase = .copying slot copied) :
    (staged.latch.release slot).peek.map staged.pool =
      if (staged.history.length - staged.atPeek) % 2 = 0 then none else staged.history.getLast? := by
  obtain ⟨hslot, hpeek, hcopied⟩ := h.copying slot copied hphase
  have hpos := hcopied.atPeek_pos
  have hle := hcopied.atPeek_le
  split
  case isTrue heven =>
      have hsame : staged.latch.peek = some slot := by
        rw [hpeek]
        exact congrArg some (by omega)
      rw [SpscLatch.peek_release hsame]
      rfl
  case isFalse hodd =>
      have hother : staged.latch.peek ≠ some slot := by
        rw [hpeek]
        exact fun hsame => hodd (by have := Option.some.inj hsame; omega)
      rw [SpscLatch.peek_release_of_ne hother, hpeek, Option.map_some,
        List.getLast?_eq_getElem?]
      exact (h.slots (staged.history.length - 1) (by omega) (by omega)).2.symm

theorem Consistent.adoptStep {staged : StagedMask n} (h : staged.Consistent) :
    staged.adoptStep.Consistent := by
  rw [StagedMask.adoptStep]
  split
  case h_1 hphase =>
      split
      case h_1 => exact h
      case h_2 slot hpeek => exact h.peekStep hpeek
  case h_2 slot copied hphase =>
      obtain ⟨hslot, hpeek, hcopied⟩ := h.copying slot copied hphase
      split
      case isTrue hlt =>
          obtain ⟨hheld, hpool⟩ := h.held hphase
          refine ⟨h.claims, h.peek, h.slots, ?_, h.adoptions⟩
          intro other count hnext
          cases hnext
          refine ⟨hslot, hpeek, ?_⟩
          rw [hheld]
          exact hcopied.copy hlt hpool
      case isFalse hdone =>
          have hwhole : copied = esbHopMaskBytes n :=
            Nat.le_antisymm hcopied.copied_le (Nat.not_lt.mp hdone)
          refine ⟨h.claims.release slot, ?_, h.slots, ?_, ?_⟩
          · intro other hother
            exact h.peek other (SpscLatch.peek_of_peek_release hother)
          · intro other count hnext
            cases hnext
          · intro adoption hmem
            rcases List.mem_append.mp hmem with hbefore | hlast
            · exact h.adoptions adoption hbefore
            · rw [List.mem_singleton.mp hlast]
              refine ⟨?_, h.peek_release hphase⟩
              rw [← hwhole]
              exact hcopied

theorem Consistent.step {staged : StagedMask n} (h : staged.Consistent)
    (action : StagedMaskAction) : (staged.step action).Consistent := by
  cases action with
  | receive data => exact h.consumeMaskUpdate data
  | tick => exact h.adoptStep

theorem Consistent.run (activeMask : HopMask n) (actions : List StagedMaskAction) :
    (Transition.run StagedMask.step (StagedMask.boot activeMask) actions).Consistent :=
  Transition.run_invariant (fun _ action h => h.step action) (Consistent.boot activeMask) actions

/-! ## Whole masks and the newest one -/

variable {adoption : Adoption n}

theorem CopiedBytes.whole_iff (h : CopiedBytes adoption.atPeek adoption.history adoption.atCopies
    adoption.sources adoption.mask (esbHopMaskBytes n)) :
    adoption.Whole ↔ ∀ first ∈ adoption.atCopies, ∀ second ∈ adoption.atCopies,
      (first - adoption.atPeek) / 2 = (second - adoption.atPeek) / 2 := by
  have hpos := h.atPeek_pos
  constructor
  · rintro ⟨number, -, hsame⟩ first hfirst second hsecond
    have hone : ∀ count ∈ adoption.atCopies, heldSince adoption.atPeek count = number :=
      fun count hmem => hsame _ (h.sources_eq ▸ List.mem_map_of_mem hmem)
    have hvalue := (hone first hfirst).trans (hone second hsecond).symm
    rw [heldSince, heldSince] at hvalue
    omega
  · intro hsame
    -- any copied byte names the mask, or the peek does when no byte is copied
    obtain ⟨count, hcount, hhalf⟩ : ∃ count, (adoption.atPeek ≤ count ∧
        count ≤ adoption.history.length) ∧ ∀ other ∈ adoption.atCopies,
          (other - adoption.atPeek) / 2 = (count - adoption.atPeek) / 2 := by
      cases hcopies : adoption.atCopies with
      | nil => exact ⟨adoption.atPeek, ⟨Nat.le_refl _, h.atPeek_le⟩, by simp⟩
      | cons count rest =>
          have hmem : count ∈ adoption.atCopies := hcopies ▸ List.mem_cons_self ..
          refine ⟨count, h.between count hmem, fun other hother => ?_⟩
          exact hsame other (hcopies ▸ hother) count hmem
    have hsource : ∀ source ∈ adoption.sources,
        source = heldSince adoption.atPeek count := by
      intro source hmem
      rw [h.sources_eq] at hmem
      obtain ⟨other, hother, rfl⟩ := List.mem_map.mp hmem
      rw [heldSince, heldSince, hhalf other hother]
    have hlt : heldSince adoption.atPeek count < adoption.history.length := by
      rw [heldSince]
      omega
    refine ⟨heldSince adoption.atPeek count, ?_, hsource⟩
    refine List.getElem?_eq_some_iff.mpr ⟨hlt, Vector.ext fun i hi => ?_⟩
    obtain ⟨number, published, hnumber, hpublished, hbyte⟩ := h.bytes i hi hi
    have hnumber := hsource number (List.mem_of_getElem? hnumber)
    rw [hnumber, List.getElem?_eq_getElem hlt] at hpublished
    rw [Option.some.inj hpublished, hbyte]

theorem CopiedBytes.keepsNewest_iff (h : CopiedBytes adoption.atPeek adoption.history
    adoption.atCopies adoption.sources adoption.mask (esbHopMaskBytes n))
    (hpending : adoption.pending = if (adoption.history.length - adoption.atPeek) % 2 = 0 then none
      else adoption.history.getLast?) :
    adoption.KeepsNewest ↔ adoption.history.length = adoption.atPeek ∨
      (adoption.history.length - adoption.atPeek) % 2 = 1 := by
  have hpos := h.atPeek_pos
  have hle := h.atPeek_le
  have hlast : adoption.history.getLast? ≠ none := by
    rw [Ne, List.getLast?_eq_none_iff, ← List.length_eq_zero_iff]
    omega
  rw [Adoption.KeepsNewest, hpending]
  split
  case isTrue heven =>
      constructor
      · intro hkeeps
        by_contra hne
        exact hlast (hkeeps (by omega)).symm
      · intro hquiet hlt
        omega
  case isFalse hodd => exact iff_of_true (fun _ => rfl) (by omega)

end StagedMask

open StagedMask

/-- In every interleaving an adoption takes one published mask whole and leaves the
newest one pending iff the updates between its steps let it. -/
theorem staged_mask_whole_iff (activeMask : HopMask n) (actions : List StagedMaskAction) :
    ∀ adoption ∈ (Transition.run StagedMask.step (boot activeMask) actions).adoptions,
      (adoption.Whole ∧ adoption.KeepsNewest) ↔ adoption.Undisturbed := by
  intro adoption hmem
  obtain ⟨hcopied, hpending⟩ := (Consistent.run activeMask actions).adoptions adoption hmem
  rw [hcopied.whole_iff, hcopied.keepsNewest_iff hpending]
  exact ⟨fun h => ⟨h.1, h.2⟩, fun h => ⟨h.copies, h.release⟩⟩

/-- A single update between the copies leaves the mask whole and waits for the next tick. -/
theorem staged_mask_whole_sample : ∃ adoption ∈ (Transition.run StagedMask.step
    (boot (n := 10) (Vector.replicate _ 0xFF)) [.receive [0xFD, 0xFF, 0x03], .tick, .tick,
      .receive [0xFD, 0xFE, 0x02], .tick, .tick]).adoptions,
    adoption.Whole ∧ adoption.KeepsNewest := by
  refine ⟨_, List.getElem_mem (n := 0) (by decide +kernel), ?_⟩
  refine (staged_mask_whole_iff _ _ _ (List.getElem_mem (by decide +kernel))).mpr ⟨?_, ?_⟩
  · decide +kernel
  · decide +kernel

/-- Two updates reuse the slot between the copies of its two bytes: the adopted mask
mixes the first update with the third, and the third is dropped. -/
theorem staged_mask_torn : ¬ ∀ (n : ℕ) (activeMask : HopMask n) (actions : List StagedMaskAction),
    ∀ adoption ∈ (Transition.run StagedMask.step (boot activeMask) actions).adoptions,
      adoption.mask ∈ adoption.history ∧
        (adoption.atPeek < adoption.history.length →
          adoption.pending = adoption.history.getLast?) := by
  intro h
  have htorn := h 10 (Vector.replicate _ 0xFF)
    [.receive [0xFD, 0xFF, 0x03], .tick, .tick, .receive [0xFD, 0xFE, 0x02],
      .receive [0xFD, 0xFC, 0x01], .tick, .tick]
  revert htorn
  decide +kernel

end SplitEsb
