import SplitEsb.Central.InputKeys
import SplitEsb.Peripheral.Packets

/-! # Input keys of both sides
The held keys a peripheral lists in its keepalive, and the keys the central tracks. -/

namespace SplitEsb

open ByteString SlotTable Transition

variable {L : EventLayout} {config : PeripheralConfig L}

/-! ## Keys noted -/

/-- The keys noted pressed and not since released. -/
def noteHeld (held : Finset EsbKeepaliveHeldKey) (event : InputEvent) :
    Finset EsbKeepaliveHeldKey :=
  if event.type ≠ inputEvKey then held
  else if event.value ≠ 0 then insert event.key held
  else held.erase event.key

namespace Peripheral

theorem inputHeldKeys_eq (peripheral : Peripheral config) :
    peripheral.inputHeldKeys = keys peripheral.heldInputKeys := by
  rw [inputHeldKeys]
  generalize peripheral.heldInputKeys = slots
  induction slots with
  | nil => rfl
  | cons slot slots ih =>
      cases slot with
      | none => simpa [keys] using ih
      | some entry => simpa [keys] using ih

/-- The table holds exactly these keys, each once. -/
structure Lists (peripheral : Peripheral config) (held : Finset EsbKeepaliveHeldKey) : Prop where
  nodup : peripheral.inputHeldKeys.Nodup
  mem_iff : ∀ key, key ∈ peripheral.inputHeldKeys ↔ key ∈ held

theorem Lists.inputNoteEvent {peripheral : Peripheral config} {held : Finset EsbKeepaliveHeldKey}
    (h : peripheral.Lists held) {event : InputEvent}
    (hroom : (noteHeld held event).card ≤ config.heldKeysMax) :
    (peripheral.inputNoteEvent event).Lists (noteHeld held event) := by
  have hnodup : (keys peripheral.heldInputKeys).Nodup := inputHeldKeys_eq peripheral ▸ h.nodup
  have hmem : ∀ key, key ∈ keys peripheral.heldInputKeys ↔ key ∈ held :=
    inputHeldKeys_eq peripheral ▸ h.mem_iff
  suffices hkeys : (keys (peripheral.inputNoteEvent event).heldInputKeys).Nodup ∧
      ∀ key, key ∈ keys (peripheral.inputNoteEvent event).heldInputKeys ↔
        key ∈ noteHeld held event by
    rw [← inputHeldKeys_eq] at hkeys
    exact ⟨hkeys.1, hkeys.2⟩
  rw [noteHeld] at hroom ⊢
  rw [Peripheral.inputNoteEvent]
  by_cases htype : event.type ≠ inputEvKey
  · rw [if_pos htype, if_pos htype]
    exact ⟨hnodup, hmem⟩
  rw [if_neg htype] at hroom ⊢
  rw [if_neg htype]
  dsimp only
  by_cases hvalue : event.value ≠ 0
  · rw [if_pos hvalue] at hroom ⊢
    rw [if_pos hvalue]
    change (keys (heldEntryAdd peripheral.heldInputKeys event.key)).Nodup ∧
      ∀ key, key ∈ keys (heldEntryAdd peripheral.heldInputKeys event.key) ↔ _
    rw [heldEntryAdd]
    split_ifs with hfound
    · have hkey : event.key ∈ held := (hmem _).mp ((lookup_isSome_iff event.key _).mp hfound)
      rw [Finset.insert_eq_of_mem hkey]
      exact ⟨hnodup, hmem⟩
    · have hnew : event.key ∉ keys peripheral.heldInputKeys := fun hkey =>
        hfound ((lookup_isSome_iff event.key _).mpr hkey)
      have hheld : (keys peripheral.heldInputKeys).toFinset = held := by
        ext key
        rw [List.mem_toFinset, hmem]
      rw [← hheld, ← peripheral.heldInputKeys_length] at hroom
      obtain ⟨slots, hslots⟩ := exists_insertFree_of_card hnodup hnew hroom ()
      have hperm := keys_insertFree hslots
      rw [hslots, Option.getD_some]
      refine ⟨hperm.nodup_iff.mpr (List.nodup_cons.mpr ⟨hnew, hnodup⟩), fun key => ?_⟩
      rw [hperm.mem_iff, List.mem_cons, hmem, Finset.mem_insert]
  · rw [if_neg hvalue, if_neg hvalue]
    change (keys (release event.key peripheral.heldInputKeys)).Nodup ∧
      ∀ key, key ∈ keys (release event.key peripheral.heldInputKeys) ↔ _
    rw [keys_release]
    refine ⟨hnodup.erase _, fun key => ?_⟩
    rw [hnodup.mem_erase_iff, hmem, Finset.mem_erase]

theorem lists_run {events : List InputEvent}
    (hroom : Along noteHeld (fun held event => (noteHeld held event).card ≤ config.heldKeysMax)
      ∅ events) :
    (run Peripheral.inputNoteEvent (.init config) events).Lists (run noteHeld ∅ events) := by
  have hinit : (Peripheral.init config).Lists ∅ := by
    constructor <;> simp [inputHeldKeys_eq, Peripheral.init]
  revert hroom hinit
  generalize Peripheral.init config = peripheral, (∅ : Finset EsbKeepaliveHeldKey) = held
  intro hroom hinit
  induction events generalizing peripheral held with
  | nil => exact hinit
  | cons event events ih => exact ih _ _ hroom.2 (hinit.inputNoteEvent hroom.1)

end Peripheral

/-! ## Both sides -/

/-- Input keys reconcile exactly: on the central for keys of a noted register, on the
peripheral for every key it noted. -/
theorem input_keys_exact {heldKeysMax : ℕ} {hopWindowMs : UInt32} {actions : List InputAction}
    (hfits : Along (InputRun.step hopWindowMs) (InputRun.Fits heldKeysMax)
      (InputRun.boot heldKeysMax) actions)
    {events : List InputEvent}
    (hroom : Along noteHeld (fun held event => (noteHeld held event).card ≤ config.heldKeysMax)
      ∅ events) :
    (run (InputRun.step hopWindowMs) (InputRun.boot heldKeysMax) actions).KeysExact heldKeysMax
        hopWindowMs ∧
      (run Peripheral.inputNoteEvent (.init config) events).Lists (run noteHeld ∅ events) :=
  ⟨InputRun.keysExact_run hfits, Peripheral.lists_run hroom⟩

def sampleKeyEvent (reg : UInt8) (value : Int32) : InputEvent := ⟨reg, 1, inputEvKey, 272, value⟩

/-- A keepalive that lists one held key of the register. -/
def sampleHeldKeepalive (reg : UInt8) : Bytes :=
  [esbKeepaliveTag, 0, 0, 0, 0, 0, 0, 0, 0, 0, 0xFF, 0, 1, reg, 0x10, 1, 0]

theorem input_keys_exact_sample :
    (run (InputRun.step 50) (InputRun.boot 4)
        [.keepalive 0 (sampleHeldKeepalive 0), .event 5 (sampleKeyEvent 0 1), .release,
          .keepalive 9 (sampleHeldKeepalive 0)]).KeysExact 4 50 ∧
      (run Peripheral.inputNoteEvent (.init samplePeripheralConfig)
        [sampleKeyEvent 0 1, sampleKeyEvent 1 1, sampleKeyEvent 0 0]).Lists
        (run noteHeld ∅ [sampleKeyEvent 0 1, sampleKeyEvent 1 1, sampleKeyEvent 0 0]) :=
  input_keys_exact (by decide +kernel) (by decide +kernel)

/-- The staleness release disconnects no register from 32 on, yet forgets its keys. -/
theorem far_register_pressed_twice :
    let actions : List InputAction :=
      [.event 0 (sampleKeyEvent 32 1), .release, .keepalive 9 (sampleHeldKeepalive 32)]
    Along (InputRun.step 50) (InputRun.Fits 4) (InputRun.boot 4) actions ∧
      ¬ InputRun.PressedApart
        ((run (InputRun.step 50) (InputRun.boot 4) actions).changes ⟨32, 272⟩) := by
  have hchanges : (run (InputRun.step 50) (InputRun.boot 4)
      [.event 0 (sampleKeyEvent 32 1), .release, .keepalive 9 (sampleHeldKeepalive 32)]).changes
        ⟨32, 272⟩ = [true, true] := by decide +kernel
  refine ⟨by decide +kernel, ?_⟩
  rw [hchanges]
  simp [InputRun.PressedApart]

end SplitEsb
