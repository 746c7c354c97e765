import SplitEsb.Central.Motion
import SplitEsb.Shared.Transition

/-! # Input keys on the central
The keys one pipe tracks and what ZMK learns of them, over live events, keepalives and
staleness releases in any order. -/

namespace SplitEsb

open ByteString SlotTable Transition

/-! ## What ZMK learns of a key -/

def InputEvent.key (event : InputEvent) : EsbKeepaliveHeldKey := ⟨event.reg, event.code⟩

/-- A press of the key, or a release; nothing for other events. -/
def InputEvent.keyChange (key : EsbKeepaliveHeldKey) (event : InputEvent) : Option Bool :=
  if event.type = inputEvKey ∧ event.key = key then some (decide (event.value ≠ 0)) else none

inductive InputOutput where
  | event (event : InputEvent)
  | disconnected (reg : ℕ)
  deriving DecidableEq, Repr

/-- A disconnected register releases all its keys. -/
def InputOutput.keyChange (key : EsbKeepaliveHeldKey) : InputOutput → Option Bool
  | .event received => received.keyChange key
  | .disconnected reg => if reg = key.reg.toNat then some false else none

/-- The keys a keepalive lists. -/
def keepaliveHeldKeys (keepalive : Bytes) : List EsbKeepaliveHeldKey :=
  (List.range (esbKeepaliveHeldCount keepalive).toNat).map fun index =>
    esbKeepaliveHeldKeyAt keepalive (UInt8.ofNat index)

namespace CentralInput

/-! ## Registers seen -/

def Seen (input : CentralInput) (reg : ℕ) : Prop :=
  input.seenInputRegs &&& UInt32.ofNat (1 <<< reg) ≠ 0

theorem or_and_eq_zero_iff (regs more mask : UInt32) :
    (regs ||| more) &&& mask = 0 ↔ regs &&& mask = 0 ∧ more &&& mask = 0 := by
  rw [← UInt32.or_eq_zero_iff, ← UInt32.toBitVec_inj, ← UInt32.toBitVec_inj]
  simp only [UInt32.toBitVec_and, UInt32.toBitVec_or, BitVec.and_or_distrib_right]

theorem Seen.noteInputReg {input : CentralInput} {reg : ℕ} (h : input.Seen reg) (noted : UInt8) :
    (input.noteInputReg noted).Seen reg := by
  rw [CentralInput.noteInputReg]
  split_ifs
  · exact fun hzero => h ((or_and_eq_zero_iff ..).mp hzero).1
  · exact h

theorem seen_noteInputReg (input : CentralInput) {noted : UInt8}
    (h : noted.toNat < centralInputRegMax) : (input.noteInputReg noted).Seen noted.toNat := by
  have hbit : ∀ reg < 32, UInt32.ofNat (1 <<< reg) ≠ 0 := by decide
  rw [CentralInput.noteInputReg, if_pos h]
  intro hzero
  have hself := ((or_and_eq_zero_iff ..).mp hzero).2
  rw [UInt32.and_self] at hself
  exact hbit _ h hself

/-- The register of each tracked key was seen, as far as registers are noted. -/
def KeysSeen (input : CentralInput) : Prop :=
  ∀ key ∈ keys input.trackedInputKeys, key.reg.toNat < centralInputRegMax →
    input.Seen key.reg.toNat

theorem noteInputReg_keys (input : CentralInput) (reg : UInt8) :
    (input.noteInputReg reg).trackedInputKeys = input.trackedInputKeys ∧
      (input.noteInputReg reg).inputReset = input.inputReset := by
  rw [noteInputReg]
  split_ifs <;> exact ⟨rfl, rfl⟩

theorem KeysSeen.noteInputReg {input : CentralInput} (h : input.KeysSeen) (reg : UInt8) :
    (input.noteInputReg reg).KeysSeen := by
  intro key hkey hreg
  rw [(noteInputReg_keys input reg).1] at hkey
  exact (h key hkey hreg).noteInputReg reg

/-! ## What leaves the keys alone -/

structure KeepsKeys (input input' : CentralInput) : Prop where
  trackedInputKeys : input'.trackedInputKeys = input.trackedInputKeys
  seenInputRegs : input'.seenInputRegs = input.seenInputRegs
  inputReset : input'.inputReset = input.inputReset

theorem KeepsKeys.trans {input input' input'' : CentralInput} (h : KeepsKeys input input')
    (h' : KeepsKeys input' input'') : KeepsKeys input input'' :=
  ⟨h'.trackedInputKeys.trans h.trackedInputKeys, h'.seenInputRegs.trans h.seenInputRegs,
    h'.inputReset.trans h.inputReset⟩

theorem KeepsKeys.keysSeen {input input' : CentralInput} (h : KeepsKeys input input')
    (hseen : input.KeysSeen) : input'.KeysSeen := by
  intro key hkey hreg
  rw [h.trackedInputKeys] at hkey
  rw [Seen, h.seenInputRegs]
  exact hseen key hkey hreg

theorem motionTotalToDelta_keepsKeys (input : CentralInput) (now : UInt32) (event : InputEvent) :
    KeepsKeys input (input.motionTotalToDelta now event).1 ∧
      (input.motionTotalToDelta now event).2.type = event.type := by
  rw [motionTotalToDelta]
  dsimp only
  split <;> exact ⟨⟨rfl, rfl, rfl⟩, rfl⟩

theorem motionHeals_keepsKeys (input : CentralInput) (totals : List EsbKeepaliveMotionTotal) :
    KeepsKeys input (input.motionHeals totals).1 ∧
      ∀ event ∈ (input.motionHeals totals).2, event.type = inputEvRel := by
  induction totals generalizing input with
  | nil => exact ⟨⟨rfl, rfl, rfl⟩, by simp [motionHeals]⟩
  | cons motion totals ih =>
      have hone : KeepsKeys input (input.motionHealAt motion).1 ∧
          ∀ event ∈ (input.motionHealAt motion).2, event.type = inputEvRel := by
        rw [motionHealAt]
        dsimp only
        split
        · exact ⟨⟨rfl, rfl, rfl⟩, by simp⟩
        · refine ⟨⟨rfl, rfl, rfl⟩, fun event hevent => ?_⟩
          obtain ⟨delta, -, rfl⟩ := Option.map_eq_some_iff.mp hevent
          rfl
      obtain ⟨hkeeps, htype⟩ := ih (input.motionHealAt motion).1
      refine ⟨hone.1.trans hkeeps, fun event hevent => ?_⟩
      rcases List.mem_append.mp hevent with hfirst | hrest
      · exact hone.2 event (Option.mem_toList.mp hfirst)
      · exact htype event hrest

theorem keyChange_of_type {event : InputEvent} (h : event.type ≠ inputEvKey)
    (key : EsbKeepaliveHeldKey) : event.keyChange key = none := if_neg fun hkey => h hkey.1

theorem type_of_mem_flagSync {type : UInt8} {events : List InputEvent}
    (h : ∀ event ∈ events, event.type = type) : ∀ event ∈ flagSync events, event.type = type := by
  induction events with
  | nil => exact h
  | cons event events ih =>
      have hfirst := h event (List.mem_cons_self ..)
      have hrest := fun other hother => h other (List.mem_cons_of_mem event hother)
      cases events with
      | nil => simpa [flagSync] using hfirst
      | cons next events => exact List.forall_mem_cons.mpr ⟨hfirst, ih hrest⟩

/-- Heals forward no key. -/
theorem healLostMotion_keepsKeys (input : CentralInput) (now hopWindowMs : UInt32)
    (keepalive : Bytes) :
    KeepsKeys input (input.healLostMotion now hopWindowMs keepalive).1 ∧
      ∀ key, (input.healLostMotion now hopWindowMs keepalive).2.filterMap (·.keyChange key) = [] := by
  rw [healLostMotion]
  split_ifs
  · rw [healTotals_eq]
    obtain ⟨hkeeps, htype⟩ := motionHeals_keepsKeys input (keepaliveTotals keepalive)
    refine ⟨hkeeps, fun key => List.filterMap_eq_nil_iff.mpr fun event hevent => ?_⟩
    have hrel : event.type = inputEvRel := type_of_mem_flagSync htype event hevent
    exact keyChange_of_type (by rw [hrel]; decide) key
  · exact ⟨⟨rfl, rfl, rfl⟩, fun _ => rfl⟩

/-! ## Keepalives -/

theorem keepaliveHoldsInputKey_iff (keepalive : Bytes) (key : EsbKeepaliveHeldKey) :
    keepaliveHoldsInputKey keepalive key = true ↔ key ∈ keepaliveHeldKeys keepalive := by
  simp [keepaliveHoldsInputKey, keepaliveHeldKeys]

theorem keyChange_replayInputKey (key other : EsbKeepaliveHeldKey) (pressed : Bool) :
    (replayInputKey key pressed).keyChange other = if key = other then some pressed else none := by
  have hkey : (replayInputKey key pressed).type = inputEvKey ∧
      (replayInputKey key pressed).key = key := ⟨rfl, rfl⟩
  rw [InputEvent.keyChange, hkey.1, hkey.2]
  cases pressed <;> simp [replayInputKey]

theorem keys_releaseUnheldInputKeys (keepalive : Bytes) (slots : Slots EsbKeepaliveHeldKey Unit) :
    keys (releaseUnheldInputKeys keepalive slots).1 =
        (keys slots).filter (keepaliveHoldsInputKey keepalive) ∧
      (releaseUnheldInputKeys keepalive slots).1.length = slots.length ∧
      (releaseUnheldInputKeys keepalive slots).2 =
        ((keys slots).filter fun key => !keepaliveHoldsInputKey keepalive key).map
          (replayInputKey · false) := by
  induction slots with
  | nil => exact ⟨rfl, rfl, rfl⟩
  | cons slot slots ih =>
      obtain ⟨hkeys, hlength, hevents⟩ := ih
      cases slot with
      | none =>
          refine ⟨hkeys, ?_, hevents⟩
          rw [releaseUnheldInputKeys, List.length_cons, List.length_cons, hlength]
      | some entry =>
          obtain ⟨key, ⟨⟩⟩ := entry
          rw [releaseUnheldInputKeys]
          cases hheld : keepaliveHoldsInputKey keepalive key <;>
            simp [keys, hheld, hkeys, hlength, hevents]

/-- What a keepalive replays for one key: a release of a tracked key it does not list, a
press of a listed key that was not tracked. -/
def replayedChanges (tracked held : List EsbKeepaliveHeldKey) (key : EsbKeepaliveHeldKey) :
    List Bool :=
  if key ∈ tracked then (if key ∈ held then [] else [false])
  else if key ∈ held then [true] else []

theorem filterMap_of_nodup {α : Type*} [DecidableEq α] {items : List α} (h : items.Nodup)
    (item : α) (change : Bool) :
    (items.filterMap fun other => if other = item then some change else none) =
      if item ∈ items then [change] else [] := by
  induction items with
  | nil => rfl
  | cons first items ih =>
      obtain ⟨hfirst, hrest⟩ := List.nodup_cons.mp h
      rw [List.filterMap_cons, ih hrest]
      by_cases hitem : first = item
      · subst hitem
        simp [hfirst]
      · simp [hitem, Ne.symm hitem]

theorem filterMap_replayInputKey {replayed : List EsbKeepaliveHeldKey} (h : replayed.Nodup)
    (pressed : Bool) (key : EsbKeepaliveHeldKey) :
    (replayed.map (replayInputKey · pressed)).filterMap (·.keyChange key) =
      if key ∈ replayed then [pressed] else [] := by
  rw [← filterMap_of_nodup h key pressed, List.filterMap_map]
  exact congrArg (List.filterMap · replayed) (funext fun other =>
    keyChange_replayInputKey other key pressed)

/-- Listed keys were pressed unless tracked before, and are tracked now. -/
structure PressesHeld (allowed held : List EsbKeepaliveHeldKey) (input input' : CentralInput)
    (events : List InputEvent) : Prop where
  within : Within allowed input'.trackedInputKeys
  length : input'.trackedInputKeys.length = input.trackedInputKeys.length
  keys_iff : ∀ key, key ∈ keys input'.trackedInputKeys ↔
    key ∈ keys input.trackedInputKeys ∨ key ∈ held
  keysSeen : input'.KeysSeen
  inputReset : input'.inputReset = input.inputReset
  changes : ∀ key, events.filterMap (·.keyChange key) =
    if key ∈ keys input.trackedInputKeys then [] else if key ∈ held then [true] else []

theorem pressHeldInputKey_presses {allowed : List EsbKeepaliveHeldKey} {input : CentralInput}
    (within : Within allowed input.trackedInputKeys) (hseen : input.KeysSeen)
    {key : EsbKeepaliveHeldKey} (hkey : key ∈ allowed) :
    PressesHeld allowed [key] input (input.pressHeldInputKey key).1
      (input.pressHeldInputKey key).2 := by
  obtain ⟨slots, hclaim, hwithin, -⟩ := within.claim hkey ()
  have hmem := mem_keys_claim hclaim
  have hlength := length_claim hclaim
  rw [claim] at hclaim
  rw [pressHeldInputKey]
  split_ifs at hclaim ⊢ with hheld
  · obtain rfl := Option.some.inj hclaim
    have htracked := (lookup_isSome_iff key _).mp hheld
    refine ⟨within, rfl, fun other => ?_, hseen, rfl, fun other => ?_⟩
    · rw [hmem other, List.mem_singleton, or_comm]
      tauto
    · split_ifs with hother hsame
      · rfl
      · exact absurd (List.mem_singleton.mp hsame ▸ htracked) hother
      · rfl
  · have hnew : key ∉ keys input.trackedInputKeys := fun htracked =>
      hheld ((lookup_isSome_iff key _).mpr htracked)
    rw [hclaim]
    dsimp only
    obtain ⟨hslots, hreset⟩ := noteInputReg_keys { input with trackedInputKeys := slots } key.reg
    refine ⟨hslots ▸ hwithin, hslots ▸ hlength, fun other => ?_, fun other hother hreg => ?_,
      hreset, fun other => ?_⟩
    · rw [hslots, hmem other, List.mem_singleton, or_comm]
    · rw [hslots] at hother
      rcases (hmem other).mp hother with rfl | hold
      · exact seen_noteInputReg _ hreg
      · have hbefore : ({ input with trackedInputKeys := slots } : CentralInput).Seen
            other.reg.toNat := hseen other hold hreg
        exact hbefore.noteInputReg key.reg
    · rw [List.filterMap_cons, keyChange_replayInputKey, List.filterMap_nil]
      by_cases hsame : key = other
      · subst hsame
        simp [hnew]
      · simp [hsame, Ne.symm hsame]

theorem pressHeldInputKeys_presses {allowed : List EsbKeepaliveHeldKey} {input : CentralInput}
    (within : Within allowed input.trackedInputKeys) (hseen : input.KeysSeen)
    {held : List EsbKeepaliveHeldKey} (hheld : ∀ key ∈ held, key ∈ allowed) :
    PressesHeld allowed held input (input.pressHeldInputKeys held).1
      (input.pressHeldInputKeys held).2 := by
  induction held generalizing input with
  | nil => exact ⟨within, rfl, by simp [pressHeldInputKeys], hseen, rfl, by simp [pressHeldInputKeys]⟩
  | cons key held ih =>
      obtain ⟨hkey, hrest⟩ := List.forall_mem_cons.mp hheld
      have hfirst := pressHeldInputKey_presses within hseen hkey
      have hnext := ih hfirst.within hfirst.keysSeen hrest
      refine ⟨hnext.within, hnext.length.trans hfirst.length, fun other => ?_, hnext.keysSeen,
        hnext.inputReset.trans hfirst.inputReset, fun other => ?_⟩
      · have hiff := hnext.keys_iff other
        rw [hfirst.keys_iff other, List.mem_singleton, or_assoc, ← List.mem_cons] at hiff
        exact hiff
      · rw [pressHeldInputKeys]
        dsimp only
        rw [List.filterMap_append, hfirst.changes, hnext.changes]
        simp only [hfirst.keys_iff other, List.mem_cons]
        by_cases htracked : other ∈ keys input.trackedInputKeys <;>
          by_cases hsame : other = key <;> simp [htracked, hsame]

/-- The keys tracked once a pending reset is taken. -/
def inputKeys (input : CentralInput) : List EsbKeepaliveHeldKey :=
  keys input.applyInputReset.trackedInputKeys

theorem inputKeys_of_not_reset {input : CentralInput} (h : input.inputReset = false) :
    input.inputKeys = keys input.trackedInputKeys := by
  rw [inputKeys, applyInputReset, h]
  rfl

/-- What a keepalive leaves and replays. -/
structure Reconciled (held : List EsbKeepaliveHeldKey) (input input' : CentralInput)
    (events : List InputEvent) : Prop where
  keys_iff : ∀ key, key ∈ keys input'.trackedInputKeys ↔ key ∈ held
  changes : ∀ key, events.filterMap (·.keyChange key) =
    replayedChanges input.inputKeys held key

/-- The keys of a pipe are distinct, fill no more than the table, and were seen. -/
structure KeysSound (heldKeysMax : ℕ) (input : CentralInput) : Prop where
  length : input.trackedInputKeys.length = heldKeysMax
  nodup : (keys input.trackedInputKeys).Nodup
  seen : input.KeysSeen

theorem KeysSound.applyInputReset {heldKeysMax : ℕ} {input : CentralInput}
    (h : input.KeysSound heldKeysMax) : input.applyInputReset.KeysSound heldKeysMax := by
  rw [CentralInput.applyInputReset]
  split_ifs
  · exact ⟨by simpa using h.length, by simp, by simp [KeysSeen]⟩
  · exact h

theorem KeysSound.reconcile {heldKeysMax : ℕ} {input : CentralInput}
    (h : input.KeysSound heldKeysMax) (now hopWindowMs : UInt32) {keepalive : Bytes}
    (hroom : (keepaliveHeldKeys keepalive).toFinset.card ≤ heldKeysMax) :
    let reconciled := input.reconcile now hopWindowMs keepalive
    reconciled.1.KeysSound heldKeysMax ∧ reconciled.1.inputReset = false ∧
      Reconciled (keepaliveHeldKeys keepalive) input reconciled.1 reconciled.2 := by
  intro reconciled
  set held := keepaliveHeldKeys keepalive
  have hholds : ∀ key, keepaliveHoldsInputKey keepalive key = true ↔ key ∈ held :=
    keepaliveHoldsInputKey_iff keepalive
  have hready := h.applyInputReset
  set ready := input.applyInputReset with hreadyEq
  obtain ⟨hkeys, hlength, hreleased⟩ := keys_releaseUnheldInputKeys keepalive ready.trackedInputKeys
  set left := releaseUnheldInputKeys keepalive ready.trackedInputKeys
  have hleft : ∀ key, key ∈ keys left.1 ↔ key ∈ keys ready.trackedInputKeys ∧ key ∈ held := by
    intro key
    rw [hkeys, List.mem_filter, hholds]
  -- the keys left are among the listed ones, for which the table has room
  have within : Within held.dedup ({ ready with trackedInputKeys := left.1 }).trackedInputKeys :=
    ⟨hkeys ▸ hready.nodup.filter _, fun key hkey => List.mem_dedup.mpr ((hleft key).mp hkey).2,
      by rw [hlength, hready.length]; exact hroom⟩
  have hseen : ({ ready with trackedInputKeys := left.1 } : CentralInput).KeysSeen :=
    fun key hkey hreg => hready.seen key ((hleft key).mp hkey).1 hreg
  have hpressed := pressHeldInputKeys_presses within hseen fun key (hkey : key ∈ held) =>
    List.mem_dedup.mpr hkey
  set pressed := CentralInput.pressHeldInputKeys { ready with trackedInputKeys := left.1 } held
  obtain ⟨hkeeps, hhealed⟩ := healLostMotion_keepsKeys pressed.1 now hopWindowMs keepalive
  have hreconciled : reconciled = ((pressed.1.healLostMotion now hopWindowMs keepalive).1,
      left.2 ++ (pressed.2 ++ (pressed.1.healLostMotion now hopWindowMs keepalive).2)) := rfl
  rw [hreconciled]
  refine ⟨⟨?_, ?_, hkeeps.keysSeen hpressed.keysSeen⟩, ?_, fun key => ?_, fun key => ?_⟩
  · rw [hkeeps.trackedInputKeys, hpressed.length, hlength, hready.length]
  · rw [hkeeps.trackedInputKeys]
    exact hpressed.within.nodup
  · rw [hkeeps.inputReset, hpressed.inputReset]
    exact applyInputReset_inputReset input
  · rw [hkeeps.trackedInputKeys, hpressed.keys_iff, hleft]
    tauto
  · rw [List.filterMap_append, List.filterMap_append, hhealed, hpressed.changes, List.append_nil,
      hreleased, filterMap_replayInputKey (hready.nodup.filter _), replayedChanges, inputKeys,
      ← hreadyEq]
    simp only [hleft, List.mem_filter, Bool.not_eq_true', ← Bool.not_eq_true, hholds]
    by_cases htracked : key ∈ keys ready.trackedInputKeys <;> by_cases hheld : key ∈ held <;>
      simp [htracked, hheld]

/-! ## Events -/

/-- What one action tells ZMK of a key: nothing while it stays tracked, a press once it is
newly tracked, or a release. -/
inductive KeyPasses (tracked tracked' : Prop) : List Bool → Prop
  | quiet (h : tracked → tracked') : KeyPasses tracked tracked' []
  | pressed (h : ¬ tracked) (h' : tracked') : KeyPasses tracked tracked' [true]
  | released : KeyPasses tracked tracked' [false]

theorem Reconciled.passes {held : List EsbKeepaliveHeldKey} {input input' : CentralInput}
    {events : List InputEvent} (h : Reconciled held input input' events)
    (key : EsbKeepaliveHeldKey) :
    KeyPasses (key ∈ input.inputKeys) (key ∈ keys input'.trackedInputKeys)
      (events.filterMap (·.keyChange key)) := by
  rw [h.changes, replayedChanges, h.keys_iff]
  split_ifs with htracked hheld hheld
  · exact .quiet fun _ => hheld
  · exact .released
  · exact .pressed htracked hheld
  · exact .quiet fun hkey => absurd hkey htracked

/-- A key event keeps its type and value, so ZMK gets it as it came. -/
theorem deliverEvent_of_track {input tracked : CentralInput} {event : InputEvent}
    (hplain : event.type = inputEvKey → event.sync &&& esbWireInputTotal = 0)
    (htrack : (input.applyInputReset.noteInputReg event.reg).trackKeyEvent event = some tracked)
    (now : UInt32) :
    KeepsKeys tracked (input.deliverEvent now event).1 ∧
      ∀ key, (input.deliverEvent now event).2.filterMap (·.keyChange key) =
        (event.keyChange key).toList := by
  rw [deliverEvent]
  dsimp only
  rw [htrack]
  dsimp only
  split_ifs with htotal
  · have hmotion : event.type ≠ inputEvKey := fun hkey => htotal (hplain hkey)
    obtain ⟨hkeeps, htype⟩ := motionTotalToDelta_keepsKeys tracked now event
    refine ⟨hkeeps, fun key => ?_⟩
    rw [keyChange_of_type hmotion, List.filterMap_cons, keyChange_of_type (htype ▸ hmotion)]
    rfl
  · refine ⟨⟨rfl, rfl, rfl⟩, fun key => ?_⟩
    rw [List.filterMap_cons]
    cases event.keyChange key <;> rfl

theorem KeysSound.trackKeyEvent {heldKeysMax : ℕ} {ready tracked : CentralInput}
    (h : ready.KeysSound heldKeysMax) {event : InputEvent}
    (hseen : event.reg.toNat < centralInputRegMax → ready.Seen event.reg.toNat)
    (hroom : event.type = inputEvKey → event.value ≠ 0 →
      (insert event.key (keys ready.trackedInputKeys).toFinset).card ≤ heldKeysMax)
    (htrack : ready.trackKeyEvent event = some tracked) :
    tracked.KeysSound heldKeysMax ∧ tracked.inputReset = ready.inputReset ∧
      ∀ key, KeyPasses (key ∈ keys ready.trackedInputKeys) (key ∈ keys tracked.trackedInputKeys)
        (event.keyChange key).toList := by
  rw [CentralInput.trackKeyEvent] at htrack
  dsimp only at htrack
  split_ifs at htrack with htype hvalue hheld
  · obtain rfl := Option.some.inj htrack
    refine ⟨h, rfl, fun key => ?_⟩
    rw [keyChange_of_type htype]
    exact .quiet id
  · obtain rfl := Option.some.inj htrack
    have hkey : event.type = inputEvKey := not_not.mp htype
    have herase : keys (release event.key ready.trackedInputKeys) =
        (keys ready.trackedInputKeys).erase event.key := keys_release ..
    refine ⟨⟨(length_release ..).trans h.length, herase ▸ h.nodup.erase _, fun key hmem =>
      h.seen key (List.mem_of_mem_erase (herase ▸ hmem))⟩, rfl, fun key => ?_⟩
    rw [InputEvent.keyChange]
    by_cases hsame : event.key = key
    · rw [if_pos ⟨hkey, hsame⟩, decide_eq_false (not_not.mpr hvalue)]
      exact .released
    · rw [if_neg fun hboth => hsame hboth.2]
      refine .quiet fun hmem => ?_
      change key ∈ keys (release event.key ready.trackedInputKeys)
      rw [herase]
      exact (List.mem_erase_of_ne (Ne.symm hsame)).mpr hmem
  · have hkey : event.type = inputEvKey := not_not.mp htype
    have hnew : event.key ∉ keys ready.trackedInputKeys := fun hmem =>
      hheld ((lookup_isSome_iff event.key _).mpr hmem)
    obtain ⟨slots, hslots⟩ := exists_insertFree_of_card h.nodup hnew
      (h.length ▸ hroom hkey hvalue) ()
    have hperm := keys_insertFree hslots
    have hinsert : insertFree (⟨event.reg, event.code⟩ : EsbKeepaliveHeldKey) ()
        ready.trackedInputKeys = some slots := hslots
    rw [hinsert, Option.getD_some] at htrack
    obtain rfl := Option.some.inj htrack
    have hmem : ∀ key, key ∈ keys slots ↔ key = event.key ∨ key ∈ keys ready.trackedInputKeys :=
      fun key => hperm.mem_iff.trans List.mem_cons
    refine ⟨⟨(length_insertFree hslots).trans h.length,
      hperm.nodup_iff.mpr (List.nodup_cons.mpr ⟨hnew, h.nodup⟩), fun key htracked hreg => ?_⟩, rfl,
      fun key => ?_⟩
    · rcases (hmem key).mp htracked with rfl | hold
      · exact hseen hreg
      · exact h.seen key hold hreg
    · rw [InputEvent.keyChange]
      by_cases hsame : event.key = key
      · rw [if_pos ⟨hkey, hsame⟩, decide_eq_true hvalue]
        subst hsame
        exact .pressed hnew ((hmem _).mpr (.inl rfl))
      · rw [if_neg fun hboth => hsame hboth.2]
        exact .quiet fun hold => (hmem key).mpr (.inr hold)

theorem KeysSound.deliverEvent {heldKeysMax : ℕ} {input : CentralInput}
    (h : input.KeysSound heldKeysMax) (now : UInt32) {event : InputEvent}
    (hfits : event.type = inputEvKey → event.sync &&& esbWireInputTotal = 0 ∧
      (event.value ≠ 0 → (insert event.key input.inputKeys.toFinset).card ≤ heldKeysMax)) :
    let delivered := input.deliverEvent now event
    delivered.1.KeysSound heldKeysMax ∧ delivered.1.inputReset = false ∧
      ∀ key, KeyPasses (key ∈ input.inputKeys) (key ∈ keys delivered.1.trackedInputKeys)
        (delivered.2.filterMap (·.keyChange key)) := by
  intro delivered
  set ready := input.applyInputReset.noteInputReg event.reg with hreadyEq
  have hkeys : ready.trackedInputKeys = input.applyInputReset.trackedInputKeys :=
    (noteInputReg_keys _ _).1
  have hreset : ready.inputReset = false :=
    (noteInputReg_keys _ _).2.trans (applyInputReset_inputReset input)
  have hready : ready.KeysSound heldKeysMax :=
    ⟨hkeys ▸ h.applyInputReset.length, hkeys ▸ h.applyInputReset.nodup,
      h.applyInputReset.seen.noteInputReg event.reg⟩
  have htracked : ∀ key, key ∈ input.inputKeys ↔ key ∈ keys ready.trackedInputKeys := by
    intro key
    rw [hkeys, inputKeys]
  cases htrack : ready.trackKeyEvent event with
  | none =>
      have hdropped : delivered = (ready, []) := by
        change input.deliverEvent now event = _
        rw [CentralInput.deliverEvent]
        dsimp only
        rw [← hreadyEq, htrack]
      rw [hdropped]
      exact ⟨hready, hreset, fun key => .quiet (htracked key).mp⟩
  | some tracked =>
      obtain ⟨hkeeps, hchanges⟩ := deliverEvent_of_track (fun hkey => (hfits hkey).1) htrack now
      have hroom : event.type = inputEvKey → event.value ≠ 0 →
          (insert event.key (keys ready.trackedInputKeys).toFinset).card ≤ heldKeysMax := by
        rw [hkeys]
        exact fun hkey => (hfits hkey).2
      obtain ⟨hsound, hreset', hpasses⟩ := hready.trackKeyEvent (seen_noteInputReg _) hroom htrack
      refine ⟨⟨?_, ?_, hkeeps.keysSeen hsound.seen⟩, ?_, fun key => ?_⟩
      · rw [hkeeps.trackedInputKeys]
        exact hsound.length
      · rw [hkeeps.trackedInputKeys]
        exact hsound.nodup
      · rw [hkeeps.inputReset, hreset', hreset]
      · rw [hchanges, hkeeps.trackedInputKeys, htracked]
        exact hpasses key

end CentralInput

/-! ## Runs of a pipe -/

inductive InputAction where
  | event (now : UInt32) (event : InputEvent)
  | keepalive (now : UInt32) (keepalive : Bytes)
  | release

/-- The input state of a pipe and all that ZMK learned of it. -/
structure InputRun where
  input : CentralInput
  outputs : List InputOutput

namespace InputRun

def boot (heldKeysMax : ℕ) : InputRun := ⟨.init heldKeysMax, []⟩

def step (hopWindowMs : UInt32) (state : InputRun) : InputAction → InputRun
  | .event now event =>
      let (input, events) := state.input.deliverEvent now event
      ⟨input, state.outputs ++ events.map .event⟩
  | .keepalive now keepalive =>
      let (input, events) := state.input.reconcile now hopWindowMs keepalive
      ⟨input, state.outputs ++ events.map .event⟩
  | .release =>
      let (input, regs) := state.input.releasePipe
      ⟨input, state.outputs ++ regs.map .disconnected⟩

/-- The presses and releases of a key, in the order ZMK learned them. -/
def changes (state : InputRun) (key : EsbKeepaliveHeldKey) : List Bool :=
  state.outputs.filterMap (·.keyChange key)

/-- The keys tracked or held at once fit the table, and a key event is not marked as a
running total. -/
def Fits (heldKeysMax : ℕ) (state : InputRun) : InputAction → Prop
  | .event _ event => event.type = inputEvKey →
      event.sync &&& esbWireInputTotal = 0 ∧ (event.value ≠ 0 →
        (insert event.key state.input.inputKeys.toFinset).card ≤ heldKeysMax)
  | .keepalive _ keepalive => (keepaliveHeldKeys keepalive).toFinset.card ≤ heldKeysMax
  | .release => True

instance (heldKeysMax : ℕ) (state : InputRun) (action : InputAction) :
    Decidable (state.Fits heldKeysMax action) :=
  match action with
  | .event _ event => inferInstanceAs (Decidable (event.type = inputEvKey → _))
  | .keepalive _ _ => inferInstanceAs (Decidable (_ ≤ heldKeysMax))
  | .release => inferInstanceAs (Decidable True)

/-! ### Presses and releases along a run -/

/-- Between two presses of the key there is a release. -/
def PressedApart (changes : List Bool) : Prop :=
  changes.IsChain fun earlier later => ¬ (earlier = true ∧ later = true)

/-- A key pressed last is tracked. -/
structure KeyMirrored (changes : List Bool) (tracked : Prop) : Prop where
  apart : PressedApart changes
  down : changes.getLast? = some true → tracked

theorem KeyMirrored.pass {changes new : List Bool} {tracked tracked' : Prop}
    (h : KeyMirrored changes tracked) (hpasses : CentralInput.KeyPasses tracked tracked' new) :
    KeyMirrored (changes ++ new) tracked' := by
  cases hpasses with
  | quiet hkept =>
      rw [List.append_nil]
      exact ⟨h.apart, fun hlast => hkept (h.down hlast)⟩
  | pressed hnew htracked =>
      refine ⟨List.isChain_append.mpr ⟨h.apart, .singleton true, ?_⟩, fun _ => htracked⟩
      intro earlier hearlier later _ hboth
      rw [hboth.1] at hearlier
      exact hnew (h.down (Option.mem_def.mp hearlier))
  | released =>
      refine ⟨List.isChain_append.mpr ⟨h.apart, .singleton false, ?_⟩, ?_⟩
      · intro earlier _ later hlater hboth
        rw [List.head?_cons, Option.mem_some_iff] at hlater
        exact Bool.false_ne_true (hlater.trans hboth.2)
      · rw [List.getLast?_concat]
        nofun

/-- The tracked keys are sound, and ZMK holds no other key of a noted register pressed. -/
structure Inv (heldKeysMax : ℕ) (state : InputRun) : Prop where
  sound : state.input.KeysSound heldKeysMax
  mirrored : ∀ key : EsbKeepaliveHeldKey, key.reg.toNat < centralInputRegMax →
    KeyMirrored (state.changes key) (key ∈ state.input.inputKeys)

theorem Inv.boot (heldKeysMax : ℕ) : (boot heldKeysMax).Inv heldKeysMax where
  sound := ⟨List.length_replicate, by simp [InputRun.boot, CentralInput.init],
    by simp [CentralInput.KeysSeen, InputRun.boot, CentralInput.init]⟩
  mirrored _ _ := ⟨.nil, nofun⟩

theorem filterMap_event (events : List InputEvent) (key : EsbKeepaliveHeldKey) :
    (events.map InputOutput.event).filterMap (·.keyChange key) =
      events.filterMap (·.keyChange key) := List.filterMap_map ..

/-- The staleness tick releases every key of a register seen, so each tracked one. -/
theorem releasePipe_passes {input : CentralInput} (hseen : input.KeysSeen)
    {key : EsbKeepaliveHeldKey} (hreg : key.reg.toNat < centralInputRegMax) :
    CentralInput.KeyPasses (key ∈ input.inputKeys) (key ∈ input.releasePipe.1.inputKeys)
      ((input.releasePipe.2.map InputOutput.disconnected).filterMap (·.keyChange key)) := by
  have hnodup : input.releasePipe.2.Nodup := List.nodup_range.filter _
  have hchanges : (input.releasePipe.2.map InputOutput.disconnected).filterMap (·.keyChange key) =
      if key.reg.toNat ∈ input.releasePipe.2 then [false] else [] := by
    rw [← CentralInput.filterMap_of_nodup hnodup key.reg.toNat false, List.filterMap_map]
    rfl
  rw [hchanges]
  split_ifs with hmem
  · exact .released
  · refine .quiet fun htracked => absurd ?_ hmem
    have hkey : key ∈ keys input.trackedInputKeys := by
      rw [CentralInput.inputKeys, CentralInput.applyInputReset] at htracked
      split_ifs at htracked
      · simp at htracked
      · exact htracked
    exact List.mem_filter.mpr ⟨List.mem_range.mpr hreg, bne_iff_ne.mpr (hseen key hkey hreg)⟩

theorem Inv.step {heldKeysMax : ℕ} {state : InputRun} (h : state.Inv heldKeysMax)
    {hopWindowMs : UInt32} {action : InputAction} (hfits : state.Fits heldKeysMax action) :
    (state.step hopWindowMs action).Inv heldKeysMax := by
  cases action with
  | event now event =>
      obtain ⟨hsound, hreset, hpasses⟩ := h.sound.deliverEvent now hfits
      refine ⟨hsound, fun key hreg => ?_⟩
      have hmirrored := (h.mirrored key hreg).pass (hpasses key)
      rw [← CentralInput.inputKeys_of_not_reset hreset, ← filterMap_event, changes,
        ← List.filterMap_append] at hmirrored
      exact hmirrored
  | keepalive now keepalive =>
      obtain ⟨hsound, hreset, hreconciled⟩ := h.sound.reconcile now hopWindowMs hfits
      refine ⟨hsound, fun key hreg => ?_⟩
      have hmirrored := (h.mirrored key hreg).pass (hreconciled.passes key)
      rw [← CentralInput.inputKeys_of_not_reset hreset, ← filterMap_event, changes,
        ← List.filterMap_append] at hmirrored
      exact hmirrored
  | release =>
      refine ⟨⟨h.sound.length, h.sound.nodup, h.sound.seen⟩, fun key hreg => ?_⟩
      have hmirrored := (h.mirrored key hreg).pass (releasePipe_passes h.sound.seen hreg)
      rw [changes, ← List.filterMap_append] at hmirrored
      exact hmirrored

/-- Tracked keys are distinct, a key of a noted register is never pressed twice without a
release, and the next keepalive leaves its held keys tracked by one release or press each. -/
structure KeysExact (heldKeysMax : ℕ) (hopWindowMs : UInt32) (state : InputRun) : Prop where
  distinct : (keys state.input.trackedInputKeys).Nodup
  apart : ∀ key : EsbKeepaliveHeldKey, key.reg.toNat < centralInputRegMax →
    PressedApart (state.changes key)
  reconciled : ∀ now keepalive, (keepaliveHeldKeys keepalive).toFinset.card ≤ heldKeysMax →
    CentralInput.Reconciled (keepaliveHeldKeys keepalive) state.input
      (state.input.reconcile now hopWindowMs keepalive).1
      (state.input.reconcile now hopWindowMs keepalive).2

theorem keysExact_run {heldKeysMax : ℕ} {hopWindowMs : UInt32} {actions : List InputAction}
    (hfits : Along (step hopWindowMs) (Fits heldKeysMax) (boot heldKeysMax) actions) :
    (run (step hopWindowMs) (boot heldKeysMax) actions).KeysExact heldKeysMax hopWindowMs := by
  have hstep : ∀ state action, Inv heldKeysMax state → state.Fits heldKeysMax action →
      Inv heldKeysMax (state.step hopWindowMs action) := fun _ _ hinv hfits => hinv.step hfits
  have hinv := run_invariant_along hstep (Inv.boot heldKeysMax) hfits
  exact ⟨hinv.sound.nodup, fun key hreg => (hinv.mirrored key hreg).apart,
    fun now keepalive hroom => (hinv.sound.reconcile now hopWindowMs hroom).2.2⟩

end InputRun

end SplitEsb
