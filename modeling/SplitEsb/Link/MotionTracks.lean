import Mathlib.Data.List.Dedup
import Mathlib.Data.List.ProdSigma
import SplitEsb.Peripheral.Motion
import SplitEsb.Shared.Transition

/-! # Tracks for lossy totals
A peripheral has a slot for each lossy pair, the central four tracks for each pipe.
Once more than four axes send totals, a track is missing. -/

namespace SplitEsb

open SlotTable Transition

variable {L : EventLayout}

/-- The code of a lossy pair that is kept as a total. -/
def relativeCode (pair : UInt8 × UInt16) : Option UInt8 :=
  if pair.1 = inputEvRel ∧ pair.2.toNat ≤ 255 then some pair.2.toUInt8 else none

/-- The axes a peripheral with the given input registers can send totals of. -/
def PeripheralConfig.lossyAxes (config : PeripheralConfig L) (regs : List UInt8) :
    List MotionAxis :=
  (regs ×ˢ config.lossyCodes.filterMap relativeCode).dedup

/-- A peripheral that stays up and its pipe on the central. `totalled` and `starved`
only record: the axes of the totals received since the last reset applied, and the
later totals of such an axis that found no track. -/
structure TrackLink (config : PeripheralConfig L) where
  peripheral : Peripheral config
  air : List InputEvent
  input : CentralInput
  totalled : List MotionAxis
  starved : List InputEvent

/-- An input event of the peripheral, an event lost on the way, an event or a keepalive
received, or the staleness tick releasing the pipe. -/
inductive TrackLinkAction where
  | move (event : InputEvent)
  | lose
  | receive (now : UInt32)
  | keepalive (now hopWindowMs : UInt32) (keepalive : ByteString.Bytes)
  | release
  deriving DecidableEq, Repr

/-- The drivers' events, `sync` a truth value, come from the given registers. -/
def TrackLinkAction.On (regs : List UInt8) : TrackLinkAction → Prop
  | .move event => (event.sync = 0 ∨ event.sync = 1) ∧ event.reg ∈ regs
  | _ => True

namespace TrackLink

variable {config : PeripheralConfig L}

def init (config : PeripheralConfig L) (heldKeysMax : ℕ) : TrackLink config where
  peripheral := .init config
  air := []
  input := .init heldKeysMax
  totalled := []
  starved := []

def move (link : TrackLink config) (event : InputEvent) : TrackLink config :=
  let peripheral := link.peripheral.inputNoteEvent event
  let (peripheral, sent) :=
    if config.inputIsLossy event.type event.code then peripheral.motionToTotal event
    else (peripheral, event)
  { link with peripheral := peripheral, air := link.air ++ [sent] }

def axisOf (event : InputEvent) : MotionAxis := (event.reg, event.code.toUInt8)

/-- The totals received since the last reset applied, once a pending one is. -/
def sinceReset (link : TrackLink config) : List MotionAxis :=
  if link.input.inputReset then [] else link.totalled

/-- A later total of its axis, and the table is full. -/
def Starves (link : TrackLink config) (event : InputEvent) : Prop :=
  axisOf event ∈ link.sinceReset ∧ claim (axisOf event) .fresh link.input.motions = none

instance (link : TrackLink config) (event : InputEvent) : Decidable (link.Starves event) :=
  instDecidableAnd

def receive (link : TrackLink config) (now : UInt32) : TrackLink config :=
  match link.air with
  | [] => link
  | event :: air =>
      let link' := { link with air := air, input := (link.input.deliverEvent now event).1 }
      if event.sync &&& esbWireInputTotal = 0 then { link' with totalled := link.sinceReset }
      else
        { link' with
          totalled := axisOf event :: link.sinceReset
          starved := if link.Starves event then link.starved ++ [event] else link.starved }

def step (link : TrackLink config) : TrackLinkAction → TrackLink config
  | .move event => link.move event
  | .lose => { link with air := link.air.tail }
  | .receive now => link.receive now
  | .keepalive now hopWindowMs keepalive =>
      { link with
        input := (link.input.reconcile now hopWindowMs keepalive).1
        totalled := link.sinceReset }
  | .release => { link with input := link.input.releasePipe.1 }

end TrackLink

/-! ## The table of the central -/

namespace CentralInput

theorem motionHealAt_keys (input : CentralInput) (motion : EsbKeepaliveMotionTotal) :
    keys (input.motionHealAt motion).1.trackedMotions = keys input.trackedMotions ∧
      (input.motionHealAt motion).1.trackedMotions.length = input.trackedMotions.length ∧
      (input.motionHealAt motion).1.inputReset = input.inputReset := by
  rw [motionHealAt]
  dsimp only
  split
  · exact ⟨rfl, rfl, rfl⟩
  · exact ⟨keys_store .., length_store .., rfl⟩

theorem motionHeals_keys (input : CentralInput) (totals : List EsbKeepaliveMotionTotal) :
    keys (input.motionHeals totals).1.trackedMotions = keys input.trackedMotions ∧
      (input.motionHeals totals).1.trackedMotions.length = input.trackedMotions.length ∧
      (input.motionHeals totals).1.inputReset = input.inputReset := by
  induction totals generalizing input with
  | nil => exact ⟨rfl, rfl, rfl⟩
  | cons motion totals ih =>
      obtain ⟨hkeys, hlength, hreset⟩ := motionHealAt_keys input motion
      obtain ⟨hkeys', hlength', hreset'⟩ := ih (input.motionHealAt motion).1
      exact ⟨hkeys'.trans hkeys, hlength'.trans hlength, hreset'.trans hreset⟩

theorem healLostMotion_keys (input : CentralInput) (now hopWindowMs : UInt32)
    (keepalive : ByteString.Bytes) :
    keys (input.healLostMotion now hopWindowMs keepalive).1.trackedMotions =
        keys input.trackedMotions ∧
      (input.healLostMotion now hopWindowMs keepalive).1.trackedMotions.length =
        input.trackedMotions.length ∧
      (input.healLostMotion now hopWindowMs keepalive).1.inputReset = input.inputReset := by
  rw [healLostMotion]
  split_ifs
  · rw [healTotals_eq]
    exact motionHeals_keys input _
  · exact ⟨rfl, rfl, rfl⟩

/-- A keepalive heals tracks that exist and claims none. -/
theorem reconcile_keys (input : CentralInput) (now hopWindowMs : UInt32)
    (keepalive : ByteString.Bytes) :
    keys (input.reconcile now hopWindowMs keepalive).1.motions = keys input.motions ∧
      (input.reconcile now hopWindowMs keepalive).1.motions.length = input.motions.length ∧
      (input.reconcile now hopWindowMs keepalive).1.inputReset = false := by
  obtain ⟨hkeeps, -⟩ := pressHeldInputKeys_keepsMotion
    { input.applyInputReset with
      trackedInputKeys :=
        (releaseUnheldInputKeys keepalive input.applyInputReset.trackedInputKeys).1 }
    ((List.range (esbKeepaliveHeldCount keepalive).toNat).map fun index =>
      esbKeepaliveHeldKeyAt keepalive (UInt8.ofNat index))
  set keyed := CentralInput.pressHeldInputKeys _ _ with hkeyed
  obtain ⟨hkeys, hlength, hreset⟩ := healLostMotion_keys keyed.1 now hopWindowMs keepalive
  have hresult : (input.reconcile now hopWindowMs keepalive).1 =
      (keyed.1.healLostMotion now hopWindowMs keepalive).1 := rfl
  have hmotions : keyed.1.trackedMotions = input.motions := hkeeps.trackedMotions
  have happlied : (input.reconcile now hopWindowMs keepalive).1.inputReset = false := by
    rw [hresult, hreset]
    exact hkeeps.inputReset.trans (applyInputReset_inputReset input)
  rw [motions_of_not_reset happlied, hresult, hkeys, hlength, hmotions]
  exact ⟨rfl, rfl, hresult ▸ happlied⟩

/-- A total claims the track of its axis; when the table is full it leaves it alone. -/
theorem deliverEvent_keys (input : CentralInput) (now : UInt32) {event : InputEvent}
    (htype : event.type = inputEvRel) (hsync : event.sync &&& esbWireInputTotal ≠ 0) :
    keys (input.deliverEvent now event).1.motions =
        keys ((claim (event.reg, event.code.toUInt8) .fresh input.motions).getD input.motions) ∧
      (input.deliverEvent now event).1.motions.length = input.motions.length ∧
      (input.deliverEvent now event).1.inputReset = false := by
  obtain ⟨hreset, hmotions⟩ := deliverEvent_prepared input event.reg
  have hkey : event.type ≠ inputEvKey := by
    rw [htype]
    decide
  have hdelivered : (input.deliverEvent now event).1 =
      ((input.applyInputReset.noteInputReg event.reg).motionTotalToDelta now event).1 := by
    simp only [deliverEvent]
    rw [trackKeyEvent_of_type hkey]
    exact congrArg Prod.fst (if_pos hsync)
  have hslots : ∀ tracks, ({ input.applyInputReset.noteInputReg event.reg with
      motionHeardMs := now, trackedMotions := tracks } : CentralInput).motions = tracks :=
    fun _ => motions_of_not_reset hreset
  rw [hdelivered, motionTotalToDelta, hmotions]
  cases hclaim : claim (event.reg, event.code.toUInt8) EsbMotionTrack.fresh input.motions with
  | none =>
      dsimp only
      rw [← hmotions, hslots]
      exact ⟨rfl, rfl, hreset⟩
  | some claimed =>
      dsimp only
      rw [hslots, keys_store, length_store, length_claim hclaim]
      exact ⟨rfl, rfl, hreset⟩

/-- A pending reset empties the table. -/
theorem releasePipe_keys (input : CentralInput) :
    keys input.releasePipe.1.motions = [] ∧
      input.releasePipe.1.motions.length = input.motions.length := by
  have hempty : input.releasePipe.1.motions =
      List.replicate input.trackedMotions.length none := rfl
  rw [hempty, List.length_replicate, keys_replicate_none, motions, applyInputReset]
  refine ⟨rfl, ?_⟩
  split_ifs
  · exact List.length_replicate.symm
  · rfl

end CentralInput

/-! ## The slots of the peripheral -/

/-- A scan of a table whose claimed slots come first finds the slot a claim finds. -/
theorem motionSlotFor_claim {axis : MotionAxis} {slots : Slots MotionAxis Int32}
    (packed : Packed slots) :
    motionSlotFor axis slots =
      (claim axis 0 slots).map fun claimed => (claimed, (lookup axis slots).getD 0) := by
  cases hclaim : claim axis 0 slots with
  | some claimed => exact (motionSlotFor_eq packed hclaim).1
  | none =>
      clear packed
      induction slots with
      | nil => rfl
      | cons slot slots ih =>
          cases slot with
          | none =>
              rw [claim] at hclaim
              split_ifs at hclaim
              cases hclaim
          | some entry =>
              obtain ⟨claimed, total⟩ := entry
              by_cases haxis : claimed = axis
              · rw [claim, lookup, if_pos haxis] at hclaim
                cases hclaim
              · rw [claim_cons_ne haxis, Option.map_eq_none_iff] at hclaim
                rw [motionSlotFor, if_neg haxis, ih hclaim]
                rfl

theorem mem_lossyAxes {config : PeripheralConfig L} {regs : List UInt8} {axis : MotionAxis} :
    axis ∈ config.lossyAxes regs ↔
      axis.1 ∈ regs ∧ config.inputIsLossy inputEvRel axis.2.toUInt16 = true := by
  rw [PeripheralConfig.lossyAxes, List.mem_dedup, List.mem_product, List.mem_filterMap]
  refine and_congr Iff.rfl ?_
  rw [PeripheralConfig.inputIsLossy, List.any_eq_true]
  refine exists_congr fun pair => and_congr Iff.rfl ?_
  rw [relativeCode, Bool.and_eq_true, decide_eq_true_iff, decide_eq_true_iff]
  constructor
  · intro h
    split_ifs at h with hpair
    refine ⟨hpair.1, UInt16.toNat_inj.mp ?_⟩
    rw [← Option.some.inj h, UInt8.toNat_toUInt16, UInt16.toNat_toUInt8]
    exact (Nat.mod_eq_of_lt (Nat.lt_succ_of_le hpair.2)).symm
  · rintro ⟨htype, hcode⟩
    have hle : pair.2.toNat ≤ 255 := by
      rw [hcode, UInt8.toNat_toUInt16]
      exact Nat.le_of_lt_succ axis.2.toNat_lt
    rw [if_pos ⟨htype, hle⟩, hcode, UInt8.toUInt8_toUInt16]

/-- An increment stays as it is or becomes the flagged total of the slot it claims. -/
theorem motionToTotal_cases {config : PeripheralConfig L} {peripheral : Peripheral config}
    (packed : Packed peripheral.motionSlots) (event : InputEvent) :
    peripheral.motionToTotal event = (peripheral, event) ∨
      event.type = inputEvRel ∧ event.code.toNat ≤ 255 ∧
        ∃ claimed total, claim (TrackLink.axisOf event) 0 peripheral.motionSlots = some claimed ∧
          Packed claimed ∧
          (peripheral.motionToTotal event).1.motionSlots =
            store (TrackLink.axisOf event) total claimed ∧
          (peripheral.motionToTotal event).2 =
            { event with value := total, sync := event.sync ||| esbWireInputTotal } := by
  rw [Peripheral.motionToTotal]
  split_ifs with hskip
  · exact .inl rfl
  · rw [not_or, not_not, Nat.not_lt] at hskip
    dsimp only
    split
    · exact .inl rfl
    · rename_i claimed last hfound
      rw [motionSlotFor_claim packed] at hfound
      obtain ⟨found, hclaim, hfound⟩ := Option.map_eq_some_iff.mp hfound
      cases hfound
      exact .inr ⟨hskip.1, hskip.2, claimed, _, hclaim, (motionSlotFor_eq packed hclaim).2, rfl, rfl⟩

theorem inputNoteEvent_motionSlots {config : PeripheralConfig L} (peripheral : Peripheral config)
    (event : InputEvent) :
    (peripheral.inputNoteEvent event).motionSlots = peripheral.motionSlots := by
  rw [Peripheral.inputNoteEvent]
  dsimp only
  split_ifs <;> rfl

/-! ## Enough tracks -/

/-- Every total on the air belongs to a claimed slot, every track to one of them. -/
structure TracksInv {config : PeripheralConfig L} (axes : List MotionAxis)
    (link : TrackLink config) : Prop where
  packed : Packed link.peripheral.motionSlots
  nodup : (keys link.peripheral.motionSlots).Nodup
  subset : ∀ axis ∈ keys link.peripheral.motionSlots, axis ∈ axes
  air : ∀ event ∈ link.air, event.sync &&& esbWireInputTotal ≠ 0 →
    event.type = inputEvRel ∧ TrackLink.axisOf event ∈ keys link.peripheral.motionSlots
  distinct : (keys link.input.motions).Nodup
  tracked : ∀ axis ∈ keys link.input.motions, axis ∈ keys link.peripheral.motionSlots
  length : link.input.motions.length = motionTracksMax
  starved : link.starved = []

namespace TracksInv

variable {config : PeripheralConfig L} {regs : List UInt8} {link : TrackLink config}

theorem init (config : PeripheralConfig L) (axes : List MotionAxis) (heldKeysMax : ℕ) :
    TracksInv axes (TrackLink.init config heldKeysMax) where
  packed := packed_replicate_none _
  nodup := by simp [TrackLink.init, Peripheral.init]
  subset := by simp [TrackLink.init, Peripheral.init]
  air := nofun
  distinct := by
    rw [TrackLink.init, CentralInput.motions_of_not_reset rfl]
    simp [CentralInput.init]
  tracked := by
    rw [TrackLink.init, CentralInput.motions_of_not_reset rfl]
    simp [CentralInput.init]
  length := by
    rw [TrackLink.init, CentralInput.motions_of_not_reset rfl]
    exact List.length_replicate
  starved := rfl

/-- The totals sent are of no more axes than there are slots, lossy axes or tracks. -/
theorem room {axes : List MotionAxis} (h : TracksInv axes link)
    (hfit : min config.motionSlotCount axes.length ≤ motionTracksMax) :
    (keys link.peripheral.motionSlots).length ≤ motionTracksMax := by
  have hslots := length_keys_le link.peripheral.motionSlots
  rw [link.peripheral.motionSlots_length] at hslots
  have haxes := (h.nodup.subperm h.subset).length_le
  exact (le_min hslots haxes).trans hfit

theorem move (h : TracksInv (config.lossyAxes regs) link) {event : InputEvent}
    (hsync : event.sync = 0 ∨ event.sync = 1) (hreg : event.reg ∈ regs) :
    TracksInv (config.lossyAxes regs) (link.move event) := by
  have hkeep : (link.peripheral.inputNoteEvent event).motionSlots = link.peripheral.motionSlots :=
    inputNoteEvent_motionSlots link.peripheral event
  have hplain : event.sync &&& esbWireInputTotal = 0 := by
    rcases hsync with hsync | hsync <;> rw [hsync] <;> rfl
  -- an event that goes out as it is carries no total
  have hunchanged : ∀ peripheral : Peripheral config,
      peripheral.motionSlots = link.peripheral.motionSlots →
      TracksInv (config.lossyAxes regs)
        { link with peripheral := peripheral, air := link.air ++ [event] } := by
    intro peripheral hslots
    refine ⟨?_, ?_, ?_, fun sent hsent htotal => ?_, h.distinct, ?_, h.length, h.starved⟩
    · exact hslots ▸ h.packed
    · exact hslots ▸ h.nodup
    · exact hslots ▸ h.subset
    · rcases List.mem_append.mp hsent with hsent | hsent
      · exact hslots ▸ h.air sent hsent htotal
      · rw [List.mem_singleton.mp hsent] at htotal
        exact absurd hplain htotal
    · exact hslots ▸ h.tracked
  rw [TrackLink.move]
  dsimp only
  split_ifs with hlossy
  · have hpacked : Packed (link.peripheral.inputNoteEvent event).motionSlots := hkeep ▸ h.packed
    rcases motionToTotal_cases hpacked event with
      hskip | ⟨htype, hcode, claimed, total, hclaim, hpacked', hslots, hsent⟩
    · rw [hskip]
      exact hunchanged _ hkeep
    · rw [hkeep] at hclaim
      have hkeys : keys ((link.peripheral.inputNoteEvent event).motionToTotal event).1.motionSlots =
          keys claimed := by rw [hslots, keys_store]
      have hgrow : ∀ axis ∈ keys link.peripheral.motionSlots,
          axis ∈ keys ((link.peripheral.inputNoteEvent event).motionToTotal event).1.motionSlots :=
        fun axis haxis => hkeys ▸ (mem_keys_claim hclaim axis).mpr (.inr haxis)
      refine ⟨?_, hkeys ▸ nodup_keys_claim hclaim h.nodup, fun axis haxis => ?_,
        fun sent hmem htotal => ?_, h.distinct, fun axis haxis => hgrow axis (h.tracked axis haxis),
        h.length, h.starved⟩
      · dsimp only
        rw [hslots]
        exact hpacked'.store _ _
      · rcases (mem_keys_claim hclaim axis).mp (hkeys ▸ haxis) with rfl | hold
        · have hcode16 : event.code.toUInt8.toUInt16 = event.code := by
            refine UInt16.toNat_inj.mp ?_
            rw [UInt8.toNat_toUInt16, UInt16.toNat_toUInt8]
            exact Nat.mod_eq_of_lt (Nat.lt_succ_of_le hcode)
          refine mem_lossyAxes.mpr ⟨hreg, ?_⟩
          rw [TrackLink.axisOf, hcode16, ← htype]
          exact hlossy
        · exact h.subset axis hold
      · rcases List.mem_append.mp hmem with hmem | hmem
        · exact (h.air sent hmem htotal).imp_right (hgrow _)
        · rw [List.mem_singleton.mp hmem, hsent]
          exact ⟨htype, hkeys ▸ (mem_keys_claim hclaim _).mpr (.inl rfl)⟩
  · exact hunchanged _ hkeep

theorem receive {axes : List MotionAxis} (h : TracksInv axes link)
    (hfit : min config.motionSlotCount axes.length ≤ motionTracksMax) (now : UInt32) :
    TracksInv axes (link.receive now) := by
  rw [TrackLink.receive]
  cases hair : link.air with
  | nil => exact h
  | cons event air =>
      have hrest : ∀ sent ∈ air, sent.sync &&& esbWireInputTotal ≠ 0 → sent.type = inputEvRel ∧
          TrackLink.axisOf sent ∈ keys link.peripheral.motionSlots :=
        fun sent hsent => h.air sent (hair ▸ List.mem_cons_of_mem _ hsent)
      dsimp only
      split_ifs with hplain hstarves
      · obtain ⟨hmotions, -⟩ := CentralInput.deliverEvent_plain link.input now hplain
        refine ⟨h.packed, h.nodup, h.subset, hrest, ?_, ?_, ?_, h.starved⟩ <;> dsimp only <;>
          rw [hmotions]
        · exact h.distinct
        · exact h.tracked
        · exact h.length
      all_goals
        obtain ⟨htype, haxis⟩ := h.air event (hair ▸ List.mem_cons_self) hplain
        have hfree : TrackLink.axisOf event ∉ keys link.input.motions →
            (keys link.input.motions).length < link.input.motions.length := by
          intro hnew
          rw [h.length]
          refine lt_of_lt_of_le ?_ (h.room hfit)
          refine ((List.nodup_cons.mpr ⟨hnew, h.distinct⟩).subperm fun axis hmem => ?_).length_le
          rcases List.mem_cons.mp hmem with rfl | hold
          · exact haxis
          · exact h.tracked axis hold
        obtain ⟨claimed, hclaim⟩ := exists_claim hfree EsbMotionTrack.fresh
      · rw [TrackLink.Starves, hclaim] at hstarves
        cases hstarves.2
      · obtain ⟨hkeys, hlength, -⟩ := CentralInput.deliverEvent_keys link.input now htype hplain
        rw [show claim (event.reg, event.code.toUInt8) EsbMotionTrack.fresh link.input.motions = _
          from hclaim] at hkeys
        refine ⟨h.packed, h.nodup, h.subset, hrest, ?_, fun axis hmem => ?_, hlength.trans h.length,
          h.starved⟩
        · exact hkeys ▸ nodup_keys_claim hclaim h.distinct
        · rcases (mem_keys_claim hclaim axis).mp (hkeys ▸ hmem) with rfl | hold
          · exact haxis
          · exact h.tracked axis hold

theorem step (h : TracksInv (config.lossyAxes regs) link)
    (hfit : min config.motionSlotCount (config.lossyAxes regs).length ≤ motionTracksMax)
    {action : TrackLinkAction} (hon : action.On regs) :
    TracksInv (config.lossyAxes regs) (link.step action) := by
  cases action with
  | move event => exact h.move hon.1 hon.2
  | lose =>
      exact ⟨h.packed, h.nodup, h.subset, fun event hevent => h.air event (List.mem_of_mem_tail hevent),
        h.distinct, h.tracked, h.length, h.starved⟩
  | receive now => exact h.receive hfit now
  | keepalive now hopWindowMs keepalive =>
      obtain ⟨hkeys, hlength, -⟩ :=
        CentralInput.reconcile_keys link.input now hopWindowMs keepalive
      refine ⟨h.packed, h.nodup, h.subset, h.air, ?_, ?_, hlength.trans h.length, h.starved⟩
      · exact hkeys ▸ h.distinct
      · exact hkeys ▸ h.tracked
  | release =>
      obtain ⟨hkeys, hlength⟩ := CentralInput.releasePipe_keys link.input
      refine ⟨h.packed, h.nodup, h.subset, h.air, ?_, ?_, hlength.trans h.length, h.starved⟩
      · exact hkeys ▸ List.nodup_nil
      · exact hkeys ▸ nofun

end TracksInv

/-! ## Too few tracks -/

/-- A step along an axis that is sent and received. -/
def moveAxis (axis : MotionAxis) : List TrackLinkAction :=
  [.move ⟨axis.1, 0, inputEvRel, axis.2.toUInt16, 1⟩, .receive 0]

/-- Everything sent has been received, and the slots of the peripheral fit the axes. -/
structure Arrived {config : PeripheralConfig L} (axes : List MotionAxis)
    (link : TrackLink config) : Prop where
  totals : ∃ truth, MotionTotals axes link.peripheral.motionSlots truth
  air : link.air = []
  applied : link.input.inputReset = false
  length : link.input.motions.length = motionTracksMax

namespace Arrived

variable {config : PeripheralConfig L} {axes : List MotionAxis} {link : TrackLink config}

theorem init (config : PeripheralConfig L) (heldKeysMax : ℕ)
    (hroom : axes.length ≤ config.motionSlotCount) :
    Arrived axes (TrackLink.init config heldKeysMax) where
  totals := ⟨_, motionTotals_init hroom⟩
  air := rfl
  applied := rfl
  length := List.length_replicate

/-- The total of an axis arrives; unless it starves, the tracks grow to its own. -/
theorem moveAxis (h : Arrived axes link) {axis : MotionAxis} (haxis : axis ∈ axes)
    (hlossy : config.inputIsLossy inputEvRel axis.2.toUInt16 = true) :
    let link' := run TrackLink.step link (SplitEsb.moveAxis axis)
    Arrived axes link' ∧ axis ∈ link'.totalled ∧
      (link'.starved = [] → link.starved = [] ∧
        (∀ other ∈ keys link.input.motions, other ∈ keys link'.input.motions) ∧
        (axis ∈ link.totalled → axis ∈ keys link'.input.motions)) := by
  intro link'
  obtain ⟨truth, htotals⟩ := h.totals
  let event : InputEvent := ⟨axis.1, 0, inputEvRel, axis.2.toUInt16, 1⟩
  have haxisOf : (event.reg, event.code.toUInt8) = axis :=
    Prod.ext rfl (UInt8.toUInt8_toUInt16 axis.2)
  have hcode : event.code.toNat ≤ 255 := by
    rw [UInt8.toNat_toUInt16]
    exact Nat.le_of_lt_succ axis.2.toNat_lt
  have hslots := inputNoteEvent_motionSlots link.peripheral event
  obtain ⟨htotals', -, hsent⟩ := @motionToTotal_totals L config axes truth
    (link.peripheral.inputNoteEvent event) (hslots ▸ htotals) event rfl hcode (haxisOf ▸ haxis)
  set moved := (link.peripheral.inputNoteEvent event).motionToTotal event with hmoved
  have hsync : moved.2.sync &&& esbWireInputTotal ≠ 0 := by
    rw [hsent]
    change (0 ||| esbWireInputTotal) &&& esbWireInputTotal ≠ 0
    decide
  have htype : moved.2.type = inputEvRel := by rw [hsent]
  have hself : TrackLink.axisOf moved.2 = axis := by
    rw [hsent]
    exact haxisOf
  have hsince : link.sinceReset = link.totalled := by
    rw [TrackLink.sinceReset, h.applied]
    rfl
  have hair : (link.move event).air = [moved.2] := by
    rw [TrackLink.move, hlossy]
    dsimp only
    rw [h.air]
    rfl
  have hperipheral : (link.move event).peripheral = moved.1 := by
    rw [TrackLink.move, hlossy]
    rfl
  have hreceived : link' = { link.move event with
      air := []
      input := (link.input.deliverEvent 0 moved.2).1
      totalled := axis :: link.totalled
      starved := if link.Starves moved.2 then link.starved ++ [moved.2] else link.starved } := by
    change (link.move event).receive 0 = _
    rw [TrackLink.receive, hair]
    dsimp only
    rw [if_neg hsync, hself, ← hsince]
    rfl
  obtain ⟨hkeys, hlength, hreset⟩ := CentralInput.deliverEvent_keys link.input 0 htype hsync
  rw [show (moved.2.reg, moved.2.code.toUInt8) = axis from hself] at hkeys
  rw [hreceived]
  refine ⟨⟨⟨_, hperipheral ▸ htotals'⟩, rfl, hreset, hlength.trans h.length⟩,
    List.mem_cons_self, fun hfed => ?_⟩
  dsimp only at hfed ⊢
  split_ifs at hfed with hstarves
  · simp at hfed
  · refine ⟨hfed, fun other hother => ?_, fun htotalled => ?_⟩
    · rw [hkeys]
      cases hclaim : claim axis EsbMotionTrack.fresh link.input.motions with
      | none => exact hother
      | some claimed => exact (mem_keys_claim hclaim other).mpr (.inr hother)
    · rw [hkeys]
      cases hclaim : claim axis EsbMotionTrack.fresh link.input.motions with
      | none =>
          refine absurd ⟨?_, ?_⟩ hstarves
          · rw [hself, hsince]
            exact htotalled
          · rw [hself]
            exact hclaim
      | some claimed => exact (mem_keys_claim hclaim axis).mpr (.inl rfl)

/-- Two totals of each axis leave a track for each, unless one starves. -/
theorem moveAxes (h : Arrived axes link) {moves : List MotionAxis} (hmoves : ∀ axis ∈ moves, axis ∈ axes)
    (hlossy : ∀ axis ∈ axes, config.inputIsLossy inputEvRel axis.2.toUInt16 = true) :
    let link' := run TrackLink.step link
      (moves.flatMap fun axis => SplitEsb.moveAxis axis ++ SplitEsb.moveAxis axis)
    Arrived axes link' ∧ (link'.starved = [] → link.starved = [] ∧
      (∀ other ∈ keys link.input.motions, other ∈ keys link'.input.motions) ∧
      ∀ axis ∈ moves, axis ∈ keys link'.input.motions) := by
  induction moves generalizing link with
  | nil => exact ⟨h, fun hfed => ⟨hfed, fun _ hother => hother, nofun⟩⟩
  | cons axis moves ih =>
      have haxis := hmoves axis List.mem_cons_self
      obtain ⟨hfirst, htotalled, hfed₁⟩ := h.moveAxis haxis (hlossy axis haxis)
      obtain ⟨hsecond, -, hfed₂⟩ := hfirst.moveAxis haxis (hlossy axis haxis)
      obtain ⟨hrest, hfed₃⟩ := ih hsecond fun other hother =>
        hmoves other (List.mem_cons_of_mem _ hother)
      rw [List.flatMap_cons, List.append_assoc, run_append, run_append]
      refine ⟨hrest, fun hfed => ?_⟩
      obtain ⟨hfed, hkeep₃, hheld⟩ := hfed₃ hfed
      obtain ⟨hfed, hkeep₂, hself⟩ := hfed₂ hfed
      obtain ⟨hfed, hkeep₁, -⟩ := hfed₁ hfed
      refine ⟨hfed, fun other hother => hkeep₃ _ (hkeep₂ _ (hkeep₁ _ hother)), ?_⟩
      rintro other hother
      rcases List.mem_cons.mp hother with rfl | hother
      · exact hkeep₃ _ (hself htotalled)
      · exact hheld other hother

end Arrived

theorem moveAxis_on {regs : List UInt8} {axis : MotionAxis} (haxis : axis.1 ∈ regs) :
    ∀ action ∈ moveAxis axis, action.On regs := by
  intro action haction
  rcases List.mem_cons.mp haction with rfl | haction
  · exact ⟨.inl rfl, haxis⟩
  · rw [List.mem_singleton.mp haction]
    trivial

/-- Every later total finds its track in every run iff the axes that can claim a slot
of the peripheral are no more than the tracks. -/
theorem lossy_totals_tracked_iff (L : EventLayout) (config : PeripheralConfig L)
    (regs : List UInt8) (heldKeysMax : ℕ) :
    (∀ actions : List TrackLinkAction, (∀ action ∈ actions, action.On regs) →
      (run TrackLink.step (TrackLink.init config heldKeysMax) actions).starved = []) ↔
      min config.motionSlotCount (config.lossyAxes regs).length ≤ motionTracksMax := by
  constructor
  · intro h
    by_contra hmany
    obtain ⟨hslots, haxes⟩ := lt_min_iff.mp (Nat.lt_of_not_le hmany)
    set axes := (config.lossyAxes regs).take (motionTracksMax + 1) with haxesEq
    have hcount : axes.length = motionTracksMax + 1 :=
      List.length_take.trans (Nat.min_eq_left haxes)
    have hlossy : ∀ axis ∈ axes, axis.1 ∈ regs ∧
        config.inputIsLossy inputEvRel axis.2.toUInt16 = true :=
      fun axis haxis => mem_lossyAxes.mp (List.mem_of_mem_take haxis)
    have hnodup : axes.Nodup := (List.nodup_dedup _).sublist (List.take_sublist ..)
    have harrived := Arrived.init config heldKeysMax (hcount.trans_le hslots)
    obtain ⟨hend, hfed⟩ := harrived.moveAxes (fun axis (hmem : axis ∈ axes) => hmem)
      fun axis haxis => (hlossy axis haxis).2
    obtain ⟨-, -, hheld⟩ := hfed (h _ fun action haction => by
      obtain ⟨axis, haxis, haction⟩ := List.mem_flatMap.mp haction
      exact moveAxis_on (hlossy axis haxis).1 action ((List.mem_append.mp haction).elim id id))
    have hle := (hnodup.subperm hheld).length_le
    have hroom := length_keys_le (run TrackLink.step (TrackLink.init config heldKeysMax)
      (axes.flatMap fun axis => moveAxis axis ++ moveAxis axis)).input.motions
    rw [hend.length] at hroom
    rw [hcount] at hle
    exact absurd (hle.trans hroom) (Nat.not_succ_le_self _)
  · intro hfit actions hon
    have hinv := @run_invariant_forall _ _ (@TrackLink.step L config)
      (TracksInv (config.lossyAxes regs)) (TrackLinkAction.On regs)
      (fun _ _ inv hok => inv.step hfit hok) _ (TracksInv.init config _ heldKeysMax) actions hon
    exact hinv.starved

/-- Five lossy relative axes. -/
def fiveAxesConfig : PeripheralConfig zmkLayout :=
  { samplePeripheralConfig with
    lossyCodes := [(2, 0), (2, 1), (2, 2), (2, 6), (2, 8)], keepalive_fits := by decide }

/-- The fifth axis a device moves never moves on the central. -/
theorem fifth_axis_starves : ¬ ∀ (config : PeripheralConfig zmkLayout) (regs : List UInt8)
    (heldKeysMax : ℕ) (actions : List TrackLinkAction), (∀ action ∈ actions, action.On regs) →
      (run TrackLink.step (TrackLink.init config heldKeysMax) actions).starved = [] := by
  intro h
  have hrun := h fiveAxesConfig [0] 4
    ([(0, 0), (0, 1), (0, 2), (0, 6), (0, 8), (0, 8)].flatMap moveAxis) fun action haction => by
      obtain ⟨axis, haxis, haction⟩ := List.mem_flatMap.mp haction
      refine moveAxis_on ?_ action haction
      simp only [List.mem_cons, List.not_mem_nil, or_false] at haxis
      rcases haxis with rfl | rfl | rfl | rfl | rfl | rfl <;> exact List.mem_singleton_self _
  exact absurd hrun (by decide +kernel)

end SplitEsb
