import SplitEsb.Hop.Peripheral
import SplitEsb.Hop.Lockstep
import SplitEsb.Shared.TornWrite

/-! # A reset while the link state is retained
The record is rewritten in place, store by store, under a magic that stays valid.
What the next boot resumes after a reset between two stores. -/

namespace SplitEsb

open TornWrite

/-- The link state a retained record carries. -/
@[ext] structure RetainedState (config : HopConfig) where
  hopIndex : UInt8
  epoch : UInt8
  mask : HopMask config.hopCount

variable {config : HopConfig}

namespace RetainedState

/-- The bytes in the order they are stored. -/
def fields (link : RetainedState config) : List UInt8 := link.hopIndex :: link.epoch :: link.mask.toList

def checksum (link : RetainedState config) : UInt8 := xorSum link.fields

@[simp] theorem length_fields (link : RetainedState config) :
    link.fields.length = esbHopMaskBytes config.hopCount + 2 := by
  simp [fields]

theorem fields_inj {first second : RetainedState config} :
    first.fields = second.fields ↔ first = second := by
  constructor
  · intro h
    injection h with hindex hrest
    injection hrest with hepoch hmask
    exact RetainedState.ext hindex hepoch (Vector.toList_inj.mp hmask)
  · rintro rfl
    rfl

end RetainedState

namespace HopRetained

def link (retained : HopRetained config) : RetainedState config :=
  ⟨retained.hopIndex, retained.epoch, retained.mask⟩

theorem retainedChecksum_eq (retained : HopRetained config) :
    retainedChecksum retained = retained.link.checksum := by
  rw [retainedChecksum, RetainedState.checksum, RetainedState.fields, xorSum, List.foldl_cons, List.foldl_cons,
    UInt8.zero_xor]
  rfl

/-- What `hop_restore` asks of the record. -/
def Valid (retained : HopRetained config) : Prop :=
  retained.magic = hopRetainedMagic ∧ retained.checksum = retainedChecksum retained ∧
    retained.hopIndex.toNat < config.hopCount

instance (retained : HopRetained config) : Decidable retained.Valid :=
  inferInstanceAs (Decidable (_ ∧ _))

/-! ## The stores -/

/-- The stores of the link state in source order, the mask byte by byte. -/
def fieldStores (link : RetainedState config) : List (HopRetained config → HopRetained config) :=
  (fun retained => { retained with hopIndex := link.hopIndex }) ::
  (fun retained => { retained with epoch := link.epoch }) ::
  (List.finRange (esbHopMaskBytes config.hopCount)).map fun (byte : Fin _) retained =>
    { retained with mask := retained.mask.set byte link.mask[byte] }

/-- The checksum and the magic are stored last. -/
def sealStores : List (HopRetained config → HopRetained config) :=
  [fun retained => { retained with checksum := retainedChecksum retained },
   fun retained => { retained with magic := hopRetainedMagic }]

def retainStores (link : RetainedState config) : List (HopRetained config → HopRetained config) :=
  fieldStores link ++ sealStores

/-- The record at a reset after the first stores. -/
def afterStores (link : RetainedState config) (stores : ℕ) (old : HopRetained config) :
    HopRetained config :=
  ((retainStores link).take stores).foldl (fun retained store => store retained) old

@[simp] theorem length_fieldStores (link : RetainedState config) :
    (fieldStores link).length = esbHopMaskBytes config.hopCount + 2 := by
  simp [fieldStores]

theorem afterStores_succ {link : RetainedState config} {stores : ℕ}
    {store : HopRetained config → HopRetained config}
    (h : (retainStores link)[stores]? = some store) (old : HopRetained config) :
    afterStores link (stores + 1) old = store (afterStores link stores old) := by
  rw [afterStores, List.take_add_one, h, List.foldl_append]
  rfl

/-- A store before the checksum writes its own field and nothing else. -/
theorem store_field (link : RetainedState config) {stores : ℕ} (h : stores < link.fields.length) :
    ∃ store, (retainStores link)[stores]? = some store ∧ ∀ retained,
      (store retained).link.fields = retained.link.fields.set stores (link.fields.get ⟨stores, h⟩) ∧
        (store retained).checksum = retained.checksum ∧
        (store retained).magic = retained.magic := by
  match stores with
  | 0 => exact ⟨_, rfl, fun _ => ⟨rfl, rfl, rfl⟩⟩
  | 1 => exact ⟨_, rfl, fun _ => ⟨rfl, rfl, rfl⟩⟩
  | byte + 2 =>
      have hbyte : byte < esbHopMaskBytes config.hopCount := by simpa using h
      refine ⟨fun retained => { retained with mask := retained.mask.set byte link.mask[byte] },
        ?_, fun retained => ⟨?_, rfl, rfl⟩⟩
      · simp [retainStores, fieldStores, List.getElem?_append_left, hbyte]
      · simp [HopRetained.link, RetainedState.fields, Vector.toList_set]

theorem sealStore_link {store : HopRetained config → HopRetained config}
    (h : store ∈ sealStores) (retained : HopRetained config) :
    (store retained).link = retained.link := by
  rcases List.mem_pair.mp h with rfl | rfl <;> rfl

/-- Up to the checksum the record is the old one with its first fields replaced. -/
theorem afterStores_fields (link : RetainedState config) (old : HopRetained config) {stores : ℕ}
    (h : stores ≤ esbHopMaskBytes config.hopCount + 2) :
    (afterStores link stores old).link.fields = torn stores old.link.fields link.fields ∧
      (afterStores link stores old).checksum = old.checksum ∧
      (afterStores link stores old).magic = old.magic := by
  induction stores with
  | zero => exact ⟨rfl, rfl, rfl⟩
  | succ stores ih =>
      obtain ⟨hfields, hchecksum, hmagic⟩ := ih (by omega)
      have hlt : stores < link.fields.length := by rw [RetainedState.length_fields]; omega
      obtain ⟨store, hget, hstore⟩ := store_field link hlt
      obtain ⟨hafter, hsame, hkept⟩ := hstore (afterStores link stores old)
      rw [afterStores_succ hget, hafter, hsame, hkept, hfields, torn_succ (by simp) hlt]
      exact ⟨rfl, hchecksum, hmagic⟩

/-- From the checksum on the record carries the new link. -/
theorem afterStores_link (link : RetainedState config) (old : HopRetained config) {stores : ℕ}
    (h : esbHopMaskBytes config.hopCount + 2 ≤ stores) :
    (afterStores link stores old).link = link := by
  induction stores, h using Nat.le_induction with
  | base =>
      rw [← RetainedState.fields_inj, (afterStores_fields link old le_rfl).1, torn_eq_new_iff,
        List.drop_eq_nil_of_le (by simp), List.drop_eq_nil_of_le (by simp)]
  | succ stores hle ih =>
      cases hget : (retainStores link)[stores]? with
      | none =>
          have hlen := List.getElem?_eq_none_iff.mp hget
          rw [afterStores, List.take_of_length_le (Nat.le_succ_of_le hlen)]
          rwa [afterStores, List.take_of_length_le hlen] at ih
      | some store =>
          rw [retainStores, List.getElem?_append_right (by rwa [length_fieldStores])] at hget
          rw [afterStores_succ ?_, sealStore_link (List.mem_of_getElem? hget), ih]
          rwa [retainStores, List.getElem?_append_right (by rwa [length_fieldStores])]

end HopRetained

open HopRetained

namespace HopPeripheral

def link (peripheral : HopPeripheral config) : RetainedState config :=
  ⟨UInt8.ofNat peripheral.hopIndex, peripheral.adoptedEpoch, peripheral.activeMask⟩

/-- The link state the next boot resumes from a record, if any. -/
def resumedLink (retained : HopRetained config) : Option (RetainedState config) :=
  if (boot retained).maskReady then some (boot retained).link else none

theorem resumedLink_eq (retained : HopRetained config) :
    resumedLink retained =
      if 1 < config.hopCount ∧ retained.Valid then some retained.link else none := by
  by_cases hcount : 1 < config.hopCount ∧ retained.Valid
  · obtain ⟨hcount, hmagic, hchecksum, hindex⟩ := hcount
    have hboot : boot retained = { (zero retained).ensureMask with
        activeMask := retained.mask
        adoptedEpoch := retained.epoch
        beaconEpoch := retained.epoch
        hopIndex := retained.hopIndex.toNat } := by
      rw [boot, hopRestore, if_neg (by omega), if_neg]
      · rfl
      · simp only [zero, hmagic, hchecksum, ne_eq, not_true_eq_false, false_or]
        omega
    have hvalid : 1 < config.hopCount ∧ retained.Valid := ⟨hcount, hmagic, hchecksum, hindex⟩
    rw [resumedLink, hboot, if_pos hvalid]
    simp [ensureMask, zero, link, HopRetained.link]
  · have hboot : boot retained = zero retained := by
      rw [boot, hopRestore]
      split_ifs with hone hinvalid
      · rfl
      · rfl
      · simp only [zero, not_or, not_not, not_le] at hinvalid
        exact absurd ⟨by omega, hinvalid⟩ hcount
    rw [resumedLink, hboot, if_neg hcount]
    rfl

end HopPeripheral

open HopPeripheral

/-- The reset is seen, or it leaves one of the two links: nothing is resumed from the
new index, or no written field differs, or no field left does, or the written
differences do not cancel in the checksum. -/
def CutSeen (old new : RetainedState config) (stores : ℕ) : Prop :=
  config.hopCount ≤ 1 ∨ config.hopCount ≤ new.hopIndex.toNat ∨
    new.fields.take stores = old.fields.take stores ∨
    old.fields.drop stores = new.fields.drop stores ∨
    xorSum (new.fields.take stores) ≠ xorSum (old.fields.take stores)

instance (old new : RetainedState config) (stores : ℕ) : Decidable (CutSeen old new stores) :=
  inferInstanceAs (Decidable (_ ∨ _))

/-- A reset between two stores leaves no mix of the two links exactly when the
checksum sees it. -/
theorem retained_cut_iff (old : HopRetained config) (new : RetainedState config) (stores : ℕ)
    (hmagic : old.magic = hopRetainedMagic) (hchecksum : old.checksum = retainedChecksum old) :
    resumedLink (afterStores new stores old) ∈ [none, some old.link, some new] ↔
      CutSeen old.link new stores := by
  set cut := afterStores new stores old with hcut
  have hmem : resumedLink cut ∈ [none, some old.link, some new] ↔
      (1 < config.hopCount ∧ cut.Valid → cut.link = old.link ∨ cut.link = new) := by
    rw [resumedLink_eq]
    split_ifs with hvalid <;> simp [hvalid]
  rw [hmem]
  rcases le_total stores (esbHopMaskBytes config.hopCount + 2) with hle | hge
  · obtain ⟨hfields, hsame, hkept⟩ := afterStores_fields new old hle
    have hold : cut.link = old.link ↔ new.fields.take stores = old.link.fields.take stores := by
      rw [← RetainedState.fields_inj, hfields, torn_eq_old_iff]
    have hnew : cut.link = new ↔ old.link.fields.drop stores = new.fields.drop stores := by
      rw [← RetainedState.fields_inj, hfields, torn_eq_new_iff]
    have hsum : cut.checksum = retainedChecksum cut ↔
        xorSum (new.fields.take stores) = xorSum (old.link.fields.take stores) := by
      rw [hsame, hchecksum, retainedChecksum_eq, retainedChecksum_eq, RetainedState.checksum,
        RetainedState.checksum, hfields, eq_comm, xorSum_torn_eq_iff]
    have hindex : cut.link = old.link ∨ cut.hopIndex = new.hopIndex := by
      rcases stores with _ | stores
      · exact Or.inl rfl
      · refine Or.inr ?_
        injection hfields
    rw [CutSeen, ← hold, ← hnew, ne_eq, ← hsum, Valid, hkept]
    grind
  · have hlink : cut.link = new := afterStores_link new old hge
    refine iff_of_true (fun _ => Or.inr hlink) ?_
    refine Or.inr (Or.inr (Or.inr (Or.inl ?_)))
    rw [List.drop_eq_nil_of_le (by simpa using hge), List.drop_eq_nil_of_le (by simpa using hge)]

/-- The first channel on the mask without the second one, retained in a complete write. -/
def restingRetained : HopRetained sampleHopConfig where
  magic := hopRetainedMagic
  hopIndex := 0
  epoch := 0
  mask := #v[0b1101]
  checksum := 0b1101

/-- The next epoch brings the second channel back and moves onto it. -/
def retestedLink : RetainedState sampleHopConfig := ⟨1, 1, #v[0b1111]⟩

theorem retained_cut_iff_sample :
    resumedLink (afterStores retestedLink 1 restingRetained) ∈
        [none, some restingRetained.link, some retestedLink] ↔
      CutSeen restingRetained.link retestedLink 1 :=
  retained_cut_iff restingRetained retestedLink 1 rfl (by decide)

/-- After the index and the epoch the checksum is the old one again, so the boot
resumes the new channel with the old mask. -/
theorem cut_mixes_links : ¬ ∀ (config : HopConfig) (old : HopRetained config)
    (new : RetainedState config) (stores : ℕ), old.magic = hopRetainedMagic →
    old.checksum = retainedChecksum old →
    resumedLink (afterStores new stores old) ∈ [none, some old.link, some new] := by
  intro h
  have hmixed : ¬ resumedLink (afterStores retestedLink 2 restingRetained) ∈
      [none, some restingRetained.link, some retestedLink] := by
    have hvalid : (afterStores retestedLink 2 restingRetained).Valid := by decide
    rw [resumedLink_eq, if_pos ⟨by decide, hvalid⟩]
    simp only [List.mem_cons, List.not_mem_nil, reduceCtorEq, Option.some.injEq, or_false, false_or,
      ← RetainedState.fields_inj]
    decide
  exact hmixed (h sampleHopConfig restingRetained retestedLink 2 rfl (by decide))

end SplitEsb
