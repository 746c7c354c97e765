import SplitEsb.Link.InputKeys
import SplitEsb.Shared.CellScan

/-! # The held keys as words
The input thread keeps the held keys in a table of words. The keepalive reads it word by
word and without a lock while keys go on being pressed and released. -/

namespace SplitEsb

open CellScan SlotTable Transition

/-! ## Entries -/

def heldEntryValid : UInt32 := 0x1000000
def heldEntryRegShift : UInt32 := 16

def heldEntryPack (reg : UInt8) (code : UInt16) : UInt32 :=
  heldEntryValid ||| reg.toUInt32 <<< heldEntryRegShift ||| code.toUInt32

def heldEntryUnpack (entry : UInt32) : EsbKeepaliveHeldKey where
  reg := (entry >>> heldEntryRegShift).toUInt8
  code := entry.toUInt16

theorem heldEntryPack_ne_zero (reg : UInt8) (code : UInt16) : heldEntryPack reg code ≠ 0 := by
  rw [heldEntryPack, Ne, UInt32.or_eq_zero_iff, UInt32.or_eq_zero_iff]
  rintro ⟨⟨hvalid, -⟩, -⟩
  cases hvalid

@[simp] theorem heldEntryUnpack_pack (reg : UInt8) (code : UInt16) :
    heldEntryUnpack (heldEntryPack reg code) = ⟨reg, code⟩ := by
  have hvalid : ∀ i : Fin 8, (16777216#32)[16 + i.val] = false := by decide
  have hreg : (heldEntryPack reg code >>> heldEntryRegShift).toUInt8 = reg := by
    refine UInt8.toBitVec_inj.mp (BitVec.eq_of_getLsbD_eq fun i hi => ?_)
    have hshift : 16 + i < 32 ∧ i < 32 := by omega
    simp [heldEntryPack, heldEntryValid, heldEntryRegShift, hi, hvalid ⟨i, hi⟩, hshift]
  have hcode : (heldEntryPack reg code).toUInt16 = code := by
    refine UInt16.toBitVec_inj.mp (BitVec.eq_of_getLsbD_eq fun i hi => ?_)
    simp [heldEntryPack, heldEntryValid, heldEntryRegShift, hi]
  rw [heldEntryUnpack, hreg, hcode]

/-- The word of a slot of the table. -/
def heldEntryWord : Option (EsbKeepaliveHeldKey × Unit) → UInt32
  | none => 0
  | some (key, _) => heldEntryPack key.reg key.code

theorem heldEntryPack_inj {key other : EsbKeepaliveHeldKey}
    (h : heldEntryPack key.reg key.code = heldEntryPack other.reg other.code) : key = other := by
  have hunpack := congrArg heldEntryUnpack h
  rwa [heldEntryUnpack_pack, heldEntryUnpack_pack] at hunpack

/-- A word tells which slot it is of, the free one included. -/
theorem heldEntryWord_injective : Function.Injective heldEntryWord := by
  intro slot other h
  cases slot with
  | none =>
      cases other with
      | none => rfl
      | some entry => exact absurd h.symm (heldEntryPack_ne_zero _ _)
  | some entry =>
      cases other with
      | none => exact absurd h (heldEntryPack_ne_zero _ _)
      | some entry' => exact congrArg some (Prod.ext (heldEntryPack_inj h) rfl)

/-! ## Notes in the table -/

namespace HeldKeyWords

def heldEntryAdd (words : List UInt32) (entry : UInt32) : List UInt32 := occupy 0 words entry

def heldEntryRemove (words : List UInt32) (entry : UInt32) : List UInt32 := vacate 0 words entry

/-- The writer is one thread and stores at most once, so the note is one step of the table. -/
def inputNoteEvent (words : List UInt32) (event : InputEvent) : List UInt32 :=
  if event.type ≠ inputEvKey then words
  else
    let entry := heldEntryPack event.reg event.code
    if event.value ≠ 0 then heldEntryAdd words entry else heldEntryRemove words entry

theorem single_inputNoteEvent {words : List UInt32} (h : Single 0 words) (event : InputEvent) :
    Single 0 (inputNoteEvent words event) ∧ Kept 0 words (inputNoteEvent words event) := by
  rw [inputNoteEvent]
  split_ifs
  · exact ⟨h, .refl⟩
  · exact h.occupy _
  · exact h.vacate _

/-! ## The words of the slots -/

theorem word_mem_iff (key : EsbKeepaliveHeldKey) (slots : Slots EsbKeepaliveHeldKey Unit) :
    heldEntryPack key.reg key.code ∈ slots.map heldEntryWord ↔ key ∈ keys slots := by
  induction slots with
  | nil => simp [keys]
  | cons slot slots ih =>
      rw [List.map_cons, List.mem_cons, ih]
      cases slot with
      | none =>
          rw [keys, heldEntryWord]
          exact or_iff_right (heldEntryPack_ne_zero _ _)
      | some entry =>
          rw [keys, heldEntryWord, List.mem_cons]
          exact or_congr_left ⟨heldEntryPack_inj, fun h => by rw [h]⟩

theorem heldEntryAdd_words (key : EsbKeepaliveHeldKey) (slots : Slots EsbKeepaliveHeldKey Unit) :
    heldEntryAdd (slots.map heldEntryWord) (heldEntryPack key.reg key.code) =
      (SplitEsb.heldEntryAdd slots key).map heldEntryWord := by
  have hfree : (slots.map heldEntryWord).replace 0 (heldEntryPack key.reg key.code) =
      ((insertFree key () slots).getD slots).map heldEntryWord := by
    induction slots with
    | nil => rfl
    | cons slot slots ih =>
        cases slot with
        | none => exact List.replace_cons_self
        | some entry =>
            have hne : ((0 : UInt32) == heldEntryPack entry.1.reg entry.1.code) = false :=
              beq_false_of_ne (heldEntryPack_ne_zero _ _).symm
            rw [List.map_cons, heldEntryWord, List.replace_cons, hne, ih, insertFree]
            cases insertFree key () slots <;> rfl
  rw [heldEntryAdd, occupy, SplitEsb.heldEntryAdd, hfree]
  simp only [word_mem_iff, lookup_isSome_iff]
  split_ifs <;> rfl

theorem heldEntryRemove_words (key : EsbKeepaliveHeldKey)
    (slots : Slots EsbKeepaliveHeldKey Unit) :
    heldEntryRemove (slots.map heldEntryWord) (heldEntryPack key.reg key.code) =
      (release key slots).map heldEntryWord := by
  rw [heldEntryRemove, vacate]
  induction slots with
  | nil => rfl
  | cons slot slots ih =>
      cases slot with
      | none =>
          have hne : (heldEntryPack key.reg key.code == 0) = false :=
            beq_false_of_ne (heldEntryPack_ne_zero _ _)
          rw [List.map_cons, heldEntryWord, List.replace_cons, hne, ih]
          rfl
      | some entry =>
          rw [List.map_cons, heldEntryWord, release]
          by_cases hkey : entry.1 = key
          · rw [hkey, if_pos rfl]
            exact List.replace_cons_self
          · have hne : (heldEntryPack key.reg key.code ==
                heldEntryPack entry.1.reg entry.1.code) = false :=
              beq_false_of_ne fun h => hkey (heldEntryPack_inj h).symm
            rw [List.replace_cons, hne, if_neg hkey, ih]
            rfl

variable {L : EventLayout} {config : PeripheralConfig L}

theorem inputNoteEvent_words (peripheral : Peripheral config) (event : InputEvent) :
    inputNoteEvent (peripheral.heldInputKeys.map heldEntryWord) event =
      (peripheral.inputNoteEvent event).heldInputKeys.map heldEntryWord := by
  rw [inputNoteEvent, Peripheral.inputNoteEvent]
  dsimp only
  split_ifs
  · rfl
  · exact heldEntryAdd_words ⟨event.reg, event.code⟩ _
  · exact heldEntryRemove_words ⟨event.reg, event.code⟩ _

end HeldKeyWords

/-! ## The keepalive's scan -/

/-- A call of `peripheral_input_held_keys`, from the events noted before it to those noted
when it returned. -/
structure HeldKeysCall where
  since : ℕ
  upto : ℕ
  keys : List EsbKeepaliveHeldKey

/-- The table, the events noted in it, the call that reads it with the words read so far,
and the calls that returned. -/
structure HeldKeyTable where
  words : List UInt32
  noted : List InputEvent
  scan : Option (ℕ × List (ℕ × UInt32))
  returned : List HeldKeysCall

/-- The input thread notes an event; the keepalive tick calls for the held keys, and reads
the next word or returns. -/
inductive HeldKeyAction where
  | noteEvent (event : InputEvent)
  | heldKeys
  | advance

namespace HeldKeyTable

def boot (heldKeysMax : ℕ) : HeldKeyTable := ⟨List.replicate heldKeysMax 0, [], none, []⟩

/-- The keys of the words read, in the order of the table. -/
def listed (reads : List (ℕ × UInt32)) : List EsbKeepaliveHeldKey :=
  ((reads.map Prod.snd).filter (· ≠ 0)).map heldEntryUnpack

def step (table : HeldKeyTable) : HeldKeyAction → HeldKeyTable
  | .noteEvent event =>
      { table with
        words := HeldKeyWords.inputNoteEvent table.words event
        noted := table.noted ++ [event] }
  | .heldKeys =>
      match table.scan with
      | some _ => table
      | none => { table with scan := some (table.noted.length, []) }
  | .advance =>
      match table.scan with
      | none => table
      | some (since, reads) =>
          match table.words[reads.length]? with
          | some word =>
              { table with scan := some (since, reads ++ [(table.noted.length, word)]) }
          | none =>
              { table with
                scan := none
                returned := table.returned ++ [⟨since, table.noted.length, listed reads⟩] }

/-! ## Invariant -/

/-- The table after the first events noted. -/
def wordsAt (heldKeysMax : ℕ) (noted : List InputEvent) (n : ℕ) : List UInt32 :=
  run HeldKeyWords.inputNoteEvent (List.replicate heldKeysMax 0) (noted.take n)

variable {heldKeysMax : ℕ}

theorem wordsAt_succ (heldKeysMax : ℕ) (noted : List InputEvent) (n : ℕ) :
    wordsAt heldKeysMax noted (n + 1) = wordsAt heldKeysMax noted n ∨
      ∃ event, wordsAt heldKeysMax noted (n + 1) =
        HeldKeyWords.inputNoteEvent (wordsAt heldKeysMax noted n) event := by
  rcases Nat.lt_or_ge n noted.length with hlt | hge
  · refine .inr ⟨noted[n], ?_⟩
    rw [wordsAt, List.take_add_one, List.getElem?_eq_getElem hlt, Option.toList_some, run_append]
    rfl
  · left
    rw [wordsAt, wordsAt, List.take_of_length_le hge, List.take_of_length_le (hge.trans n.le_succ)]

theorem wordsAt_append {noted : List InputEvent} {n : ℕ} (hn : n ≤ noted.length)
    (event : InputEvent) :
    wordsAt heldKeysMax (noted ++ [event]) n = wordsAt heldKeysMax noted n := by
  rw [wordsAt, wordsAt, List.take_append_of_le_length hn]

theorem kepts_wordsAt (heldKeysMax : ℕ) (noted : List InputEvent) :
    Kepts 0 heldKeysMax (wordsAt heldKeysMax noted) := by
  have hall : ∀ n, (wordsAt heldKeysMax noted n).length = heldKeysMax ∧
      Single 0 (wordsAt heldKeysMax noted n) ∧
      Kept 0 (wordsAt heldKeysMax noted n) (wordsAt heldKeysMax noted (n + 1)) := by
    intro n
    have hstep : ∀ n, Single 0 (wordsAt heldKeysMax noted n) →
        Single 0 (wordsAt heldKeysMax noted (n + 1)) ∧
          Kept 0 (wordsAt heldKeysMax noted n) (wordsAt heldKeysMax noted (n + 1)) := by
      intro n hsingle
      rcases wordsAt_succ heldKeysMax noted n with hsame | ⟨event, hnote⟩
      · rw [hsame]
        exact ⟨hsingle, .refl⟩
      · rw [hnote]
        exact HeldKeyWords.single_inputNoteEvent hsingle event
    induction n with
    | zero =>
        have hsingle : Single 0 (wordsAt heldKeysMax noted 0) := single_replicate heldKeysMax
        exact ⟨List.length_replicate, hsingle, (hstep 0 hsingle).2⟩
    | succ n ih =>
        obtain ⟨hlength, hsingle, hkept⟩ := ih
        have hnext := (hstep n hsingle).1
        exact ⟨hkept.length_eq.trans hlength, hnext, (hstep (n + 1) hnext).2⟩
  exact ⟨fun n => (hall n).1, fun n => (hall n).2.1, fun n => (hall n).2.2⟩

/-- The calls made are scans of the table as it was noted. -/
structure Holds (heldKeysMax : ℕ) (table : HeldKeyTable) : Prop where
  words : table.words = wordsAt heldKeysMax table.noted table.noted.length
  scan : ∀ since reads, table.scan = some (since, reads) → since ≤ table.noted.length ∧
    Scanned (wordsAt heldKeysMax table.noted) since table.noted.length reads ∧
    reads.length ≤ heldKeysMax
  returned : ∀ call ∈ table.returned, call.since ≤ call.upto ∧ call.upto ≤ table.noted.length ∧
    ∃ reads, Scanned (wordsAt heldKeysMax table.noted) call.since call.upto reads ∧
      reads.length = heldKeysMax ∧ call.keys = listed reads

theorem Holds.boot : Holds heldKeysMax (boot heldKeysMax) where
  words := rfl
  scan _ _ hscan := by cases hscan
  returned _ hcall := by cases hcall

variable {table : HeldKeyTable}

theorem Holds.noteEvent (h : table.Holds heldKeysMax) (event : InputEvent) :
    (table.step (.noteEvent event)).Holds heldKeysMax where
  words := by
    change HeldKeyWords.inputNoteEvent table.words event =
      wordsAt heldKeysMax (table.noted ++ [event]) (table.noted ++ [event]).length
    rw [h.words, wordsAt, wordsAt, List.take_length, List.take_length, run_append]
    rfl
  scan since reads hscan := by
    obtain ⟨hsince, hscanned, hlength⟩ := h.scan since reads hscan
    have hle : table.noted.length ≤ (table.noted ++ [event]).length := by simp
    refine ⟨hsince.trans hle, ?_, hlength⟩
    exact (hscanned.congr fun n hn => wordsAt_append hn event).later hle
  returned call hcall := by
    obtain ⟨hsince, hupto, reads, hscanned, hlisted⟩ := h.returned call hcall
    have hle : table.noted.length ≤ (table.noted ++ [event]).length := by simp
    refine ⟨hsince, hupto.trans hle, reads, ?_, hlisted⟩
    exact hscanned.congr fun n hn => wordsAt_append (hn.trans hupto) event

theorem Holds.heldKeys (h : table.Holds heldKeysMax) :
    (table.step .heldKeys).Holds heldKeysMax := by
  rw [HeldKeyTable.step]
  cases hrunning : table.scan with
  | some _ => exact h
  | none =>
      refine ⟨h.words, fun since reads hscan => ?_, h.returned⟩
      obtain ⟨rfl, rfl⟩ := Prod.mk.inj (Option.some.inj hscan)
      exact ⟨le_rfl, .nil _ _, Nat.zero_le _⟩

theorem Holds.advance (h : table.Holds heldKeysMax) :
    (table.step .advance).Holds heldKeysMax := by
  rw [HeldKeyTable.step]
  cases hrunning : table.scan with
  | none => exact h
  | some scan =>
      obtain ⟨since, reads⟩ := scan
      obtain ⟨hsince, hscanned, hlength⟩ := h.scan since reads hrunning
      have hsize : table.words.length = heldKeysMax := by
        rw [h.words]
        exact (kepts_wordsAt heldKeysMax table.noted).length_eq _
      dsimp only
      cases hword : table.words[reads.length]? with
      | some word =>
          refine ⟨h.words, fun since' reads' hscan => ?_, h.returned⟩
          obtain ⟨rfl, rfl⟩ := Prod.mk.inj (Option.some.inj hscan)
          have hlt : reads.length < heldKeysMax :=
            hsize ▸ (List.getElem?_eq_some_iff.mp hword).1
          rw [h.words] at hword
          refine ⟨hsince, hscanned.read hsince hword, ?_⟩
          rw [List.length_append, List.length_singleton]
          exact hlt
      | none =>
          refine ⟨h.words, fun _ _ hscan => (by cases hscan), fun call hcall => ?_⟩
          rcases List.mem_append.mp hcall with hold | hnew
          · exact h.returned call hold
          · obtain rfl := List.mem_singleton.mp hnew
            have hge : heldKeysMax ≤ reads.length := hsize ▸ List.getElem?_eq_none_iff.mp hword
            exact ⟨hsince, le_rfl, reads, hscanned, hlength.antisymm hge, rfl⟩

theorem Holds.step (h : table.Holds heldKeysMax) (action : HeldKeyAction) :
    (table.step action).Holds heldKeysMax := by
  cases action with
  | noteEvent event => exact h.noteEvent event
  | heldKeys => exact h.heldKeys
  | advance => exact h.advance

/-! ## What a call lists -/

variable {L : EventLayout} {config : PeripheralConfig L}

theorem wordsAt_eq (config : PeripheralConfig L) (noted : List InputEvent) (n : ℕ) :
    wordsAt config.heldKeysMax noted n =
      (run Peripheral.inputNoteEvent (.init config) (noted.take n)).heldInputKeys.map
        heldEntryWord := by
  have hrun : ∀ (events : List InputEvent) (peripheral : Peripheral config),
      run HeldKeyWords.inputNoteEvent (peripheral.heldInputKeys.map heldEntryWord) events =
        (run Peripheral.inputNoteEvent peripheral events).heldInputKeys.map heldEntryWord := by
    intro events
    induction events with
    | nil => exact fun _ => rfl
    | cons event events ih =>
        intro peripheral
        rw [run_cons, run_cons, HeldKeyWords.inputNoteEvent_words, ih]
  have hinit : List.replicate config.heldKeysMax (0 : UInt32) =
      (Peripheral.init config).heldInputKeys.map heldEntryWord := by
    rw [Peripheral.init, List.map_replicate]
    rfl
  rw [wordsAt, hinit, hrun]

/-- The keys the peripheral held after the first events noted. -/
def heldAt (config : PeripheralConfig L) (noted : List InputEvent) (n : ℕ) :
    List EsbKeepaliveHeldKey :=
  (run Peripheral.inputNoteEvent (.init config) (noted.take n)).inputHeldKeys

theorem mem_heldAt_iff {key : EsbKeepaliveHeldKey} {noted : List InputEvent} {n : ℕ} :
    key ∈ heldAt config noted n ↔
      heldEntryPack key.reg key.code ∈ wordsAt config.heldKeysMax noted n := by
  rw [heldAt, wordsAt_eq, Peripheral.inputHeldKeys_eq, HeldKeyWords.word_mem_iff]

/-- Every word of the table is free or a packed key. -/
theorem mem_wordsAt {noted : List InputEvent} {n : ℕ} {word : UInt32}
    (hmem : word ∈ wordsAt config.heldKeysMax noted n) (hused : word ≠ 0) :
    word = heldEntryPack (heldEntryUnpack word).reg (heldEntryUnpack word).code := by
  rw [wordsAt_eq] at hmem
  obtain ⟨slot, -, rfl⟩ := List.mem_map.mp hmem
  cases slot with
  | none => exact absurd rfl hused
  | some entry => rw [heldEntryWord, heldEntryUnpack_pack]

variable {reads : List (ℕ × UInt32)} {noted : List InputEvent} {since upto : ℕ}

/-- Each word listed is the packed form of its key. -/
theorem listed_words (hscanned : Scanned (wordsAt config.heldKeysMax noted) since upto reads) :
    (listed reads).map (fun key => heldEntryPack key.reg key.code) =
      (reads.map Prod.snd).filter (· ≠ 0) := by
  rw [listed, List.map_map]
  refine (List.map_congr_left fun word hword => ?_).trans (List.map_id _)
  obtain ⟨hread, hused⟩ := List.mem_filter.mp hword
  obtain ⟨n, -, -, hmem⟩ := hscanned.mem hread
  exact (mem_wordsAt hmem (of_decide_eq_true hused)).symm

theorem count_listed (hscanned : Scanned (wordsAt config.heldKeysMax noted) since upto reads)
    (key : EsbKeepaliveHeldKey) :
    (listed reads).count key =
      (reads.map Prod.snd).count (heldEntryPack key.reg key.code) := by
  have hinj : Function.Injective fun key : EsbKeepaliveHeldKey =>
      heldEntryPack key.reg key.code := fun _ _ => heldEntryPack_inj
  have hfilter : ((reads.map Prod.snd).filter (· ≠ 0)).count (heldEntryPack key.reg key.code) =
      (reads.map Prod.snd).count (heldEntryPack key.reg key.code) :=
    List.count_filter (decide_eq_true (heldEntryPack_ne_zero _ _))
  rw [← hfilter, ← listed_words hscanned]
  exact (List.count_map_of_injective _ _ hinj _).symm

/-- The words are the slots of the table, each told apart. However notes fall between its
reads, a call for the held keys stays within the array, lists every key held all through it
exactly once, and no key not held during it. -/
theorem held_keys_snapshot (config : PeripheralConfig L) (actions : List HeldKeyAction) :
    let table := run step (boot config.heldKeysMax) actions
    table.words = (run Peripheral.inputNoteEvent (.init config) table.noted).heldInputKeys.map
        heldEntryWord ∧
      Function.Injective heldEntryWord ∧
      ∀ call ∈ table.returned,
        call.since ≤ call.upto ∧ call.upto ≤ table.noted.length ∧
        call.keys.length ≤ config.heldKeysMax ∧
        (∀ key, (∀ n, call.since ≤ n → n ≤ call.upto → key ∈ heldAt config table.noted n) →
          call.keys.count key = 1) ∧
        ∀ key ∈ call.keys, ∃ n, call.since ≤ n ∧ n ≤ call.upto ∧
          key ∈ heldAt config table.noted n := by
  intro table
  have hholds : table.Holds config.heldKeysMax :=
    run_invariant (fun _ action h => h.step action) Holds.boot actions
  have hwords := hholds.words
  rw [wordsAt_eq, List.take_length] at hwords
  refine ⟨hwords, heldEntryWord_injective, fun call hcall => ?_⟩
  obtain ⟨hsince, hupto, reads, hscanned, hwhole, hkeys⟩ := hholds.returned call hcall
  refine ⟨hsince, hupto, ?_, fun key hheld => ?_, fun key hkey => ?_⟩
  · rw [hkeys, listed, List.length_map, ← hwhole]
    exact (List.length_filter_le _ _).trans_eq (List.length_map _)
  · rw [hkeys, count_listed hscanned]
    refine hscanned.count_eq_one (kepts_wordsAt _ table.noted) hwhole hsince
      (heldEntryPack_ne_zero _ _) fun n hn hle => ?_
    exact mem_heldAt_iff.mp (hheld n hn hle)
  · have hword : heldEntryPack key.reg key.code ∈ (reads.map Prod.snd).filter (· ≠ 0) := by
      rw [← listed_words hscanned, ← hkeys]
      exact List.mem_map_of_mem hkey
    obtain ⟨n, hn, hle, hmem⟩ := hscanned.mem (List.mem_filter.mp hword).1
    exact ⟨n, hn, hle, mem_heldAt_iff.mpr hmem⟩

end HeldKeyTable

end SplitEsb
