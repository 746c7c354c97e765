import Mathlib.Data.List.Forall2
import Mathlib.Data.List.Pairwise
import SplitEsb.Relay.Buttons
import SplitEsb.Relay.PointerStep

/-! # Buttons are written in order
Every value of the button word has a number. The pointer reports of a relay pipe carry
them in order, none ahead of a button report that still waits, and each button report
that left the queue is among them. -/

namespace SplitEsb

open ByteString Transition ReplyLink RelayPointer

variable {config : ReplyConfig} {pipe : ℕ}

/-! ## Values by number -/

/-- The value of the button word with that number. -/
def Carries (words : List UInt8) (version : ℕ) (buttons : UInt8) : Prop :=
  words[version]? = some buttons

theorem Carries.append {words : List UInt8} {version : ℕ} {buttons : UInt8}
    (h : Carries words version buttons) (later : List UInt8) :
    Carries (words ++ later) version buttons := by
  obtain ⟨hlt, -⟩ := List.getElem?_eq_some_iff.mp h
  rw [Carries, List.getElem?_append_left hlt]
  exact h

/-- All carry values the word has had. -/
theorem lt_of_carries {words : List UInt8} {versions : List ℕ} {buttons : List UInt8}
    (h : List.Forall₂ (Carries words) versions buttons) :
    ∀ version ∈ versions, version < words.length := by
  induction h with
  | nil => exact fun _ hmem => absurd hmem List.not_mem_nil
  | cons hfirst _ ih =>
      obtain ⟨hlt, -⟩ := List.getElem?_eq_some_iff.mp hfirst
      exact List.forall_mem_cons.mpr ⟨hlt, ih⟩

/-- Fewer numbers in the same order stand for fewer values in the same order. -/
theorem sublist_of_carries {words : List UInt8} {fewer more : List ℕ} {some all : List UInt8}
    (hfewer : List.Forall₂ (Carries words) fewer some)
    (hmore : List.Forall₂ (Carries words) more all) (h : fewer.Sublist more) : some.Sublist all := by
  have hmap : ∀ {versions : List ℕ} {buttons : List UInt8},
      List.Forall₂ (Carries words) versions buttons →
        buttons = versions.map fun version => words[version]?.getD 0 := by
    intro versions buttons hcarries
    induction hcarries with
    | nil => rfl
    | cons hfirst _ ih =>
        rw [List.map_cons, hfirst, ← ih]
        rfl
  rw [hmap hfewer, hmap hmore]
  exact h.map _

theorem getLast?_of_forall₂ {α β : Type*} {R : α → β → Prop} {xs : List α} {ys : List β}
    (h : List.Forall₂ R xs ys) :
    xs = [] ∧ ys = [] ∨ ∃ x y, xs.getLast? = some x ∧ ys.getLast? = some y ∧ R x y := by
  induction h with
  | nil => exact .inl ⟨rfl, rfl⟩
  | cons hfirst _ ih =>
      rcases ih with ⟨rfl, rfl⟩ | ⟨x, y, hx, hy, hlast⟩
      · exact .inr ⟨_, _, rfl, rfl, hfirst⟩
      · exact .inr ⟨x, y, by simp [List.getLast?_cons, hx], by simp [List.getLast?_cons, hy], hlast⟩

/-- The last of a sorted list is no less than any other. -/
theorem le_getLast?_of_pairwise {versions : List ℕ} (h : versions.Pairwise (· ≤ ·)) :
    ∀ version ∈ versions, version ≤ versions.getLast?.getD 0 := by
  intro version hmem
  rw [List.getLast?_eq_some_getLast (List.ne_nil_of_mem hmem)]
  exact h.rel_getLast_of_rel_getLast_getLast hmem (Nat.le_refl _)

/-! ## The order -/

/-- The buttons of a queued report. -/
def buttonsOf (packet : Bytes) : UInt8 := byteAt packet esbHidRelayPointerButtonsOffset

/-- The buttons of the button reports among some replies. -/
def buttonReports (packets : List Bytes) : List UInt8 :=
  (packets.filter isMouseReport).map buttonsOf

@[simp] theorem buttonReports_append (front back : List Bytes) :
    buttonReports (front ++ back) = buttonReports front ++ buttonReports back := by
  rw [buttonReports, List.filter_append, List.map_append]
  rfl

/-- The buttons of the pointer reports written for a pipe. -/
def writtenButtons (link : ReplyLink config) (pipe : ℕ) : List UInt8 :=
  (pointerReports config (link.writesOf pipe)).map MouseReportBody.buttons

namespace ButtonPath

/-- The pointer reports written carry values in order, none newer than a button report
that waits, and the button reports that left are among them in the order of the queue. -/
structure ButtonsInOrder (pipe : ℕ) (path : ButtonPath config) : Prop where
  written : List.Forall₂ (Carries path.words) path.written (writtenButtons path.link pipe)
  waiting : List.Forall₂ (Carries path.words) path.waiting (buttonReports (path.link.queue pipe))
  sorted : path.written.Pairwise (· ≤ ·)
  behind : ∀ version ∈ path.written, ∀ other ∈ path.waiting, version ≤ other
  complete : ∃ front, path.link.staged pipe = front ++ path.link.queue pipe ∧
    (buttonReports front).Sublist (writtenButtons path.link pipe)

/-- What holds between the steps. -/
structure Ordered (pipe : ℕ) (path : ButtonPath config) : Prop where
  sound : path.link.RelaySound pipe
  states : (path.link.idle pipe).Calls fun call => HoldsStates config call.data
  active : path.link.pointer.active = true
  first : Carries path.words 0 0
  word : Carries path.words (path.words.length - 1) path.link.pointer.buttons
  body : path.link.pointer.writtenBody =
    (pointerReports config (path.link.writesOf pipe)).getLast?.getD .zero
  written : List.Forall₂ (Carries path.words) path.written (writtenButtons path.link pipe)
  waiting : List.Forall₂ (Carries path.words) path.waiting (buttonReports (path.link.queue pipe))
  sorted : path.written.Pairwise (· ≤ ·)
  sortedWaiting : path.waiting.Pairwise (· ≤ ·)
  behind : ∀ version ∈ path.written, ∀ other ∈ path.waiting, version ≤ other
  left : ∃ front, path.link.staged pipe = front ++ path.link.queue pipe ∧
    List.Forall₂ (Carries path.words) path.left (buttonReports front)
  complete : path.left.Sublist path.written
  stage : ∀ version buttons, path.stage = .wordRead version buttons →
    version + 1 = path.words.length ∧ Carries path.words version buttons

theorem Ordered.boot (config : ReplyConfig) (pipe : ℕ) : (boot config).Ordered pipe where
  sound := RelaySound.run config pipe (List.forall_mem_nil _)
  states := .empty ..
  active := rfl
  first := rfl
  word := rfl
  body := rfl
  written := .nil
  waiting := .nil
  sorted := .nil
  sortedWaiting := .nil
  behind := fun _ hmem => absurd hmem List.not_mem_nil
  left := ⟨[], rfl, .nil⟩
  complete := .slnil
  stage := fun _ _ hstage => by cases hstage

variable {path : ButtonPath config}

theorem Ordered.buttonsInOrder (h : path.Ordered pipe) : path.ButtonsInOrder pipe where
  written := h.written
  waiting := h.waiting
  sorted := h.sorted
  behind := h.behind
  complete := by
    obtain ⟨front, hstaged, hleft⟩ := h.left
    exact ⟨front, hstaged, sublist_of_carries hleft h.written h.complete⟩

/-! ## The interrupt -/

theorem carried_eq {after : ReplyLink config} {taken : ℕ} {made : List MouseReportBody}
    (h : PointerStep pipe path.link after taken made) : path.carried pipe after =
      let left := (((path.link.queue pipe).take taken).filter isMouseReport).length
      if 0 < left then path.waiting.take left
      else
        List.replicate made.length
          (if taken < (path.link.queue pipe).length then path.written.getLast?.getD 0
          else path.words.length - 1) := by
  have htaken : (path.link.queue pipe).length - (after.queue pipe).length = taken := by
    rw [h.queue, List.length_drop, Nat.sub_sub_self h.taken_le]
  have hmade : (pointerReports config (after.writesOf pipe)).length -
      (pointerReports config (path.link.writesOf pipe)).length = made.length := by
    rw [h.written, List.length_append, Nat.add_sub_cancel_left]
  rw [carried]
  dsimp only
  rw [htaken, hmade]

/-- The numbers of the button reports that leave, and of those that stay. -/
theorem Ordered.split (h : path.Ordered pipe) (taken : ℕ) :
    let left := (((path.link.queue pipe).take taken).filter isMouseReport).length
    List.Forall₂ (Carries path.words) (path.waiting.take left)
        (buttonReports ((path.link.queue pipe).take taken)) ∧
      List.Forall₂ (Carries path.words) (path.waiting.drop left)
        (buttonReports ((path.link.queue pipe).drop taken)) := by
  have hsplit : buttonReports (path.link.queue pipe) =
      buttonReports ((path.link.queue pipe).take taken) ++
        buttonReports ((path.link.queue pipe).drop taken) := by
    rw [← buttonReports_append, List.take_append_drop]
  have hlength : (((path.link.queue pipe).take taken).filter isMouseReport).length =
      (buttonReports ((path.link.queue pipe).take taken)).length := by
    rw [buttonReports, List.length_map]
  have hwaiting := h.waiting
  rw [hsplit] at hwaiting
  dsimp only
  rw [hlength]
  exact ⟨List.forall₂_take_append _ _ _ hwaiting, List.forall₂_drop_append _ _ _ hwaiting⟩

/-- What the numbers of the pointer reports written by a step must satisfy. -/
structure CarriedSound (path : ButtonPath config) (left : ℕ) (made : List MouseReportBody)
    (carried : List ℕ) : Prop where
  made : List.Forall₂ (Carries path.words) carried (made.map MouseReportBody.buttons)
  sorted : (path.written ++ carried).Pairwise (· ≤ ·)
  behind : ∀ version ∈ carried, ∀ other ∈ path.waiting.drop left, version ≤ other
  complete : (path.waiting.take left).Sublist carried

/-- The button reports that leave keep their place before those that stay. -/
theorem Ordered.carried_queued (h : path.Ordered pipe) (taken : ℕ) :
    let packets := (path.link.queue pipe).take taken
    path.CarriedSound (packets.filter isMouseReport).length
      ((packets.filter isMouseReport).map path.link.pointer.stampedBody)
      (path.waiting.take (packets.filter isMouseReport).length) := by
  dsimp only
  generalize hleft : (((path.link.queue pipe).take taken).filter isMouseReport).length = left
  have hsplit := List.pairwise_append.mp
    ((List.take_append_drop left path.waiting).symm ▸ h.sortedWaiting)
  refine ⟨?_, ?_, hsplit.2.2, .refl _⟩
  · have hbuttons : (((path.link.queue pipe).take taken).filter isMouseReport).map
        (MouseReportBody.buttons ∘ path.link.pointer.stampedBody) =
          buttonReports ((path.link.queue pipe).take taken) := by
      refine List.map_congr_left fun packet _ => ?_
      simp [stampedBody, stampTotals, h.active, buttonsOf]
    rw [List.map_map, hbuttons, ← hleft]
    exact (h.split taken).1
  · refine List.pairwise_append.mpr ⟨h.sorted, hsplit.1, fun version hmem other hother => ?_⟩
    exact h.behind version hmem other (List.mem_of_mem_take hother)

/-- The buttons written last have the last number. -/
theorem Ordered.last (h : path.Ordered pipe) :
    Carries path.words (path.written.getLast?.getD 0) path.link.pointer.writtenBody.buttons := by
  rw [h.body]
  rcases getLast?_of_forall₂ h.written with ⟨hnone, hempty⟩ | ⟨version, buttons, hversion, hlast, hcarries⟩
  · rw [hnone, List.map_eq_nil_iff.mp hempty]
    exact h.first
  · rw [writtenButtons, List.getLast?_map, Option.map_eq_some_iff] at hlast
    obtain ⟨body, hbody, rfl⟩ := hlast
    rw [hversion, hbody]
    exact hcarries

/-- A report appended while replies stay queued repeats the buttons written last, one
appended to an empty queue carries the live ones. -/
theorem Ordered.carried_appended (h : path.Ordered pipe) {taken : ℕ}
    (hnone : ((path.link.queue pipe).take taken).filter isMouseReport = []) :
    path.CarriedSound 0
      [path.link.pointer.appendedBody (decide (taken < (path.link.queue pipe).length))]
      [if taken < (path.link.queue pipe).length then path.written.getLast?.getD 0
        else path.words.length - 1] := by
  have hstay := (h.split taken).2
  rw [hnone, List.length_nil, List.drop_zero] at hstay
  by_cases hqueued : taken < (path.link.queue pipe).length
  · have hbuttons : (path.link.pointer.appendedBody true).buttons =
        path.link.pointer.writtenBody.buttons := by
      simp [appendedBody, stampTotals, reportButtons, h.active]
    rw [if_pos hqueued, decide_eq_true hqueued]
    refine ⟨.cons (hbuttons ▸ h.last) .nil, ?_, ?_, List.nil_sublist _⟩
    · refine List.pairwise_append.mpr ⟨h.sorted, List.pairwise_singleton .., ?_⟩
      intro version hmem other hother
      rw [List.mem_singleton.mp hother]
      exact le_getLast?_of_pairwise h.sorted version hmem
    · intro version hversion other hother
      rw [List.mem_singleton.mp hversion]
      cases hlast : path.written.getLast? with
      | none => exact Nat.zero_le _
      | some last => exact h.behind last (List.mem_of_getLast? hlast) other hother
  · have hbuttons : (path.link.pointer.appendedBody false).buttons = path.link.pointer.buttons := by
      simp [appendedBody, stampTotals, reportButtons, h.active]
    rw [if_neg hqueued, decide_eq_false hqueued]
    refine ⟨.cons (hbuttons ▸ h.word) .nil, ?_, ?_, List.nil_sublist _⟩
    · refine List.pairwise_append.mpr ⟨h.sorted, List.pairwise_singleton .., ?_⟩
      intro version hmem other hother
      rw [List.mem_singleton.mp hother]
      exact Nat.le_sub_one_of_lt (lt_of_carries h.written version hmem)
    · rw [List.drop_eq_nil_of_le (Nat.not_lt.mp hqueued)] at hstay
      rw [List.forall₂_nil_right_iff.mp hstay]
      exact fun _ _ _ hother => absurd hother List.not_mem_nil

theorem Ordered.carriedSound (h : path.Ordered pipe) {after : ReplyLink config} {taken : ℕ}
    {made : List MouseReportBody} (hstep : PointerStep pipe path.link after taken made) :
    path.CarriedSound (((path.link.queue pipe).take taken).filter isMouseReport).length made
      (path.carried pipe after) := by
  rw [carried_eq hstep]
  dsimp only
  rcases hstep.bodies with hmade | ⟨hnone, hmade⟩
  · have hqueued := h.carried_queued taken
    dsimp only at hqueued
    rw [← hmade] at hqueued
    have hlength := congrArg List.length hmade
    rw [List.length_map] at hlength
    split
    case isTrue => exact hqueued
    case isFalse hzero =>
        rw [hlength, Nat.eq_zero_of_not_pos hzero, List.replicate_zero]
        rw [Nat.eq_zero_of_not_pos hzero] at hqueued
        exact hqueued
  · rw [hmade, hnone, List.length_nil, if_neg (Nat.lt_irrefl 0)]
    exact h.carried_appended hnone

/-- A step that puts nothing on the relay pipe. -/
theorem Ordered.pointerStep (h : path.Ordered pipe) {action : ReplyAction} {taken : ℕ}
    {made : List MouseReportBody}
    (hstep : PointerStep pipe path.link (path.link.step action) taken made)
    (hsound : (path.link.step action).RelaySound pipe)
    (hstates : ((path.link.step action).idle pipe).Calls fun call => HoldsStates config call.data) :
    (path.other pipe action).Ordered pipe := by
  have hcarried := h.carriedSound hstep
  have htaken : (path.link.queue pipe).length - ((path.link.step action).queue pipe).length =
      taken := by
    rw [hstep.queue, List.length_drop, Nat.sub_sub_self hstep.taken_le]
  obtain ⟨hleave, hstay⟩ := h.split taken
  have hwritten : writtenButtons (path.link.step action) pipe =
      writtenButtons path.link pipe ++ made.map MouseReportBody.buttons := by
    rw [writtenButtons, hstep.written, List.map_append]
    rfl
  rw [other, htaken]
  generalize (((path.link.queue pipe).take taken).filter isMouseReport).length = left at *
  refine ⟨hsound, hstates, hstep.active.trans h.active, h.first, ?_, ?_, ?_, ?_, hcarried.sorted,
    h.sortedWaiting.sublist (List.drop_sublist ..), ?_, ?_, h.complete.append hcarried.complete,
    h.stage⟩
  · exact hstep.buttons ▸ h.word
  · change (path.link.step action).pointer.writtenBody = _
    rw [hstep.body, hstep.written, List.getLast?_append, h.body]
    cases made.getLast? <;> rfl
  · change List.Forall₂ _ _ (writtenButtons (path.link.step action) pipe)
    rw [hwritten]
    exact List.rel_append h.written hcarried.made
  · change List.Forall₂ _ _ (buttonReports ((path.link.step action).queue pipe))
    rw [hstep.queue]
    exact hstay
  · intro version hmem other hother
    rcases List.mem_append.mp hmem with hold | hnew
    · exact h.behind version hold other (List.mem_of_mem_drop hother)
    · exact hcarried.behind version hnew other hother
  · obtain ⟨front, hstaged, hleft⟩ := h.left
    refine ⟨front ++ (path.link.queue pipe).take taken, ?_, ?_⟩
    · change (path.link.step action).staged pipe = _ ++ (path.link.step action).queue pipe
      rw [hstep.staged, hstep.queue, hstaged, List.append_assoc, List.take_append_drop]
    · rw [buttonReports_append]
      exact List.rel_append hleft hleave

/-! ## The threads -/

/-- Nothing the order is about is touched. -/
structure SameReplies (pipe : ℕ) (before after : ReplyLink config) : Prop where
  queue : after.queue pipe = before.queue pipe
  staged : after.staged pipe = before.staged pipe
  writesOf : after.writesOf pipe = before.writesOf pipe
  buttons : after.pointer.buttons = before.pointer.buttons
  active : after.pointer.active = before.pointer.active
  body : after.pointer.writtenBody = before.pointer.writtenBody

theorem Ordered.setLink (h : path.Ordered pipe) {after : ReplyLink config}
    (hsame : SameReplies pipe path.link after) (hsound : after.RelaySound pipe)
    (hstates : (after.idle pipe).Calls fun call => HoldsStates config call.data) :
    ({ path with link := after } : ButtonPath config).Ordered pipe := by
  have hwritten : writtenButtons after pipe = writtenButtons path.link pipe := by
    rw [writtenButtons, hsame.writesOf]
    rfl
  refine ⟨hsound, hstates, hsame.active.trans h.active, h.first, ?_, ?_, ?_, ?_, h.sorted,
    h.sortedWaiting, h.behind, ?_, h.complete, h.stage⟩
  · exact hsame.buttons ▸ h.word
  · change after.pointer.writtenBody = (pointerReports config (after.writesOf pipe)).getLast?.getD _
    rw [hsame.body, hsame.writesOf]
    exact h.body
  · exact hwritten ▸ h.written
  · change List.Forall₂ _ _ (buttonReports (after.queue pipe))
    rw [hsame.queue]
    exact h.waiting
  · change ∃ front, after.staged pipe = front ++ after.queue pipe ∧ _
    rw [hsame.staged, hsame.queue]
    exact h.left

/-- A step that takes nothing from the queue and writes nothing is one of its thread only. -/
theorem other_of_same {action : ReplyAction}
    (hsame : SameReplies pipe path.link (path.link.step action)) :
    path.other pipe action = { path with link := path.link.step action } := by
  have hnone : path.carried pipe (path.link.step action) = [] := by
    rw [carried, hsame.queue, hsame.writesOf, Nat.sub_self, Nat.sub_self, List.take_zero]
    rfl
  rw [other, hnone, hsame.queue, Nat.sub_self, List.take_zero, List.filter_nil, List.length_nil,
    List.take_zero, List.drop_zero, List.append_nil, List.append_nil]

theorem stagePut_cases (link : ReplyLink config) (pipe : ℕ) (data : Bytes) :
    link.stagePut pipe data = link ∨
      (link.stagePut pipe data).queue pipe = link.queue pipe ++ [data] ∧
        (link.stagePut pipe data).staged pipe = link.staged pipe ++ [data] ∧
        (link.stagePut pipe data).pointer = link.pointer ∧
        (link.stagePut pipe data).writesOf pipe = link.writesOf pipe := by
  rw [stagePut]
  split_ifs
  · exact .inl rfl
  · exact .inl rfl
  · exact .inl rfl
  · exact .inr ⟨Function.update_self .., Function.update_self .., rfl, rfl⟩

/-- One more reply waits; a button report carries the live value. -/
theorem Ordered.append (h : path.Ordered pipe) {after : ReplyLink config} {data : Bytes}
    (hqueue : after.queue pipe = path.link.queue pipe ++ [data])
    (hstaged : after.staged pipe = path.link.staged pipe ++ [data])
    (hpointer : after.pointer = path.link.pointer)
    (hwrites : after.writesOf pipe = path.link.writesOf pipe) (hsound : after.RelaySound pipe)
    (hstates : (after.idle pipe).Calls fun call => HoldsStates config call.data)
    {versions : List ℕ} (hcarries : List.Forall₂ (Carries path.words) versions (buttonReports [data]))
    (hlive : ∀ version ∈ versions, version + 1 = path.words.length) :
    ({ path with link := after, waiting := path.waiting ++ versions } : ButtonPath config).Ordered
      pipe := by
  have hlast : ∀ {others : List ℕ} {buttons : List UInt8},
      List.Forall₂ (Carries path.words) others buttons →
        ∀ other ∈ others, ∀ version ∈ versions, other ≤ version := by
    intro others buttons hothers other hother version hversion
    have hlt := lt_of_carries hothers other hother
    have := hlive version hversion
    omega
  refine ⟨hsound, hstates, ?_, h.first, ?_, ?_, ?_, ?_, h.sorted, ?_, ?_, ?_, h.complete, h.stage⟩
  · change after.pointer.active = true
    rw [hpointer]
    exact h.active
  · change Carries _ _ after.pointer.buttons
    rw [hpointer]
    exact h.word
  · change after.pointer.writtenBody = (pointerReports config (after.writesOf pipe)).getLast?.getD _
    rw [hpointer, hwrites]
    exact h.body
  · change List.Forall₂ _ _ (writtenButtons after pipe)
    rw [writtenButtons, hwrites]
    exact h.written
  · change List.Forall₂ _ _ (buttonReports (after.queue pipe))
    rw [hqueue, buttonReports_append]
    exact List.rel_append h.waiting hcarries
  · refine List.pairwise_append.mpr ⟨h.sortedWaiting, ?_, hlast h.waiting⟩
    refine List.pairwise_of_forall_mem_list fun version hversion other hother => ?_
    have := hlive version hversion
    have := hlive other hother
    omega
  · intro version hmem other hother
    rcases List.mem_append.mp hother with hold | hnew
    · exact h.behind version hmem other hold
    · exact hlast h.written version hmem other hnew
  · obtain ⟨front, hsplit, hleft⟩ := h.left
    refine ⟨front, ?_, hleft⟩
    change after.staged pipe = front ++ after.queue pipe
    rw [hstaged, hqueue, hsplit, List.append_assoc]

/-- Another thread's reply is no button report. -/
theorem Ordered.put (h : path.Ordered pipe) (hrelay : config.relayPipe pipe = true) {other : ℕ}
    {data : Bytes} (hdata : config.relayPipe other = true → IsRelayReport config data ∧
      byteAt data 0 ≠ zmkHidReportIdMouse) : (path.other pipe (.put other data)).Ordered pipe := by
  have hwhole : WholeReports config (.put other data) := fun hother => (hdata hother).1
  have hsound := h.sound.step hwhole
  have hstates : ((path.link.step (.put other data)).idle pipe).Calls
      fun call => HoldsStates config call.data :=
    calls_thread h.states (fun _ hlatch => by cases hlatch) (fun _ _ hrx => by cases hrx)
  rcases eq_or_ne pipe other with rfl | hne
  · have hother : buttonReports [data] = [] := by
      have hmouse : isMouseReport data = false := by
        rw [isMouseReport, Bool.and_eq_false_iff, beq_eq_false_iff_ne]
        exact .inr (hdata hrelay).2
      simp [buttonReports, hmouse]
    rcases stagePut_cases path.link pipe data with hsame | ⟨hqueue, hstaged, hpointer, hwrites⟩
    · have hkept : SameReplies pipe path.link (path.link.step (.put pipe data)) := by
        change SameReplies pipe path.link (path.link.stagePut pipe data)
        rw [hsame]
        exact ⟨rfl, rfl, rfl, rfl, rfl, rfl⟩
      rw [other_of_same hkept]
      exact h.setLink hkept hsound hstates
    · have hkept : ({ path with
          link := path.link.step (.put pipe data)
          waiting := path.waiting ++ [] } : ButtonPath config).Ordered pipe :=
        h.append hqueue hstaged hpointer hwrites hsound hstates (hother ▸ .nil)
          fun _ hmem => absurd hmem List.not_mem_nil
      have hzero : (path.link.queue pipe).length -
          ((path.link.step (.put pipe data)).queue pipe).length = 0 := by
        change _ - ((path.link.stagePut pipe data).queue pipe).length = 0
        rw [hqueue, List.length_append]
        exact Nat.sub_eq_zero_of_le (Nat.le_add_right ..)
      have hnone : path.carried pipe (path.link.step (.put pipe data)) = [] := by
        have hmade : ((path.link.step (.put pipe data)).writesOf pipe) = path.link.writesOf pipe :=
          hwrites
        rw [carried, hzero, hmade, List.take_zero]
        simp
      rw [ButtonPath.other, hzero, hnone]
      simpa using hkept
  · have hsame : Untouched pipe path.link (path.link.stagePut other data) := .stagePut hne data
    have hpointer : (path.link.stagePut other data).pointer = path.link.pointer := by
      rw [stagePut]
      split_ifs <;> rfl
    have hkept : SameReplies pipe path.link (path.link.step (.put other data)) :=
      ⟨hsame.queue, hsame.staged, hsame.writesOf, congrArg _ hpointer, congrArg _ hpointer,
        congrArg _ hpointer⟩
    rw [other_of_same hkept]
    exact h.setLink hkept hsound hstates

/-- What other threads do while the relay is active: whole reports that are no button
reports, latched states, refreshes, no pause. -/
def OtherThread (config : ReplyConfig) : ReplyAction → Prop
  | .put pipe data => config.relayPipe pipe = true →
      IsRelayReport config data ∧ byteAt data 0 ≠ zmkHidReportIdMouse
  | .latchIdle pipe data => config.relayPipe pipe = true → HoldsStates config data
  | .pointer .refresh => True
  | .pointer _ => False
  | _ => True

theorem wholeReports_of_otherThread {action : ReplyAction} (h : OtherThread config action) :
    WholeReports config action := by
  cases action with
  | put pipe data => exact fun hrelay => (h hrelay).1
  | _ => trivial

/-- All the other threads' steps leave the order as it is. -/
theorem sameReplies_thread (link : ReplyLink config) {action : ReplyAction}
    (hother : OtherThread config action) (hput : ∀ other data, action ≠ .put other data)
    (hthread : ∀ pipesAcked fifo, action ≠ .rxDone pipesAcked fifo) :
    SameReplies pipe link (link.step action) := by
  cases action with
  | put other data => exact absurd rfl (hput other data)
  | count other =>
      rw [ReplyLink.step, stageCount]
      split_ifs <;> exact ⟨rfl, rfl, rfl, rfl, rfl, rfl⟩
  | latchControl other kind data =>
      rw [ReplyLink.step, latchControl]
      split_ifs <;> exact ⟨rfl, rfl, rfl, rfl, rfl, rfl⟩
  | latchIdle other data =>
      rw [ReplyLink.step, latchIdleReply]
      split_ifs <;> exact ⟨rfl, rfl, rfl, rfl, rfl, rfl⟩
  | pointer action =>
      cases action with
      | refresh => exact ⟨rfl, rfl, rfl, rfl, rfl, rfl⟩
      | _ => exact hother.elim
  | rxDone pipesAcked fifo => exact absurd rfl (hthread pipesAcked fifo)
  | _ => exact ⟨rfl, rfl, rfl, rfl, rfl, rfl⟩

theorem Ordered.other (h : path.Ordered pipe)
    (honly : ∀ other, config.relayPipe other = true ↔ other = pipe) {action : ReplyAction}
    (hother : OtherThread config action) : (path.other pipe action).Ordered pipe := by
  have hrelay : config.relayPipe pipe = true := (honly pipe).mpr rfl
  have hsound := h.sound.step (wholeReports_of_otherThread hother)
  rcases writes_thread path.link action with ⟨pipesAcked, fifo, rfl⟩ | ⟨hthread, -⟩
  · obtain ⟨taken, made, hstep⟩ := exists_pointerStep honly h.sound h.states fifo pipesAcked
    have hstamps : ReplyLink.Stamps pipe path.link (path.link.rxDone fifo pipesAcked) :=
      ReplyLink.Stamps.rxDone
        ⟨h.sound, h.states, h.active, rfl, [], (List.append_nil _).symm, by simp⟩ hrelay fifo
        pipesAcked
    exact h.pointerStep hstep hsound hstamps.states
  · by_cases hput : ∃ other data, action = .put other data
    · obtain ⟨other, data, rfl⟩ := hput
      exact h.put hrelay hother
    · have hkept : SameReplies pipe path.link (path.link.step action) :=
        sameReplies_thread path.link hother (fun other data hsame => hput ⟨other, data, hsame⟩)
          hthread
      rw [other_of_same hkept]
      refine h.setLink hkept hsound (calls_thread h.states ?_ hthread)
      rintro data rfl
      exact hother hrelay

end ButtonPath

end SplitEsb
