import SplitEsb.Reply.Link
import SplitEsb.Shared.LatestValue

/-! # What the latches deliver
Each latch is a latest-value register: whatever the interrupt preempts, it writes
whole published values, in order, each taken at most once. -/

namespace SplitEsb

open ByteString LatestValue

variable {config : ReplyConfig}

/-! ## Filling a slot -/

/-- The bytes copied so far are those of the call. -/
def CopiedTo {n : ℕ} (data : Vector UInt8 n) (call : Bytes) (done : ℕ) : Prop :=
  ∀ i < call.length, i < done → data[i]? = some (byteAt call i)

theorem CopiedTo.set {n done : ℕ} {data : Vector UInt8 n} {call : Bytes}
    (h : CopiedTo data call done) (hfit : call.length ≤ n) :
    CopiedTo (data.setIfInBounds done (byteAt call done)) call (done + 1) := by
  intro i hi hdone
  rw [Vector.getElem?_setIfInBounds]
  by_cases hsame : done = i
  · subst hsame
    simp only [if_pos, if_pos (show done < n by omega)]
  · rw [if_neg hsame]
    exact h i hi (by omega)

theorem CopiedTo.take {n done : ℕ} {data : Vector UInt8 n} {call : Bytes}
    (h : CopiedTo data call done) (hdone : call.length ≤ done) :
    data.toList.take call.length = call := by
  refine List.ext_getElem? fun i => ?_
  rcases Nat.lt_or_ge i call.length with hi | hi
  · have hcopied := h i hi (by omega)
    rw [List.getElem?_take_of_lt hi, Vector.getElem?_toList, hcopied, byteAt,
      List.getD_eq_getElem?_getD, List.getElem?_eq_getElem hi]
    rfl
  · rw [List.getElem?_take_eq_none hi, List.getElem?_eq_none hi]

namespace ControlPayload

structure Filling (done : ℕ) (call : Bytes) (slot : ControlPayload) : Prop where
  length_pos : 0 < call.length
  length_le : call.length ≤ esbLinkControlMaxLength
  copied : CopiedTo slot.data call done
  length : call.length < done → slot.length.toNat = call.length

structure Filled (call : Bytes) (slot : ControlPayload) : Prop where
  length_pos : 0 < call.length
  length_le : call.length ≤ esbLinkControlMaxLength
  bytes : slot.bytes = call

theorem Filling.store {done : ℕ} {call call' : Bytes} {slot slot' : ControlPayload}
    (h : Filling done call slot) (hstore : store done call slot = some (call', slot')) :
    Filling (done + 1) call' slot' := by
  have hsmall : esbLinkControlMaxLength = 16 := rfl
  have hle := h.length_le
  rw [ControlPayload.store] at hstore
  split_ifs at hstore with hcopy hlength
  · cases hstore
    exact ⟨h.length_pos, h.length_le, h.copied.set hle, fun hdone => by omega⟩
  · cases hstore
    refine ⟨h.length_pos, h.length_le, fun i hi hdone => h.copied i hi (by omega), fun _ => ?_⟩
    rw [UInt8.toNat_ofNat']
    exact Nat.mod_eq_of_lt (by omega)

theorem Filling.filled {done : ℕ} {call : Bytes} {slot : ControlPayload}
    (h : Filling done call slot) (hstore : ControlPayload.store done call slot = none) :
    Filled call slot := by
  rw [ControlPayload.store] at hstore
  split_ifs at hstore with hcopy hlength
  have hdone : call.length < done := by omega
  refine ⟨h.length_pos, h.length_le, ?_⟩
  rw [bytes, h.length hdone]
  exact h.copied.take hdone.le

end ControlPayload

namespace IdleReply

/-- `counted` is the number of increments so far. -/
structure Filling (counted done : ℕ) (call : IdleCall) (slot : IdleReply config) : Prop where
  length_pos : 0 < call.data.length
  length_le : call.data.length ≤ config.maxPayload
  copied : CopiedTo slot.data call.data done
  length : call.data.length < done → slot.length.toNat = call.data.length
  repliesStaged : call.data.length + 1 < done →
    slot.repliesStaged = UInt32.ofNat call.counted ∧ call.counted ≤ counted

structure Filled (counted : ℕ) (call : IdleCall) (slot : IdleReply config) : Prop where
  length_pos : 0 < call.data.length
  length_le : call.data.length ≤ config.maxPayload
  bytes : slot.bytes = call.data
  repliesStaged : slot.repliesStaged = UInt32.ofNat call.counted
  counted_le : call.counted ≤ counted

theorem Filling.mono {counted more done : ℕ} {call : IdleCall} {slot : IdleReply config}
    (h : Filling counted done call slot) (hle : counted ≤ more) : Filling more done call slot :=
  ⟨h.length_pos, h.length_le, h.copied, h.length, fun hdone =>
    ⟨(h.repliesStaged hdone).1, (h.repliesStaged hdone).2.trans hle⟩⟩

theorem Filled.mono {counted more : ℕ} {call : IdleCall} {slot : IdleReply config}
    (h : Filled counted call slot) (hle : counted ≤ more) : Filled more call slot :=
  ⟨h.length_pos, h.length_le, h.bytes, h.repliesStaged, h.counted_le.trans hle⟩

theorem Filling.store {counted done : ℕ} {call call' : IdleCall} {slot slot' : IdleReply config}
    (h : Filling counted done call slot)
    (hstore : store (UInt32.ofNat counted) counted done call slot = some (call', slot')) :
    Filling counted (done + 1) call' slot' := by
  have hsmall := config.maxPayload_le
  have hle := h.length_le
  rw [IdleReply.store] at hstore
  split_ifs at hstore with hcopy hlength hcount
  · cases hstore
    exact ⟨h.length_pos, h.length_le, h.copied.set hle, fun hdone => by omega, fun hdone => by omega⟩
  · cases hstore
    refine ⟨h.length_pos, h.length_le, fun i hi hdone => h.copied i hi (by omega), fun _ => ?_,
      fun hdone => by omega⟩
    rw [UInt8.toNat_ofNat']
    exact Nat.mod_eq_of_lt (by omega)
  · cases hstore
    refine ⟨h.length_pos, h.length_le, fun i hi hdone => h.copied i hi ?_,
      fun _ => h.length (by omega), fun _ => ⟨rfl, Nat.le_refl _⟩⟩
    have hi : i < call.data.length := hi
    omega

theorem Filling.filled {counted staged done : ℕ} {word : UInt32} {call : IdleCall}
    {slot : IdleReply config} (h : Filling counted done call slot)
    (hstore : IdleReply.store word staged done call slot = none) : Filled counted call slot := by
  rw [IdleReply.store] at hstore
  split_ifs at hstore with hcopy hlength hcount
  have hdone : call.data.length + 1 < done := by omega
  refine ⟨h.length_pos, h.length_le, ?_, (h.repliesStaged hdone).1, (h.repliesStaged hdone).2⟩
  rw [bytes, h.length (by omega)]
  exact h.copied.take (by omega)

end IdleReply

namespace ReplyLink

/-! ## Every latch is sound -/

structure CellsSound (link : ReplyLink config) : Prop where
  control : ∀ pipe kind,
    (link.control pipe kind).Sound ControlPayload.Filling ControlPayload.Filled
  idle : ∀ pipe, (link.idle pipe).Sound (IdleReply.Filling (link.counted pipe))
    (IdleReply.Filled (link.counted pipe))
  repliesStaged : ∀ pipe, link.repliesStaged pipe = UInt32.ofNat (link.counted pipe)

theorem control_setControl (link : ReplyLink config) (pipe : ℕ) (kind : EsbLinkControl)
    (cell : LatchCell Bytes ControlPayload) (other : ℕ) (otherKind : EsbLinkControl) :
    (link.setControl pipe kind cell).control other otherKind =
      if other = pipe ∧ otherKind = kind then cell else link.control other otherKind := by
  by_cases hpipe : other = pipe
  · subst hpipe
    by_cases hkind : otherKind = kind
    · subst hkind
      simp [setControl]
    · simp [setControl, hkind]
  · simp [setControl, hpipe]

theorem idle_setIdle (link : ReplyLink config) (pipe : ℕ)
    (cell : LatchCell IdleCall (IdleReply config)) (other : ℕ) :
    (link.setIdle pipe cell).idle other = if other = pipe then cell else link.idle other :=
  Function.update_apply ..

theorem CellsSound.setControl {link : ReplyLink config} (h : link.CellsSound) {pipe : ℕ}
    {kind : EsbLinkControl} {cell : LatchCell Bytes ControlPayload}
    (hcell : cell.Sound ControlPayload.Filling ControlPayload.Filled) :
    (link.setControl pipe kind cell).CellsSound := by
  refine ⟨fun other otherKind => ?_, h.idle, h.repliesStaged⟩
  rw [control_setControl]
  split
  · exact hcell
  · exact h.control other otherKind

theorem CellsSound.setIdle {link : ReplyLink config} (h : link.CellsSound) {pipe : ℕ}
    {cell : LatchCell IdleCall (IdleReply config)}
    (hcell : cell.Sound (IdleReply.Filling (link.counted pipe))
      (IdleReply.Filled (link.counted pipe))) :
    (link.setIdle pipe cell).CellsSound := by
  refine ⟨h.control, fun other => ?_, h.repliesStaged⟩
  rw [idle_setIdle]
  split
  case isTrue hsame => exact hsame ▸ hcell
  case isFalse => exact h.idle other

theorem CellsSound.boot (config : ReplyConfig) : (boot config).CellsSound where
  control _ _ := LatchCell.Sound.empty _
  idle _ := LatchCell.Sound.empty _
  repliesStaged _ := rfl

theorem CellsSound.stagePut {link : ReplyLink config} (h : link.CellsSound) (pipe : ℕ)
    (data : Bytes) : (link.stagePut pipe data).CellsSound := by
  rw [ReplyLink.stagePut]
  split_ifs
  · exact h
  · exact h
  · exact h
  · exact ⟨h.control, h.idle, h.repliesStaged⟩

theorem CellsSound.stageCount {link : ReplyLink config} (h : link.CellsSound) (pipe : ℕ) :
    (link.stageCount pipe).CellsSound := by
  rw [ReplyLink.stageCount]
  split_ifs
  · exact h
  · refine ⟨h.control, fun other => ?_, fun other => ?_⟩
    · by_cases hsame : other = pipe
      · subst hsame
        simp only [Function.update_self]
        exact (h.idle other).mono (fun _ _ _ hfilling => hfilling.mono (Nat.le_succ _))
          fun _ _ hfilled => hfilled.mono (Nat.le_succ _)
      · simp only [Function.update_of_ne hsame]
        exact h.idle other
    · by_cases hsame : other = pipe
      · subst hsame
        simp [h.repliesStaged other, UInt32.ofNat_add]
      · simp only [Function.update_of_ne hsame]
        exact h.repliesStaged other

theorem CellsSound.latchControl {link : ReplyLink config} (h : link.CellsSound) (pipe : ℕ)
    (kind : EsbLinkControl) (data : Bytes) : (link.latchControl pipe kind data).CellsSound := by
  rw [ReplyLink.latchControl]
  split_ifs with hpipe hlength
  · exact h
  · exact h
  · refine h.setControl ((h.control pipe kind).begin fun value => ?_)
    exact ⟨by omega, by omega, fun i _ hi => absurd hi (Nat.not_lt_zero i),
      fun hi => absurd hi (Nat.not_lt_zero _)⟩

theorem CellsSound.controlStatement {link : ReplyLink config} (h : link.CellsSound) (pipe : ℕ)
    (kind : EsbLinkControl) : (link.controlStatement pipe kind).CellsSound :=
  h.setControl ((h.control pipe kind).advance ControlPayload.Filling.store
    ControlPayload.Filling.filled)

theorem CellsSound.latchIdleReply {link : ReplyLink config} (h : link.CellsSound) (pipe : ℕ)
    (data : Bytes) : (link.latchIdleReply pipe data).CellsSound := by
  rw [ReplyLink.latchIdleReply]
  split_ifs with hpipe hlength
  · exact h
  · exact h
  · refine h.setIdle ((h.idle pipe).begin fun value => ?_)
    exact ⟨by dsimp only; omega, by dsimp only; omega, fun i _ hi => absurd hi (Nat.not_lt_zero i),
      fun hi => absurd hi (Nat.not_lt_zero _), fun hi => absurd hi (Nat.not_lt_zero _)⟩

theorem CellsSound.idleStatement {link : ReplyLink config} (h : link.CellsSound) (pipe : ℕ) :
    (link.idleStatement pipe).CellsSound := by
  rw [ReplyLink.idleStatement, h.repliesStaged pipe]
  exact h.setIdle ((h.idle pipe).advance IdleReply.Filling.store IdleReply.Filling.filled)

/-! ## The interrupt on one latch -/

theorem pendingControl_eq_some {link : ReplyLink config} {pipe slot : ℕ} {kind : EsbLinkControl}
    (h : link.pendingControl pipe = some (kind, slot)) :
    (link.control pipe kind).latch.peek = some slot := by
  obtain ⟨other, -, hother⟩ := List.exists_of_findSome?_eq_some h
  obtain ⟨found, hfound, hpair⟩ := Option.map_eq_some_iff.mp hother
  cases hpair
  exact hfound

theorem CellsSound.writeReply {link : ReplyLink config} (h : link.CellsSound) (fifo : AckFifo)
    (pipe : ℕ) (source : ReplySource) (data : Bytes) :
    (link.writeReply fifo pipe source data).1.CellsSound :=
  ⟨h.control, h.idle, h.repliesStaged⟩

theorem CellsSound.commitPointer {link : ReplyLink config} (h : link.CellsSound) (data : Bytes)
    (offset : ℕ) (hasPointer : Bool) : (link.commitPointer data offset hasPointer).CellsSound := by
  rw [ReplyLink.commitPointer]
  split_ifs
  · exact ⟨h.control, h.idle, h.repliesStaged⟩
  · exact h

theorem CellsSound.writeControl {link : ReplyLink config} (h : link.CellsSound) (fifo : AckFifo)
    (pipe : ℕ) (kind : EsbLinkControl) (slot : ℕ) :
    (link.writeControl fifo pipe kind slot).CellsSound := by
  have hwritten := h.writeReply fifo pipe (.control kind ((link.control pipe kind).history.length - 1))
    ((link.control pipe kind).pool slot).bytes
  rw [ReplyLink.writeControl]
  dsimp only
  split
  · exact hwritten.setControl ((h.control pipe kind).release slot)
  · exact hwritten

theorem CellsSound.dequeue {link : ReplyLink config} (h : link.CellsSound) (pipe taken : ℕ) :
    (link.dequeue pipe taken).CellsSound :=
  ⟨h.control, h.idle, h.repliesStaged⟩

/-- Neither packing nor the pointer touches a latch. -/
theorem CellsSound.writePacked {link : ReplyLink config} (h : link.CellsSound) (fifo : AckFifo)
    (pipe : ℕ) (packed : PackedReplies) : (link.writePacked fifo pipe packed).CellsSound := by
  have hwritten := h.writeReply fifo pipe (.queued packed.taken) packed.data
  rw [ReplyLink.writePacked]
  dsimp only
  split
  · exact (hwritten.dequeue pipe packed.taken).commitPointer _ _ _
  · exact hwritten

theorem CellsSound.freshIdleReply {link : ReplyLink config} (h : link.CellsSound) (pipe : ℕ) :
    (link.freshIdleReply pipe).1.CellsSound := by
  rw [ReplyLink.freshIdleReply]
  dsimp only
  split
  case h_1 => exact h
  case h_2 slot hpeek =>
      split_ifs
      · have hreleased := h.setIdle ((h.idle pipe).release slot)
        exact ⟨hreleased.control, hreleased.idle, hreleased.repliesStaged⟩
      · exact h

theorem CellsSound.releaseIdle {link : ReplyLink config} (h : link.CellsSound) (pipe : ℕ)
    (fresh : Option ℕ) : (link.releaseIdle pipe fresh).CellsSound := by
  cases fresh with
  | none => exact h
  | some slot => exact h.setIdle ((h.idle pipe).release slot)

theorem CellsSound.writeFresh {link : ReplyLink config} (h : link.CellsSound) (fifo : AckFifo)
    (pipe : ℕ) (fresh : Option ℕ) : (link.writeFresh fifo pipe fresh).CellsSound := by
  rw [ReplyLink.writeFresh]
  dsimp only
  split_ifs
  · exact h
  · exact ((h.writeReply fifo pipe _ _).releaseIdle pipe fresh).commitPointer _ _ _
  · exact h.writeReply fifo pipe _ _

theorem CellsSound.writeIdleReply {link : ReplyLink config} (h : link.CellsSound) (fifo : AckFifo)
    (pipe : ℕ) : (link.writeIdleReply fifo pipe).CellsSound :=
  (h.freshIdleReply pipe).writeFresh fifo pipe _

theorem CellsSound.replyTo {link : ReplyLink config} (h : link.CellsSound) (fifo : AckFifo)
    (pipe : ℕ) : (replyTo fifo link pipe).CellsSound := by
  apply replyTo_cases
  · exact fun kind slot _ => h.writeControl fifo pipe kind slot
  · exact fun _ _ => h.writePacked fifo pipe _
  · exact fun _ _ => h.writeIdleReply fifo pipe

theorem CellsSound.step {link : ReplyLink config} (h : link.CellsSound) (action : ReplyAction) :
    (link.step action).CellsSound := by
  cases action with
  | put pipe data => exact h.stagePut pipe data
  | count pipe => exact h.stageCount pipe
  | latchControl pipe kind data => exact h.latchControl pipe kind data
  | controlStatement pipe kind => exact h.controlStatement pipe kind
  | latchIdle pipe data => exact h.latchIdleReply pipe data
  | idleStatement pipe => exact h.idleStatement pipe
  | pointer action => exact ⟨h.control, h.idle, h.repliesStaged⟩
  | rxDone pipesAcked fifo =>
      exact rxDone_invariant (fun _ pipe kind slot _ _ hlink => hlink.writeControl fifo pipe kind slot)
        (fun _ pipe _ _ _ hlink => hlink.writePacked fifo pipe _)
        (fun _ pipe _ _ _ hlink => hlink.writeIdleReply fifo pipe) h pipesAcked

/-! ## The latches as latest-value registers -/

/-- The offer a write makes of a control latch. -/
def controlOffer (pipe : ℕ) (kind : EsbLinkControl) (write : AckWrite) : Option (Offer Bytes) :=
  match write.source with
  | .control written number =>
      if pipe = write.pipe ∧ kind = written then some ⟨number, write.data, write.accepted⟩ else none
  | _ => none

/-- The offer a write makes of an idle reply latch. -/
def idleOffer (pipe : ℕ) (write : AckWrite) : Option (Offer Bytes) :=
  match write.source with
  | .idle (some number) =>
      if pipe = write.pipe then some ⟨number, write.data, write.accepted⟩ else none
  | _ => none

def controlRegister (link : ReplyLink config) (pipe : ℕ) (kind : EsbLinkControl) :
    Register Bytes Bytes :=
  (link.control pipe kind).register id (link.writes.filterMap (controlOffer pipe kind)) []

def idleRegister (link : ReplyLink config) (pipe : ℕ) : Register Bytes Bytes :=
  (link.idle pipe).register IdleCall.data (link.writes.filterMap (idleOffer pipe))
    (link.dropped pipe)

/-- An idle reply leaves whole, at most with a pointer report after it. -/
def CarriesIdle (latched data : Bytes) : Prop :=
  data = latched ∨ ∃ body : MouseReportBody, data = latched ++ body.encode

/-- Both kinds of latches serve the newest value, and an idle reply is dropped only
after a reply was counted past its own count. -/
structure LatchesServe (link : ReplyLink config) : Prop where
  sound : link.CellsSound
  control : ∀ pipe kind, (link.controlRegister pipe kind).NewestWins Eq
  idle : ∀ pipe, (link.idleRegister pipe).NewestWins CarriesIdle
  dropped : ∀ pipe, ∀ number ∈ link.dropped pipe, ∃ call,
    (link.idle pipe).history[number]? = some call ∧ call.counted < link.counted pipe

theorem LatchesServe.boot (config : ReplyConfig) : (boot config).LatchesServe where
  sound := CellsSound.boot config
  control _ _ := Register.NewestWins.empty
  idle _ := Register.NewestWins.empty
  dropped := by intro pipe number h; cases h

theorem LatchesServe.stagePut {link : ReplyLink config} (h : link.LatchesServe) (pipe : ℕ)
    (data : Bytes) : (link.stagePut pipe data).LatchesServe := by
  have hsound := h.sound.stagePut pipe data
  rw [ReplyLink.stagePut] at hsound ⊢
  split_ifs at hsound ⊢
  · exact h
  · exact h
  · exact h
  · exact ⟨hsound, h.control, h.idle, h.dropped⟩

theorem le_counted_stageCount (link : ReplyLink config) (pipe other : ℕ) :
    link.counted other ≤ (link.stageCount pipe).counted other := by
  rw [stageCount]
  split_ifs
  · exact Nat.le_refl _
  · by_cases hsame : other = pipe
    · subst hsame
      simp
    · simp [hsame]

theorem LatchesServe.stageCount {link : ReplyLink config} (h : link.LatchesServe) (pipe : ℕ) :
    (link.stageCount pipe).LatchesServe := by
  have hsound := h.sound.stageCount pipe
  have hcounted := le_counted_stageCount link pipe
  rw [ReplyLink.stageCount] at hsound hcounted ⊢
  split_ifs at hsound hcounted ⊢
  · exact h
  · refine ⟨hsound, h.control, h.idle, fun other number hmem => ?_⟩
    obtain ⟨call, hcall, hlt⟩ := h.dropped other number hmem
    exact ⟨call, hcall, hlt.trans_le (hcounted other)⟩

theorem controlRegister_setControl (link : ReplyLink config) (pipe : ℕ) (kind : EsbLinkControl)
    (cell : LatchCell Bytes ControlPayload) (other : ℕ) (otherKind : EsbLinkControl) :
    (link.setControl pipe kind cell).controlRegister other otherKind =
      if other = pipe ∧ otherKind = kind then
        cell.register id (link.writes.filterMap (controlOffer other otherKind)) []
      else link.controlRegister other otherKind := by
  rw [controlRegister, control_setControl]
  split <;> rfl

theorem idleRegister_setIdle (link : ReplyLink config) (pipe : ℕ)
    (cell : LatchCell IdleCall (IdleReply config)) (other : ℕ) :
    (link.setIdle pipe cell).idleRegister other =
      if other = pipe then
        cell.register IdleCall.data (link.writes.filterMap (idleOffer other)) (link.dropped other)
      else link.idleRegister other := by
  rw [idleRegister, idle_setIdle]
  split <;> rfl

theorem LatchesServe.setControl {link : ReplyLink config} (h : link.LatchesServe) {pipe : ℕ}
    {kind : EsbLinkControl} {cell : LatchCell Bytes ControlPayload}
    (hsound : (link.setControl pipe kind cell).CellsSound)
    (hcell : (cell.register id (link.writes.filterMap (controlOffer pipe kind)) []).NewestWins Eq) :
    (link.setControl pipe kind cell).LatchesServe := by
  refine ⟨hsound, fun other otherKind => ?_, h.idle, h.dropped⟩
  rw [controlRegister_setControl]
  split
  case isTrue hsame =>
      obtain ⟨rfl, rfl⟩ := hsame
      exact hcell
  case isFalse => exact h.control other otherKind

theorem LatchesServe.latchControl {link : ReplyLink config} (h : link.LatchesServe) (pipe : ℕ)
    (kind : EsbLinkControl) (data : Bytes) : (link.latchControl pipe kind data).LatchesServe := by
  have hsound := h.sound.latchControl pipe kind data
  rw [ReplyLink.latchControl] at hsound ⊢
  split_ifs at hsound ⊢
  · exact h
  · exact h
  · refine h.setControl hsound ?_
    rw [LatchCell.register_begin]
    exact h.control pipe kind

theorem LatchesServe.controlStatement {link : ReplyLink config} (h : link.LatchesServe)
    (pipe : ℕ) (kind : EsbLinkControl) : (link.controlStatement pipe kind).LatchesServe :=
  h.setControl (h.sound.controlStatement pipe kind)
    (LatchCell.newestWins_advance _ (h.control pipe kind))

theorem LatchesServe.setIdle {link : ReplyLink config} (h : link.LatchesServe) {pipe : ℕ}
    {cell : LatchCell IdleCall (IdleReply config)} (hsound : (link.setIdle pipe cell).CellsSound)
    (hcell : (cell.register IdleCall.data (link.writes.filterMap (idleOffer pipe))
      (link.dropped pipe)).NewestWins CarriesIdle)
    (hhistory : ∀ (number : ℕ) (call : IdleCall), (link.idle pipe).history[number]? = some call →
      cell.history[number]? = some call) : (link.setIdle pipe cell).LatchesServe := by
  refine ⟨hsound, h.control, fun other => ?_, fun other number hmem => ?_⟩
  · rw [idleRegister_setIdle]
    split
    case isTrue hsame => exact hsame ▸ hcell
    case isFalse => exact h.idle other
  · obtain ⟨call, hcall, hlt⟩ := h.dropped other number hmem
    refine ⟨call, ?_, hlt⟩
    rw [idle_setIdle]
    split
    case isTrue hsame =>
        subst hsame
        exact hhistory number call hcall
    case isFalse => exact hcall

theorem LatchesServe.latchIdleReply {link : ReplyLink config} (h : link.LatchesServe) (pipe : ℕ)
    (data : Bytes) : (link.latchIdleReply pipe data).LatchesServe := by
  have hsound := h.sound.latchIdleReply pipe data
  rw [ReplyLink.latchIdleReply] at hsound ⊢
  split_ifs at hsound ⊢
  · exact h
  · exact h
  · refine h.setIdle hsound ?_ fun number call hcall => ?_
    · rw [LatchCell.register_begin]
      exact h.idle pipe
    · rw [LatchCell.getElem?_begin, hcall]

theorem LatchesServe.idleStatement {link : ReplyLink config} (h : link.LatchesServe) (pipe : ℕ) :
    (link.idleStatement pipe).LatchesServe :=
  h.setIdle (h.sound.idleStatement pipe) (LatchCell.newestWins_advance _ (h.idle pipe))
    fun _ _ hcall => LatchCell.getElem?_advance hcall

/-! ## The interrupt serves -/

theorem filterMap_concat {β : Type} (offer : AckWrite → Option β) (writes : List AckWrite)
    (write : AckWrite) : (writes ++ [write]).filterMap offer =
      writes.filterMap offer ++ (offer write).toList := by
  rw [List.filterMap_append]
  cases h : offer write <;> simp [h]

theorem controlRegister_writeControl {link : ReplyLink config} {fifo : AckFifo} {pipe slot : ℕ}
    {kind : EsbLinkControl} (hpeek : (link.control pipe kind).latch.peek = some slot) (other : ℕ)
    (otherKind : EsbLinkControl) :
    (link.writeControl fifo pipe kind slot).controlRegister other otherKind =
      if other = pipe ∧ otherKind = kind then
        (link.controlRegister pipe kind).offer ((link.control pipe kind).pool slot).bytes
          (fifo link.writes pipe ((link.control pipe kind).pool slot).bytes)
      else link.controlRegister other otherKind := by
  rw [writeControl_eq, controlRegister]
  dsimp only [attempt]
  rw [filterMap_concat]
  generalize haccepted : fifo link.writes pipe ((link.control pipe kind).pool slot).bytes = accepted
  by_cases hsame : other = pipe ∧ otherKind = kind
  · obtain ⟨rfl, rfl⟩ := hsame
    cases accepted <;>
      simp [controlOffer, controlRegister, Register.offer, LatchCell.register, Register.newest,
        LatchCell.release, SpscLatch.peek_release, hpeek]
  · have hcell : (if accepted = true then Function.update link.control pipe
        (Function.update (link.control pipe) kind ((link.control pipe kind).release slot))
        else link.control) other otherKind = link.control other otherKind := by
      cases accepted
      · rfl
      · exact (control_setControl link pipe kind _ other otherKind).trans (if_neg hsame)
    rw [hcell, if_neg hsame, controlRegister]
    simp [controlOffer, hsame]

theorem idleRegister_writeControl (link : ReplyLink config) (fifo : AckFifo) (pipe slot : ℕ)
    (kind : EsbLinkControl) (other : ℕ) :
    (link.writeControl fifo pipe kind slot).idleRegister other = link.idleRegister other := by
  rw [writeControl_eq, idleRegister]
  dsimp only [attempt]
  rw [filterMap_concat]
  simp [idleOffer, idleRegister]

theorem LatchesServe.writeControl {link : ReplyLink config} (h : link.LatchesServe)
    (fifo : AckFifo) {pipe slot : ℕ} {kind : EsbLinkControl}
    (hpending : link.pendingControl pipe = some (kind, slot)) :
    (link.writeControl fifo pipe kind slot).LatchesServe := by
  have hpeek := pendingControl_eq_some hpending
  obtain ⟨call, hfilled, hlast⟩ :
      ∃ call, ControlPayload.Filled call ((link.control pipe kind).pool slot) ∧
        (link.controlRegister pipe kind).values.getLast? = some call :=
    (h.sound.control pipe kind).getLast?_register hpeek
  have hwaiting : (link.controlRegister pipe kind).waiting = true := by
    rw [controlRegister, LatchCell.register, hpeek]
    rfl
  refine ⟨h.sound.writeControl fifo pipe kind slot, fun other otherKind => ?_, fun other => ?_, ?_⟩
  · rw [controlRegister_writeControl hpeek]
    split
    · refine (h.control pipe kind).offer hwaiting fun value hvalue => ?_
      rw [hlast] at hvalue
      exact (Option.some.inj hvalue).symm.trans hfilled.bytes.symm
    · exact h.control other otherKind
  · rw [idleRegister_writeControl]
    exact h.idle other
  · rw [writeControl_eq]
    exact h.dropped

theorem LatchesServe.writePacked {link : ReplyLink config} (h : link.LatchesServe)
    (fifo : AckFifo) (pipe : ℕ) (packed : PackedReplies) :
    (link.writePacked fifo pipe packed).LatchesServe := by
  have hsound := h.sound.writePacked fifo pipe packed
  rw [writePacked_eq] at hsound ⊢
  refine ⟨hsound, fun other kind => ?_, fun other => ?_, h.dropped⟩
  · rw [controlRegister, filterMap_concat]
    simpa [controlOffer, attempt, controlRegister] using h.control other kind
  · rw [idleRegister, filterMap_concat]
    simpa [idleOffer, attempt, idleRegister] using h.idle other

/-! ### Idle replies -/

theorem calls_releaseIdle (link : ReplyLink config) (pipe : ℕ) (fresh : Option ℕ) :
    ((link.releaseIdle pipe fresh).idle pipe).writer = (link.idle pipe).writer ∧
      ((link.releaseIdle pipe fresh).idle pipe).history = (link.idle pipe).history := by
  cases fresh with
  | none => exact ⟨rfl, rfl⟩
  | some slot => simp [releaseIdle, idle_setIdle]

theorem calls_freshIdleReply (link : ReplyLink config) (pipe : ℕ) :
    ((link.freshIdleReply pipe).1.idle pipe).writer = (link.idle pipe).writer ∧
      ((link.freshIdleReply pipe).1.idle pipe).history = (link.idle pipe).history := by
  rw [freshIdleReply]
  dsimp only
  split
  case h_1 => exact ⟨rfl, rfl⟩
  case h_2 slot hpeek =>
      split_ifs
      · exact calls_releaseIdle link pipe (some slot)
      · exact ⟨rfl, rfl⟩

theorem calls_writeFresh (link : ReplyLink config) (fifo : AckFifo) (pipe : ℕ)
    (fresh : Option ℕ) :
    ((link.writeFresh fifo pipe fresh).idle pipe).writer = (link.idle pipe).writer ∧
      ((link.writeFresh fifo pipe fresh).idle pipe).history = (link.idle pipe).history := by
  rw [writeFresh_eq]
  dsimp only
  split
  · exact ⟨rfl, rfl⟩
  · split
    · exact calls_releaseIdle link pipe fresh
    · exact ⟨rfl, rfl⟩

theorem peek_of_fresh {link : ReplyLink config} {pipe slot : ℕ}
    (h : (link.freshIdleReply pipe).2 = some slot) :
    ((link.freshIdleReply pipe).1.idle pipe).latch.peek = some slot := by
  rw [freshIdleReply_eq] at h ⊢
  dsimp only at h ⊢
  cases hpeek : (link.idle pipe).latch.peek with
  | none =>
      rw [hpeek] at h
      cases h
  | some found =>
      rw [hpeek] at h
      dsimp only at h ⊢
      split_ifs at h ⊢
      rw [← h, hpeek]

/-- A stale idle reply is dropped for the replies counted since its own count. -/
theorem LatchesServe.freshIdleReply {link : ReplyLink config} (h : link.LatchesServe) (pipe : ℕ) :
    (link.freshIdleReply pipe).1.LatchesServe := by
  have hsound := h.sound.freshIdleReply pipe
  rw [freshIdleReply_eq] at hsound ⊢
  dsimp only at hsound ⊢
  cases hpeek : (link.idle pipe).latch.peek with
  | none => exact h
  | some slot =>
      rw [hpeek] at hsound
      dsimp only at hsound ⊢
      by_cases hfresh : ((link.idle pipe).pool slot).repliesStaged = link.repliesStaged pipe
      · rw [if_pos hfresh]
        exact h
      · rw [if_neg hfresh] at hsound ⊢
        refine ⟨hsound, h.control, fun other => ?_, fun other number hmem => ?_⟩
        · by_cases hsame : other = pipe
          · subst hsame
            have hdrop := (h.idle other).drop
            rw [idleRegister] at hdrop ⊢
            simp only [Function.update_self]
            rw [LatchCell.register_release hpeek]
            simpa [Register.drop, LatchCell.register, Register.newest] using hdrop
          · rw [idleRegister]
            simp only [Function.update_of_ne hsame]
            exact h.idle other
        · by_cases hsame : other = pipe
          · subst hsame
            simp only [Function.update_self, LatchCell.release_history] at hmem ⊢
            rcases List.mem_append.mp hmem with hearlier | hlast
            · exact h.dropped other number hearlier
            · obtain ⟨-, call, hcall, hfilled⟩ := (h.sound.idle other).peek slot hpeek
              rw [List.mem_singleton.mp hlast, ← List.getLast?_eq_getElem?]
              refine ⟨call, hcall, lt_of_le_of_ne hfilled.counted_le fun hsame => hfresh ?_⟩
              rw [hfilled.repliesStaged, h.sound.repliesStaged, hsame]
          · simp only [Function.update_of_ne hsame] at hmem ⊢
            exact h.dropped other number hmem

theorem carriesIdle_append {link : ReplyLink config} {pipe : ℕ} {latched : Bytes}
    {changesQueued : Bool} : CarriesIdle latched
      (latched ++ (link.appendPointer pipe latched changesQueued).getD []) := by
  cases hreport : link.appendPointer pipe latched changesQueued with
  | none => exact .inl (List.append_nil _)
  | some report =>
      rw [appendPointer] at hreport
      split_ifs at hreport
      obtain ⟨body, rfl⟩ := RelayPointer.encode_of_take hreport
      exact .inr ⟨body, rfl⟩

/-- Writing the fresh idle reply offers it on. -/
theorem idleRegister_offer {link : ReplyLink config} {pipe slot : ℕ} (write : AckWrite)
    (hpeek : (link.idle pipe).latch.peek = some slot) (hpipe : write.pipe = pipe)
    (hsource : write.source = .idle (some ((link.idle pipe).history.length - 1))) (other : ℕ) :
    ((if write.accepted then (link.releaseIdle pipe (some slot)).idle else link.idle) other).register
        IdleCall.data ((link.writes ++ [write]).filterMap (idleOffer other)) (link.dropped other) =
      if other = pipe then (link.idleRegister pipe).offer write.data write.accepted
      else link.idleRegister other := by
  rw [filterMap_concat]
  by_cases hsame : other = pipe
  · subst hsame
    cases haccepted : write.accepted <;>
      simp [idleOffer, idleRegister, Register.offer, LatchCell.register, Register.newest, hsource,
        hpipe, haccepted, releaseIdle, setIdle, LatchCell.release, SpscLatch.peek_release, hpeek]
  · cases haccepted : write.accepted <;>
      simp [idleOffer, idleRegister, hsource, hpipe, hsame, releaseIdle, setIdle]

theorem idleBytes_of_peek {link : ReplyLink config} (h : link.CellsSound) {pipe slot : ℕ}
    (hpeek : (link.idle pipe).latch.peek = some slot) :
    (link.idleRegister pipe).values.getLast? = some (link.idleBytes pipe (some slot)) := by
  obtain ⟨call, hfilled, hlast⟩ :
      ∃ call, IdleReply.Filled (link.counted pipe) call ((link.idle pipe).pool slot) ∧
        (link.idleRegister pipe).values.getLast? = some call.data :=
    (h.idle pipe).getLast?_register hpeek
  rw [hlast]
  exact congrArg some hfilled.bytes.symm

theorem LatchesServe.writeFresh {link : ReplyLink config} (h : link.LatchesServe) (fifo : AckFifo)
    {pipe : ℕ} {fresh : Option ℕ}
    (hfresh : ∀ slot, fresh = some slot → (link.idle pipe).latch.peek = some slot) :
    (link.writeFresh fifo pipe fresh).LatchesServe := by
  have hsound := h.sound.writeFresh fifo pipe fresh
  rw [writeFresh_eq] at hsound ⊢
  dsimp only at hsound ⊢
  by_cases hempty : (link.idleBytes pipe fresh ++
      (link.appendPointer pipe (link.idleBytes pipe fresh) false).getD []).length = 0
  · rw [if_pos hempty]
    exact h
  · rw [if_neg hempty] at hsound ⊢
    refine ⟨hsound, fun other kind => ?_, fun other => ?_, fun other number hmem => ?_⟩
    · rw [controlRegister, filterMap_concat]
      simpa [controlOffer, attempt, controlRegister] using h.control other kind
    · cases fresh with
      | none =>
          rw [idleRegister, filterMap_concat]
          dsimp only [releaseIdle]
          rw [ite_self]
          simpa [idleOffer, attempt, idleRegister] using h.idle other
      | some slot =>
          have hpeek := hfresh slot rfl
          rw [idleRegister]
          dsimp only
          rw [Option.map_some, idleRegister_offer (link.attempt fifo pipe _ _) hpeek rfl rfl]
          split
          · refine (h.idle pipe).offer ?_ fun value hvalue => ?_
            · rw [idleRegister, LatchCell.register, hpeek]
              rfl
            · rw [idleBytes_of_peek h.sound hpeek] at hvalue
              exact Option.some.inj hvalue ▸ carriesIdle_append
          · exact h.idle other
    · obtain ⟨call, hcall, hlt⟩ := h.dropped other number hmem
      refine ⟨call, ?_, hlt⟩
      dsimp only
      split
      · cases fresh with
        | none => exact hcall
        | some slot =>
            rw [releaseIdle, idle_setIdle]
            split
            case isTrue hsame => exact hsame ▸ hcall
            case isFalse => exact hcall
      · exact hcall

theorem LatchesServe.step {link : ReplyLink config} (h : link.LatchesServe) (action : ReplyAction) :
    (link.step action).LatchesServe := by
  cases action with
  | put pipe data => exact h.stagePut pipe data
  | count pipe => exact h.stageCount pipe
  | latchControl pipe kind data => exact h.latchControl pipe kind data
  | controlStatement pipe kind => exact h.controlStatement pipe kind
  | latchIdle pipe data => exact h.latchIdleReply pipe data
  | idleStatement pipe => exact h.idleStatement pipe
  | pointer action => exact ⟨h.sound.step (.pointer action), h.control, h.idle, h.dropped⟩
  | rxDone pipesAcked fifo =>
      exact rxDone_invariant (fun _ _ _ _ _ hpending hlink => hlink.writeControl fifo hpending)
        (fun _ pipe _ _ _ hlink => hlink.writePacked fifo pipe _)
        (fun _ pipe _ _ _ hlink => (hlink.freshIdleReply pipe).writeFresh fifo
          fun _ hslot => peek_of_fresh hslot) h pipesAcked

end ReplyLink

open ReplyLink Transition

/-- Whatever the interrupt preempts, both kinds of latches of every pipe write whole
published values in order, each taken at most once, and keep the newest one. -/
theorem latches_serve_newest (config : ReplyConfig) (actions : List ReplyAction) :
    (run step (boot config) actions).LatchesServe :=
  run_invariant (fun _ action h => h.step action) (LatchesServe.boot config) actions

end SplitEsb
