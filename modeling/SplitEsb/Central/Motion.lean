import Mathlib.Algebra.BigOperators.Group.List.Basic
import SplitEsb.Central.State

/-! # Motion on the central
What one event or one keepalive does to the motion tracks of a pipe and to the
motion forwarded for an axis. -/

namespace SplitEsb

open ByteString SlotTable Residue

/-- A register and a relative code. -/
abbrev MotionAxis := UInt8 × UInt8

/-! ## Forwarded motion -/

/-- What an input event moves an axis by. -/
def motionOf (axis : MotionAxis) (event : InputEvent) : ℤ :=
  if event.type = inputEvRel ∧ event.reg = axis.1 ∧ event.code = axis.2.toUInt16 then
    event.value.toInt
  else 0

def motionSum (axis : MotionAxis) (events : List InputEvent) : ℤ :=
  (events.map (motionOf axis)).sum

theorem motionSum_append (axis : MotionAxis) (events more : List InputEvent) :
    motionSum axis (events ++ more) = motionSum axis events + motionSum axis more := by
  rw [motionSum, List.map_append, List.sum_append]
  rfl

theorem motionSum_eq_zero {axis : MotionAxis} {events : List InputEvent}
    (h : ∀ event ∈ events, motionOf axis event = 0) : motionSum axis events = 0 := by
  refine List.sum_eq_zero fun value hvalue => ?_
  obtain ⟨event, hevent, rfl⟩ := List.mem_map.mp hvalue
  exact h event hevent

theorem motionOf_type {axis : MotionAxis} {event : InputEvent} (h : event.type ≠ inputEvRel) :
    motionOf axis event = 0 := if_neg fun hmotion => h hmotion.1

theorem motionOf_self {axis : MotionAxis} {event : InputEvent} (htype : event.type = inputEvRel)
    (hreg : event.reg = axis.1) (hcode : event.code = axis.2.toUInt16) :
    motionOf axis event = event.value.toInt := if_pos ⟨htype, hreg, hcode⟩

theorem motionOf_other {axis other : MotionAxis} {event : InputEvent} (hne : other ≠ axis)
    (hreg : event.reg = axis.1) (hcode : event.code = axis.2.toUInt16) :
    motionOf other event = 0 := by
  refine if_neg fun hmotion => hne (Prod.ext (hmotion.2.1.symm.trans hreg) ?_)
  have hsame : other.2.toUInt16 = axis.2.toUInt16 := hmotion.2.2.symm.trans hcode
  have hnat := congrArg UInt16.toNat hsame
  rw [UInt8.toNat_toUInt16, UInt8.toNat_toUInt16] at hnat
  exact UInt8.toNat_inj.mp hnat

/-! ## Totals applied to an axis -/

/-- The totals a central applied to one axis since its baseline, untruncated, and
how many outputs there were before the baseline. -/
structure AxisTrace where
  mark : ℕ
  first : ℤ
  rest : List ℤ
  deriving DecidableEq

namespace AxisTrace

def applied (trace : AxisTrace) : List ℤ := trace.first :: trace.rest

def last (trace : AxisTrace) : ℤ := trace.applied.getLast (List.cons_ne_nil _ _)

def extend (trace : AxisTrace) (total : ℤ) : AxisTrace :=
  { trace with rest := trace.rest ++ [total] }

theorem applied_extend (trace : AxisTrace) (total : ℤ) :
    (trace.extend total).applied = trace.applied ++ [total] := rfl

theorem first_extend (trace : AxisTrace) (total : ℤ) :
    (trace.extend total).first = trace.first := rfl

theorem last_extend (trace : AxisTrace) (total : ℤ) : (trace.extend total).last = total := by
  simp only [last, applied_extend, List.getLast_append_singleton]

/-- Consecutive applied totals stay within the cap a track forwards. -/
def Bounded (trace : AxisTrace) : Prop := Residue.Bounded 8192 trace.applied

theorem bounded_extend {trace : AxisTrace} {total : ℤ} :
    (trace.extend total).Bounded ↔ trace.Bounded ∧ |total - trace.last| ≤ 8192 := by
  exact bounded_concat (List.cons_ne_nil _ _)

end AxisTrace

/-- A track that follows a trace: while the steps are bounded it holds the last
total, and what moved is exactly the way from the baseline to it. -/
structure Follows (trace : AxisTrace) (track : EsbMotionTrack) (moved : ℤ) : Prop where
  valid : track.valid = true
  exact : trace.Bounded →
    track.lastTotal = Int32.ofInt trace.last ∧ moved = trace.last - trace.first

theorem follows_first (mark : ℕ) (total : ℤ) :
    Follows ⟨mark, total, []⟩ (esbMotionTrackDelta .fresh (Int32.ofInt total)).1 0 :=
  ⟨rfl, fun _ => ⟨rfl, (sub_self total).symm⟩⟩

theorem Follows.event {trace : AxisTrace} {track : EsbMotionTrack} {moved : ℤ}
    (h : Follows trace track moved) (total : ℤ) :
    Follows (trace.extend total) (esbMotionTrackDelta track (Int32.ofInt total)).1
      (moved + ((esbMotionTrackDelta track (Int32.ofInt total)).2.getD 0).toInt) where
  valid := esbMotionTrackDelta_valid track _
  exact hbounded := by
    rw [AxisTrace.bounded_extend] at hbounded
    obtain ⟨hlast, hmoved⟩ := h.exact hbounded.1
    obtain ⟨htrack, hdelta⟩ := esbMotionTrackDelta_exact h.valid hbounded.2 hlast
    rw [htrack, hdelta, hmoved, AxisTrace.last_extend, AxisTrace.first_extend]
    exact ⟨rfl, by omega⟩

theorem Follows.heal {trace : AxisTrace} {track : EsbMotionTrack} {moved : ℤ}
    (h : Follows trace track moved) (total : ℤ) :
    Follows (trace.extend total) (esbMotionTrackShortDelta track (Int16.ofInt total)).1
      (moved + ((esbMotionTrackShortDelta track (Int16.ofInt total)).2.getD 0).toInt) where
  valid := esbMotionTrackShortDelta_valid h.valid _
  exact hbounded := by
    rw [AxisTrace.bounded_extend] at hbounded
    obtain ⟨hlast, hmoved⟩ := h.exact hbounded.1
    obtain ⟨htrack, hdelta⟩ := esbMotionTrackShortDelta_exact h.valid hbounded.2 hlast
    rw [htrack, hdelta, hmoved, AxisTrace.last_extend, AxisTrace.first_extend]
    exact ⟨rfl, by omega⟩

/-- What a packet's record carries: an axis and its untruncated total, if any. -/
abbrev Carried := Option (MotionAxis × ℤ)

/-- An event on the air and the total it carries: either the total of one of the
axes, flagged, or nothing and no motion of any of them. -/
inductive EventMark (axes : List MotionAxis) (event : InputEvent) : Carried → Prop where
  | total {axis : MotionAxis} {total : ℤ} (haxis : axis ∈ axes) (htype : event.type = inputEvRel)
      (hreg : event.reg = axis.1) (hcode : event.code = axis.2.toUInt16)
      (hsync : event.sync &&& esbWireInputTotal ≠ 0) (hvalue : event.value = Int32.ofInt total) :
      EventMark axes event (some (axis, total))
  | plain (hsync : event.sync &&& esbWireInputTotal = 0)
      (hmotion : ∀ axis ∈ axes, motionOf axis event = 0) : EventMark axes event none

/-- A keepalive record and the total it carries. -/
def HealMark (motion : EsbKeepaliveMotionTotal) (carried : Carried) : Prop :=
  ∃ total, carried = some ((motion.reg, motion.code), total) ∧
    motion.shortTotal = Int16.ofInt total

/-- The motion totals a keepalive carries. -/
def keepaliveTotals (keepalive : Bytes) : List EsbKeepaliveMotionTotal :=
  (List.range (esbKeepaliveMotionCount keepalive).toNat).map fun index =>
    esbKeepaliveMotionTotalAt keepalive (UInt8.ofNat index)

/-- An event total extends the trace of its axis, or becomes its baseline. -/
def hear (mark : ℕ) (axis : MotionAxis) (trace : Option AxisTrace) (carried : Carried) :
    Option AxisTrace :=
  match carried with
  | none => trace
  | some (carrier, total) =>
      if carrier = axis then
        match trace with
        | none => some ⟨mark, total, []⟩
        | some trace => some (trace.extend total)
      else trace

/-- A keepalive total extends the trace of its axis, but is no baseline. -/
def heal (axis : MotionAxis) (trace : Option AxisTrace) (carried : Carried) : Option AxisTrace :=
  match carried with
  | none => trace
  | some (carrier, total) => if carrier = axis then trace.map (·.extend total) else trace

/-- The slot of an axis is free before its baseline and follows its trace after. -/
def Tracked (trace : Option AxisTrace) (slot : Option EsbMotionTrack) (moved : ℤ) : Prop :=
  match trace with
  | none => slot = none
  | some trace => ∃ track, slot = some track ∧ Follows trace track moved

/-! ## Tracks of a pipe -/

namespace CentralInput

/-- The motion slots once a pending reset is taken. -/
def motions (input : CentralInput) : Slots MotionAxis EsbMotionTrack :=
  input.applyInputReset.trackedMotions

theorem motions_of_not_reset {input : CentralInput} (h : input.inputReset = false) :
    input.motions = input.trackedMotions := by
  rw [motions, applyInputReset, h]
  rfl

theorem applyInputReset_inputReset (input : CentralInput) :
    input.applyInputReset.inputReset = false := by
  rw [applyInputReset]
  cases h : input.inputReset with
  | true => rfl
  | false => exact h

theorem applyInputReset_motionHeardMs (input : CentralInput) :
    input.applyInputReset.motionHeardMs = input.motionHeardMs := by
  rw [applyInputReset]
  split_ifs <;> rfl

/-- Operations on keys and registers: no motion, no reset. -/
structure KeepsMotion (input input' : CentralInput) : Prop where
  trackedMotions : input'.trackedMotions = input.trackedMotions
  inputReset : input'.inputReset = input.inputReset
  motionHeardMs : input'.motionHeardMs = input.motionHeardMs

theorem KeepsMotion.refl (input : CentralInput) : KeepsMotion input input := ⟨rfl, rfl, rfl⟩

theorem KeepsMotion.trans {input input' input'' : CentralInput} (h : KeepsMotion input input')
    (h' : KeepsMotion input' input'') : KeepsMotion input input'' :=
  ⟨h'.trackedMotions.trans h.trackedMotions, h'.inputReset.trans h.inputReset,
    h'.motionHeardMs.trans h.motionHeardMs⟩

theorem noteInputReg_keepsMotion (input : CentralInput) (reg : UInt8) :
    KeepsMotion input (input.noteInputReg reg) := by
  rw [noteInputReg]
  split_ifs <;> exact ⟨rfl, rfl, rfl⟩

theorem trackKeyEvent_keepsMotion {input input' : CentralInput} {event : InputEvent}
    (h : input.trackKeyEvent event = some input') : KeepsMotion input input' := by
  rw [trackKeyEvent] at h
  dsimp only at h
  split_ifs at h <;> cases h <;> exact ⟨rfl, rfl, rfl⟩

theorem trackKeyEvent_of_type {input : CentralInput} {event : InputEvent}
    (h : event.type ≠ inputEvKey) : input.trackKeyEvent event = some input := if_pos h

/-! ### Events -/

theorem deliverEvent_prepared (input : CentralInput) (reg : UInt8) :
    let prepared := input.applyInputReset.noteInputReg reg
    prepared.inputReset = false ∧ prepared.trackedMotions = input.motions := by
  have hnote := noteInputReg_keepsMotion input.applyInputReset reg
  exact ⟨hnote.inputReset.trans (applyInputReset_inputReset input), hnote.trackedMotions⟩

/-- An event that carries no total leaves the motion slots alone and is forwarded
unchanged, if at all. -/
theorem deliverEvent_plain (input : CentralInput) (now : UInt32) {event : InputEvent}
    (h : event.sync &&& esbWireInputTotal = 0) :
    (input.deliverEvent now event).1.motions = input.motions ∧
      ∀ forwarded ∈ (input.deliverEvent now event).2, forwarded = event := by
  obtain ⟨hreset, hmotions⟩ := deliverEvent_prepared input event.reg
  simp only [deliverEvent]
  cases htrack : (input.applyInputReset.noteInputReg event.reg).trackKeyEvent event with
  | none =>
      refine ⟨(motions_of_not_reset hreset).trans hmotions, ?_⟩
      simp
  | some tracked =>
      have hkeeps := trackKeyEvent_keepsMotion htrack
      dsimp only
      rw [if_neg (not_not.mpr h)]
      refine ⟨?_, by simp⟩
      rw [motions_of_not_reset (hkeeps.inputReset.trans hreset), hkeeps.trackedMotions, hmotions]

/-- An event that carries a total moves the track of its axis to it and forwards
the difference; while the axes fit the slots a track is always found. -/
theorem deliverEvent_total {axes : List MotionAxis} {input : CentralInput}
    (within : Within axes input.motions) (now : UInt32) {event : InputEvent}
    (htype : event.type = inputEvRel) (hsync : event.sync &&& esbWireInputTotal ≠ 0)
    (haxis : (event.reg, event.code.toUInt8) ∈ axes) :
    let axis := (event.reg, event.code.toUInt8)
    let followed := esbMotionTrackDelta ((lookup axis input.motions).getD .fresh) event.value
    let delivered := input.deliverEvent now event
    Within axes delivered.1.motions ∧
      (∀ other, lookup other delivered.1.motions =
        if other = axis then some followed.1 else lookup other input.motions) ∧
      delivered.2 = [{ event with
        value := followed.2.getD 0, sync := event.sync &&& esbWireInputSync }] := by
  intro axis followed delivered
  obtain ⟨hreset, hmotions⟩ := deliverEvent_prepared input event.reg
  have hkey : event.type ≠ inputEvKey := by rw [htype]; decide
  obtain ⟨claimed, hclaim, hwithin, hlookup⟩ := within.claim haxis EsbMotionTrack.fresh
  have hself : lookup axis claimed = some ((lookup axis input.motions).getD .fresh) :=
    (hlookup axis).trans (if_pos rfl)
  have hmem : axis ∈ keys claimed :=
    (lookup_isSome_iff axis claimed).mp (by rw [hself]; rfl)
  have hdelivered : delivered = ({ input.applyInputReset.noteInputReg event.reg with
      motionHeardMs := now, trackedMotions := store axis followed.1 claimed },
      [{ event with value := followed.2.getD 0, sync := event.sync &&& esbWireInputSync }]) := by
    change input.deliverEvent now event = _
    simp only [deliverEvent]
    rw [trackKeyEvent_of_type hkey]
    dsimp only
    rw [if_pos hsync, motionTotalToDelta, hmotions]
    dsimp only
    rw [hclaim]
    dsimp only
    rw [hself]
    rfl
  have hslots : delivered.1.motions = store axis followed.1 claimed := by
    rw [hdelivered]
    exact motions_of_not_reset hreset
  rw [hslots]
  refine ⟨hwithin.store _ _, fun other => ?_, by rw [hdelivered]⟩
  by_cases hother : other = axis
  · rw [if_pos hother, hother, lookup_store_self hmem]
  · rw [if_neg hother, lookup_store_ne hother, hlookup other, if_neg hother]

/-- An event moves the track of the axis it carries to its total and forwards the
difference; before the baseline nothing has moved. -/
theorem deliverEvent_tracked {axes : List MotionAxis} {event : InputEvent} {carried : Carried}
    (hmark : EventMark axes event carried) {input : CentralInput}
    (within : Within axes input.motions) (now : UInt32) (mark : ℕ) :
    let delivered := input.deliverEvent now event
    Within axes delivered.1.motions ∧
      ∀ axis ∈ axes, ∀ trace moved, Tracked trace (lookup axis input.motions) moved →
        (trace = none → moved = 0) →
          Tracked (hear mark axis trace carried) (lookup axis delivered.1.motions)
            (moved + motionSum axis delivered.2) := by
  cases hmark with
  | plain hsync hmotion =>
      obtain ⟨hmotions, hforwarded⟩ := deliverEvent_plain input now hsync
      simp only [hmotions]
      refine ⟨within, fun axis haxis trace moved h _ => ?_⟩
      have hzero : motionSum axis (input.deliverEvent now event).2 = 0 :=
        motionSum_eq_zero fun e he => by rw [hforwarded e he]; exact hmotion axis haxis
      rw [hzero, add_zero]
      exact h
  | @total carrier total hcarrier htype hreg hcode hsync hvalue =>
      have hcode8 : event.code.toUInt8 = carrier.2 := by rw [hcode, UInt8.toUInt8_toUInt16]
      have hself : (event.reg, event.code.toUInt8) = carrier := Prod.ext hreg hcode8
      have hdeliver := deliverEvent_total within now htype hsync (by rw [hself]; exact hcarrier)
      rw [hself] at hdeliver
      obtain ⟨hwithin, hlookup, hforwarded⟩ := hdeliver
      refine ⟨hwithin, fun axis _ trace moved h hnone => ?_⟩
      have hheard : hear mark axis trace (some (carrier, total)) =
          if carrier = axis then some (trace.elim ⟨mark, total, []⟩ (·.extend total)) else trace := by
        cases trace <;> rfl
      rw [hlookup axis, hforwarded, hheard]
      by_cases haxis : axis = carrier
      · subst haxis
        have hsum : ∀ delta : Int32, motionSum axis [({ event with
            value := delta, sync := event.sync &&& esbWireInputSync } : InputEvent)] =
              delta.toInt := fun delta => (add_zero _).trans (motionOf_self htype hreg hcode)
        rw [if_pos rfl, if_pos rfl, hsum, hvalue]
        cases trace with
        | none =>
            have hslot : lookup axis input.motions = none := h
            rw [hslot, hnone rfl]
            exact ⟨_, rfl, follows_first mark total⟩
        | some trace =>
            obtain ⟨track, hslot, hfollows⟩ := h
            rw [hslot]
            exact ⟨_, rfl, hfollows.event total⟩
      · have hzero : ∀ delta : Int32, motionSum axis [({ event with
            value := delta, sync := event.sync &&& esbWireInputSync } : InputEvent)] = 0 :=
          fun delta => (add_zero _).trans (motionOf_other haxis hreg hcode)
        rw [if_neg haxis, if_neg (Ne.symm haxis), hzero, add_zero]
        exact h

/-! ### Keepalives -/

theorem releaseUnheldInputKeys_type (keepalive : Bytes)
    (slots : Slots EsbKeepaliveHeldKey Unit) :
    ∀ event ∈ (releaseUnheldInputKeys keepalive slots).2, event.type = inputEvKey := by
  induction slots with
  | nil => simp [releaseUnheldInputKeys]
  | cons slot slots ih =>
      cases slot with
      | none => exact ih
      | some entry =>
          obtain ⟨key, -⟩ := entry
          rw [releaseUnheldInputKeys]
          dsimp only
          split_ifs
          · exact ih
          · intro event hevent
            rcases List.mem_cons.mp hevent with rfl | hevent
            · rfl
            · exact ih event hevent

theorem pressHeldInputKey_keepsMotion (input : CentralInput) (key : EsbKeepaliveHeldKey) :
    KeepsMotion input (input.pressHeldInputKey key).1 ∧
      ∀ event ∈ (input.pressHeldInputKey key).2, event.type = inputEvKey := by
  rw [pressHeldInputKey]
  split_ifs
  · exact ⟨.refl input, by simp⟩
  · split
    · exact ⟨.refl input, by simp⟩
    · rename_i slots _
      have hnote := noteInputReg_keepsMotion { input with trackedInputKeys := slots } key.reg
      refine ⟨⟨hnote.trackedMotions, hnote.inputReset, hnote.motionHeardMs⟩, fun event hevent => ?_⟩
      rw [List.mem_singleton.mp hevent]
      rfl

theorem pressHeldInputKeys_keepsMotion (input : CentralInput) (held : List EsbKeepaliveHeldKey) :
    KeepsMotion input (input.pressHeldInputKeys held).1 ∧
      ∀ event ∈ (input.pressHeldInputKeys held).2, event.type = inputEvKey := by
  induction held generalizing input with
  | nil => exact ⟨.refl input, by simp [pressHeldInputKeys]⟩
  | cons key held ih =>
      obtain ⟨hkeeps, htype⟩ := pressHeldInputKey_keepsMotion input key
      obtain ⟨hkeeps', htype'⟩ := ih (input.pressHeldInputKey key).1
      refine ⟨hkeeps.trans hkeeps', fun event hevent => ?_⟩
      rcases List.mem_append.mp hevent with hfirst | hrest
      · exact htype event hfirst
      · exact htype' event hrest

/-- The heals of all totals, in order, before any sync flag is given out. -/
def motionHeals (input : CentralInput) : List EsbKeepaliveMotionTotal →
    CentralInput × List InputEvent
  | [] => (input, [])
  | motion :: totals =>
      let healed := input.motionHealAt motion
      let rest := motionHeals healed.1 totals
      (rest.1, healed.2.toList ++ rest.2)

/-- Only the last event of a report carries the sync flag. -/
def flagSync : List InputEvent → List InputEvent
  | [] => []
  | [event] => [{ event with sync := 1 }]
  | event :: next :: events => { event with sync := 0 } :: flagSync (next :: events)

/-- Holding each heal back until the next is found flags the last. -/
theorem healTotals_eq (input : CentralInput) (pending : Option InputEvent)
    (totals : List EsbKeepaliveMotionTotal) :
    input.healTotals pending totals =
      ((input.motionHeals totals).1, flagSync (pending.toList ++ (input.motionHeals totals).2)) := by
  induction totals generalizing input pending with
  | nil => cases pending <;> rfl
  | cons motion totals ih =>
      rw [healTotals, motionHeals]
      cases hheal : input.motionHealAt motion with
      | mk healed event =>
          cases event with
          | none => exact ih healed pending
          | some event =>
              dsimp only
              rw [ih healed (some event)]
              cases pending <;> rfl

theorem flagSync_sync {events : List InputEvent} (h : events ≠ []) :
    ∃ front last, flagSync events = front ++ [last] ∧ (∀ event ∈ front, event.sync = 0) ∧
      last.sync = 1 := by
  induction events with
  | nil => exact absurd rfl h
  | cons event events ih =>
      cases events with
      | nil => exact ⟨[], { event with sync := 1 }, rfl, by simp, rfl⟩
      | cons next events =>
          obtain ⟨front, last, heq, hfront, hlast⟩ := ih (List.cons_ne_nil _ _)
          refine ⟨{ event with sync := 0 } :: front, last, ?_, fun e he => ?_, hlast⟩
          · rw [flagSync, heq]
            rfl
          · rcases List.mem_cons.mp he with rfl | he
            · rfl
            · exact hfront e he

theorem motionSum_flagSync (axis : MotionAxis) (events : List InputEvent) :
    motionSum axis (flagSync events) = motionSum axis events := by
  induction events with
  | nil => rfl
  | cons event events ih =>
      cases events with
      | nil => rfl
      | cons next events =>
          change motionOf axis event + motionSum axis (flagSync (next :: events)) = _
          rw [ih]
          rfl

theorem motionHealAt_keeps {axes : List MotionAxis} {input : CentralInput}
    (within : Within axes input.trackedMotions) (motion : EsbKeepaliveMotionTotal) :
    Within axes (input.motionHealAt motion).1.trackedMotions ∧
      (input.motionHealAt motion).1.inputReset = input.inputReset := by
  rw [motionHealAt]
  dsimp only
  split
  · exact ⟨within, rfl⟩
  · exact ⟨within.store _ _, rfl⟩

theorem motionHealAt_tracked {input : CentralInput} {motion : EsbKeepaliveMotionTotal}
    {carried : Carried} (hmark : HealMark motion carried) {axis : MotionAxis}
    {trace : Option AxisTrace} {moved : ℤ}
    (h : Tracked trace (lookup axis input.trackedMotions) moved) :
    Tracked (heal axis trace carried)
      (lookup axis (input.motionHealAt motion).1.trackedMotions)
      (moved + motionSum axis (input.motionHealAt motion).2.toList) := by
  obtain ⟨total, rfl, hshort⟩ := hmark
  rw [motionHealAt, heal]
  dsimp only
  by_cases haxis : (motion.reg, motion.code) = axis
  · rw [if_pos haxis, haxis]
    cases trace with
    | none =>
        have hslot : lookup axis input.trackedMotions = none := h
        rw [hslot]
        exact hslot
    | some trace =>
        obtain ⟨track, hslot, hfollows⟩ := h
        have hmem : axis ∈ keys input.trackedMotions :=
          (lookup_isSome_iff axis _).mp (by rw [hslot]; rfl)
        have hself := lookup_store_self hmem (esbMotionTrackShortDelta track motion.shortTotal).1
        have hheal := hfollows.heal total
        rw [← hshort] at hheal
        rw [hslot]
        refine ⟨_, hself, ?_⟩
        dsimp only
        cases hdelta : (esbMotionTrackShortDelta track motion.shortTotal).2 with
        | none =>
            rw [hdelta] at hheal
            exact hheal
        | some delta =>
            rw [hdelta] at hheal
            have hmotion : motionSum axis [motionHealEvent motion delta] = delta.toInt := by
              rw [← haxis]
              exact (add_zero _).trans (motionOf_self rfl rfl rfl)
            change Follows _ _ (moved + motionSum axis [motionHealEvent motion delta])
            rw [hmotion]
            exact hheal
  · rw [if_neg haxis]
    cases hslot : lookup (motion.reg, motion.code) input.trackedMotions with
    | none =>
        rw [show moved + motionSum axis (Option.toList none) = moved from add_zero _]
        exact h
    | some track =>
        have hzero : motionSum axis ((esbMotionTrackShortDelta track motion.shortTotal).2.map
            (motionHealEvent motion)).toList = 0 := by
          refine motionSum_eq_zero fun event hevent => ?_
          obtain ⟨delta, -, rfl⟩ := Option.map_eq_some_iff.mp (Option.mem_toList.mp hevent)
          exact @motionOf_other (motion.reg, motion.code) axis _ (Ne.symm haxis) rfl rfl
        dsimp only
        rw [hzero, add_zero, lookup_store_ne (Ne.symm haxis)]
        exact h

theorem motionHeals_tracked {totals : List EsbKeepaliveMotionTotal} {carried : List Carried}
    (hmarks : List.Forall₂ HealMark totals carried) {axes : List MotionAxis} {input : CentralInput}
    (within : Within axes input.trackedMotions) :
    let healed := input.motionHeals totals
    Within axes healed.1.trackedMotions ∧ healed.1.inputReset = input.inputReset ∧
      ∀ axis trace moved, Tracked trace (lookup axis input.trackedMotions) moved →
        Tracked (carried.foldl (heal axis) trace) (lookup axis healed.1.trackedMotions)
          (moved + motionSum axis healed.2) := by
  induction hmarks generalizing input with
  | nil => exact ⟨within, rfl, fun axis trace moved h => by simpa [motionHeals, motionSum] using h⟩
  | @cons motion mark totals carried hmark _ ih =>
      obtain ⟨hwithin, hreset⟩ := motionHealAt_keeps within motion
      obtain ⟨hwithin', hreset', htracked⟩ := ih hwithin
      refine ⟨hwithin', hreset'.trans hreset, fun axis trace moved h => ?_⟩
      have hnext := htracked axis _ _ (motionHealAt_tracked hmark h)
      rw [add_assoc, ← motionSum_append] at hnext
      exact hnext

theorem healLostMotion_sync (input : CentralInput) (now hopWindowMs : UInt32)
    (keepalive : Bytes) :
    (input.healLostMotion now hopWindowMs keepalive).2 = [] ∨
      ∃ front last, (input.healLostMotion now hopWindowMs keepalive).2 = front ++ [last] ∧
        (∀ event ∈ front, event.sync = 0) ∧ last.sync = 1 := by
  rw [healLostMotion]
  split_ifs
  · rw [healTotals_eq]
    by_cases hnone : (input.motionHeals (keepaliveTotals keepalive)).2 = []
    · left
      change flagSync (input.motionHeals (keepaliveTotals keepalive)).2 = []
      rw [hnone]
      rfl
    · exact Or.inr (flagSync_sync hnone)
  · exact Or.inl rfl

/-- A keepalive moves the tracks to its totals and forwards the differences, or
does neither while motion was heard a moment ago. -/
theorem reconcile_tracked {keepalive : Bytes} {carried : List Carried}
    (hmarks : List.Forall₂ HealMark (keepaliveTotals keepalive) carried) {axes : List MotionAxis}
    {input : CentralInput} (within : Within axes input.motions) (now hopWindowMs : UInt32) :
    let reconciled := input.reconcile now hopWindowMs keepalive
    Within axes reconciled.1.motions ∧
      ∀ axis trace moved, Tracked trace (lookup axis input.motions) moved →
        Tracked
          (if esbMotionQuietEnough (now - input.motionHeardMs) hopWindowMs then
            carried.foldl (heal axis) trace else trace)
          (lookup axis reconciled.1.motions) (moved + motionSum axis reconciled.2) := by
  intro reconciled
  -- releases and presses of held keys come first and leave the motion alone
  have hreleased := releaseUnheldInputKeys_type keepalive input.applyInputReset.trackedInputKeys
  obtain ⟨hkeeps, hpressed⟩ := pressHeldInputKeys_keepsMotion
    { input.applyInputReset with
      trackedInputKeys :=
        (releaseUnheldInputKeys keepalive input.applyInputReset.trackedInputKeys).1 }
    ((List.range (esbKeepaliveHeldCount keepalive).toNat).map fun index =>
      esbKeepaliveHeldKeyAt keepalive (UInt8.ofNat index))
  set released := (releaseUnheldInputKeys keepalive input.applyInputReset.trackedInputKeys).2
    with hreleasedEq
  set keyed := CentralInput.pressHeldInputKeys _ _ with hkeyedEq
  have hmotions : keyed.1.trackedMotions = input.motions := hkeeps.trackedMotions
  have hreset : keyed.1.inputReset = false :=
    hkeeps.inputReset.trans (applyInputReset_inputReset input)
  have hheard : keyed.1.motionHeardMs = input.motionHeardMs :=
    hkeeps.motionHeardMs.trans (applyInputReset_motionHeardMs input)
  have hreconciled : reconciled = ((keyed.1.healLostMotion now hopWindowMs keepalive).1,
      released ++ (keyed.2 ++ (keyed.1.healLostMotion now hopWindowMs keepalive).2)) := rfl
  have hkeys : ∀ axis, motionSum axis reconciled.2 =
      motionSum axis (keyed.1.healLostMotion now hopWindowMs keepalive).2 := by
    intro axis
    have hnokey : inputEvKey ≠ inputEvRel := by decide
    rw [hreconciled, motionSum_append, motionSum_append,
      motionSum_eq_zero fun e he => motionOf_type (by rw [hreleased e he]; exact hnokey),
      motionSum_eq_zero fun e he => motionOf_type (by rw [hpressed e he]; exact hnokey),
      zero_add, zero_add]
  rw [← hmotions] at within
  rw [← hmotions, ← hheard]
  obtain ⟨hwithin, hreset', htracked⟩ := motionHeals_tracked hmarks within
  by_cases hquiet : esbMotionQuietEnough (now - keyed.1.motionHeardMs) hopWindowMs
  · have hheal : keyed.1.healLostMotion now hopWindowMs keepalive =
        ((keyed.1.motionHeals (keepaliveTotals keepalive)).1,
          flagSync (keyed.1.motionHeals (keepaliveTotals keepalive)).2) := by
      rw [healLostMotion, if_pos hquiet]
      exact healTotals_eq keyed.1 none _
    have hslots : reconciled.1.motions =
        (keyed.1.motionHeals (keepaliveTotals keepalive)).1.trackedMotions := by
      rw [hreconciled, hheal]
      exact motions_of_not_reset (hreset'.trans hreset)
    rw [hslots]
    refine ⟨hwithin, fun axis trace moved h => ?_⟩
    rw [if_pos hquiet, hkeys, hheal, motionSum_flagSync]
    exact htracked axis trace moved h
  · have hheal : keyed.1.healLostMotion now hopWindowMs keepalive = (keyed.1, []) := by
      rw [healLostMotion, if_neg hquiet]
    have hslots : reconciled.1.motions = keyed.1.trackedMotions := by
      rw [hreconciled, hheal]
      exact motions_of_not_reset hreset
    rw [hslots]
    refine ⟨within, fun axis trace moved h => ?_⟩
    rw [if_neg hquiet, hkeys, hheal]
    exact (add_zero moved).symm ▸ h

end CentralInput

end SplitEsb
