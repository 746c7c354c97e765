import Mathlib.Data.List.Chain
import SplitEsb.Central.State
import SplitEsb.Event.RoundTrip
import SplitEsb.Shared.Transition

/-! # The key stream handed to ZMK
Every key event forwarded for a pipe flips the bit tracked for its position, so
the stream of each position alternates and ends in what is tracked. -/

namespace SplitEsb

open ByteString BitTable

variable {L : EventLayout}

/-! ## Flips of a position bitmap -/

/-- Forwarded key events, each of which changes the tracked bit to its own value. -/
inductive Flips : PositionBitmap → List (ℕ × Bool) → PositionBitmap → Prop where
  | nil (row) : Flips row [] row
  | cons {row position value events row'} (hp : position < esbKeepalivePositionCount)
      (h : getBit row position ≠ value) :
      Flips (setBit row position value) events row' → Flips row ((position, value) :: events) row'

theorem Flips.append {row middle row' : PositionBitmap} {events more : List (ℕ × Bool)}
    (h : Flips row events middle) (h' : Flips middle more row') :
    Flips row (events ++ more) row' := by
  induction h with
  | nil row => exact h'
  | cons hp hflip _ ih => exact .cons hp hflip (ih h')

/-- The values forwarded for one position. -/
def streamAt (position : ℕ) (events : List (ℕ × Bool)) : List Bool :=
  events.filterMap fun event => if event.1 = position then some event.2 else none

theorem streamAt_append (position : ℕ) (events more : List (ℕ × Bool)) :
    streamAt position (events ++ more) = streamAt position events ++ streamAt position more :=
  List.filterMap_append

/-- The stream of a position that starts with `before` alternates through the
flips, and the last value is the bit that ends up tracked. -/
theorem Flips.alternates {row row' : PositionBitmap} {events : List (ℕ × Bool)}
    (h : Flips row events row') (position : ℕ) :
    (getBit row position :: streamAt position events).IsChain (· ≠ ·) ∧
      (getBit row position :: streamAt position events).getLast (List.cons_ne_nil _ _) =
        getBit row' position := by
  induction h with
  | nil row => exact ⟨List.isChain_singleton _, rfl⟩
  | @cons row p value events row' hp hflip _ ih =>
      by_cases hpos : p = position
      · subst hpos
        have hbit : getBit (setBit row p value) p = value := getBit_setBit_self hp value
        rw [hbit] at ih
        have hstream : streamAt p ((p, value) :: events) = value :: streamAt p events := by
          simp [streamAt]
        rw [hstream]
        refine ⟨List.isChain_cons_cons.mpr ⟨hflip, ih.1⟩, ?_⟩
        rw [List.getLast_cons (List.cons_ne_nil _ _)]
        exact ih.2
      · have hbit : getBit (setBit row p value) position = getBit row position :=
          getBit_setBit_ne (Ne.symm hpos) value
        have hstream : streamAt position ((p, value) :: events) = streamAt position events := by
          simp [streamAt, hpos]
        rw [hbit] at ih
        simpa only [hstream] using ih

/-! ## Key events among the outputs -/

def keyEventOf (pipe : ℕ) : CentralOutput L → Option (ℕ × Bool)
  | .peripheralEvent source (.keyPosition event) =>
      if source = pipe ∧ L.position event < esbKeepalivePositionCount then
        some (L.position event, L.pressed event)
      else none
  | _ => none

/-- The key events forwarded for a pipe, positions the bitmap covers only. -/
def keyEvents (pipe : ℕ) (outputs : List (CentralOutput L)) : List (ℕ × Bool) :=
  outputs.filterMap (keyEventOf pipe)

theorem keyEvents_append (pipe : ℕ) (outputs more : List (CentralOutput L)) :
    keyEvents pipe (outputs ++ more) = keyEvents pipe outputs ++ keyEvents pipe more :=
  List.filterMap_append

/-- What an operation on one pipe does to its tracked row and to the key events
forwarded, and that no other pipe is touched. -/
structure KeyEffect (pipe : ℕ) (events : List (ℕ × Bool)) (central central' : Central L) : Prop where
  flips : Flips (central.trackedPositions pipe) events (central'.trackedPositions pipe)
  forwarded : keyEvents pipe central'.outputs = keyEvents pipe central.outputs ++ events
  tracked_other : ∀ other ≠ pipe,
    central'.trackedPositions other = central.trackedPositions other
  forwarded_other : ∀ other ≠ pipe,
    keyEvents other central'.outputs = keyEvents other central.outputs

theorem KeyEffect.trans {pipe : ℕ} {events more : List (ℕ × Bool)} {c c' c'' : Central L}
    (h : KeyEffect pipe events c c') (h' : KeyEffect pipe more c' c'') :
    KeyEffect pipe (events ++ more) c c'' where
  flips := h.flips.append h'.flips
  forwarded := by rw [h'.forwarded, h.forwarded, List.append_assoc]
  tracked_other other hne := (h'.tracked_other other hne).trans (h.tracked_other other hne)
  forwarded_other other hne := (h'.forwarded_other other hne).trans (h.forwarded_other other hne)

/-- An operation that forwards no key event and tracks no position. -/
structure KeySilent (central central' : Central L) : Prop where
  tracked : central'.trackedPositions = central.trackedPositions
  forwarded : ∀ pipe, keyEvents pipe central'.outputs = keyEvents pipe central.outputs

theorem KeySilent.refl (central : Central L) : KeySilent central central := ⟨rfl, fun _ => rfl⟩

theorem KeySilent.trans {c c' c'' : Central L} (h : KeySilent c c') (h' : KeySilent c' c'') :
    KeySilent c c'' :=
  ⟨h'.tracked.trans h.tracked, fun pipe => (h'.forwarded pipe).trans (h.forwarded pipe)⟩

theorem KeySilent.effect {c c' : Central L} (h : KeySilent c c') (pipe : ℕ) :
    KeyEffect pipe [] c c' where
  flips := by rw [h.tracked]; exact .nil _
  forwarded := by rw [h.forwarded, List.append_nil]
  tracked_other other _ := by rw [h.tracked]
  forwarded_other other _ := h.forwarded other

/-- Outputs without key events are silent, whatever else they are. -/
theorem keySilent_of_outputs {c c' : Central L} {more : List (CentralOutput L)}
    (htracked : c'.trackedPositions = c.trackedPositions) (houtputs : c'.outputs = c.outputs ++ more)
    (hmore : ∀ pipe, ∀ output ∈ more, keyEventOf pipe output = none) : KeySilent c c' where
  tracked := htracked
  forwarded pipe := by
    have hnone : keyEvents pipe more = [] := List.filterMap_eq_nil_iff.mpr (hmore pipe)
    rw [houtputs, keyEvents_append, hnone, List.append_nil]

/-! ## Operations -/

theorem keyEventOf_keyPosition {pipe : ℕ} {event : Vector UInt8 L.keyPositionSize}
    (hp : L.position event < esbKeepalivePositionCount) :
    keyEventOf pipe (.peripheralEvent pipe (.keyPosition event) : CentralOutput L) =
      some (L.position event, L.pressed event) := by
  simp [keyEventOf, hp]

theorem keyEventOf_other {pipe other : ℕ} (hne : other ≠ pipe) (event : PeripheralEvent L) :
    keyEventOf other (.peripheralEvent pipe event : CentralOutput L) = none := by
  cases event with
  | keyPosition event => simp [keyEventOf, Ne.symm hne]
  | sensor event => rfl
  | input event => rfl
  | battery event => rfl

/-- Tracking a changed bit and forwarding the event that changed it is one flip. -/
theorem setTracked_emit_effect (central : Central L) {pipe : ℕ}
    {event : Vector UInt8 L.keyPositionSize} (hp : L.position event < esbKeepalivePositionCount)
    (hflip : getBit (central.trackedPositions pipe) (L.position event) ≠ L.pressed event) :
    KeyEffect pipe [(L.position event, L.pressed event)] central
      ((central.setTracked pipe (L.position event) (L.pressed event)).emit
        (.peripheralEvent pipe (.keyPosition event))) where
  flips := by
    refine .cons hp hflip ?_
    have hrow : (((central.setTracked pipe (L.position event) (L.pressed event)).emit
        (.peripheralEvent pipe (.keyPosition event))).trackedPositions pipe) =
        setBit (central.trackedPositions pipe) (L.position event) (L.pressed event) :=
      Function.update_self pipe _ _
    rw [hrow]
    exact .nil _
  forwarded := by
    change keyEvents pipe (central.outputs ++ [_]) = _
    rw [keyEvents_append]
    simp [keyEvents, keyEventOf_keyPosition hp]
  tracked_other other hne := Function.update_of_ne hne _ _
  forwarded_other other hne := by
    change keyEvents other (central.outputs ++ [_]) = _
    rw [keyEvents_append]
    simp [keyEvents, keyEventOf_other hne]

theorem forwardKeyPosition_effect (central : Central L) {pipe position : ℕ} {pressed : Bool}
    (hp : position < esbKeepalivePositionCount)
    (hflip : getBit (central.trackedPositions pipe) position ≠ pressed) :
    KeyEffect pipe [(position, pressed)] central
      ((central.setTracked pipe position pressed).forwardKeyPosition pipe position pressed) := by
  have hpos := L.position_keyPositionEvent position hp pressed
  have hpressed := L.pressed_keyPositionEvent position pressed
  have h := @setTracked_emit_effect L central pipe (L.keyPositionEvent position pressed)
    (by rw [hpos]; exact hp) (by rw [hpos, hpressed]; exact hflip)
  rw [hpos, hpressed] at h
  exact h

/-! ### The replay of a bitmap difference -/

def differs (tracked target : PositionBitmap) (position : ℕ) : Bool :=
  getBit tracked position != getBit target position

/-- The positions from `start` upward whose bits differ, ascending. -/
def diffPositions (tracked target : PositionBitmap) (start : ℕ) : List ℕ :=
  (List.range' start (esbKeepalivePositionCount - start)).filter (differs tracked target)

theorem esbKeepaliveBitmapDiffNext_succ {tracked target : PositionBitmap} {start : ℕ}
    (h : start < esbKeepalivePositionCount) :
    esbKeepaliveBitmapDiffNext tracked target start =
      if differs tracked target start then start
      else esbKeepaliveBitmapDiffNext tracked target (start + 1) := by
  obtain ⟨n, hn⟩ : ∃ n, esbKeepalivePositionCount - start = n + 1 :=
    ⟨esbKeepalivePositionCount - start - 1, by omega⟩
  have hn' : esbKeepalivePositionCount - (start + 1) = n := by omega
  rw [esbKeepaliveBitmapDiffNext, hn, List.range'_succ, List.find?_cons, esbKeepaliveBitmapDiffNext,
    hn']
  by_cases hd : differs tracked target start
  · have hd' : (getBit tracked start != getBit target start) = true := hd
    rw [if_pos hd, hd']
    rfl
  · have hd' : (getBit tracked start != getBit target start) = false := Bool.eq_false_iff.mpr hd
    rw [if_neg hd, hd']

theorem diffPositions_succ {tracked target : PositionBitmap} {start : ℕ}
    (h : start < esbKeepalivePositionCount) :
    diffPositions tracked target start =
      if differs tracked target start then start :: diffPositions tracked target (start + 1)
      else diffPositions tracked target (start + 1) := by
  obtain ⟨n, hn⟩ : ∃ n, esbKeepalivePositionCount - start = n + 1 :=
    ⟨esbKeepalivePositionCount - start - 1, by omega⟩
  have hn' : esbKeepalivePositionCount - (start + 1) = n := by omega
  rw [diffPositions, hn, List.range'_succ, List.filter_cons, diffPositions, hn']

theorem diffPositions_congr {tracked tracked' target : PositionBitmap} {start : ℕ}
    (h : ∀ p, start ≤ p → getBit tracked' p = getBit tracked p) :
    diffPositions tracked' target start = diffPositions tracked target start := by
  refine List.filter_congr fun p hp => ?_
  rw [List.mem_range'_1] at hp
  rw [differs, differs, h p hp.1]

/-- The replay loop forwards each differing position once, ascending, with the
target's value, and leaves the row equal to the target from there on. -/
theorem replayPositions_effect (target : PositionBitmap) (source : ℕ) (n : ℕ) (central : Central L)
    {start : ℕ} (hn : esbKeepalivePositionCount - start = n)
    (hstart : start ≤ esbKeepalivePositionCount) :
    let central' := Central.replayPositions source target central
      (esbKeepaliveBitmapDiffNext (central.trackedPositions source) target start)
    KeyEffect source ((diffPositions (central.trackedPositions source) target start).map
      fun p => (p, getBit target p)) central central' ∧
    ∀ p, getBit (central'.trackedPositions source) p =
      if start ≤ p then getBit target p else getBit (central.trackedPositions source) p := by
  induction n generalizing central start with
  | zero =>
      have hlast : start = esbKeepalivePositionCount := by omega
      have hnone : diffPositions (central.trackedPositions source) target start = [] := by
        rw [diffPositions, hn]
        rfl
      have hnext : esbKeepaliveBitmapDiffNext (central.trackedPositions source) target start =
          esbKeepalivePositionCount := by
        rw [esbKeepaliveBitmapDiffNext, hn]
        rfl
      rw [hnone, hnext, Central.replayPositions, if_neg (lt_irrefl _)]
      refine ⟨(KeySilent.refl central).effect source, fun p => ?_⟩
      split_ifs with hp
      · rw [hlast] at hp
        rw [getBit_of_le hp, getBit_of_le hp]
      · rfl
  | succ n ih =>
      have hlt : start < esbKeepalivePositionCount := by omega
      have hn' : esbKeepalivePositionCount - (start + 1) = n := by omega
      rw [esbKeepaliveBitmapDiffNext_succ hlt, diffPositions_succ hlt]
      by_cases hd : differs (central.trackedPositions source) target start
      · rw [if_pos hd, if_pos hd, Central.replayPositions, if_pos hlt]
        have hflip := forwardKeyPosition_effect central hlt (bne_iff_ne.mp hd)
        have hrow : ((central.setTracked source start (getBit target start)).forwardKeyPosition
            source start (getBit target start)).trackedPositions source =
            setBit (central.trackedPositions source) start (getBit target start) :=
          Function.update_self source _ _
        obtain ⟨heffect, hbits⟩ := ih _ hn' hlt
        have hcongr : diffPositions (setBit (central.trackedPositions source) start
            (getBit target start)) target (start + 1) =
            diffPositions (central.trackedPositions source) target (start + 1) :=
          diffPositions_congr fun p hp => getBit_setBit_ne (by omega) _
        refine ⟨hflip.trans (hcongr ▸ hrow ▸ heffect), fun p => ?_⟩
        refine (hbits p).trans ?_
        rw [hrow, getBit_setBit hlt]
        by_cases hp : p = start
        · rw [if_neg (by omega), if_pos hp, if_pos (by omega), hp]
        · rw [if_neg hp]
          exact if_congr (by omega) rfl rfl
      · rw [if_neg hd, if_neg hd]
        obtain ⟨heffect, hbits⟩ := ih central hn' hlt
        refine ⟨heffect, fun p => (hbits p).trans ?_⟩
        have hsame : getBit (central.trackedPositions source) start = getBit target start := by
          simpa [differs] using hd
        by_cases hp : p = start
        · rw [if_neg (by omega), if_pos (by omega), hp, hsame]
        · exact if_congr (by omega) rfl rfl

/-- A replay forwards exactly the difference to the target and adopts the target. -/
theorem replayPositionDiff_effect (central : Central L) {source : ℕ} (hs : source < esbLinkPipeMax)
    (target : PositionBitmap) :
    KeyEffect source ((diffPositions (central.trackedPositions source) target 0).map
      fun p => (p, getBit target p)) central (central.replayPositionDiff source target) ∧
    (central.replayPositionDiff source target).trackedPositions source = target := by
  obtain ⟨heffect, hbits⟩ :=
    replayPositions_effect target source _ central rfl (Nat.zero_le _)
  rw [Central.replayPositionDiff, if_neg (by omega)]
  exact ⟨heffect, table_ext_iff.mpr fun p => (hbits p).trans (if_pos (Nat.zero_le p))⟩

/-- A repeated press forwards the missed release first and leaves the bit set. -/
theorem healLostRelease_effect (central : Central L) {source : ℕ}
    {event : Vector UInt8 L.keyPositionSize} (hp : L.position event < esbKeepalivePositionCount)
    (hpressed : L.pressed event = true)
    (hbit : getBit (central.trackedPositions source) (L.position event) = true) :
    KeyEffect source [(L.position event, false), (L.position event, true)] central
      (((central.forwardKeyPosition source (L.position event) false).setTracked source
        (L.position event) true).emit (.peripheralEvent source (.keyPosition event))) where
  flips := by
    have hrow : ((((central.forwardKeyPosition source (L.position event) false).setTracked source
        (L.position event) true).emit
          (.peripheralEvent source (.keyPosition event))).trackedPositions source) =
        setBit (setBit (central.trackedPositions source) (L.position event) false)
          (L.position event) true :=
      (Function.update_self source _ _).trans (setBit_setBit _ _ _ _).symm
    have hreleased : getBit (setBit (central.trackedPositions source) (L.position event) false)
        (L.position event) ≠ true := by
      rw [getBit_setBit_self hp]
      decide
    rw [hrow]
    exact .cons hp (by rw [hbit]; decide) (.cons hp hreleased (.nil _))
  forwarded := by
    have hpos := L.position_keyPositionEvent (L.position event) hp false
    have hrelease := @keyEventOf_keyPosition L source
      (L.keyPositionEvent (L.position event) false) (by rw [hpos]; exact hp)
    rw [hpos, L.pressed_keyPositionEvent] at hrelease
    have hpress := @keyEventOf_keyPosition L source event hp
    rw [hpressed] at hpress
    change keyEvents source ((central.outputs ++ [_]) ++ [_]) = _
    rw [keyEvents_append, keyEvents_append, List.append_assoc]
    simp [keyEvents, hrelease, hpress]
  tracked_other other hne := Function.update_of_ne hne _ _
  forwarded_other other hne := by
    change keyEvents other ((central.outputs ++ [_]) ++ [_]) = _
    rw [keyEvents_append, keyEvents_append]
    simp [keyEvents, keyEventOf_other hne]

/-- The flips a key event makes: none for an orphan release, a release and a press
for a repeated press, else its own. -/
def deliverFlips (tracked : PositionBitmap) (position : ℕ) (pressed : Bool) : List (ℕ × Bool) :=
  match esbKeepaliveKeyVerdict tracked position pressed with
  | .dropOrphanRelease => []
  | .healLostRelease => [(position, false), (position, true)]
  | .forward => [(position, pressed)]

theorem deliverKeyEvent_effect (central : Central L) {source : ℕ} (hs : source < esbLinkPipeMax)
    {event : Vector UInt8 L.keyPositionSize} (hp : L.position event < esbKeepalivePositionCount) :
    KeyEffect source (deliverFlips (central.trackedPositions source) (L.position event)
        (L.pressed event)) central (central.deliverKeyEvent source event) ∧
    (central.deliverKeyEvent source event).trackedPositions source =
      setBit (central.trackedPositions source) (L.position event) (L.pressed event) := by
  have hguard : ¬(esbLinkPipeMax ≤ source ∨ esbKeepalivePositionCount ≤ L.position event) := by
    omega
  simp only [Central.deliverKeyEvent, deliverFlips]
  rw [if_neg hguard]
  cases hbit : getBit (central.trackedPositions source) (L.position event) with
  | false =>
      cases hpressed : L.pressed event with
      | false =>
          have hverdict : esbKeepaliveKeyVerdict (central.trackedPositions source)
              (L.position event) false = .dropOrphanRelease := by
            simp [esbKeepaliveKeyVerdict, hbit]
          rw [hverdict]
          refine ⟨(KeySilent.refl central).effect source, table_ext_iff.mpr fun p => ?_⟩
          rw [getBit_setBit hp]
          split_ifs with h
          · rw [h, hbit]
          · rfl
      | true =>
          have hverdict : esbKeepaliveKeyVerdict (central.trackedPositions source)
              (L.position event) true = .forward := by
            simp [esbKeepaliveKeyVerdict, hbit]
          rw [hverdict]
          have h := setTracked_emit_effect central hp (by rw [hbit, hpressed]; decide)
          rw [hpressed] at h
          exact ⟨h, Function.update_self source _ _⟩
  | true =>
      cases hpressed : L.pressed event with
      | false =>
          have hverdict : esbKeepaliveKeyVerdict (central.trackedPositions source)
              (L.position event) false = .forward := by
            simp [esbKeepaliveKeyVerdict, hbit]
          rw [hverdict]
          have h := setTracked_emit_effect central hp (by rw [hbit, hpressed]; decide)
          rw [hpressed] at h
          exact ⟨h, Function.update_self source _ _⟩
      | true =>
          have hverdict : esbKeepaliveKeyVerdict (central.trackedPositions source)
              (L.position event) true = .healLostRelease := by
            simp [esbKeepaliveKeyVerdict, hbit]
          rw [hverdict]
          exact ⟨healLostRelease_effect central hp hpressed hbit, Function.update_self source _ _⟩

/-! ### Operations that leave the keys alone -/

theorem emit_silent (central : Central L) {output : CentralOutput L}
    (h : ∀ pipe, keyEventOf pipe output = none) : KeySilent central (central.emit output) :=
  keySilent_of_outputs rfl rfl fun pipe o ho => by rw [List.mem_singleton.mp ho]; exact h pipe

theorem reconcileBattery_silent (central : Central L) (source : ℕ) (level : UInt8) :
    KeySilent central (central.reconcileBattery source level) := by
  rw [Central.reconcileBattery]
  split_ifs
  · exact .refl central
  · exact .refl central
  · exact ⟨rfl, fun pipe =>
      (emit_silent _ (fun _ => rfl : ∀ p, keyEventOf p (.batteryState source level) = none)).forwarded
        pipe⟩

theorem sensorDeltaValue_silent (config : CentralConfig) (central : Central L)
    (source sensorIndex : ℕ) (totalUdeg : Int64) :
    KeySilent central (central.sensorDeltaValue config source sensorIndex totalUdeg).1 := by
  rw [Central.sensorDeltaValue]
  split_ifs
  · exact .refl central
  · exact ⟨rfl, fun _ => rfl⟩

theorem sensorEventToDelta_silent (config : CentralConfig) (central : Central L) (source : ℕ)
    (event : Vector UInt8 L.sensorSize) :
    KeySilent central (central.sensorEventToDelta config source event).1 := by
  rw [Central.sensorEventToDelta]
  split_ifs
  · exact .refl central
  · exact sensorDeltaValue_silent config central source _ _

theorem reconcileSensorTotal_silent (config : CentralConfig) (source : ℕ) (keepalive : Bytes)
    (central : Central L) (sensorIndex : ℕ) :
    KeySilent central (Central.reconcileSensorTotal config source keepalive central sensorIndex) := by
  have hdelta := sensorDeltaValue_silent config central source sensorIndex
    (esbKeepaliveSensorTotalUdeg keepalive (UInt8.ofNat sensorIndex))
  rw [Central.reconcileSensorTotal]
  cases hvalue : central.sensorDeltaValue config source sensorIndex
      (esbKeepaliveSensorTotalUdeg keepalive (UInt8.ofNat sensorIndex)) with
  | mk central' value =>
      rw [hvalue] at hdelta
      cases value with
      | none => exact hdelta
      | some value => exact hdelta.trans (emit_silent _ fun _ => rfl)

theorem reconcileSensorTotals_silent (config : CentralConfig) (central : Central L) (source : ℕ)
    (keepalive : Bytes) (length : UInt8) :
    KeySilent central (central.reconcileSensorTotals config source keepalive length) := by
  rw [Central.reconcileSensorTotals]
  split_ifs
  · exact .refl central
  · have hfold : ∀ (indices : List ℕ) (c : Central L), KeySilent c
        (indices.foldl (Central.reconcileSensorTotal config source keepalive) c) := by
      intro indices
      induction indices with
      | nil => exact fun c => .refl c
      | cons index indices ih =>
          intro c
          exact (reconcileSensorTotal_silent config source keepalive c index).trans (ih _)
    exact hfold _ central

theorem releaseInput_silent (central : Central L) (pipe : ℕ) :
    KeySilent central (central.releaseInput pipe) := by
  rw [Central.releaseInput]
  split_ifs
  · exact .refl central
  · refine keySilent_of_outputs rfl rfl fun _ output houtput => ?_
    obtain ⟨reg, -, rfl⟩ := List.mem_map.mp houtput
    rfl

theorem sensorTracksReset_silent (central : Central L) (source : ℕ) :
    KeySilent central (central.sensorTracksReset source) := by
  rw [Central.sensorTracksReset]
  split_ifs
  · exact .refl central
  · exact ⟨rfl, fun _ => rfl⟩

theorem putInbound_silent (config : CentralConfig) (central : Central L)
    (inbound : CentralInbound L) : KeySilent central (central.putInbound config inbound) := by
  rw [Central.putInbound]
  split_ifs
  · exact ⟨rfl, fun _ => rfl⟩
  · exact .refl central

theorem emitInput_silent (central : Central L) (pipe : ℕ) (input : CentralInput)
    (events : List InputEvent) : KeySilent central (central.emitInput pipe input events) := by
  refine keySilent_of_outputs rfl rfl fun _ output houtput => ?_
  obtain ⟨event, -, rfl⟩ := List.mem_map.mp houtput
  rfl

theorem inputReconcile_silent (config : CentralConfig) (central : Central L) (pipe : ℕ)
    (now : UInt32) (keepalive : Bytes) :
    KeySilent central (central.inputReconcile config pipe now keepalive) := by
  rw [Central.inputReconcile]
  split_ifs
  · exact .refl central
  · exact emitInput_silent central pipe _ _

theorem inputDeliverEvent_silent (central : Central L) (pipe : ℕ) (now : UInt32)
    (event : InputEvent) : KeySilent central (central.inputDeliverEvent pipe now event) := by
  rw [Central.inputDeliverEvent]
  split_ifs
  · exact emit_silent central fun _ => rfl
  · exact emitInput_silent central pipe _ _

theorem dispatchEvent_silent (config : CentralConfig) (pipe : ℕ) (now : UInt32)
    (central : Central L) (event : PeripheralEvent L) :
    KeySilent central (Central.dispatchEvent config pipe now central event) := by
  cases event with
  | input event => exact inputDeliverEvent_silent central pipe now event
  | keyPosition event => exact putInbound_silent config central _
  | sensor event => exact putInbound_silent config central _
  | battery event => exact putInbound_silent config central _

theorem ingestKeepalive_silent (config : CentralConfig) (pipe : ℕ) (now : UInt32)
    (central : Central L) (data : Bytes) :
    KeySilent central (Central.ingestKeepalive config pipe now central data) :=
  (inputReconcile_silent config central pipe now data).trans (putInbound_silent config _ _)

theorem applyHostIndicators_silent (config : CentralConfig) (central : Central L) (leds : UInt8) :
    KeySilent central (central.applyHostIndicators config leds) := by
  rw [Central.applyHostIndicators]
  split_ifs
  · exact emit_silent central fun _ => rfl
  · exact .refl central

theorem ingestPacket_silent (config : CentralConfig) (central : Central L) (pipe : ℕ)
    (now : UInt32) (data : Bytes) :
    KeySilent central (central.ingestPacket config pipe now data) := by
  rw [Central.ingestPacket, centralIngestPacket]
  split_ifs
  · exact applyHostIndicators_silent config central _
  · exact ingestKeepalive_silent config pipe now central data
  · rw [ingestEvents_eq_foldl]
    generalize decodedEvents L (List.drop 0 data) = events
    induction events generalizing central with
    | nil => exact .refl central
    | cons event events ih => exact (dispatchEvent_silent config pipe now central event).trans (ih _)

/-! ## The system -/

inductive CentralAction where
  /-- The receive thread hands over a packet at an uptime. -/
  | ingest (pipe : ℕ) (now : UInt32) (data : Bytes)
  /-- The event work takes the next queued item. -/
  | work
  /-- The staleness tick releases a silent pipe. -/
  | releaseStale (pipe : ℕ)

def Central.step (config : CentralConfig) (central : Central L) : CentralAction → Central L
  | .ingest pipe now data => central.ingestPacket config pipe now data
  | .work => central.eventWorkStep config
  | .releaseStale pipe => central.releaseStalePipe pipe

/-- The key events forwarded for a pipe grow by flips of its tracked row. -/
def KeyGrowth (pipe : ℕ) (central central' : Central L) : Prop :=
  ∃ events, Flips (central.trackedPositions pipe) events (central'.trackedPositions pipe) ∧
    keyEvents pipe central'.outputs = keyEvents pipe central.outputs ++ events

theorem KeyEffect.growth {source : ℕ} {events : List (ℕ × Bool)} {c c' : Central L}
    (h : KeyEffect source events c c') (pipe : ℕ) : KeyGrowth pipe c c' := by
  by_cases hpipe : pipe = source
  · subst hpipe
    exact ⟨events, h.flips, h.forwarded⟩
  · refine ⟨[], ?_, ?_⟩
    · rw [h.tracked_other pipe hpipe]
      exact .nil _
    · rw [h.forwarded_other pipe hpipe, List.append_nil]

theorem KeySilent.growth {c c' : Central L} (h : KeySilent c c') (pipe : ℕ) : KeyGrowth pipe c c' :=
  (h.effect pipe).growth pipe

theorem replayPositionDiff_growth (central : Central L) (source : ℕ) (target : PositionBitmap)
    (pipe : ℕ) : KeyGrowth pipe central (central.replayPositionDiff source target) := by
  by_cases hs : source < esbLinkPipeMax
  · exact (replayPositionDiff_effect central hs target).1.growth pipe
  · rw [Central.replayPositionDiff, if_pos (by omega)]
    exact (KeySilent.refl central).growth pipe

theorem KeyGrowth.silent {pipe : ℕ} {c c' c'' : Central L} (h : KeyGrowth pipe c c')
    (h' : KeySilent c' c'') : KeyGrowth pipe c c'' := by
  obtain ⟨events, hflips, hforwarded⟩ := h
  exact ⟨events, by rw [h'.tracked]; exact hflips, by rw [h'.forwarded]; exact hforwarded⟩

/-- What a keepalive does after its replay leaves the keys alone. -/
theorem handleKeepalive_replay (config : CentralConfig) (central : Central L) (source : ℕ)
    (keepalive : Bytes) (length : UInt8) :
    KeySilent (central.replayPositionDiff source (esbKeepaliveBitmap keepalive))
      (central.handleKeepalive config source keepalive length) := by
  rw [Central.handleKeepalive]
  split_ifs
  · exact (reconcileBattery_silent _ _ _).trans (reconcileSensorTotals_silent config _ _ _ _)
  · exact reconcileSensorTotals_silent config _ _ _ _

theorem deliverKeyEvent_growth (central : Central L) {source pipe : ℕ}
    (hpipe : pipe < esbLinkPipeMax) (event : Vector UInt8 L.keyPositionSize) :
    KeyGrowth pipe central (central.deliverKeyEvent source event) := by
  by_cases hguard : esbLinkPipeMax ≤ source ∨ esbKeepalivePositionCount ≤ L.position event
  · have hdeliver : central.deliverKeyEvent source event =
        central.emit (.peripheralEvent source (.keyPosition event)) := by
      simp only [Central.deliverKeyEvent]
      rw [if_pos hguard]
    have hnone : keyEventOf pipe (.peripheralEvent source (.keyPosition event) : CentralOutput L) =
        none := by
      rw [keyEventOf, if_neg (by omega)]
    refine ⟨[], ?_, ?_⟩
    · rw [hdeliver]
      exact .nil _
    · rw [hdeliver]
      change keyEvents pipe (central.outputs ++ [_]) = _
      rw [keyEvents_append]
      simp [keyEvents, hnone]
  · exact (deliverKeyEvent_effect central (by omega) (by omega)).1.growth pipe

/-- Handling an event of another kind forwards no key event. -/
theorem handleEvent_silent (config : CentralConfig) (central : Central L) (source : ℕ)
    {event : PeripheralEvent L} (h : ¬event.IsKey) :
    KeySilent central (central.handleEvent config source event) := by
  cases event with
  | keyPosition event => exact absurd trivial h
  | battery event =>
      rw [Central.handleEvent]
      split_ifs
      · exact reconcileBattery_silent central source _
      · exact .refl central
      · exact emit_silent central fun _ => rfl
  | input event => exact emit_silent central fun _ => rfl
  | sensor event =>
      have hdelta := sensorEventToDelta_silent config central source event
      rw [Central.handleEvent]
      cases hresult : central.sensorEventToDelta config source event with
      | mk central' event' =>
          rw [hresult] at hdelta
          cases event' with
          | none => exact hdelta
          | some event' => exact hdelta.trans (emit_silent _ fun _ => rfl)

theorem handleEvent_growth (config : CentralConfig) (central : Central L) {source pipe : ℕ}
    (hpipe : pipe < esbLinkPipeMax) (event : PeripheralEvent L) :
    KeyGrowth pipe central (central.handleEvent config source event) := by
  by_cases hkey : event.IsKey
  · cases event with
    | keyPosition event => exact deliverKeyEvent_growth central hpipe event
    | sensor event => cases hkey
    | input event => cases hkey
    | battery event => cases hkey
  · exact (handleEvent_silent config central source hkey).growth pipe

theorem handleInbound_growth (config : CentralConfig) (central : Central L)
    (inbound : CentralInbound L) {pipe : ℕ} (hpipe : pipe < esbLinkPipeMax) :
    KeyGrowth pipe central (central.handleInbound config inbound) := by
  cases inbound with
  | mk source data =>
      cases data with
      | keepalive data length =>
          exact (replayPositionDiff_growth central source _ pipe).silent
            (handleKeepalive_replay config central source data length)
      | event event => exact handleEvent_growth config central hpipe event

/-- What a staleness release does after its replay leaves the keys alone. -/
theorem releaseStalePipe_replay (central : Central L) (source : ℕ) :
    KeySilent (central.replayPositionDiff source (Vector.replicate _ 0))
      (central.releaseStalePipe source) :=
  (releaseInput_silent _ source).trans (sensorTracksReset_silent _ source)

/-- A staleness release clears the row it releases. -/
theorem releaseStalePipe_row (central : Central L) {source : ℕ} (hs : source < esbLinkPipeMax) :
    (central.releaseStalePipe source).trackedPositions source = Vector.replicate _ 0 := by
  rw [(releaseStalePipe_replay central source).tracked]
  exact (replayPositionDiff_effect central hs _).2

/-! ### Other pipes -/

theorem replayPositionDiff_other (central : Central L) {source pipe : ℕ} (hne : pipe ≠ source)
    (target : PositionBitmap) :
    (central.replayPositionDiff source target).trackedPositions pipe =
      central.trackedPositions pipe := by
  by_cases hs : source < esbLinkPipeMax
  · exact (replayPositionDiff_effect central hs target).1.tracked_other pipe hne
  · rw [Central.replayPositionDiff, if_pos (by omega)]

theorem releaseStalePipe_other (central : Central L) {source pipe : ℕ} (hne : pipe ≠ source) :
    (central.releaseStalePipe source).trackedPositions pipe = central.trackedPositions pipe := by
  rw [(releaseStalePipe_replay central source).tracked]
  exact replayPositionDiff_other central hne _

theorem deliverKeyEvent_other (central : Central L) {source pipe : ℕ} (hne : pipe ≠ source)
    (event : Vector UInt8 L.keyPositionSize) :
    (central.deliverKeyEvent source event).trackedPositions pipe =
      central.trackedPositions pipe := by
  by_cases hguard : esbLinkPipeMax ≤ source ∨ esbKeepalivePositionCount ≤ L.position event
  · simp only [Central.deliverKeyEvent]
    rw [if_pos hguard]
    rfl
  · exact (deliverKeyEvent_effect central (by omega) (by omega)).1.tracked_other pipe hne

/-- An item of one pipe leaves the rows of the others alone. -/
theorem handleInbound_other (config : CentralConfig) (central : Central L)
    {inbound : CentralInbound L} {pipe : ℕ} (hne : pipe ≠ inbound.source) :
    (central.handleInbound config inbound).trackedPositions pipe =
      central.trackedPositions pipe := by
  cases inbound with
  | mk source data =>
      cases data with
      | keepalive data length =>
          change (central.handleKeepalive config source data length).trackedPositions pipe = _
          rw [(handleKeepalive_replay config central source data length).tracked]
          exact replayPositionDiff_other central hne _
      | event event =>
          by_cases hkey : event.IsKey
          · cases event with
            | keyPosition event => exact deliverKeyEvent_other central hne event
            | sensor event => cases hkey
            | input event => cases hkey
            | battery event => cases hkey
          · exact congrFun (handleEvent_silent config central source hkey).tracked pipe

/-- One step of the system forwards only key events that flip the tracked row. -/
theorem central_step_growth (config : CentralConfig) (central : Central L) (action : CentralAction)
    {pipe : ℕ} (hpipe : pipe < esbLinkPipeMax) :
    KeyGrowth pipe central (central.step config action) := by
  cases action with
  | ingest source now data => exact (ingestPacket_silent config central source now data).growth pipe
  | releaseStale source =>
      exact (replayPositionDiff_growth central source _ pipe).silent
        (releaseStalePipe_replay central source)
  | work =>
      rw [Central.step, Central.eventWorkStep]
      cases hqueue : central.eventMsgq with
      | nil => exact (KeySilent.refl central).growth pipe
      | cons inbound queue =>
          exact handleInbound_growth config { central with eventMsgq := queue } inbound hpipe

/-- Along every run, the key events forwarded so far lead from the empty bitmap
to the tracked row by flips. -/
theorem run_flips (config : CentralConfig) {pipe : ℕ} (hpipe : pipe < esbLinkPipeMax)
    (actions : List CentralAction) :
    Flips (Vector.replicate _ 0)
      (keyEvents pipe (Transition.run (Central.step config) (Central.init L config) actions).outputs)
      ((Transition.run (Central.step config) (Central.init L config) actions).trackedPositions
        pipe) := by
  refine @Transition.run_invariant _ _ (Central.step config) (fun central : Central L =>
    Flips (Vector.replicate _ 0) (keyEvents pipe central.outputs) (central.trackedPositions pipe))
    ?_ _ ?_ actions
  · intro central action hinv
    obtain ⟨events, hflips, hforwarded⟩ := central_step_growth config central action hpipe
    rw [hforwarded]
    exact hinv.append hflips
  · exact .nil _

/-- In every reachable state and for every pipe: each position's forwarded events
alternate from a press and end in the tracked bit; a keepalive forwards exactly
the differing positions, ascending, with its own values; a second keepalive with
the same bitmap forwards no key event. -/
theorem key_stream_well_formed (L : EventLayout) (config : CentralConfig)
    (actions : List CentralAction) (pipe : ℕ) (hpipe : pipe < esbLinkPipeMax) :
    let central := Transition.run (Central.step config) (Central.init L config) actions
    (∀ position < esbKeepalivePositionCount,
      let stream := streamAt position (keyEvents pipe central.outputs)
      (false :: stream).IsChain (· ≠ ·) ∧
      getBit (central.trackedPositions pipe) position = stream.getLast?.getD false) ∧
    ∀ (data : Bytes) (length : UInt8),
      let handled := central.handleInbound config ⟨pipe, .keepalive data length⟩
      keyEvents pipe handled.outputs = keyEvents pipe central.outputs ++
        ((List.range esbKeepalivePositionCount).filter fun position =>
          getBit (central.trackedPositions pipe) position !=
            getBit (esbKeepaliveBitmap data) position).map
          (fun position => (position, getBit (esbKeepaliveBitmap data) position)) ∧
      ∀ (data' : Bytes) (length' : UInt8), esbKeepaliveBitmap data' = esbKeepaliveBitmap data →
        keyEvents pipe (handled.handleInbound config ⟨pipe, .keepalive data' length'⟩).outputs =
          keyEvents pipe handled.outputs := by
  intro central
  refine ⟨fun position _ => ?_, fun data length => ?_⟩
  · have halternates := (run_flips (L := L) config hpipe actions).alternates position
    rw [getBit_replicate_zero] at halternates
    refine ⟨halternates.1, halternates.2.symm.trans ?_⟩
    rw [List.getLast_eq_iff_getLast?_eq_some, List.getLast?_cons]
  · have hreplay := replayPositionDiff_effect central hpipe (esbKeepaliveBitmap data)
    have hsilent := handleKeepalive_replay config central pipe data length
    refine ⟨?_, fun data' length' hsame => ?_⟩
    · change keyEvents pipe (central.handleKeepalive config pipe data length).outputs = _
      rw [hsilent.forwarded, hreplay.1.forwarded, List.range_eq_range']
      rfl
    · have hrow : (central.handleKeepalive config pipe data length).trackedPositions pipe =
          esbKeepaliveBitmap data := by rw [hsilent.tracked, hreplay.2]
      have hagain := replayPositionDiff_effect (central.handleKeepalive config pipe data length)
        hpipe (esbKeepaliveBitmap data')
      have hnone : diffPositions (esbKeepaliveBitmap data) (esbKeepaliveBitmap data) 0 = [] := by
        rw [diffPositions, List.filter_eq_nil_iff]
        intro p _
        simp [differs]
      change keyEvents pipe ((central.handleKeepalive config pipe data length).handleKeepalive
        config pipe data' length').outputs = _
      rw [(handleKeepalive_replay config _ pipe data' length').forwarded, hagain.1.forwarded, hrow,
        hsame, hnone, List.map_nil, List.append_nil]
      rfl

def sampleCentralConfig : CentralConfig where
  maxPayload := 64
  event_fits := by decide
  eventQueueSize := 8
  sensorsLen := 0
  heldKeysMax := 4
  hopWindowMs := 32
  batteryReporting := true
  batteryLevelFetching := false
  hidIndicators := true

/-- A press and a lost release on pipe 1, then a keepalive that shows it released. -/
theorem key_stream_well_formed_sample :
    (false :: streamAt 5 (keyEvents 1 (Transition.run (Central.step sampleCentralConfig)
      (Central.init zmkLayout sampleCentralConfig)
      [.ingest 1 0 [0, 5, 1], .work, .ingest 1 9 (255 :: List.replicate 13 0), .work]).outputs)
    ).IsChain (· ≠ ·) :=
  ((key_stream_well_formed zmkLayout sampleCentralConfig
    [.ingest 1 0 [0, 5, 1], .work, .ingest 1 9 (255 :: List.replicate 13 0), .work] 1
    (by decide)).1 5 (by decide)).1

end SplitEsb
