import Mathlib.Data.Int.Basic
import SplitEsb.Shared.Transition

/-! # Radio settings
A setting the busy radio refuses stays pending, and `esb_link_apply_pending` offers it
again. One thread requests a setting; an offer may interrupt it after any statement, and
runs to completion. -/

namespace SplitEsb

open Transition

def ebusy : ℤ := 16
def einval : ℤ := 22

inductive RadioSettingName where
  | txPower
  | retransmitCount
  | retransmitDelay
  deriving DecidableEq, Repr

/-- The argument `apply` hands to the radio. -/
def RadioSettingName.argument : RadioSettingName → Int32 → ℤ
  | .txPower, value => value.toInt8.toInt
  | .retransmitCount, value => value.toUInt32.toUInt16.toNat
  | .retransmitDelay, value => value.toUInt32.toUInt16.toNat

/-- The statement of `request_setting` a call has come to. -/
inductive RequestStage where
  | idle
  | requested
  | armed
  | taken
  | offering (value : Int32)
  | answered (value : Int32) (error : ℤ)
  deriving DecidableEq, Repr

/-- A setting and the call that requests it. What `returned` is the last call's result,
`radio` what the radio accepted last, and `answers` only records what it was offered and
answered. -/
structure RadioSetting where
  requested : Int32
  applied : Int32
  pending : Bool
  stage : RequestStage
  returned : ℤ
  radio : ℤ
  answers : List (ℤ × ℤ)
  deriving Repr

namespace RadioSetting

/-- The radio starts with what the devicetree says. -/
def boot (name : RadioSettingName) (value : Int32) : RadioSetting where
  requested := value
  applied := value
  pending := false
  stage := .idle
  returned := 0
  radio := name.argument value
  answers := []

/-- `setting->apply(value)`, answered with an error of zero or below. -/
def offer (name : RadioSettingName) (setting : RadioSetting) (value : Int32) (error : ℤ) :
    RadioSetting :=
  { setting with
    radio := if error = 0 then name.argument value else setting.radio
    answers := setting.answers ++ [(name.argument value, error)] }

def applySetting (name : RadioSettingName) (setting : RadioSetting) (error : ℤ) :
    RadioSetting × ℤ :=
  if setting.pending then
    let setting := { setting with pending := false }
    let value := setting.requested
    let setting := setting.offer name value error
    if error = -ebusy then ({ setting with pending := true }, 0)
    else if error = 0 then ({ setting with applied := value }, error)
    else (setting, error)
  else (setting, 0)

/-- A call of `request_setting` begins with its first statement. -/
def request (setting : RadioSetting) (value : Int32) : RadioSetting :=
  match setting.stage with
  | .idle => { setting with requested := value, stage := .requested }
  | _ => setting

def finish (setting : RadioSetting) (returned : ℤ) : RadioSetting :=
  { setting with stage := .idle, returned := returned }

/-- The next statement of the call. -/
def work (name : RadioSettingName) (setting : RadioSetting) (error : ℤ) : RadioSetting :=
  match setting.stage with
  | .idle => setting
  | .requested => { setting with pending := true, stage := .armed }
  | .armed =>
      if setting.pending then { setting with pending := false, stage := .taken }
      else setting.finish 0
  | .taken => { setting with stage := .offering setting.requested }
  | .offering value => { setting.offer name value error with stage := .answered value error }
  | .answered value error =>
      if error = -ebusy then { setting with pending := true }.finish 0
      else if error = 0 then { setting with applied := value }.finish error
      else setting.finish error

end RadioSetting

abbrev RadioSettings := RadioSettingName → RadioSetting

inductive SettingAction where
  | setTxPower (dbm : Int32)
  | setRetransmitDelay (delayUs : UInt32)
  | setRetransmitCount (count : UInt8)
  | work (name : RadioSettingName) (error : ℤ)
  | applyPending (errors : RadioSettingName → ℤ)

namespace RadioSettings

def boot (txPowerDbm : Int8) (retransmitCount retransmitDelayUs : UInt16) : RadioSettings
  | .txPower => .boot .txPower txPowerDbm.toInt32
  | .retransmitCount => .boot .retransmitCount retransmitCount.toUInt32.toInt32
  | .retransmitDelay => .boot .retransmitDelay retransmitDelayUs.toUInt32.toInt32

def requestSetting (settings : RadioSettings) (name : RadioSettingName) (value : Int32) :
    RadioSettings := Function.update settings name ((settings name).request value)

theorem requestSetting_self (settings : RadioSettings) (name : RadioSettingName) (value : Int32) :
    settings.requestSetting name value name = (settings name).request value :=
  Function.update_self ..

theorem requestSetting_of_ne {name other : RadioSettingName} (h : other ≠ name)
    (settings : RadioSettings) (value : Int32) :
    settings.requestSetting name value other = settings other := Function.update_of_ne h ..

/-- The settings after the call's first statement, or the error of a value out of range. -/
def esbLinkSetTxPower (settings : RadioSettings) (dbm : Int32) : Except ℤ RadioSettings :=
  if dbm < -128 ∨ 127 < dbm then .error (-einval)
  else .ok (settings.requestSetting .txPower dbm)

def esbLinkSetRetransmitDelay (settings : RadioSettings) (delayUs : UInt32) :
    Except ℤ RadioSettings :=
  if 65535 < delayUs then .error (-einval)
  else .ok (settings.requestSetting .retransmitDelay delayUs.toInt32)

def esbLinkSetRetransmitCount (settings : RadioSettings) (count : UInt8) : RadioSettings :=
  settings.requestSetting .retransmitCount count.toUInt32.toInt32

def esbLinkApplyPending (settings : RadioSettings) (errors : RadioSettingName → ℤ) :
    RadioSettings := fun name => ((settings name).applySetting name (errors name)).1

def step (settings : RadioSettings) : SettingAction → RadioSettings
  | .setTxPower dbm => (settings.esbLinkSetTxPower dbm).toOption.getD settings
  | .setRetransmitDelay delayUs => (settings.esbLinkSetRetransmitDelay delayUs).toOption.getD settings
  | .setRetransmitCount count => settings.esbLinkSetRetransmitCount count
  | .work name error => Function.update settings name ((settings name).work name error)
  | .applyPending errors => settings.esbLinkApplyPending errors

end RadioSettings

/-! ## The newest request -/

/-- The value an action requests of a setting, if it is in range. -/
def SettingAction.request : SettingAction → RadioSettingName → Option Int32
  | .setTxPower dbm, .txPower => if dbm < -128 ∨ 127 < dbm then none else some dbm
  | .setRetransmitDelay delayUs, .retransmitDelay =>
      if 65535 < delayUs then none else some delayUs.toInt32
  | .setRetransmitCount count, .retransmitCount => some count.toUInt32.toInt32
  | _, _ => none

/-- The settings in a run, the newest request of each, and how many offers the radio had
answered before it. -/
structure SettingRun where
  settings : RadioSettings
  newest : RadioSettingName → Int32
  before : RadioSettingName → ℕ

namespace SettingRun

/-- What the devicetree says counts as the first request. -/
def boot (txPowerDbm : Int8) (retransmitCount retransmitDelayUs : UInt16) : SettingRun where
  settings := .boot txPowerDbm retransmitCount retransmitDelayUs
  newest name :=
    match name with
    | .txPower => txPowerDbm.toInt32
    | .retransmitCount => retransmitCount.toUInt32.toInt32
    | .retransmitDelay => retransmitDelayUs.toUInt32.toInt32
  before _ := 0

/-- What an action requests of a setting whose last call has returned. -/
def requested (state : SettingRun) (action : SettingAction) (name : RadioSettingName) :
    Option Int32 :=
  if (state.settings name).stage = .idle then action.request name else none

def step (state : SettingRun) (action : SettingAction) : SettingRun where
  settings := state.settings.step action
  newest name := (state.requested action name).getD (state.newest name)
  before name :=
    if (state.requested action name).isSome then (state.settings name).answers.length
    else state.before name

/-- The answers of the radio since the newest request. -/
def answersSince (state : SettingRun) (name : RadioSettingName) : List (ℤ × ℤ) :=
  (state.settings name).answers.drop (state.before name)

end SettingRun

/-! ## Requests are in range -/

theorem argument_txPower {dbm : Int32} (hlow : -128 ≤ dbm.toInt) (hhigh : dbm.toInt ≤ 127) :
    RadioSettingName.txPower.argument dbm = dbm.toInt := by
  change dbm.toInt8.toInt = dbm.toInt
  rw [Int32.toInt_toInt8]
  exact Int.bmod_eq_of_le (by omega) (by omega)

/-- A word of sixteen bits is handed over as it is. -/
theorem toNat_toUInt16_toInt32 {value : UInt32} (h : value ≤ 65535) :
    ((value.toInt32.toUInt32.toUInt16.toNat : ℕ) : ℤ) = value.toInt32.toInt := by
  rw [UInt32.le_iff_toNat_le] at h
  change value.toNat ≤ 65535 at h
  have hword : value.toInt32.toInt = (value.toNat : ℤ).bmod (2 ^ 32) :=
    BitVec.toInt_eq_toNat_bmod value.toBitVec
  rw [UInt32.toUInt32_toInt32, UInt32.toNat_toUInt16, hword,
    Int.bmod_eq_of_le (by omega) (by omega)]
  omega

theorem toUInt32_le (value : UInt16) : value.toUInt32 ≤ 65535 := by
  rw [UInt32.le_iff_toNat_le, UInt16.toNat_toUInt32]
  exact Nat.le_of_lt_succ value.toNat_lt

namespace RadioSetting

/-! ## The invariant -/

variable {name : RadioSettingName} {newest : Int32} {before : ℕ} {setting : RadioSetting}

/-- The radio and `applied` have the newest request, or the radio turned it down for
another reason than being busy. -/
def Settled (newest : Int32) (before : ℕ) (setting : RadioSetting) : Prop :=
  setting.radio = newest.toInt ∧ setting.applied = newest ∨
    ∃ error, (setting.answers.drop before).getLast? = some (newest.toInt, error) ∧
      error ≠ 0 ∧ error ≠ -ebusy

/-- What a call knows at its next statement. Until it has taken the flag, an interrupt may
settle the request for it; once it has, no interrupt acts before it is done. -/
def StageSound (newest : Int32) (before : ℕ) (setting : RadioSetting) : Prop :=
  match setting.stage with
  | .idle => setting.pending = false → setting.Settled newest before
  | .requested => True
  | .armed => setting.pending = false → setting.Settled newest before
  | .taken => setting.pending = false
  | .offering value => setting.pending = false ∧ value = newest
  | .answered value error => setting.pending = false ∧ value = newest ∧
      (setting.answers.drop before).getLast? = some (newest.toInt, error) ∧
      (error = 0 → setting.radio = newest.toInt)

structure Inv (name : RadioSettingName) (newest : Int32) (before : ℕ) (setting : RadioSetting) :
    Prop where
  requested : setting.requested = newest
  argument : name.argument newest = newest.toInt
  longer : before ≤ setting.answers.length
  stage : setting.StageSound newest before

theorem Inv.boot {value : Int32} (h : name.argument value = value.toInt) :
    (boot name value).Inv name value 0 where
  requested := rfl
  argument := h
  longer := Nat.zero_le _
  stage _ := .inl ⟨h, rfl⟩

/-- A call that begins makes its value the newest. -/
theorem inv_request (hidle : setting.stage = .idle) {value : Int32}
    (hvalue : name.argument value = value.toInt) :
    (setting.request value).Inv name value setting.answers.length := by
  rw [RadioSetting.request, hidle]
  exact ⟨rfl, hvalue, le_rfl, trivial⟩

theorem request_of_busy (hbusy : setting.stage ≠ .idle) (value : Int32) :
    setting.request value = setting := by
  rw [RadioSetting.request]
  split
  · exact absurd ‹_› hbusy
  · rfl

/-- A call that is over leaves its setting settled or pending. -/
theorem Inv.finish (h : setting.Inv name newest before)
    (hsettled : setting.pending = false → setting.Settled newest before) (returned : ℤ) :
    (setting.finish returned).Inv name newest before :=
  ⟨h.requested, h.argument, h.longer, hsettled⟩

/-- What the radio answered last decides whether the setting is settled. -/
theorem Inv.answers_offer (h : setting.Inv name newest before) (error : ℤ) :
    before ≤ (setting.offer name newest error).answers.length ∧
      ((setting.offer name newest error).answers.drop before).getLast? =
        some (newest.toInt, error) := by
  have hanswers : (setting.offer name newest error).answers =
      setting.answers ++ [(newest.toInt, error)] := by rw [← h.argument]; rfl
  rw [hanswers, List.drop_append_of_le_length h.longer, List.length_append]
  exact ⟨Nat.le_trans h.longer (Nat.le_add_right ..), List.getLast?_concat⟩

theorem Inv.radio_offer_zero (h : setting.Inv name newest before) :
    (setting.offer name newest 0).radio = newest.toInt := h.argument

theorem Inv.work (h : setting.Inv name newest before) (error : ℤ) :
    (setting.work name error).Inv name newest before := by
  have hstage := h.stage
  have hargument := h.argument
  rw [StageSound] at hstage
  rw [RadioSetting.work]
  split at hstage
  · exact h
  · exact ⟨h.requested, hargument, h.longer, fun hpending => by cases hpending⟩
  · split
    · exact ⟨h.requested, hargument, h.longer, rfl⟩
    · exact h.finish hstage 0
  · exact ⟨h.requested, hargument, h.longer, hstage, h.requested⟩
  · obtain ⟨hpending, rfl⟩ := hstage
    obtain ⟨hlonger, hlast⟩ := h.answers_offer error
    refine ⟨h.requested, hargument, hlonger, hpending, rfl, hlast, ?_⟩
    rintro rfl
    exact h.radio_offer_zero
  · obtain ⟨hpending, rfl, hlast, hradio⟩ := hstage
    split_ifs with hbusy hzero
    · exact ⟨h.requested, hargument, h.longer, fun hpending => by cases hpending⟩
    · exact ⟨h.requested, hargument, h.longer, fun _ => .inl ⟨hradio hzero, rfl⟩⟩
    · exact h.finish (fun _ => .inr ⟨_, hlast, hzero, hbusy⟩) _

/-! ## Interrupts -/

theorem applySetting_of_not_pending (hpending : setting.pending ≠ true) (error : ℤ) :
    applySetting name setting error = (setting, 0) := by
  rw [applySetting, if_neg hpending]

/-- An interrupt that finds the flag offers the newest request. -/
theorem answers_applySetting (h : setting.Inv name newest before) (hpending : setting.pending = true)
    (error : ℤ) :
    (applySetting name setting error).1.answers = setting.answers ++ [(newest.toInt, error)] := by
  rw [applySetting, if_pos hpending, ← h.argument, ← h.requested]
  split_ifs <;> rfl

/-- The flag is up only before a call takes it. -/
theorem StageSound.stage_of_pending (h : setting.StageSound newest before)
    (hpending : setting.pending = true) :
    setting.stage = .idle ∨ setting.stage = .requested ∨ setting.stage = .armed := by
  rw [StageSound, hpending] at h
  split at h
  · exact .inl ‹_›
  · exact .inr (.inl ‹_›)
  · exact .inr (.inr ‹_›)
  · cases h
  · cases h.1
  · cases h.1

theorem StageSound.of_settled
    (hstage : setting.stage = .idle ∨ setting.stage = .requested ∨ setting.stage = .armed)
    (hsettled : setting.pending = false → setting.Settled newest before) :
    setting.StageSound newest before := by
  rw [StageSound]
  rcases hstage with hstage | hstage | hstage <;> rw [hstage]
  · exact hsettled
  · trivial
  · exact hsettled

theorem Inv.applySetting (h : setting.Inv name newest before) (error : ℤ) :
    (applySetting name setting error).1.Inv name newest before := by
  by_cases hpending : setting.pending = true
  · have hstage := h.stage.stage_of_pending hpending
    obtain ⟨hlonger, hlast⟩ := h.answers_offer error
    rw [RadioSetting.applySetting, if_pos hpending, h.requested]
    split_ifs with hbusy hzero
    · exact ⟨rfl, h.argument, hlonger, .of_settled hstage fun hpending => by cases hpending⟩
    · subst hzero
      exact ⟨rfl, h.argument, hlonger,
        .of_settled hstage fun _ => .inl ⟨h.radio_offer_zero, rfl⟩⟩
    · exact ⟨rfl, h.argument, hlonger,
        .of_settled hstage fun _ => .inr ⟨error, hlast, hzero, hbusy⟩⟩
  · rw [applySetting_of_not_pending hpending]
    exact h

end RadioSetting

namespace SettingRun

open RadioSetting RadioSettings

/-- Each setting is on its way to its newest request. -/
def Inv (state : SettingRun) : Prop :=
  ∀ name, (state.settings name).Inv name (state.newest name) (state.before name)

variable {state : SettingRun}

theorem Inv.boot (txPowerDbm : Int8) (retransmitCount retransmitDelayUs : UInt16) :
    (boot txPowerDbm retransmitCount retransmitDelayUs).Inv
  | .txPower =>
      have htoInt := txPowerDbm.toInt_toInt32
      .boot (argument_txPower (htoInt ▸ txPowerDbm.minValue_le_toInt) (htoInt ▸ txPowerDbm.toInt_le))
  | .retransmitCount => .boot (toNat_toUInt16_toInt32 (toUInt32_le retransmitCount))
  | .retransmitDelay => .boot (toNat_toUInt16_toInt32 (toUInt32_le retransmitDelayUs))

theorem argument_request {action : SettingAction} {name : RadioSettingName} {value : Int32}
    (h : action.request name = some value) : name.argument value = value.toInt := by
  cases action <;> cases name <;> simp only [SettingAction.request] at h <;> try cases h
  · split_ifs at h with hrange
    cases h
    obtain ⟨hlow, hhigh⟩ := not_or.mp hrange
    rw [Int32.not_lt, Int32.le_iff_toInt_le] at hlow hhigh
    exact argument_txPower hlow hhigh
  · split_ifs at h with hrange
    cases h
    exact toNat_toUInt16_toInt32 (UInt32.not_lt.mp hrange)
  · rename_i count
    exact toNat_toUInt16_toInt32 (toUInt32_le count.toUInt16)

/-! ## Calls and the settings -/

variable {settings : RadioSettings} {action : SettingAction} {name : RadioSettingName}

theorem step_of_request {value : Int32} (h : action.request name = some value) :
    settings.step action name = (settings name).request value := by
  cases action <;> cases name <;> simp only [SettingAction.request] at h <;> try cases h
  · split_ifs at h with hrange
    cases h
    rw [RadioSettings.step, esbLinkSetTxPower, if_neg hrange]
    exact requestSetting_self ..
  · split_ifs at h with hrange
    cases h
    rw [RadioSettings.step, esbLinkSetRetransmitDelay, if_neg hrange]
    exact requestSetting_self ..
  · rw [RadioSettings.step, esbLinkSetRetransmitCount, requestSetting_self]

/-- An action that requests nothing of a setting leaves it alone, takes its call a statement
further or interrupts it. -/
theorem step_of_not_request (h : action.request name = none) :
    settings.step action name = settings name ∨
      (∃ error, settings.step action name = (settings name).work name error) ∨
        ∃ error, settings.step action name = ((settings name).applySetting name error).1 := by
  cases action with
  | setTxPower dbm =>
      refine .inl ?_
      rw [RadioSettings.step, esbLinkSetTxPower]
      split_ifs with hrange
      · rfl
      · refine requestSetting_of_ne (fun hname => ?_) ..
        subst hname
        rw [SettingAction.request, if_neg hrange] at h
        cases h
  | setRetransmitDelay delayUs =>
      refine .inl ?_
      rw [RadioSettings.step, esbLinkSetRetransmitDelay]
      split_ifs with hrange
      · rfl
      · refine requestSetting_of_ne (fun hname => ?_) ..
        subst hname
        rw [SettingAction.request, if_neg hrange] at h
        cases h
  | setRetransmitCount count =>
      refine .inl (requestSetting_of_ne (fun hname => ?_) ..)
      subst hname
      cases h
  | work worked error =>
      rcases eq_or_ne name worked with rfl | hother
      · exact .inr (.inl ⟨error, Function.update_self ..⟩)
      · exact .inl (Function.update_of_ne hother ..)
  | applyPending errors => exact .inr (.inr ⟨errors name, rfl⟩)

theorem newest_step_of_not_requested (h : state.requested action name = none) :
    (state.step action).newest name = state.newest name ∧
      (state.step action).before name = state.before name := by
  simp [step, h]

theorem newest_step_of_requested {value : Int32} (h : state.requested action name = some value) :
    (state.step action).newest name = value ∧
      (state.step action).before name = (state.settings name).answers.length := by
  simp [step, h]

theorem Inv.step (h : state.Inv) (action : SettingAction) : (state.step action).Inv := by
  intro name
  have hsetting := h name
  change (state.settings.step action name).Inv name _ _
  rcases hrequest : action.request name with _ | value
  · obtain ⟨hnewest, hbefore⟩ := @newest_step_of_not_requested state action name <| by
      rw [requested, hrequest, ite_self]
    rw [hnewest, hbefore]
    rcases @step_of_not_request state.settings action name hrequest with
      hstep | ⟨error, hstep⟩ | ⟨error, hstep⟩ <;> rw [hstep]
    · exact hsetting
    · exact hsetting.work error
    · exact hsetting.applySetting error
  · rw [step_of_request hrequest]
    by_cases hidle : (state.settings name).stage = .idle
    · obtain ⟨hnewest, hbefore⟩ := @newest_step_of_requested state action name value <| by
        rw [requested, if_pos hidle, hrequest]
      rw [hnewest, hbefore]
      exact inv_request hidle (argument_request hrequest)
    · obtain ⟨hnewest, hbefore⟩ := @newest_step_of_not_requested state action name <| by
        rw [requested, if_neg hidle]
      rw [hnewest, hbefore, request_of_busy hidle]
      exact hsetting

end SettingRun

/-- Whenever no call is in progress and nothing is pending, the radio and `applied` have the
newest request or the radio turned it down for good since; while it is pending the next
`esb_link_apply_pending` offers it. -/
theorem radio_settings_converge (txPowerDbm : Int8) (retransmitCount retransmitDelayUs : UInt16)
    (actions : List SettingAction) (name : RadioSettingName) :
    let state := run SettingRun.step
      (SettingRun.boot txPowerDbm retransmitCount retransmitDelayUs) actions
    let setting := state.settings name
    let newest := state.newest name
    (setting.stage = .idle → setting.pending = false →
      setting.radio = newest.toInt ∧ setting.applied = newest ∨
        ∃ error, (state.answersSince name).getLast? = some (newest.toInt, error) ∧
          error ≠ 0 ∧ error ≠ -ebusy) ∧
      (setting.pending = true → ∀ errors, (state.settings.esbLinkApplyPending errors name).answers =
        setting.answers ++ [(newest.toInt, errors name)]) := by
  intro state setting newest
  have hrun : state.Inv := run_invariant (fun _ action h => h.step action)
    (.boot txPowerDbm retransmitCount retransmitDelayUs) actions
  have hinv : setting.Inv name newest (state.before name) := hrun name
  constructor
  · intro hidle hpending
    have hstage := hinv.stage
    rw [RadioSetting.StageSound, hidle] at hstage
    exact hstage hpending
  · intro hpending errors
    exact RadioSetting.answers_applySetting hinv hpending (errors name)

/-- A power the radio is too busy for, offered again once the call is over. -/
theorem radio_settings_converge_sample :
    let actions : List SettingAction := [.setTxPower 4, .work .txPower 0, .work .txPower 0,
      .work .txPower 0, .work .txPower (-ebusy), .work .txPower 0, .applyPending fun _ => 0]
    let state := run SettingRun.step (SettingRun.boot 8 3 600) actions
    (state.settings .txPower).stage = .idle ∧ (state.settings .txPower).pending = false ∧
      state.newest .txPower = 4 ∧ state.answersSince .txPower = [(4, -ebusy), (4, 0)] ∧
        ((state.settings .txPower).radio = (state.newest .txPower).toInt ∧
          (state.settings .txPower).applied = state.newest .txPower ∨
            ∃ error, (state.answersSince .txPower).getLast? =
              some ((state.newest .txPower).toInt, error) ∧ error ≠ 0 ∧ error ≠ -ebusy) := by
  intro actions state
  have hidle : (state.settings .txPower).stage = .idle := by decide +kernel
  have hpending : (state.settings .txPower).pending = false := by decide +kernel
  exact ⟨hidle, hpending, by decide +kernel, by decide +kernel,
    (radio_settings_converge 8 3 600 actions .txPower).1 hidle hpending⟩

end SplitEsb
