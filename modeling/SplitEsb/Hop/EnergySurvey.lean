import SplitEsb.Hop.Masks
import SplitEsb.Hop.Survey
import SplitEsb.Hop.Tuning
import SplitEsb.Hop.WindowSignals

/-! # The energy survey
Before the link starts, the central listens on every channel of its pool, several times, and
keeps the loudest sample of each. A radio that does not answer in time costs samples only. -/

namespace SplitEsb

open ByteString GreedyTrim HopCentral

def surveyPasses : ℕ := 4
def surveySamplesPerPass : ℕ := 8
def surveySilentDbm : Int8 := -128
def surveyEventTimeoutUs : ℕ := 200

/-- A sample of the radio: the checks before its event is raised, and what it measured. -/
structure SurveySample where
  endAfterUs : ℕ
  rssi : Int8

/-- What the radio does while it is tuned to a channel. -/
structure SurveyVisit where
  readyAfterUs : ℕ
  sample : ℕ → SurveySample

/-- What the radio does in each pass, for the index of the pool and the frequency tuned. -/
abbrev Air := ℕ → ℕ → ℕ → SurveyVisit

/-! ## The survey -/

def louderDbm (peakDbm dbm : Int8) : Int8 := if peakDbm < dbm then dbm else peakDbm

/-- Checks the event once a microsecond; raised, it stays raised. -/
def waitRadioEvent (raisedAfterUs : ℕ) : Bool :=
  (List.range surveyEventTimeoutUs).any fun elapsedUs => raisedAfterUs ≤ elapsedUs

/-- The samples still to take; a sample that does not end leaves the channel. -/
def samplePeak : List SurveySample → Int8 → Int8
  | [], peakDbm => peakDbm
  | sample :: samples, peakDbm =>
      if !waitRadioEvent sample.endAfterUs then peakDbm
      else
        samplePeak samples (louderDbm peakDbm (hopPolicyRssiToDbm sample.rssi))

def SurveyVisit.samples (visit : SurveyVisit) : List SurveySample :=
  (List.range surveySamplesPerPass).map visit.sample

def sampleChannelDbm (visit : SurveyVisit) : Int8 :=
  if waitRadioEvent visit.readyAfterUs then samplePeak visit.samples surveySilentDbm
  else surveySilentDbm

def surveyFrequency (channels : List UInt8) (index : ℕ) : ℕ := 2400 + (channels.getD index 0).toNat

def surveyChannel (channels : List UInt8) (air : Air) (pass : ℕ) (energyDbm : ℕ → Int8)
    (index : ℕ) : ℕ → Int8 :=
  let dbm := sampleChannelDbm (air pass index (surveyFrequency channels index))
  Function.update energyDbm index (louderDbm (energyDbm index) dbm)

def esbSurveyRun (channels : List UInt8) (count : ℕ) (air : Air) : ℕ → Int8 :=
  (List.range surveyPasses).foldl (fun energyDbm pass =>
    (List.range count).foldl (surveyChannel channels air pass) energyDbm) fun _ => surveySilentDbm

/-! ## What a visit measures -/

/-- The samples that ended in time, up to the first that did not. -/
def SurveyVisit.heardDbm (visit : SurveyVisit) : List Int8 :=
  if visit.readyAfterUs < surveyEventTimeoutUs then
    (visit.samples.takeWhile fun sample => sample.endAfterUs < surveyEventTimeoutUs).map fun sample =>
      hopPolicyRssiToDbm sample.rssi
  else []

/-- The largest of the values, or the silent one when there is none. -/
structure IsPeak (peakDbm : Int8) (heardDbm : Int8 → Prop) : Prop where
  covers : ∀ dbm, heardDbm dbm → dbm ≤ peakDbm
  attained : peakDbm = surveySilentDbm ∨ heardDbm peakDbm

theorem waitRadioEvent_iff (raisedAfterUs : ℕ) :
    waitRadioEvent raisedAfterUs = true ↔ raisedAfterUs < surveyEventTimeoutUs := by
  rw [waitRadioEvent, List.any_eq_true]
  refine ⟨fun ⟨elapsedUs, helapsed, hraised⟩ => ?_, fun hraised => ?_⟩
  · exact (of_decide_eq_true hraised).trans_lt (List.mem_range.mp helapsed)
  · exact ⟨raisedAfterUs, List.mem_range.mpr hraised, decide_eq_true (le_refl _)⟩

theorem IsPeak.silent : IsPeak surveySilentDbm fun _ => False :=
  ⟨fun _ h => h.elim, .inl rfl⟩

/-- One more value, or several with their own peak. -/
theorem IsPeak.join {peakDbm dbm : Int8} {heardDbm other : Int8 → Prop} (h : IsPeak peakDbm heardDbm)
    (hother : IsPeak dbm other) :
    IsPeak (louderDbm peakDbm dbm) fun value => heardDbm value ∨ other value := by
  rw [louderDbm]
  split_ifs with hlt
  · refine ⟨fun value hvalue => ?_, hother.attained.imp_right .inr⟩
    rcases hvalue with hvalue | hvalue
    · exact Int8.le_trans (h.covers value hvalue) (Int8.le_of_lt hlt)
    · exact hother.covers value hvalue
  · refine ⟨fun value hvalue => ?_, h.attained.imp_right .inl⟩
    rcases hvalue with hvalue | hvalue
    · exact h.covers value hvalue
    · exact Int8.le_trans (hother.covers value hvalue) (Int8.not_lt.mp hlt)

theorem IsPeak.single (dbm : Int8) : IsPeak dbm (· = dbm) :=
  ⟨fun _ h => h ▸ Int8.le_refl _, .inr rfl⟩

theorem IsPeak.congr {peakDbm : Int8} {heardDbm other : Int8 → Prop} (h : IsPeak peakDbm heardDbm)
    (hiff : ∀ dbm, other dbm ↔ heardDbm dbm) : IsPeak peakDbm other :=
  ⟨fun dbm hdbm => h.covers dbm ((hiff dbm).mp hdbm), h.attained.imp_right (hiff _).mpr⟩

theorem isPeak_samplePeak (samples : List SurveySample) {peakDbm : Int8} {heardDbm : Int8 → Prop}
    (h : IsPeak peakDbm heardDbm) :
    IsPeak (samplePeak samples peakDbm) fun dbm => heardDbm dbm ∨
      dbm ∈ (samples.takeWhile fun sample => sample.endAfterUs < surveyEventTimeoutUs).map
        fun sample => hopPolicyRssiToDbm sample.rssi := by
  induction samples generalizing peakDbm heardDbm with
  | nil => exact h.congr fun dbm => by simp
  | cons sample samples ih =>
      rw [samplePeak]
      by_cases hended : sample.endAfterUs < surveyEventTimeoutUs
      · rw [(waitRadioEvent_iff _).mpr hended]
        refine (ih (h.join (.single (hopPolicyRssiToDbm sample.rssi)))).congr fun dbm => ?_
        simp [hended, or_assoc]
      · have hmissed : waitRadioEvent sample.endAfterUs = false := by
          rw [Bool.eq_false_iff, Ne, waitRadioEvent_iff]
          exact hended
        rw [hmissed]
        exact h.congr fun dbm => by simp [hended]

theorem isPeak_sampleChannelDbm (visit : SurveyVisit) :
    IsPeak (sampleChannelDbm visit) (· ∈ visit.heardDbm) := by
  rw [sampleChannelDbm]
  by_cases hready : visit.readyAfterUs < surveyEventTimeoutUs
  · rw [if_pos ((waitRadioEvent_iff _).mpr hready)]
    refine (isPeak_samplePeak visit.samples .silent).congr fun dbm => ?_
    rw [SurveyVisit.heardDbm, if_pos hready, false_or]
  · rw [if_neg fun hevent => hready ((waitRadioEvent_iff _).mp hevent)]
    refine IsPeak.silent.congr fun dbm => ?_
    rw [SurveyVisit.heardDbm, if_neg hready]
    exact ⟨fun h => (by cases h), False.elim⟩

/-! ## What the survey measures -/

variable (channels : List UInt8) (air : Air)

def heardOn (pass channel : ℕ) : List Int8 :=
  (air pass channel (surveyFrequency channels channel)).heardDbm

/-- A pass changes the energy of the channels it visits, each once. -/
theorem foldl_surveyChannel {indices : List ℕ} (hnodup : indices.Nodup) (pass : ℕ)
    (energyDbm : ℕ → Int8) (channel : ℕ) :
    (indices.foldl (surveyChannel channels air pass) energyDbm) channel =
      if channel ∈ indices then louderDbm (energyDbm channel)
        (sampleChannelDbm (air pass channel (surveyFrequency channels channel)))
      else energyDbm channel := by
  induction indices generalizing energyDbm with
  | nil => rfl
  | cons index indices ih =>
      obtain ⟨hnew, hrest⟩ := List.nodup_cons.mp hnodup
      rw [List.foldl_cons, ih hrest, surveyChannel]
      by_cases hself : channel = index
      · subst hself
        rw [if_neg hnew, if_pos List.mem_cons_self, Function.update_self]
      · simp [hself]

/-- The energy of a channel is the largest of all its samples. -/
theorem isPeak_esbSurveyRun {count channel : ℕ} (hchannel : channel < count) :
    IsPeak (esbSurveyRun channels count air channel) fun dbm =>
      ∃ pass < surveyPasses, dbm ∈ heardOn channels air pass channel := by
  have hpasses : ∀ (passes : List ℕ) (energyDbm : ℕ → Int8) (heardDbm : Int8 → Prop),
      IsPeak (energyDbm channel) heardDbm →
      IsPeak ((passes.foldl (fun energyDbm pass =>
        (List.range count).foldl (surveyChannel channels air pass) energyDbm) energyDbm) channel)
        fun dbm => heardDbm dbm ∨ ∃ pass ∈ passes, dbm ∈ heardOn channels air pass channel := by
    intro passes
    induction passes with
    | nil => exact fun energyDbm heardDbm h => h.congr fun dbm => by simp
    | cons pass passes ih =>
        intro energyDbm heardDbm h
        have hvisit := foldl_surveyChannel channels air (List.nodup_range (n := count)) pass
          energyDbm channel
        rw [if_pos (List.mem_range.mpr hchannel)] at hvisit
        have hjoined := h.join (isPeak_sampleChannelDbm
          (air pass channel (surveyFrequency channels channel)))
        rw [← hvisit] at hjoined
        refine (ih _ _ hjoined).congr fun dbm => ?_
        simp [heardOn, or_assoc]
  refine (hpasses (List.range surveyPasses) _ _ .silent).congr fun dbm => ?_
  simp

/-! ## The mask at boot -/

/-- What a boot mask owes to the survey: no anchor is masked, a channel the restored mask had
only for an energy at the threshold, the loudest first, and down to the floor at most. -/
structure SurveyedMask (config : HopConfig) (stored : Option Bytes) (energyDbm : ℕ → Int8)
    (mask : HopMask config.hopCount) : Prop where
  cause : ∀ channel < config.hopCount, hopPolicyMaskGet mask channel = false →
    config.hopIsAnchorIndex channel = false ∧
      (hopPolicyMaskGet (restoredMask config stored) channel = false ∨
        config.surveyThresholdDbm ≤ energyDbm channel)
  loudest : ∀ masked < config.hopCount, ∀ kept < config.hopCount,
    hopPolicyMaskGet (restoredMask config stored) masked = true →
    hopPolicyMaskGet mask masked = false → hopPolicyMaskGet mask kept = true →
    config.hopIsAnchorIndex kept = false → config.surveyThresholdDbm ≤ energyDbm kept →
    energyDbm kept ≤ energyDbm masked
  stopped : config.hopMinActive.toNat < hopPolicyMaskActiveCount mask config.hopCount →
    ∀ kept < config.hopCount, hopPolicyMaskGet mask kept = true →
      config.hopIsAnchorIndex kept = false → energyDbm kept < config.surveyThresholdDbm

variable {config : HopConfig}

theorem surveyedMask_pending (hcount : 1 < config.hopCount) (stored : Option Bytes)
    (energyDbm : ℕ → Int8) :
    SurveyedMask config stored energyDbm (HopCentral.boot config stored energyDbm).pendingMask := by
  have htrim := survey_trims energyDbm (zero config).ensureMask.anchorMask
    (restoredMask config stored) config.hopMinActive.toNat config.surveyThresholdDbm
  rw [← boot_pendingMask hcount] at htrim
  have hanchor := anchorMask_ensureMask config
  have hdropped : ∀ channel < config.hopCount,
      hopPolicyMaskGet (restoredMask config stored) channel = true →
      hopPolicyMaskGet (HopCentral.boot config stored energyDbm).pendingMask channel = false →
      channel ∈ activeChannels (restoredMask config stored) ∧
        channel ∉ activeChannels (HopCentral.boot config stored energyDbm).pendingMask := by
    intro channel hchannel hrestored hmasked
    refine ⟨mem_activeChannels.mpr ⟨hchannel, hrestored⟩, fun hmem => ?_⟩
    cases hmasked.symm.trans (mem_activeChannels.mp hmem).2
  refine ⟨fun channel hchannel hmasked => ?_, ?_, fun habove kept hkept hset hplain => ?_⟩
  · cases hrestored : hopPolicyMaskGet (restoredMask config stored) channel with
    | false =>
        refine ⟨?_, .inl rfl⟩
        rw [← Bool.not_eq_true, hopIsAnchorIndex_iff]
        intro hmem
        cases hrestored.symm.trans (keepsAnchors_restoredMask config stored channel hmem)
    | true =>
        obtain ⟨hmem, hgone⟩ := hdropped channel hchannel hrestored hmasked
        obtain ⟨hplain, hloud⟩ := htrim.eligible_of_dropped hmem hgone
        exact ⟨(hanchor channel hchannel).symm.trans hplain, .inr hloud⟩
  · intro masked hmasked kept hkept hrestored hgone hset hplain hloud
    obtain ⟨hmem, hout⟩ := hdropped masked hmasked hrestored hgone
    exact Int8.le_iff_toInt_le.mpr (htrim.dominates hmem hout
      (mem_activeChannels.mpr ⟨hkept, hset⟩) ⟨(hanchor kept hkept).trans hplain, hloud⟩)
  · rcases htrim.stopped with hfloor | hnone
    · rw [card_activeChannels] at hfloor
      exact absurd hfloor (Nat.not_le.mpr habove)
    · refine Int8.not_le.mp fun hloud => ?_
      exact hnone kept (mem_activeChannels.mpr ⟨hkept, hset⟩)
        ⟨(hanchor kept hkept).trans hplain, hloud⟩

theorem hopPolicyMaskGet_of_full {n : ℕ} {mask : HopMask n}
    (hfull : hopPolicyMaskActiveCount mask n = n) {channel : ℕ} (hchannel : channel < n) :
    hopPolicyMaskGet mask channel = true := by
  have hall : (List.range n).countP (hopPolicyMaskGet mask) = (List.range n).length :=
    hfull.trans List.length_range.symm
  exact List.countP_eq_length.mp hall channel (List.mem_range.mpr hchannel)

/-- Boot adopts the mask it prepared; a full one it has already. -/
theorem boot_activeMask (hcount : 1 < config.hopCount) (stored : Option Bytes)
    (energyDbm : ℕ → Int8) {channel : ℕ} (hchannel : channel < config.hopCount) :
    hopPolicyMaskGet (HopCentral.boot config stored energyDbm).activeMask channel =
      hopPolicyMaskGet (HopCentral.boot config stored energyDbm).pendingMask channel := by
  have hready : hopPolicyMaskGet (zero config).ensureMask.activeMask channel = true :=
    hopPolicyMaskGet_fillMask _ _ hchannel
  rw [HopCentral.boot, hopBootMask, if_neg (Nat.not_le.mpr hcount)]
  dsimp only
  cases stored.bind (hopMaskSettingsSet config) with
  | none =>
      split_ifs with hfull
      · exact hready.trans (hopPolicyMaskGet_of_full hfull hchannel).symm
      · rfl
  | some persisted =>
      split_ifs with hfull
      · exact hready.trans (hopPolicyMaskGet_of_full hfull hchannel).symm
      · rfl

theorem SurveyedMask.congr {stored : Option Bytes} {energyDbm : ℕ → Int8}
    {mask other : HopMask config.hopCount} (h : SurveyedMask config stored energyDbm mask)
    (hsame : ∀ channel < config.hopCount,
      hopPolicyMaskGet other channel = hopPolicyMaskGet mask channel) :
    SurveyedMask config stored energyDbm other where
  cause channel hchannel hmasked := h.cause channel hchannel (hsame channel hchannel ▸ hmasked)
  loudest masked hmasked kept hkept hrestored hgone hset :=
    h.loudest masked hmasked kept hkept hrestored (hsame masked hmasked ▸ hgone)
      (hsame kept hkept ▸ hset)
  stopped habove kept hkept hset := by
    have hcount : hopPolicyMaskActiveCount other config.hopCount =
        hopPolicyMaskActiveCount mask config.hopCount :=
      List.countP_congr fun channel hmem => by rw [hsame channel (List.mem_range.mp hmem)]
    exact h.stopped (hcount ▸ habove) kept hkept (hsame kept hkept ▸ hset)

/-- However the radio answers, the survey keeps the loudest sample of each channel, and the
mask the central boots with leaves out what these energies and the stored mask call for. -/
theorem boot_mask_by_survey (hcount : 1 < config.hopCount) (stored : Option Bytes) (air : Air) :
    let energyDbm := esbSurveyRun config.hopChannels config.hopCount air
    (∀ channel < config.hopCount, IsPeak (energyDbm channel) fun dbm =>
      ∃ pass < surveyPasses, dbm ∈ heardOn config.hopChannels air pass channel) ∧
      SurveyedMask config stored energyDbm (HopCentral.boot config stored energyDbm).activeMask := by
  intro energyDbm
  refine ⟨fun channel hchannel => isPeak_esbSurveyRun _ air hchannel, ?_⟩
  exact (surveyedMask_pending hcount stored energyDbm).congr fun channel hchannel =>
    boot_activeMask hcount stored energyDbm hchannel

/-- A strong signal on the second channel, whose third sample never ends. -/
def noisySecondAir : Air := fun _ index _ =>
  ⟨140, fun sample => ⟨if sample = 2 then 200 else 3, if index = 1 then 50 else 100⟩⟩

theorem boot_mask_by_survey_sample :
    let energyDbm := esbSurveyRun sampleHopConfig.hopChannels sampleHopConfig.hopCount noisySecondAir
    energyDbm 1 = -50 ∧
      SurveyedMask sampleHopConfig none energyDbm
        (HopCentral.boot sampleHopConfig none energyDbm).activeMask :=
  ⟨by decide +kernel, (boot_mask_by_survey (by decide) none noisySecondAir).2⟩

end SplitEsb
