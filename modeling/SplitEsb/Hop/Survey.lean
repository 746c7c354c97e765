import Mathlib.Data.Int.ConditionallyCompleteOrder
import Mathlib.Order.ConditionallyCompleteLattice.Basic
import SplitEsb.Hop.Policy
import SplitEsb.Shared.GreedyTrim

/-! # Boot survey
The survey trims the active channels: while more than the floor are set, the loudest
channel that is no anchor and reaches the threshold is masked. -/

namespace SplitEsb

open GreedyTrim

variable {n : ℕ}

/-! ## The worst channel -/

section Worst

variable {eligible : ℕ → Bool} {score : ℕ → ℤ} {poolCount worst channel : ℕ}

/-- A pick is only replaced by a worse one. -/
theorem le_score_worseChannel (hworst : worst ≠ poolCount) (hchannel : channel < poolCount) :
    worseChannel eligible score poolCount worst channel ≠ poolCount ∧
      score worst ≤ score (worseChannel eligible score poolCount worst channel) := by
  rw [worseChannel]
  split_ifs with hskip hbetter
  · exact ⟨hworst, le_refl _⟩
  · exact ⟨hchannel.ne, (hbetter.resolve_left hworst).le⟩
  · exact ⟨hworst, le_refl _⟩

theorem score_le_worseChannel (heligible : eligible channel = true) (hchannel : channel < poolCount) :
    worseChannel eligible score poolCount worst channel ≠ poolCount ∧
      score channel ≤ score (worseChannel eligible score poolCount worst channel) := by
  rw [worseChannel, if_neg (by simp [heligible])]
  split_ifs with hbetter
  · exact ⟨hchannel.ne, le_refl _⟩
  · rw [not_or, not_lt] at hbetter
    exact hbetter

/-- The pick is at least as bad as every eligible channel. -/
theorem score_le_worstEligible (hchannel : channel < poolCount) (heligible : eligible channel = true) :
    worstEligible eligible score poolCount ≠ poolCount ∧
      score channel ≤ score (worstEligible eligible score poolCount) := by
  have hfold : ∀ (channels : List ℕ) (worst : ℕ), (∀ other ∈ channels, other < poolCount) →
      let found := channels.foldl (worseChannel eligible score poolCount) worst
      (worst ≠ poolCount → found ≠ poolCount ∧ score worst ≤ score found) ∧
        ∀ other ∈ channels, eligible other = true → found ≠ poolCount ∧ score other ≤ score found := by
    intro channels
    induction channels with
    | nil => exact fun worst _ => ⟨fun hworst => ⟨hworst, le_refl _⟩, List.forall_mem_nil _⟩
    | cons first rest ih =>
        intro worst hchannels
        obtain ⟨hfirst, hrest⟩ := List.forall_mem_cons.mp hchannels
        obtain ⟨hkept, hothers⟩ := ih (worseChannel eligible score poolCount worst first) hrest
        refine ⟨fun hworst => ?_, List.forall_mem_cons.mpr ⟨fun hpicked => ?_, hothers⟩⟩
        · obtain ⟨hnext, hle⟩ := le_score_worseChannel hworst hfirst
          exact ⟨(hkept hnext).1, hle.trans (hkept hnext).2⟩
        · obtain ⟨hnext, hle⟩ := score_le_worseChannel hpicked hfirst
          exact ⟨(hkept hnext).1, hle.trans (hkept hnext).2⟩
  exact (hfold _ poolCount fun _ hmem => List.mem_range.mp hmem).2 channel
    (List.mem_range.mpr hchannel) heligible

end Worst

/-! ## The mask as a set -/

/-- The channels of the pool a mask has active. -/
def activeChannels (mask : HopMask n) : Finset ℕ :=
  (Finset.range n).filter fun channel => hopPolicyMaskGet mask channel = true

theorem mem_activeChannels {mask : HopMask n} {channel : ℕ} :
    channel ∈ activeChannels mask ↔ channel < n ∧ hopPolicyMaskGet mask channel = true := by
  rw [activeChannels, Finset.mem_filter, Finset.mem_range]

theorem card_filter_range (chosen : ℕ → Bool) :
    ((Finset.range n).filter fun channel => chosen channel = true).card =
      (List.range n).countP chosen := by
  have hval : ((Finset.range n).filter fun channel => chosen channel = true).val =
      ((List.range n).filter chosen : Multiset ℕ) := by
    rw [Finset.filter_val, Finset.range_val]
    simp only [Multiset.range, Multiset.filter_coe, Bool.decide_eq_true]
  rw [List.countP_eq_length_filter, Finset.card_def, hval, Multiset.coe_card]

theorem card_activeChannels (mask : HopMask n) :
    (activeChannels mask).card = hopPolicyMaskActiveCount mask n := card_filter_range _

theorem activeChannels_clear {mask : HopMask n} {channel : ℕ} (h : channel < n) :
    activeChannels (hopPolicyMaskSet mask channel false) = (activeChannels mask).erase channel := by
  ext other
  rw [mem_activeChannels, Finset.mem_erase, mem_activeChannels, hopPolicyMaskGet_set h]
  split_ifs with hsame
  · simp [hsame]
  · simp [hsame]

/-! ## The survey trims -/

/-- A channel the survey may mask. -/
def SurveyEligible (energyDbm : ℕ → Int8) (anchorMask : HopMask n) (thresholdDbm : Int8)
    (channel : ℕ) : Prop :=
  hopPolicyMaskGet anchorMask channel = false ∧ thresholdDbm ≤ energyDbm channel

theorem survey_trims (energyDbm : ℕ → Int8) (anchorMask mask : HopMask n) (minActive : ℕ)
    (thresholdDbm : Int8) :
    Trim (SurveyEligible energyDbm anchorMask thresholdDbm) (fun channel => (energyDbm channel).toInt)
      minActive (activeChannels mask)
      (activeChannels (hopPolicySurveyMask energyDbm anchorMask minActive thresholdDbm mask).1)
      (hopPolicySurveyMask energyDbm anchorMask minActive thresholdDbm mask).2 := by
  fun_induction hopPolicySurveyMask energyDbm anchorMask minActive thresholdDbm mask with
  | case1 mask habove eligible worst hnone =>
      refine .stop (.inr fun other hother heligible => ?_)
      obtain ⟨hlt, hset⟩ := mem_activeChannels.mp hother
      have hpicked : eligible other = true := by simp [eligible, hset, heligible.1, heligible.2]
      exact (score_le_worstEligible hlt hpicked).1 hnone
  | case2 mask habove eligible worst hfound left masked hrec ih =>
      obtain ⟨hlt, hpicked⟩ := eligible_of_worstEligible hfound
      simp only [eligible, Bool.and_eq_true, Bool.not_eq_true', decide_eq_true_eq] at hpicked
      rw [hrec, activeChannels_clear hlt] at ih
      refine .drop (card_activeChannels mask ▸ habove)
        (mem_activeChannels.mpr ⟨hlt, hpicked.1.2⟩) ⟨hpicked.1.1, hpicked.2⟩ ?_ ih
      intro other hother heligible
      obtain ⟨hother_lt, hset⟩ := mem_activeChannels.mp hother
      have hother_picked : eligible other = true := by
        simp [eligible, hset, heligible.1, heligible.2]
      exact (@score_le_worstEligible eligible (fun channel => (energyDbm channel).toInt) n other
        hother_lt hother_picked).2
  | case3 mask habove =>
      exact .stop (.inl (card_activeChannels mask ▸ Nat.not_lt.mp habove))

/-- Bits behind the pool stay as they are. -/
theorem survey_frame (energyDbm : ℕ → Int8) (anchorMask mask : HopMask n) (minActive : ℕ)
    (thresholdDbm : Int8) {index : ℕ} (hindex : n ≤ index) :
    hopPolicyMaskGet (hopPolicySurveyMask energyDbm anchorMask minActive thresholdDbm mask).1 index =
      hopPolicyMaskGet mask index := by
  fun_induction hopPolicySurveyMask energyDbm anchorMask minActive thresholdDbm mask with
  | case1 => rfl
  | case2 mask habove eligible worst hfound left masked hrec ih =>
      have hlt : worst < n := (eligible_of_worstEligible hfound).1
      rw [hrec, hopPolicyMaskGet_set hlt, if_neg (by omega)] at ih
      exact ih
  | case3 => rfl

/-- What a survey of a mask may answer: only channels that are no anchors, were set and
reach the threshold are cleared, the loudest of them, until the floor is met or none of
them is left. -/
structure SurveyVerdict (energyDbm : ℕ → Int8) (anchorMask : HopMask n) (minActive : ℕ)
    (thresholdDbm : Int8) (mask final : HopMask n) (masked : ℕ) : Prop where
  clears : ∀ index, hopPolicyMaskGet final index = true → hopPolicyMaskGet mask index = true
  eligible : ∀ index, hopPolicyMaskGet mask index = true → hopPolicyMaskGet final index = false →
    index < n ∧ SurveyEligible energyDbm anchorMask thresholdDbm index
  loudest : ∀ cleared kept, hopPolicyMaskGet mask cleared = true →
    hopPolicyMaskGet final cleared = false → kept < n → hopPolicyMaskGet final kept = true →
    SurveyEligible energyDbm anchorMask thresholdDbm kept → energyDbm kept ≤ energyDbm cleared
  stopped : hopPolicyMaskActiveCount final n ≤ minActive ∨
    ∀ channel < n, hopPolicyMaskGet final channel = true →
      ¬SurveyEligible energyDbm anchorMask thresholdDbm channel
  floor : min minActive (hopPolicyMaskActiveCount mask n) ≤ hopPolicyMaskActiveCount final n
  count : masked = (List.range n).countP fun channel =>
    hopPolicyMaskGet mask channel && !hopPolicyMaskGet final channel

theorem hopPolicySurveyMask_verdict (energyDbm : ℕ → Int8) (anchorMask mask : HopMask n)
    (minActive : ℕ) (thresholdDbm : Int8) :
    let survey := hopPolicySurveyMask energyDbm anchorMask minActive thresholdDbm mask
    SurveyVerdict energyDbm anchorMask minActive thresholdDbm mask survey.1 survey.2 := by
  intro survey
  have htrim := survey_trims energyDbm anchorMask mask minActive thresholdDbm
  have hframe : ∀ index, n ≤ index → hopPolicyMaskGet survey.1 index = hopPolicyMaskGet mask index :=
    fun _ hindex => survey_frame energyDbm anchorMask mask minActive thresholdDbm hindex
  have hcleared : ∀ index, hopPolicyMaskGet mask index = true →
      hopPolicyMaskGet survey.1 index = false →
      index < n ∧ index ∈ activeChannels mask ∧ index ∉ activeChannels survey.1 := by
    intro index hset hclear
    have hlt : index < n := by
      by_contra hge
      rw [hframe index (Nat.not_lt.mp hge), hset] at hclear
      cases hclear
    refine ⟨hlt, mem_activeChannels.mpr ⟨hlt, hset⟩, fun hmem => ?_⟩
    rw [(mem_activeChannels.mp hmem).2] at hclear
    cases hclear
  refine ⟨?_, ?_, ?_, ?_, ?_, ?_⟩
  · intro index hset
    rcases Nat.lt_or_ge index n with hlt | hge
    · exact (mem_activeChannels.mp (htrim.subset (mem_activeChannels.mpr ⟨hlt, hset⟩))).2
    · rw [← hframe index hge]
      exact hset
  · intro index hset hclear
    obtain ⟨hlt, hmem, hdropped⟩ := hcleared index hset hclear
    exact ⟨hlt, htrim.eligible_of_dropped hmem hdropped⟩
  · intro cleared kept hset hclear hlt hkept heligible
    obtain ⟨-, hmem, hdropped⟩ := hcleared cleared hset hclear
    exact Int8.le_iff_toInt_le.mpr
      (htrim.dominates hmem hdropped (mem_activeChannels.mpr ⟨hlt, hkept⟩) heligible)
  · rcases htrim.stopped with hfloor | hnone
    · exact .inl (card_activeChannels survey.1 ▸ hfloor)
    · exact .inr fun channel hlt hset => hnone channel (mem_activeChannels.mpr ⟨hlt, hset⟩)
  · rw [← card_activeChannels, ← card_activeChannels]
    exact htrim.floor_le
  · rw [← card_filter_range]
    refine htrim.count_eq.trans (congrArg Finset.card ?_)
    ext channel
    rw [Finset.mem_sdiff, mem_activeChannels, mem_activeChannels, Finset.mem_filter,
      Finset.mem_range, Bool.and_eq_true, Bool.not_eq_true']
    change _ ∧ ¬(_ ∧ hopPolicyMaskGet survey.1 channel = true) ↔ _
    rw [not_and, Bool.not_eq_true]
    exact ⟨fun h => ⟨h.1.1, h.1.2, h.2 h.1.1⟩, fun h => ⟨⟨h.1, h.2.1⟩, fun _ => h.2.2⟩⟩

end SplitEsb
