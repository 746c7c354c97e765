import Mathlib.Algebra.Order.Group.Int
import Mathlib.Data.List.Count
import SplitEsb.Shared.BitTable
import SplitEsb.Shared.Bytes
import SplitEsb.Shared.CyclicProbe

/-! # Hop and link policy
The pure functions both hop engines decide with: the channel mask, the channel an
epoch maps to, the loss a pipe accrues and the vote over it. -/

namespace SplitEsb

open BitTable ByteString CyclicProbe

/-! ## Channel mask -/

/-- The bytes of a mask over a pool of `n` channels. -/
def esbHopMaskBytes (n : ℕ) : ℕ := (n + 7) / 8

abbrev HopMask (n : ℕ) := Vector UInt8 (esbHopMaskBytes n)

variable {n : ℕ}

abbrev hopPolicyMaskGet (mask : HopMask n) (index : ℕ) : Bool := getBit mask index

abbrev hopPolicyMaskSet (mask : HopMask n) (index : ℕ) (active : Bool) : HopMask n :=
  setBit mask index active

def hopPolicyMaskActiveCount (mask : HopMask n) (poolCount : ℕ) : ℕ :=
  (List.range poolCount).countP (hopPolicyMaskGet mask)

theorem lt_esbHopMaskBytes {index : ℕ} (h : index < n) : index < esbHopMaskBytes n * 8 := by
  rw [esbHopMaskBytes]
  omega

theorem hopPolicyMaskGet_set {mask : HopMask n} {index : ℕ} (h : index < n) (active : Bool)
    (other : ℕ) : hopPolicyMaskGet (hopPolicyMaskSet mask index active) other =
      if other = index then active else hopPolicyMaskGet mask other :=
  getBit_setBit (lt_esbHopMaskBytes h) active other

/-- Clearing a set bit leaves one channel fewer. -/
theorem hopPolicyMaskActiveCount_clear {mask : HopMask n} {index : ℕ} (h : index < n)
    (hset : hopPolicyMaskGet mask index = true) :
    hopPolicyMaskActiveCount (hopPolicyMaskSet mask index false) n + 1 =
      hopPolicyMaskActiveCount mask n := by
  have hsplit : List.range n = List.range index ++ index :: List.range' (index + 1) (n - index - 1) := by
    obtain ⟨rest, rfl⟩ := Nat.exists_eq_add_of_lt h
    rw [show index + rest + 1 - index - 1 = rest by omega, Nat.add_assoc, List.range_eq_range',
      ← List.range'_append_1, List.range'_succ, Nat.zero_add, List.range_eq_range']
  have hother : ∀ other, other ≠ index →
      hopPolicyMaskGet (hopPolicyMaskSet mask index false) other = hopPolicyMaskGet mask other :=
    fun other hne => by rw [hopPolicyMaskGet_set h, if_neg hne]
  have hfront : (List.range index).countP (hopPolicyMaskGet (hopPolicyMaskSet mask index false)) =
      (List.range index).countP (hopPolicyMaskGet mask) := by
    refine List.countP_congr fun other hmem => ?_
    rw [hother other (List.mem_range.mp hmem).ne]
  have hback : (List.range' (index + 1) (n - index - 1)).countP
        (hopPolicyMaskGet (hopPolicyMaskSet mask index false)) =
      (List.range' (index + 1) (n - index - 1)).countP (hopPolicyMaskGet mask) := by
    refine List.countP_congr fun other hmem => ?_
    rw [hother other (by have := (List.mem_range'_1.mp hmem).1; omega)]
  have hself : hopPolicyMaskGet (hopPolicyMaskSet mask index false) index = false := by
    rw [hopPolicyMaskGet_set h, if_pos rfl]
  simp only [hopPolicyMaskActiveCount]
  rw [hsplit, List.countP_append, List.countP_append, hfront, List.countP_cons_of_neg (by simp [hself]),
    List.countP_cons_of_pos hset, hback, Nat.add_assoc]

/-- Setting a bit loses no channel. -/
theorem hopPolicyMaskActiveCount_le_set {mask : HopMask n} {index : ℕ} (h : index < n) :
    hopPolicyMaskActiveCount mask n ≤
      hopPolicyMaskActiveCount (hopPolicyMaskSet mask index true) n := by
  refine List.countP_mono_left fun other _ hset => ?_
  rw [hopPolicyMaskGet_set h]
  split
  · rfl
  · exact hset

/-! ## Stored mask -/

def hopPolicyMaskStoreLength (poolCount : ℕ) : ℕ := 1 + poolCount + (poolCount + 7) / 8

def hopPolicyMaskStoreMatches (stored : Bytes) (channels : List UInt8) (poolCount : ℕ) : Bool :=
  if poolCount > 255 ∨ stored.length ≠ hopPolicyMaskStoreLength poolCount then false
  else if (byteAt stored 0).toNat ≠ poolCount then false
  else readAt stored 1 poolCount == channels

def hopPolicyMaskStoreMask (stored : Bytes) (n : ℕ) : HopMask n :=
  Vector.ofFn fun index => byteAt stored (1 + n + index)

/-! ## The channel of an epoch -/

def hopPolicyIndexNext (index count : ℕ) : ℕ := (index + 1) % count

def hopPolicyIndexNextActive (index : ℕ) (mask : HopMask n) (count : ℕ) : ℕ :=
  (probe (hopPolicyMaskGet mask) count (index + 1)).getD index

def hopPolicyChannelForEpochMasked (epoch : UInt16) (mask : HopMask n) (poolCount : ℕ) : ℕ :=
  let base := epoch.toNat % poolCount
  (probe (hopPolicyMaskGet mask) poolCount base).getD base

theorem probe_getD_lt {marked : ℕ → Bool} {count base default : ℕ} (hdefault : default < count) :
    (probe marked count base).getD default < count := by
  cases hprobe : probe marked count base with
  | none => exact hdefault
  | some found => exact probe_lt hprobe

theorem hopPolicyIndexNextActive_lt {index count : ℕ} (mask : HopMask n) (hindex : index < count) :
    hopPolicyIndexNextActive index mask count < count := probe_getD_lt hindex

theorem hopPolicyChannelForEpochMasked_lt {poolCount : ℕ} (epoch : UInt16) (mask : HopMask n)
    (hpool : 0 < poolCount) : hopPolicyChannelForEpochMasked epoch mask poolCount < poolCount :=
  probe_getD_lt (Nat.mod_lt _ hpool)

/-- An epoch whose own place is active maps to it. -/
theorem hopPolicyChannelForEpochMasked_of_active {poolCount index : ℕ} {epoch : UInt16}
    {mask : HopMask n} (hindex : index = epoch.toNat % poolCount)
    (hactive : hopPolicyMaskGet mask index = true) :
    hopPolicyChannelForEpochMasked epoch mask poolCount = index := by
  rw [hopPolicyChannelForEpochMasked, ← hindex]
  rcases Nat.eq_zero_or_pos poolCount with rfl | hpool
  · rfl
  · have hlt : index < poolCount := hindex ▸ Nat.mod_lt _ hpool
    have hzero : 0 = distance poolCount index index := eq_distance hpool (Nat.mod_eq_of_lt hlt)
    have hprobe : probe (hopPolicyMaskGet mask) poolCount index = some index :=
      (probe_eq_some_iff hlt).mpr ⟨hactive, fun step hstep => by omega⟩
    rw [hprobe, Option.getD_some]

theorem hopPolicyChannelForEpochMasked_eq_iff {poolCount index : ℕ} {epoch : UInt16}
    {mask : HopMask n} (hindex : index < poolCount) (hactive : hopPolicyMaskGet mask index = true) :
    hopPolicyChannelForEpochMasked epoch mask poolCount = index ↔
      probe (hopPolicyMaskGet mask) poolCount (epoch.toNat % poolCount) = some index := by
  obtain ⟨found, hfound⟩ : ∃ found,
      probe (hopPolicyMaskGet mask) poolCount (epoch.toNat % poolCount) = some found :=
    exists_probe hindex hactive
  simp [hopPolicyChannelForEpochMasked, hfound]

/-- Over a pool with an active channel the epoch maps to an active one. -/
theorem hopPolicyMaskGet_channelForEpochMasked {poolCount : ℕ} {epoch : UInt16} {mask : HopMask n}
    (hactive : 0 < hopPolicyMaskActiveCount mask poolCount) :
    hopPolicyMaskGet mask (hopPolicyChannelForEpochMasked epoch mask poolCount) = true := by
  obtain ⟨channel, hmem, hmarked⟩ := List.countP_pos_iff.mp hactive
  obtain ⟨found, hfound⟩ : ∃ found,
      probe (hopPolicyMaskGet mask) poolCount (epoch.toNat % poolCount) = some found :=
    exists_probe (List.mem_range.mp hmem) hmarked
  rw [hopPolicyChannelForEpochMasked, hfound]
  exact marked_of_probe hfound

/-- Over a pool with an active channel the epoch maps away from an index iff the
index is masked or an active channel comes before it on the walk. -/
theorem hopPolicyChannelForEpochMasked_ne_iff {poolCount index : ℕ} {epoch : UInt16}
    {mask : HopMask n} (hactive : 0 < hopPolicyMaskActiveCount mask poolCount)
    (hindex : index < poolCount) :
    hopPolicyChannelForEpochMasked epoch mask poolCount ≠ index ↔
      hopPolicyMaskGet mask index = false ∨
        ∃ step < distance poolCount (epoch.toNat % poolCount) index,
          hopPolicyMaskGet mask ((epoch.toNat % poolCount + step) % poolCount) = true := by
  obtain ⟨channel, hmem, hmarked⟩ := List.countP_pos_iff.mp hactive
  obtain ⟨found, hfound⟩ : ∃ found,
      probe (hopPolicyMaskGet mask) poolCount (epoch.toNat % poolCount) = some found :=
    exists_probe (List.mem_range.mp hmem) hmarked
  rw [← probe_ne_some_iff hindex, hopPolicyChannelForEpochMasked]
  simp [hfound]

/-! ## Loss and the vote -/

def hopPolicyMaxLossPenalty : ℕ := 4
def hopPolicyRssiGradeStepDb : ℕ := 6

def hopPolicySaturatingAdd (value add : UInt8) : UInt8 :=
  if value > 255 - add then 255 else value + add

def hopPolicyLossPenalty (rssiDbm floorDbm : Int8) : UInt8 :=
  if rssiDbm ≥ floorDbm then 0
  else
    let below := (floorDbm.toInt - rssiDbm.toInt).toNat
    UInt8.ofNat (min (1 + below / hopPolicyRssiGradeStepDb) hopPolicyMaxLossPenalty)

def maskHasBit (mask : UInt32) (index : ℕ) : Bool := mask &&& 1 <<< UInt32.ofNat index != 0

/-- What a pipe that polled adds: its graded signal when motion arrived, the full
penalty when none did. -/
def activePipePenalty (motionMask : UInt32) (rssiDbm : ℕ → Int8) (floorDbm : Int8) (index : ℕ) :
    UInt8 :=
  if maskHasBit motionMask index then hopPolicyLossPenalty (rssiDbm index) floorDbm
  else UInt8.ofNat hopPolicyMaxLossPenalty

def hopPolicyWindowPenalty (motionMask activeMask : UInt32) (rssiDbm : ℕ → Int8) (floorDbm : Int8)
    (count : ℕ) : UInt8 :=
  (List.range count).foldl (fun worst index =>
    if !maskHasBit activeMask index then worst
    else
      let penalty := activePipePenalty motionMask rssiDbm floorDbm index
      if penalty > worst then penalty else worst) 0

def hopPolicyAccrueLoss (linkLoss : ℕ → UInt8) (count : ℕ) (motionMask activeMask : UInt32)
    (rssiDbm : ℕ → Int8) (floorDbm : Int8) (index : ℕ) : UInt8 :=
  if count ≤ index then linkLoss index
  else if !maskHasBit activeMask index then 0
  else
    let penalty := activePipePenalty motionMask rssiDbm floorDbm index
    if penalty = 0 then 0 else hopPolicySaturatingAdd (linkLoss index) penalty

/-- The weighted sum stays far below 2^32 for any pipe table. -/
def hopPolicyHopVote (linkLoss : ℕ → UInt8) (weights : List UInt8) (threshold : UInt16) : Bool :=
  let weighted := ((List.range weights.length).map fun index =>
    (linkLoss index).toNat * (weights.getD index 0).toNat).sum
  threshold.toNat ≤ weighted

/-! ## Masking -/

def hopPolicyScoreUpdate (score penalty decay : UInt8) : UInt8 :=
  if penalty = 0 then score - min score decay else hopPolicySaturatingAdd score penalty

/-- Keeps the worst eligible channel so far, the pool size standing for none. -/
def worseChannel (eligible : ℕ → Bool) (score : ℕ → ℤ) (poolCount worst channel : ℕ) : ℕ :=
  if !eligible channel then worst
  else if worst = poolCount ∨ score channel > score worst then channel else worst

/-- The first eligible channel with the highest score, or the pool size. -/
def worstEligible (eligible : ℕ → Bool) (score : ℕ → ℤ) (poolCount : ℕ) : ℕ :=
  (List.range poolCount).foldl (worseChannel eligible score poolCount) poolCount

def hopPolicyWorstChannel (channelBad : ℕ → UInt8) (mask anchorMask : HopMask n) (poolCount : ℕ)
    (maskThreshold : UInt16) : ℕ :=
  worstEligible (fun channel => !hopPolicyMaskGet anchorMask channel &&
      hopPolicyMaskGet mask channel && maskThreshold.toNat ≤ (channelBad channel).toNat)
    (fun channel => (channelBad channel).toNat) poolCount

def hopPolicyRetestLevelMax : UInt8 := 6

def hopPolicyRetestThreshold (baseWindows : UInt16) (level : UInt8) : UInt16 :=
  let level := if level > hopPolicyRetestLevelMax then hopPolicyRetestLevelMax else level
  let threshold := baseWindows.toNat <<< level.toNat
  if threshold > 65535 then 65535 else UInt16.ofNat threshold

theorem worseChannel_eligible {eligible : ℕ → Bool} {score : ℕ → ℤ} {poolCount worst channel : ℕ}
    (hworst : worst = poolCount ∨ worst < poolCount ∧ eligible worst = true)
    (hchannel : channel < poolCount) :
    worseChannel eligible score poolCount worst channel = poolCount ∨
      worseChannel eligible score poolCount worst channel < poolCount ∧
        eligible (worseChannel eligible score poolCount worst channel) = true := by
  by_cases heligible : eligible channel = true
  · simp only [worseChannel, heligible, Bool.not_true, Bool.false_eq_true, if_false]
    split
    · exact .inr ⟨hchannel, heligible⟩
    · exact hworst
  · simpa [worseChannel, heligible] using hworst

/-- A channel is picked only out of the eligible ones. -/
theorem eligible_of_worstEligible {eligible : ℕ → Bool} {score : ℕ → ℤ} {poolCount : ℕ}
    (h : worstEligible eligible score poolCount ≠ poolCount) :
    worstEligible eligible score poolCount < poolCount ∧
      eligible (worstEligible eligible score poolCount) = true := by
  have hfold : ∀ (channels : List ℕ) (worst : ℕ), (∀ channel ∈ channels, channel < poolCount) →
      (worst = poolCount ∨ worst < poolCount ∧ eligible worst = true) →
      let found := channels.foldl (worseChannel eligible score poolCount) worst
      found = poolCount ∨ found < poolCount ∧ eligible found = true := by
    intro channels
    induction channels with
    | nil => exact fun _ _ hworst => hworst
    | cons channel channels ih =>
        intro worst hchannels hworst
        refine ih _ (fun other hmem => hchannels other (List.mem_cons_of_mem _ hmem)) ?_
        exact worseChannel_eligible hworst (hchannels channel (List.mem_cons_self ..))
  exact (hfold _ poolCount (fun _ hmem => List.mem_range.mp hmem) (.inl rfl)).resolve_left h

/-- The boot survey's verdict and how many channels it masked. -/
def hopPolicySurveyMask (energyDbm : ℕ → Int8) (anchorMask : HopMask n) (minActive : ℕ)
    (thresholdDbm : Int8) (mask : HopMask n) : HopMask n × ℕ :=
  if minActive < hopPolicyMaskActiveCount mask n then
    let eligible := fun channel => !hopPolicyMaskGet anchorMask channel &&
      hopPolicyMaskGet mask channel && thresholdDbm ≤ energyDbm channel
    let worst := worstEligible eligible (fun channel => (energyDbm channel).toInt) n
    if _ : worst = n then (mask, 0)
    else
      let (mask, masked) := hopPolicySurveyMask energyDbm anchorMask minActive thresholdDbm
        (hopPolicyMaskSet mask worst false)
      (mask, masked + 1)
  else (mask, 0)
termination_by hopPolicyMaskActiveCount mask n
decreasing_by
  obtain ⟨hlt, heligible⟩ := eligible_of_worstEligible ‹_›
  have hset : hopPolicyMaskGet mask worst = true := by
    simp only [eligible, Bool.and_eq_true] at heligible
    exact heligible.1.2
  exact Nat.lt_of_succ_le (hopPolicyMaskActiveCount_clear hlt hset).le

/-! ## Scheduling -/

/-- The counter after a window, and whether the period fires in it. -/
def hopPolicyWindowPeriodFires (counter period : UInt8) : UInt8 × Bool :=
  if counter + 1 ≥ period then (0, true) else (counter + 1, false)

/-- The announced epoch and repeats left after a window, and whether it beacons. -/
def hopPolicyShouldBeacon (epoch beaconedEpoch repeatsLeft repeatWindows : UInt8) :
    UInt8 × UInt8 × Bool :=
  let repeatsLeft := if epoch ≠ beaconedEpoch then repeatWindows else repeatsLeft
  if repeatsLeft > 0 then (epoch, repeatsLeft - 1, true) else (epoch, repeatsLeft, false)

/-! ## The peripheral's grade -/

def hopPolicyTxAttemptsGradeStep : ℕ := 4
def hopPolicyGoodTxAttempts : UInt8 := 2

/-- The streak after a window, and whether it reached the threshold. -/
def hopPolicyShouldHop (badWindows penalty : UInt8) (threshold : UInt16) : UInt8 × Bool :=
  if penalty = 0 then (0, false)
  else
    let badWindows := hopPolicySaturatingAdd badWindows penalty
    if badWindows.toUInt16 ≥ threshold then (0, true) else (badWindows, false)

def hopPolicyAttemptsPenalty (attempts goodAttempts : UInt8) : UInt8 :=
  if attempts ≤ goodAttempts then 0
  else
    let excess := attempts.toNat - goodAttempts.toNat
    UInt8.ofNat (min (1 + excess / hopPolicyTxAttemptsGradeStep) hopPolicyMaxLossPenalty)

def hopPolicyWindowAttempts (attemptsSum packets : UInt32) : UInt8 :=
  if packets = 0 then 0
  else
    let mean := attemptsSum / packets
    let mean := if attemptsSum % packets ≠ 0 then mean + 1 else mean
    (min mean 255).toUInt8

def hopPolicyAckedWindowAttempts (attemptsSum packets noackPackets : UInt32) : UInt8 :=
  if noackPackets ≥ packets then 0
  else hopPolicyWindowAttempts (attemptsSum - noackPackets) (packets - noackPackets)

def hopPolicyAttemptsEwmaShift : ℕ := 2

def hopPolicyEwmaUpdate (ewmaX10 : UInt16) (sample : UInt8) : UInt16 :=
  let difference : ℤ := sample.toNat * 10 - ewmaX10.toNat
  let delta := difference.tdiv (2 ^ hopPolicyAttemptsEwmaShift)
  let delta := if delta = 0 ∧ difference > 0 then 1 else delta
  let delta := if delta = 0 ∧ difference < 0 then -1 else delta
  UInt16.ofInt (ewmaX10.toNat + delta)

/-! ## Retransmits -/

def hopPolicyRetryEwmaLowX10 : UInt16 := 15
def hopPolicyRetryEwmaHighX10 : UInt16 := 45

/-- Asserts `countMin ≤ countMax`. -/
def hopPolicyAdaptiveRetransmits (ewmaX10 : UInt16) (countMin countMax : UInt8) : UInt8 :=
  if ewmaX10 ≤ hopPolicyRetryEwmaLowX10 then countMin
  else if ewmaX10 ≥ hopPolicyRetryEwmaHighX10 then countMax
  else
    let span := hopPolicyRetryEwmaHighX10.toUInt32 - hopPolicyRetryEwmaLowX10.toUInt32
    let into := ewmaX10.toUInt32 - hopPolicyRetryEwmaLowX10.toUInt32
    (countMin.toUInt32 + into * (countMax.toUInt32 - countMin.toUInt32) / span).toUInt8

def usecPerMsec : UInt32 := 1000

/-- The time some packets take to exhaust their retransmits, no less than the floor. -/
def hopPolicyRetryCycleMs (count : UInt8) (delayUs : UInt16) (margin : UInt8)
    (floorMs : UInt32) : UInt32 :=
  let cycleUs := margin.toUInt32 * count.toUInt32 * delayUs.toUInt32
  max floorMs (cycleUs / usecPerMsec)

def hopPolicyHfclkReleaseAllowed (gating radioIdle : Bool) : Bool :=
  if !gating then false else radioIdle

end SplitEsb
