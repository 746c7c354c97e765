import SplitEsb.Hop.AckProof

/-! # What a degrade verdict counts
A connected window grades three counters it reads one after the other. They describe the
same packets only while no completion lands between the reads and every submission
without ACK completes in the window it was noted in. -/

namespace SplitEsb

open Transition HopPeripheral

variable {config : HopConfig}

/-! ## The penalty -/

/-- A quotient, rounded up, is at most a limit iff the dividend is at most its multiple. -/
theorem ceil_div_le_iff {sum packets : ℕ} (hpackets : 0 < packets) (limit : ℕ) :
    (if sum % packets ≠ 0 then sum / packets + 1 else sum / packets) ≤ limit ↔
      sum ≤ limit * packets := by
  split_ifs with hrest
  · rw [Nat.succ_le_iff, Nat.div_lt_iff_lt_mul hpackets]
    refine ⟨le_of_lt, fun hle => lt_of_le_of_ne hle fun heq => ?_⟩
    rw [heq, Nat.mul_mod_left] at hrest
    exact hrest rfl
  · have hsum := Nat.div_add_mod sum packets
    rw [not_not.mp hrest, Nat.add_zero, Nat.mul_comm] at hsum
    rw [← Nat.mul_le_mul_right_iff hpackets, hsum]

theorem UInt32.toNat_ceil_div {sum packets : UInt32} (hpackets : packets ≠ 0) :
    (if sum % packets ≠ 0 then sum / packets + 1 else sum / packets).toNat =
      if sum.toNat % packets.toNat ≠ 0 then sum.toNat / packets.toNat + 1
      else sum.toNat / packets.toNat := by
  have hpos : 0 < packets.toNat := Nat.pos_of_ne_zero fun hzero => hpackets (UInt32.toNat_inj.mp hzero)
  have hrest : sum % packets = 0 ↔ sum.toNat % packets.toNat = 0 := by
    rw [← UInt32.toNat_inj, UInt32.toNat_mod]
    rfl
  split_ifs with hword hnat hnat
  · have htwo : 2 ≤ packets.toNat := by
      refine Nat.lt_of_le_of_ne hpos fun hone => hnat ?_
      rw [← hone, Nat.mod_one]
    have hsmall : sum.toNat / packets.toNat ≤ sum.toNat / 2 := Nat.div_le_div_left htwo (by decide)
    have hbound := sum.toNat_lt
    rw [UInt32.toNat_add, UInt32.toNat_div]
    exact Nat.mod_eq_of_lt (by change _ / _ + 1 < _; omega)
  · exact absurd (hrest.mpr (not_not.mp hnat)) hword
  · exact absurd (hrest.mp (not_not.mp hword)) hnat
  · exact UInt32.toNat_div ..

/-- The grade is the mean, rounded up and capped. -/
theorem toNat_hopPolicyWindowAttempts {sum packets : UInt32} (hpackets : packets ≠ 0) :
    (hopPolicyWindowAttempts sum packets).toNat =
      min 255 (if sum.toNat % packets.toNat ≠ 0 then sum.toNat / packets.toNat + 1
        else sum.toNat / packets.toNat) := by
  rw [hopPolicyWindowAttempts, if_neg hpackets, ← UInt32.toNat_ceil_div hpackets]
  set mean := if sum % packets ≠ 0 then sum / packets + 1 else sum / packets
  rw [UInt32.toNat_toUInt8]
  by_cases hle : mean ≤ 255
  · have hle' : mean.toNat ≤ 255 := UInt32.le_iff_toNat_le.mp hle
    rw [show min mean 255 = mean from if_pos hle, min_eq_right hle']
    omega
  · have hlt : 255 < mean.toNat := UInt32.lt_iff_toNat_lt.mp (UInt32.not_le.mp hle)
    rw [show min mean 255 = 255 from if_neg hle, min_eq_left hlt.le]
    rfl

/-- The mean, rounded up, stays within a limit iff the sum does. -/
theorem hopPolicyWindowAttempts_le_iff {sum packets : UInt32} (hpackets : packets ≠ 0)
    {limit : UInt8} (hlimit : limit < 255) :
    hopPolicyWindowAttempts sum packets ≤ limit ↔ sum.toNat ≤ limit.toNat * packets.toNat := by
  have hpos : 0 < packets.toNat := Nat.pos_of_ne_zero fun hzero => hpackets (UInt32.toNat_inj.mp hzero)
  have hlimit' : limit.toNat < 255 := UInt8.lt_iff_toNat_lt.mp hlimit
  rw [UInt8.le_iff_toNat_le, toNat_hopPolicyWindowAttempts hpackets, min_le_iff,
    or_iff_right (Nat.not_le.mpr hlimit'), ceil_div_le_iff hpos]

theorem hopPolicyAttemptsPenalty_eq_zero_iff (attempts good : UInt8) :
    hopPolicyAttemptsPenalty attempts good = 0 ↔ attempts ≤ good := by
  rw [hopPolicyAttemptsPenalty]
  split_ifs with hgood
  · exact iff_of_true rfl hgood
  · refine iff_of_false (fun hzero => ?_) hgood
    have hnat := congrArg UInt8.toNat hzero
    rw [UInt8.toNat_ofNat', hopPolicyMaxLossPenalty, hopPolicyTxAttemptsGradeStep] at hnat
    change _ % 256 = 0 at hnat
    omega

/-- A window is clean, its subtractions included, iff the packets noted without ACK are
all it counts or leave at most two attempts for each of the others. -/
theorem windowPenalty_clean_iff (sum packets noack : UInt32) :
    windowPenalty sum packets noack = 0 ∧ (noack < packets → noack ≤ sum) ↔
      packets ≤ noack ∨ noack ≤ sum ∧ sum.toNat + noack.toNat ≤ 2 * packets.toNat := by
  rw [windowPenalty, hopPolicyAttemptsPenalty_eq_zero_iff, hopPolicyAckedWindowAttempts]
  by_cases hall : packets ≤ noack
  · rw [if_pos hall]
    exact iff_of_true ⟨by decide, fun hlt => absurd hlt (UInt32.not_lt.mpr hall)⟩ (.inl hall)
  · rw [if_neg hall]
    have hlt : noack < packets := UInt32.not_le.mp hall
    have hlt' := UInt32.lt_iff_toNat_lt.mp hlt
    have hothers : (packets - noack).toNat = packets.toNat - noack.toNat :=
      UInt32.toNat_sub_of_le _ _ (UInt32.le_of_lt hlt)
    have hsome : packets - noack ≠ 0 := by
      intro hzero
      rw [hzero] at hothers
      change 0 = _ at hothers
      omega
    rw [hopPolicyWindowAttempts_le_iff hsome (by decide), hothers]
    constructor
    · rintro ⟨hmean, hunder⟩
      have hle := hunder hlt
      have hle' := UInt32.le_iff_toNat_le.mp hle
      rw [UInt32.toNat_sub_of_le _ _ hle] at hmean
      change _ ≤ 2 * _ at hmean
      exact .inr ⟨hle, by omega⟩
    · rintro (hle | ⟨hle, hsum⟩)
      · exact absurd hle hall
      · have hle' := UInt32.le_iff_toNat_le.mp hle
        rw [UInt32.toNat_sub_of_le _ _ hle]
        refine ⟨?_, fun _ => hle⟩
        change _ ≤ 2 * _
        omega

namespace UplinkTick

/-! ## What the counters hold -/

/-- The counters taken so far hold the completions behind them. -/
def StageCredited : TickStage → Prop
  | .sumTaken _ _ sum completed retried => sum = UInt32.ofNat (completed + retried)
  | .packetsTaken _ _ sum packets completed retried counted =>
      sum = UInt32.ofNat (completed + retried) ∧ packets = UInt32.ofNat counted
  | _ => True

/-- Every counter holds what happened since the tick last took it. -/
structure Credited (state : UplinkTick config) : Prop where
  sum : state.peripheral.windowAttemptsSum = UInt32.ofNat (state.completed + state.retried)
  packets : state.peripheral.windowPackets = UInt32.ofNat state.counted
  noack : state.peripheral.windowNoackPackets = UInt32.ofNat state.noted
  stage : StageCredited state.stage

/-- Transmits that ask for an ACK succeed, within the attempts that count as good. -/
def GoodUplink : UplinkAction → Prop
  | .succeed attempts => attempts = 1 ∨ attempts = hopPolicyGoodTxAttempts
  | .fail _ => False
  | _ => True

theorem boot_counters (retained : HopRetained config) :
    KeepsCounts (HopPeripheral.zero retained) (HopPeripheral.boot retained) ∧
      (HopPeripheral.boot retained).badWindows = 0 := by
  simp only [HopPeripheral.boot, HopPeripheral.hopRestore, HopPeripheral.ensureMask]
  split_ifs <;> exact ⟨⟨rfl, rfl, rfl, rfl⟩, rfl⟩

theorem Credited.boot (retained : HopRetained config) : (boot retained).Credited := by
  obtain ⟨hkeeps, -⟩ := boot_counters retained
  exact ⟨hkeeps.sum, hkeeps.packets, hkeeps.noack, trivial⟩

variable {state : UplinkTick config}

theorem Credited.keeps (h : state.Credited) {peripheral : HopPeripheral config}
    (hkeeps : KeepsCounts state.peripheral peripheral) :
    ({ state with peripheral := peripheral } : UplinkTick config).Credited :=
  ⟨hkeeps.sum.trans h.sum, hkeeps.packets.trans h.packets, hkeeps.noack.trans h.noack, h.stage⟩

theorem Credited.noteCount (h : state.Credited) : state.noteCount.Credited := by
  rw [UplinkTick.noteCount]
  split_ifs
  · exact h
  · refine ⟨h.sum, h.packets, ?_, h.stage⟩
    rw [UInt32.ofNat_add, ← h.noack]
    rfl
  · exact ⟨h.sum, h.packets, h.noack, h.stage⟩

/-- What a success adds to the window counters. -/
theorem hopNoteTxSuccess_counts (peripheral : HopPeripheral config) (attempts : UInt8) :
    let noted := peripheral.hopNoteTxSuccess attempts
    noted.windowNoackPackets = peripheral.windowNoackPackets ∧
      noted.badWindows = peripheral.badWindows ∧
      if 1 < config.hopCount then
        noted.windowAttemptsSum = peripheral.windowAttemptsSum + attempts.toUInt32 ∧
          noted.windowPackets = peripheral.windowPackets + 1
      else
        noted.windowAttemptsSum = peripheral.windowAttemptsSum ∧
          noted.windowPackets = peripheral.windowPackets := by
  intro noted
  by_cases hpool : 1 < config.hopCount
  · have hnoted : noted = _ := if_pos hpool
    rw [if_pos hpool, hnoted]
    exact ⟨rfl, rfl, rfl, rfl⟩
  · have hnoted : noted = _ := if_neg hpool
    rw [if_neg hpool, hnoted]
    exact ⟨rfl, rfl, rfl, rfl⟩

/-- A completion of one or two attempts is credited to both counters. -/
theorem Credited.succeed (h : state.Credited) {attempts : UInt8}
    (hgood : GoodUplink (.succeed attempts)) : (state.succeed attempts).Credited := by
  rw [UplinkTick.succeed]
  cases state.txFifo with
  | nil => exact h
  | cons ack txFifo =>
      have hsent : (if ack = true then attempts else 1) = 1 ∨
          (if ack = true then attempts else 1) = hopPolicyGoodTxAttempts := by
        cases ack with
        | true => exact hgood
        | false => exact .inl rfl
      set sent : UInt8 := if ack = true then attempts else 1
      obtain ⟨hnoack, -, hcounts⟩ := hopNoteTxSuccess_counts state.peripheral sent
      dsimp only
      by_cases hpool : 1 < config.hopCount
      · rw [if_pos hpool] at hcounts ⊢
        refine ⟨hcounts.1.trans ?_, hcounts.2.trans ?_, hnoack.trans h.noack, h.stage⟩
        · change _ = UInt32.ofNat (state.completed + 1 +
            if sent = 1 then state.retried else state.retried + 1)
          rcases hsent with hone | htwo
          · rw [hone, if_pos rfl, Nat.add_right_comm, UInt32.ofNat_add, ← h.sum]
            rfl
          · have htwice : state.completed + 1 + (state.retried + 1) =
                state.completed + state.retried + 2 := by omega
            rw [htwo, if_neg (by decide), htwice, UInt32.ofNat_add, ← h.sum]
            rfl
        · rw [UInt32.ofNat_add, ← h.packets]
          rfl
      · rw [if_neg hpool] at hcounts ⊢
        exact ⟨hcounts.1.trans h.sum, hcounts.2.trans h.packets, hnoack.trans h.noack, h.stage⟩

theorem retain_credited (h : state.Credited) : state.retain.Credited := by
  rw [retain]
  split_ifs
  · exact h.keeps ⟨rfl, rfl, rfl, rfl⟩
  · exact h

theorem Credited.chooseWindow (h : state.Credited) : state.chooseWindow.Credited := by
  obtain ⟨hsum, hpackets, hnoack, -⟩ := h.keeps (KeepsCounts.ensureMask state.peripheral)
  simp only [UplinkTick.chooseWindow]
  split_ifs
  · obtain ⟨-, hsum', hpackets', hnoack'⟩ := KeepsCounts.adoptEpochStart
      state.peripheral.ensureMask state.peripheral.ensureMask.beaconEpoch
    exact ⟨hsum'.trans hsum, hpackets'.trans hpackets, hnoack'.trans hnoack, trivial⟩
  · exact ⟨hsum, hpackets, hnoack, trivial⟩
  · exact ⟨hsum, hpackets, hnoack, trivial⟩

theorem Credited.endWindow (h : state.Credited) (kind : WindowKind) (worst : UInt8)
    (sum packets : UInt32) : (state.endWindow kind worst sum packets).Credited := by
  have htaken : ({ state with noted := 0, stage := .idle, peripheral :=
      { state.peripheral with windowNoackPackets := 0 } } : UplinkTick config).Credited :=
    ⟨h.sum, h.packets, rfl, trivial⟩
  cases kind with
  | adopt => exact retain_credited htaken
  | connected =>
      obtain ⟨hsum, hpackets, hnoack, hstage⟩ := htaken.keeps (KeepsCounts.gradeWindow _ worst sum
        packets state.peripheral.windowNoackPackets)
      exact retain_credited ⟨hsum, hpackets, hnoack, hstage⟩
  | lost => exact retain_credited (htaken.keeps (KeepsCounts.lostWindowEnd _))

theorem Credited.work (h : state.Credited) : state.work.Credited := by
  rw [UplinkTick.work]
  cases hcase : state.stage with
  | idle => exact h
  | start => exact ⟨h.sum, h.packets, h.noack, trivial⟩
  | failedTaken failed => exact ⟨h.sum, h.packets, h.noack, trivial⟩
  | succeededTaken failed succeeded acked noacked => exact ⟨h.sum, h.packets, h.noack, trivial⟩
  | settled =>
      dsimp only
      split_ifs
      · exact ⟨h.sum, h.packets, h.noack, trivial⟩
      · exact h.chooseWindow
  | window kind => exact ⟨h.sum, h.packets, h.noack, trivial⟩
  | worstTaken kind worst => exact ⟨rfl, h.packets, h.noack, h.sum⟩
  | sumTaken kind worst sum completed retried =>
      have htaken := h.stage
      rw [hcase] at htaken
      exact ⟨h.sum, rfl, h.noack, htaken, h.packets⟩
  | packetsTaken kind worst sum packets completed retried counted =>
      exact h.endWindow kind worst sum packets

theorem Credited.step (h : state.Credited) {action : UplinkAction} (hgood : GoodUplink action) :
    (state.step action).Credited := by
  cases action with
  | submit ack => exact ⟨h.sum, h.packets, h.noack, h.stage⟩
  | noteFlag =>
      rw [UplinkTick.step, noteFlag]
      split_ifs
      · exact h
      · exact ⟨h.sum, h.packets, h.noack, h.stage⟩
  | noteCount => exact h.noteCount
  | succeed attempts => exact h.succeed hgood
  | fail retry => exact hgood.elim
  | flush => exact ⟨h.sum, h.packets, h.noack, h.stage⟩
  | receive pipe data => exact h.keeps (KeepsCounts.hopConsumeRx pipe _ data)
  | tick =>
      rw [UplinkTick.step]
      split_ifs
      · exact ⟨h.sum, h.packets, h.noack, trivial⟩
      · exact h
  | work => exact h.work

/-! ## The verdict -/

/-- No window was penalised, none subtracted more than it had, and none left the channel. -/
structure NeverPenalised (state : UplinkTick config) : Prop where
  graded : ∀ window ∈ state.graded,
    windowPenalty window.sum window.packets window.noack = 0 ∧
      (window.noack < window.packets → window.noack ≤ window.sum)
  streak : state.peripheral.badWindows = 0
  stays : state.departures = 0

/-- Modulo 2^32: the submissions noted without ACK are all the completions a window
counts, or leave at most two attempts for each of the others. Attempts are one for each
completion credited to the sum, and one more for each retried. -/
def EvenWindow (completed retried counted noted : ℕ) : Prop :=
  counted % 2 ^ 32 ≤ noted % 2 ^ 32 ∨
    noted % 2 ^ 32 ≤ (completed + retried) % 2 ^ 32 ∧
      (completed + retried) % 2 ^ 32 + noted % 2 ^ 32 ≤ 2 * (counted % 2 ^ 32)

/-- Whenever the tick grades a connected window, what its counters describe is even. -/
def GradesEven (state : UplinkTick config) : UplinkAction → Prop
  | .work => ∀ worst sum packets completed retried counted,
      state.stage = .packetsTaken .connected worst sum packets completed retried counted →
        EvenWindow completed retried counted state.noted
  | _ => True

theorem windowPenalty_ofNat_iff (completed retried counted noted : ℕ) :
    windowPenalty (UInt32.ofNat (completed + retried)) (UInt32.ofNat counted)
          (UInt32.ofNat noted) = 0 ∧
        (UInt32.ofNat noted < UInt32.ofNat counted →
          UInt32.ofNat noted ≤ UInt32.ofNat (completed + retried)) ↔
      EvenWindow completed retried counted noted := by
  rw [windowPenalty_clean_iff, UInt32.le_iff_toNat_le, UInt32.le_iff_toNat_le, UInt32.toNat_ofNat',
    UInt32.toNat_ofNat', UInt32.toNat_ofNat']
  exact Iff.rfl

theorem hopPolicyShouldHop_zero (streak : UInt8) (threshold : UInt16) :
    hopPolicyShouldHop streak 0 threshold = (0, false) := if_pos rfl

theorem gradeWindow_badWindows (peripheral : HopPeripheral config) (worst : UInt8)
    (sum packets noack : UInt32) :
    (peripheral.gradeWindow worst sum packets noack).badWindows =
      (hopPolicyShouldHop peripheral.badWindows (windowPenalty sum packets noack)
        config.hopThreshold).1 := by
  simp only [gradeWindow]
  split_ifs <;> rfl

theorem retain_verdict (state : UplinkTick config) :
    state.retain.NeverPenalised ↔ state.NeverPenalised := by
  rw [retain]
  split_ifs
  · exact ⟨fun h => ⟨h.graded, h.streak, h.stays⟩, fun h => ⟨h.graded, h.streak, h.stays⟩⟩
  · exact Iff.rfl

theorem lostWindowEnd_badWindows (peripheral : HopPeripheral config) :
    peripheral.lostWindowEnd.badWindows = 0 := by
  simp only [lostWindowEnd]
  split_ifs <;> rfl

/-- Grading a window keeps the verdict clean iff the window is. -/
theorem endWindow_verdict_iff (hclean : state.NeverPenalised) (worst : UInt8)
    (sum packets : UInt32) :
    (state.endWindow .connected worst sum packets).NeverPenalised ↔
      windowPenalty sum packets state.peripheral.windowNoackPackets = 0 ∧
        (state.peripheral.windowNoackPackets < packets →
          state.peripheral.windowNoackPackets ≤ sum) := by
  rw [endWindow]
  dsimp only
  rw [retain_verdict]
  constructor
  · intro h
    exact h.graded ⟨sum, packets, state.peripheral.windowNoackPackets⟩
      (List.mem_append_right _ (List.mem_singleton_self _))
  · intro hwindow
    refine ⟨fun window hmem => ?_, ?_, ?_⟩
    · rcases List.mem_append.mp hmem with hmem | hmem
      · exact hclean.graded window hmem
      · rw [List.mem_singleton.mp hmem]
        exact hwindow
    · refine (gradeWindow_badWindows ..).trans ?_
      rw [hwindow.1, hopPolicyShouldHop_zero]
    · dsimp only
      rw [hwindow.1, hopPolicyShouldHop_zero, if_neg Bool.false_ne_true]
      exact hclean.stays

theorem NeverPenalised.of_keeps (h : state.NeverPenalised) {state' : UplinkTick config}
    (hgraded : state'.graded = state.graded)
    (hstreak : state'.peripheral.badWindows = state.peripheral.badWindows ∨
      state'.peripheral.badWindows = 0)
    (hstays : state'.departures = state.departures) : state'.NeverPenalised := by
  refine ⟨hgraded ▸ h.graded, ?_, hstays.trans h.stays⟩
  rcases hstreak with hsame | hzero
  · exact hsame.trans h.streak
  · exact hzero

/-- Only the end of a connected window passes a verdict. -/
theorem NeverPenalised.work (h : state.NeverPenalised)
    (hstage : ∀ worst sum packets completed retried counted,
      state.stage ≠ .packetsTaken .connected worst sum packets completed retried counted) :
    state.work.NeverPenalised := by
  rw [UplinkTick.work]
  cases hcase : state.stage with
  | idle => exact h
  | start => exact h.of_keeps rfl (.inl rfl) rfl
  | failedTaken failed => exact h.of_keeps rfl (.inl rfl) rfl
  | succeededTaken failed succeeded acked noacked => exact h.of_keeps rfl (.inl rfl) rfl
  | settled =>
      dsimp only
      have hmask : state.peripheral.ensureMask.badWindows = state.peripheral.badWindows := by
        rw [ensureMask]
        split_ifs <;> rfl
      split_ifs
      · exact h.of_keeps rfl (.inl rfl) rfl
      · simp only [chooseWindow]
        split_ifs
        · exact h.of_keeps rfl (.inr rfl) rfl
        · exact h.of_keeps rfl (.inl hmask) rfl
        · exact h.of_keeps rfl (.inl hmask) rfl
  | window kind => exact h.of_keeps rfl (.inl rfl) rfl
  | worstTaken kind worst => exact h.of_keeps rfl (.inl rfl) rfl
  | sumTaken kind worst sum completed retried => exact h.of_keeps rfl (.inl rfl) rfl
  | packetsTaken kind worst sum packets completed retried counted =>
      cases kind with
      | connected => exact absurd hcase (hstage _ _ _ _ _ _)
      | adopt => exact (retain_verdict _).mpr (h.of_keeps rfl (.inl rfl) rfl)
      | lost =>
          exact (retain_verdict _).mpr (h.of_keeps rfl (.inr (lostWindowEnd_badWindows _)) rfl)

theorem NeverPenalised.succeed (h : state.NeverPenalised) (attempts : UInt8) :
    (state.succeed attempts).NeverPenalised := by
  rw [UplinkTick.succeed]
  cases state.txFifo with
  | nil => exact h
  | cons ack txFifo =>
      obtain ⟨-, hstreak, -⟩ :=
        hopNoteTxSuccess_counts state.peripheral (if ack = true then attempts else 1)
      dsimp only
      split_ifs at hstreak ⊢ <;> exact h.of_keeps rfl (.inl hstreak) rfl

theorem hopConsumeRx_badWindows (pipe : ℕ) (peripheral : HopPeripheral config)
    (data : ByteString.Bytes) :
    (peripheral.hopConsumeRx pipe data).badWindows = peripheral.badWindows := by
  simp only [hopConsumeRx, consumeBeacon, consumeMaskUpdate]
  split_ifs <;> rfl

theorem neverPenalised_step_iff (h : state.Credited) (hclean : state.NeverPenalised)
    {action : UplinkAction} (hgood : GoodUplink action) :
    (state.step action).NeverPenalised ↔ state.GradesEven action := by
  cases action with
  | submit ack => exact iff_of_true (hclean.of_keeps rfl (.inl rfl) rfl) trivial
  | noteFlag =>
      refine iff_of_true ?_ trivial
      rw [step, noteFlag]
      split_ifs
      · exact hclean
      · exact hclean.of_keeps rfl (.inl rfl) rfl
  | noteCount =>
      refine iff_of_true ?_ trivial
      rw [step, noteCount]
      split_ifs
      · exact hclean
      · exact hclean.of_keeps rfl (.inl rfl) rfl
      · exact hclean.of_keeps rfl (.inl rfl) rfl
  | succeed attempts => exact iff_of_true (hclean.succeed attempts) trivial
  | fail retry => exact hgood.elim
  | flush => exact iff_of_true (hclean.of_keeps rfl (.inl rfl) rfl) trivial
  | receive pipe data =>
      refine iff_of_true (hclean.of_keeps rfl (.inl ?_) rfl) trivial
      exact hopConsumeRx_badWindows pipe state.peripheral data
  | tick =>
      refine iff_of_true ?_ trivial
      rw [step]
      split_ifs
      · exact hclean.of_keeps rfl (.inl rfl) rfl
      · exact hclean
  | work =>
      rw [step]
      by_cases hgrades : ∃ worst sum packets completed retried counted,
          state.stage = .packetsTaken .connected worst sum packets completed retried counted
      · obtain ⟨worst, sum, packets, completed, retried, counted, hstage⟩ := hgrades
        have htaken := h.stage
        rw [hstage] at htaken
        obtain ⟨rfl, rfl⟩ := htaken
        have hwork : state.work = state.endWindow .connected worst
            (UInt32.ofNat (completed + retried)) (UInt32.ofNat counted) := by
          rw [work, hstage]
        rw [hwork, endWindow_verdict_iff hclean, h.noack, windowPenalty_ofNat_iff]
        constructor
        · intro heven _ _ _ _ _ _ hother
          rw [hstage] at hother
          cases hother
          exact heven
        · exact fun hall => hall _ _ _ _ _ _ hstage
      · refine iff_of_true (hclean.work fun _ _ _ _ _ _ hstage => ?_) fun _ _ _ _ _ _ hstage => ?_
        · exact hgrades ⟨_, _, _, _, _, _, hstage⟩
        · exact absurd ⟨_, _, _, _, _, _, hstage⟩ hgrades

/-- In a run whose transmits with ACK succeed within the good attempts, no window is
penalised iff the counters of each window graded are even. -/
theorem never_penalised_iff (config : HopConfig) (retained : HopRetained config)
    (actions : List UplinkAction) (hgood : ∀ action ∈ actions, GoodUplink action) :
    (∀ front, front <+: actions → (run step (boot retained) front).NeverPenalised) ↔
      Along step GradesEven (boot retained) actions := by
  have hboot : (boot retained).NeverPenalised :=
    ⟨fun _ hmem => absurd hmem List.not_mem_nil, (boot_counters retained).2, rfl⟩
  exact @forall_prefix_iff_along_of _ _ (@step config) Credited NeverPenalised GradesEven GoodUplink
    (fun _ _ h hok => h.step hok) (fun _ _ h hclean hok => neverPenalised_step_iff h hclean hok)
    _ (.boot retained) hboot actions hgood

/-- Two packets of two attempts each, and a motion packet that completes in its window. -/
def retriedBesideMotion : List UplinkAction :=
  [UplinkAction.submit true, .submit true, .submit false, .noteFlag, .noteCount, .succeed 2,
    .succeed 2, .succeed 1] ++ wholeTick

theorem never_penalised_sample :
    let state := run step (boot (coldRetained : HopRetained sampleHopConfig)) retriedBesideMotion
    state.graded = [⟨5, 3, 1⟩] ∧ state.NeverPenalised := by
  have hgood : ∀ action ∈ retriedBesideMotion, GoodUplink action := by
    simp [retriedBesideMotion, wholeTick, GoodUplink, hopPolicyGoodTxAttempts]
  refine ⟨by decide +kernel, (never_penalised_iff sampleHopConfig coldRetained
    retriedBesideMotion hgood).mpr ?_ retriedBesideMotion List.prefix_rfl⟩
  refine ⟨trivial, trivial, trivial, trivial, trivial, trivial, trivial, trivial, trivial,
    ?_, ?_, ?_, ?_, ?_, ?_, ?_, ?_, trivial⟩ <;> intro _ _ _ _ _ _ hstage <;> cases hstage
  exact .inr (by decide)

/-- A packet with ACK brings the link up; two more take two attempts each while a motion
packet noted without ACK is still in the FIFO. -/
def pendingMotion : List UplinkAction :=
  [UplinkAction.submit true, .succeed 1] ++ wholeTick ++
    [UplinkAction.submit true, .submit true, .submit false, .noteFlag, .noteCount, .succeed 2, .succeed 2] ++
      wholeTick

/-- The packet still in the FIFO costs the window a penalty. -/
theorem pending_motion_penalised : ¬ ∀ (config : HopConfig) (retained : HopRetained config)
    (actions : List UplinkAction), (∀ action ∈ actions, GoodUplink action) →
      (run step (boot retained) actions).NeverPenalised := by
  intro h
  have hgood : ∀ action ∈ pendingMotion, GoodUplink action := by
    simp [pendingMotion, wholeTick, GoodUplink, hopPolicyGoodTxAttempts]
  have hrun := h sampleHopConfig coldRetained pendingMotion hgood
  exact absurd hrun.streak (by decide +kernel)

end UplinkTick

end SplitEsb
