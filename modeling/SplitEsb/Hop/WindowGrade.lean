import Mathlib.Algebra.BigOperators.Group.List.Basic
import Mathlib.Algebra.Order.Floor.Semifield
import Mathlib.Data.Rat.Floor
import SplitEsb.Hop.Degrade

/-! # The grade of a connected window
The counters hold every send of the window, those without ACK among them as one attempt
each. Taking these out again leaves the mean of the transmits the central acked. -/

namespace SplitEsb

open Transition HopPeripheral

/-! ## The mean, rounded up -/

theorem ceil_mean_eq {sum packets : ℕ} (hpackets : 0 < packets) :
    ⌈(sum : ℚ) / packets⌉₊ =
      if sum % packets ≠ 0 then sum / packets + 1 else sum / packets := by
  refine eq_of_forall_ge_iff fun limit => ?_
  have hpositive : (0 : ℚ) < packets := Nat.cast_pos.mpr hpackets
  rw [ceil_div_le_iff hpackets, Nat.ceil_le, div_le_iff₀ hpositive, ← Nat.cast_mul, Nat.cast_le]

theorem hopPolicyAttemptsPenalty_le (attempts good : UInt8) :
    (hopPolicyAttemptsPenalty attempts good).toNat ≤ hopPolicyMaxLossPenalty := by
  rw [hopPolicyAttemptsPenalty]
  split_ifs
  · exact Nat.zero_le _
  · rw [UInt8.toNat_ofNat']
    exact (Nat.mod_le _ _).trans (Nat.min_le_right _ _)

/-! ## The acked mean -/

theorem ofNat_le_ofNat {small large : ℕ} (hle : small ≤ large) (hlarge : large < 2 ^ 32) :
    UInt32.ofNat small ≤ UInt32.ofNat large := by
  rw [UInt32.le_iff_toNat_le, UInt32.toNat_ofNat', UInt32.toNat_ofNat']
  omega

/-- Taking the sends without ACK out of a counter leaves what the others put in. -/
theorem ofNat_add_sub_ofNat (count noack : ℕ) :
    UInt32.ofNat (count + noack) - UInt32.ofNat noack = UInt32.ofNat count := by
  rw [UInt32.ofNat_add, UInt32.add_sub_cancel]

variable {sum count noack : ℕ}

theorem toNat_hopPolicyAckedWindowAttempts (hcount : count ≤ sum) (hfits : sum + noack < 2 ^ 32) :
    (hopPolicyAckedWindowAttempts (UInt32.ofNat (sum + noack)) (UInt32.ofNat (count + noack))
      (UInt32.ofNat noack)).toNat =
        if count = 0 then 0 else min 255 ⌈(sum : ℚ) / count⌉₊ := by
  have hall : UInt32.ofNat noack ≥ UInt32.ofNat (count + noack) ↔ count = 0 := by
    rw [ge_iff_le, UInt32.le_iff_toNat_le, UInt32.toNat_ofNat', UInt32.toNat_ofNat']
    omega
  rw [hopPolicyAckedWindowAttempts]
  split_ifs with hnone hzero hzero
  · rfl
  · exact absurd (hall.mp hnone) hzero
  · exact absurd (hall.mpr hzero) hnone
  · have hsmall : sum < UInt32.size := lt_of_le_of_lt (Nat.le_add_right sum noack) hfits
    have htoNat : (UInt32.ofNat count).toNat = count :=
      UInt32.toNat_ofNat_of_lt' (lt_of_le_of_lt hcount hsmall)
    have hsome : UInt32.ofNat count ≠ 0 := fun heq => hzero (by rw [← htoNat, heq]; rfl)
    rw [ofNat_add_sub_ofNat, ofNat_add_sub_ofNat, toNat_hopPolicyWindowAttempts hsome, htoNat,
      UInt32.toNat_ofNat_of_lt' hsmall, ceil_mean_eq (Nat.pos_of_ne_zero hzero)]

/-- The penalty stands exactly while the mean is above the attempts that count as good. -/
theorem windowPenalty_ne_zero_iff (hcount : count ≤ sum) (hfits : sum + noack < 2 ^ 32) :
    windowPenalty (UInt32.ofNat (sum + noack)) (UInt32.ofNat (count + noack))
      (UInt32.ofNat noack) ≠ 0 ↔ count ≠ 0 ∧ hopPolicyGoodTxAttempts.toNat * count < sum := by
  rw [windowPenalty, ne_eq, hopPolicyAttemptsPenalty_eq_zero_iff, UInt8.le_iff_toNat_le,
    toNat_hopPolicyAckedWindowAttempts hcount hfits]
  split_ifs with hzero
  · exact iff_of_false (fun h => h (Nat.zero_le _)) fun h => h.1 hzero
  · have hpositive : (0 : ℚ) < count := Nat.cast_pos.mpr (Nat.pos_of_ne_zero hzero)
    have hmean : min 255 ⌈(sum : ℚ) / count⌉₊ ≤ hopPolicyGoodTxAttempts.toNat ↔
        sum ≤ hopPolicyGoodTxAttempts.toNat * count := by
      rw [min_le_iff, or_iff_right (by decide), Nat.ceil_le, div_le_iff₀ hpositive, ← Nat.cast_mul,
        Nat.cast_le]
    rw [hmean, Nat.not_le, and_iff_right hzero]

theorem windowPenalty_acked_iff {acked : List ℕ} (hacked : ∀ attempts ∈ acked, 1 ≤ attempts)
    (hfits : acked.sum + noack < 2 ^ 32) :
    windowPenalty (UInt32.ofNat (acked.sum + noack)) (UInt32.ofNat (acked.length + noack))
      (UInt32.ofNat noack) ≠ 0 ↔ hopPolicyGoodTxAttempts.toNat * acked.length < acked.sum := by
  have hcount : acked.length ≤ acked.sum := acked.length_le_sum_of_one_le hacked
  refine (windowPenalty_ne_zero_iff hcount hfits).trans (and_iff_right_of_imp ?_)
  rintro hmore hnone
  rw [List.length_eq_zero_iff.mp hnone] at hmore
  exact absurd hmore (by decide)

/-! ## The counters of a window -/

/-- A transmit the central acked, or one half of a send without ACK: the note of its
submission, and its completion after one attempt. -/
inductive WindowNote where
  | acked (attempts : UInt8)
  | noackSent
  | noackDone
  deriving DecidableEq, Repr

namespace WindowNote

def attempts : WindowNote → ℕ
  | .acked attempts => attempts.toNat
  | .noackSent => 0
  | .noackDone => 1

def packets : WindowNote → ℕ
  | .noackSent => 0
  | _ => 1

def noackPackets : WindowNote → ℕ
  | .noackSent => 1
  | _ => 0

end WindowNote

/-- The attempts of the acked transmits among some notes. -/
def ackedAttempts : List WindowNote → List ℕ
  | [] => []
  | .acked attempts :: notes => attempts.toNat :: ackedAttempts notes
  | _ :: notes => ackedAttempts notes

theorem sum_attempts (notes : List WindowNote) : (notes.map WindowNote.attempts).sum =
    (ackedAttempts notes).sum + notes.count .noackDone := by
  induction notes with
  | nil => rfl
  | cons note notes ih =>
      rw [List.map_cons, List.sum_cons, ih]
      cases note <;> simp [ackedAttempts, WindowNote.attempts] <;> omega

theorem sum_packets (notes : List WindowNote) : (notes.map WindowNote.packets).sum =
    (ackedAttempts notes).length + notes.count .noackDone := by
  induction notes with
  | nil => rfl
  | cons note notes ih =>
      rw [List.map_cons, List.sum_cons, ih]
      cases note <;> simp [ackedAttempts, WindowNote.packets] <;> omega

theorem sum_noackPackets (notes : List WindowNote) :
    (notes.map WindowNote.noackPackets).sum = notes.count .noackSent := by
  induction notes with
  | nil => rfl
  | cons note notes ih =>
      rw [List.map_cons, List.sum_cons, ih]
      cases note <;> simp [WindowNote.noackPackets, Nat.add_comm]

namespace HopPeripheral

variable {config : HopConfig}

def note (peripheral : HopPeripheral config) : WindowNote → HopPeripheral config
  | .acked attempts => peripheral.hopNoteTxSuccess attempts
  | .noackSent => peripheral.hopNoteNoackSent
  | .noackDone => peripheral.hopNoteTxSuccess 1

/-- What one note adds to the counters. -/
theorem note_counts (hpool : 1 < config.hopCount) (peripheral : HopPeripheral config)
    (note : WindowNote) :
    (peripheral.note note).windowAttemptsSum =
        peripheral.windowAttemptsSum + UInt32.ofNat note.attempts ∧
      (peripheral.note note).windowPackets =
        peripheral.windowPackets + UInt32.ofNat note.packets ∧
      (peripheral.note note).windowNoackPackets =
        peripheral.windowNoackPackets + UInt32.ofNat note.noackPackets := by
  have hsuccess : ∀ attempts : UInt8, peripheral.hopNoteTxSuccess attempts = _ :=
    fun attempts => if_pos hpool
  have hsent : peripheral.hopNoteNoackSent = _ := if_pos hpool
  cases note with
  | acked attempts =>
      rw [note, hsuccess, WindowNote.attempts, UInt32.ofNat_uInt8ToNat]
      exact ⟨rfl, rfl, (UInt32.add_zero _).symm⟩
  | noackSent =>
      rw [note, hsent]
      exact ⟨(UInt32.add_zero _).symm, (UInt32.add_zero _).symm, rfl⟩
  | noackDone =>
      rw [note, hsuccess]
      exact ⟨rfl, rfl, (UInt32.add_zero _).symm⟩

/-- In whatever order the notes of a window come, its counters add them up. -/
theorem run_note_counts (hpool : 1 < config.hopCount) (peripheral : HopPeripheral config)
    (notes : List WindowNote) :
    let noted := run note peripheral notes
    noted.windowAttemptsSum =
        peripheral.windowAttemptsSum + UInt32.ofNat (notes.map WindowNote.attempts).sum ∧
      noted.windowPackets =
        peripheral.windowPackets + UInt32.ofNat (notes.map WindowNote.packets).sum ∧
      noted.windowNoackPackets =
        peripheral.windowNoackPackets + UInt32.ofNat (notes.map WindowNote.noackPackets).sum := by
  induction notes generalizing peripheral with
  | nil => exact ⟨(UInt32.add_zero _).symm, (UInt32.add_zero _).symm, (UInt32.add_zero _).symm⟩
  | cons first notes ih =>
      obtain ⟨hsum, hpackets, hnoack⟩ := ih (peripheral.note first)
      obtain ⟨hsum', hpackets', hnoack'⟩ := note_counts hpool peripheral first
      rw [hsum', UInt32.add_assoc, ← UInt32.ofNat_add] at hsum
      rw [hpackets', UInt32.add_assoc, ← UInt32.ofNat_add] at hpackets
      rw [hnoack', UInt32.add_assoc, ← UInt32.ofNat_add] at hnoack
      exact ⟨hsum, hpackets, hnoack⟩

/-- A window that holds both halves of its sends without ACK counts its transmits. -/
theorem run_note_window (hpool : 1 < config.hopCount) (peripheral : HopPeripheral config)
    {notes : List WindowNote} {noack : ℕ} (hsent : notes.count .noackSent = noack)
    (hdone : notes.count .noackDone = noack) :
    let noted := run note peripheral.clearWindowAttempts notes
    noted.windowAttemptsSum = UInt32.ofNat ((ackedAttempts notes).sum + noack) ∧
      noted.windowPackets = UInt32.ofNat ((ackedAttempts notes).length + noack) ∧
      noted.windowNoackPackets = UInt32.ofNat noack := by
  intro noted
  obtain ⟨hsum, hpackets, hnoack⟩ := run_note_counts hpool peripheral.clearWindowAttempts notes
  rw [sum_attempts, hdone] at hsum
  rw [sum_packets, hdone] at hpackets
  rw [sum_noackPackets, hsent] at hnoack
  exact ⟨hsum.trans (UInt32.zero_add _), hpackets.trans (UInt32.zero_add _),
    hnoack.trans (UInt32.zero_add _)⟩

end HopPeripheral

/-- For acked transmits of at least one attempt each, and sends without ACK counted as one
attempt each, the grade is the acked mean rounded up and capped, and the penalty stands
exactly while the mean is above the attempts that count as good. The counters are those the
engine has after the notes of such a window, in whatever order. -/
theorem acked_window_grade (acked : List ℕ) (noack : ℕ)
    (hacked : ∀ attempts ∈ acked, 1 ≤ attempts) (hfits : acked.sum + noack < 2 ^ 32) :
    let attemptsSum := UInt32.ofNat (acked.sum + noack)
    let packets := UInt32.ofNat (acked.length + noack)
    let noackPackets := UInt32.ofNat noack
    let grade := hopPolicyAckedWindowAttempts attemptsSum packets noackPackets
    let penalty := hopPolicyAttemptsPenalty grade hopPolicyGoodTxAttempts
    (grade.toNat = if acked = [] then 0 else min 255 ⌈(acked.sum : ℚ) / acked.length⌉₊) ∧
      noackPackets ≤ attemptsSum ∧ noackPackets ≤ packets ∧
      (penalty ≠ 0 ↔ hopPolicyGoodTxAttempts.toNat * acked.length < acked.sum) ∧
      penalty.toNat ≤ hopPolicyMaxLossPenalty ∧
      ∀ (config : HopConfig) (peripheral : HopPeripheral config) (notes : List WindowNote),
        1 < config.hopCount → ackedAttempts notes = acked → notes.count .noackSent = noack →
          notes.count .noackDone = noack →
            let noted := run HopPeripheral.note peripheral.clearWindowAttempts notes
            noted.windowAttemptsSum = attemptsSum ∧ noted.windowPackets = packets ∧
              noted.windowNoackPackets = noackPackets := by
  intro attemptsSum packets noackPackets grade penalty
  have hcount : acked.length ≤ acked.sum := acked.length_le_sum_of_one_le hacked
  refine ⟨?_, ofNat_le_ofNat (Nat.le_add_left _ _) hfits,
    ofNat_le_ofNat (Nat.le_add_left _ _) (by omega), windowPenalty_acked_iff hacked hfits,
    hopPolicyAttemptsPenalty_le _ _, ?_⟩
  · have hgrade := toNat_hopPolicyAckedWindowAttempts hcount hfits
    simpa only [List.length_eq_zero_iff] using hgrade
  · rintro config peripheral notes hpool rfl hsent hdone
    exact HopPeripheral.run_note_window hpool peripheral hsent hdone

/-- Three transmits acked after one, four and two attempts and two sends without ACK: the
mean of seven thirds is graded three and penalised. -/
theorem acked_window_grade_sample :
    let grade := hopPolicyAckedWindowAttempts 9 5 2
    grade.toNat = 3 ∧ hopPolicyAttemptsPenalty grade hopPolicyGoodTxAttempts ≠ 0 := by
  obtain ⟨hgrade, -, -, hpenalty, -⟩ := acked_window_grade [1, 4, 2] 2 (by decide) (by decide)
  refine ⟨?_, hpenalty.mpr (by decide)⟩
  rw [if_neg (by decide), ceil_mean_eq (by decide)] at hgrade
  exact hgrade

end SplitEsb
