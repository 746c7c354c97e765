import Mathlib.Data.Int.Basic
import SplitEsb.Shared.Residue

/-! # Running motion totals
A sender adds each increment to an int32 total that wraps; a receiver keeps the
last total it applied and forwards the gap to the next one. -/

namespace SplitEsb

def esbMotionResyncCounts : Int32 := 8192

structure EsbMotionTrack where
  lastTotal : Int32
  valid : Bool
  deriving DecidableEq, Repr

/-- A track no total has reached yet. -/
def EsbMotionTrack.fresh : EsbMotionTrack := ⟨0, false⟩

/-- Wraps like the int32 on the wire. -/
def esbMotionTotalAdd (total delta : Int32) : Int32 := total + delta

/-- Adopts the gap; the delta is present when something forwards. -/
def esbMotionTrackGap (track : EsbMotionTrack) (gap : Int32) : EsbMotionTrack × Option Int32 :=
  let track := { track with lastTotal := esbMotionTotalAdd track.lastTotal gap }
  if gap = 0 ∨ gap > esbMotionResyncCounts ∨ gap < -esbMotionResyncCounts then (track, none)
  else (track, some gap)

def esbMotionTrackDelta (track : EsbMotionTrack) (total : Int32) : EsbMotionTrack × Option Int32 :=
  if track.valid then esbMotionTrackGap track (total - track.lastTotal)
  else ({ lastTotal := total, valid := true }, none)

/-- `shortTotal` is the low 16 bits of a total, as the keepalive carries it. -/
def esbMotionTrackShortDelta (track : EsbMotionTrack) (shortTotal : Int16) :
    EsbMotionTrack × Option Int32 :=
  if track.valid then esbMotionTrackGap track (shortTotal - track.lastTotal.toInt16).toInt32
  else (track, none)

def esbMotionQuietEnough (quietMs hopWindowMs : UInt32) : Bool := hopWindowMs ≤ quietMs

/-! ## Exactness for small gaps -/

open Residue

/-- A gap of a small integer step moves the total by the step and forwards it. -/
theorem esbMotionTrackGap_exact {track : EsbMotionTrack} {a b : ℤ} (h : |b - a| ≤ 8192)
    (hlast : track.lastTotal = Int32.ofInt a) :
    (esbMotionTrackGap track (Int32.ofInt (b - a))).1 = ⟨Int32.ofInt b, track.valid⟩ ∧
      ((esbMotionTrackGap track (Int32.ofInt (b - a))).2.getD 0).toInt = b - a := by
  have hstep : esbMotionTotalAdd track.lastTotal (Int32.ofInt (b - a)) = Int32.ofInt b := by
    rw [esbMotionTotalAdd, hlast, word_step]
  have htoInt := toInt_ofInt_small h
  have hbounds := abs_le.mp h
  have hover : ¬Int32.ofInt (b - a) > esbMotionResyncCounts := by
    rw [gt_iff_lt, Int32.lt_iff_toInt_lt, htoInt]
    exact Int.not_lt.mpr hbounds.2
  have hunder : ¬Int32.ofInt (b - a) < -esbMotionResyncCounts := by
    rw [Int32.lt_iff_toInt_lt, htoInt]
    exact Int.not_lt.mpr hbounds.1
  rw [esbMotionTrackGap, hstep]
  by_cases hzero : Int32.ofInt (b - a) = 0
  · have hsame : b - a = 0 := by
      rw [hzero] at htoInt
      exact htoInt.symm
    rw [if_pos (Or.inl hzero), hsame]
    exact ⟨rfl, rfl⟩
  · rw [if_neg (by simp only [hzero, hover, hunder, or_self, not_false_eq_true])]
    exact ⟨rfl, htoInt⟩

theorem esbMotionTrackGap_valid (track : EsbMotionTrack) (gap : Int32) :
    (esbMotionTrackGap track gap).1.valid = track.valid := by
  rw [esbMotionTrackGap]
  split_ifs <;> rfl

theorem esbMotionTrackDelta_valid (track : EsbMotionTrack) (total : Int32) :
    (esbMotionTrackDelta track total).1.valid = true := by
  rw [esbMotionTrackDelta]
  split_ifs with hvalid
  · rw [esbMotionTrackGap_valid, hvalid]
  · rfl

theorem esbMotionTrackDelta_exact {track : EsbMotionTrack} (hvalid : track.valid = true) {a b : ℤ}
    (h : |b - a| ≤ 8192) (hlast : track.lastTotal = Int32.ofInt a) :
    (esbMotionTrackDelta track (Int32.ofInt b)).1 = ⟨Int32.ofInt b, true⟩ ∧
      ((esbMotionTrackDelta track (Int32.ofInt b)).2.getD 0).toInt = b - a := by
  have hexact := esbMotionTrackGap_exact h hlast
  rw [esbMotionTrackDelta, if_pos hvalid, hlast, word_gap, ← hvalid]
  exact hexact

theorem esbMotionTrackShortDelta_valid {track : EsbMotionTrack} (hvalid : track.valid = true)
    (shortTotal : Int16) : (esbMotionTrackShortDelta track shortTotal).1.valid = true := by
  rw [esbMotionTrackShortDelta, if_pos hvalid, esbMotionTrackGap_valid, hvalid]

/-- The low half of a total is as good as the total. -/
theorem esbMotionTrackShortDelta_exact {track : EsbMotionTrack} (hvalid : track.valid = true)
    {a b : ℤ} (h : |b - a| ≤ 8192) (hlast : track.lastTotal = Int32.ofInt a) :
    (esbMotionTrackShortDelta track (Int16.ofInt b)).1 = ⟨Int32.ofInt b, true⟩ ∧
      ((esbMotionTrackShortDelta track (Int16.ofInt b)).2.getD 0).toInt = b - a := by
  have hexact := esbMotionTrackGap_exact h hlast
  rw [esbMotionTrackShortDelta, if_pos hvalid, hlast, short_gap h, ← hvalid]
  exact hexact

end SplitEsb
