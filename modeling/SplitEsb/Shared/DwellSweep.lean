import SplitEsb.Shared.CyclicProbe
import Mathlib.Logic.Function.Iterate

/-! # Sweep with a dwell
A walk around `n` places that stays a number of windows on each place before it steps
on, and that may first go back to the place it last left. -/

namespace DwellSweep

open CyclicProbe

structure Sweep where
  place : ℕ
  dwelt : ℕ
  back : Option ℕ
  deriving DecidableEq, Repr

variable {n dwell : ℕ}

/-- One window without an answer. -/
def lose (n dwell : ℕ) (sweep : Sweep) : Sweep :=
  let dwelt := (sweep.dwelt + 1) % dwell
  match sweep.back with
  | some place => ⟨place, dwelt, none⟩
  | none => ⟨if dwelt = 0 then (sweep.place + 1) % n else sweep.place, dwelt, none⟩

/-- The place the walk sets out from. -/
def origin (sweep : Sweep) : ℕ := sweep.back.getD sweep.place

/-- A walk that is to go back has not dwelt yet. -/
structure Sound (n dwell : ℕ) (sweep : Sweep) : Prop where
  place_lt : sweep.place < n
  dwelt_lt : sweep.dwelt < dwell
  back_lt : ∀ place ∈ sweep.back, place < n
  dwelt_eq : sweep.back.isSome → sweep.dwelt = 0

theorem Sound.origin_lt {sweep : Sweep} (h : Sound n dwell sweep) : origin sweep < n := by
  obtain ⟨place, dwelt, _ | back⟩ := sweep
  · exact h.place_lt
  · exact h.back_lt back rfl

theorem Sound.lose {sweep : Sweep} (h : Sound n dwell sweep) :
    Sound n dwell (lose n dwell sweep) := by
  have hplace := h.place_lt
  have hdwelt : (sweep.dwelt + 1) % dwell < dwell := Nat.mod_lt _ (by have := h.dwelt_lt; omega)
  obtain ⟨place, dwelt, _ | back⟩ := sweep
  · refine ⟨?_, hdwelt, by simp [DwellSweep.lose], by simp [DwellSweep.lose]⟩
    dsimp only [DwellSweep.lose]
    split_ifs
    · exact Nat.mod_lt _ (by omega)
    · exact hplace
  · exact ⟨h.back_lt back rfl, hdwelt, by simp [DwellSweep.lose], by simp [DwellSweep.lose]⟩

/-- Once a window is lost, the place is given by the windows dwelt since the origin. -/
theorem iterate_lose {sweep : Sweep} (h : Sound n dwell sweep) (hdwell : 1 < dwell) (windows : ℕ) :
    (DwellSweep.lose n dwell)^[windows + 1] sweep =
      ⟨(origin sweep + (sweep.dwelt + windows + 1) / dwell) % n,
        (sweep.dwelt + windows + 1) % dwell, none⟩ := by
  induction windows with
  | zero =>
      have hlt := h.dwelt_lt
      have horigin := Nat.mod_eq_of_lt h.origin_lt
      obtain ⟨place, dwelt, _ | back⟩ := sweep
      · rcases Nat.lt_or_ge (dwelt + 1) dwell with hstay | hstep
        · have hmod := Nat.mod_eq_of_lt hstay
          have hplace : place % n = place := horigin
          simp [DwellSweep.lose, origin, hmod, Nat.div_eq_of_lt hstay, hplace]
        · have hfull : dwelt + 1 = dwell := by simp only at hlt; omega
          simp [DwellSweep.lose, origin, hfull, Nat.div_self (by omega : 0 < dwell)]
      · have hzero : dwelt = 0 := h.dwelt_eq rfl
        have hplace : back % n = back := horigin
        simp [DwellSweep.lose, origin, hzero, Nat.div_eq_of_lt hdwell, hplace,
          Nat.mod_eq_of_lt hdwell]
  | succ windows ih =>
      rw [Function.iterate_succ_apply', ih, ← Nat.add_assoc sweep.dwelt windows 1]
      generalize sweep.dwelt + windows + 1 = count
      have hdwelt : (count % dwell + 1) % dwell = (count + 1) % dwell := Nat.mod_add_mod ..
      rw [Nat.succ_div]
      simp only [DwellSweep.lose, hdwelt, Nat.dvd_iff_mod_eq_zero]
      split_ifs with hstep
      · rw [Nat.mod_add_mod, Nat.add_assoc]
      · rfl

/-! ## The indices of consecutive windows -/

/-- The places a run of lost windows goes to: it stays on its start until the first step,
then the same number of windows on each place, and a whole round covers the places. -/
structure SweepsFrom (n dwell start : ℕ) (places : List ℕ) : Prop where
  dwells : ∃ first < dwell, ∀ window place, places[window]? = some place →
    place = if window < first then start else (start + 1 + (window - first) / dwell) % n
  covers : n * dwell ≤ places.length → ∀ place < n, place ∈ places.take (n * dwell)

theorem SweepsFrom.nil (hn : 0 < n) (hdwell : 0 < dwell) (start : ℕ) :
    SweepsFrom n dwell start [] where
  dwells := ⟨0, hdwell, by simp⟩
  covers hlen := by
    have hpos : 0 < n * dwell := Nat.mul_pos hn hdwell
    exact absurd hlen (Nat.not_le_of_lt hpos)

/-- The places of the windows lost one after the other. -/
def places (n dwell : ℕ) (sweep : Sweep) : ℕ → List ℕ
  | 0 => []
  | windows + 1 =>
      let next := lose n dwell sweep
      next.place :: places n dwell next windows

@[simp] theorem length_places (sweep : Sweep) (windows : ℕ) :
    (places n dwell sweep windows).length = windows := by
  induction windows generalizing sweep with
  | zero => rfl
  | succ windows ih => rw [places, List.length_cons, ih]

theorem getElem?_places (sweep : Sweep) {windows window : ℕ} (h : window < windows) :
    (places n dwell sweep windows)[window]? =
      some ((DwellSweep.lose n dwell)^[window + 1] sweep).place := by
  induction window generalizing sweep windows with
  | zero =>
      obtain ⟨windows, rfl⟩ := Nat.exists_eq_succ_of_ne_zero (Nat.ne_of_gt h)
      rfl
  | succ window ih =>
      obtain ⟨windows, rfl⟩ := Nat.exists_eq_succ_of_ne_zero (Nat.ne_of_gt (Nat.zero_lt_of_lt h))
      rw [places, List.getElem?_cons_succ, ih _ (by omega)]
      rfl

/-- The place of a lost window, from the windows dwelt since the origin. -/
theorem place_eq {sweep : Sweep} (h : Sound n dwell sweep) (hdwell : 1 < dwell)
    {windows window place : ℕ} (hplace : (places n dwell sweep windows)[window]? = some place) :
    place = (origin sweep + (sweep.dwelt + window + 1) / dwell) % n := by
  have hlt : window < windows := by
    simpa using (List.getElem?_eq_some_iff.mp hplace).1
  rw [getElem?_places sweep hlt, iterate_lose h hdwell] at hplace
  exact (Option.some.inj hplace).symm

theorem sweepsFrom_places {sweep : Sweep} (h : Sound n dwell sweep) (hdwell : 1 < dwell)
    (windows : ℕ) : SweepsFrom n dwell (origin sweep) (places n dwell sweep windows) := by
  have hdwelt := h.dwelt_lt
  constructor
  · refine ⟨dwell - 1 - sweep.dwelt, by omega, fun window place hplace => ?_⟩
    rw [place_eq h hdwell hplace]
    split_ifs with hstay
    · rw [Nat.div_eq_of_lt (by omega), Nat.add_zero, Nat.mod_eq_of_lt h.origin_lt]
    · have hshift : sweep.dwelt + window + 1 = window - (dwell - 1 - sweep.dwelt) + dwell := by
        omega
      rw [hshift, Nat.add_div_right _ (by omega), Nat.add_assoc, Nat.add_comm 1]
  · intro hlen place hplace
    have hpos : 0 < n := by omega
    have hrounds : distance n (origin sweep + 1) place < n := distance_lt hpos
    have hlands : (origin sweep + 1 + distance n (origin sweep + 1) place) % n = place :=
      place_distance hplace
    generalize distance n (origin sweep + 1) place = rounds at hrounds hlands
    -- the window that ends the dwell before the place
    have hfull : (rounds + 1) * dwell ≤ n * dwell := Nat.mul_le_mul_right dwell hrounds
    have hround : rounds * dwell + dwell = (rounds + 1) * dwell := (Nat.succ_mul ..).symm
    obtain ⟨window, hwindow⟩ : ∃ window, sweep.dwelt + window + 1 = (rounds + 1) * dwell :=
      ⟨(rounds + 1) * dwell - 1 - sweep.dwelt, by omega⟩
    rw [length_places] at hlen
    apply List.mem_of_getElem? (i := window)
    rw [List.getElem?_take_of_lt (by omega), getElem?_places sweep (by omega),
      iterate_lose h hdwell, hwindow, Nat.mul_div_cancel _ (by omega)]
    rw [Nat.add_assoc, Nat.add_comm 1] at hlands
    rw [hlands]

/-- A fresh walk of two dwells shows how long it dwells. -/
theorem dwell_unique {sweep : Sweep} (h : Sound n dwell sweep) (hdwell : 1 < dwell) (hn : 1 < n)
    (hfresh : sweep.dwelt = 0) {windows longer : ℕ} (hwindows : 2 * dwell ≤ windows)
    (hle : dwell ≤ longer)
    (hsweeps : SweepsFrom n longer (origin sweep) (places n dwell sweep windows)) :
    longer = dwell := by
  obtain ⟨first, hfirst, hdwells⟩ := hsweeps.dwells
  have hplace (window : ℕ) (hwindow : window < windows) :
      (origin sweep + (window + 1) / dwell) % n =
        if window < first then origin sweep
        else (origin sweep + 1 + (window - first) / longer) % n := by
    rw [← hdwells window _ (getElem?_places sweep hwindow), iterate_lose h hdwell, hfresh,
      Nat.zero_add]
  have hstart := Nat.mod_eq_of_lt h.origin_lt
  have hmoves (place : ℕ) : (place + 1) % n ≠ place % n := by
    intro hsame
    have hone : 1 ≡ 0 [MOD n] := Nat.ModEq.add_left_cancel' place hsame
    rw [Nat.ModEq, Nat.mod_eq_of_lt hn, Nat.zero_mod] at hone
    exact one_ne_zero hone
  have hlast : first ≤ dwell - 1 := by
    have hat := hplace (dwell - 1) (by omega)
    rw [Nat.sub_add_cancel (by omega), Nat.div_self (by omega)] at hat
    by_contra hlate
    rw [if_pos (by omega)] at hat
    exact hmoves (origin sweep) (hat.trans hstart.symm)
  have hfirst : first = dwell - 1 := by
    have hbefore := hplace (dwell - 2) (by omega)
    rw [Nat.div_eq_of_lt (by omega), Nat.add_zero, hstart] at hbefore
    by_contra hearly
    rw [if_neg (by omega), Nat.div_eq_of_lt (by omega), Nat.add_zero] at hbefore
    exact hmoves (origin sweep) (hbefore.symm.trans hstart.symm)
  by_contra hlonger
  have hafter := hplace (2 * dwell - 1) (by omega)
  rw [Nat.sub_add_cancel (by omega), Nat.mul_div_cancel _ (by omega), if_neg (by omega),
    Nat.div_eq_of_lt (by omega), Nat.add_zero] at hafter
  exact hmoves (origin sweep + 1) hafter

end DwellSweep
