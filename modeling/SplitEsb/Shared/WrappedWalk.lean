import SplitEsb.Shared.CyclicProbe

/-! # A wrapping counter around a ring
A counter modulo `m` takes `n` steps from `e`, and each value names a place of a
ring of `n ≤ m` places by its residue. Where the counter wraps, the residues start
over at place zero, and the places in between are skipped. -/

namespace WrappedWalk

open CyclicProbe

/-- One of the next `count` counter values names the place. -/
def Visits (m n e count place : ℕ) : Prop := ∃ step < count, (e + 1 + step) % m % n = place

/-- How many of the next `n` values lie at or past the wrap. -/
def wrapped (m n e : ℕ) : ℕ := e + n + 1 - m

/-- The last visited place below the skipped ones. -/
def gapStart (m n e : ℕ) : ℕ := max ((m - 1) % n) (wrapped m n e - 1)

/-- The last skipped place, if any is. -/
def gapEnd (m n e : ℕ) : ℕ := min ((m - 1) % n + wrapped m n e) (n - 1)

variable {m n e place : ℕ}

theorem not_visits_of_gap (hnm : n ≤ m) (he : e < m) (hstart : gapStart m n e < place)
    (hend : place ≤ gapEnd m n e) : ¬Visits m n e n place := by
  rintro ⟨step, hstep, hplace⟩
  rw [gapStart] at hstart
  rw [gapEnd] at hend
  have hwrapped : wrapped m n e = e + n + 1 - m := rfl
  rcases Nat.lt_or_ge (e + 1 + step) m with hbefore | hafter
  · rw [Nat.mod_eq_of_lt hbefore] at hplace
    have hvalue := Nat.div_add_mod (e + 1 + step) n
    have htop := Nat.div_add_mod (m - 1) n
    have hrow : (e + 1 + step) / n < (m - 1) / n := by
      by_contra hge
      have := Nat.mul_le_mul_left n (Nat.not_lt.mp hge)
      omega
    have := Nat.mul_le_mul_left n (Nat.succ_le_of_lt hrow)
    rw [Nat.succ_eq_add_one, Nat.mul_add_one] at this
    omega
  · have hvalue : (e + 1 + step) % m = e + 1 + step - m := by
      rw [Nat.mod_eq_sub_mod hafter, Nat.mod_eq_of_lt (by omega)]
    rw [hvalue, Nat.mod_eq_of_lt (by omega)] at hplace
    omega

/-- A value before the wrap is one of the next if it is close enough. -/
theorem visits_of_value {count value : ℕ} (hvalue : value < m) (he : e < value)
    (hcount : value < e + 1 + count) (hplace : value % n = place) : Visits m n e count place := by
  refine ⟨value - e - 1, by omega, ?_⟩
  rw [show e + 1 + (value - e - 1) = value by omega, Nat.mod_eq_of_lt hvalue, hplace]

/-- A place past the wrap is named by itself. -/
theorem visits_of_wrapped {count : ℕ} (hnm : n ≤ m) (he : e < m) (hplace : place < n)
    (hcount : place + m < e + 1 + count) : Visits m n e count place := by
  have hlt : place < m := by omega
  refine ⟨place + m - e - 1, by omega, ?_⟩
  rw [show e + 1 + (place + m - e - 1) = place + m by omega, Nat.add_mod_right,
    Nat.mod_eq_of_lt hlt, Nat.mod_eq_of_lt hplace]

theorem visits_of_unwrapped (hplace : place < n) (hfit : e + n + 1 ≤ m) :
    Visits m n e n place := by
  have hdistance : distance n (e + 1) place < n := distance_lt (by omega)
  have hresidue : (e + 1 + distance n (e + 1) place) % n = place := place_distance hplace
  exact visits_of_value (by omega) (by omega) (by omega) hresidue

theorem visits_of_not_gap (hnm : n ≤ m) (he : e < m) (hplace : place < n)
    (hgap : ¬(gapStart m n e < place ∧ place ≤ gapEnd m n e)) : Visits m n e n place := by
  rw [gapStart, gapEnd] at hgap
  have hwrapped : wrapped m n e = e + n + 1 - m := rfl
  rcases Nat.lt_or_ge m (e + n + 1) with hwraps | hfit
  · rcases Nat.lt_or_ge place (wrapped m n e) with hlow | hhigh
    · exact visits_of_wrapped hnm he hplace (by omega)
    · have htop := Nat.div_add_mod (m - 1) n
      have hq : (m - 1) % n < n := Nat.mod_lt _ (by omega)
      -- the value in the row of `m - 1`, or in the row before it
      rcases Nat.lt_or_ge ((m - 1) % n) place with habove | hbelow
      · have hrow : (m - 1) / n ≠ 0 := by
          intro hzero
          rw [hzero, Nat.mul_zero] at htop
          omega
        obtain ⟨row, hrow⟩ := Nat.exists_eq_succ_of_ne_zero hrow
        rw [hrow, Nat.succ_eq_add_one, Nat.mul_add_one] at htop
        have hresidue : (n * row + place) % n = place := by
          rw [Nat.mul_add_mod, Nat.mod_eq_of_lt hplace]
        exact visits_of_value (by omega) (by omega) (by omega) hresidue
      · have hresidue : (n * ((m - 1) / n) + place) % n = place := by
          rw [Nat.mul_add_mod, Nat.mod_eq_of_lt hplace]
        exact visits_of_value (by omega) (by omega) (by omega) hresidue
  · exact visits_of_unwrapped hplace hfit

/-- Exactly the places of the gap are skipped. -/
theorem visits_iff (hnm : n ≤ m) (he : e < m) (hplace : place < n) :
    Visits m n e n place ↔ ¬(gapStart m n e < place ∧ place ≤ gapEnd m n e) :=
  ⟨fun hvisits hgap => not_visits_of_gap hnm he hgap.1 hgap.2 hvisits,
    visits_of_not_gap hnm he hplace⟩

/-- Twice around the ring skips nothing. -/
theorem visits_of_double {count : ℕ} (hnm : n ≤ m) (he : e < m) (hplace : place < n)
    (hcount : 2 * n ≤ count) : Visits m n e count place := by
  rcases Nat.lt_or_ge m (e + n + 1) with hwraps | hfit
  · exact visits_of_wrapped hnm he hplace (by omega)
  · obtain ⟨step, hstep, hvisit⟩ := visits_of_unwrapped hplace hfit
    exact ⟨step, by omega, hvisit⟩

/-! ## Probing from each value -/

variable {marked : ℕ → Bool}

/-- Probing from the place of each value finds a marked place. -/
def Finds (marked : ℕ → Bool) (m n e count place : ℕ) : Prop :=
  ∃ step < count, probe marked n ((e + 1 + step) % m % n) = some place

theorem probe_self (hplace : place < n) (hmarked : marked place = true) :
    probe marked n place = some place := by
  have hzero : 0 = distance n place place :=
    eq_distance (by omega) (Nat.mod_eq_of_lt hplace)
  exact (probe_eq_some_iff hplace).mpr ⟨hmarked, fun step hstep => by omega⟩

theorem finds_of_visits {count : ℕ} (hplace : place < n) (hmarked : marked place = true)
    (hvisits : Visits m n e count place) : Finds marked m n e count place := by
  obtain ⟨step, hstep, hvisit⟩ := hvisits
  refine ⟨step, hstep, ?_⟩
  rw [hvisit]
  exact probe_self hplace hmarked

/-- A marked place between a base and another place hides that place from the base. -/
theorem probe_ne_of_between {base first second : ℕ} (hbase : base < n) (hfirst : first < second)
    (hsecond : second < n) (hmarked : marked first = true) (hwalk : base ≤ first ∨ second < base) :
    probe marked n base ≠ some second := by
  refine (probe_ne_some_iff hsecond).mpr (.inr ?_)
  rcases hwalk with hbelow | habove
  · have hdistance : second - base = distance n base second :=
      eq_distance (by omega) (by rw [Nat.mod_eq_of_lt (by omega)]; omega)
    refine ⟨first - base, by omega, ?_⟩
    rw [Nat.mod_eq_of_lt (by omega), show base + (first - base) = first by omega]
    exact hmarked
  · have hdistance : second + n - base = distance n base second := by
      refine eq_distance (by omega) ?_
      rw [show base + (second + n - base) = second + n by omega, Nat.add_mod_right,
        Nat.mod_eq_of_lt hsecond]
    refine ⟨first + n - base, by omega, ?_⟩
    rw [show base + (first + n - base) = first + n by omega, Nat.add_mod_right,
      Nat.mod_eq_of_lt (by omega)]
    exact hmarked

/-- One walk around finds every marked place iff at most one of the places from the
start of the gap to its end is marked. -/
theorem finds_all_iff (hnm : n ≤ m) (he : e < m) :
    (∀ place < n, marked place = true → Finds marked m n e n place) ↔
      ∀ first second, gapStart m n e ≤ first → first < second → second ≤ gapEnd m n e →
        ¬(marked first = true ∧ marked second = true) := by
  constructor
  · rintro hfinds first second hstart hlt hend ⟨hfirst, hsecond⟩
    have hlast : gapEnd m n e ≤ n - 1 := Nat.min_le_right ..
    have hsecond_lt : second < n := by omega
    obtain ⟨step, hstep, hprobe⟩ := hfinds second hsecond_lt hsecond
    have hbase : (e + 1 + step) % m % n < n := Nat.mod_lt _ (by omega)
    have hoff := (visits_iff hnm he hbase).mp ⟨step, hstep, rfl⟩
    refine probe_ne_of_between hbase hlt hsecond_lt hfirst ?_ hprobe
    omega
  · intro hsingle place hplace hmarked
    by_cases hgap : gapStart m n e < place ∧ place ≤ gapEnd m n e
    · obtain ⟨step, hstep, hvisit⟩ : Visits m n e n (gapStart m n e) :=
        (visits_iff hnm he (by omega)).mpr fun h => Nat.lt_irrefl _ h.1
      refine ⟨step, hstep, ?_⟩
      rw [hvisit, probe_eq_some_iff hplace]
      have hdistance : place - gapStart m n e = distance n (gapStart m n e) place :=
        eq_distance (by omega) (by rw [Nat.mod_eq_of_lt (by omega)]; omega)
      refine ⟨hmarked, fun before hbefore => Bool.eq_false_iff.mpr fun hother => ?_⟩
      rw [Nat.mod_eq_of_lt (by omega)] at hother
      exact hsingle _ place (Nat.le_add_right ..) (by omega) hgap.2 ⟨hother, hmarked⟩
    · exact finds_of_visits hplace hmarked ((visits_iff hnm he hplace).mpr hgap)

end WrappedWalk
