import Mathlib.Data.List.Basic
import Mathlib.Data.Nat.ModEq

/-! # Cyclic probing
Stepping around a ring of `n` places from a base place until a marked one is
met, once around at most. -/

namespace CyclicProbe

/-- The first marked place at or after the base. -/
def probe (marked : ℕ → Bool) (n base : ℕ) : Option ℕ :=
  ((List.range n).map fun step => (base + step) % n).find? marked

/-- How many steps forward from the base a place lies. -/
def distance (n base place : ℕ) : ℕ := (place + (n - base % n)) % n

variable {marked : ℕ → Bool} {n base place step : ℕ}

/-! ## Places and distances -/

theorem distance_lt (hn : 0 < n) : distance n base place < n := Nat.mod_lt _ hn

theorem place_distance (hplace : place < n) : (base + distance n base place) % n = place := by
  have hbase : base % n < n := Nat.mod_lt base (by omega)
  calc (base + distance n base place) % n
      = (base % n + (place + (n - base % n))) % n := by simp [distance, Nat.add_mod]
    _ = (place + n) % n := by rw [show base % n + (place + (n - base % n)) = place + n by omega]
    _ = place := by rw [Nat.add_mod_right, Nat.mod_eq_of_lt hplace]

theorem eq_distance (hstep : step < n) (hplace : (base + step) % n = place) :
    step = distance n base place := by
  have hlt : place < n := hplace ▸ Nat.mod_lt _ (by omega)
  have hmod : base + step ≡ base + distance n base place [MOD n] := by
    rw [Nat.ModEq, hplace, place_distance hlt]
  exact (hmod.add_left_cancel' base).eq_of_lt_of_lt hstep (distance_lt (by omega))

/-! ## Where a probe ends -/

theorem probe_eq_none_iff : probe marked n base = none ↔ ∀ place < n, marked place = false := by
  rw [probe, List.find?_eq_none]
  constructor
  · intro h place hplace
    refine Bool.eq_false_iff.mpr (h place (List.mem_map.mpr ⟨distance n base place, ?_, ?_⟩))
    · exact List.mem_range.mpr (distance_lt (by omega))
    · exact place_distance hplace
  · intro h place hmem
    obtain ⟨step, hstep, rfl⟩ := List.mem_map.mp hmem
    have hn : 0 < n := Nat.zero_lt_of_lt (List.mem_range.mp hstep)
    simp [h _ (Nat.mod_lt _ hn)]

/-- A probe ends at a place iff the place is marked and nothing before it is. -/
theorem probe_eq_some_iff (hplace : place < n) :
    probe marked n base = some place ↔ marked place = true ∧
      ∀ step < distance n base place, marked ((base + step) % n) = false := by
  rw [probe, List.find?_map, Option.map_eq_some_iff]
  constructor
  · rintro ⟨step, hfind, hstep⟩
    obtain ⟨hmarked, hrange, hbefore⟩ := List.find?_range_eq_some.mp hfind
    have hdistance := eq_distance (List.mem_range.mp hrange) hstep
    refine ⟨by simpa [hstep] using hmarked, fun earlier hearlier => ?_⟩
    simpa using hbefore earlier (hdistance ▸ hearlier)
  · rintro ⟨hmarked, hbefore⟩
    refine ⟨distance n base place, List.find?_range_eq_some.mpr ⟨?_, ?_, ?_⟩, place_distance hplace⟩
    · simpa [place_distance hplace] using hmarked
    · exact List.mem_range.mpr (distance_lt (by omega))
    · intro step hstep
      simpa using hbefore step hstep

theorem probe_lt (h : probe marked n base = some place) : place < n := by
  obtain ⟨step, hstep, rfl⟩ := List.mem_map.mp (List.mem_of_find?_eq_some h)
  exact Nat.mod_lt _ (Nat.zero_lt_of_lt (List.mem_range.mp hstep))

theorem marked_of_probe (h : probe marked n base = some place) : marked place = true :=
  List.find?_some h

theorem exists_probe (hplace : place < n) (hmarked : marked place = true) :
    ∃ found, probe marked n base = some found := by
  refine Option.ne_none_iff_exists'.mp fun hnone => ?_
  simp [probe_eq_none_iff.mp hnone place hplace] at hmarked

/-- A probe ends somewhere else iff the place is unmarked or some marked place
is met on the way to it. -/
theorem probe_ne_some_iff (hplace : place < n) :
    probe marked n base ≠ some place ↔ marked place = false ∨
      ∃ step < distance n base place, marked ((base + step) % n) = true := by
  rw [ne_eq, probe_eq_some_iff hplace, not_and_or, Bool.not_eq_true]
  simp only [not_forall, Bool.not_eq_false, exists_prop]

/-- A probe that ends at a place which stays marked ends there as well when others are
unmarked. -/
theorem probe_of_unmarked {wider : ℕ → Bool}
    (hsub : ∀ place < n, marked place = true → wider place = true)
    (hprobe : probe wider n base = some place) (hmarked : marked place = true) :
    probe marked n base = some place := by
  have hplace : place < n := probe_lt hprobe
  refine (probe_eq_some_iff hplace).mpr ⟨hmarked, fun step hstep => Bool.eq_false_iff.mpr ?_⟩
  intro hearlier
  have hskipped := ((probe_eq_some_iff hplace).mp hprobe).2 step hstep
  have hwider := hsub _ (Nat.mod_lt _ (by omega)) hearlier
  exact absurd (hskipped.symm.trans hwider) Bool.false_ne_true

end CyclicProbe
