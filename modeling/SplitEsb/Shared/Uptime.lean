import Mathlib.Data.UInt

/-! # Uptime in 32 bits
A millisecond clock that runs without end, read through a counter of 32 bits, and the
wrapping differences taken of two such reads. -/

namespace Uptime

/-- What a 32 bit read of the clock returns. -/
def uptime32 (ms : ℕ) : UInt32 := UInt32.ofNat ms

/-- The difference of two reads in order is the time between them, modulo 2^32. -/
theorem toNat_sub_uptime32 {stamp now : ℕ} (h : stamp ≤ now) :
    (uptime32 now - uptime32 stamp).toNat = (now - stamp) % 2 ^ 32 := by
  rw [uptime32, uptime32, ← UInt32.ofNat_sub h]
  exact UInt32.toNat_ofNat'

/-- A difference past a limit tells that much time apart. -/
theorem lt_of_lt_sub {stamp now : ℕ} {limit : UInt32} (h : stamp ≤ now)
    (hpast : limit < uptime32 now - uptime32 stamp) : stamp + limit.toNat < now := by
  have hdifference := toNat_sub_uptime32 h
  have hle := Nat.mod_le (now - stamp) (2 ^ 32)
  have hlt := UInt32.lt_iff_toNat_lt.mp hpast
  omega

/-- Given time, the clock is any difference past a stamp. -/
theorem exists_sub_uptime32 (stamp now : ℕ) (difference : UInt32) :
    ∃ ms, uptime32 (now + ms) - uptime32 stamp = difference := by
  refine ⟨(uptime32 stamp + difference - uptime32 now).toNat, ?_⟩
  have hlater : uptime32 (now + (uptime32 stamp + difference - uptime32 now).toNat) =
      uptime32 stamp + difference := by
    rw [uptime32, UInt32.ofNat_add, UInt32.ofNat_toNat]
    exact add_sub_cancel _ _
  rw [hlater, add_sub_cancel_left]

end Uptime
