import SplitEsb.Hop.Policy

/-! # The channel of an epoch
The epoch names a place of the pool, and the first active channel from there on is its
channel. Masking a channel moves only the epochs that mapped to it. -/

namespace SplitEsb

open CyclicProbe

variable {n : ℕ}

/-- The mapping as the engines get it, cut to a byte. -/
def hopPolicyChannelForEpochMaskedByte (epoch : UInt16) (mask : HopMask n) : UInt8 :=
  UInt8.ofNat (hopPolicyChannelForEpochMasked epoch mask n)

/-- A pool of 256 channels still fits the byte. -/
theorem toNat_hopPolicyChannelForEpochMaskedByte (hpos : 0 < n) (hpool : n ≤ 256) (epoch : UInt16)
    (mask : HopMask n) :
    (hopPolicyChannelForEpochMaskedByte epoch mask).toNat =
      hopPolicyChannelForEpochMasked epoch mask n := by
  have hlt := hopPolicyChannelForEpochMasked_lt epoch mask hpos
  rw [hopPolicyChannelForEpochMaskedByte, UInt8.toNat_ofNat', Nat.mod_eq_of_lt (by omega)]

theorem hopPolicyChannelForEpochMasked_of_probe {epoch : UInt16} {mask : HopMask n} {channel : ℕ}
    (h : probe (hopPolicyMaskGet mask) n (epoch.toNat % n) = some channel) :
    hopPolicyChannelForEpochMasked epoch mask n = channel := by
  rw [hopPolicyChannelForEpochMasked, h, Option.getD_some]

/-- The first active channel cyclically at or after a place. -/
def FirstActive (mask : HopMask n) (base channel : ℕ) : Prop :=
  hopPolicyMaskGet mask channel = true ∧ ∃ step < n, (base + step) % n = channel ∧
    ∀ earlier < step, hopPolicyMaskGet mask ((base + earlier) % n) = false

theorem firstActive_of_probe {mask : HopMask n} {base channel : ℕ}
    (h : probe (hopPolicyMaskGet mask) n base = some channel) : FirstActive mask base channel := by
  have hlt : channel < n := probe_lt h
  obtain ⟨hset, hskipped⟩ := (probe_eq_some_iff hlt).mp h
  exact ⟨hset, distance n base channel, distance_lt (by omega), place_distance hlt, hskipped⟩

/-- The channel of an epoch is the first active one from its place on. Where the channel
under a wider mask is still active it stays, so masking one channel redirects only the
epochs that mapped to it. -/
theorem epoch_mapping_stable (hpool : n ≤ 256) {mask wider : HopMask n}
    (hsub : ∀ channel < n, hopPolicyMaskGet mask channel = true →
      hopPolicyMaskGet wider channel = true)
    (hactive : ∃ channel < n, hopPolicyMaskGet mask channel = true) (epoch : UInt16) :
    let chosen := (hopPolicyChannelForEpochMaskedByte epoch mask).toNat
    let before := (hopPolicyChannelForEpochMaskedByte epoch wider).toNat
    chosen < n ∧ FirstActive mask (epoch.toNat % n) chosen ∧
      (hopPolicyMaskGet mask before = true → chosen = before) ∧
      ∀ masked, (∀ channel < n, channel ≠ masked →
        hopPolicyMaskGet mask channel = hopPolicyMaskGet wider channel) →
          before ≠ masked → chosen = before := by
  intro chosen before
  obtain ⟨active, hlt, hset⟩ := hactive
  obtain ⟨found, hfound⟩ : ∃ found, probe (hopPolicyMaskGet mask) n (epoch.toNat % n) = some found :=
    exists_probe hlt hset
  obtain ⟨earlier, hearlier⟩ : ∃ earlier,
      probe (hopPolicyMaskGet wider) n (epoch.toNat % n) = some earlier :=
    exists_probe hlt (hsub active hlt hset)
  have hchosen : chosen = found := by
    refine (toNat_hopPolicyChannelForEpochMaskedByte (by omega) hpool epoch mask).trans ?_
    exact hopPolicyChannelForEpochMasked_of_probe hfound
  have hbefore : before = earlier := by
    refine (toNat_hopPolicyChannelForEpochMaskedByte (by omega) hpool epoch wider).trans ?_
    exact hopPolicyChannelForEpochMasked_of_probe hearlier
  have hstays : hopPolicyMaskGet mask before = true → chosen = before := by
    intro hstill
    rw [hbefore] at hstill ⊢
    have hsame := probe_of_unmarked hsub hearlier hstill
    rw [hfound] at hsame
    exact hchosen.trans (Option.some_inj.mp hsame)
  refine ⟨hchosen ▸ probe_lt hfound, hchosen ▸ firstActive_of_probe hfound, hstays, ?_⟩
  intro masked hsame hne
  refine hstays ((hsame before (hbefore ▸ probe_lt hearlier) hne).trans ?_)
  rw [hbefore]
  exact marked_of_probe hearlier

/-- Of four channels, masking the second moves the epoch that mapped to it to the third. -/
theorem epoch_mapping_stable_sample :
    let mask : HopMask 4 := #v[0x0D]
    let wider : HopMask 4 := #v[0x0F]
    let chosen := (hopPolicyChannelForEpochMaskedByte 1 mask).toNat
    let before := (hopPolicyChannelForEpochMaskedByte 1 wider).toNat
    chosen < 4 ∧ FirstActive mask ((1 : UInt16).toNat % 4) chosen ∧
      (hopPolicyMaskGet mask before = true → chosen = before) ∧
      ∀ masked, (∀ channel < 4, channel ≠ masked →
        hopPolicyMaskGet mask channel = hopPolicyMaskGet wider channel) →
          before ≠ masked → chosen = before :=
  epoch_mapping_stable (by decide) (by decide) ⟨0, by decide⟩ 1

end SplitEsb
