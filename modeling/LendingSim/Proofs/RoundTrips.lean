import LendingSim.Proofs.Shares

/-!
# Round trips through shares

Converting assets to shares and back, or shares to assets and back, with the two conversions
rounding opposite ways, never gains: rounding down first and up second returns at most what went
in, rounding up first and down second at least. When one unit of what goes in is worth at most
one unit of what comes out, the first round trip is exact.

Each rounded quotient is pinned between two multiples of its divisor, a floor `q` of `n / d` by
`q * d ≤ n < (q + 1) * d` and a ceiling by `n ≤ q * d < n + d`; the main statement,
`round_trips_favour_pool`, chains two such bounds for the rate `(S + V) / (A + 1)`.
-/

namespace LendingSim

namespace UInt256

/-- A rounded-down quotient is short of the exact one by less than one. -/
theorem lt_mulDivDown_succ_mul {x y d q : UInt256} (h : mulDivDown x y d = .ok q) :
    x.toNat * y.toNat < (q.toNat + 1) * d.toNat := by
  rw [mulDivDown_eq] at h
  split at h
  · cases h
  · next hd =>
    split at h
    · cases h
    · next hp =>
      cases h
      rw [toNat_ofNat_of_lt (Nat.lt_of_le_of_lt (Nat.div_le_self _ _) (Nat.lt_of_not_le hp)),
        Nat.mul_comm _ d.toNat]
      exact Nat.lt_mul_div_succ _ (Nat.pos_of_ne_zero hd)

/-- A rounded-up quotient exceeds the exact one by less than one. -/
theorem mulDivUp_mul_lt {x y d q : UInt256} (h : mulDivUp x y d = .ok q) :
    q.toNat * d.toNat < x.toNat * y.toNat + d.toNat := by
  rw [mulDivUp_eq] at h
  split at h
  · cases h
  · next hd =>
    split at h
    · cases h
    · next hp =>
      cases h
      rw [toNat_ofNat_of_lt (Nat.lt_of_le_of_lt (Nat.div_le_self _ _) (Nat.lt_of_not_le hp))]
      have hfloor := Nat.div_mul_le_self (x.toNat * y.toNat + d.toNat - 1) d.toNat
      have hpos : 0 < d.toNat := Nat.pos_of_ne_zero hd
      omega

end UInt256

namespace Shares

open UInt256

variable {x totalAssets totalShares virtualShares y : UInt256}

/-- Assets converted to shares rounding down fall short by less than one share. -/
theorem lt_toShares_down_succ_mul
    (h : toShares x totalAssets totalShares virtualShares .down = .ok y) :
    x.toNat * (totalShares.toNat + virtualShares.toNat) <
      (y.toNat + 1) * (totalAssets.toNat + 1) := by
  obtain ⟨shareSide, assetSide, hs, ha, hq⟩ := toShares_inv h
  rw [← hs, ← ha]
  exact lt_mulDivDown_succ_mul hq

/-- Shares converted to assets rounding up exceed their worth by less than one asset. -/
theorem toAssets_up_mul_lt
    (h : toAssets x totalAssets totalShares virtualShares .up = .ok y) :
    y.toNat * (totalShares.toNat + virtualShares.toNat) <
      x.toNat * (totalAssets.toNat + 1) + (totalShares.toNat + virtualShares.toNat) := by
  obtain ⟨assetSide, shareSide, ha, hs, hq⟩ := toAssets_inv h
  rw [← hs, ← ha]
  exact mulDivUp_mul_lt hq

/-- Assets converted to shares rounding up exceed their worth by less than one share. -/
theorem toShares_up_mul_lt
    (h : toShares x totalAssets totalShares virtualShares .up = .ok y) :
    y.toNat * (totalAssets.toNat + 1) <
      x.toNat * (totalShares.toNat + virtualShares.toNat) + (totalAssets.toNat + 1) := by
  obtain ⟨shareSide, assetSide, hs, ha, hq⟩ := toShares_inv h
  rw [← hs, ← ha]
  exact mulDivUp_mul_lt hq

/-- Shares converted to assets rounding down fall short by less than one asset. -/
theorem lt_toAssets_down_succ_mul
    (h : toAssets x totalAssets totalShares virtualShares .down = .ok y) :
    x.toNat * (totalAssets.toNat + 1) <
      (y.toNat + 1) * (totalShares.toNat + virtualShares.toNat) := by
  obtain ⟨assetSide, shareSide, ha, hs, hq⟩ := toAssets_inv h
  rw [← hs, ← ha]
  exact lt_mulDivDown_succ_mul hq

/-! ### One round trip at a rate `b / a`

An amount `x` goes out at `y ≈ x * b / a` and comes back at `z ≈ y * a / b`. The three lemmas
below take only the bounds of the two quotients, so they serve both directions of conversion. -/

section RoundTrip

variable {x y z a b : Nat}

/-- Down then up: what comes back is at most what went out. -/
theorem back_le_of_down_up (hy : y * a ≤ x * b) (hz : z * b < y * a + b) : z ≤ x := by
  have hlt : z * b < (x + 1) * b := by
    calc z * b < y * a + b := hz
      _ ≤ x * b + b := Nat.add_le_add_right hy b
      _ = (x + 1) * b := (Nat.succ_mul x b).symm
  exact Nat.le_of_lt_succ (Nat.lt_of_mul_lt_mul_right hlt)

/-- Down then up, when one unit out is worth at most one unit back (`a ≤ b`): nothing is
lost. -/
theorem le_back_of_down_up (hy : x * b < (y + 1) * a) (hz : y * a ≤ z * b) (hab : a ≤ b) :
    x ≤ z := by
  have hlt : x * b < (z + 1) * b := by
    calc x * b < (y + 1) * a := hy
      _ = y * a + a := Nat.succ_mul y a
      _ ≤ z * b + b := Nat.add_le_add hz hab
      _ = (z + 1) * b := (Nat.succ_mul z b).symm
  exact Nat.le_of_lt_succ (Nat.lt_of_mul_lt_mul_right hlt)

/-- Up then down: what comes back is at least what went out. -/
theorem le_back_of_up_down (hy : x * b ≤ y * a) (hz : y * a < (z + 1) * b) : x ≤ z := by
  have hlt : x * b < (z + 1) * b := Nat.lt_of_le_of_lt hy hz
  exact Nat.le_of_lt_succ (Nat.lt_of_mul_lt_mul_right hlt)

end RoundTrip

/-- The four round trips between assets and shares at one pool's rate, whenever every conversion
succeeds: down then up never returns more than went in, and exactly that when the unit sent is
worth at most the other (`A + 1 ≤ S + V` for assets, `S + V ≤ A + 1` for shares); up then down
never returns less. -/
theorem round_trips_favour_pool (x A S V : UInt256) :
    (∀ shares back, toShares x A S V .down = .ok shares → toAssets shares A S V .up = .ok back →
      back.toNat ≤ x.toNat ∧ (A.toNat + 1 ≤ S.toNat + V.toNat → back = x)) ∧
    (∀ shares back, toShares x A S V .up = .ok shares → toAssets shares A S V .down = .ok back →
      x.toNat ≤ back.toNat) ∧
    (∀ assets back, toAssets x A S V .down = .ok assets → toShares assets A S V .up = .ok back →
      back.toNat ≤ x.toNat ∧ (S.toNat + V.toNat ≤ A.toNat + 1 → back = x)) ∧
    (∀ assets back, toAssets x A S V .up = .ok assets → toShares assets A S V .down = .ok back →
      x.toNat ≤ back.toNat) := by
  refine ⟨?sharesDownUp, ?sharesUpDown, ?assetsDownUp, ?assetsUpDown⟩
  case sharesDownUp =>
    intro shares back hs hb
    have hle := back_le_of_down_up (toShares_down_mul_le hs) (toAssets_up_mul_lt hb)
    refine ⟨hle, fun hrate => ext (Nat.le_antisymm hle ?_)⟩
    exact le_back_of_down_up (lt_toShares_down_succ_mul hs) (le_toAssets_up_mul hb) hrate
  case sharesUpDown =>
    intro shares back hs hb
    exact le_back_of_up_down (le_toShares_up_mul hs) (lt_toAssets_down_succ_mul hb)
  case assetsDownUp =>
    intro assets back ha hb
    have hle := back_le_of_down_up (toAssets_down_mul_le ha) (toShares_up_mul_lt hb)
    refine ⟨hle, fun hrate => ext (Nat.le_antisymm hle ?_)⟩
    exact le_back_of_down_up (lt_toAssets_down_succ_mul ha) (le_toShares_up_mul hb) hrate
  case assetsUpDown =>
    intro assets back ha hb
    exact le_back_of_up_down (le_toAssets_up_mul ha) (lt_toShares_down_succ_mul hb)

/-- Five assets into a pool where a share is worth three: one share, and three assets back. -/
theorem round_trips_favour_pool_dear_share :
    toShares 5 2 0 1 .down = .ok 1 ∧ toAssets 1 2 0 1 .up = .ok 3 ∧
      (3 : UInt256).toNat ≤ (5 : UInt256).toNat :=
  have hs : toShares 5 2 0 1 .down = .ok 1 := rfl
  have hb : toAssets 1 2 0 1 .up = .ok 3 := rfl
  ⟨hs, hb, ((round_trips_favour_pool 5 2 0 1).1 _ _ hs hb).1⟩

end Shares

end LendingSim
