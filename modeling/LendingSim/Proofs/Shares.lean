import LendingSim.Shares

/-!
# Conversions round in the pool's favour

A rounded-down quotient times its divisor is at most the product it divides, and a rounded-up
one at least that product. Applied to the two conversions between assets and shares, with the
pool's rate `(totalShares + virtualShares) / (totalAssets + 1)`, this gives one inequality per
direction of rounding: converting assets to shares down never gives more shares than the assets
are worth, converting shares to assets up never asks fewer assets than the shares are worth, and
so on. These four facts are what keep share prices from falling when markets and vaults move.
-/

namespace LendingSim

namespace UInt256

theorem mulDivDown_mul_le {x y d q : UInt256} (h : mulDivDown x y d = .ok q) :
    q.toNat * d.toNat ≤ x.toNat * y.toNat := by
  rw [mulDivDown_eq] at h
  split at h
  · cases h
  · split at h
    · cases h
    · next hp =>
      cases h
      rw [toNat_ofNat_of_lt (Nat.lt_of_le_of_lt (Nat.div_le_self _ _) (Nat.lt_of_not_le hp))]
      exact Nat.div_mul_le_self _ _

theorem le_mulDivUp_mul {x y d q : UInt256} (h : mulDivUp x y d = .ok q) :
    x.toNat * y.toNat ≤ q.toNat * d.toNat := by
  rw [mulDivUp_eq] at h
  split at h
  · cases h
  · next hd =>
    split at h
    · cases h
    · next hp =>
      cases h
      rw [toNat_ofNat_of_lt (Nat.lt_of_le_of_lt (Nat.div_le_self _ _) (Nat.lt_of_not_le hp))]
      have hpos : 0 < d.toNat := Nat.pos_of_ne_zero hd
      have hmod := Nat.mod_lt (x.toNat * y.toNat + d.toNat - 1) hpos
      have hsplit := Nat.div_add_mod (x.toNat * y.toNat + d.toNat - 1) d.toNat
      rw [Nat.mul_comm] at hsplit
      omega

theorem checkedAdd_toNat {a b c : UInt256} (h : a.checkedAdd b = .ok c) :
    c.toNat = a.toNat + b.toNat := by
  rw [checkedAdd_eq] at h
  split at h
  · cases h
  · next hlt =>
    cases h
    exact toNat_ofNat_of_lt (Nat.lt_of_not_le hlt)

theorem checkedSub_toNat {a b c : UInt256} (h : a.checkedSub b = .ok c) :
    c.toNat = a.toNat - b.toNat ∧ b.toNat ≤ a.toNat := by
  unfold checkedSub at h
  split at h
  · next hle =>
    cases h
    exact ⟨rfl, hle⟩
  · cases h

theorem toNat_zeroFloorSub (a b : UInt256) : (a.zeroFloorSub b).toNat = a.toNat - b.toNat := rfl

@[simp]
theorem toNat_zero : (0 : UInt256).toNat = 0 := rfl

theorem isZero_eq_true {a : UInt256} : a.isZero = true ↔ a = 0 :=
  ⟨fun h => ext (by simpa [isZero] using h), fun h => by rw [h]; rfl⟩

/-- What `b` leaves uncovered of `a` is nothing exactly when `b` covers `a`. -/
theorem isZero_zeroFloorSub {a b : UInt256} :
    (a.zeroFloorSub b).isZero = true ↔ a.toNat ≤ b.toNat := by
  simp only [isZero, toNat_zeroFloorSub, beq_iff_eq]
  omega

/-- Something of `a` is left uncovered by `b` exactly when `b` falls short of `a`. -/
theorem isZero_zeroFloorSub_eq_false {a b : UInt256} :
    (a.zeroFloorSub b).isZero = false ↔ b.toNat < a.toNat := by
  rw [← Bool.not_eq_true, isZero_zeroFloorSub]
  omega

end UInt256

namespace Shares

open UInt256

/-- A successful conversion sums both sides of the rate without overflow, then divides. -/
theorem toShares_inv {assets totalAssets totalShares virtualShares shares : UInt256}
    {rounding : Rounding}
    (h : toShares assets totalAssets totalShares virtualShares rounding = .ok shares) :
    ∃ shareSide assetSide : UInt256,
      shareSide.toNat = totalShares.toNat + virtualShares.toNat ∧
      assetSide.toNat = totalAssets.toNat + 1 ∧
      mulDiv assets shareSide assetSide rounding = .ok shares := by
  unfold toShares at h
  cases hs : totalShares.checkedAdd virtualShares with
  | error e =>
    rw [hs] at h
    cases h
  | ok shareSide =>
    rw [hs] at h
    cases ha : totalAssets.checkedAdd virtualAssets with
    | error e =>
      rw [ha] at h
      cases h
    | ok assetSide =>
      rw [ha] at h
      exact ⟨shareSide, assetSide, checkedAdd_toNat hs, checkedAdd_toNat ha, h⟩

theorem toAssets_inv {shares totalAssets totalShares virtualShares assets : UInt256}
    {rounding : Rounding}
    (h : toAssets shares totalAssets totalShares virtualShares rounding = .ok assets) :
    ∃ assetSide shareSide : UInt256,
      assetSide.toNat = totalAssets.toNat + 1 ∧
      shareSide.toNat = totalShares.toNat + virtualShares.toNat ∧
      mulDiv shares assetSide shareSide rounding = .ok assets := by
  unfold toAssets at h
  cases ha : totalAssets.checkedAdd virtualAssets with
  | error e =>
    rw [ha] at h
    cases h
  | ok assetSide =>
    rw [ha] at h
    cases hs : totalShares.checkedAdd virtualShares with
    | error e =>
      rw [hs] at h
      cases h
    | ok shareSide =>
      rw [hs] at h
      exact ⟨assetSide, shareSide, checkedAdd_toNat ha, checkedAdd_toNat hs, h⟩

variable {x totalAssets totalShares virtualShares y : UInt256}

/-- Assets converted to shares rounding down buy no more than they are worth. -/
theorem toShares_down_mul_le
    (h : toShares x totalAssets totalShares virtualShares .down = .ok y) :
    y.toNat * (totalAssets.toNat + 1) ≤ x.toNat * (totalShares.toNat + virtualShares.toNat) := by
  obtain ⟨shareSide, assetSide, hs, ha, hq⟩ := toShares_inv h
  rw [← hs, ← ha]
  exact mulDivDown_mul_le hq

/-- Assets converted to shares rounding up buy at least what they are worth. -/
theorem le_toShares_up_mul
    (h : toShares x totalAssets totalShares virtualShares .up = .ok y) :
    x.toNat * (totalShares.toNat + virtualShares.toNat) ≤ y.toNat * (totalAssets.toNat + 1) := by
  obtain ⟨shareSide, assetSide, hs, ha, hq⟩ := toShares_inv h
  rw [← hs, ← ha]
  exact le_mulDivUp_mul hq

/-- Shares converted to assets rounding down are worth no more than the shares. -/
theorem toAssets_down_mul_le
    (h : toAssets x totalAssets totalShares virtualShares .down = .ok y) :
    y.toNat * (totalShares.toNat + virtualShares.toNat) ≤ x.toNat * (totalAssets.toNat + 1) := by
  obtain ⟨assetSide, shareSide, ha, hs, hq⟩ := toAssets_inv h
  rw [← hs, ← ha]
  exact mulDivDown_mul_le hq

/-- Shares converted to assets rounding up are worth at least the shares. -/
theorem le_toAssets_up_mul
    (h : toAssets x totalAssets totalShares virtualShares .up = .ok y) :
    x.toNat * (totalAssets.toNat + 1) ≤ y.toNat * (totalShares.toNat + virtualShares.toNat) := by
  obtain ⟨assetSide, shareSide, ha, hs, hq⟩ := toAssets_inv h
  rw [← hs, ← ha]
  exact le_mulDivUp_mul hq

end Shares

end LendingSim
