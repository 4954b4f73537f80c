import LendingSim.Proofs.Health

/-!
# Health is monotone in collateral, debt and price

A position with debt is healthy when its debt, the borrow shares converted to assets rounding
up, is within its borrow limit, the collateral's value rounded down and then discounted by the
`lltv` rounding down again. Each of these roundings keeps the order of what it rounds: fewer
borrow shares never cost more debt, and more collateral or a higher price never lowers the
limit. So a healthy position stays healthy when it gains collateral, sheds borrow shares or sees
its collateral's price rise, whenever the check itself succeeds (an overflow is an error, not a
verdict).

`isHealthy_mono` lets collateral, debt and price move at once, between two markets with the same
borrow totals and `lltv`; `health_monotone` states its two cases, the position changing on one
market and the price rising under one position.
-/

namespace LendingSim

namespace UInt256

/-- Floors of two products over one divisor are ordered like the products. -/
theorem mulDivDown_le_mulDivDown {x y x' y' d q q' : UInt256} (h : mulDivDown x y d = .ok q)
    (h' : mulDivDown x' y' d = .ok q') (hle : x.toNat * y.toNat ≤ x'.toNat * y'.toNat) :
    q ≤ q' :=
  (le_mulDivDown_iff h' q.toNat).mpr (Nat.le_trans (mulDivDown_mul_le h) hle)

end UInt256

namespace Market

open UInt256

variable {m n : Market}

/-- Fewer borrow shares never cost more debt, both rounded up. -/
theorem toBorrowAssets_up_mono {shares shares' borrowed borrowed' : UInt256}
    (h : m.toBorrowAssets shares .up = .ok borrowed)
    (h' : m.toBorrowAssets shares' .up = .ok borrowed') (hle : shares' ≤ shares) :
    borrowed' ≤ borrowed := by
  obtain ⟨assetSide, shareSide, ha, hs, hq⟩ := Shares.toAssets_inv h'
  have hcost := Shares.le_toAssets_up_mul h
  refine (mulDivUp_le_iff (show mulDivUp shares' assetSide shareSide = .ok borrowed' from hq)
    borrowed.toNat).mpr ?_
  rw [ha, hs]
  exact Nat.le_trans (Nat.mul_le_mul_right _ hle) hcost

/-- At a price, the borrow limit of `c` is the value `c * price / 10 ^ 36` discounted by the
`lltv`, both rounded down. -/
theorem maxBorrowAssets_of_price {price c : UInt256} {maxBorrow : Option UInt256}
    (hp : m.price = some price) (hM : m.maxBorrowAssets c = .ok maxBorrow) :
    ∃ v mb, mulDivDown c price oraclePriceScale = .ok v ∧
      mulDivDown v m.params.lltv wad = .ok mb ∧ maxBorrow = some mb := by
  have hV : m.collateralValue c = some <$> mulDivDown c price oraclePriceScale := by
    simp only [collateralValue, hp]
  cases hv : mulDivDown c price oraclePriceScale with
  | error e =>
    rw [hv] at hV
    simp [maxBorrowAssets, hV, bind, Except.bind, Functor.map, Except.map] at hM
  | ok v =>
    rw [hv] at hV
    simp only [maxBorrowAssets, hV, bind, Except.bind, Functor.map, Except.map] at hM
    cases hmb : mulDivDown v m.params.lltv wad with
    | error e => simp [wadMul, mulDiv, hmb] at hM
    | ok mb =>
      simp only [wadMul, mulDiv, hmb, Except.ok.injEq] at hM
      exact ⟨v, mb, rfl, hmb, hM.symm⟩

/-- More collateral at a higher price, discounted by the same `lltv`, never lowers the borrow
limit. -/
theorem maxBorrow_mono {x y c c' v v' mb mb' lltv : UInt256}
    (hv : mulDivDown c x oraclePriceScale = .ok v) (hv' : mulDivDown c' y oraclePriceScale = .ok v')
    (hmb : mulDivDown v lltv wad = .ok mb) (hmb' : mulDivDown v' lltv wad = .ok mb')
    (hc : c ≤ c') (hxy : x ≤ y) : mb ≤ mb' := by
  have hvalue : v ≤ v' := mulDivDown_le_mulDivDown hv hv' (Nat.mul_le_mul hc hxy)
  exact mulDivDown_le_mulDivDown hmb hmb' (Nat.mul_le_mul_right _ hvalue)

/-- Health survives more collateral, fewer borrow shares and a higher price at once. The second
market `n` has the borrow totals and `lltv` of `m`, and a price wherever `m` has one, at least
as high; a healthy position `p` on `m` gives a position `p'` with at least its collateral and at
most its borrow shares that `n` finds healthy whenever its check succeeds. -/
theorem isHealthy_mono {p p' : Position} (hassets : n.totalBorrowAssets = m.totalBorrowAssets)
    (hshares : n.totalBorrowShares = m.totalBorrowShares) (hlltv : n.params.lltv = m.params.lltv)
    (hprice : ∀ x, m.price = some x → ∃ y, n.price = some y ∧ x ≤ y)
    (hc : p.collateral ≤ p'.collateral) (hs : p'.borrowShares ≤ p.borrowShares)
    (hh : m.isHealthy p = .ok true) {healthy : Bool} (hh' : n.isHealthy p' = .ok healthy) :
    healthy = true := by
  by_cases hz : p'.borrowShares.toNat = 0
  case pos =>
    have hzero : p'.borrowShares.isZero = true := by simp [isZero, hz]
    simpa [isHealthy, hzero] using hh'.symm
  case neg =>
    have hz₀ : p.borrowShares.toNat ≠ 0 := fun h => hz (Nat.le_zero.mp (h ▸ hs))
    obtain ⟨borrowed, maxBorrow, hB, hM, hhealthy⟩ := isHealthy_inv hh hz₀
    obtain ⟨borrowed', maxBorrow', hB', hM', rfl⟩ := isHealthy_inv hh' hz
    cases hp : m.price with
    | none =>
      rw [maxBorrowAssets_of_no_price hp, Except.ok.injEq] at hM
      subst hM
      cases hhealthy
    | some x =>
      obtain ⟨y, hp', hxy⟩ := hprice x hp
      obtain ⟨v, mb, hv, hmb, rfl⟩ := maxBorrowAssets_of_price hp hM
      obtain ⟨v', mb', hv', hmb', rfl⟩ := maxBorrowAssets_of_price hp' hM'
      rw [hlltv] at hmb'
      have hB'' : m.toBorrowAssets p'.borrowShares .up = .ok borrowed' := by
        rw [← hB']
        simp only [toBorrowAssets, hassets, hshares]
      have hcovered : borrowed ≤ mb := by simpa using hhealthy.symm
      have hdebt : borrowed' ≤ borrowed := toBorrowAssets_up_mono hB hB'' hs
      have hlimit : mb ≤ mb' := maxBorrow_mono hv hv' hmb hmb' hc hxy
      simpa using (show borrowed' ≤ mb' from Nat.le_trans hdebt (Nat.le_trans hcovered hlimit))

end Market

/-- Health is monotone. On every market, a healthy position stays healthy when it holds at
least as much collateral and at most as many borrow shares, and when the collateral's price rises
from `x` to `y ≥ x` — in both cases whenever the check of the new position succeeds. -/
theorem health_monotone (m : Market) :
    (∀ p p' : Position, p.collateral ≤ p'.collateral → p'.borrowShares ≤ p.borrowShares →
      m.isHealthy p = .ok true → ∀ healthy, m.isHealthy p' = .ok healthy → healthy = true) ∧
    (∀ (p : Position) (x y : UInt256), m.price = some x → x ≤ y → m.isHealthy p = .ok true →
      ∀ healthy, { m with price := some y }.isHealthy p = .ok healthy → healthy = true) := by
  constructor
  · intro p p' hc hs hh healthy hh'
    exact Market.isHealthy_mono rfl rfl rfl (fun x hx => ⟨x, hx, Nat.le_refl _⟩) hc hs hh hh'
  · intro p x y hp hxy hh healthy hh'
    have hprice : ∀ x', m.price = some x' → ∃ y', some y = some y' ∧ x' ≤ y' := by
      intro x' hx'
      rw [hp, Option.some.injEq] at hx'
      exact ⟨y, rfl, hx' ▸ hxy⟩
    exact Market.isHealthy_mono (m := m) (n := { m with price := some y }) rfl rfl rfl hprice
      (Nat.le_refl _) (Nat.le_refl _) hh hh'

/-- A market lending at an `lltv` of 86% with collateral priced at one, where a million borrow
shares are one asset of debt. -/
def gaugedMarket : Market :=
  { Market.new ⟨⟨0x150, by decide⟩, ⟨0x151, by decide⟩, ⟨0x152, by decide⟩, ⟨0x153, by decide⟩,
      860000000000000000⟩ 0 with
    totalSupplyAssets := 1000, totalSupplyShares := 1000000000, totalBorrowAssets := 1000,
    totalBorrowShares := 1000000000, price := some UInt256.oraclePriceScale }

/-- Eight hundred assets of debt against a thousand units of collateral: within the limit of
860. -/
def nearLimitPosition : Position :=
  { Position.empty Address.zero default with borrowShares := 800000000, collateral := 1000 }

/-- The same position after repaying half its shares and posting ten more units. -/
def relievedPosition : Position :=
  { nearLimitPosition with borrowShares := 400000000, collateral := 1010 }

/-- Both cases of `health_monotone` at a position close to its limit: relieving it keeps it
healthy, and so does doubling the collateral's price. -/
theorem health_monotone_near_limit :
    nearLimitPosition.collateral ≤ relievedPosition.collateral ∧
      relievedPosition.borrowShares ≤ nearLimitPosition.borrowShares ∧
      gaugedMarket.isHealthy nearLimitPosition = .ok true ∧
      gaugedMarket.isHealthy relievedPosition = .ok true ∧
      (∀ healthy, gaugedMarket.isHealthy relievedPosition = .ok healthy → healthy = true) ∧
      gaugedMarket.price = some UInt256.oraclePriceScale ∧
      UInt256.oraclePriceScale ≤ 2000000000000000000000000000000000000 ∧
      (∀ healthy, { gaugedMarket with price := some 2000000000000000000000000000000000000 }.isHealthy
        nearLimitPosition = .ok healthy → healthy = true) :=
  have hc : nearLimitPosition.collateral ≤ relievedPosition.collateral := by decide
  have hs : relievedPosition.borrowShares ≤ nearLimitPosition.borrowShares := by decide
  have hh : gaugedMarket.isHealthy nearLimitPosition = .ok true := rfl
  have hxy : UInt256.oraclePriceScale ≤ 2000000000000000000000000000000000000 := by decide
  ⟨hc, hs, hh, rfl, (health_monotone gaugedMarket).1 _ _ hc hs hh, rfl, hxy,
    (health_monotone gaugedMarket).2 _ _ _ rfl hxy hh⟩

end LendingSim
