import LendingSim.Market.Basic
import LendingSim.Position

/-!
# Health of a position

A position's collateral is worth `collateral * price / 10 ^ 36` in loan token, and it may
borrow up to that value times the liquidation loan-to-value. A position is healthy when its
debt, rounded up, is at most that limit; one without debt is always healthy, and one with debt
on a market without a price never is. The loan-to-value and the health factor are the two
ratios of debt and limit, and are absent when the price is.
-/

namespace LendingSim.Market

/-- The value of `collateral` in loan token, rounded down; `none` without a price. -/
def collateralValue (m : Market) (collateral : UInt256) : Except ArithError (Option UInt256) :=
  match m.price with
  | none => .ok none
  | some price => some <$> UInt256.mulDivDown collateral price UInt256.oraclePriceScale

/-- The most `collateral` lets a position borrow, rounded down; `none` without a price. -/
def maxBorrowAssets (m : Market) (collateral : UInt256) : Except ArithError (Option UInt256) := do
  match ← m.collateralValue collateral with
  | none => pure none
  | some value => some <$> UInt256.wadMul value m.params.lltv .down

/-- Whether the position's debt is within what its collateral allows. -/
def isHealthy (m : Market) (p : Position) : Except ArithError Bool :=
  if p.borrowShares.isZero then .ok true
  else do
    let borrowed ← m.toBorrowAssets p.borrowShares .up
    match ← m.maxBorrowAssets p.collateral with
    | some maxBorrow => pure (borrowed ≤ maxBorrow)
    | none => pure false

/-- Debt over collateral value, scaled by `10 ^ 18` and rounded up: zero without debt, the
largest word for worthless collateral, `none` without a price. -/
def ltv (m : Market) (p : Position) : Except ArithError (Option UInt256) :=
  if p.borrowShares.isZero then .ok (some 0)
  else do
    match ← m.collateralValue p.collateral with
    | none => pure none
    | some value =>
      if value.isZero then pure (some UInt256.maxValue)
      else do
        let borrowed ← m.toBorrowAssets p.borrowShares .up
        some <$> UInt256.wadDiv borrowed value .up

/-- Borrow limit over debt, scaled by `10 ^ 18` and rounded down: the largest word without
debt, `none` without a price. -/
def healthFactor (m : Market) (p : Position) : Except ArithError (Option UInt256) := do
  let borrowed ← m.toBorrowAssets p.borrowShares .up
  if borrowed.isZero then pure (some UInt256.maxValue)
  else
    match ← m.maxBorrowAssets p.collateral with
    | none => pure none
    | some maxBorrow => some <$> UInt256.wadDiv maxBorrow borrowed .down

end LendingSim.Market
