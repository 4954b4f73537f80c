import LendingSim.Market.Basic
import LendingSim.RateCurve

/-!
# Updating a market

Accrual and the four flows (supply, withdraw, borrow, repay) read and write one market. They are
`MarketOp`s: each write happens in order, and a failure keeps the writes made before it, so a
withdrawal whose assets run short has already taken the shares. `MarketOp.apply` keeps only
successful runs; `MarketOp.run` also returns the market a failed run leaves behind.

A flow takes an amount of assets or of shares, exactly one of them non-zero, and converts it
to the other, always rounding in the pool's favour: supplying and repaying round shares down
and assets up, withdrawing and borrowing round shares up and assets down.
-/

namespace LendingSim

/-- An operation on one market that may fail, keeping the writes made before the failure. -/
abbrev MarketOp (α : Type) := ExceptT MarketError (StateM Market) α

namespace MarketOp

/-- The outcome of the operation and the market it leaves, also after a failure. -/
def run {α : Type} (op : MarketOp α) (m : Market) : Except MarketError α × Market :=
  StateT.run (ExceptT.run op) m

/-- The outcome and the updated market of a successful operation. -/
def apply {α : Type} (op : MarketOp α) (m : Market) : Except MarketError (α × Market) :=
  match op.run m with
  | (.ok a, updated) => .ok (a, updated)
  | (.error e, _) => .error e

/-- A result computed without touching the market. -/
def lift {α : Type} : Except MarketError α → MarketOp α
  | .ok a => pure a
  | .error e => throw e

/-- An arithmetic result; its failure is a market failure. -/
def arith {α : Type} (x : Except ArithError α) : MarketOp α := lift (liftArith x)

end MarketOp

/-- What an accrual did: the interest added to both totals and the fee shares minted. -/
structure Accrual where
  interest : UInt256
  feeShares : UInt256
  deriving DecidableEq

/-- The assets and shares a flow moved. -/
structure Flow where
  assets : UInt256
  shares : UInt256
  deriving DecidableEq

namespace Market

open MarketOp

/-- Accrues interest up to `timestamp`. The borrow total grows by its compounded average rate
over the elapsed time, the supply total by the same interest, and the fee part of the interest
is minted as supply shares at the rate after the interest, rounded down; the caller credits
them to the fee recipient. A market with an unknown rate model only moves its clock. -/
def accrue (timestamp : Nat) : MarketOp Accrual := do
  let m ← get
  if timestamp < m.lastUpdate then
    throw (.invalidInterestAccrual m.id timestamp m.lastUpdate)
  let elapsed := timestamp - m.lastUpdate
  if elapsed = 0 then
    return ⟨0, 0⟩
  match m.rateAtTarget with
  | none =>
    set { m with lastUpdate := timestamp }
    return ⟨0, 0⟩
  | some rateAtTarget =>
    let utilization ← arith m.utilization
    let rates := RateCurve.borrowRates utilization rateAtTarget elapsed
    let growth ← arith (UInt256.taylorCompounded rates.average (UInt256.ofNat elapsed))
    let interest ← arith (UInt256.wadMul m.totalBorrowAssets growth .down)
    let totalBorrowAssets ← arith (m.totalBorrowAssets.checkedAdd interest)
    modify fun m => { m with totalBorrowAssets }
    let totalSupplyAssets ← arith (m.totalSupplyAssets.checkedAdd interest)
    modify fun m => { m with totalSupplyAssets }
    let feeShares ← if m.fee.isZero then pure 0 else do
      let feeAmount ← arith (UInt256.wadMul interest m.fee .down)
      let assetsBeforeFee ← arith (totalSupplyAssets.checkedSub feeAmount)
      let feeShares ← arith (Shares.toShares feeAmount assetsBeforeFee m.totalSupplyShares
        Shares.marketVirtualShares .down)
      let totalSupplyShares ← arith (m.totalSupplyShares.checkedAdd feeShares)
      modify fun m => { m with totalSupplyShares }
      pure feeShares
    modify fun m => { m with rateAtTarget := some rates.finalRateAtTarget, lastUpdate := timestamp }
    return ⟨interest, feeShares⟩

/-- The market accrued to `timestamp`, leaving this one as it is. -/
def accrued (m : Market) (timestamp : Nat) : Except MarketError Market :=
  ((accrue timestamp).apply m).map Prod.snd

/-- The flow of a request for `assets` or `shares`, exactly one of them non-zero, the other
converted from it. -/
def resolve (assets shares : UInt256) (toShares toAssets : UInt256 → Except ArithError UInt256) :
    Except MarketError Flow :=
  match assets.isZero, shares.isZero with
  | false, true => (fun s => ⟨assets, s⟩) <$> liftArith (toShares assets)
  | true, false => (fun a => ⟨a, shares⟩) <$> liftArith (toAssets shares)
  | _, _ => .error (.inconsistentInput assets shares)

/-- Adds to the supply: shares rounded down, assets up. -/
def supply (assets shares : UInt256) : MarketOp Flow := do
  let m ← get
  let flow ← lift (resolve assets shares (m.toSupplyShares · .down) (m.toSupplyAssets · .up))
  let totalSupplyAssets ← arith (m.totalSupplyAssets.checkedAdd flow.assets)
  modify fun m => { m with totalSupplyAssets }
  let totalSupplyShares ← arith (m.totalSupplyShares.checkedAdd flow.shares)
  modify fun m => { m with totalSupplyShares }
  return flow

/-- Takes from the supply: shares rounded up, assets down. The shares are taken first, and
either total running short is a lack of liquidity. -/
def withdraw (assets shares : UInt256) : MarketOp Flow := do
  let m ← get
  let flow ← lift (resolve assets shares (m.toSupplyShares · .up) (m.toSupplyAssets · .down))
  let totalSupplyShares ← lift ((m.totalSupplyShares.checkedSub flow.shares).mapError
    fun _ => .insufficientLiquidity m.id)
  modify fun m => { m with totalSupplyShares }
  let totalSupplyAssets ← lift ((m.totalSupplyAssets.checkedSub flow.assets).mapError
    fun _ => .insufficientLiquidity m.id)
  modify fun m => { m with totalSupplyAssets }
  return flow

/-- Adds to the debt: shares rounded up, assets down. -/
def borrow (assets shares : UInt256) : MarketOp Flow := do
  let m ← get
  let flow ← lift (resolve assets shares (m.toBorrowShares · .up) (m.toBorrowAssets · .down))
  let totalBorrowAssets ← arith (m.totalBorrowAssets.checkedAdd flow.assets)
  modify fun m => { m with totalBorrowAssets }
  let totalBorrowShares ← arith (m.totalBorrowShares.checkedAdd flow.shares)
  modify fun m => { m with totalBorrowShares }
  return flow

/-- Takes from the debt: shares rounded down, assets up. The shares must be there; the assets
are floored at zero, since rounding can make them exceed the total. -/
def repay (assets shares : UInt256) : MarketOp Flow := do
  let m ← get
  let flow ← lift (resolve assets shares (m.toBorrowShares · .down) (m.toBorrowAssets · .up))
  let totalBorrowShares ← arith (m.totalBorrowShares.checkedSub flow.shares)
  modify fun m => { m with totalBorrowShares }
  modify fun m => { m with totalBorrowAssets := m.totalBorrowAssets.zeroFloorSub flow.assets }
  return flow

end Market

end LendingSim
