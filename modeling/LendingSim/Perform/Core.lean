import LendingSim.Perform.Adapter
import LendingSim.Perform.Transfer
import LendingSim.Market.Health

/-!
# Operations of the core contract

Supplying, withdrawing, borrowing and repaying on a market, moving collateral, flash loans, and
authorizing the bundling adapter. Each market operation first accrues the market, then updates
the market and the position, checks what must hold afterwards (the position covers what is
taken, the position stays healthy, the market keeps enough liquidity), commits, runs the
callback, and only then moves the tokens. So a callback runs with the bookkeeping already done
and can provide the tokens the final movement takes.

A user manages their own positions; the general adapter manages those of users who authorized
it; nobody else may act on another's behalf.
-/

namespace LendingSim.Perform

open Sim

/-- Fails unless `sender` may manage the positions of `onBehalf`. -/
def checkAuthorized (sender onBehalf : Address) : Sim Unit := do
  if sender == onBehalf then return
  let s ← get
  if isAdapter s sender then
    if (s.user onBehalf).isBundlerAuthorized then return
    throw (.adapter (.unauthorizedBundler onBehalf))
  throw (.market (.unauthorized sender onBehalf))

/-- The amount asked for: for the general adapter the largest amount means all of `available`,
which must then not be zero. -/
def resolveMax (sender : Address) (value : Int256) (available : UInt256) (zero : AdapterError) :
    Sim UInt256 := do
  if !(isMaxAmount value && isAdapter (← get) sender) then return amountOf value
  if available.isZero then throw (.adapter zero)
  return available

/-- A market operation's result as a simulation step. -/
def marketUpdate {α : Type} (op : MarketOp α) (m : Market) : Sim (α × Market) :=
  lift ((op.apply m).mapError .market)

/-- Supplies loan tokens to a market on behalf of `request.onBehalf`. -/
def supply (sender : Address) (request : MarketRequest) (callback : Sim Unit) : Sim Flow := do
  let market ← accrueMarket request.id
  let loanToken := market.params.loanToken
  let assets ← resolveMax sender request.assets ((← get).balanceOf sender loanToken) .zeroAmount
  let reference ← arith (market.toSupplyAssets UInt256.ray .up)
  let (flow, market) ← marketUpdate (Market.supply assets (amountOf request.shares)) market
  let position := (← get).position request.onBehalf request.id
  let supplyShares ← arith (position.supplyShares.checkedAdd flow.shares)
  modify fun s => (s.putPosition { position with supplyShares }).putMarket market
  if isAdapter (← get) sender && request.slippage.isSome then
    checkMaxSharePrice flow.assets flow.shares reference (slippageOf request.slippage)
  callback
  let morpho := (← get).registry.morpho
  move { token := loanToken, sender := morpho, source := sender, destination := morpho,
         amount := flow.assets }
  return flow

/-- Withdraws supplied loan tokens of `request.onBehalf`. -/
def withdraw (sender : Address) (request : MarketRequest) (callback : Sim Unit) : Sim Flow := do
  checkAuthorized sender request.onBehalf
  let market ← accrueMarket request.id
  let loanToken := market.params.loanToken
  let position := (← get).position request.onBehalf request.id
  let shares ← resolveMax sender request.shares position.supplyShares .zeroShares
  let reference ← arith (market.toSupplyAssets UInt256.ray .down)
  let (flow, market) ← marketUpdate (Market.withdraw (amountOf request.assets) shares) market
  let supplyShares ← lift ((position.supplyShares.checkedSub flow.shares).mapError fun _ =>
    .market (.insufficientPosition request.onBehalf request.id))
  if !market.hasEnoughLiquidity then throw (.market (.insufficientLiquidity request.id))
  modify fun s => (s.putPosition { position with supplyShares }).putMarket market
  if isAdapter (← get) sender && request.slippage.isSome then
    checkMinSharePrice flow.assets flow.shares reference (slippageOf request.slippage)
  callback
  let morpho := (← get).registry.morpho
  move { token := loanToken, sender := morpho, source := morpho,
         destination := request.receiver.getD sender, amount := flow.assets }
  return flow

/-- Borrows loan tokens against the collateral of `request.onBehalf`. -/
def borrow (sender : Address) (request : MarketRequest) (callback : Sim Unit) : Sim Flow := do
  checkAuthorized sender request.onBehalf
  let market ← accrueMarket request.id
  let reference ← arith (market.toBorrowAssets UInt256.ray .down)
  let (flow, market) ←
    marketUpdate (Market.borrow (amountOf request.assets) (amountOf request.shares)) market
  let position := (← get).position request.onBehalf request.id
  let borrowShares ← arith (position.borrowShares.checkedAdd flow.shares)
  let position := { position with borrowShares }
  if !(← arith (market.isHealthy position)) then
    throw (.market (.insufficientCollateral request.onBehalf request.id))
  if !market.hasEnoughLiquidity then throw (.market (.insufficientLiquidity request.id))
  modify fun s => (s.putPosition position).putMarket market
  if isAdapter (← get) sender && request.slippage.isSome then
    checkMinSharePrice flow.assets flow.shares reference (slippageOf request.slippage)
  callback
  let morpho := (← get).registry.morpho
  move { token := market.params.loanToken, sender := morpho, source := morpho,
         destination := request.receiver.getD sender, amount := flow.assets }
  return flow

/-- Repays the debt of `request.onBehalf`. -/
def repay (sender : Address) (request : MarketRequest) (callback : Sim Unit) : Sim Flow := do
  let market ← accrueMarket request.id
  let loanToken := market.params.loanToken
  let position := (← get).position request.onBehalf request.id
  let assets ← resolveMax sender request.assets ((← get).balanceOf sender loanToken) .zeroAmount
  let shares ← resolveMax sender request.shares position.borrowShares .zeroShares
  let reference ← arith (market.toBorrowAssets UInt256.ray .up)
  let (flow, market) ← marketUpdate (Market.repay assets shares) market
  let borrowShares ← lift ((position.borrowShares.checkedSub flow.shares).mapError fun _ =>
    .market (.insufficientPosition request.onBehalf request.id))
  modify fun s => (s.putPosition { position with borrowShares }).putMarket market
  if isAdapter (← get) sender && request.slippage.isSome then
    checkMaxSharePrice flow.assets flow.shares reference (slippageOf request.slippage)
  callback
  let morpho := (← get).registry.morpho
  move { token := loanToken, sender := morpho, source := sender, destination := morpho,
         amount := flow.assets }
  return flow

/-- Deposits collateral for `request.onBehalf`. -/
def supplyCollateral (sender : Address) (request : CollateralRequest) (callback : Sim Unit) :
    Sim Unit := do
  let market ← accrueMarket request.id
  let collateralToken := market.params.collateralToken
  let assets ←
    resolveMax sender request.assets ((← get).balanceOf sender collateralToken) .zeroAmount
  if assets.isZero then throw (.market .zeroAssets)
  let position := (← get).position request.onBehalf request.id
  let collateral ← arith (position.collateral.checkedAdd assets)
  modify (·.putPosition { position with collateral })
  callback
  let morpho := (← get).registry.morpho
  move { token := collateralToken, sender := morpho, source := sender, destination := morpho,
         amount := assets }

/-- Withdraws collateral of `request.onBehalf`, which must stay healthy. -/
def withdrawCollateral (sender : Address) (request : CollateralRequest) (callback : Sim Unit) :
    Sim Unit := do
  checkAuthorized sender request.onBehalf
  let market ← accrueMarket request.id
  let position := (← get).position request.onBehalf request.id
  let assets ← resolveMax sender request.assets position.collateral .zeroAmount
  if assets.isZero then throw (.market .zeroAssets)
  let collateral ← lift ((position.collateral.checkedSub assets).mapError fun _ =>
    .market (.insufficientPosition request.onBehalf request.id))
  let position := { position with collateral }
  if !(← arith (market.isHealthy position)) then
    throw (.market (.insufficientCollateral request.onBehalf request.id))
  modify (·.putPosition position)
  callback
  let morpho := (← get).registry.morpho
  move { token := market.params.collateralToken, sender := morpho, source := morpho,
         destination := request.receiver.getD sender, amount := assets }

/-- Lends `assets` of `token` to the sender for the duration of the callback. -/
def flashLoan (sender token : Address) (assets : Int256) (callback : Sim Unit) : Sim Unit := do
  let amount := amountOf assets
  if amount.isZero then throw (.market .zeroAssets)
  let morpho := (← get).registry.morpho
  move { token, sender := morpho, source := morpho, destination := sender, amount }
  callback
  move { token, sender := morpho, source := sender, destination := morpho, amount }

/-- Sets whether the general adapter may manage `owner`'s positions; done by someone else, it
consumes one of `owner`'s signed-authorization nonces. -/
def setAuthorization (sender owner : Address) (isBundlerAuthorized : Bool) : Sim Unit := do
  let user := (← get).user owner
  let morphoNonce ←
    if sender != owner then arith (user.morphoNonce.checkedAdd 1) else pure user.morphoNonce
  modify (·.putUser { user with morphoNonce, isBundlerAuthorized })

end LendingSim.Perform
