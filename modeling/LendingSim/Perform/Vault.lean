import LendingSim.Perform.Core

/-!
# Vault operations

A vault's assets are its idle balance plus what it supplies on the markets of its queues,
rounded down: each market of the withdraw queue as often as that queue lists it, then each market
of the supply queue not listed yet. Accruing a vault recomputes them and mints the
performance fee on the interest since the last accrual as shares to the fee recipient.

A deposit pulls the assets, mints the shares, then supplies the assets to the markets of the
supply queue in order, each up to its cap; whatever no cap takes fails the deposit. A withdrawal
burns the shares, takes what the idle balance lacks from the markets of the withdraw queue in
order, each up to the vault's supply and the market's liquidity, and sends the assets. A
reallocation, by an allocator or manager, moves supply between enabled markets: it withdraws
from markets above their target and supplies to markets below it, and what it supplies must
equal what it withdraws.
-/

namespace LendingSim.Perform

open Sim

/-- What `vault` supplies on market `id`, accrued, rounded as asked. -/
def suppliedAssets (vault : Address) (id : MarketId) (rounding : Rounding) : Sim UInt256 := do
  let market ← accrueMarket id
  let position := (← get).position vault id
  arith (market.toSupplyAssets position.supplyShares rounding)

/-- The flow of a vault request for `assets` or `shares`, exactly one of them non-zero. -/
def resolveVaultFlow (assets shares : UInt256) (toShares toAssets : UInt256 → Except ArithError UInt256) :
    Sim Flow :=
  match assets.isZero, shares.isZero with
  | false, true => do return ⟨assets, ← arith (toShares assets)⟩
  | true, false => do return ⟨← arith (toAssets shares), shares⟩
  | _, _ => throw (.input (.inconsistentInput assets shares))

/-- The markets of the withdraw queue, then those of the supply queue not listed yet. -/
def accrualMarkets (v : Vault) : List MarketId :=
  v.supplyQueue.foldl (fun ids id => if ids.contains id then ids else ids ++ [id]) v.withdrawQueue

/-- Adds what `vault` supplies on each market, rounded down, to `total`. -/
def addSupplied (vault : Address) (total : UInt256) : List MarketId → Sim UInt256
  | [] => pure total
  | id :: rest => do
    let supplied ← suppliedAssets vault id .down
    let total ← arith (total.checkedAdd supplied)
    addSupplied vault total rest

/-- Accrues the vault at `address`: its total assets become its idle balance plus its supply on
the markets of its queues, and the fee part of the interest is minted as shares. -/
def accrueVault (address : Address) : Sim Vault := do
  let vault ← lift ((← get).vault address)
  let idle := (← get).balanceOf address vault.asset
  let totalAssets ← addSupplied address idle (accrualMarkets vault)
  let interest := totalAssets.zeroFloorSub vault.lastTotalAssets
  let totalSupply ←
    if !interest.isZero && !vault.fee.isZero then do
      let feeAssets ← arith (UInt256.wadMul interest vault.fee .down)
      let assetsBeforeFee ← arith (totalAssets.checkedSub feeAssets)
      let feeShares ← arith (Shares.toShares feeAssets assetsBeforeFee vault.totalSupply
        vault.virtualShares .down)
      if !feeShares.isZero then
        move (.mint address address vault.feeRecipient feeShares)
        arith (vault.totalSupply.checkedAdd feeShares)
      else pure vault.totalSupply
    else pure vault.totalSupply
  let vault := { vault with totalSupply, totalAssets, lastTotalAssets := totalAssets }
  modify (·.putVault vault)
  return vault

/-- A request to supply or withdraw `assets` of a market for `vault` itself. -/
def vaultRequest (vault : Address) (id : MarketId) (assets shares : UInt256)
    (receiver : Option Address) : MarketRequest :=
  { id, assets := Int256.ofBits assets, shares := Int256.ofBits shares, onBehalf := vault,
    receiver, slippage := none }

/-- Supplies from `remaining` to the markets in order, each up to its cap; returns what is
left. -/
def supplyToMarkets (vault : Address) : List MarketId → UInt256 → Sim UInt256
  | [], remaining => pure remaining
  | id :: rest, remaining => do
    if remaining.isZero then return remaining
    let config ← lift ((← get).vaultMarketConfig vault id)
    if config.cap.isZero then return ← supplyToMarkets vault rest remaining
    let supplied ← suppliedAssets vault id .up
    let toSupply := min (config.cap.zeroFloorSub supplied) remaining
    if toSupply.isZero then return ← supplyToMarkets vault rest remaining
    discard (supply vault (vaultRequest vault id toSupply 0 none) (pure ()))
    supplyToMarkets vault rest (remaining.zeroFloorSub toSupply)

/-- Withdraws `remaining` from the markets in order, each up to the vault's supply and the
market's liquidity; returns what is left. -/
def withdrawFromMarkets (vault : Address) : List MarketId → UInt256 → Sim UInt256
  | [], remaining => pure remaining
  | id :: rest, remaining => do
    if remaining.isZero then return remaining
    let supplied ← suppliedAssets vault id .down
    let liquidity := (← lift ((← get).getMarket id false)).liquidity
    let toWithdraw := min (min supplied liquidity) remaining
    if toWithdraw.isZero then return ← withdrawFromMarkets vault rest remaining
    discard (withdraw vault (vaultRequest vault id toWithdraw 0 (some vault)) (pure ()))
    withdrawFromMarkets vault rest (remaining.zeroFloorSub toWithdraw)

/-- Supplies a deposit's `assets` along the supply queue, each market up to its cap; what no cap
takes fails the deposit. -/
def placeDeposit (vault : Address) (queue : List MarketId) (assets : UInt256) : Sim Unit := do
  let remaining ← supplyToMarkets vault queue assets
  if !remaining.isZero then throw (.vault (.allCapsReached vault remaining))

/-- Withdraws along the withdraw queue what the vault's idle balance of `asset` lacks of
`assets`; what the markets cannot give fails the withdrawal. -/
def gatherWithdrawal (vault asset : Address) (queue : List MarketId) (assets : UInt256) :
    Sim Unit := do
  let idle := (← get).balanceOf vault asset
  let remaining ← withdrawFromMarkets vault queue (assets.zeroFloorSub idle)
  if !remaining.isZero then throw (.vault (.notEnoughLiquidity vault remaining))

/-- Deposits into the vault at `address`, minting shares to `request.owner`. -/
def vaultDeposit (sender address : Address) (request : DepositRequest) : Sim Unit := do
  let vault ← accrueVault address
  let s ← get
  let assets :=
    if isMaxAmount request.assets && isAdapter s sender then s.balanceOf sender vault.asset
    else amountOf request.assets
  let flow ← resolveVaultFlow assets (amountOf request.shares) (vault.toShares · .down)
    (vault.toAssets · .up)
  if isAdapter s sender then
    if flow.shares.isZero then throw (.adapter .zeroShares)
    if request.slippage.isSome then
      let reference ← arith (vault.toAssets UInt256.ray .up)
      checkMaxSharePrice flow.assets flow.shares reference (slippageOf request.slippage)
  move { token := vault.asset, sender := address, source := sender, destination := address,
         amount := flow.assets }
  move (.mint address address request.owner flow.shares)
  let totalSupply ← arith (vault.totalSupply.checkedAdd flow.shares)
  let totalAssets ← arith (vault.totalAssets.checkedAdd flow.assets)
  let vault := { vault with totalSupply, totalAssets, lastTotalAssets := totalAssets }
  modify (·.putVault vault)
  placeDeposit address vault.supplyQueue flow.assets

/-- Withdraws from the vault at `address`, burning shares of `request.owner`. -/
def vaultWithdraw (sender address : Address) (request : RedeemRequest) : Sim Unit := do
  let vault ← accrueVault address
  let s ← get
  let shares ←
    if isMaxAmount request.shares && isAdapter s sender then do
      let balance := s.balanceOf request.owner address
      if balance.isZero then throw (.adapter .zeroShares)
      pure balance
    else pure (amountOf request.shares)
  let flow ← resolveVaultFlow (amountOf request.assets) shares (vault.toShares · .up)
    (vault.toAssets · .down)
  if isAdapter s sender && request.slippage.isSome then
    let reference ← arith (vault.toAssets UInt256.ray .down)
    checkMinSharePrice flow.assets flow.shares reference (slippageOf request.slippage)
  move { token := address, sender, source := request.owner, destination := .zero,
         amount := flow.shares }
  let totalSupply ← arith (vault.totalSupply.checkedSub flow.shares)
  let totalAssets := vault.totalAssets.zeroFloorSub flow.assets
  let vault := { vault with totalSupply, totalAssets, lastTotalAssets := totalAssets }
  modify (·.putVault vault)
  gatherWithdrawal address vault.asset vault.withdrawQueue flow.assets
  move { token := vault.asset, sender := address, source := address,
         destination := request.receiver, amount := flow.assets }

/-- The running totals of a reallocation. -/
structure Reallocation where
  supplied : UInt256
  withdrawn : UInt256

/-- Moves the vault's supply on each market toward its target: withdraws from markets above
it, supplies to markets below it within their caps. -/
def reallocateEach (vault : Address) : List Allocation → Reallocation → Sim Reallocation
  | [], totals => pure totals
  | allocation :: rest, totals => do
    let id := allocation.id
    let config ← lift ((← get).vaultMarketConfig vault id)
    if !config.enabled then throw (.vault (.unauthorizedMarket vault id))
    let supplied ← suppliedAssets vault id .down
    let target := amountOf allocation.assets
    let withdrawn := supplied.zeroFloorSub target
    if !withdrawn.isZero then
      let shares := ((← get).position vault id).supplyShares
      let request :=
        if target.isZero then vaultRequest vault id 0 shares (some vault)
        else vaultRequest vault id withdrawn 0 (some vault)
      let flow ← withdraw vault request (pure ())
      let withdrawnTotal ← arith (totals.withdrawn.checkedAdd flow.assets)
      return ← reallocateEach vault rest { totals with withdrawn := withdrawnTotal }
    let toSupply :=
      if allocation.assets == Int256.maxValue then totals.withdrawn.zeroFloorSub totals.supplied
      else target.zeroFloorSub supplied
    if toSupply.isZero then return ← reallocateEach vault rest totals
    if config.cap.isZero then throw (.vault (.unauthorizedMarket vault id))
    if config.cap < (← arith (supplied.checkedAdd toSupply)) then
      throw (.vault (.supplyCapExceeded vault id))
    let flow ← supply vault (vaultRequest vault id toSupply 0 none) (pure ())
    let suppliedTotal ← arith (totals.supplied.checkedAdd flow.assets)
    reallocateEach vault rest { totals with supplied := suppliedTotal }

/-- Reallocates the supply of the vault at `address` as `allocations` say. -/
def reallocate (sender address : Address) (allocations : List Allocation) : Sim Unit := do
  let vault ← lift ((← get).vault address)
  if !((← get).vaultUser address sender).isAllocator && !vault.isManager sender then
    throw (.vault (.notAllocatorRole address sender))
  let totals ← reallocateEach address allocations ⟨0, 0⟩
  if totals.withdrawn != totals.supplied then
    throw (.vault (.inconsistentReallocation address totals.supplied totals.withdrawn))

end LendingSim.Perform
