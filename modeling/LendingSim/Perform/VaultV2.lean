import LendingSim.Perform.Vault

/-!
# Second-kind vault operations

A second-kind vault's assets are its idle balance plus the real assets of the adapters whose
parent it is; accruing recomputes them and stamps the block's time. A deposit forwards the
assets to the liquidity adapter when the vault has one. A withdrawal takes what the idle balance
lacks from the liquidity adapter, which must hold enough.
-/

namespace LendingSim.Perform

open Sim

/-- Accrues the second-kind vault at `address`. -/
def accrueVaultV2 (address : Address) : Sim VaultV2 := do
  let s ← get
  let vault ← lift (s.vaultV2 address)
  let adapters := s.vaultV2Adapters.values.filter (·.parentVault == address)
  let totalAssets ← adapters.foldlM (fun total adapter => arith (total.checkedAdd adapter.realAssets))
    (s.balanceOf address vault.asset)
  let vault := { vault with totalAssets, lastUpdate := s.block.timestamp }
  modify (·.putVaultV2 vault)
  return vault

/-- Deposits into the second-kind vault at `address`, minting shares to `request.owner`. -/
def vaultV2Deposit (sender address : Address) (request : DepositRequest) : Sim Unit := do
  let vault ← accrueVaultV2 address
  let s ← get
  let assets :=
    if isMaxAmount request.assets && isAdapter s sender then s.balanceOf sender vault.asset
    else amountOf request.assets
  let flow ← resolveVaultFlow assets (amountOf request.shares) (vault.toShares · .down)
    (vault.toAssets · .up)
  if isAdapter s sender then
    if flow.shares.isZero then throw (.adapter .zeroShares)
    if request.slippage.isSome then
      let reference ← arith (vault.toAssets UInt256.ray .up)
      checkMaxSharePrice flow.assets flow.shares reference (slippageOf request.slippage)
  move { token := vault.asset, sender := address, source := sender, destination := address,
         amount := flow.assets }
  move (.mint address address request.owner flow.shares)
  let totalSupply ← arith (vault.totalSupply.checkedAdd flow.shares)
  let totalAssets ← arith (vault.totalAssets.checkedAdd flow.assets)
  let vault := { vault with totalSupply, totalAssets }
  modify (·.putVaultV2 vault)
  if let some adapterAddress := vault.liquidityAdapter then
    let adapter ← lift ((← get).vaultV2Adapter adapterAddress)
    move { token := vault.asset, sender := address, source := address,
           destination := adapterAddress, amount := flow.assets }
    let realAssets ← arith (adapter.realAssets.checkedAdd flow.assets)
    modify (·.putVaultV2Adapter { adapter with realAssets })

/-- Withdraws from the second-kind vault at `address`, burning shares of `request.owner`. -/
def vaultV2Withdraw (sender address : Address) (request : RedeemRequest) : Sim Unit := do
  let vault ← accrueVaultV2 address
  let s ← get
  let shares ←
    if isMaxAmount request.shares && isAdapter s sender then do
      let balance := s.balanceOf request.owner address
      if balance.isZero then throw (.adapter .zeroShares)
      pure balance
    else pure (amountOf request.shares)
  let flow ← resolveVaultFlow (amountOf request.assets) shares (vault.toShares · .up)
    (vault.toAssets · .down)
  if isAdapter s sender && request.slippage.isSome then
    let reference ← arith (vault.toAssets UInt256.ray .down)
    checkMinSharePrice flow.assets flow.shares reference (slippageOf request.slippage)
  let missing := flow.assets.zeroFloorSub ((← get).balanceOf address vault.asset)
  if !missing.isZero then
    let some adapterAddress := vault.liquidityAdapter
      | throw (.vault (.notEnoughLiquidity address missing))
    let adapter ← lift ((← get).vaultV2Adapter adapterAddress)
    let remaining := missing.zeroFloorSub adapter.realAssets
    if !remaining.isZero then throw (.vault (.notEnoughLiquidity address remaining))
    move { token := vault.asset, sender := adapterAddress, source := adapterAddress,
           destination := address, amount := missing }
    modify (·.putVaultV2Adapter { adapter with realAssets := adapter.realAssets.zeroFloorSub missing })
  move { token := address, sender, source := request.owner, destination := .zero,
         amount := flow.shares }
  move { token := vault.asset, sender := address, source := address,
         destination := request.receiver, amount := flow.assets }
  let totalSupply ← arith (vault.totalSupply.checkedSub flow.shares)
  modify (·.putVaultV2 { vault with totalSupply, totalAssets := vault.totalAssets.zeroFloorSub flow.assets })

end LendingSim.Perform
