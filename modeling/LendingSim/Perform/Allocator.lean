import LendingSim.Perform.Vault

/-!
# The public allocator

Anyone may move a vault's supply between its enabled markets through the public allocator, for
the vault's native fee, within flow caps. Each withdrawal names a market, in strictly increasing
order of market id, and a non-zero amount; it raises the market's inflow cap and lowers its
outflow cap by that amount. The destination market's inflow cap falls and its outflow cap rises
by the total. The allocator then reallocates on the vault's behalf: each withdrawal market to
its supply less the amount, and everything withdrawn to the destination.
-/

namespace LendingSim.Perform

open Sim

/-- The configuration of market `id` on `vault`, which must be enabled. -/
def enabledConfig (vault : Address) (id : MarketId) : Sim VaultMarketConfig := do
  let some config := (← get).vaultMarketConfigs.get? (vault, id)
    | throw (.missing (.vaultMarketConfig vault id))
  if !config.enabled then throw (.allocator (.marketNotEnabled id))
  return config

/-- Charges the flow caps of each withdrawal and collects the allocations that take the amounts
out; `previous` is the id of the withdrawal before, and the result carries the total. -/
def chargeWithdrawals (vault : Address) (supplyId : MarketId) (previous : Option MarketId) :
    List Allocation → UInt256 → Sim (List Allocation × UInt256)
  | [], total => pure ([], total)
  | withdrawal :: rest, total => do
    let id := withdrawal.id
    if let some before := previous then
      if id.toNat ≤ before.toNat then throw (.allocator .inconsistentWithdrawals)
    let config ← enabledConfig vault id
    let amount := amountOf withdrawal.assets
    if amount.isZero then throw (.allocator (.withdrawZero id))
    if id == supplyId then throw (.allocator (.depositMarketInWithdrawals id))
    let caps := config.flowCaps.getD .zero
    let maxIn ← arith (caps.maxIn.checkedAdd amount)
    let maxOut ← lift ((caps.maxOut.checkedSub amount).mapError fun _ =>
      .allocator (.maxOutflowExceeded id))
    modify (·.putVaultMarketConfig { config with flowCaps := some ⟨maxIn, maxOut⟩ })
    let supplied ← suppliedAssets vault id .down
    let target ← lift ((supplied.checkedSub amount).mapError fun _ =>
      .allocator (.notEnoughSupply id))
    let total ← arith (total.checkedAdd amount)
    let (allocations, total) ← chargeWithdrawals vault supplyId (some id) rest total
    return (⟨id, Int256.ofBits target⟩ :: allocations, total)

/-- Reallocates the vault at `address` through the public allocator. -/
def publicReallocate (sender address : Address) (withdrawals : List Allocation)
    (supplyId : MarketId) : Sim Unit := do
  let allocator := (← get).registry.publicAllocator
  let vault ← lift ((← get).vault address)
  let some terms := vault.allocatorTerms | throw (.allocator (.notConfigured address))
  let accruedFee ←
    if !terms.fee.isZero then do
      move { token := nativeAddress, sender, source := sender, destination := allocator,
             amount := terms.fee }
      arith (terms.accruedFee.checkedAdd terms.fee)
    else pure terms.accruedFee
  modify (·.putVault { vault with allocatorTerms := some { terms with accruedFee } })
  if withdrawals.isEmpty then throw (.allocator .emptyWithdrawals)
  let supplyConfig ← enabledConfig address supplyId
  let (allocations, total) ← chargeWithdrawals address supplyId none withdrawals 0
  let caps := supplyConfig.flowCaps.getD .zero
  let maxIn ← lift ((caps.maxIn.checkedSub total).mapError fun _ =>
    .allocator (.maxInflowExceeded supplyId))
  let maxOut ← arith (caps.maxOut.checkedAdd total)
  modify (·.putVaultMarketConfig { supplyConfig with flowCaps := some ⟨maxIn, maxOut⟩ })
  reallocate allocator address (allocations ++ [⟨supplyId, Int256.maxValue⟩])

end LendingSim.Perform
