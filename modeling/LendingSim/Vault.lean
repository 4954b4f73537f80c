import LendingSim.Address
import LendingSim.Shares

/-!
# Vaults

A vault pools one asset and lends it on the core markets listed in its queues: deposits go to
the markets of the supply queue up to their caps, withdrawals come from the markets of the
withdraw queue. Its shares are a token at the vault's own address, priced with
`10 ^ decimalsOffset` virtual shares. Each market has a per-vault configuration (cap, whether it
is enabled, flow caps of the public allocator), and each user a per-vault allocator flag and
share allowance. A second kind of vault, `VaultV2`, holds its asset idle or in one liquidity
adapter.
-/

namespace LendingSim

/-- The public allocator's terms on a vault: who administers it, the native fee per call and
the fees collected so far. -/
structure AllocatorTerms where
  admin : Address
  fee : UInt256
  accruedFee : UInt256
  deriving DecidableEq

/-- A vault. -/
structure Vault where
  address : Address
  asset : Address
  decimalsOffset : Nat
  owner : Address
  curator : Address
  guardian : Address
  /-- The performance fee, scaled by `10 ^ 18`. -/
  fee : UInt256
  feeRecipient : Address
  supplyQueue : List MarketId
  withdrawQueue : List MarketId
  totalSupply : UInt256
  totalAssets : UInt256
  lastTotalAssets : UInt256
  allocatorTerms : Option AllocatorTerms
  deriving DecidableEq

namespace Vault

/-- A vault with no roles, fee, queues or totals. -/
def new (address asset : Address) (decimalsOffset : Nat) : Vault :=
  { address, asset, decimalsOffset, owner := .zero, curator := .zero, guardian := .zero,
    fee := 0, feeRecipient := .zero, supplyQueue := [], withdrawQueue := [], totalSupply := 0,
    totalAssets := 0, lastTotalAssets := 0, allocatorTerms := none }

/-- `10 ^ decimalsOffset`, the vault's virtual shares. -/
def virtualShares (v : Vault) : UInt256 := Shares.virtualSharesOfOffset v.decimalsOffset

/-- The shares worth `assets`. -/
def toShares (v : Vault) (assets : UInt256) (rounding : Rounding) : Except ArithError UInt256 :=
  Shares.toShares assets v.totalAssets v.totalSupply v.virtualShares rounding

/-- The assets worth `shares`. -/
def toAssets (v : Vault) (shares : UInt256) (rounding : Rounding) : Except ArithError UInt256 :=
  Shares.toAssets shares v.totalAssets v.totalSupply v.virtualShares rounding

/-- Whether `user` is the owner or the curator. -/
def isManager (v : Vault) (user : Address) : Bool := user == v.owner || user == v.curator

end Vault

/-- A user's standing with a vault. -/
structure VaultUser where
  vault : Address
  user : Address
  isAllocator : Bool
  /-- What the vault may pull from the user's assets on deposit. -/
  allowance : UInt256
  deriving DecidableEq

/-- A user with no role and no allowance. -/
def VaultUser.new (vault user : Address) : VaultUser :=
  { vault, user, isAllocator := false, allowance := 0 }

/-- How much the public allocator may still move into and out of a market. -/
structure FlowCaps where
  maxIn : UInt256
  maxOut : UInt256
  deriving DecidableEq

/-- No flow in either direction. -/
def FlowCaps.zero : FlowCaps := ⟨0, 0⟩

/-- A vault's configuration of one market. -/
structure VaultMarketConfig where
  vault : Address
  marketId : MarketId
  cap : UInt256
  enabled : Bool
  removableAt : Nat
  flowCaps : Option FlowCaps
  deriving DecidableEq

/-- An enabled market with a cap and no flow caps. -/
def VaultMarketConfig.new (vault : Address) (marketId : MarketId) (cap : UInt256) :
    VaultMarketConfig :=
  { vault, marketId, cap, enabled := true, removableAt := 0, flowCaps := none }

/-- A vault of the second kind: its asset is idle or in its liquidity adapter. -/
structure VaultV2 where
  address : Address
  asset : Address
  decimalsOffset : Nat
  totalSupply : UInt256
  totalAssets : UInt256
  liquidityAdapter : Option Address
  lastUpdate : Nat
  deriving DecidableEq

namespace VaultV2

/-- A vault with empty totals and no adapter. -/
def new (address asset : Address) (decimalsOffset lastUpdate : Nat) : VaultV2 :=
  { address, asset, decimalsOffset, totalSupply := 0, totalAssets := 0, liquidityAdapter := none,
    lastUpdate }

/-- The shares worth `assets`. -/
def toShares (v : VaultV2) (assets : UInt256) (rounding : Rounding) : Except ArithError UInt256 :=
  Shares.toShares assets v.totalAssets v.totalSupply
    (Shares.virtualSharesOfOffset v.decimalsOffset) rounding

/-- The assets worth `shares`. -/
def toAssets (v : VaultV2) (shares : UInt256) (rounding : Rounding) : Except ArithError UInt256 :=
  Shares.toAssets shares v.totalAssets v.totalSupply
    (Shares.virtualSharesOfOffset v.decimalsOffset) rounding

end VaultV2

/-- Where a second-kind vault places its asset, and how much it holds there. -/
structure VaultV2Adapter where
  address : Address
  parentVault : Address
  realAssets : UInt256
  deriving DecidableEq

/-- An adapter holding nothing. -/
def VaultV2Adapter.new (address parentVault : Address) : VaultV2Adapter :=
  { address, parentVault, realAssets := 0 }

end LendingSim
