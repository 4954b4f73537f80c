import LendingSim.Book
import LendingSim.Chain
import LendingSim.Failure
import LendingSim.Holding
import LendingSim.Market.Update
import LendingSim.Position
import LendingSim.Registry
import LendingSim.Token
import LendingSim.Vault

/-!
# The simulation state

Everything a simulation reads and writes: the chain, the block, the address registry, the fee
recipient of the core contract, and one book per kind of entity. Positions, holdings, users and
vault users that the state does not hold read as empty ones; markets, tokens, vaults, vault
market configurations, second-kind vaults and adapters must be there, and reading a missing one
fails. Reading never writes: an entity enters its book when an operation puts it there.

Handlers run in `Sim`, a computation over the state that may fail. A failed computation leaves
no state behind, so an action that fails commits nothing.
-/

namespace LendingSim

/-- The block the simulation runs at. -/
structure Block where
  number : Nat
  timestamp : Nat
  deriving DecidableEq

/-- The state of a simulation. -/
structure State where
  chainId : Nat
  block : Block
  registry : Registry
  /-- Who receives the core contract's fee shares. -/
  feeRecipient : Address
  markets : Book MarketId Market
  positions : Book (Address × MarketId) Position
  tokens : Book Address Token
  holdings : Book (Address × Address) Holding
  users : Book Address User
  vaults : Book Address Vault
  vaultUsers : Book (Address × Address) VaultUser
  vaultMarketConfigs : Book (Address × MarketId) VaultMarketConfig
  vaultV2s : Book Address VaultV2
  vaultV2Adapters : Book Address VaultV2Adapter
  deriving DecidableEq

namespace State

/-- A state on `chain` at `block` with empty books and the zero fee recipient. -/
def new (chain : Chain) (block : Block) (registry : Registry) : State :=
  { chainId := chain.id, block, registry, feeRecipient := .zero, markets := .empty,
    positions := .empty, tokens := .empty, holdings := .empty, users := .empty, vaults := .empty,
    vaultUsers := .empty, vaultMarketConfigs := .empty, vaultV2s := .empty,
    vaultV2Adapters := .empty }

/-- The state with the balance of the holding of `user` in `token` set to `balance`, when that
holding exists; no holding is created. -/
def setBalance (s : State) (user token : Address) (balance : UInt256) : State :=
  { s with holdings := s.holdings.modify (user, token) fun h => { h with balance } }

/-- The chain of the state, if known. -/
def chain? (s : State) : Option Chain := Chain.ofId? s.chainId

/-- The market with id `id`, accrued to the block's time when `accrue` is set. -/
def getMarket (s : State) (id : MarketId) (accrue : Bool) : Except Fault Market :=
  match s.markets.get? id with
  | none => .error (.missing (.market id))
  | some m =>
    if accrue then (m.accrued s.block.timestamp).mapError .market else .ok m

/-- The position of `user` on market `id`, empty when the state has none. -/
def position (s : State) (user : Address) (id : MarketId) : Position :=
  (s.positions.get? (user, id)).getD (Position.empty user id)

/-- The token at `address`. -/
def token (s : State) (address : Address) : Except Fault Token :=
  match s.tokens.get? address with
  | some t => .ok t
  | none => .error (.missing (.token address))

/-- What `user` has of `token`, empty when the state has nothing. -/
def holding (s : State) (user token : Address) : Holding :=
  (s.holdings.get? (user, token)).getD (Holding.empty user token)

/-- The balance of `user` in `token`. -/
def balanceOf (s : State) (user token : Address) : UInt256 := (s.holding user token).balance

/-- The user at `address`, fresh when the state has none. -/
def user (s : State) (address : Address) : User := (s.users.get? address).getD (User.new address)

/-- The vault at `address`. -/
def vault (s : State) (address : Address) : Except Fault Vault :=
  match s.vaults.get? address with
  | some v => .ok v
  | none => .error (.missing (.vault address))

/-- The standing of `user` with `vault`, fresh when the state has none. -/
def vaultUser (s : State) (vault user : Address) : VaultUser :=
  (s.vaultUsers.get? (vault, user)).getD (VaultUser.new vault user)

/-- The configuration of market `id` on `vault`. -/
def vaultMarketConfig (s : State) (vault : Address) (id : MarketId) :
    Except Fault VaultMarketConfig :=
  match s.vaultMarketConfigs.get? (vault, id) with
  | some c => .ok c
  | none => .error (.missing (.vaultMarketConfig vault id))

/-- The second-kind vault at `address`. -/
def vaultV2 (s : State) (address : Address) : Except Fault VaultV2 :=
  match s.vaultV2s.get? address with
  | some v => .ok v
  | none => .error (.missing (.vaultV2 address))

/-- The liquidity adapter at `address`. -/
def vaultV2Adapter (s : State) (address : Address) : Except Fault VaultV2Adapter :=
  match s.vaultV2Adapters.get? address with
  | some a => .ok a
  | none => .error (.missing (.vaultV2Adapter address))

/-- The asset of the vault at `address`, of either kind. -/
def vaultAsset? (s : State) (address : Address) : Option Address :=
  match s.vaults.get? address with
  | some v => some v.asset
  | none => (s.vaultV2s.get? address).map (·.asset)

/-- Whether `user` lets the core contract pull its tokens without an allowance: the general
adapter and every vault do. -/
def approvesMorpho (s : State) (user : Address) : Bool :=
  user == s.registry.generalAdapter1 || (s.vaultAsset? user).isSome

/-- The state with the market put under its id. -/
def putMarket (s : State) (m : Market) : State := { s with markets := s.markets.insert m.id m }

/-- The state with the position put under its user and market. -/
def putPosition (s : State) (p : Position) : State :=
  { s with positions := s.positions.insert (p.user, p.marketId) p }

/-- The state with the holding put under its user and token. -/
def putHolding (s : State) (h : Holding) : State :=
  { s with holdings := s.holdings.insert (h.user, h.token) h }

/-- The state with the user put under its address. -/
def putUser (s : State) (u : User) : State := { s with users := s.users.insert u.address u }

/-- The state with the vault put under its address. -/
def putVault (s : State) (v : Vault) : State := { s with vaults := s.vaults.insert v.address v }

/-- The state with the vault user put under its vault and user. -/
def putVaultUser (s : State) (u : VaultUser) : State :=
  { s with vaultUsers := s.vaultUsers.insert (u.vault, u.user) u }

/-- The state with the configuration put under its vault and market. -/
def putVaultMarketConfig (s : State) (c : VaultMarketConfig) : State :=
  { s with vaultMarketConfigs := s.vaultMarketConfigs.insert (c.vault, c.marketId) c }

/-- The state with the second-kind vault put under its address. -/
def putVaultV2 (s : State) (v : VaultV2) : State :=
  { s with vaultV2s := s.vaultV2s.insert v.address v }

/-- The state with the adapter put under its address. -/
def putVaultV2Adapter (s : State) (a : VaultV2Adapter) : State :=
  { s with vaultV2Adapters := s.vaultV2Adapters.insert a.address a }

end State

/-- A computation over the simulation state that may fail; a failure keeps no state. -/
abbrev Sim (α : Type) := StateT State (Except Fault) α

namespace Sim

/-- A result computed without the state. -/
def lift {α : Type} : Except Fault α → Sim α
  | .ok a => pure a
  | .error e => throw e

/-- An arithmetic result; its failure is a bare arithmetic fault. -/
def arith {α : Type} (x : Except ArithError α) : Sim α := lift (x.mapError .arith)

/-- Accrues market `id` to the block's time and stores it; the fee shares it mints go to the
fee recipient's supply position. Returns the accrued market. -/
def accrueMarket (id : MarketId) : Sim Market := do
  let s ← get
  let market ← lift (s.getMarket id false)
  let (accrual, accrued) ← lift (((Market.accrue s.block.timestamp).apply market).mapError .market)
  if !accrual.feeShares.isZero then
    let position := s.position s.feeRecipient id
    let supplyShares ← arith (position.supplyShares.checkedAdd accrual.feeShares)
    modify (·.putPosition { position with supplyShares })
  modify (·.putMarket accrued)
  return accrued

end Sim

end LendingSim
