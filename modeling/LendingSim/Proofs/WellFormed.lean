import Mathlib
import LendingSim.Document.State
import LendingSim.Proofs.Book

/-!
# Well-formed states and what writes do to them

A state keeps its entities in books, and handlers write them only through the `put` functions,
each of which files an entity under the key the entity itself names. A book is well formed when
it is sorted and every entry sits under its entity's key, so that it holds one entity per key; a
state is well formed when all its books are. Every state read from a document is well formed,
and every write keeps it so.

On a well-formed state a read returns an entity of the key it was asked for: the position of a
user on a market is that user's on that market, the holding of a user in a token is theirs in
that token. Writing back what was read therefore replaces exactly that entry. This module states
those facts, and what each write does to the reads later proofs use.
-/

namespace LendingSim

namespace Book

variable {κ α : Type} [BookKey κ]

theorem get?_insert [DecidableEq κ] (b : Book κ α) (key k : κ) (value : α) :
    (b.insert key value).get? k = if k = key then some value else b.get? k := by
  split
  · next h => rw [h, get?_insert_self]
  · next h => exact get?_insert_of_ne b h value

/-- One entry per key, each under the key `key` gives its value. -/
def WellFormed (key : α → κ) (b : Book κ α) : Prop := b.Sorted ∧ b.Keyed key

theorem WellFormed.insert {key : α → κ} {b : Book κ α} (h : b.WellFormed key) (value : α) :
    (b.insert (key value) value).WellFormed key :=
  ⟨h.1.insert _ _, h.2.insert value⟩

/-- What a well-formed book holds at a key, or `default` when it holds nothing there, counted
by a measure that gives `default` nothing. -/
theorem elim_get? {f : α → Nat} {b : Book κ α} {k : κ} {default : α} (hf : f default = 0) :
    (b.get? k).elim 0 f = f ((b.get? k).getD default) := by
  cases b.get? k <;> simp [hf]

end Book

namespace State

/-- Every book holds one entity per key, filed under the key the entity names. -/
structure WellFormed (s : State) : Prop where
  markets : s.markets.WellFormed Market.id
  positions : s.positions.WellFormed fun p => (p.user, p.marketId)
  tokens : s.tokens.WellFormed Token.address
  holdings : s.holdings.WellFormed fun h => (h.user, h.token)
  users : s.users.WellFormed User.address
  vaults : s.vaults.WellFormed Vault.address
  vaultUsers : s.vaultUsers.WellFormed fun u => (u.vault, u.user)
  vaultMarketConfigs : s.vaultMarketConfigs.WellFormed fun c => (c.vault, c.marketId)
  vaultV2s : s.vaultV2s.WellFormed VaultV2.address
  vaultV2Adapters : s.vaultV2Adapters.WellFormed VaultV2Adapter.address

variable {s : State}

theorem new_wellFormed (chain : Chain) (block : Block) (registry : Registry) :
    (State.new chain block registry).WellFormed := by
  exact ⟨⟨Book.sorted_empty, Book.keyed_empty _⟩, ⟨Book.sorted_empty, Book.keyed_empty _⟩,
    ⟨Book.sorted_empty, Book.keyed_empty _⟩, ⟨Book.sorted_empty, Book.keyed_empty _⟩,
    ⟨Book.sorted_empty, Book.keyed_empty _⟩, ⟨Book.sorted_empty, Book.keyed_empty _⟩,
    ⟨Book.sorted_empty, Book.keyed_empty _⟩, ⟨Book.sorted_empty, Book.keyed_empty _⟩,
    ⟨Book.sorted_empty, Book.keyed_empty _⟩, ⟨Book.sorted_empty, Book.keyed_empty _⟩⟩

namespace WellFormed

theorem putMarket (h : s.WellFormed) (m : Market) : (s.putMarket m).WellFormed :=
  { h with markets := h.markets.insert m }

theorem putPosition (h : s.WellFormed) (p : Position) : (s.putPosition p).WellFormed :=
  { h with positions := h.positions.insert p }

theorem putHolding (h : s.WellFormed) (holding : Holding) : (s.putHolding holding).WellFormed :=
  { h with holdings := h.holdings.insert holding }

theorem putUser (h : s.WellFormed) (u : User) : (s.putUser u).WellFormed :=
  { h with users := h.users.insert u }

theorem putVault (h : s.WellFormed) (v : Vault) : (s.putVault v).WellFormed :=
  { h with vaults := h.vaults.insert v }

theorem putVaultUser (h : s.WellFormed) (u : VaultUser) : (s.putVaultUser u).WellFormed :=
  { h with vaultUsers := h.vaultUsers.insert u }

theorem putVaultMarketConfig (h : s.WellFormed) (c : VaultMarketConfig) :
    (s.putVaultMarketConfig c).WellFormed :=
  { h with vaultMarketConfigs := h.vaultMarketConfigs.insert c }

theorem putVaultV2 (h : s.WellFormed) (v : VaultV2) : (s.putVaultV2 v).WellFormed :=
  { h with vaultV2s := h.vaultV2s.insert v }

theorem putVaultV2Adapter (h : s.WellFormed) (a : VaultV2Adapter) :
    (s.putVaultV2Adapter a).WellFormed :=
  { h with vaultV2Adapters := h.vaultV2Adapters.insert a }

/-! ### Reads name their key -/

theorem market_id (h : s.WellFormed) {id : MarketId} {m : Market}
    (hm : s.markets.get? id = some m) : m.id = id :=
  Book.key_of_get? h.markets.2 hm

theorem position_user (h : s.WellFormed) (user : Address) (id : MarketId) :
    (s.position user id).user = user ∧ (s.position user id).marketId = id := by
  unfold State.position
  cases hp : s.positions.get? (user, id) with
  | none => exact ⟨rfl, rfl⟩
  | some p =>
    have hkey := Book.key_of_get? h.positions.2 hp
    simp only [Prod.mk.injEq] at hkey
    exact hkey

theorem holding_user (h : s.WellFormed) (user token : Address) :
    (s.holding user token).user = user ∧ (s.holding user token).token = token := by
  unfold State.holding
  cases hh : s.holdings.get? (user, token) with
  | none => exact ⟨rfl, rfl⟩
  | some holding =>
    have hkey := Book.key_of_get? h.holdings.2 hh
    simp only [Prod.mk.injEq] at hkey
    exact hkey

theorem vaultUser_key (h : s.WellFormed) (vault user : Address) :
    (s.vaultUser vault user).vault = vault ∧ (s.vaultUser vault user).user = user := by
  unfold State.vaultUser
  cases hu : s.vaultUsers.get? (vault, user) with
  | none => exact ⟨rfl, rfl⟩
  | some u =>
    have hkey := Book.key_of_get? h.vaultUsers.2 hu
    simp only [Prod.mk.injEq] at hkey
    exact hkey

theorem user_address (h : s.WellFormed) (address : Address) :
    (s.user address).address = address := by
  unfold State.user
  cases hu : s.users.get? address with
  | none => rfl
  | some u => exact Book.key_of_get? h.users.2 hu

theorem vault_address (h : s.WellFormed) {address : Address} {v : Vault}
    (hv : s.vaults.get? address = some v) : v.address = address :=
  Book.key_of_get? h.vaults.2 hv

theorem vaultV2_address (h : s.WellFormed) {address : Address} {v : VaultV2}
    (hv : s.vaultV2s.get? address = some v) : v.address = address :=
  Book.key_of_get? h.vaultV2s.2 hv

theorem vaultV2Adapter_address (h : s.WellFormed) {address : Address} {a : VaultV2Adapter}
    (ha : s.vaultV2Adapters.get? address = some a) : a.address = address :=
  Book.key_of_get? h.vaultV2Adapters.2 ha

theorem vaultMarketConfig_key (h : s.WellFormed) {vault : Address} {id : MarketId}
    {c : VaultMarketConfig} (hc : s.vaultMarketConfigs.get? (vault, id) = some c) :
    c.vault = vault ∧ c.marketId = id := by
  have hkey := Book.key_of_get? h.vaultMarketConfigs.2 hc
  simp only [Prod.mk.injEq] at hkey
  exact hkey

end WellFormed

/-! ### What a write does to reads -/

theorem markets_putMarket (m : Market) (id : MarketId) :
    (s.putMarket m).markets.get? id = if id = m.id then some m else s.markets.get? id :=
  Book.get?_insert _ _ _ _

theorem position_putPosition (p : Position) (user : Address) (id : MarketId) :
    (s.putPosition p).position user id =
      if (user, id) = (p.user, p.marketId) then p else s.position user id := by
  unfold State.position State.putPosition
  rw [Book.get?_insert]
  split <;> rfl

theorem holding_putHolding (holding : Holding) (user token : Address) :
    (s.putHolding holding).holding user token =
      if (user, token) = (holding.user, holding.token) then holding else s.holding user token := by
  unfold State.holding State.putHolding
  rw [Book.get?_insert]
  split <;> rfl

theorem balanceOf_putHolding (holding : Holding) (user token : Address) :
    (s.putHolding holding).balanceOf user token =
      if (user, token) = (holding.user, holding.token) then holding.balance
      else s.balanceOf user token := by
  unfold State.balanceOf
  rw [holding_putHolding]
  split <;> rfl

theorem vaultUser_putVaultUser (u : VaultUser) (vault user : Address) :
    (s.putVaultUser u).vaultUser vault user =
      if (vault, user) = (u.vault, u.user) then u else s.vaultUser vault user := by
  unfold State.vaultUser State.putVaultUser
  rw [Book.get?_insert]
  split <;> rfl

theorem user_putUser (u : User) (address : Address) :
    (s.putUser u).user address = if address = u.address then u else s.user address := by
  unfold State.user State.putUser
  rw [Book.get?_insert]
  split <;> rfl

theorem vaults_putVault (v : Vault) (address : Address) :
    (s.putVault v).vaults.get? address =
      if address = v.address then some v else s.vaults.get? address :=
  Book.get?_insert _ _ _ _

theorem vaultV2s_putVaultV2 (v : VaultV2) (address : Address) :
    (s.putVaultV2 v).vaultV2s.get? address =
      if address = v.address then some v else s.vaultV2s.get? address :=
  Book.get?_insert _ _ _ _

theorem vaultV2Adapters_putVaultV2Adapter (a : VaultV2Adapter) (address : Address) :
    (s.putVaultV2Adapter a).vaultV2Adapters.get? address =
      if address = a.address then some a else s.vaultV2Adapters.get? address :=
  Book.get?_insert _ _ _ _

/-! ### Reads that fail when nothing is there -/

theorem vault_eq_ok {address : Address} {v : Vault} (h : s.vault address = .ok v) :
    s.vaults.get? address = some v := by
  unfold State.vault at h
  split at h <;> cases h
  assumption

theorem vaultV2_eq_ok {address : Address} {v : VaultV2} (h : s.vaultV2 address = .ok v) :
    s.vaultV2s.get? address = some v := by
  unfold State.vaultV2 at h
  split at h <;> cases h
  assumption

theorem vaultV2Adapter_eq_ok {address : Address} {a : VaultV2Adapter}
    (h : s.vaultV2Adapter address = .ok a) : s.vaultV2Adapters.get? address = some a := by
  unfold State.vaultV2Adapter at h
  split at h <;> cases h
  assumption

/-- The vault asset of an address is read from the two vault books only. -/
theorem vaultAsset?_eq_of {s' : State} (hvaults : ∀ a, (s'.vaults.get? a).map Vault.asset =
      (s.vaults.get? a).map Vault.asset)
    (hvaultV2s : ∀ a, (s'.vaultV2s.get? a).map VaultV2.asset = (s.vaultV2s.get? a).map VaultV2.asset)
    (address : Address) : s'.vaultAsset? address = s.vaultAsset? address := by
  unfold State.vaultAsset?
  have h1 := hvaults address
  have h2 := hvaultV2s address
  cases hv : s.vaults.get? address <;> cases hv' : s'.vaults.get? address <;>
    simp_all

end State

/-- A book read from a document is well formed: it is built by filing each entity under its own
key. -/
theorem Document.bookOfJson_wellFormed {κ α : Type} [BookKey κ] {j : Json} {field : String}
    {decode : Json → Json.Decoded α} {key : α → κ} {b : Book κ α}
    (h : Document.bookOfJson j field decode key = .ok b) : b.WellFormed key := by
  unfold Document.bookOfJson at h
  cases hvalues : Json.withDefault j field (Json.asList decode) [] with
  | error e =>
    rw [hvalues] at h
    cases h
  | ok values =>
    rw [hvalues] at h
    cases h
    exact Book.ofValues_sorted_keyed key values

/-- Every state read from a document is well formed. -/
theorem Document.stateOfJson_wellFormed {j : Json} {s : State}
    (h : Document.stateOfJson j = .ok s) : s.WellFormed := by
  unfold Document.stateOfJson at h
  simp only [bind, Except.bind, pure, Except.pure] at h
  repeat' split at h
  all_goals cases h
  all_goals constructor <;> (apply Document.bookOfJson_wellFormed; assumption)

end LendingSim
