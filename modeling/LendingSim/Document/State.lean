import LendingSim.Document.Entities
import LendingSim.State

/-!
# States as JSON

A state document gives the chain id, the block, the registry, optionally the fee recipient under
`global`, and a list per kind of entity; a missing list is empty, and of two entries with the
same key the later one wins. A snapshot writes the nine books that simulations change, each as
the list of its entities in key order.
-/

namespace LendingSim.Document

open Json

/-- Reads a block. -/
def blockOfJson (j : Json) : Decoded Block := do
  pure { number := ← required j "number" asNat, timestamp := ← required j "timestamp" asNat }

/-- Writes a block. -/
def blockToJson (b : Block) : Json :=
  .object [("number", ofNat b.number), ("timestamp", ofNat b.timestamp)]

/-- Reads the book of a list of self-keyed entities; absent is empty. -/
def bookOfJson {κ α : Type} [BookKey κ] (j : Json) (field : String) (decode : Json → Decoded α)
    (key : α → κ) : Decoded (Book κ α) := do
  let values ← withDefault j field (asList decode) []
  pure (Book.ofValues key values)

/-- Reads a state. -/
def stateOfJson (j : Json) : Decoded State := do
  let global ← optional j "global" pure
  let feeRecipient ← match global with
    | some g => withDefault g "feeRecipient" asAddress .zero
    | none => pure .zero
  pure { chainId := ← required j "chainId" asNat
         block := ← required j "block" blockOfJson
         registry := ← required j "registry" registryOfJson
         feeRecipient
         markets := ← bookOfJson j "markets" marketOfJson Market.id
         positions := ← bookOfJson j "positions" positionOfJson fun p => (p.user, p.marketId)
         tokens := ← bookOfJson j "tokens" tokenOfJson Token.address
         holdings := ← bookOfJson j "holdings" holdingOfJson fun h => (h.user, h.token)
         users := ← bookOfJson j "users" userOfJson User.address
         vaults := ← bookOfJson j "vaults" vaultOfJson Vault.address
         vaultUsers := ← bookOfJson j "vaultUsers" vaultUserOfJson fun u => (u.vault, u.user)
         vaultMarketConfigs := ← bookOfJson j "vaultMarketConfigs" vaultMarketConfigOfJson
           fun c => (c.vault, c.marketId)
         vaultV2s := ← bookOfJson j "vaultV2s" vaultV2OfJson VaultV2.address
         vaultV2Adapters := ← bookOfJson j "vaultV2Adapters" vaultV2AdapterOfJson
           VaultV2Adapter.address }

/-- Writes the books a simulation changes, each in key order. -/
def snapshotToJson (s : State) : Json :=
  .object [("holdings", .array (s.holdings.values.map holdingToJson)),
    ("markets", .array (s.markets.values.map marketToJson)),
    ("positions", .array (s.positions.values.map positionToJson)),
    ("users", .array (s.users.values.map userToJson)),
    ("vaultMarketConfigs", .array (s.vaultMarketConfigs.values.map vaultMarketConfigToJson)),
    ("vaultUsers", .array (s.vaultUsers.values.map vaultUserToJson)),
    ("vaultV2Adapters", .array (s.vaultV2Adapters.values.map vaultV2AdapterToJson)),
    ("vaultV2s", .array (s.vaultV2s.values.map vaultV2ToJson)),
    ("vaults", .array (s.vaults.values.map vaultToJson))]

end LendingSim.Document
