import LendingSim.Json.Decode
import LendingSim.Market.Basic
import LendingSim.Position
import LendingSim.Token
import LendingSim.Holding
import LendingSim.Vault
import LendingSim.Registry

/-!
# Entities as JSON

Each entity is read from and written to a JSON object with camel-case field names. Reading
applies the defaults of the format: a market without `price` or `rateAtTarget` has none, a
holding without allowances has none, a market configuration without `removableAt` has zero.
Writing gives every field, absent optionals as `null`, and a market also gets its `id`.
-/

namespace LendingSim.Document

open Json

/-- Reads market parameters. -/
def marketParamsOfJson (j : Json) : Decoded MarketParams := do
  pure { loanToken := ← required j "loanToken" asAddress
         collateralToken := ← required j "collateralToken" asAddress
         oracle := ← required j "oracle" asAddress
         irm := ← required j "irm" asAddress
         lltv := ← required j "lltv" asUInt256 }

/-- Writes market parameters. -/
def marketParamsToJson (p : MarketParams) : Json :=
  .object [("loanToken", ofAddress p.loanToken), ("collateralToken", ofAddress p.collateralToken),
    ("oracle", ofAddress p.oracle), ("irm", ofAddress p.irm), ("lltv", ofUInt256 p.lltv)]

/-- Reads a market. -/
def marketOfJson (j : Json) : Decoded Market := do
  pure { params := ← required j "params" marketParamsOfJson
         totalSupplyAssets := ← required j "totalSupplyAssets" asUInt256
         totalSupplyShares := ← required j "totalSupplyShares" asUInt256
         totalBorrowAssets := ← required j "totalBorrowAssets" asUInt256
         totalBorrowShares := ← required j "totalBorrowShares" asUInt256
         lastUpdate := ← required j "lastUpdate" asNat
         fee := ← required j "fee" asUInt256
         price := ← optional j "price" asUInt256
         rateAtTarget := ← optional j "rateAtTarget" asUInt256 }

/-- Writes a market with its id. -/
def marketToJson (m : Market) : Json :=
  .object [("id", ofMarketId m.id), ("params", marketParamsToJson m.params),
    ("totalSupplyAssets", ofUInt256 m.totalSupplyAssets),
    ("totalSupplyShares", ofUInt256 m.totalSupplyShares),
    ("totalBorrowAssets", ofUInt256 m.totalBorrowAssets),
    ("totalBorrowShares", ofUInt256 m.totalBorrowShares),
    ("lastUpdate", ofNat m.lastUpdate), ("fee", ofUInt256 m.fee),
    ("price", ofOption ofUInt256 m.price), ("rateAtTarget", ofOption ofUInt256 m.rateAtTarget)]

/-- Reads a position. -/
def positionOfJson (j : Json) : Decoded Position := do
  pure { user := ← required j "user" asAddress
         marketId := ← required j "marketId" asMarketId
         supplyShares := ← required j "supplyShares" asUInt256
         borrowShares := ← required j "borrowShares" asUInt256
         collateral := ← required j "collateral" asUInt256 }

/-- Writes a position. -/
def positionToJson (p : Position) : Json :=
  .object [("user", ofAddress p.user), ("marketId", ofMarketId p.marketId),
    ("supplyShares", ofUInt256 p.supplyShares), ("borrowShares", ofUInt256 p.borrowShares),
    ("collateral", ofUInt256 p.collateral)]

/-- Reads a wrapper rate: `"constant"` (or `{"constant": null}`) or `{"exchangeRate": word}`. -/
def wrapperRateOfJson (j : Json) : Decoded WrapperRate :=
  match j with
  | .string "constant" => .ok .constant
  | _ => match j.soleField? with
    | some ("constant", .null) => .ok .constant
    | some ("exchangeRate", rate) => .exchangeRate <$> asUInt256 rate
    | _ => .error "expected a wrapper rate"

/-- Writes a wrapper rate; an exchange rate is written in hexadecimal (`UInt256.toHex`). -/
def wrapperRateToJson : WrapperRate → Json
  | .constant => .string "constant"
  | .exchangeRate rate => .object [("exchangeRate", .string rate.toHex)]

/-- Reads a wrapper. -/
def wrapperOfJson (j : Json) : Decoded Wrapper := do
  pure { underlying := ← required j "underlying" asAddress
         underlyingDecimals := ← required j "underlyingDecimals" asByte
         erc20Wrapper := ← required j "erc20Wrapper" asBool
         rate := ← required j "rate" wrapperRateOfJson }

/-- Writes a wrapper. -/
def wrapperToJson (w : Wrapper) : Json :=
  .object [("underlying", ofAddress w.underlying), ("underlyingDecimals", ofNat w.underlyingDecimals),
    ("erc20Wrapper", .bool w.erc20Wrapper), ("rate", wrapperRateToJson w.rate)]

/-- Reads a token. -/
def tokenOfJson (j : Json) : Decoded Token := do
  pure { address := ← required j "address" asAddress
         symbol := ← required j "symbol" asString
         decimals := ← required j "decimals" asByte
         wrapper := ← optional j "wrapper" wrapperOfJson }

/-- Writes a token. -/
def tokenToJson (t : Token) : Json :=
  .object [("address", ofAddress t.address), ("symbol", .string t.symbol),
    ("decimals", ofNat t.decimals), ("wrapper", ofOption wrapperToJson t.wrapper)]

/-- Reads the allowances of the named spenders; all three are needed. -/
def allowancesOfJson (j : Json) : Decoded Allowances := do
  pure { morpho := ← required j "morpho" asUInt256
         permit2 := ← required j "permit2" asUInt256
         generalAdapter1 := ← required j "generalAdapter1" asUInt256 }

/-- Writes the allowances of the named spenders. -/
def allowancesToJson (a : Allowances) : Json :=
  .object [("morpho", ofUInt256 a.morpho), ("permit2", ofUInt256 a.permit2),
    ("generalAdapter1", ofUInt256 a.generalAdapter1)]

/-- Reads a permit-router allowance. -/
def routerAllowanceOfJson (j : Json) : Decoded RouterAllowance := do
  pure { amount := ← required j "amount" asUInt256
         expiration := ← required j "expiration" asNat
         nonce := ← required j "nonce" asUInt256 }

/-- Writes a permit-router allowance. -/
def routerAllowanceToJson (a : RouterAllowance) : Json :=
  .object [("amount", ofUInt256 a.amount), ("expiration", ofNat a.expiration),
    ("nonce", ofUInt256 a.nonce)]

/-- Reads the permit-router allowances; both are needed. -/
def routerAllowancesOfJson (j : Json) : Decoded RouterAllowances := do
  pure { morpho := ← required j "morpho" routerAllowanceOfJson
         generalAdapter1 := ← required j "generalAdapter1" routerAllowanceOfJson }

/-- Writes the permit-router allowances. -/
def routerAllowancesToJson (a : RouterAllowances) : Json :=
  .object [("morpho", routerAllowanceToJson a.morpho),
    ("generalAdapter1", routerAllowanceToJson a.generalAdapter1)]

/-- Reads a holding. -/
def holdingOfJson (j : Json) : Decoded Holding := do
  pure { user := ← required j "user" asAddress
         token := ← required j "token" asAddress
         balance := ← required j "balance" asUInt256
         allowances := ← withDefault j "erc20Allowances" allowancesOfJson .zero
         routerAllowances := ← withDefault j "permit2Allowances" routerAllowancesOfJson .zero
         permitNonce := ← optional j "erc2612Nonce" asUInt256
         canTransfer := ← optional j "canTransfer" asBool }

/-- Writes a holding. -/
def holdingToJson (h : Holding) : Json :=
  .object [("user", ofAddress h.user), ("token", ofAddress h.token),
    ("balance", ofUInt256 h.balance), ("erc20Allowances", allowancesToJson h.allowances),
    ("permit2Allowances", routerAllowancesToJson h.routerAllowances),
    ("erc2612Nonce", ofOption ofUInt256 h.permitNonce),
    ("canTransfer", ofOption Json.bool h.canTransfer)]

/-- Reads a user. -/
def userOfJson (j : Json) : Decoded User := do
  pure { address := ← required j "address" asAddress
         isBundlerAuthorized := ← required j "isBundlerAuthorized" asBool
         morphoNonce := ← required j "morphoNonce" asUInt256 }

/-- Writes a user. -/
def userToJson (u : User) : Json :=
  .object [("address", ofAddress u.address), ("isBundlerAuthorized", .bool u.isBundlerAuthorized),
    ("morphoNonce", ofUInt256 u.morphoNonce)]

/-- Reads the public allocator's terms. -/
def allocatorTermsOfJson (j : Json) : Decoded AllocatorTerms := do
  pure { admin := ← required j "admin" asAddress
         fee := ← required j "fee" asUInt256
         accruedFee := ← required j "accruedFee" asUInt256 }

/-- Writes the public allocator's terms. -/
def allocatorTermsToJson (t : AllocatorTerms) : Json :=
  .object [("admin", ofAddress t.admin), ("fee", ofUInt256 t.fee),
    ("accruedFee", ofUInt256 t.accruedFee)]

/-- Reads a vault. -/
def vaultOfJson (j : Json) : Decoded Vault := do
  pure { address := ← required j "address" asAddress
         asset := ← required j "asset" asAddress
         decimalsOffset := ← required j "decimalsOffset" asByte
         owner := ← required j "owner" asAddress
         curator := ← required j "curator" asAddress
         guardian := ← required j "guardian" asAddress
         fee := ← required j "fee" asUInt256
         feeRecipient := ← required j "feeRecipient" asAddress
         supplyQueue := ← required j "supplyQueue" (asList asMarketId)
         withdrawQueue := ← required j "withdrawQueue" (asList asMarketId)
         totalSupply := ← required j "totalSupply" asUInt256
         totalAssets := ← required j "totalAssets" asUInt256
         lastTotalAssets := ← required j "lastTotalAssets" asUInt256
         allocatorTerms := ← optional j "publicAllocatorConfig" allocatorTermsOfJson }

/-- Writes a vault. -/
def vaultToJson (v : Vault) : Json :=
  .object [("address", ofAddress v.address), ("asset", ofAddress v.asset),
    ("decimalsOffset", ofNat v.decimalsOffset), ("owner", ofAddress v.owner),
    ("curator", ofAddress v.curator), ("guardian", ofAddress v.guardian),
    ("fee", ofUInt256 v.fee), ("feeRecipient", ofAddress v.feeRecipient),
    ("supplyQueue", .array (v.supplyQueue.map ofMarketId)),
    ("withdrawQueue", .array (v.withdrawQueue.map ofMarketId)),
    ("totalSupply", ofUInt256 v.totalSupply), ("totalAssets", ofUInt256 v.totalAssets),
    ("lastTotalAssets", ofUInt256 v.lastTotalAssets),
    ("publicAllocatorConfig", ofOption allocatorTermsToJson v.allocatorTerms)]

/-- Reads a vault user. -/
def vaultUserOfJson (j : Json) : Decoded VaultUser := do
  pure { vault := ← required j "vault" asAddress
         user := ← required j "user" asAddress
         isAllocator := ← required j "isAllocator" asBool
         allowance := ← required j "allowance" asUInt256 }

/-- Writes a vault user. -/
def vaultUserToJson (u : VaultUser) : Json :=
  .object [("vault", ofAddress u.vault), ("user", ofAddress u.user),
    ("isAllocator", .bool u.isAllocator), ("allowance", ofUInt256 u.allowance)]

/-- Reads flow caps. -/
def flowCapsOfJson (j : Json) : Decoded FlowCaps := do
  pure { maxIn := ← required j "maxIn" asUInt256, maxOut := ← required j "maxOut" asUInt256 }

/-- Writes flow caps. -/
def flowCapsToJson (c : FlowCaps) : Json :=
  .object [("maxIn", ofUInt256 c.maxIn), ("maxOut", ofUInt256 c.maxOut)]

/-- Reads a vault's market configuration. -/
def vaultMarketConfigOfJson (j : Json) : Decoded VaultMarketConfig := do
  pure { vault := ← required j "vault" asAddress
         marketId := ← required j "marketId" asMarketId
         cap := ← required j "cap" asUInt256
         enabled := ← required j "enabled" asBool
         removableAt := ← withDefault j "removableAt" asNat 0
         flowCaps := ← optional j "publicAllocatorConfig" flowCapsOfJson }

/-- Writes a vault's market configuration. -/
def vaultMarketConfigToJson (c : VaultMarketConfig) : Json :=
  .object [("vault", ofAddress c.vault), ("marketId", ofMarketId c.marketId),
    ("cap", ofUInt256 c.cap), ("enabled", .bool c.enabled), ("removableAt", ofNat c.removableAt),
    ("publicAllocatorConfig", ofOption flowCapsToJson c.flowCaps)]

/-- Reads a second-kind vault. -/
def vaultV2OfJson (j : Json) : Decoded VaultV2 := do
  pure { address := ← required j "address" asAddress
         asset := ← required j "asset" asAddress
         decimalsOffset := ← required j "decimalsOffset" asByte
         totalSupply := ← required j "totalSupply" asUInt256
         totalAssets := ← required j "totalAssets" asUInt256
         liquidityAdapter := ← optional j "liquidityAdapter" asAddress
         lastUpdate := ← required j "lastUpdate" asNat }

/-- Writes a second-kind vault. -/
def vaultV2ToJson (v : VaultV2) : Json :=
  .object [("address", ofAddress v.address), ("asset", ofAddress v.asset),
    ("decimalsOffset", ofNat v.decimalsOffset), ("totalSupply", ofUInt256 v.totalSupply),
    ("totalAssets", ofUInt256 v.totalAssets),
    ("liquidityAdapter", ofOption ofAddress v.liquidityAdapter),
    ("lastUpdate", ofNat v.lastUpdate)]

/-- Reads a liquidity adapter. -/
def vaultV2AdapterOfJson (j : Json) : Decoded VaultV2Adapter := do
  pure { address := ← required j "address" asAddress
         parentVault := ← required j "parentVault" asAddress
         realAssets := ← required j "realAssets" asUInt256 }

/-- Writes a liquidity adapter. -/
def vaultV2AdapterToJson (a : VaultV2Adapter) : Json :=
  .object [("address", ofAddress a.address), ("parentVault", ofAddress a.parentVault),
    ("realAssets", ofUInt256 a.realAssets)]

/-- The fields of a registry, in the order of its positional form. -/
def registryKeys : List String :=
  ["morpho", "permit2", "bundler3", "generalAdapter1", "publicAllocator", "dai"]

/-- Reads an optional address: `null` is none. -/
def optionalAddress (tail : Tail) : Json → Decoded (Option Address)
  | .null => .ok none
  | j => some <$> asAddressWith tail j

/-- Reads an address registry from an object of its fields, or from an array of five or six
addresses in the order of `registryKeys`, where a missing sixth means no `dai`; `tail` is what
may follow the bytes of an address given as an array. -/
def registryWith (tail : Tail) (j : Json) : Decoded Registry := do
  let address := asAddressWith tail
  match j with
  | .array [morpho, permit2, bundler3, adapter, allocator] =>
    pure ⟨← address morpho, ← address permit2, ← address bundler3, ← address adapter,
      ← address allocator, none⟩
  | .array [morpho, permit2, bundler3, adapter, allocator, dai] =>
    pure ⟨← address morpho, ← address permit2, ← address bundler3, ← address adapter,
      ← address allocator, ← optionalAddress tail dai⟩
  | .array _ => throw "expected five or six addresses"
  | _ =>
    pure { morpho := ← required j "morpho" address
           permit2 := ← required j "permit2" address
           bundler3 := ← required j "bundler3" address
           generalAdapter1 := ← required j "generalAdapter1" address
           publicAllocator := ← required j "publicAllocator" address
           dai := ← withDefault j "dai" (optionalAddress tail) none }

/-- Reads an address registry in a request. -/
def registryOfJson (j : Json) : Decoded Registry := registryWith .anyItem j

/-- Reads a registry document, which is read while it is parsed: no field of the registry may
be given twice, and only a scalar may follow the bytes of an address given as an array. -/
def registryOfDocument (j : Json) : Decoded Registry := do
  if let .object fields := j then
    if let some key := repeatedKey? registryKeys fields then
      throw ("duplicate field " ++ key)
  registryWith .scalarOnly j

/-- Writes an address registry. -/
def registryToJson (r : Registry) : Json :=
  .object [("morpho", ofAddress r.morpho), ("permit2", ofAddress r.permit2),
    ("bundler3", ofAddress r.bundler3), ("generalAdapter1", ofAddress r.generalAdapter1),
    ("publicAllocator", ofAddress r.publicAllocator), ("dai", ofOption ofAddress r.dai)]

end LendingSim.Document
