import LendingSim.Document.Entities
import LendingSim.Action
import LendingSim.Bytes

/-!
# Actions as JSON

An action document is `{"sender", "address", "type", "args"}`, where `type` is the operation's
tag and `args` its arguments; the two vault accruals have no arguments, and a reallocation's
arguments are a bare list of allocations. Market flows default their assets and shares to zero,
and a sell does not sell the entire balance unless it says so. Callbacks are action documents
nested in the arguments; reading them is bounded by the nesting depth of the document. Written
actions carry every optional field, `null` when absent.
-/

namespace LendingSim.Document

open Json

mutual

/-- The nesting depth of a value: one more than its deepest item or field. -/
def depth : Json → Nat
  | .array items => depthItems items + 1
  | .object fields => depthFields fields + 1
  | _ => 0

/-- The greatest depth of the items. -/
def depthItems : List Json → Nat
  | [] => 0
  | item :: rest => max (depth item) (depthItems rest)

/-- The greatest depth of the field values. -/
def depthFields : List (String × Json) → Nat
  | [] => 0
  | (_, value) :: rest => max (depth value) (depthFields rest)

end

/-- Reads a market flow's arguments, with its callback read by `nested`. -/
def marketRequestOfJson (j : Json) : Decoded MarketRequest := do
  pure { id := ← required j "id" asMarketId
         assets := ← withDefault j "assets" asInt256 0
         shares := ← withDefault j "shares" asInt256 0
         onBehalf := ← required j "onBehalf" asAddress
         receiver := ← optional j "receiver" asAddress
         slippage := ← optional j "slippage" asInt256 }

/-- Reads collateral arguments. -/
def collateralRequestOfJson (j : Json) : Decoded CollateralRequest := do
  pure { id := ← required j "id" asMarketId
         assets := ← required j "assets" asInt256
         onBehalf := ← required j "onBehalf" asAddress
         receiver := ← optional j "receiver" asAddress }

/-- Reads transfer arguments. -/
def transferRequestOfJson (j : Json) : Decoded TransferRequest := do
  pure { amount := ← required j "amount" asInt256
         source := ← required j "from" asAddress
         destination := ← required j "to" asAddress }

/-- Reads an allocation. -/
def allocationOfJson (j : Json) : Decoded Allocation := do
  pure { id := ← required j "id" asMarketId, assets := ← required j "assets" asInt256 }

/-- Reads swap amounts: explicit, or words of a payload. -/
def swapAmountsOfJson (j : Json) : Decoded SwapAmounts := do
  match j.soleField? with
  | some ("explicit", e) =>
    pure (.explicit (← required e "amount" asInt256) (← required e "quoted_amount" asInt256))
  | some ("payload", p) =>
    let data ← required p "data" asBytes
    let offsets ← required p "offsets" pure
    pure (.payload data (← required offsets "exactAmount" asNat)
      (← required offsets "quotedAmount" asNat))
  | _ => throw "expected swap amounts"

/-- Reads swap arguments. -/
def swapRequestOfJson (j : Json) : Decoded SwapRequest := do
  pure { srcToken := ← required j "srcToken" asAddress
         dstToken := ← required j "dstToken" asAddress
         amounts := ← required j "amounts" swapAmountsOfJson
         receiver := ← required j "receiver" asAddress
         slippage := ← optional j "slippage" asInt256
         sellEntireBalance := ← withDefault j "sellEntireBalance" asBool false }

/-- Reads deposit arguments. -/
def depositRequestOfJson (j : Json) : Decoded DepositRequest := do
  pure { assets := ← withDefault j "assets" asInt256 0
         shares := ← withDefault j "shares" asInt256 0
         owner := ← required j "owner" asAddress
         slippage := ← optional j "slippage" asInt256 }

/-- Reads vault withdrawal arguments. -/
def redeemRequestOfJson (j : Json) : Decoded RedeemRequest := do
  pure { assets := ← withDefault j "assets" asInt256 0
         shares := ← withDefault j "shares" asInt256 0
         owner := ← required j "owner" asAddress
         receiver := ← required j "receiver" asAddress
         slippage := ← optional j "slippage" asInt256 }

/-- Reads the operation tagged `tag` from its arguments; `nested` reads callbacks. -/
def operationOfJson (tag : String) (args : Json)
    (nested : Json → Decoded (Option (List Action))) : Decoded Operation := do
  let callback := fun (_ : Unit) => nested args
  match tag with
  | "Blue_Supply" => return .supply (← marketRequestOfJson args) (← callback ())
  | "Blue_Withdraw" => return .withdraw (← marketRequestOfJson args) (← callback ())
  | "Blue_Borrow" => return .borrow (← marketRequestOfJson args) (← callback ())
  | "Blue_Repay" => return .repay (← marketRequestOfJson args) (← callback ())
  | "Blue_SupplyCollateral" =>
    return .supplyCollateral (← collateralRequestOfJson args) (← callback ())
  | "Blue_WithdrawCollateral" =>
    return .withdrawCollateral (← collateralRequestOfJson args) (← callback ())
  | "Blue_FlashLoan" =>
    return .flashLoan (← required args "token" asAddress) (← required args "assets" asInt256)
      (← callback ())
  | "Blue_AccrueInterest" => return .accrueInterest (← required args "id" asMarketId)
  | "Blue_SetAuthorization" =>
    return .setAuthorization (← required args "owner" asAddress)
      (← required args "isBundlerAuthorized" asBool)
  | "Erc20_Transfer" => return .transfer (← transferRequestOfJson args)
  | "Erc20_Transfer2" => return .routerTransfer (← transferRequestOfJson args)
  | "Erc20_Approve" =>
    return .approve (← required args "spender" asAddress) (← required args "amount" asInt256)
  | "Erc20_Permit" =>
    return .permit { spender := ← required args "spender" asAddress
                     amount := ← required args "amount" asInt256
                     nonce := ← required args "nonce" asUInt256
                     deadline := ← optional args "deadline" asNat }
  | "Erc20_Permit2" =>
    return .routerPermit { spender := ← required args "spender" asAddress
                           amount := ← required args "amount" asInt256
                           expiration := ← required args "expiration" asNat
                           nonce := ← required args "nonce" asUInt256 }
  | "Erc20_Wrap" =>
    return .wrap { amount := ← required args "amount" asInt256
                   owner := ← required args "owner" asAddress
                   slippage := ← optional args "slippage" asInt256 }
  | "Erc20_Unwrap" =>
    return .unwrap { amount := ← required args "amount" asInt256
                     receiver := ← required args "receiver" asAddress
                     slippage := ← optional args "slippage" asInt256 }
  | "MetaMorpho_AccrueInterest" => return .vaultAccrueInterest
  | "MetaMorpho_Deposit" => return .vaultDeposit (← depositRequestOfJson args)
  | "MetaMorpho_Withdraw" => return .vaultWithdraw (← redeemRequestOfJson args)
  | "MetaMorpho_Reallocate" => return .reallocate (← asList allocationOfJson args)
  | "MetaMorpho_PublicReallocate" =>
    return .publicReallocate (← required args "withdrawals" (asList allocationOfJson))
      (← required args "supplyMarketId" asMarketId)
  | "VaultV2_AccrueInterest" => return .vaultV2AccrueInterest
  | "VaultV2_Deposit" => return .vaultV2Deposit (← depositRequestOfJson args)
  | "VaultV2_Withdraw" => return .vaultV2Withdraw (← redeemRequestOfJson args)
  | "Paraswap_Buy" => return .swapBuy (← swapRequestOfJson args)
  | "Paraswap_Sell" => return .swapSell (← swapRequestOfJson args)
  | other => throw ("unknown action type " ++ other)

/-- Reads an action whose callbacks nest at most `fuel` levels. -/
def actionOfJsonWithin : Nat → Json → Decoded Action
  | 0, _ => .error "actions nested too deeply"
  | fuel + 1, j => do
    let nested (args : Json) : Decoded (Option (List Action)) :=
      optional args "callback" (asList (actionOfJsonWithin fuel))
    pure (.mk (← required j "sender" asAddress) (← required j "address" asAddress)
      (← operationOfJson (← required j "type" asString) (j.fieldOrNull "args") nested))

/-- Reads an action with its nested callbacks. -/
def actionOfJson (j : Json) : Decoded Action := actionOfJsonWithin (depth j + 1) j

/-- A signed word as its decimal numeral. -/
def ofInt256 (x : Int256) : Json := .string x.toDecimal

/-- Writes a market flow's arguments, without the callback. -/
def marketRequestFields (r : MarketRequest) : List (String × Json) :=
  [("id", ofMarketId r.id), ("assets", ofInt256 r.assets), ("shares", ofInt256 r.shares),
    ("onBehalf", ofAddress r.onBehalf), ("receiver", ofOption ofAddress r.receiver),
    ("slippage", ofOption ofInt256 r.slippage)]

/-- Writes collateral arguments, without the callback. -/
def collateralRequestFields (r : CollateralRequest) : List (String × Json) :=
  [("id", ofMarketId r.id), ("assets", ofInt256 r.assets), ("onBehalf", ofAddress r.onBehalf),
    ("receiver", ofOption ofAddress r.receiver)]

/-- Writes transfer arguments. -/
def transferRequestToJson (r : TransferRequest) : Json :=
  .object [("amount", ofInt256 r.amount), ("from", ofAddress r.source),
    ("to", ofAddress r.destination)]

/-- Writes an allocation. -/
def allocationToJson (a : Allocation) : Json :=
  .object [("id", ofMarketId a.id), ("assets", ofInt256 a.assets)]

/-- Writes swap amounts. -/
def swapAmountsToJson : SwapAmounts → Json
  | .explicit amount quotedAmount =>
    .object [("explicit",
      .object [("amount", ofInt256 amount), ("quoted_amount", ofInt256 quotedAmount)])]
  | .payload data exactOffset quotedOffset =>
    .object [("payload", .object [("data", .string (Bytes.toHex data)),
      ("offsets", .object [("exactAmount", ofNat exactOffset), ("quotedAmount", ofNat quotedOffset)])])]

/-- Writes swap arguments. -/
def swapRequestToJson (r : SwapRequest) : Json :=
  .object [("srcToken", ofAddress r.srcToken), ("dstToken", ofAddress r.dstToken),
    ("amounts", swapAmountsToJson r.amounts), ("receiver", ofAddress r.receiver),
    ("slippage", ofOption ofInt256 r.slippage), ("sellEntireBalance", .bool r.sellEntireBalance)]

/-- Writes deposit arguments. -/
def depositRequestToJson (r : DepositRequest) : Json :=
  .object [("assets", ofInt256 r.assets), ("shares", ofInt256 r.shares),
    ("owner", ofAddress r.owner), ("slippage", ofOption ofInt256 r.slippage)]

/-- Writes vault withdrawal arguments. -/
def redeemRequestToJson (r : RedeemRequest) : Json :=
  .object [("assets", ofInt256 r.assets), ("shares", ofInt256 r.shares),
    ("owner", ofAddress r.owner), ("receiver", ofAddress r.receiver),
    ("slippage", ofOption ofInt256 r.slippage)]

mutual

/-- Writes an action with its nested callbacks. -/
def actionToJson : Action → Json
  | .mk sender target op =>
    let head := [("sender", ofAddress sender), ("address", ofAddress target),
      ("type", .string op.name)]
    match operationArgs op with
    | some args => .object (head ++ [("args", args)])
    | none => .object head

/-- The arguments of an operation; `none` for the two vault accruals, which take none. -/
def operationArgs : Operation → Option Json
  | .supply r callback | .withdraw r callback | .borrow r callback | .repay r callback =>
    some (.object (marketRequestFields r ++ [("callback", callbackToJson callback)]))
  | .supplyCollateral r callback | .withdrawCollateral r callback =>
    some (.object (collateralRequestFields r ++ [("callback", callbackToJson callback)]))
  | .flashLoan token assets callback =>
    some (.object [("token", ofAddress token), ("assets", ofInt256 assets),
      ("callback", callbackToJson callback)])
  | .accrueInterest id => some (.object [("id", ofMarketId id)])
  | .setAuthorization owner authorized =>
    some (.object [("owner", ofAddress owner), ("isBundlerAuthorized", .bool authorized)])
  | .transfer r | .routerTransfer r => some (transferRequestToJson r)
  | .approve spender amount =>
    some (.object [("spender", ofAddress spender), ("amount", ofInt256 amount)])
  | .permit r =>
    some (.object [("spender", ofAddress r.spender), ("amount", ofInt256 r.amount),
      ("nonce", ofUInt256 r.nonce), ("deadline", ofOption ofNat r.deadline)])
  | .routerPermit r =>
    some (.object [("spender", ofAddress r.spender), ("amount", ofInt256 r.amount),
      ("expiration", ofNat r.expiration), ("nonce", ofUInt256 r.nonce)])
  | .wrap r =>
    some (.object [("amount", ofInt256 r.amount), ("owner", ofAddress r.owner),
      ("slippage", ofOption ofInt256 r.slippage)])
  | .unwrap r =>
    some (.object [("amount", ofInt256 r.amount), ("receiver", ofAddress r.receiver),
      ("slippage", ofOption ofInt256 r.slippage)])
  | .vaultAccrueInterest | .vaultV2AccrueInterest => none
  | .vaultDeposit r | .vaultV2Deposit r => some (depositRequestToJson r)
  | .vaultWithdraw r | .vaultV2Withdraw r => some (redeemRequestToJson r)
  | .reallocate allocations => some (.array (allocations.map allocationToJson))
  | .publicReallocate withdrawals supplyMarketId =>
    some (.object [("withdrawals", .array (withdrawals.map allocationToJson)),
      ("supplyMarketId", ofMarketId supplyMarketId)])
  | .swapBuy r | .swapSell r => some (swapRequestToJson r)

/-- Writes a callback: its actions, or `null`. -/
def callbackToJson : Option (List Action) → Json
  | none => .null
  | some actions => .array (actionsToJson actions)

/-- Writes a list of actions. -/
def actionsToJson : List Action → List Json
  | [] => []
  | action :: rest => actionToJson action :: actionsToJson rest

end

end LendingSim.Document
