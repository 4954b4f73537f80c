import LendingSim.Error
import LendingSim.FixedPoint

/-!
# Actions

An action is a call by a `sender` to the contract at a `target` address: the core contract, a
token, a vault or a swap router. What it does is its `Operation`, a closed set of 26 kinds. The
core contract's supply, withdraw, borrow, repay, collateral and flash-loan operations may carry a
callback: a list of nested actions run in the middle of the operation.

Amounts are signed so that negative input can be represented and refused: validation rejects
negative amounts and slippages above 100%. The largest signed amount, `Int256.maxValue`, asks
the bundling adapter to use its entire available balance.
-/

namespace LendingSim

/-- A flow on a market. -/
structure MarketRequest where
  id : MarketId
  assets : Int256
  shares : Int256
  onBehalf : Address
  /-- Who receives withdrawn or borrowed assets; the sender when absent. -/
  receiver : Option Address
  /-- The tolerance on the executed share price, checked for the bundling adapter only. -/
  slippage : Option Int256
  deriving DecidableEq

/-- A deposit or withdrawal of collateral. -/
structure CollateralRequest where
  id : MarketId
  assets : Int256
  onBehalf : Address
  receiver : Option Address
  deriving DecidableEq

/-- A movement of tokens from `source` to `destination`. -/
structure TransferRequest where
  amount : Int256
  source : Address
  destination : Address
  deriving DecidableEq

/-- A signed permit granting `spender` an allowance. -/
structure PermitRequest where
  spender : Address
  amount : Int256
  nonce : UInt256
  deadline : Option Nat
  deriving DecidableEq

/-- A signed permit of the permit router. -/
structure RouterPermitRequest where
  spender : Address
  amount : Int256
  expiration : Nat
  nonce : UInt256
  deriving DecidableEq

/-- Wrapping underlying tokens into the target wrapper, minted to `owner`. -/
structure WrapRequest where
  amount : Int256
  owner : Address
  slippage : Option Int256
  deriving DecidableEq

/-- Unwrapping the target wrapper into its underlying token. -/
structure UnwrapRequest where
  amount : Int256
  receiver : Address
  slippage : Option Int256
  deriving DecidableEq

/-- A deposit into a vault, its shares minted to `owner`. -/
structure DepositRequest where
  assets : Int256
  shares : Int256
  owner : Address
  slippage : Option Int256
  deriving DecidableEq

/-- A withdrawal from a vault, burning the shares of `owner`. -/
structure RedeemRequest where
  assets : Int256
  shares : Int256
  owner : Address
  receiver : Address
  slippage : Option Int256
  deriving DecidableEq

/-- A vault's target supply on a market; `Int256.maxValue` supplies all withdrawn so far. -/
structure Allocation where
  id : MarketId
  assets : Int256
  deriving DecidableEq

/-- The amounts of a swap: given outright, or read from 32-byte big-endian words of a payload. -/
inductive SwapAmounts where
  | explicit (amount quotedAmount : Int256)
  | payload (data : List UInt8) (exactOffset quotedOffset : Nat)
  deriving DecidableEq

/-- A swap settled by the router. For a buy the exact amount is what is bought and the quoted
amount what is paid; for a sell the other way round. -/
structure SwapRequest where
  srcToken : Address
  dstToken : Address
  amounts : SwapAmounts
  receiver : Address
  slippage : Option Int256
  /-- Sell only: sell the sender's whole balance, scaling the quote. -/
  sellEntireBalance : Bool
  deriving DecidableEq

mutual

/-- What an action does. -/
inductive Operation where
  | supply (request : MarketRequest) (callback : Option (List Action))
  | withdraw (request : MarketRequest) (callback : Option (List Action))
  | borrow (request : MarketRequest) (callback : Option (List Action))
  | repay (request : MarketRequest) (callback : Option (List Action))
  | supplyCollateral (request : CollateralRequest) (callback : Option (List Action))
  | withdrawCollateral (request : CollateralRequest) (callback : Option (List Action))
  | flashLoan (token : Address) (assets : Int256) (callback : Option (List Action))
  | accrueInterest (id : MarketId)
  | setAuthorization (owner : Address) (isBundlerAuthorized : Bool)
  | transfer (request : TransferRequest)
  | routerTransfer (request : TransferRequest)
  | approve (spender : Address) (amount : Int256)
  | permit (request : PermitRequest)
  | routerPermit (request : RouterPermitRequest)
  | wrap (request : WrapRequest)
  | unwrap (request : UnwrapRequest)
  | vaultAccrueInterest
  | vaultDeposit (request : DepositRequest)
  | vaultWithdraw (request : RedeemRequest)
  | reallocate (allocations : List Allocation)
  | publicReallocate (withdrawals : List Allocation) (supplyMarketId : MarketId)
  | vaultV2AccrueInterest
  | vaultV2Deposit (request : DepositRequest)
  | vaultV2Withdraw (request : RedeemRequest)
  | swapBuy (request : SwapRequest)
  | swapSell (request : SwapRequest)

/-- A call by `sender` to the contract at `target`. -/
inductive Action where
  | mk (sender target : Address) (operation : Operation)

end

namespace Action

/-- The account making the call. -/
def sender : Action → Address
  | mk sender _ _ => sender

/-- The contract called. -/
def target : Action → Address
  | mk _ target _ => target

/-- What the call does. -/
def operation : Action → Operation
  | mk _ _ operation => operation

end Action

namespace Operation

/-- The tag of the operation, as it appears in documents and messages. -/
def name : Operation → String
  | .supply .. => "Blue_Supply"
  | .withdraw .. => "Blue_Withdraw"
  | .borrow .. => "Blue_Borrow"
  | .repay .. => "Blue_Repay"
  | .supplyCollateral .. => "Blue_SupplyCollateral"
  | .withdrawCollateral .. => "Blue_WithdrawCollateral"
  | .flashLoan .. => "Blue_FlashLoan"
  | .accrueInterest .. => "Blue_AccrueInterest"
  | .setAuthorization .. => "Blue_SetAuthorization"
  | .transfer .. => "Erc20_Transfer"
  | .routerTransfer .. => "Erc20_Transfer2"
  | .approve .. => "Erc20_Approve"
  | .permit .. => "Erc20_Permit"
  | .routerPermit .. => "Erc20_Permit2"
  | .wrap .. => "Erc20_Wrap"
  | .unwrap .. => "Erc20_Unwrap"
  | .vaultAccrueInterest => "MetaMorpho_AccrueInterest"
  | .vaultDeposit .. => "MetaMorpho_Deposit"
  | .vaultWithdraw .. => "MetaMorpho_Withdraw"
  | .reallocate .. => "MetaMorpho_Reallocate"
  | .publicReallocate .. => "MetaMorpho_PublicReallocate"
  | .vaultV2AccrueInterest => "VaultV2_AccrueInterest"
  | .vaultV2Deposit .. => "VaultV2_Deposit"
  | .vaultV2Withdraw .. => "VaultV2_Withdraw"
  | .swapBuy .. => "Paraswap_Buy"
  | .swapSell .. => "Paraswap_Sell"

/-- The signed amounts the operation carries, by field name, in order. Nested actions are not
included: they are checked when they run. -/
def amounts : Operation → List (String × Int256)
  | .supply r _ | .withdraw r _ | .borrow r _ | .repay r _ => [("assets", r.assets), ("shares", r.shares)]
  | .supplyCollateral r _ | .withdrawCollateral r _ => [("assets", r.assets)]
  | .flashLoan _ assets _ => [("assets", assets)]
  | .transfer r | .routerTransfer r => [("amount", r.amount)]
  | .approve _ amount => [("amount", amount)]
  | .permit r => [("amount", r.amount)]
  | .routerPermit r => [("amount", r.amount)]
  | .wrap r => [("amount", r.amount)]
  | .unwrap r => [("amount", r.amount)]
  | .vaultDeposit r | .vaultV2Deposit r => [("assets", r.assets), ("shares", r.shares)]
  | .vaultWithdraw r | .vaultV2Withdraw r => [("assets", r.assets), ("shares", r.shares)]
  | .reallocate allocations => allocations.map fun a => ("assets", a.assets)
  | .publicReallocate withdrawals _ => withdrawals.map fun w => ("assets", w.assets)
  | .swapBuy r | .swapSell r =>
    match r.amounts with
    | .explicit amount quotedAmount => [("amount", amount), ("quotedAmount", quotedAmount)]
    | .payload .. => []
  | .accrueInterest .. | .setAuthorization .. | .vaultAccrueInterest | .vaultV2AccrueInterest => []

/-- The slippage tolerance of the operation, if it takes one. -/
def slippage : Operation → Option Int256
  | .supply r _ | .withdraw r _ | .borrow r _ | .repay r _ => r.slippage
  | .wrap r => r.slippage
  | .unwrap r => r.slippage
  | .vaultDeposit r | .vaultV2Deposit r => r.slippage
  | .vaultWithdraw r | .vaultV2Withdraw r => r.slippage
  | .swapBuy r | .swapSell r => r.slippage
  | _ => none

/-- The checks that need no state: every amount is non-negative, then the slippage is between
0% and 100%. -/
def validate (op : Operation) : Except InputError Unit :=
  match op.amounts.find? (·.2.isNeg) with
  | some (field, value) => .error (.negativeAmount field value)
  | none =>
    match op.slippage with
    | none => .ok ()
    | some s =>
      if s.isNeg then .error (.negativeAmount "slippage" s)
      else if UInt256.wad < s.toBits then .error (.slippageOutOfRange s)
      else .ok ()

end Operation

/-- A validated amount as a word. -/
def amountOf (value : Int256) : UInt256 := value.toBits

/-- A validated slippage as a word; zero when absent. -/
def slippageOf (value : Option Int256) : UInt256 := (value.map amountOf).getD 0

/-- Whether the amount asks for the entire available balance. -/
def isMaxAmount (value : Int256) : Bool := value == Int256.maxValue

end LendingSim
