import LendingSim.Address
import LendingSim.Word.Int256

/-!
# Errors of the simulation's subsystems

Each subsystem fails for its own reasons: malformed input, token movements and allowances, the
bundling adapter's checks, vault queues and caps, the public allocator's flow caps, and data the
state does not hold. Each reason has a variant name and a message. Messages write addresses
checksummed, market ids in lowercase hexadecimal, and numbers in decimal.
-/

namespace LendingSim

/-- Input that no state could accept. -/
inductive InputError where
  | negativeAmount (field : String) (value : Int256)
  | slippageOutOfRange (value : Int256)
  | inconsistentInput (assets shares : UInt256)
  | malformedSwapPayload (offset length : Nat)
  deriving DecidableEq

namespace InputError

/-- The variant name. -/
def name : InputError → String
  | .negativeAmount .. => "NegativeAmount"
  | .slippageOutOfRange .. => "SlippageOutOfRange"
  | .inconsistentInput .. => "InconsistentInput"
  | .malformedSwapPayload .. => "MalformedSwapPayload"

/-- The text of the failure. -/
def message : InputError → String
  | .negativeAmount field value => "Negative " ++ field ++ ": " ++ value.toDecimal
  | .slippageOutOfRange value => "Slippage " ++ value.toDecimal ++ " exceeds 100%"
  | .inconsistentInput assets shares =>
    "Inconsistent input: exactly one of assets (" ++ assets.toDecimal ++ ") and shares (" ++
      shares.toDecimal ++ ") must be zero"
  | .malformedSwapPayload offset length =>
    "Malformed swap payload: no 32-byte word at offset " ++ Numeral.decimal offset ++ " of " ++
      Numeral.decimal length ++ " bytes"

end InputError

/-- A token movement or allowance that is not possible. -/
inductive TokenError where
  | insufficientBalance (token user : Address) (balance amount : UInt256)
  | insufficientAllowance (token owner spender : Address) (allowance amount : UInt256)
  | insufficientRouterAllowance (token owner spender : Address)
  | unknownAllowance (token owner spender : Address)
  | expiredPermit (token owner : Address) (deadline : Nat)
  | invalidPermitNonce (token owner : Address) (expected nonce : UInt256)
  | permitNotSupported (token : Address)
  | unauthorizedTransfer (token user : Address)
  | unexpectedRouterSender (sender : Address)
  | notWrapper (token : Address)
  deriving DecidableEq

namespace TokenError

/-- The variant name. -/
def name : TokenError → String
  | .insufficientBalance .. => "InsufficientBalance"
  | .insufficientAllowance .. => "InsufficientAllowance"
  | .insufficientRouterAllowance .. => "InsufficientPermit2Allowance"
  | .unknownAllowance .. => "UnknownAllowance"
  | .expiredPermit .. => "ExpiredPermit"
  | .invalidPermitNonce .. => "InvalidPermitNonce"
  | .permitNotSupported .. => "PermitNotSupported"
  | .unauthorizedTransfer .. => "UnauthorizedTransfer"
  | .unexpectedRouterSender .. => "UnexpectedTransfer2Sender"
  | .notWrapper .. => "NotWrapper"

/-- The text of the failure. -/
def message : TokenError → String
  | .insufficientBalance token user balance amount =>
    "Insufficient balance of " ++ user.checksummed ++ " for " ++ token.checksummed ++ ": " ++
      balance.toDecimal ++ " < " ++ amount.toDecimal
  | .insufficientAllowance token owner spender allowance amount =>
    "Insufficient allowance of " ++ owner.checksummed ++ " to " ++ spender.checksummed ++
      " for " ++ token.checksummed ++ ": " ++ allowance.toDecimal ++ " < " ++ amount.toDecimal
  | .insufficientRouterAllowance token owner spender =>
    "Insufficient permit2 allowance of " ++ owner.checksummed ++ " to " ++ spender.checksummed ++
      " for " ++ token.checksummed
  | .unknownAllowance token owner spender =>
    "Unknown allowance of " ++ owner.checksummed ++ " to " ++ spender.checksummed ++ " for " ++
      token.checksummed
  | .expiredPermit token owner deadline =>
    "Permit of " ++ owner.checksummed ++ " for " ++ token.checksummed ++ " expired at " ++
      Numeral.decimal deadline
  | .invalidPermitNonce token owner expected nonce =>
    "Invalid permit nonce of " ++ owner.checksummed ++ " for " ++ token.checksummed ++
      ": expected " ++ expected.toDecimal ++ ", got " ++ nonce.toDecimal
  | .permitNotSupported token => "Token " ++ token.checksummed ++ " does not support permits"
  | .unauthorizedTransfer token user => user.checksummed ++ " cannot receive " ++ token.checksummed
  | .unexpectedRouterSender sender => "Unexpected permit2 transfer sender " ++ sender.checksummed
  | .notWrapper token => "Token " ++ token.checksummed ++ " is not a wrapper"

end TokenError

/-- A check of the bundling adapter that failed. -/
inductive AdapterError where
  | unauthorizedBundler (user : Address)
  | zeroAmount
  | zeroShares
  | slippageExceeded (price limit : UInt256)
  deriving DecidableEq

namespace AdapterError

/-- The variant name. -/
def name : AdapterError → String
  | .unauthorizedBundler .. => "UnauthorizedBundler"
  | .zeroAmount => "ZeroAmount"
  | .zeroShares => "ZeroShares"
  | .slippageExceeded .. => "SlippageExceeded"

/-- The text of the failure. -/
def message : AdapterError → String
  | .unauthorizedBundler user =>
    "Bundler is not authorized to manage positions of " ++ user.checksummed
  | .zeroAmount => "Zero amount"
  | .zeroShares => "Zero shares"
  | .slippageExceeded price limit =>
    "Slippage exceeded: share price " ++ price.toDecimal ++ " beyond limit " ++ limit.toDecimal

end AdapterError

/-- A vault operation its queues, roles or caps do not allow. -/
inductive VaultError where
  | allCapsReached (vault : Address) (remaining : UInt256)
  | notEnoughLiquidity (vault : Address) (remaining : UInt256)
  | inconsistentReallocation (vault : Address) (totalSupplied totalWithdrawn : UInt256)
  | notAllocatorRole (vault sender : Address)
  | unauthorizedMarket (vault : Address) (id : MarketId)
  | supplyCapExceeded (vault : Address) (id : MarketId)
  deriving DecidableEq

namespace VaultError

/-- The variant name. -/
def name : VaultError → String
  | .allCapsReached .. => "AllCapsReached"
  | .notEnoughLiquidity .. => "NotEnoughLiquidity"
  | .inconsistentReallocation .. => "InconsistentReallocation"
  | .notAllocatorRole .. => "NotAllocatorRole"
  | .unauthorizedMarket .. => "UnauthorizedMarket"
  | .supplyCapExceeded .. => "SupplyCapExceeded"

/-- The text of the failure. -/
def message : VaultError → String
  | .allCapsReached vault remaining =>
    "All caps of vault " ++ vault.checksummed ++ " reached with " ++ remaining.toDecimal ++
      " assets left to supply"
  | .notEnoughLiquidity vault remaining =>
    "Not enough liquidity in vault " ++ vault.checksummed ++ ": " ++ remaining.toDecimal ++
      " assets left to withdraw"
  | .inconsistentReallocation vault totalSupplied totalWithdrawn =>
    "Inconsistent reallocation of vault " ++ vault.checksummed ++ ": supplied " ++
      totalSupplied.toDecimal ++ ", withdrawn " ++ totalWithdrawn.toDecimal
  | .notAllocatorRole vault sender =>
    sender.checksummed ++ " is not an allocator of vault " ++ vault.checksummed
  | .unauthorizedMarket vault id =>
    "Market " ++ id.toText ++ " is not enabled on vault " ++ vault.checksummed
  | .supplyCapExceeded vault id =>
    "Supply cap of vault " ++ vault.checksummed ++ " exceeded on market " ++ id.toText

end VaultError

/-- A public reallocation the allocator's terms or flow caps do not allow. -/
inductive AllocatorError where
  | notConfigured (vault : Address)
  | maxInflowExceeded (id : MarketId)
  | maxOutflowExceeded (id : MarketId)
  | notEnoughSupply (id : MarketId)
  | withdrawZero (id : MarketId)
  | depositMarketInWithdrawals (id : MarketId)
  | inconsistentWithdrawals
  | marketNotEnabled (id : MarketId)
  | emptyWithdrawals
  deriving DecidableEq

namespace AllocatorError

/-- The variant name. -/
def name : AllocatorError → String
  | .notConfigured .. => "NotConfigured"
  | .maxInflowExceeded .. => "MaxInflowExceeded"
  | .maxOutflowExceeded .. => "MaxOutflowExceeded"
  | .notEnoughSupply .. => "NotEnoughSupply"
  | .withdrawZero .. => "WithdrawZero"
  | .depositMarketInWithdrawals .. => "DepositMarketInWithdrawals"
  | .inconsistentWithdrawals => "InconsistentWithdrawals"
  | .marketNotEnabled .. => "MarketNotEnabled"
  | .emptyWithdrawals => "EmptyWithdrawals"

/-- The text of the failure. -/
def message : AllocatorError → String
  | .notConfigured vault => "Public allocator is not configured on vault " ++ vault.checksummed
  | .maxInflowExceeded id => "Max inflow exceeded on market " ++ id.toText
  | .maxOutflowExceeded id => "Max outflow exceeded on market " ++ id.toText
  | .notEnoughSupply id => "Not enough supply to withdraw from market " ++ id.toText
  | .withdrawZero id => "Zero withdrawal on market " ++ id.toText
  | .depositMarketInWithdrawals id => "Deposit market " ++ id.toText ++ " is also withdrawn from"
  | .inconsistentWithdrawals => "Withdrawals are not sorted by market id"
  | .marketNotEnabled id => "Market " ++ id.toText ++ " is not enabled"
  | .emptyWithdrawals => "Empty withdrawals"

end AllocatorError

/-- Data the state does not hold. -/
inductive MissingData where
  | market (id : MarketId)
  | token (address : Address)
  | vault (address : Address)
  | vaultMarketConfig (vault : Address) (id : MarketId)
  | vaultV2 (address : Address)
  | vaultV2Adapter (address : Address)
  deriving DecidableEq

namespace MissingData

/-- The variant name. -/
def name : MissingData → String
  | .market .. => "UnknownMarket"
  | .token .. => "UnknownToken"
  | .vault .. => "UnknownVault"
  | .vaultMarketConfig .. => "UnknownVaultMarketConfig"
  | .vaultV2 .. => "UnknownVaultV2"
  | .vaultV2Adapter .. => "UnknownVaultV2Adapter"

/-- The text of the failure. -/
def message : MissingData → String
  | .market id => "Unknown market " ++ id.toText
  | .token address => "Unknown token " ++ address.checksummed
  | .vault address => "Unknown vault " ++ address.checksummed
  | .vaultMarketConfig owner id =>
    "Unknown config of market " ++ id.toText ++ " on vault " ++ owner.checksummed
  | .vaultV2 address => "Unknown vault v2 " ++ address.checksummed
  | .vaultV2Adapter address => "Unknown vault v2 adapter " ++ address.checksummed

end MissingData

end LendingSim
