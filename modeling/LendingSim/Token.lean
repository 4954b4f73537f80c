import LendingSim.Address
import LendingSim.Shares

/-!
# Tokens and wrappers

A token has an address, a symbol and a number of decimals; one whole token is
`10 ^ decimals` units, a power that wraps modulo `2 ^ 256`. A wrapper token holds an underlying
token, at a constant rate that only rescales decimals or at an exchange rate scaled by
`10 ^ 18`. Conversions round down, and the exact-amount-in forms also take off a slippage
tolerance. Two tokens are the same token when their addresses are equal.
-/

namespace LendingSim

/-- How a wrapper converts between itself and its underlying token. -/
inductive WrapperRate where
  /-- One underlying token per wrapped token, rescaled between the two decimals. -/
  | constant
  /-- Underlying per wrapped token, scaled by `10 ^ 18`. -/
  | exchangeRate (rate : UInt256)
  deriving DecidableEq

/-- What makes a token a wrapper. -/
structure Wrapper where
  underlying : Address
  underlyingDecimals : Nat
  /-- Whether unwrapping may send the underlying to a receiver other than the sender. -/
  erc20Wrapper : Bool
  rate : WrapperRate
  deriving DecidableEq

/-- A token. -/
structure Token where
  address : Address
  symbol : String
  decimals : Nat
  wrapper : Option Wrapper
  deriving DecidableEq

namespace Token

/-- A token that wraps nothing. -/
def new (address : Address) (symbol : String) (decimals : Nat) : Token :=
  { address, symbol, decimals, wrapper := none }

/-- The token with a wrapper. -/
def withWrapper (t : Token) (wrapper : Wrapper) : Token := { t with wrapper := some wrapper }

/-- Tokens are the same token when their addresses are equal. -/
def sameAs (t u : Token) : Bool := t.address == u.address

/-- `10 ^ decimals`, one whole token, wrapping modulo `2 ^ 256`. -/
def one (t : Token) : UInt256 := Shares.virtualSharesOfOffset t.decimals

/-- The wrapped amount worth `assets` of the underlying, rounded down; `none` for a token that
is not a wrapper. -/
def toWrapped (t : Token) (assets : UInt256) : Except ArithError (Option UInt256) :=
  match t.wrapper with
  | none => .ok none
  | some w =>
    match w.rate with
    | .constant =>
      some <$> UInt256.mulDivDown assets t.one (Shares.virtualSharesOfOffset w.underlyingDecimals)
    | .exchangeRate rate => some <$> UInt256.wadDiv assets rate .down

/-- The underlying amount worth `amount` of the wrapper, rounded down; `none` for a token that
is not a wrapper. -/
def toUnwrapped (t : Token) (amount : UInt256) : Except ArithError (Option UInt256) :=
  match t.wrapper with
  | none => .ok none
  | some w =>
    match w.rate with
    | .constant =>
      some <$> UInt256.mulDivDown amount (Shares.virtualSharesOfOffset w.underlyingDecimals) t.one
    | .exchangeRate rate => some <$> UInt256.wadMul amount rate .down

/-- `amount` less a slippage tolerance scaled by `10 ^ 18`, rounded down; a tolerance above one
takes everything. -/
def lessSlippage (amount slippage : UInt256) : Except ArithError UInt256 :=
  UInt256.wadMul amount (UInt256.wad.zeroFloorSub slippage) .down

/-- The wrapped amount minted for exactly `assets` in, after slippage. -/
def toWrappedExactAmountIn (t : Token) (assets slippage : UInt256) :
    Except ArithError (Option UInt256) := do
  match ← t.toWrapped assets with
  | none => pure none
  | some wrapped => some <$> lessSlippage wrapped slippage

/-- The underlying amount released for exactly `amount` in, after slippage. -/
def toUnwrappedExactAmountIn (t : Token) (amount slippage : UInt256) :
    Except ArithError (Option UInt256) := do
  match ← t.toUnwrapped amount with
  | none => pure none
  | some unwrapped => some <$> lessSlippage unwrapped slippage

end Token

end LendingSim
