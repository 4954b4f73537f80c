import LendingSim.Address
import LendingSim.Shares

/-!
# Markets

A market lends one token against another. It is named by the Keccak-256 hash of the ABI
encoding of its five parameters, and pools supply and borrow in both assets and shares; the
exchange rate of each side moves only through interest. This module holds the market, its
errors and its conversions between assets and shares.
-/

namespace LendingSim

/-- The immutable parameters of a market. -/
structure MarketParams where
  loanToken : Address
  collateralToken : Address
  oracle : Address
  irm : Address
  /-- The liquidation loan-to-value, scaled by `10 ^ 18`. -/
  lltv : UInt256
  deriving DecidableEq

/-- The ABI encoding of the parameters: four addresses and the ratio, one 32-byte word each. -/
def MarketParams.abiEncoding (p : MarketParams) : List UInt8 :=
  p.loanToken.abiWord ++ p.collateralToken.abiWord ++ p.oracle.abiWord ++ p.irm.abiWord ++
    Bytes.ofNatBE 32 p.lltv.toNat

/-- The id of the market with these parameters. -/
def MarketParams.id (p : MarketParams) : MarketId :=
  MarketId.ofDigest (Keccak.hash p.abiEncoding)

/-- A market's parameters and pooled totals. -/
structure Market where
  params : MarketParams
  totalSupplyAssets : UInt256
  totalSupplyShares : UInt256
  totalBorrowAssets : UInt256
  totalBorrowShares : UInt256
  /-- The time of the last accrual, in seconds. -/
  lastUpdate : Nat
  /-- The part of the interest minted to the fee recipient, scaled by `10 ^ 18`. -/
  fee : UInt256
  /-- The collateral price in loan token, scaled by `10 ^ 36`; absent when unknown. -/
  price : Option UInt256
  /-- The stored rate at target of the rate curve; absent for an unknown rate model, which
  accrues no interest. -/
  rateAtTarget : Option UInt256
  deriving DecidableEq

/-- Why an operation on a market failed. -/
inductive MarketError where
  | arith (error : ArithError)
  | invalidInterestAccrual (id : MarketId) (timestamp lastUpdate : Nat)
  | inconsistentInput (assets shares : UInt256)
  | zeroAssets
  | insufficientLiquidity (id : MarketId)
  | insufficientPosition (user : Address) (id : MarketId)
  | insufficientCollateral (user : Address) (id : MarketId)
  | unauthorized (sender onBehalf : Address)
  deriving DecidableEq

namespace MarketError

/-- The variant name; an arithmetic failure is named after the arithmetic error. -/
def name : MarketError → String
  | .arith e => "Math." ++ e.name
  | .invalidInterestAccrual .. => "InvalidInterestAccrual"
  | .inconsistentInput .. => "InconsistentInput"
  | .zeroAssets => "ZeroAssets"
  | .insufficientLiquidity .. => "InsufficientLiquidity"
  | .insufficientPosition .. => "InsufficientPosition"
  | .insufficientCollateral .. => "InsufficientCollateral"
  | .unauthorized .. => "Unauthorized"

/-- The text of the failure. -/
def message : MarketError → String
  | .arith e => e.message
  | .invalidInterestAccrual id timestamp lastUpdate =>
    "Invalid interest accrual on market " ++ id.toText ++ ": timestamp " ++
      Numeral.decimal timestamp ++ " is before last update " ++ Numeral.decimal lastUpdate
  | .inconsistentInput assets shares =>
    "Inconsistent input: exactly one of assets (" ++ assets.toDecimal ++ ") and shares (" ++
      shares.toDecimal ++ ") must be zero"
  | .zeroAssets => "Zero assets"
  | .insufficientLiquidity id => "Insufficient liquidity on market " ++ id.toText
  | .insufficientPosition user id =>
    "Insufficient position of " ++ user.checksummed ++ " on market " ++ id.toText
  | .insufficientCollateral user id =>
    "Insufficient collateral of " ++ user.checksummed ++ " on market " ++ id.toText
  | .unauthorized sender onBehalf =>
    sender.checksummed ++ " is not authorized to manage the position of " ++
      onBehalf.checksummed

end MarketError

/-- An arithmetic result seen as a market result. -/
def liftArith {α : Type} : Except ArithError α → Except MarketError α
  | .ok a => .ok a
  | .error e => .error (.arith e)

namespace Market

/-- The market's id. -/
def id (m : Market) : MarketId := m.params.id

/-- A fresh market with empty totals, no fee, no price and an unknown rate model. -/
def new (params : MarketParams) (lastUpdate : Nat) : Market :=
  { params, totalSupplyAssets := 0, totalSupplyShares := 0, totalBorrowAssets := 0,
    totalBorrowShares := 0, lastUpdate, fee := 0, price := none, rateAtTarget := none }

/-- The assets that can still be borrowed or withdrawn. -/
def liquidity (m : Market) : UInt256 := m.totalSupplyAssets.zeroFloorSub m.totalBorrowAssets

/-- Whether borrowed assets are covered by supplied assets. -/
def hasEnoughLiquidity (m : Market) : Bool := m.totalBorrowAssets ≤ m.totalSupplyAssets

/-- Borrowed over supplied assets, scaled by `10 ^ 18`; zero for an empty market. -/
def utilization (m : Market) : Except ArithError UInt256 :=
  if m.totalSupplyAssets.isZero then .ok 0
  else UInt256.wadDiv m.totalBorrowAssets m.totalSupplyAssets .down

/-- Supply shares in assets. -/
def toSupplyAssets (m : Market) (shares : UInt256) (rounding : Rounding) :
    Except ArithError UInt256 :=
  Shares.toAssets shares m.totalSupplyAssets m.totalSupplyShares Shares.marketVirtualShares rounding

/-- Supply assets in shares. -/
def toSupplyShares (m : Market) (assets : UInt256) (rounding : Rounding) :
    Except ArithError UInt256 :=
  Shares.toShares assets m.totalSupplyAssets m.totalSupplyShares Shares.marketVirtualShares rounding

/-- Borrow shares in assets. -/
def toBorrowAssets (m : Market) (shares : UInt256) (rounding : Rounding) :
    Except ArithError UInt256 :=
  Shares.toAssets shares m.totalBorrowAssets m.totalBorrowShares Shares.marketVirtualShares rounding

/-- Borrow assets in shares. -/
def toBorrowShares (m : Market) (assets : UInt256) (rounding : Rounding) :
    Except ArithError UInt256 :=
  Shares.toShares assets m.totalBorrowAssets m.totalBorrowShares Shares.marketVirtualShares rounding

end Market

end LendingSim
