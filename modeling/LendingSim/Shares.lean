import LendingSim.FixedPoint

/-!
# Shares and assets

A pool (a market's supply or borrow side, a vault) issues shares against assets at the rate
`(totalShares + virtualShares) / (totalAssets + 1)`. The virtual amounts keep the rate defined
on an empty pool and make a first deposit unable to inflate it. Markets use `10 ^ 6` virtual
shares, vaults `10 ^ decimalsOffset`. The caller picks the rounding, always in the pool's favour.
-/

namespace LendingSim.Shares

/-- The virtual assets added to every pool's total assets. -/
def virtualAssets : UInt256 := 1

/-- The virtual shares added to a market's total shares. -/
def marketVirtualShares : UInt256 := 1000000

/-- `10 ^ offset`, the virtual shares of a vault; the power wraps modulo `2 ^ 256`. -/
def virtualSharesOfOffset (offset : Nat) : UInt256 := UInt256.wrappingPow 10 offset

/-- The shares worth `assets`. The share side of the rate is summed before the asset side, so
an overflow of the share side is the one reported. -/
def toShares (assets totalAssets totalShares virtualShares : UInt256) (rounding : Rounding) :
    Except ArithError UInt256 := do
  let shareSide ← totalShares.checkedAdd virtualShares
  let assetSide ← totalAssets.checkedAdd virtualAssets
  UInt256.mulDiv assets shareSide assetSide rounding

/-- The assets worth `shares`. The asset side of the rate is summed before the share side. -/
def toAssets (shares totalAssets totalShares virtualShares : UInt256) (rounding : Rounding) :
    Except ArithError UInt256 := do
  let assetSide ← totalAssets.checkedAdd virtualAssets
  let shareSide ← totalShares.checkedAdd virtualShares
  UInt256.mulDiv shares assetSide shareSide rounding

end LendingSim.Shares
