import LendingSim.Address
import LendingSim.Word.UInt256

/-!
# Positions

A user's position on a market: supply shares, borrow shares and collateral. Positions are
created on first use with all three at zero.
-/

namespace LendingSim

/-- What one user holds on one market. -/
structure Position where
  user : Address
  marketId : MarketId
  supplyShares : UInt256
  borrowShares : UInt256
  collateral : UInt256
  deriving DecidableEq

namespace Position

/-- The empty position of `user` on `marketId`. -/
def empty (user : Address) (marketId : MarketId) : Position :=
  { user, marketId, supplyShares := 0, borrowShares := 0, collateral := 0 }

/-- Whether the position holds nothing. -/
def isEmpty (p : Position) : Bool :=
  p.supplyShares.isZero && p.borrowShares.isZero && p.collateral.isZero

end Position

end LendingSim
