import LendingSim.State

/-!
# The bundling adapter's checks

The general adapter acts for users who authorized it. When it is the sender, the largest signed
amount stands for the whole available balance, and a slippage tolerance bounds the share price
of the execution against a reference price, both as assets per `10 ^ 27` shares. Paying assets
for shares, the executed price rounded up must not exceed the reference raised by the
tolerance; receiving assets for shares, the price rounded down must not fall below the reference
lowered by it.
-/

namespace LendingSim.Perform

open Sim

/-- Whether `sender` is the general adapter. -/
def isAdapter (s : State) (sender : Address) : Bool := sender == s.registry.generalAdapter1

/-- Fails if paying `assets` for `shares` costs more per share than `reference` raised by
`slippage`. Nothing is checked for zero shares. -/
def checkMaxSharePrice (assets shares reference slippage : UInt256) : Sim Unit := do
  if shares.isZero then return
  let limit ← arith (UInt256.wadMul reference (UInt256.ofNat (UInt256.wad.toNat + slippage.toNat)) .up)
  let price ← arith (UInt256.mulDivUp assets UInt256.ray shares)
  if limit < price then throw (.adapter (.slippageExceeded price limit))

/-- Fails if receiving `assets` for `shares` pays less per share than `reference` lowered by
`slippage`. Nothing is checked for zero shares. -/
def checkMinSharePrice (assets shares reference slippage : UInt256) : Sim Unit := do
  if shares.isZero then return
  let limit ← arith (UInt256.wadMul reference (UInt256.wad.zeroFloorSub slippage) .down)
  let price ← arith (UInt256.mulDivDown assets UInt256.ray shares)
  if price < limit then throw (.adapter (.slippageExceeded price limit))

end LendingSim.Perform
