import LendingSim.Perform.Transfer
import LendingSim.Bytes

/-!
# Swaps

A swap router settles a swap by burning what the sender pays and minting what the receiver gets.
A buy gets an exact amount and pays the quote raised by the slippage tolerance, rounded up. A
sell pays an exact amount and gets the quote lowered by the tolerance, rounded down; selling the
entire balance scales the quote to the balance. Amounts come outright or as 32-byte big-endian
words at given offsets of a payload, each of which must lie wholly inside the payload.
-/

namespace LendingSim.Perform

open Sim

/-- `offset + 32`, where the word at `offset` ends, as a sum of 64-bit machine words: none
where the sum wraps. -/
def wordEnd? (offset : Nat) : Option Nat :=
  if offset + 32 < Nat.pow 2 64 then some (offset + 32) else none

/-- The 32-byte big-endian word at `offset` of `data`, if its end neither wraps nor passes the
end of `data`. -/
def readWord (data : List UInt8) (offset : Nat) : Except InputError UInt256 :=
  match (wordEnd? offset).bind (Bytes.slice? data offset) with
  | some word => .ok (UInt256.ofNat (Bytes.toNatBE word))
  | none => .error (.malformedSwapPayload offset data.length)

/-- The exact and quoted amounts of a swap. -/
def swapAmounts : SwapAmounts → Except InputError (UInt256 × UInt256)
  | .explicit amount quotedAmount => .ok (amountOf amount, amountOf quotedAmount)
  | .payload data exactOffset quotedOffset => do
    let exact ← readWord data exactOffset
    let quoted ← readWord data quotedOffset
    pure (exact, quoted)

/-- Buys exactly the exact amount of the destination token. -/
def swapBuy (sender : Address) (request : SwapRequest) : Sim Unit := do
  let (bought, quoted) ← lift ((swapAmounts request.amounts).mapError .input)
  let raised := UInt256.ofNat (UInt256.wad.toNat + (slippageOf request.slippage).toNat)
  let paid ← arith (UInt256.wadMul quoted raised .up)
  move (.burn request.srcToken sender paid)
  move (.mint request.dstToken sender request.receiver bought)

/-- Sells exactly the exact amount of the source token, or the whole balance. -/
def swapSell (sender : Address) (request : SwapRequest) : Sim Unit := do
  let (sold, quoted) ← lift ((swapAmounts request.amounts).mapError .input)
  let (sold, quoted) ←
    if request.sellEntireBalance then do
      let balance := (← get).balanceOf sender request.srcToken
      let quoted ← if sold.isZero then pure quoted else arith (UInt256.mulDivDown quoted balance sold)
      pure (balance, quoted)
    else pure (sold, quoted)
  let lowered := UInt256.wad.zeroFloorSub (slippageOf request.slippage)
  let received ← arith (UInt256.wadMul quoted lowered .down)
  move (.burn request.srcToken sender sold)
  move (.mint request.dstToken sender request.receiver received)

end LendingSim.Perform
