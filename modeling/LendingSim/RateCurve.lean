import LendingSim.Word.Int256

/-!
# The adaptive rate curve

A market's borrow rate follows a curve around its *rate at target*. The error
`err = (u - 0.9) / norm` measures how far utilization `u` is from the 90% target, normalised to
`[-1, 1]`. The rate at target drifts exponentially, at `50` per year times `err`, and stays
between `0.1%` and `200%` a year; the borrow rate is the rate at target scaled by `1 + 3 err`
above target and `1 + 0.75 err` below it. All numbers are signed words scaled by `10 ^ 18`, and
every product or quotient truncates toward zero.

The curve is written once over a `Build`, the way a build of the program turns the exact result
of each signed operation into a word: a release build keeps the result modulo `2 ^ 256`, as
`Int256` does, and a debug build stops at the first result that leaves the word range. The
simulator runs the release build.
-/

namespace LendingSim.RateCurve

/-- `10 ^ 18`, one as a signed ratio. -/
def wad : Int256 := 1000000000000000000

/-- `ln 2`, scaled. -/
def ln2 : Int256 := 693147180559945309

/-- `|ln 10 ^ -18|`, scaled: below `-lnWeiAbs` the exponential is zero. -/
def lnWeiAbs : Int256 := 41446531673892822312

/-- From this input on, the exponential saturates at `expUpperValue`. -/
def expUpperBound : Int256 := 93859467695000404319

/-- The saturated value of the exponential. -/
def expUpperValue : Int256 := 57716089161558943949701069502944508345128422502756744429568

/-- The steepness of the curve, four, scaled. -/
def curveSteepness : Int256 := 4000000000000000000

/-- The speed of the drift per second, `50 / year`, scaled. -/
def adjustmentSpeed : Int256 := 1585489599188

/-- The target utilization, `90%`, scaled. -/
def targetUtilization : Int256 := 900000000000000000

/-- The rate at target of a market the curve has not seen yet, `4%` a year per second. -/
def initialRateAtTarget : Int256 := 1268391679

/-- The least rate at target, `0.1%` a year per second. -/
def minRateAtTarget : Int256 := 31709791

/-- The greatest rate at target, `200%` a year per second. -/
def maxRateAtTarget : Int256 := 63419583967

/-- The value `x` clamped to `[low, high]`. -/
def clamp (x low high : Int256) : Int256 :=
  if x < low then low else if high < x then high else x

/-- A non-negative word as unsigned; a negative one is zero. -/
def toUnsigned (x : Int256) : UInt256 := if x.isNeg then 0 else x.toBits

/-- What accrual needs from the curve over one period. -/
structure BorrowRates where
  /-- The mean borrow rate per second over the period, used for compounding. -/
  average : UInt256
  /-- The borrow rate per second at the end of the period. -/
  final : UInt256
  /-- The rate at target to store after the period. -/
  finalRateAtTarget : UInt256
  deriving DecidableEq

/-- How a build turns the exact result of a signed operation into a word, in the monad `m` the
build runs in. -/
structure Build (m : Type → Type) where
  /-- The word made of an exact result. -/
  fit : Int → m Int256

namespace Build

/-- Release builds keep the low 256 bits of every result. -/
def release : Build Id := ⟨fun z => pure (Int256.wrap z)⟩

/-- Debug builds stop at the first result outside `[-2 ^ 255, 2 ^ 255)`. -/
def debug : Build Option := ⟨Int256.ofInt?⟩

variable {m : Type → Type} [Monad m] (b : Build m)

def add (x y : Int256) : m Int256 := b.fit (x.toInt + y.toInt)

def sub (x y : Int256) : m Int256 := b.fit (x.toInt - y.toInt)

def mul (x y : Int256) : m Int256 := b.fit (x.toInt * y.toInt)

/-- Division truncates toward zero. -/
def div (x y : Int256) : m Int256 := b.fit (x.toInt.tdiv y.toInt)

def neg (x : Int256) : m Int256 := b.fit (-x.toInt)

/-- `x * y / wad`, truncated toward zero. -/
def wadMulToZero (x y : Int256) : m Int256 := do b.div (← b.mul x y) wad

/-- `x * wad / y`, truncated toward zero. -/
def wadDivToZero (x y : Int256) : m Int256 := do b.div (← b.mul x wad) y

/-- `x = q ln 2 + r`, with `q` the multiple of `ln 2` nearest to `x`: the pair `(q, r)`. -/
def reduceByLn2 (x : Int256) : m (Int256 × Int256) := do
  let halfLn2 ← b.div ln2 2
  let roundingAdjustment ← (if x.isNeg then b.neg halfLn2 else pure halfLn2)
  let q ← b.div (← b.add x roundingAdjustment) ln2
  let r ← b.sub x (← b.mul q ln2)
  pure (q, r)

/-- `e ^ r ≈ 1 + r + r ^ 2 / 2`, scaled. -/
def expTaylor (r : Int256) : m Int256 := do
  let linear ← b.add wad r
  let square ← b.div (← b.div (← b.mul r r) wad) 2
  b.add linear square

/-- `e ^ x` for a scaled `x`: `x = q ln 2 + r`, then `e ^ r` to second order shifted by `q`
bits. Zero below `-lnWeiAbs`, `expUpperValue` from `expUpperBound` on. -/
def wadExp (x : Int256) : m Int256 := do
  let lowest ← b.neg lnWeiAbs
  if x < lowest then pure 0
  else if expUpperBound ≤ x then pure expUpperValue
  else do
    let reduced ← b.reduceByLn2 x
    let expR := toUnsigned (← b.expTaylor reduced.2)
    let shift := reduced.1.toInt.natAbs
    pure (if reduced.1.isNeg then Int256.ofBits (expR.shiftRight shift)
      else Int256.ofBits (expR.shiftLeft shift))

/-- The borrow rate at `rateAtTarget` for the normalised error `err`. -/
def curve (rateAtTarget err : Int256) : m Int256 := do
  let coefficient ← (if err.isNeg then do b.sub wad (← b.wadDivToZero wad curveSteepness)
    else b.sub curveSteepness wad)
  b.wadMulToZero (← b.add (← b.wadMulToZero coefficient err) wad) rateAtTarget

/-- The rate at target after a drift of `linearAdaptation`, clamped to its range. -/
def driftedRateAtTarget (start linearAdaptation : Int256) : m Int256 := do
  let drifted ← b.wadMulToZero start (← b.wadExp linearAdaptation)
  pure (clamp drifted minRateAtTarget maxRateAtTarget)

/-- The normalised distance of `utilization` from the target. -/
def utilizationError (utilization : Int256) : m Int256 := do
  let normFactor ← (if targetUtilization < utilization then b.sub wad targetUtilization
    else pure targetUtilization)
  b.wadDivToZero (← b.sub utilization targetUtilization) normFactor

/-- The rate at target averaged over the period (trapezoid rule on start, middle and end) and at
its end, for a market whose stored rate at target is `start`. A zero `start` means the curve
starts the market at `initialRateAtTarget`. -/
def rateAtTargetPath (start err : Int256) (elapsed : Nat) : m (Int256 × Int256) := do
  if start.toInt = 0 then pure (initialRateAtTarget, initialRateAtTarget)
  else do
    let speed ← b.wadMulToZero adjustmentSpeed err
    let linearAdaptation ← b.mul speed (Int256.wrap elapsed)
    if linearAdaptation.toInt = 0 then pure (start, start)
    else do
      let final ← b.driftedRateAtTarget start linearAdaptation
      let middle ← b.driftedRateAtTarget start (← b.div linearAdaptation 2)
      let average ← b.div (← b.add (← b.add start final) (← b.mul 2 middle)) 4
      pure (average, final)

/-- The borrow rates of a market at `utilization` whose stored rate at target is `start`,
`elapsed` seconds after its last update. Both words are read as signed words. -/
def borrowRates (utilization start : UInt256) (elapsed : Nat) : m BorrowRates := do
  let err ← b.utilizationError (Int256.ofBits utilization)
  let path ← b.rateAtTargetPath (Int256.ofBits start) err elapsed
  let averageRate ← b.curve path.1 err
  let finalRate ← b.curve path.2 err
  pure ⟨toUnsigned averageRate, toUnsigned finalRate, toUnsigned path.2⟩

end Build

/-- The exponential as the simulator computes it. -/
def wadExp (x : Int256) : Int256 := Id.run (Build.release.wadExp x)

/-- The borrow rates as the simulator computes them. -/
def borrowRates (utilization start : UInt256) (elapsed : Nat) : BorrowRates :=
  Id.run (Build.release.borrowRates utilization start elapsed)

end LendingSim.RateCurve
