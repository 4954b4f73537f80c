import LendingSim.Word.UInt256

/-!
# Fixed-point arithmetic on words

Ratios (rates, fees, slippages, loan-to-value) are words scaled by `wad = 10 ^ 18`. Every
product-then-quotient `x * y / d` names the way it rounds: `mulDivDown` is the floor and
`mulDivUp` the ceiling of the exact quotient. Both fail with `divisionByZero` for `d = 0` and with
`overflow` when the product, or for the ceiling the product plus `d - 1`, does not fit a word.
Interest compounds with the first three terms of the exponential series.
-/

namespace LendingSim

/-- Which way an inexact quotient is rounded. -/
inductive Rounding where
  | down
  | up
  deriving DecidableEq, Repr

namespace UInt256

/-- `10 ^ 18`, the scale of ratios. -/
def wad : UInt256 := 1000000000000000000

/-- `10 ^ 27`, the scale of share prices quoted to the bundling adapter. -/
def ray : UInt256 := 1000000000000000000000000000

/-- `10 ^ 36`, the scale of oracle prices (collateral quoted in loan token). -/
def oraclePriceScale : UInt256 := 1000000000000000000000000000000000000

/-- `x * y / d` rounded down. -/
def mulDivDown (x y d : UInt256) : Except ArithError UInt256 :=
  if d.toNat = 0 then .error .divisionByZero
  else do
    let product ← checkedMul x y
    pure (product.div d)

/-- `x * y / d` rounded up: `(x * y + (d - 1)) / d`. -/
def mulDivUp (x y d : UInt256) : Except ArithError UInt256 :=
  if d.toNat = 0 then .error .divisionByZero
  else do
    let product ← checkedMul x y
    let numerator ← checkedAdd product (ofNat (d.toNat - 1))
    pure (numerator.div d)

/-- `mulDivDown` fails for a zero divisor, then for a product that does not fit, and otherwise
is the floor of the quotient. -/
theorem mulDivDown_eq (x y d : UInt256) :
    mulDivDown x y d =
      if d.toNat = 0 then .error .divisionByZero
      else if size ≤ x.toNat * y.toNat then .error .overflow
      else .ok (ofNat (x.toNat * y.toNat / d.toNat)) := by
  unfold mulDivDown
  split
  · rfl
  · rw [checkedMul_eq]
    split
    · rfl
    · next h => exact congrArg Except.ok (ofNat_div (Nat.lt_of_not_le h) d)

/-- `mulDivUp` fails for a zero divisor, then when the product plus `d - 1` does not fit (a
product that does not fit alone is a case of it), and otherwise is `(x * y + d - 1) / d`. -/
theorem mulDivUp_eq (x y d : UInt256) :
    mulDivUp x y d =
      if d.toNat = 0 then .error .divisionByZero
      else if size ≤ x.toNat * y.toNat + d.toNat - 1 then .error .overflow
      else .ok (ofNat ((x.toNat * y.toNat + d.toNat - 1) / d.toNat)) := by
  unfold mulDivUp
  split
  · rfl
  · next hd =>
    have hd' : d.toNat - 1 < size := Nat.lt_of_le_of_lt (Nat.sub_le _ _) d.isLt
    rw [checkedMul_eq]
    by_cases hp : size ≤ x.toNat * y.toNat
    · rw [if_pos hp, if_pos (by omega)]
      rfl
    · have hp' : x.toNat * y.toNat < size := Nat.lt_of_not_le hp
      rw [if_neg hp]
      show (checkedAdd (ofNat (x.toNat * y.toNat)) (ofNat (d.toNat - 1)) >>= fun n =>
        pure (n.div d)) = _
      rw [checkedAdd_eq, toNat_ofNat_of_lt hp', toNat_ofNat_of_lt hd']
      have e : x.toNat * y.toNat + (d.toNat - 1) = x.toNat * y.toNat + d.toNat - 1 := by omega
      rw [e]
      split
      · rfl
      · next h => exact congrArg Except.ok (ofNat_div (Nat.lt_of_not_le h) d)

/-- `x * y / d` rounded as asked. -/
def mulDiv (x y d : UInt256) : Rounding → Except ArithError UInt256
  | .down => mulDivDown x y d
  | .up => mulDivUp x y d

/-- The product of two ratios, `x * y / wad`. -/
def wadMul (x y : UInt256) (rounding : Rounding) : Except ArithError UInt256 :=
  mulDiv x y wad rounding

/-- The quotient of two ratios, `x * wad / y`. -/
def wadDiv (x y : UInt256) (rounding : Rounding) : Except ArithError UInt256 :=
  mulDiv x wad y rounding

/-- `e ^ (x * n) - 1` to three terms of its series, for a rate `x` per second over `n`
seconds: `t + t ^ 2 / 2 + t ^ 3 / 6` with `t = x * n`, each term rounded down. -/
def taylorCompounded (x n : UInt256) : Except ArithError UInt256 := do
  let first ← checkedMul x n
  let second ← mulDivDown first first 2000000000000000000
  let third ← mulDivDown second first 3000000000000000000
  let firstTwo ← checkedAdd first second
  checkedAdd firstTwo third

end UInt256

end LendingSim
