import LendingSim.FixedPoint

/-!
# Decimal text of a ratio

A ratio scaled by `10 ^ 18` is written as the decimal number it stands for: the integer part,
then, only when the fraction is not zero, a point and the eighteen fraction digits with their
trailing zeros removed. So `860000000000000000` is `0.86` and `10 ^ 18` is `1`.
-/

namespace LendingSim.UInt256

/-- The eighteen decimal digits of a fraction below `10 ^ 18`, without trailing zeros. -/
def fractionDigits (fraction : Nat) : List Char :=
  let digits := Nat.toDigits 10 fraction
  let padded := List.replicate (18 - digits.length) '0' ++ digits
  (padded.reverse.dropWhile (· == '0')).reverse

/-- The decimal text of the ratio `x / 10 ^ 18`. -/
def wadText (x : UInt256) : String :=
  let integer := x.toNat / wad.toNat
  let fraction := x.toNat % wad.toNat
  if fraction = 0 then Numeral.decimal integer
  else Numeral.decimal integer ++ "." ++ String.ofList (fractionDigits fraction)

end LendingSim.UInt256
