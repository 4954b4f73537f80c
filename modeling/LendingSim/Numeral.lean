/-!
# Decimal and hexadecimal numerals

Amounts travel as numerals, decimal or marked as another base, addresses, ids and byte strings
as hexadecimal digits after an optional `0x`. This module reads and writes natural numbers in these bases. The strict
readers take digits only (no sign, separator or blank); the lenient one, for amounts, takes the
digits of any base up to 36 in either case and skips underscores used as separators. Writing
hexadecimal uses lowercase digits padded with zeros to a fixed width.
-/

namespace LendingSim.Numeral

/-- The value of a decimal digit. -/
def decimalDigit? (c : Char) : Option Nat :=
  if c.isDigit then some (c.toNat - '0'.toNat) else none

/-- The value of a hexadecimal digit, in either case. -/
def hexDigit? (c : Char) : Option Nat :=
  if c.isDigit then some (c.toNat - '0'.toNat)
  else if 'a' ≤ c ∧ c ≤ 'f' then some (c.toNat - 'a'.toNat + 10)
  else if 'A' ≤ c ∧ c ≤ 'F' then some (c.toNat - 'A'.toNat + 10)
  else none

/-- The value of a digit of base `radix` (at most 36): `0` to `9`, then the letters of either case
from ten on; `none` for any other character and for a digit that the base does not have. -/
def radixDigit? (radix : Nat) (c : Char) : Option Nat :=
  let value? :=
    if c.isDigit then some (c.toNat - '0'.toNat)
    else if 'a' ≤ c ∧ c ≤ 'z' then some (c.toNat - 'a'.toNat + 10)
    else if 'A' ≤ c ∧ c ≤ 'Z' then some (c.toNat - 'A'.toNat + 10)
    else none
  value?.bind fun v => if v < radix then some v else none

/-- Reads digits, most significant first, onto the value `acc` already read. -/
def readDigits (digit? : Char → Option Nat) (base acc : Nat) : List Char → Option Nat
  | [] => some acc
  | c :: rest =>
    match digit? c with
    | some value => readDigits digit? base (acc * base + value) rest
    | none => none

/-- The value of a non-empty list of hexadecimal digits. -/
def ofHexDigits? : List Char → Option Nat
  | [] => none
  | digits => readDigits hexDigit? 16 0 digits

/-- The value of digits of base `radix`, most significant first, with underscores skipped; no
digits at all read as zero. -/
def ofRadixDigits? (radix : Nat) (digits : List Char) : Option Nat :=
  readDigits (radixDigit? radix) radix 0 (digits.filter (· != '_'))

/-- The characters after a leading `0x` or `0X`, or all of them when there is none. -/
def unprefixed : List Char → List Char
  | '0' :: x :: rest => if x = 'x' ∨ x = 'X' then rest else '0' :: x :: rest
  | cs => cs

/-- The base a numeral is written in and its digits: `0x`, `0o` or `0b` (either case of the
letter) mark base 16, 8 or 2, and a numeral without a mark is decimal. -/
def radixOf : List Char → Nat × List Char
  | '0' :: mark :: digits =>
    if mark = 'x' ∨ mark = 'X' then (16, digits)
    else if mark = 'o' ∨ mark = 'O' then (8, digits)
    else if mark = 'b' ∨ mark = 'B' then (2, digits)
    else (10, '0' :: mark :: digits)
  | digits => (10, digits)

/-- The value of a numeral in the base its mark names (see `radixOf`), digits of either case,
underscores skipped, no digits reading as zero. -/
def ofMarkedDigits? (numeral : List Char) : Option Nat :=
  let (radix, digits) := radixOf numeral
  ofRadixDigits? radix digits

/-- The decimal numeral of `n`, without leading zeros. -/
def decimal (n : Nat) : String :=
  String.ofList (Nat.toDigits 10 n)

/-- The lowercase hexadecimal digits of `n`, padded on the left with zeros to `width`. -/
def hexDigits (width n : Nat) : List Char :=
  let digits := Nat.toDigits 16 n
  List.replicate (width - digits.length) '0' ++ digits

/-- `0x` and the `width` lowercase hexadecimal digits of `n`. -/
def prefixedHex (width n : Nat) : String :=
  "0x" ++ String.ofList (hexDigits width n)

end LendingSim.Numeral
