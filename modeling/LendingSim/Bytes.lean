import LendingSim.Numeral

/-!
# Byte strings

Byte strings are lists of bytes. Numbers are laid out big-endian, most significant byte first,
in a fixed width: a 32-byte word of an ABI encoding, a 20-byte address. Byte strings are written
as `0x` and two lowercase hexadecimal digits per byte.
-/

namespace LendingSim.Bytes

/-- The `width` bytes of `n` modulo `256 ^ width`, most significant first. -/
def ofNatBE (width n : Nat) : List UInt8 :=
  (List.range width).reverse.map fun k => (n / Nat.pow 256 k % 256).toUInt8

/-- The number a big-endian byte string stands for. -/
def toNatBE (bytes : List UInt8) : Nat :=
  bytes.foldl (fun acc b => acc * 256 + b.toNat) 0

/-- The bytes from `start` up to `stop`, if `start ≤ stop ≤ length`: a range that reaches past
the end is refused, not cut short. -/
def slice? (bytes : List UInt8) (start stop : Nat) : Option (List UInt8) :=
  if start ≤ stop ∧ stop ≤ bytes.length then some ((bytes.drop start).take (stop - start))
  else none

/-- The bytes of an even number of hexadecimal digits of either case, after an optional `0x`
or `0X`. -/
def ofHex? (text : String) : Option (List UInt8) :=
  pairs (Numeral.unprefixed text.toList)
where
  /-- Two digits to a byte. -/
  pairs : List Char → Option (List UInt8)
    | [] => some []
    | high :: low :: rest => do
      let h ← Numeral.hexDigit? high
      let l ← Numeral.hexDigit? low
      let tail ← pairs rest
      pure ((h * 16 + l).toUInt8 :: tail)
    | [_] => none

/-- `0x` and two lowercase hexadecimal digits per byte. -/
def toHex (bytes : List UInt8) : String :=
  "0x" ++ String.ofList (bytes.flatMap fun b => Numeral.hexDigits 2 b.toNat)

end LendingSim.Bytes
