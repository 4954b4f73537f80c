import LendingSim.Bytes
import LendingSim.Hash.Keccak

/-!
# Addresses and market ids

An address is a 20-byte number and a market id a 32-byte number. Both are written as `0x` and
lowercase hexadecimal digits of fixed width, and are ordered as numbers, which is the order of
their bytes and of their lowercase text. In messages an address is written in its checksummed
form: a letter digit is uppercased when the matching nibble of the Keccak-256 hash of the
lowercase digits is at least 8.
-/

namespace LendingSim

/-- The number of addresses, `2 ^ 160`. -/
abbrev Address.size : Nat := Nat.pow 2 160

/-- A 20-byte account address. -/
structure Address where
  toNat : Nat
  isLt : toNat < Address.size
  deriving DecidableEq

namespace Address

/-- The zero address: no account. -/
def zero : Address := ⟨0, by decide⟩

instance : Inhabited Address := ⟨zero⟩

instance : Ord Address := ⟨fun a b => compare a.toNat b.toNat⟩

/-- The address of `n` when it fits in 20 bytes. -/
def ofNat? (n : Nat) : Option Address :=
  if h : n < size then some ⟨n, h⟩ else none

/-- Reads exactly 40 hexadecimal digits of either case, after an optional `0x` or `0X`. -/
def ofText? (text : String) : Option Address :=
  let digits := Numeral.unprefixed text.toList
  if digits.length = 40 then (Numeral.ofHexDigits? digits).bind ofNat? else none

/-- `0x` and the 40 lowercase hexadecimal digits. -/
def toText (a : Address) : String := Numeral.prefixedHex 40 a.toNat

/-- The 40 lowercase digits with a letter uppercased where the hash of the lowercase digits has
a nibble of 8 or more. -/
def checksumDigits (a : Address) : List Char :=
  let digits := Numeral.hexDigits 40 a.toNat
  let digest := Keccak.hash (digits.map fun c => c.toNat.toUInt8)
  let nibble (i : Nat) : Nat :=
    let byte := (digest.getD (i / 2) 0).toNat
    if i % 2 = 0 then byte / 16 else byte % 16
  (digits.zipIdx).map fun (c, i) => if 8 ≤ nibble i then c.toUpper else c

/-- The checksummed text of the address, as written in messages. -/
def checksummed (a : Address) : String := "0x" ++ String.ofList a.checksumDigits

/-- The 32-byte ABI word of the address, zero-padded on the left. -/
def abiWord (a : Address) : List UInt8 := Bytes.ofNatBE 32 a.toNat

end Address

/-- The number of market ids, `2 ^ 256`. -/
abbrev MarketId.size : Nat := Nat.pow 2 256

/-- The 32-byte id of a market. -/
structure MarketId where
  toNat : Nat
  isLt : toNat < MarketId.size
  deriving DecidableEq

namespace MarketId

instance : Inhabited MarketId := ⟨⟨0, by decide⟩⟩

instance : Ord MarketId := ⟨fun a b => compare a.toNat b.toNat⟩

/-- Reads exactly 64 hexadecimal digits of either case, after an optional `0x` or `0X`. -/
def ofText? (text : String) : Option MarketId :=
  let digits := Numeral.unprefixed text.toList
  if digits.length = 64 then
    (Numeral.ofHexDigits? digits).bind fun n =>
      if h : n < size then some ⟨n, h⟩ else none
  else none

/-- `0x` and the 64 lowercase hexadecimal digits. -/
def toText (id : MarketId) : String := Numeral.prefixedHex 64 id.toNat

/-- The id read from a 32-byte digest, most significant byte first. -/
def ofDigest (digest : List UInt8) : MarketId :=
  ⟨Bytes.toNatBE digest % size, Nat.mod_lt _ (Nat.two_pow_pos 256)⟩

end MarketId

end LendingSim
