import LendingSim.Json.Basic
import LendingSim.Address
import LendingSim.Word.Int256

/-!
# Reading typed fields of JSON values

Decoders turn JSON values into words, addresses, ids, numbers and lists, failing with a short
note of what was expected. Words travel as numeral strings (or as integers that fit 64 bits),
addresses and ids as hexadecimal strings (or as arrays of exactly their bytes), small integers
(times, decimals, offsets) as JSON numbers. A required field must be present; an optional one
may be absent or `null`, and a defaulted one takes its default when absent.

An array read as a fixed number of bytes looks at one item past them to make sure it is not a
further byte: one item there that is no byte ends the array, and a second is an error. In a
request, which is parsed whole before it is read, that item may be anything; in a document read
while it is parsed, only a scalar can be stepped over (`Tail`).
-/

namespace LendingSim.Json

/-- A decoded value, or a note of what was expected. -/
abbrev Decoded (α : Type) := Except String α

/-- A string. -/
def asString : Json → Decoded String
  | .string s => .ok s
  | _ => .error "expected a string"

/-- A boolean. -/
def asBool : Json → Decoded Bool
  | .bool b => .ok b
  | _ => .error "expected a boolean"

/-- A non-negative integer below `2 ^ 64`. -/
def asNat : Json → Decoded Nat
  | .number n => if 0 ≤ n ∧ n.toNat < Nat.pow 2 64 then .ok n.toNat else .error "expected an unsigned integer"
  | _ => .error "expected a number"

/-- A number below `2 ^ 8`. -/
def asByte (j : Json) : Decoded Nat := do
  let n ← asNat j
  if n < 256 then pure n else throw "expected a byte"

/-- An array of values. -/
def asArray : Json → Decoded (List Json)
  | .array items => .ok items
  | _ => .error "expected an array"

/-- The byte an integer from 0 to 255 stands for. -/
def byte? : Json → Option UInt8
  | .number n => if 0 ≤ n ∧ n < 256 then some n.toNat.toUInt8 else none
  | _ => none

/-- Whether a value is a scalar: `null`, a boolean, a number or a string with paired
surrogates. -/
def isScalar : Json → Bool
  | .null | .bool _ | .number _ | .decimal _ | .string _ => true
  | _ => false

/-- The bytes of an array of byte items. -/
def bytesOfItems? (items : List Json) : Option (List UInt8) :=
  items.mapM byte?

/-- What may follow the bytes of a fixed-width array: any one item that is not a byte, or only
a scalar one. -/
inductive Tail where
  | anyItem
  | scalarOnly

/-- Whether an item may follow the bytes of a fixed-width array: never a byte. -/
def Tail.admits (tail : Tail) (item : Json) : Bool :=
  (byte? item).isNone &&
    match tail with
    | .anyItem => true
    | .scalarOnly => isScalar item

/-- The bytes of an array of exactly `width` bytes, which may be followed by one item that
`tail` admits. -/
def fixedBytesOfItems? (tail : Tail) (width : Nat) (items : List Json) : Option (List UInt8) := do
  let bytes ← bytesOfItems? (items.take width)
  if bytes.length < width then none
  match items.drop width with
  | [] => some bytes
  | [extra] => if tail.admits extra then some bytes else none
  | _ => none

/-- An unsigned word: a numeral string, or an integer below `2 ^ 64`. -/
def asUInt256 : Json → Decoded UInt256
  | .string s => match UInt256.ofText? s with
    | some w => .ok w
    | none => .error "expected an unsigned 256-bit integer"
  | .number n =>
    if 0 ≤ n ∧ n.toNat < Nat.pow 2 64 then .ok (UInt256.ofNat n.toNat)
    else .error "expected an unsigned 256-bit integer"
  | _ => .error "expected an unsigned 256-bit integer"

/-- A signed word: a numeral string with an optional sign, or an integer from `-2 ^ 63` up to
`2 ^ 64`. -/
def asInt256 : Json → Decoded Int256
  | .string s => match Int256.ofText? s with
    | some w => .ok w
    | none => .error "expected a signed 256-bit integer"
  | .number n =>
    match (if -(Nat.pow 2 63 : Int) ≤ n ∧ n < (Nat.pow 2 64 : Int) then Int256.ofInt? n else none) with
    | some w => .ok w
    | none => .error "expected a signed 256-bit integer"
  | _ => .error "expected a signed 256-bit integer"

/-- An address: 40 hexadecimal digits, or an array of its 20 bytes ended as `tail` allows. -/
def asAddressWith (tail : Tail) : Json → Decoded Address
  | .string s => match Address.ofText? s with
    | some a => .ok a
    | none => .error "expected an address"
  | .array items =>
    match (fixedBytesOfItems? tail 20 items).bind (Address.ofNat? ∘ Bytes.toNatBE) with
    | some a => .ok a
    | none => .error "expected an address"
  | _ => .error "expected an address"

/-- An address in a request. -/
def asAddress : Json → Decoded Address := asAddressWith .anyItem

/-- A market id: 64 hexadecimal digits, or an array of its 32 bytes and perhaps one more item
that is not a byte. -/
def asMarketId : Json → Decoded MarketId
  | .string s => match MarketId.ofText? s with
    | some id => .ok id
    | none => .error "expected a market id"
  | .array items => match fixedBytesOfItems? .anyItem 32 items with
    | some bytes => .ok (MarketId.ofDigest bytes)
    | none => .error "expected a market id"
  | _ => .error "expected a market id"

/-- A byte string: an even number of hexadecimal digits, or an array of bytes. -/
def asBytes : Json → Decoded (List UInt8)
  | .string s => match Bytes.ofHex? s with
    | some bytes => .ok bytes
    | none => .error "expected bytes"
  | .array items => match bytesOfItems? items with
    | some bytes => .ok bytes
    | none => .error "expected bytes"
  | _ => .error "expected bytes"

/-- Every item of an array, decoded. -/
def asList {α : Type} (decode : Json → Decoded α) (j : Json) : Decoded (List α) := do
  (← asArray j).mapM decode

/-- The first of the `known` keys that an object's fields give twice. -/
def repeatedKey? (known : List String) (fields : List (String × Json)) : Option String :=
  known.find? fun key => 1 < fields.countP (·.1 == key)

/-- A required field, decoded. -/
def required {α : Type} (j : Json) (key : String) (decode : Json → Decoded α) : Decoded α :=
  match j.field? key with
  | some value => (decode value).mapError fun note => key ++ ": " ++ note
  | none => .error ("missing field " ++ key)

/-- An optional field, decoded; absent or `null` is `none`. -/
def optional {α : Type} (j : Json) (key : String) (decode : Json → Decoded α) :
    Decoded (Option α) :=
  match j.field? key with
  | none => .ok none
  | some .null => .ok none
  | some value => (some <$> decode value).mapError fun note => key ++ ": " ++ note

/-- A field with a default for when it is absent. -/
def withDefault {α : Type} (j : Json) (key : String) (decode : Json → Decoded α) (default : α) :
    Decoded α :=
  match j.field? key with
  | none => .ok default
  | some value => (decode value).mapError fun note => key ++ ": " ++ note

/-- A word as a decimal string. -/
def ofUInt256 (w : UInt256) : Json := .string w.toDecimal

/-- An address as lowercase text. -/
def ofAddress (a : Address) : Json := .string a.toText

/-- A market id as lowercase text. -/
def ofMarketId (id : MarketId) : Json := .string id.toText

/-- A natural number. -/
def ofNat (n : Nat) : Json := .number n

/-- An optional value, `null` when absent. -/
def ofOption {α : Type} (encode : α → Json) : Option α → Json
  | some a => encode a
  | none => .null

end LendingSim.Json
