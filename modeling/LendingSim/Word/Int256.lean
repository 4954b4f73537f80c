import LendingSim.Word.UInt256

/-!
# Signed 256-bit words

The rate model computes on signed 256-bit words in two's complement. Sums, differences and
products wrap modulo `2 ^ 256` into the range `[-2 ^ 255, 2 ^ 255)`, and division truncates
toward zero (`Int.tdiv`) and then wraps, so the one overflowing quotient `-2 ^ 255 / -1` is
`-2 ^ 255` again. Wrapping is `Int.bmod`, the balanced remainder, which is exactly the
two's-complement reading of the low 256 bits.
-/

namespace LendingSim

/-- `2 ^ 255`: the words are the integers from `-bound` up to, not including, `bound`. -/
abbrev Int256.bound : Int := Int.pow 2 255

/-- A signed 256-bit word. -/
structure Int256 where
  toInt : Int
  le : -Int256.bound ≤ toInt
  lt : toInt < Int256.bound
  deriving DecidableEq

namespace Int256

theorem bmod_ge (z : Int) : -bound ≤ z.bmod UInt256.size :=
  Int.le_trans (by decide) (Int.le_bmod (x := z) (m := UInt256.size) UInt256.size_pos)

theorem bmod_lt (z : Int) : z.bmod UInt256.size < bound :=
  Int.lt_of_lt_of_le (Int.bmod_lt (x := z) (m := UInt256.size) UInt256.size_pos) (by decide)

/-- The word whose two's-complement value is `z` modulo `2 ^ 256`. -/
def wrap (z : Int) : Int256 := ⟨z.bmod UInt256.size, bmod_ge z, bmod_lt z⟩

instance (n : Nat) : OfNat Int256 n := ⟨wrap n⟩

instance : Inhabited Int256 := ⟨wrap 0⟩

/-- The signed reading of the bits of an unsigned word. -/
def ofBits (w : UInt256) : Int256 := wrap w.toNat

/-- The bits of the word read as an unsigned word. -/
def toBits (x : Int256) : UInt256 :=
  UInt256.ofNat (x.toInt.emod (Int.ofNat UInt256.size)).toNat

instance : Add Int256 := ⟨fun x y => wrap (x.toInt + y.toInt)⟩

instance : Sub Int256 := ⟨fun x y => wrap (x.toInt - y.toInt)⟩

instance : Mul Int256 := ⟨fun x y => wrap (x.toInt * y.toInt)⟩

instance : Neg Int256 := ⟨fun x => wrap (-x.toInt)⟩

/-- Division truncates toward zero, then wraps. -/
instance : Div Int256 := ⟨fun x y => wrap (x.toInt.tdiv y.toInt)⟩

instance : LT Int256 := ⟨fun x y => x.toInt < y.toInt⟩

instance : LE Int256 := ⟨fun x y => x.toInt ≤ y.toInt⟩

instance (x y : Int256) : Decidable (x < y) := Int.decLt x.toInt y.toInt

instance (x y : Int256) : Decidable (x ≤ y) := Int.decLe x.toInt y.toInt

/-- Whether the word is below zero. -/
def isNeg (x : Int256) : Bool := decide (x.toInt < 0)

/-- The largest word, `2 ^ 255 - 1`. -/
def maxValue : Int256 := wrap (bound - 1)

/-- The magnitude as an unsigned word; it always fits, `2 ^ 255` included. -/
def natAbs (x : Int256) : UInt256 := UInt256.ofNat x.toInt.natAbs

/-- The decimal numeral, with a leading `-` when negative. -/
def toDecimal (x : Int256) : String :=
  if x.toInt < 0 then "-" ++ Numeral.decimal x.toInt.natAbs else Numeral.decimal x.toInt.toNat

instance : ToString Int256 := ⟨toDecimal⟩

/-- The word of `z` when it lies in `[-2 ^ 255, 2 ^ 255)`. -/
def ofInt? (z : Int) : Option Int256 :=
  if h : -bound ≤ z ∧ z < bound then some ⟨z, h.1, h.2⟩ else none

/-- Reads a numeral with an optional sign `-` or `+` before it, its magnitude read as an
unsigned word is (`UInt256.ofText?`); `none` when it is malformed or does not fit. -/
def ofText? (text : String) : Option Int256 :=
  match text.toList with
  | '-' :: body => (Numeral.ofMarkedDigits? body).bind fun n => ofInt? (-(n : Int))
  | '+' :: body => (Numeral.ofMarkedDigits? body).bind fun n => ofInt? n
  | body => (Numeral.ofMarkedDigits? body).bind fun n => ofInt? n

end Int256

end LendingSim
