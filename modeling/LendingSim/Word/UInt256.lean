import LendingSim.Numeral

/-!
# 256-bit unsigned words

Amounts, shares, prices and ratios are unsigned 256-bit words: natural numbers below `2 ^ 256`.
Every operation that could leave that range is checked and reports an `ArithError` instead of
wrapping, the way a contract reverts; the few operations that do wrap say so in their name or
doc comment. All laws of this module are stated on `toNat`.
-/

namespace LendingSim

/-- Why a checked arithmetic operation failed. -/
inductive ArithError where
  | divisionByZero
  | overflow
  | underflow
  deriving DecidableEq, Repr

namespace ArithError

/-- The variant name reported to callers. -/
def name : ArithError → String
  | .divisionByZero => "DivisionByZero"
  | .overflow => "Overflow"
  | .underflow => "Underflow"

/-- The human-readable text of the failure. -/
def message : ArithError → String
  | .divisionByZero => "Division by zero"
  | .overflow => "Arithmetic overflow"
  | .underflow => "Arithmetic underflow"

end ArithError

/-- The number of words, `2 ^ 256`. -/
abbrev UInt256.size : Nat := Nat.pow 2 256

/-- An unsigned 256-bit word. -/
structure UInt256 where
  toNat : Nat
  isLt : toNat < UInt256.size
  deriving DecidableEq

namespace UInt256

theorem size_pos : 0 < size := Nat.two_pow_pos 256

/-- The word of `n` modulo `2 ^ 256`. -/
def ofNat (n : Nat) : UInt256 := ⟨n % size, Nat.mod_lt _ size_pos⟩

instance (n : Nat) : OfNat UInt256 n := ⟨ofNat n⟩

instance : Inhabited UInt256 := ⟨ofNat 0⟩

/-- The largest word, `2 ^ 256 - 1`. -/
def maxValue : UInt256 := ⟨size - 1, by decide⟩

instance : LT UInt256 := ⟨fun a b => a.toNat < b.toNat⟩

instance : LE UInt256 := ⟨fun a b => a.toNat ≤ b.toNat⟩

instance (a b : UInt256) : Decidable (a < b) := Nat.decLt a.toNat b.toNat

instance (a b : UInt256) : Decidable (a ≤ b) := Nat.decLe a.toNat b.toNat

instance : Ord UInt256 := ⟨fun a b => compare a.toNat b.toNat⟩

theorem ext {a b : UInt256} (h : a.toNat = b.toNat) : a = b := by
  cases a
  cases b
  cases h
  rfl

@[simp]
theorem toNat_ofNat (n : Nat) : (ofNat n).toNat = n % size := rfl

theorem toNat_ofNat_of_lt {n : Nat} (h : n < size) : (ofNat n).toNat = n :=
  Nat.mod_eq_of_lt h

/-- The word of `n` when `n` is below `2 ^ 256`. -/
def ofNat? (n : Nat) : Option UInt256 :=
  if h : n < size then some ⟨n, h⟩ else none

/-- The sum, or `overflow` when it reaches `2 ^ 256`. -/
def checkedAdd (a b : UInt256) : Except ArithError UInt256 :=
  if h : a.toNat + b.toNat < size then .ok ⟨_, h⟩ else .error .overflow

/-- The difference, or `underflow` when `b` exceeds `a`. -/
def checkedSub (a b : UInt256) : Except ArithError UInt256 :=
  if b.toNat ≤ a.toNat then .ok ⟨a.toNat - b.toNat, Nat.lt_of_le_of_lt (Nat.sub_le _ _) a.isLt⟩
  else .error .underflow

/-- The product, or `overflow` when it reaches `2 ^ 256`. -/
def checkedMul (a b : UInt256) : Except ArithError UInt256 :=
  if h : a.toNat * b.toNat < size then .ok ⟨_, h⟩ else .error .overflow

/-- `checkedAdd` fails exactly when the sum reaches `2 ^ 256`, and otherwise is the sum. -/
theorem checkedAdd_eq (a b : UInt256) :
    checkedAdd a b =
      if size ≤ a.toNat + b.toNat then .error .overflow else .ok (ofNat (a.toNat + b.toNat)) := by
  unfold checkedAdd
  by_cases h : a.toNat + b.toNat < size
  · rw [dif_pos h, if_neg (Nat.not_le.mpr h)]
    exact congrArg Except.ok (ext (toNat_ofNat_of_lt h).symm)
  · rw [dif_neg h, if_pos (Nat.not_lt.mp h)]

/-- `checkedMul` fails exactly when the product reaches `2 ^ 256`, and otherwise is the
product. -/
theorem checkedMul_eq (a b : UInt256) :
    checkedMul a b =
      if size ≤ a.toNat * b.toNat then .error .overflow else .ok (ofNat (a.toNat * b.toNat)) := by
  unfold checkedMul
  by_cases h : a.toNat * b.toNat < size
  · rw [dif_pos h, if_neg (Nat.not_le.mpr h)]
    exact congrArg Except.ok (ext (toNat_ofNat_of_lt h).symm)
  · rw [dif_neg h, if_pos (Nat.not_lt.mp h)]

/-- The difference floored at zero. -/
def zeroFloorSub (a b : UInt256) : UInt256 :=
  ⟨a.toNat - b.toNat, Nat.lt_of_le_of_lt (Nat.sub_le _ _) a.isLt⟩

/-- The sum capped at `max`. -/
def saturatingAdd (a b : UInt256) : UInt256 :=
  if h : a.toNat + b.toNat < size then ⟨_, h⟩ else maxValue

instance : Min UInt256 := ⟨fun a b => if a < b then a else b⟩

instance : Max UInt256 := ⟨fun a b => if b < a then a else b⟩

/-- The quotient rounded down; zero for a zero divisor (callers check the divisor first). -/
def div (a b : UInt256) : UInt256 :=
  ⟨a.toNat / b.toNat, Nat.lt_of_le_of_lt (Nat.div_le_self _ _) a.isLt⟩

/-- Dividing the word of a number that fits is dividing the number. -/
theorem ofNat_div {n : Nat} (h : n < size) (d : UInt256) :
    (ofNat n).div d = ofNat (n / d.toNat) := by
  apply ext
  show (ofNat n).toNat / d.toNat = (ofNat (n / d.toNat)).toNat
  rw [toNat_ofNat_of_lt h, toNat_ofNat_of_lt (Nat.lt_of_le_of_lt (Nat.div_le_self n _) h)]

/-- The bits shifted right by `k` places. -/
def shiftRight (a : UInt256) (k : Nat) : UInt256 :=
  ⟨a.toNat >>> k, Nat.lt_of_le_of_lt (by rw [Nat.shiftRight_eq_div_pow]; exact Nat.div_le_self _ _)
    a.isLt⟩

/-- The bits shifted left by `k` places; bits beyond the width are lost. -/
def shiftLeft (a : UInt256) (k : Nat) : UInt256 := ofNat (a.toNat <<< k)

/-- `base ^ exponent` modulo `2 ^ 256`. -/
def wrappingPow (base exponent : Nat) : UInt256 := ofNat (Nat.pow base exponent)

/-- Whether the word is zero. -/
def isZero (a : UInt256) : Bool := a.toNat == 0

/-- The decimal numeral of the word. -/
def toDecimal (a : UInt256) : String := Numeral.decimal a.toNat

/-- `0x` and the lowercase hexadecimal digits of the word, without leading zeros (`0x0` for
zero). -/
def toHex (a : UInt256) : String := Numeral.prefixedHex 0 a.toNat

instance : ToString UInt256 := ⟨toDecimal⟩

/-- Reads a numeral in the base its mark names, with digits of either case and underscores
skipped; a numeral with no digits reads as zero. `none` when a character is not a digit of the
base or the value does not fit. -/
def ofText? (text : String) : Option UInt256 :=
  (Numeral.ofMarkedDigits? text.toList).bind ofNat?

end UInt256

end LendingSim
