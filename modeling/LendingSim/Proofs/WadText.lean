import Mathlib
import LendingSim.FixedPoint.WadText

/-!
# The decimal text of a ratio is exact and canonical

`wadText x` writes the ratio `x / 10 ^ 18` as the integer part `x / 10 ^ 18`, then, exactly when
the remainder `x % 10 ^ 18` is not zero, a point and the remainder's eighteen digits, padded with
zeros on the left and stripped of their zeros on the right. Stripping undoes nothing that
matters: the stripped digits followed by as many zeros as were stripped are the eighteen padded
digits again, whose value is the remainder. So reading the text back as a decimal number
(`decimalValue?`) gives exactly `x / 10 ^ 18`, the fraction never ends in `0`, and different
ratios are written differently (`wadText_canonical`).
-/

namespace LendingSim

namespace Numeral

/-- The value of a decimal numeral: decimal digits, then, if there is a point, at least one
decimal digit after it. -/
def decimalValue? (text : String) : Option ℚ :=
  let whole := text.toList.takeWhile Char.isDigit
  if whole = [] then none
  else
    match text.toList.dropWhile Char.isDigit with
    | [] => some (Nat.ofDigitChars 10 whole 0 : ℚ)
    | '.' :: fraction =>
      if fraction ≠ [] ∧ fraction.all Char.isDigit then
        some (Nat.ofDigitChars 10 whole 0 +
          (Nat.ofDigitChars 10 fraction 0 : ℚ) / 10 ^ fraction.length)
      else none
    | _ => none

/-- A number written alone reads as itself. -/
theorem decimalValue?_toDigits (n : Nat) :
    decimalValue? (String.ofList (Nat.toDigits 10 n)) = some (n : ℚ) := by
  have htake : (Nat.toDigits 10 n).takeWhile Char.isDigit = Nat.toDigits 10 n :=
    List.takeWhile_eq_self_iff.mpr fun _ hc =>
      Nat.isDigit_of_mem_toDigits (by decide) (by decide) hc
  have hdrop : (Nat.toDigits 10 n).dropWhile Char.isDigit = [] :=
    List.dropWhile_eq_nil_iff.mpr fun _ hc =>
      Nat.isDigit_of_mem_toDigits (by decide) (by decide) hc
  simp only [decimalValue?, String.toList_ofList, htake, hdrop, Nat.toDigits_ne_nil, if_false,
    Nat.ofDigitChars_ten_toDigits]

/-- A number followed by a point and digits reads as the number plus the digits' value over
`10` to the number of digits. -/
theorem decimalValue?_toDigits_point (n : Nat) {fraction : List Char} (hne : fraction ≠ [])
    (hdigits : ∀ c ∈ fraction, c.isDigit = true) :
    decimalValue? (String.ofList (Nat.toDigits 10 n ++ '.' :: fraction)) =
      some (n + (Nat.ofDigitChars 10 fraction 0 : ℚ) / 10 ^ fraction.length) := by
  have hall : ∀ c ∈ Nat.toDigits 10 n, c.isDigit = true := fun _ hc =>
    Nat.isDigit_of_mem_toDigits (by decide) (by decide) hc
  have hdot : ¬ Char.isDigit '.' = true := by decide
  have htake : (Nat.toDigits 10 n ++ '.' :: fraction).takeWhile Char.isDigit = Nat.toDigits 10 n := by
    rw [List.takeWhile_append_of_pos hall, List.takeWhile_cons_of_neg hdot, List.append_nil]
  have hdrop : (Nat.toDigits 10 n ++ '.' :: fraction).dropWhile Char.isDigit = '.' :: fraction := by
    rw [List.dropWhile_append_of_pos hall, List.dropWhile_cons_of_neg hdot]
  simp only [decimalValue?, String.toList_ofList, htake, hdrop, Nat.toDigits_ne_nil, if_false]
  rw [if_pos ⟨hne, List.all_eq_true.mpr hdigits⟩, Nat.ofDigitChars_ten_toDigits]

end Numeral

/-! ### Stripping trailing zeros -/

section Trim

variable (l : List Char)

/-- Stripping the zeros at the end of `l` leaves a prefix that the stripped zeros complete. -/
theorem trimZeros_append_zeros :
    (l.reverse.dropWhile (· == '0')).reverse ++
      List.replicate (l.length - (l.reverse.dropWhile (· == '0')).reverse.length) '0' = l := by
  obtain ⟨k, hk⟩ : ∃ k, l.reverse.takeWhile (· == '0') = List.replicate k '0' :=
    ⟨_, List.eq_replicate_iff.mpr ⟨rfl, fun c hc => by
      simpa using List.all_eq_true.mp List.all_takeWhile c hc⟩⟩
  have hsplit : l = (l.reverse.dropWhile (· == '0')).reverse ++ List.replicate k '0' := by
    conv_lhs => rw [← List.reverse_reverse l,
      ← List.takeWhile_append_dropWhile (p := (· == '0')) (l := l.reverse), hk]
    rw [List.reverse_append, List.reverse_replicate]
  have hcount : l.length - (l.reverse.dropWhile (· == '0')).reverse.length = k := by
    have hlen := congrArg List.length hsplit
    rw [List.length_append, List.length_replicate] at hlen
    omega
  rw [hcount]
  exact hsplit.symm

/-- What is left after stripping never ends in a zero. -/
theorem getLast?_trimZeros : (l.reverse.dropWhile (· == '0')).reverse.getLast? ≠ some '0' := by
  rw [List.getLast?_reverse]
  intro hzero
  have hnot := List.head?_dropWhile_not (· == '0') l.reverse
  rw [hzero] at hnot
  exact absurd hnot (by decide)

theorem mem_of_mem_trimZeros {c : Char} (h : c ∈ (l.reverse.dropWhile (· == '0')).reverse) :
    c ∈ l :=
  List.mem_reverse.mp (List.dropWhile_subset _ (List.mem_reverse.mp h))

end Trim

namespace UInt256

/-! ### The eighteen fraction digits -/

/-- The eighteen digits of a remainder below `10 ^ 18`, zeros first. -/
theorem padded_length {r : Nat} (hr : r < 10 ^ 18) :
    (List.replicate (18 - (Nat.toDigits 10 r).length) '0' ++ Nat.toDigits 10 r).length = 18 := by
  have hlen := (Nat.length_toDigits_le_iff (by decide) (by decide)).mpr hr
  simp only [List.length_append, List.length_replicate]
  omega

/-- Zeros in front change nothing of a number's value. -/
theorem ofDigitChars_padded (k r : Nat) :
    Nat.ofDigitChars 10 (List.replicate k '0' ++ Nat.toDigits 10 r) 0 = r := by
  rw [Nat.ofDigitChars_append, Nat.ofDigitChars_replicate_zero, Nat.mul_zero,
    Nat.ofDigitChars_ten_toDigits]

theorem fractionDigits_eq (r : Nat) :
    fractionDigits r = ((List.replicate (18 - (Nat.toDigits 10 r).length) '0' ++
      Nat.toDigits 10 r).reverse.dropWhile (· == '0')).reverse := rfl

/-- The fraction digits of a remainder below `10 ^ 18` are at most eighteen decimal digits, do not
end in `0`, and followed by zeros up to eighteen digits have the remainder's value. -/
theorem fractionDigits_spec {r : Nat} (hr : r < 10 ^ 18) :
    (fractionDigits r).length ≤ 18 ∧ (∀ c ∈ fractionDigits r, c.isDigit = true) ∧
      (fractionDigits r).getLast? ≠ some '0' ∧
      Nat.ofDigitChars 10 (fractionDigits r ++
        List.replicate (18 - (fractionDigits r).length) '0') 0 = r := by
  have hpad := trimZeros_append_zeros
    (List.replicate (18 - (Nat.toDigits 10 r).length) '0' ++ Nat.toDigits 10 r)
  rw [padded_length hr] at hpad
  have hlen := congrArg List.length hpad
  rw [List.length_append, padded_length hr] at hlen
  rw [fractionDigits_eq]
  refine ⟨by omega, fun c hc => ?_, getLast?_trimZeros _, ?_⟩
  · rcases List.mem_append.mp (mem_of_mem_trimZeros _ hc) with hzero | hdigit
    · rw [List.eq_of_mem_replicate hzero]
      rfl
    · exact Nat.isDigit_of_mem_toDigits (by decide) (by decide) hdigit
  · rw [hpad, ofDigitChars_padded]

theorem fractionDigits_ne_nil {r : Nat} (hr : r < 10 ^ 18) (hpos : r ≠ 0) :
    fractionDigits r ≠ [] := by
  intro hnil
  have hvalue := (fractionDigits_spec hr).2.2.2
  rw [hnil, List.nil_append, List.length_nil, Nat.ofDigitChars_replicate_zero, Nat.mul_zero] at hvalue
  exact hpos hvalue.symm

/-- The text is the integer part's digits, then the point and the fraction digits unless the
remainder is zero. -/
theorem wadText_toList (x : UInt256) :
    (wadText x).toList = Nat.toDigits 10 (x.toNat / 10 ^ 18) ++
      (if x.toNat % 10 ^ 18 = 0 then [] else '.' :: fractionDigits (x.toNat % 10 ^ 18)) := by
  have h18 : (10 : Nat) ^ 18 = wad.toNat := by decide
  rw [h18]
  unfold wadText Numeral.decimal
  by_cases hzero : x.toNat % wad.toNat = 0 <;> simp [hzero, String.toList_append, String.toList_ofList]

/-- Digits whose value, completed with zeros to eighteen digits, is `r` stand for `r / 10 ^ 18`
after a point. -/
theorem value_of_fraction {q r : Nat} {fraction : List Char} (hlen : fraction.length ≤ 18)
    (hvalue : Nat.ofDigitChars 10 (fraction ++ List.replicate (18 - fraction.length) '0') 0 = r) :
    (q : ℚ) + (Nat.ofDigitChars 10 fraction 0 : ℚ) / 10 ^ fraction.length =
      ((q * 10 ^ 18 + r : Nat) : ℚ) / 10 ^ 18 := by
  rw [Nat.ofDigitChars_append, Nat.ofDigitChars_replicate_zero] at hvalue
  have hpow : (10 : ℚ) ^ fraction.length * 10 ^ (18 - fraction.length) = 10 ^ 18 := by
    rw [← pow_add, Nat.add_sub_cancel' hlen]
  rw [← hvalue, Nat.cast_add, Nat.cast_mul, Nat.cast_mul, Nat.cast_pow, Nat.cast_pow, Nat.cast_ofNat,
    ← hpow]
  field_simp

/-- Read as a decimal number, the text of a ratio is the ratio. -/
theorem decimalValue?_wadText (x : UInt256) :
    Numeral.decimalValue? (wadText x) = some ((x.toNat : ℚ) / 10 ^ 18) := by
  have hsplit : x.toNat = x.toNat / 10 ^ 18 * 10 ^ 18 + x.toNat % 10 ^ 18 :=
    (Nat.div_add_mod' x.toNat (10 ^ 18)).symm
  have hr : x.toNat % 10 ^ 18 < 10 ^ 18 := Nat.mod_lt _ (by decide)
  rw [← String.ofList_toList (s := wadText x), wadText_toList]
  split
  · next hzero =>
    rw [List.append_nil, Numeral.decimalValue?_toDigits, Option.some.injEq]
    conv_rhs => rw [hsplit, hzero]
    rw [Nat.add_zero, Nat.cast_mul, Nat.cast_pow, Nat.cast_ofNat, mul_div_assoc,
      div_self (by positivity), mul_one]
  · next hpos =>
    obtain ⟨hlen, hdigits, -, hvalue⟩ := fractionDigits_spec hr
    rw [Numeral.decimalValue?_toDigits_point _ (fractionDigits_ne_nil hr hpos) hdigits,
      value_of_fraction hlen hvalue, ← hsplit]

/-- The text of a ratio is the digits of its whole part, then, unless the ratio is whole, a point
and at most eighteen digits, the last not `0`, that padded with zeros to eighteen digits write
the remainder. -/
theorem wadText_layout (x : UInt256) : ∃ fraction : List Char,
    (wadText x).toList = Nat.toDigits 10 (x.toNat / 10 ^ 18) ++
      (if x.toNat % 10 ^ 18 = 0 then [] else '.' :: fraction) ∧
    (fraction = [] ↔ x.toNat % 10 ^ 18 = 0) ∧
    fraction.length ≤ 18 ∧ (∀ c ∈ fraction, c.isDigit = true) ∧
    fraction.getLast? ≠ some '0' ∧
    Nat.ofDigitChars 10 (fraction ++ List.replicate (18 - fraction.length) '0') 0 =
      x.toNat % 10 ^ 18 := by
  have hr : x.toNat % 10 ^ 18 < 10 ^ 18 := Nat.mod_lt _ (by decide)
  by_cases hzero : x.toNat % 10 ^ 18 = 0
  case pos =>
    refine ⟨[], by rw [wadText_toList, if_pos hzero, if_pos hzero], iff_of_true rfl hzero,
      by simp, by simp, by simp, ?_⟩
    rw [hzero, List.nil_append, List.length_nil, Nat.ofDigitChars_replicate_zero, Nat.mul_zero]
  case neg =>
    obtain ⟨hlen, hdigits, hlast, hvalue⟩ := fractionDigits_spec hr
    exact ⟨fractionDigits (x.toNat % 10 ^ 18), wadText_toList x,
      ⟨fun h => absurd h (fractionDigits_ne_nil hr hzero), fun h => absurd h hzero⟩,
      hlen, hdigits, hlast, hvalue⟩

/-- Two words with one text are one word: the text reads back as the ratio. -/
theorem wadText_injective : Function.Injective wadText := by
  intro x y hxy
  have hread := decimalValue?_wadText x
  rw [hxy, decimalValue?_wadText y, Option.some.injEq] at hread
  have hnat : (y.toNat : ℚ) = x.toNat := by
    field_simp at hread
    exact hread
  exact ext (Nat.cast_injective hnat).symm

end UInt256

/-- The decimal text of a ratio is exact and canonical: the digits of `x / 10 ^ 18`, then, exactly
when `x % 10 ^ 18` is not zero, a point and at most eighteen digits not ending in `0` that write
it. Read as a decimal number the text is `x / 10 ^ 18`, and no two words share a text. -/
theorem wadText_canonical :
    (∀ x : UInt256, ∃ fraction : List Char,
      (UInt256.wadText x).toList = Nat.toDigits 10 (x.toNat / 10 ^ 18) ++
        (if x.toNat % 10 ^ 18 = 0 then [] else '.' :: fraction) ∧
      (fraction = [] ↔ x.toNat % 10 ^ 18 = 0) ∧
      fraction.length ≤ 18 ∧ (∀ c ∈ fraction, c.isDigit = true) ∧
      fraction.getLast? ≠ some '0' ∧
      Nat.ofDigitChars 10 (fraction ++ List.replicate (18 - fraction.length) '0') 0 =
        x.toNat % 10 ^ 18 ∧
      Numeral.decimalValue? (UInt256.wadText x) = some ((x.toNat : ℚ) / 10 ^ 18)) ∧
    Function.Injective UInt256.wadText := by
  refine ⟨fun x => ?_, UInt256.wadText_injective⟩
  obtain ⟨fraction, htext, hempty, hlen, hdigits, hlast, hvalue⟩ := UInt256.wadText_layout x
  exact ⟨fraction, htext, hempty, hlen, hdigits, hlast, hvalue, UInt256.decimalValue?_wadText x⟩

example : UInt256.wadText 860000000000000000 = "0.86" := by decide
example : UInt256.wadText 2500000000000000000 = "2.5" := by rfl

end LendingSim
