import LendingSim.FixedPoint

/-!
# Rounded quotients are exact

`mulDivDown` and `mulDivUp` compute the floor and the ceiling of `x * y / d` on words. The main
statement, `mulDiv_floor_ceil`, says when each fails (a zero divisor first; then a product, or
for the ceiling the product plus `d - 1`, that does not fit a word) and what each returns
otherwise, and that two successful results differ by one exactly when `d` does not divide the
product. The ceiling is written `(x * y + d - 1) / d`; `ceil_div_eq` ties it to the floor.
-/

namespace LendingSim.Proofs

open UInt256

/-- For a positive divisor, `(a + d - 1) / d` is the floor of `a / d`, plus one unless `d`
divides `a`: the ceiling of the quotient. -/
theorem ceil_div_eq (a d : Nat) (hd : 0 < d) :
    (a + d - 1) / d = a / d + (if d ∣ a then 0 else 1) := by
  have hmod := Nat.mod_lt a hd
  have hsplit := Nat.div_add_mod a d
  apply Nat.div_eq_of_lt_le
  · rw [Nat.add_mul, Nat.mul_comm (a / d) d]
    split
    · omega
    · omega
  · rw [Nat.add_mul, Nat.add_mul, Nat.mul_comm (a / d) d]
    split
    · next h =>
      have := Nat.mod_eq_zero_of_dvd h
      omega
    · omega

/-- Both rounded quotients fail only as stated and are otherwise the floor and the ceiling;
when both succeed, the ceiling is the floor plus one unless `d` divides `x * y`. -/
theorem mulDiv_floor_ceil (x y d : UInt256) :
    mulDivDown x y d =
      (if d.toNat = 0 then .error .divisionByZero
       else if size ≤ x.toNat * y.toNat then .error .overflow
       else .ok (ofNat (x.toNat * y.toNat / d.toNat))) ∧
    mulDivUp x y d =
      (if d.toNat = 0 then .error .divisionByZero
       else if size ≤ x.toNat * y.toNat + d.toNat - 1 then .error .overflow
       else .ok (ofNat ((x.toNat * y.toNat + d.toNat - 1) / d.toNat))) ∧
    ∀ down up, mulDivDown x y d = .ok down → mulDivUp x y d = .ok up →
      up.toNat = down.toNat + (if d.toNat ∣ x.toNat * y.toNat then 0 else 1) := by
  refine ⟨mulDivDown_eq x y d, mulDivUp_eq x y d, ?_⟩
  intro down up hdown hup
  rw [mulDivDown_eq] at hdown
  rw [mulDivUp_eq] at hup
  split at hdown
  · cases hdown
  · next hd =>
    split at hdown
    · cases hdown
    · next hp =>
      rw [if_neg hd] at hup
      split at hup
      · cases hup
      · next hq =>
        cases hdown
        cases hup
        rw [toNat_ofNat_of_lt (Nat.lt_of_le_of_lt (Nat.div_le_self _ _) (Nat.lt_of_not_le hq)),
          toNat_ofNat_of_lt (Nat.lt_of_le_of_lt (Nat.div_le_self _ _) (Nat.lt_of_not_le hp))]
        exact ceil_div_eq _ _ (Nat.pos_of_ne_zero hd)

end LendingSim.Proofs
