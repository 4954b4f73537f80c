import LendingSim.Proofs.SignedBuilds

/-!
# The exponential of the rate curve

`wadExp x` reduces `x = q ln 2 + r` with `|r| ≤ ln 2 / 2`, approximates `e ^ r` by
`1 + r + r ^ 2 / 2` and shifts that by `q` bits. Read on integers it is `expValue`, and every
build that keeps exact results computes exactly that word (`wadExp_faithful`): no step of the
exponential overflows, whatever its input.

The main statement is `expValue_monotone`. Within one multiple of `ln 2` the second-order
polynomial rises with `r`, even after truncation; from one multiple to the next the scale
doubles while the polynomial falls from its value at `ln 2 / 2` to its value at `-ln 2 / 2`,
less than half; and both ends of the range are constants that the polynomial meets from below.
So the exponential never decreases, and lies between `0` and `expUpperValue`.
-/

namespace LendingSim

open Int256

namespace Int256

/-- The bounds of `Fits` as numerals. -/
theorem fits_iff {z : Int} :
    Fits z ↔ -57896044618658097711785492504343953926634992332820282019728792003956564819968 ≤ z ∧
      z < 57896044618658097711785492504343953926634992332820282019728792003956564819968 :=
  Iff.rfl

theorem ext_toInt {x y : Int256} (h : x.toInt = y.toInt) : x = y := by
  cases x
  cases y
  simp only at h
  subst h
  rfl

/-- Bits below `2 ^ 255` read back as their number. -/
theorem ofBits_toInt {w : UInt256} (h : w.toNat < Nat.pow 2 255) : (ofBits w).toInt = w.toNat :=
  toInt_wrap (fits_of_natAbs_lt (by simpa using h))

end Int256

namespace RateCurve

@[simp] theorem wad_toInt : wad.toInt = 1000000000000000000 := rfl

@[simp] theorem ln2_toInt : ln2.toInt = 693147180559945309 := rfl

@[simp] theorem lnWeiAbs_toInt : lnWeiAbs.toInt = 41446531673892822312 := rfl

@[simp] theorem expUpperBound_toInt : expUpperBound.toInt = 93859467695000404319 := rfl

@[simp] theorem expUpperValue_toInt :
    expUpperValue.toInt = 57716089161558943949701069502944508345128422502756744429568 := rfl

/-- A non-negative word read as unsigned keeps its value. -/
theorem toUnsigned_toNat {x : Int256} (h : 0 ≤ x.toInt) : (toUnsigned x).toNat = x.toInt.toNat := by
  have hlt : x.toInt.toNat < UInt256.size := by
    have := x.lt
    have := size_eq_two_mul_bound
    omega
  unfold toUnsigned Int256.isNeg Int256.toBits
  rw [if_neg (by simpa using h)]
  show (UInt256.ofNat (x.toInt % (UInt256.size : Int)).toNat).toNat = _
  rw [Int.emod_eq_of_lt h (by have := x.lt; have := size_eq_two_mul_bound; omega)]
  exact UInt256.toNat_ofNat_of_lt hlt

/-! ### Reduction by `ln 2` -/

/-- Half of `ln 2`, rounded toward zero, with the sign of `x`: added before dividing by `ln 2`,
it rounds the quotient to the nearest multiple. -/
def roundingAdjustment (x : Int) : Int := if x < 0 then -346573590279972654 else 346573590279972654

/-- The multiple of `ln 2` nearest to `x`. -/
def expQuotient (x : Int) : Int := (x + roundingAdjustment x).tdiv ln2.toInt

/-- What is left of `x` after the multiple of `ln 2`. -/
def expRemainder (x : Int) : Int := x - expQuotient x * ln2.toInt

/-- `e ^ r` to second order, scaled, each quotient truncated. -/
def taylor (r : Int) : Int := wad.toInt + r + ((r * r).tdiv wad.toInt).tdiv 2

/-- `e` times `2 ^ q`, rounded down for a negative `q`. -/
def scaleByPow2 (e q : Int) : Int := if q < 0 then e / 2 ^ q.natAbs else e * 2 ^ q.natAbs

/-- The exponential on integers: zero below `-lnWeiAbs`, the saturated value from
`expUpperBound` on, and the shifted polynomial in between. -/
def expValue (x : Int) : Int :=
  if x < -lnWeiAbs.toInt then 0
  else if expUpperBound.toInt ≤ x then expUpperValue.toInt
  else scaleByPow2 (taylor (expRemainder x)) (expQuotient x)

theorem tdiv_of_neg {a c : Int} (ha : a < 0) : a.tdiv c = -((-a) / c) := by
  rw [← Int.neg_tdiv_neg, Int.tdiv_neg, Int.tdiv_eq_ediv_of_nonneg (by omega)]

/-- The remainder lies within half of `ln 2`. -/
theorem expRemainder_bounds (x : Int) :
    -346573590279972654 ≤ expRemainder x ∧ expRemainder x ≤ 346573590279972654 := by
  unfold expRemainder expQuotient roundingAdjustment
  rw [ln2_toInt]
  by_cases hx : x < 0
  · rw [if_pos hx, tdiv_of_neg (by omega)]
    omega
  · rw [if_neg hx, Int.tdiv_eq_ediv_of_nonneg (by omega)]
    omega

theorem expQuotient_bounds {x : Int} (hlow : -lnWeiAbs.toInt ≤ x) (hhigh : x < expUpperBound.toInt) :
    -60 ≤ expQuotient x ∧ expQuotient x ≤ 135 := by
  rw [lnWeiAbs_toInt] at hlow
  rw [expUpperBound_toInt] at hhigh
  unfold expQuotient roundingAdjustment
  rw [ln2_toInt]
  by_cases hx : x < 0
  · rw [if_pos hx, tdiv_of_neg (by omega)]
    omega
  · rw [if_neg hx, Int.tdiv_eq_ediv_of_nonneg (by omega)]
    omega

/-- A multiple of `ln 2` that leaves at most half of it is the nearest one. -/
theorem expQuotient_eq_of {x q : Int} (hlow : -346573590279972654 ≤ x - q * 693147180559945309)
    (hhigh : x - q * 693147180559945309 ≤ 346573590279972654) : expQuotient x = q := by
  have hr := expRemainder_bounds x
  unfold expRemainder at hr
  rw [ln2_toInt] at hr
  omega

/-- One step right keeps the multiple of `ln 2` and moves the remainder by one, except at the top
of the remainder's range, where the multiple grows by one and the remainder wraps to the
bottom. -/
theorem expReduction_succ (x : Int) :
    (expQuotient (x + 1) = expQuotient x ∧ expRemainder (x + 1) = expRemainder x + 1) ∨
      (expRemainder x = 346573590279972654 ∧ expQuotient (x + 1) = expQuotient x + 1 ∧
        expRemainder (x + 1) = -346573590279972654) := by
  have hr := expRemainder_bounds x
  unfold expRemainder at hr ⊢
  rw [ln2_toInt] at hr ⊢
  rcases Int.lt_or_eq_of_le hr.2 with hlt | heq
  · have hq : expQuotient (x + 1) = expQuotient x := expQuotient_eq_of (by omega) (by omega)
    refine .inl ⟨hq, ?_⟩
    rw [hq]
    ring
  · have hq : expQuotient (x + 1) = expQuotient x + 1 :=
      expQuotient_eq_of (by rw [Int.add_mul]; omega) (by rw [Int.add_mul]; omega)
    refine .inr ⟨heq, hq, ?_⟩
    rw [hq, Int.add_mul]
    omega

/-! ### The polynomial and the shift -/

theorem taylor_eq (r : Int) : taylor r = 1000000000000000000 + r + r * r / 2000000000000000000 := by
  unfold taylor
  rw [wad_toInt, Int.tdiv_eq_ediv_of_nonneg (mul_self_nonneg r),
    Int.tdiv_eq_ediv_of_nonneg (Int.ediv_nonneg (mul_self_nonneg r) (by decide)),
    Int.ediv_ediv_of_nonneg (by decide)]
  rfl

/-- The truncated polynomial never falls from `r` to `r + 1` while `r ≥ -1`: the square falls
by less than `2 * 10 ^ 18`, so its truncated half by at most one. -/
theorem taylor_le_succ {r : Int} (hr : -1000000000000000000 ≤ r) : taylor r ≤ taylor (r + 1) := by
  rw [taylor_eq, taylor_eq]
  have hsq : r * r ≤ (r + 1) * (r + 1) + 2000000000000000000 := by nlinarith
  have hdiv : r * r / 2000000000000000000 ≤ (r + 1) * (r + 1) / 2000000000000000000 + 1 := by
    calc r * r / 2000000000000000000
        ≤ ((r + 1) * (r + 1) + 2000000000000000000) / 2000000000000000000 :=
          Int.ediv_le_ediv (by decide) hsq
      _ = (r + 1) * (r + 1) / 2000000000000000000 + 1 := by
          rw [← Int.add_mul_ediv_right _ 1 (by decide), Int.one_mul]
  omega

/-- On the remainder's range the polynomial lies between its values at the two ends. -/
theorem taylor_bounds {r : Int} (hlow : -346573590279972654 ≤ r) (hhigh : r ≤ 346573590279972654) :
    653426409720027346 ≤ taylor r ∧ taylor r ≤ 1406630217019747831 := by
  rw [taylor_eq]
  have hsq : r * r ≤ 346573590279972654 * 346573590279972654 := by nlinarith
  have hdiv : r * r / 2000000000000000000 ≤
      346573590279972654 * 346573590279972654 / 2000000000000000000 :=
    Int.ediv_le_ediv (by decide) hsq
  have hnonneg := Int.ediv_nonneg (mul_self_nonneg r) (show (0 : Int) ≤ 2000000000000000000 by decide)
  constructor
  · omega
  · have : (346573590279972654 * 346573590279972654 : Int) / 2000000000000000000 =
        60056626739775177 := by decide
    omega

theorem scaleByPow2_mono {e e' : Int} (h : e ≤ e') (q : Int) :
    scaleByPow2 e q ≤ scaleByPow2 e' q := by
  unfold scaleByPow2
  split
  · exact Int.ediv_le_ediv (by positivity) h
  · exact Int.mul_le_mul_of_nonneg_right h (by positivity)

theorem scaleByPow2_nonneg {e : Int} (h : 0 ≤ e) (q : Int) : 0 ≤ scaleByPow2 e q := by
  unfold scaleByPow2
  split
  · exact Int.ediv_nonneg h (by positivity)
  · exact Int.mul_nonneg h (by positivity)

/-- Passing to the next multiple of `ln 2` doubles the scale, so a value at the top of one range
stays below one at the bottom of the next when it is at most twice that one. -/
theorem scaleByPow2_le_succ {e e' : Int} (h : e ≤ 2 * e') (q : Int) :
    scaleByPow2 e q ≤ scaleByPow2 e' (q + 1) := by
  unfold scaleByPow2
  by_cases hq : q < 0
  case pos =>
    rw [if_pos hq]
    by_cases hq' : q + 1 < 0
    case pos =>
      rw [if_pos hq']
      have hk : q.natAbs = (q + 1).natAbs + 1 := by omega
      rw [hk, Int.pow_succ', ← Int.ediv_ediv_of_nonneg (by decide)]
      exact Int.ediv_le_ediv (by positivity) (by omega)
    case neg =>
      rw [if_neg hq', show q.natAbs = 1 by omega, show (q + 1).natAbs = 0 by omega]
      simp only [pow_one, pow_zero, Int.mul_one]
      omega
  case neg =>
    rw [if_neg hq, if_neg (by omega), show (q + 1).natAbs = q.natAbs + 1 by omega, pow_succ]
    calc e * 2 ^ q.natAbs ≤ (2 * e') * 2 ^ q.natAbs :=
          Int.mul_le_mul_of_nonneg_right h (by positivity)
      _ = e' * (2 ^ q.natAbs * 2) := by ring

/-! ### The exponential on integers -/

theorem expValue_nonneg (x : Int) : 0 ≤ expValue x := by
  unfold expValue
  split
  · exact Int.le_refl 0
  · split
    · decide
    · have hr := expRemainder_bounds x
      exact scaleByPow2_nonneg (by have := taylor_bounds hr.1 hr.2; omega) _

/-- The step lemma: from `x` to `x + 1` the exponential never falls. Below and above the range
it is constant; at the lower end it rises from zero, at the upper end the polynomial's last
value is below the saturated one, and in between `expReduction_succ` gives the two cases. -/
theorem expValue_le_succ (x : Int) : expValue x ≤ expValue (x + 1) := by
  by_cases hlow : x + 1 < -lnWeiAbs.toInt
  · rw [expValue, expValue, if_pos hlow, if_pos (by omega)]
  by_cases hlow' : x < -lnWeiAbs.toInt
  · rw [expValue, if_pos hlow']
    exact expValue_nonneg _
  by_cases hhigh : expUpperBound.toInt ≤ x
  · rw [expValue, expValue, if_neg hlow', if_pos hhigh, if_neg hlow, if_pos (by omega)]
  by_cases hhigh' : expUpperBound.toInt ≤ x + 1
  · have hx : x = 93859467695000404318 := by
      rw [expUpperBound_toInt] at hhigh hhigh'
      omega
    subst hx
    decide
  rw [expValue, expValue, if_neg hlow', if_neg hhigh, if_neg hlow, if_neg hhigh']
  have hr := expRemainder_bounds x
  rcases expReduction_succ x with ⟨hq, hr'⟩ | ⟨hr0, hq, hr'⟩
  · rw [hq, hr']
    exact scaleByPow2_mono (taylor_le_succ (by omega)) _
  · rw [hq, hr', hr0]
    exact scaleByPow2_le_succ (by decide) _

theorem expValue_monotone : Monotone expValue := monotone_int_of_le_succ expValue_le_succ

theorem expValue_le (x : Int) : expValue x ≤ expUpperValue.toInt := by
  by_cases hx : expUpperBound.toInt ≤ x
  · rw [expValue, if_neg (by rw [lnWeiAbs_toInt]; rw [expUpperBound_toInt] at hx; omega), if_pos hx]
  · calc expValue x ≤ expValue expUpperBound.toInt := expValue_monotone (by omega)
      _ = expUpperValue.toInt := by decide

/-! ### Both builds compute `expValue` -/

namespace Build

variable {m : Type → Type} [Monad m] [LawfulMonad m] {b : Build m}

/-- The reduction by `ln 2` of an input in the exponential's range overflows nowhere. -/
theorem reduceByLn2_faithful (hb : b.Faithful) {x : Int256} (hlow : -lnWeiAbs.toInt ≤ x.toInt)
    (hhigh : x.toInt < expUpperBound.toInt) :
    b.reduceByLn2 x = pure (wrap (expQuotient x.toInt), wrap (expRemainder x.toInt)) := by
  have hq := expQuotient_bounds hlow hhigh
  have hr := expRemainder_bounds x.toInt
  rw [lnWeiAbs_toInt] at hlow
  rw [expUpperBound_toInt] at hhigh
  have hhalf : b.div ln2 2 = pure (wrap 346573590279972654) := hb.div (by decide) (by decide)
  have hadj : (if x.isNeg then b.neg (wrap 346573590279972654) else pure (wrap 346573590279972654)) =
      pure (wrap (roundingAdjustment x.toInt)) := by
    unfold roundingAdjustment Int256.isNeg
    by_cases hneg : x.toInt < 0
    · rw [if_pos (by simpa using hneg), if_pos hneg]
      exact hb.neg (by rw [toInt_wrap (by decide)]) (by decide)
    · rw [if_neg (by simpa using hneg), if_neg hneg]
  have hadjFits : Fits (roundingAdjustment x.toInt) := by
    unfold roundingAdjustment
    split <;> decide
  have hsumFits : Fits (x.toInt + roundingAdjustment x.toInt) := by
    rw [fits_iff]
    unfold roundingAdjustment
    split <;> omega
  have hqFits : Fits (expQuotient x.toInt) := by
    rw [fits_iff]
    omega
  have hprodFits : Fits (expQuotient x.toInt * 693147180559945309) := by
    rw [fits_iff]
    omega
  have hrFits : Fits (expRemainder x.toInt) := by
    rw [fits_iff]
    omega
  unfold reduceByLn2
  rw [hhalf, pure_bind, hadj, pure_bind,
    hb.add (by rw [toInt_wrap hadjFits]) hsumFits, pure_bind,
    hb.div (by rw [toInt_wrap hsumFits]; rfl) hqFits, pure_bind,
    hb.mul (by rw [toInt_wrap hqFits]; rfl) hprodFits, pure_bind,
    hb.sub (by rw [toInt_wrap hprodFits]; rfl) hrFits, pure_bind]

/-- The polynomial of a remainder overflows nowhere. -/
theorem expTaylor_faithful (hb : b.Faithful) {r : Int256}
    (hlow : -346573590279972654 ≤ r.toInt) (hhigh : r.toInt ≤ 346573590279972654) :
    b.expTaylor r = pure (wrap (taylor r.toInt)) := by
  have hsq : r.toInt * r.toInt ≤ 346573590279972654 * 346573590279972654 := by nlinarith
  have hsq' := mul_self_nonneg r.toInt
  have hlinear : Fits (wad.toInt + r.toInt) := by
    rw [fits_iff, wad_toInt]
    omega
  have hsquare : Fits (r.toInt * r.toInt) := by
    rw [fits_iff]
    omega
  have hscaled : Fits ((r.toInt * r.toInt).tdiv 1000000000000000000) := hsquare.tdiv (by decide)
  have hhalved : Fits (((r.toInt * r.toInt).tdiv 1000000000000000000).tdiv 2) :=
    hscaled.tdiv (by decide)
  have htaylor : Fits (taylor r.toInt) := by
    have := taylor_bounds hlow hhigh
    rw [fits_iff]
    omega
  unfold expTaylor
  rw [hb.add rfl hlinear, pure_bind, hb.mul rfl hsquare, pure_bind,
    hb.div (by rw [toInt_wrap hsquare]; rfl) hscaled, pure_bind,
    hb.div (by rw [toInt_wrap hscaled]; rfl) hhalved, pure_bind,
    hb.add (by rw [toInt_wrap hlinear, toInt_wrap hhalved]; rfl) htaylor]

/-- Shifting the polynomial's word by the multiple of `ln 2` is `scaleByPow2`. -/
theorem shift_eq {e q : Int} (he : 0 ≤ e) (he' : e < 2305843009213693952) (hq : -60 ≤ q)
    (hq' : q ≤ 135) :
    (if (wrap q).isNeg then ofBits ((toUnsigned (wrap e)).shiftRight (wrap q).toInt.natAbs)
      else ofBits ((toUnsigned (wrap e)).shiftLeft (wrap q).toInt.natAbs)) =
      wrap (scaleByPow2 e q) := by
  have heFits : Fits e := by
    rw [fits_iff]
    omega
  have hqFits : Fits q := by
    rw [fits_iff]
    omega
  have hbits : (toUnsigned (wrap e)).toNat = e.toNat := by
    rw [toUnsigned_toNat (by rw [toInt_wrap heFits]; exact he), toInt_wrap heFits]
  have hpow : 2 ^ q.natAbs ≤ (2 : Nat) ^ 135 := Nat.pow_le_pow_right (by decide) (by omega)
  have hsmall : e.toNat < 2 ^ 61 := by omega
  unfold Int256.isNeg scaleByPow2
  rw [toInt_wrap hqFits]
  by_cases hneg : q < 0
  case pos =>
    rw [if_pos (by simpa using hneg), if_pos hneg]
    apply ext_toInt
    have hshift : ((toUnsigned (wrap e)).shiftRight q.natAbs).toNat = e.toNat / 2 ^ q.natAbs := by
      show (toUnsigned (wrap e)).toNat >>> q.natAbs = _
      rw [hbits, Nat.shiftRight_eq_div_pow]
    have hlt : e.toNat / 2 ^ q.natAbs < Nat.pow 2 255 :=
      Nat.lt_of_le_of_lt (Nat.div_le_self _ _) (Nat.lt_trans hsmall (by decide))
    have hval : ((e.toNat / 2 ^ q.natAbs : Nat) : Int) = e / 2 ^ q.natAbs := by
      rw [Int.natCast_ediv, Int.toNat_of_nonneg he]
      push_cast
      rfl
    rw [ofBits_toInt (by rw [hshift]; exact hlt), hshift, hval, toInt_wrap]
    rw [← hval]
    exact fits_of_natAbs_lt (by rw [Int.natAbs_natCast]; exact hlt)
  case neg =>
    rw [if_neg (by simpa using hneg), if_neg hneg]
    apply ext_toInt
    have hprod : e.toNat * 2 ^ q.natAbs < UInt256.size :=
      calc e.toNat * 2 ^ q.natAbs < 2 ^ 61 * 2 ^ 135 :=
            Nat.mul_lt_mul_of_lt_of_le hsmall hpow (by positivity)
        _ < UInt256.size := by decide
    have hshift : ((toUnsigned (wrap e)).shiftLeft q.natAbs).toNat = e.toNat * 2 ^ q.natAbs := by
      show (UInt256.ofNat ((toUnsigned (wrap e)).toNat <<< q.natAbs)).toNat = _
      rw [hbits, Nat.shiftLeft_eq, UInt256.toNat_ofNat_of_lt hprod]
    have hlt : e.toNat * 2 ^ q.natAbs < Nat.pow 2 255 :=
      calc e.toNat * 2 ^ q.natAbs < 2 ^ 61 * 2 ^ 135 :=
            Nat.mul_lt_mul_of_lt_of_le hsmall hpow (by positivity)
        _ < Nat.pow 2 255 := by decide
    have hval : ((e.toNat * 2 ^ q.natAbs : Nat) : Int) = e * 2 ^ q.natAbs := by
      push_cast
      rw [Int.toNat_of_nonneg he]
    rw [ofBits_toInt (by rw [hshift]; exact hlt), hshift, hval, toInt_wrap]
    rw [← hval]
    exact fits_of_natAbs_lt (by rw [Int.natAbs_natCast]; exact hlt)

/-- Every build that keeps exact results computes the exponential as `expValue`: no step of it
overflows, for any input. -/
theorem wadExp_faithful (hb : b.Faithful) (x : Int256) : b.wadExp x = pure (wrap (expValue x.toInt)) := by
  have hlowest : b.neg lnWeiAbs = pure (wrap (-lnWeiAbs.toInt)) := hb.neg rfl (by decide)
  unfold wadExp
  rw [hlowest, pure_bind]
  have hcmp : (x < wrap (-lnWeiAbs.toInt)) ↔ x.toInt < -lnWeiAbs.toInt := by
    show x.toInt < (wrap (-lnWeiAbs.toInt)).toInt ↔ _
    rw [toInt_wrap (by decide)]
  by_cases hlow : x.toInt < -lnWeiAbs.toInt
  case pos =>
    rw [if_pos (hcmp.mpr hlow), expValue, if_pos hlow]
    rfl
  case neg =>
    rw [if_neg (fun h => hlow (hcmp.mp h))]
    by_cases hhigh : expUpperBound.toInt ≤ x.toInt
    case pos =>
      rw [if_pos (show expUpperBound ≤ x from hhigh), expValue, if_neg hlow, if_pos hhigh,
        wrap_toInt]
    case neg =>
      rw [if_neg (show ¬ expUpperBound ≤ x from hhigh)]
      have hq := expQuotient_bounds (Int.not_lt.mp hlow) (Int.not_le.mp hhigh)
      have hr := expRemainder_bounds x.toInt
      have ht := taylor_bounds hr.1 hr.2
      have hrFits : Fits (expRemainder x.toInt) := by
        rw [fits_iff]
        omega
      rw [reduceByLn2_faithful hb (Int.not_lt.mp hlow) (Int.not_le.mp hhigh), pure_bind,
        expTaylor_faithful hb (by rw [toInt_wrap hrFits]; exact hr.1)
          (by rw [toInt_wrap hrFits]; exact hr.2), pure_bind,
        toInt_wrap hrFits, expValue, if_neg hlow, if_neg hhigh]
      exact congrArg pure (shift_eq (by omega) (by omega) hq.1 hq.2)

end Build

/-- The exponential as the simulator computes it is `expValue`. -/
theorem wadExp_toInt (x : Int256) : (wadExp x).toInt = expValue x.toInt := by
  have hfits : Fits (expValue x.toInt) := by
    have := expValue_nonneg x.toInt
    have := expValue_le x.toInt
    rw [fits_iff]
    rw [expUpperValue_toInt] at *
    omega
  show (Id.run (Build.release.wadExp x)).toInt = _
  rw [Build.wadExp_faithful Build.release_faithful]
  exact toInt_wrap hfits

/-- The exponential, read exactly: within its range the debug build, which stops at the first
signed result that leaves the word range, reduces `x` to a multiple `q` of `ln 2` between `-60`
and `135` and a remainder `r`, evaluates the polynomial to `e`, and the shift by `q` bits loses
nothing on the left: the value is `e * 2 ^ q`, or `e / 2 ^ -q` for a negative `q`. -/
theorem wadExp_reduced {x : Int256} (hlow : -lnWeiAbs.toInt ≤ x.toInt)
    (hhigh : x.toInt < expUpperBound.toInt) :
    ∃ q r e, Build.debug.reduceByLn2 x = some (q, r) ∧ Build.debug.expTaylor r = some e ∧
      -60 ≤ q.toInt ∧ q.toInt ≤ 135 ∧
      (wadExp x).toInt =
        if q.toInt < 0 then e.toInt / 2 ^ q.toInt.natAbs else e.toInt * 2 ^ q.toInt.natAbs := by
  have hq := expQuotient_bounds hlow hhigh
  have hr := expRemainder_bounds x.toInt
  have ht := taylor_bounds hr.1 hr.2
  have hqFits : Fits (expQuotient x.toInt) := by
    rw [fits_iff]
    omega
  have hrFits : Fits (expRemainder x.toInt) := by
    rw [fits_iff]
    omega
  have htFits : Fits (taylor (expRemainder x.toInt)) := by
    rw [fits_iff]
    omega
  have hpoly : Build.debug.expTaylor (wrap (expRemainder x.toInt)) =
      some (wrap (taylor (expRemainder x.toInt))) := by
    have h := Build.expTaylor_faithful Build.debug_faithful (r := wrap (expRemainder x.toInt))
      (by rw [toInt_wrap hrFits]; exact hr.1) (by rw [toInt_wrap hrFits]; exact hr.2)
    rw [toInt_wrap hrFits] at h
    exact h
  refine ⟨wrap (expQuotient x.toInt), wrap (expRemainder x.toInt),
    wrap (taylor (expRemainder x.toInt)),
    Build.reduceByLn2_faithful Build.debug_faithful hlow hhigh, hpoly, ?_, ?_, ?_⟩
  · rw [toInt_wrap hqFits]
    exact hq.1
  · rw [toInt_wrap hqFits]
    exact hq.2
  · rw [wadExp_toInt, expValue, if_neg (Int.not_lt.mpr hlow), if_neg (Int.not_le.mpr hhigh),
      toInt_wrap hqFits, toInt_wrap htFits]
    rfl

/-- The exponential never decreases and stays in range: for `x ≤ y`,
`0 ≤ wadExp x ≤ wadExp y ≤ expUpperValue`, across every change of the multiple of `ln 2` and
both saturation thresholds; no signed step of it overflows, since the debug build computes the
same word. -/
theorem wadExp_monotone_in_range {x y : Int256} (hxy : x ≤ y) :
    0 ≤ (wadExp x).toInt ∧ (wadExp x).toInt ≤ (wadExp y).toInt ∧
      (wadExp y).toInt ≤ expUpperValue.toInt ∧ Build.debug.wadExp x = some (wadExp x) ∧
      (-lnWeiAbs.toInt ≤ x.toInt → x.toInt < expUpperBound.toInt →
        ∃ q r e, Build.debug.reduceByLn2 x = some (q, r) ∧ Build.debug.expTaylor r = some e ∧
          -60 ≤ q.toInt ∧ q.toInt ≤ 135 ∧
          (wadExp x).toInt =
            if q.toInt < 0 then e.toInt / 2 ^ q.toInt.natAbs else e.toInt * 2 ^ q.toInt.natAbs) := by
  have hdebug : Build.debug.wadExp x = some (wadExp x) := by
    show Build.debug.wadExp x = some (Id.run (Build.release.wadExp x))
    rw [Build.wadExp_faithful Build.debug_faithful, Build.wadExp_faithful Build.release_faithful]
    rfl
  refine ⟨?_, ?_, ?_, hdebug, wadExp_reduced⟩
  · rw [wadExp_toInt]
    exact expValue_nonneg _
  · rw [wadExp_toInt, wadExp_toInt]
    exact expValue_monotone hxy
  · rw [wadExp_toInt]
    exact expValue_le _

/-- Across the first boundary between multiples of `ln 2`: from the top of the remainder's range
at `q = 0` to the bottom of it at `q = 1`. -/
theorem wadExp_monotone_in_range_across_ln2 :
    (wrap 346573590279972654 : Int256) ≤ wrap 346573590279972655 ∧
      0 ≤ (wadExp (wrap 346573590279972654)).toInt ∧
      (wadExp (wrap 346573590279972654)).toInt ≤ (wadExp (wrap 346573590279972655)).toInt ∧
      (wadExp (wrap 346573590279972655)).toInt ≤ expUpperValue.toInt ∧
      Build.debug.wadExp (wrap 346573590279972654) = some (wadExp (wrap 346573590279972654)) ∧
      (-lnWeiAbs.toInt ≤ (wrap 346573590279972654 : Int256).toInt →
        (wrap 346573590279972654 : Int256).toInt < expUpperBound.toInt →
        ∃ q r e, Build.debug.reduceByLn2 (wrap 346573590279972654) = some (q, r) ∧
          Build.debug.expTaylor r = some e ∧ -60 ≤ q.toInt ∧ q.toInt ≤ 135 ∧
          (wadExp (wrap 346573590279972654)).toInt =
            if q.toInt < 0 then e.toInt / 2 ^ q.toInt.natAbs else e.toInt * 2 ^ q.toInt.natAbs) :=
  have hxy : (wrap 346573590279972654 : Int256) ≤ wrap 346573590279972655 := by decide
  ⟨hxy, wadExp_monotone_in_range hxy⟩

end RateCurve

end LendingSim
