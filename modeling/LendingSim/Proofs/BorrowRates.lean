import LendingSim.Proofs.Exponential
import LendingSim.Proofs.Market

/-!
# The borrow rate curve stays in range and rises with utilization

Read on integers, the curve is a chain of small functions: the normalised error of a utilization
(`errorValue`), the speed of the drift (`speedValue`), the clamped rate at target after a drift
(`driftValue`), its average and final value over a period (`pathValue`) and the borrow rate at a
rate at target (`curveValue`). For a utilization of at most one, a start rate that is zero or
within the clamp interval and an elapsed time below `2 ^ 64`, every build that keeps exact
results computes exactly these integers (`Build.borrowRates_faithful`): no signed operation of
the curve leaves the word range, so a debug build stops nowhere and agrees with the release one.

Each function of the chain is monotone where it is used, and so is their composition
(`ratesValue_mono`): a higher utilization never lowers a rate. Every rate at target the curve
returns is zero-free and lies within the clamp interval, and a borrow rate is at most four times
its rate at target; accrual stores only such rates at target (`accrue_rateAtTarget`).
-/

namespace LendingSim

open Int256

namespace RateCurve

@[simp] theorem targetUtilization_toInt : targetUtilization.toInt = 900000000000000000 := rfl

@[simp] theorem adjustmentSpeed_toInt : adjustmentSpeed.toInt = 1585489599188 := rfl

@[simp] theorem curveSteepness_toInt : curveSteepness.toInt = 4000000000000000000 := rfl

@[simp] theorem initialRateAtTarget_toInt : initialRateAtTarget.toInt = 1268391679 := rfl

@[simp] theorem minRateAtTarget_toInt : minRateAtTarget.toInt = 31709791 := rfl

@[simp] theorem maxRateAtTarget_toInt : maxRateAtTarget.toInt = 63419583967 := rfl

/-- Truncating division, as the floor division that `omega` reads. -/
theorem tdiv_cases (a c : Int) :
    (0 ≤ a ∧ a.tdiv c = a / c) ∨ (a < 0 ∧ a.tdiv c = -((-a) / c)) := by
  by_cases ha : 0 ≤ a
  · exact .inl ⟨ha, Int.tdiv_eq_ediv_of_nonneg ha⟩
  · exact .inr ⟨by omega, tdiv_of_neg (by omega)⟩

/-- A stored rate at target the curve may start from: zero, for a market it has not priced yet,
or a rate within the clamp interval. -/
def ValidStart (s : Int) : Prop :=
  s = 0 ∨ (minRateAtTarget.toInt ≤ s ∧ s ≤ maxRateAtTarget.toInt)

instance (s : Int) : Decidable (ValidStart s) := inferInstanceAs (Decidable (_ ∨ _))

/-! ### The curve on integers -/

/-- The clamp to the interval of rates at target, on integers. -/
def clampRate (x : Int) : Int :=
  if x < minRateAtTarget.toInt then minRateAtTarget.toInt
  else if maxRateAtTarget.toInt < x then maxRateAtTarget.toInt else x

/-- The normalised distance of a utilization from the target: divided by the room above the
target when above it, by the target itself otherwise. -/
def errorValue (u : Int) : Int :=
  ((u - targetUtilization.toInt) * wad.toInt).tdiv
    (if targetUtilization.toInt < u then wad.toInt - targetUtilization.toInt
      else targetUtilization.toInt)

/-- The speed of the drift of the rate at target, per second, at error `err`. -/
def speedValue (err : Int) : Int := (adjustmentSpeed.toInt * err).tdiv wad.toInt

/-- The rate at target `start` after a drift by `adaptation`, clamped. -/
def driftValue (start adaptation : Int) : Int :=
  clampRate ((start * expValue adaptation).tdiv wad.toInt)

/-- The average (by the trapezoid rule on start, middle and end) and the final rate at target
of a drift by `adaptation` from `start`. -/
def driftPath (start adaptation : Int) : Int × Int :=
  ((start + driftValue start adaptation + 2 * driftValue start (adaptation.tdiv 2)).tdiv 4,
    driftValue start adaptation)

/-- The average and final rate at target over `elapsed` seconds at error `err`: the initial rate
for a zero `start`, no change when the drift is zero. -/
def pathValue (start err : Int) (elapsed : Nat) : Int × Int :=
  if start = 0 then (initialRateAtTarget.toInt, initialRateAtTarget.toInt)
  else if speedValue err * elapsed = 0 then (start, start)
  else driftPath start (speedValue err * elapsed)

/-- The slope of the curve in the error: `1 - 1 / 4` below the target, `4 - 1` above it. -/
def curveCoefficient (err : Int) : Int := if err < 0 then 750000000000000000 else 3000000000000000000

/-- The factor the curve scales the rate at target by: `1 + 3 err` above the target,
`1 + 0.75 err` below it. -/
def curveScale (err : Int) : Int := (curveCoefficient err * err).tdiv wad.toInt + wad.toInt

/-- The borrow rate at rate at target `rate` and error `err`. -/
def curveValue (rate err : Int) : Int := (curveScale err * rate).tdiv wad.toInt

/-- The average and final borrow rate and the final rate at target, on integers. -/
def ratesValue (u start : Int) (elapsed : Nat) : Int × Int × Int :=
  let err := errorValue u
  let path := pathValue start err elapsed
  (curveValue path.1 err, curveValue path.2 err, path.2)

/-! ### Ranges -/

theorem clampRate_bounds (x : Int) :
    minRateAtTarget.toInt ≤ clampRate x ∧ clampRate x ≤ maxRateAtTarget.toInt := by
  unfold clampRate
  simp only [minRateAtTarget_toInt, maxRateAtTarget_toInt]
  split_ifs <;> omega

theorem clampRate_of_mem {x : Int} (hlow : minRateAtTarget.toInt ≤ x)
    (hhigh : x ≤ maxRateAtTarget.toInt) : clampRate x = x := by
  unfold clampRate
  rw [if_neg (Int.not_lt.mpr hlow), if_neg (Int.not_lt.mpr hhigh)]

theorem clampRate_mono : Monotone clampRate := by
  intro x y h
  unfold clampRate
  simp only [minRateAtTarget_toInt, maxRateAtTarget_toInt]
  split_ifs <;> omega

theorem errorValue_bounds {u : Int} (h0 : 0 ≤ u) (h1 : u ≤ wad.toInt) :
    -wad.toInt ≤ errorValue u ∧ errorValue u ≤ wad.toInt := by
  unfold errorValue
  by_cases hu : targetUtilization.toInt < u
  · rw [if_pos hu]
    simp only [targetUtilization_toInt, wad_toInt, Int.reduceSub] at hu h1 ⊢
    rcases tdiv_cases ((u - 900000000000000000) * 1000000000000000000) 100000000000000000
      with ⟨_, hq⟩ | ⟨_, hq⟩ <;> omega
  · rw [if_neg hu]
    simp only [targetUtilization_toInt, wad_toInt] at hu h1 ⊢
    rcases tdiv_cases ((u - 900000000000000000) * 1000000000000000000) 900000000000000000
      with ⟨_, hq⟩ | ⟨_, hq⟩ <;> omega

theorem speedValue_bounds {err : Int} (h0 : -wad.toInt ≤ err) (h1 : err ≤ wad.toInt) :
    -adjustmentSpeed.toInt ≤ speedValue err ∧ speedValue err ≤ adjustmentSpeed.toInt := by
  unfold speedValue
  simp only [adjustmentSpeed_toInt, wad_toInt] at h0 h1 ⊢
  rcases tdiv_cases (1585489599188 * err) 1000000000000000000 with ⟨_, hq⟩ | ⟨_, hq⟩ <;> omega

theorem driftValue_bounds (start adaptation : Int) :
    minRateAtTarget.toInt ≤ driftValue start adaptation ∧
      driftValue start adaptation ≤ maxRateAtTarget.toInt :=
  clampRate_bounds _

/-- A drift by nothing leaves a rate within the clamp interval where it is. -/
theorem driftValue_zero {start : Int} (hlow : minRateAtTarget.toInt ≤ start)
    (hhigh : start ≤ maxRateAtTarget.toInt) : driftValue start 0 = start := by
  unfold driftValue
  rw [show expValue 0 = wad.toInt by decide, Int.mul_tdiv_cancel _ (by decide),
    clampRate_of_mem hlow hhigh]

theorem driftPath_bounds {start : Int} (hlow : minRateAtTarget.toInt ≤ start)
    (hhigh : start ≤ maxRateAtTarget.toInt) (adaptation : Int) :
    (minRateAtTarget.toInt ≤ (driftPath start adaptation).1 ∧
      (driftPath start adaptation).1 ≤ maxRateAtTarget.toInt) ∧
    (minRateAtTarget.toInt ≤ (driftPath start adaptation).2 ∧
      (driftPath start adaptation).2 ≤ maxRateAtTarget.toInt) := by
  have hfinal := driftValue_bounds start adaptation
  have hmiddle := driftValue_bounds start (adaptation.tdiv 2)
  refine ⟨?_, hfinal⟩
  unfold driftPath
  simp only [minRateAtTarget_toInt, maxRateAtTarget_toInt] at hlow hhigh hfinal hmiddle ⊢
  rw [Int.tdiv_eq_ediv_of_nonneg (by omega)]
  omega

theorem driftPath_zero {start : Int} (hlow : minRateAtTarget.toInt ≤ start)
    (hhigh : start ≤ maxRateAtTarget.toInt) : driftPath start 0 = (start, start) := by
  unfold driftPath
  rw [Int.zero_tdiv, driftValue_zero hlow hhigh,
    show start + start + 2 * start = start * 4 by ring, Int.mul_tdiv_cancel _ (by decide)]

/-- For a start within the clamp interval, the special case of a zero drift is the general
path at zero. -/
theorem pathValue_eq_driftPath {start : Int} (hlow : minRateAtTarget.toInt ≤ start)
    (hhigh : start ≤ maxRateAtTarget.toInt) (err : Int) (elapsed : Nat) :
    pathValue start err elapsed = driftPath start (speedValue err * elapsed) := by
  have hne : start ≠ 0 := by
    simp only [minRateAtTarget_toInt] at hlow
    omega
  unfold pathValue
  rw [if_neg hne]
  split
  · next hzero => rw [hzero, driftPath_zero hlow hhigh]
  · rfl

theorem pathValue_bounds {start : Int} (hs : ValidStart start) (err : Int) (elapsed : Nat) :
    (minRateAtTarget.toInt ≤ (pathValue start err elapsed).1 ∧
      (pathValue start err elapsed).1 ≤ maxRateAtTarget.toInt) ∧
    (minRateAtTarget.toInt ≤ (pathValue start err elapsed).2 ∧
      (pathValue start err elapsed).2 ≤ maxRateAtTarget.toInt) := by
  rcases hs with hzero | ⟨hlow, hhigh⟩
  · rw [pathValue, if_pos hzero]
    decide
  · rw [pathValue_eq_driftPath hlow hhigh]
    exact driftPath_bounds hlow hhigh _

theorem curveScale_lower {err : Int} (h : -wad.toInt ≤ err) : 250000000000000000 ≤ curveScale err := by
  unfold curveScale curveCoefficient
  simp only [wad_toInt] at h ⊢
  split
  · rcases tdiv_cases (750000000000000000 * err) 1000000000000000000 with ⟨_, hq⟩ | ⟨_, hq⟩ <;>
      omega
  · rcases tdiv_cases (3000000000000000000 * err) 1000000000000000000 with ⟨_, hq⟩ | ⟨_, hq⟩ <;>
      omega

theorem curveScale_upper {err : Int} (h : err ≤ wad.toInt) : curveScale err ≤ 4000000000000000000 := by
  unfold curveScale curveCoefficient
  simp only [wad_toInt] at h ⊢
  split
  · rcases tdiv_cases (750000000000000000 * err) 1000000000000000000 with ⟨_, hq⟩ | ⟨_, hq⟩ <;>
      omega
  · rcases tdiv_cases (3000000000000000000 * err) 1000000000000000000 with ⟨_, hq⟩ | ⟨_, hq⟩ <;>
      omega

/-- A borrow rate lies between zero and four times its rate at target. -/
theorem curveValue_bounds {rate err : Int} (hr : 0 ≤ rate) (h0 : -wad.toInt ≤ err)
    (h1 : err ≤ wad.toInt) : 0 ≤ curveValue rate err ∧ curveValue rate err ≤ 4 * rate := by
  have hlow := curveScale_lower h0
  have hprod : curveScale err * rate ≤ 4000000000000000000 * rate :=
    Int.mul_le_mul_of_nonneg_right (curveScale_upper h1) hr
  have hnonneg : 0 ≤ curveScale err * rate := Int.mul_nonneg (by omega) hr
  unfold curveValue
  rw [Int.tdiv_eq_ediv_of_nonneg hnonneg, wad_toInt]
  omega

/-! ### Monotonicity -/

/-- The error never falls as utilization grows: within each side of the target it is one
truncated quotient, and it changes sign only at the target. -/
theorem errorValue_mono {u v : Int} (h : u ≤ v) : errorValue u ≤ errorValue v := by
  unfold errorValue
  by_cases hu : targetUtilization.toInt < u
  · rw [if_pos hu, if_pos (Int.lt_of_lt_of_le hu h)]
    exact Int.tdiv_le_tdiv (by decide) (Int.mul_le_mul_of_nonneg_right (by omega) (by decide))
  · rw [if_neg hu]
    by_cases hv : targetUtilization.toInt < v
    · rw [if_pos hv]
      simp only [targetUtilization_toInt, wad_toInt, Int.reduceSub] at hu hv ⊢
      rcases tdiv_cases ((u - 900000000000000000) * 1000000000000000000) 900000000000000000
        with ⟨_, hq⟩ | ⟨_, hq⟩ <;>
      rcases tdiv_cases ((v - 900000000000000000) * 1000000000000000000) 100000000000000000
        with ⟨_, hq'⟩ | ⟨_, hq'⟩ <;> omega
    · rw [if_neg hv]
      exact Int.tdiv_le_tdiv (by decide) (Int.mul_le_mul_of_nonneg_right (by omega) (by decide))

theorem speedValue_mono : Monotone speedValue := fun _ _ h =>
  Int.tdiv_le_tdiv (by decide) (Int.mul_le_mul_of_nonneg_left h (by decide))

theorem driftValue_mono {start : Int} (hs : 0 ≤ start) : Monotone (driftValue start) := fun _ _ h =>
  clampRate_mono (Int.tdiv_le_tdiv (by decide)
    (Int.mul_le_mul_of_nonneg_left (expValue_monotone h) hs))

theorem driftPath_mono {start : Int} (hs : 0 ≤ start) : Monotone (driftPath start) := by
  intro a a' h
  have hfinal := driftValue_mono hs h
  have hmiddle := driftValue_mono hs (Int.tdiv_le_tdiv (show (0 : Int) < 2 by decide) h)
  refine Prod.mk_le_mk.mpr ⟨Int.tdiv_le_tdiv (show (0 : Int) < 4 by decide) ?_, hfinal⟩
  omega

/-- At a valid start, the path of the rate at target never falls as the error grows. -/
theorem pathValue_mono {start : Int} (hs : ValidStart start) (elapsed : Nat) :
    Monotone fun err => pathValue start err elapsed := by
  intro err err' h
  rcases hs with hzero | ⟨hlow, hhigh⟩
  · simp only [pathValue, if_pos hzero, le_refl]
  · simp only [pathValue_eq_driftPath hlow hhigh]
    apply driftPath_mono (by simp only [minRateAtTarget_toInt] at hlow; omega)
    exact Int.mul_le_mul_of_nonneg_right (speedValue_mono h) (Int.natCast_nonneg elapsed)

/-- The scale never falls as the error grows: within each sign it is one truncated quotient, and
it crosses one only at zero error. -/
theorem curveScale_mono : Monotone curveScale := by
  intro err err' h
  unfold curveScale curveCoefficient
  by_cases hneg' : err' < 0
  · rw [if_pos hneg', if_pos (Int.lt_of_le_of_lt h hneg')]
    have := Int.tdiv_le_tdiv (show (0 : Int) < wad.toInt by decide)
      (Int.mul_le_mul_of_nonneg_left h (show (0 : Int) ≤ 750000000000000000 by decide))
    omega
  · rw [if_neg hneg']
    by_cases hneg : err < 0
    · rw [if_pos hneg, wad_toInt]
      rcases tdiv_cases (750000000000000000 * err) 1000000000000000000 with ⟨_, hq⟩ | ⟨_, hq⟩ <;>
      rcases tdiv_cases (3000000000000000000 * err') 1000000000000000000
        with ⟨_, hq'⟩ | ⟨_, hq'⟩ <;> omega
    · rw [if_neg hneg]
      have := Int.tdiv_le_tdiv (show (0 : Int) < wad.toInt by decide)
        (Int.mul_le_mul_of_nonneg_left h (show (0 : Int) ≤ 3000000000000000000 by decide))
      omega

/-- The borrow rate rises with both its rate at target and its error. -/
theorem curveValue_mono {rate rate' err err' : Int} (hr : 0 ≤ rate) (hrate : rate ≤ rate')
    (herr : -wad.toInt ≤ err) (h : err ≤ err') : curveValue rate err ≤ curveValue rate' err' := by
  have hscale := curveScale_mono h
  have hpos := curveScale_lower herr
  unfold curveValue
  exact Int.tdiv_le_tdiv (by decide) (Int.mul_le_mul hscale hrate hr (by omega))

/-- The whole curve on integers: for utilizations in `[0, 1]` and a valid start, the rates rise
with utilization, each rate at target is in the clamp interval and each borrow rate is at most
four times the largest one. -/
theorem ratesValue_mono {u u' start : Int} (hu : 0 ≤ u) (h : u ≤ u') (hu' : u' ≤ wad.toInt)
    (hs : ValidStart start) (elapsed : Nat) :
    (ratesValue u start elapsed).1 ≤ (ratesValue u' start elapsed).1 ∧
      (ratesValue u start elapsed).2.1 ≤ (ratesValue u' start elapsed).2.1 ∧
      (ratesValue u start elapsed).2.2 ≤ (ratesValue u' start elapsed).2.2 := by
  have herr := errorValue_mono h
  have hbounds := errorValue_bounds hu (Int.le_trans h hu')
  have hpath : pathValue start (errorValue u) elapsed ≤ pathValue start (errorValue u') elapsed :=
    pathValue_mono hs elapsed herr
  have hrange := pathValue_bounds hs (errorValue u) elapsed
  have hmin : (0 : Int) ≤ minRateAtTarget.toInt := by decide
  exact ⟨curveValue_mono (by omega) (Prod.mk_le_mk.mp hpath).1 hbounds.1 herr,
    curveValue_mono (by omega) (Prod.mk_le_mk.mp hpath).2 hbounds.1 herr,
    (Prod.mk_le_mk.mp hpath).2⟩

/-- The integer rates as the words `borrowRates` returns. -/
def BorrowRates.ofValues (rates : Int × Int × Int) : BorrowRates :=
  ⟨toUnsigned (wrap rates.1), toUnsigned (wrap rates.2.1), toUnsigned (wrap rates.2.2)⟩

theorem ratesValue_bounds {u start : Int} (hu : 0 ≤ u) (hu' : u ≤ wad.toInt)
    (hs : ValidStart start) (elapsed : Nat) :
    (0 ≤ (ratesValue u start elapsed).1 ∧
      (ratesValue u start elapsed).1 ≤ 4 * maxRateAtTarget.toInt) ∧
    (0 ≤ (ratesValue u start elapsed).2.1 ∧
      (ratesValue u start elapsed).2.1 ≤ 4 * maxRateAtTarget.toInt) ∧
    (minRateAtTarget.toInt ≤ (ratesValue u start elapsed).2.2 ∧
      (ratesValue u start elapsed).2.2 ≤ maxRateAtTarget.toInt) := by
  have herr := errorValue_bounds hu hu'
  obtain ⟨⟨haverage, haverage'⟩, hfinal, hfinal'⟩ := pathValue_bounds hs (errorValue u) elapsed
  have hmin : (0 : Int) ≤ minRateAtTarget.toInt := by decide
  have hcurve := curveValue_bounds (Int.le_trans hmin haverage) herr.1 herr.2
  have hcurve' := curveValue_bounds (Int.le_trans hmin hfinal) herr.1 herr.2
  dsimp only [ratesValue]
  exact ⟨⟨hcurve.1, by omega⟩, ⟨hcurve'.1, by omega⟩, hfinal, hfinal'⟩

/-! ### Both builds compute the curve on integers -/

theorem clamp_wrap {v : Int} (h : Fits v) :
    clamp (wrap v) minRateAtTarget maxRateAtTarget = wrap (clampRate v) := by
  have hlow : (wrap v < minRateAtTarget) ↔ v < minRateAtTarget.toInt := by
    show (wrap v).toInt < _ ↔ _
    rw [toInt_wrap h]
  have hhigh : (maxRateAtTarget < wrap v) ↔ maxRateAtTarget.toInt < v := by
    show _ < (wrap v).toInt ↔ _
    rw [toInt_wrap h]
  unfold clamp clampRate
  by_cases h1 : v < minRateAtTarget.toInt
  · rw [if_pos (hlow.mpr h1), if_pos h1, wrap_toInt]
  · rw [if_neg (fun h' => h1 (hlow.mp h')), if_neg h1]
    by_cases h2 : maxRateAtTarget.toInt < v
    · rw [if_pos (hhigh.mpr h2), if_pos h2, wrap_toInt]
    · rw [if_neg (fun h' => h2 (hhigh.mp h')), if_neg h2]

/-- Whatever it is given, `clamp` returns a rate within the clamp interval. -/
theorem clamp_bounds (x : Int256) :
    minRateAtTarget.toInt ≤ (clamp x minRateAtTarget maxRateAtTarget).toInt ∧
      (clamp x minRateAtTarget maxRateAtTarget).toInt ≤ maxRateAtTarget.toInt := by
  unfold clamp
  split
  · decide
  · next hlow =>
    split
    · decide
    · next hhigh => exact ⟨Int.not_lt.mp hlow, Int.not_lt.mp hhigh⟩

theorem toUnsigned_wrap_toNat {z : Int} (h0 : 0 ≤ z) (h : Fits z) :
    (toUnsigned (wrap z)).toNat = z.toNat := by
  rw [toUnsigned_toNat (by rw [toInt_wrap h]; exact h0), toInt_wrap h]

/-- The drift over fewer than `2 ^ 64` seconds at a speed of at most `adjustmentSpeed` fits a
word with room to spare. -/
theorem adaptation_fits {speed : Int} {elapsed : Nat} (hs : speed.natAbs ≤ 1585489599188)
    (he : elapsed < UInt64.size) : Fits (speed * elapsed) := by
  apply fits_of_natAbs_lt
  rw [Int.natAbs_mul, Int.natAbs_natCast]
  calc speed.natAbs * elapsed ≤ 1585489599188 * elapsed := Nat.mul_le_mul_right _ hs
    _ < 1585489599188 * UInt64.size := Nat.mul_lt_mul_of_pos_left he (by decide)
    _ < Nat.pow 2 255 := by decide

/-- A valid start fits the signed word: it is at most the largest rate at target. -/
theorem ValidStart.toNat_lt {s : UInt256} (hs : ValidStart s.toNat) : s.toNat < Nat.pow 2 255 := by
  have hle : s.toNat ≤ 63419583967 := by
    rcases hs with h | ⟨-, h⟩ <;> simp at h <;> omega
  exact Nat.lt_of_le_of_lt hle (by decide)

/-- A utilization of at most one, read as an integer. -/
theorem toNat_le_wad {u : UInt256} (hu : u ≤ UInt256.wad) : (u.toNat : Int) ≤ wad.toInt := by
  have hle : u.toNat ≤ 1000000000000000000 := hu
  rw [wad_toInt]
  omega

namespace Build

variable {m : Type → Type} [Monad m] [LawfulMonad m] {b : Build m}

theorem wadMulToZero_faithful (hb : b.Faithful) {x y : Int256} {z : Int}
    (hz : x.toInt * y.toInt = z) (h : Fits z) : b.wadMulToZero x y = pure (wrap (z.tdiv wad.toInt)) := by
  unfold wadMulToZero
  rw [hb.mul hz h, pure_bind, hb.div (by rw [toInt_wrap h]) (h.tdiv (by decide))]

theorem wadDivToZero_faithful (hb : b.Faithful) {x y : Int256} {z : Int}
    (hz : x.toInt * wad.toInt = z) (h : Fits z) (hy : 0 < y.toInt) :
    b.wadDivToZero x y = pure (wrap (z.tdiv y.toInt)) := by
  unfold wadDivToZero
  rw [hb.mul hz h, pure_bind, hb.div (by rw [toInt_wrap h]) (h.tdiv hy)]

/-- The error of a utilization in `[0, 1]` overflows nowhere. -/
theorem utilizationError_faithful (hb : b.Faithful) {u : Int256} (h0 : 0 ≤ u.toInt)
    (h1 : u.toInt ≤ wad.toInt) : b.utilizationError u = pure (wrap (errorValue u.toInt)) := by
  have hdiff : Fits (u.toInt - targetUtilization.toInt) := by
    rw [fits_iff, targetUtilization_toInt]
    rw [wad_toInt] at h1
    omega
  have hprod : Fits ((u.toInt - targetUtilization.toInt) * wad.toInt) := by
    rw [fits_iff, targetUtilization_toInt, wad_toInt]
    rw [wad_toInt] at h1
    omega
  have hscaled : (wrap (u.toInt - targetUtilization.toInt)).toInt * wad.toInt =
      (u.toInt - targetUtilization.toInt) * wad.toInt := by
    rw [toInt_wrap hdiff]
  unfold utilizationError errorValue
  by_cases hu : targetUtilization.toInt < u.toInt
  · rw [if_pos (show targetUtilization < u from hu), if_pos hu, hb.sub rfl (by decide), pure_bind,
      hb.sub rfl hdiff, pure_bind,
      wadDivToZero_faithful hb hscaled hprod (by rw [toInt_wrap (by decide)]; decide),
      toInt_wrap (by decide)]
  · rw [if_neg (show ¬ targetUtilization < u from hu), if_neg hu, pure_bind, hb.sub rfl hdiff,
      pure_bind, wadDivToZero_faithful hb hscaled hprod (by decide)]

/-- The coefficient of the curve: a quarter below one under the target, three over it. -/
theorem coefficient_faithful (hb : b.Faithful) (err : Int256) :
    (if err.isNeg then b.wadDivToZero wad curveSteepness >>= fun q => b.sub wad q
      else b.sub curveSteepness wad) = pure (wrap (curveCoefficient err.toInt)) := by
  unfold curveCoefficient Int256.isNeg
  by_cases hneg : err.toInt < 0
  · rw [if_pos (by simpa using hneg), if_pos hneg, wadDivToZero_faithful hb rfl (by decide) (by decide),
      pure_bind]
    exact hb.sub (by rw [toInt_wrap (by decide)]; decide) (by decide)
  · rw [if_neg (by simpa using hneg), if_neg hneg]
    exact hb.sub (by decide) (by decide)

/-- The curve at a rate at target of at most `maxRateAtTarget` and an error in `[-1, 1]`
overflows nowhere. -/
theorem curve_faithful (hb : b.Faithful) {rate err : Int256} (hr0 : 0 ≤ rate.toInt)
    (hr1 : rate.toInt ≤ maxRateAtTarget.toInt) (he0 : -wad.toInt ≤ err.toInt)
    (he1 : err.toInt ≤ wad.toInt) : b.curve rate err = pure (wrap (curveValue rate.toInt err.toInt)) := by
  have hcoefficient : Fits (curveCoefficient err.toInt) := by
    unfold curveCoefficient
    split <;> decide
  have hslope : Fits (curveCoefficient err.toInt * err.toInt) := by
    rw [fits_iff]
    rw [wad_toInt] at he0 he1
    unfold curveCoefficient
    split <;> omega
  have hscaled : Fits ((curveCoefficient err.toInt * err.toInt).tdiv wad.toInt) :=
    hslope.tdiv (by decide)
  have hlower := curveScale_lower he0
  have hupper := curveScale_upper he1
  have hscale : Fits (curveScale err.toInt) := by
    rw [fits_iff]
    omega
  have hprod : Fits (curveScale err.toInt * rate.toInt) := by
    have hle : curveScale err.toInt * rate.toInt ≤ 4000000000000000000 * rate.toInt :=
      Int.mul_le_mul_of_nonneg_right hupper hr0
    have hnonneg : 0 ≤ curveScale err.toInt * rate.toInt := Int.mul_nonneg (by omega) hr0
    rw [maxRateAtTarget_toInt] at hr1
    rw [fits_iff]
    omega
  unfold curve
  rw [coefficient_faithful hb, pure_bind,
    wadMulToZero_faithful hb (by rw [toInt_wrap hcoefficient]) hslope, pure_bind,
    hb.add (by rw [toInt_wrap hscaled]; rfl) hscale, pure_bind,
    wadMulToZero_faithful hb (by rw [toInt_wrap hscale]) hprod]
  rfl

/-- A drift from a rate at target of at most `maxRateAtTarget` overflows nowhere, whatever the
adaptation: the exponential is at most `expUpperValue`. -/
theorem driftedRateAtTarget_faithful (hb : b.Faithful) {start adaptation : Int256} {a : Int}
    (h0 : 0 ≤ start.toInt) (h1 : start.toInt ≤ maxRateAtTarget.toInt) (ha : adaptation.toInt = a) :
    b.driftedRateAtTarget start adaptation = pure (wrap (driftValue start.toInt a)) := by
  have hexp := expValue_nonneg a
  have hexp' := expValue_le a
  have hexpFits : Fits (expValue a) := by
    rw [fits_iff]
    rw [expUpperValue_toInt] at hexp'
    omega
  have hle : start.toInt * expValue a ≤ maxRateAtTarget.toInt * expUpperValue.toInt :=
    Int.mul_le_mul h1 hexp' hexp (by decide)
  have hprod : Fits (start.toInt * expValue a) := by
    have hnonneg := Int.mul_nonneg h0 hexp
    rw [maxRateAtTarget_toInt, expUpperValue_toInt] at hle
    rw [fits_iff]
    omega
  unfold driftedRateAtTarget
  rw [wadExp_faithful hb, pure_bind, ha,
    wadMulToZero_faithful hb (by rw [toInt_wrap hexpFits]) hprod, pure_bind,
    clamp_wrap (hprod.tdiv (by decide))]
  rfl

/-- The path of the rate at target from a valid start, at an error in `[-1, 1]` and over fewer
than `2 ^ 64` seconds, overflows nowhere. -/
theorem rateAtTargetPath_faithful (hb : b.Faithful) {start err : Int256} {elapsed : Nat}
    (hs : ValidStart start.toInt) (he0 : -wad.toInt ≤ err.toInt) (he1 : err.toInt ≤ wad.toInt)
    (helapsed : elapsed < UInt64.size) :
    b.rateAtTargetPath start err elapsed =
      pure (wrap (pathValue start.toInt err.toInt elapsed).1,
        wrap (pathValue start.toInt err.toInt elapsed).2) := by
  unfold rateAtTargetPath
  rcases hs with hzero | ⟨hlow, hhigh⟩
  · rw [if_pos hzero, pathValue, if_pos hzero, wrap_toInt]
  have hne : start.toInt ≠ 0 := by
    rw [minRateAtTarget_toInt] at hlow
    omega
  have hspeed := speedValue_bounds he0 he1
  have hslope : Fits (adjustmentSpeed.toInt * err.toInt) := by
    rw [fits_iff, adjustmentSpeed_toInt]
    rw [wad_toInt] at he0 he1
    omega
  have hspeedFits : Fits (speedValue err.toInt) := hslope.tdiv (by decide)
  have helapsedFits : Fits (elapsed : Int) :=
    fits_of_natAbs_lt (by rw [Int.natAbs_natCast]; exact Nat.lt_trans helapsed (by decide))
  have hadaptation : Fits (speedValue err.toInt * elapsed) :=
    adaptation_fits (by rw [adjustmentSpeed_toInt] at hspeed; omega) helapsed
  rw [if_neg hne, wadMulToZero_faithful hb rfl hslope, pure_bind,
    show (adjustmentSpeed.toInt * err.toInt).tdiv wad.toInt = speedValue err.toInt from rfl,
    hb.mul (by rw [toInt_wrap hspeedFits, toInt_wrap helapsedFits]) hadaptation, pure_bind,
    toInt_wrap hadaptation, pathValue, if_neg hne]
  by_cases hstill : speedValue err.toInt * elapsed = 0
  · rw [if_pos hstill, if_pos hstill, wrap_toInt]
  rw [if_neg hstill, if_neg hstill]
  unfold driftPath
  generalize speedValue err.toInt * (elapsed : Int) = a at hadaptation ⊢
  have hstart : 0 ≤ start.toInt := by
    rw [minRateAtTarget_toInt] at hlow
    omega
  have hhalfFits : Fits (a.tdiv 2) := hadaptation.tdiv (by decide)
  have hhalf : b.div (wrap a) 2 = pure (wrap (a.tdiv 2)) :=
    hb.div (by rw [toInt_wrap hadaptation]; rfl) hhalfFits
  rw [driftedRateAtTarget_faithful hb hstart hhigh (toInt_wrap hadaptation), pure_bind, hhalf,
    pure_bind, driftedRateAtTarget_faithful hb hstart hhigh (toInt_wrap hhalfFits), pure_bind]
  obtain ⟨hfinal, hfinal'⟩ := driftValue_bounds start.toInt a
  obtain ⟨hmiddle, hmiddle'⟩ := driftValue_bounds start.toInt (a.tdiv 2)
  generalize driftValue start.toInt a = final at hfinal hfinal' ⊢
  generalize driftValue start.toInt (a.tdiv 2) = middle at hmiddle hmiddle' ⊢
  simp only [minRateAtTarget_toInt] at hlow hfinal hmiddle
  simp only [maxRateAtTarget_toInt] at hhigh hfinal' hmiddle'
  have hfinalFits : Fits final := by
    rw [fits_iff]
    omega
  have hmiddleFits : Fits middle := by
    rw [fits_iff]
    omega
  have hsumFits : Fits (start.toInt + final) := by
    rw [fits_iff]
    omega
  have hdoubleFits : Fits (2 * middle) := by
    rw [fits_iff]
    omega
  have htotalFits : Fits (start.toInt + final + 2 * middle) := by
    rw [fits_iff]
    omega
  have hdouble : b.mul 2 (wrap middle) = pure (wrap (2 * middle)) :=
    hb.mul (by rw [toInt_wrap hmiddleFits]; rfl) hdoubleFits
  have hquarter : b.div (wrap (start.toInt + final + 2 * middle)) 4 =
      pure (wrap ((start.toInt + final + 2 * middle).tdiv 4)) :=
    hb.div (by rw [toInt_wrap htotalFits]; rfl) (htotalFits.tdiv (by decide))
  rw [hb.add (by rw [toInt_wrap hfinalFits]) hsumFits, pure_bind, hdouble, pure_bind,
    hb.add (by rw [toInt_wrap hsumFits, toInt_wrap hdoubleFits]) htotalFits, pure_bind, hquarter,
    pure_bind]

/-- Every build that keeps exact results computes the borrow rates on integers, for a
utilization of at most one, a valid start and fewer than `2 ^ 64` seconds: no signed operation
of the curve overflows there. -/
theorem borrowRates_faithful (hb : b.Faithful) {u s : UInt256} {elapsed : Nat}
    (hu : u ≤ UInt256.wad) (hs : ValidStart s.toNat) (he : elapsed < UInt64.size) :
    b.borrowRates u s elapsed = pure (BorrowRates.ofValues (ratesValue u.toNat s.toNat elapsed)) := by
  have hu' : u.toNat ≤ 1000000000000000000 := hu
  have hsmall := hs.toNat_lt
  have huInt : (ofBits u).toInt = u.toNat := ofBits_toInt (Nat.lt_of_le_of_lt hu' (by decide))
  have hsInt : (ofBits s).toInt = s.toNat := ofBits_toInt hsmall
  have herr := errorValue_bounds (Int.natCast_nonneg u.toNat) (by rw [wad_toInt]; omega)
  have herrFits : Fits (errorValue u.toNat) := by
    rw [fits_iff]
    rw [wad_toInt] at herr
    omega
  obtain ⟨⟨haverage, haverage'⟩, hfinal, hfinal'⟩ := pathValue_bounds hs (errorValue u.toNat) elapsed
  simp only [minRateAtTarget_toInt, maxRateAtTarget_toInt] at haverage haverage' hfinal hfinal'
  have haverageFits : Fits (pathValue s.toNat (errorValue u.toNat) elapsed).1 := by
    rw [fits_iff]
    omega
  have hfinalFits : Fits (pathValue s.toNat (errorValue u.toNat) elapsed).2 := by
    rw [fits_iff]
    omega
  unfold borrowRates
  rw [utilizationError_faithful hb (by rw [huInt]; omega) (by rw [huInt, wad_toInt]; omega),
    pure_bind, huInt,
    rateAtTargetPath_faithful hb (by rw [hsInt]; exact hs) (by rw [toInt_wrap herrFits]; exact herr.1)
      (by rw [toInt_wrap herrFits]; exact herr.2) he, pure_bind,
    toInt_wrap herrFits, hsInt,
    curve_faithful hb (by rw [toInt_wrap haverageFits]; omega)
      (by rw [toInt_wrap haverageFits, maxRateAtTarget_toInt]; omega)
      (by rw [toInt_wrap herrFits]; exact herr.1) (by rw [toInt_wrap herrFits]; exact herr.2),
    pure_bind,
    curve_faithful hb (by rw [toInt_wrap hfinalFits]; omega)
      (by rw [toInt_wrap hfinalFits, maxRateAtTarget_toInt]; omega)
      (by rw [toInt_wrap herrFits]; exact herr.1) (by rw [toInt_wrap herrFits]; exact herr.2),
    pure_bind, toInt_wrap haverageFits, toInt_wrap hfinalFits, toInt_wrap herrFits]
  rfl

/-- The rate at target a release build returns after any period, at any error: the initial one
for a zero start, the start itself when nothing drifted, and otherwise a clamped one. -/
theorem release_rateAtTargetPath_snd (start err : Int256) (elapsed : Nat) :
    (Id.run (release.rateAtTargetPath start err elapsed)).2 = initialRateAtTarget ∨
      (Id.run (release.rateAtTargetPath start err elapsed)).2 = start ∨
      (minRateAtTarget.toInt ≤ (Id.run (release.rateAtTargetPath start err elapsed)).2.toInt ∧
        (Id.run (release.rateAtTargetPath start err elapsed)).2.toInt ≤ maxRateAtTarget.toInt) := by
  unfold rateAtTargetPath
  split
  · exact .inl rfl
  · simp only [Id.run_bind]
    split
    · exact .inr (.inl rfl)
    · exact .inr (.inr (clamp_bounds _))

end Build

/-- The borrow rates as the simulator computes them, on integers, wherever no step overflows. -/
theorem borrowRates_eq_ofValues {u s : UInt256} {elapsed : Nat} (hu : u ≤ UInt256.wad)
    (hs : ValidStart s.toNat) (he : elapsed < UInt64.size) :
    borrowRates u s elapsed = BorrowRates.ofValues (ratesValue u.toNat s.toNat elapsed) := by
  show Id.run (Build.release.borrowRates u s elapsed) = _
  rw [Build.borrowRates_faithful Build.release_faithful hu hs he]
  rfl

/-- A debug build computes the same rates, stopping nowhere. -/
theorem debug_borrowRates {u s : UInt256} {elapsed : Nat} (hu : u ≤ UInt256.wad)
    (hs : ValidStart s.toNat) (he : elapsed < UInt64.size) :
    Build.debug.borrowRates u s elapsed = some (borrowRates u s elapsed) := by
  rw [Build.borrowRates_faithful Build.debug_faithful hu hs he, borrowRates_eq_ofValues hu hs he]
  rfl

/-- Each rate read back from its word. -/
theorem borrowRates_toNat {u s : UInt256} {elapsed : Nat} (hu : u ≤ UInt256.wad)
    (hs : ValidStart s.toNat) (he : elapsed < UInt64.size) :
    (borrowRates u s elapsed).average.toNat = (ratesValue u.toNat s.toNat elapsed).1.toNat ∧
      (borrowRates u s elapsed).final.toNat = (ratesValue u.toNat s.toNat elapsed).2.1.toNat ∧
      (borrowRates u s elapsed).finalRateAtTarget.toNat =
        (ratesValue u.toNat s.toNat elapsed).2.2.toNat := by
  have hu' := toNat_le_wad hu
  obtain ⟨⟨haverage, haverage'⟩, ⟨hfinal, hfinal'⟩, ⟨hrate, hrate'⟩⟩ :=
    ratesValue_bounds (Int.natCast_nonneg u.toNat) hu' hs elapsed
  rw [maxRateAtTarget_toInt] at haverage' hfinal' hrate'
  rw [minRateAtTarget_toInt] at hrate
  rw [borrowRates_eq_ofValues hu hs he]
  exact ⟨toUnsigned_wrap_toNat haverage (by rw [fits_iff]; omega),
    toUnsigned_wrap_toNat hfinal (by rw [fits_iff]; omega),
    toUnsigned_wrap_toNat (by omega) (by rw [fits_iff]; omega)⟩

/-- Whatever the utilization and the period, the curve returns a rate at target within the clamp
interval from a valid start. -/
theorem finalRateAtTarget_valid (u : UInt256) {s : UInt256} (elapsed : Nat)
    (hs : ValidStart s.toNat) : ValidStart (borrowRates u s elapsed).finalRateAtTarget.toNat := by
  unfold borrowRates Build.borrowRates
  rw [Id.run_bind, Id.run_bind, Id.run_bind, Id.run_bind, Id.run_pure]
  dsimp only
  rcases Build.release_rateAtTargetPath_snd (ofBits s)
    (Id.run (Build.release.utilizationError (ofBits u))) elapsed with hinit | hstart | ⟨hlow, hhigh⟩
  · rw [hinit, toUnsigned_toNat (by decide), initialRateAtTarget_toInt]
    decide
  · rw [hstart]
    have hsmall := hs.toNat_lt
    rw [toUnsigned_toNat (by rw [ofBits_toInt hsmall]; omega), ofBits_toInt hsmall, Int.toNat_natCast]
    exact hs
  · rw [minRateAtTarget_toInt] at hlow
    rw [toUnsigned_toNat (by omega)]
    refine .inr ⟨?_, ?_⟩ <;> simp only [minRateAtTarget_toInt, maxRateAtTarget_toInt] at * <;> omega

end RateCurve

namespace Market

open MarketOp RateCurve

/-- Accrual changes a market's rate at target only by storing the curve's final rate at target
from the stored one, at some utilization, over the time since the last update. -/
theorem accrue_rateAtTarget {t : Nat} {m m' : Market} {accrual : Accrual}
    (h : (accrue t).apply m = .ok (accrual, m')) :
    m'.rateAtTarget = m.rateAtTarget ∨
      ∃ r u, m.rateAtTarget = some r ∧
        m'.rateAtTarget = some (borrowRates u r (t - m.lastUpdate)).finalRateAtTarget := by
  rw [apply_eq_ok] at h
  unfold accrue at h
  simp only [get_bind] at h
  split at h
  · simp at h
  split at h
  · simp only [run_pure, Prod.mk.injEq, Except.ok.injEq] at h
    obtain ⟨-, rfl⟩ := h
    exact .inl rfl
  split at h
  · simp only [set_bind, run_pure, Prod.mk.injEq, Except.ok.injEq] at h
    obtain ⟨-, rfl⟩ := h
    exact .inl rfl
  next r hr =>
  obtain ⟨utilization, -, h⟩ := arith_bind_inv h
  refine .inr ⟨r, utilization, hr, ?_⟩
  obtain ⟨growth, -, h⟩ := arith_bind_inv h
  obtain ⟨interest, -, h⟩ := arith_bind_inv h
  obtain ⟨tba, -, h⟩ := arith_bind_inv h
  simp only [modify_bind] at h
  obtain ⟨tsa, -, h⟩ := arith_bind_inv h
  simp only [modify_bind] at h
  split at h
  · simp only [pure_bind, modify_bind, run_pure, Prod.mk.injEq, Except.ok.injEq] at h
    obtain ⟨-, rfl⟩ := h
    rfl
  · obtain ⟨feeAmount, -, h⟩ := arith_bind_inv h
    obtain ⟨assetsBeforeFee, -, h⟩ := arith_bind_inv h
    obtain ⟨feeShares, -, h⟩ := arith_bind_inv h
    obtain ⟨tss, -, h⟩ := arith_bind_inv h
    simp only [modify_bind, pure_bind, run_pure, Prod.mk.injEq, Except.ok.injEq] at h
    obtain ⟨-, rfl⟩ := h
    rfl

/-- The step lemma of the rate at target: accrual stores only valid rates at target when the
stored one is valid. -/
theorem accrue_validStart {t : Nat} {m m' : Market} {accrual : Accrual}
    (h : (accrue t).apply m = .ok (accrual, m')) (hm : ∀ r ∈ m.rateAtTarget, ValidStart r.toNat) :
    ∀ r ∈ m'.rateAtTarget, ValidStart r.toNat := by
  rcases accrue_rateAtTarget h with hsame | ⟨r, u, hr, hnew⟩
  · rw [hsame]
    exact hm
  · rw [hnew]
    intro r' hr'
    obtain rfl := Option.some.inj hr'
    exact finalRateAtTarget_valid u _ (hm r hr)

end Market

open RateCurve

/-- The rate curve stays in range. Accrual keeps a market's rate at target absent, zero or within
the clamp interval; and from such a start, at a utilization of at most one and over any `u64`
period, no signed operation of the curve overflows, so a debug build returns what the release
build does, and both borrow rates are at most four times the largest rate at target. -/
theorem rate_curve_stays_in_range :
    (∀ (t : Nat) (m m' : Market) (accrual : Accrual),
      (∀ r ∈ m.rateAtTarget, ValidStart r.toNat) → (Market.accrue t).apply m = .ok (accrual, m') →
        ∀ r ∈ m'.rateAtTarget, ValidStart r.toNat) ∧
    (∀ (u s : UInt256) (elapsed : Nat), u ≤ UInt256.wad → ValidStart s.toNat →
      elapsed < UInt64.size →
        Build.debug.borrowRates u s elapsed = some (borrowRates u s elapsed) ∧
          ((borrowRates u s elapsed).average.toNat : Int) ≤ 4 * maxRateAtTarget.toInt ∧
          ((borrowRates u s elapsed).final.toNat : Int) ≤ 4 * maxRateAtTarget.toInt) := by
  refine ⟨fun t m m' accrual hm h => Market.accrue_validStart h hm, ?_⟩
  intro u s elapsed hu hs he
  have hu' := toNat_le_wad hu
  obtain ⟨⟨haverage, haverage'⟩, ⟨hfinal, hfinal'⟩, -⟩ :=
    ratesValue_bounds (Int.natCast_nonneg u.toNat) hu' hs elapsed
  obtain ⟨htoNat, htoNat', -⟩ := borrowRates_toNat hu hs he
  refine ⟨debug_borrowRates hu hs he, ?_, ?_⟩
  · rw [htoNat, Int.toNat_of_nonneg haverage]
    exact haverage'
  · rw [htoNat', Int.toNat_of_nonneg hfinal]
    exact hfinal'

/-- A market lending 95% of its supply at the initial rate at target, last updated at time zero. -/
def busyMarket : Market :=
  { Market.new ⟨⟨0xf0, by decide⟩, ⟨0xf1, by decide⟩, ⟨0xf2, by decide⟩, ⟨0xf3, by decide⟩,
      860000000000000000⟩ 0 with
    totalSupplyAssets := 1000000, totalSupplyShares := 1000000000000, totalBorrowAssets := 950000,
    totalBorrowShares := 950000000000, rateAtTarget := some 1268391679 }

set_option maxRecDepth 20000 in
/-- A day of accrual on `busyMarket` stores a valid rate at target, and the curve at its
utilization and rate at target overflows nowhere over that day. -/
theorem rate_curve_stays_in_range_busy_day :
    (∃ accrual m', (Market.accrue 86400).apply busyMarket = .ok (accrual, m') ∧
      ∀ r ∈ m'.rateAtTarget, ValidStart r.toNat) ∧
    Build.debug.borrowRates 950000000000000000 1268391679 86400 =
      some (borrowRates 950000000000000000 1268391679 86400) := by
  have hstart : ∀ r ∈ busyMarket.rateAtTarget, ValidStart r.toNat := by
    intro r hr
    obtain rfl := Option.some.inj hr
    decide
  obtain ⟨accrual, m', hday⟩ :
      ∃ accrual m', (Market.accrue 86400).apply busyMarket = .ok (accrual, m') := ⟨_, _, rfl⟩
  exact ⟨⟨accrual, m', hday, rate_curve_stays_in_range.1 _ _ _ _ hstart hday⟩,
    (rate_curve_stays_in_range.2 _ _ _ (by decide) (by decide) (by decide)).1⟩

/-- Higher utilization never lowers a rate: from a valid start and over any `u64` period, for
utilizations `u₁ ≤ u₂ ≤ 1`, the average and final borrow rates and the final rate at target at
`u₁` are at most those at `u₂`. -/
theorem borrowRates_monotone_utilization {u₁ u₂ s : UInt256} {elapsed : Nat} (hu : u₁ ≤ u₂)
    (hu₂ : u₂ ≤ UInt256.wad) (hs : ValidStart s.toNat) (he : elapsed < UInt64.size) :
    (borrowRates u₁ s elapsed).average ≤ (borrowRates u₂ s elapsed).average ∧
      (borrowRates u₁ s elapsed).final ≤ (borrowRates u₂ s elapsed).final ∧
      (borrowRates u₁ s elapsed).finalRateAtTarget ≤
        (borrowRates u₂ s elapsed).finalRateAtTarget := by
  have hu₁ : u₁ ≤ UInt256.wad := Nat.le_trans hu hu₂
  have hu₂' := toNat_le_wad hu₂
  obtain ⟨haverage₁, hfinal₁, hrate₁⟩ := borrowRates_toNat hu₁ hs he
  obtain ⟨haverage₂, hfinal₂, hrate₂⟩ := borrowRates_toNat hu₂ hs he
  obtain ⟨haverage, hfinal, hrate⟩ :=
    ratesValue_mono (Int.natCast_nonneg u₁.toNat) (Int.ofNat_le.mpr hu) hu₂' hs elapsed
  refine ⟨?_, ?_, ?_⟩
  · show (borrowRates u₁ s elapsed).average.toNat ≤ (borrowRates u₂ s elapsed).average.toNat
    rw [haverage₁, haverage₂]
    exact Int.toNat_le_toNat haverage
  · show (borrowRates u₁ s elapsed).final.toNat ≤ (borrowRates u₂ s elapsed).final.toNat
    rw [hfinal₁, hfinal₂]
    exact Int.toNat_le_toNat hfinal
  · show (borrowRates u₁ s elapsed).finalRateAtTarget.toNat ≤
      (borrowRates u₂ s elapsed).finalRateAtTarget.toNat
    rw [hrate₁, hrate₂]
    exact Int.toNat_le_toNat hrate

/-- Half and 95% utilization at the initial rate at target over a day. -/
theorem borrowRates_monotone_utilization_busy_day :
    ((500000000000000000 : UInt256) ≤ 950000000000000000 ∧
      (950000000000000000 : UInt256) ≤ UInt256.wad ∧ ValidStart (1268391679 : UInt256).toNat ∧
      86400 < UInt64.size) ∧
    (borrowRates 500000000000000000 1268391679 86400).average ≤
        (borrowRates 950000000000000000 1268391679 86400).average ∧
      (borrowRates 500000000000000000 1268391679 86400).final ≤
        (borrowRates 950000000000000000 1268391679 86400).final ∧
      (borrowRates 500000000000000000 1268391679 86400).finalRateAtTarget ≤
        (borrowRates 950000000000000000 1268391679 86400).finalRateAtTarget :=
  ⟨⟨by decide, by decide, by decide, by decide⟩,
    borrowRates_monotone_utilization (by decide) (by decide) (by decide) (by decide)⟩

end LendingSim
