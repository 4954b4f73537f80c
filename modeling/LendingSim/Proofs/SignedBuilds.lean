import Mathlib
import LendingSim.RateCurve

/-!
# Signed arithmetic in the release and debug builds

The rate curve is written once over a `Build`: the release build wraps each exact result into
the word range, the debug build stops at the first result outside it. On results that fit, the
two agree; this module says so once, for any build that keeps such results as they are
(`Build.Faithful`), so that each function of the curve needs one lemma for both builds.

`Int256.Fits z` says that `z` is the value of a word, and `toInt_wrap` that wrapping it changes
nothing. Each signed operation of a faithful build whose exact result fits returns that result
(`Faithful.add`, …), and quotients by a positive divisor always fit (`Fits.tdiv`).
-/

namespace LendingSim

namespace Int256

/-- `z` is the value of a word: it lies in `[-2 ^ 255, 2 ^ 255)`. -/
def Fits (z : Int) : Prop := -bound ≤ z ∧ z < bound

instance (z : Int) : Decidable (Fits z) := inferInstanceAs (Decidable (_ ∧ _))

theorem size_eq_two_mul_bound : ((UInt256.size : Nat) : Int) = 2 * bound := by decide

/-- Wrapping a value that fits changes nothing. -/
theorem toInt_wrap {z : Int} (h : Fits z) : (wrap z).toInt = z := by
  have hsize := size_eq_two_mul_bound
  exact Int.bmod_eq_of_le_mul_two (by have := h.1; omega) (by have := h.2; omega)

theorem wrap_toInt (x : Int256) : wrap x.toInt = x := by
  have hx : (wrap x.toInt).toInt = x.toInt := toInt_wrap ⟨x.le, x.lt⟩
  cases hw : wrap x.toInt
  cases x
  rw [hw] at hx
  simp only at hx
  subst hx
  rfl

theorem fits_toInt (x : Int256) : Fits x.toInt := ⟨x.le, x.lt⟩

/-- A magnitude below `2 ^ 255` fits. -/
theorem fits_of_natAbs_lt {z : Int} (h : z.natAbs < Nat.pow 2 255) : Fits z := by
  have hb : bound = ((Nat.pow 2 255 : Nat) : Int) := by decide
  constructor <;> omega

/-- A quotient by a positive divisor lies between zero and the dividend. -/
theorem Fits.tdiv {a c : Int} (h : Fits a) (hc : 0 < c) : Fits (a.tdiv c) := by
  obtain ⟨hlow, hhigh⟩ := h
  by_cases ha : 0 ≤ a
  · have hq : a.tdiv c ≤ a := Int.tdiv_le_self c ha
    have hq' : 0 ≤ a.tdiv c := Int.tdiv_nonneg ha (Int.le_of_lt hc)
    have hb : (0 : Int) < bound := by decide
    exact ⟨by omega, by omega⟩
  · have hneg : a.tdiv c = -((-a).tdiv c) := by rw [Int.neg_tdiv, Int.neg_neg]
    have hq : (-a).tdiv c ≤ -a := Int.tdiv_le_self c (by omega)
    have hq' : 0 ≤ (-a).tdiv c := Int.tdiv_nonneg (by omega) (Int.le_of_lt hc)
    have hb : (0 : Int) < bound := by decide
    exact ⟨by omega, by omega⟩

theorem ofInt?_of_fits {z : Int} (h : Fits z) : ofInt? z = some (wrap z) := by
  unfold ofInt?
  rw [dif_pos (show -bound ≤ z ∧ z < bound from h)]
  congr 1
  apply Eq.symm
  rw [← wrap_toInt ⟨z, h.1, h.2⟩]

end Int256

namespace RateCurve.Build

open Int256

variable {m : Type → Type} [Monad m] {b : Build m}

/-- A build is faithful when it keeps every exact result that fits a word as that word. -/
def Faithful (b : Build m) : Prop := ∀ z, Fits z → b.fit z = pure (wrap z)

theorem release_faithful : release.Faithful := fun _ _ => rfl

theorem debug_faithful : debug.Faithful := fun _ h => ofInt?_of_fits h

section Operations

variable (hb : b.Faithful) {x y : Int256} {z : Int}
include hb

theorem Faithful.add (hz : x.toInt + y.toInt = z) (h : Fits z) : b.add x y = pure (wrap z) := by
  rw [← hz]
  exact hb _ (hz ▸ h)

theorem Faithful.sub (hz : x.toInt - y.toInt = z) (h : Fits z) : b.sub x y = pure (wrap z) := by
  rw [← hz]
  exact hb _ (hz ▸ h)

theorem Faithful.mul (hz : x.toInt * y.toInt = z) (h : Fits z) : b.mul x y = pure (wrap z) := by
  rw [← hz]
  exact hb _ (hz ▸ h)

theorem Faithful.div (hz : x.toInt.tdiv y.toInt = z) (h : Fits z) : b.div x y = pure (wrap z) := by
  rw [← hz]
  exact hb _ (hz ▸ h)

theorem Faithful.neg (hz : -x.toInt = z) (h : Fits z) : b.neg x = pure (wrap z) := by
  rw [← hz]
  exact hb _ (hz ▸ h)

end Operations

end RateCurve.Build

end LendingSim
