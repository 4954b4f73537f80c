import LendingSim.Proofs.RoundTrips
import LendingSim.Market.Health

/-!
# The three views of a position's health

`isHealthy` compares the debt, rounded up, with the borrow limit, rounded down; `healthFactor`
divides the limit by the debt rounding down, and `ltv` divides the debt by the collateral's
value rounding up. All three come down to one comparison of cross products,
`debt * 10 ^ 18 ≤ value * lltv`, so they agree: a position is healthy exactly when its health
factor is at least one and exactly when its loan-to-value is within the market's `lltv`.

The one exception is the sentinel of `ltv`: collateral worth nothing gives the largest word,
which passes the comparison when the `lltv` is the largest word too, although the position,
with debt and no borrow limit, is unhealthy. `health_views_agree` states the agreement with
that exception, and `worthless_collateral_within_largest_lltv` shows it at a concrete market.
-/

namespace LendingSim

namespace UInt256

/-- A floor `q` of `x * y / d` reaches `c` exactly when `c` divisors fit in the product. -/
theorem le_mulDivDown_iff {x y d q : UInt256} (h : mulDivDown x y d = .ok q) (c : Nat) :
    c ≤ q.toNat ↔ c * d.toNat ≤ x.toNat * y.toNat := by
  rw [mulDivDown_eq] at h
  split at h
  · cases h
  · next hd =>
    split at h
    · cases h
    · next hp =>
      cases h
      rw [toNat_ofNat_of_lt (Nat.lt_of_le_of_lt (Nat.div_le_self _ _) (Nat.lt_of_not_le hp))]
      exact Nat.le_div_iff_mul_le (Nat.pos_of_ne_zero hd)

/-- A ceiling `q` of `x * y / d` stays within `c` exactly when the product fits in `c`
divisors. -/
theorem mulDivUp_le_iff {x y d q : UInt256} (h : mulDivUp x y d = .ok q) (c : Nat) :
    q.toNat ≤ c ↔ x.toNat * y.toNat ≤ c * d.toNat := by
  have hlow := le_mulDivUp_mul h
  have hhigh := mulDivUp_mul_lt h
  constructor
  · intro hq
    exact Nat.le_trans hlow (Nat.mul_le_mul_right _ hq)
  · intro hc
    have hlt : q.toNat * d.toNat < (c + 1) * d.toNat := by
      calc q.toNat * d.toNat < x.toNat * y.toNat + d.toNat := hhigh
        _ ≤ c * d.toNat + d.toNat := Nat.add_le_add_right hc _
        _ = (c + 1) * d.toNat := (Nat.succ_mul c d.toNat).symm
    exact Nat.le_of_lt_succ (Nat.lt_of_mul_lt_mul_right hlt)

theorem isZero_eq_false {a : UInt256} : a.isZero = false ↔ a.toNat ≠ 0 := by
  simp [isZero]

end UInt256

namespace Market

open UInt256

variable {m : Market} {p : Position}

/-- Debt rounded up is zero exactly for zero shares: every share carries at least one unit of
the virtual asset. -/
theorem toBorrowAssets_up_eq_zero_iff {shares borrowed : UInt256}
    (h : m.toBorrowAssets shares .up = .ok borrowed) :
    borrowed.toNat = 0 ↔ shares.toNat = 0 := by
  have hlow := Shares.le_toAssets_up_mul h
  have hhigh := Shares.toAssets_up_mul_lt h
  have hvirtual : Shares.marketVirtualShares.toNat = 1000000 := rfl
  constructor
  · intro hb
    rw [hb, Nat.zero_mul] at hlow
    exact (Nat.mul_eq_zero.mp (Nat.le_zero.mp hlow)).resolve_right (Nat.succ_ne_zero _)
  · intro hs
    rw [hs, Nat.zero_mul, Nat.zero_add] at hhigh
    have hlt : borrowed.toNat < 1 := by
      apply Nat.lt_of_mul_lt_mul_right (a := m.totalBorrowShares.toNat + 1000000)
      rw [Nat.one_mul]
      rwa [hvirtual] at hhigh
    exact Nat.lt_one_iff.mp hlt

/-- What `isHealthy` reads for a position with debt: the debt rounded up and the borrow
limit. -/
theorem isHealthy_inv {healthy : Bool} (hh : m.isHealthy p = .ok healthy)
    (hs : p.borrowShares.toNat ≠ 0) :
    ∃ borrowed maxBorrow, m.toBorrowAssets p.borrowShares .up = .ok borrowed ∧
      m.maxBorrowAssets p.collateral = .ok maxBorrow ∧
      healthy = (match maxBorrow with | some mb => decide (borrowed ≤ mb) | none => false) := by
  unfold isHealthy at hh
  rw [if_neg (by simp [isZero_eq_false.mpr hs])] at hh
  cases hB : m.toBorrowAssets p.borrowShares .up with
  | error e => simp [hB, bind, Except.bind] at hh
  | ok borrowed =>
    cases hM : m.maxBorrowAssets p.collateral with
    | error e => simp [hB, hM, bind, Except.bind] at hh
    | ok maxBorrow =>
      refine ⟨borrowed, maxBorrow, rfl, rfl, ?_⟩
      cases maxBorrow <;> simp [hB, hM, bind, Except.bind, pure, Except.pure] at hh <;> simp [hh]

/-- What `healthFactor` reads: the debt rounded up, then, for a position with debt, the borrow
limit. -/
theorem healthFactor_inv {factor : Option UInt256} (hf : m.healthFactor p = .ok factor) :
    ∃ borrowed, m.toBorrowAssets p.borrowShares .up = .ok borrowed ∧
      (borrowed.toNat = 0 → factor = some maxValue) ∧
      (borrowed.toNat ≠ 0 → ∃ maxBorrow, m.maxBorrowAssets p.collateral = .ok maxBorrow ∧
        match maxBorrow with
        | some mb => ∃ h, wadDiv mb borrowed .down = .ok h ∧ factor = some h
        | none => factor = none) := by
  unfold healthFactor at hf
  cases hB : m.toBorrowAssets p.borrowShares .up with
  | error e => simp [hB, bind, Except.bind] at hf
  | ok borrowed =>
    refine ⟨borrowed, rfl, fun hz => ?_, fun hz => ?_⟩
    · have hzero : borrowed.isZero = true := by simp [isZero, hz]
      simpa [hB, hzero, bind, Except.bind, pure, Except.pure] using hf.symm
    · have hzero : borrowed.isZero = false := isZero_eq_false.mpr hz
      cases hM : m.maxBorrowAssets p.collateral with
      | error e => simp [hB, hzero, hM, bind, Except.bind] at hf
      | ok maxBorrow =>
        refine ⟨maxBorrow, rfl, ?_⟩
        cases maxBorrow with
        | none => simpa [hB, hzero, hM, bind, Except.bind, pure, Except.pure] using hf.symm
        | some mb =>
          cases hq : wadDiv mb borrowed .down with
          | error e => simp [hB, hzero, hM, hq, bind, Except.bind, Functor.map, Except.map] at hf
          | ok h =>
            simp only [hB, hzero, hM, hq, bind, Except.bind, Functor.map, Except.map] at hf
            exact ⟨h, hq, by simpa using hf.symm⟩

/-- What `ltv` reads for a position with debt: the collateral's value, then, when it is
positive, the debt rounded up. -/
theorem ltv_inv {loanToValue : Option UInt256} (hl : m.ltv p = .ok loanToValue)
    (hs : p.borrowShares.toNat ≠ 0) :
    ∃ value, m.collateralValue p.collateral = .ok value ∧
      match value with
      | none => loanToValue = none
      | some v => (v.toNat = 0 → loanToValue = some maxValue) ∧
          (v.toNat ≠ 0 → ∃ borrowed l, m.toBorrowAssets p.borrowShares .up = .ok borrowed ∧
            wadDiv borrowed v .up = .ok l ∧ loanToValue = some l) := by
  unfold ltv at hl
  rw [if_neg (by simp [isZero_eq_false.mpr hs])] at hl
  cases hV : m.collateralValue p.collateral with
  | error e => simp [hV, bind, Except.bind] at hl
  | ok value =>
    refine ⟨value, rfl, ?_⟩
    cases value with
    | none => simpa [hV, bind, Except.bind, pure, Except.pure] using hl.symm
    | some v =>
      refine ⟨fun hz => ?_, fun hz => ?_⟩
      · have hzero : v.isZero = true := by simp [isZero, hz]
        simpa [hV, hzero, bind, Except.bind, pure, Except.pure] using hl.symm
      · have hzero : v.isZero = false := isZero_eq_false.mpr hz
        cases hB : m.toBorrowAssets p.borrowShares .up with
        | error e => simp [hV, hzero, hB, bind, Except.bind] at hl
        | ok borrowed =>
          cases hq : wadDiv borrowed v .up with
          | error e => simp [hV, hzero, hB, hq, bind, Except.bind, Functor.map, Except.map] at hl
          | ok l =>
            simp only [hV, hzero, hB, hq, bind, Except.bind, Functor.map, Except.map] at hl
            exact ⟨borrowed, l, rfl, hq, by simpa using hl.symm⟩

/-- Without a price there is neither a collateral value nor a borrow limit. -/
theorem collateralValue_of_no_price (hp : m.price = none) (c : UInt256) :
    m.collateralValue c = .ok none := by
  simp [collateralValue, hp]

theorem maxBorrowAssets_of_no_price (hp : m.price = none) (c : UInt256) :
    m.maxBorrowAssets c = .ok none := by
  simp [maxBorrowAssets, collateralValue_of_no_price hp, bind, Except.bind, pure, Except.pure]

/-- At a price, the borrow limit is the collateral's value times `lltv`, both rounded down. -/
theorem maxBorrowAssets_of_value {v : UInt256} {maxBorrow : Option UInt256}
    (hv : m.collateralValue p.collateral = .ok (some v))
    (hM : m.maxBorrowAssets p.collateral = .ok maxBorrow) :
    ∃ mb, maxBorrow = some mb ∧ wadMul v m.params.lltv .down = .ok mb := by
  simp only [maxBorrowAssets, hv, bind, Except.bind] at hM
  cases hq : wadMul v m.params.lltv .down with
  | error e => simp [hq, Functor.map, Except.map] at hM
  | ok mb =>
    simp only [hq, Functor.map, Except.map, Except.ok.injEq] at hM
    exact ⟨mb, hM.symm, rfl⟩

theorem collateralValue_isSome {price : UInt256} {value : Option UInt256}
    (hp : m.price = some price) (hv : m.collateralValue p.collateral = .ok value) :
    ∃ v, value = some v := by
  simp only [collateralValue, hp] at hv
  cases hq : mulDivDown p.collateral price oraclePriceScale with
  | error e => simp [hq, Functor.map, Except.map] at hv
  | ok v =>
    simp only [hq, Functor.map, Except.map, Except.ok.injEq] at hv
    exact ⟨v, hv.symm⟩

/-! ### The three cases of a position -/

/-- No debt: healthy, the largest health factor and a loan-to-value of zero. -/
theorem views_of_no_debt {healthy : Bool} {factor loanToValue : Option UInt256}
    (hs : p.borrowShares.toNat = 0) (hh : m.isHealthy p = .ok healthy)
    (hf : m.healthFactor p = .ok factor) (hl : m.ltv p = .ok loanToValue) :
    healthy = true ∧ factor = some maxValue ∧ loanToValue = some 0 := by
  have hzero : p.borrowShares.isZero = true := by simp [isZero, hs]
  obtain ⟨borrowed, hB, hnone, -⟩ := healthFactor_inv hf
  refine ⟨?_, hnone ((toBorrowAssets_up_eq_zero_iff hB).mpr hs), ?_⟩
  · simpa [isHealthy, hzero] using hh.symm
  · simpa [ltv, hzero] using hl.symm

/-- Debt without a price: unhealthy, and neither ratio exists. -/
theorem views_of_no_price {healthy : Bool} {factor loanToValue : Option UInt256}
    (hs : p.borrowShares.toNat ≠ 0) (hp : m.price = none) (hh : m.isHealthy p = .ok healthy)
    (hf : m.healthFactor p = .ok factor) (hl : m.ltv p = .ok loanToValue) :
    healthy = false ∧ factor = none ∧ loanToValue = none := by
  obtain ⟨borrowed, maxBorrow, hB, hM, rfl⟩ := isHealthy_inv hh hs
  rw [maxBorrowAssets_of_no_price hp, Except.ok.injEq] at hM
  subst hM
  obtain ⟨borrowed', hB', -, hdebt⟩ := healthFactor_inv hf
  obtain ⟨maxBorrow', hM', hfactor⟩ :=
    hdebt (fun hz => hs ((toBorrowAssets_up_eq_zero_iff hB').mp hz))
  rw [maxBorrowAssets_of_no_price hp, Except.ok.injEq] at hM'
  subst hM'
  obtain ⟨value, hV, hvalue⟩ := ltv_inv hl hs
  rw [collateralValue_of_no_price hp, Except.ok.injEq] at hV
  subst hV
  exact ⟨rfl, hfactor, hvalue⟩

/-- Debt at a price: each view is the comparison `debt * 10 ^ 18 ≤ value * lltv`, except the
loan-to-value of worthless collateral, which is the largest word. -/
theorem views_of_price {healthy : Bool} {factor loanToValue : Option UInt256} {price : UInt256}
    (hs : p.borrowShares.toNat ≠ 0) (hp : m.price = some price) (hh : m.isHealthy p = .ok healthy)
    (hf : m.healthFactor p = .ok factor) (hl : m.ltv p = .ok loanToValue) :
    ∃ borrowed v : UInt256, m.collateralValue p.collateral = .ok (some v) ∧
      (healthy = true ↔ borrowed.toNat * wad.toNat ≤ v.toNat * m.params.lltv.toNat) ∧
      ((∃ h, factor = some h ∧ wad ≤ h) ↔
        borrowed.toNat * wad.toNat ≤ v.toNat * m.params.lltv.toNat) ∧
      (v.toNat = 0 → loanToValue = some maxValue ∧ 0 < borrowed.toNat) ∧
      (v.toNat ≠ 0 → ((∃ l, loanToValue = some l ∧ l ≤ m.params.lltv) ↔
        borrowed.toNat * wad.toNat ≤ v.toNat * m.params.lltv.toNat)) := by
  obtain ⟨borrowed, maxBorrow, hB, hM, rfl⟩ := isHealthy_inv hh hs
  have hdebt : borrowed.toNat ≠ 0 := fun hz => hs ((toBorrowAssets_up_eq_zero_iff hB).mp hz)
  obtain ⟨value, hV, hvalue⟩ := ltv_inv hl hs
  obtain ⟨v, rfl⟩ := collateralValue_isSome hp hV
  obtain ⟨mb, rfl, hmb⟩ := maxBorrowAssets_of_value hV hM
  have hlimit : borrowed ≤ mb ↔ borrowed.toNat * wad.toNat ≤ v.toNat * m.params.lltv.toNat :=
    le_mulDivDown_iff (show mulDivDown v m.params.lltv wad = .ok mb from hmb) borrowed.toNat
  refine ⟨borrowed, v, hV, by simpa using hlimit, ?_, fun hz => ⟨hvalue.1 hz, ?_⟩, fun hz => ?_⟩
  · obtain ⟨borrowed', hB', -, hrest⟩ := healthFactor_inv hf
    rw [hB, Except.ok.injEq] at hB'
    subst hB'
    obtain ⟨maxBorrow', hM', hfactor⟩ := hrest hdebt
    rw [hM, Except.ok.injEq] at hM'
    subst hM'
    obtain ⟨h, hq, rfl⟩ := hfactor
    have hwad : wad ≤ h ↔ borrowed ≤ mb := by
      show wad.toNat ≤ h.toNat ↔ _
      rw [le_mulDivDown_iff (show mulDivDown mb wad borrowed = .ok h from hq) wad.toNat,
        Nat.mul_comm mb.toNat]
      exact Nat.mul_le_mul_left_iff (show 0 < wad.toNat by decide)
    rw [← hlimit, ← hwad]
    simp
  · exact Nat.pos_of_ne_zero hdebt
  · obtain ⟨borrowed', l, hB', hq, rfl⟩ := hvalue.2 hz
    rw [hB, Except.ok.injEq] at hB'
    subst hB'
    have hl' := mulDivUp_le_iff (show mulDivUp borrowed wad v = .ok l from hq) m.params.lltv.toNat
    rw [Nat.mul_comm m.params.lltv.toNat] at hl'
    simp only [Option.some.injEq, exists_eq_left']
    exact hl'

end Market

/-- The three health views of a position agree whenever all three succeed, save for debt against
worthless collateral on a market whose `lltv` is the largest word. Without debt a position is
healthy with the largest health factor and a loan-to-value of zero; with debt and no price it is
unhealthy and has neither ratio. -/
theorem health_views_agree (m : Market) (p : Position) {healthy : Bool}
    {factor loanToValue : Option UInt256} (hh : m.isHealthy p = .ok healthy)
    (hf : m.healthFactor p = .ok factor) (hl : m.ltv p = .ok loanToValue) :
    (healthy = true ↔ ∃ h, factor = some h ∧ UInt256.wad ≤ h) ∧
    ((∃ l, loanToValue = some l ∧ l ≤ m.params.lltv) ↔
      healthy = true ∨ (m.params.lltv = UInt256.maxValue ∧ p.borrowShares ≠ 0 ∧
        m.collateralValue p.collateral = .ok (some 0))) ∧
    (p.borrowShares = 0 → healthy = true ∧ factor = some UInt256.maxValue ∧ loanToValue = some 0) ∧
    (p.borrowShares ≠ 0 → m.price = none → healthy = false ∧ factor = none ∧ loanToValue = none) := by
  by_cases hs : p.borrowShares.toNat = 0
  case pos =>
    obtain ⟨rfl, rfl, rfl⟩ := Market.views_of_no_debt hs hh hf hl
    have hzero : p.borrowShares = 0 := UInt256.ext hs
    refine ⟨?_, ?_, fun _ => ⟨rfl, rfl, rfl⟩, fun hne => absurd hzero hne⟩
    · exact ⟨fun _ => ⟨_, rfl, by decide⟩, fun _ => rfl⟩
    · exact ⟨fun _ => .inl rfl, fun _ => ⟨0, rfl, Nat.zero_le _⟩⟩
  case neg =>
    have hne : p.borrowShares ≠ 0 := fun h => hs (by rw [h]; rfl)
    cases hp : m.price with
    | none =>
      obtain ⟨rfl, rfl, rfl⟩ := Market.views_of_no_price hs hp hh hf hl
      refine ⟨by simp, ?_, fun h => absurd h hne, fun _ _ => ⟨rfl, rfl, rfl⟩⟩
      simp [Market.collateralValue_of_no_price hp]
    | some price =>
      obtain ⟨borrowed, v, hV, hhealthy, hfactor, hworthless, hworth⟩ :=
        Market.views_of_price hs hp hh hf hl
      refine ⟨hhealthy.trans hfactor.symm, ?_, fun h => absurd h hne, fun _ h => nomatch h⟩
      by_cases hv : v.toNat = 0
      case pos =>
        obtain ⟨rfl, hdebt⟩ := hworthless hv
        have hunhealthy : healthy ≠ true := by
          intro h
          have hcross := hhealthy.mp h
          rw [hv, Nat.zero_mul] at hcross
          exact Nat.ne_of_gt (Nat.mul_pos hdebt (by decide)) (Nat.le_zero.mp hcross)
        have hv0 : v = 0 := UInt256.ext hv
        subst hv0
        constructor
        · rintro ⟨l, hl, hle⟩
          cases hl
          exact .inr ⟨UInt256.ext (Nat.le_antisymm (Nat.le_pred_of_lt m.params.lltv.isLt) hle), hne, hV⟩
        · rintro (h | ⟨hmax, -, -⟩)
          · exact absurd h hunhealthy
          · exact ⟨_, rfl, by rw [hmax]; exact Nat.le_refl _⟩
      case neg =>
        rw [hworth hv, ← hhealthy]
        refine ⟨.inl, ?_⟩
        rintro (h | ⟨-, -, hzero⟩)
        · exact h
        · rw [hV] at hzero
          cases hzero
          exact absurd rfl hv

/-- A market lending at an `lltv` of 86% with collateral priced at one, and a position with one
asset of debt against a thousand of collateral: healthy, with a health factor of 860 and a
loan-to-value of 0.1%. -/
theorem health_views_agree_priced :
    let m : Market :=
      { Market.new ⟨⟨0xa0, by decide⟩, ⟨0xa1, by decide⟩, ⟨0xa2, by decide⟩, ⟨0xa3, by decide⟩,
          860000000000000000⟩ 0 with
        totalSupplyAssets := 1000, totalSupplyShares := 1000000000, totalBorrowAssets := 1000,
        totalBorrowShares := 1000000000, price := some UInt256.oraclePriceScale }
    let p : Position :=
      { Position.empty Address.zero default with borrowShares := 1000000, collateral := 1000 }
    m.isHealthy p = .ok true ∧ m.healthFactor p = .ok (some 860000000000000000000) ∧
      m.ltv p = .ok (some 1000000000000000) ∧
      ∃ h, some (860000000000000000000 : UInt256) = some h ∧ UInt256.wad ≤ h :=
  have hh := rfl
  have hf := rfl
  have hl := rfl
  ⟨hh, hf, hl, (health_views_agree _ _ hh hf hl).1.mp rfl⟩

/-- A market whose collateral is priced at zero and whose `lltv` is the largest word, with a
thousand assets lent against a billion shares. -/
def worthlessCollateralMarket : Market :=
  { Market.new ⟨⟨0xe0, by decide⟩, ⟨0xe1, by decide⟩, ⟨0xe2, by decide⟩, ⟨0xe3, by decide⟩,
      UInt256.maxValue⟩ 0 with
    totalSupplyAssets := 1000, totalSupplyShares := 1000000000, totalBorrowAssets := 1000,
    totalBorrowShares := 1000000000, price := some 0 }

/-- A million borrow shares, one asset of debt, against a thousand units of collateral. -/
def indebtedPosition : Position :=
  { Position.empty Address.zero default with borrowShares := 1000000, collateral := 1000 }

/-- The exception of `health_views_agree`: at the largest `lltv`, a position with debt and
collateral worth nothing is unhealthy with a health factor of zero, yet its loan-to-value, the
largest word, is within the `lltv`. -/
theorem worthless_collateral_within_largest_lltv :
    worthlessCollateralMarket.isHealthy indebtedPosition = .ok false ∧
      worthlessCollateralMarket.healthFactor indebtedPosition = .ok (some 0) ∧
      worthlessCollateralMarket.ltv indebtedPosition = .ok (some UInt256.maxValue) ∧
      UInt256.maxValue ≤ worthlessCollateralMarket.params.lltv :=
  ⟨rfl, rfl, rfl, Nat.le_refl _⟩

end LendingSim
