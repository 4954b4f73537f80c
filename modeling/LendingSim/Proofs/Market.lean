import LendingSim.Market.Update
import LendingSim.Proofs.Shares

/-!
# What market operations do

A market operation runs on one market and may fail. This module inverts each successful one:
accrual (`accrue_inv`) and the four flows (`supply_inv`, `withdraw_inv`, `borrow_inv`,
`repay_inv`). Each inversion gives the updated market as the old one with its totals replaced,
says by how much each total moved, and, for a flow, that the side converted from the other was
rounded in the pool's favour. Later proofs about states never look inside a market operation
again.
-/

namespace LendingSim

theorem Except.mapError_eq_ok {ε ε' α : Type} {x : Except ε α} {f : ε → ε'} {a : α} :
    x.mapError f = .ok a ↔ x = .ok a := by
  cases x with
  | error e => exact ⟨fun h => (nomatch h), fun h => (nomatch h)⟩
  | ok v => exact ⟨fun h => by cases h; rfl, fun h => by cases h; rfl⟩

namespace MarketOp

variable {α β : Type}

theorem run_bind (x : MarketOp α) (f : α → MarketOp β) (m : Market) :
    (x >>= f).run m = match x.run m with
      | (.ok a, m₁) => (f a).run m₁
      | (.error e, m₁) => (.error e, m₁) := by
  show StateT.bind x (ExceptT.bindCont f) m = _
  show (match x m with | (a, s) => ExceptT.bindCont f a s) = _
  show _ = match x m with | (.ok a, m₁) => (f a).run m₁ | (.error e, m₁) => (.error e, m₁)
  rcases x m with ⟨r, m₁⟩
  cases r <;> rfl

/-- A successful run of `x >>= f` is a successful run of `x` followed by one of `f`. -/
theorem run_bind_inv {x : MarketOp α} {f : α → MarketOp β} {m m' : Market} {b : β}
    (h : (x >>= f).run m = (.ok b, m')) :
    ∃ a m₁, x.run m = (.ok a, m₁) ∧ (f a).run m₁ = (.ok b, m') := by
  rw [run_bind] at h
  rcases hx : x.run m with ⟨r, m₁⟩
  rw [hx] at h
  cases r with
  | error e => cases h
  | ok a => exact ⟨a, m₁, rfl, h⟩

@[simp]
theorem get_bind (f : Market → MarketOp β) (m : Market) :
    ((get : MarketOp Market) >>= f).run m = (f m).run m := rfl

@[simp]
theorem set_bind (m₁ : Market) (f : PUnit → MarketOp β) (m : Market) :
    ((set m₁ : MarketOp PUnit) >>= f).run m = (f ⟨⟩).run m₁ := rfl

@[simp]
theorem modify_bind (g : Market → Market) (f : PUnit → MarketOp β) (m : Market) :
    ((modify g : MarketOp PUnit) >>= f).run m = (f ⟨⟩).run (g m) := rfl

@[simp]
theorem run_pure (a : α) (m : Market) : (pure a : MarketOp α).run m = (.ok a, m) := rfl

@[simp]
theorem run_throw (e : MarketError) (m : Market) : (throw e : MarketOp α).run m = (.error e, m) :=
  rfl

@[simp]
theorem run_lift (x : Except MarketError α) (m : Market) : (lift x).run m = (x, m) := by
  cases x <;> rfl

@[simp]
theorem run_arith (x : Except ArithError α) (m : Market) :
    (arith x).run m = (liftArith x, m) := by
  cases x <;> rfl

theorem lift_bind_inv {x : Except MarketError α} {f : α → MarketOp β} {m m' : Market} {b : β}
    (h : (lift x >>= f).run m = (.ok b, m')) : ∃ a, x = .ok a ∧ (f a).run m = (.ok b, m') := by
  obtain ⟨a, m₁, hx, hf⟩ := run_bind_inv h
  rw [run_lift] at hx
  cases hx
  exact ⟨a, rfl, hf⟩

theorem arith_bind_inv {x : Except ArithError α} {f : α → MarketOp β} {m m' : Market} {b : β}
    (h : (arith x >>= f).run m = (.ok b, m')) : ∃ a, x = .ok a ∧ (f a).run m = (.ok b, m') := by
  obtain ⟨a, m₁, hx, hf⟩ := run_bind_inv h
  rw [run_arith] at hx
  cases x with
  | error e => cases hx
  | ok v =>
    cases hx
    exact ⟨_, rfl, hf⟩

theorem apply_eq_ok {op : MarketOp α} {m m' : Market} {a : α} :
    op.apply m = .ok (a, m') ↔ op.run m = (.ok a, m') := by
  unfold apply
  rcases op.run m with ⟨r, m₁⟩
  cases r <;> simp

end MarketOp

namespace Market

open MarketOp Shares

/-- A request resolves to the amount given and the other side converted from it. -/
theorem resolve_inv {assets shares : UInt256}
    {toShares toAssets : UInt256 → Except ArithError UInt256} {flow : Flow}
    (h : resolve assets shares toShares toAssets = .ok flow) :
    (flow.assets = assets ∧ toShares assets = .ok flow.shares) ∨
      (flow.shares = shares ∧ toAssets shares = .ok flow.assets) := by
  unfold resolve at h
  split at h
  · left
    cases hs : toShares assets with
    | error e =>
      rw [hs] at h
      cases h
    | ok v =>
      rw [hs] at h
      cases h
      exact ⟨rfl, rfl⟩
  · right
    cases ha : toAssets shares with
    | error e =>
      rw [ha] at h
      cases h
    | ok v =>
      rw [ha] at h
      cases h
      exact ⟨rfl, rfl⟩
  · cases h

variable {assets shares totalAssets totalShares virtualShares : UInt256} {flow : Flow}

/-- A flow priced with shares rounded down and assets up never gives more shares than the
assets are worth. -/
theorem resolve_shares_down_mul_le
    (h : resolve assets shares (toShares · totalAssets totalShares virtualShares .down)
      (toAssets · totalAssets totalShares virtualShares .up) = .ok flow) :
    flow.shares.toNat * (totalAssets.toNat + 1) ≤
      flow.assets.toNat * (totalShares.toNat + virtualShares.toNat) := by
  rcases resolve_inv h with ⟨hassets, hshares⟩ | ⟨hshares, hassets⟩
  · rw [← hassets] at hshares
    exact toShares_down_mul_le hshares
  · rw [← hshares] at hassets
    exact le_toAssets_up_mul hassets

/-- A flow priced with shares rounded up and assets down never pays out more assets than the
shares are worth. -/
theorem resolve_assets_down_mul_le
    (h : resolve assets shares (toShares · totalAssets totalShares virtualShares .up)
      (toAssets · totalAssets totalShares virtualShares .down) = .ok flow) :
    flow.assets.toNat * (totalShares.toNat + virtualShares.toNat) ≤
      flow.shares.toNat * (totalAssets.toNat + 1) := by
  rcases resolve_inv h with ⟨hassets, hshares⟩ | ⟨hshares, hassets⟩
  · rw [← hassets] at hshares
    exact le_toShares_up_mul hshares
  · rw [← hshares] at hassets
    exact toAssets_down_mul_le hassets

/-- What an accrual leaves: the same parameters, fee and price; both asset totals grown by the
interest and the borrow shares unchanged; the supply shares grown by the fee shares, which are
the fee part of the interest priced at the rate after the interest less that fee, rounded down. -/
structure Accrued (m : Market) (accrual : Accrual) (m' : Market) : Prop where
  params : m'.params = m.params
  fee : m'.fee = m.fee
  price : m'.price = m.price
  totalBorrowShares : m'.totalBorrowShares = m.totalBorrowShares
  totalBorrowAssets :
    m'.totalBorrowAssets.toNat = m.totalBorrowAssets.toNat + accrual.interest.toNat
  totalSupplyAssets :
    m'.totalSupplyAssets.toNat = m.totalSupplyAssets.toNat + accrual.interest.toNat
  totalSupplyShares :
    m'.totalSupplyShares.toNat = m.totalSupplyShares.toNat + accrual.feeShares.toNat
  feeShares : accrual.feeShares = 0 ∨
    ∃ feeAmount assetsBeforeFee : UInt256,
      UInt256.wadMul accrual.interest m.fee .down = .ok feeAmount ∧
      assetsBeforeFee.toNat = m'.totalSupplyAssets.toNat - feeAmount.toNat ∧
      toShares feeAmount assetsBeforeFee m.totalSupplyShares marketVirtualShares .down =
        .ok accrual.feeShares

/-- An accrual that adds nothing: the clock alone may move. -/
private theorem accrued_of_clock (m : Market) (t : Nat) :
    Accrued m ⟨0, 0⟩ { m with lastUpdate := t } :=
  ⟨rfl, rfl, rfl, rfl, rfl, rfl, rfl, .inl rfl⟩

theorem accrue_inv {t : Nat} {m m' : Market} {accrual : Accrual}
    (h : (accrue t).apply m = .ok (accrual, m')) : Accrued m accrual m' := by
  rw [apply_eq_ok] at h
  unfold accrue at h
  simp only [get_bind] at h
  split at h
  · simp at h
  split at h
  · simp only [run_pure, Prod.mk.injEq, Except.ok.injEq] at h
    obtain ⟨rfl, rfl⟩ := h
    exact accrued_of_clock m m.lastUpdate
  split at h
  · simp only [set_bind, run_pure, Prod.mk.injEq, Except.ok.injEq] at h
    obtain ⟨rfl, rfl⟩ := h
    exact accrued_of_clock m t
  obtain ⟨utilization, -, h⟩ := arith_bind_inv h
  obtain ⟨growth, -, h⟩ := arith_bind_inv h
  obtain ⟨interest, -, h⟩ := arith_bind_inv h
  obtain ⟨tba, htba, h⟩ := arith_bind_inv h
  simp only [modify_bind] at h
  obtain ⟨tsa, htsa, h⟩ := arith_bind_inv h
  simp only [modify_bind] at h
  have htba' := UInt256.checkedAdd_toNat htba
  have htsa' := UInt256.checkedAdd_toNat htsa
  split at h
  · simp only [pure_bind, modify_bind, run_pure, Prod.mk.injEq, Except.ok.injEq] at h
    obtain ⟨rfl, rfl⟩ := h
    exact ⟨rfl, rfl, rfl, rfl, htba', htsa', rfl, .inl rfl⟩
  · obtain ⟨feeAmount, hfee, h⟩ := arith_bind_inv h
    obtain ⟨assetsBeforeFee, hbefore, h⟩ := arith_bind_inv h
    obtain ⟨feeShares, hshares, h⟩ := arith_bind_inv h
    obtain ⟨tss, htss, h⟩ := arith_bind_inv h
    simp only [modify_bind, pure_bind, run_pure, Prod.mk.injEq, Except.ok.injEq] at h
    obtain ⟨rfl, rfl⟩ := h
    exact ⟨rfl, rfl, rfl, rfl, htba', htsa', UInt256.checkedAdd_toNat htss,
      .inr ⟨feeAmount, assetsBeforeFee, hfee, (UInt256.checkedSub_toNat hbefore).1, hshares⟩⟩

/-! Each flow is priced before the totals move, and its rounding is read off right there: the
totals the price was taken at are the market's own. -/

theorem supply_inv {assets shares : UInt256} {m m' : Market} {flow : Flow}
    (h : (supply assets shares).apply m = .ok (flow, m')) :
    ∃ tsa tss : UInt256, m' = { m with totalSupplyAssets := tsa, totalSupplyShares := tss } ∧
      tsa.toNat = m.totalSupplyAssets.toNat + flow.assets.toNat ∧
      tss.toNat = m.totalSupplyShares.toNat + flow.shares.toNat ∧
      flow.shares.toNat * (m.totalSupplyAssets.toNat + 1) ≤
        flow.assets.toNat * (m.totalSupplyShares.toNat + marketVirtualShares.toNat) := by
  rw [apply_eq_ok] at h
  unfold supply at h
  rw [get_bind] at h
  obtain ⟨flow', hflow, h⟩ := lift_bind_inv h
  have hround := resolve_shares_down_mul_le hflow
  obtain ⟨tsa, htsa, h⟩ := arith_bind_inv h
  simp only [modify_bind] at h
  obtain ⟨tss, htss, h⟩ := arith_bind_inv h
  simp only [modify_bind, run_pure, Prod.mk.injEq, Except.ok.injEq] at h
  obtain ⟨rfl, rfl⟩ := h
  exact ⟨tsa, tss, rfl, UInt256.checkedAdd_toNat htsa, UInt256.checkedAdd_toNat htss, hround⟩

theorem withdraw_inv {assets shares : UInt256} {m m' : Market} {flow : Flow}
    (h : (withdraw assets shares).apply m = .ok (flow, m')) :
    ∃ tsa tss : UInt256, m' = { m with totalSupplyAssets := tsa, totalSupplyShares := tss } ∧
      tsa.toNat = m.totalSupplyAssets.toNat - flow.assets.toNat ∧
      flow.assets.toNat ≤ m.totalSupplyAssets.toNat ∧
      tss.toNat = m.totalSupplyShares.toNat - flow.shares.toNat ∧
      flow.shares.toNat ≤ m.totalSupplyShares.toNat ∧
      flow.assets.toNat * (m.totalSupplyShares.toNat + marketVirtualShares.toNat) ≤
        flow.shares.toNat * (m.totalSupplyAssets.toNat + 1) := by
  rw [apply_eq_ok] at h
  unfold withdraw at h
  rw [get_bind] at h
  obtain ⟨flow', hflow, h⟩ := lift_bind_inv h
  have hround := resolve_assets_down_mul_le hflow
  obtain ⟨tss, htss, h⟩ := lift_bind_inv h
  simp only [modify_bind] at h
  obtain ⟨tsa, htsa, h⟩ := lift_bind_inv h
  simp only [modify_bind, run_pure, Prod.mk.injEq, Except.ok.injEq] at h
  obtain ⟨rfl, rfl⟩ := h
  obtain ⟨hsa, hle_a⟩ := UInt256.checkedSub_toNat (Except.mapError_eq_ok.mp htsa)
  obtain ⟨hss, hle_s⟩ := UInt256.checkedSub_toNat (Except.mapError_eq_ok.mp htss)
  exact ⟨tsa, tss, rfl, hsa, hle_a, hss, hle_s, hround⟩

theorem borrow_inv {assets shares : UInt256} {m m' : Market} {flow : Flow}
    (h : (borrow assets shares).apply m = .ok (flow, m')) :
    ∃ tba tbs : UInt256, m' = { m with totalBorrowAssets := tba, totalBorrowShares := tbs } ∧
      tba.toNat = m.totalBorrowAssets.toNat + flow.assets.toNat ∧
      tbs.toNat = m.totalBorrowShares.toNat + flow.shares.toNat ∧
      flow.assets.toNat * (m.totalBorrowShares.toNat + marketVirtualShares.toNat) ≤
        flow.shares.toNat * (m.totalBorrowAssets.toNat + 1) := by
  rw [apply_eq_ok] at h
  unfold borrow at h
  rw [get_bind] at h
  obtain ⟨flow', hflow, h⟩ := lift_bind_inv h
  have hround := resolve_assets_down_mul_le hflow
  obtain ⟨tba, htba, h⟩ := arith_bind_inv h
  simp only [modify_bind] at h
  obtain ⟨tbs, htbs, h⟩ := arith_bind_inv h
  simp only [modify_bind, run_pure, Prod.mk.injEq, Except.ok.injEq] at h
  obtain ⟨rfl, rfl⟩ := h
  exact ⟨tba, tbs, rfl, UInt256.checkedAdd_toNat htba, UInt256.checkedAdd_toNat htbs, hround⟩

theorem repay_inv {assets shares : UInt256} {m m' : Market} {flow : Flow}
    (h : (repay assets shares).apply m = .ok (flow, m')) :
    ∃ tbs : UInt256,
      m' = { m with totalBorrowShares := tbs,
                    totalBorrowAssets := m.totalBorrowAssets.zeroFloorSub flow.assets } ∧
      tbs.toNat = m.totalBorrowShares.toNat - flow.shares.toNat ∧
      flow.shares.toNat ≤ m.totalBorrowShares.toNat ∧
      flow.shares.toNat * (m.totalBorrowAssets.toNat + 1) ≤
        flow.assets.toNat * (m.totalBorrowShares.toNat + marketVirtualShares.toNat) := by
  rw [apply_eq_ok] at h
  unfold repay at h
  rw [get_bind] at h
  obtain ⟨flow', hflow, h⟩ := lift_bind_inv h
  have hround := resolve_shares_down_mul_le hflow
  obtain ⟨tbs, htbs, h⟩ := arith_bind_inv h
  simp only [modify_bind, run_pure, Prod.mk.injEq, Except.ok.injEq] at h
  obtain ⟨rfl, rfl⟩ := h
  obtain ⟨hbs, hle⟩ := UInt256.checkedSub_toNat htbs
  exact ⟨tbs, rfl, hbs, hle, hround⟩

end Market

end LendingSim
