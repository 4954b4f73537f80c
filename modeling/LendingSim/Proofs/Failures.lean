import LendingSim.Proofs.Reallocation

/-!
# What the vault's own supplies and withdrawals can fail with

A run of the simulator either ends in a result and a state or fails with a fault. `Sim.wp x Q E s`
says both at once: from `s`, the run of `x` ends in a result and state satisfying `Q`, or fails
with a fault satisfying `E`. Its rules (`wp_bind`, `wp_read`, `wp_arith`, `wp_mono`) walk a `do`
block step by step, so a loop is proved by induction on what it walks with one postcondition for
successes and one for failures.

The main results say when the vault's own market operations can fail: a supply of a non-zero
amount to a market accrued to the block's time, out of an idle balance that covers it, to a core
contract that may receive the asset, fails only by overflow (`supply_error_overflow`); so does a
withdrawal no larger than the vault's supply and the market's liquidity, with the vault holding
no more shares than the market has issued (`withdraw_error_overflow`). Each is built from the
failures of its parts: conversions between assets and shares divide by a positive side and can
only overflow, the market's supply and withdrawal fail only where a total would overflow or
underflow, and a movement by the core contract fails only by overflowing the receiver.
-/

namespace LendingSim.Sim

variable {α β : Type} {x : Sim α} {Q Q' : α → State → Prop} {E E' : Fault → Prop} {s : State}

/-- The run of `x` from `s` ends with a result and a state satisfying `Q`, or fails with a fault
satisfying `E`: the weakest precondition of `x` for that postcondition. -/
def wp (x : Sim α) (Q : α → State → Prop) (E : Fault → Prop) (s : State) : Prop :=
  match x s with
  | .ok p => Q p.1 p.2
  | .error e => E e

theorem wp_iff : wp x Q E s ↔ (∀ a s', x s = .ok (a, s') → Q a s') ∧ ∀ e, x s = .error e → E e := by
  unfold wp
  cases x s with
  | ok p =>
    refine ⟨fun h => ⟨fun a s' hp => ?_, fun e he => (by cases he)⟩, fun h => h.1 p.1 p.2 rfl⟩
    cases hp
    exact h
  | error e =>
    refine ⟨fun h => ⟨fun a s' hp => (by cases hp), fun e' he => ?_⟩, fun h => h.2 e rfl⟩
    cases he
    exact h

theorem wp_of_eq_ok {a : α} {s' : State} (h : x s = .ok (a, s')) : wp x Q E s ↔ Q a s' := by
  unfold wp
  rw [h]

theorem wp_bind {f : α → Sim β} {Q : β → State → Prop} :
    wp (x >>= f) Q E s ↔ wp x (fun a s₁ => wp (f a) Q E s₁) E s := by
  unfold wp
  rw [bind_apply]
  cases x s <;> rfl

@[simp]
theorem wp_pure {a : α} : wp (pure a) Q E s ↔ Q a s := Iff.rfl

@[simp]
theorem wp_throw {e : Fault} : wp (throw e : Sim α) Q E s ↔ E e := Iff.rfl

theorem wp_read {f : State → Sim β} {Q : β → State → Prop} :
    wp ((get : Sim State) >>= f) Q E s ↔ wp (f s) Q E s := Iff.rfl

theorem wp_modify {g : State → State} {f : PUnit → Sim β} {Q : β → State → Prop} :
    wp ((modify g : Sim PUnit) >>= f) Q E s ↔ wp (f ⟨⟩) Q E (g s) := Iff.rfl

theorem wp_discard {f : PUnit → Sim β} {Q : β → State → Prop} :
    wp (discard x >>= f) Q E s ↔ wp x (fun _ s₁ => wp (f ⟨⟩) Q E s₁) E s := by
  rw [wp_bind]
  unfold wp
  cases h : x s with
  | ok p => rw [discard_eq_ok h]
  | error e =>
    have hd : discard x s = .error e := by
      show Functor.mapConst _ x s = _
      simp [Functor.mapConst, StateT.map, h]
    rw [hd]

theorem wp_arith {y : Except ArithError α} :
    wp (arith y) Q E s ↔ (∀ a, y = .ok a → Q a s) ∧ ∀ e, y = .error e → E (.arith e) := by
  cases y with
  | ok a =>
    refine ⟨fun h => ⟨fun a' ha => ?_, fun e he => (by cases he)⟩, fun h => h.1 a rfl⟩
    cases ha
    exact h
  | error e =>
    refine ⟨fun h => ⟨fun a ha => (by cases ha), fun e' he => ?_⟩, fun h => h.2 e rfl⟩
    cases he
    exact h

/-- A failed run of `x >>= f` is a failed run of `x`, or a successful run of `x` followed by a
failed one of `f`. -/
theorem bind_error_inv {f : α → Sim β} {e : Fault} (h : (x >>= f) s = .error e) :
    x s = .error e ∨ ∃ a s₁, x s = .ok (a, s₁) ∧ f a s₁ = .error e := by
  rw [bind_apply] at h
  cases hx : x s with
  | error e' =>
    rw [hx] at h
    cases h
    exact .inl rfl
  | ok p =>
    rw [hx] at h
    exact .inr ⟨p.1, p.2, rfl, h⟩

/-- A run read off by evaluation: it succeeds, with a result and state that pass `check`. -/
theorem exists_eq_ok_of_check (check : α → State → Bool)
    (h : (match x s with | .ok p => check p.1 p.2 | .error _ => false) = true) :
    ∃ a s', x s = .ok (a, s') ∧ check a s' = true := by
  revert h
  cases x s with
  | ok p => exact fun h => ⟨p.1, p.2, rfl, h⟩
  | error e => exact fun h => absurd h Bool.false_ne_true

/-- A run read off by evaluation: it fails in a market, with exactly `e`. -/
theorem eq_market_error_of_check {e : MarketError}
    (h : (match x s with | .error (.market e') => decide (e' = e) | _ => false) = true) :
    x s = .error (.market e) := by
  revert h
  cases x s with
  | ok p => exact fun h => absurd h Bool.false_ne_true
  | error f =>
    cases f with
    | market e' => exact fun h => by rw [of_decide_eq_true h]
    | _ => exact fun h => absurd h Bool.false_ne_true

theorem wp_mono (hQ : ∀ a s, Q a s → Q' a s) (hE : ∀ e, E e → E' e) (h : wp x Q E s) :
    wp x Q' E' s := by
  unfold wp at h ⊢
  revert h
  cases x s with
  | ok p => exact hQ _ _
  | error e => exact hE _

end LendingSim.Sim

namespace LendingSim

/-- A failure of checked arithmetic leaving the range of a word, reported as such or by a
market. -/
def Fault.IsOverflow (e : Fault) : Prop := e = .arith .overflow ∨ e = .market (.arith .overflow)

namespace UInt256

theorem checkedAdd_error {a b : UInt256} {e : ArithError} (h : a.checkedAdd b = .error e) :
    e = .overflow := by
  rw [checkedAdd_eq] at h
  split at h
  · cases h
    rfl
  · cases h

theorem checkedSub_eq_ok {a b : UInt256} (h : b.toNat ≤ a.toNat) :
    a.checkedSub b = .ok (a.zeroFloorSub b) := by
  unfold checkedSub
  rw [if_pos h]
  rfl

/-- A rounded product-quotient by a non-zero divisor fails only by overflow. -/
theorem mulDiv_error {x y d : UInt256} {rounding : Rounding} {e : ArithError}
    (hd : d.toNat ≠ 0) (h : mulDiv x y d rounding = .error e) : e = .overflow := by
  cases rounding
  · rw [mulDiv, mulDivDown_eq, if_neg hd] at h
    split at h
    · cases h
      rfl
    · cases h
  · rw [mulDiv, mulDivUp_eq, if_neg hd] at h
    split at h
    · cases h
      rfl
    · cases h

end UInt256

namespace Shares

open UInt256

variable {x totalAssets totalShares virtualShares : UInt256} {rounding : Rounding} {e : ArithError}

/-- Converting to shares divides by the assets plus the virtual asset, never zero: it fails only
by overflow. -/
theorem toShares_error (h : toShares x totalAssets totalShares virtualShares rounding = .error e) :
    e = .overflow := by
  unfold toShares at h
  cases hs : totalShares.checkedAdd virtualShares with
  | error e' =>
    rw [hs] at h
    cases h
    exact checkedAdd_error hs
  | ok shareSide =>
    rw [hs] at h
    cases ha : totalAssets.checkedAdd virtualAssets with
    | error e' =>
      rw [ha] at h
      cases h
      exact checkedAdd_error ha
    | ok assetSide =>
      rw [ha] at h
      have hside : assetSide.toNat = totalAssets.toNat + 1 := checkedAdd_toNat ha
      exact mulDiv_error (by omega) h

/-- Converting to assets divides by the shares plus the virtual shares: with virtual shares it
fails only by overflow. -/
theorem toAssets_error (hvirtual : virtualShares.toNat ≠ 0)
    (h : toAssets x totalAssets totalShares virtualShares rounding = .error e) : e = .overflow := by
  unfold toAssets at h
  cases ha : totalAssets.checkedAdd virtualAssets with
  | error e' =>
    rw [ha] at h
    cases h
    exact checkedAdd_error ha
  | ok assetSide =>
    rw [ha] at h
    cases hs : totalShares.checkedAdd virtualShares with
    | error e' =>
      rw [hs] at h
      cases h
      exact checkedAdd_error hs
    | ok shareSide =>
      rw [hs] at h
      have hside : shareSide.toNat = totalShares.toNat + virtualShares.toNat := checkedAdd_toNat hs
      exact mulDiv_error (by omega) h

/-- Assets converted to shares rounding up need no more shares than any `k` worth at least the
assets. -/
theorem toShares_up_le {y : UInt256} {k : Nat}
    (h : toShares x totalAssets totalShares virtualShares .up = .ok y)
    (hworth : x.toNat * (totalShares.toNat + virtualShares.toNat) ≤ k * (totalAssets.toNat + 1)) :
    y.toNat ≤ k := by
  obtain ⟨shareSide, assetSide, hs, ha, hq⟩ := toShares_inv h
  rw [mulDiv, mulDivUp_eq] at hq
  split at hq
  · cases hq
  · split at hq
    · cases hq
    · next hfits =>
      cases hq
      rw [toNat_ofNat_of_lt (Nat.lt_of_le_of_lt (Nat.div_le_self _ _) (Nat.lt_of_not_le hfits)),
        hs, ha]
      have hlt : x.toNat * (totalShares.toNat + virtualShares.toNat) + (totalAssets.toNat + 1) - 1 <
          (k + 1) * (totalAssets.toNat + 1) := by
        rw [Nat.add_mul]
        omega
      exact Nat.lt_succ_iff.mp ((Nat.div_lt_iff_lt_mul (by omega)).mpr hlt)

end Shares

end LendingSim

namespace LendingSim

namespace MarketOp

variable {α β : Type}

/-- A failed run of `x >>= f` is a failed run of `x`, or a successful run of `x` followed by a
failed one of `f`. -/
theorem run_bind_error {x : MarketOp α} {f : α → MarketOp β} {m m' : Market} {e : MarketError}
    (h : (x >>= f).run m = (.error e, m')) :
    (∃ m₁, x.run m = (.error e, m₁)) ∨ ∃ a m₁, x.run m = (.ok a, m₁) ∧ (f a).run m₁ = (.error e, m') := by
  rw [run_bind] at h
  rcases hx : x.run m with ⟨r, m₁⟩
  rw [hx] at h
  cases r with
  | error e' =>
    cases h
    exact .inl ⟨_, rfl⟩
  | ok a => exact .inr ⟨a, m₁, rfl, h⟩

theorem run_arith_eq_error {y : Except ArithError α} {m m' : Market} {e : MarketError}
    (h : (arith y).run m = (.error e, m')) : ∃ e', y = .error e' ∧ e = .arith e' ∧ m' = m := by
  rw [run_arith] at h
  cases y with
  | error e' =>
    cases h
    exact ⟨e', rfl, rfl, rfl⟩
  | ok a => cases h

theorem run_arith_eq_ok {y : Except ArithError α} {m m' : Market} {a : α}
    (h : (arith y).run m = (.ok a, m')) : y = .ok a ∧ m' = m := by
  rw [run_arith] at h
  cases y with
  | error e' => cases h
  | ok a' =>
    cases h
    exact ⟨rfl, rfl⟩

theorem apply_eq_error {op : MarketOp α} {m : Market} {e : MarketError} :
    op.apply m = .error e ↔ ∃ m', op.run m = (.error e, m') := by
  unfold apply
  rcases op.run m with ⟨r, m₁⟩
  cases r <;> simp

end MarketOp

namespace Market

open MarketOp

variable {m : Market} {x : UInt256} {e : MarketError}
  {toShares toAssets : UInt256 → Except ArithError UInt256}

/-- A request in assets alone is resolved by converting the assets to shares. -/
theorem resolve_assets_eq (hx : x.toNat ≠ 0) :
    resolve x 0 toShares toAssets = (fun shares => ⟨x, shares⟩) <$> liftArith (toShares x) := by
  have hzero : x.isZero = false := by simpa [UInt256.isZero] using hx
  unfold resolve
  rw [hzero, show (0 : UInt256).isZero = true from rfl]

/-- A supply's flow is the request resolved against the market, shares rounded down and assets
up. -/
theorem supply_resolve {assets shares : UInt256} {m' : Market} {flow : Flow}
    (h : (supply assets shares).apply m = .ok (flow, m')) :
    resolve assets shares (m.toSupplyShares · .down) (m.toSupplyAssets · .up) = .ok flow := by
  rw [MarketOp.apply_eq_ok] at h
  unfold supply at h
  rw [MarketOp.get_bind] at h
  obtain ⟨flow', hflow, h⟩ := MarketOp.lift_bind_inv h
  obtain ⟨tsa, -, h⟩ := MarketOp.arith_bind_inv h
  simp only [MarketOp.modify_bind] at h
  obtain ⟨tss, -, h⟩ := MarketOp.arith_bind_inv h
  simp only [MarketOp.modify_bind, MarketOp.run_pure, Prod.mk.injEq, Except.ok.injEq] at h
  obtain ⟨rfl, -⟩ := h
  exact hflow

/-- Supplying a non-zero amount of assets fails only by overflow. -/
theorem supply_error (hx : x.toNat ≠ 0) (h : (supply x 0).apply m = .error e) :
    e = .arith .overflow := by
  obtain ⟨m', h⟩ := apply_eq_error.mp h
  unfold supply at h
  rw [get_bind] at h
  rcases run_bind_error h with ⟨m₁, h₁⟩ | ⟨flow, m₁, h₁, h₂⟩
  · rw [run_lift, Prod.mk.injEq, resolve_assets_eq hx] at h₁
    cases hs : m.toSupplyShares x .down with
    | error e' =>
      rw [hs] at h₁
      cases h₁.1
      rw [Shares.toShares_error hs]
    | ok shares =>
      rw [hs] at h₁
      cases h₁.1
  · rw [run_lift, Prod.mk.injEq] at h₁
    obtain ⟨-, rfl⟩ := h₁
    rcases run_bind_error h₂ with ⟨m₂, h₃⟩ | ⟨tsa, m₂, h₃, h₄⟩
    · obtain ⟨e', hadd, rfl, -⟩ := run_arith_eq_error h₃
      rw [UInt256.checkedAdd_error hadd]
    · obtain ⟨-, rfl⟩ := run_arith_eq_ok h₃
      rw [modify_bind] at h₄
      rcases run_bind_error h₄ with ⟨m₃, h₅⟩ | ⟨tss, m₃, h₅, h₆⟩
      · obtain ⟨e', hadd, rfl, -⟩ := run_arith_eq_error h₅
        rw [UInt256.checkedAdd_error hadd]
      · rw [modify_bind, run_pure] at h₆
        cases h₆

/-- Supplying at least the largest signed amount fails by overflow: no market prices that many
assets in shares. -/
theorem supply_large_error (hx : Nat.pow 2 255 - 1 ≤ x.toNat) :
    (supply x 0).apply m = .error (.arith .overflow) := by
  have hx₀ : x.toNat ≠ 0 := by
    have : 0 < Nat.pow 2 255 - 1 := by decide
    omega
  cases h : (supply x 0).apply m with
  | error e => rw [supply_error hx₀ h]
  | ok r =>
    obtain ⟨flow, m'⟩ := r
    have hflow := supply_resolve h
    rw [resolve_assets_eq hx₀] at hflow
    cases hs : m.toSupplyShares x .down with
    | error e' =>
      rw [hs] at hflow
      cases hflow
    | ok shares =>
      obtain ⟨shareSide, assetSide, hshare, -, hq⟩ := Shares.toShares_inv hs
      rw [UInt256.mulDiv, UInt256.mulDivDown_eq] at hq
      split at hq
      · cases hq
      · split at hq
        · cases hq
        · next hfits =>
          have hvirtual : Shares.marketVirtualShares.toNat = 1000000 := rfl
          have hbound : x.toNat * 1000000 ≤ x.toNat * shareSide.toNat :=
            Nat.mul_le_mul_left _ (by omega)
          have hsize : UInt256.size ≤ (Nat.pow 2 255 - 1) * 1000000 := by decide
          exact absurd (le_trans hsize (le_trans (Nat.mul_le_mul_right _ hx) hbound)) hfits

/-- Withdrawing a non-zero amount of assets, no more than the market holds and for no more
shares than it has, fails only by overflow. -/
theorem withdraw_error (hx : x.toNat ≠ 0) (hassets : x.toNat ≤ m.totalSupplyAssets.toNat)
    (hshares : ∀ shares, m.toSupplyShares x .up = .ok shares →
      shares.toNat ≤ m.totalSupplyShares.toNat)
    (h : (withdraw x 0).apply m = .error e) : e = .arith .overflow := by
  obtain ⟨m', h⟩ := apply_eq_error.mp h
  unfold withdraw at h
  rw [get_bind] at h
  rcases run_bind_error h with ⟨m₁, h₁⟩ | ⟨flow, m₁, h₁, h₂⟩
  · rw [run_lift, Prod.mk.injEq, resolve_assets_eq hx] at h₁
    cases hs : m.toSupplyShares x .up with
    | error e' =>
      rw [hs] at h₁
      cases h₁.1
      rw [Shares.toShares_error hs]
    | ok shares =>
      rw [hs] at h₁
      cases h₁.1
  · rw [run_lift, Prod.mk.injEq, resolve_assets_eq hx] at h₁
    obtain ⟨hflow, rfl⟩ := h₁
    cases hs : m.toSupplyShares x .up with
    | error e' =>
      rw [hs] at hflow
      cases hflow
    | ok shares =>
      rw [hs] at hflow
      cases hflow
      have htss := UInt256.checkedSub_eq_ok (hshares shares hs)
      have htsa := UInt256.checkedSub_eq_ok hassets
      rw [run_bind, run_lift, htss] at h₂
      dsimp only [Except.mapError] at h₂
      rw [modify_bind, run_bind, run_lift, htsa] at h₂
      dsimp only [Except.mapError] at h₂
      rw [modify_bind, run_pure] at h₂
      cases h₂
end Market

end LendingSim

namespace LendingSim

open Sim Perform

variable {s s' : State}

/-- An arithmetic step whose result fails only by overflow fails only by overflow. -/
theorem arith_error_overflow {α : Type} {y : Except ArithError α} {e : Fault}
    (hy : ∀ e', y = .error e' → e' = .overflow) (h : arith y s = .error e) : e.IsOverflow := by
  rw [arith_apply] at h
  cases hr : y with
  | error e' =>
    rw [hr] at h
    cases h
    rw [hy e' hr]
    exact .inl rfl
  | ok a =>
    rw [hr] at h
    cases h

theorem marketUpdate_error {α : Type} {op : MarketOp α} {m : Market} {e : Fault}
    (h : marketUpdate op m s = .error e) : ∃ e', op.apply m = .error e' ∧ e = .market e' := by
  unfold marketUpdate at h
  rw [lift_apply] at h
  cases hr : op.apply m with
  | error e' =>
    rw [hr] at h
    cases h
    exact ⟨e', rfl, rfl⟩
  | ok r =>
    rw [hr] at h
    cases h

/-- Only the bits of the largest signed word ask for everything. -/
theorem isMaxAmount_ofBits {x : UInt256} (h : isMaxAmount (Int256.ofBits x) = true) :
    x.toNat = Nat.pow 2 255 - 1 := by
  have hmax : Int256.ofBits x = Int256.maxValue := by simpa [isMaxAmount] using h
  have hbits := congrArg Int256.toBits hmax
  rw [Int256.toBits_ofBits] at hbits
  rw [hbits]
  rfl

/-- The core contract pulls from a holder that lets it without an allowance. -/
theorem spendAllowance_morpho {token owner : Address} {amount : UInt256}
    (hfree : s.approvesMorpho owner = true) :
    spendAllowance token owner s.registry.morpho amount s = .ok ((), s) := by
  unfold spendAllowance
  rw [read_bind]
  have hspender : s.registry.spenderOf s.registry.morpho = some .morpho := by
    simp [Registry.spenderOf]
  rw [hspender]
  simp [hfree]

/-- A debit the balance covers takes the amount off it. -/
theorem debit_eq_ok {token user : Address} {amount : UInt256}
    (h : amount.toNat ≤ (s.balanceOf user token).toNat) :
    debit token user amount s =
      .ok ((), s.putHolding { s.holding user token with
        balance := (s.balanceOf user token).zeroFloorSub amount }) := by
  unfold debit State.balanceOf at *
  rw [read_bind, UInt256.checkedSub_eq_ok h]
  rfl

/-- Putting back a holding with a new balance leaves every holding as able to receive as it was. -/
theorem canReceive_putHolding_balance (hs : s.WellFormed) (user token : Address) (b : UInt256)
    (user' token' : Address) :
    ((s.putHolding { s.holding user token with balance := b }).holding user' token').canReceive =
      (s.holding user' token').canReceive := by
  rw [State.holding_putHolding]
  split
  · next heq =>
    obtain ⟨huser, htoken⟩ := hs.holding_user user token
    obtain ⟨rfl, rfl⟩ := Prod.mk.inj heq
    rw [huser, htoken]
    rfl
  · rfl

/-- A movement made by the core contract, from itself or from a holder that lets it pull, out of
a balance that covers it, into a holding that may receive the token, fails only by overflowing
the destination's balance. -/
theorem move_error_overflow (hs : s.WellFormed) {mv : Movement}
    (hsender : mv.sender = s.registry.morpho)
    (hpull : mv.source ≠ mv.sender → s.approvesMorpho mv.source = true)
    (hbalance : mv.amount.toNat ≤ (s.balanceOf mv.source mv.token).toNat)
    (hreceive : (s.holding mv.destination mv.token).canReceive = true) {e : Fault}
    (h : move mv s = .error e) : e.IsOverflow := by
  refine ((wp_iff (Q := fun _ _ => True)).mp ?_).2 e h
  have hcredit : ∀ s₂ : State, (s₂.holding mv.destination mv.token).canReceive = true →
      wp (if (mv.destination != Address.zero) = true then credit mv.token mv.destination mv.amount
        else pure ()) (fun _ _ => True) Fault.IsOverflow s₂ := by
    intro s₂ hreceive₂
    split
    · unfold credit
      rw [wp_read, if_neg (by simp [hreceive₂]), wp_bind, wp_arith]
      refine ⟨fun _ _ => trivial, fun e he => .inl ?_⟩
      rw [UInt256.checkedAdd_error he]
    · trivial
  have hdebited : ((s.putHolding { s.holding mv.source mv.token with
      balance := (s.balanceOf mv.source mv.token).zeroFloorSub mv.amount }).holding mv.destination
        mv.token).canReceive = true := by
    rw [canReceive_putHolding_balance hs]
    exact hreceive
  unfold move
  dsimp only
  split
  · split
    · next hne =>
      have hspend : spendAllowance mv.token mv.source mv.sender mv.amount s = .ok ((), s) := by
        rw [hsender]
        exact spendAllowance_morpho (hpull (fun heq => by simp [heq] at hne))
      rw [wp_bind, wp_of_eq_ok hspend, wp_bind, wp_of_eq_ok (debit_eq_ok hbalance)]
      exact hcredit _ hdebited
    · rw [wp_bind, wp_of_eq_ok (debit_eq_ok hbalance)]
      exact hcredit _ hdebited
  · exact hcredit s hreceive

/-- The amount a request asks for: as named, or for the general adapter asking for everything,
all of what is available, which must not be zero. -/
theorem resolveMax_eq (sender : Address) (value : Int256) (available : UInt256)
    (zero : AdapterError) (s : State) :
    resolveMax sender value available zero s =
      if (isMaxAmount value && isAdapter s sender) = true then
        (if available.isZero = true then .error (.adapter zero) else .ok (available, s))
      else .ok (amountOf value, s) := by
  unfold resolveMax
  rw [read_bind]
  cases (isMaxAmount value && isAdapter s sender)
  · rfl
  · simp only [Bool.not_true, Bool.false_eq_true, ite_false, ite_true]
    split <;> rfl

/-- What the vault supplies on a market accrued to the block's time is read off its position
there, and reading it changes nothing; it fails only by overflow. -/
theorem suppliedAssets_current (hs : s.WellFormed) {vault : Address} {id : MarketId} {m : Market}
    (hm : s.markets.get? id = some m) (hclock : m.lastUpdate = s.block.timestamp)
    (rounding : Rounding) :
    wp (suppliedAssets vault id rounding)
      (fun x s' => s' = s ∧ m.toSupplyAssets (s.position vault id).supplyShares rounding = .ok x)
      Fault.IsOverflow s := by
  unfold suppliedAssets
  rw [wp_bind, wp_of_eq_ok (accrueMarket_current hs hm hclock), wp_read, wp_arith]
  refine ⟨fun x hx => ⟨rfl, hx⟩, fun e he => .inl ?_⟩
  rw [Shares.toAssets_error (by decide) he]

/-- The vault supplying `x` for itself to a market accrued to the block's time, out of an idle
balance that covers it, to a core contract that may receive the market's loan token, fails only
by overflow. -/
theorem supply_error_overflow (hs : s.WellFormed) {vault : Address} {id : MarketId}
    {m : Market} (hm : s.markets.get? id = some m) (hclock : m.lastUpdate = s.block.timestamp)
    {x : UInt256} (hx : x.toNat ≠ 0)
    (hbalance : x.toNat ≤ (s.balanceOf vault m.params.loanToken).toNat)
    (hvault : s.approvesMorpho vault = true)
    (hreceive : (s.holding s.registry.morpho m.params.loanToken).canReceive = true) {e : Fault}
    (h : supply vault (vaultRequest vault id x 0 none) (pure ()) s = .error e) : e.IsOverflow := by
  unfold supply at h
  rw [show (vaultRequest vault id x 0 none).id = id from rfl,
    bind_of_eq_ok (accrueMarket_current hs hm hclock), read_bind] at h
  by_cases hmax : (isMaxAmount (Int256.ofBits x) && isAdapter s vault) = true
  · have hlarge : Nat.pow 2 255 - 1 ≤ (s.balanceOf vault m.params.loanToken).toNat := by
      rw [← isMaxAmount_ofBits (Bool.and_eq_true_iff.mp hmax).1]
      exact hbalance
    have hres : resolveMax vault (Int256.ofBits x) (s.balanceOf vault m.params.loanToken)
        .zeroAmount s = .ok (s.balanceOf vault m.params.loanToken, s) := by
      rw [resolveMax_eq, if_pos hmax, if_neg (by simp [UInt256.isZero]; omega)]
    rw [show (vaultRequest vault id x 0 none).assets = Int256.ofBits x from rfl,
      bind_of_eq_ok hres] at h
    rcases bind_error_inv h with h₁ | ⟨reference, s₁, h₁, h₂⟩
    · exact arith_error_overflow (fun _ he => Shares.toAssets_error (by decide) he) h₁
    · obtain ⟨-, rfl⟩ := arith_inv h₁
      rcases bind_error_inv h₂ with h₃ | ⟨r, s₂, h₃, -⟩
      · obtain ⟨e', hop, rfl⟩ := marketUpdate_error h₃
        rw [show amountOf (vaultRequest vault id x 0 none).shares = 0 from amountOf_ofBits 0,
          Market.supply_large_error hlarge] at hop
        cases hop
        exact .inr rfl
      · obtain ⟨hop, -⟩ := marketUpdate_inv h₃
        rw [show amountOf (vaultRequest vault id x 0 none).shares = 0 from amountOf_ofBits 0,
          Market.supply_large_error hlarge] at hop
        cases hop
  · have hres : resolveMax vault (Int256.ofBits x) (s.balanceOf vault m.params.loanToken)
        .zeroAmount s = .ok (x, s) := by
      rw [resolveMax_eq, if_neg hmax, amountOf_ofBits]
    rw [show (vaultRequest vault id x 0 none).assets = Int256.ofBits x from rfl,
      bind_of_eq_ok hres] at h
    rcases bind_error_inv h with h₁ | ⟨reference, s₁, h₁, h₂⟩
    · exact arith_error_overflow (fun _ he => Shares.toAssets_error (by decide) he) h₁
    · obtain ⟨-, rfl⟩ := arith_inv h₁
      have hshares : amountOf (vaultRequest vault id x 0 none).shares = 0 := amountOf_ofBits 0
      rcases bind_error_inv h₂ with h₃ | ⟨⟨flow, m'⟩, s₂, h₃, h₄⟩
      · obtain ⟨e', hop, rfl⟩ := marketUpdate_error h₃
        rw [hshares] at hop
        exact .inr (by rw [Market.supply_error hx hop])
      · obtain ⟨hop, rfl⟩ := marketUpdate_inv h₃
        rw [hshares] at hop
        have hassets : flow.assets = x := Market.resolve_of_assets hx (Market.supply_resolve hop)
        dsimp only at h₄
        rw [read_bind] at h₄
        rcases bind_error_inv h₄ with h₅ | ⟨supplyShares, s₃, h₅, h₆⟩
        · exact arith_error_overflow (fun _ he => UInt256.checkedAdd_error he) h₅
        · obtain ⟨-, rfl⟩ := arith_inv h₅
          rw [modify_bind, read_bind] at h₆
          rw [if_neg (by simp [vaultRequest])] at h₆
          rw [pure_bind, read_bind] at h₆
          rcases bind_error_inv h₆ with h₇ | ⟨⟨⟩, s₄, -, h₈⟩
          · refine move_error_overflow ?_ ?_ ?_ ?_ ?_ h₇
            · exact (hs.putPosition _).putMarket _
            · rfl
            · exact fun _ => hvault
            · rw [hassets]
              exact hbalance
            · exact hreceive
          · cases h₈

theorem checkAuthorized_self (user : Address) : checkAuthorized user user s = .ok ((), s) := by
  unfold checkAuthorized
  rw [if_pos (by simp)]
  rfl

/-- The vault withdrawing `x` for itself from a market accrued to the block's time, no more than
its shares there are worth, with its shares no more than the market's and `x` within the market's
liquidity, out of a core contract balance that covers it, into a holding that may receive the
loan token, fails only by overflow. -/
theorem withdraw_error_overflow (hs : s.WellFormed) {vault : Address} {id : MarketId}
    {m : Market} (hm : s.markets.get? id = some m) (hclock : m.lastUpdate = s.block.timestamp)
    {x : UInt256} (hx : x.toNat ≠ 0)
    (hworth : x.toNat * (m.totalSupplyShares.toNat + 1000000) ≤
      (s.position vault id).supplyShares.toNat * (m.totalSupplyAssets.toNat + 1))
    (hshares : (s.position vault id).supplyShares.toNat ≤ m.totalSupplyShares.toNat)
    (hliquid : x.toNat + m.totalBorrowAssets.toNat ≤ m.totalSupplyAssets.toNat)
    (hbalance : x.toNat ≤ (s.balanceOf s.registry.morpho m.params.loanToken).toNat)
    (hreceive : (s.holding vault m.params.loanToken).canReceive = true) {e : Fault}
    (h : withdraw vault (vaultRequest vault id x 0 (some vault)) (pure ()) s = .error e) :
    e.IsOverflow := by
  unfold withdraw at h
  rw [show (vaultRequest vault id x 0 (some vault)).onBehalf = vault from rfl,
    bind_of_eq_ok (checkAuthorized_self vault),
    show (vaultRequest vault id x 0 (some vault)).id = id from rfl,
    bind_of_eq_ok (accrueMarket_current hs hm hclock), read_bind] at h
  have hres : resolveMax vault (vaultRequest vault id x 0 (some vault)).shares
      (s.position vault id).supplyShares .zeroShares s = .ok (0, s) := by
    have hnomax : isMaxAmount (vaultRequest vault id x 0 (some vault)).shares = false := rfl
    rw [resolveMax_eq, hnomax, Bool.false_and, if_neg Bool.false_ne_true]
    rfl
  rw [bind_of_eq_ok hres] at h
  rcases bind_error_inv h with h₁ | ⟨reference, s₁, h₁, h₂⟩
  · exact arith_error_overflow (fun _ he => Shares.toAssets_error (by decide) he) h₁
  rw [(arith_inv h₁).2] at h₂
  have hassets : amountOf (vaultRequest vault id x 0 (some vault)).assets = x := amountOf_ofBits x
  have hcovered : ∀ shares, m.toSupplyShares x .up = .ok shares →
      shares.toNat ≤ (s.position vault id).supplyShares.toNat :=
    fun _ hsh => Shares.toShares_up_le hsh hworth
  rcases bind_error_inv h₂ with h₃ | ⟨⟨flow, m'⟩, s₂, h₃, h₄⟩
  · obtain ⟨e', hop, rfl⟩ := marketUpdate_error h₃
    rw [hassets] at hop
    exact .inr (by rw [Market.withdraw_error hx (by omega)
      (fun shares hsh => (hcovered shares hsh).trans hshares) hop])
  obtain ⟨hop, rfl⟩ := marketUpdate_inv h₃
  rw [hassets] at hop
  have hflow := Market.withdraw_resolve hop
  rw [Market.resolve_assets_eq hx] at hflow
  cases hsh : m.toSupplyShares x .up with
  | error e' =>
    rw [hsh] at hflow
    cases hflow
  | ok shares =>
  rw [hsh] at hflow
  cases hflow
  obtain ⟨tsa, tss, rfl, htsa, -, -, -, -⟩ := Market.withdraw_inv hop
  have htsa' : tsa.toNat = m.totalSupplyAssets.toNat - x.toNat := htsa
  dsimp only at h₄
  rw [UInt256.checkedSub_eq_ok (hcovered shares hsh)] at h₄
  dsimp only [Except.mapError] at h₄
  have hliquid' : ({ m with totalSupplyAssets := tsa, totalSupplyShares := tss } :
      Market).hasEnoughLiquidity = true := by
    simp only [Market.hasEnoughLiquidity, decide_eq_true_eq]
    show m.totalBorrowAssets.toNat ≤ tsa.toNat
    omega
  rw [lift_ok_bind, if_neg (by simp [hliquid']), modify_bind,
    read_bind, if_neg (by simp [vaultRequest])] at h₄
  rw [pure_bind, read_bind] at h₄
  rcases bind_error_inv h₄ with h₇ | ⟨⟨⟩, s₄, -, h₈⟩
  · refine move_error_overflow ?_ ?_ ?_ ?_ ?_ h₇
    · exact (hs.putPosition _).putMarket _
    · rfl
    · exact fun hne => absurd rfl hne
    · exact hbalance
    · exact hreceive
  · cases h₈

end LendingSim
