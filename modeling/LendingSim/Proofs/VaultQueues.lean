import LendingSim.Proofs.Failures
import LendingSim.Proofs.Holdings
import LendingSim.Proofs.VaultPrice

/-!
# A vault's deposits and withdrawals along its queues

A deposit into a vault supplies the assets along the supply queue, each market up to its cap;
a withdrawal takes what the vault's idle balance lacks along the withdraw queue, each market up
to the vault's supply there and the market's liquidity. Both walks run the core contract's
supply and withdrawal for the vault itself, one market at a time.

What the vault has on a market is read in assets: `State.supplied` prices its supply shares at
the market's rate, rounded as asked, and `State.headroom` and `State.withdrawable` say what a
deposit may still place on a market and what a withdrawal may take from it. One supply of `x`
raises the vault's supply by at most `x` and a withdrawal of `x` lowers it by at least `x`
(`Market.supplyValue_supply`, `Market.supplyValue_withdraw`): the market rounds in its own
favour, and the vault holds no more shares than the market has issued.

The main results are the two walks. `deposit_placed_within_caps`: a deposit fails only by
overflow or because the queue's headroom is short of the assets, by exactly what it reports;
otherwise it places exactly the assets and leaves every market under its cap or no higher than
it was. `withdrawal_fails_only_for_liquidity`: a withdrawal fails only by overflow or because
the idle balance and what the queue can give fall short of the assets, by exactly what it
reports; otherwise the vault ends with the larger of its idle balance and the assets. Each walk
is an induction on the queue (`supplyToMarkets_wp`, `withdrawFromMarkets_wp`) whose step is one
supply or withdrawal (`vaultSupply_wp`, `vaultWithdraw_wp`) with what it leaves alone
(`StepFrame`).
-/

namespace LendingSim

open Sim Perform

variable {B : Bounds} {s s' : State}

theorem UInt256.toNat_min (a b : UInt256) : (min a b).toNat = min a.toNat b.toNat := by
  show (if a < b then a else b).toNat = _
  split
  · next h =>
    have h' : a.toNat < b.toNat := h
    omega
  · next h =>
    have h' : ¬a.toNat < b.toNat := h
    omega

/-- `a / d` rounded as asked, on naturals. -/
def Rounding.divide : Rounding → Nat → Nat → Nat
  | .down, a, d => a / d
  | .up, a, d => (a + d - 1) / d

namespace Rounding

variable {a a' d d' k : Nat}

/-- Adding a whole number of divisors adds as many to the rounded quotient. -/
theorem divide_add_mul (rounding : Rounding) (hd : 0 < d) :
    rounding.divide (a + k * d) d = rounding.divide a d + k := by
  cases rounding
  · exact Nat.add_mul_div_right a k hd
  · show (a + k * d + d - 1) / d = (a + d - 1) / d + k
    rw [show a + k * d + d - 1 = a + d - 1 + k * d by omega]
    exact Nat.add_mul_div_right _ k hd

/-- The rounded quotient grows with the exact one: `a' / d' ≤ a / d` gives the same between
the rounded quotients. -/
theorem divide_mono (rounding : Rounding) (hd : 0 < d) (hd' : 0 < d') (h : a' * d ≤ a * d') :
    rounding.divide a' d' ≤ rounding.divide a d := by
  cases rounding
  · show a' / d' ≤ a / d
    rw [Nat.le_div_iff_mul_le hd]
    have hq : a' / d' * d' ≤ a' := Nat.div_mul_le_self a' d'
    have : a' / d' * d * d' ≤ a * d' :=
      calc a' / d' * d * d' = a' / d' * d' * d := by ring
        _ ≤ a' * d := Nat.mul_le_mul_right d hq
        _ ≤ a * d' := h
    exact Nat.le_of_mul_le_mul_right this hd'
  · show (a' + d' - 1) / d' ≤ (a + d - 1) / d
    have hc : a ≤ (a + d - 1) / d * d := by
      have hsplit := Nat.div_add_mod (a + d - 1) d
      have hmod := Nat.mod_lt (a + d - 1) hd
      rw [Nat.mul_comm]
      omega
    have hc' : a' * d ≤ (a + d - 1) / d * d' * d :=
      calc a' * d ≤ a * d' := h
        _ ≤ (a + d - 1) / d * d * d' := Nat.mul_le_mul_right d' hc
        _ = (a + d - 1) / d * d' * d := by ring
    have ha' : a' ≤ (a + d - 1) / d * d' := Nat.le_of_mul_le_mul_right hc' hd
    have hlt : a' + d' - 1 < ((a + d - 1) / d + 1) * d' := by
      rw [Nat.add_mul]
      omega
    exact Nat.lt_succ_iff.mp ((Nat.div_lt_iff_lt_mul hd').mpr hlt)

end Rounding

theorem UInt256.mulDiv_toNat {x y d q : UInt256} {rounding : Rounding}
    (h : mulDiv x y d rounding = .ok q) :
    q.toNat = rounding.divide (x.toNat * y.toNat) d.toNat := by
  cases rounding
  · rw [mulDiv, mulDivDown_eq] at h
    split at h
    · cases h
    · split at h
      · cases h
      · next hfits =>
        cases h
        exact toNat_ofNat_of_lt (Nat.lt_of_le_of_lt (Nat.div_le_self _ _) (Nat.lt_of_not_le hfits))
  · rw [mulDiv, mulDivUp_eq] at h
    split at h
    · cases h
    · split at h
      · cases h
      · next hfits =>
        cases h
        exact toNat_ofNat_of_lt (Nat.lt_of_le_of_lt (Nat.div_le_self _ _) (Nat.lt_of_not_le hfits))

namespace Market

/-- What `shares` of the market's supply are worth, rounded as asked, at the rate of its supply
side with the virtual shares and asset. -/
def supplyValue (m : Market) (shares : Nat) (rounding : Rounding) : Nat :=
  rounding.divide (shares * (m.totalSupplyAssets.toNat + 1)) (m.totalSupplyShares.toNat + 1000000)

theorem toSupplyAssets_toNat {m : Market} {shares assets : UInt256} {rounding : Rounding}
    (h : m.toSupplyAssets shares rounding = .ok assets) :
    assets.toNat = m.supplyValue shares.toNat rounding := by
  obtain ⟨assetSide, shareSide, ha, hs, hq⟩ := Shares.toAssets_inv h
  rw [UInt256.mulDiv_toNat hq, ha, hs]
  rfl

variable {m m' : Market} {shares delta x : Nat}

/-- Supplying `x` for `delta` shares, rounded down, raises the value of a holder's shares, with
the new ones, by at most `x`: the pool's rounding is in its own favour and the holder holds no
more than the pool's shares. -/
theorem supplyValue_supply (rounding : Rounding) (hheld : shares ≤ m.totalSupplyShares.toNat)
    (hround : delta * (m.totalSupplyAssets.toNat + 1) ≤ x * (m.totalSupplyShares.toNat + 1000000))
    (htsa : m'.totalSupplyAssets.toNat = m.totalSupplyAssets.toNat + x)
    (htss : m'.totalSupplyShares.toNat = m.totalSupplyShares.toNat + delta) :
    m'.supplyValue (shares + delta) rounding ≤ m.supplyValue shares rounding + x := by
  unfold supplyValue
  rw [htsa, htss, ← Rounding.divide_add_mul rounding (by omega)]
  apply Rounding.divide_mono rounding (by omega) (by omega)
  obtain ⟨gapShares, hgapShares⟩ : ∃ g, m.totalSupplyShares.toNat + 1000000 = shares + g :=
    ⟨_, (Nat.add_sub_of_le (by omega)).symm⟩
  obtain ⟨gapPrice, hgapPrice⟩ : ∃ g, x * (m.totalSupplyShares.toNat + 1000000) =
      delta * (m.totalSupplyAssets.toNat + 1) + g := ⟨_, (Nat.add_sub_of_le hround).symm⟩
  nlinarith [Nat.zero_le (gapShares * gapPrice)]

/-- Withdrawing `x` for `delta` shares, rounded up, lowers the value of a holder's shares, less
those, by at least `x`, when `x` is no more than the shares are worth. -/
theorem supplyValue_withdraw (rounding : Rounding) (hheld : shares ≤ m.totalSupplyShares.toNat)
    (hworth : x * (m.totalSupplyShares.toNat + 1000000) ≤ shares * (m.totalSupplyAssets.toNat + 1))
    (hround : x * (m.totalSupplyShares.toNat + 1000000) ≤ delta * (m.totalSupplyAssets.toNat + 1))
    (htaken : delta ≤ shares)
    (htsa : m'.totalSupplyAssets.toNat + x = m.totalSupplyAssets.toNat)
    (htss : m'.totalSupplyShares.toNat + delta = m.totalSupplyShares.toNat) :
    m'.supplyValue (shares - delta) rounding + x ≤ m.supplyValue shares rounding := by
  unfold supplyValue
  obtain ⟨worth, hworth'⟩ : ∃ w, shares * (m.totalSupplyAssets.toNat + 1) =
      w + x * (m.totalSupplyShares.toNat + 1000000) := ⟨_, (Nat.sub_add_cancel hworth).symm⟩
  rw [hworth', Rounding.divide_add_mul rounding (by omega)]
  apply Nat.add_le_add_right
  apply Rounding.divide_mono rounding (by omega) (by omega)
  obtain ⟨kept, rfl⟩ : ∃ k, shares = delta + k := ⟨_, (Nat.add_sub_of_le htaken).symm⟩
  rw [Nat.add_sub_cancel_left]
  rw [← htsa, ← htss] at hworth' hround
  rw [← htss]
  rw [← htss] at hheld
  generalize m'.totalSupplyShares.toNat = tss at *
  generalize m'.totalSupplyAssets.toNat = tsa at *
  obtain ⟨gapShares, hgapShares⟩ : ∃ g, tss + 1000000 = kept + g := ⟨_, (Nat.add_sub_of_le (by omega)).symm⟩
  obtain ⟨gapPrice, hgapPrice⟩ : ∃ g, delta * (tsa + 1) = x * (tss + 1000000) + g :=
    ⟨_, (Nat.add_sub_of_le (by nlinarith)).symm⟩
  have key : (worth : ℤ) * (tss + 1000000) =
      kept * (tsa + 1) * (tss + delta + 1000000) + gapShares * gapPrice := by
    have e₁ : ((delta : ℤ) + kept) * (tsa + 1 + x) = worth + x * (tss + delta + 1000000) := by
      have := congrArg (fun n : Nat => (n : ℤ)) hworth'
      push_cast at this
      linarith
    have e₂ : (tss : ℤ) + 1000000 = kept + gapShares := by exact_mod_cast hgapShares
    have e₃ : (delta : ℤ) * (tsa + 1) = x * (tss + 1000000) + gapPrice := by exact_mod_cast hgapPrice
    linear_combination (-((tss : ℤ) + 1000000)) * e₁ + (gapPrice : ℤ) * e₂ +
      ((tss : ℤ) + 1000000 - kept) * e₃
  have hgap : (0 : ℤ) ≤ gapShares * gapPrice := by positivity
  have : (kept : ℤ) * (tsa + 1) * (tss + delta + 1000000) ≤ worth * (tss + 1000000) := by linarith
  exact_mod_cast this

end Market


/-- The vault's own supply of `x ≠ 0` to a market accrued to the block's time, when it succeeds:
the flow's assets are `x` or, for the general adapter asking for the largest amount, its whole
balance; the market supplies them at its rate, the vault's position gains the flow's shares, and
the core contract takes the assets from the vault. -/
theorem vaultSupply_flow (hs : s.WellFormed) {vault : Address} {id : MarketId} {m : Market}
    (hm : s.markets.get? id = some m) (hclock : m.lastUpdate = s.block.timestamp)
    {x : UInt256} (hx : x.toNat ≠ 0) {flow : Flow}
    (h : supply vault (vaultRequest vault id x 0 none) (pure ()) s = .ok (flow, s')) :
    (flow.assets = x ∨ (isMaxAmount (Int256.ofBits x) && isAdapter s vault) = true ∧
        flow.assets = s.balanceOf vault m.params.loanToken) ∧
    ∃ m' supplyShares, (Market.supply flow.assets 0).apply m = .ok (flow, m') ∧
      supplyShares.toNat = (s.position vault id).supplyShares.toNat + flow.shares.toNat ∧
      move ⟨m.params.loanToken, s.registry.morpho, vault, s.registry.morpho, flow.assets⟩
        ((s.putPosition { s.position vault id with supplyShares }).putMarket m') = .ok ((), s') := by
  unfold supply at h
  rw [show (vaultRequest vault id x 0 none).id = id from rfl,
    bind_of_eq_ok (accrueMarket_current hs hm hclock), read_bind,
    show (vaultRequest vault id x 0 none).assets = Int256.ofBits x from rfl,
    show amountOf (vaultRequest vault id x 0 none).shares = 0 from amountOf_ofBits 0] at h
  obtain ⟨assets, s₁, hres, h₁⟩ := bind_inv h
  rw [resolveMax_eq] at hres
  have hpick : (assets = x ∨ (isMaxAmount (Int256.ofBits x) && isAdapter s vault) = true ∧
      assets = s.balanceOf vault m.params.loanToken) ∧ assets.toNat ≠ 0 ∧ s₁ = s := by
    split at hres
    · next hmax =>
      split at hres
      · cases hres
      · next hzero =>
        cases hres
        exact ⟨Or.inr ⟨hmax, rfl⟩, by simpa [UInt256.isZero] using hzero, rfl⟩
    · obtain ⟨rfl, rfl⟩ := Prod.mk.inj (Except.ok.inj hres)
      rw [amountOf_ofBits]
      exact ⟨Or.inl rfl, hx, rfl⟩
  obtain ⟨hassets, hnonzero, rfl⟩ := hpick
  obtain ⟨reference, -, h₂⟩ := (readOnly_arith _).bind_inv h₁
  obtain ⟨⟨flow', m'⟩, s₂, hupd, h₃⟩ := bind_inv h₂
  obtain ⟨hop, rfl⟩ := marketUpdate_inv hupd
  dsimp only at h₃
  rw [read_bind] at h₃
  obtain ⟨supplyShares, hss, h₄⟩ := arith_bind_inv h₃
  rw [modify_bind, read_bind, if_neg (by simp [vaultRequest]), pure_bind, read_bind] at h₄
  obtain ⟨⟨⟩, s₄, hmove, h₅⟩ := bind_inv h₄
  obtain ⟨rfl, rfl⟩ := pure_inv h₅
  have hflow : flow.assets = assets := Market.resolve_of_assets hnonzero (Market.supply_resolve hop)
  rw [← hflow] at hop hassets
  exact ⟨hassets, m', supplyShares, hop, UInt256.checkedAdd_toNat hss, hmove⟩

/-- A successful supply of `x ≠ 0` by the vault never supplies more than `x`: the general
adapter's whole balance is supplied only when it is below the largest amount, beyond what any
market prices. -/
theorem vaultSupply_assets_le (hs : s.WellFormed) {vault : Address} {id : MarketId} {m : Market}
    (hm : s.markets.get? id = some m) (hclock : m.lastUpdate = s.block.timestamp)
    {x : UInt256} (hx : x.toNat ≠ 0) {flow : Flow}
    (h : supply vault (vaultRequest vault id x 0 none) (pure ()) s = .ok (flow, s')) :
    flow.assets.toNat ≤ x.toNat := by
  obtain ⟨hassets, m', -, hop, -⟩ := vaultSupply_flow hs hm hclock hx h
  rcases hassets with hassets | ⟨hmax, -⟩
  · rw [hassets]
  · rw [isMaxAmount_ofBits (Bool.and_eq_true_iff.mp hmax).1]
    by_contra hlarge
    rw [Market.supply_large_error (by omega)] at hop
    cases hop

/-- The vault's own supply of `x` to a market accrued to the block's time, out of an idle
balance that covers it, when it succeeds, supplies exactly `x` at the market's rate, credits the
flow's shares to the vault's position, and then has the core contract take `x` from the vault. -/
theorem vaultSupply_inv (hs : s.WellFormed) {vault : Address} {id : MarketId} {m : Market}
    (hm : s.markets.get? id = some m) (hclock : m.lastUpdate = s.block.timestamp)
    {x : UInt256} (hx : x.toNat ≠ 0)
    (hbalance : x.toNat ≤ (s.balanceOf vault m.params.loanToken).toNat) {flow : Flow}
    (h : supply vault (vaultRequest vault id x 0 none) (pure ()) s = .ok (flow, s')) :
    ∃ m' supplyShares, (Market.supply x 0).apply m = .ok (flow, m') ∧ flow.assets = x ∧
      supplyShares.toNat = (s.position vault id).supplyShares.toNat + flow.shares.toNat ∧
      move ⟨m.params.loanToken, s.registry.morpho, vault, s.registry.morpho, x⟩
        ((s.putPosition { s.position vault id with supplyShares }).putMarket m') = .ok ((), s') := by
  obtain ⟨hassets, m', supplyShares, hop, hshares, hmove⟩ := vaultSupply_flow hs hm hclock hx h
  have hx' : flow.assets = x := by
    rcases hassets with hassets | ⟨hmax, hwhole⟩
    · exact hassets
    · have hlarge : Nat.pow 2 255 - 1 ≤ flow.assets.toNat := by
        rw [hwhole, ← isMaxAmount_ofBits (Bool.and_eq_true_iff.mp hmax).1]
        exact hbalance
      rw [Market.supply_large_error hlarge] at hop
      cases hop
  rw [hx'] at hop hmove
  exact ⟨m', supplyShares, hop, hx', hshares, hmove⟩


/-! ## Transfer flags -/

/-- Every holding is as able or unable to take transfers as before. -/
def FlagsKept (s s' : State) : Prop :=
  ∀ user token, (s'.holding user token).canTransfer = (s.holding user token).canTransfer

theorem flagsKept_composes : Composes FlagsKept where
  refl _ _ _ := rfl
  trans h₁₂ h₂₃ user token := (h₂₃ user token).trans (h₁₂ user token)

theorem Holding.Change.canTransfer {h h' : Holding} (hc : h.Change h') :
    h'.canTransfer = h.canTransfer := by
  cases hc <;> rfl

theorem flagsKept_putHolding {holding : Holding} {user token : Address}
    (hkey : holding.user = user ∧ holding.token = token)
    (hflag : holding.canTransfer = (s.holding user token).canTransfer) :
    FlagsKept s (s.putHolding holding) := by
  intro user' token'
  rw [State.holding_putHolding]
  split
  · next heq =>
    rw [hkey.1, hkey.2] at heq
    obtain ⟨rfl, rfl⟩ := Prod.mk.inj heq
    exact hflag
  · rfl

/-- No write changes a holding's transfer flag. -/
theorem Write.flagsKept (hw : Write B s s') (hs : s.WellFormed) : FlagsKept s s' := by
  cases hw with
  | holding user token holding hchange =>
    have hkey := hs.holding_user user token
    exact flagsKept_putHolding ⟨hchange.key.1.trans hkey.1, hchange.key.2.trans hkey.2⟩
      hchange.canTransfer
  | permit owner token | routerPermit owner token =>
    exact flagsKept_putHolding (hs.holding_user owner token) rfl
  | accrue h =>
    obtain ⟨markets, positions, rfl⟩ := accrueMarket_frame h
    exact flagsKept_composes.refl s
  | vaultUser | vaultMarketConfig | vault | vaultV2 | vaultV2Adapter | authorize | supply
  | withdraw | borrow | repay | supplyCollateral | withdrawCollateral =>
    exact flagsKept_composes.refl s

theorem flagsKept_writeInvariant : WriteInvariant Bounds.all FlagsKept where
  composes := flagsKept_composes
  write hs hw := hw.flagsKept hs

theorem canReceive_of_flagsKept (h : FlagsKept s s') (user token : Address) :
    (s'.holding user token).canReceive = (s.holding user token).canReceive := by
  unfold Holding.canReceive
  rw [h user token]

/-- Moving tokens changes no holding's transfer flag. -/
theorem move_flagsKept (hs : s.WellFormed) {mv : Movement} (h : move mv s = .ok ((), s')) :
    FlagsKept s s' :=
  (flagsKept_writeInvariant.move_keeps mv s () s' h hs).2

/-! ## What a movement takes -/

/-- A balance put back for a holder, read for anyone. -/
theorem balanceOf_putHolding_eq (hs : s.WellFormed) (holder token : Address) (b : UInt256)
    (user token' : Address) :
    (s.putHolding { s.holding holder token with balance := b }).balanceOf user token' =
      if user = holder ∧ token' = token then b else s.balanceOf user token' := by
  obtain ⟨huser, htoken⟩ := hs.holding_user holder token
  rw [State.balanceOf_putHolding]
  dsimp only
  rw [huser, htoken]
  by_cases heq : user = holder ∧ token' = token
  · rw [if_pos (Prod.ext heq.1 heq.2), if_pos heq]
  · rw [if_neg (fun h => heq (Prod.mk.inj h)), if_neg heq]

/-- A movement takes no more than its amount from anyone's balance of any token. -/
theorem move_balanceOf_ge (hs : s.WellFormed) {mv : Movement} (h : move mv s = .ok ((), s'))
    (user token : Address) :
    (s.balanceOf user token).toNat ≤ (s'.balanceOf user token).toNat + mv.amount.toNat := by
  obtain ⟨s₁, s₂, hspend, hdebit, hcredit⟩ := move_inv h
  obtain ⟨hs₂, -⟩ := move_source_side hs hspend hdebit
  have h₁ : s₁.balanceOf user token = s.balanceOf user token ∧ s₁.WellFormed := by
    split at hspend
    · refine ⟨spendAllowance_balanceOf hs hspend user token, ?_⟩
      rcases spendAllowance_inv hspend with ⟨rfl, -⟩ | ⟨-, -, -, -, -, rfl⟩ | ⟨-, -, -, -, rfl⟩
      · exact hs
      · exact hs.putHolding _
      · exact hs.putVaultUser _
    · subst hspend
      exact ⟨rfl, hs⟩
  have h₂ : (s₁.balanceOf user token).toNat ≤ (s₂.balanceOf user token).toNat + mv.amount.toNat := by
    split at hdebit
    · obtain ⟨b, hb, rfl⟩ := debit_inv hdebit
      rw [balanceOf_putHolding_eq h₁.2]
      split
      · next heq =>
        obtain ⟨rfl, rfl⟩ := heq
        omega
      · omega
    · subst hdebit
      omega
  have h₃ : (s₂.balanceOf user token).toNat ≤ (s'.balanceOf user token).toNat := by
    split at hcredit
    · obtain ⟨-, b, hb, rfl⟩ := credit_inv hcredit
      rw [balanceOf_putHolding_eq hs₂]
      split
      · next heq =>
        obtain ⟨rfl, rfl⟩ := heq
        omega
      · exact le_rfl
    · subst hcredit
      exact le_rfl
  rw [← h₁.1]
  omega

/-! ## One step of the vault along a queue -/

/-- What the vault's own supply or withdrawal of `x` on market `id` leaves as it was: every other
market with the positions on it, the configurations, the registry, who lets the core contract
pull, every holding's transfer flag; and no one loses more than `x` of any token. -/
structure StepFrame (id : MarketId) (x : Nat) (s s' : State) : Prop where
  wellFormed : s'.WellFormed
  block : s'.block = s.block
  kept : ∀ id', id' ≠ id → MarketKept id' s s'
  configs : s'.vaultMarketConfigs = s.vaultMarketConfigs
  registry : s'.registry = s.registry
  approves : ∀ user, s'.approvesMorpho user = s.approvesMorpho user
  flags : FlagsKept s s'
  covered : ∀ user token, (s.balanceOf user token).toNat ≤ (s'.balanceOf user token).toNat + x

/-- A market operation committed with the position it is for, then a movement of `x`: the
committed market and position are in place, and the rest is framed. -/
theorem commit_move_step (hs : s.WellFormed) {p : Position} {m' : Market} {mv : Movement}
    (hmove : move mv ((s.putPosition p).putMarket m') = .ok ((), s')) {user : Address}
    {id : MarketId} (hp : (p.user, p.marketId) = (user, id)) (hm' : m'.id = id) :
    s'.markets.get? id = some m' ∧ s'.position user id = p ∧ StepFrame id mv.amount.toNat s s' := by
  have hs₁ : ((s.putPosition p).putMarket m').WellFormed := (hs.putPosition p).putMarket m'
  obtain ⟨hs', hmarket, hkept⟩ := commit_move hs hmove hp hm'
  obtain ⟨holdings, vaultUsers, heq⟩ := move_tokensOnly _ _ () s' hmove
  have hposition : s'.position user id = p := by
    rw [heq]
    show (s.putPosition p).position user id = p
    rw [State.position_putPosition, if_pos hp.symm]
  refine ⟨hmarket, hposition, hs', by rw [heq]; rfl, hkept, by rw [heq]; rfl, by rw [heq]; rfl,
    fun _ => by rw [heq]; rfl, fun u t => move_flagsKept hs₁ hmove u t, fun u t => ?_⟩
  exact move_balanceOf_ge hs₁ hmove u t

/-! ## What the vault has on a market -/

namespace State

/-- What `vault` supplies on market `id`, in assets rounded as asked; nothing on a market the
state does not have. -/
def supplied (s : State) (vault : Address) (id : MarketId) (rounding : Rounding) : Nat :=
  match s.markets.get? id with
  | some m => m.supplyValue (s.position vault id).supplyShares.toNat rounding
  | none => 0

/-- What market `id` has supplied in all. -/
def totalSupplied (s : State) (id : MarketId) : Nat :=
  match s.markets.get? id with
  | some m => m.totalSupplyAssets.toNat
  | none => 0

/-- What market `id` has left to lend. -/
def liquidityOf (s : State) (id : MarketId) : Nat :=
  match s.markets.get? id with
  | some m => m.liquidity.toNat
  | none => 0

/-- The supply cap of market `id` for `vault`; none without a configuration. -/
def capOf (s : State) (vault : Address) (id : MarketId) : Nat :=
  match s.vaultMarketConfig vault id with
  | .ok c => c.cap.toNat
  | .error _ => 0

/-- What a deposit may still place on market `id`: the cap less the vault's supply there,
rounded up. -/
def headroom (s : State) (vault : Address) (id : MarketId) : Nat :=
  s.capOf vault id - s.supplied vault id .up

/-- What a withdrawal may take from market `id`: the vault's supply there, rounded down, as far
as the market's liquidity goes. -/
def withdrawable (s : State) (vault : Address) (id : MarketId) : Nat :=
  min (s.supplied vault id .down) (s.liquidityOf id)

/-- Market `id` is ready for the vault's own supplies and withdrawals of `asset`: it is on the
book, accrued to the block's time, lends `asset`, and the vault holds no more of its supply
shares than the market has issued. -/
def MarketReady (s : State) (vault asset : Address) (id : MarketId) : Prop :=
  ∃ m, s.markets.get? id = some m ∧ m.lastUpdate = s.block.timestamp ∧
    m.params.loanToken = asset ∧
    (s.position vault id).supplyShares.toNat ≤ m.totalSupplyShares.toNat

theorem supplied_of_get? {vault : Address} {id : MarketId} {m : Market}
    (hm : s.markets.get? id = some m) (rounding : Rounding) :
    s.supplied vault id rounding = m.supplyValue (s.position vault id).supplyShares.toNat rounding := by
  rw [supplied, hm]

theorem totalSupplied_of_get? {id : MarketId} {m : Market} (hm : s.markets.get? id = some m) :
    s.totalSupplied id = m.totalSupplyAssets.toNat := by
  rw [totalSupplied, hm]

theorem liquidityOf_of_get? {id : MarketId} {m : Market} (hm : s.markets.get? id = some m) :
    s.liquidityOf id = m.totalSupplyAssets.toNat - m.totalBorrowAssets.toNat := by
  rw [liquidityOf, hm]
  rfl

theorem capOf_of_eq_ok {vault : Address} {id : MarketId} {c : VaultMarketConfig}
    (hc : s.vaultMarketConfig vault id = .ok c) : s.capOf vault id = c.cap.toNat := by
  rw [capOf, hc]

theorem capOf_congr (h : s'.vaultMarketConfigs = s.vaultMarketConfigs) (vault : Address)
    (id : MarketId) : s'.capOf vault id = s.capOf vault id := by
  unfold capOf vaultMarketConfig
  rw [h]

end State

namespace MarketKept

variable {id : MarketId}

theorem supplied (h : MarketKept id s s') (vault : Address) (rounding : Rounding) :
    s'.supplied vault id rounding = s.supplied vault id rounding := by
  unfold State.supplied
  rw [h.market, h.position]

theorem totalSupplied (h : MarketKept id s s') : s'.totalSupplied id = s.totalSupplied id := by
  unfold State.totalSupplied
  rw [h.market]

theorem liquidityOf (h : MarketKept id s s') : s'.liquidityOf id = s.liquidityOf id := by
  unfold State.liquidityOf
  rw [h.market]

theorem ready (h : MarketKept id s s') {vault asset : Address} (hr : s.MarketReady vault asset id) :
    s'.MarketReady vault asset id := by
  obtain ⟨m, hm, hclock, hloan, hheld⟩ := hr
  refine ⟨m, h.market.trans hm, by rw [h.block]; exact hclock, hloan, ?_⟩
  rw [h.position]
  exact hheld

end MarketKept

/-! ## The vault's own supply -/

/-- What the vault's own supply of `x` to market `id` leaves: the frame, the market still ready,
its supply grown by exactly `x`, and the vault's supply there, in either rounding, grown by at
most `x`. -/
structure Supplied (vault asset : Address) (id : MarketId) (x : Nat) (s s' : State) : Prop
    extends StepFrame id x s s' where
  ready : s'.MarketReady vault asset id
  total : s'.totalSupplied id = s.totalSupplied id + x
  value : ∀ rounding, s'.supplied vault id rounding ≤ s.supplied vault id rounding + x

/-- The vault's own supply to a ready market, when it succeeds, leaves `Supplied` for the flow's
assets. -/
theorem vaultSupply_supplied (hs : s.WellFormed) {vault asset : Address} {id : MarketId}
    (hready : s.MarketReady vault asset id) {x : UInt256} (hx : x.toNat ≠ 0) {flow : Flow}
    (h : supply vault (vaultRequest vault id x 0 none) (pure ()) s = .ok (flow, s')) :
    Supplied vault asset id flow.assets.toNat s s' := by
  obtain ⟨m, hm, hclock, rfl, hheld⟩ := hready
  obtain ⟨-, m', supplyShares, hop, hshares, hmove⟩ := vaultSupply_flow hs hm hclock hx h
  obtain ⟨tsa, tss, rfl, htsa, htss, hround⟩ := Market.supply_inv hop
  obtain ⟨huser, hid⟩ := hs.position_user vault id
  obtain ⟨hmarket, hposition, hframe⟩ :=
    commit_move_step hs hmove (Prod.ext huser hid) (show m.id = id from hs.market_id hm)
  have hblock := hframe.block
  refine ⟨hframe, ⟨_, hmarket, by rw [hblock]; exact hclock, rfl, ?_⟩, ?_, fun rounding => ?_⟩
  · rw [hposition]
    show supplyShares.toNat ≤ tss.toNat
    omega
  · rw [State.totalSupplied_of_get? hmarket, State.totalSupplied_of_get? hm]
    exact htsa
  · rw [State.supplied_of_get? hmarket, State.supplied_of_get? hm, hposition]
    show Market.supplyValue _ supplyShares.toNat rounding ≤ _
    rw [hshares]
    exact Market.supplyValue_supply rounding hheld hround htsa htss

/-- The vault's own supply of `x` to a ready market, out of an idle balance that covers it, to a
core contract that may receive the asset: it fails only by overflow, and otherwise leaves the
market ready with `x` more supplied, of which the vault's part holds at most `x`. -/
theorem vaultSupply_wp (hs : s.WellFormed) {vault asset : Address} {id : MarketId}
    (hready : s.MarketReady vault asset id) {x : UInt256} (hx : x.toNat ≠ 0)
    (hbalance : x.toNat ≤ (s.balanceOf vault asset).toNat)
    (hpull : s.approvesMorpho vault = true)
    (hreceive : (s.holding s.registry.morpho asset).canReceive = true) :
    wp (supply vault (vaultRequest vault id x 0 none) (pure ()))
      (fun _ s' => Supplied vault asset id x.toNat s s') Fault.IsOverflow s := by
  obtain ⟨m, hm, hclock, hloan, hheld⟩ := hready
  subst hloan
  refine wp_iff.mpr ⟨fun flow s' h => ?_,
    fun e h => supply_error_overflow hs hm hclock hx hbalance hpull hreceive h⟩
  obtain ⟨-, -, -, hassets, -⟩ := vaultSupply_inv hs hm hclock hx hbalance h
  rw [← hassets]
  exact vaultSupply_supplied hs ⟨m, hm, hclock, rfl, hheld⟩ hx h


/-! ## Placing a deposit along the supply queue -/

/-- What the walk along the supply queue with `remaining` to place leaves, from `s` to `s'`
returning `r`: what the headroom of the queue did not take comes back, the rest is supplied to
the queue's markets, each market of the queue ends under its cap or no higher than it was, and
every market off the queue is left alone. -/
structure Placed (vault : Address) (queue : List MarketId) (remaining r : Nat) (s s' : State) :
    Prop where
  returned : r = remaining - (queue.map (s.headroom vault)).sum
  total : (queue.map s'.totalSupplied).sum + r = (queue.map s.totalSupplied).sum + remaining
  capped : ∀ id ∈ queue,
    s'.supplied vault id .up ≤ max (s.capOf vault id) (s.supplied vault id .up)
  kept : ∀ id, id ∉ queue → MarketKept id s s'

namespace Placed

variable {vault : Address} {queue : List MarketId} {remaining r : Nat}

/-- With nothing to place, or nowhere to place it, everything comes back. -/
theorem idle (h : remaining = 0 ∨ queue = []) : Placed vault queue remaining remaining s s := by
  refine ⟨?_, rfl, fun id _ => le_max_right _ _, fun id _ => (MarketKept.composes id).refl s⟩
  rcases h with rfl | rfl
  · exact (Nat.zero_sub _).symm
  · rfl

/-- One market placed on, then the rest of the queue: `x`, the market's headroom as far as what
remains goes, is supplied to it, and nothing else is touched before the rest of the walk. -/
theorem cons {id : MarketId} {rest : List MarketId} {x : Nat} {s₁ : State} (hnot : id ∉ rest)
    (hx : x = min (s.headroom vault id) remaining)
    (hkept : ∀ id', id' ≠ id → MarketKept id' s s₁)
    (hconfigs : s₁.vaultMarketConfigs = s.vaultMarketConfigs)
    (htotal : s₁.totalSupplied id = s.totalSupplied id + x)
    (hvalue : s₁.supplied vault id .up ≤ s.supplied vault id .up + x)
    (h : Placed vault rest (remaining - x) r s₁ s') :
    Placed vault (id :: rest) remaining r s s' := by
  have hne : ∀ id' ∈ rest, id' ≠ id := fun id' hid heq => hnot (heq ▸ hid)
  have hheadroom : (rest.map (s₁.headroom vault)).sum = (rest.map (s.headroom vault)).sum := by
    congr 1
    refine List.map_congr_left fun id' hid => ?_
    unfold State.headroom
    rw [State.capOf_congr hconfigs, (hkept id' (hne id' hid)).supplied]
  have hsupply : (rest.map s₁.totalSupplied).sum = (rest.map s.totalSupplied).sum := by
    congr 1
    exact List.map_congr_left fun id' hid => (hkept id' (hne id' hid)).totalSupplied
  have hlast := h.kept id hnot
  refine ⟨?_, ?_, fun id' hid => ?_, fun id' hid => ?_⟩
  · rw [h.returned, hheadroom, List.map_cons, List.sum_cons]
    omega
  · have := h.total
    rw [List.map_cons, List.sum_cons, List.map_cons, List.sum_cons, hlast.totalSupplied]
    omega
  · rcases List.mem_cons.mp hid with rfl | hid
    · rw [hlast.supplied]
      unfold State.headroom at hx
      omega
    · have := h.capped id' hid
      rwa [State.capOf_congr hconfigs, (hkept id' (hne id' hid)).supplied] at this
  · obtain ⟨hne', hnot'⟩ := List.ne_and_not_mem_of_not_mem_cons hid
    exact (MarketKept.composes id').trans (hkept id' hne') (h.kept id' hnot')

end Placed

/-- The walk along the supply queue, from a well-formed state where every market of the queue
is ready and configured, with what remains to place held idle by the vault, which lets the core
contract pull, and a core contract that may receive the asset: it fails only by overflow, and
otherwise places what the queue's headroom takes (`Placed`). -/
theorem supplyToMarkets_wp {vault asset : Address} {queue : List MarketId} {remaining : UInt256}
    (hs : s.WellFormed) (hnodup : queue.Nodup)
    (hready : ∀ id ∈ queue, s.MarketReady vault asset id)
    (hconfig : ∀ id ∈ queue, ∃ c, s.vaultMarketConfig vault id = .ok c)
    (hbalance : remaining.toNat ≤ (s.balanceOf vault asset).toNat)
    (hpull : s.approvesMorpho vault = true)
    (hreceive : (s.holding s.registry.morpho asset).canReceive = true) :
    wp (supplyToMarkets vault queue remaining)
      (fun r s' => Placed vault queue remaining.toNat r.toNat s s') Fault.IsOverflow s := by
  induction queue generalizing remaining s with
  | nil => exact Placed.idle (.inr rfl)
  | cons id rest ih =>
    obtain ⟨hnot, hnodup⟩ := List.nodup_cons.mp hnodup
    have hne : ∀ id' ∈ rest, id' ≠ id := fun id' hid heq => hnot (heq ▸ hid)
    rw [supplyToMarkets]
    by_cases hzero : remaining.isZero = true
    · rw [if_pos hzero]
      exact Placed.idle (.inl (by simpa [UInt256.isZero] using hzero))
    obtain ⟨c, hc⟩ := hconfig id List.mem_cons_self
    rw [if_neg hzero, wp_read, wp_bind, hc, wp_of_eq_ok rfl]
    have hskip : s.headroom vault id = 0 →
        wp (supplyToMarkets vault rest remaining)
          (fun r s' => Placed vault (id :: rest) remaining.toNat r.toNat s s') Fault.IsOverflow s := by
      intro hroom
      refine wp_mono (fun r s' h => ?_) (fun _ he => he)
        (ih hs hnodup (fun id' hid => hready id' (List.mem_cons_of_mem id hid))
          (fun id' hid => hconfig id' (List.mem_cons_of_mem id hid)) hbalance hpull hreceive)
      refine Placed.cons hnot (show 0 = min (s.headroom vault id) remaining.toNat by omega)
        (fun id' _ => (MarketKept.composes id').refl s) rfl rfl (Nat.le_add_right _ _) ?_
      rwa [Nat.sub_zero]
    by_cases hcap : c.cap.isZero = true
    · rw [if_pos hcap]
      refine hskip ?_
      have : c.cap.toNat = 0 := by simpa [UInt256.isZero] using hcap
      unfold State.headroom
      rw [State.capOf_of_eq_ok hc]
      omega
    rw [if_neg hcap, wp_bind]
    obtain ⟨m, hm, hclock, hloan, hheld⟩ := hready id List.mem_cons_self
    refine wp_mono (fun u s₁ hu => ?_) (fun _ he => he) (suppliedAssets_current hs hm hclock .up)
    obtain ⟨hs₁, hu⟩ := hu
    rw [hs₁]
    dsimp only
    have hsupply : (min (c.cap.zeroFloorSub u) remaining).toNat =
        min (s.headroom vault id) remaining.toNat := by
      rw [UInt256.toNat_min, UInt256.toNat_zeroFloorSub, Market.toSupplyAssets_toNat hu]
      unfold State.headroom
      rw [State.capOf_of_eq_ok hc, State.supplied_of_get? hm]
    by_cases hnone : (min (c.cap.zeroFloorSub u) remaining).isZero = true
    · rw [if_pos hnone]
      refine hskip ?_
      have hrem : remaining.toNat ≠ 0 := by simpa [UInt256.isZero] using hzero
      have : (min (c.cap.zeroFloorSub u) remaining).toNat = 0 := by
        simpa [UInt256.isZero] using hnone
      omega
    rw [if_neg hnone, wp_discard]
    have hx : (min (c.cap.zeroFloorSub u) remaining).toNat ≠ 0 := by
      simpa [UInt256.isZero] using hnone
    refine wp_mono (fun _ s₂ hsup => ?_) (fun _ he => he)
      (vaultSupply_wp hs (hready id List.mem_cons_self) hx
        (by rw [hsupply]; omega) hpull hreceive)
    have hcovered : (remaining.zeroFloorSub (min (c.cap.zeroFloorSub u) remaining)).toNat ≤
        (s₂.balanceOf vault asset).toNat := by
      have := hsup.covered vault asset
      rw [UInt256.toNat_zeroFloorSub]
      omega
    have hrest := ih hsup.wellFormed hnodup
      (fun id' hid => (hsup.kept id' (hne id' hid)).ready (hready id' (List.mem_cons_of_mem id hid)))
      (fun id' hid => by
        unfold State.vaultMarketConfig
        rw [hsup.configs]
        exact hconfig id' (List.mem_cons_of_mem id hid))
      hcovered
      (by rw [hsup.approves]; exact hpull)
      (by rw [canReceive_of_flagsKept hsup.flags, hsup.registry]; exact hreceive)
    refine wp_mono (fun r s' h => ?_) (fun _ he => he) hrest
    rw [UInt256.toNat_zeroFloorSub, hsupply] at h
    exact Placed.cons hnot rfl hsup.kept hsup.configs (by rw [hsup.total, hsupply])
      (by rw [← hsupply]; exact hsup.value .up) h

/-- A vault lets the core contract pull its tokens. -/
theorem approvesMorpho_of_vault {vault : Address} {v : Vault} (hvault : s.vaults.get? vault = some v) :
    s.approvesMorpho vault = true := by
  unfold State.approvesMorpho State.vaultAsset?
  rw [hvault]
  simp

/-- A deposit places exactly what it brings, and no market over its cap: from a state where the
supply queue is ready, configured and distinct and the vault holds the deposit idle, the walk fails
only by overflow or for want of headroom, by exactly what it reports, and otherwise supplies
exactly `assets` with each market under its cap or no higher than it was. -/
theorem deposit_placed_within_caps (hs : s.WellFormed) {vault : Address} {v : Vault}
    (hvault : s.vaults.get? vault = some v) (hnodup : v.supplyQueue.Nodup)
    (hready : ∀ id ∈ v.supplyQueue, s.MarketReady vault v.asset id)
    (hconfig : ∀ id ∈ v.supplyQueue, ∃ c, s.vaultMarketConfig vault id = .ok c)
    (hreceive : (s.holding s.registry.morpho v.asset).canReceive = true)
    {assets : UInt256} (hbalance : assets.toNat ≤ (s.balanceOf vault v.asset).toNat) :
    wp (placeDeposit vault v.supplyQueue assets)
      (fun _ s' => assets.toNat ≤ (v.supplyQueue.map (s.headroom vault)).sum ∧
        (v.supplyQueue.map s'.totalSupplied).sum =
          (v.supplyQueue.map s.totalSupplied).sum + assets.toNat ∧
        ∀ id ∈ v.supplyQueue,
          s'.supplied vault id .up ≤ max (s.capOf vault id) (s.supplied vault id .up))
      (fun e => e.IsOverflow ∨ ∃ r : UInt256, e = .vault (.allCapsReached vault r) ∧
        (v.supplyQueue.map (s.headroom vault)).sum < assets.toNat ∧
        r.toNat + (v.supplyQueue.map (s.headroom vault)).sum = assets.toNat) s := by
  unfold placeDeposit
  rw [wp_bind]
  refine wp_mono (fun r s' hplaced => ?_) (fun _ he => .inl he)
    (supplyToMarkets_wp hs hnodup hready hconfig hbalance (approvesMorpho_of_vault hvault) hreceive)
  obtain ⟨hreturned, htotal, hcapped, -⟩ := hplaced
  by_cases hzero : r.isZero = true
  · have hr : r.toNat = 0 := by simpa [UInt256.isZero] using hzero
    rw [if_neg (by simp [hzero]), wp_pure]
    exact ⟨by omega, by omega, hcapped⟩
  · have hr : r.toNat ≠ 0 := by simpa [UInt256.isZero] using hzero
    rw [if_pos (by simpa using hzero), wp_throw]
    exact .inr ⟨r, rfl, by omega, by omega⟩

namespace Sample

/-- The sample vault as the sample state books it. -/
def vaultRecord : Vault :=
  { Vault.new vault asset 0 with
    supplyQueue := [market.id], withdrawQueue := [market.id], totalSupply := 50,
    totalAssets := 50, lastTotalAssets := 50 }

theorem state_vault : state.vaults.get? vault = some vaultRecord := rfl

theorem state_wellFormed : state.WellFormed := by
  unfold state
  simp only [List.foldl_cons, List.foldl_nil]
  exact (((((((((((State.new_wellFormed _ _ _).putMarket _).putVault _).putVaultV2 _)
    |>.putVaultMarketConfig _).putVaultUser _).putVaultUser _).putHolding _).putHolding _)
    |>.putHolding _).putHolding _).putHolding _

/-- The sample market is ready for the sample vault's asset. -/
theorem market_ready : state.MarketReady vault asset market.id := by
  obtain ⟨hm, hheld⟩ : state.markets.get? market.id = some market ∧
      (state.position vault market.id).supplyShares.toNat ≤ market.totalSupplyShares.toNat := by
    decide +kernel
  exact ⟨market, hm, rfl, rfl, hheld⟩

end Sample

open Sample in
/-- The sample vault placing thirty of its fifty idle assets on its one market, capped at a
thousand: the run succeeds, within the headroom, with thirty more supplied. -/
theorem deposit_placed_within_caps_sample :
    ∃ s', placeDeposit vault vaultRecord.supplyQueue 30 state = .ok ((), s') ∧
      30 ≤ (vaultRecord.supplyQueue.map (state.headroom vault)).sum ∧
      (vaultRecord.supplyQueue.map s'.totalSupplied).sum =
        (vaultRecord.supplyQueue.map state.totalSupplied).sum + 30 ∧
      ∀ id ∈ vaultRecord.supplyQueue,
        s'.supplied vault id .up ≤ max (state.capOf vault id) (state.supplied vault id .up) := by
  obtain ⟨⟨⟨⟩, s'⟩, h⟩ := Except.exists_eq_ok
    (x := placeDeposit vault vaultRecord.supplyQueue 30 state) (by decide +kernel)
  have hready : ∀ id ∈ vaultRecord.supplyQueue, state.MarketReady vault vaultRecord.asset id := by
    intro id hid
    rw [show vaultRecord.supplyQueue = [market.id] from rfl, List.mem_singleton] at hid
    rw [hid]
    exact market_ready
  have hconfig : ∀ id ∈ vaultRecord.supplyQueue, ∃ c, state.vaultMarketConfig vault id = .ok c := by
    intro id hid
    rw [show vaultRecord.supplyQueue = [market.id] from rfl, List.mem_singleton] at hid
    rw [hid]
    exact Except.exists_eq_ok (x := state.vaultMarketConfig vault market.id) (by decide +kernel)
  exact ⟨s', h, (wp_of_eq_ok h).mp (deposit_placed_within_caps state_wellFormed state_vault
    (List.nodup_singleton _) hready hconfig (by decide +kernel) (by decide +kernel))⟩


/-! ## The vault's own withdrawal -/

/-- The vault's own withdrawal to itself from a market accrued to the block's time, when it
succeeds: the flow leaves the market, which keeps enough liquidity, for the shares the position
gives up, and then the core contract sends the flow's assets to the vault. -/
theorem vaultWithdraw_inv (hs : s.WellFormed) {vault : Address} {id : MarketId} {m : Market}
    (hm : s.markets.get? id = some m) (hclock : m.lastUpdate = s.block.timestamp)
    {assets shares : UInt256} {flow : Flow}
    (h : withdraw vault (vaultRequest vault id assets shares (some vault)) (pure ()) s =
      .ok (flow, s')) :
    ∃ shares' m' supplyShares, (Market.withdraw assets shares').apply m = .ok (flow, m') ∧
      m'.hasEnoughLiquidity = true ∧
      supplyShares.toNat + flow.shares.toNat = (s.position vault id).supplyShares.toNat ∧
      move ⟨m.params.loanToken, s.registry.morpho, s.registry.morpho, vault, flow.assets⟩
        ((s.putPosition { s.position vault id with supplyShares }).putMarket m') = .ok ((), s') := by
  obtain ⟨-, market, m', s₁, s₂, shares', supplyShares, hacc, hop, -, hliquid, hss, hcb, hmove⟩ :=
    Perform.withdraw_inv h
  have hcurrent := (accrueMarket_current hs hm hclock).symm.trans hacc
  cases hcurrent
  obtain ⟨-, rfl⟩ := pure_inv hcb
  rw [show amountOf (vaultRequest vault id assets shares (some vault)).assets = assets from
    amountOf_ofBits assets] at hop
  exact ⟨shares', m', supplyShares, hop, hliquid, hss, hmove⟩

/-- A withdrawal of `x ≠ 0` in assets moves exactly `x`. -/
theorem vaultWithdraw_assets (hs : s.WellFormed) {vault : Address} {id : MarketId} {m : Market}
    (hm : s.markets.get? id = some m) (hclock : m.lastUpdate = s.block.timestamp)
    {x : UInt256} (hx : x.toNat ≠ 0) {flow : Flow}
    (h : withdraw vault (vaultRequest vault id x 0 (some vault)) (pure ()) s = .ok (flow, s')) :
    flow.assets = x := by
  obtain ⟨shares, m', -, hop, -⟩ := vaultWithdraw_inv hs hm hclock h
  exact Market.resolve_of_assets hx (Market.withdraw_resolve hop)

/-- What the vault's own withdrawal of `x` from market `id` leaves: the frame, the market still
ready with `x` less liquidity, the vault's supply there, in either rounding, down by at least
`x`, and, unless the vault is the core contract or the zero address, `x` more idle. -/
structure Withdrawn (vault asset : Address) (id : MarketId) (x : Nat) (s s' : State) : Prop
    extends StepFrame id x s s' where
  ready : s'.MarketReady vault asset id
  liquidity : s'.liquidityOf id + x = s.liquidityOf id
  value : ∀ rounding, s'.supplied vault id rounding + x ≤ s.supplied vault id rounding
  idle : vault ≠ s.registry.morpho → vault ≠ .zero →
    (s'.balanceOf vault asset).toNat = (s.balanceOf vault asset).toNat + x

/-- An amount within what the vault supplies on a market, rounded down, is worth no more than
its shares at the market's rate. -/
theorem le_supplied_down_iff {vault : Address} {id : MarketId} {m : Market}
    (hm : s.markets.get? id = some m) {x : Nat} :
    x ≤ s.supplied vault id .down ↔ x * (m.totalSupplyShares.toNat + 1000000) ≤
      (s.position vault id).supplyShares.toNat * (m.totalSupplyAssets.toNat + 1) := by
  rw [State.supplied_of_get? hm]
  exact Nat.le_div_iff_mul_le (by omega)

/-- The vault's own withdrawal to itself from a ready market, of a flow no more than its supply
there rounded down, when it succeeds: it leaves `Withdrawn` for the flow's assets. -/
theorem vaultWithdraw_withdrawn (hs : s.WellFormed) {vault asset : Address} {id : MarketId}
    (hready : s.MarketReady vault asset id) {assets shares : UInt256} {flow : Flow}
    (h : withdraw vault (vaultRequest vault id assets shares (some vault)) (pure ()) s =
      .ok (flow, s'))
    (hworth : flow.assets.toNat ≤ s.supplied vault id .down) :
    Withdrawn vault asset id flow.assets.toNat s s' := by
  obtain ⟨m, hm, hclock, rfl, hheld⟩ := hready
  have hworth' := (le_supplied_down_iff hm).mp hworth
  obtain ⟨shares', m', supplyShares, hop, hcovered, hshares, hmove⟩ :=
    vaultWithdraw_inv hs hm hclock h
  obtain ⟨tsa, tss, rfl, htsa, hle, htss, hsle, hround⟩ := Market.withdraw_inv hop
  obtain ⟨huser, hid⟩ := hs.position_user vault id
  obtain ⟨hmarket, hposition, hframe⟩ :=
    commit_move_step hs hmove (Prod.ext huser hid) (show m.id = id from hs.market_id hm)
  have hblock := hframe.block
  refine ⟨hframe, ⟨_, hmarket, by rw [hblock]; exact hclock, rfl, ?_⟩, ?_, fun rounding => ?_,
    fun hmorpho hzero => ?_⟩
  · rw [hposition]
    show supplyShares.toNat ≤ tss.toNat
    omega
  · rw [State.liquidityOf_of_get? hmarket, State.liquidityOf_of_get? hm]
    have hcovered : m.totalBorrowAssets.toNat ≤ tsa.toNat := of_decide_eq_true hcovered
    show tsa.toNat - m.totalBorrowAssets.toNat + flow.assets.toNat = _
    omega
  · rw [State.supplied_of_get? hmarket, State.supplied_of_get? hm, hposition]
    show Market.supplyValue _ supplyShares.toNat rounding + _ ≤ _
    rw [show supplyShares.toNat = (s.position vault id).supplyShares.toNat - flow.shares.toNat by
      omega]
    exact Market.supplyValue_withdraw rounding hheld hworth' hround (by omega)
      (show tsa.toNat + flow.assets.toNat = _ by omega)
      (show tss.toNat + flow.shares.toNat = _ by omega)
  · have := move_credits_destination ((hs.putPosition _).putMarket _) hmove hzero hmorpho
    exact this

/-- The vault's own withdrawal to itself of `x` from a ready market, no more than its supply
there rounded down and the market's liquidity, out of a core contract balance that covers it,
into a holding that may receive the asset: it fails only by overflow, and otherwise leaves
`Withdrawn`. -/
theorem vaultWithdraw_wp (hs : s.WellFormed) {vault asset : Address} {id : MarketId}
    (hready : s.MarketReady vault asset id) {x : UInt256} (hx : x.toNat ≠ 0)
    (hworth : x.toNat ≤ s.supplied vault id .down) (hliquid : x.toNat ≤ s.liquidityOf id)
    (hbalance : x.toNat ≤ (s.balanceOf s.registry.morpho asset).toNat)
    (hreceive : (s.holding vault asset).canReceive = true) :
    wp (withdraw vault (vaultRequest vault id x 0 (some vault)) (pure ()))
      (fun _ s' => Withdrawn vault asset id x.toNat s s') Fault.IsOverflow s := by
  obtain ⟨m, hm, hclock, hloan, hheld⟩ := hready
  refine wp_iff.mpr ⟨fun flow s' h => ?_, fun e h => ?_⟩
  · have hassets := vaultWithdraw_assets hs hm hclock hx h
    rw [← hassets] at hworth ⊢
    exact vaultWithdraw_withdrawn hs ⟨m, hm, hclock, hloan, hheld⟩ h hworth
  · subst hloan
    have hliquid' : x.toNat + m.totalBorrowAssets.toNat ≤ m.totalSupplyAssets.toNat := by
      rw [State.liquidityOf_of_get? hm] at hliquid
      omega
    exact withdraw_error_overflow hs hm hclock hx ((le_supplied_down_iff hm).mp hworth) hheld
      hliquid' hbalance hreceive h


/-! ## Gathering a withdrawal along the withdraw queue -/

theorem State.getMarket_of_get? {id : MarketId} {m : Market} (hm : s.markets.get? id = some m) :
    s.getMarket id false = .ok m := by
  unfold State.getMarket
  rw [hm]
  rfl

/-- What the walk along the withdraw queue with `remaining` to take leaves, from `s` to `s'`
returning `r`: what the queue's markets could not give comes back, the vault, unless it is the
core contract or the zero address, holds the rest idle, and every market off the queue is left
alone. -/
structure Gathered (vault asset : Address) (queue : List MarketId) (remaining r : Nat)
    (s s' : State) : Prop where
  returned : r = remaining - (queue.map (s.withdrawable vault)).sum
  idle : vault ≠ s.registry.morpho → vault ≠ .zero →
    (s'.balanceOf vault asset).toNat + r = (s.balanceOf vault asset).toNat + remaining
  kept : ∀ id, id ∉ queue → MarketKept id s s'

namespace Gathered

variable {vault asset : Address} {queue : List MarketId} {remaining r : Nat}

/-- With nothing to take, or nowhere to take it from, everything comes back. -/
theorem idle' (h : remaining = 0 ∨ queue = []) : Gathered vault asset queue remaining remaining s s := by
  refine ⟨?_, fun _ _ => rfl, fun id _ => (MarketKept.composes id).refl s⟩
  rcases h with rfl | rfl
  · exact (Nat.zero_sub _).symm
  · rfl

/-- One market taken from, then the rest of the queue: `x`, what the market can give as far as
what remains goes, comes to the vault, and nothing else is touched before the rest of the walk. -/
theorem cons {id : MarketId} {rest : List MarketId} {x : Nat} {s₁ : State} (hnot : id ∉ rest)
    (hx : x = min (s.withdrawable vault id) remaining)
    (hkept : ∀ id', id' ≠ id → MarketKept id' s s₁) (hregistry : s₁.registry = s.registry)
    (hidle : vault ≠ s.registry.morpho → vault ≠ .zero →
      (s₁.balanceOf vault asset).toNat = (s.balanceOf vault asset).toNat + x)
    (h : Gathered vault asset rest (remaining - x) r s₁ s') :
    Gathered vault asset (id :: rest) remaining r s s' := by
  have hne : ∀ id' ∈ rest, id' ≠ id := fun id' hid heq => hnot (heq ▸ hid)
  have hrest : (rest.map (s₁.withdrawable vault)).sum = (rest.map (s.withdrawable vault)).sum := by
    congr 1
    refine List.map_congr_left fun id' hid => ?_
    unfold State.withdrawable
    rw [(hkept id' (hne id' hid)).supplied, (hkept id' (hne id' hid)).liquidityOf]
  refine ⟨?_, fun hmorpho hzero => ?_, fun id' hid => ?_⟩
  · rw [h.returned, hrest, List.map_cons, List.sum_cons]
    omega
  · have h₁ := hidle hmorpho hzero
    have h₂ := h.idle (by rw [hregistry]; exact hmorpho) hzero
    omega
  · obtain ⟨hne', hnot'⟩ := List.ne_and_not_mem_of_not_mem_cons hid
    exact (MarketKept.composes id').trans (hkept id' hne') (h.kept id' hnot')

end Gathered

/-- The walk along the withdraw queue, from a well-formed state where every market of the queue
is ready, with a core contract balance that covers the queue's liquidity, and a vault holding
that may receive the asset: it fails only by overflow, and otherwise gathers what the queue can
give (`Gathered`). -/
theorem withdrawFromMarkets_wp {vault asset : Address} {queue : List MarketId}
    {remaining : UInt256} (hs : s.WellFormed) (hnodup : queue.Nodup)
    (hready : ∀ id ∈ queue, s.MarketReady vault asset id)
    (hpool : (queue.map s.liquidityOf).sum ≤ (s.balanceOf s.registry.morpho asset).toNat)
    (hreceive : (s.holding vault asset).canReceive = true) :
    wp (withdrawFromMarkets vault queue remaining)
      (fun r s' => Gathered vault asset queue remaining.toNat r.toNat s s') Fault.IsOverflow s := by
  induction queue generalizing remaining s with
  | nil => exact Gathered.idle' (.inr rfl)
  | cons id rest ih =>
    obtain ⟨hnot, hnodup⟩ := List.nodup_cons.mp hnodup
    have hne : ∀ id' ∈ rest, id' ≠ id := fun id' hid heq => hnot (heq ▸ hid)
    rw [List.map_cons, List.sum_cons] at hpool
    rw [withdrawFromMarkets]
    by_cases hzero : remaining.isZero = true
    · rw [if_pos hzero]
      exact Gathered.idle' (.inl (by simpa [UInt256.isZero] using hzero))
    rw [if_neg hzero, wp_bind]
    obtain ⟨m, hm, hclock, hloan, hheld⟩ := hready id List.mem_cons_self
    refine wp_mono (fun d s₁ hd => ?_) (fun _ he => he) (suppliedAssets_current hs hm hclock .down)
    obtain ⟨hs₁, hd⟩ := hd
    rw [hs₁, wp_read, wp_bind, State.getMarket_of_get? hm, wp_of_eq_ok rfl]
    dsimp only
    have htake : (min (min d m.liquidity) remaining).toNat =
        min (s.withdrawable vault id) remaining.toNat := by
      rw [UInt256.toNat_min, UInt256.toNat_min, Market.toSupplyAssets_toNat hd]
      unfold State.withdrawable
      rw [State.supplied_of_get? hm, State.liquidityOf_of_get? hm]
      rfl
    by_cases hnone : (min (min d m.liquidity) remaining).isZero = true
    · rw [if_pos hnone]
      have hrem : remaining.toNat ≠ 0 := by simpa [UInt256.isZero] using hzero
      have : (min (min d m.liquidity) remaining).toNat = 0 := by
        simpa [UInt256.isZero] using hnone
      refine wp_mono (fun r s' h => ?_) (fun _ he => he)
        (ih hs hnodup (fun id' hid => hready id' (List.mem_cons_of_mem id hid)) (by omega)
          hreceive)
      refine Gathered.cons hnot (show 0 = min (s.withdrawable vault id) remaining.toNat by omega)
        (fun id' _ => (MarketKept.composes id').refl s) rfl (fun _ _ => rfl) ?_
      rwa [Nat.sub_zero]
    rw [if_neg hnone, wp_discard]
    have hx : (min (min d m.liquidity) remaining).toNat ≠ 0 := by
      simpa [UInt256.isZero] using hnone
    have hcan : min (s.withdrawable vault id) remaining.toNat ≤ s.withdrawable vault id :=
      min_le_left _ _
    have hworth : min (s.withdrawable vault id) remaining.toNat ≤ s.supplied vault id .down :=
      hcan.trans (min_le_left _ _)
    have hliquid : min (s.withdrawable vault id) remaining.toNat ≤ s.liquidityOf id :=
      hcan.trans (min_le_right _ _)
    refine wp_mono (fun _ s₂ hw => ?_) (fun _ he => he)
      (vaultWithdraw_wp hs (hready id List.mem_cons_self) hx (by rw [htake]; exact hworth)
        (by rw [htake]; exact hliquid) (by rw [htake]; omega) hreceive)
    have hpool₂ : (rest.map s₂.liquidityOf).sum ≤
        (s₂.balanceOf s₂.registry.morpho asset).toNat := by
      have hsame : (rest.map s₂.liquidityOf).sum = (rest.map s.liquidityOf).sum := by
        congr 1
        exact List.map_congr_left fun id' hid => (hw.kept id' (hne id' hid)).liquidityOf
      have := hw.covered s.registry.morpho asset
      rw [hsame, hw.registry]
      rw [htake] at this
      omega
    refine wp_mono (fun r s' h => ?_) (fun _ he => he) (ih hw.wellFormed hnodup
      (fun id' hid => (hw.kept id' (hne id' hid)).ready (hready id' (List.mem_cons_of_mem id hid)))
      hpool₂ (by rw [canReceive_of_flagsKept hw.flags]; exact hreceive))
    rw [UInt256.toNat_zeroFloorSub, htake] at h
    exact Gathered.cons hnot rfl hw.kept hw.registry
      (fun hmorpho hzero => by rw [← htake]; exact hw.idle hmorpho hzero) h

/-- A vault's withdrawal falls short only for lack of liquidity: from a state where the withdraw
queue is ready and distinct and the core contract holds its liquidity, gathering `assets` fails
only by overflow or because the idle balance and what the queue can give fall short, by exactly
what it reports, and otherwise leaves the vault the larger of its idle balance and `assets`. -/
theorem withdrawal_fails_only_for_liquidity (hs : s.WellFormed) {vault asset : Address}
    {queue : List MarketId} (hnodup : queue.Nodup)
    (hready : ∀ id ∈ queue, s.MarketReady vault asset id)
    (hpool : (queue.map s.liquidityOf).sum ≤ (s.balanceOf s.registry.morpho asset).toNat)
    (hreceive : (s.holding vault asset).canReceive = true)
    (hmorpho : vault ≠ s.registry.morpho) (hzero : vault ≠ .zero) (assets : UInt256) :
    wp (gatherWithdrawal vault asset queue assets)
      (fun _ s' => assets.toNat ≤
          (s.balanceOf vault asset).toNat + (queue.map (s.withdrawable vault)).sum ∧
        (s'.balanceOf vault asset).toNat = max (s.balanceOf vault asset).toNat assets.toNat)
      (fun e => e.IsOverflow ∨ ∃ r : UInt256, e = .vault (.notEnoughLiquidity vault r) ∧
        (s.balanceOf vault asset).toNat + (queue.map (s.withdrawable vault)).sum < assets.toNat ∧
        r.toNat + (s.balanceOf vault asset).toNat + (queue.map (s.withdrawable vault)).sum =
          assets.toNat) s := by
  unfold gatherWithdrawal
  rw [wp_read]
  dsimp only
  rw [wp_bind]
  refine wp_mono (fun r s' hgathered => ?_) (fun _ he => .inl he)
    (withdrawFromMarkets_wp hs hnodup hready hpool hreceive)
  obtain ⟨hreturned, hidle, -⟩ := hgathered
  have hidle := hidle hmorpho hzero
  rw [UInt256.toNat_zeroFloorSub] at hreturned hidle
  by_cases hnone : r.isZero = true
  · have hr : r.toNat = 0 := by simpa [UInt256.isZero] using hnone
    rw [if_neg (by simp [hnone]), wp_pure]
    exact ⟨by omega, by omega⟩
  · have hr : r.toNat ≠ 0 := by simpa [UInt256.isZero] using hnone
    rw [if_pos (by simpa using hnone), wp_throw]
    exact .inr ⟨r, rfl, by omega, by omega⟩

namespace Sample

/-- The sample vault with a hundred more on its market. -/
def supplyingVault : Vault :=
  { vaultRecord with totalSupply := 150, totalAssets := 150, lastTotalAssets := 150 }

/-- The sample vault with a hundred more on its market, all of the market's supply, which the
core contract holds; the user holds all hundred and fifty of the vault's shares. -/
def supplyingState : State :=
  ((((state.putMarket { market with totalSupplyAssets := 100, totalSupplyShares := 100000000 })
    |>.putVault supplyingVault)
    |>.putPosition { Position.empty vault market.id with supplyShares := 100000000 })
    |>.putHolding { Holding.empty state.registry.morpho asset with balance := 100 })
    |>.putHolding { Holding.empty user vault with balance := 150 }

theorem supplyingState_wellFormed : supplyingState.WellFormed :=
  ((((state_wellFormed.putMarket _).putVault _).putPosition _).putHolding _).putHolding _

theorem supplyingState_market_ready : supplyingState.MarketReady vault asset market.id := by
  obtain ⟨hm, hheld⟩ : supplyingState.markets.get? market.id =
        some { market with totalSupplyAssets := 100, totalSupplyShares := 100000000 } ∧
      (supplyingState.position vault market.id).supplyShares.toNat ≤ 100000000 := by
    decide +kernel
  exact ⟨_, hm, rfl, rfl, hheld⟩

end Sample

open Sample in
/-- The sample vault gathering a hundred and twenty with fifty idle: the rest comes from its
market, and the vault ends holding the hundred and twenty. -/
theorem withdrawal_fails_only_for_liquidity_sample :
    (supplyingState.balanceOf vault asset).toNat = 50 ∧
      ∃ s', gatherWithdrawal vault asset [market.id] 120 supplyingState = .ok ((), s') ∧
        120 ≤ (supplyingState.balanceOf vault asset).toNat +
          ([market.id].map (supplyingState.withdrawable vault)).sum ∧
        (s'.balanceOf vault asset).toNat =
          max (supplyingState.balanceOf vault asset).toNat 120 := by
  obtain ⟨hok, hidle, hpool, hreceive⟩ :
      (gatherWithdrawal vault asset [market.id] 120 supplyingState).isOk = true ∧
      (supplyingState.balanceOf vault asset).toNat = 50 ∧
      ([market.id].map supplyingState.liquidityOf).sum ≤
        (supplyingState.balanceOf supplyingState.registry.morpho asset).toNat ∧
      (supplyingState.holding vault asset).canReceive = true := by
    decide +kernel
  obtain ⟨⟨⟨⟩, s'⟩, h⟩ := Except.exists_eq_ok hok
  have hready : ∀ id ∈ [market.id], supplyingState.MarketReady vault asset id := by
    intro id hid
    rw [List.mem_singleton.mp hid]
    exact supplyingState_market_ready
  exact ⟨hidle, s', h, (wp_of_eq_ok h).mp (withdrawal_fails_only_for_liquidity
    supplyingState_wellFormed (List.nodup_singleton _) hready hpool hreceive (by decide)
    (by decide) 120)⟩

namespace Sample

/-- The sample market with a hundred assets supplied for no shares issued, the vault holding a
million of its supply shares, and the core contract holding the hundred. -/
def inflatedState : State :=
  (((State.new .ethereum ⟨0, 0⟩ state.registry).putMarket
    { market with totalSupplyAssets := 100 }).putPosition
    { Position.empty vault market.id with supplyShares := 1000000 }).putHolding
    { Holding.empty state.registry.morpho asset with balance := 100 }

/-- The sample market with a thousand assets supplied, all of them for the zero address as a
vault, which also holds ten idle, and the core contract holding the thousand. -/
def zeroVaultState : State :=
  ((((State.new .ethereum ⟨0, 0⟩ state.registry).putMarket
    { market with totalSupplyAssets := 1000, totalSupplyShares := 1000000000 }).putPosition
    { Position.empty .zero market.id with supplyShares := 1000000000 }).putHolding
    { Holding.empty state.registry.morpho asset with balance := 1000 }).putHolding
    { Holding.empty .zero asset with balance := 10 }

end Sample

open Sample in
/-- A vault holding more supply shares than its market has issued, asked for one asset more than
its supply and the market's liquidity give, fails in the market, for lack of liquidity there,
and not for lack of liquidity in the vault. -/
theorem withdrawal_beyond_issued_shares_fails :
    gatherWithdrawal vault asset [market.id] 101 inflatedState =
      .error (.market (.insufficientLiquidity market.id)) :=
  eq_market_error_of_check (by decide +kernel)

open Sample in
/-- The zero address as a vault gathers what it lacks, but the withdrawals to it burn the
assets: it ends with the ten it held, not the five hundred asked for. -/
theorem withdrawal_to_zero_address_burns :
    ∃ s', gatherWithdrawal .zero asset [market.id] 500 zeroVaultState = .ok ((), s') ∧
      (s'.balanceOf .zero asset).toNat = 10 := by
  obtain ⟨⟨⟩, s', h, hcheck⟩ := exists_eq_ok_of_check
    (x := gatherWithdrawal .zero asset [market.id] 500) (s := zeroVaultState)
    (fun _ s' => (s'.balanceOf .zero asset).toNat == 10) (by decide +kernel)
  exact ⟨s', h, beq_iff_eq.mp hcheck⟩

end LendingSim
