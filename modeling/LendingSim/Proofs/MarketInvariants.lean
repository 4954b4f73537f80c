import Mathlib
import LendingSim.Proofs.Market
import LendingSim.Proofs.Writes

/-!
# Invariants of market totals

A market's totals move in five ways: an accrual adds the interest to both asset totals and the
fee shares to the supply shares, and the four operations move one side by a flow priced in the
pool's favour, the two that take assets out having passed the liquidity check. `Market.Step`
lists these, and every write of a handler leaves each market as it was or one step on from it
(`Write.marketsStep`).

Two facts follow for every successful run of any tree of actions. Borrowed assets never exceed
supplied assets, when that holds at the start (`totalBorrow_le_totalSupply`). And the supply
share price, `(totalSupplyAssets + 1) / (totalSupplyShares + 10 ^ 6)` compared as a fraction,
never falls, when no market's fee exceeds one (`supplySharePrice_monotone`): each flow is
rounded against the one who moves it, and the fee shares of an accrual are priced after the
interest less the fee, so they never take more than the fee.
-/

namespace LendingSim

open Sim Perform Shares

namespace Market

variable {m m' m'' : Market}

/-- One step of a market's totals. -/
inductive Step : Market → Market → Prop
  | accrue {m m' : Market} {t : Nat} {accrual : Accrual}
      (h : (Market.accrue t).apply m = .ok (accrual, m')) : Step m m'
  | supply {m m' : Market} {assets shares : UInt256} {flow : Flow}
      (h : (Market.supply assets shares).apply m = .ok (flow, m')) : Step m m'
  | withdraw {m m' : Market} {assets shares : UInt256} {flow : Flow}
      (h : (Market.withdraw assets shares).apply m = .ok (flow, m'))
      (hliquid : m'.hasEnoughLiquidity = true) : Step m m'
  | borrow {m m' : Market} {assets shares : UInt256} {flow : Flow}
      (h : (Market.borrow assets shares).apply m = .ok (flow, m'))
      (hliquid : m'.hasEnoughLiquidity = true) : Step m m'
  | repay {m m' : Market} {assets shares : UInt256} {flow : Flow}
      (h : (Market.repay assets shares).apply m = .ok (flow, m')) : Step m m'

/-- A step keeps the market's parameters, hence its id, and its fee. -/
theorem Step.params_fee (h : Step m m') : m'.params = m.params ∧ m'.fee = m.fee := by
  cases h with
  | accrue h => exact ⟨(accrue_inv h).params, (accrue_inv h).fee⟩
  | supply h =>
    obtain ⟨tsa, tss, rfl, -⟩ := supply_inv h
    exact ⟨rfl, rfl⟩
  | withdraw h =>
    obtain ⟨tsa, tss, rfl, -⟩ := withdraw_inv h
    exact ⟨rfl, rfl⟩
  | borrow h =>
    obtain ⟨tba, tbs, rfl, -⟩ := borrow_inv h
    exact ⟨rfl, rfl⟩
  | repay h =>
    obtain ⟨tbs, rfl, -⟩ := repay_inv h
    exact ⟨rfl, rfl⟩

/-! ## Supplied assets cover borrowed assets -/

/-- Borrowed assets are covered by supplied assets. -/
def Covered (m : Market) : Prop := m.totalBorrowAssets.toNat ≤ m.totalSupplyAssets.toNat

theorem covered_of_hasEnoughLiquidity (h : m.hasEnoughLiquidity = true) : m.Covered :=
  (of_decide_eq_true h : m.totalBorrowAssets ≤ m.totalSupplyAssets)

/-- Accrual adds the same interest to both totals; supplying raises the supplied total;
repaying lowers the borrowed total; withdrawing and borrowing are checked. -/
theorem Step.covered (h : Step m m') (hm : m.Covered) : m'.Covered := by
  unfold Covered at hm
  cases h with
  | accrue h =>
    have hacc := accrue_inv h
    unfold Covered
    rw [hacc.totalBorrowAssets, hacc.totalSupplyAssets]
    omega
  | supply h =>
    obtain ⟨tsa, tss, rfl, htsa, -⟩ := supply_inv h
    show m.totalBorrowAssets.toNat ≤ tsa.toNat
    omega
  | withdraw _ hliquid => exact covered_of_hasEnoughLiquidity hliquid
  | borrow _ hliquid => exact covered_of_hasEnoughLiquidity hliquid
  | repay h =>
    obtain ⟨tbs, rfl, -⟩ := repay_inv h
    show m.totalBorrowAssets.toNat - _ ≤ m.totalSupplyAssets.toNat
    omega

/-! ## The supply share price never falls -/

/-- The supply share price of `m'` is at least that of `m`: `(assets + 1) / (shares + 10 ^ 6)`,
cross-multiplied. -/
def SupplyPriceLE (m m' : Market) : Prop :=
  (m.totalSupplyAssets.toNat + 1) * (m'.totalSupplyShares.toNat + marketVirtualShares.toNat) ≤
    (m'.totalSupplyAssets.toNat + 1) * (m.totalSupplyShares.toNat + marketVirtualShares.toNat)

theorem SupplyPriceLE.refl (m : Market) : SupplyPriceLE m m := le_refl _

theorem SupplyPriceLE.trans (h₁ : SupplyPriceLE m m') (h₂ : SupplyPriceLE m' m'') :
    SupplyPriceLE m m'' := by
  unfold SupplyPriceLE at *
  have hpos : 0 < m'.totalSupplyShares.toNat + marketVirtualShares.toNat :=
    Nat.add_pos_right _ (by decide)
  refine Nat.le_of_mul_le_mul_right ?_ hpos
  nlinarith [Nat.mul_le_mul_right (m''.totalSupplyShares.toNat + marketVirtualShares.toNat) h₁,
    Nat.mul_le_mul_right (m.totalSupplyShares.toNat + marketVirtualShares.toNat) h₂]

/-- A fee of at most one takes at most the whole interest. -/
theorem wadMul_down_le {x y q : UInt256} (h : UInt256.wadMul x y .down = .ok q)
    (hy : y.toNat ≤ UInt256.wad.toNat) : q.toNat ≤ x.toNat := by
  have hdown : UInt256.mulDivDown x y UInt256.wad = .ok q := h
  have hq := UInt256.mulDivDown_mul_le hdown
  have hwad : 0 < UInt256.wad.toNat := by decide
  exact Nat.le_of_mul_le_mul_right (le_trans hq (Nat.mul_le_mul_left _ hy)) hwad

/-- The fee shares of an accrual are priced against the supplied assets after the interest less
the fee, so with a fee of at most one they are worth no more than the interest. -/
theorem Accrued.supplyPriceLE {accrual : Accrual} (h : Accrued m accrual m')
    (hfee : m.fee.toNat ≤ UInt256.wad.toNat) : SupplyPriceLE m m' := by
  unfold SupplyPriceLE
  rw [h.totalSupplyAssets, h.totalSupplyShares]
  have key : (m.totalSupplyAssets.toNat + 1) * accrual.feeShares.toNat ≤
      accrual.interest.toNat * (m.totalSupplyShares.toNat + marketVirtualShares.toNat) := by
    rcases h.feeShares with hzero | ⟨feeAmount, before, hamount, hbefore, hshares⟩
    · rw [hzero, show (0 : UInt256).toNat = 0 from rfl, Nat.mul_zero]
      exact Nat.zero_le _
    · have hle := wadMul_down_le hamount hfee
      have hround := toShares_down_mul_le hshares
      rw [h.totalSupplyAssets] at hbefore
      calc (m.totalSupplyAssets.toNat + 1) * accrual.feeShares.toNat
          ≤ (before.toNat + 1) * accrual.feeShares.toNat :=
            Nat.mul_le_mul_right _ (by omega)
        _ ≤ feeAmount.toNat * (m.totalSupplyShares.toNat + marketVirtualShares.toNat) := by
            rw [Nat.mul_comm]; exact hround
        _ ≤ accrual.interest.toNat * (m.totalSupplyShares.toNat + marketVirtualShares.toNat) :=
            Nat.mul_le_mul_right _ hle
  nlinarith [key]

variable {assets shares : UInt256} {flow : Flow}

/-- Supplying prices the shares down: the new shares are worth no more than the assets. -/
theorem supplyPriceLE_of_supply (h : (Market.supply assets shares).apply m = .ok (flow, m')) :
    SupplyPriceLE m m' := by
  obtain ⟨tsa, tss, rfl, htsa, htss, hround⟩ := supply_inv h
  unfold SupplyPriceLE
  show _ * (tss.toNat + _) ≤ (tsa.toNat + 1) * _
  rw [htsa, htss]
  nlinarith [hround]

/-- Withdrawing prices the assets down: the assets paid are worth no more than the shares. -/
theorem supplyPriceLE_of_withdraw (h : (Market.withdraw assets shares).apply m = .ok (flow, m')) :
    SupplyPriceLE m m' := by
  obtain ⟨tsa, tss, rfl, htsa, hle_a, htss, hle_s, hround⟩ := withdraw_inv h
  unfold SupplyPriceLE
  show _ * (tss.toNat + _) ≤ (tsa.toNat + 1) * _
  have ha : m.totalSupplyAssets.toNat = tsa.toNat + flow.assets.toNat := by omega
  have hs : m.totalSupplyShares.toNat = tss.toNat + flow.shares.toNat := by omega
  rw [ha, hs] at hround ⊢
  nlinarith [hround]

/-- Every step keeps the supply share price from falling, an accrual provided the fee is at most
one; borrowing and repaying leave the supply side alone. -/
theorem Step.supplyPriceLE (h : Step m m') (hfee : m.fee.toNat ≤ UInt256.wad.toNat) :
    SupplyPriceLE m m' := by
  cases h with
  | accrue h => exact (accrue_inv h).supplyPriceLE hfee
  | supply h => exact supplyPriceLE_of_supply h
  | withdraw h _ => exact supplyPriceLE_of_withdraw h
  | borrow h =>
    obtain ⟨tba, tbs, rfl, -⟩ := borrow_inv h
    exact SupplyPriceLE.refl m
  | repay h =>
    obtain ⟨tbs, rfl, -⟩ := repay_inv h
    exact SupplyPriceLE.refl m

end Market

/-! ## Every market of a state -/

namespace State

variable {A : Address → Prop} {s s' s'' : State}

/-- Every market of `s'` is the market of `s` at its id, or one step on from it. -/
def MarketsStep (s s' : State) : Prop :=
  ∀ id, s'.markets.get? id = s.markets.get? id ∨
    ∃ m m', s.markets.get? id = some m ∧ Market.Step m m' ∧ s'.markets.get? id = some m'

/-- Storing the market one step on from the one a well-formed state files at `id`. -/
theorem marketsStep_putMarket {id : MarketId} {m m' : Market} (hs : s.WellFormed)
    (hm : s.markets.get? id = some m) (hstep : Market.Step m m') (s₁ : State)
    (hbook : s₁.markets = s.markets) : MarketsStep s (s₁.putMarket m') := by
  have hid : m'.id = id := by
    rw [← hs.market_id hm]
    exact congrArg MarketParams.id hstep.params_fee.1
  intro id'
  rw [markets_putMarket, hbook]
  split
  · next heq =>
    subst heq
    exact .inr ⟨m, m', hid ▸ hm, hstep, rfl⟩
  · exact .inl rfl

/-- Borrowed assets are covered by supplied assets on every market. -/
def Covered (s : State) : Prop := ∀ id m, s.markets.get? id = some m → m.Covered

/-- No market's fee exceeds one. -/
def FeesBounded (s : State) : Prop :=
  ∀ id m, s.markets.get? id = some m → m.fee.toNat ≤ UInt256.wad.toNat

/-- Every market of `s` is still in `s'`, with a supply share price no lower. -/
def SupplyPricesRise (s s' : State) : Prop :=
  ∀ id m, s.markets.get? id = some m → ∃ m', s'.markets.get? id = some m' ∧ m.SupplyPriceLE m'

theorem SupplyPricesRise.trans (h₁ : s.SupplyPricesRise s') (h₂ : s'.SupplyPricesRise s'') :
    s.SupplyPricesRise s'' := by
  intro id m hm
  obtain ⟨m', hm', hle₁⟩ := h₁ id m hm
  obtain ⟨m'', hm'', hle₂⟩ := h₂ id m' hm'
  exact ⟨m'', hm'', hle₁.trans hle₂⟩

theorem MarketsStep.covered (h : s.MarketsStep s') (hc : s.Covered) : s'.Covered := by
  intro id m' hm'
  rcases h id with heq | ⟨m, m'', hm, hstep, hm''⟩
  · exact hc id m' (heq ▸ hm')
  · rw [hm''] at hm'
    cases hm'
    exact hstep.covered (hc id m hm)

theorem MarketsStep.feesBounded (h : s.MarketsStep s') (hf : s.FeesBounded) : s'.FeesBounded := by
  intro id m' hm'
  rcases h id with heq | ⟨m, m'', hm, hstep, hm''⟩
  · exact hf id m' (heq ▸ hm')
  · rw [hm''] at hm'
    cases hm'
    rw [hstep.params_fee.2]
    exact hf id m hm

theorem MarketsStep.supplyPricesRise (h : s.MarketsStep s') (hf : s.FeesBounded) :
    s.SupplyPricesRise s' := by
  intro id m hm
  rcases h id with heq | ⟨m₀, m', hm₀, hstep, hm'⟩
  · exact ⟨m, heq.trans hm, .refl m⟩
  · rw [hm] at hm₀
    cases hm₀
    exact ⟨m', hm', hstep.supplyPriceLE (hf id m hm)⟩

end State

/-- Every write leaves each market as it was or moves it one step. -/
theorem Write.marketsStep {B : Bounds} {s s' : State} (hw : Write B s s')
    (hs : s.WellFormed) : s.MarketsStep s' := by
  cases hw with
  | accrue h =>
    obtain ⟨m, accrual, s₁, hm, hacc, hfee, rfl⟩ := accrueMarket_inv h
    have hbook : s₁.markets = s.markets := by
      rcases hfee with ⟨-, rfl⟩ | ⟨_, -, rfl⟩ <;> rfl
    exact State.marketsStep_putMarket hs hm (.accrue hacc) s₁ hbook
  | supply hm hop _ => exact State.marketsStep_putMarket hs hm (.supply hop) _ rfl
  | withdraw _ _ hm hop hliquid _ =>
    exact State.marketsStep_putMarket hs hm (.withdraw hop hliquid) _ rfl
  | borrow _ _ hm hop hliquid _ =>
    exact State.marketsStep_putMarket hs hm (.borrow hop hliquid) _ rfl
  | repay hm hop _ => exact State.marketsStep_putMarket hs hm (.repay hop) _ rfl
  | holding | permit | routerPermit | vaultUser | vaultMarketConfig | vault | vaultV2
  | vaultV2Adapter | authorize | supplyCollateral | withdrawCollateral => exact fun _ => .inl rfl

/-! ## Over every run -/

/-- Covered markets stay covered through every write. -/
theorem covered_writeInvariant :
    WriteInvariant Bounds.all (fun s s' => s.Covered → s'.Covered) where
  composes := ⟨fun _ h => h, fun h₁₂ h₂₃ h => h₂₃ (h₁₂ h)⟩
  write hs hw := (hw.marketsStep hs).covered

/-- With fees of at most one, every write keeps them so and lets no supply share price fall. -/
theorem supplyPrice_writeInvariant :
    WriteInvariant Bounds.all
      (fun s s' => s.FeesBounded → s'.FeesBounded ∧ s.SupplyPricesRise s') where
  composes := ⟨fun _ hf => ⟨hf, fun _ m hm => ⟨m, hm, .refl m⟩⟩,
    fun h₁₂ h₂₃ hf => ⟨(h₂₃ (h₁₂ hf).1).1, (h₁₂ hf).2.trans (h₂₃ (h₁₂ hf).1).2⟩⟩
  write hs hw hf := ⟨(hw.marketsStep hs).feesBounded hf, (hw.marketsStep hs).supplyPricesRise hf⟩

/-! ## A lending run -/

namespace LendingRun

def loanToken : Address := ⟨0x200, by decide⟩

def collateralToken : Address := ⟨0x201, by decide⟩

/-- The user whose position others act on. -/
def owner : Address := ⟨0x202, by decide⟩

def lender : Address := ⟨0x203, by decide⟩

def morpho : Address := ⟨0x204, by decide⟩

/-- The core contract's fee recipient. -/
def treasury : Address := ⟨0x205, by decide⟩

/-- A market half borrowed, with a price, a rate model, a fee of a tenth and a year of interest
not yet accrued. -/
def market : Market :=
  { params := ⟨loanToken, collateralToken, ⟨0x206, by decide⟩, ⟨0x207, by decide⟩,
      800000000000000000⟩
    totalSupplyAssets := 1000000, totalSupplyShares := 1000000000000,
    totalBorrowAssets := 500000, totalBorrowShares := 500000000000,
    lastUpdate := 1668464000, fee := 100000000000000000,
    price := some 1000000000000000000000000000000000000, rateAtTarget := some 1268391679 }

def registry : Registry :=
  ⟨morpho, ⟨0x208, by decide⟩, ⟨0x209, by decide⟩, ⟨0x20a, by decide⟩, ⟨0x20b, by decide⟩, none⟩

/-- The owner and the lender share the market's supply and debt, each against a million of
collateral; the core contract holds the market's liquidity and the collateral, and the lender
holds a million of the loan token, which the core contract may pull. -/
def state : State :=
  let books := ({ State.new .ethereum ⟨18580000, 1700000000⟩ registry with
    feeRecipient := treasury }).putMarket market
  let positions := [(owner, 400000000000, 200000000000), (lender, 600000000000, 300000000000)].foldl
    (fun s (user, supplyShares, borrowShares) => s.putPosition
      { Position.empty user market.id with supplyShares, borrowShares, collateral := 1000000 })
    books
  ((positions.putHolding { Holding.empty morpho loanToken with balance := 500000 }).putHolding
    { Holding.empty morpho collateralToken with balance := 2000000 }).putHolding
    { Holding.empty lender loanToken with
        balance := 1000000, allowances := { Allowances.zero with morpho := UInt256.maxValue } }

def request (assets : UInt256) (onBehalf : Address) : MarketRequest :=
  ⟨market.id, Int256.ofBits assets, Int256.ofBits 0, onBehalf, none, none⟩

/-- The lender supplies, borrows and withdraws for itself, then repays and supplies for the
owner. -/
def actions : List Action :=
  [.mk lender morpho (.supply (request 100000 lender) none),
   .mk lender morpho (.borrow (request 50000 lender) none),
   .mk lender morpho (.withdraw (request 20000 lender) none),
   .mk lender morpho (.repay (request 10000 owner) none),
   .mk lender morpho (.supply (request 30000 owner) none)]

theorem state_wellFormed : state.WellFormed := by
  have h := State.new_wellFormed .ethereum ⟨18580000, 1700000000⟩ registry
  have hfee : ({ State.new .ethereum ⟨18580000, 1700000000⟩ registry with
      feeRecipient := treasury } : State).WellFormed :=
    ⟨h.markets, h.positions, h.tokens, h.holdings, h.users, h.vaults, h.vaultUsers,
      h.vaultMarketConfigs, h.vaultV2s, h.vaultV2Adapters⟩
  exact (((((hfee.putMarket _).putPosition _).putPosition _).putHolding _).putHolding _).putHolding _

theorem state_market {id : MarketId} {m : Market} (h : state.markets.get? id = some m) :
    m = market := by
  change (Book.empty.insert market.id market).get? id = some m at h
  rw [Book.get?_insert] at h
  split at h
  · exact (Option.some.inj h).symm
  · cases h

theorem state_covered : state.Covered := by
  intro id m hm
  rw [state_market hm]
  unfold Market.Covered
  decide

theorem state_feesBounded : state.FeesBounded := by
  intro id m hm
  rw [state_market hm]
  decide

/-- The run succeeds: the interest mints fee shares to the treasury, and the owner's position
gains supply shares and sheds borrow shares. -/
theorem run_ok : ∃ s', runActions 0 actions state = .ok s' ∧
    (state.position treasury market.id).supplyShares.toNat <
      (s'.position treasury market.id).supplyShares.toNat ∧
    (state.position owner market.id).supplyShares.toNat <
      (s'.position owner market.id).supplyShares.toNat ∧
    (s'.position owner market.id).borrowShares.toNat <
      (state.position owner market.id).borrowShares.toNat := by
  obtain ⟨s', h, hcheck⟩ := Except.exists_eq_ok_of_check (x := runActions 0 actions state)
    (fun s' => decide ((state.position treasury market.id).supplyShares.toNat <
      (s'.position treasury market.id).supplyShares.toNat ∧
      (state.position owner market.id).supplyShares.toNat <
        (s'.position owner market.id).supplyShares.toNat ∧
      (s'.position owner market.id).borrowShares.toNat <
        (state.position owner market.id).borrowShares.toNat)) (by decide +kernel)
  exact ⟨s', h, of_decide_eq_true hcheck⟩

end LendingRun

/-- Borrowed assets never exceed supplied assets: if every market of a well-formed state has
`totalBorrowAssets ≤ totalSupplyAssets`, so does every market after any successful run of
actions, whatever their callbacks. -/
theorem totalBorrow_le_totalSupply {s s' : State} {index : Nat} {actions : List Action}
    (hs : s.WellFormed) (hcovered : s.Covered) (h : runActions index actions s = .ok s') :
    ∀ id m, s'.markets.get? id = some m → m.totalBorrowAssets.toNat ≤ m.totalSupplyAssets.toNat :=
  (covered_writeInvariant.treeInvariant.list actions (listEverywhere_of_forall (fun _ => trivial)
    actions) index s s' h hs).2 hcovered

open LendingRun in
/-- Supplying, borrowing, withdrawing and repaying on a half-borrowed market keeps it covered. -/
theorem totalBorrow_le_totalSupply_lending :
    state.WellFormed ∧ state.Covered ∧ ∃ s', runActions 0 actions state = .ok s' ∧
      ∀ id m, s'.markets.get? id = some m → m.totalBorrowAssets.toNat ≤ m.totalSupplyAssets.toNat := by
  obtain ⟨s', h, -⟩ := run_ok
  exact ⟨state_wellFormed, state_covered, s', h,
    totalBorrow_le_totalSupply state_wellFormed state_covered h⟩

/-- The supply share price of a market never falls: if no market of a well-formed state has a
fee above one, every market is still there after any successful run of actions, and
`(A' + 1) * (S + 10 ^ 6) ≥ (A + 1) * (S' + 10 ^ 6)` for its supplied assets and shares `A`, `S`
before and `A'`, `S'` after. -/
theorem supplySharePrice_monotone {s s' : State} {index : Nat} {actions : List Action}
    (hs : s.WellFormed) (hfees : s.FeesBounded) (h : runActions index actions s = .ok s') :
    ∀ id m, s.markets.get? id = some m → ∃ m', s'.markets.get? id = some m' ∧
      (m.totalSupplyAssets.toNat + 1) * (m'.totalSupplyShares.toNat + marketVirtualShares.toNat) ≤
        (m'.totalSupplyAssets.toNat + 1) * (m.totalSupplyShares.toNat + marketVirtualShares.toNat) :=
  ((supplyPrice_writeInvariant.treeInvariant.list actions
    (listEverywhere_of_forall (fun _ => trivial) actions) index s s' h hs).2 hfees).2

open LendingRun in
/-- The lending run, whose accrual mints fee shares to the treasury, lowers no supply share
price. -/
theorem supplySharePrice_monotone_lending :
    state.WellFormed ∧ state.FeesBounded ∧ ∃ s', runActions 0 actions state = .ok s' ∧
      (state.position treasury market.id).supplyShares.toNat <
        (s'.position treasury market.id).supplyShares.toNat ∧
      ∀ id m, state.markets.get? id = some m → ∃ m', s'.markets.get? id = some m' ∧
        (m.totalSupplyAssets.toNat + 1) * (m'.totalSupplyShares.toNat + marketVirtualShares.toNat) ≤
          (m'.totalSupplyAssets.toNat + 1) *
            (m.totalSupplyShares.toNat + marketVirtualShares.toNat) := by
  obtain ⟨s', h, hfee, -⟩ := run_ok
  exact ⟨state_wellFormed, state_feesBounded, s', h, hfee,
    supplySharePrice_monotone state_wellFormed state_feesBounded h⟩

end LendingSim
