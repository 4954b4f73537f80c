import Mathlib
import LendingSim.Proofs.Consent
import LendingSim.Proofs.MarketInvariants

/-!
# Custody: what an address holds against what it owes and lets others take

The custody of an address `X` in a token is its balance, less everything it lets others take of
the token (the allowances of the three named spenders and the two amounts of the permit router
on its holding, and what it lets vaults with that asset pull), less, when `X` is the core
contract, what the core contract owes in the token: the liquidity of the markets lending it and
the collateral of the positions on markets taking it. Custody never falls along a run of actions
none of which `X` sends, as long as `X` is no vault and no adapter, is not the general adapter
(unless it is the core contract itself) and has no unlimited allowance for the token
(`custody_monotone`).

Two facts follow. The core contract stays solvent: from a start where it holds at least what it
owes and lets nobody take anything, it holds at least what it owes after any run. And any other
address loses a token only against as much of its allowances for it.

Custody is kept by every step but the core contract's own: a movement lowers it only when its
sender takes from itself, a third party spends exactly as much allowance as it moves, and the
market operations commit their bookkeeping before the tokens move, so for the core contract the
commit and the movement balance out only together, with the callback in between.
-/

namespace LendingSim

open Sim Perform

theorem UInt256.zeroFloorSub_ne_maxValue {a : UInt256} (ha : a ≠ UInt256.maxValue)
    (b : UInt256) : a.zeroFloorSub b ≠ UInt256.maxValue := by
  intro h
  apply ha
  have hsub := congrArg UInt256.toNat h
  have hlt := a.isLt
  apply UInt256.ext
  simp only [UInt256.zeroFloorSub, UInt256.maxValue] at hsub ⊢
  omega

namespace Holding

/-- The allowances kept on a holding: those of the three named spenders and the two amounts of
the permit router. -/
def allowed (h : Holding) : Nat :=
  h.allowances.morpho.toNat + h.allowances.permit2.toNat + h.allowances.generalAdapter1.toNat +
    h.routerAllowances.morpho.amount.toNat + h.routerAllowances.generalAdapter1.amount.toNat

theorem allowed_setAllowance (h : Holding) (named : Spender) (amount : UInt256) :
    ({ h with allowances := h.allowances.set named amount } : Holding).allowed +
      (h.allowances.get named).toNat = h.allowed + amount.toNat := by
  cases named <;> simp only [allowed, Allowances.set, Allowances.get] <;> omega

theorem allowed_setRouter (h : Holding) (spender : RouterSpender) (a : RouterAllowance) :
    ({ h with routerAllowances := h.routerAllowances.set spender a } : Holding).allowed +
      (h.routerAllowances.get spender).amount.toNat = h.allowed + a.amount.toNat := by
  cases spender <;> simp only [allowed, RouterAllowances.set, RouterAllowances.get] <;> omega

end Holding

/-- The liquidity of a market, when it lends `token`. -/
def Market.lent (token : Address) (m : Market) : Nat :=
  if m.params.loanToken = token then m.liquidity.toNat else 0

namespace Market

variable {m m' : Market}

theorem liquidity_toNat (m : Market) :
    m.liquidity.toNat = m.totalSupplyAssets.toNat - m.totalBorrowAssets.toNat := rfl

/-- An accrual adds the same interest to both totals, so the market lends as much as before. -/
theorem lent_of_accrued {accrual : Accrual} (h : Accrued m accrual m') (T : Address) :
    m'.lent T = m.lent T := by
  unfold lent
  rw [h.params, liquidity_toNat, liquidity_toNat, h.totalSupplyAssets, h.totalBorrowAssets]
  split <;> omega

/-- Supplying lends at most the supplied assets more. -/
theorem lent_supply {assets shares : UInt256} {flow : Flow}
    (h : (supply assets shares).apply m = .ok (flow, m')) (T : Address) :
    (m'.lent T : Int) - m.lent T ≤ if m.params.loanToken = T then (flow.assets.toNat : Int) else 0 := by
  obtain ⟨tsa, tss, rfl, htsa, -⟩ := supply_inv h
  unfold lent
  rw [liquidity_toNat, liquidity_toNat]
  dsimp only
  split <;> omega

/-- Repaying lends at most the repaid assets more: the borrowed total is floored at zero. -/
theorem lent_repay {assets shares : UInt256} {flow : Flow}
    (h : (repay assets shares).apply m = .ok (flow, m')) (T : Address) :
    (m'.lent T : Int) - m.lent T ≤ if m.params.loanToken = T then (flow.assets.toNat : Int) else 0 := by
  obtain ⟨tbs, rfl, -⟩ := repay_inv h
  unfold lent
  rw [liquidity_toNat, liquidity_toNat]
  dsimp only
  rw [UInt256.toNat_zeroFloorSub]
  split <;> omega

/-- Withdrawing, with enough liquidity left, lends exactly the withdrawn assets less. -/
theorem lent_withdraw {assets shares : UInt256} {flow : Flow}
    (h : (withdraw assets shares).apply m = .ok (flow, m')) (hliquid : m'.hasEnoughLiquidity = true)
    (T : Address) :
    (m'.lent T : Int) - m.lent T = -(if m.params.loanToken = T then (flow.assets.toNat : Int) else 0) := by
  have hcovered : m'.totalBorrowAssets.toNat ≤ m'.totalSupplyAssets.toNat :=
    of_decide_eq_true hliquid
  obtain ⟨tsa, tss, rfl, htsa, hle, -⟩ := withdraw_inv h
  unfold lent
  rw [liquidity_toNat, liquidity_toNat]
  dsimp only at hcovered ⊢
  split <;> omega

/-- Borrowing, with enough liquidity left, lends exactly the borrowed assets less. -/
theorem lent_borrow {assets shares : UInt256} {flow : Flow}
    (h : (borrow assets shares).apply m = .ok (flow, m')) (hliquid : m'.hasEnoughLiquidity = true)
    (T : Address) :
    (m'.lent T : Int) - m.lent T = -(if m.params.loanToken = T then (flow.assets.toNat : Int) else 0) := by
  have hcovered : m'.totalBorrowAssets.toNat ≤ m'.totalSupplyAssets.toNat :=
    of_decide_eq_true hliquid
  obtain ⟨tba, tbs, rfl, htba, -⟩ := borrow_inv h
  unfold lent
  rw [liquidity_toNat, liquidity_toNat]
  dsimp only at hcovered ⊢
  split <;> omega

end Market

namespace State

variable {s : State}

/-- The allowance of a vault user, when it is one of `owner` for a vault whose asset is
`token`. -/
def vaultAllowance (s : State) (owner token : Address) (u : VaultUser) : Nat :=
  if u.user = owner ∧ s.vaultAsset? u.vault = some token then u.allowance.toNat else 0

theorem vaultAllowance_new (owner token vault user : Address) :
    s.vaultAllowance owner token (VaultUser.new vault user) = 0 := by
  unfold vaultAllowance
  split <;> rfl

/-- What `owner` lets vaults whose asset is `token` pull from it. -/
def vaultAllowed (s : State) (owner token : Address) : Nat :=
  s.vaultUsers.sum (s.vaultAllowance owner token)

/-- Everything `owner` lets others take of `token`. -/
def allowanceOf (s : State) (owner token : Address) : Nat :=
  (s.holding owner token).allowed + s.vaultAllowed owner token

/-- The collateral of a position, when it is on a market of the state taking `token` as
collateral. -/
def pledged (s : State) (token : Address) (p : Position) : Nat :=
  if (s.markets.get? p.marketId).map (·.params.collateralToken) = some token then
    p.collateral.toNat
  else 0

theorem pledged_empty (token user : Address) (id : MarketId) :
    s.pledged token (Position.empty user id) = 0 := by
  unfold pledged
  split <;> rfl

/-- The core contract's debt in `token`: the liquidity of the markets lending it, and the
collateral of the positions on markets taking it as collateral. -/
def owed (s : State) (token : Address) : Nat :=
  s.markets.sum (Market.lent token) + s.positions.sum (s.pledged token)

/-- The custody of `X` in `token`: its balance, less what it lets others take, less the core
contract's debt when `X` is the core contract. -/
def custody (s : State) (X token : Address) : Int :=
  (s.balanceOf X token).toNat - s.allowanceOf X token -
    (if X = s.registry.morpho then s.owed token else 0)

/-- What keeps `X` from losing `token` behind its custody's back: it is no vault and no adapter,
the core contract pulls from it without an allowance only if it is the core contract, none of
its allowances for the token is unlimited, and as the permit router its router amounts are below
the unlimited one. -/
structure Custodian (s : State) (X token : Address) : Prop where
  nonzero : X ≠ .zero
  noVault : s.vaults.get? X = none
  noVaultV2 : s.vaultV2s.get? X = none
  noAdapter : s.vaultV2Adapters.get? X = none
  approves : X = s.registry.morpho ∨ X ≠ s.registry.generalAdapter1
  named : ∀ spender, (s.holding X token).allowances.get spender ≠ UInt256.maxValue
  router : X = s.registry.permit2 → ∀ spender,
    ((s.holding X token).routerAllowances.get spender).amount.toNat < maxRouterAmount.toNat
  vaults : ∀ v, s.vaultAsset? v = some token → (s.vaultUser v X).allowance ≠ UInt256.maxValue

/-- The core contract never pulls from a custodian without an allowance, but from itself. -/
theorem Custodian.not_approvesMorpho {X token : Address} (h : s.Custodian X token)
    (hX : X ≠ s.registry.morpho) : s.approvesMorpho X = false := by
  unfold approvesMorpho vaultAsset?
  rw [h.noVault, h.noVaultV2]
  simpa using h.approves.resolve_left hX

/-! ### What each write does to custody -/

variable {X T : Address}

/-- Custody reads the holding of `X` in `T`, what `X` lets vaults pull, the registry and the
debt, and nothing else. -/
theorem custody_congr {s' : State} (hholding : s'.holding X T = s.holding X T)
    (hvaults : s'.vaultAllowed X T = s.vaultAllowed X T) (hregistry : s'.registry = s.registry)
    (howed : s'.owed T = s.owed T) : s'.custody X T = s.custody X T := by
  unfold custody allowanceOf balanceOf
  rw [hholding, hvaults, hregistry, howed]

/-- Putting back a holding other than that of `X` in `T` leaves its custody alone. -/
theorem custody_putHolding_of_ne (h : Holding) (hne : (X, T) ≠ (h.user, h.token)) :
    (s.putHolding h).custody X T = s.custody X T :=
  custody_congr (by rw [holding_putHolding, if_neg hne]) rfl rfl rfl

/-- Putting back the holding of `X` in `T` moves its custody by what the balance less the
allowances kept on the holding gains. -/
theorem custody_putHolding_self (h : Holding) (hkey : (X, T) = (h.user, h.token)) :
    (s.putHolding h).custody X T + ((s.balanceOf X T).toNat - (s.holding X T).allowed) =
      s.custody X T + (h.balance.toNat - h.allowed) := by
  unfold custody allowanceOf balanceOf
  rw [holding_putHolding, if_pos hkey]
  have hvaults : (s.putHolding h).vaultAllowed X T = s.vaultAllowed X T := rfl
  have howed : (s.putHolding h).owed T = s.owed T := rfl
  rw [hvaults, howed, show (s.putHolding h).registry = s.registry from rfl]
  omega

/-- Putting back a vault user moves what its user lets vaults with that asset pull by what its
allowance gains. -/
theorem vaultAllowed_putVaultUser (hs : s.WellFormed) (u : VaultUser) :
    (s.putVaultUser u).vaultAllowed X T + s.vaultAllowance X T (s.vaultUser u.vault u.user) =
      s.vaultAllowed X T + s.vaultAllowance X T u := by
  have hsum := Book.sum_insert hs.vaultUsers.1 (u.vault, u.user) u (s.vaultAllowance X T)
  rw [Book.elim_get? (vaultAllowance_new X T u.vault u.user)] at hsum
  exact hsum

/-- Putting back a vault user moves custody by what the allowance loses, when it is one of `X`
for a vault whose asset is `T`. -/
theorem custody_putVaultUser (hs : s.WellFormed) (u : VaultUser) :
    (s.putVaultUser u).custody X T + s.vaultAllowance X T u =
      s.custody X T + s.vaultAllowance X T (s.vaultUser u.vault u.user) := by
  have hvaults := vaultAllowed_putVaultUser (X := X) (T := T) hs u
  unfold custody allowanceOf
  have hholding : (s.putVaultUser u).holding X T = s.holding X T := rfl
  have howed : (s.putVaultUser u).owed T = s.owed T := rfl
  rw [hholding, howed, show (s.putVaultUser u).balanceOf X T = s.balanceOf X T from rfl,
    show (s.putVaultUser u).registry = s.registry from rfl]
  omega

/-- A vault stored back under its own address with its asset: vault assets do not change. -/
theorem vaultAsset?_putVault {v : Vault}
    (hv : (s.vaults.get? v.address).map Vault.asset = some v.asset) (address : Address) :
    (s.putVault v).vaultAsset? address = s.vaultAsset? address := by
  apply vaultAsset?_eq_of
  · intro a
    rw [vaults_putVault]
    split
    · next heq =>
      subst heq
      rw [hv, Option.map_some]
    · rfl
  · exact fun _ => rfl

theorem vaultAsset?_putVaultV2 {v : VaultV2}
    (hv : (s.vaultV2s.get? v.address).map VaultV2.asset = some v.asset) (address : Address) :
    (s.putVaultV2 v).vaultAsset? address = s.vaultAsset? address := by
  apply vaultAsset?_eq_of
  · exact fun _ => rfl
  · intro a
    rw [vaultV2s_putVaultV2]
    split
    · next heq =>
      subst heq
      rw [hv, Option.map_some]
    · rfl

/-- Storing a market read at its id again, with the same parameters, moves the debt by what
the market lends more. -/
theorem owed_putMarket (hs : s.WellFormed) {m m' : Market} (hm : s.markets.get? m'.id = some m)
    (hparams : m'.params = m.params) :
    (s.putMarket m').owed T + m.lent T = s.owed T + m'.lent T := by
  have hsum := Book.sum_insert hs.markets.1 m'.id m' (Market.lent T)
  rw [hm] at hsum
  have hpledged : (s.putMarket m').pledged T = s.pledged T := by
    funext p
    unfold pledged
    rw [markets_putMarket]
    split
    · next heq => rw [heq, hm, Option.map_some, Option.map_some, hparams]
    · rfl
  unfold owed
  rw [hpledged, show (s.putMarket m').markets = s.markets.insert m'.id m' from rfl,
    show (s.putMarket m').positions = s.positions from rfl]
  simp only [Option.elim] at hsum
  omega

/-- Putting back a position moves the debt by what it pledges more. -/
theorem owed_putPosition (hs : s.WellFormed) (p : Position) :
    (s.putPosition p).owed T + s.pledged T (s.position p.user p.marketId) =
      s.owed T + s.pledged T p := by
  have hsum := Book.sum_insert hs.positions.1 (p.user, p.marketId) p (s.pledged T)
  rw [Book.elim_get? (pledged_empty T p.user p.marketId)] at hsum
  unfold owed
  rw [show (s.putPosition p).pledged T = s.pledged T from rfl,
    show (s.putPosition p).markets = s.markets from rfl,
    show (s.putPosition p).positions = s.positions.insert (p.user, p.marketId) p from rfl]
  unfold position
  omega

/-! ### What each write does to a custodian -/

/-- Whether `X` is a custodian of `T` depends on the vault books at `X`, the registry, the
holding of `X` in `T`, the vault assets and the vault users of `X`. -/
theorem Custodian.congr {s' : State} (hc : s.Custodian X T) (hvaults : s'.vaults.get? X = none)
    (hvaultV2s : s'.vaultV2s.get? X = none) (hadapters : s'.vaultV2Adapters.get? X = none)
    (hregistry : s'.registry = s.registry) (hholding : s'.holding X T = s.holding X T)
    (hasset : ∀ v, s'.vaultAsset? v = s.vaultAsset? v)
    (husers : ∀ v, s'.vaultUser v X = s.vaultUser v X) : s'.Custodian X T where
  nonzero := hc.nonzero
  noVault := hvaults
  noVaultV2 := hvaultV2s
  noAdapter := hadapters
  approves := hregistry ▸ hc.approves
  named := hholding ▸ hc.named
  router hpermit spender := hholding ▸ hc.router (hregistry ▸ hpermit) spender
  vaults v hv := husers v ▸ hc.vaults v (hasset v ▸ hv)

theorem Custodian.putHolding (hc : s.Custodian X T) (h : Holding)
    (hnamed : (X, T) = (h.user, h.token) → ∀ spender, h.allowances.get spender ≠ UInt256.maxValue)
    (hrouter : (X, T) = (h.user, h.token) → X = s.registry.permit2 →
      ∀ spender, (h.routerAllowances.get spender).amount.toNat < maxRouterAmount.toNat) :
    (s.putHolding h).Custodian X T where
  nonzero := hc.nonzero
  noVault := hc.noVault
  noVaultV2 := hc.noVaultV2
  noAdapter := hc.noAdapter
  approves := hc.approves
  named spender := by
    rw [holding_putHolding]
    split
    · next hkey => exact hnamed hkey spender
    · exact hc.named spender
  router hpermit spender := by
    rw [holding_putHolding]
    split
    · next hkey => exact hrouter hkey hpermit spender
    · exact hc.router hpermit spender
  vaults := hc.vaults

/-- A holding put back under the key it was read at is that of `X` in `T` only if read there. -/
theorem holding_key_eq {owner token : Address} (hs : s.WellFormed) {h : Holding}
    (huser : h.user = (s.holding owner token).user) (htoken : h.token = (s.holding owner token).token)
    (hkey : (X, T) = (h.user, h.token)) : X = owner ∧ T = token := by
  rw [huser, htoken, (hs.holding_user owner token).1, (hs.holding_user owner token).2] at hkey
  exact Prod.mk.inj hkey

/-- A balance written leaves every allowance as it was. -/
theorem Custodian.setBalance (hc : s.Custodian X T) (hs : s.WellFormed) (user token : Address)
    (b : UInt256) : (s.putHolding { s.holding user token with balance := b }).Custodian X T := by
  apply hc.putHolding
  · intro hkey
    obtain ⟨rfl, rfl⟩ := holding_key_eq hs rfl rfl hkey
    exact hc.named
  · intro hkey
    obtain ⟨rfl, rfl⟩ := holding_key_eq hs rfl rfl hkey
    exact hc.router

theorem Custodian.putVaultUser (hc : s.Custodian X T) (u : VaultUser)
    (hu : u.user = X → s.vaultAsset? u.vault = some T → u.allowance ≠ UInt256.maxValue) :
    (s.putVaultUser u).Custodian X T where
  nonzero := hc.nonzero
  noVault := hc.noVault
  noVaultV2 := hc.noVaultV2
  noAdapter := hc.noAdapter
  approves := hc.approves
  named := hc.named
  router := hc.router
  vaults v hv := by
    rw [vaultUser_putVaultUser]
    split
    · next heq =>
      obtain ⟨rfl, rfl⟩ := Prod.mk.inj heq
      exact hu rfl hv
    · exact hc.vaults v hv

theorem Custodian.putMarket (hc : s.Custodian X T) (m : Market) : (s.putMarket m).Custodian X T :=
  hc.congr hc.noVault hc.noVaultV2 hc.noAdapter rfl rfl (fun _ => rfl) (fun _ => rfl)

theorem Custodian.putPosition (hc : s.Custodian X T) (p : Position) :
    (s.putPosition p).Custodian X T :=
  hc.congr hc.noVault hc.noVaultV2 hc.noAdapter rfl rfl (fun _ => rfl) (fun _ => rfl)

/-- What `X` lets vaults pull reads the vault users and the vault assets only. -/
theorem vaultAllowed_congr {s' : State} (hvaultUsers : s'.vaultUsers = s.vaultUsers)
    (hasset : ∀ v, s'.vaultAsset? v = s.vaultAsset? v) :
    s'.vaultAllowed X T = s.vaultAllowed X T := by
  have hallowance : s'.vaultAllowance X T = s.vaultAllowance X T := by
    funext u
    unfold vaultAllowance
    rw [hasset]
  unfold vaultAllowed
  rw [hvaultUsers, hallowance]

/-- The core contract's debt reads the markets and the positions only. -/
theorem owed_congr {s' : State} (hmarkets : s'.markets = s.markets)
    (hpositions : s'.positions = s.positions) : s'.owed T = s.owed T := by
  unfold owed pledged
  rw [hmarkets, hpositions]

/-- Storing a market read at its id again, with the same parameters, lowers the custody of the
core contract by what the market lends more. -/
theorem custody_putMarket (hs : s.WellFormed) {m m' : Market} (hm : s.markets.get? m'.id = some m)
    (hparams : m'.params = m.params) :
    (s.putMarket m').custody X T =
      s.custody X T - (if X = s.registry.morpho then (m'.lent T : Int) - m.lent T else 0) := by
  have howed := owed_putMarket (T := T) hs hm hparams
  unfold custody
  rw [show (s.putMarket m').balanceOf X T = s.balanceOf X T from rfl,
    show (s.putMarket m').allowanceOf X T = s.allowanceOf X T from rfl,
    show (s.putMarket m').registry = s.registry from rfl]
  split <;> omega

/-- Putting back a position lowers the custody of the core contract by what it pledges more. -/
theorem custody_putPosition (hs : s.WellFormed) (p : Position) :
    (s.putPosition p).custody X T = s.custody X T -
      (if X = s.registry.morpho then
        (s.pledged T p : Int) - s.pledged T (s.position p.user p.marketId) else 0) := by
  have howed := owed_putPosition (T := T) hs p
  unfold custody
  rw [show (s.putPosition p).balanceOf X T = s.balanceOf X T from rfl,
    show (s.putPosition p).allowanceOf X T = s.allowanceOf X T from rfl,
    show (s.putPosition p).registry = s.registry from rfl]
  split <;> omega

/-- A position put back with the collateral of the one it replaces pledges as much. -/
theorem pledged_of_collateral (hs : s.WellFormed) {user : Address} {id : MarketId} {p : Position}
    (hcollateral : p.collateral = (s.position user id).collateral)
    (hp : p.user = user ∧ p.marketId = id) :
    s.pledged T p = s.pledged T (s.position p.user p.marketId) := by
  rw [hp.1, hp.2]
  unfold pledged
  rw [hcollateral, hp.2, (hs.position_user user id).2]

/-- A position put back with the collateral of the one it replaces leaves every custody alone. -/
theorem custody_putPosition_of_collateral (hs : s.WellFormed) {user : Address} {id : MarketId}
    (p : Position) (hcollateral : p.collateral = (s.position user id).collateral)
    (hp : p.user = user ∧ p.marketId = id) :
    (s.putPosition p).custody X T = s.custody X T := by
  rw [custody_putPosition hs p, pledged_of_collateral hs hcollateral hp]
  split <;> omega

/-- A market stored again together with one position on it whose collateral stays moves the
custody of the core contract by what the market lends less. -/
theorem custody_commit (hs : s.WellFormed) {id : MarketId} {m m' : Market}
    (hm : s.markets.get? id = some m) (hparams : m'.params = m.params) {user : Address}
    (p : Position) (hcollateral : p.collateral = (s.position user id).collateral)
    (hp : p.user = user ∧ p.marketId = id) :
    ((s.putPosition p).putMarket m').custody X T =
      s.custody X T - (if X = s.registry.morpho then (m'.lent T : Int) - m.lent T else 0) := by
  have hmid : m'.id = id := by
    rw [← hs.market_id hm]
    exact congrArg MarketParams.id hparams
  have hm' : (s.putPosition p).markets.get? m'.id = some m := by
    rw [hmid]
    exact hm
  rw [custody_putMarket (hs.putPosition p) hm' hparams,
    custody_putPosition_of_collateral hs p hcollateral hp]
  rfl

/-- Putting back a position on a market of the state pledges more by what its collateral gains,
when the market takes `T` as collateral. -/
theorem pledged_sub (hs : s.WellFormed) {id : MarketId} {m : Market}
    (hm : s.markets.get? id = some m) (user : Address) (p : Position)
    (hp : p.user = user ∧ p.marketId = id) :
    (s.pledged T p : Int) - s.pledged T (s.position p.user p.marketId) =
      if m.params.collateralToken = T then
        (p.collateral.toNat : Int) - (s.position user id).collateral.toNat
      else 0 := by
  rw [hp.1, hp.2]
  unfold pledged
  rw [hp.2, (hs.position_user user id).2, hm, Option.map_some]
  by_cases htoken : m.params.collateralToken = T
  · rw [if_pos (congrArg some htoken), if_pos (congrArg some htoken), if_pos htoken]
  · have hne : some m.params.collateralToken ≠ some T := fun h => htoken (Option.some.inj h)
    rw [if_neg hne, if_neg hne, if_neg htoken]
    omega

end State

/-! ## Gains of custody -/

open State

/-- From a well-formed state where `X` is a custodian of `T`, a well-formed state with the same
registry where it still is, and whose custody of `T` is at least `d` higher. -/
def Gains (X T : Address) (d : Int) (s s' : State) : Prop :=
  s.WellFormed → s.Custodian X T →
    s'.WellFormed ∧ s'.Custodian X T ∧ s'.registry = s.registry ∧
      s.custody X T + d ≤ s'.custody X T

namespace Gains

variable {X T : Address} {s₁ s₂ s₃ : State} {d d₁ d₂ : Int}

theorem refl (s : State) : Gains X T 0 s s := fun hs hc => ⟨hs, hc, rfl, by omega⟩

theorem trans (h₁₂ : Gains X T d₁ s₁ s₂) (h₂₃ : Gains X T d₂ s₂ s₃) :
    Gains X T (d₁ + d₂) s₁ s₃ := by
  intro hs hc
  obtain ⟨hs₂, hc₂, hr₂, hg₂⟩ := h₁₂ hs hc
  obtain ⟨hs₃, hc₃, hr₃, hg₃⟩ := h₂₃ hs₂ hc₂
  exact ⟨hs₃, hc₃, hr₃.trans hr₂, by omega⟩

theorem mono (h : Gains X T d₁ s₁ s₂) (hd : d₂ ≤ d₁) : Gains X T d₂ s₁ s₂ := by
  intro hs hc
  obtain ⟨hs₂, hc₂, hr₂, hg₂⟩ := h hs hc
  exact ⟨hs₂, hc₂, hr₂, by omega⟩

theorem composes (X T : Address) : Composes (Gains X T 0) :=
  ⟨refl, fun h₁₂ h₂₃ => (trans h₁₂ h₂₃).mono (by omega)⟩

end Gains

variable {X T : Address} {s s' : State}

/-- The custody of `X` in `T` that a step on `token` from or to `user` moves by `amount`. -/
def share (X T token user : Address) (amount : UInt256) : Int :=
  if token = T ∧ user = X then amount.toNat else 0

/-- Putting back the holding of `owner` in `token` moves the custody of `X` in `T`, when it is
that holding, by what the balance less the allowances kept on it gains. -/
theorem custody_putHolding {owner token : Address} (h : Holding)
    (hkey : h.user = owner ∧ h.token = token) :
    (s.putHolding h).custody X T +
        (if token = T ∧ owner = X then
          ((s.balanceOf owner token).toNat : Int) - (s.holding owner token).allowed else 0) =
      s.custody X T + (if token = T ∧ owner = X then (h.balance.toNat : Int) - h.allowed else 0) := by
  by_cases hmine : token = T ∧ owner = X
  · obtain ⟨rfl, rfl⟩ := hmine
    rw [if_pos ⟨rfl, rfl⟩, if_pos ⟨rfl, rfl⟩]
    have := custody_putHolding_self (s := s) h (by rw [hkey.1, hkey.2])
    omega
  · rw [if_neg hmine, if_neg hmine, custody_putHolding_of_ne h]
    rw [hkey.1, hkey.2]
    exact fun heq => hmine ⟨(Prod.mk.inj heq).2.symm, (Prod.mk.inj heq).1.symm⟩

/-- Setting one named allowance of `owner` in `token` moves the custody of `X` in `T`, when it is
that holding, by what the allowance loses. -/
theorem custody_setAllowance (hs : s.WellFormed) (owner token : Address) (named : Spender)
    (v : UInt256) :
    (s.putHolding { s.holding owner token with
        allowances := (s.holding owner token).allowances.set named v }).custody X T =
      s.custody X T + (if token = T ∧ owner = X then
        (((s.holding owner token).allowances.get named).toNat : Int) - v.toNat else 0) := by
  have hwrite := custody_putHolding (X := X) (T := T) (s := s)
    { s.holding owner token with allowances := (s.holding owner token).allowances.set named v }
    (hs.holding_user owner token)
  have hallowed := Holding.allowed_setAllowance (s.holding owner token) named v
  unfold balanceOf at hwrite
  dsimp only at hwrite hallowed ⊢
  split
  · next hmine =>
    rw [if_pos hmine, if_pos hmine] at hwrite
    omega
  · next hmine =>
    rw [if_neg hmine, if_neg hmine] at hwrite
    omega

/-- Setting the balance of `user` in `token` moves the custody of `X` in `T`, when it is that
balance, by what it gains. -/
theorem custody_setBalance (hs : s.WellFormed) (user token : Address) (b : UInt256) :
    (s.putHolding { s.holding user token with balance := b }).custody X T =
      s.custody X T + (if token = T ∧ user = X then
        (b.toNat : Int) - (s.balanceOf user token).toNat else 0) := by
  have hwrite := custody_putHolding (X := X) (T := T) (s := s)
    { s.holding user token with balance := b } (hs.holding_user user token)
  have hallowed : ({ s.holding user token with balance := b } : Holding).allowed =
      (s.holding user token).allowed := rfl
  unfold balanceOf at hwrite ⊢
  dsimp only at hwrite hallowed ⊢
  split
  · next hmine =>
    rw [if_pos hmine, if_pos hmine] at hwrite
    omega
  · next hmine =>
    rw [if_neg hmine, if_neg hmine] at hwrite
    omega

/-- Setting what `owner` lets `vault` pull moves the custody of `X` in `T`, when it is an
allowance of `X` for a vault of `T`, by what the allowance loses. -/
theorem custody_setVaultAllowance (hs : s.WellFormed) (vault owner : Address) (v : UInt256) :
    (s.putVaultUser { s.vaultUser vault owner with allowance := v }).custody X T =
      s.custody X T + (if owner = X ∧ s.vaultAsset? vault = some T then
        ((s.vaultUser vault owner).allowance.toNat : Int) - v.toNat else 0) := by
  obtain ⟨hvault, huser⟩ := hs.vaultUser_key vault owner
  have hwrite := custody_putVaultUser (X := X) (T := T) hs
    { s.vaultUser vault owner with allowance := v }
  have hread : s.vaultUser ({ s.vaultUser vault owner with allowance := v } : VaultUser).vault
      ({ s.vaultUser vault owner with allowance := v } : VaultUser).user =
      s.vaultUser vault owner := by
    dsimp only
    rw [hvault, huser]
  have hnew : s.vaultAllowance X T { s.vaultUser vault owner with allowance := v } =
      if owner = X ∧ s.vaultAsset? vault = some T then v.toNat else 0 := by
    unfold vaultAllowance
    dsimp only
    rw [hvault, huser]
  have hold : s.vaultAllowance X T (s.vaultUser vault owner) =
      if owner = X ∧ s.vaultAsset? vault = some T then
        (s.vaultUser vault owner).allowance.toNat else 0 := by
    unfold vaultAllowance
    rw [hvault, huser]
  rw [hread, hnew, hold] at hwrite
  split
  · next hmine =>
    rw [if_pos hmine, if_pos hmine] at hwrite
    omega
  · next hmine =>
    rw [if_neg hmine, if_neg hmine] at hwrite
    omega

/-- A third party spending the allowance of `owner` raises the custody by the amount, when it is
the custody of `owner` in that token: every allowance of a custodian is spent down, none is
unlimited, and the core contract takes from it without an allowance only from itself. -/
theorem spendAllowance_gains (token owner spender : Address) (amount : UInt256)
    (hspender : spender ≠ owner) :
    Keeps (Gains X T (share X T token owner amount)) (spendAllowance token owner spender amount) := by
  intro s u s' h hs hc
  rcases spendAllowance_inv h with ⟨hsame, hfree⟩ | ⟨named, -, -, hnotmax, hle, rfl⟩ |
    ⟨-, hasset, hnotmax, hle, rfl⟩
  · subst s'
    refine ⟨hs, hc, rfl, ?_⟩
    have hnone : share X T token owner amount = 0 := by
      unfold share
      rw [if_neg]
      rintro ⟨rfl, rfl⟩
      rcases hfree with ⟨named, -, ⟨rfl, happroves⟩ | hmax⟩ | ⟨-, hasset, hmax⟩
      · by_cases hX : owner = s.registry.morpho
        · exact hspender hX.symm
        · rw [hc.not_approvesMorpho hX] at happroves
          cases happroves
      · exact hc.named named hmax
      · exact hc.vaults spender hasset hmax
    omega
  · refine ⟨hs.putHolding _, hc.putHolding _ ?_ ?_, rfl, ?_⟩
    · intro hkey spender
      obtain ⟨rfl, rfl⟩ := holding_key_eq hs rfl rfl hkey
      show ((s.holding X T).allowances.set named _).get spender ≠ _
      rw [Allowances.get_set]
      split
      · exact UInt256.zeroFloorSub_ne_maxValue hnotmax amount
      · exact hc.named spender
    · intro hkey
      obtain ⟨rfl, rfl⟩ := holding_key_eq hs rfl rfl hkey
      exact hc.router
    · rw [custody_setAllowance hs]
      have hsub : (((s.holding owner token).allowances.get named).zeroFloorSub amount).toNat =
          ((s.holding owner token).allowances.get named).toNat - amount.toNat := rfl
      unfold share
      split <;> omega
  · refine ⟨hs.putVaultUser _, hc.putVaultUser _ ?_, rfl, ?_⟩
    · intro _ _
      exact UInt256.zeroFloorSub_ne_maxValue hnotmax amount
    · rw [custody_setVaultAllowance hs, hasset]
      have hsub : ((s.vaultUser spender owner).allowance.zeroFloorSub amount).toNat =
          (s.vaultUser spender owner).allowance.toNat - amount.toNat := rfl
      unfold share
      have hiff : (owner = X ∧ some token = some T) ↔ (token = T ∧ owner = X) := by
        rw [Option.some.injEq]
        exact And.comm
      simp only [hiff]
      split <;> omega

theorem share_zero (hX : X ≠ .zero) (token : Address) (amount : UInt256) :
    share X T token .zero amount = 0 := by
  unfold share
  rw [if_neg (fun h => hX h.2.symm)]

/-- A debit lowers the custody of the user by the amount. -/
theorem debit_gains (token user : Address) (amount : UInt256) :
    Keeps (Gains X T (-share X T token user amount)) (debit token user amount) := by
  intro s u s' h hs hc
  obtain ⟨balance, hbal, rfl⟩ := debit_inv h
  refine ⟨hs.putHolding _, hc.setBalance hs user token balance, rfl, ?_⟩
  rw [custody_setBalance hs]
  unfold share
  split <;> omega

/-- A credit raises the custody of the user by the amount. -/
theorem credit_gains (token user : Address) (amount : UInt256) :
    Keeps (Gains X T (share X T token user amount)) (credit token user amount) := by
  intro s u s' h hs hc
  obtain ⟨-, balance, hbal, rfl⟩ := credit_inv h
  refine ⟨hs.putHolding _, hc.setBalance hs user token balance, rfl, ?_⟩
  rw [custody_setBalance hs]
  unfold share
  split <;> omega

/-- What a movement does to the custody of `X` in `T` at least: it gains what it receives, and
loses what it sends only when it is the sender itself; tokens a third party takes from it are
paid for by as much of its allowances. -/
def Perform.Movement.gain (X T : Address) (m : Movement) : Int :=
  share X T m.token m.destination m.amount -
    if m.sender = m.source then share X T m.token m.source m.amount else 0

/-- The source side of a movement: the allowance spent, when a third party moves the tokens, pays
for the debit. -/
theorem move_source_gains {m : Movement} {s₁ s₂ : State}
    (hspend : if m.source ≠ .zero ∧ m.sender ≠ m.source then
      spendAllowance m.token m.source m.sender m.amount s = .ok ((), s₁) else s₁ = s)
    (hdebit : if m.source ≠ .zero then debit m.token m.source m.amount s₁ = .ok ((), s₂)
      else s₂ = s₁) :
    Gains X T (-if m.sender = m.source then share X T m.token m.source m.amount else 0) s s₂ := by
  intro hs hc
  by_cases hsource : m.source = .zero
  · rw [if_neg (fun h => h.1 hsource)] at hspend
    rw [if_neg (not_not.mpr hsource)] at hdebit
    subst hspend hdebit
    have hnone := share_zero (T := T) hc.nonzero m.token m.amount
    rw [← hsource] at hnone
    refine ⟨hs, hc, rfl, ?_⟩
    split <;> omega
  · rw [if_pos hsource] at hdebit
    have hdebited := debit_gains (X := X) (T := T) _ _ _ s₁ () s₂ hdebit
    by_cases hsender : m.sender = m.source
    · rw [if_neg (fun h => h.2 hsender)] at hspend
      subst hspend
      rw [if_pos hsender]
      exact hdebited hs hc
    · rw [if_pos ⟨hsource, hsender⟩] at hspend
      have hspent := spendAllowance_gains (X := X) (T := T) _ _ _ _ hsender s () s₁ hspend
      rw [if_neg hsender]
      exact (hspent.trans hdebited).mono (by omega) hs hc

/-- The destination side of a movement: a credit, unless the movement burns. -/
theorem move_destination_gains {m : Movement} {s₂ : State}
    (hcredit : if m.destination ≠ .zero then
      credit m.token m.destination m.amount s₂ = .ok ((), s') else s' = s₂) :
    Gains X T (share X T m.token m.destination m.amount) s₂ s' := by
  intro hs hc
  by_cases hdestination : m.destination = .zero
  · rw [if_neg (not_not.mpr hdestination)] at hcredit
    subst hcredit
    have hnone := share_zero (T := T) hc.nonzero m.token m.amount
    rw [← hdestination] at hnone
    exact ⟨hs, hc, rfl, by omega⟩
  · rw [if_pos hdestination] at hcredit
    exact credit_gains _ _ _ s₂ () s' hcredit hs hc

/-- A movement moves custody by at least its gain. -/
theorem move_gains (m : Movement) : Keeps (Gains X T (m.gain X T)) (move m) := by
  intro s u s' h
  obtain ⟨s₁, s₂, hspend, hdebit, hcredit⟩ := move_inv h
  unfold Perform.Movement.gain
  exact ((move_source_gains hspend hdebit).trans (move_destination_gains hcredit)).mono
    (by omega)

/-! ### Steps that spare the custodian -/

theorem share_of_ne {user : Address} (h : user ≠ X) (token : Address) (amount : UInt256) :
    share X T token user amount = 0 := by
  unfold share
  rw [if_neg (fun h' => h h'.2)]

theorem share_nonneg (token user : Address) (amount : UInt256) :
    0 ≤ share X T token user amount := by
  unfold share
  split <;> omega

/-- A movement spares `X` unless `X` sends tokens of its own. -/
theorem move_spares {m : Movement} (h : m.sender = m.source → m.source ≠ X) :
    Keeps (Gains X T 0) (move m) := by
  intro s u s' hmove
  apply (move_gains m s u s' hmove).mono
  unfold Perform.Movement.gain
  have hdestination := share_nonneg (X := X) (T := T) m.token m.destination m.amount
  split
  · next hsame =>
    rw [share_of_ne (h hsame)]
    omega
  · omega

/-- A step that leaves holdings, vault users, vault assets, the registry, markets and positions
alone, and puts no vault of either kind and no adapter at `X`, keeps custody and custodian. -/
theorem gains_of_frame (hwf : s.WellFormed → s'.WellFormed) (hholdings : s'.holdings = s.holdings)
    (hvaultUsers : s'.vaultUsers = s.vaultUsers) (hasset : ∀ v, s'.vaultAsset? v = s.vaultAsset? v)
    (hregistry : s'.registry = s.registry) (hmarkets : s'.markets = s.markets)
    (hpositions : s'.positions = s.positions)
    (hvaults : s.vaults.get? X = none → s'.vaults.get? X = none)
    (hvaultV2s : s.vaultV2s.get? X = none → s'.vaultV2s.get? X = none)
    (hadapters : s.vaultV2Adapters.get? X = none → s'.vaultV2Adapters.get? X = none) :
    Gains X T 0 s s' := by
  intro hs hc
  have hholding : s'.holding X T = s.holding X T := by
    unfold holding
    rw [hholdings]
  have husers : ∀ v, s'.vaultUser v X = s.vaultUser v X := by
    intro v
    unfold vaultUser
    rw [hvaultUsers]
  refine ⟨hwf hs, hc.congr (hvaults hc.noVault) (hvaultV2s hc.noVaultV2) (hadapters hc.noAdapter)
    hregistry hholding hasset husers, hregistry, ?_⟩
  rw [custody_congr hholding (vaultAllowed_congr hvaultUsers hasset) hregistry
    (owed_congr hmarkets hpositions)]
  omega

/-- An entry stored again under a key the book has leaves a key it lacks lacking. -/
theorem Book.get?_insert_of_none {κ α : Type} [BookKey κ] [DecidableEq κ] {b : Book κ α}
    {key k : κ} (value : α) (hkey : (b.get? key).isSome) (hk : b.get? k = none) :
    (b.insert key value).get? k = none := by
  rw [Book.get?_insert, if_neg]
  · exact hk
  · rintro rfl
    rw [hk] at hkey
    cases hkey

theorem gains_putUser (u : User) : Gains X T 0 s (s.putUser u) :=
  gains_of_frame (fun hs => hs.putUser u) rfl rfl (fun _ => rfl) rfl rfl rfl id id id

theorem gains_putVaultMarketConfig (c : VaultMarketConfig) :
    Gains X T 0 s (s.putVaultMarketConfig c) :=
  gains_of_frame (fun hs => hs.putVaultMarketConfig c) rfl rfl (fun _ => rfl) rfl rfl rfl id id id

theorem gains_putVault {v : Vault} (hv : (s.vaults.get? v.address).map Vault.asset = some v.asset) :
    Gains X T 0 s (s.putVault v) := by
  have hkey : (s.vaults.get? v.address).isSome := by
    cases h : s.vaults.get? v.address with
    | none => rw [h] at hv; cases hv
    | some _ => rfl
  exact gains_of_frame (fun hs => hs.putVault v) rfl rfl (vaultAsset?_putVault hv) rfl rfl rfl
    (Book.get?_insert_of_none v hkey) id id

theorem gains_putVaultV2 {v : VaultV2}
    (hv : (s.vaultV2s.get? v.address).map VaultV2.asset = some v.asset) :
    Gains X T 0 s (s.putVaultV2 v) := by
  have hkey : (s.vaultV2s.get? v.address).isSome := by
    cases h : s.vaultV2s.get? v.address with
    | none => rw [h] at hv; cases hv
    | some _ => rfl
  exact gains_of_frame (fun hs => hs.putVaultV2 v) rfl rfl (vaultAsset?_putVaultV2 hv) rfl rfl rfl
    id (Book.get?_insert_of_none v hkey) id

theorem gains_putVaultV2Adapter {a : VaultV2Adapter}
    (ha : (s.vaultV2Adapters.get? a.address).isSome) : Gains X T 0 s (s.putVaultV2Adapter a) :=
  gains_of_frame (fun hs => hs.putVaultV2Adapter a) rfl rfl (fun _ => rfl) rfl rfl rfl id id
    (Book.get?_insert_of_none a ha)

/-! ### The core contract -/

/-- Crediting the fee shares of an accrual writes a supply position, which pledges nothing more. -/
theorem feeCredited_gains {id : MarketId} {shares : UInt256} {s₁ : State}
    (hfee : FeeCredited s id shares s₁) :
    Gains X T 0 s s₁ ∧ s₁.markets = s.markets := by
  rcases hfee with ⟨-, rfl⟩ | ⟨total, -, rfl⟩
  · exact ⟨Gains.refl _, rfl⟩
  · refine ⟨fun hs hc => ⟨hs.putPosition _, hc.putPosition _, rfl, ?_⟩, rfl⟩
    have hsame := custody_putPosition_of_collateral (X := X) (T := T) hs
      { s.position s.feeRecipient id with supplyShares := total } rfl (hs.position_user _ _)
    omega

/-- Accruing a market moves both its totals by the interest and credits fee shares: the market
lends as before and no collateral moves, so custody stays. -/
theorem accrueMarket_gains (id : MarketId) : Keeps (Gains X T 0) (accrueMarket id) := by
  intro s m' s' h hs hc
  obtain ⟨m, accrual, s₁, hm, hrun, hfee, rfl⟩ := accrueMarket_inv h
  have haccrued := Market.accrue_inv hrun
  obtain ⟨hfee, hmarkets⟩ := feeCredited_gains (X := X) (T := T) hfee
  obtain ⟨hs₁, hc₁, hr₁, hg₁⟩ := hfee hs hc
  have hmid : m'.id = id := (congrArg MarketParams.id haccrued.params).trans (hs.market_id hm)
  have hm₁ : s₁.markets.get? m'.id = some m := by
    rw [hmarkets, hmid]
    exact hm
  refine ⟨hs₁.putMarket m', hc₁.putMarket m', hr₁, ?_⟩
  rw [custody_putMarket hs₁ hm₁ haccrued.params, Market.lent_of_accrued haccrued]
  split <;> omega

/-- Seen from `X`, the core contract's bookkeeping that owes a token more, settled by a pull of
at least as much into the core contract. -/
theorem custody_pull (c : Int) (morpho : Address) {d : Int} {token : Address} {a : UInt256}
    (hd : d ≤ if token = T then (a.toNat : Int) else 0) :
    c ≤ c - (if X = morpho then d else 0) + share X T token morpho a := by
  unfold share
  by_cases hX : X = morpho
  · subst hX
    rw [if_pos rfl]
    by_cases htoken : token = T
    · rw [if_pos htoken] at hd
      rw [if_pos ⟨htoken, rfl⟩]
      omega
    · rw [if_neg htoken] at hd
      rw [if_neg (fun h => htoken h.1)]
      omega
  · rw [if_neg hX, if_neg (fun h => hX h.2.symm)]
    omega

/-- Seen from `X`, the core contract's bookkeeping that owes a token exactly as much less as a
push out of the core contract then sends. -/
theorem custody_push (c : Int) (morpho : Address) {d : Int} {token : Address} {a : UInt256}
    (hd : d = -(if token = T then (a.toNat : Int) else 0)) :
    c - (if X = morpho then d else 0) = c + share X T token morpho a := by
  unfold share
  by_cases hX : X = morpho
  · subst hX
    rw [if_pos rfl]
    by_cases htoken : token = T
    · rw [if_pos htoken] at hd
      rw [if_pos ⟨htoken, rfl⟩]
      omega
    · rw [if_neg htoken] at hd
      rw [if_neg (fun h => htoken h.1)]
      omega
  · rw [if_neg hX, if_neg (fun h => hX h.2.symm)]
    omega

/-- A movement from a source other than `X` gains `X` what it receives. -/
theorem Perform.Movement.gain_of_source_ne {m : Movement} (h : m.source ≠ X) :
    m.gain X T = share X T m.token m.destination m.amount := by
  unfold Perform.Movement.gain
  rw [share_of_ne h]
  split <;> omega

/-- A movement its source sends itself gains `X` what it receives less what it sends. -/
theorem Perform.Movement.gain_of_self {m : Movement} (h : m.sender = m.source) :
    m.gain X T = share X T m.token m.destination m.amount - share X T m.token m.source m.amount := by
  unfold Perform.Movement.gain
  rw [if_pos h]

/-- A movement into the core contract, or anywhere, from a source other than `X`: custody gains
what `X` receives. -/
theorem move_into {m : Movement} (h : m.source ≠ X) :
    Keeps (Gains X T (share X T m.token m.destination m.amount)) (move m) := by
  intro s u s' hmove
  have hgain := move_gains (X := X) (T := T) m s u s' hmove
  rwa [Perform.Movement.gain_of_source_ne h] at hgain

/-- A movement its source sends itself: custody gains what `X` receives less what it sends. -/
theorem move_out {m : Movement} (h : m.sender = m.source) :
    Keeps (Gains X T (share X T m.token m.destination m.amount -
      share X T m.token m.source m.amount)) (move m) := by
  intro s u s' hmove
  have hgain := move_gains (X := X) (T := T) m s u s' hmove
  rwa [Perform.Movement.gain_of_self h] at hgain

/-- Supplying commits before the callback and pulls the assets after it: for the core contract
the debt the commit adds is paid by the pull, and for anyone else only the pull counts. -/
theorem supply_gains {sender : Address} (hsender : sender ≠ X) (request : MarketRequest)
    {callback : Sim Unit} (hcb : Keeps (Gains X T 0) callback) :
    Keeps (Gains X T 0) (supply sender request callback) := by
  intro s flow s' h hs hc
  obtain ⟨market, market', s₁, s₂, assets, supplyShares, hacc, hop, hshares, hrun, hmove⟩ :=
    supply_inv h
  obtain ⟨hs₁, hc₁, hr₁, hg₁⟩ := accrueMarket_gains request.id s market s₁ hacc hs hc
  obtain ⟨hs₂, hc₂, hr₂, hg₂⟩ := hcb _ () s₂ hrun ((hs₁.putPosition _).putMarket _)
    ((hc₁.putPosition _).putMarket _)
  obtain ⟨hs', hc', hr', hg'⟩ := move_into hsender s₂ () s' hmove hs₂ hc₂
  refine ⟨hs', hc', hr'.trans (hr₂.trans hr₁), ?_⟩
  have hmorpho : s₂.registry.morpho = s₁.registry.morpho := congrArg Registry.morpho hr₂
  dsimp only at hg'
  rw [hmorpho] at hg'
  rw [custody_commit hs₁ (accrueMarket_get? hacc hs) (Market.Step.supply hop).params_fee.1]
    at hg₂
  · have hpull := custody_pull (X := X) (s₁.custody X T) s₁.registry.morpho (Market.lent_supply hop T)
    omega
  · rfl
  · exact hs₁.position_user _ _

/-- Withdrawing commits, runs the callback and then pushes the assets out of the core contract:
for the core contract the push pays exactly the debt the commit drops. -/
theorem withdraw_gains (sender : Address) (request : MarketRequest) {callback : Sim Unit}
    (hcb : Keeps (Gains X T 0) callback) :
    Keeps (Gains X T 0) (withdraw sender request callback) := by
  intro s flow s' h hs hc
  obtain ⟨-, market, market', s₁, s₂, shares, supplyShares, hacc, hop, -, hliquid, hshares, hrun,
    hmove⟩ := withdraw_inv h
  obtain ⟨hs₁, hc₁, hr₁, hg₁⟩ := accrueMarket_gains request.id s market s₁ hacc hs hc
  obtain ⟨hs₂, hc₂, hr₂, hg₂⟩ := hcb _ () s₂ hrun ((hs₁.putPosition _).putMarket _)
    ((hc₁.putPosition _).putMarket _)
  obtain ⟨hs', hc', hr', hg'⟩ := move_out rfl s₂ () s' hmove hs₂ hc₂
  refine ⟨hs', hc', hr'.trans (hr₂.trans hr₁), ?_⟩
  have hmorpho : s₂.registry.morpho = s₁.registry.morpho := congrArg Registry.morpho hr₂
  have hreceived := share_nonneg (X := X) (T := T) market.params.loanToken
    (request.receiver.getD sender) flow.assets
  dsimp only at hg'
  rw [hmorpho] at hg'
  rw [custody_commit hs₁ (accrueMarket_get? hacc hs)
    (Market.Step.withdraw hop hliquid).params_fee.1] at hg₂
  · have hpush := custody_push (X := X) (s₁.custody X T) s₁.registry.morpho
      (Market.lent_withdraw hop hliquid T)
    omega
  · rfl
  · exact hs₁.position_user _ _

/-- Borrowing is settled like withdrawing: the push pays exactly the debt the commit drops. -/
theorem borrow_gains (sender : Address) (request : MarketRequest) {callback : Sim Unit}
    (hcb : Keeps (Gains X T 0) callback) :
    Keeps (Gains X T 0) (borrow sender request callback) := by
  intro s flow s' h hs hc
  obtain ⟨-, market, market', s₁, s₂, borrowShares, hacc, hop, hliquid, hshares, hrun, hmove⟩ :=
    borrow_inv h
  obtain ⟨hs₁, hc₁, hr₁, hg₁⟩ := accrueMarket_gains request.id s market s₁ hacc hs hc
  obtain ⟨hs₂, hc₂, hr₂, hg₂⟩ := hcb _ () s₂ hrun ((hs₁.putPosition _).putMarket _)
    ((hc₁.putPosition _).putMarket _)
  obtain ⟨hs', hc', hr', hg'⟩ := move_out rfl s₂ () s' hmove hs₂ hc₂
  refine ⟨hs', hc', hr'.trans (hr₂.trans hr₁), ?_⟩
  have hparams := (Market.Step.borrow hop hliquid).params_fee.1
  have hmorpho : s₂.registry.morpho = s₁.registry.morpho := congrArg Registry.morpho hr₂
  have hreceived := share_nonneg (X := X) (T := T) market.params.loanToken
    (request.receiver.getD sender) flow.assets
  dsimp only at hg'
  rw [hmorpho, hparams] at hg'
  rw [custody_commit hs₁ (accrueMarket_get? hacc hs) hparams] at hg₂
  · have hpush := custody_push (X := X) (s₁.custody X T) s₁.registry.morpho
      (Market.lent_borrow hop hliquid T)
    omega
  · rfl
  · exact hs₁.position_user _ _

/-- Repaying is settled like supplying: the pull pays at least the debt the commit adds. -/
theorem repay_gains {sender : Address} (hsender : sender ≠ X) (request : MarketRequest)
    {callback : Sim Unit} (hcb : Keeps (Gains X T 0) callback) :
    Keeps (Gains X T 0) (repay sender request callback) := by
  intro s flow s' h hs hc
  obtain ⟨market, market', s₁, s₂, assets, shares, borrowShares, hacc, hop, hshares, hrun,
    hmove⟩ := repay_inv h
  obtain ⟨hs₁, hc₁, hr₁, hg₁⟩ := accrueMarket_gains request.id s market s₁ hacc hs hc
  obtain ⟨hs₂, hc₂, hr₂, hg₂⟩ := hcb _ () s₂ hrun ((hs₁.putPosition _).putMarket _)
    ((hc₁.putPosition _).putMarket _)
  obtain ⟨hs', hc', hr', hg'⟩ := move_into hsender s₂ () s' hmove hs₂ hc₂
  refine ⟨hs', hc', hr'.trans (hr₂.trans hr₁), ?_⟩
  have hmorpho : s₂.registry.morpho = s₁.registry.morpho := congrArg Registry.morpho hr₂
  dsimp only at hg'
  rw [hmorpho] at hg'
  rw [custody_commit hs₁ (accrueMarket_get? hacc hs) (Market.Step.repay hop).params_fee.1]
    at hg₂
  · have hpull := custody_pull (X := X) (s₁.custody X T) s₁.registry.morpho
      (Market.lent_repay hop T)
    omega
  · rfl
  · exact hs₁.position_user _ _

/-- Supplying collateral pledges it before the callback and pulls it after. -/
theorem supplyCollateral_gains {sender : Address} (hsender : sender ≠ X)
    (request : CollateralRequest) {callback : Sim Unit} (hcb : Keeps (Gains X T 0) callback) :
    Keeps (Gains X T 0) (supplyCollateral sender request callback) := by
  intro s u s' h hs hc
  obtain ⟨market, s₁, s₂, assets, collateral, hacc, hcollateral, hrun, hmove⟩ :=
    supplyCollateral_inv h
  obtain ⟨hs₁, hc₁, hr₁, hg₁⟩ := accrueMarket_gains request.id s market s₁ hacc hs hc
  obtain ⟨hs₂, hc₂, hr₂, hg₂⟩ := hcb _ () s₂ hrun (hs₁.putPosition _) (hc₁.putPosition _)
  obtain ⟨hs', hc', hr', hg'⟩ := move_into hsender s₂ () s' hmove hs₂ hc₂
  refine ⟨hs', hc', hr'.trans (hr₂.trans hr₁), ?_⟩
  have hmorpho : s₂.registry.morpho = s₁.registry.morpho := congrArg Registry.morpho hr₂
  dsimp only at hg'
  rw [hmorpho] at hg'
  rw [custody_putPosition hs₁, pledged_sub hs₁ (accrueMarket_get? hacc hs) request.onBehalf] at hg₂
  · dsimp only at hg₂
    have hpledged : (if market.params.collateralToken = T then
        (collateral.toNat : Int) - (s₁.position request.onBehalf request.id).collateral.toNat
        else 0) ≤ if market.params.collateralToken = T then (assets.toNat : Int) else 0 := by
      split_ifs <;> omega
    have hpull := custody_pull (X := X) (s₁.custody X T) s₁.registry.morpho hpledged
    omega
  · exact hs₁.position_user _ _

/-- Withdrawing collateral releases it before the callback and pushes it out after. -/
theorem withdrawCollateral_gains (sender : Address) (request : CollateralRequest)
    {callback : Sim Unit} (hcb : Keeps (Gains X T 0) callback) :
    Keeps (Gains X T 0) (withdrawCollateral sender request callback) := by
  intro s u s' h hs hc
  obtain ⟨-, market, s₁, s₂, assets, collateral, hacc, hcollateral, hrun, hmove⟩ :=
    withdrawCollateral_inv h
  obtain ⟨hs₁, hc₁, hr₁, hg₁⟩ := accrueMarket_gains request.id s market s₁ hacc hs hc
  obtain ⟨hs₂, hc₂, hr₂, hg₂⟩ := hcb _ () s₂ hrun (hs₁.putPosition _) (hc₁.putPosition _)
  obtain ⟨hs', hc', hr', hg'⟩ := move_out rfl s₂ () s' hmove hs₂ hc₂
  refine ⟨hs', hc', hr'.trans (hr₂.trans hr₁), ?_⟩
  have hmorpho : s₂.registry.morpho = s₁.registry.morpho := congrArg Registry.morpho hr₂
  have hreceived := share_nonneg (X := X) (T := T) market.params.collateralToken
    (request.receiver.getD sender) assets
  dsimp only at hg'
  rw [hmorpho] at hg'
  rw [custody_putPosition hs₁, pledged_sub hs₁ (accrueMarket_get? hacc hs) request.onBehalf] at hg₂
  · dsimp only at hg₂
    have hreleased : (if market.params.collateralToken = T then
        (collateral.toNat : Int) - (s₁.position request.onBehalf request.id).collateral.toNat
        else 0) = -if market.params.collateralToken = T then (assets.toNat : Int) else 0 := by
      split_ifs <;> omega
    have hpush := custody_push (X := X) (s₁.custody X T) s₁.registry.morpho hreleased
    omega
  · exact hs₁.position_user _ _

/-- A flash loan pushes the assets to the sender and pulls as much back after the callback. -/
theorem flashLoan_gains {sender : Address} (hsender : sender ≠ X) (token : Address)
    (assets : Int256) {callback : Sim Unit} (hcb : Keeps (Gains X T 0) callback) :
    Keeps (Gains X T 0) (flashLoan sender token assets callback) := by
  intro s u s' h hs hc
  obtain ⟨s₁, s₂, hlend, hrun, hrepay⟩ := flashLoan_inv h
  obtain ⟨hs₁, hc₁, hr₁, hg₁⟩ := move_out rfl s () s₁ hlend hs hc
  obtain ⟨hs₂, hc₂, hr₂, hg₂⟩ := hcb s₁ () s₂ hrun hs₁ hc₁
  obtain ⟨hs', hc', hr', hg'⟩ := move_into hsender s₂ () s' hrepay hs₂ hc₂
  have hlent := share_nonneg (X := X) (T := T) token sender (amountOf assets)
  dsimp only at hg₁ hg'
  exact ⟨hs', hc', hr'.trans (hr₂.trans hr₁), by omega⟩

theorem setAuthorization_gains (sender owner : Address) (authorized : Bool) :
    Keeps (Gains X T 0) (setAuthorization sender owner authorized) := by
  intro s u s' h
  obtain ⟨morphoNonce, -, rfl⟩ := setAuthorization_inv h
  exact gains_putUser _

end LendingSim
