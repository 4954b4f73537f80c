import Mathlib
import LendingSim.Proofs.WellFormed
import LendingSim.Proofs.Handlers
import LendingSim.Proofs.VaultHandlers
import LendingSim.Proofs.ActionTree

/-!
# The writes handlers make

Every handler changes the state through a few kinds of write: a holding or a vault-user record
put back, a signed nonce of a holding used up, a vault, second-kind vault, adapter or market
configuration stored again under its own address, a user's authorization set, a market accrued,
and a position committed together with its market after one of the six market operations.
`Write B s s'` lists them, each with the facts that hold where it is made: a holding changes
only in an allowance, a router amount or its balance, and its balance rises only where the user
may receive the token; the market is read from the book, the operation succeeded, the new share
count adds or takes exactly the flow, the liquidity check passed, and a position is taken from
only on behalf of someone the sender may manage. The bounds `B` say for whom a write may act:
who may take from positions, whose signed nonces may be used up or authorization set, and which
vaults may have their flow caps charged.

The main results say that a relation kept by every write is kept by every handler, whatever
its callback does, provided the callback keeps it too; `Operation.perform_keeps` gathers them
for all operations. Such a relation is stated between well-formed states (`Guarded`): every
write keeps a state well formed, and reads of a well-formed state name their key, which is what
makes the writes above the whole story.
-/

namespace LendingSim

open Sim Perform

variable {B : Bounds} {s s' : State}

/-- From a well-formed state, a well-formed state related by `Q`. -/
def Guarded (Q : State → State → Prop) (s s' : State) : Prop :=
  s.WellFormed → s'.WellFormed ∧ Q s s'

theorem Guarded.composes {Q : State → State → Prop} (hQ : Composes Q) : Composes (Guarded Q) where
  refl s hs := ⟨hs, hQ.refl s⟩
  trans {s₁ s₂ s₃} h₁₂ h₂₃ hs₁ := by
    obtain ⟨hs₂, q₁₂⟩ := h₁₂ hs₁
    obtain ⟨hs₃, q₂₃⟩ := h₂₃ hs₂
    exact ⟨hs₃, hQ.trans q₁₂ q₂₃⟩

/-- `Q'` takes in steps of `Q` on either side: what a handler's own writes, each kept by `Q`, do
around a callback that keeps `Q'`. -/
structure Absorbs (Q Q' : State → State → Prop) : Prop where
  before : ∀ {s₁ s₂ s₃}, Q s₁ s₂ → Q' s₂ s₃ → Q' s₁ s₃
  after : ∀ {s₁ s₂ s₃}, Q' s₁ s₂ → Q s₂ s₃ → Q' s₁ s₃

theorem Sim.Composes.absorbs {Q : State → State → Prop} (hQ : Composes Q) : Absorbs Q Q :=
  ⟨hQ.trans, hQ.trans⟩

theorem Absorbs.guarded {Q Q' : State → State → Prop} (h : Absorbs Q Q') :
    Absorbs (Guarded Q) (Guarded Q') where
  before {s₁ s₂ s₃} h₁₂ h₂₃ hs₁ := by
    obtain ⟨hs₂, q₁₂⟩ := h₁₂ hs₁
    obtain ⟨hs₃, q₂₃⟩ := h₂₃ hs₂
    exact ⟨hs₃, h.before q₁₂ q₂₃⟩
  after {s₁ s₂ s₃} h₁₂ h₂₃ hs₁ := by
    obtain ⟨hs₂, q₁₂⟩ := h₁₂ hs₁
    obtain ⟨hs₃, q₂₃⟩ := h₂₃ hs₂
    exact ⟨hs₃, h.after q₁₂ q₂₃⟩

theorem Allowances.get_set (a : Allowances) (named spender : Spender) (amount : UInt256) :
    (a.set named amount).get spender = if spender = named then amount else a.get spender := by
  cases named <;> cases spender <;> rfl

theorem RouterAllowances.get_set (a : RouterAllowances) (spender other : RouterSpender)
    (allowance : RouterAllowance) :
    (a.set spender allowance).get other = if other = spender then allowance else a.get other := by
  cases spender <;> cases other <;> rfl

/-- How a handler changes a holding it puts back, signed permits apart: it sets or spends an
allowance of a named spender, spends a permit-router amount (its expiration and nonce left
alone), lowers the balance, or raises the balance of a user that may receive the token. -/
inductive Holding.Change (h : Holding) : Holding → Prop
  | allowances (allowances : Allowances) : Change h { h with allowances }
  | routerAmount (spender : RouterSpender) (amount : UInt256) :
      Change h { h with
        routerAllowances := h.routerAllowances.set spender ({ h.routerAllowances.get spender with amount }) }
  | debit (balance : UInt256) (hle : balance.toNat ≤ h.balance.toNat) : Change h { h with balance }
  | credit (balance : UInt256) (hreceive : h.canReceive = true) : Change h { h with balance }

/-- For whom a write may act: the senders that may take from a position on someone's behalf, and
the vaults that may withdraw from markets on their own (`take`); the owners whose signed nonces
may be used up or whose authorization may be set (`sign`); the vaults whose flow caps the public
allocator may charge (`allocate`). -/
structure Bounds where
  take : Address → Prop
  sign : Address → Prop
  allocate : Address → Prop

/-- No bound at all. -/
def Bounds.all : Bounds := ⟨fun _ => True, fun _ => True, fun _ => True⟩

/-- One write of a handler, with what holds where it is made, within the bounds `B`. -/
inductive Write (B : Bounds) : State → State → Prop
  | holding (s : State) (user token : Address) (holding : Holding)
      (hchange : (s.holding user token).Change holding) : Write B s (s.putHolding holding)
  | permit (s : State) (owner token : Address) (next : UInt256) (hS : B.sign owner) :
      Write B s (s.putHolding { s.holding owner token with permitNonce := some next })
  | routerPermit (s : State) (owner token : Address) (spender : RouterSpender)
      (allowance : RouterAllowance) (hS : B.sign owner) :
      Write B s (s.putHolding { s.holding owner token with
        routerAllowances := (s.holding owner token).routerAllowances.set spender allowance })
  | vaultUser (s : State) (u : VaultUser) : Write B s (s.putVaultUser u)
  | vaultMarketConfig (s : State) (vault : Address) (c : VaultMarketConfig)
      (hV : B.allocate vault) : Write B s (s.putVaultMarketConfig c)
  | vault (s : State) (v : Vault)
      (hv : (s.vaults.get? v.address).map Vault.asset = some v.asset) : Write B s (s.putVault v)
  | vaultV2 (s : State) (v : VaultV2)
      (hv : (s.vaultV2s.get? v.address).map VaultV2.asset = some v.asset) :
      Write B s (s.putVaultV2 v)
  | vaultV2Adapter (s : State) (a : VaultV2Adapter) (ha : (s.vaultV2Adapters.get? a.address).isSome) :
      Write B s (s.putVaultV2Adapter a)
  | authorize (s : State) (owner : Address) (morphoNonce : UInt256) (authorized : Bool)
      (hS : B.sign owner) :
      Write B s (s.putUser { s.user owner with morphoNonce, isBundlerAuthorized := authorized })
  | accrue {s s' : State} {id : MarketId} {m : Market} (h : accrueMarket id s = .ok (m, s')) :
      Write B s s'
  | supply (s : State) {id : MarketId} {user : Address} {m m' : Market}
      {assets shares supplyShares : UInt256} {flow : Flow}
      (hm : s.markets.get? id = some m) (hop : (Market.supply assets shares).apply m = .ok (flow, m'))
      (hshares : supplyShares.toNat = (s.position user id).supplyShares.toNat + flow.shares.toNat) :
      Write B s ((s.putPosition { s.position user id with supplyShares }).putMarket m')
  | withdraw (s : State) {id : MarketId} {user sender : Address} {m m' : Market}
      {assets shares supplyShares : UInt256} {flow : Flow}
      (hauth : MayManage s sender user) (hA : B.take sender)
      (hm : s.markets.get? id = some m)
      (hop : (Market.withdraw assets shares).apply m = .ok (flow, m'))
      (hliquid : m'.hasEnoughLiquidity = true)
      (hshares : supplyShares.toNat + flow.shares.toNat = (s.position user id).supplyShares.toNat) :
      Write B s ((s.putPosition { s.position user id with supplyShares }).putMarket m')
  | borrow (s : State) {id : MarketId} {user sender : Address} {m m' : Market}
      {assets shares borrowShares : UInt256} {flow : Flow}
      (hauth : MayManage s sender user) (hA : B.take sender)
      (hm : s.markets.get? id = some m)
      (hop : (Market.borrow assets shares).apply m = .ok (flow, m'))
      (hliquid : m'.hasEnoughLiquidity = true)
      (hshares : borrowShares.toNat = (s.position user id).borrowShares.toNat + flow.shares.toNat) :
      Write B s ((s.putPosition { s.position user id with borrowShares }).putMarket m')
  | repay (s : State) {id : MarketId} {user : Address} {m m' : Market}
      {assets shares borrowShares : UInt256} {flow : Flow}
      (hm : s.markets.get? id = some m)
      (hop : (Market.repay assets shares).apply m = .ok (flow, m'))
      (hshares : borrowShares.toNat + flow.shares.toNat = (s.position user id).borrowShares.toNat) :
      Write B s ((s.putPosition { s.position user id with borrowShares }).putMarket m')
  | supplyCollateral (s : State) {id : MarketId} {user : Address} {assets collateral : UInt256}
      (hcollateral : collateral.toNat = (s.position user id).collateral.toNat + assets.toNat) :
      Write B s (s.putPosition { s.position user id with collateral })
  | withdrawCollateral (s : State) {id : MarketId} {user sender : Address}
      {assets collateral : UInt256}
      (hauth : MayManage s sender user) (hA : B.take sender)
      (hcollateral : collateral.toNat + assets.toNat = (s.position user id).collateral.toNat) :
      Write B s (s.putPosition { s.position user id with collateral })

/-! ## Accruing a market -/

/-- Accruing touches the books of markets and positions only. -/
theorem accrueMarket_frame {id : MarketId} {m : Market} (h : accrueMarket id s = .ok (m, s')) :
    ∃ markets positions, s' = { s with markets, positions } := by
  obtain ⟨m₀, accrual, s₁, -, -, hfee, rfl⟩ := accrueMarket_inv h
  rcases hfee with ⟨-, rfl⟩ | ⟨total, -, rfl⟩
  · exact ⟨_, _, rfl⟩
  · exact ⟨_, _, rfl⟩

theorem accrueMarket_wellFormed {id : MarketId} {m : Market}
    (h : accrueMarket id s = .ok (m, s')) (hs : s.WellFormed) : s'.WellFormed := by
  obtain ⟨m₀, accrual, s₁, -, -, hfee, rfl⟩ := accrueMarket_inv h
  rcases hfee with ⟨-, rfl⟩ | ⟨total, -, rfl⟩
  · exact hs.putMarket m
  · exact (hs.putPosition _).putMarket m

/-- The accrued market is what the book holds at its id afterwards. -/
theorem accrueMarket_get? {id : MarketId} {m : Market}
    (h : accrueMarket id s = .ok (m, s')) (hs : s.WellFormed) : s'.markets.get? id = some m := by
  obtain ⟨m₀, accrual, s₁, hm₀, hacc, hfee, rfl⟩ := accrueMarket_inv h
  have hid : m.id = id := by
    rw [← hs.market_id hm₀]
    exact congrArg MarketParams.id (Market.accrue_inv hacc).params
  rw [State.markets_putMarket, if_pos hid.symm]

/-- Accruing leaves users and registry alone, so who may manage a position is decided alike
before and after it. -/
theorem accrueMarket_mayManage {id : MarketId} {m : Market} {sender user : Address}
    (h : accrueMarket id s = .ok (m, s')) (hauth : MayManage s sender user) :
    MayManage s' sender user := by
  obtain ⟨markets, positions, rfl⟩ := accrueMarket_frame h
  exact hauth

/-! ## What moves and accruals leave alone -/

/-- Moving tokens leaves the books of vaults of both kinds and of adapters alone. -/
theorem move_vaultBooks {m : Movement} (h : move m s = .ok ((), s')) :
    s'.vaults = s.vaults ∧ s'.vaultV2s = s.vaultV2s ∧ s'.vaultV2Adapters = s.vaultV2Adapters := by
  obtain ⟨_, _, rfl⟩ := move_tokensOnly m s () s' h
  exact ⟨rfl, rfl, rfl⟩

theorem vaultsKept_composes : Composes fun s s' : State => s'.vaults = s.vaults :=
  ⟨fun _ => rfl, fun h₁ h₂ => h₂.trans h₁⟩

theorem accrueMarket_vaults (id : MarketId) :
    Keeps (fun s s' : State => s'.vaults = s.vaults) (accrueMarket id) := by
  intro s m s' hacc
  obtain ⟨_, _, rfl⟩ := accrueMarket_frame hacc
  rfl

/-- Adding up a vault's supply accrues markets only, so the vault book stays as it was. -/
theorem addSupplied_vaults {address : Address} {total : UInt256} {ids : List MarketId}
    {r : UInt256} (h : addSupplied address total ids s = .ok (r, s')) : s'.vaults = s.vaults :=
  addSupplied_keeps vaultsKept_composes address accrueMarket_vaults ids total s r s' h

/-- The core contract's supply, with no callback, writes markets, positions and holdings only. -/
theorem supply_vaults {sender : Address} {request : MarketRequest} {flow : Flow}
    (h : supply sender request (pure ()) s = .ok (flow, s')) : s'.vaults = s.vaults := by
  obtain ⟨market, market', s₁, s₂, _, _, hacc, -, -, hcb, hmove⟩ := supply_inv h
  obtain ⟨-, rfl⟩ := pure_inv hcb
  rw [(move_vaultBooks hmove).1]
  exact accrueMarket_vaults request.id s market s₁ hacc

theorem withdraw_vaults {sender : Address} {request : MarketRequest} {flow : Flow}
    (h : withdraw sender request (pure ()) s = .ok (flow, s')) : s'.vaults = s.vaults := by
  obtain ⟨-, market, market', s₁, s₂, _, _, hacc, -, -, -, -, hcb, hmove⟩ := withdraw_inv h
  obtain ⟨-, rfl⟩ := pure_inv hcb
  rw [(move_vaultBooks hmove).1]
  exact accrueMarket_vaults request.id s market s₁ hacc

/-- A vault supplying to the markets of its supply queue leaves the vault book alone. -/
theorem supplyToMarkets_vaults {address : Address} {ids : List MarketId} {remaining r : UInt256}
    (h : supplyToMarkets address ids remaining s = .ok (r, s')) : s'.vaults = s.vaults :=
  supplyToMarkets_keeps vaultsKept_composes address accrueMarket_vaults
    (fun _ _ _ _ _ hrun => supply_vaults hrun) ids remaining s r s' h

/-- A vault withdrawing from the markets of its withdraw queue leaves the vault book alone. -/
theorem withdrawFromMarkets_vaults {address : Address} {ids : List MarketId}
    {remaining r : UInt256} (h : withdrawFromMarkets address ids remaining s = .ok (r, s')) :
    s'.vaults = s.vaults :=
  withdrawFromMarkets_keeps vaultsKept_composes address accrueMarket_vaults
    (fun _ _ _ _ _ _ hrun => withdraw_vaults hrun) ids remaining s r s' h

/-- An accrued vault is what the book holds at its address afterwards. -/
theorem accrueVault_get? {address : Address} {v : Vault} (h : accrueVault address s = .ok (v, s')) :
    s'.vaults.get? v.address = some v := by
  obtain ⟨vault, totalAssets, totalSupply, s₁, s₂, -, -, -, -, rfl⟩ := accrueVault_inv h
  rw [State.vaults_putVault, if_pos rfl]

theorem accrueVaultV2_get? {address : Address} {v : VaultV2}
    (h : accrueVaultV2 address s = .ok (v, s')) : s'.vaultV2s.get? v.address = some v := by
  obtain ⟨vault, totalAssets, -, -, rfl⟩ := accrueVaultV2_inv h
  rw [State.vaultV2s_putVaultV2, if_pos rfl]

/-- Accruing a vault reads the one stored at `address`, and what it returns keeps that address. -/
theorem accrueVault_stored (hs : s.WellFormed) {address : Address} {v : Vault}
    (h : accrueVault address s = .ok (v, s')) :
    ∃ v₀, s.vaults.get? address = some v₀ ∧ v.address = address := by
  obtain ⟨v₀, _, _, _, _, hv₀, -, -, rfl, -⟩ := accrueVault_inv h
  exact ⟨v₀, hv₀, (hs.vault_address hv₀ : v₀.address = address)⟩

theorem accrueVaultV2_stored (hs : s.WellFormed) {address : Address} {v : VaultV2}
    (h : accrueVaultV2 address s = .ok (v, s')) :
    ∃ v₀, s.vaultV2s.get? address = some v₀ ∧ v.address = address := by
  obtain ⟨v₀, _, hv₀, rfl, -⟩ := accrueVaultV2_inv h
  exact ⟨v₀, hv₀, (hs.vaultV2_address hv₀ : v₀.address = address)⟩

/-! ## Writes keep states well formed -/

theorem Write.wellFormed (hw : Write B s s') (hs : s.WellFormed) : s'.WellFormed := by
  cases hw with
  | holding user token holding => exact hs.putHolding holding
  | permit | routerPermit => exact hs.putHolding _
  | vaultUser u => exact hs.putVaultUser u
  | vaultMarketConfig vault c => exact hs.putVaultMarketConfig c
  | vault v => exact hs.putVault v
  | vaultV2 v => exact hs.putVaultV2 v
  | vaultV2Adapter a => exact hs.putVaultV2Adapter a
  | authorize owner => exact hs.putUser _
  | accrue h => exact accrueMarket_wellFormed h hs
  | supply | withdraw | borrow | repay => exact (hs.putPosition _).putMarket _
  | supplyCollateral | withdrawCollateral => exact hs.putPosition _

/-- What a relation needs to be kept by every handler: it composes, and every write made from a
well-formed state keeps it. -/
structure WriteInvariant (B : Bounds) (Q : State → State → Prop) : Prop where
  composes : Composes Q
  write : ∀ {s s'}, s.WellFormed → Write B s s' → Q s s'

namespace WriteInvariant

variable {Q : State → State → Prop} (hQ : WriteInvariant B Q)
include hQ

theorem guarded : Composes (Guarded Q) := Guarded.composes hQ.composes

theorem step (hw : Write B s s') : Guarded Q s s' := fun hs => ⟨hw.wellFormed hs, hQ.write hs hw⟩

theorem readOnly {α : Type} {x : Sim α} (hx : ReadOnly x) : Keeps (Guarded Q) x :=
  Keeps.of_readOnly hQ.guarded hx

/-! ## Moving tokens -/

theorem spendAllowance_keeps (token owner spender : Address) (amount : UInt256) :
    Keeps (Guarded Q) (spendAllowance token owner spender amount) := by
  intro s u s' h
  rcases spendAllowance_inv h with ⟨rfl, -⟩ | ⟨named, -, -, -, -, rfl⟩ | ⟨-, -, -, -, rfl⟩
  · exact hQ.guarded.refl _
  · exact hQ.step (.holding s _ _ _ (.allowances _))
  · exact hQ.step (.vaultUser s _)

theorem move_keeps (m : Movement) : Keeps (Guarded Q) (move m) := by
  intro s u s' h
  obtain ⟨s₁, s₂, hspend, hdebit, hcredit⟩ := move_inv h
  have h₁ : Guarded Q s s₁ := by
    split at hspend
    · exact hQ.spendAllowance_keeps _ _ _ _ s () s₁ hspend
    · rw [hspend]
      exact hQ.guarded.refl s
  have h₂ : Guarded Q s₁ s₂ := by
    split at hdebit
    · obtain ⟨balance, hbalance, rfl⟩ := debit_inv hdebit
      exact hQ.step (.holding s₁ _ _ _ (.debit balance (by unfold State.balanceOf at hbalance; omega)))
    · rw [hdebit]
      exact hQ.guarded.refl s₁
  have h₃ : Guarded Q s₂ s' := by
    split at hcredit
    · obtain ⟨hreceive, balance, -, rfl⟩ := credit_inv hcredit
      exact hQ.step (.holding s₂ _ _ _ (.credit balance hreceive))
    · rw [hcredit]
      exact hQ.guarded.refl s₂
  exact hQ.guarded.trans (hQ.guarded.trans h₁ h₂) h₃

theorem exchanged_keeps {sender receiver : Address} (h : Exchanged sender receiver s s') :
    Guarded Q s s' := by
  obtain ⟨given, taken, paid, got, s₁, hburn, hmint⟩ := h
  exact hQ.guarded.trans (hQ.move_keeps _ s () s₁ hburn) (hQ.move_keeps _ s₁ () s' hmint)

/-! ## The core contract -/

theorem accrueMarket_keeps (id : MarketId) : Keeps (Guarded Q) (accrueMarket id) :=
  fun _ _ _ h => hQ.step (.accrue h)

/-! The handlers with a callback keep a relation `Q'` that takes in the writes' relation on
either side whenever the callback keeps `Q'`; with `Q' = Q` this is keeping `Q` itself. -/

variable {Q' : State → State → Prop}

theorem supply_keeps_around (hQ' : Absorbs Q Q') (sender : Address) (request : MarketRequest)
    {callback : Sim Unit} (hcb : Keeps (Guarded Q') callback) :
    Keeps (Guarded Q') (supply sender request callback) := by
  intro s flow s' h hs
  obtain ⟨market, market', s₁, s₂, assets, supplyShares, hacc, hop, hshares, hrun, hmove⟩ :=
    supply_inv h
  have h₁ : Guarded Q s s₁ := hQ.step (.accrue hacc)
  have h₂ := hQ.step (.supply s₁ (accrueMarket_get? hacc hs) hop hshares)
  have h₃ := hcb _ () s₂ hrun
  have h₄ := hQ.move_keeps _ s₂ () s' hmove
  exact hQ'.guarded.after (hQ'.guarded.before (hQ.guarded.trans h₁ h₂) h₃) h₄ hs

theorem supply_keeps (sender : Address) (request : MarketRequest) {callback : Sim Unit}
    (hcb : Keeps (Guarded Q) callback) : Keeps (Guarded Q) (supply sender request callback) :=
  hQ.supply_keeps_around hQ.composes.absorbs sender request hcb

theorem withdraw_keeps_around (hQ' : Absorbs Q Q') {sender : Address} (hA : B.take sender)
    (request : MarketRequest) {callback : Sim Unit} (hcb : Keeps (Guarded Q') callback) :
    Keeps (Guarded Q') (withdraw sender request callback) := by
  intro s flow s' h hs
  obtain ⟨hauth, market, market', s₁, s₂, shares, supplyShares, hacc, hop, -, hliquid, hshares,
    hrun, hmove⟩ := withdraw_inv h
  have h₁ : Guarded Q s s₁ := hQ.step (.accrue hacc)
  have h₂ := hQ.step (.withdraw s₁ (accrueMarket_mayManage hacc hauth) hA
    (accrueMarket_get? hacc hs) hop hliquid hshares)
  have h₃ := hcb _ () s₂ hrun
  have h₄ := hQ.move_keeps _ s₂ () s' hmove
  exact hQ'.guarded.after (hQ'.guarded.before (hQ.guarded.trans h₁ h₂) h₃) h₄ hs

theorem withdraw_keeps {sender : Address} (hA : B.take sender) (request : MarketRequest)
    {callback : Sim Unit} (hcb : Keeps (Guarded Q) callback) :
    Keeps (Guarded Q) (withdraw sender request callback) :=
  hQ.withdraw_keeps_around hQ.composes.absorbs hA request hcb

theorem borrow_keeps_around (hQ' : Absorbs Q Q') {sender : Address} (hA : B.take sender)
    (request : MarketRequest) {callback : Sim Unit} (hcb : Keeps (Guarded Q') callback) :
    Keeps (Guarded Q') (borrow sender request callback) := by
  intro s flow s' h hs
  obtain ⟨hauth, market, market', s₁, s₂, borrowShares, hacc, hop, hliquid, hshares, hrun,
    hmove⟩ := borrow_inv h
  have h₁ : Guarded Q s s₁ := hQ.step (.accrue hacc)
  have h₂ := hQ.step (.borrow s₁ (accrueMarket_mayManage hacc hauth) hA
    (accrueMarket_get? hacc hs) hop hliquid hshares)
  have h₃ := hcb _ () s₂ hrun
  have h₄ := hQ.move_keeps _ s₂ () s' hmove
  exact hQ'.guarded.after (hQ'.guarded.before (hQ.guarded.trans h₁ h₂) h₃) h₄ hs

theorem borrow_keeps {sender : Address} (hA : B.take sender) (request : MarketRequest)
    {callback : Sim Unit} (hcb : Keeps (Guarded Q) callback) :
    Keeps (Guarded Q) (borrow sender request callback) :=
  hQ.borrow_keeps_around hQ.composes.absorbs hA request hcb

theorem repay_keeps_around (hQ' : Absorbs Q Q') (sender : Address) (request : MarketRequest)
    {callback : Sim Unit} (hcb : Keeps (Guarded Q') callback) :
    Keeps (Guarded Q') (repay sender request callback) := by
  intro s flow s' h hs
  obtain ⟨market, market', s₁, s₂, assets, shares, borrowShares, hacc, hop, hshares, hrun,
    hmove⟩ := repay_inv h
  have h₁ : Guarded Q s s₁ := hQ.step (.accrue hacc)
  have h₂ := hQ.step (.repay s₁ (accrueMarket_get? hacc hs) hop hshares)
  have h₃ := hcb _ () s₂ hrun
  have h₄ := hQ.move_keeps _ s₂ () s' hmove
  exact hQ'.guarded.after (hQ'.guarded.before (hQ.guarded.trans h₁ h₂) h₃) h₄ hs

theorem repay_keeps (sender : Address) (request : MarketRequest) {callback : Sim Unit}
    (hcb : Keeps (Guarded Q) callback) : Keeps (Guarded Q) (repay sender request callback) :=
  hQ.repay_keeps_around hQ.composes.absorbs sender request hcb

theorem supplyCollateral_keeps_around (hQ' : Absorbs Q Q') (sender : Address)
    (request : CollateralRequest) {callback : Sim Unit} (hcb : Keeps (Guarded Q') callback) :
    Keeps (Guarded Q') (supplyCollateral sender request callback) := by
  intro s u s' h
  obtain ⟨market, s₁, s₂, assets, collateral, hacc, hcollateral, hrun, hmove⟩ :=
    supplyCollateral_inv h
  have h₁ : Guarded Q s s₁ := hQ.step (.accrue hacc)
  have h₂ := hQ.step (.supplyCollateral s₁ hcollateral)
  have h₃ := hcb _ () s₂ hrun
  have h₄ := hQ.move_keeps _ s₂ () s' hmove
  exact hQ'.guarded.after (hQ'.guarded.before (hQ.guarded.trans h₁ h₂) h₃) h₄

theorem supplyCollateral_keeps (sender : Address) (request : CollateralRequest)
    {callback : Sim Unit} (hcb : Keeps (Guarded Q) callback) :
    Keeps (Guarded Q) (supplyCollateral sender request callback) :=
  hQ.supplyCollateral_keeps_around hQ.composes.absorbs sender request hcb

theorem withdrawCollateral_keeps_around (hQ' : Absorbs Q Q') {sender : Address} (hA : B.take sender)
    (request : CollateralRequest) {callback : Sim Unit} (hcb : Keeps (Guarded Q') callback) :
    Keeps (Guarded Q') (withdrawCollateral sender request callback) := by
  intro s u s' h
  obtain ⟨hauth, market, s₁, s₂, assets, collateral, hacc, hcollateral, hrun, hmove⟩ :=
    withdrawCollateral_inv h
  have h₁ : Guarded Q s s₁ := hQ.step (.accrue hacc)
  have h₂ := hQ.step (.withdrawCollateral s₁ (accrueMarket_mayManage hacc hauth) hA hcollateral)
  have h₃ := hcb _ () s₂ hrun
  have h₄ := hQ.move_keeps _ s₂ () s' hmove
  exact hQ'.guarded.after (hQ'.guarded.before (hQ.guarded.trans h₁ h₂) h₃) h₄

theorem withdrawCollateral_keeps {sender : Address} (hA : B.take sender) (request : CollateralRequest)
    {callback : Sim Unit} (hcb : Keeps (Guarded Q) callback) :
    Keeps (Guarded Q) (withdrawCollateral sender request callback) :=
  hQ.withdrawCollateral_keeps_around hQ.composes.absorbs hA request hcb

theorem flashLoan_keeps_around (hQ' : Absorbs Q Q') (sender token : Address) (assets : Int256)
    {callback : Sim Unit} (hcb : Keeps (Guarded Q') callback) :
    Keeps (Guarded Q') (flashLoan sender token assets callback) := by
  intro s u s' h
  obtain ⟨s₁, s₂, hlend, hrun, hrepay⟩ := flashLoan_inv h
  exact hQ'.guarded.after (hQ'.guarded.before (hQ.move_keeps _ s () s₁ hlend) (hcb s₁ () s₂ hrun))
    (hQ.move_keeps _ s₂ () s' hrepay)

theorem flashLoan_keeps (sender token : Address) (assets : Int256) {callback : Sim Unit}
    (hcb : Keeps (Guarded Q) callback) :
    Keeps (Guarded Q) (flashLoan sender token assets callback) :=
  hQ.flashLoan_keeps_around hQ.composes.absorbs sender token assets hcb

theorem setAuthorization_keeps (sender : Address) {owner : Address} (hS : B.sign owner)
    (authorized : Bool) : Keeps (Guarded Q) (setAuthorization sender owner authorized) := by
  intro s u s' h
  obtain ⟨morphoNonce, -, rfl⟩ := setAuthorization_inv h
  exact hQ.step (.authorize s owner morphoNonce authorized hS)

/-! ## Tokens -/

theorem transfer_keeps (sender token : Address) (request : TransferRequest) :
    Keeps (Guarded Q) (transfer sender token request) := by
  intro s u s' h
  obtain ⟨amount, hmove⟩ := transfer_inv h
  exact hQ.move_keeps _ s () s' hmove

theorem routerTransfer_keeps (sender token : Address) (request : TransferRequest) :
    Keeps (Guarded Q) (routerTransfer sender token request) := by
  intro s u s' h
  obtain ⟨spender, -, -, hmove⟩ := routerTransfer_inv h
  exact hQ.guarded.trans (hQ.step (.holding s _ _ _ (.routerAmount _ _)))
    (hQ.move_keeps _ _ () s' hmove)

theorem setAllowance_keeps (token owner spender : Address) (amount : UInt256) :
    Keeps (Guarded Q) (setAllowance token owner spender amount) := by
  intro s u s' h
  rcases setAllowance_inv h with ⟨named, -, rfl⟩ | ⟨-, -, rfl⟩
  · exact hQ.step (.holding s _ _ _ (.allowances _))
  · exact hQ.step (.vaultUser s _)

theorem permit_keeps {sender : Address} (hS : B.sign sender) (token : Address)
    (request : PermitRequest) : Keeps (Guarded Q) (permit sender token request) := by
  intro s u s' h
  obtain ⟨-, nonce, amount, -, hset⟩ := permit_inv h
  exact hQ.guarded.trans (hQ.step (.permit s sender token nonce hS))
    (hQ.setAllowance_keeps _ _ _ _ _ () s' hset)

theorem routerPermit_keeps {sender : Address} (hS : B.sign sender) (token : Address)
    (request : RouterPermitRequest) : Keeps (Guarded Q) (routerPermit sender token request) := by
  intro s u s' h
  obtain ⟨spender, updated, -, -, -, rfl⟩ := routerPermit_inv h
  exact hQ.step (.routerPermit s sender token spender updated hS)

/-! ## Vaults -/

theorem accrueVault_keeps (address : Address) : Keeps (Guarded Q) (accrueVault address) := by
  intro s v' s' h hs
  obtain ⟨vault, totalAssets, totalSupply, s₁, s₂, hvault, hadd, hfee, rfl, rfl⟩ :=
    accrueVault_inv h
  have h₁ : Guarded Q s s₁ :=
    addSupplied_keeps hQ.guarded address hQ.accrueMarket_keeps _ _ s _ s₁ hadd
  obtain ⟨h₂, hvaults⟩ : Guarded Q s₁ s₂ ∧ s₂.vaults = s₁.vaults := by
    rcases hfee with ⟨rfl, -⟩ | ⟨feeShares, hmint, -⟩
    · exact ⟨hQ.guarded.refl _, rfl⟩
    · exact ⟨hQ.move_keeps _ s₁ () s₂ hmint, (move_vaultBooks hmint).1⟩
  have hkey : (s₂.vaults.get? vault.address).map Vault.asset = some vault.asset := by
    rw [hvaults, addSupplied_vaults hadd, hs.vault_address hvault, hvault, Option.map_some]
  exact hQ.guarded.trans (hQ.guarded.trans h₁ h₂) (hQ.step (.vault s₂ _ hkey)) hs

theorem depositPrefix_keeps (sender : Address) {address : Address} (request : DepositRequest) :
    Keeps (Guarded Q) (depositPrefix sender address request) := by
  intro s ⟨stored, flow⟩ s' h
  obtain ⟨vault, totalSupply, totalAssets, s₁, s₂, s₃, hacc, -, hpull, hmint, -, -, rfl, rfl⟩ :=
    depositPrefix_inv h
  have hkey : (s₃.vaults.get? vault.address).map Vault.asset = some vault.asset := by
    rw [(move_vaultBooks hmint).1, (move_vaultBooks hpull).1, accrueVault_get? hacc,
      Option.map_some]
  exact hQ.guarded.trans (hQ.guarded.trans (hQ.guarded.trans
    (hQ.accrueVault_keeps address s vault s₁ hacc) (hQ.move_keeps _ s₁ () s₂ hpull))
    (hQ.move_keeps _ s₂ () s₃ hmint)) (hQ.step (.vault s₃ _ hkey))

theorem withdrawalPrefix_keeps (sender : Address) {address : Address} (request : RedeemRequest) :
    Keeps (Guarded Q) (withdrawalPrefix sender address request) := by
  intro s ⟨stored, flow⟩ s' h
  obtain ⟨vault, totalSupply, s₁, s₂, hacc, -, hburn, -, rfl, rfl⟩ := withdrawalPrefix_inv h
  have hkey : (s₂.vaults.get? vault.address).map Vault.asset = some vault.asset := by
    rw [(move_vaultBooks hburn).1, accrueVault_get? hacc, Option.map_some]
  exact hQ.guarded.trans (hQ.guarded.trans (hQ.accrueVault_keeps address s vault s₁ hacc)
    (hQ.move_keeps _ s₁ () s₂ hburn)) (hQ.step (.vault s₂ _ hkey))

theorem vaultDeposit_keeps (sender : Address) {address : Address} (request : DepositRequest) :
    Keeps (Guarded Q) (vaultDeposit sender address request) := by
  intro s u s' h
  rw [vaultDeposit_eq_depositPrefix_bind] at h
  obtain ⟨⟨stored, flow⟩, s₁, hprefix, hplace⟩ := bind_inv h
  have hsupply : Keeps (Guarded Q) (supplyToMarkets address stored.supplyQueue flow.assets) :=
    supplyToMarkets_keeps hQ.guarded address hQ.accrueMarket_keeps
      (fun request _ => hQ.supply_keeps address request (hQ.readOnly (readOnly_pure ()))) _ _
  exact hQ.guarded.trans (hQ.depositPrefix_keeps sender request s _ s₁ hprefix)
    (hsupply _ _ _ (placeDeposit_inv hplace))

theorem vaultWithdraw_keeps (sender : Address) {address : Address} (hA : B.take address)
    (request : RedeemRequest) : Keeps (Guarded Q) (vaultWithdraw sender address request) := by
  intro s u s' h
  rw [vaultWithdraw_eq_withdrawalPrefix_bind] at h
  obtain ⟨⟨stored, flow⟩, s₁, hprefix, h₁⟩ := bind_inv h
  obtain ⟨⟨⟩, s₂, hgather, hpay⟩ := bind_inv h₁
  have hwithdraw : ∀ lacking, Keeps (Guarded Q)
      (withdrawFromMarkets address stored.withdrawQueue lacking) :=
    withdrawFromMarkets_keeps hQ.guarded address hQ.accrueMarket_keeps
      (fun request _ _ => hQ.withdraw_keeps hA request (hQ.readOnly (readOnly_pure ()))) _
  exact hQ.guarded.trans (hQ.guarded.trans (hQ.withdrawalPrefix_keeps sender request s _ s₁ hprefix)
    (hwithdraw _ _ _ _ (gatherWithdrawal_inv hgather))) (hQ.move_keeps _ s₂ () s' hpay)

theorem reallocate_keeps (sender : Address) {address : Address} (hA : B.take address)
    (allocations : List Allocation) : Keeps (Guarded Q) (reallocate sender address allocations) :=
  Perform.reallocate_keeps hQ.guarded address hQ.accrueMarket_keeps
    (fun request _ => hQ.supply_keeps address request (hQ.readOnly (readOnly_pure ())))
    (fun request _ _ => hQ.withdraw_keeps hA request (hQ.readOnly (readOnly_pure ())))
    sender allocations

theorem publicReallocate_keeps (sender : Address) {address : Address} (hA : B.take address)
    (hV : B.allocate address) (withdrawals : List Allocation) (supplyId : MarketId) :
    Keeps (Guarded Q) (publicReallocate sender address withdrawals supplyId) :=
  Perform.publicReallocate_keeps hQ.guarded address hQ.accrueMarket_keeps
    (fun request _ => hQ.supply_keeps address request (hQ.readOnly (readOnly_pure ())))
    (fun request _ _ => hQ.withdraw_keeps hA request (hQ.readOnly (readOnly_pure ())))
    (fun s c => hQ.step (.vaultMarketConfig s address c hV)) sender withdrawals supplyId
    (fun s _ s' hmove => hQ.move_keeps _ s () s' hmove)
    (fun s v _ hv hs => hQ.step (.vault s _ (by
      rw [show ({ v with allocatorTerms := _ } : Vault).address = v.address from rfl,
        hs.vault_address hv, hv, Option.map_some])) hs)

/-! ## Second-kind vaults -/

theorem accrueVaultV2_keeps (address : Address) : Keeps (Guarded Q) (accrueVaultV2 address) := by
  intro s v' s' h hs
  obtain ⟨vault, totalAssets, hvault, rfl, rfl⟩ := accrueVaultV2_inv h
  have hkey : (s.vaultV2s.get? vault.address).map VaultV2.asset = some vault.asset := by
    rw [hs.vaultV2_address hvault, hvault, Option.map_some]
  exact hQ.step (.vaultV2 s _ hkey) hs

theorem vaultV2Deposit_keeps (sender address : Address) (request : DepositRequest) :
    Keeps (Guarded Q) (vaultV2Deposit sender address request) := by
  intro s u s' h hs
  obtain ⟨vault, flow, totalSupply, totalAssets, s₁, s₂, s₃, hacc, -, hpull, hmint, -, -,
    hforward⟩ := vaultV2Deposit_inv h
  have hkey : (s₃.vaultV2s.get? vault.address).map VaultV2.asset = some vault.asset := by
    rw [(move_vaultBooks hmint).2.1, (move_vaultBooks hpull).2.1, accrueVaultV2_get? hacc,
      Option.map_some]
  have h₄ := hQ.guarded.trans (hQ.guarded.trans (hQ.guarded.trans
    (hQ.accrueVaultV2_keeps address s vault s₁ hacc) (hQ.move_keeps _ s₁ () s₂ hpull))
    (hQ.move_keeps _ s₂ () s₃ hmint)) (hQ.step (.vaultV2 s₃ { vault with totalSupply, totalAssets } hkey))
  rcases hforward with ⟨-, rfl⟩ | ⟨adapterAddress, adapter, realAssets, s₄, -, hadapter, hmove, -, rfl⟩
  · exact h₄ hs
  · have hs₃ := (h₄ hs).1
    have hkey' : (s₄.vaultV2Adapters.get? adapter.address).isSome := by
      rw [(move_vaultBooks hmove).2.2, hs₃.vaultV2Adapter_address hadapter, hadapter]
      rfl
    exact hQ.guarded.trans (hQ.guarded.trans h₄ (hQ.move_keeps _ _ () s₄ hmove))
      (hQ.step (.vaultV2Adapter s₄ { adapter with realAssets } hkey')) hs

theorem vaultV2Withdraw_keeps (sender address : Address) (request : RedeemRequest) :
    Keeps (Guarded Q) (vaultV2Withdraw sender address request) := by
  intro s u s' h hs
  obtain ⟨vault, flow, totalSupply, s₁, s₂, s₃, s₄, hacc, -, hpulled, hburn, hpay, -, rfl⟩ :=
    vaultV2Withdraw_inv h
  have h₁ := hQ.accrueVaultV2_keeps address s vault s₁ hacc
  have hs₁ := (h₁ hs).1
  obtain ⟨h₂, hvaults⟩ : Guarded Q s₁ s₂ ∧ s₂.vaultV2s = s₁.vaultV2s := by
    rcases hpulled with ⟨-, rfl⟩ | ⟨adapterAddress, adapter, missing, s₅, -, hadapter, -, -, hmove, rfl⟩
    · exact ⟨hQ.guarded.refl _, rfl⟩
    · have hkey : (s₅.vaultV2Adapters.get? adapter.address).isSome := by
        rw [(move_vaultBooks hmove).2.2, hs₁.vaultV2Adapter_address hadapter, hadapter]
        rfl
      exact ⟨hQ.guarded.trans (hQ.move_keeps _ s₁ () s₅ hmove) (hQ.step (.vaultV2Adapter s₅
        { adapter with realAssets := adapter.realAssets.zeroFloorSub missing } hkey)),
        (move_vaultBooks hmove).2.1⟩
  have hkey : (s₄.vaultV2s.get? vault.address).map VaultV2.asset = some vault.asset := by
    rw [(move_vaultBooks hpay).2.1, (move_vaultBooks hburn).2.1, hvaults, accrueVaultV2_get? hacc,
      Option.map_some]
  exact hQ.guarded.trans (hQ.guarded.trans (hQ.guarded.trans (hQ.guarded.trans h₁ h₂)
    (hQ.move_keeps _ s₂ () s₃ hburn)) (hQ.move_keeps _ s₃ () s₄ hpay))
    (hQ.step (.vaultV2 s₄
      { vault with totalSupply, totalAssets := vault.totalAssets.zeroFloorSub flow.assets }
      hkey)) hs

end WriteInvariant

/-! ## Every operation -/

/-- What an operation sent by `sender` to `target` needs of the bounds for its writes to meet
them: who takes from a position on someone's behalf may take, whoever sets an authorization or
signs a permit may sign, and a vault whose flow caps the public allocator charges may have them
charged. -/
def Operation.Within (B : Bounds) (sender target : Address) : Operation → Prop
  | .withdraw .. | .borrow .. | .withdrawCollateral .. => B.take sender
  | .setAuthorization owner _ => B.sign owner
  | .permit _ | .routerPermit _ => B.sign sender
  | .vaultWithdraw _ | .reallocate _ => B.take target
  | .publicReallocate _ _ => B.take target ∧ B.allocate target
  | _ => True

/-- A relation every write keeps is kept by every operation whose callback keeps it. -/
theorem Operation.perform_keeps {Q : State → State → Prop} (hQ : WriteInvariant B Q)
    {sender target : Address} {op : Operation} (hop : op.Within B sender target)
    {callback : Sim Unit} (hcb : Keeps (Guarded Q) callback) :
    Keeps (Guarded Q) (op.perform sender target callback) := by
  unfold Operation.perform
  refine Keeps.seq hQ.guarded (hQ.readOnly (readOnly_lift _)) fun _ => ?_
  cases op with
  | supply request _ => exact Keeps.discard (hQ.supply_keeps sender request hcb)
  | withdraw request _ => exact Keeps.discard (hQ.withdraw_keeps hop request hcb)
  | borrow request _ => exact Keeps.discard (hQ.borrow_keeps hop request hcb)
  | repay request _ => exact Keeps.discard (hQ.repay_keeps sender request hcb)
  | supplyCollateral request _ => exact hQ.supplyCollateral_keeps sender request hcb
  | withdrawCollateral request _ => exact hQ.withdrawCollateral_keeps hop request hcb
  | flashLoan token assets _ => exact hQ.flashLoan_keeps sender token assets hcb
  | accrueInterest id => exact Keeps.discard (hQ.accrueMarket_keeps id)
  | setAuthorization owner authorized => exact hQ.setAuthorization_keeps sender hop authorized
  | transfer request => exact hQ.transfer_keeps sender target request
  | routerTransfer request => exact hQ.routerTransfer_keeps sender target request
  | approve spender amount => exact hQ.setAllowance_keeps target sender spender _
  | permit request => exact hQ.permit_keeps hop target request
  | routerPermit request => exact hQ.routerPermit_keeps hop target request
  | wrap request => exact fun s _ s' h => hQ.exchanged_keeps (wrap_inv h)
  | unwrap request =>
    exact fun s _ s' h => (unwrap_inv h).elim fun _ hx => hQ.exchanged_keeps hx
  | vaultAccrueInterest => exact Keeps.discard (hQ.accrueVault_keeps target)
  | vaultDeposit request => exact hQ.vaultDeposit_keeps sender request
  | vaultWithdraw request => exact hQ.vaultWithdraw_keeps sender hop request
  | reallocate allocations => exact hQ.reallocate_keeps sender hop allocations
  | publicReallocate withdrawals supplyId =>
    exact hQ.publicReallocate_keeps sender hop.1 hop.2 withdrawals supplyId
  | vaultV2AccrueInterest => exact Keeps.discard (hQ.accrueVaultV2_keeps target)
  | vaultV2Deposit request => exact hQ.vaultV2Deposit_keeps sender target request
  | vaultV2Withdraw request => exact hQ.vaultV2Withdraw_keeps sender target request
  | swapBuy request => exact fun s _ s' h => hQ.exchanged_keeps (swapBuy_inv h)
  | swapSell request => exact fun s _ s' h => hQ.exchanged_keeps (swapSell_inv h)

/-- The operations that run a callback in their middle. -/
def Operation.Calls : Operation → Prop
  | .supply .. | .withdraw .. | .borrow .. | .repay .. | .supplyCollateral ..
  | .withdrawCollateral .. | .flashLoan .. => True
  | _ => False

/-- An operation without a callback starts no nested action. -/
theorem Operation.flattenNested_of_not_calls {op : Operation} (hop : ¬op.Calls) :
    op.flattenNested = [] := by
  cases op with
  | supply | withdraw | borrow | repay | supplyCollateral | withdrawCollateral | flashLoan =>
    exact absurd trivial hop
  | _ => rfl

/-- An operation without a callback runs alike whatever callback it is handed. -/
theorem Operation.perform_of_not_calls {op : Operation} (hop : ¬op.Calls) (sender target : Address)
    (callback : Sim Unit) : op.perform sender target callback = op.perform sender target (pure ()) := by
  cases op with
  | supply | withdraw | borrow | repay | supplyCollateral | withdrawCollateral | flashLoan =>
    exact absurd trivial hop
  | _ => rfl

/-- A relation `Q'` that takes in the writes' relation on either side is kept by every
operation whose callback keeps it; an operation without a callback needs `Q'` to hold wherever
the writes' relation does. -/
theorem Operation.perform_keeps_around {Q Q' : State → State → Prop} (hQ : WriteInvariant B Q)
    (hQ' : Absorbs Q Q') {sender target : Address} {op : Operation}
    (hop : op.Within B sender target) (hsub : ¬op.Calls → ∀ {s s'}, Q s s' → Q' s s')
    {callback : Sim Unit} (hcb : Keeps (Guarded Q') callback) :
    Keeps (Guarded Q') (op.perform sender target callback) := by
  by_cases hcalls : op.Calls
  · unfold Operation.perform
    refine Keeps.readOnly_bind (readOnly_lift _) fun _ => ?_
    cases op with
    | supply request _ => exact Keeps.discard (hQ.supply_keeps_around hQ' sender request hcb)
    | withdraw request _ => exact Keeps.discard (hQ.withdraw_keeps_around hQ' hop request hcb)
    | borrow request _ => exact Keeps.discard (hQ.borrow_keeps_around hQ' hop request hcb)
    | repay request _ => exact Keeps.discard (hQ.repay_keeps_around hQ' sender request hcb)
    | supplyCollateral request _ => exact hQ.supplyCollateral_keeps_around hQ' sender request hcb
    | withdrawCollateral request _ => exact hQ.withdrawCollateral_keeps_around hQ' hop request hcb
    | flashLoan token assets _ => exact hQ.flashLoan_keeps_around hQ' sender token assets hcb
    | _ => exact (hcalls : False).elim
  · rw [Operation.perform_of_not_calls hcalls]
    exact Keeps.mono (fun h hs => ⟨(h hs).1, hsub hcalls (h hs).2⟩)
      (Operation.perform_keeps hQ hop (hQ.readOnly (readOnly_pure ())))

/-- A relation every write keeps, with no bound on who may take from positions or use up a
signed nonce, is kept along every tree of actions. -/
theorem WriteInvariant.treeInvariant {Q : State → State → Prop}
    (hQ : WriteInvariant Bounds.all Q) :
    TreeInvariant (Guarded Q) (fun _ => True) where
  composes := hQ.guarded
  perform _ _ op _ _ hcb := Operation.perform_keeps hQ (by cases op <;> trivial) hcb

end LendingSim
