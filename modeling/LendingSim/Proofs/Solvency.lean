import Mathlib
import LendingSim.Proofs.Custody
import LendingSim.Proofs.Runners

/-!
# Custody along every run: solvency and spending

Custody, the balance of an address less what it lets others take and, for the core contract,
less what it owes, never falls along a run of actions none of which the address sends. The core
contract's handlers were taken one by one in `LendingSim.Proofs.Custody`; here are the rest:
the token handlers, which move the tokens of a custodian only against as much of its allowances,
and the vault handlers, which act on the markets through the core contract's own handlers with
the vault as sender, and never hold a custodian's tokens.

Two facts follow (`custody_monotone`). The core contract stays solvent: from a state where it
holds at least what it owes and lets nobody take anything, it holds at least what it owes after
every run of actions it does not send. And an address loses a token only against as much of its
allowances for it.
-/

namespace LendingSim

open Sim Perform State

variable {X T : Address} {s s' : State}

/-! ## Writes to others -/

/-- Putting back a holding of someone other than `X`, read at its key, spares `X`. -/
theorem gains_putHolding_other {owner token : Address} (howner : owner ≠ X) {h : Holding}
    (huser : h.user = (s.holding owner token).user) : Gains X T 0 s (s.putHolding h) := by
  intro hs hc
  have hkey : (X, T) ≠ (h.user, h.token) := by
    rw [huser, (hs.holding_user owner token).1]
    exact fun heq => howner (Prod.mk.inj heq).1.symm
  refine ⟨hs.putHolding h, hc.putHolding h (fun heq => absurd heq hkey)
    (fun heq => absurd heq hkey), rfl, ?_⟩
  rw [custody_putHolding_of_ne h hkey]
  omega

/-- Putting back a vault user of someone other than `X`, read at its key, spares `X`. -/
theorem gains_putVaultUser_other {vault owner : Address} (howner : owner ≠ X) {u : VaultUser}
    (huser : u.user = (s.vaultUser vault owner).user) : Gains X T 0 s (s.putVaultUser u) := by
  intro hs hc
  have howner' : u.user ≠ X := by
    rw [huser, (hs.vaultUser_key vault owner).2]
    exact howner
  have hnew : s.vaultAllowance X T u = 0 := by
    unfold vaultAllowance
    exact if_neg fun h => howner' h.1
  have hold : s.vaultAllowance X T (s.vaultUser u.vault u.user) = 0 := by
    unfold vaultAllowance
    rw [(hs.vaultUser_key u.vault u.user).2]
    exact if_neg fun h => howner' h.1
  refine ⟨hs.putVaultUser u, hc.putVaultUser u fun h => absurd h howner', rfl, ?_⟩
  have hcustody := custody_putVaultUser (X := X) (T := T) hs u
  omega

/-- Setting an allowance of someone other than `X` spares `X`. -/
theorem setAllowance_gains (token : Address) {owner : Address} (howner : owner ≠ X)
    (spender : Address) (amount : UInt256) :
    Keeps (Gains X T 0) (setAllowance token owner spender amount) := by
  intro s u s' h
  rcases setAllowance_inv h with ⟨named, -, rfl⟩ | ⟨-, -, rfl⟩
  · exact gains_putHolding_other howner rfl
  · exact gains_putVaultUser_other howner rfl

/-- Setting one router allowance of `owner` in `token` moves the custody of `X` in `T`, when it
is that holding, by what the allowance's amount loses. -/
theorem custody_setRouter (hs : s.WellFormed) (owner token : Address) (spender : RouterSpender)
    (a : RouterAllowance) :
    (s.putHolding { s.holding owner token with
        routerAllowances := (s.holding owner token).routerAllowances.set spender a }).custody X T =
      s.custody X T + (if token = T ∧ owner = X then
        (((s.holding owner token).routerAllowances.get spender).amount.toNat : Int) -
          a.amount.toNat else 0) := by
  have hwrite := custody_putHolding (X := X) (T := T) (s := s)
    { s.holding owner token with
      routerAllowances := (s.holding owner token).routerAllowances.set spender a }
    (hs.holding_user owner token)
  have hallowed := Holding.allowed_setRouter (s.holding owner token) spender a
  unfold balanceOf at hwrite
  dsimp only at hwrite hallowed ⊢
  split
  · next hmine =>
    rw [if_pos hmine, if_pos hmine] at hwrite
    omega
  · next hmine =>
    rw [if_neg hmine, if_neg hmine] at hwrite
    omega

/-! ## Tokens -/

theorem transfer_gains {sender : Address} (hsender : sender ≠ X) (token : Address)
    (request : TransferRequest) : Keeps (Gains X T 0) (transfer sender token request) := by
  intro s u s' h
  obtain ⟨amount, hmove⟩ := transfer_inv h
  refine move_spares (fun hsame => ?_) s () s' hmove
  rw [← hsame]
  exact hsender

/-- A router amount spent down by at most itself: custody gains what the amount loses, and a
custodian stays one, its amounts as the router's own still below the unlimited one. -/
theorem routerSpend_gains (owner token : Address) (spender : RouterSpender) {a : RouterAllowance}
    (ha : (s.holding owner token).routerAllowances.get spender = a) (remaining : UInt256)
    (hle : remaining.toNat ≤ a.amount.toNat) :
    Gains X T (if token = T ∧ owner = X then (a.amount.toNat : Int) - remaining.toNat else 0)
      s (s.putHolding { s.holding owner token with
        routerAllowances := (s.holding owner token).routerAllowances.set spender
          { a with amount := remaining } }) := by
  intro hs hc
  refine ⟨hs.putHolding _, hc.putHolding _ ?_ ?_, rfl, ?_⟩
  · intro hkey
    obtain ⟨rfl, rfl⟩ := holding_key_eq hs rfl rfl hkey
    exact hc.named
  · intro hkey hpermit other
    obtain ⟨rfl, rfl⟩ := holding_key_eq hs rfl rfl hkey
    have hbelow := hc.router hpermit
    show (((s.holding X T).routerAllowances.set spender _).get other).amount.toNat < _
    rw [RouterAllowances.get_set]
    split
    · have := hbelow spender
      rw [ha] at this
      exact lt_of_le_of_lt hle this
    · exact hbelow other
  · rw [custody_setRouter hs, ha]

/-- A transfer through the permit router spends the source's router allowance first. When the
source is the router itself, which moves its own tokens without an allowance, that spending pays
for the debit; any other source also pays with its allowance to the router. -/
theorem routerTransfer_gains (sender token : Address) (request : TransferRequest) :
    Keeps (Gains X T 0) (routerTransfer sender token request) := by
  intro s u s' h hs hc
  obtain ⟨spender, -, havailable, hmove⟩ := routerTransfer_inv h
  generalize ha : (s.holding request.source token).routerAllowances.get spender = a
    at havailable hmove
  generalize amountOf request.amount = amount at havailable hmove
  have hamount : amount.toNat ≤ a.amount.toNat := by
    unfold RouterAllowance.available at havailable
    split at havailable
    · exact le_trans havailable (Nat.zero_le _)
    · exact havailable
  have hle : (if a.amount = maxRouterAmount then a.amount else a.amount.zeroFloorSub amount).toNat ≤
      a.amount.toNat := by
    split
    · exact le_rfl
    · rw [UInt256.toNat_zeroFloorSub]
      omega
  obtain ⟨hs', hc', hr', hg⟩ := ((routerSpend_gains request.source token spender ha _ hle).trans
    (move_gains _ _ () s' hmove)) hs hc
  refine ⟨hs', hc', hr', ?_⟩
  have hdestination := share_nonneg (X := X) (T := T) token request.destination amount
  unfold Perform.Movement.gain at hg
  dsimp only at hg
  by_cases hself : s.registry.permit2 = request.source ∧ token = T ∧ request.source = X
  · obtain ⟨hpermit, htoken, hsource⟩ := hself
    have hbelow := hc.router (hsource.symm.trans hpermit.symm) spender
    rw [← htoken, ← hsource, ha] at hbelow
    have hfinite : a.amount ≠ maxRouterAmount := fun heq => by
      rw [heq] at hbelow
      exact lt_irrefl _ hbelow
    have hspent : (if a.amount = maxRouterAmount then a.amount
        else a.amount.zeroFloorSub amount).toNat = a.amount.toNat - amount.toNat := by
      rw [if_neg hfinite, UInt256.toNat_zeroFloorSub]
    have hshare : share X T token request.source amount = amount.toNat := by
      unfold share
      exact if_pos (And.intro htoken hsource)
    rw [if_pos (And.intro htoken hsource), if_pos hpermit, hshare, hspent] at hg
    omega
  · have hnone : (if s.registry.permit2 = request.source then
        share X T token request.source amount else 0) = 0 := by
      split
      · next hpermit =>
        unfold share
        exact if_neg fun hmine => hself ⟨hpermit, hmine.1, hmine.2⟩
      · rfl
    have hfirst : 0 ≤ (if token = T ∧ request.source = X then (a.amount.toNat : Int) -
        (if a.amount = maxRouterAmount then a.amount else a.amount.zeroFloorSub amount).toNat
        else 0) := by
      split <;> omega
    rw [hnone] at hg
    omega

theorem permit_gains {sender : Address} (hsender : sender ≠ X) (token : Address)
    (request : PermitRequest) : Keeps (Gains X T 0) (permit sender token request) := by
  intro s u s' h
  obtain ⟨-, next, amount, -, hset⟩ := permit_inv h
  have hnonce : Gains X T 0 s
      (s.putHolding { s.holding sender token with permitNonce := some next }) :=
    gains_putHolding_other hsender rfl
  exact (Gains.composes X T).trans hnonce
    (setAllowance_gains token hsender _ _ _ () s' hset)

theorem routerPermit_gains {sender : Address} (hsender : sender ≠ X) (token : Address)
    (request : RouterPermitRequest) : Keeps (Gains X T 0) (routerPermit sender token request) := by
  intro s u s' h
  obtain ⟨spender, updated, -, -, -, rfl⟩ := routerPermit_inv h
  exact gains_putHolding_other hsender rfl

/-- Wrapping, unwrapping and swapping burn tokens of the sender and mint others. -/
theorem exchanged_gains {sender receiver : Address} (hsender : sender ≠ X)
    (h : Exchanged sender receiver s s') : Gains X T 0 s s' := by
  intro hs hc
  obtain ⟨given, taken, paid, got, s₁, hburn, hmint⟩ := h
  have hzero : Address.zero ≠ X := fun heq => hc.nonzero heq.symm
  exact ((Gains.composes X T).trans (move_spares (fun _ => hsender) s () s₁ hburn)
    (move_spares (fun _ => hzero) s₁ () s' hmint)) hs hc

/-! ## Vaults

A vault acts on the markets through the core contract's handlers with itself as sender, pulls
deposits and pays withdrawals from its own holding, and mints and burns its shares. None of this
touches a custodian, which is no vault and no adapter: every vault and adapter a handler reads
sits at another address. -/

theorem State.Custodian.vault_ne {address : Address} {v : Vault} (hc : s.Custodian X T)
    (hv : s.vaults.get? address = some v) : address ≠ X := by
  rintro rfl
  rw [hc.noVault] at hv
  cases hv

theorem State.Custodian.vaultV2_ne {address : Address} {v : VaultV2} (hc : s.Custodian X T)
    (hv : s.vaultV2s.get? address = some v) : address ≠ X := by
  rintro rfl
  rw [hc.noVaultV2] at hv
  cases hv

theorem State.Custodian.adapter_ne {address : Address} {a : VaultV2Adapter} (hc : s.Custodian X T)
    (ha : s.vaultV2Adapters.get? address = some a) : address ≠ X := by
  rintro rfl
  rw [hc.noAdapter] at ha
  cases ha

theorem State.Custodian.zero_ne (hc : s.Custodian X T) : Address.zero ≠ X :=
  fun heq => hc.nonzero heq.symm

/-- A step with nothing in the middle. -/
theorem pure_gains : Keeps (Gains X T 0) (pure () : Sim Unit) :=
  Keeps.of_readOnly (Gains.composes X T) (readOnly_pure ())

theorem accrueVault_gains (address : Address) : Keeps (Gains X T 0) (accrueVault address) := by
  intro s v' s' h hs hc
  obtain ⟨vault, totalAssets, totalSupply, s₁, s₂, hvault, hadd, hfee, rfl, rfl⟩ :=
    accrueVault_inv h
  have h₁ : Gains X T 0 s s₁ :=
    addSupplied_keeps (Gains.composes X T) address accrueMarket_gains _ _ s _ s₁ hadd
  obtain ⟨h₂, hvaults⟩ : Gains X T 0 s₁ s₂ ∧ s₂.vaults = s₁.vaults := by
    rcases hfee with ⟨rfl, -⟩ | ⟨feeShares, hmint, -⟩
    · exact ⟨Gains.refl _, rfl⟩
    · exact ⟨move_spares (fun _ => hc.zero_ne) s₁ () s₂ hmint, (move_vaultBooks hmint).1⟩
  have hkey : (s₂.vaults.get? vault.address).map Vault.asset = some vault.asset := by
    rw [hvaults, addSupplied_vaults hadd, hs.vault_address hvault, hvault, Option.map_some]
  exact ((Gains.composes X T).trans ((Gains.composes X T).trans h₁ h₂)
    (gains_putVault (v := { vault with totalSupply, totalAssets, lastTotalAssets := totalAssets })
      hkey)) hs hc

/-- A deposit pulls the assets into the vault, from the sender or, when the sender is the vault,
from the vault itself, and supplies them on the markets as the vault. -/
theorem vaultDeposit_gains (sender address : Address) (request : DepositRequest) :
    Keeps (Gains X T 0) (vaultDeposit sender address request) := by
  intro s u s' h hs hc
  obtain ⟨vault, flow, totalSupply, totalAssets, remaining, s₁, s₂, s₃, hacc, -, hpull, hmint, -,
    -, hsupply⟩ := vaultDeposit_inv h
  obtain ⟨v₀, hv₀, -⟩ := accrueVault_stored hs hacc
  have hvault : address ≠ X := hc.vault_ne hv₀
  have hkey : (s₃.vaults.get? vault.address).map Vault.asset = some vault.asset := by
    rw [(move_vaultBooks hmint).1, (move_vaultBooks hpull).1, accrueVault_get? hacc,
      Option.map_some]
  have h₂ : Gains X T 0 s₁ s₂ := move_spares (fun hsame => by rw [← hsame]; exact hvault) s₁ () s₂ hpull
  have h₃ : Gains X T 0 s₂ s₃ := move_spares (fun _ => hc.zero_ne) s₂ () s₃ hmint
  have h₄ : Keeps (Gains X T 0) (supplyToMarkets address vault.supplyQueue flow.assets) :=
    supplyToMarkets_keeps (Gains.composes X T) address accrueMarket_gains
      (fun request _ => supply_gains hvault request pure_gains) _ _
  exact ((Gains.composes X T).trans ((Gains.composes X T).trans ((Gains.composes X T).trans
    ((Gains.composes X T).trans (accrueVault_gains address s vault s₁ hacc) h₂) h₃)
    (gains_putVault (v := { vault with totalSupply, totalAssets, lastTotalAssets := totalAssets })
      hkey)) (h₄ _ _ _ hsupply)) hs hc

/-- A withdrawal burns the owner's shares on a sender other than `X`, takes what the idle balance
lacks from the markets as the vault, and pays out of the vault's holding. -/
theorem vaultWithdraw_gains {sender : Address} (hsender : sender ≠ X) (address : Address)
    (request : RedeemRequest) : Keeps (Gains X T 0) (vaultWithdraw sender address request) := by
  intro s u s' h hs hc
  obtain ⟨vault, flow, totalSupply, lacking, remaining, s₁, s₂, s₃, hacc, -, hburn, -, hwithdraw,
    hpay⟩ := vaultWithdraw_inv h
  obtain ⟨v₀, hv₀, -⟩ := accrueVault_stored hs hacc
  have hvault : address ≠ X := hc.vault_ne hv₀
  have hkey : (s₂.vaults.get? vault.address).map Vault.asset = some vault.asset := by
    rw [(move_vaultBooks hburn).1, accrueVault_get? hacc, Option.map_some]
  have h₂ : Gains X T 0 s₁ s₂ :=
    move_spares (fun hsame => by rw [← hsame]; exact hsender) s₁ () s₂ hburn
  have h₃ : Keeps (Gains X T 0) (withdrawFromMarkets address vault.withdrawQueue lacking) :=
    withdrawFromMarkets_keeps (Gains.composes X T) address accrueMarket_gains
      (fun request _ _ => withdraw_gains address request pure_gains) _ _
  have h₄ : Gains X T 0 s₃ s' := move_spares (fun _ => hvault) s₃ () s' hpay
  exact ((Gains.composes X T).trans ((Gains.composes X T).trans ((Gains.composes X T).trans
    ((Gains.composes X T).trans (accrueVault_gains address s vault s₁ hacc) h₂)
    (gains_putVault
      (v := { vault with totalSupply, totalAssets := vault.totalAssets.zeroFloorSub flow.assets,
                         lastTotalAssets := vault.totalAssets.zeroFloorSub flow.assets }) hkey))
    (h₃ _ _ _ hwithdraw)) h₄) hs hc

/-- A reallocation reads the vault it acts for before anything else. -/
theorem reallocate_vault {sender address : Address} {allocations : List Allocation} {u : Unit}
    (h : reallocate sender address allocations s = .ok (u, s')) :
    ∃ v, s.vaults.get? address = some v := by
  unfold reallocate at h
  rw [read_bind] at h
  obtain ⟨v, hv, -⟩ := lift_bind_inv h
  exact ⟨v, State.vault_eq_ok hv⟩

theorem publicReallocate_vault {sender address : Address} {withdrawals : List Allocation}
    {supplyId : MarketId} {u : Unit}
    (h : publicReallocate sender address withdrawals supplyId s = .ok (u, s')) :
    ∃ v, s.vaults.get? address = some v := by
  unfold publicReallocate at h
  rw [read_bind, read_bind] at h
  obtain ⟨v, hv, -⟩ := lift_bind_inv h
  exact ⟨v, State.vault_eq_ok hv⟩

theorem reallocate_gains (sender address : Address) (allocations : List Allocation) :
    Keeps (Gains X T 0) (reallocate sender address allocations) := by
  intro s u s' h hs hc
  obtain ⟨v, hv⟩ := reallocate_vault h
  exact Perform.reallocate_keeps (Gains.composes X T) address accrueMarket_gains
    (fun request _ => supply_gains (hc.vault_ne hv) request pure_gains)
    (fun request _ _ => withdraw_gains address request pure_gains) sender allocations s u s' h hs hc

/-- The public allocator charges its fee to a sender other than `X`, stores the vault's terms
and flow caps, and reallocates for the vault. -/
theorem publicReallocate_gains {sender : Address} (hsender : sender ≠ X) (address : Address)
    (withdrawals : List Allocation) (supplyId : MarketId) :
    Keeps (Gains X T 0) (publicReallocate sender address withdrawals supplyId) := by
  intro s u s' h hs hc
  obtain ⟨v, hv⟩ := publicReallocate_vault h
  refine Perform.publicReallocate_keeps (Gains.composes X T) address accrueMarket_gains
    (fun request _ => supply_gains (hc.vault_ne hv) request pure_gains)
    (fun request _ _ => withdraw_gains address request pure_gains)
    (fun s c => gains_putVaultMarketConfig c) sender withdrawals supplyId
    (fun s _ s' hmove => move_spares (fun _ => hsender) s () s' hmove) ?_ s u s' h hs hc
  intro σ w terms hw hσ
  apply gains_putVault _ hσ
  rw [show ({ w with allocatorTerms := some terms } : Vault).address = w.address from rfl,
    hσ.vault_address hw, hw, Option.map_some]

/-! ## Second-kind vaults -/

theorem accrueVaultV2_gains (address : Address) : Keeps (Gains X T 0) (accrueVaultV2 address) := by
  intro s v' s' h hs
  obtain ⟨vault, totalAssets, hvault, rfl, rfl⟩ := accrueVaultV2_inv h
  have hkey : (s.vaultV2s.get? vault.address).map VaultV2.asset = some vault.asset := by
    rw [hs.vaultV2_address hvault, hvault, Option.map_some]
  exact gains_putVaultV2 hkey hs

/-- A deposit pulls the assets into the vault, mints its shares and forwards the assets to the
liquidity adapter, which is not `X` either. -/
theorem vaultV2Deposit_gains (sender address : Address) (request : DepositRequest) :
    Keeps (Gains X T 0) (vaultV2Deposit sender address request) := by
  intro s u s' h hs hc
  obtain ⟨vault, flow, totalSupply, totalAssets, s₁, s₂, s₃, hacc, -, hpull, hmint, -, -,
    hforward⟩ := vaultV2Deposit_inv h
  obtain ⟨v₀, hv₀, -⟩ := accrueVaultV2_stored hs hacc
  have hvault : address ≠ X := hc.vaultV2_ne hv₀
  have hkey : (s₃.vaultV2s.get? vault.address).map VaultV2.asset = some vault.asset := by
    rw [(move_vaultBooks hmint).2.1, (move_vaultBooks hpull).2.1, accrueVaultV2_get? hacc,
      Option.map_some]
  have h₄ : Gains X T 0 s _ := (Gains.composes X T).trans ((Gains.composes X T).trans
    ((Gains.composes X T).trans (accrueVaultV2_gains address s vault s₁ hacc)
      (move_spares (fun hsame => by rw [← hsame]; exact hvault) s₁ () s₂ hpull))
    (move_spares (fun _ => hc.zero_ne) s₂ () s₃ hmint))
    (gains_putVaultV2 (v := { vault with totalSupply, totalAssets }) hkey)
  rcases hforward with ⟨-, rfl⟩ | ⟨adapterAddress, adapter, realAssets, s₄, -, hadapter, hmove, -, rfl⟩
  · exact h₄ hs hc
  · have hs₃ := (h₄ hs hc).1
    have hkey' : (s₄.vaultV2Adapters.get? adapter.address).isSome := by
      rw [(move_vaultBooks hmove).2.2, hs₃.vaultV2Adapter_address hadapter, hadapter]
      rfl
    exact ((Gains.composes X T).trans ((Gains.composes X T).trans h₄
      (move_spares (fun _ => hvault) _ () s₄ hmove))
      (gains_putVaultV2Adapter (a := { adapter with realAssets }) hkey')) hs hc

/-- A withdrawal takes what the idle balance lacks back from the adapter, burns the owner's
shares on a sender other than `X`, and pays out of the vault's holding. -/
theorem vaultV2Withdraw_gains {sender : Address} (hsender : sender ≠ X) (address : Address)
    (request : RedeemRequest) : Keeps (Gains X T 0) (vaultV2Withdraw sender address request) := by
  intro s u s' h hs hc
  obtain ⟨vault, flow, totalSupply, s₁, s₂, s₃, s₄, hacc, -, hpulled, hburn, hpay, -, rfl⟩ :=
    vaultV2Withdraw_inv h
  obtain ⟨v₀, hv₀, -⟩ := accrueVaultV2_stored hs hacc
  have hvault : address ≠ X := hc.vaultV2_ne hv₀
  have h₁ := accrueVaultV2_gains (X := X) (T := T) address s vault s₁ hacc
  obtain ⟨hs₁, hc₁, -, -⟩ := h₁ hs hc
  obtain ⟨h₂, hvaults⟩ : Gains X T 0 s₁ s₂ ∧ s₂.vaultV2s = s₁.vaultV2s := by
    rcases hpulled with ⟨-, rfl⟩ | ⟨adapterAddress, adapter, missing, s₅, -, hadapter, -, -, hmove, rfl⟩
    · exact ⟨Gains.refl _, rfl⟩
    · have hkey : (s₅.vaultV2Adapters.get? adapter.address).isSome := by
        rw [(move_vaultBooks hmove).2.2, hs₁.vaultV2Adapter_address hadapter, hadapter]
        rfl
      exact ⟨(Gains.composes X T).trans
        (move_spares (fun _ => hc₁.adapter_ne hadapter) s₁ () s₅ hmove)
        (gains_putVaultV2Adapter
          (a := { adapter with realAssets := adapter.realAssets.zeroFloorSub missing }) hkey),
        (move_vaultBooks hmove).2.1⟩
  have hkey : (s₄.vaultV2s.get? vault.address).map VaultV2.asset = some vault.asset := by
    rw [(move_vaultBooks hpay).2.1, (move_vaultBooks hburn).2.1, hvaults, accrueVaultV2_get? hacc,
      Option.map_some]
  exact ((Gains.composes X T).trans ((Gains.composes X T).trans ((Gains.composes X T).trans
    ((Gains.composes X T).trans h₁ h₂)
    (move_spares (fun hsame => by rw [← hsame]; exact hsender) s₂ () s₃ hburn))
    (move_spares (fun _ => hvault) s₃ () s₄ hpay))
    (gains_putVaultV2
      (v := { vault with totalSupply, totalAssets := vault.totalAssets.zeroFloorSub flow.assets })
      hkey)) hs hc

/-! ## Every run -/

/-- Every operation that `X` does not send keeps custody, whenever its callback does. -/
theorem Operation.perform_gains {sender target : Address} (hsender : sender ≠ X) (op : Operation)
    {callback : Sim Unit} (hcb : Keeps (Gains X T 0) callback) :
    Keeps (Gains X T 0) (op.perform sender target callback) := by
  unfold Operation.perform
  refine Keeps.seq (Gains.composes X T) (Keeps.of_readOnly (Gains.composes X T) (readOnly_lift _))
    fun _ => ?_
  cases op with
  | supply request _ => exact Keeps.discard (supply_gains hsender request hcb)
  | withdraw request _ => exact Keeps.discard (withdraw_gains sender request hcb)
  | borrow request _ => exact Keeps.discard (borrow_gains sender request hcb)
  | repay request _ => exact Keeps.discard (repay_gains hsender request hcb)
  | supplyCollateral request _ => exact supplyCollateral_gains hsender request hcb
  | withdrawCollateral request _ => exact withdrawCollateral_gains sender request hcb
  | flashLoan token assets _ => exact flashLoan_gains hsender token assets hcb
  | accrueInterest id => exact Keeps.discard (accrueMarket_gains id)
  | setAuthorization owner authorized => exact setAuthorization_gains sender owner authorized
  | transfer request => exact transfer_gains hsender target request
  | routerTransfer request => exact routerTransfer_gains sender target request
  | approve spender amount => exact setAllowance_gains target hsender spender _
  | permit request => exact permit_gains hsender target request
  | routerPermit request => exact routerPermit_gains hsender target request
  | wrap request => exact fun s _ s' h => exchanged_gains hsender (wrap_inv h)
  | unwrap request =>
    exact fun s _ s' h => (unwrap_inv h).elim fun _ hx => exchanged_gains hsender hx
  | vaultAccrueInterest => exact Keeps.discard (accrueVault_gains target)
  | vaultDeposit request => exact vaultDeposit_gains sender target request
  | vaultWithdraw request => exact vaultWithdraw_gains hsender target request
  | reallocate allocations => exact reallocate_gains sender target allocations
  | publicReallocate withdrawals supplyId =>
    exact publicReallocate_gains hsender target withdrawals supplyId
  | vaultV2AccrueInterest => exact Keeps.discard (accrueVaultV2_gains target)
  | vaultV2Deposit request => exact vaultV2Deposit_gains sender target request
  | vaultV2Withdraw request => exact vaultV2Withdraw_gains hsender target request
  | swapBuy request => exact fun s _ s' h => exchanged_gains hsender (swapBuy_inv h)
  | swapSell request => exact fun s _ s' h => exchanged_gains hsender (swapSell_inv h)

/-- Custody is kept along every tree of actions that `X` sends none of, at any depth. -/
theorem custody_treeInvariant (X T : Address) :
    TreeInvariant (Gains X T 0) (fun a => a.sender ≠ X) where
  composes := Gains.composes X T
  perform _ _ op _ hsender hcb := Operation.perform_gains hsender op hcb

/-- Along a trace of trees that all meet `P` everywhere, every state is related to the first. -/
theorem TreeInvariant.trace {R : State → State → Prop} {P : Action → Prop}
    (hR : TreeInvariant R P) {index : Nat} {s : State} {actions : List Action}
    {states : List State} (h : Trace index s actions states) :
    listEverywhere P actions → ∀ t ∈ states, R s t := by
  induction h with
  | nil index s =>
    intro _ t ht
    rw [List.mem_singleton.mp ht]
    exact hR.composes.refl s
  | cons hrun _ ih =>
    intro hP t ht
    rcases List.mem_cons.mp ht with rfl | ht
    · exact hR.composes.refl _
    · exact hR.composes.trans (hR.run _ hP.1 _ _ _ hrun) (ih hP.2 t ht)

/-- Custody never falls along a run of actions none of which, at any depth, `X` sends, from a
well-formed state where `X` is a custodian. -/
theorem custody_monotone {index : Nat} {actions : List Action} (hs : s.WellFormed)
    (hc : s.Custodian X T) (hsender : listEverywhere (fun a => a.sender ≠ X) actions)
    (h : runActions index actions s = .ok s') :
    s'.registry = s.registry ∧ s.custody X T ≤ s'.custody X T := by
  obtain ⟨-, -, hr, hg⟩ := (custody_treeInvariant X T).list actions hsender index s s' h hs hc
  exact ⟨hr, by omega⟩

/-! ## Solvency of the core contract -/

theorem Holding.allowance_le_allowed (h : Holding) (spender : Spender) :
    (h.allowances.get spender).toNat ≤ h.allowed := by
  cases spender <;> simp only [Holding.allowed, Allowances.get] <;> omega

theorem Holding.routerAmount_le_allowed (h : Holding) (spender : RouterSpender) :
    (h.routerAllowances.get spender).amount.toNat ≤ h.allowed := by
  cases spender <;> simp only [Holding.allowed, RouterAllowances.get] <;> omega

/-- What `owner` lets one vault pull is part of what it lets all vaults pull. -/
theorem vaultAllowance_le_vaultAllowed (hs : s.WellFormed) (vault owner : Address) :
    s.vaultAllowance owner T (s.vaultUser vault owner) ≤ s.vaultAllowed owner T := by
  have hput : (s.putVaultUser (VaultUser.new vault owner)).vaultAllowed owner T +
      s.vaultAllowance owner T (s.vaultUser vault owner) = s.vaultAllowed owner T + 0 := by
    rw [← vaultAllowance_new owner T vault owner]
    exact vaultAllowed_putVaultUser hs (VaultUser.new vault owner)
  omega

/-- An address that is no vault and no adapter, and lets nobody take anything of `T`, is a
custodian of it. -/
theorem State.Custodian.of_allowanceOf (hs : s.WellFormed) (hzero : X ≠ .zero)
    (hvault : s.vaults.get? X = none) (hvaultV2 : s.vaultV2s.get? X = none)
    (hadapter : s.vaultV2Adapters.get? X = none)
    (happroves : X = s.registry.morpho ∨ X ≠ s.registry.generalAdapter1)
    (hnone : s.allowanceOf X T = 0) : s.Custodian X T := by
  unfold allowanceOf at hnone
  have hmax : UInt256.maxValue.toNat ≠ 0 := by decide
  refine ⟨hzero, hvault, hvaultV2, hadapter, happroves, fun spender heq => ?_,
    fun _ spender => ?_, fun v hv heq => ?_⟩
  · have hle := (s.holding X T).allowance_le_allowed spender
    rw [heq] at hle
    omega
  · have hle := (s.holding X T).routerAmount_le_allowed spender
    have hpos : 0 < maxRouterAmount.toNat := by decide
    omega
  · have hle := vaultAllowance_le_vaultAllowed (T := T) hs v X
    unfold vaultAllowance at hle
    have hasset : s.vaultAsset? (s.vaultUser v X).vault = some T := by
      rw [(hs.vaultUser_key v X).1]
      exact hv
    rw [if_pos ⟨(hs.vaultUser_key v X).2, hasset⟩, heq] at hle
    omega

/-- The core contract stays solvent: from a well-formed state where it is at a nonzero address,
no vault and no adapter, lets nobody take anything and holds of every token what it owes (market
liquidity and pledged collateral), it still holds that much after every action of a run it sends
none of. -/
theorem core_contract_stays_solvent {s : State} {index : Nat} {actions : List Action}
    {states : List State} (hs : s.WellFormed) (hzero : s.registry.morpho ≠ .zero)
    (hvault : s.vaults.get? s.registry.morpho = none)
    (hvaultV2 : s.vaultV2s.get? s.registry.morpho = none)
    (hadapter : s.vaultV2Adapters.get? s.registry.morpho = none)
    (hnone : ∀ T, s.allowanceOf s.registry.morpho T = 0)
    (hsolvent : ∀ T, s.owed T ≤ (s.balanceOf s.registry.morpho T).toNat)
    (hsender : listEverywhere (fun a => a.sender ≠ s.registry.morpho) actions)
    (htrace : Trace index s actions states) :
    ∀ t ∈ states, ∀ T, t.owed T ≤ (t.balanceOf t.registry.morpho T).toNat := by
  intro t ht T
  have hc := State.Custodian.of_allowanceOf hs hzero hvault hvaultV2 hadapter (.inl rfl) (hnone T)
  obtain ⟨-, -, hr, hg⟩ :=
    (custody_treeInvariant s.registry.morpho T).trace htrace hsender t ht hs hc
  have hstart := hsolvent T
  unfold custody at hg
  rw [hr, if_pos rfl, if_pos rfl, hnone T] at hg
  rw [hr]
  omega

namespace LenderSample

def loanToken : Address := ⟨0x60, by decide⟩

def lender : Address := ⟨0x61, by decide⟩

def market : Market :=
  Market.new ⟨loanToken, ⟨0x62, by decide⟩, ⟨0x63, by decide⟩, ⟨0x64, by decide⟩, 0⟩ 0

/-- An empty market lending the loan token, and a lender holding a hundred of it and letting the
core contract, at address `morpho`, take it all. -/
def state (morpho : Address) : State :=
  ((State.new .ethereum ⟨0, 0⟩
    ⟨morpho, ⟨0x65, by decide⟩, ⟨0x66, by decide⟩, ⟨0x67, by decide⟩, ⟨0x68, by decide⟩, none⟩).putMarket
    market).putHolding
    { Holding.empty lender loanToken with
      balance := 100, allowances := { Allowances.zero with morpho := UInt256.maxValue } }

/-- The lender supplies its hundred to the market. -/
def lend (morpho : Address) : Action :=
  .mk lender morpho (.supply ⟨market.id, Int256.ofBits 100, Int256.ofBits 0, lender, none, none⟩ none)

def core : Address := ⟨0x69, by decide⟩

theorem owed_state (morpho T : Address) : (state morpho).owed T = 0 := by
  have hlent : market.lent T = 0 := by
    unfold Market.lent
    split <;> rfl
  unfold owed
  rw [show (state morpho).markets.sum (Market.lent T) = market.lent T from rfl, hlent]
  rfl

theorem allowanceOf_state (T : Address) : (state core).allowanceOf core T = 0 := by
  unfold allowanceOf state
  rw [holding_putHolding, if_neg (fun h => absurd (Prod.mk.inj h).1 (by decide))]
  rfl

end LenderSample

open LenderSample in
/-- The lender supplying to the market: every state of the run is solvent. -/
theorem core_contract_stays_solvent_lending :
    ∃ states, Trace 0 (state core) [lend core] states ∧
      ∀ t ∈ states, ∀ T, t.owed T ≤ (t.balanceOf t.registry.morpho T).toNat := by
  obtain ⟨s', h⟩ := Except.exists_eq_ok (x := runActions 0 [lend core] (state core))
    (by decide +kernel)
  obtain ⟨states, htrace, -⟩ := runActions_eq_ok_iff.mp h
  have hs : (state core).WellFormed :=
    ((State.new_wellFormed _ _ _).putMarket market).putHolding _
  have hsender : listEverywhere (fun a => a.sender ≠ (state core).registry.morpho) [lend core] :=
    ⟨⟨by decide, trivial⟩, trivial⟩
  exact ⟨states, htrace, core_contract_stays_solvent hs (by decide) rfl rfl rfl allowanceOf_state
    (fun T => by rw [owed_state]; exact Nat.zero_le _) hsender htrace⟩

open LenderSample in
/-- A core contract at the zero address burns what it is supplied: after the lender's supply it
owes the market's hundred and holds nothing. -/
theorem core_contract_at_zero_address_insolvent :
    ∃ s', runActions 0 [lend .zero] (state .zero) = .ok s' ∧
      (s'.balanceOf s'.registry.morpho loanToken).toNat < s'.owed loanToken := by
  obtain ⟨s', h, hcheck⟩ := Except.exists_eq_ok_of_check
    (x := runActions 0 [lend .zero] (state .zero))
    (fun s' => decide ((s'.balanceOf s'.registry.morpho loanToken).toNat < s'.owed loanToken))
    (by decide +kernel)
  exact ⟨s', h, of_decide_eq_true hcheck⟩

/-! ## Spending -/

/-- A user loses a token only against as much of its allowances for it: a user other than the
zero address, the core contract, the general adapter, a vault or an adapter, without unlimited
allowances, loses at most what its allowances fall by along any run of actions it sends none of. -/
theorem balance_falls_only_by_allowances {index : Nat} {actions : List Action} {u : Address}
    (hs : s.WellFormed) (hzero : u ≠ .zero) (hmorpho : u ≠ s.registry.morpho)
    (hgeneral : u ≠ s.registry.generalAdapter1) (hvault : s.vaults.get? u = none)
    (hvaultV2 : s.vaultV2s.get? u = none) (hadapter : s.vaultV2Adapters.get? u = none)
    (hnamed : ∀ spender, (s.holding u T).allowances.get spender ≠ UInt256.maxValue)
    (hrouter : u = s.registry.permit2 → ∀ spender,
      ((s.holding u T).routerAllowances.get spender).amount.toNat < maxRouterAmount.toNat)
    (hvaults : ∀ v, s.vaultAsset? v = some T → (s.vaultUser v u).allowance ≠ UInt256.maxValue)
    (hsender : listEverywhere (fun a => a.sender ≠ u) actions)
    (h : runActions index actions s = .ok s') :
    ((s.balanceOf u T).toNat : Int) - (s'.balanceOf u T).toNat ≤
      (s.allowanceOf u T : Int) - s'.allowanceOf u T := by
  have hc : s.Custodian u T :=
    ⟨hzero, hvault, hvaultV2, hadapter, .inr hgeneral, hnamed, hrouter, hvaults⟩
  obtain ⟨hr, hg⟩ := custody_monotone hs hc hsender h
  unfold custody at hg
  rw [hr, if_neg hmorpho] at hg
  omega

namespace SpenderSample

def token : Address := ⟨0x70, by decide⟩

def owner : Address := ⟨0x71, by decide⟩

def payee : Address := ⟨0x72, by decide⟩

def morpho : Address := ⟨0x73, by decide⟩

def router : Address := ⟨0x74, by decide⟩

def registry : Registry :=
  ⟨morpho, router, ⟨0x75, by decide⟩, ⟨0x76, by decide⟩, ⟨0x77, by decide⟩, none⟩

/-- The owner holds a thousand and lets the core contract take a hundred. -/
def state : State :=
  (State.new .ethereum ⟨0, 0⟩ registry).putHolding
    { Holding.empty owner token with
      balance := 1000, allowances := { Allowances.zero with morpho := 100 } }

/-- The core contract moves `amount` of the owner's tokens to the payee. -/
def pull (amount : UInt256) : Action :=
  .mk morpho token (.transfer ⟨Int256.ofBits amount, owner, payee⟩)

/-- The permit router holds a thousand, and its router amount for the core contract is one above
the unlimited one. -/
def routerState : State :=
  (State.new .ethereum ⟨0, 0⟩ registry).putHolding
    { Holding.empty router token with
      balance := 1000,
      routerAllowances := { RouterAllowances.zero with
        morpho := ⟨0x10000000000000000000000000000000000000000, 4102444800, 0⟩ } }

/-- The core contract moves `amount` of the router's tokens to the payee through the router. -/
def routerPull (amount : UInt256) : Action :=
  .mk morpho token (.routerTransfer ⟨Int256.ofBits amount, router, payee⟩)

end SpenderSample

open SpenderSample in
/-- The core contract moving sixty of the owner's tokens spends sixty of its allowance. -/
theorem balance_falls_only_by_allowances_pull :
    ∃ s', runActions 0 [pull 60] state = .ok s' ∧
      ((state.balanceOf owner token).toNat : Int) - (s'.balanceOf owner token).toNat ≤
        (state.allowanceOf owner token : Int) - s'.allowanceOf owner token := by
  obtain ⟨s', h⟩ := Except.exists_eq_ok (x := runActions 0 [pull 60] state) (by decide +kernel)
  have hs : state.WellFormed := (State.new_wellFormed _ _ _).putHolding _
  have hsender : listEverywhere (fun a => a.sender ≠ owner) [pull 60] :=
    ⟨⟨by decide, trivial⟩, trivial⟩
  refine ⟨s', h, balance_falls_only_by_allowances hs (by decide) (by decide) (by decide) rfl rfl rfl
    (fun spender => by cases spender <;> decide) (fun h => absurd h (by decide))
    (fun v hv => ?_) hsender h⟩
  cases hv

open SpenderSample in
/-- A router amount above the unlimited one is spent down to it and then no more: the permit
router, whose amount for the core contract is not the unlimited one, loses a thousand while its
allowances fall by one. -/
theorem router_spends_past_its_amount :
    ((routerState.holding router token).routerAllowances.get .morpho).amount ≠ maxRouterAmount ∧
    ∃ s', runActions 0 [routerPull 1, routerPull 999] routerState = .ok s' ∧
      (routerState.allowanceOf router token : Int) - s'.allowanceOf router token <
        ((routerState.balanceOf router token).toNat : Int) - (s'.balanceOf router token).toNat := by
  refine ⟨by decide +kernel, ?_⟩
  obtain ⟨s', h, hcheck⟩ := Except.exists_eq_ok_of_check
    (x := runActions 0 [routerPull 1, routerPull 999] routerState)
    (fun s' => decide ((routerState.allowanceOf router token : Int) - s'.allowanceOf router token <
        ((routerState.balanceOf router token).toNat : Int) - (s'.balanceOf router token).toNat))
    (by decide +kernel)
  exact ⟨s', h, of_decide_eq_true hcheck⟩

end LendingSim
