import Mathlib
import LendingSim.Proofs.MarketInvariants

/-!
# Positions change against their owner only with the owner's consent

A position can be made worse (supply shares or collateral taken, borrow shares added) only by a
withdrawal, a borrow or a collateral withdrawal on the owner's behalf, and the core contract lets
those through only for the owner itself, or for the general adapter when the owner has
authorized the bundler. A vault withdraws from markets on its own behalf, so a vault is its own
sender there. Hence a user `u` that is no vault, has not authorized the bundler, sends no action
and sets no authorization of its own is safe: `Consent u` relates the states of a run in which
`u` stays so and every position of `u` is no worse (`positions_need_owner_consent`).

The write bound `· ≠ u` of `Operation.perform_keeps` does all the work, save for vault
operations sent to `u` itself: those fail, since `u` is no vault.
-/

namespace LendingSim

open Sim Perform

/-! ## Positions no worse -/

namespace Position

/-- `p'` holds at least the supply shares and collateral of `p`, and at most its borrow shares. -/
def NoWorse (p p' : Position) : Prop :=
  p.supplyShares.toNat ≤ p'.supplyShares.toNat ∧ p.collateral.toNat ≤ p'.collateral.toNat ∧
    p'.borrowShares.toNat ≤ p.borrowShares.toNat

@[refl]
theorem NoWorse.refl (p : Position) : p.NoWorse p := ⟨le_rfl, le_rfl, le_rfl⟩

theorem NoWorse.trans {p₁ p₂ p₃ : Position} (h₁₂ : p₁.NoWorse p₂) (h₂₃ : p₂.NoWorse p₃) :
    p₁.NoWorse p₃ :=
  ⟨h₁₂.1.trans h₂₃.1, h₁₂.2.1.trans h₂₃.2.1, h₂₃.2.2.trans h₁₂.2.2⟩

end Position

namespace State

variable {s : State} {u : Address}

/-- Nobody but `u` may manage the positions of `u`: it is no vault and has not authorized the
bundler. -/
def Unmanaged (s : State) (u : Address) : Prop :=
  s.vaults.get? u = none ∧ (s.user u).isBundlerAuthorized = false

/-- Only `u` may take from the positions of an unmanaged `u`. -/
theorem Unmanaged.not_mayManage (hu : s.Unmanaged u) {sender : Address} (hsender : sender ≠ u) :
    ¬ MayManage s sender u := by
  rintro (rfl | ⟨-, hauthorized⟩)
  · exact hsender rfl
  · rw [hu.2] at hauthorized
    cases hauthorized

/-- Putting back a position leaves every position of `u` no worse, if the one put back is
no worse than before whenever it belongs to `u`. -/
theorem noWorse_putPosition {user : Address} {id₀ : MarketId} (p : Position)
    (hp : p.user = user ∧ p.marketId = id₀) (hworse : user = u → (s.position user id₀).NoWorse p)
    (id : MarketId) : (s.position u id).NoWorse ((s.putPosition p).position u id) := by
  rw [position_putPosition]
  split
  · next heq =>
    obtain ⟨rfl, rfl⟩ := Prod.mk.inj heq
    rw [hp.1, hp.2]
    exact hworse hp.1.symm
  · exact .refl _

end State

/-! ## Every write keeps an unmanaged user's positions -/

variable {s s' : State} {u : Address}

/-- The bounds of writes made for others than `u`: none takes from a position for `u` and
none sets an authorization of `u`. -/
def Bounds.notBy (u : Address) : Bounds := ⟨(· ≠ u), (· ≠ u), fun _ => True⟩

/-- While `u` stays unmanaged, its positions get no worse. -/
def Consent (u : Address) (s s' : State) : Prop :=
  s.Unmanaged u → s'.Unmanaged u ∧ ∀ id, (s.position u id).NoWorse (s'.position u id)

theorem consent_composes (u : Address) : Composes (Consent u) where
  refl _ hu := ⟨hu, fun _ => .refl _⟩
  trans h₁₂ h₂₃ hu :=
    ⟨(h₂₃ (h₁₂ hu).1).1, fun id => ((h₁₂ hu).2 id).trans ((h₂₃ (h₁₂ hu).1).2 id)⟩

/-- A write that puts back a position of someone else than `u`, or one of `u`'s no worse. -/
theorem consent_putPosition (hu : s.Unmanaged u) {user : Address}
    {id₀ : MarketId} (p : Position) (hp : p.user = user ∧ p.marketId = id₀)
    (hworse : user = u → (s.position user id₀).NoWorse p) :
    Consent u s (s.putPosition p) :=
  fun _ => ⟨hu, State.noWorse_putPosition p hp hworse⟩

/-- A write that takes from a position on behalf of its owner, made by a sender other than `u`,
cannot touch the positions of an unmanaged `u`. -/
theorem consent_putPosition_managed (hu : s.Unmanaged u)
    {sender user : Address} {id₀ : MarketId} (hauth : MayManage s sender user) (hsender : sender ≠ u)
    (p : Position) (hp : p.user = user ∧ p.marketId = id₀) : Consent u s (s.putPosition p) := by
  refine consent_putPosition hu p hp fun huser => ?_
  subst huser
  exact absurd hauth (hu.not_mayManage hsender)

/-- Every write made by a sender other than `u`, setting no authorization of `u`, keeps
`Consent u`. -/
theorem Write.consent (hw : Write (Bounds.notBy u) s s') (hs : s.WellFormed) : Consent u s s' := by
  intro hu
  cases hw with
  | holding | permit | routerPermit | vaultUser | vaultMarketConfig | vaultV2 | vaultV2Adapter =>
    exact ⟨hu, fun _ => .refl _⟩
  | vault v hv =>
    refine ⟨⟨?_, hu.2⟩, fun _ => .refl _⟩
    rw [State.vaults_putVault, if_neg]
    · exact hu.1
    · rintro rfl
      rw [hu.1] at hv
      cases hv
  | authorize owner morphoNonce authorized howner =>
    refine ⟨⟨hu.1, ?_⟩, fun _ => .refl _⟩
    rw [State.user_putUser, if_neg (fun h => howner (h.trans (hs.user_address owner)).symm)]
    exact hu.2
  | accrue h =>
    obtain ⟨m, accrual, s₁, hm, hrun, hfee, rfl⟩ := accrueMarket_inv h
    rcases hfee with ⟨-, rfl⟩ | ⟨total, htotal, rfl⟩
    · exact ⟨hu, fun _ => .refl _⟩
    · exact consent_putPosition hu _ (hs.position_user _ _)
        (fun _ => ⟨by dsimp only; omega, le_rfl, le_rfl⟩) hu
  | supply hm hop hshares =>
    exact consent_putPosition hu _ (hs.position_user _ _)
      (fun _ => ⟨by dsimp only; omega, le_rfl, le_rfl⟩) hu
  | withdraw hauth hsender =>
    exact consent_putPosition_managed hu hauth hsender _ (hs.position_user _ _) hu
  | borrow hauth hsender =>
    exact consent_putPosition_managed hu hauth hsender _ (hs.position_user _ _) hu
  | repay hm hop hshares =>
    exact consent_putPosition hu _ (hs.position_user _ _)
      (fun _ => ⟨le_rfl, le_rfl, by dsimp only; omega⟩) hu
  | supplyCollateral hcollateral =>
    exact consent_putPosition hu _ (hs.position_user _ _)
      (fun _ => ⟨le_rfl, by dsimp only; omega, le_rfl⟩) hu
  | withdrawCollateral hauth hsender =>
    exact consent_putPosition_managed hu hauth hsender _ (hs.position_user _ _) hu

theorem consent_writeInvariant (u : Address) : WriteInvariant (Bounds.notBy u) (Consent u) where
  composes := consent_composes u
  write hs hw := hw.consent hs

/-! ## Only vaults act as vaults -/

/-- The operations by which the contract called takes from markets on its own behalf, as a
vault. -/
def Operation.WithdrawsAsVault : Operation → Prop
  | .vaultWithdraw _ | .reallocate _ | .publicReallocate _ _ => True
  | _ => False

/-- An operation that acts as a vault succeeds only at a vault: each reads the vault first. -/
theorem Operation.vault_of_perform {sender target : Address} {op : Operation}
    {callback : Sim Unit} {x : Unit} (hop : op.WithdrawsAsVault)
    (h : op.perform sender target callback s = .ok (x, s')) : (s.vaults.get? target).isSome := by
  unfold Operation.perform at h
  obtain ⟨-, -, h⟩ := (readOnly_lift _).bind_inv h
  cases op with
  | vaultWithdraw request =>
    dsimp only at h
    obtain ⟨vault, _, _, _, _, _, _, _, hacc, -⟩ := vaultWithdraw_inv h
    obtain ⟨v, _, _, _, _, hv, -⟩ := accrueVault_inv hacc
    rw [hv]
    rfl
  | reallocate allocations =>
    dsimp only at h
    unfold Perform.reallocate at h
    rw [read_bind] at h
    obtain ⟨v, hv, -⟩ := lift_bind_inv h
    rw [State.vault_eq_ok hv]
    rfl
  | publicReallocate withdrawals supplyId =>
    dsimp only at h
    unfold Perform.publicReallocate at h
    rw [read_bind, read_bind] at h
    obtain ⟨v, hv, -⟩ := lift_bind_inv h
    rw [State.vault_eq_ok hv]
    rfl
  | _ => nomatch hop

/-- An operation not sent by `u`, setting no authorization of `u` and acting as a vault
elsewhere than at `u`, writes only within the bounds `· ≠ u`. -/
theorem Operation.within_ne {sender target : Address} {op : Operation} (hsender : sender ≠ u)
    (howner : ∀ b, op ≠ .setAuthorization u b) (hvault : op.WithdrawsAsVault → target ≠ u) :
    op.Within (Bounds.notBy u) sender target := by
  cases op with
  | withdraw | borrow | withdrawCollateral | permit | routerPermit => exact hsender
  | setAuthorization owner authorized =>
    rintro rfl
    exact howner authorized rfl
  | vaultWithdraw | reallocate => exact hvault trivial
  | publicReallocate => exact ⟨hvault trivial, trivial⟩
  | _ => trivial

/-! ## Over every run -/

/-- Every write keeps a state well formed. -/
theorem wellFormed_writeInvariant : WriteInvariant Bounds.all (fun _ _ => True) where
  composes := ⟨fun _ => trivial, fun _ _ => trivial⟩
  write _ _ := trivial

/-- Every operation not sent by `u` and setting no authorization of `u` keeps `Consent u`,
whenever its callback does. -/
theorem consent_perform {sender target : Address} {op : Operation} {callback : Sim Unit}
    (hsender : sender ≠ u) (howner : ∀ b, op ≠ .setAuthorization u b)
    (hcb : Keeps (Guarded (Consent u)) callback) :
    Keeps (Guarded (Consent u)) (op.perform sender target callback) := by
  by_cases hvault : op.WithdrawsAsVault ∧ target = u
  · obtain ⟨hop, rfl⟩ := hvault
    intro s x s' h hs
    have hwf := Operation.perform_keeps wellFormed_writeInvariant (by cases op <;> trivial)
      (fun s x s' h hs => ⟨(hcb s x s' h hs).1, trivial⟩) s x s' h hs
    refine ⟨hwf.1, fun hu => ?_⟩
    have hsome := Operation.vault_of_perform hop h
    rw [hu.1] at hsome
    cases hsome
  · exact Operation.perform_keeps (consent_writeInvariant u)
      (Operation.within_ne hsender howner fun hop htarget => hvault ⟨hop, htarget⟩) hcb

/-- The action is not sent by `u` and does not set the authorization of `u`. -/
def Action.Without (u : Address) : Action → Prop
  | .mk sender _ op => sender ≠ u ∧ ∀ b, op ≠ .setAuthorization u b

theorem consent_treeInvariant (u : Address) :
    TreeInvariant (Guarded (Consent u)) (Action.Without u) where
  composes := (consent_writeInvariant u).guarded
  perform _ _ _ _ hP hcb := consent_perform hP.1 hP.2 hcb

/-- Positions cannot be made worse without their owner's consent: for a user `u` that is no
vault and has not authorized the bundler, after any successful run of actions none of which,
at any depth, is sent by `u` or sets the authorization of `u`, each position of `u` holds at
least the supply shares and collateral, and at most the borrow shares, it held before. -/
theorem positions_need_owner_consent {s s' : State} {index : Nat} {actions : List Action}
    {u : Address} (hs : s.WellFormed) (hvault : s.vaults.get? u = none)
    (hauthorized : (s.user u).isBundlerAuthorized = false)
    (hwithout : listEverywhere (Action.Without u) actions)
    (h : runActions index actions s = .ok s') (id : MarketId) :
    (s.position u id).supplyShares.toNat ≤ (s'.position u id).supplyShares.toNat ∧
    (s.position u id).collateral.toNat ≤ (s'.position u id).collateral.toNat ∧
    (s'.position u id).borrowShares.toNat ≤ (s.position u id).borrowShares.toNat :=
  (((consent_treeInvariant u).list actions hwithout index s s' h hs).2 ⟨hvault, hauthorized⟩).2 id

theorem LendingRun.actions_without_owner :
    listEverywhere (Action.Without LendingRun.owner) LendingRun.actions := by
  simp [LendingRun.actions, listEverywhere, Action.Everywhere, Operation.Everywhere,
    callbackEverywhere, Action.Without]
  decide

open LendingRun in
/-- The lender repaying and supplying for the owner, who neither acts nor authorizes anyone,
leaves every position of the owner no worse, and its debt lower. -/
theorem positions_need_owner_consent_lending :
    state.WellFormed ∧ state.vaults.get? owner = none ∧
      (state.user owner).isBundlerAuthorized = false ∧
      listEverywhere (Action.Without owner) actions ∧
      ∃ s', runActions 0 actions state = .ok s' ∧
        (s'.position owner market.id).borrowShares.toNat <
          (state.position owner market.id).borrowShares.toNat ∧
        ∀ id, (state.position owner id).supplyShares.toNat ≤ (s'.position owner id).supplyShares.toNat ∧
          (state.position owner id).collateral.toNat ≤ (s'.position owner id).collateral.toNat ∧
          (s'.position owner id).borrowShares.toNat ≤ (state.position owner id).borrowShares.toNat := by
  obtain ⟨s', h, -, -, hdebt⟩ := run_ok
  exact ⟨state_wellFormed, rfl, rfl, actions_without_owner, s', h, hdebt,
    positions_need_owner_consent state_wellFormed rfl rfl actions_without_owner h⟩

end LendingSim
