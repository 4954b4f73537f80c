import Mathlib
import LendingSim.Perform.Allocator
import LendingSim.Perform.VaultV2
import LendingSim.Proofs.Steps

/-!
# What vault operations do

The vaults act on markets through the core contract's own handlers, with the vault as sender and
as the position acted for. Their loops (summing what a vault supplies, supplying to the supply
queue, withdrawing from the withdraw queue, reallocating) keep whatever the steps they take keep
(`supplyToMarkets_keeps`, `withdrawFromMarkets_keeps`, `reallocateEach_keeps`): a relation
between states that composes and that every accrual, and every supply and withdrawal by the
vault for itself, keeps.

Deposits and withdrawals of both kinds of vault are inverted like the core contract's handlers:
accrue the vault, move the assets, mint or burn the shares, store the vault with its totals
raised or lowered by exactly as much, and move the assets on to or back from the markets or the
liquidity adapter. A first-kind vault's deposit and withdrawal each run a prefix doing all but
the walk along the queue, then the walk (`vaultDeposit_eq_depositPrefix_bind`,
`vaultWithdraw_eq_withdrawalPrefix_bind`), so what the walk starts from is a fact about the
prefix alone.
-/

namespace LendingSim.Perform

open Sim

variable {s s' : State}

theorem enabledConfig_readOnly (vault : Address) (id : MarketId) :
    ReadOnly (enabledConfig vault id) := by
  intro s config s' h
  unfold enabledConfig at h
  rw [read_bind] at h
  cases hconfig : s.vaultMarketConfigs.get? (vault, id) with
  | none =>
    rw [hconfig] at h
    cases h
  | some c =>
    rw [hconfig] at h
    dsimp only at h
    obtain ⟨-, h₁⟩ := guard_inv h
    exact (pure_inv h₁).2

/-! ## Loops over markets -/

section Loops

variable {R : State → State → Prop} (hR : Composes R) (vault : Address)
  (hacc : ∀ id, Keeps R (accrueMarket id))
include hR hacc

theorem suppliedAssets_keeps (id : MarketId) (rounding : Rounding) :
    Keeps R (suppliedAssets vault id rounding) := by
  unfold suppliedAssets
  exact Keeps.seq hR (hacc id) fun market =>
    Keeps.read fun s => Keeps.of_readOnly hR (readOnly_arith _)

theorem addSupplied_keeps : ∀ ids total, Keeps R (addSupplied vault total ids) := by
  intro ids
  induction ids with
  | nil => exact fun total => Keeps.pure hR.refl total
  | cons id rest ih =>
    intro total
    rw [addSupplied]
    refine Keeps.seq hR (suppliedAssets_keeps hR vault hacc id _) fun supplied => ?_
    exact Keeps.seq hR (Keeps.of_readOnly hR (readOnly_arith _)) fun total => ih total

/-- The walk along a withdraw queue whose markets are among `ids` keeps what every accrual, and
every withdrawal by the vault to itself from a market of `ids`, keeps. -/
theorem withdrawFromMarkets_keeps_of_subset (ids : List MarketId)
    (hstep : ∀ request : MarketRequest, request.onBehalf = vault →
      request.receiver = some vault → request.id ∈ ids → Keeps R (withdraw vault request (pure ()))) :
    ∀ queue, (∀ id ∈ queue, id ∈ ids) → ∀ remaining,
      Keeps R (withdrawFromMarkets vault queue remaining) := by
  intro queue
  induction queue with
  | nil => exact fun _ remaining => Keeps.pure hR.refl remaining
  | cons id rest ih =>
    intro hsub remaining
    have hrest : ∀ id' ∈ rest, id' ∈ ids := fun id' hid => hsub id' (List.mem_cons_of_mem id hid)
    rw [withdrawFromMarkets]
    refine Keeps.ite (Keeps.pure hR.refl _) ?_
    refine Keeps.seq hR (suppliedAssets_keeps hR vault hacc id _) fun supplied => ?_
    refine Keeps.read fun s => Keeps.seq hR (Keeps.of_readOnly hR (readOnly_lift _)) fun m => ?_
    exact Keeps.ite (ih hrest _) (Keeps.seq hR
      (Keeps.discard (hstep _ rfl rfl (hsub id List.mem_cons_self))) fun _ => ih hrest _)

variable (hsupply : ∀ request : MarketRequest, request.onBehalf = vault →
    Keeps R (supply vault request (pure ())))
  (hwithdraw : ∀ request : MarketRequest, request.onBehalf = vault →
    request.receiver = some vault → Keeps R (withdraw vault request (pure ())))

include hsupply in
theorem supplyToMarkets_keeps :
    ∀ ids remaining, Keeps R (supplyToMarkets vault ids remaining) := by
  intro ids
  induction ids with
  | nil => exact fun remaining => Keeps.pure hR.refl remaining
  | cons id rest ih =>
    intro remaining
    rw [supplyToMarkets]
    refine Keeps.ite (Keeps.pure hR.refl _) (Keeps.read fun s => ?_)
    refine Keeps.seq hR (Keeps.of_readOnly hR (readOnly_lift _)) fun config => ?_
    refine Keeps.ite (ih _) (Keeps.seq hR (suppliedAssets_keeps hR vault hacc id _) fun _ => ?_)
    exact Keeps.ite (ih _) (Keeps.seq hR (Keeps.discard (hsupply _ rfl)) fun _ => ih _)

include hwithdraw in
theorem withdrawFromMarkets_keeps :
    ∀ ids remaining, Keeps R (withdrawFromMarkets vault ids remaining) :=
  fun ids => withdrawFromMarkets_keeps_of_subset hR vault hacc ids
    (fun request honBehalf hreceiver _ => hwithdraw request honBehalf hreceiver) ids fun _ h => h

include hsupply hwithdraw in
theorem reallocateEach_keeps :
    ∀ allocations totals, Keeps R (reallocateEach vault allocations totals) := by
  intro allocations
  induction allocations with
  | nil => exact fun totals => Keeps.pure hR.refl totals
  | cons allocation rest ih =>
    intro totals
    rw [reallocateEach]
    refine Keeps.read fun s => Keeps.seq hR (Keeps.of_readOnly hR (readOnly_lift _)) fun config => ?_
    refine Keeps.guard (Keeps.seq hR (suppliedAssets_keeps hR vault hacc _ _) fun supplied => ?_)
    refine Keeps.ite (Keeps.read fun s => Keeps.seq hR (hwithdraw _ ?_ ?_) fun flow => ?_) ?_
    · split <;> rfl
    · split <;> rfl
    · exact Keeps.seq hR (Keeps.of_readOnly hR (readOnly_arith _)) fun _ => ih _
    refine Keeps.ite (ih _) (Keeps.guard (Keeps.seq hR (Keeps.of_readOnly hR (readOnly_arith _))
      fun _ => Keeps.guard ?_))
    exact Keeps.seq hR (hsupply _ rfl) fun flow =>
      Keeps.seq hR (Keeps.of_readOnly hR (readOnly_arith _)) fun _ => ih _

include hsupply hwithdraw in
theorem reallocate_keeps (sender : Address) (allocations : List Allocation) :
    Keeps R (reallocate sender vault allocations) := by
  unfold reallocate
  refine Keeps.read fun s => Keeps.seq hR (Keeps.of_readOnly hR (readOnly_lift _)) fun v => ?_
  refine Keeps.read fun s => Keeps.guard ?_
  refine Keeps.seq hR (reallocateEach_keeps hR vault hacc hsupply hwithdraw _ _) fun totals => ?_
  exact Keeps.ite (Keeps.fail _) (Keeps.pure hR.refl _)

variable (hconfig : ∀ s c, R s (s.putVaultMarketConfig c))

include hconfig in
theorem chargeWithdrawals_keeps (supplyId : MarketId) :
    ∀ withdrawals previous total,
      Keeps R (chargeWithdrawals vault supplyId previous withdrawals total) := by
  intro withdrawals
  induction withdrawals with
  | nil => exact fun previous total => Keeps.pure hR.refl _
  | cons withdrawal rest ih =>
    intro previous total
    unfold chargeWithdrawals
    dsimp -zeta only
    extract_lets id amount charge
    have hcharge : Keeps R (charge ()) := by
      dsimp -zeta only [charge]
      refine Keeps.seq hR (Keeps.of_readOnly hR (enabledConfig_readOnly _ _)) fun config => ?_
      refine Keeps.guard (Keeps.guard ?_)
      refine Keeps.seq hR (Keeps.of_readOnly hR (readOnly_arith _)) fun maxIn => ?_
      refine Keeps.seq hR (Keeps.of_readOnly hR (readOnly_lift _)) fun maxOut => ?_
      refine Keeps.seq hR (Keeps.modify fun s => hconfig s _) fun _ => ?_
      refine Keeps.seq hR (suppliedAssets_keeps hR vault hacc _ _) fun supplied => ?_
      refine Keeps.seq hR (Keeps.of_readOnly hR (readOnly_lift _)) fun target => ?_
      refine Keeps.seq hR (Keeps.of_readOnly hR (readOnly_arith _)) fun total => ?_
      exact Keeps.seq hR (ih _ _) fun charged => Keeps.pure hR.refl _
    cases previous with
    | none => exact hcharge
    | some before => exact Keeps.guard hcharge

include hsupply hwithdraw hconfig in
/-- The public allocator charges the vault's fee for it, charges the flow caps, and reallocates
on the vault's behalf. -/
theorem publicReallocate_keeps (sender : Address) (withdrawals : List Allocation)
    (supplyId : MarketId)
    (hfee : ∀ s amount s', move ⟨nativeAddress, sender, sender, s.registry.publicAllocator, amount⟩
      s = .ok ((), s') → R s s')
    (hterms : ∀ s v terms, s.vaults.get? vault = some v →
      R s (s.putVault { v with allocatorTerms := some terms })) :
    Keeps R (publicReallocate sender vault withdrawals supplyId) := by
  intro s u s' h
  unfold publicReallocate at h
  rw [read_bind, read_bind] at h
  obtain ⟨v, hvault, h₁⟩ := lift_bind_inv h
  have hget := State.vault_eq_ok hvault
  cases hterms' : v.allocatorTerms with
  | none =>
    rw [hterms'] at h₁
    cases h₁
  | some terms =>
    rw [hterms'] at h₁
    dsimp -zeta only at h₁
    extract_lets rest settle at h₁
    have hrest : Keeps R (rest ()) := by
      dsimp -zeta only [rest]
      refine Keeps.seq hR (Keeps.of_readOnly hR (enabledConfig_readOnly _ _)) fun config => ?_
      refine Keeps.seq hR (chargeWithdrawals_keeps hR vault hacc hconfig _ _ _ _) fun r => ?_
      refine Keeps.seq hR (Keeps.of_readOnly hR (readOnly_lift _)) fun maxIn => ?_
      refine Keeps.seq hR (Keeps.of_readOnly hR (readOnly_arith _)) fun maxOut => ?_
      exact Keeps.seq hR (Keeps.modify fun s => hconfig s _) fun _ =>
        reallocate_keeps hR vault hacc hsupply hwithdraw _ _
    have hsettle : ∀ accruedFee s₁, s₁.vaults.get? vault = some v →
        settle accruedFee s₁ = .ok (u, s') → R s₁ s' := by
      intro accruedFee s₁ hget₁ hrun
      dsimp only [settle] at hrun
      rw [modify_bind] at hrun
      exact hR.trans (hterms s₁ v _ hget₁) (hrest _ _ _ (guard_inv hrun).2)
    split at h₁
    · obtain ⟨⟨⟩, s₁, hmove, h₂⟩ := bind_inv h₁
      obtain ⟨accruedFee, -, h₃⟩ := arith_bind_inv h₂
      obtain ⟨holdings, vaultUsers, rfl⟩ := move_tokensOnly _ s () s₁ hmove
      exact hR.trans (hfee s _ _ hmove) (hsettle accruedFee _ hget h₃)
    · obtain ⟨accruedFee, -, h₂⟩ := (readOnly_pure _).bind_inv h₁
      exact hsettle _ _ hget h₂

end Loops

end LendingSim.Perform

namespace LendingSim

/-- How a vault request's flow is fixed: the side asked for is taken as given and the other is
converted from it. -/
def Flow.Converted (toShares toAssets : UInt256 → Except ArithError UInt256) (flow : Flow) :
    Prop :=
  toShares flow.assets = .ok flow.shares ∨ toAssets flow.shares = .ok flow.assets

end LendingSim

namespace LendingSim.Perform

open Sim

variable {s s' : State}

/-! ## Vaults -/

/-- The performance fee of an accrual minted as shares to the vault's fee recipient, with the
total supply raised by as much; nothing happens when there are none. -/
def FeeMinted (address : Address) (vault : Vault) (s₁ s₂ : State) (totalSupply : UInt256) :
    Prop :=
  (s₂ = s₁ ∧ totalSupply = vault.totalSupply) ∨
    ∃ feeShares : UInt256,
      move (.mint address address vault.feeRecipient feeShares) s₁ = .ok ((), s₂) ∧
      totalSupply.toNat = vault.totalSupply.toNat + feeShares.toNat

/-- The performance fee of an accrual that found `totalAssets`: when there is interest since the
last accrual and a fee, the fee's part of the interest, priced in shares against the assets
without it and rounded down, is minted to the fee recipient and added to the supply; with no
interest, no fee or no share to mint, nothing happens. -/
def FeeCharged (address : Address) (vault : Vault) (totalAssets : UInt256) (s₁ s₂ : State)
    (totalSupply : UInt256) : Prop :=
  if !(totalAssets.zeroFloorSub vault.lastTotalAssets).isZero && !vault.fee.isZero then
    ∃ feeAssets assetsBeforeFee feeShares : UInt256,
      UInt256.wadMul (totalAssets.zeroFloorSub vault.lastTotalAssets) vault.fee .down =
        .ok feeAssets ∧
      totalAssets.checkedSub feeAssets = .ok assetsBeforeFee ∧
      Shares.toShares feeAssets assetsBeforeFee vault.totalSupply vault.virtualShares .down =
        .ok feeShares ∧
      if !feeShares.isZero then
        move (.mint address address vault.feeRecipient feeShares) s₁ = .ok ((), s₂) ∧
          totalSupply.toNat = vault.totalSupply.toNat + feeShares.toNat
      else s₂ = s₁ ∧ totalSupply = vault.totalSupply
  else s₂ = s₁ ∧ totalSupply = vault.totalSupply

theorem FeeCharged.feeMinted {address : Address} {vault : Vault} {totalAssets : UInt256}
    {s₁ s₂ : State} {totalSupply : UInt256}
    (h : FeeCharged address vault totalAssets s₁ s₂ totalSupply) :
    FeeMinted address vault s₁ s₂ totalSupply := by
  unfold FeeCharged at h
  split at h
  · obtain ⟨-, -, feeShares, -, -, -, hmint⟩ := h
    split at hmint
    · exact .inr ⟨feeShares, hmint⟩
    · exact .inl hmint
  · exact .inl h

/-- Accruing a vault adds up its idle balance and what it supplies on the markets of its queues
(accruing each), charges the performance fee, and stores the vault with its new totals. -/
theorem accrueVault_charges {address : Address} {v' : Vault}
    (h : accrueVault address s = .ok (v', s')) :
    ∃ vault totalAssets totalSupply s₁ s₂,
      s.vaults.get? address = some vault ∧
      addSupplied address (s.balanceOf address vault.asset) (accrualMarkets vault) s =
        .ok (totalAssets, s₁) ∧
      FeeCharged address vault totalAssets s₁ s₂ totalSupply ∧
      v' = { vault with totalSupply, totalAssets, lastTotalAssets := totalAssets } ∧
      s' = s₂.putVault v' := by
  unfold accrueVault at h
  rw [read_bind] at h
  obtain ⟨vault, hvault, h₁⟩ := lift_bind_inv h
  rw [read_bind] at h₁
  obtain ⟨totalAssets, s₁, hadd, h₂⟩ := bind_inv h₁
  extract_lets interest store at h₂
  have hstore : ∀ {totalSupply s₂}, store totalSupply s₂ = .ok (v', s') →
      v' = { vault with totalSupply, totalAssets, lastTotalAssets := totalAssets } ∧
        s' = s₂.putVault v' := by
    intro totalSupply s₂ hrun
    dsimp only [store] at hrun
    rw [modify_bind] at hrun
    obtain ⟨rfl, rfl⟩ := pure_inv hrun
    exact ⟨rfl, rfl⟩
  have hget := State.vault_eq_ok hvault
  split at h₂
  · next hcharged =>
    obtain ⟨feeAssets, hfeeAssets, h₃⟩ := arith_bind_inv h₂
    obtain ⟨before, hbefore, h₄⟩ := arith_bind_inv h₃
    obtain ⟨feeShares, hfeeShares, h₅⟩ := arith_bind_inv h₄
    split at h₅
    · next hminted =>
      obtain ⟨⟨⟩, s₂, hmint, h₆⟩ := bind_inv h₅
      obtain ⟨totalSupply, hts, h₇⟩ := arith_bind_inv h₆
      obtain ⟨hv, hs⟩ := hstore h₇
      refine ⟨vault, totalAssets, totalSupply, s₁, s₂, hget, hadd, (if_pos hcharged).mpr
        ⟨feeAssets, before, feeShares, hfeeAssets, hbefore, hfeeShares, ?_⟩, hv, hs⟩
      exact (if_pos hminted).mpr ⟨hmint, UInt256.checkedAdd_toNat hts⟩
    · next hnone =>
      obtain ⟨totalSupply, hpure, h₆⟩ := (readOnly_pure _).bind_inv h₅
      obtain ⟨rfl, -⟩ := pure_inv hpure
      obtain ⟨hv, hs⟩ := hstore h₆
      refine ⟨vault, totalAssets, _, s₁, s₁, hget, hadd, (if_pos hcharged).mpr
        ⟨feeAssets, before, feeShares, hfeeAssets, hbefore, hfeeShares, ?_⟩, hv, hs⟩
      exact (if_neg hnone).mpr ⟨rfl, rfl⟩
  · next hnone =>
    obtain ⟨totalSupply, hpure, h₃⟩ := (readOnly_pure _).bind_inv h₂
    obtain ⟨rfl, -⟩ := pure_inv hpure
    obtain ⟨hv, hs⟩ := hstore h₃
    exact ⟨vault, totalAssets, _, s₁, s₁, hget, hadd, (if_neg hnone).mpr ⟨rfl, rfl⟩, hv, hs⟩

/-- Accruing a vault as most proofs need it: how the fee was priced forgotten, only its mint
kept. -/
theorem accrueVault_inv {address : Address} {v' : Vault}
    (h : accrueVault address s = .ok (v', s')) :
    ∃ vault totalAssets totalSupply s₁ s₂,
      s.vaults.get? address = some vault ∧
      addSupplied address (s.balanceOf address vault.asset) (accrualMarkets vault) s =
        .ok (totalAssets, s₁) ∧
      FeeMinted address vault s₁ s₂ totalSupply ∧
      v' = { vault with totalSupply, totalAssets, lastTotalAssets := totalAssets } ∧
      s' = s₂.putVault v' := by
  obtain ⟨vault, totalAssets, totalSupply, s₁, s₂, hvault, hadd, hfee, hv, hs⟩ :=
    accrueVault_charges h
  exact ⟨vault, totalAssets, totalSupply, s₁, s₂, hvault, hadd, hfee.feeMinted, hv, hs⟩

/-- Resolving a vault request only reads, and converts the side not asked for. -/
theorem resolveVaultFlow_inv {assets shares : UInt256}
    {toShares toAssets : UInt256 → Except ArithError UInt256} {flow : Flow}
    (h : resolveVaultFlow assets shares toShares toAssets s = .ok (flow, s')) :
    s' = s ∧ flow.Converted toShares toAssets := by
  unfold resolveVaultFlow at h
  generalize assets.isZero = assetsZero at h
  generalize shares.isZero = sharesZero at h
  cases assetsZero <;> cases sharesZero <;> dsimp only at h
  · cases h
  · obtain ⟨converted, hconverted, h₁⟩ := arith_bind_inv h
    obtain ⟨rfl, rfl⟩ := pure_inv h₁
    exact ⟨rfl, .inl hconverted⟩
  · obtain ⟨converted, hconverted, h₁⟩ := arith_bind_inv h
    obtain ⟨rfl, rfl⟩ := pure_inv h₁
    exact ⟨rfl, .inr hconverted⟩
  · cases h

theorem resolveVaultFlow_readOnly (assets shares : UInt256)
    (toShares toAssets : UInt256 → Except ArithError UInt256) :
    ReadOnly (resolveVaultFlow assets shares toShares toAssets) :=
  fun _ _ _ h => (resolveVaultFlow_inv h).1

/-- A placed deposit is one the supply queue took whole. -/
theorem placeDeposit_inv {vault : Address} {queue : List MarketId} {assets : UInt256} {u : Unit}
    (h : placeDeposit vault queue assets s = .ok (u, s')) :
    supplyToMarkets vault queue assets s = .ok (0, s') := by
  unfold placeDeposit at h
  obtain ⟨remaining, s₁, hsupply, h₁⟩ := bind_inv h
  split at h₁
  · cases h₁
  · next hzero =>
    obtain ⟨-, rfl⟩ := pure_inv h₁
    have hremaining : remaining = 0 := UInt256.isZero_eq_true.mp (by simpa using hzero)
    rwa [← hremaining]

/-- A gathered withdrawal is one the withdraw queue covered whole: the markets gave all that the
idle balance lacked. -/
theorem gatherWithdrawal_inv {vault asset : Address} {queue : List MarketId} {assets : UInt256}
    {u : Unit} (h : gatherWithdrawal vault asset queue assets s = .ok (u, s')) :
    withdrawFromMarkets vault queue (assets.zeroFloorSub (s.balanceOf vault asset)) s =
      .ok (0, s') := by
  unfold gatherWithdrawal at h
  rw [read_bind] at h
  obtain ⟨remaining, s₁, hwithdraw, h₁⟩ := bind_inv h
  split at h₁
  · cases h₁
  · next hzero =>
    obtain ⟨-, rfl⟩ := pure_inv h₁
    have hremaining : remaining = 0 := UInt256.isZero_eq_true.mp (by simpa using hzero)
    rwa [← hremaining]

/-- What a deposit does before it places the assets along the supply queue: accrue the vault,
convert the request, pull the assets, mint the shares and store the vault, returned with the
flow. -/
def depositPrefix (sender address : Address) (request : DepositRequest) : Sim (Vault × Flow) := do
  let vault ← accrueVault address
  let s ← get
  let assets :=
    if isMaxAmount request.assets && isAdapter s sender then s.balanceOf sender vault.asset
    else amountOf request.assets
  let flow ← resolveVaultFlow assets (amountOf request.shares) (vault.toShares · .down)
    (vault.toAssets · .up)
  if isAdapter s sender then
    if flow.shares.isZero then throw (.adapter .zeroShares)
    if request.slippage.isSome then
      let reference ← arith (vault.toAssets UInt256.ray .up)
      checkMaxSharePrice flow.assets flow.shares reference (slippageOf request.slippage)
  move { token := vault.asset, sender := address, source := sender, destination := address,
         amount := flow.assets }
  move (.mint address address request.owner flow.shares)
  let totalSupply ← arith (vault.totalSupply.checkedAdd flow.shares)
  let totalAssets ← arith (vault.totalAssets.checkedAdd flow.assets)
  let vault := { vault with totalSupply, totalAssets, lastTotalAssets := totalAssets }
  modify (·.putVault vault)
  return (vault, flow)

theorem vaultDeposit_eq_depositPrefix_bind (sender address : Address) (request : DepositRequest) :
    vaultDeposit sender address request = depositPrefix sender address request >>= fun p =>
      placeDeposit address p.1.supplyQueue p.2.assets := by
  unfold vaultDeposit depositPrefix
  simp only [bind_assoc, pure_bind, ite_bind]

/-- What a withdrawal does before it gathers the assets along the withdraw queue: accrue the
vault, convert the request, burn the owner's shares and store the vault, returned with the
flow. -/
def withdrawalPrefix (sender address : Address) (request : RedeemRequest) :
    Sim (Vault × Flow) := do
  let vault ← accrueVault address
  let s ← get
  let shares ←
    if isMaxAmount request.shares && isAdapter s sender then do
      let balance := s.balanceOf request.owner address
      if balance.isZero then throw (.adapter .zeroShares)
      pure balance
    else pure (amountOf request.shares)
  let flow ← resolveVaultFlow (amountOf request.assets) shares (vault.toShares · .up)
    (vault.toAssets · .down)
  if isAdapter s sender && request.slippage.isSome then
    let reference ← arith (vault.toAssets UInt256.ray .down)
    checkMinSharePrice flow.assets flow.shares reference (slippageOf request.slippage)
  move { token := address, sender, source := request.owner, destination := .zero,
         amount := flow.shares }
  let totalSupply ← arith (vault.totalSupply.checkedSub flow.shares)
  let totalAssets := vault.totalAssets.zeroFloorSub flow.assets
  let vault := { vault with totalSupply, totalAssets, lastTotalAssets := totalAssets }
  modify (·.putVault vault)
  return (vault, flow)

theorem vaultWithdraw_eq_withdrawalPrefix_bind (sender address : Address) (request : RedeemRequest) :
    vaultWithdraw sender address request = withdrawalPrefix sender address request >>= fun p =>
      gatherWithdrawal address p.1.asset p.1.withdrawQueue p.2.assets >>= fun _ =>
        move { token := p.1.asset, sender := address, source := address,
               destination := request.receiver, amount := p.2.assets } := by
  unfold vaultWithdraw withdrawalPrefix
  simp only [bind_assoc, pure_bind, ite_bind]

/-- A deposit's prefix accrues the vault, converts the request at the vault's rate rounding
against the depositor, pulls the assets from the sender, mints the shares to the owner, and
stores the vault with both totals raised by exactly the flow. -/
theorem depositPrefix_inv {sender address : Address} {request : DepositRequest} {stored : Vault}
    {flow : Flow} (h : depositPrefix sender address request s = .ok ((stored, flow), s')) :
    ∃ (vault : Vault) (totalSupply totalAssets : UInt256) (s₁ s₂ s₃ : State),
      accrueVault address s = .ok (vault, s₁) ∧
      flow.Converted (vault.toShares · .down) (vault.toAssets · .up) ∧
      move ⟨vault.asset, address, sender, address, flow.assets⟩ s₁ = .ok ((), s₂) ∧
      move (.mint address address request.owner flow.shares) s₂ = .ok ((), s₃) ∧
      totalSupply.toNat = vault.totalSupply.toNat + flow.shares.toNat ∧
      totalAssets.toNat = vault.totalAssets.toNat + flow.assets.toNat ∧
      stored = { vault with totalSupply, totalAssets, lastTotalAssets := totalAssets } ∧
      s' = s₃.putVault stored := by
  unfold depositPrefix at h
  obtain ⟨vault, s₁, hacc, h₁⟩ := bind_inv h
  rw [read_bind] at h₁
  obtain ⟨flow', hflow, h₂⟩ := (resolveVaultFlow_readOnly _ _ _ _).bind_inv h₁
  extract_lets rest at h₂
  have h₃ : rest () s₁ = .ok ((stored, flow), s') := by
    split at h₂
    · next checkSlippage hadapter =>
      obtain ⟨-, h₄⟩ := guard_inv h₂
      dsimp only [checkSlippage] at h₄
      split at h₄
      · obtain ⟨reference, -, h₅⟩ := (readOnly_arith _).bind_inv h₄
        obtain ⟨⟨⟩, -, h₆⟩ := (checkMaxSharePrice_readOnly _ _ _ _).bind_inv h₅
        exact h₆
      · exact h₄
    · exact h₂
  dsimp only [rest] at h₃
  obtain ⟨⟨⟩, s₂, hpull, h₄⟩ := bind_inv h₃
  obtain ⟨⟨⟩, s₃, hmint, h₅⟩ := bind_inv h₄
  obtain ⟨totalSupply, hts, h₆⟩ := arith_bind_inv h₅
  obtain ⟨totalAssets, hta, h₇⟩ := arith_bind_inv h₆
  rw [modify_bind] at h₇
  obtain ⟨hresult, rfl⟩ := pure_inv h₇
  obtain ⟨rfl, rfl⟩ := Prod.mk.inj hresult
  exact ⟨vault, totalSupply, totalAssets, s₁, s₂, s₃, hacc, (resolveVaultFlow_inv hflow).2, hpull,
    hmint, UInt256.checkedAdd_toNat hts, UInt256.checkedAdd_toNat hta, rfl, rfl⟩

/-- A withdrawal's prefix accrues the vault, converts the request at the vault's rate rounding
against the owner, burns the owner's shares, and stores the vault with its supply lowered by
exactly those shares. -/
theorem withdrawalPrefix_inv {sender address : Address} {request : RedeemRequest}
    {stored : Vault} {flow : Flow}
    (h : withdrawalPrefix sender address request s = .ok ((stored, flow), s')) :
    ∃ (vault : Vault) (totalSupply : UInt256) (s₁ s₂ : State),
      accrueVault address s = .ok (vault, s₁) ∧
      flow.Converted (vault.toShares · .up) (vault.toAssets · .down) ∧
      move ⟨address, sender, request.owner, .zero, flow.shares⟩ s₁ = .ok ((), s₂) ∧
      totalSupply.toNat + flow.shares.toNat = vault.totalSupply.toNat ∧
      stored = { vault with totalSupply, totalAssets := vault.totalAssets.zeroFloorSub flow.assets,
                            lastTotalAssets := vault.totalAssets.zeroFloorSub flow.assets } ∧
      s' = s₂.putVault stored := by
  unfold withdrawalPrefix at h
  obtain ⟨vault, s₁, hacc, h₁⟩ := bind_inv h
  rw [read_bind] at h₁
  obtain ⟨shares, h₂⟩ := ite_pure_bind_inv (fun {s₀ b s₀'} hx => by
    obtain ⟨-, h⟩ := guard_inv hx
    obtain ⟨sh, -, h'⟩ := (readOnly_pure _).bind_inv h
    exact ⟨sh, h'⟩) h₁
  beta_reduce at h₂
  obtain ⟨flow', hflow, h₃⟩ := (resolveVaultFlow_readOnly _ _ _ _).bind_inv h₂
  extract_lets totalAssets rest at h₃
  have h₄ : rest () s₁ = .ok ((stored, flow), s') := by
    split at h₃
    · obtain ⟨reference, -, h₅⟩ := (readOnly_arith _).bind_inv h₃
      obtain ⟨⟨⟩, -, h₆⟩ := (checkMinSharePrice_readOnly _ _ _ _).bind_inv h₅
      exact h₆
    · exact h₃
  dsimp only [rest, totalAssets] at h₄
  obtain ⟨⟨⟩, s₂, hburn, h₅⟩ := bind_inv h₄
  obtain ⟨totalSupply, hts, h₆⟩ := arith_bind_inv h₅
  rw [modify_bind] at h₆
  obtain ⟨hresult, rfl⟩ := pure_inv h₆
  obtain ⟨rfl, rfl⟩ := Prod.mk.inj hresult
  obtain ⟨hsub, hle⟩ := UInt256.checkedSub_toNat hts
  exact ⟨vault, totalSupply, s₁, s₂, hacc, (resolveVaultFlow_inv hflow).2, hburn, by omega, rfl,
    rfl⟩

/-- A deposit accrues the vault, converts the request at the vault's rate rounding against the
depositor, pulls the assets from the sender, mints the shares to the owner, stores the vault with
both totals raised by exactly the flow, and supplies the assets to the markets of the supply
queue. -/
theorem vaultDeposit_inv {sender address : Address} {request : DepositRequest} {u : Unit}
    (h : vaultDeposit sender address request s = .ok (u, s')) :
    ∃ (vault : Vault) (flow : Flow) (totalSupply totalAssets remaining : UInt256) (s₁ s₂ s₃ : State),
      accrueVault address s = .ok (vault, s₁) ∧
      flow.Converted (vault.toShares · .down) (vault.toAssets · .up) ∧
      move ⟨vault.asset, address, sender, address, flow.assets⟩ s₁ = .ok ((), s₂) ∧
      move (.mint address address request.owner flow.shares) s₂ = .ok ((), s₃) ∧
      totalSupply.toNat = vault.totalSupply.toNat + flow.shares.toNat ∧
      totalAssets.toNat = vault.totalAssets.toNat + flow.assets.toNat ∧
      supplyToMarkets address vault.supplyQueue flow.assets
        (s₃.putVault { vault with totalSupply, totalAssets, lastTotalAssets := totalAssets }) =
          .ok (remaining, s') := by
  rw [vaultDeposit_eq_depositPrefix_bind] at h
  obtain ⟨⟨stored, flow⟩, s₄, hprefix, hplace⟩ := bind_inv h
  obtain ⟨vault, totalSupply, totalAssets, s₁, s₂, s₃, hacc, hflow, hpull, hmint, hts, hta, rfl,
    rfl⟩ := depositPrefix_inv hprefix
  exact ⟨vault, flow, totalSupply, totalAssets, 0, s₁, s₂, s₃, hacc, hflow, hpull, hmint, hts, hta,
    placeDeposit_inv hplace⟩

/-- A withdrawal accrues the vault, converts the request at the vault's rate rounding against
the owner, burns the owner's shares, stores the vault with its supply lowered by exactly those
shares, withdraws what the idle balance lacks from the markets of the withdraw queue, and sends
the assets to the receiver. -/
theorem vaultWithdraw_inv {sender address : Address} {request : RedeemRequest} {u : Unit}
    (h : vaultWithdraw sender address request s = .ok (u, s')) :
    ∃ (vault : Vault) (flow : Flow) (totalSupply lacking remaining : UInt256) (s₁ s₂ s₃ : State),
      accrueVault address s = .ok (vault, s₁) ∧
      flow.Converted (vault.toShares · .up) (vault.toAssets · .down) ∧
      move ⟨address, sender, request.owner, .zero, flow.shares⟩ s₁ = .ok ((), s₂) ∧
      totalSupply.toNat + flow.shares.toNat = vault.totalSupply.toNat ∧
      withdrawFromMarkets address vault.withdrawQueue lacking
        (s₂.putVault
          { vault with totalSupply, totalAssets := vault.totalAssets.zeroFloorSub flow.assets,
                       lastTotalAssets := vault.totalAssets.zeroFloorSub flow.assets }) =
          .ok (remaining, s₃) ∧
      move ⟨vault.asset, address, address, request.receiver, flow.assets⟩ s₃ = .ok ((), s') := by
  rw [vaultWithdraw_eq_withdrawalPrefix_bind] at h
  obtain ⟨⟨stored, flow⟩, s₄, hprefix, h₁⟩ := bind_inv h
  obtain ⟨vault, totalSupply, s₁, s₂, hacc, hflow, hburn, hts, rfl, rfl⟩ :=
    withdrawalPrefix_inv hprefix
  obtain ⟨⟨⟩, s₃, hgather, hsend⟩ := bind_inv h₁
  exact ⟨vault, flow, totalSupply, _, 0, s₁, s₂, s₃, hacc, hflow, hburn, hts,
    gatherWithdrawal_inv hgather, hsend⟩

/-! ## Second-kind vaults -/

/-- Accruing a second-kind vault only reads its adapters and stores the vault back with new
total assets and the block's time. -/
theorem accrueVaultV2_inv {address : Address} {v' : VaultV2}
    (h : accrueVaultV2 address s = .ok (v', s')) :
    ∃ vault totalAssets, s.vaultV2s.get? address = some vault ∧
      v' = { vault with totalAssets, lastUpdate := s.block.timestamp } ∧ s' = s.putVaultV2 v' := by
  unfold accrueVaultV2 at h
  rw [read_bind] at h
  obtain ⟨vault, hvault, h₁⟩ := lift_bind_inv h
  obtain ⟨totalAssets, -, h₂⟩ :=
    (readOnly_foldlM (fun _ _ => readOnly_arith _) _ _).bind_inv h₁
  rw [modify_bind] at h₂
  obtain ⟨rfl, rfl⟩ := pure_inv h₂
  exact ⟨vault, totalAssets, State.vaultV2_eq_ok hvault, rfl, rfl⟩

/-- The deposited assets forwarded to the vault's liquidity adapter, whose real assets grow by
as much; nothing happens for a vault without one. -/
def Forwarded (address asset : Address) (adapter? : Option Address) (amount : UInt256)
    (s s' : State) : Prop :=
  (adapter? = none ∧ s' = s) ∨
    ∃ adapterAddress adapter realAssets s₁, adapter? = some adapterAddress ∧
      s.vaultV2Adapters.get? adapterAddress = some adapter ∧
      move ⟨asset, address, address, adapterAddress, amount⟩ s = .ok ((), s₁) ∧
      realAssets.toNat = adapter.realAssets.toNat + amount.toNat ∧
      s' = s₁.putVaultV2Adapter { adapter with realAssets }

/-- A deposit into a second-kind vault accrues it, pulls the assets from the sender, mints the
shares to the owner, stores the vault with both totals raised by the flow, and forwards the
assets to the liquidity adapter. -/
theorem vaultV2Deposit_inv {sender address : Address} {request : DepositRequest} {u : Unit}
    (h : vaultV2Deposit sender address request s = .ok (u, s')) :
    ∃ (vault : VaultV2) (flow : Flow) (totalSupply totalAssets : UInt256) (s₁ s₂ s₃ : State),
      accrueVaultV2 address s = .ok (vault, s₁) ∧
      flow.Converted (vault.toShares · .down) (vault.toAssets · .up) ∧
      move ⟨vault.asset, address, sender, address, flow.assets⟩ s₁ = .ok ((), s₂) ∧
      move (.mint address address request.owner flow.shares) s₂ = .ok ((), s₃) ∧
      totalSupply.toNat = vault.totalSupply.toNat + flow.shares.toNat ∧
      totalAssets.toNat = vault.totalAssets.toNat + flow.assets.toNat ∧
      Forwarded address vault.asset vault.liquidityAdapter flow.assets
        (s₃.putVaultV2 { vault with totalSupply, totalAssets }) s' := by
  unfold vaultV2Deposit at h
  obtain ⟨vault, s₁, hacc, h₁⟩ := bind_inv h
  rw [read_bind] at h₁
  obtain ⟨flow, hflow, h₂⟩ := (resolveVaultFlow_readOnly _ _ _ _).bind_inv h₁
  extract_lets rest at h₂
  have h₃ : rest () s₁ = .ok (u, s') := by
    split at h₂
    · next checkSlippage hadapter =>
      obtain ⟨-, h₄⟩ := guard_inv h₂
      dsimp only [checkSlippage] at h₄
      split at h₄
      · obtain ⟨reference, -, h₅⟩ := (readOnly_arith _).bind_inv h₄
        obtain ⟨⟨⟩, -, h₆⟩ := (checkMaxSharePrice_readOnly _ _ _ _).bind_inv h₅
        exact h₆
      · exact h₄
    · exact h₂
  dsimp only [rest] at h₃
  obtain ⟨⟨⟩, s₂, hpull, h₄⟩ := bind_inv h₃
  obtain ⟨⟨⟩, s₃, hmint, h₅⟩ := bind_inv h₄
  obtain ⟨totalSupply, hts, h₆⟩ := arith_bind_inv h₅
  obtain ⟨totalAssets, hta, h₇⟩ := arith_bind_inv h₆
  rw [modify_bind] at h₇
  refine ⟨vault, flow, totalSupply, totalAssets, s₁, s₂, s₃, hacc, (resolveVaultFlow_inv hflow).2,
    hpull, hmint, UInt256.checkedAdd_toNat hts, UInt256.checkedAdd_toNat hta, ?_⟩
  cases hadapter : vault.liquidityAdapter with
  | some adapterAddress =>
    rw [hadapter] at h₇
    dsimp only at h₇
    rw [read_bind] at h₇
    obtain ⟨adapter, hget, h₈⟩ := lift_bind_inv h₇
    obtain ⟨⟨⟩, s₄, hforward, h₉⟩ := bind_inv h₈
    obtain ⟨realAssets, hreal, h₁₀⟩ := arith_bind_inv h₉
    rw [modify_apply] at h₁₀
    cases h₁₀
    exact .inr ⟨adapterAddress, adapter, realAssets, s₄, rfl,
      State.vaultV2Adapter_eq_ok hget, hforward, UInt256.checkedAdd_toNat hreal, rfl⟩
  | none =>
    rw [hadapter] at h₇
    obtain ⟨-, rfl⟩ := pure_inv h₇
    exact .inl ⟨rfl, rfl⟩

/-- What the idle balance lacks of a withdrawal of `assets`, taken back from the vault's
liquidity adapter, which records at least as much and whose real assets shrink by as much;
nothing happens when the idle balance covers the withdrawal. -/
def Pulled (address asset : Address) (adapter? : Option Address) (assets : UInt256)
    (s s' : State) : Prop :=
  (assets.toNat ≤ (s.balanceOf address asset).toNat ∧ s' = s) ∨
    ∃ adapterAddress adapter missing s₁, adapter? = some adapterAddress ∧
      s.vaultV2Adapters.get? adapterAddress = some adapter ∧
      missing.toNat + (s.balanceOf address asset).toNat = assets.toNat ∧
      missing.toNat ≤ adapter.realAssets.toNat ∧
      move ⟨asset, adapterAddress, adapterAddress, address, missing⟩ s = .ok ((), s₁) ∧
      s' = s₁.putVaultV2Adapter { adapter with realAssets := adapter.realAssets.zeroFloorSub missing }

/-- A withdrawal from a second-kind vault accrues it, takes what the idle balance lacks from
the liquidity adapter, burns the owner's shares, sends the assets to the receiver, and stores the
vault with its supply lowered by exactly those shares. -/
theorem vaultV2Withdraw_inv {sender address : Address} {request : RedeemRequest} {u : Unit}
    (h : vaultV2Withdraw sender address request s = .ok (u, s')) :
    ∃ (vault : VaultV2) (flow : Flow) (totalSupply : UInt256) (s₁ s₂ s₃ s₄ : State),
      accrueVaultV2 address s = .ok (vault, s₁) ∧
      flow.Converted (vault.toShares · .up) (vault.toAssets · .down) ∧
      Pulled address vault.asset vault.liquidityAdapter flow.assets s₁ s₂ ∧
      move ⟨address, sender, request.owner, .zero, flow.shares⟩ s₂ = .ok ((), s₃) ∧
      move ⟨vault.asset, address, address, request.receiver, flow.assets⟩ s₃ = .ok ((), s₄) ∧
      totalSupply.toNat + flow.shares.toNat = vault.totalSupply.toNat ∧
      s' = s₄.putVaultV2
        { vault with totalSupply, totalAssets := vault.totalAssets.zeroFloorSub flow.assets } := by
  unfold vaultV2Withdraw at h
  obtain ⟨vault, s₁, hacc, h₁⟩ := bind_inv h
  rw [read_bind] at h₁
  obtain ⟨shares, h₂⟩ := ite_pure_bind_inv (fun {s₀ b s₀'} hx => by
    obtain ⟨-, h⟩ := guard_inv hx
    obtain ⟨sh, -, h'⟩ := (readOnly_pure _).bind_inv h
    exact ⟨sh, h'⟩) h₁
  beta_reduce at h₂
  obtain ⟨flow, hflow, h₃⟩ := (resolveVaultFlow_readOnly _ _ _ _).bind_inv h₂
  extract_lets settle rest at h₃
  have h₄ : rest () s₁ = .ok (u, s') := by
    split at h₃
    · obtain ⟨reference, -, h₅⟩ := (readOnly_arith _).bind_inv h₃
      obtain ⟨⟨⟩, -, h₆⟩ := (checkMinSharePrice_readOnly _ _ _ _).bind_inv h₅
      exact h₆
    · exact h₃
  dsimp -zeta only [rest] at h₄
  rw [read_bind] at h₄
  obtain ⟨s₂, hpull, h₅⟩ : ∃ s₂, Pulled address vault.asset vault.liquidityAdapter flow.assets s₁ s₂ ∧
      settle () s₂ = .ok (u, s') := by
    split at h₄
    · next hmissing =>
      have hmissing : (s₁.balanceOf address vault.asset).toNat < flow.assets.toNat := by
        simpa only [Bool.not_eq_eq_eq_not, Bool.not_true, UInt256.isZero_zeroFloorSub_eq_false]
          using hmissing
      cases hadapter : vault.liquidityAdapter with
      | none =>
        rw [hadapter] at h₄
        cases h₄
      | some adapterAddress =>
        rw [hadapter] at h₄
        dsimp only at h₄
        rw [read_bind] at h₄
        obtain ⟨adapter, hget, h₆⟩ := lift_bind_inv h₄
        obtain ⟨hcovered, h₇⟩ := guard_inv h₆
        have hcovered : flow.assets.toNat - (s₁.balanceOf address vault.asset).toNat ≤
            adapter.realAssets.toNat := by
          simp only [Bool.not_eq_eq_eq_not, Bool.not_true, UInt256.isZero_zeroFloorSub_eq_false,
            Nat.not_lt, UInt256.toNat_zeroFloorSub] at hcovered
          exact hcovered
        obtain ⟨⟨⟩, s₂, hmove, h₈⟩ := bind_inv h₇
        rw [modify_bind] at h₈
        exact ⟨_, .inr ⟨adapterAddress, adapter, _, s₂, rfl, State.vaultV2Adapter_eq_ok hget,
          by rw [UInt256.toNat_zeroFloorSub]; omega,
          by rw [UInt256.toNat_zeroFloorSub]; exact hcovered, hmove, rfl⟩, h₈⟩
    · next hcovered =>
      have hcovered : flow.assets.toNat ≤ (s₁.balanceOf address vault.asset).toNat := by
        simpa only [Bool.not_eq_eq_eq_not, Bool.not_true, UInt256.isZero_zeroFloorSub_eq_false,
          Nat.not_lt] using hcovered
      exact ⟨s₁, .inl ⟨hcovered, rfl⟩, h₄⟩
  dsimp only [settle] at h₅
  obtain ⟨⟨⟩, s₃, hburn, h₆⟩ := bind_inv h₅
  obtain ⟨⟨⟩, s₄, hpay, h₇⟩ := bind_inv h₆
  obtain ⟨totalSupply, hts, h₈⟩ := arith_bind_inv h₇
  rw [modify_apply] at h₈
  cases h₈
  obtain ⟨hsub, hle⟩ := UInt256.checkedSub_toNat hts
  exact ⟨vault, flow, totalSupply, s₁, s₂, s₃, s₄, hacc, (resolveVaultFlow_inv hflow).2, hpull,
    hburn, hpay, by omega, rfl⟩

end LendingSim.Perform
