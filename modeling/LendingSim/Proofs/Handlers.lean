import Mathlib
import LendingSim.Perform.Token
import LendingSim.Perform.Swap
import LendingSim.Proofs.Steps

/-!
# What each operation of the core contract and of tokens does

One inversion per handler: a successful run is cut into the runs of its steps, with the values
each step computed and the checks it passed. The core contract's market operations accrue the
market, commit the flow to the market and to the position acted for, run the callback, and then
move the tokens; withdrawing, borrowing and withdrawing collateral first pass the authorization
check, and withdrawing and borrowing leave the market with enough liquidity. Token operations are
movements, allowance writes and nonce writes; wrapping, unwrapping and swaps burn what the sender
pays and mint what the receiver gets (`Exchanged`).

Read-only steps (checks of slippage, the resolution of the largest amount, arithmetic) drop out
of the inversions: they leave the state as they found it.
-/

namespace LendingSim.Perform

open Sim

variable {s s' : State}

/-! ## The core contract -/

theorem supply_inv {sender : Address} {request : MarketRequest} {callback : Sim Unit}
    {flow : Flow}
    (h : supply sender request callback s = .ok (flow, s')) :
    ∃ market market' s₁ s₂ assets supplyShares,
      accrueMarket request.id s = .ok (market, s₁) ∧
      (Market.supply assets (amountOf request.shares)).apply market = .ok (flow, market') ∧
      supplyShares.toNat =
        (s₁.position request.onBehalf request.id).supplyShares.toNat + flow.shares.toNat ∧
      callback ((s₁.putPosition
        { s₁.position request.onBehalf request.id with supplyShares }).putMarket market') =
          .ok ((), s₂) ∧
      move ⟨market.params.loanToken, s₂.registry.morpho, sender, s₂.registry.morpho,
        flow.assets⟩ s₂ = .ok ((), s') := by
  unfold supply at h
  obtain ⟨market, s₁, hacc, h₁⟩ := bind_inv h
  rw [read_bind] at h₁
  obtain ⟨assets, -, h₂⟩ := (resolveMax_readOnly _ _ _ _).bind_inv h₁
  obtain ⟨reference, -, h₃⟩ := (readOnly_arith _).bind_inv h₂
  obtain ⟨result, s₄, hupd, h₄⟩ := bind_inv h₃
  obtain ⟨hop, rfl⟩ := marketUpdate_inv hupd
  obtain ⟨flow', market'⟩ := result
  dsimp only at h₄
  rw [read_bind] at h₄
  obtain ⟨supplyShares, hss, h₅⟩ := arith_bind_inv h₄
  rw [modify_bind, read_bind] at h₅
  have h₆ := (checkMaxSharePrice_readOnly _ _ _ _).ite_bind_inv h₅
  obtain ⟨⟨⟩, s₂, hcb, h₇⟩ := bind_inv h₆
  rw [read_bind] at h₇
  obtain ⟨⟨⟩, s₃, hmove, h₈⟩ := bind_inv h₇
  obtain ⟨rfl, rfl⟩ := pure_inv h₈
  exact ⟨market, market', s₄, s₂, assets, supplyShares, hacc, hop,
    UInt256.checkedAdd_toNat hss, hcb, hmove⟩

theorem withdraw_inv {sender : Address} {request : MarketRequest} {callback : Sim Unit}
    {flow : Flow}
    (h : withdraw sender request callback s = .ok (flow, s')) :
    MayManage s sender request.onBehalf ∧
    ∃ market market' s₁ s₂ shares supplyShares,
      accrueMarket request.id s = .ok (market, s₁) ∧
      (Market.withdraw (amountOf request.assets) shares).apply market = .ok (flow, market') ∧
      (shares = amountOf request.shares ∨
        shares = (s₁.position request.onBehalf request.id).supplyShares) ∧
      market'.hasEnoughLiquidity = true ∧
      supplyShares.toNat + flow.shares.toNat =
        (s₁.position request.onBehalf request.id).supplyShares.toNat ∧
      callback ((s₁.putPosition
        { s₁.position request.onBehalf request.id with supplyShares }).putMarket market') =
          .ok ((), s₂) ∧
      move ⟨market.params.loanToken, s₂.registry.morpho, s₂.registry.morpho,
        request.receiver.getD sender, flow.assets⟩ s₂ = .ok ((), s') := by
  unfold withdraw at h
  obtain ⟨⟨⟩, s₀, hauth, h₀⟩ := bind_inv h
  obtain ⟨rfl, hwho⟩ := checkAuthorized_inv hauth
  obtain ⟨market, s₁, hacc, h₁⟩ := bind_inv h₀
  rw [read_bind] at h₁
  obtain ⟨shares, hresolve, h₂⟩ := (resolveMax_readOnly _ _ _ _).bind_inv h₁
  obtain ⟨reference, -, h₃⟩ := (readOnly_arith _).bind_inv h₂
  obtain ⟨result, s₄, hupd, h₄⟩ := bind_inv h₃
  obtain ⟨hop, rfl⟩ := marketUpdate_inv hupd
  obtain ⟨flow', market'⟩ := result
  dsimp only at h₄
  obtain ⟨supplyShares, hss, h₅⟩ := lift_bind_inv h₄
  obtain ⟨hliquid, h₆⟩ := guard_inv h₅
  rw [modify_bind, read_bind] at h₆
  have h₇ := (checkMinSharePrice_readOnly _ _ _ _).ite_bind_inv h₆
  obtain ⟨⟨⟩, s₂, hcb, h₈⟩ := bind_inv h₇
  rw [read_bind] at h₈
  obtain ⟨⟨⟩, s₃, hmove, h₉⟩ := bind_inv h₈
  obtain ⟨rfl, rfl⟩ := pure_inv h₉
  obtain ⟨hsub, hle⟩ := UInt256.checkedSub_toNat (Except.mapError_eq_ok.mp hss)
  refine ⟨hwho, market, market', s₄, s₂, shares, supplyShares, hacc, hop,
    resolveMax_inv hresolve, by simpa using hliquid, ?_, hcb, hmove⟩
  omega

theorem borrow_inv {sender : Address} {request : MarketRequest} {callback : Sim Unit}
    {flow : Flow}
    (h : borrow sender request callback s = .ok (flow, s')) :
    MayManage s sender request.onBehalf ∧
    ∃ market market' s₁ s₂ borrowShares,
      accrueMarket request.id s = .ok (market, s₁) ∧
      (Market.borrow (amountOf request.assets) (amountOf request.shares)).apply market =
        .ok (flow, market') ∧
      market'.hasEnoughLiquidity = true ∧
      borrowShares.toNat =
        (s₁.position request.onBehalf request.id).borrowShares.toNat + flow.shares.toNat ∧
      callback ((s₁.putPosition
        { s₁.position request.onBehalf request.id with borrowShares }).putMarket market') =
          .ok ((), s₂) ∧
      move ⟨market'.params.loanToken, s₂.registry.morpho, s₂.registry.morpho,
        request.receiver.getD sender, flow.assets⟩ s₂ = .ok ((), s') := by
  unfold borrow at h
  obtain ⟨⟨⟩, s₀, hauth, h₀⟩ := bind_inv h
  obtain ⟨rfl, hwho⟩ := checkAuthorized_inv hauth
  obtain ⟨market, s₁, hacc, h₁⟩ := bind_inv h₀
  obtain ⟨reference, -, h₂⟩ := (readOnly_arith _).bind_inv h₁
  obtain ⟨result, s₃, hupd, h₃⟩ := bind_inv h₂
  obtain ⟨hop, rfl⟩ := marketUpdate_inv hupd
  obtain ⟨flow', market'⟩ := result
  dsimp only at h₃
  rw [read_bind] at h₃
  obtain ⟨borrowShares, hbs, h₄⟩ := arith_bind_inv h₃
  obtain ⟨healthy, -, h₅⟩ := arith_bind_inv h₄
  obtain ⟨-, h₆⟩ := guard_inv h₅
  obtain ⟨hliquid, h₇⟩ := guard_inv h₆
  rw [modify_bind, read_bind] at h₇
  have h₈ := (checkMinSharePrice_readOnly _ _ _ _).ite_bind_inv h₇
  obtain ⟨⟨⟩, s₂, hcb, h₉⟩ := bind_inv h₈
  rw [read_bind] at h₉
  obtain ⟨⟨⟩, s₄, hmove, h₁₀⟩ := bind_inv h₉
  obtain ⟨rfl, rfl⟩ := pure_inv h₁₀
  exact ⟨hwho, market, market', s₃, s₂, borrowShares, hacc, hop, by simpa using hliquid,
    UInt256.checkedAdd_toNat hbs, hcb, hmove⟩

theorem repay_inv {sender : Address} {request : MarketRequest} {callback : Sim Unit}
    {flow : Flow}
    (h : repay sender request callback s = .ok (flow, s')) :
    ∃ market market' s₁ s₂ assets shares borrowShares,
      accrueMarket request.id s = .ok (market, s₁) ∧
      (Market.repay assets shares).apply market = .ok (flow, market') ∧
      borrowShares.toNat + flow.shares.toNat =
        (s₁.position request.onBehalf request.id).borrowShares.toNat ∧
      callback ((s₁.putPosition
        { s₁.position request.onBehalf request.id with borrowShares }).putMarket market') =
          .ok ((), s₂) ∧
      move ⟨market.params.loanToken, s₂.registry.morpho, sender, s₂.registry.morpho,
        flow.assets⟩ s₂ = .ok ((), s') := by
  unfold repay at h
  obtain ⟨market, s₁, hacc, h₁⟩ := bind_inv h
  rw [read_bind, read_bind] at h₁
  obtain ⟨assets, -, h₂⟩ := (resolveMax_readOnly _ _ _ _).bind_inv h₁
  obtain ⟨shares, -, h₃⟩ := (resolveMax_readOnly _ _ _ _).bind_inv h₂
  obtain ⟨reference, -, h₄⟩ := (readOnly_arith _).bind_inv h₃
  obtain ⟨result, s₃, hupd, h₅⟩ := bind_inv h₄
  obtain ⟨hop, rfl⟩ := marketUpdate_inv hupd
  obtain ⟨flow', market'⟩ := result
  dsimp only at h₅
  obtain ⟨borrowShares, hbs, h₆⟩ := lift_bind_inv h₅
  rw [modify_bind, read_bind] at h₆
  have h₇ := (checkMaxSharePrice_readOnly _ _ _ _).ite_bind_inv h₆
  obtain ⟨⟨⟩, s₂, hcb, h₈⟩ := bind_inv h₇
  rw [read_bind] at h₈
  obtain ⟨⟨⟩, s₄, hmove, h₉⟩ := bind_inv h₈
  obtain ⟨rfl, rfl⟩ := pure_inv h₉
  obtain ⟨hsub, hle⟩ := UInt256.checkedSub_toNat (Except.mapError_eq_ok.mp hbs)
  refine ⟨market, market', s₃, s₂, assets, shares, borrowShares, hacc, hop, ?_, hcb, hmove⟩
  omega

theorem supplyCollateral_inv {sender : Address} {request : CollateralRequest}
    {callback : Sim Unit} {u : Unit}
    (h : supplyCollateral sender request callback s = .ok (u, s')) :
    ∃ market s₁ s₂ assets collateral,
      accrueMarket request.id s = .ok (market, s₁) ∧
      collateral.toNat =
        (s₁.position request.onBehalf request.id).collateral.toNat + assets.toNat ∧
      callback (s₁.putPosition { s₁.position request.onBehalf request.id with collateral }) =
        .ok ((), s₂) ∧
      move ⟨market.params.collateralToken, s₂.registry.morpho, sender, s₂.registry.morpho,
        assets⟩ s₂ = .ok ((), s') := by
  unfold supplyCollateral at h
  obtain ⟨market, s₁, hacc, h₁⟩ := bind_inv h
  rw [read_bind] at h₁
  obtain ⟨assets, -, h₂⟩ := (resolveMax_readOnly _ _ _ _).bind_inv h₁
  obtain ⟨-, h₃⟩ := guard_inv h₂
  rw [read_bind] at h₃
  obtain ⟨collateral, hcol, h₄⟩ := arith_bind_inv h₃
  rw [modify_bind] at h₄
  obtain ⟨⟨⟩, s₂, hcb, h₅⟩ := bind_inv h₄
  rw [read_bind] at h₅
  exact ⟨market, s₁, s₂, assets, collateral, hacc, UInt256.checkedAdd_toNat hcol, hcb, h₅⟩

theorem withdrawCollateral_inv {sender : Address} {request : CollateralRequest}
    {callback : Sim Unit} {u : Unit}
    (h : withdrawCollateral sender request callback s = .ok (u, s')) :
    MayManage s sender request.onBehalf ∧
    ∃ market s₁ s₂ assets collateral,
      accrueMarket request.id s = .ok (market, s₁) ∧
      collateral.toNat + assets.toNat =
        (s₁.position request.onBehalf request.id).collateral.toNat ∧
      callback (s₁.putPosition { s₁.position request.onBehalf request.id with collateral }) =
        .ok ((), s₂) ∧
      move ⟨market.params.collateralToken, s₂.registry.morpho, s₂.registry.morpho,
        request.receiver.getD sender, assets⟩ s₂ = .ok ((), s') := by
  unfold withdrawCollateral at h
  obtain ⟨⟨⟩, s₀, hauth, h₀⟩ := bind_inv h
  obtain ⟨rfl, hwho⟩ := checkAuthorized_inv hauth
  obtain ⟨market, s₁, hacc, h₁⟩ := bind_inv h₀
  rw [read_bind] at h₁
  obtain ⟨assets, -, h₂⟩ := (resolveMax_readOnly _ _ _ _).bind_inv h₁
  obtain ⟨-, h₃⟩ := guard_inv h₂
  obtain ⟨collateral, hcol, h₄⟩ := lift_bind_inv h₃
  obtain ⟨healthy, -, h₅⟩ := arith_bind_inv h₄
  obtain ⟨-, h₆⟩ := guard_inv h₅
  rw [modify_bind] at h₆
  obtain ⟨⟨⟩, s₂, hcb, h₇⟩ := bind_inv h₆
  rw [read_bind] at h₇
  obtain ⟨hsub, hle⟩ := UInt256.checkedSub_toNat (Except.mapError_eq_ok.mp hcol)
  refine ⟨hwho, market, s₁, s₂, assets, collateral, hacc, ?_, hcb, h₇⟩
  omega

theorem flashLoan_inv {sender token : Address} {assets : Int256} {callback : Sim Unit} {u : Unit}
    (h : flashLoan sender token assets callback s = .ok (u, s')) :
    ∃ s₁ s₂,
      move ⟨token, s.registry.morpho, s.registry.morpho, sender, amountOf assets⟩ s =
        .ok ((), s₁) ∧
      callback s₁ = .ok ((), s₂) ∧
      move ⟨token, s.registry.morpho, sender, s.registry.morpho, amountOf assets⟩ s₂ =
        .ok ((), s') := by
  unfold flashLoan at h
  obtain ⟨-, h₁⟩ := guard_inv h
  rw [read_bind] at h₁
  obtain ⟨⟨⟩, s₁, hout, h₂⟩ := bind_inv h₁
  obtain ⟨⟨⟩, s₂, hcb, h₃⟩ := bind_inv h₂
  exact ⟨s₁, s₂, hout, hcb, h₃⟩

theorem setAuthorization_inv {sender owner : Address} {authorized : Bool} {u : Unit}
    (h : setAuthorization sender owner authorized s = .ok (u, s')) :
    ∃ morphoNonce : UInt256,
      (if sender = owner then morphoNonce = (s.user owner).morphoNonce
        else morphoNonce.toNat = (s.user owner).morphoNonce.toNat + 1) ∧
      s' = s.putUser { s.user owner with morphoNonce, isBundlerAuthorized := authorized } := by
  unfold setAuthorization at h
  rw [read_bind] at h
  split at h
  · next hne =>
    obtain ⟨morphoNonce, hnonce, h₁⟩ := arith_bind_inv h
    dsimp only at h₁
    rw [modify_apply] at h₁
    cases h₁
    have hne : sender ≠ owner := by simpa using hne
    refine ⟨morphoNonce, ?_, rfl⟩
    rw [if_neg hne, UInt256.checkedAdd_toNat hnonce]
    rfl
  · next heq =>
    obtain ⟨morphoNonce, hpure, h₁⟩ := (readOnly_pure _).bind_inv h
    dsimp only at h₁
    rw [modify_apply] at h₁
    cases h₁
    cases hpure
    have heq : sender = owner := by simpa using heq
    exact ⟨_, by rw [if_pos heq], rfl⟩

/-! ## Tokens -/

theorem transfer_inv {sender token : Address} {request : TransferRequest} {u : Unit}
    (h : transfer sender token request s = .ok (u, s')) :
    ∃ amount,
      move ⟨token, sender, request.source, request.destination, amount⟩ s = .ok ((), s') := by
  unfold transfer at h
  rw [read_bind] at h
  exact ⟨_, h⟩

theorem routerTransfer_inv {sender token : Address} {request : TransferRequest} {u : Unit}
    (h : routerTransfer sender token request s = .ok (u, s')) :
    ∃ spender, s.registry.routerSpenderOf sender = some spender ∧
      (amountOf request.amount).toNat ≤
        (((s.holding request.source token).routerAllowances.get spender).available
          s.block.timestamp).toNat ∧
      move ⟨token, s.registry.permit2, request.source, request.destination,
          amountOf request.amount⟩
        (s.putHolding { s.holding request.source token with
          routerAllowances := (s.holding request.source token).routerAllowances.set spender
            { (s.holding request.source token).routerAllowances.get spender with
              amount :=
                if ((s.holding request.source token).routerAllowances.get spender).amount =
                    maxRouterAmount then
                  ((s.holding request.source token).routerAllowances.get spender).amount
                else ((s.holding request.source token).routerAllowances.get
                  spender).amount.zeroFloorSub (amountOf request.amount) } }) =
        .ok ((), s') := by
  unfold routerTransfer at h
  rw [read_bind] at h
  cases hspender : s.registry.routerSpenderOf sender with
  | none =>
    rw [hspender] at h
    cases h
  | some spender =>
    rw [hspender] at h
    dsimp only at h
    obtain ⟨havailable, h₁⟩ := guard_inv h
    rw [set_bind] at h₁
    refine ⟨spender, rfl, Nat.le_of_not_lt havailable, ?_⟩
    simpa only [beq_iff_eq] using h₁

theorem setAllowance_inv {token owner spender : Address} {amount : UInt256} {u : Unit}
    (h : setAllowance token owner spender amount s = .ok (u, s')) :
    (∃ named, s.registry.spenderOf spender = some named ∧
      s' = s.putHolding { s.holding owner token with
        allowances := (s.holding owner token).allowances.set named amount }) ∨
    (s.registry.spenderOf spender = none ∧ s.vaultAsset? spender = some token ∧
      s' = s.putVaultUser { s.vaultUser spender owner with allowance := amount }) := by
  unfold setAllowance at h
  rw [read_bind] at h
  cases hnamed : s.registry.spenderOf spender with
  | some named =>
    rw [hnamed] at h
    cases h
    exact .inl ⟨named, rfl, rfl⟩
  | none =>
    rw [hnamed] at h
    dsimp only at h
    split at h
    · next hvault =>
      cases h
      simp only [Bool.and_eq_true, beq_iff_eq] at hvault
      exact .inr ⟨rfl, hvault.2, rfl⟩
    · cases h

/-- A deadline, when there is one, that has not passed: the rest runs from the same state. -/
theorem deadline_inv {β : Type} {o : Option Nat} {t : Nat} {e : Nat → Fault}
    {k : Unit → Sim β} {b : β}
    (h : (match o with
      | some d => if d < t then throw (e d) >>= fun r => k r else k ()
      | _ => k ()) s = .ok (b, s')) : k () s = .ok (b, s') := by
  cases o with
  | none => exact h
  | some d =>
    dsimp only at h
    split at h
    · cases h
    · exact h

theorem permit_inv {sender token : Address} {request : PermitRequest} {u : Unit}
    (h : permit sender token request s = .ok (u, s')) :
    (s.holding sender token).permitNonce = some request.nonce ∧
    ∃ next amount, next.toNat = request.nonce.toNat + 1 ∧
      setAllowance token sender request.spender amount
        (s.putHolding { s.holding sender token with permitNonce := some next }) = .ok ((), s') := by
  unfold permit at h
  rw [read_bind] at h
  have h₁ := deadline_inv h
  cases hnonce : (s.holding sender token).permitNonce with
  | none =>
    rw [hnonce] at h₁
    cases h₁
  | some expected =>
    rw [hnonce] at h₁
    dsimp only at h₁
    obtain ⟨hmatch, h₂⟩ := guard_inv h₁
    obtain ⟨next, hnext, h₃⟩ := arith_bind_inv h₂
    rw [set_bind] at h₃
    obtain rfl : request.nonce = expected := by simpa using hmatch
    exact ⟨rfl, next, _, by rw [UInt256.checkedAdd_toNat hnext]; rfl, h₃⟩

theorem routerPermit_inv {sender token : Address} {request : RouterPermitRequest} {u : Unit}
    (h : routerPermit sender token request s = .ok (u, s')) :
    ∃ spender updated, s.registry.routerSpenderOf request.spender = some spender ∧
      ((s.holding sender token).routerAllowances.get spender).nonce = request.nonce ∧
      updated.nonce.toNat = request.nonce.toNat + 1 ∧
      s' = s.putHolding { s.holding sender token with
        routerAllowances := (s.holding sender token).routerAllowances.set spender updated } := by
  unfold routerPermit at h
  rw [read_bind] at h
  cases hspender : s.registry.routerSpenderOf request.spender with
  | none =>
    rw [hspender] at h
    cases h
  | some spender =>
    rw [hspender] at h
    dsimp only at h
    obtain ⟨hmatch, h₁⟩ := guard_inv h
    obtain ⟨nonce, hnonce, h₂⟩ := arith_bind_inv h₁
    cases h₂
    have hmatch : request.nonce = ((s.holding sender token).routerAllowances.get spender).nonce := by
      simpa using hmatch
    refine ⟨spender, _, rfl, hmatch.symm, ?_, rfl⟩
    rw [UInt256.checkedAdd_toNat hnonce, hmatch]
    rfl

/-- The sender gives up some of one token, burnt, and `receiver` gets some of another,
minted. -/
def Exchanged (sender receiver : Address) (s s' : State) : Prop :=
  ∃ given taken : Address, ∃ paid got : UInt256, ∃ s₁,
    move (.burn given sender paid) s = .ok ((), s₁) ∧
    move (.mint taken sender receiver got) s₁ = .ok ((), s')

theorem wrap_inv {sender wrapped : Address} {request : WrapRequest} {u : Unit}
    (h : wrap sender wrapped request s = .ok (u, s')) : Exchanged sender request.owner s s' := by
  unfold wrap at h
  rw [read_bind] at h
  obtain ⟨token, -, h₁⟩ := lift_bind_inv h
  cases hwrapper : token.wrapper with
  | none =>
    rw [hwrapper] at h₁
    cases h₁
  | some wrapper =>
    rw [hwrapper] at h₁
    dsimp only at h₁
    obtain ⟨minted?, -, h₂⟩ := arith_bind_inv h₁
    cases minted? with
    | none => cases h₂
    | some minted =>
      obtain ⟨⟨⟩, s₁, hburn, hmint⟩ := bind_inv h₂
      exact ⟨_, _, _, _, s₁, hburn, hmint⟩

theorem unwrap_inv {sender wrapped : Address} {request : UnwrapRequest} {u : Unit}
    (h : unwrap sender wrapped request s = .ok (u, s')) :
    ∃ receiver, Exchanged sender receiver s s' := by
  unfold unwrap at h
  rw [read_bind] at h
  obtain ⟨token, -, h₁⟩ := lift_bind_inv h
  cases hwrapper : token.wrapper with
  | none =>
    rw [hwrapper] at h₁
    cases h₁
  | some wrapper =>
    rw [hwrapper] at h₁
    dsimp only at h₁
    obtain ⟨unwrapped?, -, h₂⟩ := arith_bind_inv h₁
    cases unwrapped? with
    | none => cases h₂
    | some unwrapped =>
      obtain ⟨⟨⟩, s₁, hburn, hmint⟩ := bind_inv h₂
      exact ⟨_, _, _, _, _, s₁, hburn, hmint⟩

theorem swapBuy_inv {sender : Address} {request : SwapRequest} {u : Unit}
    (h : swapBuy sender request s = .ok (u, s')) : Exchanged sender request.receiver s s' := by
  unfold swapBuy at h
  obtain ⟨⟨bought, quoted⟩, -, h₁⟩ := lift_bind_inv h
  dsimp only at h₁
  obtain ⟨paid, -, h₂⟩ := arith_bind_inv h₁
  obtain ⟨⟨⟩, s₁, hburn, hmint⟩ := bind_inv h₂
  exact ⟨_, _, _, _, s₁, hburn, hmint⟩

theorem swapSell_inv {sender : Address} {request : SwapRequest} {u : Unit}
    (h : swapSell sender request s = .ok (u, s')) : Exchanged sender request.receiver s s' := by
  unfold swapSell at h
  obtain ⟨⟨sold, quoted⟩, -, h₁⟩ := lift_bind_inv h
  dsimp only at h₁
  split at h₁
  · rw [read_bind] at h₁
    split at h₁
    · obtain ⟨quoted', -, h₂⟩ := (readOnly_pure _).bind_inv h₁
      obtain ⟨amounts, -, h₃⟩ := (readOnly_pure _).bind_inv h₂
      obtain ⟨received, -, h₄⟩ := arith_bind_inv h₃
      obtain ⟨⟨⟩, s₁, hburn, hmint⟩ := bind_inv h₄
      exact ⟨_, _, _, _, s₁, hburn, hmint⟩
    · obtain ⟨quoted', -, h₂⟩ := arith_bind_inv h₁
      obtain ⟨amounts, -, h₃⟩ := (readOnly_pure _).bind_inv h₂
      obtain ⟨received, -, h₄⟩ := arith_bind_inv h₃
      obtain ⟨⟨⟩, s₁, hburn, hmint⟩ := bind_inv h₄
      exact ⟨_, _, _, _, s₁, hburn, hmint⟩
  · obtain ⟨amounts, -, h₂⟩ := (readOnly_pure _).bind_inv h₁
    obtain ⟨received, -, h₃⟩ := arith_bind_inv h₂
    obtain ⟨⟨⟩, s₁, hburn, hmint⟩ := bind_inv h₃
    exact ⟨_, _, _, _, s₁, hburn, hmint⟩

end LendingSim.Perform
