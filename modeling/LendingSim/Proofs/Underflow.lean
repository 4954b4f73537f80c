import LendingSim.Run
import LendingSim.Proofs.VaultQueues

/-!
# Subtractions that never go below zero

A few subtractions of the handlers have no check of their own, and the simulator computes them
floored at zero: the tolerance of a price, `10 ^ 18 - slippage`, when withdrawing or borrowing
for the bundling adapter, withdrawing from either kind of vault, or selling through the swap
router; an allowance less what is spent from it, of a named spender, of a vault share or of the
permit router; what a walk along a vault's queue still has to place or take, less its step; the
real assets of a liquidity adapter, less what it gives up; and the divisor less one of a quotient
rounded up. Each relies on a check made before it, and this module proves that each check does
its job: the subtraction is reached only with its operands in order, so its floor never acts.

Only the tolerance's check is not local. The handlers read the tolerance of their own request,
and it is validation that refuses a tolerance above one, before the handler runs, for every
action, at top level or nested in a callback: `LowersBySlippage` lists the operations whose
handlers lower a price, and `LowersBySlippage.run_of_above_one` refuses them. The requests a vault
builds for its own supplies and withdrawals carry no tolerance, and the core contract checks a
share price only for a request that has one. The other checks sit in the handlers themselves.
-/

namespace LendingSim

open Sim Perform

/-! ## Tolerances -/

/-- The operations whose handler lowers a reference price by the tolerance `sl` of its request,
computing `10 ^ 18 - slippage`: withdrawing and borrowing on a market and withdrawing from either
kind of vault, when the bundling adapter sends them, and selling through the swap router. -/
inductive LowersBySlippage : Operation → Option Int256 → Prop
  | withdraw (request : MarketRequest) (callback : Option (List Action)) :
      LowersBySlippage (.withdraw request callback) request.slippage
  | borrow (request : MarketRequest) (callback : Option (List Action)) :
      LowersBySlippage (.borrow request callback) request.slippage
  | vaultWithdraw (request : RedeemRequest) :
      LowersBySlippage (.vaultWithdraw request) request.slippage
  | vaultV2Withdraw (request : RedeemRequest) :
      LowersBySlippage (.vaultV2Withdraw request) request.slippage
  | swapSell (request : SwapRequest) : LowersBySlippage (.swapSell request) request.slippage

/-- Validation reads the tolerance that the handler of such an operation uses. -/
theorem LowersBySlippage.slippage_eq {op : Operation} {sl : Option Int256}
    (h : LowersBySlippage op sl) : op.slippage = sl := by
  cases h <;> rfl

namespace Operation

/-- An operation passes validation only with a tolerance of at most one. -/
theorem slippageOf_le_of_validate {op : Operation} {u : Unit} (h : op.validate = .ok u) :
    slippageOf op.slippage ≤ UInt256.wad := by
  unfold validate at h
  split at h
  · cases h
  cases hs : op.slippage with
  | none => exact Nat.zero_le _
  | some sl =>
    rw [hs] at h
    dsimp only at h
    split at h
    · cases h
    split at h
    · cases h
    · next hle => exact Nat.le_of_not_lt hle

/-- An operation that fails validation fails as soon as it is performed, with the same fault
from every state and with every callback: nothing of its handler runs. -/
theorem perform_of_validate_error {op : Operation} {e : InputError} (h : op.validate = .error e)
    (sender target : Address) (callback : Sim Unit) (s : State) :
    op.perform sender target callback s = .error (.input e) := by
  unfold perform
  rw [h]
  rfl

end Operation

/-- An action whose operation fails validation fails at its index with that input fault. -/
theorem Action.run_of_validate_error {sender target : Address} {op : Operation} {e : InputError}
    (h : op.validate = .error e) (index : Nat) (s : State) :
    (Action.mk sender target op).run index s =
      .error (.mk index (.mk sender target op) (.input e)) := by
  rw [Action.run, Operation.perform_of_validate_error h]

/-- An operation whose handler lowers a price by its tolerance is refused before the handler runs
when the tolerance exceeds one: the action fails with one input fault at every index and from
every state, whether it runs at top level or nested in a callback. -/
theorem LowersBySlippage.run_of_above_one {op : Operation} {sl : Option Int256}
    (hop : LowersBySlippage op sl) (habove : UInt256.wad < slippageOf sl) (sender target : Address) :
    ∃ e, ∀ index s, (Action.mk sender target op).run index s =
      .error (.mk index (.mk sender target op) (.input e)) := by
  cases hv : op.validate with
  | ok u =>
    have hle := Operation.slippageOf_le_of_validate hv
    rw [hop.slippage_eq] at hle
    exact absurd habove (Nat.not_lt.mpr hle)
  | error e => exact ⟨e, Action.run_of_validate_error hv⟩

/-! ## Allowances -/

/-- A word below another is not the largest word. -/
theorem UInt256.ne_maxValue_of_lt {a b : UInt256} (h : a < b) : a ≠ UInt256.maxValue := by
  rintro rfl
  have hb := b.isLt
  exact absurd h (by show ¬(UInt256.size - 1 < b.toNat); omega)

/-- A router allowance is usable for at most its amount. -/
theorem RouterAllowance.available_le (a : RouterAllowance) (timestamp : Nat) :
    a.available timestamp ≤ a.amount := by
  unfold RouterAllowance.available
  split
  · exact Nat.zero_le _
  · exact Nat.le_refl _

namespace Perform

variable {s : State} {token owner spender : Address} {amount : UInt256}

/-- An allowance of a named spender below the amount fails the spend, unless it is the core
contract pulling from an owner who lets it without one. -/
theorem spendAllowance_of_lt_named {named : Spender}
    (hnamed : s.registry.spenderOf spender = some named)
    (hfree : ¬(spender = s.registry.morpho ∧ s.approvesMorpho owner = true))
    (hlt : (s.holding owner token).allowances.get named < amount) :
    spendAllowance token owner spender amount s =
      .error (.token (.insufficientAllowance token owner spender
        ((s.holding owner token).allowances.get named) amount)) := by
  have hmax := UInt256.ne_maxValue_of_lt hlt
  unfold spendAllowance
  rw [read_bind, hnamed]
  simp [hfree, hmax, hlt]

/-- The allowance of a vault's share owner below the amount fails a spend of the vault's asset
by the vault. -/
theorem spendAllowance_of_lt_vaultUser (hnamed : s.registry.spenderOf spender = none)
    (hasset : s.vaultAsset? spender = some token)
    (hlt : (s.vaultUser spender owner).allowance < amount) :
    spendAllowance token owner spender amount s =
      .error (.token (.insufficientAllowance token owner spender
        (s.vaultUser spender owner).allowance amount)) := by
  have hmax := UInt256.ne_maxValue_of_lt hlt
  unfold spendAllowance
  rw [read_bind, hnamed]
  simp [hasset, hmax, hlt]

/-- A permit-router allowance below the amount fails the transfer, expired or not. -/
theorem routerTransfer_of_lt {sender token : Address} {request : TransferRequest}
    {spender : RouterSpender} (hspender : s.registry.routerSpenderOf sender = some spender)
    (hlt : ((s.holding request.source token).routerAllowances.get spender).amount <
      amountOf request.amount) :
    routerTransfer sender token request s =
      .error (.token (.insufficientRouterAllowance token request.source sender)) := by
  have havailable : ((s.holding request.source token).routerAllowances.get spender).available
      s.block.timestamp < amountOf request.amount :=
    Nat.lt_of_le_of_lt (RouterAllowance.available_le _ _) hlt
  unfold routerTransfer
  rw [read_bind, hspender]
  simp [havailable]

end Perform

/-! ## Walks, adapters and divisors -/

namespace UInt256

/-- The smaller of two words is at most the second. -/
theorem min_le_right (a b : UInt256) : min a b ≤ b := by
  show (min a b).toNat ≤ b.toNat
  rw [toNat_min]
  exact Nat.min_le_right _ _

/-- A quotient rounded up over a zero divisor fails before the divisor less one is formed. -/
theorem mulDivUp_zero_divisor (x y : UInt256) : mulDivUp x y 0 = .error .divisionByZero := rfl

end UInt256

namespace Perform

variable {s s' : State} {vault : Address} {id : MarketId} {rest : List MarketId}
  {remaining r : UInt256}

/-- A step of the walk placing a deposit stops, skips its market, or supplies it at most what
remains to place and goes on with the rest. -/
theorem supplyToMarkets_cons_inv
    (h : supplyToMarkets vault (id :: rest) remaining s = .ok (r, s')) :
    (r = remaining ∧ s' = s) ∨ (∃ s₁, supplyToMarkets vault rest remaining s₁ = .ok (r, s')) ∨
      ∃ x s₀ s₁ flow, x.toNat ≤ remaining.toNat ∧
        supply vault (vaultRequest vault id x 0 none) (pure ()) s₀ = .ok (flow, s₁) ∧
        supplyToMarkets vault rest (remaining.zeroFloorSub x) s₁ = .ok (r, s') := by
  rw [supplyToMarkets] at h
  split at h
  · obtain ⟨rfl, rfl⟩ := pure_inv h
    exact .inl ⟨rfl, rfl⟩
  · rw [read_bind] at h
    obtain ⟨config, -, h₁⟩ := lift_bind_inv h
    split at h₁
    · exact .inr (.inl ⟨s, h₁⟩)
    · obtain ⟨supplied, s₀, -, h₂⟩ := bind_inv h₁
      dsimp only at h₂
      split at h₂
      · exact .inr (.inl ⟨s₀, h₂⟩)
      · obtain ⟨⟨⟩, s₁, hsupply, h₃⟩ := bind_inv h₂
        obtain ⟨flow, hflow⟩ := discard_inv hsupply
        exact .inr (.inr ⟨_, s₀, s₁, flow, UInt256.min_le_right _ _, hflow, h₃⟩)

/-- A step of the walk gathering a withdrawal stops, skips its market, or withdraws from it at
most what remains to take and goes on with the rest. -/
theorem withdrawFromMarkets_cons_inv
    (h : withdrawFromMarkets vault (id :: rest) remaining s = .ok (r, s')) :
    (r = remaining ∧ s' = s) ∨
      (∃ s₁, withdrawFromMarkets vault rest remaining s₁ = .ok (r, s')) ∨
      ∃ x s₀ s₁ flow, x.toNat ≤ remaining.toNat ∧
        withdraw vault (vaultRequest vault id x 0 (some vault)) (pure ()) s₀ = .ok (flow, s₁) ∧
        withdrawFromMarkets vault rest (remaining.zeroFloorSub x) s₁ = .ok (r, s') := by
  rw [withdrawFromMarkets] at h
  split at h
  · obtain ⟨rfl, rfl⟩ := pure_inv h
    exact .inl ⟨rfl, rfl⟩
  · obtain ⟨supplied, s₀, -, h₁⟩ := bind_inv h
    rw [read_bind] at h₁
    obtain ⟨m, -, h₂⟩ := lift_bind_inv h₁
    dsimp only at h₂
    split at h₂
    · exact .inr (.inl ⟨s₀, h₂⟩)
    · obtain ⟨⟨⟩, s₁, hwithdraw, h₃⟩ := bind_inv h₂
      obtain ⟨flow, hflow⟩ := discard_inv hwithdraw
      exact .inr (.inr ⟨_, s₀, s₁, flow, UInt256.min_le_right _ _, hflow, h₃⟩)

/-- A withdrawal from a second-kind vault takes what its idle balance lacks from the liquidity
adapter only when the adapter's real assets cover it. -/
theorem vaultV2Withdraw_pulls {sender address : Address} {request : RedeemRequest}
    (h : vaultV2Withdraw sender address request s = .ok ((), s')) :
    ∃ vault assets s₁ s₂, accrueVaultV2 address s = .ok (vault, s₁) ∧
      Pulled address vault.asset vault.liquidityAdapter assets s₁ s₂ := by
  obtain ⟨vault, flow, -, s₁, s₂, -, -, hacc, -, hpulled, -⟩ := vaultV2Withdraw_inv h
  exact ⟨vault, flow.assets, s₁, s₂, hacc, hpulled⟩

end Perform

/-- No subtraction the handlers leave unchecked goes below zero: a tolerance above one is refused
at validation, an allowance short of the amount fails its spend, each step of a vault's walk
along a queue takes at most what remains, a liquidity adapter gives up only what its real assets
cover, and a quotient over a zero divisor fails before the divisor less one is formed. -/
theorem subtractions_never_underflow :
    (∀ op sl, LowersBySlippage op sl → UInt256.wad < slippageOf sl → ∀ sender target, ∃ e,
      ∀ index s, (Action.mk sender target op).run index s =
        .error (.mk index (.mk sender target op) (.input e))) ∧
    (∀ vault id assets shares receiver,
      (Perform.vaultRequest vault id assets shares receiver).slippage = none) ∧
    (∀ (s : State) token owner spender amount named,
      s.registry.spenderOf spender = some named →
      ¬(spender = s.registry.morpho ∧ s.approvesMorpho owner = true) →
      (s.holding owner token).allowances.get named < amount →
      Perform.spendAllowance token owner spender amount s =
        .error (.token (.insufficientAllowance token owner spender
          ((s.holding owner token).allowances.get named) amount))) ∧
    (∀ (s : State) token owner spender amount,
      s.registry.spenderOf spender = none → s.vaultAsset? spender = some token →
      (s.vaultUser spender owner).allowance < amount →
      Perform.spendAllowance token owner spender amount s =
        .error (.token (.insufficientAllowance token owner spender
          (s.vaultUser spender owner).allowance amount))) ∧
    (∀ (s : State) sender token request spender,
      s.registry.routerSpenderOf sender = some spender →
      ((s.holding request.source token).routerAllowances.get spender).amount <
        amountOf request.amount →
      Perform.routerTransfer sender token request s =
        .error (.token (.insufficientRouterAllowance token request.source sender))) ∧
    (∀ (s s' : State) vault id rest (remaining r : UInt256),
      Perform.supplyToMarkets vault (id :: rest) remaining s = .ok (r, s') →
      (r = remaining ∧ s' = s) ∨
        (∃ s₁, Perform.supplyToMarkets vault rest remaining s₁ = .ok (r, s')) ∨
        ∃ x s₀ s₁ flow, x.toNat ≤ remaining.toNat ∧
          Perform.supply vault (Perform.vaultRequest vault id x 0 none) (pure ()) s₀ =
            .ok (flow, s₁) ∧
          Perform.supplyToMarkets vault rest (remaining.zeroFloorSub x) s₁ = .ok (r, s')) ∧
    (∀ (s s' : State) vault id rest (remaining r : UInt256),
      Perform.withdrawFromMarkets vault (id :: rest) remaining s = .ok (r, s') →
      (r = remaining ∧ s' = s) ∨
        (∃ s₁, Perform.withdrawFromMarkets vault rest remaining s₁ = .ok (r, s')) ∨
        ∃ x s₀ s₁ flow, x.toNat ≤ remaining.toNat ∧
          Perform.withdraw vault (Perform.vaultRequest vault id x 0 (some vault)) (pure ()) s₀ =
            .ok (flow, s₁) ∧
          Perform.withdrawFromMarkets vault rest (remaining.zeroFloorSub x) s₁ = .ok (r, s')) ∧
    (∀ (s s' : State) sender address request,
      Perform.vaultV2Withdraw sender address request s = .ok ((), s') →
      ∃ vault assets s₁ s₂, Perform.accrueVaultV2 address s = .ok (vault, s₁) ∧
        Perform.Pulled address vault.asset vault.liquidityAdapter assets s₁ s₂) ∧
    (∀ x y : UInt256, UInt256.mulDivUp x y 0 = .error .divisionByZero) :=
  ⟨fun _ _ hop habove => hop.run_of_above_one habove,
    fun _ _ _ _ _ => rfl,
    fun _ _ _ _ _ _ hnamed hfree hlt => Perform.spendAllowance_of_lt_named hnamed hfree hlt,
    fun _ _ _ _ _ hnamed hasset hlt => Perform.spendAllowance_of_lt_vaultUser hnamed hasset hlt,
    fun _ _ _ _ _ hspender hlt => Perform.routerTransfer_of_lt hspender hlt,
    fun _ _ _ _ _ _ _ => Perform.supplyToMarkets_cons_inv,
    fun _ _ _ _ _ _ _ => Perform.withdrawFromMarkets_cons_inv,
    fun _ _ _ _ _ => Perform.vaultV2Withdraw_pulls,
    UInt256.mulDivUp_zero_divisor⟩

namespace GuardSample

/-- A trader, and the address it calls. -/
def trader : Address := ⟨0x170, by decide⟩

def router : Address := ⟨0x171, by decide⟩

/-- The token sold. -/
def token : Address := ⟨0x172, by decide⟩

/-- A fresh state on a registry of its own: nobody holds or allows anything. -/
def state : State :=
  State.new .ethereum ⟨0, 0⟩ ⟨⟨0x173, by decide⟩, ⟨0x174, by decide⟩, ⟨0x175, by decide⟩,
    ⟨0x176, by decide⟩, ⟨0x177, by decide⟩, none⟩

/-- A sale of a thousand units quoted at 990, with a tolerance of 150%. -/
def oversold : SwapRequest :=
  { srcToken := token, dstToken := ⟨0x178, by decide⟩, amounts := .explicit 1000 990,
    receiver := trader, slippage := some 1500000000000000000, sellEntireBalance := false }

end GuardSample

open GuardSample in
/-- A sale with a tolerance of 150% is refused before it runs, at every index and from every
state; and a trader who allowed the general adapter nothing cannot have a unit taken through it,
directly or through the permit router. -/
theorem subtractions_never_underflow_refusals :
    LowersBySlippage (.swapSell oversold) oversold.slippage ∧
      UInt256.wad < slippageOf oversold.slippage ∧
      (∃ e, ∀ index s, (Action.mk trader router (.swapSell oversold)).run index s =
        .error (.mk index (.mk trader router (.swapSell oversold)) (.input e))) ∧
      state.registry.spenderOf state.registry.generalAdapter1 = some .generalAdapter1 ∧
      ¬(state.registry.generalAdapter1 = state.registry.morpho ∧
        state.approvesMorpho trader = true) ∧
      (state.holding trader token).allowances.get .generalAdapter1 < 1 ∧
      Perform.spendAllowance token trader state.registry.generalAdapter1 1 state =
        .error (.token (.insufficientAllowance token trader state.registry.generalAdapter1
          ((state.holding trader token).allowances.get .generalAdapter1) 1)) ∧
      state.registry.routerSpenderOf state.registry.generalAdapter1 = some .generalAdapter1 ∧
      ((state.holding trader token).routerAllowances.get .generalAdapter1).amount < amountOf 1 ∧
      Perform.routerTransfer state.registry.generalAdapter1 token ⟨1, trader, router⟩ state =
        .error (.token (.insufficientRouterAllowance token trader
          state.registry.generalAdapter1)) :=
  have hsell : LowersBySlippage (.swapSell oversold) oversold.slippage := .swapSell oversold
  have habove : UInt256.wad < slippageOf oversold.slippage := by decide
  have hnamed : state.registry.spenderOf state.registry.generalAdapter1 = some .generalAdapter1 :=
    by decide
  have hfree : ¬(state.registry.generalAdapter1 = state.registry.morpho ∧
      state.approvesMorpho trader = true) := by decide
  have hlt : (state.holding trader token).allowances.get .generalAdapter1 < 1 := by decide
  have hrouter : state.registry.routerSpenderOf state.registry.generalAdapter1 =
      some .generalAdapter1 := by decide
  have hrlt : ((state.holding trader token).routerAllowances.get .generalAdapter1).amount <
      amountOf 1 := by decide
  ⟨hsell, habove, subtractions_never_underflow.1 _ _ hsell habove trader router, hnamed, hfree,
    hlt, subtractions_never_underflow.2.2.1 state token trader _ 1 _ hnamed hfree hlt, hrouter,
    hrlt, subtractions_never_underflow.2.2.2.2.1 state _ token ⟨1, trader, router⟩ _ hrouter hrlt⟩

end LendingSim
