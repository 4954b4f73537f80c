import Mathlib
import LendingSim.Perform.Core
import LendingSim.Proofs.Sim
import LendingSim.Proofs.Market
import LendingSim.Proofs.WellFormed

/-!
# The steps handlers are made of

Handlers are sequences of a few kinds of steps: reads and checks that leave the state alone,
accruing a market, committing a flow to a market and a position, and moving tokens. This module
inverts each step, so that a handler's run can be cut into runs of its steps and every later
statement is proved once per kind of step.

Accruing a market (`accrueMarket_inv`) stores the accrued market and credits its fee shares to
the fee recipient's supply position. A token movement (`move_inv`) spends an allowance when a
third party moves the tokens, debits the source unless it mints, and credits the destination
unless it burns. Spending an allowance (`spendAllowance_inv`) either leaves the state alone (the
core contract pulling from a contract that approves it, or an unlimited allowance) or lowers
exactly one allowance by the amount. Movements and allowances write nothing but holdings and
vault users (`TokensOnly`).
-/

namespace LendingSim

namespace Sim

variable {α β : Type} {s s' : State}

theorem read_bind (f : State → Sim β) (s : State) : ((get : Sim State) >>= f) s = f s s := rfl

/-- A computation that only reads: a successful run ends where it started. -/
def ReadOnly (x : Sim α) : Prop := Keeps (fun s s' => s' = s) x

/-- A successful run of `x >>= f` for a reading `x` runs `f` from the same state. -/
theorem ReadOnly.bind_inv {x : Sim α} {f : α → Sim β} {b : β} (hx : ReadOnly x)
    (h : (x >>= f) s = .ok (b, s')) : ∃ a, x s = .ok (a, s) ∧ f a s = .ok (b, s') := by
  obtain ⟨a, s₁, h₁, h₂⟩ := Sim.bind_inv h
  obtain rfl := hx s a s₁ h₁
  exact ⟨a, h₁, h₂⟩

/-- A check made only under a condition, followed by the rest of a handler: whether or not the
check runs, the rest runs from the same state. -/
theorem ReadOnly.ite_bind_inv {c : Prop} [Decidable c] {x : Sim Unit} {k : Unit → Sim β}
    {b : β} (hx : ReadOnly x) (h : (if c then x >>= fun r => k r else k ()) s = .ok (b, s')) :
    k () s = .ok (b, s') := by
  split at h
  · obtain ⟨⟨⟩, -, h⟩ := hx.bind_inv h
    exact h
  · exact h

/-- A guard that throws when its condition holds: a successful run passed it. -/
theorem guard_inv {c : Prop} [Decidable c] {e : Fault} {k : Unit → Sim β} {b : β}
    (h : (if c then throw e >>= fun r => k r else k ()) s = .ok (b, s')) :
    ¬c ∧ k () s = .ok (b, s') := by
  split at h
  · cases h
  · next hc => exact ⟨hc, h⟩

/-- A value fixed one way or the other before the rest of a handler runs on it: whichever way
is taken, the rest runs on some value from the same state, provided the first way reaches the
rest as the second does. -/
theorem ite_pure_bind_inv {c : Prop} [Decidable c] {x : Sim β} {a₀ : α} {k : α → Sim β} {b : β}
    (hx : ∀ {s b s'}, x s = .ok (b, s') → ∃ a, k a s = .ok (b, s'))
    (h : (if c then x else pure a₀ >>= k) s = .ok (b, s')) : ∃ a, k a s = .ok (b, s') := by
  split at h
  · exact hx h
  · exact ⟨a₀, h⟩

theorem readOnly_pure (a : α) : ReadOnly (pure a : Sim α) := fun _ _ _ h => (pure_inv h).2

theorem readOnly_lift (x : Except Fault α) : ReadOnly (lift x) := fun _ _ _ h => (lift_inv h).2

theorem readOnly_arith (x : Except ArithError α) : ReadOnly (arith x) :=
  fun _ _ _ h => (arith_inv h).2

/-- A fold whose every step only reads only reads. -/
theorem readOnly_foldlM {γ : Type} {f : β → γ → Sim β} (hf : ∀ b c, ReadOnly (f b c)) :
    ∀ (l : List γ) (init : β), ReadOnly (l.foldlM f init)
  | [], init => readOnly_pure init
  | c :: l, init => by
    intro s b s' h
    rw [List.foldlM_cons] at h
    obtain ⟨b₁, -, h₁⟩ := (hf init c).bind_inv h
    exact readOnly_foldlM hf l b₁ s b s' h₁

/-- A relation on states that holds of every state with itself and composes: what a run of
steps keeps when each of its steps keeps it. -/
structure Composes (R : State → State → Prop) : Prop where
  refl : ∀ s, R s s
  trans : ∀ {s₁ s₂ s₃}, R s₁ s₂ → R s₂ s₃ → R s₁ s₃

namespace Keeps

variable {R : State → State → Prop}

theorem seq (hR : Composes R) {x : Sim α} {f : α → Sim β} (hx : Keeps R x)
    (hf : ∀ a, Keeps R (f a)) : Keeps R (x >>= f) := by
  intro s b s' h
  obtain ⟨a, s₁, h₁, h₂⟩ := bind_inv h
  exact hR.trans (hx s a s₁ h₁) (hf a s₁ b s' h₂)

theorem read {f : State → Sim α} (hf : ∀ s, Keeps R (f s)) :
    Keeps R ((get : Sim State) >>= f) :=
  fun s a s' h => hf s s a s' h

/-- A read-only step before the rest keeps whatever the rest keeps, whether or not the relation
composes. -/
theorem readOnly_bind {x : Sim α} {f : α → Sim β} (hx : ReadOnly x) (hf : ∀ a, Keeps R (f a)) :
    Keeps R (x >>= f) := by
  intro s b s' h
  obtain ⟨a, -, h₂⟩ := hx.bind_inv h
  exact hf a s b s' h₂

theorem ite {c : Prop} [Decidable c] {x y : Sim α} (hx : Keeps R x) (hy : Keeps R y) :
    Keeps R (if c then x else y) := by
  split
  · exact hx
  · exact hy

theorem of_readOnly (hR : Composes R) {x : Sim α} (hx : ReadOnly x) : Keeps R x :=
  fun s a s' h => (hx s a s' h) ▸ hR.refl s

theorem fail (e : Fault) : Keeps R (throw e : Sim α) := fun _ _ _ h => nomatch h

theorem modify {f : State → State} (hf : ∀ s, R s (f s)) : Keeps R (modify f : Sim PUnit) := by
  intro s u s' h
  rw [modify_apply] at h
  cases h
  exact hf s

/-- The rest of a run past a guard keeps what the rest keeps. -/
theorem guard {c : Prop} [Decidable c] {e : Fault} {k : Unit → Sim α} (hk : Keeps R (k ())) :
    Keeps R (if c then (throw e : Sim Unit) >>= (fun r => k r) else k ()) :=
  fun s a s' h => hk s a s' (guard_inv h).2

end Keeps

/-- A successful run of a computation whose result is dropped is a successful run of it. -/
theorem discard_inv {x : Sim α} {u : PUnit} (h : discard x s = .ok (u, s')) :
    ∃ a, x s = .ok (a, s') := by
  cases hx : x s with
  | error e =>
    have hrun : discard x s = .error e := by
      show Functor.mapConst _ x s = _
      simp [Functor.mapConst, StateT.map, hx]
    rw [hrun] at h
    cases h
  | ok p =>
    obtain ⟨a, s₁⟩ := p
    have hrun : discard x s = .ok (⟨⟩, s₁) := by
      show Functor.mapConst _ x s = _
      simp [Functor.mapConst, StateT.map, hx]
    rw [hrun] at h
    cases h
    exact ⟨a, rfl⟩

theorem Keeps.discard {R : State → State → Prop} {x : Sim α} (hx : Keeps R x) :
    Keeps R (discard x) := by
  intro s u s' h
  obtain ⟨a, ha⟩ := discard_inv h
  exact hx s a s' ha

/-- `s'` differs from `s` at most in its holdings and vault users. -/
def TokensOnly (s s' : State) : Prop :=
  ∃ holdings vaultUsers, s' = { s with holdings, vaultUsers }

theorem TokensOnly.refl (s : State) : TokensOnly s s := ⟨s.holdings, s.vaultUsers, rfl⟩

theorem TokensOnly.trans {s₁ s₂ s₃ : State} :
    TokensOnly s₁ s₂ → TokensOnly s₂ s₃ → TokensOnly s₁ s₃ := by
  rintro ⟨h₁, u₁, rfl⟩ ⟨h₂, u₂, rfl⟩
  exact ⟨h₂, u₂, rfl⟩

theorem tokensOnly_putHolding (s : State) (holding : Holding) :
    TokensOnly s (s.putHolding holding) := ⟨_, _, rfl⟩

theorem tokensOnly_putVaultUser (s : State) (u : VaultUser) :
    TokensOnly s (s.putVaultUser u) := ⟨_, _, rfl⟩

/-! ## Accruing a market -/

/-- The fee shares of an accrual credited to the fee recipient's supply position: nothing is
written when there are none. -/
def FeeCredited (s : State) (id : MarketId) (shares : UInt256) (s₁ : State) : Prop :=
  (shares.toNat = 0 ∧ s₁ = s) ∨
    ∃ total : UInt256,
      total.toNat = (s.position s.feeRecipient id).supplyShares.toNat + shares.toNat ∧
      s₁ = s.putPosition { s.position s.feeRecipient id with supplyShares := total }

/-- Accruing a market reads it, accrues it to the block's time, credits the fee shares to the
fee recipient and stores the accrued market, which it returns. -/
theorem accrueMarket_inv {id : MarketId} {m' : Market} (h : accrueMarket id s = .ok (m', s')) :
    ∃ m accrual s₁, s.markets.get? id = some m ∧
      (Market.accrue s.block.timestamp).apply m = .ok (accrual, m') ∧
      FeeCredited s id accrual.feeShares s₁ ∧ s' = s₁.putMarket m' := by
  unfold accrueMarket at h
  rw [read_bind] at h
  obtain ⟨m, hget, h⟩ := lift_bind_inv h
  have hm : s.markets.get? id = some m := by
    unfold State.getMarket at hget
    split at hget
    · cases hget
    · next m₀ heq =>
      cases hget
      exact heq
  obtain ⟨⟨accrual, accrued⟩, hacc, h⟩ := lift_bind_inv h
  refine ⟨m, accrual, ?_⟩
  dsimp only at h
  split at h
  · next hfee =>
    obtain ⟨total, htotal, h⟩ := arith_bind_inv h
    rw [modify_bind, modify_bind] at h
    obtain ⟨rfl, rfl⟩ := pure_inv h
    exact ⟨_, hm, Except.mapError_eq_ok.mp hacc,
      .inr ⟨total, UInt256.checkedAdd_toNat htotal, rfl⟩, rfl⟩
  · next hfee =>
    rw [modify_bind] at h
    obtain ⟨rfl, rfl⟩ := pure_inv h
    have hzero : accrual.feeShares.toNat = 0 := by
      simpa [UInt256.isZero] using hfee
    exact ⟨s, hm, Except.mapError_eq_ok.mp hacc, .inl ⟨hzero, rfl⟩, rfl⟩

end Sim

namespace Perform

open Sim

variable {s s' : State}

/-! ## Moving tokens -/

/-- Spending an allowance either passes without writing (the core contract pulling from a
contract that approves it, or an unlimited allowance), or lowers the allowance of the named
spender on the owner's holding, or that of the owner with a vault whose asset is the token, by
exactly the amount, which it must cover. -/
theorem spendAllowance_inv {token owner spender : Address} {amount : UInt256} {u : Unit}
    (h : spendAllowance token owner spender amount s = .ok (u, s')) :
    (s' = s ∧ ((∃ named, s.registry.spenderOf spender = some named ∧
        ((spender = s.registry.morpho ∧ s.approvesMorpho owner = true) ∨
          (s.holding owner token).allowances.get named = UInt256.maxValue)) ∨
      (s.registry.spenderOf spender = none ∧ s.vaultAsset? spender = some token ∧
        (s.vaultUser spender owner).allowance = UInt256.maxValue))) ∨
    (∃ named, s.registry.spenderOf spender = some named ∧
      ¬(spender = s.registry.morpho ∧ s.approvesMorpho owner = true) ∧
      (s.holding owner token).allowances.get named ≠ UInt256.maxValue ∧
      amount.toNat ≤ ((s.holding owner token).allowances.get named).toNat ∧
      s' = s.putHolding { s.holding owner token with
        allowances := (s.holding owner token).allowances.set named
          (((s.holding owner token).allowances.get named).zeroFloorSub amount) }) ∨
    (s.registry.spenderOf spender = none ∧ s.vaultAsset? spender = some token ∧
      (s.vaultUser spender owner).allowance ≠ UInt256.maxValue ∧
      amount.toNat ≤ (s.vaultUser spender owner).allowance.toNat ∧
      s' = s.putVaultUser { s.vaultUser spender owner with
        allowance := (s.vaultUser spender owner).allowance.zeroFloorSub amount }) := by
  unfold spendAllowance at h
  rw [read_bind] at h
  cases hnamed : s.registry.spenderOf spender with
  | some named =>
    rw [hnamed] at h
    dsimp only at h
    split at h
    · next hfree =>
      obtain ⟨-, rfl⟩ := pure_inv h
      simp only [Bool.and_eq_true, beq_iff_eq] at hfree
      exact .inl ⟨rfl, .inl ⟨named, rfl, .inl hfree⟩⟩
    · next hfree =>
      split at h
      · next hmax =>
        obtain ⟨-, rfl⟩ := pure_inv h
        exact .inl ⟨rfl, .inl ⟨named, rfl, .inr (by simpa using hmax)⟩⟩
      · next hmax =>
        split at h
        · cases h
        · next hlt =>
          cases h
          exact .inr (.inl ⟨named, rfl, by simpa using hfree, by simpa using hmax,
            Nat.le_of_not_lt hlt, rfl⟩)
  | none =>
    rw [hnamed] at h
    dsimp only at h
    split at h
    · next hasset =>
      split at h
      · next hmax =>
        obtain ⟨-, rfl⟩ := pure_inv h
        exact .inl ⟨rfl, .inr ⟨rfl, by simpa using hasset, by simpa using hmax⟩⟩
      · next hmax =>
        split at h
        · cases h
        · next hlt =>
          cases h
          exact .inr (.inr ⟨rfl, by simpa using hasset, by simpa using hmax,
            Nat.le_of_not_lt hlt, rfl⟩)
    · cases h

theorem spendAllowance_tokensOnly (token owner spender : Address) (amount : UInt256) :
    Keeps TokensOnly (spendAllowance token owner spender amount) := by
  intro s u s' h
  rcases spendAllowance_inv h with ⟨rfl, -⟩ | ⟨-, -, -, -, -, rfl⟩ | ⟨-, -, -, -, rfl⟩
  · exact TokensOnly.refl _
  · exact tokensOnly_putHolding _ _
  · exact tokensOnly_putVaultUser _ _

/-- A debit takes the amount from the user's balance, which must cover it. -/
theorem debit_inv {token user : Address} {amount : UInt256} {u : Unit}
    (h : debit token user amount s = .ok (u, s')) :
    ∃ balance : UInt256, balance.toNat + amount.toNat = (s.balanceOf user token).toNat ∧
      s' = s.putHolding { s.holding user token with balance } := by
  unfold debit at h
  rw [read_bind] at h
  cases hsub : (s.holding user token).balance.checkedSub amount with
  | ok balance =>
    rw [hsub] at h
    cases h
    obtain ⟨hbal, hle⟩ := UInt256.checkedSub_toNat hsub
    exact ⟨balance, by unfold State.balanceOf; omega, rfl⟩
  | error e =>
    rw [hsub] at h
    cases h

/-- A credit adds the amount to the balance of a user who may receive the token. -/
theorem credit_inv {token user : Address} {amount : UInt256} {u : Unit}
    (h : credit token user amount s = .ok (u, s')) :
    (s.holding user token).canReceive = true ∧
    ∃ balance : UInt256, balance.toNat = (s.balanceOf user token).toNat + amount.toNat ∧
      s' = s.putHolding { s.holding user token with balance } := by
  unfold credit at h
  rw [read_bind] at h
  split at h
  · cases h
  · next hreceive =>
    obtain ⟨balance, hbal, h⟩ := arith_bind_inv h
    cases h
    exact ⟨by simpa using hreceive, balance, UInt256.checkedAdd_toNat hbal, rfl⟩

private theorem credit_side_inv {m : Movement} {s s' : State}
    (h : (if (m.destination != Address.zero) = true then credit m.token m.destination m.amount
      else pure ()) s = .ok ((), s')) :
    if m.destination ≠ .zero then credit m.token m.destination m.amount s = .ok ((), s')
    else s' = s := by
  split at h
  · next hdest => rwa [if_pos (by simpa using hdest)]
  · next hdest => rw [if_neg (by simpa using hdest)]; exact (pure_inv h).2

/-- A movement runs its source side (an allowance spent when a third party moves the tokens,
then the debit) unless it mints, then its destination side unless it burns. -/
theorem move_inv {m : Perform.Movement} {u : Unit} (h : move m s = .ok (u, s')) :
    ∃ s₁ s₂,
      (if m.source ≠ .zero ∧ m.sender ≠ m.source then
        spendAllowance m.token m.source m.sender m.amount s = .ok ((), s₁) else s₁ = s) ∧
      (if m.source ≠ .zero then debit m.token m.source m.amount s₁ = .ok ((), s₂)
        else s₂ = s₁) ∧
      (if m.destination ≠ .zero then credit m.token m.destination m.amount s₂ = .ok ((), s')
        else s' = s₂) := by
  unfold move at h
  split at h
  · next hsource =>
    have hsource : m.source ≠ .zero := by simpa using hsource
    have hdebit : ∀ {s₁}, (debit m.token m.source m.amount >>= fun _ =>
        if (m.destination != Address.zero) = true then credit m.token m.destination m.amount
        else pure ()) s₁ = .ok ((), s') →
        ∃ s₂, (if m.source ≠ .zero then debit m.token m.source m.amount s₁ = .ok ((), s₂)
          else s₂ = s₁) ∧
          (if m.destination ≠ .zero then credit m.token m.destination m.amount s₂ = .ok ((), s')
          else s' = s₂) := by
      intro s₁ h
      obtain ⟨⟨⟩, s₂, hdebit, h⟩ := bind_inv h
      exact ⟨s₂, by rwa [if_pos hsource], credit_side_inv h⟩
    dsimp only at h
    split at h
    · next hsender =>
      obtain ⟨⟨⟩, s₁, hspend, h⟩ := bind_inv h
      obtain ⟨s₂, h₂, h₃⟩ := hdebit h
      exact ⟨s₁, s₂, by rwa [if_pos ⟨hsource, by simpa using hsender⟩], h₂, h₃⟩
    · next hsender =>
      obtain ⟨s₂, h₂, h₃⟩ := hdebit h
      refine ⟨s, s₂, ?_, h₂, h₃⟩
      rw [if_neg (fun hc => hc.2 (by simpa using hsender))]
  · next hsource =>
    have hsource : m.source = .zero := by simpa using hsource
    refine ⟨s, s, by simp [hsource], by simp [hsource], credit_side_inv h⟩

theorem move_tokensOnly (m : Perform.Movement) : Keeps TokensOnly (move m) := by
  intro s u s' h
  obtain ⟨s₁, s₂, hspend, hdebit, hcredit⟩ := move_inv h
  have h₁ : TokensOnly s s₁ := by
    split at hspend
    · exact spendAllowance_tokensOnly _ _ _ _ s () s₁ hspend
    · rw [hspend]
      exact TokensOnly.refl s
  have h₂ : TokensOnly s₁ s₂ := by
    split at hdebit
    · obtain ⟨balance, -, rfl⟩ := debit_inv hdebit
      exact tokensOnly_putHolding s₁ _
    · rw [hdebit]
      exact TokensOnly.refl s₁
  have h₃ : TokensOnly s₂ s' := by
    split at hcredit
    · obtain ⟨-, balance, -, rfl⟩ := credit_inv hcredit
      exact tokensOnly_putHolding s₂ _
    · rw [hcredit]
      exact TokensOnly.refl s₂
  exact (h₁.trans h₂).trans h₃


/-! ## Checks that only read -/

/-- Whether `sender` may manage the positions of `onBehalf`: they are the same, or the sender is
the general adapter and `onBehalf` authorized it. -/
def MayManage (s : State) (sender onBehalf : Address) : Prop :=
  sender = onBehalf ∨
    (sender = s.registry.generalAdapter1 ∧ (s.user onBehalf).isBundlerAuthorized = true)

/-- Only the owner of a position, or the general adapter for a user who authorized it, may
manage it. -/
theorem checkAuthorized_inv {sender onBehalf : Address} {u : Unit}
    (h : checkAuthorized sender onBehalf s = .ok (u, s')) :
    s' = s ∧ MayManage s sender onBehalf := by
  unfold checkAuthorized at h
  split at h
  · next heq =>
    obtain ⟨-, rfl⟩ := pure_inv h
    exact ⟨rfl, .inl (by simpa using heq)⟩
  · rw [read_bind] at h
    split at h
    · next hadapter =>
      split at h
      · next hauth =>
        obtain ⟨-, rfl⟩ := pure_inv h
        exact ⟨rfl, .inr ⟨by simpa [isAdapter] using hadapter, hauth⟩⟩
      · cases h
    · cases h

theorem checkAuthorized_readOnly (sender onBehalf : Address) :
    ReadOnly (checkAuthorized sender onBehalf) :=
  fun _ _ _ h => (checkAuthorized_inv h).1

theorem resolveMax_readOnly (sender : Address) (value : Int256) (available : UInt256)
    (zero : AdapterError) : ReadOnly (resolveMax sender value available zero) := by
  intro s a s' h
  unfold resolveMax at h
  rw [read_bind] at h
  split at h
  · exact (pure_inv h).2
  · split at h
    · cases h
    · exact (pure_inv h).2

/-- A request's amount is taken as it is named, or, for the bundling adapter asking for
everything, as the amount available. -/
theorem resolveMax_inv {sender : Address} {value : Int256} {available x : UInt256}
    {zero : AdapterError} (h : resolveMax sender value available zero s = .ok (x, s')) :
    x = amountOf value ∨ x = available := by
  unfold resolveMax at h
  rw [read_bind] at h
  split at h
  · exact .inl (pure_inv h).1
  · split at h
    · cases h
    · exact .inr (pure_inv h).1

theorem checkMaxSharePrice_readOnly (assets shares reference slippage : UInt256) :
    ReadOnly (checkMaxSharePrice assets shares reference slippage) := by
  intro s u s' h
  unfold checkMaxSharePrice at h
  split at h
  · exact (pure_inv h).2
  · obtain ⟨limit, -, h⟩ := arith_bind_inv h
    obtain ⟨price, -, h⟩ := arith_bind_inv h
    split at h
    · cases h
    · exact (pure_inv h).2

theorem checkMinSharePrice_readOnly (assets shares reference slippage : UInt256) :
    ReadOnly (checkMinSharePrice assets shares reference slippage) := by
  intro s u s' h
  unfold checkMinSharePrice at h
  split at h
  · exact (pure_inv h).2
  · obtain ⟨limit, -, h⟩ := arith_bind_inv h
    obtain ⟨price, -, h⟩ := arith_bind_inv h
    split at h
    · cases h
    · exact (pure_inv h).2

theorem marketUpdate_inv {α : Type} {op : MarketOp α} {m : Market} {r : α × Market}
    (h : marketUpdate op m s = .ok (r, s')) : op.apply m = .ok r ∧ s' = s := by
  obtain ⟨hop, rfl⟩ := lift_inv h
  exact ⟨Except.mapError_eq_ok.mp hop, rfl⟩

end Perform

end LendingSim
