import Mathlib
import LendingSim.Run
import LendingSim.Proofs.Writes

/-!
# Accruing twice at one block changes nothing

Accrual brings a market, or a vault's view of its assets, up to the block's time. Once that is
done, doing it again at the same block must find nothing to add: no interest, no fee shares,
the same totals, and the state exactly as it was. This module proves it for the three accrual
actions: of a market, of a vault of the first kind and of a vault of the second kind
(`accrual_idempotent`).

For a market the argument is its clock: an accrual stamps the market with the time it accrues
to, and a market accrued at its own time is left alone. A vault accrual accrues every market of
its queues, adds up what it supplies there and its idle balance, and mints the fee on the
interest since its last total. A second pass finds each of those markets current, so each of its
accruals is a no-op; accruing one market moves no other current market and no position on one
(`CurrentKept`), so what the first pass read is still there, the sum comes out the same, and the
interest since the total just stored is zero. The fee shares minted on the first pass are
tokens at the vault's own address, so they leave its idle balance alone as long as the vault
does not hold itself as its asset.
-/

namespace LendingSim

open Sim Perform

namespace Market

/-- A market accrued to its own clock is left as it is. -/
theorem accrue_current (m : Market) : (accrue m.lastUpdate).apply m = .ok (⟨0, 0⟩, m) := by
  rw [MarketOp.apply_eq_ok]
  unfold accrue
  simp

/-- An accrual sets the market's clock to the time it accrues to. -/
theorem accrue_lastUpdate {t : Nat} {m m' : Market} {accrual : Accrual}
    (h : (accrue t).apply m = .ok (accrual, m')) : m'.lastUpdate = t := by
  rw [MarketOp.apply_eq_ok] at h
  unfold accrue at h
  simp only [MarketOp.get_bind] at h
  split at h
  · simp at h
  split at h
  · simp only [MarketOp.run_pure, Prod.mk.injEq, Except.ok.injEq] at h
    obtain ⟨-, rfl⟩ := h
    omega
  split at h
  · simp only [MarketOp.set_bind, MarketOp.run_pure, Prod.mk.injEq, Except.ok.injEq] at h
    obtain ⟨-, rfl⟩ := h
    rfl
  obtain ⟨utilization, -, h⟩ := MarketOp.arith_bind_inv h
  obtain ⟨growth, -, h⟩ := MarketOp.arith_bind_inv h
  obtain ⟨interest, -, h⟩ := MarketOp.arith_bind_inv h
  obtain ⟨tba, -, h⟩ := MarketOp.arith_bind_inv h
  simp only [MarketOp.modify_bind] at h
  obtain ⟨tsa, -, h⟩ := MarketOp.arith_bind_inv h
  simp only [MarketOp.modify_bind] at h
  split at h
  · simp only [pure_bind, MarketOp.modify_bind, MarketOp.run_pure, Prod.mk.injEq,
      Except.ok.injEq] at h
    obtain ⟨-, rfl⟩ := h
    rfl
  · obtain ⟨feeAmount, -, h⟩ := MarketOp.arith_bind_inv h
    obtain ⟨assetsBeforeFee, -, h⟩ := MarketOp.arith_bind_inv h
    obtain ⟨feeShares, -, h⟩ := MarketOp.arith_bind_inv h
    obtain ⟨tss, -, h⟩ := MarketOp.arith_bind_inv h
    simp only [MarketOp.modify_bind, pure_bind, MarketOp.run_pure, Prod.mk.injEq,
      Except.ok.injEq] at h
    obtain ⟨-, rfl⟩ := h
    rfl

end Market

namespace Sim

@[simp]
theorem lift_ok_bind {α β : Type} (a : α) (f : α → Sim β) (s : State) :
    (lift (.ok a) >>= f) s = f a s := rfl

@[simp]
theorem arith_ok_bind {α β : Type} (a : α) (f : α → Sim β) (s : State) :
    (arith (.ok a) >>= f) s = f a s := rfl

theorem bind_of_eq_ok {α β : Type} {x : Sim α} {a : α} {s s₁ : State} (hx : x s = .ok (a, s₁))
    (f : α → Sim β) : (x >>= f) s = f a s₁ := by
  rw [bind_apply, hx]

/-- A fold whose steps are arithmetic is the arithmetic of the fold. -/
theorem foldlM_arith {β γ : Type} (f : β → γ → Except ArithError β) :
    ∀ (l : List γ) (init : β),
      (l.foldlM (fun b c => arith (f b c)) init : Sim β) = arith (l.foldlM f init)
  | [], _ => rfl
  | c :: l, init => by
    rw [List.foldlM_cons, List.foldlM_cons]
    funext s
    cases f init c with
    | error e => rfl
    | ok b =>
      rw [arith_ok_bind]
      exact congrFun (foldlM_arith f l b) s

/-- A successful run of a computation whose result is dropped. -/
theorem discard_eq_ok {α : Type} {x : Sim α} {a : α} {s s' : State} (h : x s = .ok (a, s')) :
    discard x s = .ok (⟨⟩, s') := by
  show Functor.mapConst _ x s = _
  simp [Functor.mapConst, StateT.map, h]

end Sim

variable {s s' : State}

namespace State

/-- Storing again the market a well-formed state holds under its id changes nothing. -/
theorem putMarket_of_get? (hs : s.WellFormed) {m : Market} (hm : s.markets.get? m.id = some m) :
    s.putMarket m = s := by
  unfold putMarket
  rw [Book.insert_of_get? hs.markets.1 hm]

theorem putVault_of_get? (hs : s.WellFormed) {v : Vault} (hv : s.vaults.get? v.address = some v) :
    s.putVault v = s := by
  unfold putVault
  rw [Book.insert_of_get? hs.vaults.1 hv]

theorem putVaultV2_of_get? (hs : s.WellFormed) {v : VaultV2}
    (hv : s.vaultV2s.get? v.address = some v) : s.putVaultV2 v = s := by
  unfold putVaultV2
  rw [Book.insert_of_get? hs.vaultV2s.1 hv]

end State

/-! ## Markets -/

/-- Accruing a market already accrued to the block's time returns it and changes nothing. -/
theorem accrueMarket_current (hs : s.WellFormed) {id : MarketId} {m : Market}
    (hm : s.markets.get? id = some m) (hclock : m.lastUpdate = s.block.timestamp) :
    accrueMarket id s = .ok (m, s) := by
  have hread : s.getMarket id false = .ok m := by
    unfold State.getMarket
    rw [hm]
    rfl
  have hid : m.id = id := hs.market_id hm
  unfold accrueMarket
  rw [read_bind, hread, lift_ok_bind, ← hclock, Market.accrue_current]
  simp only [Except.mapError, lift_ok_bind]
  rw [if_neg (by decide), modify_bind, pure_apply, State.putMarket_of_get? hs (hid ▸ hm)]

/-- A market accrual brings the market it returns to the block's time. -/
theorem accrueMarket_lastUpdate {id : MarketId} {m : Market}
    (h : accrueMarket id s = .ok (m, s')) : m.lastUpdate = s'.block.timestamp := by
  obtain ⟨markets, positions, rfl⟩ := accrueMarket_frame h
  obtain ⟨m₀, accrual, s₁, -, hacc, -, -⟩ := accrueMarket_inv h
  exact Market.accrue_lastUpdate hacc

/-- A market accrual run again from where it ended returns the same market and changes
nothing. -/
theorem accrueMarket_again (hs : s.WellFormed) {id : MarketId} {m : Market}
    (h : accrueMarket id s = .ok (m, s')) : accrueMarket id s' = .ok (m, s') :=
  accrueMarket_current (accrueMarket_wellFormed h hs) (accrueMarket_get? h hs)
    (accrueMarket_lastUpdate h)

/-- Markets already accrued to the block's time stay as they are, with every position on them,
and the block does not move. -/
def CurrentKept (s s' : State) : Prop :=
  s'.block = s.block ∧ ∀ id m, s.markets.get? id = some m → m.lastUpdate = s.block.timestamp →
    s'.markets.get? id = some m ∧ ∀ user, s'.position user id = s.position user id

theorem CurrentKept.composes : Composes CurrentKept where
  refl _ := ⟨rfl, fun _ _ hm _ => ⟨hm, fun _ => rfl⟩⟩
  trans {s₁ s₂ s₃} h₁₂ h₂₃ := by
    refine ⟨h₂₃.1.trans h₁₂.1, fun id m hm hclock => ?_⟩
    obtain ⟨hm₂, hpos₂⟩ := h₁₂.2 id m hm hclock
    obtain ⟨hm₃, hpos₃⟩ := h₂₃.2 id m hm₂ (by rw [h₁₂.1]; exact hclock)
    exact ⟨hm₃, fun user => (hpos₃ user).trans (hpos₂ user)⟩

/-- Accruing one market leaves every other current market, and the positions on it, alone; a
current market it accrues again is left alone too. -/
theorem accrueMarket_currentKept (id : MarketId) :
    Keeps (Guarded CurrentKept) (accrueMarket id) := by
  intro s m' s' h hs
  refine ⟨accrueMarket_wellFormed h hs, ?_, fun id₀ m hm hclock => ?_⟩
  · obtain ⟨markets, positions, rfl⟩ := accrueMarket_frame h
    rfl
  by_cases hid : id₀ = id
  · subst hid
    rw [accrueMarket_current hs hm hclock] at h
    cases h
    exact ⟨hm, fun _ => rfl⟩
  · obtain ⟨m₁, accrual, s₁, hm₁, hacc, hfee, rfl⟩ := accrueMarket_inv h
    have hmid : m'.id = id :=
      (congrArg MarketParams.id (Market.accrue_inv hacc).params).trans (hs.market_id hm₁)
    rw [State.markets_putMarket, if_neg (hmid ▸ hid)]
    rcases hfee with ⟨-, rfl⟩ | ⟨total, -, rfl⟩
    · exact ⟨hm, fun _ => rfl⟩
    · refine ⟨hm, fun user => ?_⟩
      show (s.putPosition _).position user id₀ = _
      rw [State.position_putPosition, if_neg]
      intro heq
      exact hid ((Prod.mk.inj heq).2.trans (hs.position_user _ _).2)

/-! ## Vaults of the first kind -/

/-- What a vault supplies on a market is read off the position right after accruing it. -/
theorem suppliedAssets_inv {vault : Address} {id : MarketId} {rounding : Rounding} {x : UInt256}
    (h : suppliedAssets vault id rounding s = .ok (x, s')) :
    ∃ m, accrueMarket id s = .ok (m, s') ∧
      m.toSupplyAssets (s'.position vault id).supplyShares rounding = .ok x := by
  unfold suppliedAssets at h
  obtain ⟨m, s₁, hacc, h₁⟩ := bind_inv h
  rw [read_bind] at h₁
  obtain ⟨hx, rfl⟩ := arith_inv h₁
  exact ⟨m, hacc, hx⟩

/-- Adding up a vault's supply a second time, from a state with the markets, positions and block
the first pass left, finds every market current and returns the same sum, changing nothing. -/
theorem addSupplied_again {vault : Address} :
    ∀ {ids : List MarketId} {total r : UInt256} {s s' : State}, s.WellFormed →
      addSupplied vault total ids s = .ok (r, s') →
      ∀ {t : State}, t.WellFormed → t.markets = s'.markets → t.positions = s'.positions →
        t.block = s'.block → addSupplied vault total ids t = .ok (r, t)
  | [], total, r, s, s', _, h, t, _, _, _, _ => by
    obtain ⟨rfl, -⟩ := pure_inv h
    rfl
  | id :: rest, total, r, s, s', hs, h, t, ht, hmarkets, hpositions, hblock => by
    rw [addSupplied] at h ⊢
    obtain ⟨x, s₁, hsupplied, h₁⟩ := bind_inv h
    obtain ⟨total₁, hsum, h₂⟩ := arith_bind_inv h₁
    obtain ⟨m, hacc, hx⟩ := suppliedAssets_inv hsupplied
    have hs₁ := accrueMarket_wellFormed hacc hs
    have hcurrent : m.lastUpdate = s₁.block.timestamp := by
      obtain ⟨markets, positions, rfl⟩ := accrueMarket_frame hacc
      obtain ⟨m₀, accrual, -, -, hrun, -, -⟩ := accrueMarket_inv hacc
      exact Market.accrue_lastUpdate hrun
    obtain ⟨-, hblock₁, hkept⟩ := addSupplied_keeps (Guarded.composes CurrentKept.composes) vault
      accrueMarket_currentKept rest total₁ s₁ r s' h₂ hs₁
    obtain ⟨hm', hpos'⟩ := hkept id m (accrueMarket_get? hacc hs) hcurrent
    have hacc' : accrueMarket id t = .ok (m, t) :=
      accrueMarket_current ht (hmarkets ▸ hm') (by rw [hblock, hblock₁]; exact hcurrent)
    have hposition : t.position vault id = s₁.position vault id := by
      rw [← hpos' vault]
      unfold State.position
      rw [hpositions]
    have hsupplied' : suppliedAssets vault id .down t = .ok (x, t) := by
      unfold suppliedAssets
      rw [bind_of_eq_ok hacc', read_bind, hposition, hx]
      rfl
    rw [bind_of_eq_ok hsupplied', hsum, arith_ok_bind]
    exact addSupplied_again hs₁ h₂ ht hmarkets hpositions hblock

/-- Spending an allowance leaves every balance as it was. -/
theorem spendAllowance_balanceOf (hs : s.WellFormed) {token owner spender : Address}
    {amount : UInt256} (h : spendAllowance token owner spender amount s = .ok ((), s'))
    (user token' : Address) : s'.balanceOf user token' = s.balanceOf user token' := by
  rcases spendAllowance_inv h with ⟨rfl, -⟩ | ⟨named, -, -, -, -, rfl⟩ | ⟨-, -, -, -, rfl⟩
  · rfl
  · rw [State.balanceOf_putHolding]
    split
    · next heq =>
      rw [(hs.holding_user owner token).1, (hs.holding_user owner token).2] at heq
      obtain ⟨rfl, rfl⟩ := Prod.mk.inj heq
      rfl
    · rfl
  · rfl

/-- Moving tokens keeps a state well formed. -/
theorem move_wellFormed {m : Movement} (hs : s.WellFormed) (h : move m s = .ok ((), s')) :
    s'.WellFormed :=
  ((⟨⟨fun _ => trivial, fun _ _ => trivial⟩, fun _ _ => trivial⟩ :
    WriteInvariant Bounds.all (fun _ _ => True)).move_keeps m s () s' h hs).1

/-- A movement of one token leaves every balance of any other token as it was. -/
theorem move_balanceOf_of_ne {m : Movement} (hs : s.WellFormed) (h : move m s = .ok ((), s'))
    (user : Address) {token : Address} (htoken : token ≠ m.token) :
    s'.balanceOf user token = s.balanceOf user token := by
  obtain ⟨s₁, s₂, hspend, hdebit, hcredit⟩ := move_inv h
  have hother : ∀ (t : State) (holder : Address) (b : UInt256), t.WellFormed →
      (t.putHolding { t.holding holder m.token with balance := b }).balanceOf user token =
        t.balanceOf user token := by
    intro t holder b ht
    rw [State.balanceOf_putHolding, if_neg]
    intro heq
    exact htoken ((Prod.mk.inj heq).2.trans (ht.holding_user holder m.token).2)
  have h₁ : s₁.balanceOf user token = s.balanceOf user token ∧ s₁.WellFormed := by
    split at hspend
    · refine ⟨spendAllowance_balanceOf hs hspend user token, ?_⟩
      rcases spendAllowance_inv hspend with ⟨rfl, -⟩ | ⟨-, -, -, -, -, rfl⟩ | ⟨-, -, -, -, rfl⟩
      · exact hs
      · exact hs.putHolding _
      · exact hs.putVaultUser _
    · subst hspend
      exact ⟨rfl, hs⟩
  have h₂ : s₂.balanceOf user token = s₁.balanceOf user token ∧ s₂.WellFormed := by
    split at hdebit
    · obtain ⟨b, -, rfl⟩ := debit_inv hdebit
      exact ⟨hother s₁ _ b h₁.2, h₁.2.putHolding _⟩
    · subst hdebit
      exact ⟨rfl, h₁.2⟩
  have h₃ : s'.balanceOf user token = s₂.balanceOf user token := by
    split at hcredit
    · obtain ⟨-, b, -, rfl⟩ := credit_inv hcredit
      exact hother s₂ _ b h₂.2
    · rw [hcredit]
  rw [h₃, h₂.1, h₁.1]

/-- Minting the performance fee touches holdings alone, and no balance of the vault's asset
when the asset is not the vault's own share token. -/
theorem feeMinted_frame {address : Address} {vault : Vault} {s₁ s₂ : State} {totalSupply : UInt256}
    (h : FeeMinted address vault s₁ s₂ totalSupply) (hs₁ : s₁.WellFormed)
    (hasset : vault.asset ≠ address) :
    s₂.WellFormed ∧ TokensOnly s₁ s₂ ∧
      s₂.balanceOf address vault.asset = s₁.balanceOf address vault.asset := by
  rcases h with ⟨rfl, -⟩ | ⟨feeShares, hmint, -⟩
  · exact ⟨hs₁, TokensOnly.refl _, rfl⟩
  · exact ⟨move_wellFormed hs₁ hmint, move_tokensOnly _ s₁ () s₂ hmint,
      move_balanceOf_of_ne hs₁ hmint address hasset⟩

/-- Adding up a vault's supply accrues markets, and touches nothing but markets and positions. -/
theorem addSupplied_frame {vault : Address} {ids : List MarketId} {total r : UInt256}
    (hs : s.WellFormed) (h : addSupplied vault total ids s = .ok (r, s')) :
    s'.WellFormed ∧ ∃ markets positions, s' = { s with markets, positions } :=
  addSupplied_keeps (Guarded.composes ⟨fun s => ⟨s.markets, s.positions, rfl⟩,
    fun ⟨_, _, h₁⟩ ⟨m₂, p₂, h₂⟩ => ⟨m₂, p₂, h₂.trans (h₁ ▸ rfl)⟩⟩) vault
    (fun _ _ _ _ hacc hs => ⟨accrueMarket_wellFormed hacc hs, accrueMarket_frame hacc⟩)
    ids total s r s' h hs

/-- A vault accrual run again from where it ended finds the same total assets, no interest and
no fee, and changes nothing, as long as the vault's asset is not its own share token. -/
theorem accrueVault_again (hs : s.WellFormed) {address : Address} {v : Vault}
    (hasset : ∀ vault, s.vaults.get? address = some vault → vault.asset ≠ address)
    (h : accrueVault address s = .ok (v, s')) : accrueVault address s' = .ok (v, s') := by
  obtain ⟨vault, totalAssets, totalSupply, s₁, s₂, hvault, hadd, hfee, rfl, rfl⟩ :=
    accrueVault_inv h
  have haddress : vault.address = address := hs.vault_address hvault
  obtain ⟨hs₁, markets₁, positions₁, hframe₁⟩ := addSupplied_frame hs hadd
  obtain ⟨hs₂, ⟨holdings₂, vaultUsers₂, hframe₂⟩, hidle⟩ :=
    feeMinted_frame hfee hs₁ (hasset vault hvault)
  have hidle₁ : s₁.balanceOf address vault.asset = s.balanceOf address vault.asset := by
    rw [hframe₁]
    rfl
  set v : Vault := { vault with totalSupply, totalAssets, lastTotalAssets := totalAssets }
  have hstored : (s₂.putVault v).vaults.get? address = some v := by
    rw [State.vaults_putVault, if_pos haddress.symm]
  have hread : (s₂.putVault v).vault address = .ok v := by
    unfold State.vault
    rw [hstored]
  have hagain : addSupplied address (s.balanceOf address vault.asset) (accrualMarkets vault)
      (s₂.putVault v) = .ok (totalAssets, s₂.putVault v) :=
    addSupplied_again hs hadd (hs₂.putVault v) (by rw [hframe₂]; rfl) (by rw [hframe₂]; rfl)
      (by rw [hframe₂]; rfl)
  have hidle' : (s₂.putVault v).balanceOf address v.asset = s.balanceOf address vault.asset :=
    hidle.trans hidle₁
  unfold accrueVault
  rw [read_bind, hread, lift_ok_bind, read_bind, hidle',
    show accrualMarkets v = accrualMarkets vault from rfl, bind_of_eq_ok hagain]
  have hnone : (totalAssets.zeroFloorSub v.lastTotalAssets).isZero = true := by
    simp [UInt256.isZero, UInt256.zeroFloorSub, v]
  rw [if_neg (by simp [hnone]), pure_bind]
  dsimp only
  rw [modify_bind, pure_apply]
  rw [show ({ v with totalSupply := v.totalSupply, totalAssets, lastTotalAssets := totalAssets } :
    Vault) = v from rfl, State.putVault_of_get? (hs₂.putVault v) (haddress ▸ hstored)]

/-! ## Vaults of the second kind -/

/-- A second-kind vault accrual run again from where it ended reads the same adapters and idle
balance, so it stores the vault it already stored. -/
theorem accrueVaultV2_again (hs : s.WellFormed) {address : Address} {v : VaultV2}
    (h : accrueVaultV2 address s = .ok (v, s')) : accrueVaultV2 address s' = .ok (v, s') := by
  unfold accrueVaultV2 at h ⊢
  simp only [foldlM_arith] at h ⊢
  rw [read_bind] at h
  obtain ⟨vault, hvault, h₁⟩ := lift_bind_inv h
  obtain ⟨total, htotal, h₂⟩ := arith_bind_inv h₁
  rw [modify_bind] at h₂
  obtain ⟨rfl, rfl⟩ := pure_inv h₂
  have haddress : vault.address = address := hs.vaultV2_address (State.vaultV2_eq_ok hvault)
  set v : VaultV2 := { vault with totalAssets := total, lastUpdate := s.block.timestamp }
  have hstored : (s.putVaultV2 v).vaultV2s.get? address = some v := by
    rw [State.vaultV2s_putVaultV2, if_pos haddress.symm]
  have hread : (s.putVaultV2 v).vaultV2 address = .ok v := by
    unfold State.vaultV2
    rw [hstored]
  have hsame : List.foldlM (fun b c => b.checkedAdd c.realAssets)
      ((s.putVaultV2 v).balanceOf address v.asset)
      ((s.putVaultV2 v).vaultV2Adapters.values.filter (·.parentVault == address)) = .ok total :=
    htotal
  rw [read_bind, hread, lift_ok_bind, hsame, arith_ok_bind, modify_bind, pure_apply]
  rw [show ({ v with totalAssets := total, lastUpdate := (s.putVaultV2 v).block.timestamp } :
    VaultV2) = v from rfl, State.putVaultV2_of_get? (hs.putVaultV2 v) (haddress ▸ hstored)]

/-! ## The accrual actions -/

theorem Action.run_eq_ok_iff {index : Nat} {sender target : Address} {op : Operation} :
    (Action.mk sender target op).run index s = .ok s' ↔
      op.perform sender target op.nested s = .ok ((), s') := by
  rw [Action.run]
  cases op.perform sender target op.nested s with
  | ok r =>
    obtain ⟨⟨⟩, after⟩ := r
    simp
  | error f => simp

/-- An operation that has nothing to validate and runs a handler for its effect alone succeeds
exactly when the handler does. -/
theorem Action.run_discard_iff {α : Type} {index : Nat} {sender target : Address}
    {op : Operation} {x : Sim α} (hperform : ∀ callback, op.perform sender target callback = discard x) :
    (Action.mk sender target op).run index s = .ok s' ↔ ∃ a, x s = .ok (a, s') := by
  rw [Action.run_eq_ok_iff, hperform]
  exact ⟨discard_inv, fun ⟨_, h⟩ => discard_eq_ok h⟩

/-- An accrual handler that, run again from where it ended, ends there again, makes its action
idempotent. -/
theorem Action.run_again {α : Type} {index : Nat} {sender target : Address} {op : Operation}
    {x : Sim α} (hperform : ∀ callback, op.perform sender target callback = discard x)
    (hagain : ∀ {a}, x s = .ok (a, s') → x s' = .ok (a, s'))
    (h : (Action.mk sender target op).run index s = .ok s') :
    (Action.mk sender target op).run index s' = .ok s' := by
  obtain ⟨a, ha⟩ := (Action.run_discard_iff hperform).mp h
  exact (Action.run_discard_iff hperform).mpr ⟨a, hagain ha⟩

/-- Every accrual action is idempotent at a fixed block: from a well-formed state, accruing a
market, a vault whose asset is not its own share token, or a second-kind vault, and then running
the same action again from the state it produced, succeeds and produces that state again. -/
theorem accrual_idempotent {s : State} (hs : s.WellFormed) (sender : Address) :
    (∀ target id t, simulateAction s (.mk sender target (.accrueInterest id)) = .ok t →
      simulateAction t (.mk sender target (.accrueInterest id)) = .ok t) ∧
    (∀ v, (∀ vault, s.vaults.get? v = some vault → vault.asset ≠ v) → ∀ t,
      simulateAction s (.mk sender v .vaultAccrueInterest) = .ok t →
      simulateAction t (.mk sender v .vaultAccrueInterest) = .ok t) ∧
    (∀ w t, simulateAction s (.mk sender w .vaultV2AccrueInterest) = .ok t →
      simulateAction t (.mk sender w .vaultV2AccrueInterest) = .ok t) :=
  ⟨fun _ _ _ => Action.run_again (fun _ => rfl) (accrueMarket_again hs),
    fun _ hasset _ => Action.run_again (fun _ => rfl) (accrueVault_again hs hasset),
    fun _ _ => Action.run_again (fun _ => rfl) (accrueVaultV2_again hs)⟩

namespace AccrualRun

def asset : Address := ⟨0x220, by decide⟩

def vault : Address := ⟨0x221, by decide⟩

def vaultV2 : Address := ⟨0x222, by decide⟩

def adapter : Address := ⟨0x223, by decide⟩

def caller : Address := ⟨0x224, by decide⟩

def registry : Registry :=
  ⟨⟨0x225, by decide⟩, ⟨0x226, by decide⟩, ⟨0x227, by decide⟩, ⟨0x228, by decide⟩,
    ⟨0x229, by decide⟩, none⟩

/-- A market half borrowed, with a rate model, a fee of a tenth and a year of interest not yet
accrued. -/
def market : Market :=
  { Market.new ⟨asset, ⟨0x22a, by decide⟩, ⟨0x22b, by decide⟩, ⟨0x22c, by decide⟩, 0⟩
      1668464000 with
    totalSupplyAssets := 1000000, totalSupplyShares := 1000000000000,
    totalBorrowAssets := 500000, totalBorrowShares := 500000000000,
    fee := 100000000000000000, rateAtTarget := some 1268391679 }

/-- The vault supplies the whole market and charges a fifth of its interest; the second-kind
vault records fifty while its adapter holds sixty. -/
def state : State :=
  ((((((State.new .ethereum ⟨18580000, 1700000000⟩ registry).putMarket market).putVault
    { Vault.new vault asset 0 with
        fee := 200000000000000000, feeRecipient := ⟨0x22d, by decide⟩,
        supplyQueue := [market.id], withdrawQueue := [market.id], totalSupply := 1000000,
        totalAssets := 1000000, lastTotalAssets := 1000000 }).putPosition
    { Position.empty vault market.id with supplyShares := 1000000000000 }).putVaultV2
    { VaultV2.new vaultV2 asset 0 1699999900 with
        totalSupply := 50, totalAssets := 50, liquidityAdapter := some adapter }).putVaultV2Adapter
    { VaultV2Adapter.new adapter vaultV2 with realAssets := 60 }).putHolding
    { Holding.empty registry.morpho asset with balance := 500000 }

def accrueMarketAction : Action := .mk caller registry.morpho (.accrueInterest market.id)

def accrueVaultAction : Action := .mk caller vault .vaultAccrueInterest

def accrueVaultV2Action : Action := .mk caller vaultV2 .vaultV2AccrueInterest

theorem state_wellFormed : state.WellFormed :=
  ((((((State.new_wellFormed _ _ _).putMarket _).putVault _).putPosition _).putVaultV2 _)
    |>.putVaultV2Adapter _).putHolding _

theorem state_vault_asset : ∀ v, state.vaults.get? vault = some v → v.asset ≠ vault := by
  intro v hv
  change (Book.empty.insert vault _).get? vault = some v at hv
  rw [Book.get?_insert_self] at hv
  cases hv
  decide

end AccrualRun

open AccrualRun in
/-- A year of a market's interest, the vault fee on it, and a second-kind vault behind its
adapter are each brought in by the first accrual, which the second then leaves as it is. -/
theorem accrual_idempotent_sample :
    state.WellFormed ∧ (∀ v, state.vaults.get? vault = some v → v.asset ≠ vault) ∧
      (∃ t, simulateAction state accrueMarketAction = .ok t ∧ t ≠ state ∧
        simulateAction t accrueMarketAction = .ok t) ∧
      (∃ t, simulateAction state accrueVaultAction = .ok t ∧ t ≠ state ∧
        simulateAction t accrueVaultAction = .ok t) ∧
      (∃ t, simulateAction state accrueVaultV2Action = .ok t ∧ t ≠ state ∧
        simulateAction t accrueVaultV2Action = .ok t) := by
  obtain ⟨hmarket, hvault, hvaultV2⟩ := accrual_idempotent state_wellFormed caller
  obtain ⟨t₁, h₁, hne₁⟩ := Except.exists_eq_ok_of_check
    (x := simulateAction state accrueMarketAction) (fun t => decide (t ≠ state)) (by decide +kernel)
  obtain ⟨t₂, h₂, hne₂⟩ := Except.exists_eq_ok_of_check
    (x := simulateAction state accrueVaultAction) (fun t => decide (t ≠ state)) (by decide +kernel)
  obtain ⟨t₃, h₃, hne₃⟩ := Except.exists_eq_ok_of_check
    (x := simulateAction state accrueVaultV2Action) (fun t => decide (t ≠ state)) (by decide +kernel)
  exact ⟨state_wellFormed, state_vault_asset,
    ⟨t₁, h₁, of_decide_eq_true hne₁, hmarket _ _ _ h₁⟩,
    ⟨t₂, h₂, of_decide_eq_true hne₂, hvault _ state_vault_asset _ h₂⟩,
    ⟨t₃, h₃, of_decide_eq_true hne₃, hvaultV2 _ _ h₃⟩⟩

end LendingSim
