import Mathlib
import LendingSim.Proofs.FlowCaps

/-!
# What a public reallocation moves

The public allocator charges flow caps for amounts, and then has the vault's supply moved by a
nested reallocation that works from targets: each withdrawal market is taken to the vault's
supply there less the amount, and the destination is given everything withdrawn. This module
shows that the two agree: the supply of each withdrawal market falls by exactly its amount and
that of the destination rises by exactly the total.

The charge reads the vault's supply on each withdrawal market right after accruing it, and
stores the target; the reallocation reads it again. In between only other markets are touched,
since the withdrawals come in strictly increasing order of market id and none is the destination,
and accruing a market already accrued to the block's time changes nothing. So the reallocation
finds its supply above the target by exactly the amount and withdraws that (all its shares when
the target is zero, which are worth exactly the amount). The destination comes last, with the
largest target: nothing is withdrawn from it, or the totals could not balance, and it is
supplied the difference of the totals, which the final check makes exactly the total withdrawn.
-/

namespace LendingSim

open Sim Perform

variable {s s' : State}

/-! ## Words and flows -/

/-- Reading a word's bits as a signed amount and back gives the word. -/
theorem Int256.toBits_ofBits (w : UInt256) : (Int256.ofBits w).toBits = w := by
  apply UInt256.ext
  unfold Int256.toBits Int256.ofBits Int256.wrap
  simp only [Int.ofNat_eq_natCast]
  rw [show ∀ a b : Int, a.emod b = a % b from fun _ _ => rfl, Int.bmod_emod,
    Int.emod_eq_of_lt (by omega) (by exact_mod_cast w.isLt), Int.toNat_natCast]
  exact UInt256.toNat_ofNat_of_lt w.isLt

@[simp]
theorem amountOf_ofBits (w : UInt256) : amountOf (Int256.ofBits w) = w :=
  Int256.toBits_ofBits w

namespace Market

/-- A flow asked for in assets alone moves exactly those assets. -/
theorem resolve_of_assets {assets shares : UInt256}
    {toShares toAssets : UInt256 → Except ArithError UInt256} {flow : Flow}
    (hassets : assets.toNat ≠ 0) (h : resolve assets shares toShares toAssets = .ok flow) :
    flow.assets = assets := by
  unfold resolve at h
  split at h
  · cases hs : toShares assets with
    | error e =>
      rw [hs] at h
      cases h
    | ok v =>
      rw [hs] at h
      cases h
      rfl
  · next hzero _ =>
    simp [UInt256.isZero] at hzero
    exact absurd hzero hassets
  · cases h

/-- A flow asked for in shares alone moves what the shares are worth. -/
theorem resolve_of_shares {assets shares : UInt256}
    {toShares toAssets : UInt256 → Except ArithError UInt256} {flow : Flow}
    (hassets : assets.toNat = 0) (h : resolve assets shares toShares toAssets = .ok flow) :
    toAssets shares = .ok flow.assets := by
  unfold resolve at h
  split at h
  · next hzero _ =>
    simp [UInt256.isZero] at hzero
    exact absurd hassets hzero
  · cases ha : toAssets shares with
    | error e =>
      rw [ha] at h
      cases h
    | ok v =>
      rw [ha] at h
      cases h
      rfl
  · cases h

/-- A withdrawal's flow is the request resolved against the market, shares rounded up and
assets down. -/
theorem withdraw_resolve {assets shares : UInt256} {m m' : Market} {flow : Flow}
    (h : (withdraw assets shares).apply m = .ok (flow, m')) :
    resolve assets shares (m.toSupplyShares · .up) (m.toSupplyAssets · .down) = .ok flow := by
  rw [MarketOp.apply_eq_ok] at h
  unfold withdraw at h
  rw [MarketOp.get_bind] at h
  obtain ⟨flow', hflow, h⟩ := MarketOp.lift_bind_inv h
  obtain ⟨tss, -, h⟩ := MarketOp.lift_bind_inv h
  simp only [MarketOp.modify_bind] at h
  obtain ⟨tsa, -, h⟩ := MarketOp.lift_bind_inv h
  simp only [MarketOp.modify_bind, MarketOp.run_pure, Prod.mk.injEq, Except.ok.injEq] at h
  obtain ⟨rfl, -⟩ := h
  exact hflow

end Market

/-! ## One market left alone -/

/-- Market `id`, every position on it and the block are as they were. -/
structure MarketKept (id : MarketId) (s s' : State) : Prop where
  block : s'.block = s.block
  market : s'.markets.get? id = s.markets.get? id
  position : ∀ user, s'.position user id = s.position user id

namespace MarketKept

theorem composes (id : MarketId) : Composes (MarketKept id) where
  refl _ := ⟨rfl, rfl, fun _ => rfl⟩
  trans h₁₂ h₂₃ := ⟨h₂₃.block.trans h₁₂.block, h₂₃.market.trans h₁₂.market,
    fun user => (h₂₃.position user).trans (h₁₂.position user)⟩

theorem of_tokensOnly {id : MarketId} (h : TokensOnly s s') : MarketKept id s s' := by
  obtain ⟨_, _, rfl⟩ := h
  exact ⟨rfl, rfl, fun _ => rfl⟩

end MarketKept

/-- Accruing one market leaves every other market, and the positions on it, alone. -/
theorem accrueMarket_marketKept (hs : s.WellFormed) {id id' : MarketId} {m : Market}
    (h : accrueMarket id' s = .ok (m, s')) (hne : id ≠ id') : MarketKept id s s' := by
  obtain ⟨m₁, accrual, s₁, hm₁, hacc, hfee, rfl⟩ := accrueMarket_inv h
  have hmid : m.id = id' :=
    (congrArg MarketParams.id (Market.accrue_inv hacc).params).trans (hs.market_id hm₁)
  have hpos : ∀ user, s₁.position user id = s.position user id := by
    rcases hfee with ⟨-, rfl⟩ | ⟨total, -, rfl⟩
    · exact fun _ => rfl
    · intro user
      rw [State.position_putPosition, if_neg]
      intro heq
      exact hne ((Prod.mk.inj heq).2.trans (hs.position_user _ _).2)
  have hmarkets : s₁.markets = s.markets := by
    rcases hfee with ⟨-, rfl⟩ | ⟨total, -, rfl⟩ <;> rfl
  refine ⟨?_, ?_, fun user => hpos user⟩
  · rcases hfee with ⟨-, rfl⟩ | ⟨total, -, rfl⟩ <;> rfl
  · rw [State.markets_putMarket, if_neg (hmid ▸ hne), hmarkets]

/-! ## The charge leaves each withdrawal ready -/

/-- The market of withdrawal `w` was accrued from its state in `s` to the block's time, and `s'`
holds the accrued market. -/
def AccruedAt (s s' : State) (id : MarketId) : Prop :=
  ∃ m accrual acc, s.markets.get? id = some m ∧
    (Market.accrue s.block.timestamp).apply m = .ok (accrual, acc) ∧ s'.markets.get? id = some acc

/-- The allocation `a` takes out withdrawal `w` at `σ`: same market, accrued to the block's time,
where the vault supplies exactly the withdrawal's amount, which is not zero, above the
allocation's target. -/
def Ready (vault : Address) (σ : State) (w a : Allocation) : Prop :=
  a.id = w.id ∧ w.amount ≠ 0 ∧ ∃ m supplied, σ.markets.get? w.id = some m ∧
    m.lastUpdate = σ.block.timestamp ∧
    m.toSupplyAssets (σ.position vault w.id).supplyShares .down = .ok supplied ∧
    (amountOf a.assets).toNat + w.amount = supplied.toNat

theorem AccruedAt.trans_kept {s₁ : State} {id : MarketId} (h : AccruedAt s s₁ id)
    (hkept : MarketKept id s₁ s') : AccruedAt s s' id := by
  obtain ⟨m, accrual, acc, hm, hacc, hacc'⟩ := h
  exact ⟨m, accrual, acc, hm, hacc, hkept.market.trans hacc'⟩

theorem AccruedAt.kept_trans {s₁ : State} {id : MarketId} (hkept : MarketKept id s s₁)
    (h : AccruedAt s₁ s' id) : AccruedAt s s' id := by
  obtain ⟨m, accrual, acc, hm, hacc, hacc'⟩ := h
  exact ⟨m, accrual, acc, hkept.market ▸ hm, hkept.block ▸ hacc, hacc'⟩

theorem Ready.of_kept {vault : Address} {w a : Allocation} (h : Ready vault s w a)
    (hkept : MarketKept w.id s s') : Ready vault s' w a := by
  obtain ⟨hid, hpos, m, supplied, hm, hclock, hsupplied, hamount⟩ := h
  refine ⟨hid, hpos, m, supplied, hkept.market.trans hm, hkept.block ▸ hclock, ?_, hamount⟩
  rw [hkept.position]
  exact hsupplied

/-- After the charge, every withdrawal is ready to be taken out by the allocation the charge
listed for it, and its market is the one accrued from the start; every market that is not
withdrawn from is left alone. -/
theorem chargeWithdrawals_ready {vault : Address} {supplyId : MarketId} :
    ∀ {withdrawals : List Allocation} {previous : Option MarketId} {total total' : UInt256}
      {allocations : List Allocation} {s s' : State}, s.WellFormed →
      chargeWithdrawals vault supplyId previous withdrawals total s =
        .ok ((allocations, total'), s') →
      List.Forall₂ (Ready vault s') withdrawals allocations ∧
        (∀ w ∈ withdrawals, AccruedAt s s' w.id) ∧
        ∀ id, id ∉ withdrawals.map Allocation.id → MarketKept id s s'
  | [], previous, total, total', allocations, s, s', hs, h => by
    rw [chargeWithdrawals] at h
    obtain ⟨hres, rfl⟩ := pure_inv h
    cases hres
    exact ⟨List.Forall₂.nil, by simp, fun id _ => (MarketKept.composes id).refl _⟩
  | w :: rest, previous, total, total', allocations, s, s', hs, h => by
    obtain ⟨-, config, maxIn, maxOut, s₁, supplied, target, total₁, allocations', -, -, hpos, -,
      -, -, hsupplied, htarget, -, hrest, rfl⟩ := chargeWithdrawals_cons_inv h
    set s₀ := s.putVaultMarketConfig { config with flowCaps := some ⟨maxIn, maxOut⟩ }
    have hs₀ : s₀.WellFormed := hs.putVaultMarketConfig _
    have hconfig : ∀ id, MarketKept id s s₀ := fun _ => ⟨rfl, rfl, fun _ => rfl⟩
    obtain ⟨m, hacc, hvalue⟩ := suppliedAssets_inv hsupplied
    have hs₁ : s₁.WellFormed := accrueMarket_wellFormed hacc hs₀
    obtain ⟨ready, accrued, kept⟩ := chargeWithdrawals_ready hs₁ hrest
    obtain ⟨-, -, -, hchecks, -⟩ := chargeWithdrawals_charged hs₁ hrest
    have hnotin : w.id ∉ rest.map Allocation.id := by
      intro hmem
      obtain ⟨w', hw', heq⟩ := List.mem_map.mp hmem
      have := (hchecks w' hw').2.2 w.id rfl
      rw [heq] at this
      exact lt_irrefl _ this
    have hkept₁ := kept w.id hnotin
    obtain ⟨m₀, accrual, s₂, hm₀, haccrue, hfee, hs₁eq⟩ := accrueMarket_inv hacc
    have hblock₁ : s₁.block = s.block := by
      obtain ⟨_, _, heq⟩ := accrueMarket_frame hacc
      rw [heq]
      rfl
    have hready₁ : Ready vault s₁ w ⟨w.id, Int256.ofBits target⟩ := by
      obtain ⟨hsub, hle⟩ := UInt256.checkedSub_toNat htarget
      refine ⟨rfl, hpos, m, supplied, accrueMarket_get? hacc hs₀, ?_, hvalue, ?_⟩
      · rw [Market.accrue_lastUpdate haccrue, hblock₁]
        rfl
      · simp only [amountOf_ofBits, Allocation.amount]
        omega
    have haccrued₁ : AccruedAt s s₁ w.id :=
      ⟨m₀, accrual, m, hm₀, haccrue, accrueMarket_get? hacc hs₀⟩
    refine ⟨List.Forall₂.cons (hready₁.of_kept hkept₁) ready, ?_, ?_⟩
    · intro w' hw'
      rcases List.mem_cons.mp hw' with rfl | hw'
      · exact haccrued₁.trans_kept hkept₁
      · have hne : w'.id ≠ w.id := fun heq =>
          hnotin (heq ▸ List.mem_map_of_mem hw')
        exact AccruedAt.kept_trans ((MarketKept.composes _).trans (hconfig w'.id)
          (accrueMarket_marketKept hs₀ hacc hne)) (accrued w' hw')
    · intro id hid
      simp only [List.map_cons, List.mem_cons, not_or] at hid
      exact (MarketKept.composes id).trans ((MarketKept.composes id).trans (hconfig id)
        (accrueMarket_marketKept hs₀ hacc hid.1)) (kept id hid.2)

/-! ## The vault's own supply and withdrawals on an accrued market -/

/-- A market operation committed with the position it is for, then tokens moved: the committed
market is in place, and every other market and the positions on it are left alone. -/
theorem commit_move (hs : s.WellFormed) {p : Position} {m' : Market} {mv : Movement}
    (hmove : move mv ((s.putPosition p).putMarket m') = .ok ((), s')) {user : Address}
    {id : MarketId} (hp : (p.user, p.marketId) = (user, id)) (hm' : m'.id = id) :
    s'.WellFormed ∧ s'.markets.get? id = some m' ∧ ∀ id', id' ≠ id → MarketKept id' s s' := by
  have hkept : MarketKept id _ s' := MarketKept.of_tokensOnly (move_tokensOnly _ _ () s' hmove)
  refine ⟨move_wellFormed ((hs.putPosition p).putMarket m') hmove, ?_, fun id' hne => ?_⟩
  · rw [hkept.market, State.markets_putMarket, if_pos hm'.symm]
  · have hcommit : MarketKept id' s ((s.putPosition p).putMarket m') := by
      refine ⟨rfl, ?_, fun u => ?_⟩
      · rw [State.markets_putMarket, if_neg (hm' ▸ hne)]
        rfl
      · show (s.putPosition p).position u id' = _
        rw [State.position_putPosition, if_neg]
        intro heq
        exact hne ((Prod.mk.inj heq).2.trans (Prod.mk.inj hp).2)
    exact (MarketKept.composes id').trans hcommit
      (MarketKept.of_tokensOnly (move_tokensOnly _ _ () s' hmove))

/-- Withdrawing, with nothing run in between, from a market already accrued to the block's
time: the flow resolves the request against that market, with the shares as named or all of the
position's, and the market loses exactly the flow's assets. -/
theorem withdraw_current {σ σ' : State} (hσ : σ.WellFormed) {sender : Address}
    {request : MarketRequest} {flow : Flow} (h : withdraw sender request (pure ()) σ = .ok (flow, σ'))
    {m : Market} (hm : σ.markets.get? request.id = some m)
    (hclock : m.lastUpdate = σ.block.timestamp) :
    σ'.WellFormed ∧
      (∃ shares, (shares = amountOf request.shares ∨
          shares = (σ.position request.onBehalf request.id).supplyShares) ∧
        Market.resolve (amountOf request.assets) shares (m.toSupplyShares · .up)
          (m.toSupplyAssets · .down) = .ok flow) ∧
      (∃ tsa tss, σ'.markets.get? request.id =
          some { m with totalSupplyAssets := tsa, totalSupplyShares := tss } ∧
        tsa.toNat + flow.assets.toNat = m.totalSupplyAssets.toNat) ∧
      ∀ id, id ≠ request.id → MarketKept id σ σ' := by
  obtain ⟨-, market, market', s₁, s₂, shares, supplyShares, hacc, hop, hshares, -, -, hcb,
    hmove⟩ := withdraw_inv h
  rw [accrueMarket_current hσ hm hclock] at hacc
  cases hacc
  obtain ⟨-, rfl⟩ := pure_inv hcb
  obtain ⟨tsa, tss, rfl, htsa, hle, -⟩ := Market.withdraw_inv hop
  obtain ⟨huser, hid⟩ := hσ.position_user request.onBehalf request.id
  have hmid : m.id = request.id := hσ.market_id hm
  obtain ⟨hσ', hmarket, hkept⟩ := commit_move hσ hmove (Prod.ext huser hid) hmid
  exact ⟨hσ', ⟨shares, hshares, Market.withdraw_resolve hop⟩, ⟨tsa, tss, hmarket, by omega⟩,
    hkept⟩

/-- Supplying, with nothing run in between, to a market already accrued to the block's time:
the market gains exactly the flow's assets. -/
theorem supply_current {σ σ' : State} (hσ : σ.WellFormed) {sender : Address}
    {request : MarketRequest} {flow : Flow} (h : supply sender request (pure ()) σ = .ok (flow, σ'))
    {m : Market} (hm : σ.markets.get? request.id = some m)
    (hclock : m.lastUpdate = σ.block.timestamp) :
    σ'.WellFormed ∧
      (∃ tsa tss, σ'.markets.get? request.id =
          some { m with totalSupplyAssets := tsa, totalSupplyShares := tss } ∧
        tsa.toNat = m.totalSupplyAssets.toNat + flow.assets.toNat) ∧
      ∀ id, id ≠ request.id → MarketKept id σ σ' := by
  obtain ⟨market, market', s₁, s₂, assets, supplyShares, hacc, hop, -, hcb, hmove⟩ :=
    supply_inv h
  rw [accrueMarket_current hσ hm hclock] at hacc
  cases hacc
  obtain ⟨-, rfl⟩ := pure_inv hcb
  obtain ⟨tsa, tss, rfl, htsa, -⟩ := Market.supply_inv hop
  obtain ⟨huser, hid⟩ := hσ.position_user request.onBehalf request.id
  have hmid : m.id = request.id := hσ.market_id hm
  obtain ⟨hσ', hmarket, hkept⟩ := commit_move hσ hmove (Prod.ext huser hid) hmid
  exact ⟨hσ', ⟨tsa, tss, hmarket, htsa⟩, hkept⟩

/-! ## The nested reallocation -/

/-- What a withdrawal takes out of its market: the market as it was, less exactly `amount` of
supply. -/
def Taken (σ σ' : State) (id : MarketId) (amount : Nat) : Prop :=
  ∃ m tsa tss, σ.markets.get? id = some m ∧
    σ'.markets.get? id = some { m with totalSupplyAssets := tsa, totalSupplyShares := tss } ∧
    tsa.toNat + amount = m.totalSupplyAssets.toNat

/-- A ready withdrawal market is taken down by exactly its amount: the reallocation finds the
vault's supply there as the charge left it, above the target by the amount, and withdraws the
amount, or all the vault's shares for a zero target, which are worth exactly the amount. -/
theorem reallocateEach_ready_inv {vault : Address} {σ σ' : State} (hσ : σ.WellFormed)
    {w a : Allocation} (hready : Ready vault σ w a) {rest : List Allocation}
    {totals r : Reallocation} (h : reallocateEach vault (a :: rest) totals σ = .ok (r, σ')) :
    ∃ σ₁ withdrawn, withdrawn.toNat = totals.withdrawn.toNat + w.amount ∧
      reallocateEach vault rest { totals with withdrawn } σ₁ = .ok (r, σ') ∧
      σ₁.WellFormed ∧ Taken σ σ₁ w.id w.amount ∧ ∀ id, id ≠ w.id → MarketKept id σ σ₁ := by
  obtain ⟨hid, hpos, m, supplied, hm, hclock, hsupplied, hamount⟩ := hready
  rw [reallocateEach, read_bind] at h
  obtain ⟨config, -, h₁⟩ := (readOnly_lift _).bind_inv h
  obtain ⟨-, h₂⟩ := guard_inv h₁
  obtain ⟨supplied', σ₀, hread, h₃⟩ := bind_inv h₂
  obtain ⟨m', hacc, hvalue⟩ := suppliedAssets_inv hread
  rw [hid, accrueMarket_current hσ hm hclock] at hacc
  cases hacc
  rw [hid, hsupplied] at hvalue
  cases hvalue
  dsimp only at h₃
  have hwithdrawn : (supplied.zeroFloorSub (amountOf a.assets)).toNat = w.amount := by
    rw [UInt256.toNat_zeroFloorSub]
    omega
  split at h₃
  · rw [read_bind] at h₃
    obtain ⟨flow, σ₁, hw, h₄⟩ := bind_inv h₃
    obtain ⟨withdrawnTotal, htotal, h₅⟩ := arith_bind_inv h₄
    have hm' : σ.markets.get? a.id = some m := hid ▸ hm
    have hflow : flow.assets.toNat = w.amount ∧ σ₁.WellFormed ∧ Taken σ σ₁ w.id w.amount ∧
        ∀ id, id ≠ w.id → MarketKept id σ σ₁ := by
      split at hw
      · next htarget =>
        obtain ⟨hσ₁, ⟨shares, hshares, hresolve⟩, ⟨tsa, tss, hmarket, htsa⟩, hkept⟩ :=
          withdraw_current hσ hw hm' hclock
        have hall : shares = (σ.position vault w.id).supplyShares := by
          rcases hshares with rfl | rfl
          · simp [vaultRequest, hid]
          · simp [vaultRequest, hid]
        have hzero : (amountOf a.assets).toNat = 0 := by simpa [UInt256.isZero] using htarget
        rw [hall] at hresolve
        have hvalue := Market.resolve_of_shares (by simp [vaultRequest]) hresolve
        rw [hsupplied] at hvalue
        cases hvalue
        refine ⟨by omega, hσ₁, ⟨m, tsa, tss, hm, hid ▸ hmarket, by omega⟩, hid ▸ hkept⟩
      · next htarget =>
        obtain ⟨hσ₁, ⟨shares, -, hresolve⟩, ⟨tsa, tss, hmarket, htsa⟩, hkept⟩ :=
          withdraw_current hσ hw hm' hclock
        have hassets := Market.resolve_of_assets (by simp [vaultRequest]; omega) hresolve
        simp only [vaultRequest, amountOf_ofBits] at hassets
        rw [hassets] at htsa ⊢
        refine ⟨hwithdrawn, hσ₁, ⟨m, tsa, tss, hm, hid ▸ hmarket, by omega⟩, hid ▸ hkept⟩
    obtain ⟨hflow, hσ₁, htaken, hkept⟩ := hflow
    refine ⟨σ₁, withdrawnTotal, ?_, h₅, hσ₁, htaken, hkept⟩
    rw [UInt256.checkedAdd_toNat htotal, hflow]
  · next hnot =>
    simp only [Bool.not_eq_eq_eq_not, Bool.not_true, UInt256.isZero] at hnot
    simp at hnot
    omega

theorem Taken.trans_kept {σ σ₁ σ' : State} {id : MarketId} {amount : Nat}
    (h : Taken σ σ₁ id amount) (hkept : MarketKept id σ₁ σ') : Taken σ σ' id amount := by
  obtain ⟨m, tsa, tss, hm, hm₁, htsa⟩ := h
  exact ⟨m, tsa, tss, hm, hkept.market.trans hm₁, htsa⟩

theorem Taken.kept_trans {σ σ₁ σ' : State} {id : MarketId} {amount : Nat}
    (hkept : MarketKept id σ σ₁) (h : Taken σ₁ σ' id amount) : Taken σ σ' id amount := by
  obtain ⟨m, tsa, tss, hm, hm₁, htsa⟩ := h
  exact ⟨m, tsa, tss, hkept.market ▸ hm, hm₁, htsa⟩

/-- The withdrawal allocations, each ready and on markets of distinct ids, taken out in turn:
the total withdrawn grows by their amounts, each market loses exactly its amount, and every
other market is left alone. -/
theorem reallocateEach_withdrawals {vault : Address} {withdrawals allocations rest : List Allocation}
    {σ : State} (hready : List.Forall₂ (Ready vault σ) withdrawals allocations) :
    ∀ {totals r : Reallocation} {σ' : State}, σ.WellFormed →
      (withdrawals.map Allocation.id).Nodup →
      reallocateEach vault (allocations ++ rest) totals σ = .ok (r, σ') →
      ∃ σ₁ withdrawn,
        withdrawn.toNat = totals.withdrawn.toNat + (withdrawals.map Allocation.amount).sum ∧
        reallocateEach vault rest { totals with withdrawn } σ₁ = .ok (r, σ') ∧
        σ₁.WellFormed ∧ (∀ w ∈ withdrawals, Taken σ σ₁ w.id w.amount) ∧
        ∀ id, id ∉ withdrawals.map Allocation.id → MarketKept id σ σ₁ := by
  induction withdrawals generalizing allocations σ with
  | nil =>
    intro totals r σ' hσ _ h
    cases hready
    exact ⟨σ, totals.withdrawn, by simp, h, hσ, by simp,
      fun id _ => (MarketKept.composes id).refl σ⟩
  | cons w withdrawals ih =>
    intro totals r σ' hσ hnodup h
    obtain _ | ⟨hready, hready'⟩ := hready
    obtain ⟨σ₁, withdrawn₁, hw₁, h₁, hσ₁, htaken, hkept⟩ := reallocateEach_ready_inv hσ hready h
    rw [List.map_cons, List.nodup_cons] at hnodup
    have hlater : ∀ w' ∈ withdrawals, w'.id ≠ w.id := fun w' hw' heq =>
      hnodup.1 (heq ▸ List.mem_map_of_mem hw')
    have hready₁ := ((List.forall₂_and_left _ _).mpr ⟨hlater, hready'⟩).imp
      fun w' _ h' => h'.2.of_kept (hkept w'.id h'.1)
    obtain ⟨σ₂, withdrawn₂, hw₂, h₂, hσ₂, htaken₂, hkept₂⟩ := ih hready₁ hσ₁ hnodup.2 h₁
    refine ⟨σ₂, withdrawn₂, ?_, h₂, hσ₂, fun w' hw' => ?_, fun id hid => ?_⟩
    · rw [hw₂, hw₁, List.map_cons, List.sum_cons]
      omega
    · rcases List.mem_cons.mp hw' with rfl | hw'
      · exact htaken.trans_kept (hkept₂ _ hnodup.1)
      · exact Taken.kept_trans (hkept w'.id (hlater w' hw')) (htaken₂ w' hw')
    · rw [List.map_cons, List.mem_cons, not_or] at hid
      exact (MarketKept.composes id).trans (hkept id hid.1) (hkept₂ id hid.2)

/-- Market `id` accrued from its state in `s` to the block's time, with its supply then moved by
exactly `delta`: what `s'` holds at `id`. -/
def MarketMoved (s s' : State) (id : MarketId) (delta : Int) : Prop :=
  ∃ m accrual acc tsa tss, s.markets.get? id = some m ∧
    (Market.accrue s.block.timestamp).apply m = .ok (accrual, acc) ∧
    s'.markets.get? id = some { acc with totalSupplyAssets := tsa, totalSupplyShares := tss } ∧
    (tsa.toNat : Int) = acc.totalSupplyAssets.toNat + delta

/-- The destination comes last, with the largest target. Nothing is withdrawn from it, or the
totals could not balance; it is supplied the total withdrawn less the total supplied, and the
final check makes the supply exactly that. -/
theorem reallocateEach_destination {vault : Address} {σ σ' : State} (hσ : σ.WellFormed)
    {d : MarketId} {totals r : Reallocation}
    (h : reallocateEach vault [⟨d, Int256.maxValue⟩] totals σ = .ok (r, σ'))
    (hbalanced : r.withdrawn = r.supplied) (hsupplied : totals.supplied.toNat = 0)
    (hpos : totals.withdrawn.toNat ≠ 0) :
    σ'.WellFormed ∧ MarketMoved σ σ' d totals.withdrawn.toNat ∧
      ∀ id, id ≠ d → MarketKept id σ σ' := by
  rw [reallocateEach, read_bind] at h
  obtain ⟨config, -, h₁⟩ := (readOnly_lift _).bind_inv h
  obtain ⟨-, h₂⟩ := guard_inv h₁
  obtain ⟨supplied, σ₀, hread, h₃⟩ := bind_inv h₂
  obtain ⟨acc, hacc, -⟩ := suppliedAssets_inv hread
  have hσ₀ := accrueMarket_wellFormed hacc hσ
  dsimp only at h₃
  split at h₃
  · rw [read_bind] at h₃
    obtain ⟨flow, σ₁, -, h₄⟩ := bind_inv h₃
    obtain ⟨withdrawnTotal, htotal, h₅⟩ := arith_bind_inv h₄
    rw [reallocateEach] at h₅
    obtain ⟨rfl, -⟩ := pure_inv h₅
    have := congrArg UInt256.toNat hbalanced
    rw [UInt256.checkedAdd_toNat htotal] at this
    dsimp only at this
    omega
  · have hmax : (Int256.maxValue == Int256.maxValue) = true := beq_self_eq_true _
    simp only [hmax, ↓reduceIte] at h₃
    split at h₃
    · rw [reallocateEach] at h₃
      obtain ⟨rfl, -⟩ := pure_inv h₃
      have := congrArg UInt256.toNat hbalanced
      omega
    · obtain ⟨-, h₄⟩ := guard_inv h₃
      obtain ⟨capped, -, h₅⟩ := arith_bind_inv h₄
      obtain ⟨-, h₆⟩ := guard_inv h₅
      obtain ⟨flow, σ₁, hsupply, h₇⟩ := bind_inv h₆
      obtain ⟨suppliedTotal, htotal, h₈⟩ := arith_bind_inv h₇
      rw [reallocateEach] at h₈
      obtain ⟨rfl, rfl⟩ := pure_inv h₈
      have hflow : flow.assets.toNat = totals.withdrawn.toNat := by
        have := congrArg UInt256.toNat hbalanced
        rw [UInt256.checkedAdd_toNat htotal] at this
        dsimp only at this
        omega
      obtain ⟨m, accrual, σ₂, hm, haccrue, -, -⟩ := accrueMarket_inv hacc
      have hclock : acc.lastUpdate = σ₀.block.timestamp := by
        rw [Market.accrue_lastUpdate haccrue]
        obtain ⟨_, _, heq⟩ := accrueMarket_frame hacc
        rw [heq]
      obtain ⟨hσ', ⟨tsa, tss, hmarket, htsa⟩, hkept⟩ :=
        supply_current hσ₀ hsupply (accrueMarket_get? hacc hσ) hclock
      refine ⟨hσ', ⟨m, accrual, acc, tsa, tss, hm, haccrue, hmarket, by omega⟩, fun id hid => ?_⟩
      exact (MarketKept.composes id).trans (accrueMarket_marketKept hσ hacc hid) (hkept id hid)

/-- A reallocation checks the allocator's role, reallocates market by market from empty totals,
and ends with as much supplied as withdrawn. -/
theorem reallocate_inv {sender address : Address} {allocations : List Allocation} {u : Unit}
    (h : reallocate sender address allocations s = .ok (u, s')) :
    ∃ totals, reallocateEach address allocations ⟨0, 0⟩ s = .ok (totals, s') ∧
      totals.withdrawn = totals.supplied := by
  unfold reallocate at h
  rw [read_bind] at h
  obtain ⟨vault, -, h₁⟩ := (readOnly_lift _).bind_inv h
  rw [read_bind] at h₁
  obtain ⟨-, h₂⟩ := guard_inv h₁
  obtain ⟨totals, s₁, hrun, h₃⟩ := bind_inv h₂
  split at h₃
  · cases h₃
  · next hbalanced =>
    obtain ⟨-, rfl⟩ := pure_inv h₃
    exact ⟨totals, hrun, by simpa using hbalanced⟩

/-! ## Who pays -/

/-- The balance a holding is put back with is the holder's balance afterwards. -/
theorem balanceOf_putHolding_self (hs : s.WellFormed) (user token : Address) (b : UInt256) :
    (s.putHolding { s.holding user token with balance := b }).balanceOf user token = b := by
  obtain ⟨huser, htoken⟩ := hs.holding_user user token
  rw [State.balanceOf_putHolding, if_pos (Prod.ext huser.symm htoken.symm)]

/-- A balance put back for another holder is not the user's. -/
theorem balanceOf_putHolding_other (hs : s.WellFormed) {user holder : Address} (hne : user ≠ holder)
    (token token' : Address) (b : UInt256) :
    (s.putHolding { s.holding holder token' with balance := b }).balanceOf user token =
      s.balanceOf user token := by
  rw [State.balanceOf_putHolding, if_neg]
  intro heq
  exact hne ((Prod.mk.inj heq).1.trans (hs.holding_user holder token').1)

/-- The source side of a movement, the allowance spent and then the debit, changes no balance
but the source's. -/
theorem move_source_side {m : Movement} {s₁ s₂ : State} (hs : s.WellFormed)
    (hspend : if m.source ≠ .zero ∧ m.sender ≠ m.source then
      spendAllowance m.token m.source m.sender m.amount s = .ok ((), s₁) else s₁ = s)
    (hdebit : if m.source ≠ .zero then debit m.token m.source m.amount s₁ = .ok ((), s₂)
      else s₂ = s₁) :
    s₂.WellFormed ∧ ∀ user, user ≠ m.source → ∀ token,
      s₂.balanceOf user token = s.balanceOf user token := by
  have h₁ : s₁.WellFormed ∧ ∀ user token, s₁.balanceOf user token = s.balanceOf user token := by
    split at hspend
    · refine ⟨?_, spendAllowance_balanceOf hs hspend⟩
      rcases spendAllowance_inv hspend with ⟨rfl, -⟩ | ⟨-, -, -, -, -, rfl⟩ | ⟨-, -, -, -, rfl⟩
      · exact hs
      · exact hs.putHolding _
      · exact hs.putVaultUser _
    · subst hspend
      exact ⟨hs, fun _ _ => rfl⟩
  split at hdebit
  · obtain ⟨b, -, rfl⟩ := debit_inv hdebit
    refine ⟨h₁.1.putHolding _, fun user hne token => ?_⟩
    rw [balanceOf_putHolding_other h₁.1 hne, h₁.2]
  · subst hdebit
    exact ⟨h₁.1, fun user _ token => h₁.2 user token⟩

/-- A movement changes no balance of a user who is neither its source nor its destination. -/
theorem move_balanceOf_other {m : Movement} (hs : s.WellFormed) (h : move m s = .ok ((), s'))
    {user : Address} (hsource : user ≠ m.source) (hdestination : user ≠ m.destination)
    (token : Address) : s'.balanceOf user token = s.balanceOf user token := by
  obtain ⟨s₁, s₂, hspend, hdebit, hcredit⟩ := move_inv h
  obtain ⟨hs₂, hkept⟩ := move_source_side hs hspend hdebit
  split at hcredit
  · obtain ⟨-, b, -, rfl⟩ := credit_inv hcredit
    rw [balanceOf_putHolding_other hs₂ hdestination, hkept user hsource]
  · rw [hcredit, hkept user hsource]

/-- A destination other than the source, and other than the zero address that burns, gains
exactly the amount. -/
theorem move_credits_destination {m : Movement} (hs : s.WellFormed) (h : move m s = .ok ((), s'))
    (hdestination : m.destination ≠ .zero) (hne : m.destination ≠ m.source) :
    (s'.balanceOf m.destination m.token).toNat =
      (s.balanceOf m.destination m.token).toNat + m.amount.toNat := by
  obtain ⟨s₁, s₂, hspend, hdebit, hcredit⟩ := move_inv h
  obtain ⟨hs₂, hkept⟩ := move_source_side hs hspend hdebit
  rw [if_pos hdestination] at hcredit
  obtain ⟨-, b, hb, rfl⟩ := credit_inv hcredit
  rw [balanceOf_putHolding_self hs₂, hb, hkept _ hne]

/-- A source moving its own tokens to someone else, unless it is the zero address that mints,
loses exactly the amount. -/
theorem move_debits_source {m : Movement} (hs : s.WellFormed) (h : move m s = .ok ((), s'))
    (hsender : m.sender = m.source) (hsource : m.source ≠ .zero)
    (hne : m.source ≠ m.destination) :
    (s'.balanceOf m.source m.token).toNat + m.amount.toNat =
      (s.balanceOf m.source m.token).toNat := by
  obtain ⟨s₁, s₂, hspend, hdebit, hcredit⟩ := move_inv h
  rw [if_neg (fun hc => hc.2 hsender)] at hspend
  rw [hspend, if_pos hsource] at hdebit
  obtain ⟨b, hb, rfl⟩ := debit_inv hdebit
  have h₃ : s'.balanceOf m.source m.token = b := by
    split at hcredit
    · obtain ⟨-, c, -, rfl⟩ := credit_inv hcredit
      rw [State.balanceOf_putHolding, if_neg, balanceOf_putHolding_self hs]
      intro heq
      exact hne ((Prod.mk.inj heq).1.trans
        ((hs.putHolding _).holding_user m.destination m.token).1)
    · rw [hcredit, balanceOf_putHolding_self hs]
  rw [h₃]
  exact hb

/-- A market operation committed and then tokens moved: the registry, the book of vaults and
the balance of everyone but the movement's source and destination are left alone. -/
theorem commit_move_frame (hs : s.WellFormed) {p : Position} {m' : Market} {mv : Movement}
    (hmove : move mv ((s.putPosition p).putMarket m') = .ok ((), s')) :
    s'.WellFormed ∧ s'.registry = s.registry ∧ s'.vaults = s.vaults ∧
      ∀ user, user ≠ mv.source → user ≠ mv.destination → ∀ token,
        s'.balanceOf user token = s.balanceOf user token := by
  have hs₁ := (hs.putPosition p).putMarket m'
  obtain ⟨_, _, heq⟩ := move_tokensOnly _ _ () s' hmove
  refine ⟨move_wellFormed hs₁ hmove, by rw [heq]; rfl, by rw [heq]; rfl, ?_⟩
  intro user hsource hdestination token
  rw [move_balanceOf_other hs₁ hmove hsource hdestination token]
  rfl

/-! ## What the vault's moves leave alone -/

/-- What the vault's supplies and withdrawals for itself leave alone: the registry, the book of
vaults, and the balance of everyone but the vault and the core contract. -/
structure AllocatorFrame (vault : Address) (s s' : State) : Prop where
  registry : s'.registry = s.registry
  vaults : s'.vaults = s.vaults
  balance : ∀ user, user ≠ vault → user ≠ s.registry.morpho → ∀ token,
    s'.balanceOf user token = s.balanceOf user token

namespace AllocatorFrame

theorem composes (vault : Address) : Composes (AllocatorFrame vault) where
  refl _ := ⟨rfl, rfl, fun _ _ _ _ => rfl⟩
  trans h₁₂ h₂₃ := ⟨h₂₃.registry.trans h₁₂.registry, h₂₃.vaults.trans h₁₂.vaults,
    fun user hv hm token => by
      rw [h₂₃.balance user hv (h₁₂.registry ▸ hm) token, h₁₂.balance user hv hm token]⟩

/-- Storing a config moves no token. -/
theorem putVaultMarketConfig (vault : Address) (s : State) (c : VaultMarketConfig) :
    Guarded (AllocatorFrame vault) s (s.putVaultMarketConfig c) :=
  fun hs => ⟨hs.putVaultMarketConfig c, rfl, rfl, fun _ _ _ _ => rfl⟩

theorem accrueMarket_keeps (vault : Address) (id : MarketId) :
    Keeps (Guarded (AllocatorFrame vault)) (accrueMarket id) := by
  intro s m s' h hs
  refine ⟨accrueMarket_wellFormed h hs, ?_⟩
  obtain ⟨_, _, rfl⟩ := accrueMarket_frame h
  exact ⟨rfl, rfl, fun _ _ _ _ => rfl⟩

/-- The vault supplying pays the core contract, and no one else. -/
theorem supply_keeps (vault : Address) (request : MarketRequest) :
    Keeps (Guarded (AllocatorFrame vault)) (supply vault request (pure ())) := by
  intro s flow s' h hs
  obtain ⟨market, market', s₁, s₂, _, _, hacc, -, -, hcb, hmove⟩ := supply_inv h
  obtain ⟨-, rfl⟩ := pure_inv hcb
  obtain ⟨hs', hregistry, hvaults, hbalance⟩ :=
    commit_move_frame (accrueMarket_wellFormed hacc hs) hmove
  obtain ⟨_, _, rfl⟩ := accrueMarket_frame hacc
  exact ⟨hs', hregistry, hvaults, fun user hv hm token => hbalance user hv hm token⟩

/-- The vault withdrawing to itself is paid by the core contract, and no one else pays or is
paid. -/
theorem withdraw_keeps (vault : Address) (request : MarketRequest)
    (hreceiver : request.receiver = some vault) :
    Keeps (Guarded (AllocatorFrame vault)) (withdraw vault request (pure ())) := by
  intro s flow s' h hs
  obtain ⟨-, market, market', s₁, s₂, _, _, hacc, -, -, -, -, hcb, hmove⟩ := withdraw_inv h
  obtain ⟨-, rfl⟩ := pure_inv hcb
  obtain ⟨hs', hregistry, hvaults, hbalance⟩ :=
    commit_move_frame (accrueMarket_wellFormed hacc hs) hmove
  obtain ⟨_, _, rfl⟩ := accrueMarket_frame hacc
  refine ⟨hs', hregistry, hvaults, fun user hv hm token => hbalance user hm ?_ token⟩
  show user ≠ request.receiver.getD vault
  rw [hreceiver]
  exact hv

theorem chargeWithdrawals_keeps (vault : Address) (supplyId : MarketId) (withdrawals : List Allocation)
    (previous : Option MarketId) (total : UInt256) :
    Keeps (Guarded (AllocatorFrame vault))
      (Perform.chargeWithdrawals vault supplyId previous withdrawals total) :=
  Perform.chargeWithdrawals_keeps (Guarded.composes (composes vault)) vault (accrueMarket_keeps vault)
    (putVaultMarketConfig vault) supplyId withdrawals previous total

theorem reallocate_keeps (vault sender : Address) (allocations : List Allocation) :
    Keeps (Guarded (AllocatorFrame vault)) (Perform.reallocate sender vault allocations) :=
  Perform.reallocate_keeps (Guarded.composes (composes vault)) vault (accrueMarket_keeps vault)
    (fun request _ => supply_keeps vault request)
    (fun request _ hreceiver => withdraw_keeps vault request hreceiver)
    sender allocations

end AllocatorFrame

/-! ## A public reallocation, whole -/

/-- A withdrawal market accrued by the charge and then taken down by its amount has moved by
minus the amount from its state before the charge. -/
theorem AccruedAt.taken {σ σ' : State} {id : MarketId} {amount : Nat} (h : AccruedAt s σ id)
    (htaken : Taken σ σ' id amount) : MarketMoved s σ' id (-amount) := by
  obtain ⟨m, accrual, acc, hm, hacc, hσ⟩ := h
  obtain ⟨m', tsa, tss, hm', hσ', htsa⟩ := htaken
  rw [hσ] at hm'
  cases hm'
  exact ⟨m, accrual, acc, tsa, tss, hm, hacc, hσ', by omega⟩

theorem MarketMoved.kept_trans {σ : State} {id : MarketId} {delta : Int}
    (hkept : MarketKept id s σ) (h : MarketMoved σ s' id delta) : MarketMoved s s' id delta := by
  obtain ⟨m, accrual, acc, tsa, tss, hm, hacc, hm', htsa⟩ := h
  exact ⟨m, accrual, acc, tsa, tss, hkept.market ▸ hm, hkept.block ▸ hacc, hm', htsa⟩

/-- The nested reallocation, with the withdrawals ready on distinct markets and the destination
none of them: each withdrawal market loses exactly its amount, the destination gains exactly the
total, and every other market is left alone. -/
theorem reallocate_ready {vault sender : Address} {withdrawals allocations : List Allocation}
    {supplyId : MarketId} {σ σ' : State} {u : Unit} (hσ : σ.WellFormed)
    (hready : List.Forall₂ (Ready vault σ) withdrawals allocations)
    (hnodup : (withdrawals.map Allocation.id).Nodup) (hne : withdrawals ≠ [])
    (hdest : supplyId ∉ withdrawals.map Allocation.id)
    (h : reallocate sender vault (allocations ++ [⟨supplyId, Int256.maxValue⟩]) σ = .ok (u, σ')) :
    σ'.WellFormed ∧ (∀ w ∈ withdrawals, Taken σ σ' w.id w.amount) ∧
      MarketMoved σ σ' supplyId (withdrawals.map Allocation.amount).sum ∧
      ∀ id, id ≠ supplyId → id ∉ withdrawals.map Allocation.id → MarketKept id σ σ' := by
  obtain ⟨totals, hrun, hbalanced⟩ := reallocate_inv h
  obtain ⟨σ₁, withdrawn, hwithdrawn, hlast, hσ₁, htaken, hkept⟩ :=
    reallocateEach_withdrawals hready hσ hnodup hrun
  have hsum : withdrawn.toNat = (withdrawals.map Allocation.amount).sum := by
    rw [hwithdrawn]
    exact Nat.zero_add _
  have hamounts : ∀ w ∈ withdrawals, w.amount ≠ 0 := by
    have hready' : List.Forall₂ (fun w a => w.amount ≠ 0 ∧ Ready vault σ w a) withdrawals
        allocations := hready.imp fun _ _ h => ⟨h.2.1, h⟩
    exact ((List.forall₂_and_left _ _).mp hready').1
  have hpos : withdrawn.toNat ≠ 0 := by
    rw [hsum]
    exact amounts_sum_ne_zero hne hamounts
  obtain ⟨hσ', hmoved, hkept'⟩ := reallocateEach_destination hσ₁ hlast hbalanced UInt256.toNat_zero hpos
  refine ⟨hσ', fun w hw => ?_, ?_, fun id hid hnot => ?_⟩
  · have hne' : w.id ≠ supplyId := fun heq => hdest (heq ▸ List.mem_map_of_mem hw)
    exact (htaken w hw).trans_kept (hkept' w.id hne')
  · rw [← hsum]
    exact MarketMoved.kept_trans (hkept supplyId hdest) hmoved
  · exact (MarketKept.composes id).trans (hkept id hnot) (hkept' id hid)

/-- The public allocator's fee on vault `address`, as the vault's terms in `s` set it, settled in
`s'`: recorded as accrued, paid by the sender in the native token and received by the allocator,
each counted apart from the zero address, the vault and the core contract. -/
def FeeSettled (s s' : State) (sender address : Address) : Prop :=
  ∃ vault terms accruedFee, s.vaults.get? address = some vault ∧
    vault.allocatorTerms = some terms ∧
    s'.vaults.get? address = some { vault with allocatorTerms := some { terms with accruedFee } } ∧
    accruedFee.toNat = terms.accruedFee.toNat + terms.fee.toNat ∧
    (sender ∉ [.zero, s.registry.publicAllocator, address, s.registry.morpho] →
      (s'.balanceOf sender nativeAddress).toNat + terms.fee.toNat =
        (s.balanceOf sender nativeAddress).toNat) ∧
    (s.registry.publicAllocator ∉ [.zero, sender, address, s.registry.morpho] →
      (s'.balanceOf s.registry.publicAllocator nativeAddress).toNat =
        (s.balanceOf s.registry.publicAllocator nativeAddress).toNat + terms.fee.toNat)

/-- Paying the fee debits the sender and credits the allocator by exactly the fee. -/
theorem FeePaid.balances {sender allocator : Address} {terms : AllocatorTerms}
    {accruedFee : UInt256} (hs : s.WellFormed) (h : FeePaid sender allocator terms accruedFee s s') :
    (sender ≠ .zero → sender ≠ allocator →
      (s'.balanceOf sender nativeAddress).toNat + terms.fee.toNat =
        (s.balanceOf sender nativeAddress).toNat) ∧
    (allocator ≠ .zero → allocator ≠ sender →
      (s'.balanceOf allocator nativeAddress).toNat =
        (s.balanceOf allocator nativeAddress).toNat + terms.fee.toNat) := by
  rcases h with ⟨hzero, -, rfl⟩ | ⟨hmove, -⟩
  · exact ⟨fun _ _ => by omega, fun _ _ => by omega⟩
  · have hdebit := move_debits_source hs hmove rfl
    have hcredit := move_credits_destination hs hmove
    exact ⟨hdebit, hcredit⟩

/-- The fee paid, the terms stored on the vault, and then only the vault's own moves: the fee is
settled. -/
theorem FeePaid.settled {sender address : Address} {vault : Vault} {terms : AllocatorTerms}
    {accruedFee : UInt256} {s₀ : State} (hs : s.WellFormed)
    (hvault : s.vaults.get? address = some vault) (hterms : vault.allocatorTerms = some terms)
    (hpaid : FeePaid sender s.registry.publicAllocator terms accruedFee s s₀)
    (hframe : AllocatorFrame address
      (s₀.putVault { vault with allocatorTerms := some { terms with accruedFee } }) s') :
    FeeSettled s s' sender address := by
  obtain ⟨holdings, vaultUsers, hs₀⟩ := hpaid.tokensOnly
  have hregistry : s₀.registry = s.registry := by rw [hs₀]
  have hvaults : s₀.vaults = s.vaults := by rw [hs₀]
  obtain ⟨hsender, hallocator⟩ := hpaid.balances hs
  refine ⟨vault, terms, accruedFee, hvault, hterms, ?_, hpaid.accruedFee_toNat, fun hout => ?_,
    fun hout => ?_⟩
  · rw [hframe.vaults, State.vaults_putVault, if_pos (hs.vault_address hvault).symm]
  · simp only [List.mem_cons, List.not_mem_nil, or_false, not_or] at hout
    obtain ⟨hzero, hne, hv, hm⟩ := hout
    rw [hframe.balance sender hv (hregistry ▸ hm)]
    exact hsender hzero hne
  · simp only [List.mem_cons, List.not_mem_nil, or_false, not_or] at hout
    obtain ⟨hzero, hne, hv, hm⟩ := hout
    rw [hframe.balance _ hv (hregistry ▸ hm)]
    exact hallocator hzero hne

/-- What a public reallocation of vault `address`'s supply, out of `withdrawals` and into market
`supplyId`, did from `s` to `s'`. -/
structure PublicReallocation (s s' : State) (sender address : Address)
    (withdrawals : List Allocation) (supplyId : MarketId) : Prop where
  /-- The withdrawals come in strictly increasing order of market; none is for nothing and none
  is on the destination. -/
  ordered : withdrawals.Pairwise (fun a b => a.id.toNat < b.id.toNat) ∧
    ∀ w ∈ withdrawals, w.amount ≠ 0 ∧ w.id ≠ supplyId
  /-- Each withdrawal market, accrued, gives up exactly its amount, and its flow caps are charged
  with it. -/
  withdrawn : ∀ w ∈ withdrawals, MarketMoved s s' w.id (-w.amount) ∧
    ∃ c c', s.vaultMarketConfigs.get? (address, w.id) = some c ∧
      s'.vaultMarketConfigs.get? (address, w.id) = some c' ∧ c.Shifted c' w.amount
  /-- The destination, accrued, is supplied exactly the total, and its flow caps give the total
  back. -/
  supplied : MarketMoved s s' supplyId (withdrawals.map Allocation.amount).sum ∧
    ∃ c c', s.vaultMarketConfigs.get? (address, supplyId) = some c ∧
      s'.vaultMarketConfigs.get? (address, supplyId) = some c' ∧
      c.Shifted c' (-((withdrawals.map Allocation.amount).sum : Int))
  otherConfigs : ∀ key, key ≠ (address, supplyId) → (∀ w ∈ withdrawals, key ≠ (address, w.id)) →
    s'.vaultMarketConfigs.get? key = s.vaultMarketConfigs.get? key
  otherMarkets : ∀ id, id ≠ supplyId → id ∉ withdrawals.map Allocation.id → MarketKept id s s'
  fee : FeeSettled s s' sender address

/-- A successful public reallocation from a well-formed state does exactly what it charges for:
each withdrawal market, accrued, gives up its amount and has its flow caps charged with it; the
destination is supplied the total and has its caps moved back by it; no other config and no other
market changes; and the fee is settled. -/
theorem publicReallocate_charged {sender address : Address} {withdrawals : List Allocation}
    {supplyId : MarketId} {u : Unit} (hs : s.WellFormed)
    (h : publicReallocate sender address withdrawals supplyId s = .ok (u, s')) :
    PublicReallocation s s' sender address withdrawals supplyId := by
  obtain ⟨vault, terms, accruedFee, s₀, supplyConfig, allocations, total, s₁, maxIn, maxOut,
    hvault, hterms, hpaid, hne, hconfig, -, hcharge, hin, hout, hrealloc⟩ := publicReallocate_inv h
  set σ₀ := s₀.putVault { vault with allocatorTerms := some { terms with accruedFee } }
  set σ₂ := s₁.putVaultMarketConfig { supplyConfig with flowCaps := some ⟨maxIn, maxOut⟩ }
  have hσ₀ : σ₀.WellFormed := (hpaid.wellFormed hs).putVault _
  have hconfigs₀ : σ₀.vaultMarketConfigs = s.vaultMarketConfigs := by
    obtain ⟨holdings, vaultUsers, hs₀⟩ := hpaid.tokensOnly
    show s₀.vaultMarketConfigs = _
    rw [hs₀]
  have hkept₀ : ∀ id, MarketKept id s σ₀ := fun id =>
    (MarketKept.composes id).trans (MarketKept.of_tokensOnly hpaid.tokensOnly) ⟨rfl, rfl, fun _ => rfl⟩
  obtain ⟨hs₁, hcharged, htotal, hchecks, hpairwise⟩ := chargeWithdrawals_charged hσ₀ hcharge
  obtain ⟨hready, haccrued, hkept₁⟩ := chargeWithdrawals_ready hσ₀ hcharge
  have hσ₂ : σ₂.WellFormed := hs₁.putVaultMarketConfig _
  have hkept₂ : ∀ id, MarketKept id s₁ σ₂ := fun _ => ⟨rfl, rfl, fun _ => rfl⟩
  have hdest : supplyId ∉ withdrawals.map Allocation.id := by
    intro hmem
    obtain ⟨w, hw, heq⟩ := List.mem_map.mp hmem
    exact (hchecks w hw).2.1 heq
  have hnodup : (withdrawals.map Allocation.id).Nodup :=
    List.pairwise_map.mpr (hpairwise.imp fun hlt heq => by rw [heq] at hlt; exact lt_irrefl _ hlt)
  obtain ⟨hs', htaken, hmoved, hkept₃⟩ := reallocate_ready hσ₂
    (hready.imp fun w _ h => h.of_kept (hkept₂ w.id)) hnodup hne hdest hrealloc
  have hconfigs₃ : s'.vaultMarketConfigs = σ₂.vaultMarketConfigs :=
    (configsKept_writeInvariant.reallocate_keeps _ trivial _ _ _ _ hrealloc hσ₂).2
  have hconfig₀ : σ₀.vaultMarketConfigs.get? (address, supplyId) = some supplyConfig := hconfig
  obtain ⟨hvault₀, hid₀⟩ := hσ₀.vaultMarketConfig_key hconfig₀
  have hconfigs : ∀ key, key ≠ (address, supplyId) →
      s'.vaultMarketConfigs.get? key = s₁.vaultMarketConfigs.get? key := by
    intro key hkey
    rw [hconfigs₃, State.vaultMarketConfigs_putVaultMarketConfig, if_neg]
    rw [hvault₀, hid₀]
    exact hkey
  rw [UInt256.toNat_zero, Nat.zero_add] at htotal
  refine ⟨⟨hpairwise, fun w hw => ⟨(hchecks w hw).1, (hchecks w hw).2.1⟩⟩, fun w hw => ⟨?_, ?_⟩,
    ⟨?_, ?_⟩, fun key hkey hkeys => ?_, fun id hid hnot => ?_, ?_⟩
  · have haccrued' := (AccruedAt.kept_trans (hkept₀ w.id) (haccrued w hw)).trans_kept (hkept₂ w.id)
    exact haccrued'.taken (htaken w hw)
  · obtain ⟨c, c', hc, hc', hshift⟩ := hcharged.shifted w hw
    refine ⟨c, c', hconfigs₀ ▸ hc, ?_, hshift⟩
    rw [hconfigs _ fun heq => (hchecks w hw).2.1 (Prod.mk.inj heq).2]
    exact hc'
  · have hkept : MarketKept supplyId s s₁ := (MarketKept.composes supplyId).trans (hkept₀ supplyId)
      (hkept₁ supplyId hdest)
    exact MarketMoved.kept_trans ((MarketKept.composes supplyId).trans hkept (hkept₂ supplyId)) hmoved
  · have hpos : total.toNat ≠ 0 := by
      rw [htotal]
      exact amounts_sum_ne_zero hne fun w hw => (hchecks w hw).1
    refine ⟨supplyConfig, _, hconfigs₀ ▸ hconfig₀, ?_, htotal ▸ shifted_of_return hpos hin hout⟩
    rw [hconfigs₃, State.vaultMarketConfigs_putVaultMarketConfig, if_pos]
    rw [hvault₀, hid₀]
  · rw [hconfigs key hkey, hcharged.others key hkeys, hconfigs₀]
  · exact (MarketKept.composes id).trans ((MarketKept.composes id).trans (hkept₀ id)
      (hkept₁ id hnot)) ((MarketKept.composes id).trans (hkept₂ id) (hkept₃ id hid hnot))
  · have hframe₁ := (AllocatorFrame.chargeWithdrawals_keeps address supplyId withdrawals none 0
      _ _ _ hcharge hσ₀).2
    have hframe₃ := (AllocatorFrame.reallocate_keeps address _ _ _ _ _ hrealloc hσ₂).2
    exact FeePaid.settled hs hvault hterms hpaid ((AllocatorFrame.composes address).trans
      ((AllocatorFrame.composes address).trans hframe₁
        (AllocatorFrame.putVaultMarketConfig address s₁ _ hs₁).2) hframe₃)

/-- The action of a public reallocation succeeds only as the public reallocation itself, once
its amounts are checked. -/
theorem Action.publicReallocate_of_run {index : Nat} {sender address : Address}
    {withdrawals : List Allocation} {supplyId : MarketId}
    (h : (Action.mk sender address (.publicReallocate withdrawals supplyId)).run index s = .ok s') :
    publicReallocate sender address withdrawals supplyId s = .ok ((), s') := by
  rw [Action.run_eq_ok_iff] at h
  unfold Operation.perform at h
  obtain ⟨_, -, h⟩ := (readOnly_lift _).bind_inv h
  exact h

/-- The public allocator charges flow caps for exactly what it moves: each successful public
reallocation takes each withdrawal from its market and its caps, supplies the total to the
destination and returns it to the destination's caps, and settles the fee; so every run of actions
keeps each config's flow caps and their sums. -/
theorem flowCaps_charged_exactly :
    (∀ {s s' : State} {index : Nat} {sender address : Address} {withdrawals : List Allocation}
      {supplyId : MarketId}, s.WellFormed →
      (Action.mk sender address (.publicReallocate withdrawals supplyId)).run index s = .ok s' →
      PublicReallocation s s' sender address withdrawals supplyId) ∧
    ∀ {s s' : State} {index : Nat} {actions : List Action}, s.WellFormed →
      runActions index actions s = .ok s' → FlowKept s s' :=
  ⟨fun hs h => publicReallocate_charged hs (Action.publicReallocate_of_run h),
    flowKept_runActions⟩

namespace AllocatorSample

def asset : Address := ⟨0x210, by decide⟩

def vault : Address := ⟨0x211, by decide⟩

/-- Who calls the public allocator, paying its fee. -/
def caller : Address := ⟨0x212, by decide⟩

def registry : Registry :=
  ⟨⟨0x213, by decide⟩, ⟨0x214, by decide⟩, ⟨0x215, by decide⟩, ⟨0x216, by decide⟩,
    ⟨0x217, by decide⟩, none⟩

def lending (collateral : Address) : Market :=
  Market.new ⟨asset, collateral, ⟨0x218, by decide⟩, ⟨0x219, by decide⟩, 0⟩ 0

/-- A hundred supplied, all by the vault. -/
def source : Market :=
  { lending ⟨0x21a, by decide⟩ with totalSupplyAssets := 100, totalSupplyShares := 100000000 }

def destination : Market := lending ⟨0x21b, by decide⟩

/-- Both markets enabled, capped at a thousand, with a hundred of inflow and outflow allowed. -/
def config (id : MarketId) : VaultMarketConfig :=
  { VaultMarketConfig.new vault id 1000 with flowCaps := some ⟨100, 100⟩ }

/-- The vault lets the public allocator reallocate for a fee of five native units; its hundred
is on `source`, which the core contract holds, and the caller holds ten native units. -/
def state : State :=
  ((((((((State.new .ethereum ⟨0, 0⟩ registry).putMarket source).putMarket destination).putVault
    { Vault.new vault asset 0 with
        supplyQueue := [source.id, destination.id], withdrawQueue := [source.id, destination.id],
        totalSupply := 100, totalAssets := 100, lastTotalAssets := 100,
        allocatorTerms := some ⟨caller, 5, 0⟩ }).putVaultMarketConfig
    (config source.id)).putVaultMarketConfig (config destination.id)).putVaultUser
    { VaultUser.new vault registry.publicAllocator with isAllocator := true }).putPosition
    { Position.empty vault source.id with supplyShares := 100000000 }).putHolding
    { Holding.empty registry.morpho asset with balance := 100 } |>.putHolding
    { Holding.empty caller nativeAddress with balance := 10 }

/-- Sixty taken out of `source` into `destination`. -/
def withdrawals : List Allocation := [⟨source.id, Int256.ofBits 60⟩]

def action : Action := .mk caller vault (.publicReallocate withdrawals destination.id)

theorem state_wellFormed : state.WellFormed :=
  (((((((((State.new_wellFormed _ _ _).putMarket _).putMarket _).putVault _).putVaultMarketConfig
    _).putVaultMarketConfig _).putVaultUser _).putPosition _).putHolding _).putHolding _

theorem run_ok : ∃ s', action.run 0 state = .ok s' :=
  Except.exists_eq_ok (x := action.run 0 state) (by decide +kernel)

end AllocatorSample

open AllocatorSample in
/-- Sixty moved by the public allocator between two capped markets, for a fee of five: the run
succeeds, and both halves of the flow-cap account hold of it. -/
theorem flowCaps_charged_exactly_sample :
    ∃ s', action.run 0 state = .ok s' ∧
      PublicReallocation state s' caller vault withdrawals destination.id ∧ FlowKept state s' := by
  obtain ⟨s', h⟩ := run_ok
  have hrun : runActions 0 [action] state = .ok s' := by
    rw [runActions.eq_2, h]
    rfl
  exact ⟨s', h, flowCaps_charged_exactly.1 state_wellFormed h,
    flowCaps_charged_exactly.2 state_wellFormed hrun⟩

end LendingSim
