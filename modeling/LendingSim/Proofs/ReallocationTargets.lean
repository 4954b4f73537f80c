import LendingSim.Proofs.VaultWorth

/-!
# What a reallocation does to the vault

A reallocation walks the vault's allocations in order. On each market it accrues the market and
reads the vault's supply there, rounded down; above the target it withdraws the excess, or all
its shares for a zero target; below it, it supplies the shortfall, or for the largest amount
whatever has been withdrawn and not yet supplied; at the target it does nothing. It ends by
checking that as much was supplied as withdrawn.

Each withdrawal pays the vault exactly the assets that leave the market and each supply takes
from it exactly those that enter, so the vault's idle balance moves as the two running totals do
(`Moved`), and the final check leaves it where it was. A market named once is touched by its own
step only: the vault's supply there ends at most at the target, since a withdrawal takes at least
the excess and a supply adds at most what it supplies, and exactly at it when it was there
already (`Reached`). Whether the supply was already at the target is read as the reallocation
reads it, after accruing the market, and so in any state that accrues the market alike
(`AccrualKept`).

The main result is `reallocation_keeps_idle_and_meets_targets`.
-/

namespace LendingSim

open Sim Perform

variable {s s' : State}

/-! ## What a movement does to one balance -/

/-- A movement of a token, seen from one holder: it loses the amount as the source and gains it
as the destination, but for the zero address, which mints and burns and whose balance no
movement touches. -/
theorem move_balanceOf_toNat (hs : s.WellFormed) {mv : Movement} (h : move mv s = .ok ((), s'))
    (user : Address) :
    (s'.balanceOf user mv.token).toNat +
        (if user = mv.source ∧ user ≠ .zero then mv.amount.toNat else 0) =
      (s.balanceOf user mv.token).toNat +
        (if user = mv.destination ∧ user ≠ .zero then mv.amount.toNat else 0) := by
  obtain ⟨s₁, s₂, hspend, hdebit, hcredit⟩ := move_inv h
  obtain ⟨hs₁, hbalance⟩ := spend_side hs hspend
  have hdebited : s₂.WellFormed ∧ (s₂.balanceOf user mv.token).toNat +
      (if user = mv.source ∧ user ≠ .zero then mv.amount.toNat else 0) =
        (s.balanceOf user mv.token).toNat := by
    split at hdebit
    · next hsource =>
      obtain ⟨b, hb, rfl⟩ := debit_inv hdebit
      refine ⟨hs₁.putHolding _, ?_⟩
      rw [balanceOf_putHolding_eq hs₁, ← hbalance user]
      by_cases huser : user = mv.source
      · rw [if_pos ⟨huser, rfl⟩, if_pos ⟨huser, huser ▸ hsource⟩, huser]
        exact hb
      · rw [if_neg (fun h => huser h.1), if_neg (fun h => huser h.1)]
        exact Nat.add_zero _
    · next hsource =>
      subst hdebit
      rw [if_neg (fun h : user = mv.source ∧ user ≠ .zero => hsource (h.1 ▸ h.2)), hbalance]
      exact ⟨hs₁, Nat.add_zero _⟩
  have hcredited : (s'.balanceOf user mv.token).toNat = (s₂.balanceOf user mv.token).toNat +
      (if user = mv.destination ∧ user ≠ .zero then mv.amount.toNat else 0) := by
    split at hcredit
    · next hdestination =>
      obtain ⟨-, b, hb, rfl⟩ := credit_inv hcredit
      rw [balanceOf_putHolding_eq hdebited.1]
      by_cases huser : user = mv.destination
      · rw [if_pos ⟨huser, rfl⟩, if_pos ⟨huser, huser ▸ hdestination⟩, huser]
        exact hb
      · rw [if_neg (fun h => huser h.1), if_neg (fun h => huser h.1)]
        exact (Nat.add_zero _).symm
    · next hdestination =>
      rw [hcredit, if_neg (fun h : user = mv.destination ∧ user ≠ .zero => hdestination (h.1 ▸ h.2))]
      exact (Nat.add_zero _).symm
  omega

/-- The part of a flow between the vault and the core contract that the vault's idle balance
sees: all of it, unless the vault is the core contract itself or the zero address, whose
balances such a flow leaves alone. -/
def State.idleShare (s : State) (vault : Address) (amount : Nat) : Nat :=
  if vault = s.registry.morpho ∨ vault = .zero then 0 else amount

theorem State.idleShare_add (s : State) (vault : Address) (a b : Nat) :
    s.idleShare vault (a + b) = s.idleShare vault a + s.idleShare vault b := by
  unfold State.idleShare
  split <;> rfl

theorem State.idleShare_congr (h : s'.registry = s.registry) (vault : Address) :
    s'.idleShare vault = s.idleShare vault := by
  unfold State.idleShare
  rw [h]

/-- Of a flow between the vault and the core contract, what the vault sees as its own end is
what it sees as the core contract's end and its idle share. -/
theorem State.idleShare_ends (s : State) (vault : Address) (amount : Nat) :
    (if vault = s.registry.morpho ∧ vault ≠ .zero then amount else 0) + s.idleShare vault amount =
      if vault = vault ∧ vault ≠ .zero then amount else 0 := by
  unfold State.idleShare
  by_cases hzero : vault = .zero
  · simp [hzero]
  · by_cases hmorpho : vault = s.registry.morpho <;> simp [hzero, hmorpho]

/-- The core contract paying the vault: the vault gains its idle share. -/
theorem move_pays_vault (hs : s.WellFormed) {asset vault : Address} {amount : UInt256}
    (h : move ⟨asset, s.registry.morpho, s.registry.morpho, vault, amount⟩ s = .ok ((), s')) :
    (s'.balanceOf vault asset).toNat =
      (s.balanceOf vault asset).toNat + s.idleShare vault amount.toNat := by
  have hnet := move_balanceOf_toNat hs h vault
  have hends := s.idleShare_ends vault amount.toNat
  dsimp only at hnet
  omega

/-- The vault paying the core contract: the vault loses its idle share. -/
theorem move_charges_vault (hs : s.WellFormed) {asset vault : Address} {amount : UInt256}
    (h : move ⟨asset, s.registry.morpho, vault, s.registry.morpho, amount⟩ s = .ok ((), s')) :
    (s'.balanceOf vault asset).toNat + s.idleShare vault amount.toNat =
      (s.balanceOf vault asset).toNat := by
  have hnet := move_balanceOf_toNat hs h vault
  have hends := s.idleShare_ends vault amount.toNat
  dsimp only at hnet
  omega

/-! ## Reading the vault's supply in states that accrue a market alike -/

/-- What accruing market `id` reads is the same in `s'` as in `s`: the block, the market and the
positions on it, and the fee recipient. -/
structure AccrualKept (id : MarketId) (s s' : State) : Prop extends MarketKept id s s' where
  feeRecipient : s'.feeRecipient = s.feeRecipient

theorem AccrualKept.composes (id : MarketId) : Composes (AccrualKept id) where
  refl s := ⟨(MarketKept.composes id).refl s, rfl⟩
  trans h₁₂ h₂₃ := ⟨(MarketKept.composes id).trans h₁₂.toMarketKept h₂₃.toMarketKept,
    h₂₃.feeRecipient.trans h₁₂.feeRecipient⟩

/-- Crediting an accrual's fee shares adds them to the fee recipient's supply and to no one
else's. -/
theorem FeeCredited.supplyShares (hs : s.WellFormed) {id : MarketId} {shares : UInt256}
    {s₁ : State} (h : FeeCredited s id shares s₁) (user : Address) :
    (s₁.position user id).supplyShares.toNat = (s.position user id).supplyShares.toNat +
      if user = s.feeRecipient then shares.toNat else 0 := by
  rcases h with ⟨hzero, rfl⟩ | ⟨total, htotal, rfl⟩
  · split <;> omega
  · obtain ⟨hrecipient, hid⟩ := hs.position_user s.feeRecipient id
    rw [State.position_putPosition]
    by_cases huser : user = s.feeRecipient
    · subst huser
      rw [if_pos (by rw [hrecipient, hid]), if_pos rfl]
      exact htotal
    · rw [if_neg (fun heq => huser ((Prod.mk.inj heq).1.trans hrecipient)), if_neg huser]
      rfl

/-- Reading the vault's supply on a market accrues it first; two states that accrue it alike read
the same. -/
theorem suppliedAssets_congr {σ : State} (hs : s.WellFormed) (hσ : σ.WellFormed) {id : MarketId}
    (hkept : AccrualKept id s σ) {vault : Address} {rounding : Rounding} {x y : UInt256}
    {s₁ σ₁ : State} (h : suppliedAssets vault id rounding s = .ok (x, s₁))
    (h' : suppliedAssets vault id rounding σ = .ok (y, σ₁)) : y = x := by
  obtain ⟨m, hacc, hx⟩ := suppliedAssets_inv h
  obtain ⟨m', hacc', hy⟩ := suppliedAssets_inv h'
  obtain ⟨m₀, accrual, s₂, hm₀, hrun, hfee, rfl⟩ := accrueMarket_inv hacc
  obtain ⟨m₀', accrual', σ₂, hm₀', hrun', hfee', rfl⟩ := accrueMarket_inv hacc'
  obtain rfl : m₀' = m₀ := Option.some.inj (hm₀'.symm.trans (hkept.market.trans hm₀))
  rw [hkept.block, hrun] at hrun'
  obtain ⟨rfl, rfl⟩ := Prod.mk.inj (Except.ok.inj hrun')
  have hshares : (σ₂.position vault id).supplyShares = (s₂.position vault id).supplyShares := by
    apply UInt256.ext
    rw [FeeCredited.supplyShares hσ hfee', FeeCredited.supplyShares hs hfee, hkept.position,
      hkept.feeRecipient]
  change m.toSupplyAssets (σ₂.position vault id).supplyShares rounding = .ok y at hy
  change m.toSupplyAssets (s₂.position vault id).supplyShares rounding = .ok x at hx
  rw [hshares, hx] at hy
  exact (Except.ok.inj hy).symm

/-! ## Stretches of a reallocation -/

section Stretch

variable {vault asset : Address}

/-- What a stretch of a reallocation leaves, from `s` to `s'` as its totals go from `totals` to
`r`: a well-formed state under the same registry, every market but those of `ids` as accruing
finds it, and the vault's idle balance up by its share of what was withdrawn and down by its
share of what was supplied. -/
structure Moved (vault asset : Address) (ids : List MarketId) (totals r : Reallocation)
    (s s' : State) : Prop where
  wellFormed : s'.WellFormed
  registry : s'.registry = s.registry
  kept : ∀ id, id ∉ ids → AccrualKept id s s'
  idle : (s'.balanceOf vault asset).toNat +
      s.idleShare vault (r.supplied.toNat + totals.withdrawn.toNat) =
    (s.balanceOf vault asset).toNat + s.idleShare vault (r.withdrawn.toNat + totals.supplied.toNat)

namespace Moved

variable {ids ids' : List MarketId} {totals totals₁ r : Reallocation}

theorem refl (hs : s.WellFormed) : Moved vault asset ids totals totals s s :=
  ⟨hs, rfl, fun id _ => (AccrualKept.composes id).refl s, by rw [Nat.add_comm totals.supplied.toNat]⟩

theorem mono (h : Moved vault asset ids totals r s s') (hsub : ids ⊆ ids') :
    Moved vault asset ids' totals r s s' :=
  ⟨h.wellFormed, h.registry, fun id hid => h.kept id fun hmem => hid (hsub hmem), h.idle⟩

theorem trans {s₁ : State} (h₁ : Moved vault asset ids totals totals₁ s s₁)
    (h₂ : Moved vault asset ids totals₁ r s₁ s') : Moved vault asset ids totals r s s' := by
  refine ⟨h₂.wellFormed, h₂.registry.trans h₁.registry, fun id hid =>
    (AccrualKept.composes id).trans (h₁.kept id hid) (h₂.kept id hid), ?_⟩
  have hidle₁ := h₁.idle
  have hidle₂ := h₂.idle
  rw [State.idleShare_congr h₁.registry] at hidle₂
  simp only [State.idleShare_add] at hidle₁ hidle₂ ⊢
  omega

/-- From empty totals that end equal, the vault's idle balance is where it was. -/
theorem balanceOf_eq (h : Moved vault asset ids ⟨0, 0⟩ r s s')
    (hbalanced : r.withdrawn = r.supplied) : s'.balanceOf vault asset = s.balanceOf vault asset := by
  apply UInt256.ext
  have hidle := h.idle
  rw [hbalanced] at hidle
  exact Nat.add_right_cancel hidle

end Moved

/-- Where allocation `a` leaves the vault's supply on its market, from `s` to `s'`: at most at
the target, and at it when the vault's supply there, read in any state that accrues the market
as `s` does, was the target already. The largest amount names no target. -/
def Reached (vault : Address) (a : Allocation) (s s' : State) : Prop :=
  a.assets ≠ Int256.maxValue →
    s'.supplied vault a.id .down ≤ (amountOf a.assets).toNat ∧
    ∀ σ σ₀, σ.WellFormed → AccrualKept a.id σ s →
      suppliedAssets vault a.id .down σ = .ok (amountOf a.assets, σ₀) →
      s'.supplied vault a.id .down = (amountOf a.assets).toNat

namespace Reached

variable {a : Allocation} {s₁ : State}

/-- A market left alone afterwards stays where its allocation left it. -/
theorem trans_kept (h : Reached vault a s s₁) (hkept : AccrualKept a.id s₁ s') :
    Reached vault a s s' := by
  intro hmax
  obtain ⟨hle, heq⟩ := h hmax
  rw [hkept.supplied]
  exact ⟨hle, heq⟩

/-- A market left alone before its allocation is read as it was. -/
theorem kept_trans (hkept : AccrualKept a.id s s₁) (h : Reached vault a s₁ s') :
    Reached vault a s s' := by
  intro hmax
  obtain ⟨hle, heq⟩ := h hmax
  exact ⟨hle, fun σ σ₀ hσ hσs hread =>
    heq σ σ₀ hσ ((AccrualKept.composes a.id).trans hσs hkept) hread⟩

end Reached

/-- A run of allocations, from `s` to `s'` as its totals go from `totals` to `r`: a stretch that
touches their markets only, each left where its allocation says. -/
structure Reallocated (vault asset : Address) (allocations : List Allocation)
    (totals r : Reallocation) (s s' : State) : Prop
    extends Moved vault asset (allocations.map (·.id)) totals r s s' where
  reached : ∀ a ∈ allocations, Reached vault a s s'

theorem Reallocated.nil {totals : Reallocation} (hs : s.WellFormed) :
    Reallocated vault asset [] totals totals s s :=
  ⟨Moved.refl hs, fun _ ha => absurd ha List.not_mem_nil⟩

/-- One allocation and then the rest, on markets other than its own. -/
theorem Reallocated.cons {a : Allocation} {rest : List Allocation} {totals totals₁ r : Reallocation}
    {s₁ : State} (h₁ : Reallocated vault asset [a] totals totals₁ s s₁)
    (h₂ : Reallocated vault asset rest totals₁ r s₁ s') (hnot : a.id ∉ rest.map (·.id)) :
    Reallocated vault asset (a :: rest) totals r s s' := by
  refine ⟨(h₁.mono ?_).trans (h₂.mono ?_), fun a' ha' => ?_⟩
  · exact List.map_subset _ (List.cons_subset.mpr ⟨List.mem_cons_self, List.nil_subset _⟩)
  · exact List.map_subset _ (List.subset_cons_self a rest)
  · rcases List.mem_cons.mp ha' with rfl | ha'
    · exact (h₁.reached a' List.mem_cons_self).trans_kept (h₂.kept a'.id hnot)
    · have hne : a'.id ∉ [a].map (·.id) := by
        rw [List.map_singleton, List.mem_singleton]
        exact fun heq => hnot (heq ▸ List.mem_map_of_mem ha')
      exact (h₂.reached a' ha').kept_trans (h₁.kept a'.id hne)

end Stretch

/-! ## One allocation -/

section Step

variable {vault asset : Address} {σ σ' : State}

/-- A market operation committed and then tokens moved leave the fee recipient. -/
theorem commit_move_feeRecipient {p : Position} {m' : Market} {mv : Movement}
    (hmove : move mv ((s.putPosition p).putMarket m') = .ok ((), s')) :
    s'.feeRecipient = s.feeRecipient := by
  obtain ⟨_, _, heq⟩ := move_tokensOnly _ _ () s' hmove
  rw [heq]
  rfl

/-- The vault's own supply or withdrawal on market `id`, framed as `StepFrame` says and under the
same fee recipient, is a stretch on that market once its idle balance is accounted for. -/
theorem StepFrame.moved {id : MarketId} {x : Nat} {totals totals₁ : Reallocation}
    (hframe : StepFrame id x σ σ') (hfee : σ'.feeRecipient = σ.feeRecipient)
    (hidle : (σ'.balanceOf vault asset).toNat +
        σ.idleShare vault (totals₁.supplied.toNat + totals.withdrawn.toNat) =
      (σ.balanceOf vault asset).toNat +
        σ.idleShare vault (totals₁.withdrawn.toNat + totals.supplied.toNat)) :
    Moved vault asset [id] totals totals₁ σ σ' :=
  ⟨hframe.wellFormed, hframe.registry, fun id' hid =>
    ⟨hframe.kept id' fun heq => hid (List.mem_singleton.mpr heq), hfee⟩, hidle⟩

/-- Reading the vault's supply on a market it lends on accrues the market, which touches no other
market and moves no token, and leaves it ready; what is read is the vault's supply there. -/
theorem suppliedAssets_moved (hs : s.WellFormed) {id : MarketId}
    (hlends : s.MarketLends vault asset id) {supplied : UInt256}
    (h : suppliedAssets vault id .down s = .ok (supplied, σ)) (totals : Reallocation) :
    Moved vault asset [id] totals totals s σ ∧ σ.MarketReady vault asset id ∧
      supplied.toNat = σ.supplied vault id .down := by
  obtain ⟨m, hacc, hvalue⟩ := suppliedAssets_inv h
  have hready := accrueMarket_ready hs hacc hlends
  have hm := accrueMarket_get? hacc hs
  have hkept : ∀ id', id' ∉ [id] → MarketKept id' s σ := fun id' hid =>
    accrueMarket_marketKept hs hacc fun heq => hid (List.mem_singleton.mpr heq)
  have hσ := accrueMarket_wellFormed hacc hs
  obtain ⟨markets, positions, rfl⟩ := accrueMarket_frame hacc
  refine ⟨⟨hσ, rfl, fun id' hid => ⟨hkept id' hid, rfl⟩, ?_⟩, hready, ?_⟩
  · rw [Nat.add_comm totals.supplied.toNat]
    rfl
  · rw [State.supplied_of_get? hm]
    exact Market.toSupplyAssets_toNat hvalue

/-- Above its target the vault withdraws the excess to itself, or all its shares for a zero
target: the flow takes at least the excess, so the vault's supply there ends at most at the
target, and the vault is paid its idle share of the flow. -/
theorem withdrawExcess_moved (hσ : σ.WellFormed) {id : MarketId}
    (hready : σ.MarketReady vault asset id) {supplied target : UInt256}
    (hsupplied : supplied.toNat = σ.supplied vault id .down) (hexcess : target.toNat < supplied.toNat)
    {flow : Flow}
    (h : withdraw vault (if target.isZero then
        vaultRequest vault id 0 (σ.position vault id).supplyShares (some vault)
      else vaultRequest vault id (supplied.zeroFloorSub target) 0 (some vault)) (pure ()) σ =
        .ok (flow, σ'))
    {totals : Reallocation} {withdrawn : UInt256}
    (htotal : withdrawn.toNat = totals.withdrawn.toNat + flow.assets.toNat) :
    Moved vault asset [id] totals { totals with withdrawn } σ σ' ∧
      σ'.supplied vault id .down ≤ target.toNat := by
  obtain ⟨m, hm, hclock, hloan, hheld⟩ := hready
  subst hloan
  have hflow : supplied.toNat - target.toNat ≤ flow.assets.toNat ∧
      flow.assets.toNat ≤ supplied.toNat := by
    split at h
    · next htarget =>
      have hzero : target.toNat = 0 := by simpa [UInt256.isZero] using htarget
      obtain ⟨-, ⟨shares, hshares, hresolve⟩, -, -⟩ := withdraw_current hσ h hm hclock
      have hall : shares = (σ.position vault id).supplyShares := by
        rcases hshares with rfl | rfl <;> simp [vaultRequest]
      rw [hall] at hresolve
      have hvalue := Market.toSupplyAssets_toNat
        (Market.resolve_of_shares (by simp [vaultRequest]) hresolve)
      rw [← State.supplied_of_get? hm, ← hsupplied] at hvalue
      omega
    · have hx : (supplied.zeroFloorSub target).toNat ≠ 0 := by
        rw [UInt256.toNat_zeroFloorSub]
        omega
      rw [vaultWithdraw_assets hσ hm hclock hx h, UInt256.toNat_zeroFloorSub]
      omega
  obtain ⟨assets, shares, hrequest⟩ : ∃ assets shares, (if target.isZero then
      vaultRequest vault id 0 (σ.position vault id).supplyShares (some vault)
    else vaultRequest vault id (supplied.zeroFloorSub target) 0 (some vault)) =
      vaultRequest vault id assets shares (some vault) := by
    split <;> exact ⟨_, _, rfl⟩
  rw [hrequest] at h
  have hwithdrawn := vaultWithdraw_withdrawn hσ ⟨m, hm, hclock, rfl, hheld⟩ h (by omega)
  obtain ⟨_, _, _, _, -, -, hmove⟩ := vaultWithdraw_inv hσ hm hclock h
  have hpaid := move_pays_vault ((hσ.putPosition _).putMarket _) hmove
  change (σ'.balanceOf vault m.params.loanToken).toNat =
    (σ.balanceOf vault m.params.loanToken).toNat + σ.idleShare vault flow.assets.toNat at hpaid
  refine ⟨hwithdrawn.toStepFrame.moved (commit_move_feeRecipient hmove) ?_, ?_⟩
  · rw [htotal]
    simp only [State.idleShare_add]
    omega
  · have hvalue := hwithdrawn.value .down
    omega

/-- Below its target the vault supplies to the market: the supply adds at most what it asks
for, and the vault pays its idle share of the flow. -/
theorem supplyShortfall_moved (hσ : σ.WellFormed) {id : MarketId}
    (hready : σ.MarketReady vault asset id) {x : UInt256} (hx : x.toNat ≠ 0) {flow : Flow}
    (h : supply vault (vaultRequest vault id x 0 none) (pure ()) σ = .ok (flow, σ'))
    {totals : Reallocation} {supplied : UInt256}
    (htotal : supplied.toNat = totals.supplied.toNat + flow.assets.toNat) :
    Moved vault asset [id] totals { totals with supplied } σ σ' ∧
      σ'.supplied vault id .down ≤ σ.supplied vault id .down + x.toNat := by
  obtain ⟨m, hm, hclock, hloan, hheld⟩ := hready
  subst hloan
  have hsupplied := vaultSupply_supplied hσ ⟨m, hm, hclock, rfl, hheld⟩ hx h
  have hle := vaultSupply_assets_le hσ hm hclock hx h
  obtain ⟨-, _, _, -, -, hmove⟩ := vaultSupply_flow hσ hm hclock hx h
  have hpaid := move_charges_vault ((hσ.putPosition _).putMarket _) hmove
  change (σ'.balanceOf vault m.params.loanToken).toNat + σ.idleShare vault flow.assets.toNat =
    (σ.balanceOf vault m.params.loanToken).toNat at hpaid
  refine ⟨hsupplied.toStepFrame.moved (commit_move_feeRecipient hmove) ?_, ?_⟩
  · rw [htotal]
    simp only [State.idleShare_add]
    omega
  · have hvalue := hsupplied.value .down
    omega

end Step

/-! ## The walk along the allocations -/

section Walk

variable {vault asset : Address}

/-- An allocation's stretch pieced together: the accrual that read the vault's supply on its
market as `supplied`, then a stretch on that market only that leaves the supply at most at the
target, and at it when it was read there. -/
theorem reallocated_of_read (hs : s.WellFormed) {a : Allocation} {supplied : UInt256}
    {totals totals₁ : Reallocation} {σ₀ s₁ : State}
    (hread : suppliedAssets vault a.id .down s = .ok (supplied, σ₀))
    (haccrued : Moved vault asset [a.id] totals totals s σ₀)
    (hmoved : Moved vault asset [a.id] totals totals₁ σ₀ s₁)
    (htarget : a.assets ≠ Int256.maxValue →
      s₁.supplied vault a.id .down ≤ (amountOf a.assets).toNat ∧
        (supplied = amountOf a.assets →
          s₁.supplied vault a.id .down = (amountOf a.assets).toNat)) :
    Reallocated vault asset [a] totals totals₁ s s₁ := by
  refine ⟨haccrued.trans hmoved, fun a' ha' hmax => ?_⟩
  rw [List.mem_singleton] at ha'
  subst ha'
  obtain ⟨hle, heq⟩ := htarget hmax
  exact ⟨hle, fun σ σ₀' hσ hkept hread' => heq (suppliedAssets_congr hσ hs hkept hread' hread)⟩

/-- One allocation: its market accrued and the vault's supply there read, the vault withdraws
the excess above the target, supplies the shortfall below it, or does nothing; the rest of the
walk goes on from where that leaves it. -/
theorem reallocateEach_cons_inv (hs : s.WellFormed) {a : Allocation}
    (hlends : s.MarketLends vault asset a.id) {rest : List Allocation} {totals r : Reallocation}
    (h : reallocateEach vault (a :: rest) totals s = .ok (r, s')) :
    ∃ totals₁ s₁, Reallocated vault asset [a] totals totals₁ s s₁ ∧
      reallocateEach vault rest totals₁ s₁ = .ok (r, s') := by
  rw [reallocateEach, read_bind] at h
  obtain ⟨config, -, h₁⟩ := (readOnly_lift _).bind_inv h
  obtain ⟨-, h₂⟩ := guard_inv h₁
  obtain ⟨supplied, σ₀, hread, h₃⟩ := bind_inv h₂
  obtain ⟨haccrued, hready, hsupplied⟩ := suppliedAssets_moved hs hlends hread totals
  have hσ₀ := haccrued.wellFormed
  dsimp only at h₃
  split at h₃
  · next hexcess =>
    have hexcess' : (amountOf a.assets).toNat < supplied.toNat := by
      have hne : (supplied.zeroFloorSub (amountOf a.assets)).toNat ≠ 0 := by
        simpa [UInt256.isZero] using hexcess
      rw [UInt256.toNat_zeroFloorSub] at hne
      omega
    rw [read_bind] at h₃
    obtain ⟨flow, σ₁, hw, h₄⟩ := bind_inv h₃
    obtain ⟨withdrawnTotal, htotal, h₅⟩ := arith_bind_inv h₄
    obtain ⟨hmoved, hle⟩ :=
      withdrawExcess_moved hσ₀ hready hsupplied hexcess' hw (UInt256.checkedAdd_toNat htotal)
    refine ⟨_, σ₁, reallocated_of_read hs hread haccrued hmoved fun _ => ⟨hle, fun heq => ?_⟩, h₅⟩
    rw [heq] at hexcess'
    exact absurd hexcess' (lt_irrefl _)
  · next hnoexcess =>
    have hbelow : supplied.toNat ≤ (amountOf a.assets).toNat := by
      have hzero : (supplied.zeroFloorSub (amountOf a.assets)).toNat = 0 := by
        simpa [UInt256.isZero] using hnoexcess
      rw [UInt256.toNat_zeroFloorSub] at hzero
      omega
    generalize htoSupply : (if (a.assets == Int256.maxValue) = true then
      totals.withdrawn.zeroFloorSub totals.supplied
      else (amountOf a.assets).zeroFloorSub supplied) = toSupply at h₃
    have hshortfall : a.assets ≠ Int256.maxValue →
        toSupply.toNat = (amountOf a.assets).toNat - supplied.toNat := by
      intro hmax
      rw [← htoSupply, if_neg (by simpa using hmax), UInt256.toNat_zeroFloorSub]
    split at h₃
    · next hzero =>
      have hnothing : toSupply.toNat = 0 := by simpa [UInt256.isZero] using hzero
      refine ⟨totals, σ₀, reallocated_of_read hs hread haccrued (Moved.refl hσ₀) fun hmax => ?_,
        h₃⟩
      have hmet := hshortfall hmax
      rw [← hsupplied]
      exact ⟨by omega, fun _ => by omega⟩
    · next hnonzero =>
      obtain ⟨-, h₄⟩ := guard_inv h₃
      obtain ⟨capped, -, h₅⟩ := arith_bind_inv h₄
      obtain ⟨-, h₆⟩ := guard_inv h₅
      obtain ⟨flow, σ₁, hsupply, h₇⟩ := bind_inv h₆
      obtain ⟨suppliedTotal, htotal, h₈⟩ := arith_bind_inv h₇
      have hx : toSupply.toNat ≠ 0 := by simpa [UInt256.isZero] using hnonzero
      obtain ⟨hmoved, hle⟩ :=
        supplyShortfall_moved hσ₀ hready hx hsupply (UInt256.checkedAdd_toNat htotal)
      refine ⟨_, σ₁, reallocated_of_read hs hread haccrued hmoved fun hmax => ⟨?_, fun heq => ?_⟩,
        h₈⟩
      · have hshort := hshortfall hmax
        rw [← hsupplied] at hle
        omega
      · have hshort := hshortfall hmax
        rw [heq, Nat.sub_self] at hshort
        exact absurd hshort hx

/-- The walk along allocations on distinct markets the vault lends on is `Reallocated`. -/
theorem reallocateEach_reallocated :
    ∀ (allocations : List Allocation) {totals r : Reallocation} {s s' : State}, s.WellFormed →
      (allocations.map (·.id)).Nodup → (∀ a ∈ allocations, s.MarketLends vault asset a.id) →
      reallocateEach vault allocations totals s = .ok (r, s') →
      Reallocated vault asset allocations totals r s s'
  | [], totals, r, s, s', hs, _, _, h => by
    rw [reallocateEach] at h
    obtain ⟨rfl, rfl⟩ := pure_inv h
    exact Reallocated.nil hs
  | a :: rest, totals, r, s, s', hs, hnodup, hlends, h => by
    rw [List.map_cons, List.nodup_cons] at hnodup
    obtain ⟨totals₁, s₁, hstep, hrest⟩ :=
      reallocateEach_cons_inv hs (hlends a List.mem_cons_self) h
    have hlends₁ : ∀ a' ∈ rest, s₁.MarketLends vault asset a'.id := by
      intro a' ha'
      have hne : a'.id ∉ [a].map (·.id) := by
        rw [List.map_singleton, List.mem_singleton]
        exact fun heq => hnodup.1 (heq ▸ List.mem_map_of_mem ha')
      exact (hstep.kept a'.id hne).toMarketKept.lends (hlends a' (List.mem_cons_of_mem a ha'))
    exact hstep.cons
      (reallocateEach_reallocated rest hstep.wellFormed hnodup.2 hlends₁ hrest) hnodup.1

end Walk

/-! ## A reallocation, whole -/

/-- A successful reallocation of a vault over distinct markets lending one asset, none with more
of the vault's supply shares than issued, keeps the vault's idle balance; each market with a target
ends with the vault's supply there at most at it, and exactly at it when it was there already. -/
theorem reallocation_keeps_idle_and_meets_targets (hs : s.WellFormed) {sender address : Address}
    {asset : Address} {allocations : List Allocation} (hnodup : (allocations.map (·.id)).Nodup)
    (hlends : ∀ a ∈ allocations, s.MarketLends address asset a.id)
    (h : reallocate sender address allocations s = .ok ((), s')) :
    s'.balanceOf address asset = s.balanceOf address asset ∧
      ∀ a ∈ allocations, a.assets ≠ Int256.maxValue →
        s'.supplied address a.id .down ≤ (amountOf a.assets).toNat ∧
        ∀ s₀, suppliedAssets address a.id .down s = .ok (amountOf a.assets, s₀) →
          s'.supplied address a.id .down = (amountOf a.assets).toNat := by
  obtain ⟨totals, hrun, hbalanced⟩ := reallocate_inv h
  have hwalk := reallocateEach_reallocated allocations hs hnodup hlends hrun
  refine ⟨hwalk.balanceOf_eq hbalanced, fun a ha hmax => ?_⟩
  obtain ⟨hle, heq⟩ := hwalk.reached a ha hmax
  exact ⟨hle, fun s₀ hread => heq s s₀ hs ((AccrualKept.composes a.id).refl s) hread⟩

namespace ReallocationSample

/-- The asset both sample markets lend. -/
def asset : Address := ⟨0x130, by decide⟩

def vault : Address := ⟨0x131, by decide⟩

/-- The vault's owner, who may reallocate. -/
def owner : Address := ⟨0x132, by decide⟩

/-- A market lending `asset` against `collateral`. -/
def lending (collateral : Address) : Market :=
  Market.new ⟨asset, collateral, ⟨0x135, by decide⟩, ⟨0x136, by decide⟩, 0⟩ 0

/-- A hundred supplied, all by the vault. -/
def source : Market :=
  { lending ⟨0x133, by decide⟩ with totalSupplyAssets := 100, totalSupplyShares := 100000000 }

/-- Nothing supplied yet. -/
def destination : Market := lending ⟨0x134, by decide⟩

/-- The vault with both markets enabled and capped at a thousand, all its hundred on `source`,
which the core contract holds. -/
def state : State :=
  let registry : Registry := ⟨⟨0x137, by decide⟩, ⟨0x138, by decide⟩, ⟨0x139, by decide⟩,
    ⟨0x13a, by decide⟩, ⟨0x13b, by decide⟩, none⟩
  ((((((State.new .ethereum ⟨0, 0⟩ registry).putMarket source).putMarket destination).putVault
    { Vault.new vault asset 0 with
        owner, supplyQueue := [source.id, destination.id],
        withdrawQueue := [source.id, destination.id], totalSupply := 100, totalAssets := 100,
        lastTotalAssets := 100 }).putVaultMarketConfig
    (VaultMarketConfig.new vault source.id 1000)).putVaultMarketConfig
    (VaultMarketConfig.new vault destination.id 1000)).putPosition
    { Position.empty vault source.id with supplyShares := 100000000 } |>.putHolding
    { Holding.empty registry.morpho asset with balance := 100 }

/-- Sixty of the hundred moved: `source` down to forty, and everything withdrawn to
`destination`. -/
def allocations : List Allocation :=
  [⟨source.id, Int256.ofBits 40⟩, ⟨destination.id, Int256.maxValue⟩]

theorem state_wellFormed : state.WellFormed :=
  ((((((State.new_wellFormed _ _ _).putMarket _).putMarket _).putVault _).putVaultMarketConfig
    _).putVaultMarketConfig _).putPosition _ |>.putHolding _

/-- Both markets on the book, the vault's shares on each within those issued. -/
theorem state_books : state.markets.get? source.id = some source ∧
    state.markets.get? destination.id = some destination ∧
    (state.position vault source.id).supplyShares.toNat ≤ source.totalSupplyShares.toNat ∧
    (state.position vault destination.id).supplyShares.toNat ≤
      destination.totalSupplyShares.toNat := by
  decide +kernel

theorem allocations_lend : ∀ a ∈ allocations, state.MarketLends vault asset a.id := by
  intro a ha
  rcases List.mem_pair.mp ha with rfl | rfl
  · exact ⟨source, state_books.1, rfl, state_books.2.2.1⟩
  · exact ⟨destination, state_books.2.1, rfl, state_books.2.2.2⟩

theorem allocations_nodup : (allocations.map (·.id)).Nodup := by
  have hne : source.id ≠ destination.id := fun heq => by
    have hdestination : state.markets.get? source.id = some destination := by
      rw [heq]
      exact state_books.2.1
    exact absurd (Option.some.inj (state_books.1.symm.trans hdestination)) (by decide +kernel)
  simpa [allocations] using hne

end ReallocationSample

open ReallocationSample in
/-- The sample reallocation succeeds; it leaves the vault's idle balance alone and takes `source`
to its target of forty. -/
theorem reallocation_keeps_idle_and_meets_targets_sample :
    ∃ s', reallocate owner vault allocations state = .ok ((), s') ∧
      s'.balanceOf vault asset = state.balanceOf vault asset ∧
      ∀ a ∈ allocations, a.assets ≠ Int256.maxValue →
        s'.supplied vault a.id .down ≤ (amountOf a.assets).toNat ∧
        ∀ s₀, suppliedAssets vault a.id .down state = .ok (amountOf a.assets, s₀) →
          s'.supplied vault a.id .down = (amountOf a.assets).toNat := by
  obtain ⟨⟨⟨⟩, s'⟩, h⟩ := Except.exists_eq_ok (x := reallocate owner vault allocations state)
    (by decide +kernel)
  exact ⟨s', h, reallocation_keeps_idle_and_meets_targets state_wellFormed allocations_nodup
    allocations_lend h⟩

end LendingSim
