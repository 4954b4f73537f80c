import LendingSim.Proofs.VaultQueues

/-!
# What a vault is worth between accruals

An accrual of a vault sets its total assets to what the vault is worth: its idle balance of its
asset and what it supplies on the markets of its queues, rounded down (`State.worth`), each market
of the withdraw queue counted as often as that queue lists it and each market found only in the
supply queue once. With a withdraw queue that lists no market twice, every market is counted
once, and this module assumes so. Between accruals the vault's own supplies and withdrawals only move assets
between its idle balance and its markets, and each market rounds in its own favour, so the
worth never grows along the vault's walks over its queues (`WorthKept`,
`supplyToMarkets_worthKept`, `withdrawFromMarkets_worthKept`).

A deposit records its assets on top of the worth the accrual found, and a withdrawal takes its
assets off it, so after either the vault is worth no more than it records and the next accrual
finds no interest to charge a fee on (`vault_flows_leave_no_interest`). That needs the vault to be
neither the core contract, whose supplies to itself leave its idle balance as it was, nor the
zero address, whose payments mint.

The same accrual is what readies a deposit's and a withdrawal's walks: each reaches its walk with
every market of the queue accrued to the block, and a deposit with its assets already held idle
(`depositPrefix_prepares`, `withdrawalPrefix_prepares`).
-/

namespace LendingSim

open Sim Perform

variable {s s' : State}

/-! ## The markets of a vault's queues -/

/-- Appending each market of a queue not listed yet: no market twice, and every market of either
list. -/
theorem foldl_appendNew (queue : List MarketId) :
    ∀ acc : List MarketId,
      (acc.Nodup →
        (queue.foldl (fun ids id => if ids.contains id then ids else ids ++ [id]) acc).Nodup) ∧
      ∀ id, id ∈ queue.foldl (fun ids id => if ids.contains id then ids else ids ++ [id]) acc ↔
        id ∈ acc ∨ id ∈ queue := by
  induction queue with
  | nil => exact fun acc => ⟨id, fun id => by simp⟩
  | cons q rest ih =>
    intro acc
    obtain ⟨hnodup, hmem⟩ := ih (if acc.contains q then acc else acc ++ [q])
    have hstep : ∀ id, id ∈ (if acc.contains q then acc else acc ++ [q]) ↔ id ∈ acc ∨ id = q := by
      intro id
      split
      · next hq =>
        have hq : q ∈ acc := by simpa using hq
        constructor
        · exact .inl
        · rintro (h | rfl)
          · exact h
          · exact hq
      · simp
    refine ⟨fun hacc => hnodup ?_, fun id => ?_⟩
    · split
      · exact hacc
      · next hq =>
        have hq : q ∉ acc := by simpa using hq
        exact List.nodup_append.mpr ⟨hacc, List.nodup_singleton q, fun a ha b hb => by
          rw [List.mem_singleton] at hb
          rintro rfl
          exact hq (hb ▸ ha)⟩
    · rw [List.foldl_cons, hmem, hstep, List.mem_cons]
      tauto

/-- The markets a vault's accrual counts are those of its withdraw queue and of its supply queue. -/
theorem mem_accrualMarkets {v : Vault} {id : MarketId} :
    id ∈ accrualMarkets v ↔ id ∈ v.withdrawQueue ∨ id ∈ v.supplyQueue :=
  (foldl_appendNew v.supplyQueue v.withdrawQueue).2 id

/-- A vault's accrual counts each market once when its withdraw queue has none twice. -/
theorem accrualMarkets_nodup {v : Vault} (h : v.withdrawQueue.Nodup) : (accrualMarkets v).Nodup :=
  (foldl_appendNew v.supplyQueue v.withdrawQueue).1 h

/-! ## Sums over distinct markets -/

/-- A sum over a list without repeats, with one term changed by a bounded amount and no other
term changed. -/
theorem sum_map_le_of_eq_off {ids : List MarketId} (hnodup : ids.Nodup) {f g : MarketId → Nat}
    {i : MarketId} {a b : Nat} (hi : i ∈ ids) (hoff : ∀ j ∈ ids, j ≠ i → g j = f j)
    (hle : g i + a ≤ f i + b) : (ids.map g).sum + a ≤ (ids.map f).sum + b := by
  obtain ⟨l₁, l₂, rfl⟩ := List.append_of_mem hi
  obtain ⟨hnot, -⟩ := List.nodup_cons.mp (List.nodup_middle.mp hnodup)
  rw [List.mem_append, not_or] at hnot
  have hsame : ∀ l : List MarketId, i ∉ l → (∀ j ∈ l, j ∈ l₁ ++ i :: l₂) → l.map g = l.map f :=
    fun l hl hsub => List.map_congr_left fun j hj => hoff j (hsub j hj) fun h => hl (h ▸ hj)
  rw [List.map_append, List.map_append, List.map_cons, List.map_cons,
    hsame l₁ hnot.1 fun j hj => List.mem_append_left _ hj,
    hsame l₂ hnot.2 fun j hj => List.mem_append_right _ (List.mem_cons_of_mem _ hj)]
  simp only [List.sum_append, List.sum_cons]
  omega

/-! ## The worth of a vault -/

namespace State

/-- What the vault at `vault` is worth over the markets `ids`, as its accrual counts it: its idle
balance of `asset` and what it supplies on each of them, rounded down. -/
def worth (s : State) (vault asset : Address) (ids : List MarketId) : Nat :=
  (s.balanceOf vault asset).toNat + (ids.map (s.supplied vault · .down)).sum

/-- Market `id` is on the book, lends `asset`, and the vault holds no more of its supply shares
than it has issued: ready for the vault but for its accrual. -/
def MarketLends (s : State) (vault asset : Address) (id : MarketId) : Prop :=
  ∃ m, s.markets.get? id = some m ∧ m.params.loanToken = asset ∧
    (s.position vault id).supplyShares.toNat ≤ m.totalSupplyShares.toNat

theorem MarketReady.lends {vault asset : Address} {id : MarketId}
    (h : s.MarketReady vault asset id) : s.MarketLends vault asset id := by
  obtain ⟨m, hm, -, hloan, hheld⟩ := h
  exact ⟨m, hm, hloan, hheld⟩

end State

theorem MarketKept.lends {id : MarketId} (h : MarketKept id s s') {vault asset : Address}
    (hl : s.MarketLends vault asset id) : s'.MarketLends vault asset id := by
  obtain ⟨m, hm, hloan, hheld⟩ := hl
  exact ⟨m, h.market.trans hm, hloan, by rw [h.position]; exact hheld⟩

section Worth

variable {vault asset : Address} {ids : List MarketId}

/-- Markets left alone and an idle balance not raised leave the vault worth no more. -/
theorem worth_le_of_kept (hkept : ∀ id ∈ ids, MarketKept id s s')
    (hidle : (s'.balanceOf vault asset).toNat ≤ (s.balanceOf vault asset).toNat) :
    s'.worth vault asset ids ≤ s.worth vault asset ids := by
  unfold State.worth
  rw [List.map_congr_left fun id hid => (hkept id hid).supplied vault .down]
  omega

/-- What the vault's own walks along its queues keep: from a well-formed state where the markets
`ids` are ready and the vault is not the core contract, the state stays well formed under the
same registry, the markets stay ready, and the vault's worth over them does not grow. -/
def WorthKept (vault asset : Address) (ids : List MarketId) (s s' : State) : Prop :=
  s.WellFormed → (∀ id ∈ ids, s.MarketReady vault asset id) → vault ≠ s.registry.morpho →
    s'.WellFormed ∧ s'.registry = s.registry ∧ (∀ id ∈ ids, s'.MarketReady vault asset id) ∧
      s'.worth vault asset ids ≤ s.worth vault asset ids

theorem worthKept_composes : Composes (WorthKept vault asset ids) where
  refl s hs hready _ := ⟨hs, rfl, hready, le_rfl⟩
  trans h₁₂ h₂₃ hs hready hmorpho := by
    obtain ⟨hs₂, hregistry₂, hready₂, hworth₂⟩ := h₁₂ hs hready hmorpho
    obtain ⟨hs₃, hregistry₃, hready₃, hworth₃⟩ := h₂₃ hs₂ hready₂ (by rw [hregistry₂]; exact hmorpho)
    exact ⟨hs₃, hregistry₃.trans hregistry₂, hready₃, hworth₃.trans hworth₂⟩

/-- Accruing a market leaves the ready markets alone, since they are current, and moves no
token. -/
theorem accrueMarket_worthKept (id : MarketId) :
    Keeps (WorthKept vault asset ids) (accrueMarket id) := by
  intro s m s' h hs hready _
  have hkept : ∀ id' ∈ ids, MarketKept id' s s' := by
    intro id' hid
    by_cases hne : id' = id
    · subst hne
      obtain ⟨m₀, hm₀, hclock, -, -⟩ := hready id' hid
      rw [accrueMarket_current hs hm₀ hclock] at h
      cases h
      exact (MarketKept.composes id').refl s
    · exact accrueMarket_marketKept hs h hne
  obtain ⟨markets, positions, hframe⟩ := accrueMarket_frame h
  refine ⟨accrueMarket_wellFormed h hs, by rw [hframe], fun id' hid => (hkept id' hid).ready
    (hready id' hid), worth_le_of_kept hkept ?_⟩
  rw [hframe]
  exact le_rfl

/-! ## What a movement does to a balance -/

/-- The allowance spent before a debit moves no balance. -/
theorem spend_side {m : Movement} {s₁ : State} (hs : s.WellFormed)
    (hspend : if m.source ≠ .zero ∧ m.sender ≠ m.source then
      spendAllowance m.token m.source m.sender m.amount s = .ok ((), s₁) else s₁ = s) :
    s₁.WellFormed ∧ ∀ user token, s₁.balanceOf user token = s.balanceOf user token := by
  split at hspend
  · refine ⟨?_, spendAllowance_balanceOf hs hspend⟩
    rcases spendAllowance_inv hspend with ⟨rfl, -⟩ | ⟨-, -, -, -, -, rfl⟩ | ⟨-, -, -, -, rfl⟩
    · exact hs
    · exact hs.putHolding _
    · exact hs.putVaultUser _
  · subst hspend
    exact ⟨hs, fun _ _ => rfl⟩

/-- A source other than the zero address, paying someone else, loses exactly the amount, whoever
moves it. -/
theorem move_takes_from_source {m : Movement} (hs : s.WellFormed) (h : move m s = .ok ((), s'))
    (hsource : m.source ≠ .zero) (hne : m.source ≠ m.destination) :
    (s'.balanceOf m.source m.token).toNat + m.amount.toNat =
      (s.balanceOf m.source m.token).toNat := by
  obtain ⟨s₁, s₂, hspend, hdebit, hcredit⟩ := move_inv h
  obtain ⟨hs₁, hbalance⟩ := spend_side hs hspend
  rw [if_pos hsource] at hdebit
  obtain ⟨b, hb, rfl⟩ := debit_inv hdebit
  have hpaid : s'.balanceOf m.source m.token = b := by
    split at hcredit
    · obtain ⟨-, c, -, rfl⟩ := credit_inv hcredit
      rw [balanceOf_putHolding_other (hs₁.putHolding _) hne, balanceOf_putHolding_self hs₁]
    · rw [hcredit, balanceOf_putHolding_self hs₁]
  rw [hpaid, ← hbalance]
  exact hb

/-- A movement leaves its destination, unless that is the zero address, holding at least the
amount: the credit comes last. -/
theorem move_destination_holds {m : Movement} (hs : s.WellFormed) (h : move m s = .ok ((), s'))
    (hdestination : m.destination ≠ .zero) :
    m.amount.toNat ≤ (s'.balanceOf m.destination m.token).toNat := by
  obtain ⟨s₁, s₂, hspend, hdebit, hcredit⟩ := move_inv h
  obtain ⟨hs₂, -⟩ := move_source_side hs hspend hdebit
  rw [if_pos hdestination] at hcredit
  obtain ⟨-, b, hb, rfl⟩ := credit_inv hcredit
  rw [balanceOf_putHolding_self hs₂, hb]
  omega

/-- A movement raises anyone's balance of any token by at most its amount. -/
theorem move_balanceOf_le_add (hs : s.WellFormed) {mv : Movement} (h : move mv s = .ok ((), s'))
    (user token : Address) :
    (s'.balanceOf user token).toNat ≤ (s.balanceOf user token).toNat + mv.amount.toNat := by
  obtain ⟨s₁, s₂, hspend, hdebit, hcredit⟩ := move_inv h
  obtain ⟨hs₁, hbalance⟩ := spend_side hs hspend
  have hdebited : s₂.WellFormed ∧ (s₂.balanceOf user token).toNat ≤ (s₁.balanceOf user token).toNat := by
    split at hdebit
    · obtain ⟨b, hb, rfl⟩ := debit_inv hdebit
      refine ⟨hs₁.putHolding _, ?_⟩
      rw [balanceOf_putHolding_eq hs₁]
      split
      · next heq =>
        obtain ⟨rfl, rfl⟩ := heq
        omega
      · exact le_rfl
    · subst hdebit
      exact ⟨hs₁, le_rfl⟩
  have hcredited :
      (s'.balanceOf user token).toNat ≤ (s₂.balanceOf user token).toNat + mv.amount.toNat := by
    split at hcredit
    · obtain ⟨-, b, hb, rfl⟩ := credit_inv hcredit
      rw [balanceOf_putHolding_eq hdebited.1]
      split
      · next heq =>
        obtain ⟨rfl, rfl⟩ := heq
        omega
      · omega
    · subst hcredit
      omega
  rw [hbalance] at hdebited
  omega

/-! ## One step of the vault -/

section Step

variable (hs : s.WellFormed) (hready : ∀ id ∈ ids, s.MarketReady vault asset id)
  (hmorpho : vault ≠ s.registry.morpho) (hzero : vault ≠ .zero) (hnodup : ids.Nodup)
include hs hready hmorpho hzero hnodup

/-- The vault's own supply committed to a current market and paid for: the market, if one of
`ids`, gains in the vault's supply at most what the vault pays, and the vault pays from its idle
balance. -/
theorem supply_commit_worth {id : MarketId} {market market' : Market}
    (hm : s.markets.get? id = some market) {assets shares : UInt256} {flow : Flow}
    (hop : (Market.supply assets shares).apply market = .ok (flow, market'))
    {supplyShares : UInt256}
    (hshares : supplyShares.toNat = (s.position vault id).supplyShares.toNat + flow.shares.toNat)
    (hmove : move ⟨market.params.loanToken, s.registry.morpho, vault, s.registry.morpho, flow.assets⟩
      ((s.putPosition { s.position vault id with supplyShares }).putMarket market') = .ok ((), s')) :
    s'.WellFormed ∧ s'.registry = s.registry ∧ (∀ id ∈ ids, s'.MarketReady vault asset id) ∧
      s'.worth vault asset ids ≤ s.worth vault asset ids := by
  obtain ⟨tsa, tss, rfl, htsa, htss, hround⟩ := Market.supply_inv hop
  obtain ⟨huser, hid⟩ := hs.position_user vault id
  obtain ⟨hmarket, hposition, hframe⟩ :=
    commit_move_step hs hmove (Prod.ext huser hid) (show market.id = id from hs.market_id hm)
  have hs₁ := (hs.putPosition { s.position vault id with supplyShares }).putMarket
    { market with totalSupplyAssets := tsa, totalSupplyShares := tss }
  refine ⟨hframe.wellFormed, hframe.registry, ?_⟩
  by_cases hmem : id ∈ ids
  · obtain ⟨m, hm', hclock, rfl, hheld⟩ := hready id hmem
    obtain rfl : m = market := Option.some.inj (hm'.symm.trans hm)
    have hreadyId : s'.MarketReady vault m.params.loanToken id := by
      refine ⟨_, hmarket, by rw [hframe.block]; exact hclock, rfl, ?_⟩
      rw [hposition]
      show supplyShares.toNat ≤ tss.toNat
      omega
    refine ⟨fun id' hid' => ?_, ?_⟩
    · by_cases hne : id' = id
      · exact hne ▸ hreadyId
      · exact (hframe.kept id' hne).ready (hready id' hid')
    have hvalue : s'.supplied vault id .down ≤ s.supplied vault id .down + flow.assets.toNat := by
      rw [State.supplied_of_get? hmarket, State.supplied_of_get? hm, hposition]
      show Market.supplyValue _ supplyShares.toNat .down ≤ _
      rw [hshares]
      exact Market.supplyValue_supply .down hheld hround htsa htss
    have hpaid := move_takes_from_source hs₁ hmove hzero hmorpho
    have hsum := sum_map_le_of_eq_off hnodup hmem
      (f := (s.supplied vault · .down)) (g := (s'.supplied vault · .down))
      (fun j _ hne => (hframe.kept j hne).supplied vault .down) (a := 0) hvalue
    unfold State.worth
    change (s'.balanceOf vault m.params.loanToken).toNat + flow.assets.toNat =
      (s.balanceOf vault m.params.loanToken).toNat at hpaid
    omega
  · have hkept : ∀ id' ∈ ids, MarketKept id' s s' :=
      fun id' hid' => hframe.kept id' fun h => hmem (h ▸ hid')
    refine ⟨fun id' hid' => (hkept id' hid').ready (hready id' hid'), worth_le_of_kept hkept ?_⟩
    by_cases hloan : market.params.loanToken = asset
    · have hpaid := move_takes_from_source hs₁ hmove hzero hmorpho
      change (s'.balanceOf vault market.params.loanToken).toNat + flow.assets.toNat =
        (s.balanceOf vault market.params.loanToken).toNat at hpaid
      rw [hloan] at hpaid
      omega
    · rw [move_balanceOf_of_ne hs₁ hmove vault (Ne.symm hloan)]
      exact le_rfl

/-- The vault's own withdrawal to itself from a current market of `ids`, committed and paid: the
vault's supply there falls by at least what its idle balance gains. -/
theorem withdraw_commit_worth {id : MarketId} (hmem : id ∈ ids) {market market' : Market}
    (hm : s.markets.get? id = some market) {assets shares : UInt256} {flow : Flow}
    (hop : (Market.withdraw assets shares).apply market = .ok (flow, market'))
    {supplyShares : UInt256}
    (hshares : supplyShares.toNat + flow.shares.toNat = (s.position vault id).supplyShares.toNat)
    (hmove : move ⟨market.params.loanToken, s.registry.morpho, s.registry.morpho, vault, flow.assets⟩
      ((s.putPosition { s.position vault id with supplyShares }).putMarket market') = .ok ((), s')) :
    s'.WellFormed ∧ s'.registry = s.registry ∧ (∀ id ∈ ids, s'.MarketReady vault asset id) ∧
      s'.worth vault asset ids ≤ s.worth vault asset ids := by
  obtain ⟨tsa, tss, rfl, htsa, hle, htss, hsle, hround⟩ := Market.withdraw_inv hop
  obtain ⟨m, hm', hclock, rfl, hheld⟩ := hready id hmem
  obtain rfl : m = market := Option.some.inj (hm'.symm.trans hm)
  obtain ⟨huser, hid⟩ := hs.position_user vault id
  obtain ⟨hmarket, hposition, hframe⟩ :=
    commit_move_step hs hmove (Prod.ext huser hid) (show m.id = id from hs.market_id hm)
  have hs₁ := (hs.putPosition { s.position vault id with supplyShares }).putMarket
    { m with totalSupplyAssets := tsa, totalSupplyShares := tss }
  have hreadyId : s'.MarketReady vault m.params.loanToken id := by
    refine ⟨_, hmarket, by rw [hframe.block]; exact hclock, rfl, ?_⟩
    rw [hposition]
    show supplyShares.toNat ≤ tss.toNat
    omega
  refine ⟨hframe.wellFormed, hframe.registry, fun id' hid' => ?_, ?_⟩
  · by_cases hne : id' = id
    · exact hne ▸ hreadyId
    · exact (hframe.kept id' hne).ready (hready id' hid')
  have hvalue : s'.supplied vault id .down + flow.assets.toNat ≤ s.supplied vault id .down := by
    rw [State.supplied_of_get? hmarket, State.supplied_of_get? hm, hposition]
    show Market.supplyValue _ supplyShares.toNat .down + _ ≤ _
    have htaken : flow.shares.toNat ≤ (s.position vault id).supplyShares.toNat := by omega
    rw [show supplyShares.toNat = (s.position vault id).supplyShares.toNat - flow.shares.toNat by
      omega]
    exact Market.supplyValue_withdraw .down hheld
      (hround.trans (Nat.mul_le_mul_right _ htaken)) hround htaken
      (show tsa.toNat + flow.assets.toNat = _ by omega)
      (show tss.toNat + flow.shares.toNat = _ by omega)
  have hgained := move_credits_destination hs₁ hmove hzero hmorpho
  have hsum := sum_map_le_of_eq_off hnodup hmem
    (f := (s.supplied vault · .down)) (g := (s'.supplied vault · .down))
    (fun j _ hne => (hframe.kept j hne).supplied vault .down) (b := 0) hvalue
  unfold State.worth
  change (s'.balanceOf vault m.params.loanToken).toNat =
    (s.balanceOf vault m.params.loanToken).toNat + flow.assets.toNat at hgained
  omega

end Step

/-- The vault's own supply, of whatever a request asks, keeps its worth from growing. -/
theorem supply_worthKept (hzero : vault ≠ .zero) (hnodup : ids.Nodup) (request : MarketRequest)
    (honBehalf : request.onBehalf = vault) :
    Keeps (WorthKept vault asset ids) (supply vault request (pure ())) := by
  intro s flow s' h hs hready hmorpho
  obtain ⟨market, market', s₁, s₂, assets, supplyShares, hacc, hop, hshares, hcb, hmove⟩ :=
    supply_inv h
  obtain ⟨-, rfl⟩ := pure_inv hcb
  obtain ⟨hs₁, hregistry₁, hready₁, hworth₁⟩ :=
    accrueMarket_worthKept request.id s market s₁ hacc hs hready hmorpho
  rw [honBehalf] at hshares hmove
  obtain ⟨hs', hregistry', hready', hworth'⟩ :=
    supply_commit_worth hs₁ hready₁ (by rw [hregistry₁]; exact hmorpho) hzero hnodup
      (accrueMarket_get? hacc hs) hop hshares hmove
  exact ⟨hs', hregistry'.trans hregistry₁, hready', hworth'.trans hworth₁⟩

/-- The vault's own withdrawal to itself from a market of `ids`, of whatever a request asks,
keeps its worth from growing. -/
theorem withdraw_worthKept (hzero : vault ≠ .zero) (hnodup : ids.Nodup) (request : MarketRequest)
    (honBehalf : request.onBehalf = vault) (hreceiver : request.receiver = some vault)
    (hmem : request.id ∈ ids) :
    Keeps (WorthKept vault asset ids) (withdraw vault request (pure ())) := by
  intro s flow s' h hs hready hmorpho
  obtain ⟨-, market, market', s₁, s₂, shares, supplyShares, hacc, hop, -, -, hshares, hcb,
    hmove⟩ := withdraw_inv h
  obtain ⟨-, rfl⟩ := pure_inv hcb
  obtain ⟨hs₁, hregistry₁, hready₁, hworth₁⟩ :=
    accrueMarket_worthKept request.id s market s₁ hacc hs hready hmorpho
  rw [honBehalf] at hshares hmove
  rw [hreceiver, Option.getD_some] at hmove
  obtain ⟨hs', hregistry', hready', hworth'⟩ :=
    withdraw_commit_worth hs₁ hready₁ (by rw [hregistry₁]; exact hmorpho) hzero hnodup hmem
      (accrueMarket_get? hacc hs) hop hshares hmove
  exact ⟨hs', hregistry'.trans hregistry₁, hready', hworth'.trans hworth₁⟩

/-! ## Along the queues -/

/-- The vault's walk along its supply queue keeps its worth over `ids` from growing. -/
theorem supplyToMarkets_worthKept (hzero : vault ≠ .zero) (hnodup : ids.Nodup)
    (queue : List MarketId) (remaining : UInt256) :
    Keeps (WorthKept vault asset ids) (supplyToMarkets vault queue remaining) :=
  supplyToMarkets_keeps worthKept_composes vault accrueMarket_worthKept
    (fun request honBehalf => supply_worthKept hzero hnodup request honBehalf) queue remaining

/-- The vault's walk along a withdraw queue drawn from `ids` keeps its worth over `ids` from
growing. -/
theorem withdrawFromMarkets_worthKept (hzero : vault ≠ .zero) (hnodup : ids.Nodup)
    {queue : List MarketId} (hsub : ∀ id ∈ queue, id ∈ ids) (remaining : UInt256) :
    Keeps (WorthKept vault asset ids) (withdrawFromMarkets vault queue remaining) :=
  withdrawFromMarkets_keeps_of_subset worthKept_composes vault accrueMarket_worthKept ids
    (fun request honBehalf hreceiver hmem =>
      withdraw_worthKept hzero hnodup request honBehalf hreceiver hmem) queue hsub remaining

/-! ## Accruing the vault -/

/-- Accruing a market the vault lends on makes it ready: fee shares the vault earns come with as
many shares issued. -/
theorem accrueMarket_ready (hs : s.WellFormed) {id : MarketId} {m : Market}
    (h : accrueMarket id s = .ok (m, s')) (hlends : s.MarketLends vault asset id) :
    s'.MarketReady vault asset id := by
  obtain ⟨m₀, hm₀, hloan, hheld⟩ := hlends
  have hget := accrueMarket_get? h hs
  have hclock := accrueMarket_lastUpdate h
  obtain ⟨m₁, accrual, s₁, hm₁, hacc, hfee, rfl⟩ := accrueMarket_inv h
  obtain rfl : m₁ = m₀ := Option.some.inj (hm₁.symm.trans hm₀)
  have haccrued := Market.accrue_inv hacc
  refine ⟨m, hget, hclock, by rw [haccrued.params]; exact hloan, ?_⟩
  show (s₁.position vault id).supplyShares.toNat ≤ m.totalSupplyShares.toNat
  rw [haccrued.totalSupplyShares]
  rcases hfee with ⟨-, rfl⟩ | ⟨total, htotal, rfl⟩
  · omega
  · rw [State.position_putPosition]
    split
    · next heq =>
      have hvault : vault = s.feeRecipient := (Prod.mk.inj heq).1.trans (hs.position_user _ _).1
      show total.toNat ≤ _
      rw [htotal, ← hvault]
      omega
    · omega

/-- One step of adding up the vault's supply: the market is accrued, and what the vault supplies
on it then, rounded down, is what it still supplies there when the pass ends, since the rest of
the pass leaves a current market alone. -/
theorem addSupplied_cons_inv (hs : s.WellFormed) {id : MarketId} {rest : List MarketId}
    {total T : UInt256} (h : addSupplied vault total (id :: rest) s = .ok (T, s')) :
    ∃ m s₁ total₁, accrueMarket id s = .ok (m, s₁) ∧
      addSupplied vault total₁ rest s₁ = .ok (T, s') ∧
      total₁.toNat = total.toNat + s'.supplied vault id .down ∧ MarketKept id s₁ s' := by
  rw [addSupplied] at h
  obtain ⟨x, s₁, hsupplied, h₁⟩ := bind_inv h
  obtain ⟨total₁, hsum, h₂⟩ := arith_bind_inv h₁
  obtain ⟨m, hacc, hx⟩ := suppliedAssets_inv hsupplied
  have hm₁ := accrueMarket_get? hacc hs
  have hclock := accrueMarket_lastUpdate hacc
  obtain ⟨-, hblock, hcurrent⟩ := addSupplied_keeps (Guarded.composes CurrentKept.composes)
    vault accrueMarket_currentKept rest total₁ s₁ T s' h₂ (accrueMarket_wellFormed hacc hs)
  have hkept : MarketKept id s₁ s' :=
    ⟨hblock, (hcurrent id m hm₁ hclock).1.trans hm₁.symm, (hcurrent id m hm₁ hclock).2⟩
  refine ⟨m, s₁, total₁, hacc, h₂, ?_, hkept⟩
  rw [UInt256.checkedAdd_toNat hsum, hkept.supplied, State.supplied_of_get? hm₁,
    Market.toSupplyAssets_toNat hx]

/-- Adding up the vault's supply adds to `total` what the vault supplies, rounded down, when the
pass ends, on each market as many times as the list names it. -/
theorem addSupplied_total :
    ∀ {ids : List MarketId} {total T : UInt256} {s s' : State}, s.WellFormed →
      addSupplied vault total ids s = .ok (T, s') →
      T.toNat = total.toNat + (ids.map (s'.supplied vault · .down)).sum
  | [], total, T, s, s', _, h => by
    obtain ⟨rfl, rfl⟩ := pure_inv h
    simp
  | id :: rest, total, T, s, s', hs, h => by
    obtain ⟨m, s₁, total₁, hacc, h₂, htotal₁, -⟩ := addSupplied_cons_inv hs h
    rw [addSupplied_total (accrueMarket_wellFormed hacc hs) h₂, htotal₁, List.map_cons,
      List.sum_cons]
    omega

/-- Adding up the vault's supply over markets it lends on, none twice, accrues each, leaving it
ready, and adds to `total` what the vault supplies on them afterwards, rounded down. -/
theorem addSupplied_worth :
    ∀ {ids : List MarketId} {total T : UInt256} {s s' : State}, s.WellFormed → ids.Nodup →
      (∀ id ∈ ids, s.MarketLends vault asset id) → addSupplied vault total ids s = .ok (T, s') →
      T.toNat = total.toNat + (ids.map (s'.supplied vault · .down)).sum ∧
        ∀ id ∈ ids, s'.MarketReady vault asset id
  | [], total, T, s, s', hs, _, _, h =>
    ⟨addSupplied_total hs h, fun _ hid => absurd hid List.not_mem_nil⟩
  | id :: rest, total, T, s, s', hs, hnodup, hlends, h => by
    obtain ⟨m, s₁, total₁, hacc, h₂, -, hkept⟩ := addSupplied_cons_inv hs h
    obtain ⟨hnot, hnodup'⟩ := List.nodup_cons.mp hnodup
    have hlends₁ : ∀ id' ∈ rest, s₁.MarketLends vault asset id' := fun id' hid =>
      (accrueMarket_marketKept hs hacc fun h => hnot (h ▸ hid)).lends
        (hlends id' (List.mem_cons_of_mem id hid))
    have hready' := (addSupplied_worth (accrueMarket_wellFormed hacc hs) hnodup' hlends₁ h₂).2
    refine ⟨addSupplied_total hs h, fun id' hid => ?_⟩
    rcases List.mem_cons.mp hid with rfl | hid
    · exact hkept.ready (accrueMarket_ready hs hacc (hlends id' List.mem_cons_self))
    · exact hready' id' hid

/-- Accruing a vault that lends on every market of its queues, none twice, leaves those markets
ready and stores the vault with its total assets, also recorded as its last, exactly what it is
then worth. -/
theorem accrueVault_worth (hs : s.WellFormed) {v v' : Vault}
    (hvault : s.vaults.get? vault = some v) (hasset : v.asset ≠ vault)
    (hnodup : (accrualMarkets v).Nodup)
    (hlends : ∀ id ∈ accrualMarkets v, s.MarketLends vault v.asset id)
    (h : accrueVault vault s = .ok (v', s')) :
    ∃ totalSupply totalAssets : UInt256,
      v' = { v with totalSupply, totalAssets, lastTotalAssets := totalAssets } ∧
      s'.WellFormed ∧ s'.registry = s.registry ∧
      (∀ id ∈ accrualMarkets v, s'.MarketReady vault v.asset id) ∧
      s'.worth vault v.asset (accrualMarkets v) = totalAssets.toNat := by
  obtain ⟨v₀, totalAssets, totalSupply, s₁, s₂, hv₀, hadd, hfee, rfl, rfl⟩ := accrueVault_inv h
  obtain rfl : v₀ = v := Option.some.inj (hv₀.symm.trans hvault)
  obtain ⟨hsum, hready₁⟩ := addSupplied_worth hs hnodup hlends hadd
  obtain ⟨hs₁, markets₁, positions₁, hframe₁⟩ := addSupplied_frame hs hadd
  obtain ⟨hs₂, ⟨holdings₂, vaultUsers₂, hframe₂⟩, hidle⟩ := feeMinted_frame hfee hs₁ hasset
  have hkept : ∀ id, MarketKept id s₁
      (s₂.putVault { v₀ with totalSupply, totalAssets, lastTotalAssets := totalAssets }) := by
    intro id
    rw [hframe₂]
    exact ⟨rfl, rfl, fun _ => rfl⟩
  refine ⟨totalSupply, totalAssets, rfl, hs₂.putVault _, by rw [hframe₂, hframe₁]; rfl,
    fun id hid => (hkept id).ready (hready₁ id hid), ?_⟩
  unfold State.worth
  rw [List.map_congr_left fun id _ => (hkept id).supplied vault .down, hsum]
  change (s₂.balanceOf vault v₀.asset).toNat + _ = _
  rw [hidle, hframe₁]
  rfl

/-- Adding up the vault's supply over ready markets accrues nothing: it fails only by overflow,
and otherwise leaves the state as it was and adds to `total` what the vault supplies on them,
rounded down. -/
theorem addSupplied_ready (hs : s.WellFormed) :
    ∀ {ids : List MarketId} {total : UInt256}, (∀ id ∈ ids, s.MarketReady vault asset id) →
      wp (addSupplied vault total ids) (fun T s' => s' = s ∧
        T.toNat = total.toNat + (ids.map (s.supplied vault · .down)).sum) Fault.IsOverflow s
  | [], total, _ => by
    rw [addSupplied, wp_pure]
    exact ⟨rfl, by simp⟩
  | id :: rest, total, hready => by
    obtain ⟨m, hm, hclock, -, -⟩ := hready id List.mem_cons_self
    rw [addSupplied, wp_bind]
    refine wp_mono (fun x s₁ hx => ?_) (fun _ he => he) (suppliedAssets_current hs hm hclock .down)
    obtain ⟨hs₁, hx⟩ := hx
    rw [hs₁, wp_bind, wp_arith]
    refine ⟨fun total₁ hsum => ?_, fun e he => .inl (by rw [UInt256.checkedAdd_error he])⟩
    refine wp_mono (fun T s' hT => ?_) (fun _ he => he)
      (addSupplied_ready hs fun id' hid => hready id' (List.mem_cons_of_mem id hid))
    refine ⟨hT.1, ?_⟩
    rw [hT.2, UInt256.checkedAdd_toNat hsum, List.map_cons, List.sum_cons,
      State.supplied_of_get? hm, ← Market.toSupplyAssets_toNat hx]
    omega

/-- Accruing a vault whose markets are all ready and which is worth no more than it records
finds no interest: it fails only by overflow, and otherwise stores the vault with its total
assets set to its worth, and nothing else. -/
theorem accrueVault_no_interest (hs : s.WellFormed) {v : Vault}
    (hvault : s.vaults.get? vault = some v)
    (hready : ∀ id ∈ accrualMarkets v, s.MarketReady vault v.asset id)
    (hworth : s.worth vault v.asset (accrualMarkets v) ≤ v.lastTotalAssets.toNat) :
    wp (accrueVault vault) (fun v' s' => ∃ totalAssets : UInt256,
        totalAssets.toNat = s.worth vault v.asset (accrualMarkets v) ∧
        v' = { v with totalAssets, lastTotalAssets := totalAssets } ∧ s' = s.putVault v')
      Fault.IsOverflow s := by
  have hread : s.vault vault = .ok v := by
    unfold State.vault
    rw [hvault]
  unfold accrueVault
  rw [wp_read, hread, wp_bind,
    wp_of_eq_ok (show (lift (.ok v) : Sim Vault) s = .ok (v, s) from rfl)]
  dsimp only
  rw [wp_read, wp_bind]
  refine wp_mono (fun T s₁ hT => ?_) (fun _ he => he) (addSupplied_ready hs hready)
  obtain ⟨rfl, hT⟩ := hT
  have hnone : (T.zeroFloorSub v.lastTotalAssets).isZero = true := by
    have : T.toNat ≤ v.lastTotalAssets.toNat := by
      unfold State.worth at hworth
      omega
    exact UInt256.isZero_zeroFloorSub.mpr this
  rw [if_neg (by simp [hnone]), pure_bind, wp_modify, wp_pure]
  exact ⟨T, by rw [hT]; rfl, rfl, rfl⟩

/-! ## Deposits and withdrawals -/

/-- The vault at `vault` is worth no more than it records, and accruing it finds no interest: the
accrual fails only by overflow, or stores the vault with its total assets set to its worth, its
supply and every holding as they were. -/
def State.NoInterestDue (s : State) (vault : Address) : Prop :=
  ∃ v, s.vaults.get? vault = some v ∧
    s.worth vault v.asset (accrualMarkets v) ≤ v.lastTotalAssets.toNat ∧
    wp (accrueVault vault) (fun v' s' => ∃ totalAssets : UInt256,
        totalAssets.toNat = s.worth vault v.asset (accrualMarkets v) ∧
        v' = { v with totalAssets, lastTotalAssets := totalAssets } ∧ s' = s.putVault v')
      Fault.IsOverflow s

theorem noInterestDue_of_worth_le (hs : s.WellFormed) {v : Vault}
    (hvault : s.vaults.get? vault = some v)
    (hready : ∀ id ∈ accrualMarkets v, s.MarketReady vault v.asset id)
    (hworth : s.worth vault v.asset (accrualMarkets v) ≤ v.lastTotalAssets.toNat) :
    s.NoInterestDue vault :=
  ⟨v, hvault, hworth, accrueVault_no_interest hs hvault hready hworth⟩

/-! ## Where the walks start -/

section Walks

variable (hs : s.WellFormed) {v : Vault} (hvault : s.vaults.get? vault = some v)
  (hasset : v.asset ≠ vault) (hnodup : (accrualMarkets v).Nodup)
  (hlends : ∀ id ∈ accrualMarkets v, s.MarketLends vault v.asset id)
include hs hvault hasset hnodup hlends

/-- A deposit's prefix stores the vault with its totals raised by the flow, and leaves every
market of its queues ready, the deposit held idle, and the vault worth at most its new total. -/
theorem depositPrefix_worth {sender : Address} {request : DepositRequest} {stored : Vault}
    {flow : Flow} (hzero : vault ≠ .zero)
    (h : depositPrefix sender vault request s = .ok ((stored, flow), s')) :
    ∃ totalSupply totalAssets : UInt256,
      stored = { v with totalSupply, totalAssets, lastTotalAssets := totalAssets } ∧
      s'.WellFormed ∧ s'.vaults.get? vault = some stored ∧ s'.registry = s.registry ∧
      (∀ id ∈ accrualMarkets v, s'.MarketReady vault v.asset id) ∧
      flow.assets.toNat ≤ (s'.balanceOf vault v.asset).toNat ∧
      s'.worth vault v.asset (accrualMarkets v) ≤ totalAssets.toNat := by
  obtain ⟨v₁, totalSupply, totalAssets, s₁, s₂, s₃, hacc, -, hpull, hmint, -, htotal, rfl, rfl⟩ :=
    depositPrefix_inv h
  obtain ⟨totalSupply₁, T, rfl, hs₁, hregistry₁, hready₁, hworth₁⟩ :=
    accrueVault_worth hs hvault hasset hnodup hlends hacc
  have hs₂ := move_wellFormed hs₁ hpull
  have hpulled := move_balanceOf_le_add hs₁ hpull vault v.asset
  have hminted : s₃.balanceOf vault v.asset = s₂.balanceOf vault v.asset :=
    move_balanceOf_of_ne hs₂ hmint vault hasset
  obtain ⟨holdings₂, vaultUsers₂, hframe₂⟩ := move_tokensOnly _ s₁ () s₂ hpull
  obtain ⟨holdings₃, vaultUsers₃, hframe₃⟩ := move_tokensOnly _ s₂ () s₃ hmint
  have hkept : ∀ id, MarketKept id s₁ (s₃.putVault
      { v with totalSupply, totalAssets, lastTotalAssets := totalAssets }) := by
    intro id
    rw [hframe₃, hframe₂]
    exact ⟨rfl, rfl, fun _ => rfl⟩
  refine ⟨totalSupply, totalAssets, rfl, (move_wellFormed hs₂ hmint).putVault _, ?_, ?_,
    fun id hid => (hkept id).ready (hready₁ id hid), ?_, ?_⟩
  · rw [State.vaults_putVault, if_pos (hs.vault_address hvault).symm]
  · rw [← hregistry₁, hframe₃, hframe₂]
    rfl
  · change flow.assets.toNat ≤ (s₃.balanceOf vault v.asset).toNat
    rw [hminted]
    exact move_destination_holds hs₁ hpull hzero
  · dsimp only at hpulled htotal
    rw [htotal, ← hworth₁]
    unfold State.worth
    rw [List.map_congr_left fun id _ => (hkept id).supplied vault .down]
    change (s₃.balanceOf vault v.asset).toNat + _ ≤ _
    rw [hminted]
    omega

/-- A withdrawal's prefix stores the vault with its supply lowered and its total assets taken
down by the flow, and leaves every market of its queues ready and the vault worth exactly what
the accrual found. -/
theorem withdrawalPrefix_worth {sender : Address} {request : RedeemRequest} {stored : Vault}
    {flow : Flow} (h : withdrawalPrefix sender vault request s = .ok ((stored, flow), s')) :
    ∃ totalSupply T : UInt256,
      stored = { v with totalSupply, totalAssets := T.zeroFloorSub flow.assets,
                        lastTotalAssets := T.zeroFloorSub flow.assets } ∧
      s'.WellFormed ∧ s'.vaults.get? vault = some stored ∧ s'.registry = s.registry ∧
      (∀ id ∈ accrualMarkets v, s'.MarketReady vault v.asset id) ∧
      s'.worth vault v.asset (accrualMarkets v) = T.toNat := by
  obtain ⟨v₁, totalSupply, s₁, s₂, hacc, -, hburn, -, rfl, rfl⟩ := withdrawalPrefix_inv h
  obtain ⟨totalSupply₁, T, rfl, hs₁, hregistry₁, hready₁, hworth₁⟩ :=
    accrueVault_worth hs hvault hasset hnodup hlends hacc
  have hburnt : s₂.balanceOf vault v.asset = s₁.balanceOf vault v.asset :=
    move_balanceOf_of_ne hs₁ hburn vault hasset
  obtain ⟨holdings₂, vaultUsers₂, hframe₂⟩ := move_tokensOnly _ s₁ () s₂ hburn
  have hkept : ∀ id, MarketKept id s₁ (s₂.putVault
      { v with totalSupply, totalAssets := T.zeroFloorSub flow.assets,
               lastTotalAssets := T.zeroFloorSub flow.assets }) := by
    intro id
    rw [hframe₂]
    exact ⟨rfl, rfl, fun _ => rfl⟩
  refine ⟨totalSupply, T, rfl, (move_wellFormed hs₁ hburn).putVault _, ?_, ?_,
    fun id hid => (hkept id).ready (hready₁ id hid), ?_⟩
  · rw [State.vaults_putVault, if_pos (hs.vault_address hvault).symm]
  · rw [← hregistry₁, hframe₂]
    rfl
  · rw [← hworth₁]
    unfold State.worth
    rw [List.map_congr_left fun id _ => (hkept id).supplied vault .down]
    change (s₂.balanceOf vault v.asset).toNat + _ = _
    rw [hburnt]

/-- A deposit places its assets from a state where every market of the supply queue is ready,
accrued to the block, and the vault holds the deposit idle; the configs, the registry and the
transfer flags are as they were. -/
theorem depositPrefix_prepares {sender : Address} {request : DepositRequest} {stored : Vault}
    {flow : Flow} (hzero : vault ≠ .zero)
    (h : depositPrefix sender vault request s = .ok ((stored, flow), s')) :
    s'.WellFormed ∧ s'.vaults.get? vault = some stored ∧ stored.supplyQueue = v.supplyQueue ∧
      stored.asset = v.asset ∧ (∀ id ∈ v.supplyQueue, s'.MarketReady vault v.asset id) ∧
      flow.assets.toNat ≤ (s'.balanceOf vault v.asset).toNat ∧ ConfigsKept s s' ∧
      s'.registry = s.registry ∧ FlagsKept s s' := by
  obtain ⟨-, hconfigs⟩ := configsKept_writeInvariant.depositPrefix_keeps sender request s _ s' h hs
  obtain ⟨-, hflags⟩ := flagsKept_writeInvariant.depositPrefix_keeps sender request s _ s' h hs
  obtain ⟨totalSupply, totalAssets, rfl, hs', hget, hregistry, hready, hheld, -⟩ :=
    depositPrefix_worth hs hvault hasset hnodup hlends hzero h
  exact ⟨hs', hget, rfl, rfl, fun id hid => hready id (mem_accrualMarkets.mpr (.inr hid)), hheld,
    hconfigs, hregistry, hflags⟩

/-- A withdrawal gathers its assets from a state where every market of the withdraw queue is
ready, accrued to the block; the registry and the transfer flags are as they were. -/
theorem withdrawalPrefix_prepares {sender : Address} {request : RedeemRequest} {stored : Vault}
    {flow : Flow} (h : withdrawalPrefix sender vault request s = .ok ((stored, flow), s')) :
    s'.WellFormed ∧ s'.vaults.get? vault = some stored ∧
      stored.withdrawQueue = v.withdrawQueue ∧ stored.asset = v.asset ∧
      (∀ id ∈ v.withdrawQueue, s'.MarketReady vault v.asset id) ∧
      s'.registry = s.registry ∧ FlagsKept s s' := by
  obtain ⟨-, hflags⟩ := flagsKept_writeInvariant.withdrawalPrefix_keeps sender request s _ s' h hs
  obtain ⟨totalSupply, T, rfl, hs', hget, hregistry, hready, -⟩ :=
    withdrawalPrefix_worth hs hvault hasset hnodup hlends h
  exact ⟨hs', hget, rfl, rfl, fun id hid => hready id (mem_accrualMarkets.mpr (.inl hid)),
    hregistry, hflags⟩

end Walks

section Flows

variable (hs : s.WellFormed) {v : Vault} (hvault : s.vaults.get? vault = some v)
  (hasset : v.asset ≠ vault) (hnodup : (accrualMarkets v).Nodup)
  (hlends : ∀ id ∈ accrualMarkets v, s.MarketLends vault v.asset id)
  (hmorpho : vault ≠ s.registry.morpho) (hzero : vault ≠ .zero)
include hs hvault hasset hnodup hlends hmorpho hzero

/-- After a deposit the vault is worth no more than it records: the deposit adds to the worth the
accrual recorded at most the assets it records on top, and the walk along the supply queue adds
nothing. -/
theorem vaultDeposit_noInterestDue {sender : Address} {request : DepositRequest}
    (h : vaultDeposit sender vault request s = .ok ((), s')) : s'.NoInterestDue vault := by
  rw [vaultDeposit_eq_depositPrefix_bind] at h
  obtain ⟨⟨stored, flow⟩, s₁, hprefix, hplace⟩ := bind_inv h
  obtain ⟨totalSupply, totalAssets, rfl, hs₁, hget₁, hregistry, hready₁, -, hworth₁⟩ :=
    depositPrefix_worth hs hvault hasset hnodup hlends hzero hprefix
  have hsupply := placeDeposit_inv hplace
  obtain ⟨hs', -, hready', hworth'⟩ := supplyToMarkets_worthKept hzero hnodup _ _ _ _ s'
    hsupply hs₁ hready₁ (by rw [hregistry]; exact hmorpho)
  have hget : s'.vaults.get? vault =
      some { v with totalSupply, totalAssets, lastTotalAssets := totalAssets } := by
    rw [supplyToMarkets_vaults hsupply, hget₁]
  refine noInterestDue_of_worth_le hs' hget hready' ?_
  show s'.worth vault v.asset (accrualMarkets v) ≤ totalAssets.toNat
  omega

/-- After a withdrawal to someone else the vault is worth no more than it records: the walk along
the withdraw queue adds nothing to the worth the accrual recorded, and the assets sent take from
it exactly what the withdrawal takes off the record. -/
theorem vaultWithdraw_noInterestDue {sender : Address} {request : RedeemRequest}
    (hreceiver : request.receiver ≠ vault)
    (h : vaultWithdraw sender vault request s = .ok ((), s')) : s'.NoInterestDue vault := by
  rw [vaultWithdraw_eq_withdrawalPrefix_bind] at h
  obtain ⟨⟨stored, flow⟩, s₁, hprefix, h₁⟩ := bind_inv h
  obtain ⟨⟨⟩, s₂, hgather, hsend⟩ := bind_inv h₁
  obtain ⟨totalSupply, T, rfl, hs₁, hget₁, hregistry, hready₁, hworth₁⟩ :=
    withdrawalPrefix_worth hs hvault hasset hnodup hlends hprefix
  have hwithdraw := gatherWithdrawal_inv hgather
  have hsub : ∀ id ∈ v.withdrawQueue, id ∈ accrualMarkets v :=
    fun id hid => mem_accrualMarkets.mpr (.inl hid)
  obtain ⟨hs₂, -, hready₂, hworth₂⟩ := withdrawFromMarkets_worthKept hzero hnodup hsub _ _ _ s₂
    hwithdraw hs₁ hready₁ (by rw [hregistry]; exact hmorpho)
  have hsent := move_takes_from_source hs₂ hsend hzero (Ne.symm hreceiver)
  change (s'.balanceOf vault v.asset).toNat + flow.assets.toNat =
    (s₂.balanceOf vault v.asset).toNat at hsent
  have hkept : ∀ id, MarketKept id s₂ s' :=
    fun id => MarketKept.of_tokensOnly (move_tokensOnly _ s₂ () s' hsend)
  have hworth' : s'.worth vault v.asset (accrualMarkets v) + flow.assets.toNat =
      s₂.worth vault v.asset (accrualMarkets v) := by
    unfold State.worth
    rw [List.map_congr_left fun id _ => (hkept id).supplied vault .down]
    omega
  have hget : s'.vaults.get? vault =
      some { v with totalSupply, totalAssets := T.zeroFloorSub flow.assets,
                    lastTotalAssets := T.zeroFloorSub flow.assets } := by
    rw [(move_vaultBooks hsend).1, withdrawFromMarkets_vaults hwithdraw, hget₁]
  refine noInterestDue_of_worth_le (move_wellFormed hs₂ hsend) hget
    (fun id hid => (hkept id).ready (hready₂ id hid)) ?_
  show s'.worth vault v.asset (accrualMarkets v) ≤ (T.zeroFloorSub flow.assets).toNat
  rw [UInt256.toNat_zeroFloorSub]
  omega

end Flows

end Worth

/-- Deposits into a vault, and withdrawals from it to someone else, leave no interest for the
next accrual to charge a fee on, for a vault other than the core contract and the zero address
that lends its asset, not its own share token, on every market of its queues, listed once in its
withdraw queue. -/
theorem vault_flows_leave_no_interest (hs : s.WellFormed) {vault : Address} {v : Vault}
    (hvault : s.vaults.get? vault = some v) (hasset : v.asset ≠ vault)
    (hnodup : v.withdrawQueue.Nodup)
    (hlends : ∀ id ∈ accrualMarkets v, s.MarketLends vault v.asset id)
    (hmorpho : vault ≠ s.registry.morpho) (hzero : vault ≠ .zero) :
    (∀ sender (request : DepositRequest) s', vaultDeposit sender vault request s = .ok ((), s') →
      s'.NoInterestDue vault) ∧
    (∀ sender (request : RedeemRequest) s', request.receiver ≠ vault →
      vaultWithdraw sender vault request s = .ok ((), s') → s'.NoInterestDue vault) :=
  ⟨fun _ _ _ h => vaultDeposit_noInterestDue hs hvault hasset (accrualMarkets_nodup hnodup) hlends
      hmorpho hzero h,
    fun _ _ _ hreceiver h => vaultWithdraw_noInterestDue hs hvault hasset
      (accrualMarkets_nodup hnodup) hlends hmorpho hzero hreceiver h⟩

namespace Sample

/-- A hundred and twenty assets withdrawn by the user to itself. -/
def largeRedeem : RedeemRequest := ⟨Int256.ofBits 120, Int256.ofBits 0, user, user, none⟩

end Sample

open Sample in
/-- The sample vault with fifty idle and a hundred on its market, taking a deposit of a hundred
and paying out a hundred and twenty, partly from the market: each run leaves no interest. -/
theorem vault_flows_leave_no_interest_sample :
    (∃ s', vaultDeposit user vault deposit supplyingState = .ok ((), s') ∧
      s'.NoInterestDue vault) ∧
    (∃ s', vaultWithdraw user vault largeRedeem supplyingState = .ok ((), s') ∧
      (s'.position vault market.id).supplyShares.toNat <
        (supplyingState.position vault market.id).supplyShares.toNat ∧
      s'.NoInterestDue vault) := by
  obtain ⟨⟨⟨⟩, s₁⟩, h₁⟩ := Except.exists_eq_ok
    (x := vaultDeposit user vault deposit supplyingState) (by decide +kernel)
  obtain ⟨⟨⟩, s₂, h₂, hpulled⟩ := exists_eq_ok_of_check
    (x := vaultWithdraw user vault largeRedeem) (s := supplyingState)
    (fun _ s' => decide ((s'.position vault market.id).supplyShares.toNat <
      (supplyingState.position vault market.id).supplyShares.toNat)) (by decide +kernel)
  have hlends : ∀ id ∈ accrualMarkets supplyingVault,
      supplyingState.MarketLends vault supplyingVault.asset id := by
    intro id hid
    have hmarket : id = market.id := by
      rcases mem_accrualMarkets.mp hid with h | h <;> exact List.mem_singleton.mp h
    rw [hmarket]
    exact supplyingState_market_ready.lends
  have hflows := vault_flows_leave_no_interest supplyingState_wellFormed
    (v := supplyingVault) (by decide +kernel) (by decide) (List.nodup_singleton _) hlends
    (by decide +kernel) (by decide)
  exact ⟨⟨s₁, h₁, hflows.1 user deposit s₁ h₁⟩,
    ⟨s₂, h₂, of_decide_eq_true hpulled, hflows.2 user largeRedeem s₂ (by decide) h₂⟩⟩

namespace Sample

/-- A vault of the sample asset booked at the zero address, with empty queues and fifty assets
idle, all fifty of its shares held by the user. -/
def zeroAddressVault : Vault :=
  { Vault.new .zero asset 0 with totalSupply := 50, totalAssets := 50, lastTotalAssets := 50 }

def zeroAddressVaultState : State :=
  (((State.new .ethereum ⟨0, 0⟩ state.registry).putVault zeroAddressVault).putHolding
    { Holding.empty .zero asset with balance := 50 }).putHolding
    { Holding.empty user .zero with balance := 50 }

end Sample

open Sample in
/-- A vault at the zero address pays a withdrawal by minting it: after the user takes twenty of
its fifty assets it records thirty but still holds the fifty, so the next accrual finds twenty of
interest. -/
theorem zero_address_vault_withdrawal_leaves_interest :
    ∃ s', vaultWithdraw user .zero redeem zeroAddressVaultState = .ok ((), s') ∧
      ∃ v, s'.vaults.get? .zero = some v ∧ v.lastTotalAssets.toNat = 30 ∧
        s'.worth .zero v.asset (accrualMarkets v) = 50 := by
  obtain ⟨⟨⟩, s', h, hcheck⟩ := exists_eq_ok_of_check (x := vaultWithdraw user .zero redeem)
    (s := zeroAddressVaultState) (fun _ s' => (s'.vaults.get? .zero).any fun v =>
      v.lastTotalAssets.toNat == 30 && s'.worth .zero v.asset (accrualMarkets v) == 50)
    (by decide +kernel)
  cases hv : s'.vaults.get? .zero with
  | none =>
    rw [hv] at hcheck
    cases hcheck
  | some v =>
    rw [hv, Option.any_some, Bool.and_eq_true, beq_iff_eq, beq_iff_eq] at hcheck
    exact ⟨s', h, v, hv, hcheck⟩

end LendingSim
