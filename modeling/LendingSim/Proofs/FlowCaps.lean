import Mathlib
import LendingSim.Proofs.Accrual

/-!
# Flow caps under the public allocator

Anyone may move a vault's supply between its enabled markets through the public allocator,
within flow caps kept on each of the vault's market configs. A withdrawal of `w` from a market
raises that market's inflow cap and lowers its outflow cap by `w`; the destination's inflow cap
falls and its outflow cap rises by the total withdrawn. The caps only ever move from one side to
the other, and from one market to another.

Charging the withdrawals is described exactly (`chargeWithdrawals_charged`): each withdrawal's
caps are shifted by its amount, no other config changes, and the total grows by the amounts.
What needs care is that the destination's config is read before the withdrawals are charged and
stored after: the strict order of the withdrawals and the check that the destination is none of
them keep the config read the one in place.

From the step, along every tree of actions (`FlowKept`): no action sets or clears a config's flow
caps, none changes what a config's inflow and outflow caps add up to, and none changes the sum
of the inflow caps over a vault's configs.
-/

namespace LendingSim

open Sim Perform

variable {s s' : State}

/-! ## What flow caps add up to -/

/-- Whether a config has flow caps, and what its inflow and outflow caps add up to. -/
def VaultMarketConfig.flowTotal (c : VaultMarketConfig) : Option Nat :=
  c.flowCaps.map fun caps => caps.maxIn.toNat + caps.maxOut.toNat

/-- The inflow cap of a config of `vault`: another vault's config counts for nothing, and a
config without flow caps allows no inflow. -/
def VaultMarketConfig.maxInOf (vault : Address) (c : VaultMarketConfig) : Nat :=
  if c.vault = vault then (c.flowCaps.getD .zero).maxIn.toNat else 0

/-- The inflow caps of a vault's configs, added up. -/
def State.vaultMaxIn (s : State) (vault : Address) : Nat :=
  s.vaultMarketConfigs.sum (VaultMarketConfig.maxInOf vault)

/-- `c'` is `c` with its flow caps moved by `delta`: the inflow cap raised and the outflow cap
lowered by it, or the other way for a negative `delta`. -/
def VaultMarketConfig.Shifted (c c' : VaultMarketConfig) (delta : Int) : Prop :=
  ∃ caps caps' : FlowCaps, c.flowCaps = some caps ∧ c' = { c with flowCaps := some caps' } ∧
    (caps'.maxIn.toNat : Int) = caps.maxIn.toNat + delta ∧
    (caps'.maxOut.toNat : Int) = caps.maxOut.toNat - delta

/-- What no action changes about flow caps: at every key, whether a config is there, whether it
has flow caps and what they add up to; and every vault's sum of inflow caps. -/
structure FlowKept (s s' : State) : Prop where
  flowTotal : ∀ key, (s'.vaultMarketConfigs.get? key).map VaultMarketConfig.flowTotal =
    (s.vaultMarketConfigs.get? key).map VaultMarketConfig.flowTotal
  maxIn : ∀ vault, s'.vaultMaxIn vault = s.vaultMaxIn vault

namespace VaultMarketConfig

variable {c c' : VaultMarketConfig} {delta : Int}

theorem Shifted.flowTotal_eq (h : c.Shifted c' delta) : c'.flowTotal = c.flowTotal := by
  obtain ⟨caps, caps', hcaps, rfl, hin, hout⟩ := h
  simp only [flowTotal, hcaps, Option.map_some, Option.some.injEq]
  omega

theorem Shifted.maxInOf_eq (h : c.Shifted c' delta) (vault : Address) :
    (c'.maxInOf vault : Int) = c.maxInOf vault + if c.vault = vault then delta else 0 := by
  obtain ⟨caps, caps', hcaps, rfl, hin, -⟩ := h
  unfold maxInOf
  split
  · simp [hcaps, hin]
  · simp

end VaultMarketConfig

theorem FlowKept.composes : Composes FlowKept where
  refl _ := ⟨fun _ => rfl, fun _ => rfl⟩
  trans h₁₂ h₂₃ :=
    ⟨fun key => (h₂₃.flowTotal key).trans (h₁₂.flowTotal key),
      fun vault => (h₂₃.maxIn vault).trans (h₁₂.maxIn vault)⟩

/-- Flow caps are read off the book of configs alone. -/
theorem FlowKept.of_configs_eq (h : s'.vaultMarketConfigs = s.vaultMarketConfigs) :
    FlowKept s s' where
  flowTotal key := by rw [h]
  maxIn vault := by unfold State.vaultMaxIn; rw [h]

/-! ## Storing a config -/

namespace State

theorem vaultMarketConfigs_putVaultMarketConfig (c : VaultMarketConfig)
    (key : Address × MarketId) :
    (s.putVaultMarketConfig c).vaultMarketConfigs.get? key =
      if key = (c.vault, c.marketId) then some c else s.vaultMarketConfigs.get? key :=
  Book.get?_insert _ _ _ _

/-- Storing a config adds its inflow cap to its vault's sum and takes away that of the config it
replaces. -/
theorem vaultMaxIn_putVaultMarketConfig (hs : s.WellFormed) {c₀ : VaultMarketConfig}
    (c : VaultMarketConfig) (hc₀ : s.vaultMarketConfigs.get? (c.vault, c.marketId) = some c₀)
    (vault : Address) :
    (s.putVaultMarketConfig c).vaultMaxIn vault + c₀.maxInOf vault =
      s.vaultMaxIn vault + c.maxInOf vault := by
  have h := Book.sum_insert hs.vaultMarketConfigs.1 (c.vault, c.marketId) c
    (VaultMarketConfig.maxInOf vault)
  rw [hc₀] at h
  exact h

end State

/-- Storing a shifted config in the place of the one it shifts keeps every config's flow total
and moves its vault's sum of inflow caps by the shift. -/
theorem shifted_put (hs : s.WellFormed) {vault : Address} {id : MarketId}
    {c c' : VaultMarketConfig} {delta : Int} (hc : s.vaultMarketConfigs.get? (vault, id) = some c)
    (hshift : c.Shifted c' delta) :
    (∀ key, ((s.putVaultMarketConfig c').vaultMarketConfigs.get? key).map
        VaultMarketConfig.flowTotal = (s.vaultMarketConfigs.get? key).map
          VaultMarketConfig.flowTotal) ∧
      ∀ v, ((s.putVaultMarketConfig c').vaultMaxIn v : Int) =
        s.vaultMaxIn v + if v = vault then delta else 0 := by
  obtain ⟨hvault, hid⟩ := hs.vaultMarketConfig_key hc
  have hkey : (c'.vault, c'.marketId) = (vault, id) := by
    obtain ⟨caps, caps', -, rfl, -⟩ := hshift
    rw [← hvault, ← hid]
  constructor
  · intro key
    rw [State.vaultMarketConfigs_putVaultMarketConfig, hkey]
    split
    · next heq => rw [heq, hc, Option.map_some, Option.map_some, hshift.flowTotal_eq]
    · rfl
  · intro v
    have hsum := State.vaultMaxIn_putVaultMarketConfig hs c' (hkey ▸ hc) v
    have hin := hshift.maxInOf_eq v
    rw [hvault] at hin
    by_cases hv : v = vault
    · subst hv
      simp only at hin ⊢
      omega
    · simp only [if_neg (Ne.symm hv), if_neg hv] at hin ⊢
      omega

/-! ## Charging the withdrawals -/

/-- An enabled config is read, and nothing written. -/
theorem enabledConfig_inv {vault : Address} {id : MarketId} {config : VaultMarketConfig}
    (h : enabledConfig vault id s = .ok (config, s')) :
    s' = s ∧ s.vaultMarketConfigs.get? (vault, id) = some config ∧ config.enabled = true := by
  unfold enabledConfig at h
  rw [read_bind] at h
  cases hconfig : s.vaultMarketConfigs.get? (vault, id) with
  | none =>
    rw [hconfig] at h
    cases h
  | some c =>
    rw [hconfig] at h
    dsimp only at h
    obtain ⟨henabled, h₁⟩ := guard_inv h
    obtain ⟨rfl, rfl⟩ := pure_inv h₁
    exact ⟨rfl, rfl, by simpa using henabled⟩

/-- The amount a withdrawal asks for. -/
def Allocation.amount (w : Allocation) : Nat := (amountOf w.assets).toNat

/-- One withdrawal charged: it comes after the previous one in market id, its config is enabled,
its amount is not zero and it is not the destination; its flow caps are moved by the amount and
stored, the market is accrued, the vault's supply there must cover the amount, and the rest are
charged from there, the allocation taking the amount out listed first. -/
theorem chargeWithdrawals_cons_inv {vault : Address} {supplyId : MarketId}
    {previous : Option MarketId} {w : Allocation} {rest allocations : List Allocation}
    {total total' : UInt256}
    (h : chargeWithdrawals vault supplyId previous (w :: rest) total s =
      .ok ((allocations, total'), s')) :
    (∀ before ∈ previous, before.toNat < w.id.toNat) ∧
    ∃ config maxIn maxOut s₁ supplied target total₁ allocations',
      s.vaultMarketConfigs.get? (vault, w.id) = some config ∧ config.enabled = true ∧
      w.amount ≠ 0 ∧ w.id ≠ supplyId ∧
      (config.flowCaps.getD .zero).maxIn.checkedAdd (amountOf w.assets) = .ok maxIn ∧
      (config.flowCaps.getD .zero).maxOut.checkedSub (amountOf w.assets) = .ok maxOut ∧
      suppliedAssets vault w.id .down
        (s.putVaultMarketConfig { config with flowCaps := some ⟨maxIn, maxOut⟩ }) =
          .ok (supplied, s₁) ∧
      supplied.checkedSub (amountOf w.assets) = .ok target ∧
      total.checkedAdd (amountOf w.assets) = .ok total₁ ∧
      chargeWithdrawals vault supplyId (some w.id) rest total₁ s₁ =
        .ok ((allocations', total'), s') ∧
      allocations = ⟨w.id, Int256.ofBits target⟩ :: allocations' := by
  unfold chargeWithdrawals at h
  dsimp -zeta only at h
  extract_lets id amount charge at h
  obtain ⟨hafter, h⟩ : (∀ before ∈ previous, before.toNat < w.id.toNat) ∧
      charge () s = .ok ((allocations, total'), s') := by
    cases previous with
    | none => exact ⟨by simp, h⟩
    | some before =>
      obtain ⟨hlt, h₁⟩ := guard_inv h
      exact ⟨by simpa using hlt, h₁⟩
  refine ⟨hafter, ?_⟩
  dsimp only [charge] at h
  obtain ⟨config, s₀, hread, h₁⟩ := bind_inv h
  obtain ⟨rfl, hconfig, henabled⟩ := enabledConfig_inv hread
  obtain ⟨hzero, h₂⟩ := guard_inv h₁
  obtain ⟨hid, h₃⟩ := guard_inv h₂
  obtain ⟨maxIn, hin, h₄⟩ := arith_bind_inv h₃
  obtain ⟨maxOut, hout, h₅⟩ := lift_bind_inv h₄
  rw [modify_bind] at h₅
  obtain ⟨supplied, s₁, hsupplied, h₆⟩ := bind_inv h₅
  obtain ⟨target, htarget, h₇⟩ := lift_bind_inv h₆
  obtain ⟨total₁, htotal, h₈⟩ := arith_bind_inv h₇
  obtain ⟨⟨allocations', total''⟩, s₂, hrest, h₉⟩ := bind_inv h₈
  obtain ⟨hres, rfl⟩ := pure_inv h₉
  cases hres
  exact ⟨config, maxIn, maxOut, s₁, supplied, target, total₁, allocations', hconfig, henabled,
    by simpa [Allocation.amount, UInt256.isZero] using hzero, by simpa using hid, hin,
    Except.mapError_eq_ok.mp hout, hsupplied, Except.mapError_eq_ok.mp htarget, htotal, hrest,
    rfl⟩

/-- Reading a vault's supply accrues the market, and touches markets and positions only. -/
theorem suppliedAssets_frame {vault : Address} {id : MarketId} {rounding : Rounding}
    {x : UInt256} (h : suppliedAssets vault id rounding s = .ok (x, s')) (hs : s.WellFormed) :
    s'.WellFormed ∧ ∃ markets positions, s' = { s with markets, positions } := by
  obtain ⟨m, hacc, -⟩ := suppliedAssets_inv h
  exact ⟨accrueMarket_wellFormed hacc hs, accrueMarket_frame hacc⟩

/-- A charge that went through moved flow caps that were set: without them the outflow cap is
zero and cannot give up a non-zero amount. -/
theorem shifted_of_charge {config : VaultMarketConfig} {amount maxIn maxOut : UInt256}
    (hamount : amount.toNat ≠ 0)
    (hin : (config.flowCaps.getD .zero).maxIn.checkedAdd amount = .ok maxIn)
    (hout : (config.flowCaps.getD .zero).maxOut.checkedSub amount = .ok maxOut) :
    config.Shifted { config with flowCaps := some ⟨maxIn, maxOut⟩ } amount.toNat := by
  have hin := UInt256.checkedAdd_toNat hin
  obtain ⟨hout, hle⟩ := UInt256.checkedSub_toNat hout
  cases hcaps : config.flowCaps with
  | none =>
    rw [hcaps] at hle
    have hzero : (FlowCaps.zero.maxOut).toNat = 0 := rfl
    rw [Option.getD_none, hzero] at hle
    exact absurd hle (by omega)
  | some caps =>
    rw [hcaps] at hin hout hle
    rw [Option.getD_some] at hin hout hle
    exact ⟨caps, ⟨maxIn, maxOut⟩, hcaps, rfl, by simp [hin], by simp only; omega⟩

/-- What charging the flow caps of `withdrawals` against `vault`'s configs did between two
states: each withdrawal's config is shifted by its amount, every other config is as it was, no
config's flow total changed, and the vault's inflow caps rose by the amounts together. -/
structure Charged (vault : Address) (withdrawals : List Allocation) (s s' : State) : Prop where
  shifted : ∀ w ∈ withdrawals, ∃ c c', s.vaultMarketConfigs.get? (vault, w.id) = some c ∧
    s'.vaultMarketConfigs.get? (vault, w.id) = some c' ∧ c.Shifted c' w.amount
  others : ∀ key, (∀ w ∈ withdrawals, key ≠ (vault, w.id)) →
    s'.vaultMarketConfigs.get? key = s.vaultMarketConfigs.get? key
  flowTotal : ∀ key, (s'.vaultMarketConfigs.get? key).map VaultMarketConfig.flowTotal =
    (s.vaultMarketConfigs.get? key).map VaultMarketConfig.flowTotal
  maxIn : ∀ v, (s'.vaultMaxIn v : Int) =
    s.vaultMaxIn v + if v = vault then ((withdrawals.map Allocation.amount).sum : Int) else 0

/-- Charging a list of withdrawals: they come in strictly increasing order of market id after
`previous`, none is the destination and none is for nothing; the total grows by their amounts,
and the configs are charged as `Charged` says. -/
theorem chargeWithdrawals_charged {vault : Address} {supplyId : MarketId} :
    ∀ {withdrawals : List Allocation} {previous : Option MarketId} {total total' : UInt256}
      {allocations : List Allocation} {s s' : State}, s.WellFormed →
      chargeWithdrawals vault supplyId previous withdrawals total s =
        .ok ((allocations, total'), s') →
      s'.WellFormed ∧ Charged vault withdrawals s s' ∧
        total'.toNat = total.toNat + (withdrawals.map Allocation.amount).sum ∧
        (∀ w ∈ withdrawals, w.amount ≠ 0 ∧ w.id ≠ supplyId ∧
          ∀ before ∈ previous, before.toNat < w.id.toNat) ∧
        withdrawals.Pairwise fun a b => a.id.toNat < b.id.toNat
  | [], previous, total, total', allocations, s, s', hs, h => by
    rw [chargeWithdrawals] at h
    obtain ⟨hres, rfl⟩ := pure_inv h
    cases hres
    refine ⟨hs, ⟨by simp, fun _ _ => rfl, fun _ => rfl, fun _ => by simp⟩, by simp, by simp,
      List.Pairwise.nil⟩
  | w :: rest, previous, total, total', allocations, s, s', hs, h => by
    obtain ⟨hafter, config, maxIn, maxOut, s₁, supplied, target, total₁, allocations', hconfig,
      -, hamount, hsupply, hin, hout, hsupplied, -, htotal, hrest, -⟩ :=
      chargeWithdrawals_cons_inv h
    have hshift := shifted_of_charge hamount hin hout
    obtain ⟨hs₁, markets, positions, hs₁eq⟩ := suppliedAssets_frame hsupplied (hs.putVaultMarketConfig _)
    have hconfigs₁ : s₁.vaultMarketConfigs =
        (s.putVaultMarketConfig { config with flowCaps := some ⟨maxIn, maxOut⟩ }).vaultMarketConfigs := by
      rw [hs₁eq]
    obtain ⟨hs', hcharged, htotal', hchecks, hpairwise⟩ := chargeWithdrawals_charged hs₁ hrest
    have hlater : ∀ w' ∈ rest, w.id.toNat < w'.id.toNat :=
      fun w' hw' => (hchecks w' hw').2.2 w.id rfl
    have hne : ∀ w' ∈ rest, (vault, w'.id) ≠ (vault, w.id) := by
      intro w' hw' heq
      have := hlater w' hw'
      rw [(Prod.mk.inj heq).2] at this
      exact lt_irrefl _ this
    obtain ⟨hflow, hmaxIn⟩ := shifted_put hs hconfig hshift
    refine ⟨hs', ⟨?_, ?_, ?_, ?_⟩, ?_, ?_, ?_⟩
    · intro w' hw'
      rcases List.mem_cons.mp hw' with rfl | hw'
      · refine ⟨config, _, hconfig, ?_, hshift⟩
        rw [hcharged.others _ fun w'' hw'' => (hne w'' hw'').symm, hconfigs₁,
          State.vaultMarketConfigs_putVaultMarketConfig, if_pos]
        rw [(hs.vaultMarketConfig_key hconfig).1, (hs.vaultMarketConfig_key hconfig).2]
      · obtain ⟨c, c', hc, hc', hcc'⟩ := hcharged.shifted w' hw'
        refine ⟨c, c', ?_, hc', hcc'⟩
        rw [← hc, hconfigs₁, State.vaultMarketConfigs_putVaultMarketConfig, if_neg]
        rw [(hs.vaultMarketConfig_key hconfig).1, (hs.vaultMarketConfig_key hconfig).2]
        exact hne w' hw'
    · intro key hkey
      rw [hcharged.others key fun w' hw' => hkey w' (List.mem_cons_of_mem w hw'), hconfigs₁,
        State.vaultMarketConfigs_putVaultMarketConfig, if_neg]
      rw [(hs.vaultMarketConfig_key hconfig).1, (hs.vaultMarketConfig_key hconfig).2]
      exact hkey w List.mem_cons_self
    · intro key
      rw [hcharged.flowTotal key, hconfigs₁, hflow key]
    · intro v
      have h₁ := hcharged.maxIn v
      have h₂ := hmaxIn v
      unfold State.vaultMaxIn at h₁ h₂ ⊢
      rw [hconfigs₁] at h₁
      simp only [List.map_cons, List.sum_cons, Allocation.amount] at h₁ h₂ ⊢
      by_cases hv : v = vault
      · simp only [if_pos hv] at h₁ h₂ ⊢
        push_cast at h₁ h₂ ⊢
        omega
      · simp only [if_neg hv] at h₁ h₂ ⊢
        omega
    · rw [htotal', UInt256.checkedAdd_toNat htotal]
      simp [Allocation.amount]
      omega
    · intro w' hw'
      rcases List.mem_cons.mp hw' with rfl | hw'
      · exact ⟨hamount, hsupply, hafter⟩
      · obtain ⟨h₁, h₂, -⟩ := hchecks w' hw'
        refine ⟨h₁, h₂, fun before hbefore => ?_⟩
        exact lt_trans (hafter before hbefore) (hlater w' hw')
    · exact List.Pairwise.cons hlater hpairwise

/-! ## A public reallocation, step by step -/

/-- The public allocator's fee: when it is not zero, the sender pays it in the native token to
the allocator; it is added to what the vault's terms have accrued. -/
def FeePaid (sender allocator : Address) (terms : AllocatorTerms) (accruedFee : UInt256)
    (s s₀ : State) : Prop :=
  (terms.fee.toNat = 0 ∧ accruedFee = terms.accruedFee ∧ s₀ = s) ∨
    (move ⟨nativeAddress, sender, sender, allocator, terms.fee⟩ s = .ok ((), s₀) ∧
      terms.accruedFee.checkedAdd terms.fee = .ok accruedFee)

theorem FeePaid.accruedFee_toNat {sender allocator : Address} {terms : AllocatorTerms}
    {accruedFee : UInt256} (h : FeePaid sender allocator terms accruedFee s s') :
    accruedFee.toNat = terms.accruedFee.toNat + terms.fee.toNat := by
  rcases h with ⟨hzero, rfl, -⟩ | ⟨-, hadd⟩
  · omega
  · exact UInt256.checkedAdd_toNat hadd

/-- Paying the fee moves tokens only. -/
theorem FeePaid.tokensOnly {sender allocator : Address} {terms : AllocatorTerms}
    {accruedFee : UInt256} (h : FeePaid sender allocator terms accruedFee s s') :
    TokensOnly s s' := by
  rcases h with ⟨-, -, rfl⟩ | ⟨hmove, -⟩
  · exact TokensOnly.refl _
  · exact move_tokensOnly _ s () s' hmove

theorem FeePaid.wellFormed {sender allocator : Address} {terms : AllocatorTerms}
    {accruedFee : UInt256} (h : FeePaid sender allocator terms accruedFee s s')
    (hs : s.WellFormed) : s'.WellFormed := by
  rcases h with ⟨-, -, rfl⟩ | ⟨hmove, -⟩
  · exact hs
  · exact move_wellFormed hs hmove

/-- A public reallocation: the fee paid and recorded on the vault's terms, at least one
withdrawal, the destination's config read while enabled, the withdrawals charged, the
destination's caps moved back by the total, and the vault reallocated by the allocator, each
withdrawal market to the target the charge computed and everything to the destination. -/
theorem publicReallocate_inv {sender address : Address} {withdrawals : List Allocation}
    {supplyId : MarketId} {u : Unit}
    (h : publicReallocate sender address withdrawals supplyId s = .ok (u, s')) :
    ∃ vault terms accruedFee s₀ supplyConfig allocations total s₁ maxIn maxOut,
      s.vaults.get? address = some vault ∧ vault.allocatorTerms = some terms ∧
      FeePaid sender s.registry.publicAllocator terms accruedFee s s₀ ∧
      withdrawals ≠ [] ∧
      s₀.vaultMarketConfigs.get? (address, supplyId) = some supplyConfig ∧
      supplyConfig.enabled = true ∧
      chargeWithdrawals address supplyId none withdrawals 0
        (s₀.putVault { vault with allocatorTerms := some { terms with accruedFee } }) =
          .ok ((allocations, total), s₁) ∧
      (supplyConfig.flowCaps.getD .zero).maxIn.checkedSub total = .ok maxIn ∧
      (supplyConfig.flowCaps.getD .zero).maxOut.checkedAdd total = .ok maxOut ∧
      reallocate s.registry.publicAllocator address
        (allocations ++ [⟨supplyId, Int256.maxValue⟩])
        (s₁.putVaultMarketConfig { supplyConfig with flowCaps := some ⟨maxIn, maxOut⟩ }) =
          .ok (u, s') := by
  unfold publicReallocate at h
  rw [read_bind, read_bind] at h
  obtain ⟨vault, hvault, h₁⟩ := lift_bind_inv h
  cases hterms : vault.allocatorTerms with
  | none =>
    rw [hterms] at h₁
    cases h₁
  | some terms =>
    rw [hterms] at h₁
    dsimp -zeta only at h₁
    extract_lets rest settle at h₁
    obtain ⟨accruedFee, s₀, hpaid, hrun⟩ : ∃ accruedFee s₀,
        FeePaid sender s.registry.publicAllocator terms accruedFee s s₀ ∧
          settle accruedFee s₀ = .ok (u, s') := by
      split at h₁
      · next hfee =>
        obtain ⟨⟨⟩, s₀, hmove, h₂⟩ := bind_inv h₁
        obtain ⟨accruedFee, hadd, h₃⟩ := arith_bind_inv h₂
        exact ⟨accruedFee, s₀, .inr ⟨hmove, hadd⟩, h₃⟩
      · next hfee =>
        obtain ⟨accruedFee, hpure, h₂⟩ := (readOnly_pure _).bind_inv h₁
        obtain ⟨rfl, -⟩ := pure_inv hpure
        exact ⟨_, s, .inl ⟨by simpa [UInt256.isZero] using hfee, rfl, rfl⟩, h₂⟩
    dsimp only [settle] at hrun
    rw [modify_bind] at hrun
    obtain ⟨hne, h₂⟩ := guard_inv hrun
    dsimp only [rest] at h₂
    obtain ⟨supplyConfig, hread, h₃⟩ := (enabledConfig_readOnly _ _).bind_inv h₂
    obtain ⟨-, hconfig, henabled⟩ := enabledConfig_inv hread
    obtain ⟨⟨allocations, total⟩, s₁, hcharge, h₄⟩ := bind_inv h₃
    dsimp only at h₄
    obtain ⟨maxIn, hin, h₅⟩ := lift_bind_inv h₄
    obtain ⟨maxOut, hout, h₆⟩ := arith_bind_inv h₅
    rw [modify_bind] at h₆
    exact ⟨vault, terms, accruedFee, s₀, supplyConfig, allocations, total, s₁, maxIn, maxOut,
      State.vault_eq_ok hvault, hterms, hpaid, by simpa using hne, hconfig, henabled, hcharge,
      Except.mapError_eq_ok.mp hin, hout, h₆⟩

/-- Withdrawals, at least one and none for nothing, add up to something. -/
theorem amounts_sum_ne_zero {withdrawals : List Allocation} (hne : withdrawals ≠ [])
    (hpos : ∀ w ∈ withdrawals, w.amount ≠ 0) : (withdrawals.map Allocation.amount).sum ≠ 0 := by
  obtain ⟨w, rest, rfl⟩ := List.exists_cons_of_ne_nil hne
  have hw := hpos w List.mem_cons_self
  simp only [List.map_cons, List.sum_cons]
  omega

/-- The destination's caps moved back by a non-zero total went through only if they were set:
without them there is no inflow cap to lower. -/
theorem shifted_of_return {config : VaultMarketConfig} {total maxIn maxOut : UInt256}
    (htotal : total.toNat ≠ 0)
    (hin : (config.flowCaps.getD .zero).maxIn.checkedSub total = .ok maxIn)
    (hout : (config.flowCaps.getD .zero).maxOut.checkedAdd total = .ok maxOut) :
    config.Shifted { config with flowCaps := some ⟨maxIn, maxOut⟩ } (-total.toNat) := by
  obtain ⟨hin, hle⟩ := UInt256.checkedSub_toNat hin
  have hout := UInt256.checkedAdd_toNat hout
  cases hcaps : config.flowCaps with
  | none =>
    rw [hcaps] at hle
    have hzero : (FlowCaps.zero.maxIn).toNat = 0 := rfl
    rw [Option.getD_none, hzero] at hle
    exact absurd hle (by omega)
  | some caps =>
    rw [hcaps, Option.getD_some] at hin hout hle
    exact ⟨caps, ⟨maxIn, maxOut⟩, hcaps, rfl, by simp only; omega, by simp [hout]⟩

/-! ## Flow caps along every action -/

/-- The bounds of writes that charge no vault's flow caps. -/
def Bounds.capsFixed : Bounds := { Bounds.all with allocate := fun _ => False }

/-- The book of configs as it was. -/
def ConfigsKept (s s' : State) : Prop := s'.vaultMarketConfigs = s.vaultMarketConfigs

/-- A write that charges no flow caps leaves the book of configs as it was. -/
theorem Write.configsKept (hw : Write Bounds.capsFixed s s') : ConfigsKept s s' := by
  cases hw with
  | vaultMarketConfig vault c hV => exact hV.elim
  | accrue h =>
    obtain ⟨_, _, rfl⟩ := accrueMarket_frame h
    rfl
  | _ => rfl

theorem configsKept_writeInvariant : WriteInvariant Bounds.capsFixed ConfigsKept where
  composes := ⟨fun _ => rfl, fun h₁₂ h₂₃ => h₂₃.trans h₁₂⟩
  write _ hw := hw.configsKept

theorem configsKept_absorbs : Absorbs ConfigsKept FlowKept where
  before h₁₂ h₂₃ := FlowKept.composes.trans (FlowKept.of_configs_eq h₁₂) h₂₃
  after h₁₂ h₂₃ := FlowKept.composes.trans h₁₂ (FlowKept.of_configs_eq h₂₃)

/-- A public reallocation keeps flow caps: each withdrawal's caps are shifted by its amount and
the destination's back by the total. The destination is none of the withdrawals, so the config
read for it before the charges is still the one in place when it is stored. -/
theorem publicReallocate_flowKept (sender address : Address) (withdrawals : List Allocation)
    (supplyId : MarketId) :
    Keeps (Guarded FlowKept) (publicReallocate sender address withdrawals supplyId) := by
  intro s u s' h hs
  obtain ⟨vault, terms, accruedFee, s₀, supplyConfig, allocations, total, s₁, maxIn, maxOut, -,
    -, hpaid, hne, hconfig, -, hcharge, hin, hout, hrealloc⟩ := publicReallocate_inv h
  have hs₀ := (hpaid.wellFormed hs).putVault { vault with allocatorTerms := some { terms with accruedFee } }
  obtain ⟨hs₁, hcharged, htotal, hchecks, -⟩ := chargeWithdrawals_charged hs₀ hcharge
  have hpos : total.toNat ≠ 0 := by
    rw [htotal, UInt256.toNat_zero, Nat.zero_add]
    exact amounts_sum_ne_zero hne fun w hw => (hchecks w hw).1
  have hshift := shifted_of_return hpos hin hout
  have hconfig₁ : s₁.vaultMarketConfigs.get? (address, supplyId) = some supplyConfig := by
    rw [hcharged.others _ fun w hw heq => (hchecks w hw).2.1 (Prod.mk.inj heq).2.symm]
    exact hconfig
  obtain ⟨hflow, hmaxIn⟩ := shifted_put hs₁ hconfig₁ hshift
  obtain ⟨hs', hkept⟩ := configsKept_writeInvariant.reallocate_keeps _ trivial _ _ _ _ hrealloc
    (hs₁.putVaultMarketConfig _)
  have hconfigs₀ : s₀.vaultMarketConfigs = s.vaultMarketConfigs := by
    obtain ⟨holdings, vaultUsers, rfl⟩ := hpaid.tokensOnly
    rfl
  refine ⟨hs', fun key => ?_, fun v => ?_⟩
  · rw [hkept, hflow key, hcharged.flowTotal key]
    exact congrArg _ (congrArg (·.get? key) hconfigs₀)
  · have h₁ := hcharged.maxIn v
    have h₂ := hmaxIn v
    have h₀ : (s₀.putVault { vault with allocatorTerms := some { terms with accruedFee } }).vaultMaxIn v =
        s.vaultMaxIn v := by
      show s₀.vaultMarketConfigs.sum _ = _
      rw [hconfigs₀]
      rfl
    unfold ConfigsKept at hkept
    have h₃ : s'.vaultMaxIn v = (s₁.putVaultMarketConfig
        { supplyConfig with flowCaps := some ⟨maxIn, maxOut⟩ }).vaultMaxIn v := by
      unfold State.vaultMaxIn
      rw [hkept]
    rw [h₀] at h₁
    rw [htotal, UInt256.toNat_zero, Nat.zero_add] at h₂
    rw [h₃]
    by_cases hv : v = address
    · simp only [if_pos hv] at h₁ h₂
      omega
    · simp only [if_neg hv] at h₁ h₂
      omega

/-- Every operation keeps flow caps when its callback does: the public allocator charges and
returns them, and no other operation writes a config. -/
theorem flowKept_perform (sender target : Address) (op : Operation) {callback : Sim Unit}
    (hcb : Keeps (Guarded FlowKept) callback) :
    Keeps (Guarded FlowKept) (op.perform sender target callback) := by
  cases op with
  | publicReallocate withdrawals supplyId =>
    unfold Operation.perform
    exact Keeps.readOnly_bind (readOnly_lift _) fun _ =>
      publicReallocate_flowKept sender target withdrawals supplyId
  | _ =>
    exact Operation.perform_keeps_around configsKept_writeInvariant configsKept_absorbs
      (by trivial) (fun _ {_ _} h => FlowKept.of_configs_eq h) hcb

theorem flowKept_treeInvariant : TreeInvariant (Guarded FlowKept) (fun _ => True) where
  composes := Guarded.composes FlowKept.composes
  perform sender target op _ _ hcb := flowKept_perform sender target op hcb

/-- Flow caps are kept along every run of actions from a well-formed state. -/
theorem flowKept_runActions {index : Nat} {actions : List Action} (hs : s.WellFormed)
    (h : runActions index actions s = .ok s') : FlowKept s s' :=
  (flowKept_treeInvariant.list actions (listEverywhere_of_forall (fun _ => trivial) actions)
    index s s' h hs).2

end LendingSim
