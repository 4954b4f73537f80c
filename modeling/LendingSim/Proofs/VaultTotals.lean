import Mathlib
import LendingSim.Proofs.VaultWorth

/-!
# What a vault accrual counts and charges

An accrual of a vault adds up its idle balance and what it supplies on the markets of its queues,
each accrued to the block's time first. The markets are those of the withdraw queue as it stands,
followed by those of the supply queue it does not list (`accrualMarkets`), so a market the
withdraw queue lists twice is counted twice: the total is the idle balance plus, over the
distinct markets of both queues, the vault's supply on each, rounded down, as many times as the
withdraw queue lists it and at least once (`vault_accrual_counts_queue_markets`). Only where the
withdraw queue repeats no market, or the vault supplies nothing on those it repeats, is each
market counted once (`withdraw_queue_repeat_counted_twice` is a vault where it is not).

The performance fee is then charged on the interest, the total found above the last one
recorded: the fee's part of it, rounded down, is priced in shares against the assets without it,
rounding down again, minted to the fee recipient and added to the supply.
-/

namespace LendingSim

open Sim Perform

variable {s s' : State}

/-! ## How often an accrual counts a market -/

/-- One step of listing the markets of a queue: a market not listed yet is appended once. -/
theorem count_appendNew (acc : List MarketId) (q id : MarketId) :
    (if acc.contains q then acc else acc ++ [q]).count id =
      acc.count id + if id ∉ acc ∧ id = q then 1 else 0 := by
  by_cases hq : q ∈ acc
  · have hnew : ¬(id ∉ acc ∧ id = q) := fun ⟨hid, heq⟩ => hid (heq ▸ hq)
    simp [hq, hnew]
  · by_cases hid : id = q
    · subst hid
      simp [hq]
    · simp [hq, hid, Ne.symm hid]

/-- Listing the markets of a queue after `acc` adds a market once when the queue has it and `acc`
does not, and leaves every other count as it was. -/
theorem count_foldl_appendNew (id : MarketId) :
    ∀ (queue acc : List MarketId),
      (queue.foldl (fun ids id => if ids.contains id then ids else ids ++ [id]) acc).count id =
        acc.count id + if id ∉ acc ∧ id ∈ queue then 1 else 0
  | [], acc => by simp
  | q :: rest, acc => by
    rw [List.foldl_cons, count_foldl_appendNew id rest, count_appendNew]
    have hmem := (foldl_appendNew [q] acc).2 id
    simp only [List.foldl_cons, List.foldl_nil, List.mem_singleton] at hmem
    simp only [hmem, List.mem_cons]
    by_cases hacc : id ∈ acc
    · simp [hacc]
    · by_cases hid : id = q
      · simp [hid]
      · simp [hacc, hid]

/-- An accrual counts a market of the vault's queues as often as the withdraw queue lists it, and
at least once. -/
theorem count_accrualMarkets {v : Vault} {id : MarketId}
    (h : id ∈ v.withdrawQueue ∨ id ∈ v.supplyQueue) :
    (accrualMarkets v).count id = max 1 (v.withdrawQueue.count id) := by
  unfold accrualMarkets
  rw [count_foldl_appendNew]
  by_cases hw : id ∈ v.withdrawQueue
  · have hpos : 0 < v.withdrawQueue.count id := List.count_pos_iff.mpr hw
    rw [if_neg fun h => h.1 hw]
    omega
  · rw [if_pos ⟨hw, h.resolve_left hw⟩, List.count_eq_zero_of_not_mem hw]
    rfl

/-- A sum over the markets an accrual counts is a sum over the distinct markets of both queues,
each weighted by how often the accrual counts it. -/
theorem sum_accrualMarkets (v : Vault) (f : MarketId → Nat) :
    ((accrualMarkets v).map f).sum =
      ∑ id ∈ (v.withdrawQueue ++ v.supplyQueue).toFinset,
        max 1 (v.withdrawQueue.count id) * f id := by
  have hmarkets : (accrualMarkets v).toFinset = (v.withdrawQueue ++ v.supplyQueue).toFinset := by
    ext id
    simp [mem_accrualMarkets]
  rw [Finset.sum_list_map_count, hmarkets]
  refine Finset.sum_congr rfl fun id hid => ?_
  rw [count_accrualMarkets (by simpa using hid), smul_eq_mul]

/-- Adding up the vault's supply leaves every market it counted accrued to the block's time. -/
theorem addSupplied_current {vault : Address} :
    ∀ {ids : List MarketId} {total T : UInt256} {s s' : State}, s.WellFormed →
      addSupplied vault total ids s = .ok (T, s') →
      ∀ id ∈ ids, ∃ m, s'.markets.get? id = some m ∧ m.lastUpdate = s'.block.timestamp
  | [], _, _, _, _, _, _ => fun _ hid => absurd hid List.not_mem_nil
  | id :: rest, total, T, s, s', hs, h => by
    obtain ⟨m, s₁, total₁, hacc, h₂, -, hkept⟩ := addSupplied_cons_inv hs h
    intro id' hid
    rcases List.mem_cons.mp hid with rfl | hid
    · refine ⟨m, hkept.market.trans (accrueMarket_get? hacc hs), ?_⟩
      rw [hkept.block]
      exact accrueMarket_lastUpdate hacc
    · exact addSupplied_current (accrueMarket_wellFormed hacc hs) h₂ id' hid

/-! ## The fee -/

section Fee

variable {address : Address} {vault : Vault} {T totalSupply : UInt256} {s₁ s₂ : State}

/-- Charging the fee moves tokens only. -/
theorem FeeCharged.tokensOnly (h : FeeCharged address vault T s₁ s₂ totalSupply) :
    TokensOnly s₁ s₂ := by
  rcases h.feeMinted with ⟨rfl, -⟩ | ⟨feeShares, hmint, -⟩
  · exact TokensOnly.refl _
  · exact move_tokensOnly _ s₁ () s₂ hmint

/-- With no interest or no fee, an accrual mints nothing. -/
theorem FeeCharged.uncharged (h : FeeCharged address vault T s₁ s₂ totalSupply)
    (hnone : T.zeroFloorSub vault.lastTotalAssets = 0 ∨ vault.fee = 0) :
    s₂ = s₁ ∧ totalSupply = vault.totalSupply := by
  have hzero : (0 : UInt256).isZero = true := rfl
  unfold FeeCharged at h
  rw [if_neg (by rcases hnone with hnone | hnone <;> simp [hnone, hzero])] at h
  exact h

/-- With interest and a fee, an accrual prices the fee's part of the interest, rounded down, in
shares against the assets without it, rounding down again, mints them to the fee recipient and
adds them to the supply. -/
theorem FeeCharged.charged (hs₁ : s₁.WellFormed) (h : FeeCharged address vault T s₁ s₂ totalSupply)
    (hinterest : T.zeroFloorSub vault.lastTotalAssets ≠ 0) (hfee : vault.fee ≠ 0) :
    ∃ feeAssets feeShares : UInt256,
      UInt256.wadMul (T.zeroFloorSub vault.lastTotalAssets) vault.fee .down = .ok feeAssets ∧
      feeAssets.toNat ≤ T.toNat ∧
      Shares.toShares feeAssets (T.zeroFloorSub feeAssets) vault.totalSupply vault.virtualShares
        .down = .ok feeShares ∧
      totalSupply.toNat = vault.totalSupply.toNat + feeShares.toNat ∧
      (vault.feeRecipient ≠ .zero → (s₂.balanceOf vault.feeRecipient address).toNat =
        (s₁.balanceOf vault.feeRecipient address).toNat + feeShares.toNat) := by
  unfold FeeCharged at h
  have hcharged : (!(T.zeroFloorSub vault.lastTotalAssets).isZero && !vault.fee.isZero) = true := by
    rw [Bool.and_eq_true, Bool.not_eq_true', Bool.not_eq_true', Bool.eq_false_iff,
      Bool.eq_false_iff]
    exact ⟨mt UInt256.isZero_eq_true.mp hinterest, mt UInt256.isZero_eq_true.mp hfee⟩
  rw [if_pos hcharged] at h
  obtain ⟨feeAssets, before, feeShares, hfeeAssets, hbefore, hfeeShares, hmint⟩ := h
  obtain ⟨hdiff, hle⟩ := UInt256.checkedSub_toNat hbefore
  obtain rfl : before = T.zeroFloorSub feeAssets :=
    UInt256.ext (by rw [hdiff, UInt256.toNat_zeroFloorSub])
  refine ⟨feeAssets, feeShares, hfeeAssets, hle, hfeeShares, ?_⟩
  split at hmint
  · obtain ⟨hmove, htotal⟩ := hmint
    refine ⟨htotal, fun hrecipient => ?_⟩
    have := move_credits_destination hs₁ hmove hrecipient hrecipient
    exact this
  · next hnone =>
    obtain rfl : feeShares = 0 := UInt256.isZero_eq_true.mp (by simpa using hnone)
    obtain ⟨rfl, rfl⟩ := hmint
    exact ⟨rfl, fun _ => rfl⟩

end Fee

/-! ## An accrual's totals -/

/-- What an accrual of the vault `v` booked at `vault` stores as `v'`, from `s` to `s'`. -/
structure AccrualCounted (vault : Address) (v : Vault) (s s' : State) (v' : Vault) : Prop where
  /-- The total found is recorded as the last one too. -/
  lastTotalAssets : v'.lastTotalAssets = v'.totalAssets
  /-- Every market of the queues is accrued to the block's time. -/
  current : ∀ id ∈ v.withdrawQueue ++ v.supplyQueue,
    ∃ m, s'.markets.get? id = some m ∧ m.lastUpdate = s.block.timestamp
  /-- The total is the idle balance plus the supply on each distinct market of the queues,
  rounded down, counted as often as the withdraw queue lists the market and at least once. -/
  totalAssets : v'.totalAssets.toNat = (s.balanceOf vault v.asset).toNat +
    ∑ id ∈ (v.withdrawQueue ++ v.supplyQueue).toFinset,
      max 1 (v.withdrawQueue.count id) * s'.supplied vault id .down
  /-- With no interest or no fee, no share is minted. -/
  uncharged : v'.totalAssets.zeroFloorSub v.lastTotalAssets = 0 ∨ v.fee = 0 →
    v'.totalSupply = v.totalSupply ∧
      s'.balanceOf v.feeRecipient vault = s.balanceOf v.feeRecipient vault
  /-- With interest and a fee, the fee's part of the interest is priced in shares, both roundings
  down, and exactly those shares are added to the supply and minted to the fee recipient. -/
  charged : v'.totalAssets.zeroFloorSub v.lastTotalAssets ≠ 0 → v.fee ≠ 0 →
    ∃ feeAssets feeShares : UInt256,
      UInt256.wadMul (v'.totalAssets.zeroFloorSub v.lastTotalAssets) v.fee .down = .ok feeAssets ∧
      feeAssets.toNat ≤ v'.totalAssets.toNat ∧
      Shares.toShares feeAssets (v'.totalAssets.zeroFloorSub feeAssets) v.totalSupply
        v.virtualShares .down = .ok feeShares ∧
      v'.totalSupply.toNat = v.totalSupply.toNat + feeShares.toNat ∧
      (v.feeRecipient ≠ .zero → (s'.balanceOf v.feeRecipient vault).toNat =
        (s.balanceOf v.feeRecipient vault).toNat + feeShares.toNat)

/-- A vault accrual stores the idle balance plus what the vault supplies on the markets of its
queues, accrued, each market counted as often as the withdraw queue lists it and at least once,
and charges the fee on the interest above the last total. -/
theorem vault_accrual_counts_queue_markets (hs : s.WellFormed) {vault : Address} {v v' : Vault}
    (hvault : s.vaults.get? vault = some v) (h : accrueVault vault s = .ok (v', s')) :
    AccrualCounted vault v s s' v' := by
  obtain ⟨v₀, T, totalSupply, s₁, s₂, hv₀, hadd, hfee, rfl, rfl⟩ := accrueVault_charges h
  obtain rfl : v = v₀ := Option.some.inj (hvault.symm.trans hv₀)
  obtain ⟨hs₁, markets₁, positions₁, rfl⟩ := addSupplied_frame hs hadd
  have hkept : ∀ id, MarketKept id { s with markets := markets₁, positions := positions₁ }
      (s₂.putVault { v with totalSupply, totalAssets := T, lastTotalAssets := T }) := fun id =>
    (MarketKept.composes id).trans (MarketKept.of_tokensOnly (FeeCharged.tokensOnly hfee))
      ⟨rfl, rfl, fun _ => rfl⟩
  have hT := addSupplied_total hs hadd
  rw [sum_accrualMarkets] at hT
  refine
    { lastTotalAssets := rfl
      current := fun id hid => ?current
      totalAssets := ?totalAssets
      uncharged := fun hnone => ?uncharged
      charged := fun hinterest hfee' => ?charged }
  case current =>
    obtain ⟨m, hm, hclock⟩ := addSupplied_current hs hadd id
      (mem_accrualMarkets.mpr (List.mem_append.mp hid))
    exact ⟨m, (hkept id).market.trans hm, hclock⟩
  case totalAssets =>
    rw [Finset.sum_congr rfl fun id _ => by rw [(hkept id).supplied]]
    exact hT
  case uncharged =>
    obtain ⟨rfl, rfl⟩ := FeeCharged.uncharged hfee hnone
    exact ⟨rfl, rfl⟩
  case charged =>
    have hcharged := FeeCharged.charged hs₁ hfee hinterest hfee'
    exact hcharged

namespace AccrualSample

/-- The asset of the sample market and vault. -/
def asset : Address := ⟨0x140, by decide⟩

def vault : Address := ⟨0x141, by decide⟩

/-- A hundred supplied, all by the vault. -/
def market : Market :=
  { Market.new ⟨asset, ⟨0x142, by decide⟩, ⟨0x143, by decide⟩, ⟨0x144, by decide⟩, 0⟩ 0 with
      totalSupplyAssets := 100, totalSupplyShares := 100000000 }

/-- A vault whose withdraw queue lists `market` twice and whose supply queue lists it once; it
last recorded the hundred it supplies there. -/
def record : Vault :=
  { Vault.new vault asset 0 with
      supplyQueue := [market.id], withdrawQueue := [market.id, market.id], totalSupply := 100,
      totalAssets := 100, lastTotalAssets := 100 }

/-- The vault with its hundred on `market` and nothing idle. -/
def state : State :=
  let registry : Registry := ⟨⟨0x145, by decide⟩, ⟨0x146, by decide⟩, ⟨0x147, by decide⟩,
    ⟨0x148, by decide⟩, ⟨0x149, by decide⟩, none⟩
  (((State.new .ethereum ⟨0, 0⟩ registry).putMarket market).putVault record).putPosition
    { Position.empty vault market.id with supplyShares := 100000000 }

theorem state_wellFormed : state.WellFormed :=
  (((State.new_wellFormed _ _ _).putMarket _).putVault _).putPosition _

/-- The sample accrual succeeds, records two hundred, and leaves the vault supplying a hundred on
`market`. -/
theorem accrual_runs : ∃ v' s', accrueVault vault state = .ok (v', s') ∧
    (v'.totalAssets.toNat == 200 && s'.supplied vault market.id .down == 100) = true :=
  exists_eq_ok_of_check _ (by decide +kernel)

end AccrualSample

open AccrualSample in
/-- The sample accrual succeeds and stores what the vault's queues count. -/
theorem vault_accrual_counts_queue_markets_sample :
    ∃ v' s', accrueVault vault state = .ok (v', s') ∧ AccrualCounted vault record state s' v' := by
  obtain ⟨v', s', h, -⟩ := accrual_runs
  exact ⟨v', s', h, vault_accrual_counts_queue_markets state_wellFormed rfl h⟩

open AccrualSample in
/-- A withdraw queue that lists a market twice counts the vault's supply there twice: the vault
holds nothing idle and supplies a hundred, and its accrual records two hundred. -/
theorem withdraw_queue_repeat_counted_twice :
    ∃ v' s', accrueVault vault state = .ok (v', s') ∧ v'.totalAssets.toNat = 200 ∧
      (state.balanceOf vault asset).toNat +
        ∑ id ∈ (record.withdrawQueue ++ record.supplyQueue).toFinset,
          s'.supplied vault id .down = 100 := by
  obtain ⟨v', s', h, hcheck⟩ := accrual_runs
  rw [Bool.and_eq_true, beq_iff_eq, beq_iff_eq] at hcheck
  have hmarkets : (record.withdrawQueue ++ record.supplyQueue).toFinset = {market.id} := by
    simp [record]
  have hidle : state.balanceOf vault asset = 0 := rfl
  refine ⟨v', s', h, hcheck.1, ?_⟩
  rw [hmarkets, Finset.sum_singleton, hidle, hcheck.2]
  rfl

end LendingSim
