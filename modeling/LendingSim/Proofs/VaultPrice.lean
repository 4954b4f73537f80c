import Mathlib
import LendingSim.Proofs.Writes

/-!
# Vault share prices never fall

A vault's share is worth `(totalAssets + 1) / (totalSupply + virtualShares)` assets, the rational
`Shares.price`. A deposit converts its request at that rate rounding against the depositor and
raises both totals by the flow; a withdrawal converts rounding against the owner and lowers both
totals by the flow. Cross-multiplied, the price after is then at least the price before
(`mint_price_le`, `burn_price_le`), whichever side of the request was given.

The virtual shares are `10 ^ decimalsOffset` modulo `2 ^ 256`, never zero for an offset below 256
(`virtualSharesOfOffset_pos`). With at least one virtual share a withdrawal never pays out more
than the vault's total assets (`burn_assets_le`), so the floored subtraction that lowers them is
exact.

Main statement: `vault_share_price_never_falls`, for deposits and withdrawals of both kinds of
vault, with the price read off the vault as its own accrual returns it and as it is stored once
the operation is over.
-/

namespace LendingSim

namespace Shares

/-- What one share of a pool is worth in assets, `(totalAssets + 1) / (totalShares + virtualShares)`. -/
def price (totalAssets totalShares virtualShares : UInt256) : ℚ :=
  ((totalAssets.toNat + 1 : ℕ) : ℚ) / ((totalShares.toNat + virtualShares.toNat : ℕ) : ℚ)

/-- `10 ^ k` modulo `2 ^ 256` is not zero below `k = 256`: `2 ^ 256` is prime to `5 ^ k`, so it
would have to divide `2 ^ k`. -/
theorem virtualSharesOfOffset_pos {k : ℕ} (hk : k < 256) : 0 < (virtualSharesOfOffset k).toNat := by
  apply Nat.pos_of_ne_zero
  intro hzero
  have hdvd : 2 ^ 256 ∣ 2 ^ k * 5 ^ k := by
    rw [← Nat.mul_pow]
    exact Nat.dvd_of_mod_eq_zero hzero
  have hcoprime : Nat.Coprime (2 ^ 256) (5 ^ k) := Nat.Coprime.pow _ _ (by norm_num)
  have hle := (Nat.pow_dvd_pow_iff_le_right (by norm_num : 1 < 2)).mp
    (hcoprime.dvd_of_dvd_mul_right hdvd)
  omega

/-- Prices compare as their cross products when both share sides are positive. -/
theorem price_le_price {A S A' S' V : UInt256} (hS : 0 < S.toNat + V.toNat)
    (hS' : 0 < S'.toNat + V.toNat)
    (h : (A.toNat + 1) * (S'.toNat + V.toNat) ≤ (A'.toNat + 1) * (S.toNat + V.toNat)) :
    price A S V ≤ price A' S' V := by
  unfold price
  rw [div_le_div_iff₀ (by exact_mod_cast hS) (by exact_mod_cast hS')]
  exact_mod_cast h

/-! ## Minting and burning, cross-multiplied -/

/-- Minting at most what the assets are worth keeps the price from falling. -/
theorem mint_price_le {a sh A S V : ℕ} (h : sh * (A + 1) ≤ a * (S + V)) :
    (A + 1) * (S + sh + V) ≤ (A + a + 1) * (S + V) :=
  calc (A + 1) * (S + sh + V) = (A + 1) * (S + V) + sh * (A + 1) := by ring
    _ ≤ (A + 1) * (S + V) + a * (S + V) := Nat.add_le_add_left h _
    _ = (A + a + 1) * (S + V) := by ring

/-- Burning at least what the assets paid out are worth keeps the price from falling. -/
theorem burn_price_le {a sh A S V : ℕ} (h : a * (S + V) ≤ sh * (A + 1)) (hsh : sh ≤ S)
    (ha : a ≤ A) : (A + 1) * (S - sh + V) ≤ (A - a + 1) * (S + V) := by
  obtain ⟨S₀, rfl⟩ := Nat.exists_eq_add_of_le hsh
  obtain ⟨A₀, rfl⟩ := Nat.exists_eq_add_of_le ha
  rw [Nat.add_sub_cancel_left, Nat.add_sub_cancel_left]
  have hrest : a * (S₀ + V) ≤ sh * (A₀ + 1) := by nlinarith
  calc (a + A₀ + 1) * (S₀ + V) = a * (S₀ + V) + (A₀ + 1) * (S₀ + V) := by ring
    _ ≤ sh * (A₀ + 1) + (A₀ + 1) * (S₀ + V) := Nat.add_le_add_right hrest _
    _ = (A₀ + 1) * (sh + S₀ + V) := by ring

/-- With at least one virtual share, a burn priced against its owner pays out no more than the
pool holds. -/
theorem burn_assets_le {a sh A S V : ℕ} (hV : 0 < V) (h : a * (S + V) ≤ sh * (A + 1))
    (hsh : sh ≤ S) : a ≤ A := by
  by_contra hlt
  have hcross : (A + 1) * (S + V) ≤ (A + 1) * S :=
    calc (A + 1) * (S + V) ≤ a * (S + V) := Nat.mul_le_mul_right _ (by omega)
      _ ≤ sh * (A + 1) := h
      _ ≤ S * (A + 1) := Nat.mul_le_mul_right _ hsh
      _ = (A + 1) * S := Nat.mul_comm _ _
  have := Nat.le_of_mul_le_mul_left hcross (Nat.succ_pos A)
  omega

/-- A mint at most worth its assets never lowers the price; an empty share side mints nothing,
and the price, divided by zero, stays zero. -/
theorem price_le_of_mint {A S A' S' V : UInt256} {a sh : ℕ} (hA : A'.toNat = A.toNat + a)
    (hS : S'.toNat = S.toNat + sh) (h : sh * (A.toNat + 1) ≤ a * (S.toNat + V.toNat)) :
    price A S V ≤ price A' S' V := by
  rcases Nat.eq_zero_or_pos (S.toNat + V.toNat) with hzero | hpos
  · have hsh : sh = 0 := by
      rw [hzero, Nat.mul_zero, Nat.le_zero, Nat.mul_eq_zero] at h
      omega
    have hzero' : S'.toNat + V.toNat = 0 := by omega
    unfold price
    rw [hzero, hzero', Nat.cast_zero, div_zero, div_zero]
  · apply price_le_price hpos (by omega)
    rw [hA, hS, show S.toNat + sh + V.toNat = S.toNat + V.toNat + sh by ring]
    have := mint_price_le h
    rwa [show S.toNat + sh + V.toNat = S.toNat + V.toNat + sh by ring] at this

/-- A burn at least worth its assets, with at least one virtual share, takes no more than the
pool's assets and never lowers the price. -/
theorem price_le_of_burn {A S A' S' V : UInt256} {a sh : ℕ} (hV : 0 < V.toNat)
    (hA : A'.toNat = A.toNat - a) (hS : S'.toNat + sh = S.toNat)
    (h : a * (S.toNat + V.toNat) ≤ sh * (A.toNat + 1)) :
    a ≤ A.toNat ∧ price A S V ≤ price A' S' V := by
  have hsh : sh ≤ S.toNat := by omega
  have ha := burn_assets_le hV h hsh
  refine ⟨ha, price_le_price (by omega) (by omega) ?_⟩
  rw [hA, show S'.toNat = S.toNat - sh by omega]
  exact burn_price_le h hsh ha

end Shares

/-! ## Flows converted against the request -/

section Converted

open Shares

variable {A S V : UInt256} {flow : Flow}

/-- A deposit's flow buys no more shares than its assets are worth. -/
theorem Flow.Converted.mint_le
    (h : flow.Converted (toShares · A S V .down) (toAssets · A S V .up)) :
    flow.shares.toNat * (A.toNat + 1) ≤ flow.assets.toNat * (S.toNat + V.toNat) := by
  rcases h with hshares | hassets
  · exact toShares_down_mul_le hshares
  · exact le_toAssets_up_mul hassets

/-- A withdrawal's flow pays out no more assets than its shares are worth. -/
theorem Flow.Converted.burn_le
    (h : flow.Converted (toShares · A S V .up) (toAssets · A S V .down)) :
    flow.assets.toNat * (S.toNat + V.toNat) ≤ flow.shares.toNat * (A.toNat + 1) := by
  rcases h with hshares | hassets
  · exact le_toShares_up_mul hshares
  · exact toAssets_down_mul_le hassets

end Converted

/-- What one share of the vault is worth in assets. -/
def Vault.sharePrice (v : Vault) : ℚ := Shares.price v.totalAssets v.totalSupply v.virtualShares

/-- What one share of the second-kind vault is worth in assets. -/
def VaultV2.sharePrice (v : VaultV2) : ℚ :=
  Shares.price v.totalAssets v.totalSupply (Shares.virtualSharesOfOffset v.decimalsOffset)

open Sim Perform Shares

variable {s s' : State} {sender address : Address}

/-! ## Where each operation leaves the vault -/

/-- A deposit stores the accrued vault with both totals raised by a flow converted against the
depositor. -/
theorem vaultDeposit_stored {request : DepositRequest}
    (h : vaultDeposit sender address request s = .ok ((), s')) :
    ∃ (v : Vault) (s₁ : State) (v' : Vault) (flow : Flow), accrueVault address s = .ok (v, s₁) ∧
      s'.vaults.get? v.address = some v' ∧ v'.virtualShares = v.virtualShares ∧
      flow.Converted (v.toShares · .down) (v.toAssets · .up) ∧
      v'.totalSupply.toNat = v.totalSupply.toNat + flow.shares.toNat ∧
      v'.totalAssets.toNat = v.totalAssets.toNat + flow.assets.toNat := by
  obtain ⟨vault, flow, totalSupply, totalAssets, remaining, s₁, s₂, s₃, hacc, hflow, -, -, hts,
    hta, hsupply⟩ := vaultDeposit_inv h
  refine ⟨vault, s₁, { vault with totalSupply, totalAssets, lastTotalAssets := totalAssets }, flow,
    hacc, ?_, rfl, hflow, hts, hta⟩
  rw [supplyToMarkets_vaults hsupply, State.vaults_putVault, if_pos rfl]

/-- A withdrawal stores the accrued vault with both totals lowered by a flow converted against
the owner, the assets floored at zero. -/
theorem vaultWithdraw_stored {request : RedeemRequest}
    (h : vaultWithdraw sender address request s = .ok ((), s')) :
    ∃ (v : Vault) (s₁ : State) (v' : Vault) (flow : Flow), accrueVault address s = .ok (v, s₁) ∧
      s'.vaults.get? v.address = some v' ∧ v'.virtualShares = v.virtualShares ∧
      flow.Converted (v.toShares · .up) (v.toAssets · .down) ∧
      v'.totalSupply.toNat + flow.shares.toNat = v.totalSupply.toNat ∧
      v'.totalAssets.toNat = v.totalAssets.toNat - flow.assets.toNat := by
  obtain ⟨vault, flow, totalSupply, lacking, remaining, s₁, s₂, s₃, hacc, hflow, -, hts,
    hwithdraw, hpay⟩ := vaultWithdraw_inv h
  refine ⟨vault, s₁,
    { vault with totalSupply, totalAssets := vault.totalAssets.zeroFloorSub flow.assets,
                 lastTotalAssets := vault.totalAssets.zeroFloorSub flow.assets },
    flow, hacc, ?_, rfl, hflow, hts, rfl⟩
  rw [(move_vaultBooks hpay).1, withdrawFromMarkets_vaults hwithdraw, State.vaults_putVault,
    if_pos rfl]

theorem vaultV2Deposit_stored {request : DepositRequest}
    (h : vaultV2Deposit sender address request s = .ok ((), s')) :
    ∃ (v : VaultV2) (s₁ : State) (v' : VaultV2) (flow : Flow),
      accrueVaultV2 address s = .ok (v, s₁) ∧ s'.vaultV2s.get? v.address = some v' ∧
      v'.decimalsOffset = v.decimalsOffset ∧
      flow.Converted (v.toShares · .down) (v.toAssets · .up) ∧
      v'.totalSupply.toNat = v.totalSupply.toNat + flow.shares.toNat ∧
      v'.totalAssets.toNat = v.totalAssets.toNat + flow.assets.toNat := by
  obtain ⟨vault, flow, totalSupply, totalAssets, s₁, s₂, s₃, hacc, hflow, -, -, hts, hta,
    hforward⟩ := vaultV2Deposit_inv h
  refine ⟨vault, s₁, { vault with totalSupply, totalAssets }, flow, hacc, ?_, rfl, hflow, hts, hta⟩
  have hbook : s'.vaultV2s = (s₃.putVaultV2 { vault with totalSupply, totalAssets }).vaultV2s := by
    rcases hforward with ⟨-, rfl⟩ | ⟨adapterAddress, adapter, realAssets, s₄, -, -, hmove, -, rfl⟩
    · rfl
    · exact (move_vaultBooks hmove).2.1
  rw [hbook, State.vaultV2s_putVaultV2, if_pos rfl]

theorem vaultV2Withdraw_stored {request : RedeemRequest}
    (h : vaultV2Withdraw sender address request s = .ok ((), s')) :
    ∃ (v : VaultV2) (s₁ : State) (v' : VaultV2) (flow : Flow),
      accrueVaultV2 address s = .ok (v, s₁) ∧ s'.vaultV2s.get? v.address = some v' ∧
      v'.decimalsOffset = v.decimalsOffset ∧
      flow.Converted (v.toShares · .up) (v.toAssets · .down) ∧
      v'.totalSupply.toNat + flow.shares.toNat = v.totalSupply.toNat ∧
      v'.totalAssets.toNat = v.totalAssets.toNat - flow.assets.toNat := by
  obtain ⟨vault, flow, totalSupply, s₁, s₂, s₃, s₄, hacc, hflow, -, -, -, hts, rfl⟩ :=
    vaultV2Withdraw_inv h
  refine ⟨vault, s₁,
    { vault with totalSupply, totalAssets := vault.totalAssets.zeroFloorSub flow.assets },
    flow, hacc, ?_, rfl, hflow, hts, rfl⟩
  rw [State.vaultV2s_putVaultV2, if_pos rfl]

/-- The accrued vault has the decimals offset of the vault stored at its address. -/
theorem accrueVault_decimalsOffset {v : Vault} {s₁ : State}
    (h : accrueVault address s = .ok (v, s₁)) :
    ∃ w ∈ s.vaults.get? address, w.decimalsOffset = v.decimalsOffset := by
  obtain ⟨vault, totalAssets, totalSupply, s₁, s₂, hvault, -, -, rfl, -⟩ := accrueVault_inv h
  exact ⟨vault, hvault, rfl⟩

theorem accrueVaultV2_decimalsOffset {v : VaultV2} {s₁ : State}
    (h : accrueVaultV2 address s = .ok (v, s₁)) :
    ∃ w ∈ s.vaultV2s.get? address, w.decimalsOffset = v.decimalsOffset := by
  obtain ⟨vault, totalAssets, hvault, rfl, -⟩ := accrueVaultV2_inv h
  exact ⟨vault, hvault, rfl⟩

/-! ## No operation dilutes the holders -/

/-- Deposits and withdrawals of both kinds of vault never lower the price of a share: the price
the vault is stored at afterwards is at least the price its own accrual returned. Withdrawals,
from a vault whose decimals offset fits a byte, lower the total assets by exactly the assets of
a flow converted against the owner, never floored at zero. -/
theorem vault_share_price_never_falls :
    (∀ request, vaultDeposit sender address request s = .ok ((), s') →
      ∃ v s₁ v', accrueVault address s = .ok (v, s₁) ∧ s'.vaults.get? v.address = some v' ∧
        v.sharePrice ≤ v'.sharePrice) ∧
    (∀ request, vaultWithdraw sender address request s = .ok ((), s') →
      (∀ w ∈ s.vaults.get? address, w.decimalsOffset < 256) →
      ∃ (v : Vault) (s₁ : State) (v' : Vault) (flow : Flow), accrueVault address s = .ok (v, s₁) ∧
        s'.vaults.get? v.address = some v' ∧ v.sharePrice ≤ v'.sharePrice ∧
        flow.Converted (v.toShares · .up) (v.toAssets · .down) ∧
        v'.totalSupply.toNat + flow.shares.toNat = v.totalSupply.toNat ∧
        v'.totalAssets.toNat + flow.assets.toNat = v.totalAssets.toNat) ∧
    (∀ request, vaultV2Deposit sender address request s = .ok ((), s') →
      ∃ v s₁ v', accrueVaultV2 address s = .ok (v, s₁) ∧
        s'.vaultV2s.get? v.address = some v' ∧ v.sharePrice ≤ v'.sharePrice) ∧
    (∀ request, vaultV2Withdraw sender address request s = .ok ((), s') →
      (∀ w ∈ s.vaultV2s.get? address, w.decimalsOffset < 256) →
      ∃ (v : VaultV2) (s₁ : State) (v' : VaultV2) (flow : Flow),
        accrueVaultV2 address s = .ok (v, s₁) ∧ s'.vaultV2s.get? v.address = some v' ∧
        v.sharePrice ≤ v'.sharePrice ∧
        flow.Converted (v.toShares · .up) (v.toAssets · .down) ∧
        v'.totalSupply.toNat + flow.shares.toNat = v.totalSupply.toNat ∧
        v'.totalAssets.toNat + flow.assets.toNat = v.totalAssets.toNat) := by
  refine ⟨fun request h => ?_, fun request h hoffset => ?_, fun request h => ?_,
    fun request h hoffset => ?_⟩
  case refine_1 =>
    obtain ⟨v, s₁, v', flow, hacc, hget, hV, hflow, hts, hta⟩ := vaultDeposit_stored h
    refine ⟨v, s₁, v', hacc, hget, ?_⟩
    rw [Vault.sharePrice, Vault.sharePrice, hV]
    exact price_le_of_mint hta hts hflow.mint_le
  case refine_2 =>
    obtain ⟨v, s₁, v', flow, hacc, hget, hV, hflow, hts, hta⟩ := vaultWithdraw_stored h
    obtain ⟨w, hw, hoffset'⟩ := accrueVault_decimalsOffset hacc
    have hpos : 0 < v.virtualShares.toNat :=
      virtualSharesOfOffset_pos (hoffset'.symm ▸ hoffset w hw)
    obtain ⟨hle, hprice⟩ := price_le_of_burn hpos hta hts hflow.burn_le
    refine ⟨v, s₁, v', flow, hacc, hget, ?_, hflow, hts, by omega⟩
    rw [Vault.sharePrice, Vault.sharePrice, hV]
    exact hprice
  case refine_3 =>
    obtain ⟨v, s₁, v', flow, hacc, hget, hoffset, hflow, hts, hta⟩ := vaultV2Deposit_stored h
    refine ⟨v, s₁, v', hacc, hget, ?_⟩
    rw [VaultV2.sharePrice, VaultV2.sharePrice, hoffset]
    exact price_le_of_mint hta hts hflow.mint_le
  case refine_4 =>
    obtain ⟨v, s₁, v', flow, hacc, hget, hoffset', hflow, hts, hta⟩ := vaultV2Withdraw_stored h
    obtain ⟨w, hw, hw'⟩ := accrueVaultV2_decimalsOffset hacc
    have hpos : 0 < (virtualSharesOfOffset v.decimalsOffset).toNat :=
      virtualSharesOfOffset_pos (hw' ▸ hoffset w hw)
    obtain ⟨hle, hprice⟩ := price_le_of_burn hpos hta hts hflow.burn_le
    refine ⟨v, s₁, v', flow, hacc, hget, ?_, hflow, hts, by omega⟩
    rw [VaultV2.sharePrice, VaultV2.sharePrice, hoffset']
    exact hprice

/-! ## A sample of runs -/

namespace Sample

/-- The asset of both sample vaults, lent on `market`. -/
def asset : Address := ⟨0xa0, by decide⟩

def user : Address := ⟨0xc0, by decide⟩

def vault : Address := ⟨0xd0, by decide⟩

def vaultV2 : Address := ⟨0xd1, by decide⟩

def market : Market :=
  Market.new ⟨asset, ⟨0xa1, by decide⟩, ⟨0xa2, by decide⟩, ⟨0xa3, by decide⟩, 0⟩ 0

/-- A vault with fifty assets idle and `market` in both queues, capped at a thousand, and a
second-kind vault with thirty idle; the user holds a hundred assets, fifty shares of the first
vault and thirty of the second, and lets both pull its assets. -/
def state : State :=
  let registry : Registry := ⟨⟨0xb0, by decide⟩, ⟨0xb1, by decide⟩, ⟨0xb2, by decide⟩,
    ⟨0xb3, by decide⟩, ⟨0xb4, by decide⟩, none⟩
  let books := (((State.new .ethereum ⟨0, 0⟩ registry).putMarket market).putVault
    { Vault.new vault asset 0 with
        supplyQueue := [market.id], withdrawQueue := [market.id], totalSupply := 50,
        totalAssets := 50, lastTotalAssets := 50 }).putVaultV2
    { VaultV2.new vaultV2 asset 0 0 with totalSupply := 30, totalAssets := 30 }
  let configured := ((books.putVaultMarketConfig (VaultMarketConfig.new vault market.id 1000)).putVaultUser
    { VaultUser.new vault user with allowance := UInt256.maxValue }).putVaultUser
    { VaultUser.new vaultV2 user with allowance := UInt256.maxValue }
  [(user, asset, 100), (vault, asset, 50), (vaultV2, asset, 30), (user, vault, 50),
    (user, vaultV2, 30)].foldl
    (fun s (owner, token, balance) => s.putHolding { Holding.empty owner token with balance })
    configured

/-- A hundred assets deposited for the user. -/
def deposit : DepositRequest := ⟨Int256.ofBits 100, Int256.ofBits 0, user, none⟩

/-- Twenty assets withdrawn by the user to itself. -/
def redeem : RedeemRequest := ⟨Int256.ofBits 20, Int256.ofBits 0, user, user, none⟩

end Sample

open Sample in
/-- Depositing into and withdrawing from each sample vault: every run succeeds, and the price of
a share does not fall. -/
theorem vault_share_price_never_falls_sample :
    (∃ s', vaultDeposit user vault deposit state = .ok ((), s') ∧
      ∃ v s₁ v', accrueVault vault state = .ok (v, s₁) ∧ s'.vaults.get? v.address = some v' ∧
        v.sharePrice ≤ v'.sharePrice) ∧
    (∃ s', vaultWithdraw user vault redeem state = .ok ((), s') ∧
      (∀ w ∈ state.vaults.get? vault, w.decimalsOffset < 256) ∧
      ∃ (v : Vault) (s₁ : State) (v' : Vault) (flow : Flow), accrueVault vault state = .ok (v, s₁) ∧
        s'.vaults.get? v.address = some v' ∧ v.sharePrice ≤ v'.sharePrice ∧
        flow.Converted (v.toShares · .up) (v.toAssets · .down) ∧
        v'.totalSupply.toNat + flow.shares.toNat = v.totalSupply.toNat ∧
        v'.totalAssets.toNat + flow.assets.toNat = v.totalAssets.toNat) ∧
    (∃ s', vaultV2Deposit user vaultV2 deposit state = .ok ((), s') ∧
      ∃ v s₁ v', accrueVaultV2 vaultV2 state = .ok (v, s₁) ∧
        s'.vaultV2s.get? v.address = some v' ∧ v.sharePrice ≤ v'.sharePrice) ∧
    (∃ s', vaultV2Withdraw user vaultV2 redeem state = .ok ((), s') ∧
      (∀ w ∈ state.vaultV2s.get? vaultV2, w.decimalsOffset < 256) ∧
      ∃ (v : VaultV2) (s₁ : State) (v' : VaultV2) (flow : Flow),
        accrueVaultV2 vaultV2 state = .ok (v, s₁) ∧ s'.vaultV2s.get? v.address = some v' ∧
        v.sharePrice ≤ v'.sharePrice ∧ flow.Converted (v.toShares · .up) (v.toAssets · .down) ∧
        v'.totalSupply.toNat + flow.shares.toNat = v.totalSupply.toNat ∧
        v'.totalAssets.toNat + flow.assets.toNat = v.totalAssets.toNat) := by
  obtain ⟨⟨⟨⟩, s₁⟩, h₁⟩ := Except.exists_eq_ok
    (x := vaultDeposit user vault deposit state) (by decide +kernel)
  obtain ⟨⟨⟨⟩, s₂⟩, h₂⟩ := Except.exists_eq_ok
    (x := vaultWithdraw user vault redeem state) (by decide +kernel)
  obtain ⟨⟨⟨⟩, s₃⟩, h₃⟩ := Except.exists_eq_ok
    (x := vaultV2Deposit user vaultV2 deposit state) (by decide +kernel)
  obtain ⟨⟨⟨⟩, s₄⟩, h₄⟩ := Except.exists_eq_ok
    (x := vaultV2Withdraw user vaultV2 redeem state) (by decide +kernel)
  have hoffset : ∀ w ∈ state.vaults.get? vault, w.decimalsOffset < 256 := by decide +kernel
  have hoffsetV2 : ∀ w ∈ state.vaultV2s.get? vaultV2, w.decimalsOffset < 256 := by decide +kernel
  exact ⟨⟨s₁, h₁, vault_share_price_never_falls.1 deposit h₁⟩,
    ⟨s₂, h₂, hoffset, vault_share_price_never_falls.2.1 redeem h₂ hoffset⟩,
    ⟨s₃, h₃, vault_share_price_never_falls.2.2.1 deposit h₃⟩,
    ⟨s₄, h₄, hoffsetV2, vault_share_price_never_falls.2.2.2 redeem h₄ hoffsetV2⟩⟩

end LendingSim
