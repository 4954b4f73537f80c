import LendingSim.Proofs.VaultWorth

/-!
# What a second-kind vault records after its own flows

A second-kind vault holds its idle balance of its asset and the real assets of the adapters whose
parent it is (`State.heldV2`); an accrual adds these up and stores the sum as the vault's total
assets. A deposit pulls its assets into the idle balance and may pass them on to the liquidity
adapter, which records them as real assets; a withdrawal first takes back from that adapter what
the idle balance lacks, then pays the receiver. Each move shifts between the parts of the sum, or
out of it, exactly what the handler adds to or takes off the recorded total, so after either flow
the vault records what it holds and the next accrual stores the same total
(`vaultV2_flows_keep_total_assets`).

That needs the vault off the zero address: a transfer to the zero address burns and one from it
mints, so a vault there holds nothing idle, and a deposit into it raises the record alone.
-/

namespace LendingSim

open Sim Perform

variable {s s' : State}

/-! ## Adding up a vault's holdings -/

namespace UInt256

/-- Adding up a list with checked additions gives the exact total, or overflow once the total
reaches `2 ^ 256`. -/
theorem foldlM_checkedAdd {γ : Type} (g : γ → UInt256) :
    ∀ (l : List γ) (init : UInt256),
      l.foldlM (fun total c => total.checkedAdd (g c)) init =
        if size ≤ init.toNat + (l.map fun c => (g c).toNat).sum then .error .overflow
        else .ok (ofNat (init.toNat + (l.map fun c => (g c).toNat).sum))
  | [], init => by
    rw [List.map_nil, List.sum_nil, Nat.add_zero, if_neg (Nat.not_le.mpr init.isLt)]
    exact congrArg Except.ok (ext (toNat_ofNat_of_lt init.isLt).symm)
  | c :: l, init => by
    rw [List.foldlM_cons, checkedAdd_eq, List.map_cons, List.sum_cons]
    split
    · next hover =>
      rw [if_pos (by omega)]
      rfl
    · next hfits =>
      show l.foldlM _ (ofNat (init.toNat + (g c).toNat)) = _
      rw [foldlM_checkedAdd g l, toNat_ofNat_of_lt (by omega), Nat.add_assoc]

end UInt256

namespace State

/-- The real assets recorded by the adapters whose parent is `vault`. -/
def adapterAssets (s : State) (vault : Address) : Nat :=
  s.vaultV2Adapters.sum fun adapter =>
    if adapter.parentVault = vault then adapter.realAssets.toNat else 0

/-- What the second-kind vault at `vault` holds of `asset`: its idle balance and its adapters'
real assets. -/
def heldV2 (s : State) (vault asset : Address) : Nat :=
  (s.balanceOf vault asset).toNat + s.adapterAssets vault

@[simp]
theorem heldV2_putVaultV2 (v : VaultV2) (vault asset : Address) :
    (s.putVaultV2 v).heldV2 vault asset = s.heldV2 vault asset := rfl

/-- The adapters an accrual walks over record, together, the vault's adapter assets. -/
theorem sum_realAssets_filter (s : State) (vault : Address) :
    ((s.vaultV2Adapters.values.filter (·.parentVault == vault)).map
      fun adapter => adapter.realAssets.toNat).sum = s.adapterAssets vault := by
  unfold adapterAssets Book.sum
  rw [List.sum_map_ite]
  simp only [List.map_const', List.sum_replicate, smul_zero, Nat.add_zero]
  rfl

/-- Storing an adapter of `vault` with new real assets replaces its old ones in the vault's
adapter assets. -/
theorem adapterAssets_putVaultV2Adapter (hs : s.WellFormed) {address vault : Address}
    {adapter : VaultV2Adapter} (hget : s.vaultV2Adapters.get? address = some adapter)
    (hparent : adapter.parentVault = vault) (realAssets : UInt256) :
    (s.putVaultV2Adapter { adapter with realAssets }).adapterAssets vault +
        adapter.realAssets.toNat = s.adapterAssets vault + realAssets.toNat := by
  have hkey : adapter.address = address := hs.vaultV2Adapter_address hget
  have hsum := Book.sum_insert hs.vaultV2Adapters.1 address { adapter with realAssets }
    fun a => if a.parentVault = vault then a.realAssets.toNat else 0
  rw [hget, Option.elim_some, ← hkey] at hsum
  simp only [if_pos hparent] at hsum
  exact hsum

end State

/-! ## What each step does to the holdings -/

section Moves

variable {m : Movement} {vault : Address}

/-- No movement changes the adapters' records. -/
theorem move_adapterAssets (h : move m s = .ok ((), s')) (vault : Address) :
    s'.adapterAssets vault = s.adapterAssets vault := by
  unfold State.adapterAssets
  rw [(move_vaultBooks h).2.2]

/-- A movement of another token leaves the vault's holdings of `asset` as they were. -/
theorem move_heldV2_of_ne (hs : s.WellFormed) (h : move m s = .ok ((), s')) (vault : Address)
    {asset : Address} (htoken : asset ≠ m.token) : s'.heldV2 vault asset = s.heldV2 vault asset := by
  unfold State.heldV2
  rw [move_balanceOf_of_ne hs h vault htoken, move_adapterAssets h]

/-- A movement into a vault off the zero address, from someone else, adds its amount to what the
vault holds. -/
theorem move_heldV2_into (hs : s.WellFormed) (h : move m s = .ok ((), s'))
    (hdestination : m.destination = vault) (hzero : vault ≠ .zero) (hsource : m.source ≠ vault) :
    s'.heldV2 vault m.token = s.heldV2 vault m.token + m.amount.toNat := by
  subst hdestination
  unfold State.heldV2
  rw [move_credits_destination hs h hzero (Ne.symm hsource), move_adapterAssets h]
  omega

/-- A movement out of a vault off the zero address, to someone else, takes its amount from what
the vault holds. -/
theorem move_heldV2_out (hs : s.WellFormed) (h : move m s = .ok ((), s'))
    (hsource : m.source = vault) (hzero : vault ≠ .zero) (hdestination : m.destination ≠ vault) :
    s'.heldV2 vault m.token + m.amount.toNat = s.heldV2 vault m.token := by
  subst hsource
  unfold State.heldV2
  have htaken := move_takes_from_source hs h hzero (Ne.symm hdestination)
  rw [move_adapterAssets h]
  omega

end Moves

/-! ## Accruing a second-kind vault -/

theorem Sim.wp_lift_ok {α β : Type} {a : α} {f : α → Sim β} {Q : β → State → Prop}
    {E : Fault → Prop} : wp (lift (.ok a) >>= f) Q E s ↔ wp (f a) Q E s := Iff.rfl

/-- Accruing the second-kind vault at `address` stores it with what it holds as its total assets
and the block's time as its clock, and fails only by overflow, when that sum does not fit in a
word. -/
theorem accrueVaultV2_wp {address : Address} {v : VaultV2}
    (hvault : s.vaultV2s.get? address = some v) :
    wp (accrueVaultV2 address)
      (fun v' s' => ∃ totalAssets : UInt256, totalAssets.toNat = s.heldV2 address v.asset ∧
        v' = { v with totalAssets, lastUpdate := s.block.timestamp } ∧ s' = s.putVaultV2 v')
      (fun e => e = .arith .overflow ∧ UInt256.size ≤ s.heldV2 address v.asset) s := by
  have hread : s.vaultV2 address = .ok v := by
    unfold State.vaultV2
    rw [hvault]
  unfold accrueVaultV2
  simp only [foldlM_arith]
  rw [wp_read, hread, Sim.wp_lift_ok, wp_bind, wp_arith, UInt256.foldlM_checkedAdd,
    State.sum_realAssets_filter]
  refine ⟨fun total htotal => ?_, fun e he => ?_⟩
  · split at htotal
    · cases htotal
    · next hfits =>
      cases htotal
      rw [wp_modify, wp_pure]
      exact ⟨_, UInt256.toNat_ofNat_of_lt (Nat.lt_of_not_le hfits), rfl, rfl⟩
  · split at he
    · next hover =>
      cases he
      exact ⟨rfl, hover⟩
    · cases he

/-- A vault that records what it holds, and is accrued again, keeps its total assets: the
accrual stores it with only its clock moved. -/
theorem accrueVaultV2_of_recorded {address : Address} {v : VaultV2}
    (hvault : s.vaultV2s.get? address = some v)
    (htotal : v.totalAssets.toNat = s.heldV2 address v.asset) :
    accrueVaultV2 address s = .ok ({ v with lastUpdate := s.block.timestamp },
      s.putVaultV2 { v with lastUpdate := s.block.timestamp }) := by
  have hwp := accrueVaultV2_wp hvault
  unfold wp at hwp
  split at hwp
  · next p hp =>
    obtain ⟨totalAssets, hheld, hv', hs'⟩ := hwp
    have hsame : totalAssets = v.totalAssets := UInt256.ext (hheld.trans htotal.symm)
    obtain ⟨v', s''⟩ := p
    dsimp only at hv' hs'
    subst hv' hs' hsame
    exact hp
  · exact absurd (htotal ▸ v.totalAssets.isLt) (Nat.not_lt.mpr hwp.2)

/-- The second-kind vault at `address` records as its total assets exactly what it holds, so
accruing it again stores it with the same total and only its clock moved. -/
def State.RecordsHeld (s : State) (address : Address) : Prop :=
  ∃ v, s.vaultV2s.get? address = some v ∧ v.totalAssets.toNat = s.heldV2 address v.asset ∧
    accrueVaultV2 address s = .ok ({ v with lastUpdate := s.block.timestamp },
      s.putVaultV2 { v with lastUpdate := s.block.timestamp })

theorem recordsHeld_of_totalAssets {address : Address} {v : VaultV2}
    (hvault : s.vaultV2s.get? address = some v)
    (htotal : v.totalAssets.toNat = s.heldV2 address v.asset) : s.RecordsHeld address :=
  ⟨v, hvault, htotal, accrueVaultV2_of_recorded hvault htotal⟩

/-! ## What the liquidity adapter does to the holdings -/

/-- The adapter `adapter?` names, if any, is not the vault at `address` and is booked, if at all,
as an adapter of that vault. -/
def State.AdapterOf (s : State) (address : Address) (adapter? : Option Address) : Prop :=
  ∀ adapterAddress, adapter? = some adapterAddress →
    adapterAddress ≠ address ∧
      ∀ adapter, s.vaultV2Adapters.get? adapterAddress = some adapter →
        adapter.parentVault = address

theorem State.AdapterOf.of_adapters {address : Address} {adapter? : Option Address}
    (h : s.AdapterOf address adapter?) (hadapters : s'.vaultV2Adapters = s.vaultV2Adapters) :
    s'.AdapterOf address adapter? := by
  unfold State.AdapterOf
  rw [hadapters]
  exact h

section Adapter

variable {address asset : Address} {adapter? : Option Address} (hs : s.WellFormed)
  (hzero : address ≠ .zero) (hadapter : s.AdapterOf address adapter?)
include hs hzero hadapter

/-- Passing deposited assets on to the vault's adapter keeps what the vault holds: they leave the
idle balance and the adapter records them. -/
theorem Perform.Forwarded.heldV2 {amount : UInt256} (h : Forwarded address asset adapter? amount s s') :
    s'.vaultV2s = s.vaultV2s ∧ s'.heldV2 address asset = s.heldV2 address asset := by
  rcases h with ⟨-, rfl⟩ | ⟨adapterAddress, adapter, realAssets, s₁, rfl, hget, hmove, hreal, rfl⟩
  · exact ⟨rfl, rfl⟩
  · obtain ⟨hne, hparent⟩ := hadapter adapterAddress rfl
    have hout := move_heldV2_out hs hmove rfl hzero hne
    dsimp only at hout
    have hget₁ : s₁.vaultV2Adapters.get? adapterAddress = some adapter := by
      rw [(move_vaultBooks hmove).2.2]
      exact hget
    have hrecorded := State.adapterAssets_putVaultV2Adapter (move_wellFormed hs hmove) hget₁
      (hparent adapter hget) realAssets
    have hkept := move_adapterAssets hmove address
    refine ⟨(move_vaultBooks hmove).2.1, ?_⟩
    unfold State.heldV2 at hout ⊢
    change (s₁.balanceOf address asset).toNat + _ = _
    omega

/-- Taking back from the vault's adapter what the idle balance lacks keeps what the vault holds:
the adapter records as much less as comes back. -/
theorem Perform.Pulled.heldV2 {assets : UInt256} (h : Pulled address asset adapter? assets s s') :
    s'.WellFormed ∧ s'.heldV2 address asset = s.heldV2 address asset := by
  rcases h with ⟨-, rfl⟩ | ⟨adapterAddress, adapter, missing, s₁, rfl, hget, -, hcovered, hmove, rfl⟩
  · exact ⟨hs, rfl⟩
  · obtain ⟨hne, hparent⟩ := hadapter adapterAddress rfl
    have hin := move_heldV2_into hs hmove rfl hzero hne
    dsimp only at hin
    have hget₁ : s₁.vaultV2Adapters.get? adapterAddress = some adapter := by
      rw [(move_vaultBooks hmove).2.2]
      exact hget
    have hrecorded := State.adapterAssets_putVaultV2Adapter (move_wellFormed hs hmove) hget₁
      (hparent adapter hget) (adapter.realAssets.zeroFloorSub missing)
    rw [UInt256.toNat_zeroFloorSub] at hrecorded
    have hkept := move_adapterAssets hmove address
    refine ⟨(move_wellFormed hs hmove).putVaultV2Adapter _, ?_⟩
    unfold State.heldV2 at hin ⊢
    change (s₁.balanceOf address asset).toNat + _ = _
    omega

end Adapter

/-! ## Deposits and withdrawals -/

section Flows

variable {address : Address} {v : VaultV2} (hs : s.WellFormed)
  (hvault : s.vaultV2s.get? address = some v) (hzero : address ≠ .zero)
  (hasset : v.asset ≠ address) (hadapter : s.AdapterOf address v.liquidityAdapter)
include hs hvault hzero hasset hadapter

/-- After a deposit from someone other than the vault, the vault records what it holds: the
deposit's assets come into the idle balance, pass on to the liquidity adapter if there is one,
and are added to the total the accrual stored. -/
theorem vaultV2Deposit_recordsHeld {sender : Address} {request : DepositRequest}
    (hsender : sender ≠ address) (h : vaultV2Deposit sender address request s = .ok ((), s')) :
    s'.RecordsHeld address := by
  obtain ⟨vault, flow, totalSupply, totalAssets, s₁, s₂, s₃, hacc, -, hpull, hmint, -, htotal,
    hforward⟩ := vaultV2Deposit_inv h
  obtain ⟨T, hT, rfl, rfl⟩ := (wp_of_eq_ok hacc).mp (accrueVaultV2_wp hvault)
  set accrued : VaultV2 := { v with totalAssets := T, lastUpdate := s.block.timestamp }
  have hs₁ := hs.putVaultV2 accrued
  have hs₂ := move_wellFormed hs₁ hpull
  have hpulled := move_heldV2_into hs₁ hpull rfl hzero hsender
  change s₂.heldV2 address v.asset = s.heldV2 address v.asset + flow.assets.toNat at hpulled
  have hminted := move_heldV2_of_ne hs₂ hmint address hasset
  set stored : VaultV2 := { accrued with totalSupply, totalAssets }
  have hadapters : (s₃.putVaultV2 stored).vaultV2Adapters = s.vaultV2Adapters := by
    show s₃.vaultV2Adapters = _
    rw [(move_vaultBooks hmint).2.2, (move_vaultBooks hpull).2.2]
    rfl
  obtain ⟨hvaults, hforwarded⟩ := Forwarded.heldV2
    ((move_wellFormed hs₂ hmint).putVaultV2 stored) hzero (hadapter.of_adapters hadapters) hforward
  have hstored : s'.vaultV2s.get? address = some stored := by
    rw [hvaults, State.vaultV2s_putVaultV2, if_pos (hs.vaultV2_address hvault).symm]
  refine recordsHeld_of_totalAssets hstored ?_
  change totalAssets.toNat = s'.heldV2 address v.asset
  rw [hforwarded, State.heldV2_putVaultV2, hminted, hpulled, htotal, hT]

/-- After a withdrawal to someone other than the vault, the vault records what it holds: what
the idle balance lacks comes back from the liquidity adapter, and the assets paid out leave the
holdings as they leave the record. -/
theorem vaultV2Withdraw_recordsHeld {sender : Address} {request : RedeemRequest}
    (hreceiver : request.receiver ≠ address)
    (h : vaultV2Withdraw sender address request s = .ok ((), s')) : s'.RecordsHeld address := by
  obtain ⟨vault, flow, totalSupply, s₁, s₂, s₃, s₄, hacc, -, hpull, hburn, hpay, -, rfl⟩ :=
    vaultV2Withdraw_inv h
  obtain ⟨T, hT, rfl, rfl⟩ := (wp_of_eq_ok hacc).mp (accrueVaultV2_wp hvault)
  set accrued : VaultV2 := { v with totalAssets := T, lastUpdate := s.block.timestamp }
  obtain ⟨hs₂, hpulled⟩ := Pulled.heldV2 (hs.putVaultV2 accrued) hzero hadapter hpull
  rw [State.heldV2_putVaultV2] at hpulled
  have hburnt := move_heldV2_of_ne hs₂ hburn address hasset
  have hpaid := move_heldV2_out (move_wellFormed hs₂ hburn) hpay rfl hzero hreceiver
  change s₄.heldV2 address v.asset + flow.assets.toNat = s₃.heldV2 address v.asset at hpaid
  set stored : VaultV2 := { accrued with totalSupply, totalAssets := T.zeroFloorSub flow.assets }
  have hstored : (s₄.putVaultV2 stored).vaultV2s.get? address = some stored := by
    rw [State.vaultV2s_putVaultV2, if_pos (hs.vaultV2_address hvault).symm]
  refine recordsHeld_of_totalAssets hstored ?_
  change T.toNat - flow.assets.toNat = (s₄.putVaultV2 stored).heldV2 address v.asset
  rw [State.heldV2_putVaultV2]
  change s₂.heldV2 address v.asset = s.heldV2 address v.asset at hpulled
  omega

end Flows

/-- Deposits into a second-kind vault and withdrawals from it, from and to anyone but the vault,
keep its total assets at exactly its idle balance plus its adapters' real assets, so the next
accrual stores the same total; this needs the vault off the zero address, its asset not its own
share token, and its liquidity adapter one of its own. -/
theorem vaultV2_flows_keep_total_assets (hs : s.WellFormed) {address : Address} {v : VaultV2}
    (hvault : s.vaultV2s.get? address = some v) (hzero : address ≠ .zero)
    (hasset : v.asset ≠ address) (hadapter : s.AdapterOf address v.liquidityAdapter) :
    (∀ sender (request : DepositRequest) s', sender ≠ address →
      vaultV2Deposit sender address request s = .ok ((), s') → s'.RecordsHeld address) ∧
    (∀ sender (request : RedeemRequest) s', request.receiver ≠ address →
      vaultV2Withdraw sender address request s = .ok ((), s') → s'.RecordsHeld address) :=
  ⟨fun _ _ _ hsender h => vaultV2Deposit_recordsHeld hs hvault hzero hasset hadapter hsender h,
    fun _ _ _ hreceiver h => vaultV2Withdraw_recordsHeld hs hvault hzero hasset hadapter hreceiver h⟩

/-! ## A sample vault with a liquidity adapter -/

namespace AdapterSample

def asset : Address := ⟨0x120, by decide⟩

def user : Address := ⟨0x121, by decide⟩

def vault : Address := ⟨0x122, by decide⟩

def adapter : Address := ⟨0x123, by decide⟩

def registry : Registry :=
  ⟨⟨0x124, by decide⟩, ⟨0x125, by decide⟩, ⟨0x126, by decide⟩, ⟨0x127, by decide⟩,
    ⟨0x128, by decide⟩, none⟩

/-- A second-kind vault recording fifty assets, ten of them idle and forty with its liquidity
adapter. -/
def vaultRecord : VaultV2 :=
  { VaultV2.new vault asset 0 0 with
    totalSupply := 50, totalAssets := 50, liquidityAdapter := some adapter }

def adapterRecord : VaultV2Adapter := { VaultV2Adapter.new adapter vault with realAssets := 40 }

/-- The user holds a hundred assets and all fifty shares, and lets the vault pull its assets. -/
def state : State :=
  let books := (((State.new .ethereum ⟨0, 0⟩ registry).putVaultV2 vaultRecord).putVaultV2Adapter
    adapterRecord).putVaultUser { VaultUser.new vault user with allowance := UInt256.maxValue }
  [(user, asset, 100), (vault, asset, 10), (adapter, asset, 40), (user, vault, 50)].foldl
    (fun s (owner, token, balance) => s.putHolding { Holding.empty owner token with balance })
    books

/-- A hundred assets deposited for the user. -/
def deposit : DepositRequest := ⟨Int256.ofBits 100, Int256.ofBits 0, user, none⟩

/-- Thirty assets withdrawn by the user to itself, twenty more than the vault has idle. -/
def redeem : RedeemRequest := ⟨Int256.ofBits 30, Int256.ofBits 0, user, user, none⟩

theorem state_wellFormed : state.WellFormed := by
  unfold state
  simp only [List.foldl_cons, List.foldl_nil]
  exact (((((((State.new_wellFormed _ _ _).putVaultV2 _).putVaultV2Adapter _).putVaultUser _)
    |>.putHolding _).putHolding _).putHolding _).putHolding _

theorem state_vault : state.vaultV2s.get? vault = some vaultRecord := by decide +kernel

theorem state_adapterOf : state.AdapterOf vault vaultRecord.liquidityAdapter := by
  intro adapterAddress hsome
  obtain rfl : adapter = adapterAddress := Option.some.inj hsome
  refine ⟨by decide, fun record hrecord => ?_⟩
  have hget : state.vaultV2Adapters.get? adapter = some adapterRecord := by decide +kernel
  rw [hget] at hrecord
  cases hrecord
  rfl

end AdapterSample

open AdapterSample in
/-- The sample vault taking a deposit of a hundred, all passed on to its adapter, and paying the
user thirty, twenty of them taken back from the adapter: each run succeeds and leaves the vault
recording what it holds. -/
theorem vaultV2_flows_keep_total_assets_sample :
    (∃ s', vaultV2Deposit user vault deposit state = .ok ((), s') ∧ s'.RecordsHeld vault) ∧
    (∃ s', vaultV2Withdraw user vault redeem state = .ok ((), s') ∧ s'.RecordsHeld vault) := by
  obtain ⟨⟨⟨⟩, s₁⟩, h₁⟩ := Except.exists_eq_ok
    (x := vaultV2Deposit user vault deposit state) (by decide +kernel)
  obtain ⟨⟨⟨⟩, s₂⟩, h₂⟩ := Except.exists_eq_ok
    (x := vaultV2Withdraw user vault redeem state) (by decide +kernel)
  have hflows := vaultV2_flows_keep_total_assets state_wellFormed state_vault (by decide)
    (by decide) state_adapterOf
  exact ⟨⟨s₁, h₁, hflows.1 user deposit s₁ (by decide) h₁⟩,
    ⟨s₂, h₂, hflows.2 user redeem s₂ (by decide) h₂⟩⟩

namespace AdapterSample

/-- A second-kind vault booked at the zero address, recording nothing and with no adapter, which
the user, holding a hundred assets, lets pull them. -/
def zeroAddressState : State :=
  (((State.new .ethereum ⟨0, 0⟩ registry).putVaultV2 (VaultV2.new .zero asset 0 0)).putVaultUser
    { VaultUser.new .zero user with allowance := UInt256.maxValue }).putHolding
    { Holding.empty user asset with balance := 100 }

end AdapterSample

open AdapterSample in
/-- A second-kind vault at the zero address takes a deposit by burning it: after the user
deposits a hundred it records a hundred but holds nothing, and the next accrual stores a total of
nothing. -/
theorem zero_address_vaultV2_deposit_unbacked :
    ∃ s', vaultV2Deposit user .zero deposit zeroAddressState = .ok ((), s') ∧
      ∃ v, s'.vaultV2s.get? .zero = some v ∧ v.totalAssets.toNat = 100 ∧
        s'.heldV2 .zero v.asset = 0 ∧
        ∃ v' s'', accrueVaultV2 .zero s' = .ok (v', s'') ∧ v'.totalAssets.toNat = 0 := by
  obtain ⟨⟨⟩, s', h, hcheck⟩ := exists_eq_ok_of_check (x := vaultV2Deposit user .zero deposit)
    (s := zeroAddressState) (fun _ s' => (s'.vaultV2s.get? .zero).any fun v =>
      v.totalAssets.toNat == 100 && s'.heldV2 .zero v.asset == 0)
    (by decide +kernel)
  cases hv : s'.vaultV2s.get? .zero with
  | none =>
    rw [hv] at hcheck
    cases hcheck
  | some v =>
    rw [hv, Option.any_some, Bool.and_eq_true, beq_iff_eq, beq_iff_eq] at hcheck
    obtain ⟨htotal, hheld⟩ := hcheck
    refine ⟨s', h, v, hv, htotal, hheld, ?_⟩
    have hwp := accrueVaultV2_wp hv
    rw [hheld] at hwp
    unfold wp at hwp
    split at hwp
    · next p hp =>
      obtain ⟨totalAssets, hnothing, hstored, -⟩ := hwp
      refine ⟨p.1, p.2, hp, ?_⟩
      rw [hstored]
      exact hnothing
    · exact absurd hwp.2 (Nat.not_le.mpr UInt256.size_pos)

end LendingSim
