import Mathlib
import LendingSim.Proofs.Solvency

/-!
# Token supply is conserved

The supply of a token is what all its holders hold, less the shares issued by a vault of
either kind at the token's address. Tokens change hands only by movements, and a movement
between two holders leaves the supply alone, also from a holder to itself: only a movement from
the zero address mints and only one to it burns. The vaults mint and burn their shares only
together with raising and lowering their issued totals by as much, the performance fee
included, so vault shares are conserved too.

`supply_conserved`: from a well-formed state clear of the zero address (neither the core
contract nor the public allocator is it, no vault of either kind and no adapter sits there, and
no vault pays its fee to it), a run of actions that exchange no token for another and name the
zero address as no party leaves the supply of every token as it was.

`Shifts d` relates two states whose supplies differ by `d`, and each handler is taken in turn,
like the custody of `LendingSim.Proofs.Custody`: a mint moves the supply of its token by its
amount, and the vault stored right after moves it back.
-/

namespace LendingSim

open Sim Perform

/-- What a holding holds of `token`: its balance, when it is of that token. -/
def Holding.heldIn (token : Address) (h : Holding) : Nat :=
  if h.token = token then h.balance.toNat else 0

theorem Holding.heldIn_empty (token user token' : Address) :
    (Holding.empty user token').heldIn token = 0 := by
  unfold heldIn
  split <;> rfl

namespace State

variable {s : State}

/-- What all holders hold of `token`. -/
def held (s : State) (token : Address) : Nat :=
  s.holdings.sum (Holding.heldIn token)

/-- The shares issued by the vaults of either kind at the address `token`. -/
def issued (s : State) (token : Address) : Nat :=
  ((s.vaults.get? token).map (·.totalSupply.toNat)).getD 0 +
    ((s.vaultV2s.get? token).map (·.totalSupply.toNat)).getD 0

/-- The supply of `token`: what is held of it, less the shares of a vault at its address. -/
def supply (s : State) (token : Address) : Int := s.held token - s.issued token

/-- A state clear of the zero address: the core contract and the public allocator, which
receive tokens, are elsewhere, no vault of either kind and no adapter sits there, and no vault
pays its fee to it. -/
structure ZeroFree (s : State) : Prop where
  morpho : s.registry.morpho ≠ .zero
  publicAllocator : s.registry.publicAllocator ≠ .zero
  noVault : s.vaults.get? .zero = none
  noVaultV2 : s.vaultV2s.get? .zero = none
  noAdapter : s.vaultV2Adapters.get? .zero = none
  feeRecipient : ∀ a v, s.vaults.get? a = some v → v.feeRecipient ≠ .zero

theorem ZeroFree.congr {s' : State} (hz : s.ZeroFree) (hregistry : s'.registry = s.registry)
    (hvaults : s'.vaults = s.vaults) (hvaultV2s : s'.vaultV2s = s.vaultV2s)
    (hadapters : s'.vaultV2Adapters = s.vaultV2Adapters) : s'.ZeroFree := by
  obtain ⟨hmorpho, hallocator, hvault, hvaultV2, hadapter, hfee⟩ := hz
  rw [← hregistry] at hmorpho hallocator
  rw [← hvaults] at hvault hfee
  rw [← hvaultV2s] at hvaultV2
  rw [← hadapters] at hadapter
  exact ⟨hmorpho, hallocator, hvault, hvaultV2, hadapter, hfee⟩

/-- Putting back a holding moves what is held of its token by what its balance gains over the
holding at its key. -/
theorem held_putHolding (hs : s.WellFormed) (h : Holding) (T : Address) :
    (s.putHolding h).held T + (if h.token = T then (s.balanceOf h.user h.token).toNat else 0) =
      s.held T + (if h.token = T then h.balance.toNat else 0) := by
  have hsum := Book.sum_insert hs.holdings.1 (h.user, h.token) h (Holding.heldIn T)
  rw [Book.elim_get? (Holding.heldIn_empty T h.user h.token)] at hsum
  have htoken := (hs.holding_user h.user h.token).2
  unfold holding at htoken
  unfold Holding.heldIn at hsum
  rw [htoken] at hsum
  exact hsum

/-- Storing a vault over the one at its address moves the shares issued at that address by
what its total gains. -/
theorem issued_putVault {v old : Vault} (hold : s.vaults.get? v.address = some old)
    (T : Address) :
    (s.putVault v).issued T + (if T = v.address then old.totalSupply.toNat else 0) =
      s.issued T + (if T = v.address then v.totalSupply.toNat else 0) := by
  unfold issued
  rw [vaults_putVault, show (s.putVault v).vaultV2s = s.vaultV2s from rfl]
  split
  · next hT =>
    rw [hT, hold]
    simp only [Option.map_some, Option.getD_some]
    omega
  · rfl

theorem issued_putVaultV2 {v old : VaultV2} (hold : s.vaultV2s.get? v.address = some old)
    (T : Address) :
    (s.putVaultV2 v).issued T + (if T = v.address then old.totalSupply.toNat else 0) =
      s.issued T + (if T = v.address then v.totalSupply.toNat else 0) := by
  unfold issued
  rw [vaultV2s_putVaultV2, show (s.putVaultV2 v).vaults = s.vaults from rfl]
  split
  · next hT =>
    rw [hT, hold]
    simp only [Option.map_some, Option.getD_some]
    omega
  · rfl

/-- Where what is held stays and the shares issued at `a` go from `old` to `new`, the supply of
`a` moves by what the issued shares lose. -/
theorem supply_of_issued {s' : State} {a : Address} {old new : Nat} (hheld : s'.held = s.held)
    (hissued : ∀ T, s'.issued T + (if T = a then old else 0) =
      s.issued T + (if T = a then new else 0)) (T : Address) :
    s'.supply T = s.supply T + (Pi.single a ((old : Int) - new) : Address → Int) T := by
  have h := hissued T
  unfold State.supply
  rw [hheld, Pi.single_apply]
  split_ifs at h ⊢ <;> omega

end State

open State

/-! ## Shifts of the supply -/

/-- From a well-formed state clear of the zero address, a well-formed state clear of it with the
same registry, where the supply of each token `T` has moved by `d T`. -/
def Shifts (d : Address → Int) (s s' : State) : Prop :=
  s.WellFormed → s.ZeroFree →
    s'.WellFormed ∧ s'.ZeroFree ∧ s'.registry = s.registry ∧ ∀ T, s'.supply T = s.supply T + d T

namespace Shifts

variable {s₁ s₂ s₃ : State} {d d₁ d₂ : Address → Int}

theorem refl (s : State) : Shifts 0 s s :=
  fun hs hz => ⟨hs, hz, rfl, fun T => by simp⟩

theorem trans (h₁₂ : Shifts d₁ s₁ s₂) (h₂₃ : Shifts d₂ s₂ s₃) : Shifts (d₁ + d₂) s₁ s₃ := by
  intro hs hz
  obtain ⟨hs₂, hz₂, hr₂, hd₂⟩ := h₁₂ hs hz
  obtain ⟨hs₃, hz₃, hr₃, hd₃⟩ := h₂₃ hs₂ hz₂
  refine ⟨hs₃, hz₃, hr₃.trans hr₂, fun T => ?_⟩
  rw [hd₃, hd₂, Pi.add_apply]
  omega

theorem congr (h : Shifts d₁ s₁ s₂) (hd : ∀ T, d₁ T = d₂ T) : Shifts d₂ s₁ s₂ := by
  intro hs hz
  obtain ⟨hs₂, hz₂, hr₂, hd₂⟩ := h hs hz
  exact ⟨hs₂, hz₂, hr₂, fun T => by rw [hd₂, hd]⟩

/-- A step whose end points are known to be clear of the zero address only from its start. -/
theorem of_zeroFree (h : s₁.ZeroFree → Shifts d s₁ s₂) : Shifts d s₁ s₂ :=
  fun hs hz => h hz hs hz

theorem composes : Composes (Shifts 0) :=
  ⟨refl, fun h₁₂ h₂₃ => (trans h₁₂ h₂₃).congr fun T => by simp⟩

end Shifts

variable {s s' : State}

/-- A step that leaves holdings, the books of vaults of both kinds and of adapters, and the
registry alone moves no supply. -/
theorem shifts_of_frame (hwf : s.WellFormed → s'.WellFormed) (hholdings : s'.holdings = s.holdings)
    (hvaults : s'.vaults = s.vaults) (hvaultV2s : s'.vaultV2s = s.vaultV2s)
    (hadapters : s'.vaultV2Adapters = s.vaultV2Adapters) (hregistry : s'.registry = s.registry) :
    Shifts 0 s s' := by
  intro hs hz
  refine ⟨hwf hs, hz.congr hregistry hvaults hvaultV2s hadapters, hregistry, fun T => ?_⟩
  have hsupply : s'.supply T = s.supply T := by
    unfold State.supply held issued
    rw [hholdings, hvaults, hvaultV2s]
  rw [hsupply, Pi.zero_apply]
  omega

/-- Setting the balance of a holding moves the supply of its token by what the balance gains. -/
theorem shifts_setBalance (user token : Address) (b : UInt256) :
    Shifts (Pi.single token ((b.toNat : Int) - (s.balanceOf user token).toNat)) s
      (s.putHolding { s.holding user token with balance := b }) := by
  intro hs hz
  obtain ⟨huser, htoken⟩ := hs.holding_user user token
  refine ⟨hs.putHolding _, hz.congr rfl rfl rfl rfl, rfl, fun T => ?_⟩
  generalize hh : ({ s.holding user token with balance := b } : Holding) = h
  have hkey : h.user = user ∧ h.token = token ∧ h.balance = b := by
    rw [← hh]
    exact ⟨huser, htoken, rfl⟩
  have hheld := held_putHolding hs h T
  rw [hkey.1, hkey.2.1, hkey.2.2] at hheld
  unfold State.supply
  rw [show (s.putHolding h).issued T = s.issued T from rfl, Pi.single_apply]
  by_cases hT : T = token
  · rw [if_pos hT.symm, if_pos hT.symm] at hheld
    rw [if_pos hT]
    omega
  · rw [if_neg (Ne.symm hT), if_neg (Ne.symm hT)] at hheld
    rw [if_neg hT]
    omega

/-- Putting back a holding read at its key, with its balance as it was, moves no supply. -/
theorem shifts_putHolding_of_balance (owner token : Address) (h : Holding)
    (huser : h.user = (s.holding owner token).user) (htoken : h.token = (s.holding owner token).token)
    (hbalance : h.balance = (s.holding owner token).balance) : Shifts 0 s (s.putHolding h) := by
  intro hs hz
  have hkey := hs.holding_user owner token
  refine ⟨hs.putHolding h, hz.congr rfl rfl rfl rfl, rfl, fun T => ?_⟩
  have hheld := held_putHolding hs h T
  have hread : s.balanceOf h.user h.token = h.balance := by
    rw [huser, htoken, hkey.1, hkey.2, hbalance]
    rfl
  rw [hread] at hheld
  unfold State.supply
  rw [show (s.putHolding h).issued T = s.issued T from rfl, Pi.zero_apply]
  omega

theorem shifts_putUser (u : User) : Shifts 0 s (s.putUser u) :=
  shifts_of_frame (fun hs => hs.putUser u) rfl rfl rfl rfl rfl

theorem shifts_putVaultUser (u : VaultUser) : Shifts 0 s (s.putVaultUser u) :=
  shifts_of_frame (fun hs => hs.putVaultUser u) rfl rfl rfl rfl rfl

theorem shifts_putVaultMarketConfig (c : VaultMarketConfig) :
    Shifts 0 s (s.putVaultMarketConfig c) :=
  shifts_of_frame (fun hs => hs.putVaultMarketConfig c) rfl rfl rfl rfl rfl

/-- Committing a market operation writes a position and its market, no holding. -/
theorem shifts_commit (p : Position) (m : Market) : Shifts 0 s ((s.putPosition p).putMarket m) :=
  shifts_of_frame (fun hs => (hs.putPosition p).putMarket m) rfl rfl rfl rfl rfl

theorem shifts_putPosition (p : Position) : Shifts 0 s (s.putPosition p) :=
  shifts_of_frame (fun hs => hs.putPosition p) rfl rfl rfl rfl rfl

/-- Storing a vault over the one at its address, paying its fee to the same recipient, moves the
supply of its shares by what its issued total loses. -/
theorem shifts_putVault {v old : Vault} (hold : s.vaults.get? v.address = some old)
    (hfee : v.feeRecipient = old.feeRecipient) :
    Shifts (Pi.single v.address ((old.totalSupply.toNat : Int) - v.totalSupply.toNat)) s
      (s.putVault v) := by
  intro hs hz
  have hkey : (s.vaults.get? v.address).isSome := by rw [hold]; rfl
  have hzero : (s.putVault v).ZeroFree := by
    refine ⟨hz.morpho, hz.publicAllocator, Book.get?_insert_of_none v hkey hz.noVault,
      hz.noVaultV2, hz.noAdapter, fun a w hw => ?_⟩
    rw [vaults_putVault] at hw
    split at hw
    · cases hw
      rw [hfee]
      exact hz.feeRecipient _ _ hold
    · exact hz.feeRecipient a w hw
  exact ⟨hs.putVault v, hzero, rfl, supply_of_issued rfl (issued_putVault hold)⟩

theorem shifts_putVaultV2 {v old : VaultV2} (hold : s.vaultV2s.get? v.address = some old) :
    Shifts (Pi.single v.address ((old.totalSupply.toNat : Int) - v.totalSupply.toNat)) s
      (s.putVaultV2 v) := by
  intro hs hz
  have hkey : (s.vaultV2s.get? v.address).isSome := by rw [hold]; rfl
  exact ⟨hs.putVaultV2 v, ⟨hz.morpho, hz.publicAllocator, hz.noVault,
    Book.get?_insert_of_none v hkey hz.noVaultV2, hz.noAdapter, hz.feeRecipient⟩, rfl,
    supply_of_issued rfl (issued_putVaultV2 hold)⟩

theorem shifts_putVaultV2Adapter {a : VaultV2Adapter}
    (ha : (s.vaultV2Adapters.get? a.address).isSome) : Shifts 0 s (s.putVaultV2Adapter a) := by
  intro hs hz
  refine ⟨hs.putVaultV2Adapter a, ⟨hz.morpho, hz.publicAllocator, hz.noVault, hz.noVaultV2,
    Book.get?_insert_of_none a ha hz.noAdapter, hz.feeRecipient⟩, rfl, fun T => ?_⟩
  rw [Pi.zero_apply, add_zero]
  rfl

/-! ## Movements -/

theorem debit_shifts (token user : Address) (amount : UInt256) :
    Keeps (Shifts (Pi.single token (-(amount.toNat : Int)))) (debit token user amount) := by
  intro s u s' h
  obtain ⟨balance, hbalance, rfl⟩ := debit_inv h
  refine (shifts_setBalance user token balance).congr fun T => ?_
  rw [Pi.single_apply, Pi.single_apply]
  split <;> omega

theorem credit_shifts (token user : Address) (amount : UInt256) :
    Keeps (Shifts (Pi.single token (amount.toNat : Int))) (credit token user amount) := by
  intro s u s' h
  obtain ⟨-, balance, hbalance, rfl⟩ := credit_inv h
  refine (shifts_setBalance user token balance).congr fun T => ?_
  rw [Pi.single_apply, Pi.single_apply]
  split <;> omega

/-- Spending an allowance writes an allowance, never a balance. -/
theorem spendAllowance_shifts (token owner spender : Address) (amount : UInt256) :
    Keeps (Shifts 0) (spendAllowance token owner spender amount) := by
  intro s u s' h
  rcases spendAllowance_inv h with ⟨rfl, -⟩ | ⟨named, -, -, -, -, rfl⟩ | ⟨-, -, -, -, rfl⟩
  · exact Shifts.refl _
  · exact shifts_putHolding_of_balance owner token _ rfl rfl rfl
  · exact shifts_putVaultUser _

/-- What a movement adds to the supply of its token: its amount when it mints, less its amount
when it burns. -/
def Perform.Movement.issuance (m : Movement) : Address → Int :=
  Pi.single m.token ((if m.source = .zero then (m.amount.toNat : Int) else 0) -
    if m.destination = .zero then (m.amount.toNat : Int) else 0)

/-- A movement moves the supply of its token by what it mints less what it burns: the debit and
the credit of a movement between two holders, the same one included, cancel out. -/
theorem move_shifts (m : Movement) : Keeps (Shifts m.issuance) (move m) := by
  intro s u s' h
  obtain ⟨s₁, s₂, hspend, hdebit, hcredit⟩ := move_inv h
  have h₁ : Shifts 0 s s₁ := by
    split at hspend
    · exact spendAllowance_shifts _ _ _ _ s () s₁ hspend
    · rw [hspend]
      exact Shifts.refl s
  have h₂ : Shifts (if m.source = .zero then 0 else Pi.single m.token (-(m.amount.toNat : Int)))
      s₁ s₂ := by
    split at hdebit
    · next hsource =>
      rw [if_neg hsource]
      exact debit_shifts _ _ _ s₁ () s₂ hdebit
    · next hsource =>
      rw [if_pos (not_not.mp hsource), hdebit]
      exact Shifts.refl s₁
  have h₃ : Shifts (if m.destination = .zero then 0 else Pi.single m.token (m.amount.toNat : Int))
      s₂ s' := by
    split at hcredit
    · next hdestination =>
      rw [if_neg hdestination]
      exact credit_shifts _ _ _ s₂ () s' hcredit
    · next hdestination =>
      rw [if_pos (not_not.mp hdestination), hcredit]
      exact Shifts.refl s₂
  refine ((h₁.trans h₂).trans h₃).congr fun T => ?_
  unfold Perform.Movement.issuance
  rw [Pi.add_apply, Pi.add_apply, Pi.zero_apply]
  by_cases hT : T = m.token
  · subst hT
    split_ifs <;> simp
  · split_ifs <;> simp [hT]

/-- A movement between two holders moves no supply. -/
theorem move_conserves {m : Movement} (hsource : m.source ≠ .zero)
    (hdestination : m.destination ≠ .zero) : Keeps (Shifts 0) (move m) := by
  intro s u s' h
  refine (move_shifts m s u s' h).congr fun T => ?_
  unfold Perform.Movement.issuance
  simp [hsource, hdestination]

/-- A mint raises the supply of its token by its amount. -/
theorem mint_shifts {token sender destination : Address} (amount : UInt256)
    (hdestination : destination ≠ .zero) :
    Keeps (Shifts (Pi.single token (amount.toNat : Int))) (move (.mint token sender destination amount)) := by
  intro s u s' h
  refine (move_shifts _ s u s' h).congr fun T => ?_
  unfold Perform.Movement.issuance Movement.mint
  simp [hdestination]

/-- A movement to the zero address lowers the supply of its token by its amount. -/
theorem burn_shifts {token sender source : Address} (amount : UInt256) (hsource : source ≠ .zero) :
    Keeps (Shifts (Pi.single token (-(amount.toNat : Int)))) (move ⟨token, sender, source, .zero, amount⟩) := by
  intro s u s' h
  refine (move_shifts _ s u s' h).congr fun T => ?_
  unfold Perform.Movement.issuance
  simp [hsource]

/-! ## The core contract -/

theorem State.ZeroFree.vault_ne {s : State} {a : Address} {v : Vault} (hz : s.ZeroFree)
    (hv : s.vaults.get? a = some v) : a ≠ .zero := by
  rintro rfl
  rw [hz.noVault] at hv
  cases hv

theorem State.ZeroFree.vaultV2_ne {s : State} {a : Address} {v : VaultV2} (hz : s.ZeroFree)
    (hv : s.vaultV2s.get? a = some v) : a ≠ .zero := by
  rintro rfl
  rw [hz.noVaultV2] at hv
  cases hv

theorem State.ZeroFree.adapter_ne {s : State} {a : Address} {adapter : VaultV2Adapter}
    (hz : s.ZeroFree) (ha : s.vaultV2Adapters.get? a = some adapter) : a ≠ .zero := by
  rintro rfl
  rw [hz.noAdapter] at ha
  cases ha

theorem accrueMarket_shifts (id : MarketId) : Keeps (Shifts 0) (accrueMarket id) := by
  intro s m s' h
  obtain ⟨markets, positions, rfl⟩ := accrueMarket_frame h
  exact shifts_of_frame (accrueMarket_wellFormed h) rfl rfl rfl rfl rfl

theorem pure_shifts : Keeps (Shifts 0) (pure () : Sim Unit) :=
  Keeps.of_readOnly Shifts.composes (readOnly_pure ())

/-- A market operation commits, runs its callback and settles with one movement between two
holders: no supply moves. -/
theorem settled_shifts {s₁ s₂ : State} {m : Movement} (hcommit : Shifts 0 s s₁)
    (hrun : Shifts 0 s₁ s₂) (hends : s₂.ZeroFree → m.source ≠ .zero ∧ m.destination ≠ .zero)
    (hmove : move m s₂ = .ok ((), s')) : Shifts 0 s s' :=
  Shifts.composes.trans (Shifts.composes.trans hcommit hrun) (Shifts.of_zeroFree fun hz =>
    move_conserves (hends hz).1 (hends hz).2 s₂ () s' hmove)

section Market

variable {sender : Address} {callback : Sim Unit} (hcb : Keeps (Shifts 0) callback)
include hcb

theorem supply_shifts (hsender : sender ≠ .zero) (request : MarketRequest) :
    Keeps (Shifts 0) (supply sender request callback) := by
  intro s flow s' h
  obtain ⟨market, market', s₁, s₂, _, _, hacc, -, -, hrun, hmove⟩ := supply_inv h
  exact settled_shifts (Shifts.composes.trans (accrueMarket_shifts _ s market s₁ hacc)
    (shifts_commit _ _)) (hcb _ () s₂ hrun) (fun hz => ⟨hsender, hz.morpho⟩) hmove

theorem withdraw_shifts {request : MarketRequest} (hreceiver : request.receiver.getD sender ≠ .zero) :
    Keeps (Shifts 0) (withdraw sender request callback) := by
  intro s flow s' h
  obtain ⟨-, market, market', s₁, s₂, _, _, hacc, -, -, -, -, hrun, hmove⟩ := withdraw_inv h
  exact settled_shifts (Shifts.composes.trans (accrueMarket_shifts _ s market s₁ hacc)
    (shifts_commit _ _)) (hcb _ () s₂ hrun) (fun hz => ⟨hz.morpho, hreceiver⟩) hmove

theorem borrow_shifts {request : MarketRequest} (hreceiver : request.receiver.getD sender ≠ .zero) :
    Keeps (Shifts 0) (borrow sender request callback) := by
  intro s flow s' h
  obtain ⟨-, market, market', s₁, s₂, _, hacc, -, -, -, hrun, hmove⟩ := borrow_inv h
  exact settled_shifts (Shifts.composes.trans (accrueMarket_shifts _ s market s₁ hacc)
    (shifts_commit _ _)) (hcb _ () s₂ hrun) (fun hz => ⟨hz.morpho, hreceiver⟩) hmove

theorem repay_shifts (hsender : sender ≠ .zero) (request : MarketRequest) :
    Keeps (Shifts 0) (repay sender request callback) := by
  intro s flow s' h
  obtain ⟨market, market', s₁, s₂, _, _, _, hacc, -, -, hrun, hmove⟩ := repay_inv h
  exact settled_shifts (Shifts.composes.trans (accrueMarket_shifts _ s market s₁ hacc)
    (shifts_commit _ _)) (hcb _ () s₂ hrun) (fun hz => ⟨hsender, hz.morpho⟩) hmove

theorem supplyCollateral_shifts (hsender : sender ≠ .zero) (request : CollateralRequest) :
    Keeps (Shifts 0) (supplyCollateral sender request callback) := by
  intro s u s' h
  obtain ⟨market, s₁, s₂, _, _, hacc, -, hrun, hmove⟩ := supplyCollateral_inv h
  exact settled_shifts (Shifts.composes.trans (accrueMarket_shifts _ s market s₁ hacc)
    (shifts_putPosition _)) (hcb _ () s₂ hrun) (fun hz => ⟨hsender, hz.morpho⟩) hmove

theorem withdrawCollateral_shifts {request : CollateralRequest}
    (hreceiver : request.receiver.getD sender ≠ .zero) :
    Keeps (Shifts 0) (withdrawCollateral sender request callback) := by
  intro s u s' h
  obtain ⟨-, market, s₁, s₂, _, _, hacc, -, hrun, hmove⟩ := withdrawCollateral_inv h
  exact settled_shifts (Shifts.composes.trans (accrueMarket_shifts _ s market s₁ hacc)
    (shifts_putPosition _)) (hcb _ () s₂ hrun) (fun hz => ⟨hz.morpho, hreceiver⟩) hmove

/-- A flash loan lends the assets to the sender and takes as much back after the callback. -/
theorem flashLoan_shifts (hsender : sender ≠ .zero) (token : Address) (assets : Int256) :
    Keeps (Shifts 0) (flashLoan sender token assets callback) := by
  intro s u s' h
  obtain ⟨s₁, s₂, hlend, hrun, hrepay⟩ := flashLoan_inv h
  have hlent : Shifts 0 s s₁ := Shifts.of_zeroFree fun hz =>
    move_conserves hz.morpho hsender s () s₁ hlend
  exact Shifts.of_zeroFree fun hz => settled_shifts hlent (hcb s₁ () s₂ hrun)
    (fun _ => ⟨hsender, hz.morpho⟩) hrepay

end Market

theorem setAuthorization_shifts (sender owner : Address) (authorized : Bool) :
    Keeps (Shifts 0) (setAuthorization sender owner authorized) := by
  intro s u s' h
  obtain ⟨morphoNonce, -, rfl⟩ := setAuthorization_inv h
  exact shifts_putUser _

/-! ## Tokens -/

theorem transfer_shifts (sender token : Address) {request : TransferRequest}
    (hsource : request.source ≠ .zero) (hdestination : request.destination ≠ .zero) :
    Keeps (Shifts 0) (transfer sender token request) := by
  intro s u s' h
  obtain ⟨amount, hmove⟩ := transfer_inv h
  exact move_conserves hsource hdestination s () s' hmove

theorem routerTransfer_shifts (sender token : Address) {request : TransferRequest}
    (hsource : request.source ≠ .zero) (hdestination : request.destination ≠ .zero) :
    Keeps (Shifts 0) (routerTransfer sender token request) := by
  intro s u s' h
  obtain ⟨spender, -, -, hmove⟩ := routerTransfer_inv h
  refine Shifts.composes.trans ?_ (move_conserves hsource hdestination _ () s' hmove)
  exact shifts_putHolding_of_balance request.source token _ rfl rfl rfl

theorem setAllowance_shifts (token owner spender : Address) (amount : UInt256) :
    Keeps (Shifts 0) (setAllowance token owner spender amount) := by
  intro s u s' h
  rcases setAllowance_inv h with ⟨named, -, rfl⟩ | ⟨-, -, rfl⟩
  · exact shifts_putHolding_of_balance owner token _ rfl rfl rfl
  · exact shifts_putVaultUser _

theorem permit_shifts (sender token : Address) (request : PermitRequest) :
    Keeps (Shifts 0) (permit sender token request) := by
  intro s u s' h
  obtain ⟨-, next, amount, -, hset⟩ := permit_inv h
  refine Shifts.composes.trans ?_ (setAllowance_shifts token sender _ _ _ () s' hset)
  exact shifts_putHolding_of_balance sender token _ rfl rfl rfl

theorem routerPermit_shifts (sender token : Address) (request : RouterPermitRequest) :
    Keeps (Shifts 0) (routerPermit sender token request) := by
  intro s u s' h
  obtain ⟨spender, updated, -, -, -, rfl⟩ := routerPermit_inv h
  exact shifts_putHolding_of_balance sender token _ rfl rfl rfl

/-! ## Vaults

A vault mints its shares to someone and raises its issued total by as much in the same handler,
the performance fee included, and burns them together with lowering its total. -/

/-- The core contract's handlers run by a vault for itself, with nothing in the middle. -/
theorem vaultSupply_shifts {vault : Address} (hvault : vault ≠ .zero) (request : MarketRequest) :
    Keeps (Shifts 0) (supply vault request (pure ())) :=
  supply_shifts pure_shifts hvault request

theorem vaultWithdrawal_shifts {vault : Address} (hvault : vault ≠ .zero) {request : MarketRequest}
    (hreceiver : request.receiver = some vault) : Keeps (Shifts 0) (withdraw vault request (pure ())) :=
  withdraw_shifts pure_shifts (by rw [hreceiver]; exact hvault)

theorem accrueVault_shifts (address : Address) : Keeps (Shifts 0) (accrueVault address) := by
  intro s v' s' h hs hz
  obtain ⟨vault, totalAssets, totalSupply, s₁, s₂, hvault, hadd, hfee, rfl, rfl⟩ :=
    accrueVault_inv h
  have haddress : vault.address = address := hs.vault_address hvault
  have hvaults₁ : s₁.vaults = s.vaults := addSupplied_vaults hadd
  have h₁ : Shifts 0 s s₁ :=
    addSupplied_keeps Shifts.composes address accrueMarket_shifts _ _ s _ s₁ hadd
  obtain ⟨h₂, hvaults⟩ : Shifts (Pi.single address ((totalSupply.toNat : Int) -
      vault.totalSupply.toNat)) s₁ s₂ ∧ s₂.vaults = s₁.vaults := by
    rcases hfee with ⟨rfl, rfl⟩ | ⟨feeShares, hmint, hsupply⟩
    · exact ⟨(Shifts.refl _).congr fun T => by simp, rfl⟩
    · refine ⟨Shifts.of_zeroFree fun hz₁ => ?_, (move_vaultBooks hmint).1⟩
      have hrecipient := hz₁.feeRecipient address vault (by rw [hvaults₁]; exact hvault)
      refine (mint_shifts feeShares hrecipient s₁ () s₂ hmint).congr fun T => ?_
      rw [Pi.single_apply, Pi.single_apply]
      split <;> omega
  have hold : s₂.vaults.get? vault.address = some vault := by
    rw [hvaults, hvaults₁, haddress, hvault]
  have h₃ := shifts_putVault
    (v := { vault with totalSupply, totalAssets, lastTotalAssets := totalAssets }) hold rfl
  refine ((h₁.trans h₂).trans h₃).congr (fun T => ?_) hs hz
  simp only [Pi.add_apply, Pi.single_apply, Pi.zero_apply]
  rw [haddress]
  split <;> omega

/-- A deposit pulls the assets into the vault from the sender, mints the shares to the owner
together with raising the vault's total, and supplies the assets on the markets. -/
theorem vaultDeposit_shifts {sender : Address} (hsender : sender ≠ .zero) (address : Address)
    {request : DepositRequest} (howner : request.owner ≠ .zero) :
    Keeps (Shifts 0) (vaultDeposit sender address request) := by
  intro s u s' h hs hz
  obtain ⟨vault, flow, totalSupply, totalAssets, remaining, s₁, s₂, s₃, hacc, -, hpull, hmint,
    hsupply, -, hsupplied⟩ := vaultDeposit_inv h
  obtain ⟨v₀, hv₀, hvaddress⟩ := accrueVault_stored hs hacc
  have haddress : address ≠ .zero := hz.vault_ne hv₀
  have h₁ := accrueVault_shifts address s vault s₁ hacc
  have h₂ : Shifts 0 s₁ s₂ := move_conserves hsender haddress s₁ () s₂ hpull
  have h₃ := mint_shifts flow.shares howner s₂ () s₃ hmint
  have hold : s₃.vaults.get? vault.address = some vault := by
    rw [(move_vaultBooks hmint).1, (move_vaultBooks hpull).1]
    exact accrueVault_get? hacc
  have h₄ := shifts_putVault
    (v := { vault with totalSupply, totalAssets, lastTotalAssets := totalAssets }) hold rfl
  have h₅ : Keeps (Shifts 0) (supplyToMarkets address vault.supplyQueue flow.assets) :=
    supplyToMarkets_keeps Shifts.composes address accrueMarket_shifts
      (fun request _ => vaultSupply_shifts haddress request) _ _
  refine ((((h₁.trans h₂).trans h₃).trans h₄).trans (h₅ _ _ _ hsupplied)).congr (fun T => ?_) hs hz
  simp only [Pi.add_apply, Pi.single_apply, Pi.zero_apply]
  rw [hvaddress]
  split <;> omega

/-- A withdrawal burns the owner's shares together with lowering the vault's total, takes what
the idle balance lacks from the markets, and pays the receiver. -/
theorem vaultWithdraw_shifts (sender address : Address) {request : RedeemRequest}
    (howner : request.owner ≠ .zero) (hreceiver : request.receiver ≠ .zero) :
    Keeps (Shifts 0) (vaultWithdraw sender address request) := by
  intro s u s' h hs hz
  obtain ⟨vault, flow, totalSupply, lacking, remaining, s₁, s₂, s₃, hacc, -, hburn, hsupply,
    hwithdraw, hpay⟩ := vaultWithdraw_inv h
  obtain ⟨v₀, hv₀, hvaddress⟩ := accrueVault_stored hs hacc
  have haddress : address ≠ .zero := hz.vault_ne hv₀
  have h₁ := accrueVault_shifts address s vault s₁ hacc
  have h₂ := burn_shifts flow.shares howner s₁ () s₂ hburn
  have hold : s₂.vaults.get? vault.address = some vault := by
    rw [(move_vaultBooks hburn).1]
    exact accrueVault_get? hacc
  have h₃ := shifts_putVault
    (v := { vault with totalSupply, totalAssets := vault.totalAssets.zeroFloorSub flow.assets,
                       lastTotalAssets := vault.totalAssets.zeroFloorSub flow.assets }) hold rfl
  have h₄ : Keeps (Shifts 0) (withdrawFromMarkets address vault.withdrawQueue lacking) :=
    withdrawFromMarkets_keeps Shifts.composes address accrueMarket_shifts
      (fun _ _ hreceiver' => vaultWithdrawal_shifts haddress hreceiver') _ _
  have h₅ : Shifts 0 s₃ s' := move_conserves haddress hreceiver s₃ () s' hpay
  refine ((((h₁.trans h₂).trans h₃).trans (h₄ _ _ _ hwithdraw)).trans h₅).congr (fun T => ?_) hs hz
  simp only [Pi.add_apply, Pi.single_apply, Pi.zero_apply]
  rw [hvaddress]
  split <;> omega

theorem reallocate_shifts (sender address : Address) (allocations : List Allocation) :
    Keeps (Shifts 0) (reallocate sender address allocations) := by
  intro s u s' h hs hz
  obtain ⟨v, hv⟩ := reallocate_vault h
  exact Perform.reallocate_keeps Shifts.composes address accrueMarket_shifts
    (fun request _ => vaultSupply_shifts (hz.vault_ne hv) request)
    (fun _ _ hreceiver => vaultWithdrawal_shifts (hz.vault_ne hv) hreceiver) sender allocations
    s u s' h hs hz

/-- The public allocator takes its fee from the sender, stores the vault's terms and flow caps,
and reallocates for the vault. -/
theorem publicReallocate_shifts {sender : Address} (hsender : sender ≠ .zero) (address : Address)
    (withdrawals : List Allocation) (supplyId : MarketId) :
    Keeps (Shifts 0) (publicReallocate sender address withdrawals supplyId) := by
  intro s u s' h hs hz
  obtain ⟨v, hv⟩ := publicReallocate_vault h
  have haddress : address ≠ .zero := hz.vault_ne hv
  refine Perform.publicReallocate_keeps Shifts.composes address accrueMarket_shifts
    (fun request _ => vaultSupply_shifts haddress request)
    (fun _ _ hreceiver => vaultWithdrawal_shifts haddress hreceiver)
    (fun _ c => shifts_putVaultMarketConfig c) sender withdrawals supplyId
    (fun σ _ σ' hmove => Shifts.of_zeroFree fun hzσ =>
      move_conserves hsender hzσ.publicAllocator σ () σ' hmove) ?_ s u s' h hs hz
  intro σ w terms hw hσ
  have hold : σ.vaults.get? ({ w with allocatorTerms := some terms } : Vault).address = some w := by
    rw [show ({ w with allocatorTerms := some terms } : Vault).address = w.address from rfl,
      hσ.vault_address hw, hw]
  exact ((shifts_putVault hold rfl).congr fun T => by simp) hσ

/-! ## Second-kind vaults -/

theorem accrueVaultV2_shifts (address : Address) : Keeps (Shifts 0) (accrueVaultV2 address) := by
  intro s v' s' h hs
  obtain ⟨vault, totalAssets, hvault, rfl, rfl⟩ := accrueVaultV2_inv h
  have hold : s.vaultV2s.get? vault.address = some vault := by
    rw [hs.vaultV2_address hvault, hvault]
  exact ((shifts_putVaultV2
    (v := { vault with totalAssets, lastUpdate := s.block.timestamp }) hold).congr
    fun T => by simp) hs

/-- A deposit pulls the assets into the vault, mints the shares to the owner together with
raising the vault's total, and forwards the assets to the liquidity adapter. -/
theorem vaultV2Deposit_shifts {sender : Address} (hsender : sender ≠ .zero) (address : Address)
    {request : DepositRequest} (howner : request.owner ≠ .zero) :
    Keeps (Shifts 0) (vaultV2Deposit sender address request) := by
  intro s u s' h hs hz
  obtain ⟨vault, flow, totalSupply, totalAssets, s₁, s₂, s₃, hacc, -, hpull, hmint, hsupply, -,
    hforward⟩ := vaultV2Deposit_inv h
  obtain ⟨v₀, hv₀, hvaddress⟩ := accrueVaultV2_stored hs hacc
  have haddress : address ≠ .zero := hz.vaultV2_ne hv₀
  have h₁ := accrueVaultV2_shifts address s vault s₁ hacc
  have h₂ : Shifts 0 s₁ s₂ := move_conserves hsender haddress s₁ () s₂ hpull
  have h₃ := mint_shifts flow.shares howner s₂ () s₃ hmint
  have hold : s₃.vaultV2s.get? vault.address = some vault := by
    rw [(move_vaultBooks hmint).2.1, (move_vaultBooks hpull).2.1]
    exact accrueVaultV2_get? hacc
  have h₄ := shifts_putVaultV2 (v := { vault with totalSupply, totalAssets }) hold
  have h₅ : Shifts 0 s (s₃.putVaultV2 { vault with totalSupply, totalAssets }) :=
    (((h₁.trans h₂).trans h₃).trans h₄).congr fun T => by
      simp only [Pi.add_apply, Pi.single_apply, Pi.zero_apply]
      rw [hvaddress]
      split <;> omega
  rcases hforward with ⟨-, rfl⟩ | ⟨adapterAddress, adapter, realAssets, s₄, -, hadapter, hmove, -, rfl⟩
  · exact h₅ hs hz
  · obtain ⟨hs₃, hz₃, -, -⟩ := h₅ hs hz
    have hkey : (s₄.vaultV2Adapters.get? adapter.address).isSome := by
      rw [(move_vaultBooks hmove).2.2, hs₃.vaultV2Adapter_address hadapter, hadapter]
      rfl
    exact (Shifts.composes.trans (Shifts.composes.trans h₅
      (move_conserves haddress (hz₃.adapter_ne hadapter) _ () s₄ hmove))
      (shifts_putVaultV2Adapter (a := { adapter with realAssets }) hkey)) hs hz

/-- A withdrawal takes what the idle balance lacks back from the adapter, burns the owner's
shares together with lowering the vault's total, and pays the receiver. -/
theorem vaultV2Withdraw_shifts (sender address : Address) {request : RedeemRequest}
    (howner : request.owner ≠ .zero) (hreceiver : request.receiver ≠ .zero) :
    Keeps (Shifts 0) (vaultV2Withdraw sender address request) := by
  intro s u s' h hs hz
  obtain ⟨vault, flow, totalSupply, s₁, s₂, s₃, s₄, hacc, -, hpulled, hburn, hpay, hsupply, rfl⟩ :=
    vaultV2Withdraw_inv h
  obtain ⟨v₀, hv₀, hvaddress⟩ := accrueVaultV2_stored hs hacc
  have haddress : address ≠ .zero := hz.vaultV2_ne hv₀
  have h₁ := accrueVaultV2_shifts address s vault s₁ hacc
  obtain ⟨hs₁, hz₁, -, -⟩ := h₁ hs hz
  obtain ⟨h₂, hvaults⟩ : Shifts 0 s₁ s₂ ∧ s₂.vaultV2s = s₁.vaultV2s := by
    rcases hpulled with ⟨-, rfl⟩ | ⟨adapterAddress, adapter, missing, s₅, -, hadapter, -, -, hmove, rfl⟩
    · exact ⟨Shifts.refl _, rfl⟩
    · have hkey : (s₅.vaultV2Adapters.get? adapter.address).isSome := by
        rw [(move_vaultBooks hmove).2.2, hs₁.vaultV2Adapter_address hadapter, hadapter]
        rfl
      exact ⟨Shifts.composes.trans
        (move_conserves (hz₁.adapter_ne hadapter) haddress s₁ () s₅ hmove)
        (shifts_putVaultV2Adapter
          (a := { adapter with realAssets := adapter.realAssets.zeroFloorSub missing }) hkey),
        (move_vaultBooks hmove).2.1⟩
  have h₃ := burn_shifts flow.shares howner s₂ () s₃ hburn
  have h₄ : Shifts 0 s₃ s₄ := move_conserves haddress hreceiver s₃ () s₄ hpay
  have hold : s₄.vaultV2s.get? vault.address = some vault := by
    rw [(move_vaultBooks hpay).2.1, (move_vaultBooks hburn).2.1, hvaults]
    exact accrueVaultV2_get? hacc
  have h₅ := shifts_putVaultV2
    (v := { vault with totalSupply, totalAssets := vault.totalAssets.zeroFloorSub flow.assets }) hold
  refine ((((h₁.trans h₂).trans h₃).trans h₄).trans h₅).congr (fun T => ?_) hs hz
  simp only [Pi.add_apply, Pi.single_apply, Pi.zero_apply]
  rw [hvaddress]
  split <;> omega

/-! ## Every run -/

/-- The parties an operation names: the owner of the position it acts for and the receiver of
the assets, the source and destination of a transfer, the owner of shares or wrapped tokens, the
receiver of a withdrawal, an unwrapping or a swap, and the owner of an authorization. -/
def Operation.parties : Operation → List Address
  | .supply r _ | .withdraw r _ | .borrow r _ | .repay r _ => r.onBehalf :: r.receiver.toList
  | .supplyCollateral r _ | .withdrawCollateral r _ => r.onBehalf :: r.receiver.toList
  | .setAuthorization owner _ => [owner]
  | .transfer r | .routerTransfer r => [r.source, r.destination]
  | .wrap r => [r.owner]
  | .unwrap r => [r.receiver]
  | .vaultDeposit r | .vaultV2Deposit r => [r.owner]
  | .vaultWithdraw r | .vaultV2Withdraw r => [r.owner, r.receiver]
  | .swapBuy r | .swapSell r => [r.receiver]
  | _ => []

/-- The operations that exchange one token for another: wraps, unwraps and swaps. -/
def Operation.Exchanges : Operation → Prop
  | .wrap _ | .unwrap _ | .swapBuy _ | .swapSell _ => True
  | _ => False

/-- The action exchanges no token for another and names the zero address neither as its sender
nor as a party. -/
def Action.Conserving : Action → Prop
  | .mk sender _ op => sender ≠ .zero ∧ .zero ∉ op.parties ∧ ¬op.Exchanges

theorem ne_zero_of_mem {a : Address} {parties : List Address} (hparties : .zero ∉ parties)
    (ha : a ∈ parties) : a ≠ .zero :=
  fun heq => hparties (heq ▸ ha)

/-- The assets of a market operation go to its receiver, or to its sender when it names none. -/
theorem getD_ne_zero {onBehalf sender : Address} {receiver : Option Address}
    (hsender : sender ≠ .zero) (hparties : .zero ∉ onBehalf :: receiver.toList) :
    receiver.getD sender ≠ .zero := by
  cases receiver with
  | none => exact hsender
  | some r => exact ne_zero_of_mem hparties (by simp)

/-- Every operation that exchanges no token and names the zero address as no party, sent by
someone else than the zero address, moves no supply, whenever its callback moves none. -/
theorem Operation.perform_shifts {sender target : Address} {op : Operation}
    (hsender : sender ≠ .zero) (hparties : .zero ∉ op.parties) (hexchanges : ¬op.Exchanges)
    {callback : Sim Unit} (hcb : Keeps (Shifts 0) callback) :
    Keeps (Shifts 0) (op.perform sender target callback) := by
  unfold Operation.perform
  refine Keeps.seq Shifts.composes (Keeps.of_readOnly Shifts.composes (readOnly_lift _))
    fun _ => ?_
  cases op with
  | supply request _ => exact Keeps.discard (supply_shifts hcb hsender request)
  | withdraw request _ => exact Keeps.discard (withdraw_shifts hcb (getD_ne_zero hsender hparties))
  | borrow request _ => exact Keeps.discard (borrow_shifts hcb (getD_ne_zero hsender hparties))
  | repay request _ => exact Keeps.discard (repay_shifts hcb hsender request)
  | supplyCollateral request _ => exact supplyCollateral_shifts hcb hsender request
  | withdrawCollateral request _ =>
    exact withdrawCollateral_shifts hcb (getD_ne_zero hsender hparties)
  | flashLoan token assets _ => exact flashLoan_shifts hcb hsender token assets
  | accrueInterest id => exact Keeps.discard (accrueMarket_shifts id)
  | setAuthorization owner authorized => exact setAuthorization_shifts sender owner authorized
  | transfer request =>
    exact transfer_shifts sender target (ne_zero_of_mem hparties (by simp [Operation.parties]))
      (ne_zero_of_mem hparties (by simp [Operation.parties]))
  | routerTransfer request =>
    exact routerTransfer_shifts sender target (ne_zero_of_mem hparties (by simp [Operation.parties]))
      (ne_zero_of_mem hparties (by simp [Operation.parties]))
  | approve spender amount => exact setAllowance_shifts target sender spender _
  | permit request => exact permit_shifts sender target request
  | routerPermit request => exact routerPermit_shifts sender target request
  | vaultAccrueInterest => exact Keeps.discard (accrueVault_shifts target)
  | vaultDeposit request =>
    exact vaultDeposit_shifts hsender target (ne_zero_of_mem hparties (by simp [Operation.parties]))
  | vaultWithdraw request =>
    exact vaultWithdraw_shifts sender target (ne_zero_of_mem hparties (by simp [Operation.parties]))
      (ne_zero_of_mem hparties (by simp [Operation.parties]))
  | reallocate allocations => exact reallocate_shifts sender target allocations
  | publicReallocate withdrawals supplyId =>
    exact publicReallocate_shifts hsender target withdrawals supplyId
  | vaultV2AccrueInterest => exact Keeps.discard (accrueVaultV2_shifts target)
  | vaultV2Deposit request =>
    exact vaultV2Deposit_shifts hsender target (ne_zero_of_mem hparties (by simp [Operation.parties]))
  | vaultV2Withdraw request =>
    exact vaultV2Withdraw_shifts sender target (ne_zero_of_mem hparties (by simp [Operation.parties]))
      (ne_zero_of_mem hparties (by simp [Operation.parties]))
  | wrap _ | unwrap _ | swapBuy _ | swapSell _ => exact absurd trivial hexchanges

/-- No supply moves along a tree of actions that are all conserving, at any depth. -/
theorem supply_treeInvariant : TreeInvariant (Shifts 0) Action.Conserving where
  composes := Shifts.composes
  perform _ _ _ _ hP hcb := Operation.perform_shifts hP.1 hP.2.1 hP.2.2 hcb

/-- Token supply is conserved outside explicit mints and burns, vault shares included: from a
well-formed state clear of the zero address, a run of actions that, at any depth, exchange no
token for another and name the zero address neither as sender nor as a party leaves the supply
of every token as it was. -/
theorem supply_conserved {s s' : State} {index : Nat} {actions : List Action}
    (hs : s.WellFormed) (hz : s.ZeroFree) (hactions : listEverywhere Action.Conserving actions)
    (h : runActions index actions s = .ok s') : ∀ T, s'.supply T = s.supply T := by
  obtain ⟨-, -, -, hsupply⟩ := supply_treeInvariant.list actions hactions index s s' h hs hz
  intro T
  rw [hsupply T, Pi.zero_apply, add_zero]

namespace VaultSample

def asset : Address := ⟨0x78, by decide⟩

def holder : Address := ⟨0x79, by decide⟩

def vault : Address := ⟨0x7a, by decide⟩

def feeRecipient : Address := ⟨0x7b, by decide⟩

def registry : Registry :=
  ⟨⟨0x7c, by decide⟩, ⟨0x7d, by decide⟩, ⟨0x7e, by decide⟩, ⟨0x7f, by decide⟩, ⟨0x80, by decide⟩,
    none⟩

/-- A vault at `address` holding a hundred of its asset idle, all hundred of its shares held by
the holder. -/
def state (address : Address) : State :=
  (((State.new .ethereum ⟨0, 0⟩ registry).putVault
    { Vault.new address asset 0 with
        feeRecipient, totalSupply := 100, totalAssets := 100, lastTotalAssets := 100 }).putHolding
    { Holding.empty address asset with balance := 100 }).putHolding
    { Holding.empty holder address with balance := 100 }

/-- The holder withdraws fifty of the vault's assets to itself. -/
def withdrawal (address : Address) : Action :=
  .mk holder address (.vaultWithdraw ⟨Int256.ofBits 50, Int256.ofBits 0, holder, holder, none⟩)

theorem state_zeroFree : (state vault).ZeroFree := by
  refine ⟨by decide, by decide, by decide, rfl, rfl, fun a v hv => ?_⟩
  rw [show (state vault).vaults = ((State.new .ethereum ⟨0, 0⟩ registry).putVault
    { Vault.new vault asset 0 with
        feeRecipient, totalSupply := 100, totalAssets := 100, lastTotalAssets := 100 }).vaults
    from rfl, vaults_putVault] at hv
  split at hv
  · cases hv
    decide
  · cases hv

end VaultSample

open VaultSample in
/-- A withdrawal from the sample vault burns shares and lowers the vault's issued total by as
many, and pays the holder out of the vault's holding. -/
theorem supply_conserved_withdrawal :
    ∃ s', runActions 0 [withdrawal vault] (state vault) = .ok s' ∧
      ∀ T, s'.supply T = (state vault).supply T := by
  obtain ⟨s', h⟩ := Except.exists_eq_ok (x := runActions 0 [withdrawal vault] (state vault))
    (by decide +kernel)
  have hs : (state vault).WellFormed :=
    (((State.new_wellFormed _ _ _).putVault _).putHolding _).putHolding _
  have hactions : listEverywhere Action.Conserving [withdrawal vault] :=
    ⟨⟨⟨by decide, by decide, id⟩, trivial⟩, trivial⟩
  exact ⟨s', h, supply_conserved hs state_zeroFree hactions h⟩

open VaultSample in
/-- A vault at the zero address pays a withdrawal by minting it: the holder's fifty assets come
from nowhere and the supply of the asset grows, though the withdrawal names the zero address as
no party. -/
theorem zero_address_vault_mints_withdrawal :
    listEverywhere Action.Conserving [withdrawal .zero] ∧
    ∃ s', runActions 0 [withdrawal .zero] (state .zero) = .ok s' ∧
      s'.supply asset = (state .zero).supply asset + 50 := by
  refine ⟨⟨⟨⟨by decide, by decide, id⟩, trivial⟩, trivial⟩, ?_⟩
  obtain ⟨s', h, hcheck⟩ := Except.exists_eq_ok_of_check
    (x := runActions 0 [withdrawal .zero] (state .zero))
    (fun s' => decide (s'.supply asset = (state .zero).supply asset + 50))
    (by decide +kernel)
  exact ⟨s', h, of_decide_eq_true hcheck⟩

end LendingSim
