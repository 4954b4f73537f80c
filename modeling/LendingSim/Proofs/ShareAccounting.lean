import Mathlib
import LendingSim.Proofs.MarketInvariants

/-!
# Share accounting is exact

A market counts two kinds of shares, supply and borrow, and so do the positions on it. For each
kind, the gap between the market's total and what its positions hold never changes: every write
that moves a market's total moves one position on that market by the same number of shares.
The accrual credits its fee shares to the fee recipient's position as it adds them to the total;
the four market operations add or take the flow's shares on both sides; collateral writes and
every write outside markets and positions leave both sides alone. Hence if a state's totals are
the sums of its positions, they stay so along every run (`shareGap_preserved`).

The gap is an integer: a market the state lacks counts a total of zero.
-/

namespace LendingSim

open Sim Perform

/-- The two kinds of shares a market counts. -/
inductive ShareKind where
  | supply
  | borrow
  deriving DecidableEq

namespace ShareKind

/-- A market's total of shares of the kind. -/
def total : ShareKind → Market → UInt256
  | supply, m => m.totalSupplyShares
  | borrow, m => m.totalBorrowShares

/-- What a position holds of shares of the kind. -/
def held : ShareKind → Position → UInt256
  | supply, p => p.supplyShares
  | borrow, p => p.borrowShares

/-- What a position holds of shares of the kind on market `id`, nothing when it is on another. -/
def heldOn (k : ShareKind) (id : MarketId) (p : Position) : Nat :=
  if p.marketId = id then (k.held p).toNat else 0

theorem heldOn_empty (k : ShareKind) (id : MarketId) (user : Address) (marketId : MarketId) :
    k.heldOn id (Position.empty user marketId) = 0 := by
  unfold heldOn
  split <;> cases k <;> rfl

end ShareKind

namespace State

variable {s : State}

/-- What the positions on market `id` hold of shares of kind `k`. -/
def heldOn (s : State) (k : ShareKind) (id : MarketId) : Nat := s.positions.sum (k.heldOn id)

/-- The total of shares of kind `k` of market `id` less what its positions hold. -/
def shareGap (s : State) (k : ShareKind) (id : MarketId) : Int :=
  ((s.markets.get? id).elim 0 fun m => (k.total m).toNat : Nat) - (s.heldOn k id : Int)

/-- Putting back a position of `user` on `id` moves what the positions on `id` hold by what it
gains. -/
theorem shareGap_putPosition (hs : s.WellFormed) {user : Address} {id : MarketId} {p : Position}
    (huser : p.user = user) (hid : p.marketId = id) (k : ShareKind) (id' : MarketId) :
    (s.putPosition p).shareGap k id' = s.shareGap k id' -
      (if id = id' then ((k.held p).toNat : Int) - (k.held (s.position user id)).toNat else 0) := by
  have hsum := Book.sum_insert hs.positions.1 (user, id) p (k.heldOn id')
  rw [Book.elim_get? (ShareKind.heldOn_empty k id' user id)] at hsum
  have hold : (s.position user id).marketId = id := (hs.position_user user id).2
  have hheld : (s.putPosition p).heldOn k id' + k.heldOn id' (s.position user id) =
      s.heldOn k id' + k.heldOn id' p := by
    unfold heldOn putPosition
    rw [huser, hid]
    exact hsum
  unfold shareGap
  unfold ShareKind.heldOn at hheld
  rw [hold, hid] at hheld
  rw [show (s.putPosition p).markets = s.markets from rfl]
  split
  · next heq =>
    rw [if_pos heq, if_pos heq] at hheld
    omega
  · next hne =>
    rw [if_neg hne, if_neg hne] at hheld
    omega

/-- Storing a market read at `id` again, changed, moves the gap at `id` by what its total gains. -/
theorem shareGap_putMarket {id : MarketId} {m m' : Market} (hm : s.markets.get? id = some m)
    (hid : m'.id = id) (k : ShareKind) (id' : MarketId) :
    (s.putMarket m').shareGap k id' = s.shareGap k id' +
      (if id = id' then ((k.total m').toNat : Int) - (k.total m).toNat else 0) := by
  unfold shareGap
  rw [markets_putMarket, hid]
  show _ - ((s.heldOn k id' : Nat) : Int) = _
  split
  · next heq =>
    subst heq
    rw [if_pos rfl, hm]
    simp only [Option.elim]
    omega
  · next hne =>
    rw [if_neg (Ne.symm hne)]
    omega

/-- A market and one position on it committed together, moved by the same number of shares,
leave every gap as it was. -/
theorem shareGap_commit (hs : s.WellFormed) {id : MarketId} {m m' : Market}
    (hm : s.markets.get? id = some m) (hid : m'.params = m.params) (user : Address) (p : Position)
    (hp : p.user = user ∧ p.marketId = id) {k : ShareKind}
    (hmoved : ((k.total m').toNat : Int) - (k.total m).toNat =
      ((k.held p).toNat : Int) - (k.held (s.position user id)).toNat) (id' : MarketId) :
    ((s.putPosition p).putMarket m').shareGap k id' = s.shareGap k id' := by
  have hmid : m'.id = id := by
    rw [← hs.market_id hm]
    exact congrArg MarketParams.id hid
  rw [shareGap_putMarket (s := s.putPosition p) hm hmid, shareGap_putPosition hs hp.1 hp.2, hmoved]
  split <;> omega

/-- A position put back with the same shares of kind `k` leaves every gap as it was. -/
theorem shareGap_putPosition_same (hs : s.WellFormed) (user : Address) (id : MarketId)
    {p : Position} (hp : p.user = user ∧ p.marketId = id) {k : ShareKind}
    (hsame : k.held p = k.held (s.position user id)) (id' : MarketId) :
    (s.putPosition p).shareGap k id' = s.shareGap k id' := by
  rw [shareGap_putPosition hs hp.1 hp.2, hsame]
  split <;> omega

end State

open State

variable {B : Bounds} {s s' : State}

/-- Every write leaves the share gap of every kind on every market as it was. -/
theorem Write.shareGap (hw : Write B s s') (hs : s.WellFormed) (k : ShareKind) (id' : MarketId) :
    s'.shareGap k id' = s.shareGap k id' := by
  cases hw with
  | accrue h =>
    obtain ⟨m, accrual, s₁, hm, hrun, hfee, rfl⟩ := accrueMarket_inv h
    have haccrued := Market.accrue_inv hrun
    rcases hfee with ⟨hzero, rfl⟩ | ⟨total, htotal, rfl⟩
    · rw [shareGap_putMarket hm
        ((congrArg MarketParams.id haccrued.params).trans (hs.market_id hm))]
      cases k
      · simp only [ShareKind.total, haccrued.totalSupplyShares, hzero]
        split <;> omega
      · simp only [ShareKind.total, haccrued.totalBorrowShares]
        split <;> omega
    · refine shareGap_commit hs hm haccrued.params s.feeRecipient
        { s.position s.feeRecipient _ with supplyShares := total } (hs.position_user _ _) ?_ id'
      cases k
      · simp only [ShareKind.total, ShareKind.held, haccrued.totalSupplyShares, htotal]
        omega
      · simp only [ShareKind.total, ShareKind.held, haccrued.totalBorrowShares]
        omega
  | @supply _ user _ _ _ _ _ _ hm hop hshares =>
    obtain ⟨tsa, tss, rfl, -, htss, -⟩ := Market.supply_inv hop
    refine shareGap_commit hs hm ?_ user _ ?_ ?_ id'
    · rfl
    · exact hs.position_user user _
    cases k
    · simp only [ShareKind.total, ShareKind.held, htss, hshares]
      omega
    · simp only [ShareKind.total, ShareKind.held]
      omega
  | @withdraw _ user _ _ _ _ _ _ _ _ _ hm hop _ hshares =>
    obtain ⟨tsa, tss, rfl, -, -, htss, hle, -⟩ := Market.withdraw_inv hop
    refine shareGap_commit hs hm ?_ user _ ?_ ?_ id'
    · rfl
    · exact hs.position_user user _
    cases k
    · simp only [ShareKind.total, ShareKind.held, htss]
      omega
    · simp only [ShareKind.total, ShareKind.held]
      omega
  | @borrow _ user _ _ _ _ _ _ _ _ _ hm hop _ hshares =>
    obtain ⟨tba, tbs, rfl, -, htbs, -⟩ := Market.borrow_inv hop
    refine shareGap_commit hs hm ?_ user _ ?_ ?_ id'
    · rfl
    · exact hs.position_user user _
    cases k
    · simp only [ShareKind.total, ShareKind.held]
      omega
    · simp only [ShareKind.total, ShareKind.held, htbs, hshares]
      omega
  | @repay _ user _ _ _ _ _ _ hm hop hshares =>
    obtain ⟨tbs, rfl, htbs, hle, -⟩ := Market.repay_inv hop
    refine shareGap_commit hs hm ?_ user _ ?_ ?_ id'
    · rfl
    · exact hs.position_user user _
    cases k
    · simp only [ShareKind.total, ShareKind.held]
      omega
    · simp only [ShareKind.total, ShareKind.held, htbs]
      omega
  | @supplyCollateral id user _ _ _ | @withdrawCollateral id user _ _ _ _ _ _ =>
    refine shareGap_putPosition_same hs user id ?_ ?_ id'
    · exact hs.position_user _ _
    · cases k <;> rfl
  | holding | permit | routerPermit | vaultUser | vaultMarketConfig | vault | vaultV2
  | vaultV2Adapter | authorize => rfl

/-- Every write keeps every share gap. -/
theorem shareGap_writeInvariant :
    WriteInvariant Bounds.all (fun s s' => ∀ k id, s'.shareGap k id = s.shareGap k id) where
  composes := ⟨fun _ _ _ => rfl, fun h₁₂ h₂₃ k id => (h₂₃ k id).trans (h₁₂ k id)⟩
  write hs hw := hw.shareGap hs

/-- Market share accounting is exact: for every market, its total supply shares less the supply
shares of its positions, and its total borrow shares less their borrow shares, are the same
after any successful run of actions from a well-formed state as before, whatever the callbacks.
So totals equal to the sums of the positions stay equal. -/
theorem shareGap_preserved {s s' : State} {index : Nat} {actions : List Action}
    (hs : s.WellFormed) (h : runActions index actions s = .ok s') :
    ∀ k id, s'.shareGap k id = s.shareGap k id :=
  (shareGap_writeInvariant.treeInvariant.list actions
    (listEverywhere_of_forall (fun _ => trivial) actions) index s s' h hs).2

open LendingRun in
/-- Supplying, borrowing, withdrawing and repaying, with the accrual's fee shares credited to the
treasury, keeps every share gap. -/
theorem shareGap_preserved_lending :
    state.WellFormed ∧ ∃ s', runActions 0 actions state = .ok s' ∧
      (state.position treasury market.id).supplyShares.toNat <
        (s'.position treasury market.id).supplyShares.toNat ∧
      ∀ k id, s'.shareGap k id = state.shareGap k id := by
  obtain ⟨s', h, hfee, -⟩ := run_ok
  exact ⟨state_wellFormed, s', h, hfee, shareGap_preserved state_wellFormed h⟩

end LendingSim
