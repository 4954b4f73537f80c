import Mathlib
import LendingSim.Proofs.Writes

/-!
# What handlers do to holdings

Almost every handler rewrites holdings, but only through the writes listed by `Write`: a holding
put back changed in one of the ways of `Holding.Change`, or a signed nonce used up. So a fact
about holdings that each of those writes keeps holds along every run.

A holding whose user is barred from receiving the token (`canTransfer = some false`) stays barred
and never grows: every credit passes the receiver check of `credit`, and no write puts the flag
back changed. This holds for the mints of wraps, swaps and vault shares as for plain transfers,
since all of them credit through `move`.

Signed nonces are never reused or rolled back. Only three operations touch them: a signed permit
uses up the permit nonce of its sender's holding, a router permit the router nonce of one
spender on it, and an authorization sent by someone else than the owner the owner's
authorization nonce. Every other write is made for no signer (`Write A S` with the signer bound
`S`), so it keeps all nonces. Over a run, the permits among the actions it started, in the order
they started, carry consecutive nonces from the one the holding had before, and the holding ends
at the next one (`signed_nonces_advance`); the run is followed action by action with
`LogInvariant`, the nested actions of a callback included.
-/

namespace LendingSim

open Sim Perform

variable {B : Bounds} {s s' : State}

/-- A change keeps the holding's user and token. -/
theorem Holding.Change.key {h h' : Holding} (hc : h.Change h') :
    h'.user = h.user ∧ h'.token = h.token := by
  cases hc <;> exact ⟨rfl, rfl⟩

/-! ## Barred holdings -/

/-- Each holding barred from receiving stays barred, and holds no more than before. -/
def BarredKept (s s' : State) : Prop :=
  ∀ user token, (s.holding user token).canTransfer = some false →
    (s'.holding user token).canTransfer = some false ∧
      (s'.holding user token).balance.toNat ≤ (s.holding user token).balance.toNat

theorem barredKept_composes : Composes BarredKept where
  refl _ _ _ hbar := ⟨hbar, le_rfl⟩
  trans h₁₂ h₂₃ user token hbar :=
    ⟨(h₂₃ user token (h₁₂ user token hbar).1).1,
      (h₂₃ user token (h₁₂ user token hbar).1).2.trans (h₁₂ user token hbar).2⟩

/-- A change leaves a barred holding barred and does not raise its balance: a credit needs a
user that may receive. -/
theorem Holding.Change.barred {h h' : Holding} (hc : h.Change h')
    (hbar : h.canTransfer = some false) :
    h'.canTransfer = some false ∧ h'.balance.toNat ≤ h.balance.toNat := by
  cases hc with
  | allowances | routerAmount => exact ⟨hbar, le_rfl⟩
  | debit balance hle => exact ⟨hbar, hle⟩
  | credit balance hreceive => simp [Holding.canReceive, hbar] at hreceive

/-- Putting back the holding of `user` in `token` keeps `BarredKept` when the new holding keeps
it for that one holding. -/
theorem barredKept_putHolding {holding : Holding} {user token : Address}
    (hkey : holding.user = user ∧ holding.token = token)
    (hkeep : (s.holding user token).canTransfer = some false →
      holding.canTransfer = some false ∧
        holding.balance.toNat ≤ (s.holding user token).balance.toNat) :
    BarredKept s (s.putHolding holding) := by
  intro user' token' hbar
  rw [State.holding_putHolding]
  by_cases heq : (user', token') = (holding.user, holding.token)
  · rw [if_pos heq]
    obtain ⟨rfl, rfl⟩ : user' = user ∧ token' = token := by
      rw [hkey.1, hkey.2] at heq
      exact Prod.mk.inj heq
    exact hkeep hbar
  · rw [if_neg heq]
    exact ⟨hbar, le_rfl⟩

/-- Every write keeps each barred holding barred, with no more than it had. -/
theorem Write.barredKept (hw : Write B s s') (hs : s.WellFormed) : BarredKept s s' := by
  cases hw with
  | holding user token holding hchange =>
    have hkey := hs.holding_user user token
    exact barredKept_putHolding ⟨hchange.key.1.trans hkey.1, hchange.key.2.trans hkey.2⟩
      hchange.barred
  | permit owner token | routerPermit owner token =>
    exact barredKept_putHolding (hs.holding_user owner token) fun hbar => ⟨hbar, le_rfl⟩
  | accrue h =>
    obtain ⟨markets, positions, rfl⟩ := accrueMarket_frame h
    exact barredKept_composes.refl s
  | vaultUser | vaultMarketConfig | vault | vaultV2 | vaultV2Adapter | authorize | supply
  | withdraw | borrow | repay | supplyCollateral | withdrawCollateral =>
    exact barredKept_composes.refl s

theorem barredKept_writeInvariant :
    WriteInvariant Bounds.all BarredKept where
  composes := barredKept_composes
  write hs hw := hw.barredKept hs

/-- A restricted holding never receives tokens: if the user of a holding is barred from
receiving its token, then after any successful run of actions from a well-formed state, with any
callbacks, the user is still barred and holds no more of the token than before. -/
theorem restricted_holding_never_receives {s s' : State} {index : Nat} {actions : List Action}
    (hs : s.WellFormed) (h : runActions index actions s = .ok s') {user token : Address}
    (hbar : (s.holding user token).canTransfer = some false) :
    (s'.holding user token).canTransfer = some false ∧
      (s'.balanceOf user token).toNat ≤ (s.balanceOf user token).toNat :=
  (barredKept_writeInvariant.treeInvariant.list actions
    (listEverywhere_of_forall (fun _ => trivial) actions) index s s' h hs).2 user token hbar

/-- A barred user may still send: after sending one token of five, the holding is barred still
and holds less. -/
theorem restricted_holding_never_receives_sending :
    let u : Address := ⟨1, by decide⟩
    let v : Address := ⟨2, by decide⟩
    let token : Address := ⟨3, by decide⟩
    let s := (State.new .ethereum ⟨0, 0⟩ ⟨.zero, .zero, .zero, .zero, .zero, none⟩).putHolding
      { Holding.empty u token with balance := 5, canTransfer := some false }
    s.WellFormed ∧ (s.holding u token).canTransfer = some false ∧
      ∃ s', runActions 0 [.mk u token (.transfer ⟨1, u, v⟩)] s = .ok s' ∧
        (s'.holding u token).canTransfer = some false ∧
          (s'.balanceOf u token).toNat ≤ (s.balanceOf u token).toNat := by
  intro u v token s
  have hs : s.WellFormed := (State.new_wellFormed _ _ _).putHolding _
  have hbar : (s.holding u token).canTransfer = some false := by decide +kernel
  obtain ⟨s', h⟩ : ∃ s', runActions 0 [.mk u token (.transfer ⟨1, u, v⟩)] s = .ok s' :=
    Except.exists_eq_ok (by decide +kernel)
  exact ⟨hs, hbar, s', h, restricted_holding_never_receives hs h hbar⟩

/-! ## Signed nonces -/

/-- The operation sets an authorization or uses up a signed permit: the operations whose writes,
alone, are bounded by the signer. -/
def Operation.Signs : Operation → Prop
  | .setAuthorization .. | .permit _ | .routerPermit _ => True
  | _ => False

/-- The bounds of writes that use up no signed nonce of `owner` and set no authorization of
`owner`. -/
def Bounds.unsignedBy (owner : Address) : Bounds := { Bounds.all with sign := (· ≠ owner) }

/-- An operation that signs nothing writes within the bounds of any owner's signatures. -/
theorem Operation.within_of_not_signs {op : Operation} (hop : ¬op.Signs)
    (owner sender target : Address) :
    op.Within (Bounds.unsignedBy owner) sender target := by
  cases op with
  | setAuthorization | permit | routerPermit => exact absurd trivial hop
  | publicReallocate => exact ⟨trivial, trivial⟩
  | _ => trivial

/-- The nonce a signed permit of `owner` for `token` carries, for an action that is one. -/
def Action.permitNonce? (owner token : Address) : Action → Option UInt256
  | .mk sender target (.permit request) =>
    if sender = owner ∧ target = token then some request.nonce else none
  | _ => none

/-- The nonce a router permit of `owner` for `token` carries for `spender`, the spender named as
in `registry`, for an action that is one. -/
def Action.routerPermitNonce? (registry : Registry) (owner token : Address)
    (spender : RouterSpender) : Action → Option UInt256
  | .mk sender target (.routerPermit request) =>
    if sender = owner ∧ target = token ∧ registry.routerSpenderOf request.spender = some spender
    then some request.nonce else none
  | _ => none

/-- The action sets the authorization of `owner`, and someone else sends it. -/
def Action.relaysFor (owner : Address) : Action → Bool
  | .mk sender _ (.setAuthorization owner' _) => owner' == owner && sender != owner
  | _ => false

/-- The nonces the signed permits of `owner` for `token` among `actions` carry, in order. -/
def permitLog (owner token : Address) (actions : List Action) : List UInt256 :=
  actions.filterMap (Action.permitNonce? owner token)

/-- The nonces the router permits of `owner` for `token` and `spender` among `actions` carry,
in order. -/
def routerLog (registry : Registry) (owner token : Address) (spender : RouterSpender)
    (actions : List Action) : List UInt256 :=
  actions.filterMap (Action.routerPermitNonce? registry owner token spender)

/-- How many of `actions` set the authorization of `owner` on someone else's sending. -/
def relayCount (owner : Address) (actions : List Action) : Nat :=
  actions.countP (Action.relaysFor owner)

section Logs

variable (registry : Registry) (owner token : Address) (spender : RouterSpender)

theorem permitLog_append (l₁ l₂ : List Action) :
    permitLog owner token (l₁ ++ l₂) = permitLog owner token l₁ ++ permitLog owner token l₂ :=
  List.filterMap_append

theorem routerLog_append (l₁ l₂ : List Action) :
    routerLog registry owner token spender (l₁ ++ l₂) =
      routerLog registry owner token spender l₁ ++ routerLog registry owner token spender l₂ :=
  List.filterMap_append

theorem relayCount_append (l₁ l₂ : List Action) :
    relayCount owner (l₁ ++ l₂) = relayCount owner l₁ + relayCount owner l₂ :=
  List.countP_append

variable {sender target : Address} {op : Operation} (hop : ¬op.Signs) (l : List Action)
include hop

theorem permitLog_cons_of_not_signs :
    permitLog owner token (.mk sender target op :: l) = permitLog owner token l := by
  refine List.filterMap_cons_none ?_
  cases op with
  | permit => exact absurd trivial hop
  | _ => rfl

theorem routerLog_cons_of_not_signs :
    routerLog registry owner token spender (.mk sender target op :: l) =
      routerLog registry owner token spender l := by
  refine List.filterMap_cons_none ?_
  cases op with
  | routerPermit => exact absurd trivial hop
  | _ => rfl

theorem relayCount_cons_of_not_signs :
    relayCount owner (.mk sender target op :: l) = relayCount owner l := by
  refine List.countP_cons_of_neg ?_
  cases op with
  | setAuthorization => exact absurd trivial hop
  | _ => exact Bool.false_ne_true

end Logs

/-- `nonces` count up by one from `start`, and `final` comes after the last of them. -/
def NonceRun (start : Nat) (nonces : List UInt256) (final : Nat) : Prop :=
  nonces.map UInt256.toNat = List.range' start nonces.length ∧ final = start + nonces.length

namespace NonceRun

theorem nil (n : Nat) : NonceRun n [] n := ⟨rfl, rfl⟩

theorem single {n : UInt256} {m : Nat} (h : m = n.toNat + 1) : NonceRun n.toNat [n] m := ⟨rfl, h⟩

theorem append {a b c : Nat} {l₁ l₂ : List UInt256} (h₁ : NonceRun a l₁ b)
    (h₂ : NonceRun b l₂ c) : NonceRun a (l₁ ++ l₂) c := by
  obtain ⟨hl₁, rfl⟩ := h₁
  obtain ⟨hl₂, rfl⟩ := h₂
  refine ⟨?_, by rw [List.length_append]; omega⟩
  rw [List.map_append, hl₁, hl₂, List.length_append, ← List.range'_append, Nat.one_mul]

/-- Nonces that count up are all different. -/
theorem nodup {a b : Nat} {l : List UInt256} (h : NonceRun a l b) : l.Nodup :=
  List.Nodup.of_map UInt256.toNat (h.1 ▸ List.nodup_range')

end NonceRun

/-- How the permit nonce of a holding moves over a run whose permits carried `nonces`: a token
without permits allows none and stays without; otherwise the nonces count up from the one before,
and the one after comes next. -/
def PermitRun : Option UInt256 → List UInt256 → Option UInt256 → Prop
  | none, nonces, after => nonces = [] ∧ after = none
  | some before, nonces, after => ∃ n, after = some n ∧ NonceRun before.toNat nonces n.toNat

namespace PermitRun

theorem nil : ∀ p : Option UInt256, PermitRun p [] p
  | none => ⟨rfl, rfl⟩
  | some n => ⟨n, rfl, NonceRun.nil _⟩

theorem append {a b c : Option UInt256} {l₁ l₂ : List UInt256} (h₁ : PermitRun a l₁ b)
    (h₂ : PermitRun b l₂ c) : PermitRun a (l₁ ++ l₂) c := by
  cases a with
  | none =>
    obtain ⟨rfl, rfl⟩ := h₁
    obtain ⟨rfl, rfl⟩ := h₂
    exact ⟨rfl, rfl⟩
  | some before =>
    obtain ⟨m, rfl, h₁⟩ := h₁
    obtain ⟨n, rfl, h₂⟩ := h₂
    exact ⟨n, rfl, h₁.append h₂⟩

theorem nodup {a b : Option UInt256} {l : List UInt256} (h : PermitRun a l b) : l.Nodup := by
  cases a with
  | none =>
    rw [h.1]
    exact List.nodup_nil
  | some before =>
    obtain ⟨n, -, h⟩ := h
    exact h.nodup

end PermitRun

/-- How the signed nonces of `owner` move between two states, given the nonces the permits in
between carried and how many authorizations of `owner` others sent: the permit nonce of its
holding in `token`, the router nonce of each spender on that holding, and its authorization
nonce. The registry stays as it was. -/
structure NoncesMove (owner token : Address) (permits : List UInt256)
    (routerPermits : RouterSpender → List UInt256) (relays : Nat) (s s' : State) : Prop where
  registry : s'.registry = s.registry
  permit : PermitRun (s.holding owner token).permitNonce permits
    (s'.holding owner token).permitNonce
  router : ∀ spender, NonceRun ((s.holding owner token).routerAllowances.get spender).nonce.toNat
    (routerPermits spender) ((s'.holding owner token).routerAllowances.get spender).nonce.toNat
  authorization : (s'.user owner).morphoNonce.toNat = (s.user owner).morphoNonce.toNat + relays

/-- What a run that started `actions` does to the signed nonces of `owner` in `token`: they move
as the permits, router permits and relayed authorizations among the actions say, with router
spenders named as in the registry the run starts from. -/
def NoncesAlong (owner token : Address) (actions : List Action) (s s' : State) : Prop :=
  NoncesMove owner token (permitLog owner token actions)
    (fun spender => routerLog s.registry owner token spender actions) (relayCount owner actions) s s'

/-- The registry and the signed nonces of `owner` in `token` are as they were. -/
structure NoncesKept (owner token : Address) (s s' : State) : Prop where
  registry : s'.registry = s.registry
  permit : (s'.holding owner token).permitNonce = (s.holding owner token).permitNonce
  router : ∀ spender, ((s'.holding owner token).routerAllowances.get spender).nonce =
    ((s.holding owner token).routerAllowances.get spender).nonce
  authorization : (s'.user owner).morphoNonce = (s.user owner).morphoNonce

section Nonces

variable (owner token : Address)

theorem noncesKept_composes : Composes (NoncesKept owner token) where
  refl _ := ⟨rfl, rfl, fun _ => rfl, rfl⟩
  trans h₁₂ h₂₃ := ⟨h₂₃.registry.trans h₁₂.registry, h₂₃.permit.trans h₁₂.permit,
    fun spender => (h₂₃.router spender).trans (h₁₂.router spender),
    h₂₃.authorization.trans h₁₂.authorization⟩

variable {owner token}

/-- Keeping the nonces is moving them with nothing carried. -/
theorem NoncesKept.move (h : NoncesKept owner token s s') :
    NoncesMove owner token [] (fun _ => []) 0 s s' := by
  refine ⟨h.registry, ?_, fun spender => ?_, by rw [h.authorization]; rfl⟩
  · rw [h.permit]
    exact PermitRun.nil _
  · rw [h.router spender]
    exact NonceRun.nil _

theorem NoncesMove.append {s₁ s₂ s₃ : State} {p₁ p₂ : List UInt256}
    {r₁ r₂ : RouterSpender → List UInt256} {n₁ n₂ : Nat}
    (h₁₂ : NoncesMove owner token p₁ r₁ n₁ s₁ s₂) (h₂₃ : NoncesMove owner token p₂ r₂ n₂ s₂ s₃) :
    NoncesMove owner token (p₁ ++ p₂) (fun spender => r₁ spender ++ r₂ spender) (n₁ + n₂) s₁ s₃ :=
  ⟨h₂₃.registry.trans h₁₂.registry, h₁₂.permit.append h₂₃.permit,
    fun spender => (h₁₂.router spender).append (h₂₃.router spender),
    by rw [h₂₃.authorization, h₁₂.authorization, Nat.add_assoc]⟩

/-- Moves take in kept nonces on either side. -/
theorem noncesMove_absorbs (permits : List UInt256) (routerPermits : RouterSpender → List UInt256)
    (relays : Nat) :
    Absorbs (NoncesKept owner token) (NoncesMove owner token permits routerPermits relays) where
  before h₁₂ h₂₃ := by
    refine ⟨h₂₃.registry.trans h₁₂.registry, ?_, fun spender => ?_, ?_⟩
    · rw [← h₁₂.permit]
      exact h₂₃.permit
    · rw [← h₁₂.router spender]
      exact h₂₃.router spender
    · rw [← h₁₂.authorization]
      exact h₂₃.authorization
  after h₁₂ h₂₃ := by
    refine ⟨h₂₃.registry.trans h₁₂.registry, ?_, fun spender => ?_, ?_⟩
    · rw [h₂₃.permit]
      exact h₁₂.permit
    · rw [h₂₃.router spender]
      exact h₁₂.router spender
    · rw [h₂₃.authorization]
      exact h₁₂.authorization

theorem noncesAlong_absorbs (actions : List Action) :
    Absorbs (NoncesKept owner token) (NoncesAlong owner token actions) where
  before {s₁ s₂ s₃} h₁₂ h₂₃ := by
    unfold NoncesAlong at h₂₃ ⊢
    rw [← h₁₂.registry]
    exact (noncesMove_absorbs _ _ _).before h₁₂ h₂₃
  after h₁₂ h₂₃ := (noncesMove_absorbs _ _ _).after h₁₂ h₂₃

/-- An action that signs nothing adds nothing to what a run does to the nonces. -/
theorem noncesAlong_cons_of_not_signs {sender target : Address} {op : Operation}
    (hop : ¬op.Signs) (actions : List Action) :
    NoncesAlong owner token (.mk sender target op :: actions) = NoncesAlong owner token actions := by
  funext s s'
  simp only [NoncesAlong, permitLog_cons_of_not_signs owner token hop,
    routerLog_cons_of_not_signs _ owner token _ hop, relayCount_cons_of_not_signs owner hop]

/-! ### What one write does to the nonces -/

/-- Putting back a holding keeps the nonces of `owner` in `token` when, if it is that holding,
it keeps its nonces. -/
theorem noncesKept_putHolding {holding : Holding} {user token' : Address}
    (hkey : holding.user = user ∧ holding.token = token')
    (hkeep : user = owner → token' = token →
      holding.permitNonce = (s.holding user token').permitNonce ∧
        ∀ spender, (holding.routerAllowances.get spender).nonce =
          ((s.holding user token').routerAllowances.get spender).nonce) :
    NoncesKept owner token s (s.putHolding holding) := by
  have hread := State.holding_putHolding (s := s) holding owner token
  by_cases heq : (owner, token) = (holding.user, holding.token)
  · rw [if_pos heq] at hread
    obtain ⟨rfl, rfl⟩ : user = owner ∧ token' = token := by
      rw [hkey.1, hkey.2] at heq
      exact ⟨(Prod.mk.inj heq).1.symm, (Prod.mk.inj heq).2.symm⟩
    obtain ⟨hpermit, hrouter⟩ := hkeep rfl rfl
    exact ⟨rfl, by rw [hread, hpermit], fun spender => by rw [hread, hrouter spender], rfl⟩
  · rw [if_neg heq] at hread
    exact ⟨rfl, by rw [hread], fun spender => by rw [hread], rfl⟩

/-- A change leaves the nonces of the holding it changes alone. -/
theorem Holding.Change.nonces {h h' : Holding} (hc : h.Change h') :
    h'.permitNonce = h.permitNonce ∧
      ∀ spender, (h'.routerAllowances.get spender).nonce = (h.routerAllowances.get spender).nonce := by
  cases hc with
  | allowances | debit | credit => exact ⟨rfl, fun _ => rfl⟩
  | routerAmount spender amount =>
    refine ⟨rfl, fun other => ?_⟩
    rw [RouterAllowances.get_set]
    split
    · next hother =>
      rw [hother]
    · rfl

/-- Every write keeps the signed nonces of `owner` in `token`, when `owner` is not among the
signers it may be made for. -/
theorem Write.noncesKept (hw : Write (Bounds.unsignedBy owner) s s') (hs : s.WellFormed) :
    NoncesKept owner token s s' := by
  cases hw with
  | holding user token' holding hchange =>
    have hkey := hs.holding_user user token'
    exact noncesKept_putHolding ⟨hchange.key.1.trans hkey.1, hchange.key.2.trans hkey.2⟩
      fun _ _ => hchange.nonces
  | permit owner' token' next hS | routerPermit owner' token' spender allowance hS =>
    exact noncesKept_putHolding (hs.holding_user owner' token') fun howner _ => absurd howner hS
  | authorize owner' morphoNonce authorized hS =>
    refine ⟨rfl, rfl, fun _ => rfl, ?_⟩
    rw [State.user_putUser, if_neg fun h => hS (h.trans (hs.user_address owner')).symm]
  | accrue h =>
    obtain ⟨markets, positions, rfl⟩ := accrueMarket_frame h
    exact ⟨rfl, rfl, fun _ => rfl, rfl⟩
  | vaultUser | vaultMarketConfig | vault | vaultV2 | vaultV2Adapter | supply | withdraw | borrow
  | repay | supplyCollateral | withdrawCollateral =>
    exact ⟨rfl, rfl, fun _ => rfl, rfl⟩

variable (owner token)

theorem noncesKept_writeInvariant :
    WriteInvariant (Bounds.unsignedBy owner) (NoncesKept owner token) where
  composes := noncesKept_composes owner token
  write hs hw := hw.noncesKept hs

/-! ### The three operations that sign -/

theorem permit_noncesAlong (sender target : Address) (request : PermitRequest) :
    Keeps (Guarded (NoncesAlong owner token [.mk sender target (.permit request)]))
      (permit sender target request) := by
  intro s u s' h hs
  obtain ⟨hnonce, next, amount, hnext, hset⟩ := permit_inv h
  have hs₁ := hs.putHolding { s.holding sender target with permitNonce := some next }
  obtain ⟨hs', hkept⟩ := (noncesKept_writeInvariant owner token).setAllowance_keeps _ _ _ _ _ ()
    s' hset hs₁
  refine ⟨hs', (noncesAlong_absorbs _).after ?_ hkept⟩
  by_cases hmatch : sender = owner ∧ target = token
  · obtain ⟨rfl, rfl⟩ := hmatch
    have hread : (s.putHolding { s.holding sender target with permitNonce := some next }).holding
        sender target = { s.holding sender target with permitNonce := some next } := by
      rw [State.holding_putHolding, if_pos]
      rw [(hs.holding_user sender target).1, (hs.holding_user sender target).2]
    have hlog : permitLog sender target [.mk sender target (.permit request)] = [request.nonce] := by
      simp [permitLog, Action.permitNonce?]
    refine ⟨rfl, ?_, fun spender => ?_, rfl⟩
    · rw [hlog, hread, hnonce]
      exact ⟨next, rfl, NonceRun.single hnext⟩
    · rw [hread]
      exact NonceRun.nil _
  · have hlog : permitLog owner token [.mk sender target (.permit request)] = [] := by
      simp [permitLog, Action.permitNonce?, hmatch]
    have hkept₁ : NoncesKept owner token s
        (s.putHolding { s.holding sender target with permitNonce := some next }) :=
      noncesKept_putHolding (hs.holding_user sender target) fun howner htoken =>
        absurd ⟨howner, htoken⟩ hmatch
    unfold NoncesAlong
    rw [hlog]
    exact hkept₁.move

theorem routerPermit_noncesAlong (sender target : Address) (request : RouterPermitRequest) :
    Keeps (Guarded (NoncesAlong owner token [.mk sender target (.routerPermit request)]))
      (routerPermit sender target request) := by
  intro s u s' h hs
  obtain ⟨spender, updated, hspender, hnonce, hnext, rfl⟩ := routerPermit_inv h
  refine ⟨hs.putHolding _, ?_⟩
  by_cases hmatch : sender = owner ∧ target = token
  · obtain ⟨rfl, rfl⟩ := hmatch
    have hread : (s.putHolding { s.holding sender target with
        routerAllowances := (s.holding sender target).routerAllowances.set spender updated }).holding
          sender target = { s.holding sender target with
        routerAllowances := (s.holding sender target).routerAllowances.set spender updated } := by
      rw [State.holding_putHolding, if_pos]
      rw [(hs.holding_user sender target).1, (hs.holding_user sender target).2]
    refine ⟨rfl, ?_, fun other => ?_, rfl⟩
    · rw [hread]
      exact PermitRun.nil _
    · rw [hread, RouterAllowances.get_set]
      by_cases hother : other = spender
      · subst hother
        have hlog : routerLog s.registry sender target other
            [.mk sender target (.routerPermit request)] = [request.nonce] := by
          simp [routerLog, Action.routerPermitNonce?, hspender]
        rw [if_pos rfl, hlog, hnonce]
        exact NonceRun.single hnext
      · have hlog : routerLog s.registry sender target other
            [.mk sender target (.routerPermit request)] = [] := by
          simp [routerLog, Action.routerPermitNonce?, hspender, Ne.symm hother]
        rw [if_neg hother, hlog]
        exact NonceRun.nil _
  · have hkept : NoncesKept owner token s (s.putHolding { s.holding sender target with
        routerAllowances := (s.holding sender target).routerAllowances.set spender updated }) :=
      noncesKept_putHolding (hs.holding_user sender target) fun howner htoken =>
        absurd ⟨howner, htoken⟩ hmatch
    have hlog : ∀ other, routerLog s.registry owner token other
        [.mk sender target (.routerPermit request)] = [] := by
      intro other
      simp only [routerLog, Action.routerPermitNonce?, List.filterMap_cons, List.filterMap_nil,
        if_neg fun h : sender = owner ∧ target = token ∧ _ => hmatch ⟨h.1, h.2.1⟩]
    unfold NoncesAlong
    simp only [hlog]
    exact hkept.move

theorem setAuthorization_noncesAlong (sender target owner' : Address) (authorized : Bool) :
    Keeps (Guarded (NoncesAlong owner token [.mk sender target (.setAuthorization owner' authorized)]))
      (setAuthorization sender owner' authorized) := by
  intro s u s' h hs
  obtain ⟨morphoNonce, hnonce, rfl⟩ := setAuthorization_inv h
  refine ⟨hs.putUser _, rfl, PermitRun.nil _, fun _ => NonceRun.nil _, ?_⟩
  rw [State.user_putUser]
  by_cases howner : owner' = owner
  · subst howner
    rw [if_pos (hs.user_address owner').symm]
    by_cases hsender : sender = owner'
    · have hcount : relayCount owner' [.mk sender target (.setAuthorization owner' authorized)] = 0 := by
        simp [relayCount, Action.relaysFor, hsender]
      rw [if_pos hsender] at hnonce
      rw [hcount, hnonce]
      rfl
    · have hcount : relayCount owner' [.mk sender target (.setAuthorization owner' authorized)] = 1 := by
        simp [relayCount, Action.relaysFor, hsender]
      rw [if_neg hsender] at hnonce
      rw [hcount]
      exact hnonce
  · have hcount : relayCount owner [.mk sender target (.setAuthorization owner' authorized)] = 0 := by
      simp [relayCount, Action.relaysFor, howner]
    rw [if_neg fun h => howner (h.trans (hs.user_address owner')).symm, hcount]
    rfl

/-! ### Over every run -/

/-- What every operation does to the signed nonces of `owner` in `token`, given what its callback
does: an operation that signs moves them by its own permit or authorization, and every other
moves them only through its callback. -/
theorem noncesAlong_perform (sender target : Address) (op : Operation) (callback : Sim Unit)
    (hcb : Keeps (Guarded (NoncesAlong owner token op.flattenNested)) callback) :
    Keeps (Guarded (NoncesAlong owner token (.mk sender target op :: op.flattenNested)))
      (op.perform sender target callback) := by
  by_cases hsigns : op.Signs
  · unfold Operation.perform
    refine Keeps.readOnly_bind (readOnly_lift _) fun _ => ?_
    cases op with
    | setAuthorization owner' authorized =>
      exact setAuthorization_noncesAlong owner token sender target owner' authorized
    | permit request => exact permit_noncesAlong owner token sender target request
    | routerPermit request => exact routerPermit_noncesAlong owner token sender target request
    | _ => exact (hsigns : False).elim
  · rw [noncesAlong_cons_of_not_signs hsigns]
    refine Operation.perform_keeps_around (noncesKept_writeInvariant owner token)
      (noncesAlong_absorbs _) (Operation.within_of_not_signs hsigns owner sender target)
      (fun hcalls {_ _} hkept => ?_) hcb
    rw [Operation.flattenNested_of_not_calls hcalls]
    exact hkept.move

theorem noncesAlong_logInvariant :
    LogInvariant fun actions => Guarded (NoncesAlong owner token actions) where
  nil s hs := ⟨hs, ((noncesKept_composes owner token).refl s).move⟩
  append {l₁ l₂ s₁ s₂ s₃} h₁₂ h₂₃ hs₁ := by
    obtain ⟨hs₂, hmove₁₂⟩ := h₁₂ hs₁
    obtain ⟨hs₃, hmove₂₃⟩ := h₂₃ hs₂
    refine ⟨hs₃, ?_⟩
    unfold NoncesAlong at hmove₁₂ hmove₂₃ ⊢
    rw [hmove₁₂.registry] at hmove₂₃
    simp only [permitLog_append, routerLog_append, relayCount_append]
    exact hmove₁₂.append hmove₂₃
  perform := noncesAlong_perform owner token

end Nonces

/-- Signed nonces are never reused or rolled back. Along any successful run of actions, the
permits and router permits `owner` sent for `token`, at any depth, carry nonces counting up by one
from the holding's nonce before the run to the one it ends with, and `owner`'s authorization nonce
grows by exactly the authorizations of `owner` someone else sent. -/
theorem signed_nonces_advance {s s' : State} {index : Nat} {actions : List Action}
    (hs : s.WellFormed) (h : runActions index actions s = .ok s') (owner token : Address) :
    PermitRun (s.holding owner token).permitNonce (permitLog owner token (flattenList actions))
        (s'.holding owner token).permitNonce ∧
      (∀ spender, NonceRun ((s.holding owner token).routerAllowances.get spender).nonce.toNat
        (routerLog s.registry owner token spender (flattenList actions))
        ((s'.holding owner token).routerAllowances.get spender).nonce.toNat) ∧
      (s'.user owner).morphoNonce.toNat =
        (s.user owner).morphoNonce.toNat + relayCount owner (flattenList actions) ∧
      (permitLog owner token (flattenList actions)).Nodup ∧
      ∀ spender, (routerLog s.registry owner token spender (flattenList actions)).Nodup := by
  obtain ⟨-, hmove⟩ := (noncesAlong_logInvariant owner token).list actions index s s' h hs
  exact ⟨hmove.permit, hmove.router, hmove.authorization, hmove.permit.nodup,
    fun spender => (hmove.router spender).nodup⟩

/-- Two permits of one user for a token, with nonces zero and one, succeed one after the other. -/
theorem signed_nonces_advance_twice :
    let u : Address := ⟨1, by decide⟩
    let token : Address := ⟨3, by decide⟩
    let s := (State.new .ethereum ⟨0, 0⟩ ⟨.zero, .zero, .zero, .zero, .zero, none⟩).putHolding
      { Holding.empty u token with permitNonce := some 0 }
    let actions : List Action :=
      [.mk u token (.permit ⟨.zero, 5, 0, none⟩), .mk u token (.permit ⟨.zero, 7, 1, none⟩)]
    s.WellFormed ∧ permitLog u token (flattenList actions) = [0, 1] ∧
      ∃ s', runActions 0 actions s = .ok s' ∧
        PermitRun (s.holding u token).permitNonce (permitLog u token (flattenList actions))
          (s'.holding u token).permitNonce ∧
        (permitLog u token (flattenList actions)).Nodup := by
  intro u token s actions
  have hs : s.WellFormed := (State.new_wellFormed _ _ _).putHolding _
  obtain ⟨s', h⟩ : ∃ s', runActions 0 actions s = .ok s' := Except.exists_eq_ok (by decide +kernel)
  have hlog : permitLog u token (flattenList actions) = [0, 1] := by decide +kernel
  clear_value u token s actions
  have hadvance := signed_nonces_advance hs h u token
  exact ⟨hs, hlog, s', h, hadvance.1, hadvance.2.2.2.1⟩

end LendingSim
