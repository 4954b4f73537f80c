import Mathlib
import LendingSim.Run
import LendingSim.Proofs.Steps

/-!
# Facts that hold across whole action trees

An action's operation may carry a callback, a list of nested actions run in the middle of it,
and each nested action may carry its own. A fact about every successful run of an action tree is
proved once per operation: if the operation keeps a relation between states whenever its
callback does, then every run of every tree keeps it, callbacks at any depth included. The
induction follows the mutual recursion of `Action.run`, `Operation.nested`, `runCallback` and
`runActions`.

A fact often holds only of trees whose actions meet a condition (no action sent by some user,
no operation of some kind); `Action.Everywhere P` says that every action of the tree meets `P`.

Some facts list what certain actions of the run did, such as the nonces its permits used up. For
those the relation is indexed by the actions the run starts, in the order they start
(`flattenList`), and `LogInvariant` proves it along every run in the same way.
-/

namespace LendingSim

open Sim

mutual

/-- Every action of the tree meets `P`, the root included. -/
def Action.Everywhere (P : Action → Prop) : Action → Prop
  | .mk sender target op => P (.mk sender target op) ∧ Operation.Everywhere P op

/-- Every action nested in the operation meets `P`. -/
def Operation.Everywhere (P : Action → Prop) : Operation → Prop
  | .supply _ callback | .withdraw _ callback | .borrow _ callback | .repay _ callback
  | .supplyCollateral _ callback | .withdrawCollateral _ callback | .flashLoan _ _ callback =>
    callbackEverywhere P callback
  | _ => True

/-- Every action of the callback meets `P`, at any depth. -/
def callbackEverywhere (P : Action → Prop) : Option (List Action) → Prop
  | none => True
  | some actions => listEverywhere P actions

/-- Every action of the list meets `P`, at any depth. -/
def listEverywhere (P : Action → Prop) : List Action → Prop
  | [] => True
  | action :: rest => Action.Everywhere P action ∧ listEverywhere P rest

end

mutual

theorem Action.everywhere_of_forall {P : Action → Prop} (hP : ∀ a, P a) :
    ∀ action : Action, action.Everywhere P
  | .mk _ _ op => ⟨hP _, Operation.everywhere_of_forall hP op⟩

theorem Operation.everywhere_of_forall {P : Action → Prop} (hP : ∀ a, P a) :
    ∀ op : Operation, op.Everywhere P
  | .supply _ cb | .withdraw _ cb | .borrow _ cb | .repay _ cb
  | .supplyCollateral _ cb | .withdrawCollateral _ cb | .flashLoan _ _ cb =>
    callbackEverywhere_of_forall hP cb
  | .accrueInterest _ | .setAuthorization _ _ | .transfer _ | .routerTransfer _
  | .approve _ _ | .permit _ | .routerPermit _ | .wrap _ | .unwrap _
  | .vaultAccrueInterest | .vaultDeposit _ | .vaultWithdraw _ | .reallocate _
  | .publicReallocate _ _ | .vaultV2AccrueInterest | .vaultV2Deposit _
  | .vaultV2Withdraw _ | .swapBuy _ | .swapSell _ => trivial

theorem callbackEverywhere_of_forall {P : Action → Prop} (hP : ∀ a, P a) :
    ∀ cb : Option (List Action), callbackEverywhere P cb
  | none => trivial
  | some actions => listEverywhere_of_forall hP actions

/-- A condition every action meets holds everywhere in every list of trees. -/
theorem listEverywhere_of_forall {P : Action → Prop} (hP : ∀ a, P a) :
    ∀ actions : List Action, listEverywhere P actions
  | [] => trivial
  | action :: rest => ⟨Action.everywhere_of_forall hP action, listEverywhere_of_forall hP rest⟩

end

/-- What a relation between states needs for every run of a tree of actions meeting `P` to
end related to where it started: it composes, and every operation of an action meeting `P`
keeps it whenever its callback does. -/
structure TreeInvariant (R : State → State → Prop) (P : Action → Prop) : Prop where
  composes : Composes R
  perform : ∀ sender target op (callback : Sim Unit), P (.mk sender target op) →
    Keeps R callback → Keeps R (op.perform sender target callback)

namespace TreeInvariant

variable {R : State → State → Prop} {P : Action → Prop}

mutual

theorem run (hR : TreeInvariant R P) : ∀ (action : Action), action.Everywhere P →
    ∀ index s s', action.run index s = .ok s' → R s s'
  | .mk sender target op, ⟨hP, hop⟩, index, s, s', h => by
    rw [Action.run.eq_1] at h
    cases hperf : Operation.perform sender target op op.nested s with
    | ok result =>
      rw [hperf] at h
      obtain ⟨⟨⟩, after⟩ := result
      cases h
      exact hR.perform sender target op _ hP (hR.nested op hop) s () _ hperf
    | error fault =>
      rw [hperf] at h
      cases h

theorem nested (hR : TreeInvariant R P) : ∀ (op : Operation), op.Everywhere P →
    Keeps R op.nested
  | .supply _ cb, h | .withdraw _ cb, h | .borrow _ cb, h | .repay _ cb, h
  | .supplyCollateral _ cb, h | .withdrawCollateral _ cb, h | .flashLoan _ _ cb, h =>
    hR.callback cb h
  | .accrueInterest _, _ | .setAuthorization _ _, _ | .transfer _, _ | .routerTransfer _, _
  | .approve _ _, _ | .permit _, _ | .routerPermit _, _ | .wrap _, _ | .unwrap _, _
  | .vaultAccrueInterest, _ | .vaultDeposit _, _ | .vaultWithdraw _, _ | .reallocate _, _
  | .publicReallocate _ _, _ | .vaultV2AccrueInterest, _ | .vaultV2Deposit _, _
  | .vaultV2Withdraw _, _ | .swapBuy _, _ | .swapSell _, _ =>
    Keeps.of_readOnly hR.composes (readOnly_pure ())

theorem callback (hR : TreeInvariant R P) : ∀ (cb : Option (List Action)),
    callbackEverywhere P cb → Keeps R (runCallback cb)
  | none, _ => Keeps.of_readOnly hR.composes (readOnly_pure ())
  | some actions, h => by
    intro s u s' hrun
    unfold runCallback at hrun
    cases hacts : runActions 0 actions s with
    | ok after =>
      rw [hacts] at hrun
      cases hrun
      exact hR.list actions h 0 s _ hacts
    | error f =>
      rw [hacts] at hrun
      cases hrun

theorem list (hR : TreeInvariant R P) : ∀ (actions : List Action), listEverywhere P actions →
    ∀ index s s', runActions index actions s = .ok s' → R s s'
  | [], _, index, s, s', h => by
    cases h
    exact hR.composes.refl _
  | action :: rest, ⟨ha, hrest⟩, index, s, s', h => by
    rw [runActions.eq_2] at h
    cases hrun : action.run index s with
    | ok after =>
      rw [hrun] at h
      exact hR.composes.trans (hR.run action ha index s after hrun)
        (hR.list rest hrest (index + 1) after s' h)
    | error f =>
      rw [hrun] at h
      cases h

end

/-- A condition on actions that a stronger one implies. -/
theorem mono {Q : Action → Prop} (hR : TreeInvariant R P) (hQ : ∀ a, Q a → P a) :
    TreeInvariant R Q where
  composes := hR.composes
  perform sender target op callback hq := hR.perform sender target op callback (hQ _ hq)

end TreeInvariant

/-! ## Runs and the actions they start -/

mutual

/-- The actions of a tree in the order they start: the root, then those of its callback. -/
def Action.flatten : Action → List Action
  | .mk sender target op => .mk sender target op :: op.flattenNested

/-- The actions nested in the operation, in the order they start. -/
def Operation.flattenNested : Operation → List Action
  | .supply _ callback | .withdraw _ callback | .borrow _ callback | .repay _ callback
  | .supplyCollateral _ callback | .withdrawCollateral _ callback | .flashLoan _ _ callback =>
    flattenCallback callback
  | _ => []

/-- The actions of a callback in the order they start, at any depth. -/
def flattenCallback : Option (List Action) → List Action
  | none => []
  | some actions => flattenList actions

/-- The actions of a list of trees in the order they start, at any depth. -/
def flattenList : List Action → List Action
  | [] => []
  | action :: rest => action.flatten ++ flattenList rest

end

/-- What a relation indexed by the actions a run starts needs to hold of every successful run of
a list of trees: the empty run relates a state to itself, runs in turn relate under both lists of
actions, and every operation relates under itself and its callback's actions whenever its
callback does. Logs of what the actions did, such as the nonces they used, are of this kind. -/
structure LogInvariant (R : List Action → State → State → Prop) : Prop where
  nil : ∀ s, R [] s s
  append : ∀ {l₁ l₂ s₁ s₂ s₃}, R l₁ s₁ s₂ → R l₂ s₂ s₃ → R (l₁ ++ l₂) s₁ s₃
  perform : ∀ sender target op (callback : Sim Unit), Keeps (R op.flattenNested) callback →
    Keeps (R (.mk sender target op :: op.flattenNested)) (op.perform sender target callback)

namespace LogInvariant

variable {R : List Action → State → State → Prop}

mutual

theorem run (hR : LogInvariant R) : ∀ (action : Action) index s s',
    action.run index s = .ok s' → R action.flatten s s'
  | .mk sender target op, index, s, s', h => by
    rw [Action.run.eq_1] at h
    cases hperf : Operation.perform sender target op op.nested s with
    | ok result =>
      rw [hperf] at h
      obtain ⟨⟨⟩, after⟩ := result
      cases h
      exact hR.perform sender target op _ (hR.nested op) s () _ hperf
    | error fault =>
      rw [hperf] at h
      cases h

theorem nested (hR : LogInvariant R) : ∀ (op : Operation), Keeps (R op.flattenNested) op.nested
  | .supply _ cb | .withdraw _ cb | .borrow _ cb | .repay _ cb
  | .supplyCollateral _ cb | .withdrawCollateral _ cb | .flashLoan _ _ cb => hR.callback cb
  | .accrueInterest _ | .setAuthorization _ _ | .transfer _ | .routerTransfer _
  | .approve _ _ | .permit _ | .routerPermit _ | .wrap _ | .unwrap _
  | .vaultAccrueInterest | .vaultDeposit _ | .vaultWithdraw _ | .reallocate _
  | .publicReallocate _ _ | .vaultV2AccrueInterest | .vaultV2Deposit _
  | .vaultV2Withdraw _ | .swapBuy _ | .swapSell _ => Keeps.pure hR.nil ()

theorem callback (hR : LogInvariant R) : ∀ (cb : Option (List Action)),
    Keeps (R (flattenCallback cb)) (runCallback cb)
  | none => Keeps.pure hR.nil ()
  | some actions => by
    intro s u s' hrun
    unfold runCallback at hrun
    cases hacts : runActions 0 actions s with
    | ok after =>
      rw [hacts] at hrun
      cases hrun
      exact hR.list actions 0 s _ hacts
    | error f =>
      rw [hacts] at hrun
      cases hrun

theorem list (hR : LogInvariant R) : ∀ (actions : List Action) index s s',
    runActions index actions s = .ok s' → R (flattenList actions) s s'
  | [], index, s, s', h => by
    cases h
    exact hR.nil _
  | action :: rest, index, s, s', h => by
    rw [runActions.eq_2] at h
    cases hrun : action.run index s with
    | ok after =>
      rw [hrun] at h
      exact hR.append (hR.run action index s after hrun) (hR.list rest (index + 1) after s' h)
    | error f =>
      rw [hrun] at h
      cases h

end

end LogInvariant

end LendingSim
