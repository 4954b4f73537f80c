import LendingSim.Perform.Core
import LendingSim.Perform.Token
import LendingSim.Perform.Allocator
import LendingSim.Perform.VaultV2
import LendingSim.Perform.Swap

/-!
# Running actions

An action runs in two steps: its operation is validated, then performed with its callback.
A callback runs its nested actions in order, each with its index in the callback's list; the
first failure stops it and becomes the callback failure of the enclosing action. The recursion
follows the action tree, so it ends. Three runners use this: one action on a state, a list of
actions on a state as a whole (all or nothing), and a list step by step, keeping the state after
each action that succeeded.
-/

namespace LendingSim

open Perform Sim

/-- Validates and performs an operation sent by `sender` to `target`, with `callback` standing
for its nested actions. -/
def Operation.perform (sender target : Address) (op : Operation) (callback : Sim Unit) :
    Sim Unit := do
  lift (op.validate.mapError .input)
  match op with
  | .supply request _ => discard (Perform.supply sender request callback)
  | .withdraw request _ => discard (Perform.withdraw sender request callback)
  | .borrow request _ => discard (Perform.borrow sender request callback)
  | .repay request _ => discard (Perform.repay sender request callback)
  | .supplyCollateral request _ => Perform.supplyCollateral sender request callback
  | .withdrawCollateral request _ => Perform.withdrawCollateral sender request callback
  | .flashLoan token assets _ => Perform.flashLoan sender token assets callback
  | .accrueInterest id => discard (accrueMarket id)
  | .setAuthorization owner authorized => Perform.setAuthorization sender owner authorized
  | .transfer request => Perform.transfer sender target request
  | .routerTransfer request => Perform.routerTransfer sender target request
  | .approve spender amount => Perform.approve sender target spender amount
  | .permit request => Perform.permit sender target request
  | .routerPermit request => Perform.routerPermit sender target request
  | .wrap request => Perform.wrap sender target request
  | .unwrap request => Perform.unwrap sender target request
  | .vaultAccrueInterest => discard (accrueVault target)
  | .vaultDeposit request => Perform.vaultDeposit sender target request
  | .vaultWithdraw request => Perform.vaultWithdraw sender target request
  | .reallocate allocations => Perform.reallocate sender target allocations
  | .publicReallocate withdrawals supplyId => Perform.publicReallocate sender target withdrawals supplyId
  | .vaultV2AccrueInterest => discard (accrueVaultV2 target)
  | .vaultV2Deposit request => Perform.vaultV2Deposit sender target request
  | .vaultV2Withdraw request => Perform.vaultV2Withdraw sender target request
  | .swapBuy request => Perform.swapBuy sender request
  | .swapSell request => Perform.swapSell sender request

mutual

/-- Runs an action at `index` of its list. -/
def Action.run (index : Nat) : Action → State → Except Failure State
  | .mk sender target op, s =>
    match (op.perform sender target (Operation.nested op)) s with
    | .ok ((), after) => .ok after
    | .error fault => .error (.mk index (.mk sender target op) fault)

/-- The nested actions of an operation, as one step; nothing for operations without callback. -/
def Operation.nested : Operation → Sim Unit
  | .supply _ callback | .withdraw _ callback | .borrow _ callback | .repay _ callback
  | .supplyCollateral _ callback | .withdrawCollateral _ callback | .flashLoan _ _ callback =>
    runCallback callback
  | _ => pure ()

/-- Runs a callback; a failure of a nested action is a callback fault. -/
def runCallback : Option (List Action) → Sim Unit
  | none => pure ()
  | some actions => fun s =>
    match runActions 0 actions s with
    | .ok after => .ok ((), after)
    | .error failure => .error (.callback failure)

/-- Runs actions in order from `index` on, stopping at the first failure. -/
def runActions (index : Nat) : List Action → State → Except Failure State
  | [], s => .ok s
  | action :: rest, s =>
    match action.run index s with
    | .ok after => runActions (index + 1) rest after
    | .error failure => .error failure

end

/-- Runs one action, as the first of its list. -/
def simulateAction (s : State) (action : Action) : Except Failure State := action.run 0 s

/-- Runs a list of actions as a whole: the final state, or the first failure. -/
def simulateActions (s : State) (actions : List Action) : Except Failure State :=
  runActions 0 actions s

/-- A step-by-step run that failed: the states up to the failing action, the actions, and the
failure. -/
structure StepwiseFailure where
  /-- The initial state, then the state after each action that succeeded. -/
  steps : List State
  actions : List Action
  failure : Failure

/-- The states after each action from `index` on, appended to `steps` (which ends with
`current`), or where it failed. -/
def stepwiseFrom (actions : List Action) (index : Nat) (steps : List State) (current : State) :
    List Action → Except StepwiseFailure (List State)
  | [] => .ok steps
  | action :: rest =>
    match action.run index current with
    | .ok after => stepwiseFrom actions (index + 1) (steps ++ [after]) after rest
    | .error failure => .error ⟨steps, actions, failure⟩

/-- Runs a list of actions step by step: the initial state and the state after each action, or
the states up to the first failure with the failure. -/
def simulateStepwise (s : State) (actions : List Action) : Except StepwiseFailure (List State) :=
  stepwiseFrom actions 0 [s] s actions

/-- The index of the failing action. -/
def StepwiseFailure.index (f : StepwiseFailure) : Nat := f.failure.index

end LendingSim
