import LendingSim.Action
import LendingSim.Market.Basic

/-!
# Failures of actions

A `Fault` says why an action failed: a subsystem's error, or the failure of a nested action of
its callback. A `Failure` is a failed action with its index in the list it belongs to. A
failure's message names the action and gives the fault's text; a nested failure reads
`Callback failed: ` followed by the nested failure's message, so the message spells out the
whole path. The root of a failure is the innermost fault that is not a callback failure.
-/

namespace LendingSim

mutual

/-- Why an action failed. -/
inductive Fault where
  | input (error : InputError)
  | arith (error : ArithError)
  | market (error : MarketError)
  | token (error : TokenError)
  | adapter (error : AdapterError)
  | vault (error : VaultError)
  | allocator (error : AllocatorError)
  | missing (error : MissingData)
  /-- A nested action of the callback failed. -/
  | callback (inner : Failure)

/-- A failed action, at `index` in its list. -/
inductive Failure where
  | mk (index : Nat) (action : Action) (fault : Fault)

end

namespace Failure

/-- The index of the failed action in its list. -/
def index : Failure → Nat
  | mk index _ _ => index

/-- The failed action. -/
def action : Failure → Action
  | mk _ action _ => action

/-- Why it failed. -/
def fault : Failure → Fault
  | mk _ _ fault => fault

end Failure

namespace Fault

/-- The kind of the fault: its subsystem and variant, `Callback` for a nested failure. -/
def kind : Fault → String
  | .input e => "Input." ++ e.name
  | .arith e => "Math." ++ e.name
  | .market e => "Blue." ++ e.name
  | .token e => "Erc20." ++ e.name
  | .adapter e => "Bundler." ++ e.name
  | .vault e => "Vault." ++ e.name
  | .allocator e => "PublicAllocator." ++ e.name
  | .missing e => "UnknownData." ++ e.name
  | .callback _ => "Callback"

end Fault

mutual

/-- The text of a fault. -/
def Fault.message : Fault → String
  | .input e => e.message
  | .arith e => e.message
  | .market e => e.message
  | .token e => e.message
  | .adapter e => e.message
  | .vault e => e.message
  | .allocator e => e.message
  | .missing e => e.message
  | .callback inner => "Callback failed: " ++ inner.message

/-- The text of a failure: the action's index and tag, then the fault. -/
def Failure.message : Failure → String
  | .mk index action fault =>
    "Action #" ++ Numeral.decimal index ++ " (" ++ action.operation.name ++ ") failed: " ++
      fault.message

end

mutual

/-- The innermost fault that is not a callback failure. -/
def Fault.root : Fault → Fault
  | .callback inner => inner.root
  | fault => fault

/-- The innermost fault of a failure. -/
def Failure.root : Failure → Fault
  | .mk _ _ fault => fault.root

end

mutual

/-- The indices of the nested actions that failed, below this fault. -/
def Fault.path : Fault → List Nat
  | .callback inner => inner.path
  | _ => []

/-- The index of the failed action, then the indices inside each nested callback list down to
the innermost failure. -/
def Failure.path : Failure → List Nat
  | .mk index _ fault => index :: fault.path

end

end LendingSim
