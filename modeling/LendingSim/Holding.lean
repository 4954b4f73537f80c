import LendingSim.Address
import LendingSim.Word.UInt256

/-!
# Holdings

A holding is what one user has of one token: a balance, the allowances granted to the three
named spenders (the core contract, the permit router and the general adapter), the permit-router
allowances of the two spenders it serves, the signed-permit nonce of tokens that support
permits, and whether the user may receive the token at all. A permit-router allowance counts
only before its expiration.
-/

namespace LendingSim

/-- A spender with an allowance kept on every holding. -/
inductive Spender where
  | morpho
  | permit2
  | generalAdapter1
  deriving DecidableEq

/-- A spender the permit router serves. -/
inductive RouterSpender where
  | morpho
  | generalAdapter1
  deriving DecidableEq

/-- The name of a spender as written in documents. -/
def Spender.name : Spender → String
  | .morpho => "morpho"
  | .permit2 => "permit2"
  | .generalAdapter1 => "generalAdapter1"

/-- The name of a router spender as written in documents. -/
def RouterSpender.name : RouterSpender → String
  | .morpho => "morpho"
  | .generalAdapter1 => "generalAdapter1"

/-- The allowances of the three named spenders. -/
structure Allowances where
  morpho : UInt256
  permit2 : UInt256
  generalAdapter1 : UInt256
  deriving DecidableEq

namespace Allowances

/-- No allowance for anyone. -/
def zero : Allowances := ⟨0, 0, 0⟩

/-- The allowance of `spender`. -/
def get (a : Allowances) : Spender → UInt256
  | .morpho => a.morpho
  | .permit2 => a.permit2
  | .generalAdapter1 => a.generalAdapter1

/-- The allowances with that of `spender` replaced. -/
def set (a : Allowances) (spender : Spender) (amount : UInt256) : Allowances :=
  match spender with
  | .morpho => { a with morpho := amount }
  | .permit2 => { a with permit2 := amount }
  | .generalAdapter1 => { a with generalAdapter1 := amount }

end Allowances

/-- An allowance granted through the permit router. -/
structure RouterAllowance where
  amount : UInt256
  /-- The first time at which the allowance no longer counts. -/
  expiration : Nat
  nonce : UInt256
  deriving DecidableEq

namespace RouterAllowance

/-- Nothing allowed, expired at time zero, nonce zero. -/
def zero : RouterAllowance := ⟨0, 0, 0⟩

/-- The amount usable at `timestamp`: all of it before expiration, nothing from then on. -/
def available (a : RouterAllowance) (timestamp : Nat) : UInt256 :=
  if a.expiration ≤ timestamp then 0 else a.amount

end RouterAllowance

/-- The permit-router allowances of the two spenders it serves. -/
structure RouterAllowances where
  morpho : RouterAllowance
  generalAdapter1 : RouterAllowance
  deriving DecidableEq

namespace RouterAllowances

/-- No router allowance for anyone. -/
def zero : RouterAllowances := ⟨.zero, .zero⟩

/-- The router allowance of `spender`. -/
def get (a : RouterAllowances) : RouterSpender → RouterAllowance
  | .morpho => a.morpho
  | .generalAdapter1 => a.generalAdapter1

/-- The router allowances with that of `spender` replaced. -/
def set (a : RouterAllowances) (spender : RouterSpender) (allowance : RouterAllowance) :
    RouterAllowances :=
  match spender with
  | .morpho => { a with morpho := allowance }
  | .generalAdapter1 => { a with generalAdapter1 := allowance }

end RouterAllowances

/-- What one user has of one token. -/
structure Holding where
  user : Address
  token : Address
  balance : UInt256
  allowances : Allowances
  routerAllowances : RouterAllowances
  /-- The signed-permit nonce; absent for a token without permits. -/
  permitNonce : Option UInt256
  /-- `some false` bars the user from receiving the token. -/
  canTransfer : Option Bool
  deriving DecidableEq

namespace Holding

/-- The empty holding of `user` in `token`. -/
def empty (user token : Address) : Holding :=
  { user, token, balance := 0, allowances := .zero, routerAllowances := .zero,
    permitNonce := none, canTransfer := none }

/-- Whether the user may receive the token. -/
def canReceive (h : Holding) : Bool := h.canTransfer != some false

end Holding

/-- A user's standing with the core contract. -/
structure User where
  address : Address
  /-- Whether the bundling adapter may manage the user's positions. -/
  isBundlerAuthorized : Bool
  /-- The nonce of signed authorizations. -/
  morphoNonce : UInt256
  deriving DecidableEq

/-- A user who authorized nothing yet. -/
def User.new (address : Address) : User := { address, isBundlerAuthorized := false, morphoNonce := 0 }

end LendingSim
