import LendingSim.Holding

/-!
# The address registry

The addresses of the contracts the simulation knows by role: the core contract, the permit
router, the bundler, the general adapter, the public allocator and, on chains that have it, the
DAI token, whose permits grant an unlimited allowance. A spender address is recognised by the
first role it matches, in the order core contract, permit router, general adapter.
-/

namespace LendingSim

/-- The addresses of the contracts known by role. -/
structure Registry where
  morpho : Address
  permit2 : Address
  bundler3 : Address
  generalAdapter1 : Address
  publicAllocator : Address
  dai : Option Address
  deriving DecidableEq

namespace Registry

/-- The named spender at `spender`, if any. -/
def spenderOf (r : Registry) (spender : Address) : Option Spender :=
  if spender == r.morpho then some .morpho
  else if spender == r.permit2 then some .permit2
  else if spender == r.generalAdapter1 then some .generalAdapter1
  else none

/-- The permit-router spender at `spender`, if any. -/
def routerSpenderOf (r : Registry) (spender : Address) : Option RouterSpender :=
  if spender == r.morpho then some .morpho
  else if spender == r.generalAdapter1 then some .generalAdapter1
  else none

/-- Whether `token` is DAI. -/
def isDai (r : Registry) (token : Address) : Bool := r.dai == some token

end Registry

/-- The address of the native token. -/
def nativeAddress : Address := ⟨0xeeeeeeeeeeeeeeeeeeeeeeeeeeeeeeeeeeeeeeee, by decide⟩

/-- The largest amount the permit router stores, `2 ^ 160 - 1`; it is never spent down. -/
def maxRouterAmount : UInt256 := 0xffffffffffffffffffffffffffffffffffffffff

end LendingSim
