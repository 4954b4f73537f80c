/-!
# Chains

The chains the simulation knows, each with its lowercase name and numeric id. An id names the
first chain with that id, in the order listed.
-/

namespace LendingSim

/-- A known chain. -/
inductive Chain where
  | ethereum
  | base
  | arbitrum
  | polygon
  | unichain
  deriving DecidableEq

namespace Chain

/-- All known chains, in order. -/
def all : List Chain := [.ethereum, .base, .arbitrum, .polygon, .unichain]

/-- The chain's numeric id. -/
def id : Chain → Nat
  | .ethereum => 1
  | .base => 8453
  | .arbitrum => 42161
  | .polygon => 137
  | .unichain => 130

/-- The chain's lowercase name. -/
def name : Chain → String
  | .ethereum => "ethereum"
  | .base => "base"
  | .arbitrum => "arbitrum"
  | .polygon => "polygon"
  | .unichain => "unichain"

/-- The first chain with this id. -/
def ofId? (id : Nat) : Option Chain := all.find? (·.id == id)

/-- The chain with exactly this lowercase name. -/
def ofName? (name : String) : Option Chain := all.find? (·.name == name)

end Chain

end LendingSim
