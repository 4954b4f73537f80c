import LendingSim.State

/-!
# Moving tokens

Every change of a balance is a `Movement` of an amount of a token from a source to a
destination on behalf of a sender. The zero address stands for the outside: a movement from it
mints, one to it burns. When the sender is not the source, the sender spends the source's
allowance first: the allowance of a named spender kept on the holding, or the vault-user
allowance when the sender is a vault whose asset is the token. An unlimited allowance (the
largest word) is never spent down, and the core contract needs no allowance from the general
adapter or a vault. The destination must be allowed to receive the token.
-/

namespace LendingSim.Perform

open Sim

/-- An amount of `token` moved from `source` to `destination` on behalf of `sender`. -/
structure Movement where
  token : Address
  sender : Address
  source : Address
  destination : Address
  amount : UInt256
  deriving DecidableEq

namespace Movement

/-- New tokens for `destination`. -/
def mint (token sender destination : Address) (amount : UInt256) : Movement :=
  { token, sender, source := .zero, destination, amount }

/-- Tokens of `source` destroyed. -/
def burn (token source : Address) (amount : UInt256) : Movement :=
  { token, sender := source, source, destination := .zero, amount }

end Movement

/-- Spends `amount` of what `owner` allows `spender` to take of `token`. -/
def spendAllowance (token owner spender : Address) (amount : UInt256) : Sim Unit := do
  let s ← get
  match s.registry.spenderOf spender with
  | some named =>
    if spender == s.registry.morpho && s.approvesMorpho owner then return
    let holding := s.holding owner token
    let allowance := holding.allowances.get named
    if allowance == UInt256.maxValue then return
    if allowance < amount then
      throw (.token (.insufficientAllowance token owner spender allowance amount))
    set (s.putHolding { holding with
      allowances := holding.allowances.set named (allowance.zeroFloorSub amount) })
  | none =>
    if s.vaultAsset? spender == some token then
      let vaultUser := s.vaultUser spender owner
      let allowance := vaultUser.allowance
      if allowance == UInt256.maxValue then return
      if allowance < amount then
        throw (.token (.insufficientAllowance token owner spender allowance amount))
      set (s.putVaultUser { vaultUser with allowance := allowance.zeroFloorSub amount })
    else
      throw (.token (.unknownAllowance token owner spender))

/-- Takes `amount` of `token` from `user`'s balance. -/
def debit (token user : Address) (amount : UInt256) : Sim Unit := do
  let s ← get
  let holding := s.holding user token
  match holding.balance.checkedSub amount with
  | .ok balance => set (s.putHolding { holding with balance })
  | .error _ => throw (.token (.insufficientBalance token user holding.balance amount))

/-- Adds `amount` of `token` to `user`'s balance, if the user may receive it. -/
def credit (token user : Address) (amount : UInt256) : Sim Unit := do
  let s ← get
  let holding := s.holding user token
  if !holding.canReceive then throw (.token (.unauthorizedTransfer token user))
  let balance ← arith (holding.balance.checkedAdd amount)
  set (s.putHolding { holding with balance })

/-- Performs a movement: the source side (allowance, then balance) unless it mints, then the
destination side unless it burns. -/
def move (m : Movement) : Sim Unit := do
  if m.source != Address.zero then
    if m.sender != m.source then spendAllowance m.token m.source m.sender m.amount
    debit m.token m.source m.amount
  if m.destination != Address.zero then
    credit m.token m.destination m.amount

end LendingSim.Perform
