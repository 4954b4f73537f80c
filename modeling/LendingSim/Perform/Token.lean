import LendingSim.Perform.Adapter
import LendingSim.Perform.Transfer

/-!
# Token operations

Transfers, transfers through the permit router, approvals, signed permits of both kinds, and
wrapping. An approval sets the allowance of a named spender on the owner's holding, or, for a
vault whose asset is the token and whose user the owner already is, the vault-user allowance.
A signed permit must carry the holding's next nonce and must not be past its deadline; on DAI a
non-zero permit grants an unlimited allowance. A router permit stores at most `2 ^ 160 - 1`, an
amount the router never spends down.
-/

namespace LendingSim.Perform

open Sim

/-- Transfers `request.amount` of `token`; for the general adapter the largest amount moves the
whole balance of the source. -/
def transfer (sender token : Address) (request : TransferRequest) : Sim Unit := do
  let s ← get
  let amount :=
    if isMaxAmount request.amount && isAdapter s sender then s.balanceOf request.source token
    else amountOf request.amount
  move { token, sender, source := request.source, destination := request.destination, amount }

/-- Transfers through the permit router, sent by one of the spenders it serves, spending the
source's router allowance for that spender. -/
def routerTransfer (sender token : Address) (request : TransferRequest) : Sim Unit := do
  let s ← get
  let some spender := s.registry.routerSpenderOf sender
    | throw (.token (.unexpectedRouterSender sender))
  let amount := amountOf request.amount
  let holding := s.holding request.source token
  let allowance := holding.routerAllowances.get spender
  if allowance.available s.block.timestamp < amount then
    throw (.token (.insufficientRouterAllowance token request.source sender))
  let remaining :=
    if allowance.amount == maxRouterAmount then allowance.amount
    else allowance.amount.zeroFloorSub amount
  set (s.putHolding { holding with
    routerAllowances := holding.routerAllowances.set spender { allowance with amount := remaining } })
  move { token, sender := s.registry.permit2, source := request.source,
         destination := request.destination, amount }

/-- Sets what `owner` allows `spender` to take of `token`. -/
def setAllowance (token owner spender : Address) (amount : UInt256) : Sim Unit := do
  let s ← get
  match s.registry.spenderOf spender with
  | some named =>
    let holding := s.holding owner token
    set (s.putHolding { holding with allowances := holding.allowances.set named amount })
  | none =>
    let isVaultUser := !(s.balanceOf owner spender).isZero || (s.vaultUsers.get? (spender, owner)).isSome
    if isVaultUser && s.vaultAsset? spender == some token then
      set (s.putVaultUser { s.vaultUser spender owner with allowance := amount })
    else
      throw (.token (.unknownAllowance token owner spender))

/-- Approves `spender` for `amount` of `token`. -/
def approve (sender token spender : Address) (amount : Int256) : Sim Unit :=
  setAllowance token sender spender (amountOf amount)

/-- Applies a signed permit of the sender for `token`. -/
def permit (sender token : Address) (request : PermitRequest) : Sim Unit := do
  let s ← get
  if let some deadline := request.deadline then
    if deadline < s.block.timestamp then throw (.token (.expiredPermit token sender deadline))
  let holding := s.holding sender token
  let some expected := holding.permitNonce | throw (.token (.permitNotSupported token))
  if request.nonce != expected then
    throw (.token (.invalidPermitNonce token sender expected request.nonce))
  let next ← arith (expected.checkedAdd 1)
  set (s.putHolding { holding with permitNonce := some next })
  let amount := amountOf request.amount
  let amount := if s.registry.isDai token && !amount.isZero then UInt256.maxValue else amount
  setAllowance token sender request.spender amount

/-- Applies a signed permit of the permit router. -/
def routerPermit (sender token : Address) (request : RouterPermitRequest) : Sim Unit := do
  let s ← get
  let some spender := s.registry.routerSpenderOf request.spender
    | throw (.token (.unknownAllowance token sender request.spender))
  let holding := s.holding sender token
  let allowance := holding.routerAllowances.get spender
  if request.nonce != allowance.nonce then
    throw (.token (.invalidPermitNonce token sender allowance.nonce request.nonce))
  let nonce ← arith (allowance.nonce.checkedAdd 1)
  let updated : RouterAllowance :=
    { amount := min (amountOf request.amount) maxRouterAmount, expiration := request.expiration,
      nonce }
  set (s.putHolding { holding with
    routerAllowances := holding.routerAllowances.set spender updated })

/-- Wraps the sender's underlying tokens into `wrapped`, minted to `request.owner`. -/
def wrap (sender wrapped : Address) (request : WrapRequest) : Sim Unit := do
  let s ← get
  let token ← lift (s.token wrapped)
  let some wrapper := token.wrapper | throw (.token (.notWrapper wrapped))
  let assets :=
    if isMaxAmount request.amount && isAdapter s sender then s.balanceOf sender wrapper.underlying
    else amountOf request.amount
  let some minted ← arith (token.toWrappedExactAmountIn assets (slippageOf request.slippage))
    | throw (.token (.notWrapper wrapped))
  move (.burn wrapper.underlying sender assets)
  move (.mint wrapped sender request.owner minted)

/-- Unwraps the sender's `wrapped` tokens; only a token wrapper may send the underlying to
another receiver than the sender. -/
def unwrap (sender wrapped : Address) (request : UnwrapRequest) : Sim Unit := do
  let s ← get
  let token ← lift (s.token wrapped)
  let some wrapper := token.wrapper | throw (.token (.notWrapper wrapped))
  let shares :=
    if isMaxAmount request.amount && isAdapter s sender then s.balanceOf sender wrapped
    else amountOf request.amount
  let some unwrapped ← arith (token.toUnwrappedExactAmountIn shares (slippageOf request.slippage))
    | throw (.token (.notWrapper wrapped))
  let receiver := if wrapper.erc20Wrapper then request.receiver else sender
  move (.burn wrapped sender shares)
  move (.mint wrapper.underlying sender receiver unwrapped)

end LendingSim.Perform
