import LendingSim.Proofs.Handlers
import LendingSim.Proofs.RoundTrips

/-!
# Wrapping then unwrapping never creates value

A wrapper converts at a fixed ratio: `wrappedUnits` wrapped units for every `underlyingUnits`
units of the underlying. For a constant rate the two are one whole token of each side, so only
decimals are rescaled; for an exchange rate they are `10 ^ 18` and the rate. Wrapping multiplies
by the ratio and unwrapping divides by it, each rounding down, and the exact-amount-in forms then
take a slippage tolerance off, rounding down again. Every step of a round trip thus lands at or
below the exact value, so whichever way round, what comes back is at most what went in
(`wrapping_never_creates_value`).

A round trip comes back exactly only when no step truncates: without slippage, at a constant rate
that scales up (no more underlying decimals than wrapped ones, each at most 77 so that one whole
token fits a word), wrapping is an exact multiplication and unwrapping divides it back out.

The handlers burn what they convert and mint what the conversion gives, reading the same token,
since a wrap moves tokens and nothing else. So unwrapping everything a wrap minted returns at most
the underlying the wrap burnt.
-/

namespace LendingSim

open Sim Perform

namespace UInt256

/-- A rounded-down quotient is found only for a positive divisor. -/
theorem mulDivDown_divisor_pos {x y d q : UInt256} (h : mulDivDown x y d = .ok q) :
    0 < d.toNat := by
  rw [mulDivDown_eq] at h
  split at h
  · cases h
  · next hd => exact Nat.pos_of_ne_zero hd

/-- A rounded-down quotient of a product by a divisor that divides it is exact. -/
theorem mulDivDown_exact {x y d q : UInt256} (h : mulDivDown x y d = .ok q)
    (hdvd : d.toNat ∣ x.toNat * y.toNat) : q.toNat * d.toNat = x.toNat * y.toNat := by
  have hle := mulDivDown_mul_le h
  have hlt := lt_mulDivDown_succ_mul h
  obtain ⟨k, hk⟩ := hdvd
  rw [hk, Nat.mul_comm d.toNat k] at hle hlt ⊢
  have hq : q.toNat = k := Nat.le_antisymm (Nat.le_of_mul_le_mul_right hle (mulDivDown_divisor_pos h))
    (Nat.le_of_lt_succ (Nat.lt_of_mul_lt_mul_right hlt))
  rw [hq]

end UInt256

namespace Token

variable {t : Token} {w : Wrapper}

/-- The wrapped units a wrapper gives for `underlyingUnits` of the underlying: one whole wrapped
token at a constant rate, `10 ^ 18` at an exchange rate. -/
def wrappedUnits (t : Token) (w : Wrapper) : UInt256 :=
  match w.rate with
  | .constant => t.one
  | .exchangeRate _ => UInt256.wad

/-- The underlying units a wrapper takes for `wrappedUnits`: one whole underlying token at a
constant rate, the rate itself at an exchange rate. -/
def underlyingUnits (w : Wrapper) : UInt256 :=
  match w.rate with
  | .constant => Shares.virtualSharesOfOffset w.underlyingDecimals
  | .exchangeRate rate => rate

/-- Wrapping multiplies by the wrapper's ratio, rounding down. -/
theorem toWrapped_of_wrapper (hw : t.wrapper = some w) (assets : UInt256) :
    t.toWrapped assets = some <$> UInt256.mulDivDown assets (wrappedUnits t w) (underlyingUnits w) := by
  unfold toWrapped wrappedUnits underlyingUnits
  rw [hw]
  dsimp only
  cases w.rate <;> rfl

/-- Unwrapping divides by the wrapper's ratio, rounding down. -/
theorem toUnwrapped_of_wrapper (hw : t.wrapper = some w) (amount : UInt256) :
    t.toUnwrapped amount = some <$> UInt256.mulDivDown amount (underlyingUnits w) (wrappedUnits t w) := by
  unfold toUnwrapped wrappedUnits underlyingUnits
  rw [hw]
  dsimp only
  cases w.rate <;> rfl

theorem map_some_eq_ok {x : Except ArithError UInt256} {y : UInt256} :
    (some <$> x) = .ok (some y) ↔ x = .ok y := by
  cases x <;> simp [Functor.map, Except.map]

theorem lessSlippage_eq (x slippage : UInt256) :
    lessSlippage x slippage = UInt256.mulDivDown x (UInt256.wad.zeroFloorSub slippage) UInt256.wad :=
  rfl

/-- A slippage tolerance takes something off, or nothing. -/
theorem lessSlippage_le {x slippage y : UInt256} (h : lessSlippage x slippage = .ok y) :
    y.toNat ≤ x.toNat := by
  rw [lessSlippage_eq] at h
  have hle := UInt256.mulDivDown_mul_le h
  have hpos := UInt256.mulDivDown_divisor_pos h
  have hkept : x.toNat * (UInt256.wad.zeroFloorSub slippage).toNat ≤ x.toNat * UInt256.wad.toNat := by
    rw [UInt256.toNat_zeroFloorSub]
    exact Nat.mul_le_mul_left _ (Nat.sub_le _ _)
  exact Nat.le_of_mul_le_mul_right (hle.trans hkept) hpos

/-- No slippage takes nothing off. -/
theorem lessSlippage_zero {x y : UInt256} (h : lessSlippage x 0 = .ok y) : y = x := by
  rw [lessSlippage_eq] at h
  have hexact := UInt256.mulDivDown_exact h (Dvd.intro_left _ rfl)
  exact UInt256.ext (Nat.eq_of_mul_eq_mul_right (UInt256.mulDivDown_divisor_pos h) hexact)

/-- What a wrap mints: the underlying multiplied by the ratio, then less slippage. -/
theorem toWrappedExactAmountIn_inv {assets slippage y : UInt256}
    (h : t.toWrappedExactAmountIn assets slippage = .ok (some y)) :
    ∃ w x, t.wrapper = some w ∧
      UInt256.mulDivDown assets (wrappedUnits t w) (underlyingUnits w) = .ok x ∧
      lessSlippage x slippage = .ok y := by
  cases hw : t.wrapper with
  | none =>
    rw [toWrappedExactAmountIn, toWrapped, hw] at h
    cases h
  | some w =>
    rw [toWrappedExactAmountIn, toWrapped_of_wrapper hw] at h
    cases hx : UInt256.mulDivDown assets (wrappedUnits t w) (underlyingUnits w) with
    | error e =>
      rw [hx] at h
      cases h
    | ok x =>
      rw [hx] at h
      exact ⟨w, x, rfl, hx, map_some_eq_ok.mp h⟩

/-- What an unwrap releases: the wrapped amount divided by the ratio, then less slippage. -/
theorem toUnwrappedExactAmountIn_inv {amount slippage y : UInt256}
    (h : t.toUnwrappedExactAmountIn amount slippage = .ok (some y)) :
    ∃ w x, t.wrapper = some w ∧
      UInt256.mulDivDown amount (underlyingUnits w) (wrappedUnits t w) = .ok x ∧
      lessSlippage x slippage = .ok y := by
  cases hw : t.wrapper with
  | none =>
    rw [toUnwrappedExactAmountIn, toUnwrapped, hw] at h
    cases h
  | some w =>
    rw [toUnwrappedExactAmountIn, toUnwrapped_of_wrapper hw] at h
    cases hx : UInt256.mulDivDown amount (underlyingUnits w) (wrappedUnits t w) with
    | error e =>
      rw [hx] at h
      cases h
    | ok x =>
      rw [hx] at h
      exact ⟨w, x, rfl, hx, map_some_eq_ok.mp h⟩

/-! ## Round trips -/

/-- Two conversions at reciprocal ratios `n / d` and `d / n`, each landing at or below its exact
value, with anything in between taking off: what comes back is at most what went in. -/
theorem back_le_of_down_down {a y y' z z' n d : Nat} (hy : y * d ≤ a * n) (hy' : y' ≤ y)
    (hz : z * n ≤ y' * d) (hz' : z' ≤ z) (hn : 0 < n) : z' ≤ a := by
  have hchain : z' * n ≤ a * n :=
    calc z' * n ≤ z * n := Nat.mul_le_mul_right n hz'
      _ ≤ y' * d := hz
      _ ≤ y * d := Nat.mul_le_mul_right d hy'
      _ ≤ a * n := hy
  exact Nat.le_of_mul_le_mul_right hchain hn

variable {a slippage₁ slippage₂ x y : UInt256}

/-- Unwrapping what a wrap minted releases at most what was wrapped. -/
theorem unwrap_of_wrap_le (h₁ : t.toWrappedExactAmountIn a slippage₁ = .ok (some x))
    (h₂ : t.toUnwrappedExactAmountIn x slippage₂ = .ok (some y)) : y.toNat ≤ a.toNat := by
  obtain ⟨w, wrapped, hw, hwrap, hless₁⟩ := toWrappedExactAmountIn_inv h₁
  obtain ⟨w', unwrapped, hw', hunwrap, hless₂⟩ := toUnwrappedExactAmountIn_inv h₂
  obtain rfl : w = w' := Option.some.inj (hw.symm.trans hw')
  exact back_le_of_down_down (UInt256.mulDivDown_mul_le hwrap) (lessSlippage_le hless₁)
    (UInt256.mulDivDown_mul_le hunwrap) (lessSlippage_le hless₂)
    (UInt256.mulDivDown_divisor_pos hunwrap)

/-- Wrapping what an unwrap released mints at most what was unwrapped. -/
theorem wrap_of_unwrap_le (h₁ : t.toUnwrappedExactAmountIn a slippage₁ = .ok (some x))
    (h₂ : t.toWrappedExactAmountIn x slippage₂ = .ok (some y)) : y.toNat ≤ a.toNat := by
  obtain ⟨w, unwrapped, hw, hunwrap, hless₁⟩ := toUnwrappedExactAmountIn_inv h₁
  obtain ⟨w', wrapped, hw', hwrap, hless₂⟩ := toWrappedExactAmountIn_inv h₂
  obtain rfl : w = w' := Option.some.inj (hw.symm.trans hw')
  exact back_le_of_down_down (UInt256.mulDivDown_mul_le hunwrap) (lessSlippage_le hless₁)
    (UInt256.mulDivDown_mul_le hwrap) (lessSlippage_le hless₂)
    (UInt256.mulDivDown_divisor_pos hwrap)

/-- One whole token of `decimals` at most 77 is `10 ^ decimals` exactly: it fits a word. -/
theorem virtualSharesOfOffset_toNat {decimals : Nat} (h : decimals ≤ 77) :
    (Shares.virtualSharesOfOffset decimals).toNat = Nat.pow 10 decimals := by
  apply UInt256.toNat_ofNat_of_lt
  calc Nat.pow 10 decimals ≤ Nat.pow 10 77 := Nat.pow_le_pow_right (by decide) h
    _ < UInt256.size := by decide

/-- Without slippage, at a constant rate that scales up, unwrapping what a wrap minted gives back
exactly what was wrapped: the wrap multiplies by a power of ten and the unwrap divides it out. -/
theorem unwrap_of_wrap_exact (hw : t.wrapper = some w) (hrate : w.rate = .constant)
    (hscale : w.underlyingDecimals ≤ t.decimals) (hfits : t.decimals ≤ 77)
    (h₁ : t.toWrappedExactAmountIn a 0 = .ok (some x))
    (h₂ : t.toUnwrappedExactAmountIn x 0 = .ok (some y)) : y = a := by
  obtain ⟨w₁, wrapped, hw₁, hwrap, hless₁⟩ := toWrappedExactAmountIn_inv h₁
  obtain ⟨w₂, unwrapped, hw₂, hunwrap, hless₂⟩ := toUnwrappedExactAmountIn_inv h₂
  obtain rfl : w = w₁ := Option.some.inj (hw.symm.trans hw₁)
  obtain rfl : w = w₂ := Option.some.inj (hw.symm.trans hw₂)
  obtain rfl := lessSlippage_zero hless₁
  obtain rfl := lessSlippage_zero hless₂
  have hunits : (wrappedUnits t w).toNat = Nat.pow 10 t.decimals ∧
      (underlyingUnits w).toNat = Nat.pow 10 w.underlyingDecimals := by
    unfold wrappedUnits underlyingUnits one
    rw [hrate]
    exact ⟨virtualSharesOfOffset_toNat hfits, virtualSharesOfOffset_toNat (hscale.trans hfits)⟩
  have hdvd : (underlyingUnits w).toNat ∣ a.toNat * (wrappedUnits t w).toNat := by
    rw [hunits.1, hunits.2]
    exact Dvd.dvd.mul_left (Nat.pow_dvd_pow 10 hscale) _
  have hexact := UInt256.mulDivDown_exact hwrap hdvd
  have hback := UInt256.lt_mulDivDown_succ_mul hunwrap
  rw [hexact] at hback
  have hlower : a.toNat ≤ y.toNat :=
    Nat.le_of_lt_succ (Nat.lt_of_mul_lt_mul_right hback)
  exact UInt256.ext (Nat.le_antisymm (unwrap_of_wrap_le h₁ h₂) hlower)

end Token

/-! ## The handlers -/

namespace Perform

/-- What a request for `value` of `token` by `sender` asks for: the amount as named, or, for the
general adapter asking for the largest amount, all that `sender` holds of `token`. -/
def requested (s : State) (sender token : Address) (value : Int256) : UInt256 :=
  if isMaxAmount value && isAdapter s sender then s.balanceOf sender token else amountOf value

/-- `paid` of `given` burnt from `sender`, then `got` of `taken` minted to `receiver`. -/
def BurntThenMinted (given taken sender receiver : Address) (paid got : UInt256)
    (s s' : State) : Prop :=
  ∃ s₁, move (.burn given sender paid) s = .ok ((), s₁) ∧
    move (.mint taken sender receiver got) s₁ = .ok ((), s')

/-- A wrap into `wrapped` by `sender` ran from `s` to `s'`: it burnt `paid` of the underlying,
what the request asks for, and minted the conversion of it, `minted`, to the owner. -/
def WrapRun (wrapped : Address) (token : Token) (w : Wrapper) (sender : Address)
    (request : WrapRequest) (paid minted : UInt256) (s s' : State) : Prop :=
  paid = requested s sender w.underlying request.amount ∧
    token.toWrappedExactAmountIn paid (slippageOf request.slippage) = .ok (some minted) ∧
    BurntThenMinted w.underlying wrapped sender request.owner paid minted s s'

/-- An unwrap of `wrapped` by `sender` ran from `s` to `s'`: it burnt `burnt` of the wrapper,
what the request asks for, and minted the conversion of it, `released`, of the underlying to the
receiver, who is the sender unless the wrapper is a token wrapper. -/
def UnwrapRun (wrapped : Address) (token : Token) (w : Wrapper) (sender : Address)
    (request : UnwrapRequest) (burnt released : UInt256) (s s' : State) : Prop :=
  burnt = requested s sender wrapped request.amount ∧
    token.toUnwrappedExactAmountIn burnt (slippageOf request.slippage) = .ok (some released) ∧
    BurntThenMinted wrapped w.underlying sender (if w.erc20Wrapper then request.receiver else sender)
      burnt released s s'

variable {s s' : State} {sender wrapped : Address}

theorem wrap_run {request : WrapRequest} (h : wrap sender wrapped request s = .ok ((), s')) :
    ∃ token w paid minted, s.token wrapped = .ok token ∧ token.wrapper = some w ∧
      WrapRun wrapped token w sender request paid minted s s' := by
  unfold wrap at h
  rw [read_bind] at h
  obtain ⟨token, htoken, h₁⟩ := lift_bind_inv h
  cases hwrapper : token.wrapper with
  | none =>
    rw [hwrapper] at h₁
    cases h₁
  | some w =>
    rw [hwrapper] at h₁
    dsimp only at h₁
    obtain ⟨minted?, hminted, h₂⟩ := arith_bind_inv h₁
    cases minted? with
    | none => cases h₂
    | some minted =>
      obtain ⟨⟨⟩, s₁, hburn, hmint⟩ := bind_inv h₂
      exact ⟨token, w, _, minted, htoken, hwrapper, rfl, hminted, s₁, hburn, hmint⟩

theorem unwrap_run {request : UnwrapRequest} (h : unwrap sender wrapped request s = .ok ((), s')) :
    ∃ token w burnt released, s.token wrapped = .ok token ∧ token.wrapper = some w ∧
      UnwrapRun wrapped token w sender request burnt released s s' := by
  unfold unwrap at h
  rw [read_bind] at h
  obtain ⟨token, htoken, h₁⟩ := lift_bind_inv h
  cases hwrapper : token.wrapper with
  | none =>
    rw [hwrapper] at h₁
    cases h₁
  | some w =>
    rw [hwrapper] at h₁
    dsimp only at h₁
    obtain ⟨released?, hreleased, h₂⟩ := arith_bind_inv h₁
    cases released? with
    | none => cases h₂
    | some released =>
      obtain ⟨⟨⟩, s₁, hburn, hmint⟩ := bind_inv h₂
      exact ⟨token, w, _, released, htoken, hwrapper, rfl, hreleased, s₁, hburn, hmint⟩

/-- Burning and minting move tokens and leave the token book alone. -/
theorem BurntThenMinted.tokens {given taken receiver : Address} {paid got : UInt256}
    (h : BurntThenMinted given taken sender receiver paid got s s') : s'.tokens = s.tokens := by
  obtain ⟨s₁, hburn, hmint⟩ := h
  obtain ⟨_, _, rfl⟩ := move_tokensOnly _ _ () s₁ hburn
  obtain ⟨_, _, rfl⟩ := move_tokensOnly _ _ () s' hmint
  rfl

/-- Unwrapping everything a wrap minted releases at most what the wrap burnt: the unwrap reads
the token the wrap read, and converts back at the same ratio. -/
theorem unwrap_after_wrap_returns_no_more {holder : Address} {wrapRequest : WrapRequest}
    {unwrapRequest : UnwrapRequest} {s₁ s₂ : State}
    (hwrap : wrap sender wrapped wrapRequest s = .ok ((), s₁))
    (hunwrap : unwrap holder wrapped unwrapRequest s₁ = .ok ((), s₂)) :
    ∃ token w paid minted burnt released, s.token wrapped = .ok token ∧ token.wrapper = some w ∧
      WrapRun wrapped token w sender wrapRequest paid minted s s₁ ∧
      UnwrapRun wrapped token w holder unwrapRequest burnt released s₁ s₂ ∧
      (burnt = minted → released.toNat ≤ paid.toNat) := by
  obtain ⟨token, w, paid, minted, htoken, hw, hrun⟩ := wrap_run hwrap
  obtain ⟨token', w', burnt, released, htoken', hw', hrun'⟩ := unwrap_run hunwrap
  have hsame : s₁.token wrapped = s.token wrapped := by
    unfold State.token
    rw [hrun.2.2.tokens]
  obtain rfl : token = token' := Except.ok.inj (htoken.symm.trans (hsame.symm.trans htoken'))
  obtain rfl : w = w' := Option.some.inj (hw.symm.trans hw')
  refine ⟨token, w, paid, minted, burnt, released, htoken, hw, hrun, hrun', fun hall => ?_⟩
  rw [hall] at hrun'
  exact Token.unwrap_of_wrap_le hrun.2.1 hrun'.2.1

end Perform

open Perform in
/-- Wrapping then unwrapping never creates value, in either order and at any slippage; without
slippage, at a constant rate scaling up from at most 77 decimals, wrapping then unwrapping is
exact; and the handlers keep to it: unwrapping all a wrap minted releases at most what it burnt. -/
theorem wrapping_never_creates_value (t : Token) (a b slippage₁ slippage₂ : UInt256) :
    (∀ x y, t.toWrappedExactAmountIn a slippage₁ = .ok (some x) →
      t.toUnwrappedExactAmountIn x slippage₂ = .ok (some y) → y.toNat ≤ a.toNat) ∧
    (∀ x y, t.toUnwrappedExactAmountIn b slippage₁ = .ok (some x) →
      t.toWrappedExactAmountIn x slippage₂ = .ok (some y) → y.toNat ≤ b.toNat) ∧
    (∀ w, t.wrapper = some w → w.rate = .constant → w.underlyingDecimals ≤ t.decimals →
      t.decimals ≤ 77 → ∀ x y, t.toWrappedExactAmountIn a 0 = .ok (some x) →
        t.toUnwrappedExactAmountIn x 0 = .ok (some y) → y = a) ∧
    (∀ (s s₁ s₂ : State) (sender holder wrapped : Address) (wrapRequest : WrapRequest)
        (unwrapRequest : UnwrapRequest),
      wrap sender wrapped wrapRequest s = .ok ((), s₁) →
      unwrap holder wrapped unwrapRequest s₁ = .ok ((), s₂) →
      ∃ token w paid minted burnt released, s.token wrapped = .ok token ∧ token.wrapper = some w ∧
        WrapRun wrapped token w sender wrapRequest paid minted s s₁ ∧
        UnwrapRun wrapped token w holder unwrapRequest burnt released s₁ s₂ ∧
        (burnt = minted → released.toNat ≤ paid.toNat)) :=
  ⟨fun _ _ => Token.unwrap_of_wrap_le, fun _ _ => Token.wrap_of_unwrap_le,
    fun _ hw hrate hscale hfits _ _ => Token.unwrap_of_wrap_exact hw hrate hscale hfits,
    fun _ _ _ _ _ _ _ _ => unwrap_after_wrap_returns_no_more⟩

/-- A wrapper of 18 decimals over an underlying of 6, at a constant rate. -/
def scaledUpWrapper : Token :=
  (Token.new ⟨0x110, by decide⟩ "WUSD" 18).withWrapper
    { underlying := ⟨0x111, by decide⟩, underlyingDecimals := 6, erc20Wrapper := true,
      rate := .constant }

/-- Who wraps and unwraps through `scaledUpWrapper`. -/
def wrapHolder : Address := ⟨0x112, by decide⟩

/-- The holder with a thousand of the underlying, and the wrapper on the token book. -/
def wrapperState : State :=
  { State.new .ethereum ⟨0, 0⟩ ⟨⟨0x113, by decide⟩, ⟨0x114, by decide⟩, ⟨0x115, by decide⟩,
      ⟨0x116, by decide⟩, ⟨0x117, by decide⟩, none⟩ with
    tokens := Book.empty.insert scaledUpWrapper.address scaledUpWrapper }.putHolding
    { Holding.empty wrapHolder ⟨0x111, by decide⟩ with balance := 1000 }

/-- A thousand of the underlying wrapped for the holder. -/
def wrapThousand : WrapRequest := ⟨Int256.ofBits 1000, wrapHolder, none⟩

/-- `10 ^ 15` wrapped units unwrapped to the holder, with a slippage of one percent. -/
def unwrapSlipped : UnwrapRequest :=
  ⟨Int256.ofBits 1000000000000000, wrapHolder, some (Int256.ofBits 10000000000000000)⟩

/-- A thousand units of the underlying wrap to `10 ^ 15` wrapped units and unwrap back to exactly
a thousand, or to 990 with a slippage of one percent; the handlers, wrapping the holder's
thousand and unwrapping all it got, release those 990. -/
theorem wrapping_never_creates_value_scaled_up :
    scaledUpWrapper.toWrappedExactAmountIn 1000 0 = .ok (some 1000000000000000) ∧
    scaledUpWrapper.toUnwrappedExactAmountIn 1000000000000000 0 = .ok (some 1000) ∧
    scaledUpWrapper.toUnwrappedExactAmountIn 1000000000000000 10000000000000000 = .ok (some 990) ∧
    (990 : UInt256).toNat ≤ (1000 : UInt256).toNat ∧ (1000 : UInt256) = 1000 ∧
    ∃ s₁ s₂ w paid minted released,
      wrap wrapHolder scaledUpWrapper.address wrapThousand wrapperState = .ok ((), s₁) ∧
      unwrap wrapHolder scaledUpWrapper.address unwrapSlipped s₁ = .ok ((), s₂) ∧
      WrapRun scaledUpWrapper.address scaledUpWrapper w wrapHolder wrapThousand paid minted
        wrapperState s₁ ∧
      UnwrapRun scaledUpWrapper.address scaledUpWrapper w wrapHolder unwrapSlipped minted released
        s₁ s₂ ∧
      released.toNat ≤ paid.toNat := by
  have hwrap : scaledUpWrapper.toWrappedExactAmountIn 1000 0 = .ok (some 1000000000000000) := rfl
  have hback : scaledUpWrapper.toUnwrappedExactAmountIn 1000000000000000 0 = .ok (some 1000) := rfl
  have hslipped : scaledUpWrapper.toUnwrappedExactAmountIn 1000000000000000 10000000000000000 =
      .ok (some 990) := rfl
  have hlaws := wrapping_never_creates_value scaledUpWrapper 1000 0 0 10000000000000000
  obtain ⟨⟨⟨⟩, s₁⟩, h₁, hnext⟩ := Except.exists_eq_ok_of_check
    (x := wrap wrapHolder scaledUpWrapper.address wrapThousand wrapperState)
    (fun p => (unwrap wrapHolder scaledUpWrapper.address unwrapSlipped p.2).isOk)
    (by decide +kernel)
  obtain ⟨⟨⟨⟩, s₂⟩, h₂⟩ := Except.exists_eq_ok hnext
  obtain ⟨token, w, paid, minted, burnt, released, htoken, -, hwrapRun, hunwrapRun, hle⟩ :=
    hlaws.2.2.2 _ _ _ _ _ _ _ _ h₁ h₂
  obtain rfl : token = scaledUpWrapper := Except.ok.inj htoken.symm
  have hpaid : paid = 1000 := hwrapRun.1
  have hminted : minted = 1000000000000000 := by
    have hconverted := hwrapRun.2.1
    rw [hpaid] at hconverted
    exact Option.some.inj (Except.ok.inj (hconverted.symm.trans hwrap))
  have hburnt : burnt = minted := hunwrapRun.1.trans hminted.symm
  subst hburnt
  exact ⟨hwrap, hback, hslipped, hlaws.1 _ _ hwrap hslipped,
    hlaws.2.2.1 _ rfl rfl (by decide) (by decide) _ _ hwrap hback,
    s₁, s₂, w, paid, burnt, released, h₁, h₂, hwrapRun, hunwrapRun, hle rfl⟩

end LendingSim
