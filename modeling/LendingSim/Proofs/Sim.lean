import LendingSim.State

/-!
# Successful runs of simulation steps

A handler is a `Sim` computation: a function from the state to a result and a new state, or a
fault. Every statement about handlers in this library is about their successful runs, and a
successful run of a `do` block is a chain of successful runs of its steps. This module takes
such runs apart: `bind_inv` splits a run of `x >>= f` into a run of `x` and a run of `f`, and the
primitive steps (reading, writing and modifying the state, lifting a result) are evaluated by
`simp` lemmas. Later modules invert each handler with these and never unfold the monad again.

It also names the way a handler may move the state: `Sim.Keeps R x` says that every successful
run of `x` ends in a state related to its start by `R`. When `R` is reflexive and transitive,
`Keeps R` is closed under sequencing, which is how facts about whole action trees are built
from facts about their steps.
-/

namespace LendingSim.Sim

variable {α β : Type}

/-- Running `x >>= f` runs `x`, then `f` on its result from the state `x` leaves. -/
theorem bind_apply (x : Sim α) (f : α → Sim β) (s : State) :
    (x >>= f) s = match x s with
      | .error e => .error e
      | .ok p => f p.1 p.2 := by
  show Except.bind (x s) _ = _
  cases x s <;> rfl

/-- A successful run of `x >>= f` is a successful run of `x` followed by one of `f`. -/
theorem bind_inv {x : Sim α} {f : α → Sim β} {s s' : State} {b : β}
    (h : (x >>= f) s = .ok (b, s')) : ∃ a s₁, x s = .ok (a, s₁) ∧ f a s₁ = .ok (b, s') := by
  rw [bind_apply] at h
  cases hx : x s with
  | error e =>
    rw [hx] at h
    cases h
  | ok p =>
    rw [hx] at h
    exact ⟨p.1, p.2, rfl, h⟩

@[simp]
theorem get_bind (f : State → Sim β) (s : State) :
    ((MonadStateOf.get : Sim State) >>= f) s = f s s := rfl

@[simp]
theorem set_bind (t : State) (f : PUnit → Sim β) (s : State) :
    ((set t : Sim PUnit) >>= f) s = f ⟨⟩ t := rfl

@[simp]
theorem modify_bind (g : State → State) (f : PUnit → Sim β) (s : State) :
    ((modify g : Sim PUnit) >>= f) s = f ⟨⟩ (g s) := rfl

@[simp]
theorem throw_bind (e : Fault) (f : α → Sim β) (s : State) :
    ((throw e : Sim α) >>= f) s = .error e := rfl

/-- A bind after a branch is a bind in each branch: how a handler's prefix is split off from
the rest of its run. -/
theorem ite_bind (c : Prop) [Decidable c] (x y : Sim α) (f : α → Sim β) :
    (if c then x else y) >>= f = if c then x >>= f else y >>= f := by
  split <;> rfl

@[simp]
theorem get_apply (s : State) : (MonadStateOf.get : Sim State) s = .ok (s, s) := rfl

@[simp]
theorem set_apply (t s : State) : (set t : Sim PUnit) s = .ok (⟨⟩, t) := rfl

@[simp]
theorem modify_apply (g : State → State) (s : State) :
    (modify g : Sim PUnit) s = .ok (⟨⟩, g s) := rfl

@[simp]
theorem pure_apply (a : α) (s : State) : (pure a : Sim α) s = .ok (a, s) := rfl

@[simp]
theorem throw_apply (e : Fault) (s : State) : (throw e : Sim α) s = .error e := rfl

/-- A lifted result leaves the state alone and succeeds exactly when the result is a value. -/
@[simp]
theorem lift_apply (x : Except Fault α) (s : State) :
    lift x s = x.map fun a => (a, s) := by
  cases x <;> rfl

@[simp]
theorem arith_apply (x : Except ArithError α) (s : State) :
    arith x s = (x.mapError Fault.arith).map fun a => (a, s) := by
  cases x <;> rfl

/-- A successful run of a lifted result is its value, and the state is unchanged. -/
theorem lift_inv {x : Except Fault α} {s s' : State} {a : α} (h : lift x s = .ok (a, s')) :
    x = .ok a ∧ s' = s := by
  rw [lift_apply] at h
  cases x with
  | error e => cases h
  | ok v =>
    cases h
    exact ⟨rfl, rfl⟩

theorem arith_inv {x : Except ArithError α} {s s' : State} {a : α}
    (h : arith x s = .ok (a, s')) : x = .ok a ∧ s' = s := by
  rw [arith_apply] at h
  cases x with
  | error e => cases h
  | ok v =>
    cases h
    exact ⟨rfl, rfl⟩

/-- Running a lifted result and then `f` is running `f` on the value. -/
theorem lift_bind_inv {x : Except Fault α} {f : α → Sim β} {s s' : State} {b : β}
    (h : (lift x >>= f) s = .ok (b, s')) : ∃ a, x = .ok a ∧ f a s = .ok (b, s') := by
  obtain ⟨a, s₁, hx, hf⟩ := bind_inv h
  obtain ⟨rfl, rfl⟩ := lift_inv hx
  exact ⟨a, rfl, hf⟩

theorem arith_bind_inv {x : Except ArithError α} {f : α → Sim β} {s s' : State} {b : β}
    (h : (arith x >>= f) s = .ok (b, s')) : ∃ a, x = .ok a ∧ f a s = .ok (b, s') := by
  obtain ⟨a, s₁, hx, hf⟩ := bind_inv h
  obtain ⟨rfl, rfl⟩ := arith_inv hx
  exact ⟨a, rfl, hf⟩

theorem pure_inv {a b : α} {s s' : State} (h : (pure a : Sim α) s = .ok (b, s')) :
    b = a ∧ s' = s := by
  cases h
  exact ⟨rfl, rfl⟩

/-- Every successful run of `x` ends in a state related to its start by `R`. -/
def Keeps (R : State → State → Prop) (x : Sim α) : Prop :=
  ∀ s a s', x s = .ok (a, s') → R s s'

namespace Keeps

variable {R : State → State → Prop}

theorem pure (refl : ∀ s, R s s) (a : α) : Keeps R (pure a : Sim α) := by
  intro s b s' h
  obtain ⟨-, rfl⟩ := pure_inv h
  exact refl _

theorem bind (trans : ∀ {s₁ s₂ s₃}, R s₁ s₂ → R s₂ s₃ → R s₁ s₃) {x : Sim α}
    {f : α → Sim β} (hx : Keeps R x) (hf : ∀ a, Keeps R (f a)) : Keeps R (x >>= f) := by
  intro s b s' h
  obtain ⟨a, s₁, h₁, h₂⟩ := bind_inv h
  exact trans (hx s a s₁ h₁) (hf a s₁ b s' h₂)

theorem mono {R' : State → State → Prop} (hR : ∀ {s s'}, R s s' → R' s s') {x : Sim α}
    (hx : Keeps R x) : Keeps R' x := fun s a s' h => hR (hx s a s' h)

end Keeps

end LendingSim.Sim

namespace LendingSim

/-- A result that evaluates to a success is one: how a run on a concrete state is shown to
succeed without writing out the state it ends in. -/
theorem Except.exists_eq_ok {ε α : Type} {x : Except ε α} (h : x.isOk = true) :
    ∃ a, x = .ok a := by
  cases x with
  | ok a => exact ⟨a, rfl⟩
  | error e => cases h

/-- A result that evaluates to a success meeting `check` is one: how a run on a concrete state
is read off without writing out the state it ends in. -/
theorem Except.exists_eq_ok_of_check {ε α : Type} {x : Except ε α} (check : α → Bool)
    (h : (match x with | .ok a => check a | .error _ => false) = true) :
    ∃ a, x = .ok a ∧ check a = true := by
  cases x with
  | ok a => exact ⟨a, rfl, h⟩
  | error e => cases h

/-- A result that evaluates to a failure meeting `check` is one. -/
theorem Except.exists_eq_error_of_check {ε α : Type} {x : Except ε α} (check : ε → Bool)
    (h : (match x with | .ok _ => false | .error e => check e) = true) :
    ∃ e, x = .error e ∧ check e = true := by
  cases x with
  | ok a => cases h
  | error e => exact ⟨e, rfl, h⟩

end LendingSim
