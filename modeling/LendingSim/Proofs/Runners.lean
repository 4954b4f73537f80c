import Mathlib
import LendingSim.Run
import LendingSim.Proofs.Sim

/-!
# The three runners agree

A list of actions runs as a whole, all or nothing (`simulateActions`), or step by step, keeping
the state after each action (`simulateStepwise`); a single action runs as the first of its list
(`simulateAction`). This module shows that the three are one computation.

A successful run of a list is a `Trace`: the start state, then the state each action leaves from
the one before. A run that stops is a `Halt`: a trace up to the failing action, then its failure.
Both runners are characterized by these two relations, so they succeed together and end in the
same state, or fail at the same action with the same failure, and a step-by-step failure keeps
exactly the states before the failing action. An action's index only numbers its failure, so
running two lists one after the other is running their concatenation, the failures of the
second list renumbered after the first.
-/

namespace LendingSim

namespace Failure

/-- The failure numbered `offset` places later. -/
def reindex (offset : Nat) : Failure → Failure
  | mk index action fault => mk (index + offset) action fault

@[simp]
theorem index_reindex (offset : Nat) (f : Failure) :
    (f.reindex offset).index = f.index + offset := by
  cases f
  rfl

end Failure

/-! ## Indices only number failures -/

theorem Action.run_add (index offset : Nat) (action : Action) (s : State) :
    action.run (index + offset) s = (action.run index s).mapError (Failure.reindex offset) := by
  obtain ⟨sender, target, op⟩ := action
  rw [Action.run.eq_1, Action.run.eq_1]
  cases Operation.perform sender target op op.nested s with
  | ok result =>
    obtain ⟨⟨⟩, after⟩ := result
    rfl
  | error fault => rfl

/-- A failure of the action at `index` carries that index. -/
theorem Action.index_of_run_error {index : Nat} {action : Action} {s : State} {f : Failure}
    (h : action.run index s = .error f) : f.index = index := by
  obtain ⟨sender, target, op⟩ := action
  rw [Action.run.eq_1] at h
  split at h
  · cases h
  · cases h
    rfl

theorem runActions_add (index offset : Nat) (actions : List Action) (s : State) :
    runActions (index + offset) actions s =
      (runActions index actions s).mapError (Failure.reindex offset) := by
  induction actions generalizing index s with
  | nil => rfl
  | cons action rest ih =>
    rw [runActions.eq_2, runActions.eq_2, Action.run_add]
    cases action.run index s with
    | ok after =>
      rw [show index + offset + 1 = index + 1 + offset by omega]
      exact ih (index + 1) after
    | error f => rfl

/-- A run of a concatenation is a run of the first list, then of the second from where the first
ended, numbered on. -/
theorem runActions_append (index : Nat) (front back : List Action) (s : State) :
    runActions index (front ++ back) s =
      (runActions index front s).bind (runActions (index + front.length) back) := by
  induction front generalizing index s with
  | nil => rfl
  | cons action rest ih =>
    rw [List.cons_append, runActions.eq_2, runActions.eq_2]
    cases action.run index s with
    | ok after =>
      dsimp only
      rw [ih (index + 1) after, List.length_cons, Nat.add_assoc, Nat.add_comm 1]
    | error f => rfl

/-! ## Successful runs -/

/-- Running `actions` from `s`, the first numbered `index`, passes through `states`: `s`, then the
state each action leaves. -/
inductive Trace : Nat → State → List Action → List State → Prop
  | nil (index : Nat) (s : State) : Trace index s [] [s]
  | cons {index : Nat} {s after : State} {action : Action} {rest : List Action}
      {states : List State} :
      action.run index s = .ok after → Trace (index + 1) after rest states →
        Trace index s (action :: rest) (s :: states)

namespace Trace

variable {index : Nat} {s : State} {actions : List Action} {states : List State}

theorem eq_cons (h : Trace index s actions states) : states = s :: states.tail := by
  cases h <;> rfl

theorem length_eq (h : Trace index s actions states) : states.length = actions.length + 1 := by
  induction h with
  | nil => rfl
  | cons _ _ ih => simp [ih]

/-- The trace of a list, read position by position: the action at position `i` leads from the
`i`-th state to the next. -/
theorem iff_getElem? :
    Trace index s actions states ↔
      states.length = actions.length + 1 ∧ states[0]? = some s ∧
        ∀ i action, actions[i]? = some action → ∃ before after, states[i]? = some before ∧
          states[i + 1]? = some after ∧ action.run (index + i) before = .ok after := by
  constructor
  · intro h
    induction h with
    | nil => simp
    | @cons index s after action rest states hrun htrace ih =>
      obtain ⟨hlength, hhead, hsteps⟩ := ih
      refine ⟨by simp [hlength], rfl, ?_⟩
      intro i a ha
      cases i with
      | zero =>
        simp only [List.getElem?_cons_zero, Option.some.injEq] at ha
        subst ha
        exact ⟨s, after, rfl, hhead, hrun⟩
      | succ i =>
        obtain ⟨before, after', h1, h2, h3⟩ := hsteps i a ha
        refine ⟨before, after', h1, h2, ?_⟩
        rwa [show index + (i + 1) = index + 1 + i by omega]
  · rintro ⟨hlength, hhead, hsteps⟩
    induction actions generalizing index s states with
    | nil =>
      obtain ⟨x, rfl⟩ := List.length_eq_one_iff.mp hlength
      simp only [List.getElem?_cons_zero, Option.some.injEq] at hhead
      subst hhead
      exact .nil index x
    | cons action rest ih =>
      obtain ⟨before, after, h1, h2, hrun⟩ := hsteps 0 action rfl
      cases states with
      | nil => simp at hlength
      | cons x tail =>
        simp only [List.getElem?_cons_zero, Option.some.injEq] at hhead h1
        subst hhead h1
        simp only [Nat.add_zero] at hrun
        refine .cons hrun (ih ?_ ?_ ?_)
        · simpa using hlength
        · simpa using h2
        · intro i a ha
          obtain ⟨b, c, hb, hc, hr⟩ := hsteps (i + 1) a (by simpa using ha)
          refine ⟨b, c, by simpa using hb, by simpa using hc, ?_⟩
          convert hr using 2
          omega

end Trace

/-- The terminal runner succeeds exactly along a trace, ending in its last state. -/
theorem runActions_eq_ok_iff {index : Nat} {actions : List Action} {s t : State} :
    runActions index actions s = .ok t ↔
      ∃ states, Trace index s actions states ∧ states[actions.length]? = some t := by
  constructor
  · intro h
    induction actions generalizing index s with
    | nil =>
      cases h
      exact ⟨[_], .nil index _, rfl⟩
    | cons action rest ih =>
      rw [runActions.eq_2] at h
      cases hrun : action.run index s with
      | ok after =>
        rw [hrun] at h
        obtain ⟨states, htrace, hlast⟩ := ih h
        exact ⟨s :: states, .cons hrun htrace, by simpa using hlast⟩
      | error f =>
        rw [hrun] at h
        cases h
  · rintro ⟨states, htrace, hlast⟩
    induction htrace with
    | nil =>
      simp only [List.length_nil, List.getElem?_cons_zero, Option.some.injEq] at hlast
      rw [hlast]
      rfl
    | cons hrun _ ih =>
      rw [runActions.eq_2, hrun]
      exact ih (by simpa using hlast)

/-- A trace ends in the state the terminal runner returns. -/
theorem Trace.runActions {index : Nat} {s : State} {actions : List Action} {states : List State}
    (h : Trace index s actions states) :
    ∃ t, states[actions.length]? = some t ∧ runActions index actions s = .ok t := by
  have hlt : actions.length < states.length := by
    rw [h.length_eq]
    exact Nat.lt_succ_self _
  exact ⟨states[actions.length], List.getElem?_eq_getElem hlt,
    runActions_eq_ok_iff.mpr ⟨states, h, List.getElem?_eq_getElem hlt⟩⟩

/-- The step-by-step runner succeeds exactly along a trace, appending its states after the
first to those it has kept. -/
theorem stepwiseFrom_eq_ok_iff {all : List Action} {index : Nat} {steps : List State}
    {s : State} {actions : List Action} {out : List State} :
    stepwiseFrom all index steps s actions = .ok out ↔
      ∃ states, Trace index s actions states ∧ out = steps ++ states.tail := by
  constructor
  · intro h
    induction actions generalizing index steps s with
    | nil =>
      cases h
      exact ⟨[s], .nil index s, by simp⟩
    | cons action rest ih =>
      rw [stepwiseFrom.eq_2] at h
      cases hrun : action.run index s with
      | ok after =>
        rw [hrun] at h
        obtain ⟨states, htrace, rfl⟩ := ih h
        refine ⟨s :: states, .cons hrun htrace, ?_⟩
        rw [htrace.eq_cons]
        simp
      | error f =>
        rw [hrun] at h
        cases h
  · rintro ⟨states, htrace, rfl⟩
    induction htrace generalizing steps with
    | nil => simp [stepwiseFrom]
    | @cons index s after action rest states hrun htrace ih =>
      rw [stepwiseFrom.eq_2, hrun]
      simp only
      rw [ih, htrace.eq_cons]
      simp

/-! ## Runs that stop -/

/-- Running `actions` from `s`, the first numbered `index`, passes through `states` and then an
action fails with `failure`: the last state is the one it failed on. -/
inductive Halt : Nat → State → List Action → List State → Failure → Prop
  | here {index : Nat} {s : State} {action : Action} {rest : List Action} {failure : Failure} :
      action.run index s = .error failure → Halt index s (action :: rest) [s] failure
  | next {index : Nat} {s after : State} {action : Action} {rest : List Action}
      {states : List State} {failure : Failure} :
      action.run index s = .ok after → Halt (index + 1) after rest states failure →
        Halt index s (action :: rest) (s :: states) failure

namespace Halt

variable {index : Nat} {s : State} {actions : List Action} {states : List State}
  {failure : Failure}

theorem eq_cons (h : Halt index s actions states failure) : states = s :: states.tail := by
  cases h <;> rfl

/-- A halted run, read position by position: a trace through the actions before the failing
one, which fails on the last state with the failure numbered by its position. -/
theorem iff_trace :
    Halt index s actions states failure ↔
      ∃ k, states.length = k + 1 ∧ failure.index = index + k ∧
        Trace index s (actions.take k) states ∧ ∃ action before, actions[k]? = some action ∧
          states[k]? = some before ∧ action.run (index + k) before = .error failure := by
  constructor
  · intro h
    induction h with
    | @here index s action rest failure hrun =>
      exact ⟨0, rfl, by simpa using Action.index_of_run_error hrun, .nil index s, action, s,
        rfl, rfl, hrun⟩
    | @next index s after action rest states failure hrun _ ih =>
      obtain ⟨k, hlength, hindex, htrace, a, before, ha, hbefore, hfail⟩ := ih
      refine ⟨k + 1, by simp [hlength], by omega, ?_, a, before, by simpa using ha,
        by simpa using hbefore, by rwa [show index + (k + 1) = index + 1 + k by omega]⟩
      simpa using Trace.cons hrun htrace
  · rintro ⟨k, hlength, -, htrace, action, before, haction, hbefore, hfail⟩
    induction k generalizing index s actions states with
    | zero =>
      cases actions with
      | nil => simp at haction
      | cons a rest =>
        simp only [List.getElem?_cons_zero, Option.some.injEq] at haction
        subst haction
        simp only [List.take_zero] at htrace
        cases htrace
        simp only [List.getElem?_cons_zero, Option.some.injEq] at hbefore
        subst hbefore
        exact .here (by simpa using hfail)
    | succ k ih =>
      cases actions with
      | nil => simp at haction
      | cons a rest =>
        simp only [List.take_succ_cons] at htrace
        cases htrace with
        | @cons _ _ after _ _ tail hrun htail =>
          refine .next hrun (ih (by simpa using hlength) htail (by simpa using haction)
            (by simpa using hbefore) ?_)
          rwa [show index + (k + 1) = index + 1 + k by omega] at hfail

end Halt

/-- The terminal runner fails exactly where a run halts, with the same failure. -/
theorem runActions_eq_error_iff {index : Nat} {actions : List Action} {s : State}
    {failure : Failure} :
    runActions index actions s = .error failure ↔ ∃ states, Halt index s actions states failure := by
  constructor
  · intro h
    induction actions generalizing index s with
    | nil => cases h
    | cons action rest ih =>
      rw [runActions.eq_2] at h
      cases hrun : action.run index s with
      | ok after =>
        rw [hrun] at h
        obtain ⟨states, hhalt⟩ := ih h
        exact ⟨s :: states, .next hrun hhalt⟩
      | error f =>
        rw [hrun] at h
        cases h
        exact ⟨[s], .here hrun⟩
  · rintro ⟨states, hhalt⟩
    induction hhalt with
    | here hrun => rw [runActions.eq_2, hrun]
    | next hrun _ ih =>
      rw [runActions.eq_2, hrun]
      exact ih

/-- The step-by-step runner fails exactly where a run halts: it keeps the states it kept before,
then those of the halted run after the first, and the whole action list. -/
theorem stepwiseFrom_eq_error_iff {all : List Action} {index : Nat} {steps : List State}
    {s : State} {actions : List Action} {result : StepwiseFailure} :
    stepwiseFrom all index steps s actions = .error result ↔
      ∃ states, Halt index s actions states result.failure ∧
        result = ⟨steps ++ states.tail, all, result.failure⟩ := by
  constructor
  · intro h
    induction actions generalizing index steps s with
    | nil => cases h
    | cons action rest ih =>
      rw [stepwiseFrom.eq_2] at h
      cases hrun : action.run index s with
      | ok after =>
        rw [hrun] at h
        obtain ⟨states, hhalt, hresult⟩ := ih h
        refine ⟨s :: states, .next hrun hhalt, ?_⟩
        rw [hresult, hhalt.eq_cons]
        simp
      | error f =>
        rw [hrun] at h
        cases h
        exact ⟨[s], .here hrun, by simp⟩
  · rintro ⟨states, hhalt, hresult⟩
    rw [hresult]
    generalize result.failure = failure at hhalt ⊢
    clear hresult
    induction hhalt generalizing steps with
    | here hrun =>
      rw [stepwiseFrom.eq_2, hrun]
      simp
    | @next index s after action rest states failure hrun hhalt ih =>
      rw [stepwiseFrom.eq_2, hrun]
      simp only
      rw [ih, hhalt.eq_cons]
      simp

/-! ## The runners -/

/-- `states` is `s` followed by the state after each of `actions`: the action at position `i`,
run with index `i`, leads from `states[i]` to `states[i + 1]`. -/
def IsRun (s : State) (actions : List Action) (states : List State) : Prop :=
  states.length = actions.length + 1 ∧ states[0]? = some s ∧
    ∀ i action, actions[i]? = some action → ∃ before after, states[i]? = some before ∧
      states[i + 1]? = some after ∧ action.run i before = .ok after

theorem isRun_iff_trace {s : State} {actions : List Action} {states : List State} :
    IsRun s actions states ↔ Trace 0 s actions states := by
  rw [Trace.iff_getElem?]
  simp only [IsRun, Nat.zero_add]

theorem simulateStepwise_eq_ok_iff {s : State} {actions : List Action} {steps : List State} :
    simulateStepwise s actions = .ok steps ↔ Trace 0 s actions steps := by
  unfold simulateStepwise
  rw [stepwiseFrom_eq_ok_iff]
  constructor
  · rintro ⟨states, htrace, rfl⟩
    rwa [List.singleton_append, ← htrace.eq_cons]
  · intro htrace
    exact ⟨steps, htrace, by rw [List.singleton_append, ← htrace.eq_cons]⟩

theorem simulateStepwise_eq_error_iff {s : State} {actions : List Action}
    {result : StepwiseFailure} :
    simulateStepwise s actions = .error result ↔
      Halt 0 s actions result.steps result.failure ∧ result.actions = actions := by
  unfold simulateStepwise
  rw [stepwiseFrom_eq_error_iff]
  constructor
  · rintro ⟨states, hhalt, hresult⟩
    rw [hresult]
    exact ⟨by rwa [List.singleton_append, ← hhalt.eq_cons], rfl⟩
  · rintro ⟨hhalt, hactions⟩
    refine ⟨result.steps, hhalt, ?_⟩
    rw [List.singleton_append, ← hhalt.eq_cons, ← hactions]

/-- Traces are determined by their start and actions. -/
theorem Trace.unique {index : Nat} {s : State} {actions : List Action} {states states' : List State}
    (h : Trace index s actions states) (h' : Trace index s actions states') : states = states' := by
  induction h generalizing states' with
  | nil => cases h'; rfl
  | cons hrun _ ih =>
    cases h' with
    | cons hrun' htrace' =>
      rw [hrun] at hrun'
      cases hrun'
      rw [ih htrace']

/-- Both runners succeed together, the step-by-step one keeping the trace and the terminal one its
last state, and fail together at the same action with the same failure, the step-by-step one
keeping the states before it. A concatenation runs its parts in turn, and one action runs as a
list of one. -/
theorem runners_agree (s : State) (actions : List Action) :
    ((∃ steps, simulateStepwise s actions = .ok steps) ↔
      ∃ t, simulateActions s actions = .ok t) ∧
    (∀ steps t, simulateStepwise s actions = .ok steps → simulateActions s actions = .ok t →
      IsRun s actions steps ∧ steps[actions.length]? = some t) ∧
    (∀ result : StepwiseFailure, simulateStepwise s actions = .error result ↔
      simulateActions s actions = .error result.failure ∧ result.actions = actions ∧
        IsRun s (actions.take result.index) result.steps ∧
        ∃ action before, actions[result.index]? = some action ∧
          result.steps[result.index]? = some before ∧
          action.run result.index before = .error result.failure) ∧
    (∀ front back, simulateActions s (front ++ back) =
      (simulateActions s front).bind fun t =>
        (simulateActions t back).mapError (Failure.reindex front.length)) ∧
    (∀ action, simulateAction s action = simulateActions s [action]) := by
  refine ⟨?_, ?_, ?_, ?_, ?_⟩
  · constructor
    · rintro ⟨steps, hsteps⟩
      obtain ⟨t, -, ht⟩ := (simulateStepwise_eq_ok_iff.mp hsteps).runActions
      exact ⟨t, ht⟩
    · rintro ⟨t, ht⟩
      obtain ⟨states, htrace, -⟩ := runActions_eq_ok_iff.mp ht
      exact ⟨states, simulateStepwise_eq_ok_iff.mpr htrace⟩
  · intro steps t hsteps ht
    have htrace := simulateStepwise_eq_ok_iff.mp hsteps
    obtain ⟨states, htrace', hlast⟩ := runActions_eq_ok_iff.mp ht
    rw [← htrace.unique htrace'] at hlast
    exact ⟨isRun_iff_trace.mpr htrace, hlast⟩
  · intro result
    rw [simulateStepwise_eq_error_iff]
    constructor
    · rintro ⟨hhalt, hactions⟩
      obtain ⟨k, -, hindex, htrace, action, before, haction, hbefore, hfail⟩ :=
        Halt.iff_trace.mp hhalt
      rw [Nat.zero_add] at hindex hfail
      have hrun : simulateActions s actions = .error result.failure :=
        runActions_eq_error_iff.mpr ⟨_, hhalt⟩
      rw [StepwiseFailure.index, hindex]
      exact ⟨hrun, hactions, isRun_iff_trace.mpr htrace, action, before, haction, hbefore, hfail⟩
    · rintro ⟨hrun, hactions, hisrun, action, before, haction, hbefore, hfail⟩
      have htrace := isRun_iff_trace.mp hisrun
      refine ⟨Halt.iff_trace.mpr ⟨result.index, ?_, ?_, htrace, action, before, haction,
        hbefore, by rwa [Nat.zero_add]⟩, hactions⟩
      · rw [htrace.length_eq, List.length_take, Nat.min_eq_left]
        exact Nat.le_of_lt (List.getElem?_eq_some_iff.mp haction).1
      · rw [Nat.zero_add]
        exact Action.index_of_run_error hfail
  · intro front back
    unfold simulateActions
    rw [runActions_append, Nat.zero_add]
    congr
    funext t
    rw [← runActions_add, Nat.zero_add]
  · intro action
    unfold simulateAction simulateActions
    rw [runActions.eq_2]
    cases action.run 0 s <;> rfl

namespace TransferRun

def token : Address := ⟨0x230, by decide⟩

def sender : Address := ⟨0x231, by decide⟩

def receiver : Address := ⟨0x232, by decide⟩

/-- The sender holds a hundred of the token. -/
def state : State :=
  (State.new .ethereum ⟨0, 0⟩ ⟨⟨0x233, by decide⟩, ⟨0x234, by decide⟩, ⟨0x235, by decide⟩,
    ⟨0x236, by decide⟩, ⟨0x237, by decide⟩, none⟩).putHolding
    { Holding.empty sender token with balance := 100 }

def transferSixty : Action := .mk sender token (.transfer ⟨Int256.ofBits 60, sender, receiver⟩)

end TransferRun

open TransferRun in
/-- Sixty sent twice from a hundred: one transfer runs alike under both runners, and two fail
alike at the second, the step-by-step runner keeping the state after the first. -/
theorem runners_agree_transfers :
    (∃ steps t, simulateStepwise state [transferSixty] = .ok steps ∧
      simulateActions state [transferSixty] = .ok t ∧ IsRun state [transferSixty] steps ∧
      steps[1]? = some t) ∧
    ∃ result : StepwiseFailure,
      simulateStepwise state [transferSixty, transferSixty] = .error result ∧ result.index = 1 ∧
      simulateActions state [transferSixty, transferSixty] = .error result.failure ∧
      IsRun state [transferSixty] result.steps ∧
      ∃ before, result.steps[1]? = some before ∧
        transferSixty.run 1 before = .error result.failure := by
  obtain ⟨steps, hsteps⟩ := Except.exists_eq_ok
    (x := simulateStepwise state [transferSixty]) (by decide +kernel)
  obtain ⟨hsame, hlast, -⟩ := runners_agree state [transferSixty]
  obtain ⟨t, ht⟩ := hsame.mp ⟨steps, hsteps⟩
  obtain ⟨result, hresult, hindex⟩ := Except.exists_eq_error_of_check
    (x := simulateStepwise state [transferSixty, transferSixty]) (fun r => r.index == 1)
    (by decide +kernel)
  have hindex : result.index = 1 := beq_iff_eq.mp hindex
  obtain ⟨hfail, -, hrun, action, before, haction, hbefore, hfailing⟩ :=
    ((runners_agree state [transferSixty, transferSixty]).2.2.1 result).mp hresult
  rw [hindex] at hrun haction hbefore hfailing
  obtain rfl : action = transferSixty := Option.some.inj haction.symm
  exact ⟨⟨steps, t, hsteps, ht, hlast steps t hsteps ht⟩,
    result, hresult, hindex, hfail, hrun, before, hbefore, hfailing⟩

end LendingSim
