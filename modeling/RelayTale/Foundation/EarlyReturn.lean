import Mathlib.Data.List.Basic

/-!
# Sequences of steps with early returns

A function whose body is a sequence of statements, each of which may end it, is
a composition of steps. `Except` carries the state either on to the next
statement or out of the function.
-/

namespace EarlyReturn

universe u

variable {State : Type u}

/-- One statement: `ok` continues with the next one, `error` returns. -/
abbrev Step (State : Type u) := State → Except State State

namespace Step

def skip : Step State := .ok

def andThen (first second : Step State) : Step State := fun state =>
  match first state with
  | .ok next => second next
  | .error returned => .error returned

def sequence : List (Step State) → Step State
  | [] => skip
  | step :: rest => step.andThen (sequence rest)

/-- The state in which the whole body ends, by either exit. -/
def ending (step : Step State) (state : State) : State :=
  match step state with
  | .ok last => last
  | .error returned => returned

theorem andThen_eq_ok {first second : Step State} {state last : State} :
    first.andThen second state = .ok last ↔
      ∃ next, first state = .ok next ∧ second next = .ok last := by
  unfold andThen
  cases first state <;> simp

/-- What stands behind steps that return is never executed. -/
theorem sequence_append {steps : List (Step State)} {state : State}
    (returns : ∀ next, sequence steps state ≠ .ok next) (rest : List (Step State)) :
    sequence steps state = sequence (steps ++ rest) state := by
  induction steps generalizing state with
  | nil => exact absurd rfl (returns state)
  | cons step steps ih =>
    simp only [List.cons_append, sequence, andThen] at returns ⊢
    cases outcome : step state with
    | error returned => rfl
    | ok next =>
      rw [outcome] at returns
      exact ih returns

end Step

/-- From a state in `pre` the step continues in `post` or returns in `exit`. -/
def Triple (pre : State → Prop) (step : Step State) (post exit : State → Prop) : Prop :=
  ∀ state, pre state →
    match step state with
    | .ok next => post next
    | .error returned => exit returned

namespace Triple

variable {pre post exit middle : State → Prop} {step first second : Step State}

theorem skip (implied : ∀ state, pre state → post state) : Triple pre Step.skip post exit :=
  fun state holds => implied state holds

theorem andThen (left : Triple pre first middle exit) (right : Triple middle second post exit) :
    Triple pre (first.andThen second) post exit := by
  intro state holds
  have reached := left state holds
  unfold Step.andThen
  cases outcome : first state with
  | error returned => simpa only [outcome] using reached
  | ok next =>
    simp only [outcome] at reached
    exact right next reached

theorem sequence {steps : List (Step State)} (each : steps.Forall (Triple pre · pre exit)) :
    Triple pre (Step.sequence steps) pre exit := by
  induction steps with
  | nil => exact skip fun _ holds => holds
  | cons step rest ih =>
    rw [List.forall_cons] at each
    exact each.1.andThen (ih each.2)

theorem weaken {pre' post' exit' : State → Prop} (triple : Triple pre step post exit)
    (stronger : ∀ state, pre' state → pre state)
    (weaker : ∀ state, post state → post' state)
    (returned : ∀ state, exit state → exit' state) : Triple pre' step post' exit' := by
  intro state holds
  have reached := triple state (stronger state holds)
  cases outcome : step state with
  | ok next => simpa only [outcome] using weaker next (by simpa only [outcome] using reached)
  | error last => simpa only [outcome] using returned last (by simpa only [outcome] using reached)

/-- Whatever both exits establish holds when the body has ended. -/
theorem ending {goal : State → Prop} (triple : Triple pre step post exit)
    (continued : ∀ state, post state → goal state)
    (returned : ∀ state, exit state → goal state)
    {state : State} (holds : pre state) : goal (step.ending state) := by
  have reached := triple state holds
  unfold Step.ending
  cases outcome : step state with
  | ok next => exact continued next (by simpa only [outcome] using reached)
  | error last => exact returned last (by simpa only [outcome] using reached)

end Triple

universe v

variable {Other : Type v}

/-- Two bodies that run side by side: from states related by `pre` both continue in states
related by `post`, or both return in states related by `exit`. -/
def Lockstep (pre : State → Other → Prop) (first : Step State) (second : Step Other)
    (post exit : State → Other → Prop) : Prop :=
  ∀ state other, pre state other →
    match first state, second other with
    | .ok next, .ok next' => post next next'
    | .error returned, .error returned' => exit returned returned'
    | _, _ => False

namespace Lockstep

variable {pre post exit middle : State → Other → Prop} {first : Step State}
  {second : Step Other} {rest : List (Step State)} {rest' : List (Step Other)}

theorem skip : Lockstep pre Step.skip Step.skip pre exit := fun _ _ related => related

theorem andThen {first' : Step State} {second' : Step Other}
    (left : Lockstep pre first second middle exit)
    (right : Lockstep middle first' second' post exit) :
    Lockstep pre (first.andThen first') (second.andThen second') post exit := by
  intro state other related
  have reached := left state other related
  unfold Step.andThen
  cases one : first state <;> cases two : second other <;> simp only [one, two] at reached ⊢
  · exact reached
  · exact right _ _ reached

theorem nil : Lockstep pre (Step.sequence []) (Step.sequence []) pre exit := skip

theorem cons (left : Lockstep pre first second middle exit)
    (right : Lockstep middle (Step.sequence rest) (Step.sequence rest') post exit) :
    Lockstep pre (Step.sequence (first :: rest)) (Step.sequence (second :: rest')) post exit :=
  left.andThen right

/-- A step of the first body for which the second one has none. -/
theorem alone (moves : ∀ state other, pre state other →
      ∃ next, first state = .ok next ∧ middle next other)
    (right : Lockstep middle (Step.sequence rest) second post exit) :
    Lockstep pre (Step.sequence (first :: rest)) second post exit := by
  intro state other related
  obtain ⟨next, ran, reached⟩ := moves state other related
  simp only [Step.sequence, Step.andThen, ran]
  exact right next other reached

theorem ending {goal : State → Other → Prop} (lockstep : Lockstep pre first second post exit)
    (continued : ∀ state other, post state other → goal state other)
    (returned : ∀ state other, exit state other → goal state other)
    {state : State} {other : Other} (related : pre state other) :
    goal (first.ending state) (second.ending other) := by
  have reached := lockstep state other related
  unfold Step.ending
  cases one : first state <;> cases two : second other <;> simp only [one, two] at reached ⊢
  · exact returned _ _ reached
  · exact continued _ _ reached

end Lockstep

end EarlyReturn
