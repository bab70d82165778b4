import Mathlib.Init

/-!
# Guards in a computation that can be refused

A transaction is a sequence of checks and lookups, any of which refuses the
whole of it. The lemmas read off what a transaction that was not refused has
checked.
-/

namespace Guard

universe u v w

variable {Refusal : Type u} {Value : Type v} {Result : Type v}

def require (holds : Prop) [Decidable holds] (refusal : Refusal) : Except Refusal PUnit :=
  if holds then .ok ⟨⟩ else .error refusal

def demand (found : Option Value) (refusal : Refusal) : Except Refusal Value :=
  match found with
  | some value => .ok value
  | none => .error refusal

variable {first : Except Refusal Value} {next : Value → Except Refusal Result} {result : Result}

@[simp] theorem bind_eq_ok :
    first.bind next = .ok result ↔ ∃ value, first = .ok value ∧ next value = .ok result := by
  cases first <;> simp [Except.bind]

@[simp] theorem do_eq_ok :
    (first >>= next) = .ok result ↔ ∃ value, first = .ok value ∧ next value = .ok result :=
  bind_eq_ok

theorem map_eq_ok {read : Value → Result} :
    first.map read = .ok result ↔ ∃ value, first = .ok value ∧ read value = result := by
  cases first <;> simp [Except.map]

@[simp] theorem pure_eq_ok {value result : Result} :
    (pure value : Except Refusal Result) = .ok result ↔ value = result := by
  simp [pure, Except.pure]

@[simp] theorem require_eq_ok {holds : Prop} [Decidable holds] {refusal : Refusal}
    {checked : PUnit} : require holds refusal = .ok checked ↔ holds := by
  unfold require
  split <;> simp [*]

@[simp] theorem demand_eq_ok {found : Option Value} {refusal : Refusal} {value : Value} :
    demand found refusal = .ok value ↔ found = some value := by
  cases found <;> simp [demand]

def refusal : Except Refusal Value → Option Refusal
  | .ok _ => none
  | .error reason => some reason

theorem refusal_eq_some {outcome : Except Refusal Value} {reason : Refusal} :
    refusal outcome = some reason ↔ outcome = .error reason := by
  cases outcome <;> simp [refusal]

theorem do_eq_error {refusal : Refusal} :
    (first >>= next) = .error refusal ↔
      first = .error refusal ∨ ∃ value, first = .ok value ∧ next value = .error refusal := by
  cases first <;> simp [bind, Except.bind]

theorem require_eq_error {holds : Prop} [Decidable holds] {refusal reason : Refusal} :
    require holds refusal = .error reason ↔ ¬holds ∧ refusal = reason := by
  unfold require
  split <;> simp [*]

theorem demand_eq_error {found : Option Value} {refusal reason : Refusal} :
    demand found refusal = .error reason ↔ found = none ∧ refusal = reason := by
  cases found <;> simp [demand]

end Guard
