import Mathlib.Data.List.Basic

/-!
# Conditions with unknown values

Comparing with a missing value gives neither true nor false. The connectives
are those of SQL: a conjunction with a false part is false, a disjunction with
a true part is true, and otherwise an unknown part makes the whole unknown. A
row is selected, and a branch taken, only if its condition is true.
-/

namespace Truth

universe u

variable {α : Type u}

def not : Option Bool → Option Bool := Option.map Bool.not

def and : Option Bool → Option Bool → Option Bool
  | some false, _ => some false
  | _, some false => some false
  | some true, some true => some true
  | _, _ => none

def or : Option Bool → Option Bool → Option Bool
  | some true, _ => some true
  | _, some true => some true
  | some false, some false => some false
  | _, _ => none

def compare (holds : α → α → Bool) : Option α → Option α → Option Bool
  | some value, some other => some (holds value other)
  | _, _ => none

def equal [DecidableEq α] : Option α → Option α → Option Bool :=
  compare fun value other => value = other

/-- `IN`, the disjunction of the equations. -/
def oneOf [DecidableEq α] (value : Option α) (values : List α) : Option Bool :=
  values.foldr (fun other rest => or (equal value (some other)) rest) (some false)

def isNull (value : Option α) : Option Bool := some value.isNone

def distinct [DecidableEq α] (value other : Option α) : Option Bool := some (value ≠ other)

/-- `EXISTS`, which is never unknown. -/
def anyOf (rows : List α) (condition : α → Option Bool) : Option Bool :=
  some (rows.any fun row => condition row = some true)

variable {a b : Option Bool}

@[simp] theorem not_eq_true : not a = some true ↔ a = some false := by
  rcases a with _ | _ | _ <;> simp [not]

@[simp] theorem and_eq_true : and a b = some true ↔ a = some true ∧ b = some true := by
  rcases a with _ | _ | _ <;> rcases b with _ | _ | _ <;> simp [and]

@[simp] theorem or_eq_true : or a b = some true ↔ a = some true ∨ b = some true := by
  rcases a with _ | _ | _ <;> rcases b with _ | _ | _ <;> simp [or]

@[simp] theorem equal_some [DecidableEq α] {value other : α} :
    equal (some value) (some other) = some (decide (value = other)) := rfl

@[simp] theorem oneOf_some [DecidableEq α] {value : α} {values : List α} :
    oneOf (some value) values = some (decide (value ∈ values)) := by
  induction values with
  | nil => rfl
  | cons other rest ih =>
    simp only [oneOf, List.foldr_cons] at ih ⊢
    rw [ih]
    by_cases same : value = other <;> by_cases listed : value ∈ rest <;>
      simp [or, same, listed]

theorem anyOf_eq_false {rows : List α} {condition : α → Option Bool} :
    anyOf rows condition = some false ↔ anyOf rows condition ≠ some true := by
  simp [anyOf]

end Truth
