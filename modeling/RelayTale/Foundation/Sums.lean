import Mathlib.Algebra.BigOperators.Group.Finset.Basic
import Mathlib.Algebra.Order.BigOperators.Group.Finset
import Mathlib.Algebra.Order.BigOperators.Group.List
import Mathlib.Algebra.Order.Group.Nat
import Mathlib.Algebra.Ring.Nat
import Mathlib.Data.Nat.Cast.Basic

/-!
# Sums over lists of keys

Totals that a query computes over the rows of a table: how they grow when one
row is added, and that a total over all rows bounds the total over some of them.
-/

namespace Sums

variable {α : Type} [DecidableEq α]

/-- A sum over distinct keys where one term grows by at most `extra`. -/
theorem sum_le_sum_add {keys : List α} (distinct : keys.Nodup)
    {old new : α → Nat} (grown : α) {extra : Nat} (others : ∀ key, key ≠ grown → new key ≤ old key)
    (own : new grown ≤ old grown + extra) :
    (keys.map new).sum ≤ (keys.map old).sum + extra := by
  induction keys with
  | nil => simp
  | cons key rest ih =>
    obtain ⟨fresh, distinct⟩ := List.nodup_cons.mp distinct
    simp only [List.map_cons, List.sum_cons]
    by_cases here : key = grown
    · subst here
      have rest : (rest.map new).sum ≤ (rest.map old).sum := by
        refine List.sum_le_sum fun other member => others other ?_
        rintro rfl
        exact fresh member
      omega
    · have := others key here
      have := ih distinct
      omega

theorem sum_le_sum_of_support {some keys : List α} (distinct : some.Nodup) (nodup : keys.Nodup)
    {value : α → Nat} (support : ∀ key ∈ some, value key ≠ 0 → key ∈ keys) :
    (some.map value).sum ≤ (keys.map value).sum := by
  rw [← List.sum_toFinset value distinct, ← List.sum_toFinset value nodup]
  refine Finset.sum_le_sum_of_ne_zero fun key member positive => ?_
  exact List.mem_toFinset.mpr (support key (List.mem_toFinset.mp member) positive)

omit [DecidableEq α] in
/-- What a filter drops counts nothing. -/
theorem sum_filter (keys : List α) (holds : α → Bool) (value : α → Nat) :
    ((keys.filter holds).map value).sum =
      (keys.map fun key => if holds key then value key else 0).sum := by
  induction keys with
  | nil => rfl
  | cons key rest ih =>
    rw [List.filter_cons, List.map_cons, List.sum_cons]
    split
    · rw [List.map_cons, List.sum_cons, ih]
    · rw [ih, Nat.zero_add]

end Sums
