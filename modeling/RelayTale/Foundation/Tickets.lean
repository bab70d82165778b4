import Mathlib.Data.Prod.Lex
import Mathlib.Logic.Function.Basic
import Mathlib.Order.Basic

/-!
# Turns by ticket

Whoever is served takes a ticket above all others, and the next turn goes to a
waiting party with the smallest ticket, equal ones in the order of the parties.
Between two turns of one party every other party that was waiting all the time
has had exactly one.
-/

namespace Tickets

variable {κ : Type} [LinearOrder κ]

/-- The tickets after turns of these parties, each with the ticket it drew. -/
def after (tickets : κ → ℕ) : List (κ × ℕ) → κ → ℕ
  | [] => tickets
  | (party, drawn) :: rest => after (Function.update tickets party drawn) rest

/-- Every turn draws a ticket above all others and goes to a party that comes
first among those always waiting. -/
def Lawful (waiting : Set κ) : (κ → ℕ) → List (κ × ℕ) → Prop
  | _, [] => True
  | tickets, (party, drawn) :: rest =>
      (∀ other, tickets other < drawn) ∧
        (∀ other ∈ waiting, toLex (tickets party, party) ≤ toLex (tickets other, other)) ∧
        Lawful waiting (Function.update tickets party drawn) rest

variable {waiting : Set κ} {tickets : κ → ℕ} {turns : List (κ × ℕ)}

theorem Lawful.append {first second : List (κ × ℕ)} :
    Lawful waiting tickets (first ++ second) ↔
      Lawful waiting tickets first ∧ Lawful waiting (after tickets first) second := by
  induction first generalizing tickets with
  | nil => simp [Lawful, after]
  | cons turn rest ih =>
    simp only [List.cons_append, Lawful, after, ih, and_assoc]

/-- A ticket above a bound that is never served below it stays above it. -/
theorem served_late {x y : κ} (member : x ∈ waiting) (lawful : Lawful waiting tickets turns)
    (absent : x ∉ turns.map Prod.fst) (late : tickets x < tickets y) :
    (turns.map Prod.fst).count y = 0 ∧ after tickets turns x < after tickets turns y := by
  induction turns generalizing tickets with
  | nil => exact ⟨rfl, late⟩
  | cons turn rest ih =>
    obtain ⟨party, drawn⟩ := turn
    obtain ⟨above, first, lawful⟩ := lawful
    rw [List.map_cons, List.mem_cons, not_or] at absent
    have other : party ≠ y := by
      rintro rfl
      exact absurd late (Prod.Lex.monotone_fst _ _ (first x member)).not_gt
    have stays : Function.update tickets party drawn x < Function.update tickets party drawn y := by
      rwa [Function.update_of_ne absent.1, Function.update_of_ne (Ne.symm other)]
    obtain ⟨none, kept⟩ := ih lawful absent.2 stays
    refine ⟨?_, kept⟩
    rw [List.map_cons, List.count_cons_of_ne other]
    exact none

/-- A ticket below is passed over, or its party is served once and is late then. -/
theorem served_early {x y : κ} (member : x ∈ waiting) (lawful : Lawful waiting tickets turns)
    (absent : x ∉ turns.map Prod.fst) (early : tickets y < tickets x) :
    (turns.map Prod.fst).count y = 0 ∧ after tickets turns y < after tickets turns x ∨
      (turns.map Prod.fst).count y = 1 ∧ after tickets turns x < after tickets turns y := by
  induction turns generalizing tickets with
  | nil => exact .inl ⟨rfl, early⟩
  | cons turn rest ih =>
    obtain ⟨party, drawn⟩ := turn
    obtain ⟨above, first, lawful⟩ := lawful
    rw [List.map_cons, List.mem_cons, not_or] at absent
    rw [List.map_cons, after]
    by_cases same : party = y
    · subst same
      have late : Function.update tickets party drawn x <
          Function.update tickets party drawn party := by
        rw [Function.update_of_ne absent.1, Function.update_self]
        exact above x
      obtain ⟨none, kept⟩ := served_late member lawful absent.2 late
      exact .inr ⟨by rw [List.count_cons_self, none], kept⟩
    · have stays : Function.update tickets party drawn y <
          Function.update tickets party drawn x := by
        rwa [Function.update_of_ne absent.1, Function.update_of_ne (Ne.symm same)]
      rw [List.count_cons_of_ne same]
      exact ih lawful absent.2 stays

/-- Between two turns of one waiting party every other one has exactly one. -/
theorem served_once {x y : κ} {drawn drawn' : ℕ} {between : List (κ × ℕ)} (member : x ∈ waiting)
    (other : y ∈ waiting) (different : y ≠ x)
    (lawful : Lawful waiting tickets ((x, drawn) :: between ++ [(x, drawn')]))
    (absent : x ∉ between.map Prod.fst) : (between.map Prod.fst).count y = 1 := by
  rw [List.cons_append] at lawful
  obtain ⟨above, -, lawful⟩ := lawful
  obtain ⟨lawful, last⟩ := Lawful.append.mp lawful
  obtain ⟨-, first, -⟩ := last
  have early : Function.update tickets x drawn y < Function.update tickets x drawn x := by
    rw [Function.update_of_ne different, Function.update_self]
    exact above y
  rcases served_early member lawful absent early with ⟨-, overtaken⟩ | ⟨once, -⟩
  · exact absurd overtaken (Prod.Lex.monotone_fst _ _ (first y other)).not_gt
  · exact once

end Tickets
