import Mathlib.Data.List.Basic
import Mathlib.Data.List.Nodup

/-!
# Tables with keys

Rows in a list, found by a key that no two of them share, and references from
one table to another. Rows are added at the end.
-/

namespace Keyed

variable {α β γ : Type} {rows : List α} {key : α → γ} {row : α}

section Insert

theorem nodup_snoc (nodup : (rows.map key).Nodup) (fresh : key row ∉ rows.map key) :
    ((rows ++ [row]).map key).Nodup := by
  rw [List.map_append, List.map_singleton]
  exact List.nodup_append.mpr ⟨nodup, List.nodup_singleton _, fun _ old _ new =>
    List.mem_singleton.mp new ▸ fun same => fresh (same ▸ old)⟩

theorem nodup_snoc_self (nodup : rows.Nodup) (fresh : row ∉ rows) : (rows ++ [row]).Nodup := by
  rw [← List.map_id rows] at nodup fresh
  have snoc := nodup_snoc nodup fresh
  rwa [List.map_id] at snoc

variable {targets : List β} {target : β} {refers : α → γ} {name : β → γ}

/-- References stay when there is more to refer to. -/
theorem refers_snoc (refer : ∀ row ∈ rows, ∃ f ∈ targets, name f = refers row) :
    ∀ row ∈ rows, ∃ f ∈ targets ++ [target], name f = refers row := by
  intro row member
  obtain ⟨f, inside, same⟩ := refer row member
  exact ⟨f, List.mem_append_left _ inside, same⟩

theorem snoc_refers (refer : ∀ row ∈ rows, ∃ f ∈ targets, name f = refers row)
    (new : ∃ f ∈ targets, name f = refers row) :
    ∀ other ∈ rows ++ [row], ∃ f ∈ targets, name f = refers other :=
  List.forall_mem_append.mpr ⟨refer, List.forall_mem_singleton.mpr new⟩

end Insert

section Lookup

variable [DecidableEq γ]

theorem find_of_mem (nodup : (rows.map key).Nodup) (member : row ∈ rows) :
    rows.find? (fun other => key other = key row) = some row := by
  induction rows with
  | nil => cases member
  | cons first rows ih =>
    obtain ⟨apart, nodup⟩ := List.nodup_cons.mp nodup
    rcases List.mem_cons.mp member with rfl | member
    · exact List.find?_cons_of_pos (by simp)
    · have other : key first ≠ key row := fun same => apart (same ▸ List.mem_map_of_mem member)
      rw [List.find?_cons_of_neg (by simpa using other)]
      exact ih nodup member

theorem eq_of_key (nodup : (rows.map key).Nodup) {other : α} (member : row ∈ rows)
    (member' : other ∈ rows) (same : key row = key other) : row = other := by
  have found := find_of_mem nodup member'
  rw [← same, find_of_mem nodup member] at found
  exact Option.some.inj found

end Lookup

end Keyed
