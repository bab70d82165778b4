import Mathlib.Data.List.Infix

/-!
# Texts cut at a mark

A text is cut at the first occurrence of a mark. For a mark of two equal symbols
an occurrence that was put together can begin one symbol early, where the text in
front ends with that symbol.
-/

namespace Cut

variable {α : Type} [DecidableEq α]

/-- What stands in front of the first occurrence of the mark and behind it. -/
def cut (mark : List α) : List α → Option (List α × List α)
  | [] => none
  | first :: rest =>
      if mark.isPrefixOf (first :: rest) then some ([], (first :: rest).drop mark.length)
      else (cut mark rest).map fun (before, after) => (first :: before, after)

variable {mark text before after more word : List α} {symbol : α}

theorem eq_append_of_cut (found : cut mark text = some (before, after)) :
    text = before ++ (mark ++ after) := by
  induction text generalizing before with
  | nil => cases found
  | cons first rest ih =>
    unfold cut at found
    split at found
    next starts =>
      obtain ⟨rfl, rfl⟩ := Prod.mk.inj (Option.some.inj found)
      obtain ⟨tail, same⟩ := List.isPrefixOf_iff_prefix.mp starts
      rw [List.nil_append, ← same, List.drop_left]
    · obtain ⟨⟨front, back⟩, later, same⟩ := Option.map_eq_some_iff.mp found
      obtain ⟨rfl, rfl⟩ := Prod.mk.inj same
      rw [List.cons_append, ← ih later]

theorem length_lt_of_cut (some' : mark ≠ []) (found : cut mark text = some (before, after)) :
    after.length < text.length := by
  have positive := List.length_pos_of_ne_nil some'
  rw [eq_append_of_cut found, List.length_append, List.length_append]
  omega

theorem cut_eq_none (some' : mark ≠ []) : cut mark text = none ↔ ¬mark <:+: text := by
  induction text with
  | nil => simp [cut, some']
  | cons first rest ih =>
    rw [cut, List.infix_cons_iff]
    split
    next starts => simp [List.isPrefixOf_iff_prefix.mp starts]
    next other =>
      have apart : ¬mark <+: first :: rest := fun starts =>
        other (List.isPrefixOf_iff_prefix.mpr starts)
      simp [ih, apart]

/-- The first occurrence has none in front of it. -/
theorem not_infix_of_cut (some' : mark ≠ []) (found : cut mark text = some (before, after)) :
    ¬mark <:+: before := by
  induction text generalizing before with
  | nil => cases found
  | cons first rest ih =>
    unfold cut at found
    split at found
    next starts =>
      obtain ⟨rfl, rfl⟩ := Prod.mk.inj (Option.some.inj found)
      simpa using some'
    next other =>
      obtain ⟨⟨front, back⟩, later, same⟩ := Option.map_eq_some_iff.mp found
      obtain ⟨rfl, rfl⟩ := Prod.mk.inj same
      rw [List.infix_cons_iff]
      rintro (starts | inside)
      · refine other (List.isPrefixOf_iff_prefix.mpr (starts.trans ?_))
        rw [eq_append_of_cut later, ← List.cons_append]
        exact List.prefix_append _ _
      · exact ih later inside

section Doubled

theorem cut_cons (other : ¬[symbol, symbol] <+: word ++ more) {first : α} {rest : List α}
    (same : word = first :: rest) :
    cut [symbol, symbol] (word ++ more) =
      (cut [symbol, symbol] (rest ++ more)).map fun (before, after) =>
        (first :: before, after) := by
  subst same
  rw [List.cons_append] at other ⊢
  rw [cut, if_neg fun starts => other (List.isPrefixOf_iff_prefix.mp starts)]

theorem cut_here : cut [symbol, symbol] (symbol :: symbol :: more) = some ([], more) := by
  simp [cut]

/-- The mark is found where it was put, unless the text in front ends with its symbol. -/
theorem cut_doubled (free : ¬[symbol, symbol] <:+: word) (end' : word.getLast? ≠ some symbol) :
    cut [symbol, symbol] (word ++ symbol :: symbol :: more) = some (word, more) := by
  induction word with
  | nil => exact cut_here
  | cons first rest ih =>
    have other : ¬[symbol, symbol] <+: (first :: rest) ++ symbol :: symbol :: more := by
      intro starts
      cases rest with
      | nil =>
        obtain rfl := (List.cons_prefix_cons.mp starts).1
        exact end' rfl
      | cons second rest =>
        obtain ⟨rfl, next⟩ := List.cons_prefix_cons.mp starts
        obtain ⟨rfl, -⟩ := List.cons_prefix_cons.mp next
        exact free ⟨[], rest, rfl⟩
    have later : rest.getLast? ≠ some symbol := by
      cases rest with
      | nil => simp
      | cons second rest => simpa [List.getLast?_cons_cons] using end'
    rw [cut_cons other rfl, ih (fun inside => free (List.infix_cons inside)) later]
    rfl

theorem cut_of_notMem (free : symbol ∉ word) :
    cut [symbol, symbol] (word ++ symbol :: symbol :: more) = some (word, more) :=
  cut_doubled (fun inside => free (inside.subset List.mem_cons_self))
    fun last => free (List.mem_of_getLast? last)

/-- A symbol in front of the mark is taken for its first half. -/
theorem cut_early (free : ¬[symbol, symbol] <:+: word ++ [symbol]) :
    cut [symbol, symbol] ((word ++ [symbol]) ++ symbol :: symbol :: more) =
      some (word, symbol :: more) := by
  have inside : ¬[symbol, symbol] <:+: word := fun inside =>
    free (inside.trans (List.prefix_append _ _).isInfix)
  have last : word.getLast? ≠ some symbol := by
    intro last
    obtain ⟨front, rfl⟩ := List.getLast?_eq_some_iff.mp last
    exact free ⟨front, [], by simp⟩
  rw [List.append_assoc]
  exact cut_doubled inside last

end Doubled

end Cut
