import Mathlib.Data.List.TakeDrop

/-!
# Slices

A slice is a window into an array. Reslicing moves the window, writing and
appending within the capacity change the array in place. What matters of a
slice is the list in its window.
-/

universe u

structure Slice (α : Type u) where
  array : List α
  start : Nat
  length : Nat
  bound : start + length ≤ array.length

namespace Slice

variable {α : Type u}

/-- An array whose slots from `position` on hold the given values. -/
def overwrite (array : List α) (position : Nat) (values : List α) : List α :=
  array.take position ++ values ++ array.drop (position + values.length)

theorem length_overwrite {array values : List α} {position : Nat}
    (fits : position + values.length ≤ array.length) :
    (overwrite array position values).length = array.length := by
  simp only [overwrite, List.length_append, List.length_take, List.length_drop]
  omega

def empty : Slice α := ⟨[], 0, 0, Nat.zero_le _⟩

def toList (s : Slice α) : List α := (s.array.drop s.start).take s.length

/-- The slice without its last elements, `s[:count]`. -/
def upTo (s : Slice α) (count : Nat) (inside : count ≤ s.length) : Slice α :=
  ⟨s.array, s.start, count, by have := s.bound; omega⟩

/-- The slice without its first elements, `s[count:]`. -/
def dropFirst (s : Slice α) (count : Nat) (inside : count ≤ s.length) : Slice α :=
  ⟨s.array, s.start + count, s.length - count, by have := s.bound; omega⟩

/-- The assignment `s[index] = value`. -/
def set (s : Slice α) (index : Nat) (value : α) : Slice α :=
  ⟨s.array.set (s.start + index) value, s.start, s.length, by simpa using s.bound⟩

/-- Appending writes behind the window while the capacity lasts, and otherwise
moves the window to a new array with some unused slots. -/
def append (s : Slice α) (values unused : List α) : Slice α :=
  if fits : s.start + s.length + values.length ≤ s.array.length then
    ⟨overwrite s.array (s.start + s.length) values, s.start, s.length + values.length, by
      rw [length_overwrite fits]; omega⟩
  else
    ⟨s.toList ++ values ++ unused, 0, s.length + values.length, by
      have := s.bound
      simp only [toList, List.length_append, List.length_take, List.length_drop]
      omega⟩

@[simp] theorem toList_empty : (empty : Slice α).toList = [] := rfl

@[simp] theorem length_toList (s : Slice α) : s.toList.length = s.length := by
  have := s.bound
  simp only [toList, List.length_take, List.length_drop]
  omega

@[simp] theorem toList_upTo (s : Slice α) {count : Nat} (inside : count ≤ s.length) :
    (s.upTo count inside).toList = s.toList.take count := by
  simp only [toList, upTo, List.take_take, Nat.min_eq_left inside]

@[simp] theorem toList_dropFirst (s : Slice α) {count : Nat} (inside : count ≤ s.length) :
    (s.dropFirst count inside).toList = s.toList.drop count := by
  simp only [toList, dropFirst, List.drop_take, List.drop_drop]

@[simp] theorem toList_set (s : Slice α) (index : Nat) (value : α) :
    (s.set index value).toList = s.toList.set index value := by
  simp only [toList, set, List.drop_set]
  rw [if_neg (by omega), Nat.add_sub_cancel_left, List.take_set]

@[simp] theorem toList_append (s : Slice α) (values unused : List α) :
    (s.append values unused).toList = s.toList ++ values := by
  have whole : (s.toList ++ values).length = s.length + values.length := by
    rw [List.length_append, length_toList]
  unfold append
  split
  · -- in place: the window is followed by the new values
    have window : (s.array.take (s.start + s.length)).drop s.start = s.toList := by
      rw [List.drop_take, Nat.add_sub_cancel_left, toList]
    have inside : s.start ≤ (s.array.take (s.start + s.length)).length := by
      have := s.bound
      rw [List.length_take]
      omega
    simp only [toList, overwrite, List.append_assoc]
    rw [List.drop_append_of_le_length inside, window, ← List.append_assoc, ← whole,
      List.take_left]
    rfl
  · simp only [toList, List.drop_zero]
    rw [← toList, ← whole, List.take_left]

end Slice
