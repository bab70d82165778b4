import RelayTale.Foundation.Heap
import Mathlib.Data.List.Sort

/-!
# Pages of a sorted list

Values are listed in ascending order a page at a time. A page is the smallest
values after the last one of the page before, and is selected by a heap from
the values in any order.
-/

namespace Paging

universe u v

variable {α : Type u} {β : Type v} [LinearOrder β] (rank : α → β)

def Least (value other : α) : Prop := rank value ≤ rank other

instance : DecidableRel (Least rank) := fun value other =>
  inferInstanceAs (Decidable (rank value ≤ rank other))

instance : Std.Total (Least rank) := ⟨fun value other => le_total (rank value) (rank other)⟩

instance : IsTrans α (Least rank) := ⟨fun _ _ _ first second => le_trans first second⟩

def sort (values : List α) : List α := values.insertionSort (Least rank)

def later (mark : β) (value : α) : Bool := mark < rank value

def rest (mark : β) (values : List α) : List α := (sort rank values).filter (later rank mark)

section Sorting

variable {rank} {values others : List α}

theorem sort_perm (values : List α) : (sort rank values).Perm values :=
  List.perm_insertionSort _ _

theorem sort_sorted (values : List α) : (sort rank values).Pairwise (Least rank) :=
  List.pairwise_insertionSort _ _

variable (rank) in
/-- A value is among the `count` first ones. -/
def Within (values : List α) (value : α) (count : Nat) : Prop :=
  (values.filter fun other => rank other ≤ rank value).length ≤ count

instance {value : α} {count : Nat} : Decidable (Within rank values value count) :=
  inferInstanceAs (Decidable (_ ≤ _))

theorem Within.mem_take {value : α} {count : Nat} (within : Within rank values value count)
    (here : value ∈ values) : value ∈ (sort rank values).take count := by
  have same : (sort rank values).Perm values := sort_perm values
  have sorted : (sort rank values).Pairwise (Least rank) := sort_sorted values
  rw [← List.take_append_drop count (sort rank values)] at sorted
  have listed := same.mem_iff.mpr here
  rw [← List.take_append_drop count (sort rank values), List.mem_append] at listed
  refine listed.resolve_right fun late => ?_
  -- Otherwise it and the whole of the first part would be counted.
  have first : ∀ other ∈ (sort rank values).take count, rank other ≤ rank value :=
    fun other early => (List.pairwise_append.mp sorted).2.2 other early value late
  have counted : 1 ≤ (((sort rank values).drop count).filter fun other =>
      rank other ≤ rank value).length :=
    List.length_pos_of_mem (List.mem_filter.mpr ⟨late, by simp⟩)
  have long := List.length_pos_of_mem late
  have total := (same.filter fun other => rank other ≤ rank value).length_eq
  rw [← List.take_append_drop count (sort rank values), List.filter_append, List.length_append,
    List.filter_eq_self.mpr (by simpa using first), List.length_take] at total
  rw [List.length_drop] at long
  unfold Within at within
  omega

variable (distinct : Function.Injective rank)
include distinct

theorem eq_of_perm (sorted : values.Pairwise (Least rank)) (sorted' : others.Pairwise (Least rank))
    (same : values.Perm others) : values = others :=
  same.eq_of_pairwise (fun _ _ _ _ first second => distinct (le_antisymm first second)) sorted
    sorted'

theorem sort_eq_of_perm (same : values.Perm others) : sort rank values = sort rank others :=
  eq_of_perm distinct (sort_sorted _) (sort_sorted _)
    (((sort_perm values).trans same).trans (sort_perm others).symm)

theorem sort_filter (keep : α → Bool) (values : List α) :
    sort rank (values.filter keep) = (sort rank values).filter keep :=
  eq_of_perm distinct (sort_sorted _) ((sort_sorted _).filter _)
    ((sort_perm _).trans ((sort_perm values).symm.filter keep))

/-- A heap with room for `count` values holds the first ones. -/
theorem sort_selected [Inhabited α] {count : Nat} {h : Array α}
    (selects : Heap.Selects rank count values h) :
    sort rank h.toList = (sort rank values).take count := by
  obtain ⟨-, ⟨dropped, whole, least, full⟩, size⟩ := selects
  have sorted : (sort rank h.toList ++ sort rank dropped).Pairwise (Least rank) := by
    refine List.pairwise_append.mpr ⟨sort_sorted _, sort_sorted _, fun value kept other left => ?_⟩
    exact least value ((sort_perm _).mem_iff.mp kept) other ((sort_perm _).mem_iff.mp left)
  have all : sort rank values = sort rank h.toList ++ sort rank dropped :=
    eq_of_perm distinct (sort_sorted _) sorted ((sort_perm values).trans
      (whole.symm.trans ((sort_perm _).symm.append (sort_perm _).symm)))
  have length : (sort rank h.toList).length = h.size := by
    rw [(sort_perm _).length_eq, Array.length_toList]
  rw [all]
  rcases Nat.lt_or_eq_of_le size with short | exact'
  · rw [full short]
    simp only [sort, List.insertionSort_nil, List.append_nil]
    exact (List.take_of_length_le (by rw [← sort, length]; omega)).symm
  · rw [← exact', ← length, List.take_left]

theorem offered [Inhabited α] {count : Nat} (positive : 0 < count) (values : List α) :
    sort rank (values.foldl (Heap.offer rank count) #[]).toList =
      (sort rank values).take count := by
  obtain ⟨offered, same, selects⟩ := Heap.selects_offers rank positive values
  rw [sort_selected distinct selects, sort_eq_of_perm distinct same]

end Sorting

section Pages

variable {rank} {values : List α} {mark : β} {size : Nat} {last : α}

@[simp] theorem later_iff {value : α} : later rank mark value = true ↔ mark < rank value :=
  decide_eq_true_iff

theorem rest_eq_of_perm {others : List α} (distinct : Function.Injective rank)
    (same : values.Perm others) : rest rank mark values = rest rank mark others := by
  rw [rest, rest, sort_eq_of_perm distinct same]

theorem mem_rest {value : α} :
    value ∈ rest rank mark values ↔ value ∈ values ∧ mark < rank value := by
  rw [rest, List.mem_filter, (sort_perm values).mem_iff, later_iff]

/-- After a page is what follows its last value. -/
theorem rest_drop (distinct : Function.Injective rank) (once : values.Nodup)
    (ends : ((rest rank mark values).take size).getLast? = some last) :
    rest rank (rank last) values = (rest rank mark values).drop size := by
  have strict : (rest rank mark values).Pairwise fun value other => rank value < rank other := by
    have sorted : (rest rank mark values).Pairwise (Least rank) := (sort_sorted values).filter _
    have apart : (rest rank mark values).Nodup := ((sort_perm values).nodup_iff.mpr once).filter _
    exact sorted.imp₂ (fun value other least different =>
      lt_of_le_of_ne least fun same => different (distinct same)) apart
  have member : last ∈ (rest rank mark values).take size := List.mem_of_getLast? ends
  have beyond : mark < rank last := (mem_rest.mp (List.mem_of_mem_take member)).2
  have again : rest rank (rank last) values =
      (rest rank mark values).filter (later rank (rank last)) := by
    rw [rest, rest, List.filter_filter]
    refine List.filter_congr fun value _ => ?_
    rw [Bool.eq_iff_iff, Bool.and_eq_true, later_iff, later_iff]
    exact ⟨fun after => ⟨after, beyond.trans after⟩, And.left⟩
  obtain ⟨front, shape⟩ : ∃ front, (rest rank mark values).take size = front ++ [last] :=
    List.getLast?_eq_some_iff.mp ends
  have whole : rest rank mark values = (front ++ [last]) ++ (rest rank mark values).drop size := by
    rw [← shape, List.take_append_drop]
  rw [whole] at strict
  obtain ⟨page, -, across⟩ := List.pairwise_append.mp strict
  have before : (front ++ [last]).filter (later rank (rank last)) = [] := by
    refine List.filter_eq_nil_iff.mpr fun value listed => ?_
    rw [later_iff, not_lt]
    rcases List.mem_append.mp listed with earlier | same
    · exact le_of_lt ((List.pairwise_append.mp page).2.2 value earlier last List.mem_cons_self)
    · rw [List.mem_singleton.mp same]
  have after : ((rest rank mark values).drop size).filter (later rank (rank last)) =
      (rest rank mark values).drop size :=
    List.filter_eq_self.mpr fun value listed => later_iff.mpr
      (across last (List.mem_append_right _ List.mem_cons_self) value listed)
  rw [again]
  calc (rest rank mark values).filter (later rank (rank last))
      = ((front ++ [last]) ++ (rest rank mark values).drop size).filter
          (later rank (rank last)) := by rw [← whole]
    _ = (rest rank mark values).drop size := by
        rw [List.filter_append, before, after, List.nil_append]

end Pages

end Paging
