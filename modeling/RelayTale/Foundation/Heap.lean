import Mathlib.Data.List.Sort
import Mathlib.Order.Basic

/-!
# Selecting the smallest values with a bounded heap

A binary heap in an array with the largest value at its root. A value that comes
while there is room is pushed, and one that is smaller than the root takes its
place. What is left in the end are the smallest of all values offered.
-/

namespace Heap

universe u v

variable {α : Type u} {β : Type v} [Inhabited α] [LinearOrder β] (rank : α → β)

section Operations

/-- Moves a value towards the root while it is larger than its parent. -/
def up : (fuel : Nat) → Array α → Nat → Array α
  | 0, h, _ => h
  | fuel + 1, h, j =>
      let i := (j - 1) / 2
      if i = j ∨ ¬ rank h[i]! < rank h[j]! then h else up fuel (h.swapIfInBounds i j) i

/-- The child of `i` with the larger value, the left one if they are alike. -/
def child (h : Array α) (i : Nat) : Nat :=
  let left := 2 * i + 1
  if left + 1 < h.size ∧ rank h[left]! < rank h[left + 1]! then left + 1 else left

/-- Moves a value away from the root while it is smaller than one of its children, and tells
where it ends. -/
def down : (fuel : Nat) → Array α → Nat → Array α × Nat
  | 0, h, i => (h, i)
  | fuel + 1, h, i =>
      let j := child rank h i
      if h.size ≤ 2 * i + 1 ∨ ¬ rank h[i]! < rank h[j]! then (h, i)
      else down fuel (h.swapIfInBounds i j) j

def push (h : Array α) (value : α) : Array α := up rank (h.size + 1) (h.push value) h.size

def fix (h : Array α) (i : Nat) : Array α :=
  let (moved, j) := down rank h.size h i
  if i < j then moved else up rank (i + 1) moved i

/-- Keeps at most `count` values. -/
def offer (count : Nat) (h : Array α) (value : α) : Array α :=
  if h.size < count then push rank h value
  else if rank value < rank h[0]! then fix rank (h.setIfInBounds 0 value) 0
  else h

end Operations

def Ordered (h : Array α) : Prop :=
  ∀ j, 0 < j → j < h.size → rank h[j]! ≤ rank h[(j - 1) / 2]!

section Order

variable {rank} {h : Array α} {i j : Nat}

/-- Ordered but for the edge above `j`. -/
structure Rising (rank : α → β) (h : Array α) (j : Nat) : Prop where
  others : ∀ k, 0 < k → k < h.size → k ≠ j → rank h[k]! ≤ rank h[(k - 1) / 2]!
  skipped : ∀ k, 0 < j → 0 < k → k < h.size → (k - 1) / 2 = j → rank h[k]! ≤ rank h[(j - 1) / 2]!

/-- Ordered but for the edges below `i`. -/
structure Sinking (rank : α → β) (h : Array α) (i : Nat) : Prop where
  others : ∀ k, 0 < k → k < h.size → (k - 1) / 2 ≠ i → rank h[k]! ≤ rank h[(k - 1) / 2]!
  skipped : ∀ k, 0 < i → 0 < k → k < h.size → (k - 1) / 2 = i → rank h[k]! ≤ rank h[(i - 1) / 2]!

theorem swap_get (inside : i < h.size) (inside' : j < h.size) (k : Nat) :
    (h.swapIfInBounds i j)[k]! = if k = i then h[j]! else if k = j then h[i]! else h[k]! := by
  grind

theorem Rising.swap (rising : Rising rank h j) (inside : j < h.size) (positive : 0 < j)
    (larger : rank h[(j - 1) / 2]! < rank h[j]!) :
    Rising rank (h.swapIfInBounds ((j - 1) / 2) j) ((j - 1) / 2) := by
  have above : (j - 1) / 2 < h.size := by omega
  constructor
  · intro k first bound other
    rw [Array.size_swapIfInBounds] at bound
    rw [swap_get above inside, swap_get above inside]
    by_cases moved : k = j
    · subst moved
      simp only [if_neg other, if_true]
      exact le_of_lt larger
    · rw [if_neg other, if_neg moved]
      have old := rising.others k first bound moved
      by_cases sibling : (k - 1) / 2 = (j - 1) / 2
      · rw [if_pos sibling]
        rw [sibling] at old
        exact old.trans (le_of_lt larger)
      · rw [if_neg sibling]
        by_cases child : (k - 1) / 2 = j
        · rw [if_pos child]
          exact rising.skipped k positive first bound child
        · rwa [if_neg child]
  · intro k grand first bound child
    rw [Array.size_swapIfInBounds] at bound
    have up' := rising.others ((j - 1) / 2) grand above (by omega)
    have below : k ≠ (j - 1) / 2 := by omega
    have top : ((j - 1) / 2 - 1) / 2 ≠ (j - 1) / 2 ∧ ((j - 1) / 2 - 1) / 2 ≠ j := by omega
    rw [swap_get above inside, swap_get above inside, if_neg below, if_neg top.1, if_neg top.2]
    by_cases moved : k = j
    · rwa [if_pos moved]
    · rw [if_neg moved]
      have old := rising.others k first bound moved
      rw [child] at old
      exact old.trans up'

theorem up_ordered {fuel : Nat} (rising : Rising rank h j) (inside : j < h.size)
    (enough : j < fuel) : Ordered rank (up rank fuel h j) := by
  induction fuel generalizing h j with
  | zero => omega
  | succ fuel ih =>
    rw [up]
    split
    next stop =>
      intro k first bound
      by_cases here : k = j
      · subst here
        rcases stop with root | small
        · omega
        · exact not_lt.mp small
      · exact rising.others k first bound here
    next go =>
      rw [not_or, not_not] at go
      have positive : 0 < j := by omega
      refine ih (rising.swap inside positive go.2) ?_ (by omega)
      rw [Array.size_swapIfInBounds]
      omega

theorem Sinking.swap (sinking : Sinking rank h i) (inside : j < h.size) (child : (j - 1) / 2 = i)
    (positive : 0 < j)
    (largest : ∀ k, 0 < k → k < h.size → (k - 1) / 2 = i → rank h[k]! ≤ rank h[j]!)
    (larger : rank h[i]! < rank h[j]!) : Sinking rank (h.swapIfInBounds i j) j := by
  have above : i < h.size := by omega
  constructor
  · intro k first bound other
    rw [Array.size_swapIfInBounds] at bound
    rw [swap_get above inside, swap_get above inside, if_neg other]
    by_cases sibling : (k - 1) / 2 = i
    · rw [if_pos sibling, if_neg (by omega)]
      by_cases moved : k = j
      · rw [if_pos moved]
        exact le_of_lt larger
      · rw [if_neg moved]
        exact largest k first bound sibling
    · rw [if_neg sibling]
      by_cases root : k = i
      · rw [if_pos root, root]
        exact sinking.skipped j (by omega) positive inside child
      · have apart : k ≠ j := by
          rintro rfl
          exact sibling child
        rw [if_neg root, if_neg apart]
        exact sinking.others k first bound sibling
  · intro k _ first bound below
    rw [Array.size_swapIfInBounds] at bound
    rw [swap_get above inside, swap_get above inside, if_neg (by omega), if_neg (by omega),
      if_pos child]
    have old := sinking.others k first bound (by omega)
    rwa [below] at old

theorem Sinking.leaf (sinking : Sinking rank h i) (last : h.size ≤ 2 * i + 1) : Ordered rank h :=
  fun k first bound => sinking.others k first bound (by omega)

variable (rank) in
theorem child_spec (some' : 2 * i + 1 < h.size) :
    child rank h i < h.size ∧ (child rank h i - 1) / 2 = i ∧ i < child rank h i ∧
      ∀ k, 0 < k → k < h.size → (k - 1) / 2 = i → rank h[k]! ≤ rank h[child rank h i]! := by
  unfold child
  simp only
  split
  next right =>
    refine ⟨right.1, by omega, by omega, fun k first bound below => ?_⟩
    have sides : k = 2 * i + 1 ∨ k = 2 * i + 1 + 1 := by omega
    rcases sides with rfl | rfl
    · exact le_of_lt right.2
    · exact le_rfl
  next left =>
    refine ⟨some', by omega, by omega, fun k first bound below => ?_⟩
    have sides : k = 2 * i + 1 ∨ k = 2 * i + 1 + 1 := by omega
    rcases sides with rfl | rfl
    · exact le_rfl
    · exact not_lt.mp fun wrong => left ⟨bound, wrong⟩

theorem down_ordered (fuel : Nat) (sinking : Sinking rank h i) (enough : h.size ≤ i + fuel) :
    Ordered rank (down rank fuel h i).1 := by
  induction fuel generalizing h i with
  | zero => exact sinking.leaf (by omega)
  | succ fuel ih =>
    rw [down]
    split
    next stop =>
      by_cases last : h.size ≤ 2 * i + 1
      · exact sinking.leaf last
      · obtain ⟨-, -, -, largest⟩ := child_spec rank (not_le.mp last)
        intro k first bound
        by_cases below : (k - 1) / 2 = i
        · rw [below]
          exact (largest k first bound below).trans (not_lt.mp (stop.resolve_left last))
        · exact sinking.others k first bound below
    next go =>
      rw [not_or, not_le, not_not] at go
      obtain ⟨inside, parent, later, largest⟩ := child_spec rank go.1
      refine ih (sinking.swap inside parent (by omega) largest go.2) ?_
      rw [Array.size_swapIfInBounds]
      omega

theorem root_largest (ordered : Ordered rank h) : ∀ value ∈ h.toList, rank value ≤ rank h[0]! := by
  have all : ∀ k < h.size, rank h[k]! ≤ rank h[0]! := by
    intro k
    induction k using Nat.strong_induction_on with
    | _ k ih =>
      intro bound
      rcases Nat.eq_zero_or_pos k with rfl | positive
      · exact le_rfl
      · exact (ordered k positive bound).trans (ih _ (by omega) (by omega))
  intro value member
  obtain ⟨k, bound, rfl⟩ := List.mem_iff_getElem.mp member
  have bound' : k < h.size := by simpa using bound
  have := all k bound'
  rwa [getElem!_pos h k bound'] at this

theorem le_down (fuel : Nat) (h : Array α) (i : Nat) : i ≤ (down rank fuel h i).2 := by
  induction fuel generalizing h i with
  | zero => exact le_rfl
  | succ fuel ih =>
    rw [down]
    split
    · exact le_rfl
    next go =>
      rw [not_or, not_le, not_not] at go
      exact (le_of_lt (child_spec rank go.1).2.2.1).trans (ih _ _)

/-- Where nothing was moved, the array is as it was. -/
theorem down_stays {fuel : Nat} (unmoved : ¬ i < (down rank fuel h i).2) :
    (down rank fuel h i).1 = h := by
  cases fuel with
  | zero => rfl
  | succ fuel =>
    rw [down] at unmoved ⊢
    split
    · rfl
    next go =>
      rw [if_neg go] at unmoved
      rw [not_or, not_le, not_not] at go
      exact absurd ((child_spec rank go.1).2.2.1.trans_le (le_down _ _ _)) unmoved

theorem push_ordered (ordered : Ordered rank h) (value : α) : Ordered rank (push rank h value) := by
  refine up_ordered ⟨?_, ?_⟩ (by simp) (by omega)
  · intro k first bound other
    have inside : k < h.size := by
      rw [Array.size_push] at bound
      omega
    have old := ordered k first inside
    have below : (k - 1) / 2 < h.size := by omega
    rwa [getElem!_pos _ _ (by simpa using bound), Array.getElem_push_lt inside,
      getElem!_pos _ _ (by rw [Array.size_push]; omega), Array.getElem_push_lt below,
      ← getElem!_pos h k inside, ← getElem!_pos h _ below]
  · intro k _ first bound child
    rw [Array.size_push] at bound
    omega

/-- A new value at the root of a heap finds its place. -/
theorem fix_ordered (ordered : Ordered rank h) (value : α) :
    Ordered rank (fix rank (h.setIfInBounds 0 value) 0) := by
  have sinking : Sinking rank (h.setIfInBounds 0 value) 0 := by
    refine ⟨fun k first bound other => ?_, fun k root => absurd root (by omega)⟩
    rw [Array.size_setIfInBounds] at bound
    have old := ordered k first bound
    grind
  have settled := down_ordered (h.setIfInBounds 0 value).size sinking (by omega)
  rw [fix]
  simp only
  split
  · exact settled
  next unmoved =>
    rw [down_stays unmoved] at settled ⊢
    rw [up, if_pos (by simp)]
    exact settled

end Order

section Contents

variable {rank} {h : Array α}

omit [Inhabited α] in
theorem swap_perm (h : Array α) (i j : Nat) : (h.swapIfInBounds i j).toList.Perm h.toList := by
  unfold Array.swapIfInBounds
  split
  · split
    · exact (Array.swap_perm _ _).toList
    · exact .refl _
  · exact .refl _

theorem up_perm (fuel : Nat) (h : Array α) (j : Nat) : (up rank fuel h j).toList.Perm h.toList := by
  induction fuel generalizing h j with
  | zero => exact .refl _
  | succ fuel ih =>
    rw [up]
    split
    · exact .refl _
    · exact (ih _ _).trans (swap_perm h _ _)

theorem down_perm (fuel : Nat) (h : Array α) (i : Nat) :
    (down rank fuel h i).1.toList.Perm h.toList := by
  induction fuel generalizing h i with
  | zero => exact .refl _
  | succ fuel ih =>
    rw [down]
    split
    · exact .refl _
    · exact (ih _ _).trans (swap_perm h _ _)

variable (rank) in
theorem push_perm (h : Array α) (value : α) :
    (push rank h value).toList.Perm (value :: h.toList) := by
  have grown : (push rank h value).toList.Perm (h.push value).toList := up_perm _ _ _
  rw [Array.toList_push] at grown
  exact grown.trans (List.perm_append_singleton _ _)

theorem fix_perm (h : Array α) (i : Nat) : (fix rank h i).toList.Perm h.toList := by
  rw [fix]
  simp only
  split
  · exact down_perm _ _ _
  · exact (up_perm _ _ _).trans (down_perm _ _ _)

end Contents

section Selection

variable {rank} {h : Array α} {count : Nat} {values : List α}

/-- The array holds the smallest of the values, as many as there is room for. -/
structure Selects (rank : α → β) (count : Nat) (values : List α) (h : Array α) : Prop where
  ordered : Ordered rank h
  split : ∃ rest, (h.toList ++ rest).Perm values ∧
    (∀ value ∈ h.toList, ∀ other ∈ rest, rank value ≤ rank other) ∧
    (h.size < count → rest = [])
  size : h.size ≤ count

theorem selects_empty (rank : α → β) (count : Nat) : Selects rank count [] #[] where
  ordered := fun _ _ bound => absurd bound (Nat.not_lt_zero _)
  split := ⟨[], .refl _, by simp, fun _ => rfl⟩
  size := Nat.zero_le _

theorem Selects.offer (selects : Selects rank count values h) (positive : 0 < count) (value : α) :
    Selects rank count (value :: values) (offer rank count h value) := by
  obtain ⟨ordered, ⟨rest, whole, least, full⟩, size⟩ := selects
  unfold Heap.offer
  split
  next room =>
    have contents := push_perm rank h value
    rw [full room, List.append_nil] at whole
    refine ⟨push_ordered ordered value, ⟨[], ?_, by simp, fun _ => rfl⟩, ?_⟩
    · rw [List.append_nil]
      exact contents.trans (whole.cons value)
    · have length := contents.length_eq
      simp only [Array.length_toList, List.length_cons] at length
      omega
  next filled =>
    have nonempty : 0 < h.size := by omega
    obtain ⟨root, others, shape⟩ : ∃ root others, h.toList = root :: others := by
      cases list : h.toList with
      | nil =>
        have length := congrArg List.length list
        simp only [Array.length_toList, List.length_nil] at length
        omega
      | cons root others => exact ⟨root, others, rfl⟩
    have top : h[0]! = root := by
      rw [getElem!_pos h 0 nonempty, ← Array.getElem_toList nonempty]
      simp [shape]
    have largest := root_largest ordered
    rw [top] at largest ⊢
    rw [shape] at whole least largest
    split
    next smaller =>
      have contents : (fix rank (h.setIfInBounds 0 value) 0).toList.Perm (value :: others) := by
        refine (fix_perm _ _).trans ?_
        rw [Array.toList_setIfInBounds, shape]
        exact .refl _
      refine ⟨fix_ordered ordered value, ⟨root :: rest, ?_, ?_, fun room => ?_⟩, ?_⟩
      · refine (contents.append_right _).trans ((List.Perm.cons value ?_))
        exact List.perm_middle.trans whole
      · intro kept member other dropped
        rcases List.mem_cons.mp dropped with rfl | dropped <;>
          rcases List.mem_cons.mp (contents.mem_iff.mp member) with rfl | member
        · exact le_of_lt smaller
        · exact largest kept (List.mem_cons_of_mem _ member)
        · exact (le_of_lt smaller).trans (least root List.mem_cons_self other dropped)
        · exact least kept (List.mem_cons_of_mem _ member) other dropped
      · have length := contents.length_eq
        have before := congrArg List.length shape
        simp only [Array.length_toList, List.length_cons] at length before
        omega
      · have length := contents.length_eq
        have before := congrArg List.length shape
        simp only [Array.length_toList, List.length_cons] at length before
        omega
    next larger =>
      refine ⟨ordered, ⟨value :: rest, ?_, ?_, fun room => absurd room filled⟩, size⟩
      · rw [shape]
        exact List.perm_middle.trans (whole.cons value)
      · rw [shape]
        intro kept member other dropped
        rcases List.mem_cons.mp dropped with rfl | dropped
        · exact (largest kept member).trans (not_lt.mp larger)
        · exact least kept member other dropped

variable (rank) in
theorem selects_offers (positive : 0 < count) (values : List α) :
    ∃ offered, offered.Perm values ∧
      Selects rank count offered (values.foldl (offer rank count) #[]) := by
  have run (values offered : List α) (h : Array α) (selects : Selects rank count offered h) :
      ∃ all, all.Perm (values ++ offered) ∧
        Selects rank count all (values.foldl (offer rank count) h) := by
    induction values generalizing offered h with
    | nil => exact ⟨offered, .refl _, selects⟩
    | cons value values ih =>
      obtain ⟨all, perm, selected⟩ := ih (value :: offered) _ (selects.offer positive value)
      exact ⟨all, perm.trans List.perm_middle, selected⟩
  obtain ⟨all, perm, selected⟩ := run values [] #[] (selects_empty rank count)
  exact ⟨all, by rwa [List.append_nil] at perm, selected⟩

end Selection

end Heap
