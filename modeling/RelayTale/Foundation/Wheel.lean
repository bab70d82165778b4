import Mathlib.Algebra.BigOperators.Group.Finset.Basic
import Mathlib.Algebra.GroupWithZero.Nat
import Mathlib.Data.Nat.Count
import Mathlib.Order.Interval.Finset.Nat

/-!
# Weighted lanes on a wheel

Lanes of given widths lie side by side on a wheel. A cursor is carried on to the
nearest position whose lane has work and from there one position further. A
stretch of stops that is as long as the working lanes are wide together visits
each of them as often as it is wide, wherever the cursor stood.
-/

namespace Wheel

variable {ι : Type}

section Walk

/-- The stops of a cursor, from one position of the unrolled wheel to another. -/
inductive Visits (lane : ℕ → Option ι) (busy : ι → Bool) : ℕ → List ι → ℕ → Prop
  | nil (start : ℕ) : Visits lane busy start [] start
  | cons {start gap stop : ℕ} {name : ι} {rest : List ι} (here : lane (start + gap) = some name)
      (works : busy name = true)
      (idle : ∀ e < gap, ∀ other, lane (start + e) = some other → busy other = false)
      (later : Visits lane busy (start + gap + 1) rest stop) :
      Visits lane busy start (name :: rest) stop

variable {lane : ℕ → Option ι} {busy chosen : ι → Bool} {start stop : ℕ} {visited : List ι}

def works (lane : ℕ → Option ι) (busy chosen : ι → Bool) (place : ℕ) : Bool :=
  (lane place).any fun name => busy name && chosen name

theorem Visits.append {first second : List ι}
    (visits : Visits lane busy start (first ++ second) stop) :
    ∃ middle, Visits lane busy start first middle ∧ Visits lane busy middle second stop := by
  induction first generalizing start with
  | nil => exact ⟨start, .nil start, visits⟩
  | cons name rest ih =>
    cases visits with
    | cons here works idle later =>
      obtain ⟨middle, earlier, later⟩ := ih later
      exact ⟨middle, .cons here works idle earlier, later⟩

/-- Only the lanes ahead of the cursor matter. -/
theorem Visits.shift (visits : Visits lane busy start visited stop) (origin : ℕ)
    (same : ∀ n, lane (origin + n) = lane (start + n)) :
    ∃ stop', Visits lane busy origin visited stop' := by
  induction visits generalizing origin with
  | nil start => exact ⟨origin, .nil origin⟩
  | @cons start gap stop name rest here works idle later ih =>
    have ahead (n : ℕ) : lane (origin + gap + 1 + n) = lane (start + gap + 1 + n) := by
      have moved := same (gap + 1 + n)
      rwa [← Nat.add_assoc, ← Nat.add_assoc, ← Nat.add_assoc, ← Nat.add_assoc] at moved
    obtain ⟨stop', later⟩ := ih (origin + gap + 1) ahead
    refine ⟨stop', .cons ((same gap).trans here) works (fun e before other found => ?_) later⟩
    exact idle e before other ((same e).symm.trans found)

/-- The stops are the working positions that were passed. -/
theorem Visits.count (visits : Visits lane busy start visited stop) (chosen : ι → Bool) :
    Nat.count (works lane busy chosen ·) stop =
      Nat.count (works lane busy chosen ·) start + visited.countP chosen := by
  induction visits with
  | nil => simp
  | @cons start gap stop name rest here busyHere idle later ih =>
    have skipped : Nat.count (fun e => works lane busy chosen (start + e) = true) gap = 0 := by
      refine Nat.count_of_forall_not fun e before => ?_
      cases found : lane (start + e) with
      | none => simp [works, found]
      | some other => simp [works, found, idle e before other found]
    have stopped : works lane busy chosen (start + gap) = chosen name := by
      simp [works, here, busyHere]
    rw [ih, Nat.count_succ, Nat.count_add, skipped, stopped, List.countP_cons]
    omega

section Period

variable {period : ℕ} {p r : ℕ → Prop} [DecidablePred p] [DecidablePred r]

theorem count_add_period (periodic : ∀ n, p (period + n) ↔ p n) (start : ℕ) :
    Nat.count p (start + period) = Nat.count p start + Nat.count p period := by
  rw [Nat.add_comm, Nat.count_add, Nat.add_comm]
  simp only [periodic]

theorem count_eq_of_le (implies : ∀ n, p n → r n) {a b : ℕ} (before : a ≤ b)
    (same : Nat.count r a = Nat.count r b) : Nat.count p a = Nat.count p b := by
  obtain ⟨k, rfl⟩ := Nat.exists_eq_add_of_le before
  rw [Nat.count_add] at same ⊢
  have fewer : Nat.count (fun n => p (a + n)) k ≤ Nat.count (fun n => r (a + n)) k :=
    Nat.count_mono_left fun n _ => implies (a + n)
  omega

theorem count_eq_of_count_eq (implies : ∀ n, p n → r n) {a b : ℕ}
    (same : Nat.count r a = Nat.count r b) : Nat.count p a = Nat.count p b := by
  rcases Nat.le_total a b with before | after
  · exact count_eq_of_le implies before same
  · exact (count_eq_of_le implies after same.symm).symm

end Period

/-- A full round of stops visits every working lane as often as it is wide. -/
theorem Visits.round {period : ℕ} (periodic : ∀ n, lane (period + n) = lane n)
    (visits : Visits lane busy start visited stop)
    (full : visited.length = Nat.count (works lane busy (fun _ => true) ·) period)
    (chosen : ι → Bool) :
    visited.countP chosen = Nat.count (works lane busy chosen ·) period := by
  have repeats (chosen : ι → Bool) (n : ℕ) :
      works lane busy chosen (period + n) = true ↔ works lane busy chosen n = true := by
    rw [works, works, periodic]
  have all := visits.count fun _ => true
  rw [List.countP_true, full, ← count_add_period (repeats _)] at all
  have implies (n : ℕ) (chosenHere : works lane busy chosen n = true) :
      works lane busy (fun _ => true) n = true := by
    simp only [works, Option.any_eq_true, Bool.and_eq_true] at chosenHere ⊢
    obtain ⟨name, found, working, -⟩ := chosenHere
    exact ⟨name, found, working, trivial⟩
  have some' := visits.count chosen
  rw [count_eq_of_count_eq implies all, count_add_period (repeats chosen)] at some'
  omega

end Walk

section Lanes

variable [DecidableEq ι] {lanes : List (ι × ℕ)} {lane : ι}

def total (lanes : List (ι × ℕ)) : ℕ := (lanes.map Prod.snd).sum

def width (lane : ι) : List (ι × ℕ) → ℕ
  | [] => 0
  | (name, wide) :: rest => if name = lane then wide else width lane rest

/-- The width of all lanes before this one. -/
def first (lane : ι) : List (ι × ℕ) → ℕ
  | [] => 0
  | (name, wide) :: rest => if name = lane then 0 else wide + first lane rest

omit [DecidableEq ι] in
def laneAt : List (ι × ℕ) → ℕ → Option ι
  | [], _ => none
  | (name, wide) :: rest, place => if place < wide then some name else laneAt rest (place - wide)

/-- How far the cursor is from the lane: not at all inside it, and otherwise as
far as from its first position. -/
def distance (lanes : List (ι × ℕ)) (cursor : ℕ) (lane : ι) : ℕ :=
  let place := cursor % total lanes
  if first lane lanes ≤ place ∧ place < first lane lanes + width lane lanes then 0
  else (first lane lanes + total lanes - place) % total lanes

omit [DecidableEq ι] in
theorem mem_of_laneAt {place : ℕ} (found : laneAt lanes place = some lane) :
    lane ∈ lanes.map Prod.fst := by
  induction lanes generalizing place with
  | nil => cases found
  | cons head rest ih =>
    simp only [laneAt] at found
    split at found
    · simp [Option.some.inj found]
    · exact List.mem_cons_of_mem _ (ih found)

theorem laneAt_eq_some (nodup : (lanes.map Prod.fst).Nodup) (member : lane ∈ lanes.map Prod.fst)
    {place : ℕ} :
    laneAt lanes place = some lane ↔
      first lane lanes ≤ place ∧ place < first lane lanes + width lane lanes := by
  induction lanes generalizing place with
  | nil => cases member
  | cons head rest ih =>
    obtain ⟨name, wide⟩ := head
    obtain ⟨fresh, nodup⟩ := List.nodup_cons.mp nodup
    simp only [laneAt, first, width]
    by_cases same : name = lane
    · subst same
      simp only [if_true, Nat.zero_le, Nat.zero_add, true_and]
      constructor
      · intro found
        by_contra outside
        rw [if_neg outside] at found
        exact fresh (mem_of_laneAt found)
      · intro inside
        rw [if_pos inside]
    · rw [if_neg same, if_neg same]
      have later := (List.mem_cons.mp member).resolve_left (Ne.symm same)
      split
      next inside =>
        have outside : ¬ (wide + first lane rest ≤ place) := by omega
        simp [same, outside]
      next beyond =>
        rw [ih nodup later]
        omega

theorem first_add_width_le (member : lane ∈ lanes.map Prod.fst) :
    first lane lanes + width lane lanes ≤ total lanes := by
  induction lanes with
  | nil => cases member
  | cons head rest ih =>
    obtain ⟨name, wide⟩ := head
    simp only [first, width, total, List.map_cons, List.sum_cons]
    by_cases same : name = lane
    · rw [if_pos same, if_pos same]
      omega
    · have later := ih ((List.mem_cons.mp member).resolve_left (Ne.symm same))
      rw [if_neg same, if_neg same]
      rw [total] at later
      omega

/-- A lane has as many positions as it is wide. -/
theorem count_laneAt (nodup : (lanes.map Prod.fst).Nodup) (member : lane ∈ lanes.map Prod.fst) :
    Nat.count (fun place => laneAt lanes place = some lane) (total lanes) = width lane lanes := by
  have inside := first_add_width_le member
  rw [Nat.count_eq_card_filter_range]
  have interval : (Finset.range (total lanes)).filter (fun place => laneAt lanes place = some lane) =
      Finset.Ico (first lane lanes) (first lane lanes + width lane lanes) := by
    ext place
    rw [Finset.mem_filter, Finset.mem_range, laneAt_eq_some nodup member, Finset.mem_Ico]
    omega
  rw [interval, Nat.card_Ico]
  omega

variable {cursor : ℕ}

theorem distance_lt (positive : 0 < total lanes) (cursor : ℕ) (lane : ι) :
    distance lanes cursor lane < total lanes := by
  simp only [distance]
  split
  · exact positive
  · exact Nat.mod_lt _ positive

theorem laneAt_distance (nodup : (lanes.map Prod.fst).Nodup) (member : lane ∈ lanes.map Prod.fst)
    (wide : 0 < width lane lanes) :
    laneAt lanes ((cursor + distance lanes cursor lane) % total lanes) = some lane := by
  have inside := first_add_width_le member
  have place := Nat.mod_lt cursor (show 0 < total lanes by omega)
  rw [laneAt_eq_some nodup member, ← Nat.mod_add_mod]
  simp only [distance]
  split
  next here => rwa [Nat.add_zero, Nat.mod_mod]
  next =>
    have around : cursor % total lanes + (first lane lanes + total lanes - cursor % total lanes) =
        first lane lanes + total lanes := by omega
    rw [Nat.add_mod_mod, around, Nat.add_mod_right, Nat.mod_eq_of_lt (by omega)]
    omega

theorem distance_le (nodup : (lanes.map Prod.fst).Nodup) {gap : ℕ}
    (found : laneAt lanes ((cursor + gap) % total lanes) = some lane) :
    distance lanes cursor lane ≤ gap := by
  have member := mem_of_laneAt found
  rw [laneAt_eq_some nodup member, ← Nat.mod_add_mod] at found
  have inside := first_add_width_le member
  have positive : 0 < total lanes := by omega
  have bound := distance_lt positive cursor lane
  rcases Nat.lt_or_ge gap (total lanes) with short | long
  case inr => omega
  have place := Nat.mod_lt cursor positive
  simp only [distance]
  split
  · exact Nat.zero_le _
  next outside =>
    generalize cursor % total lanes = place' at *
    -- the walk either stays on this round of the wheel or comes around once
    rcases Nat.lt_or_ge (place' + gap) (total lanes) with on | around
    · rw [Nat.mod_eq_of_lt on] at found
      have ahead : first lane lanes + total lanes - place' =
          first lane lanes - place' + total lanes := by omega
      rw [ahead, Nat.add_mod_right, Nat.mod_eq_of_lt (by omega)]
      omega
    · rw [Nat.mod_eq_sub_mod around, Nat.mod_eq_of_lt (by omega)] at found
      rw [Nat.mod_eq_of_lt (by omega)]
      omega

end Lanes

section Turns

variable [DecidableEq ι] {lanes : List (ι × ℕ)} {busy : ι → Bool}

def around (lanes : List (ι × ℕ)) (place : ℕ) : Option ι := laneAt lanes (place % total lanes)

omit [DecidableEq ι] in
theorem around_add_total (n : ℕ) : around lanes (total lanes + n) = around lanes n := by
  rw [around, around, Nat.add_mod_left]

theorem Visits.nearest (nodup : (lanes.map Prod.fst).Nodup) {cursor stop : ℕ} {name : ι}
    {rest : List ι} (member : name ∈ lanes.map Prod.fst) (wide : 0 < width name lanes)
    (works : busy name = true)
    (least : ∀ other, busy other = true → distance lanes cursor name ≤ distance lanes cursor other)
    (later : Visits (around lanes) busy ((cursor + distance lanes cursor name + 1) % total lanes)
      rest stop) :
    ∃ stop', Visits (around lanes) busy cursor (name :: rest) stop' := by
  obtain ⟨stop', later⟩ := later.shift (cursor + distance lanes cursor name + 1)
    fun n => by rw [around, around, Nat.mod_add_mod]
  refine ⟨stop', .cons (laneAt_distance nodup member wide) works (fun e before other found => ?_)
    later⟩
  cases working : busy other with
  | false => rfl
  | true =>
    have sooner := (least other working).trans (distance_le nodup found)
    omega

omit [DecidableEq ι] in
theorem count_works_congr {chosen : ι → Bool} {p : ℕ → Prop} [DecidablePred p]
    (same : ∀ place < total lanes,
      works (around lanes) busy chosen place = true ↔ p place) :
    Nat.count (works (around lanes) busy chosen ·) (total lanes) = Nat.count p (total lanes) := by
  rw [Nat.count_eq_card_filter_range, Nat.count_eq_card_filter_range]
  congr 1
  exact Finset.filter_congr fun place inside => same place (Finset.mem_range.mp inside)

/-- In every stretch of stops that is as long as the working lanes are wide
together, each of them is visited as often as it is wide. -/
theorem Visits.exact (nodup : (lanes.map Prod.fst).Nodup) {working : Finset ι}
    (known : ∀ name ∈ working, name ∈ lanes.map Prod.fst) {start stop : ℕ} {visited : List ι}
    (visits : Visits (around lanes) (fun name => decide (name ∈ working)) start visited stop)
    (full : visited.length = ∑ name ∈ working, width name lanes) {name : ι}
    (member : name ∈ working) : visited.count name = width name lanes := by
  have one (lane : ι) (inside : lane ∈ working) :
      Nat.count (works (around lanes) (fun name => decide (name ∈ working)) (· == lane) ·)
        (total lanes) = width lane lanes := by
    rw [← count_laneAt nodup (known lane inside)]
    refine count_works_congr fun place below => ?_
    rw [works, around, Nat.mod_eq_of_lt below, Option.any_eq_true]
    constructor
    · rintro ⟨other, found, same⟩
      simp only [Bool.and_eq_true, beq_iff_eq] at same
      rw [found, same.2]
    · exact fun found => ⟨lane, found, by simpa using inside⟩
  have all : Nat.count (works (around lanes) (fun name => decide (name ∈ working))
      (fun _ => true) ·) (total lanes) = ∑ name ∈ working, width name lanes := by
    rw [← Finset.sum_congr rfl one, Nat.count_eq_card_filter_range]
    simp only [Nat.count_eq_card_filter_range]
    rw [← Finset.card_biUnion]
    · congr 1
      ext place
      simp only [works, Finset.mem_filter, Finset.mem_biUnion, Option.any_eq_true, Bool.and_true,
        Bool.and_eq_true, decide_eq_true_eq, beq_iff_eq]
      constructor
      · rintro ⟨below, lane, found, inside⟩
        exact ⟨lane, inside, below, lane, found, inside, rfl⟩
      · rintro ⟨-, -, below, lane, found, inside, -⟩
        exact ⟨below, lane, found, inside⟩
    · intro a _ b _ different
      refine Finset.disjoint_left.mpr fun place first second => ?_
      simp only [Finset.mem_filter, works, Option.any_eq_true, Bool.and_eq_true, beq_iff_eq]
        at first second
      obtain ⟨-, x, found, -, rfl⟩ := first
      obtain ⟨-, y, found', -, rfl⟩ := second
      exact different (Option.mem_unique found found')
  rw [List.count_eq_countP, visits.round around_add_total (full.trans all.symm) (· == name),
    one name member]

end Turns

end Wheel
