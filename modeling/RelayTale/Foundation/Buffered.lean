import Mathlib.Algebra.Order.BigOperators.Group.List
import Mathlib.Algebra.Ring.Nat
import Mathlib.Data.Nat.Cast.Basic
import RelayTale.Foundation.Reads

/-!
# A buffered reader

The reader keeps bytes that were read ahead of their use. A slice up to a
delimiter is taken from the buffer, which is filled as often as necessary and
handed out whole when it is full. Nothing is lost, repeated or reordered.
-/

universe u v

inductive Stop (Fault : Type v)
  | eof
  | fault (cause : Fault)
  | noProgress
  deriving DecidableEq, Repr

inductive Cut (Fault : Type v)
  | stopped (reason : Stop Fault)
  | full
  deriving DecidableEq, Repr

/-- The result of a read from `Source`, and what is left of it. -/
structure ReadResult (α : Type u) (Reason : Type v) (Source : Type (max u v)) where
  bytes : List α
  stop : Option Reason
  rest : Source

namespace Reads

variable {α : Type u} {Fault : Type v} {r : Reads α Fault} {capacity : Nat}

def stop (r : Reads α Fault) : Stop Fault :=
  match r.fault with
  | none => .eof
  | some cause => .fault cause

def read (r : Reads α Fault) (capacity : Nat) : ReadResult α (Stop Fault) (Reads α Fault) :=
  match r.chunks with
  | chunk :: chunks =>
      if chunk.length ≤ capacity then ⟨chunk, none, { r with chunks }⟩
      else ⟨chunk.take capacity, none, { r with chunks := chunk.drop capacity :: chunks }⟩
  | [] =>
      if r.last.length ≤ capacity then ⟨r.last, some r.stop, { r with last := [] }⟩
      else ⟨r.last.take capacity, none, { r with last := r.last.drop capacity }⟩

def weight (r : Reads α Fault) : Nat := (r.chunks.map (·.length + 1)).sum + r.last.length

theorem read_content : (r.read capacity).bytes ++ (r.read capacity).rest.content = r.content := by
  obtain ⟨chunks, last, fault⟩ := r
  cases chunks with
  | nil =>
    simp only [read, content]
    split <;> simp
  | cons chunk chunks =>
    simp only [read, content]
    split
    · simp
    · simp only [List.flatten_cons]
      rw [← List.append_assoc, ← List.append_assoc, List.take_append_drop, List.append_assoc]

theorem read_length : (r.read capacity).bytes.length ≤ capacity := by
  unfold read
  split <;> split <;> simp [*]

theorem read_fault : (r.read capacity).rest.fault = r.fault := by
  unfold read
  split <;> split <;> rfl

theorem read_stop {reason : Stop Fault} (stopped : (r.read capacity).stop = some reason) :
    reason = r.stop ∧ (r.read capacity).rest.content = [] := by
  obtain ⟨chunks, last, fault⟩ := r
  cases chunks with
  | nil =>
    simp only [read] at stopped ⊢
    split at stopped
    next fits =>
      rw [if_pos fits]
      exact ⟨(Option.some.inj stopped).symm, rfl⟩
    · cases stopped
  | cons chunk chunks =>
    simp only [read] at stopped
    split at stopped <;> cases stopped

theorem fault_of_stop (ended : r.stop = .eof) : r.fault = none := by
  unfold stop at ended
  split at ended
  · assumption
  · cases ended

theorem read_eof (ended : (r.read capacity).stop = some .eof) :
    (r.read capacity).rest.content = [] ∧ (r.read capacity).rest.fault = none :=
  ⟨(read_stop ended).2, read_fault.trans (fault_of_stop (read_stop ended).1.symm)⟩

theorem read_weight (positive : 0 < capacity) :
    (r.read capacity).bytes.length + (r.read capacity).rest.weight ≤ r.weight ∧
      ((r.read capacity).stop = none → (r.read capacity).rest.weight < r.weight) := by
  obtain ⟨chunks, last, fault⟩ := r
  cases chunks with
  | nil =>
    simp only [read, weight]
    split
    · simp
    next long =>
      simp only [List.length_take, List.length_drop, List.map_nil, List.sum_nil]
      omega
  | cons chunk chunks =>
    simp only [read, weight]
    split
    · simp only [List.map_cons, List.sum_cons]
      omega
    next long =>
      simp only [List.map_cons, List.sum_cons, List.length_take, List.length_drop]
      omega

end Reads

/-- The end is noted only when there is nothing left to read. -/
structure Buffered (α : Type u) (Fault : Type v) where
  size : Nat
  positive : 0 < size
  buffer : List α
  room : buffer.length ≤ size
  stop : Option (Stop Fault)
  source : Reads α Fault
  settled : stop = some .eof → source.content = [] ∧ source.fault = none

namespace Buffered

variable {α : Type u} {Fault : Type v} {b : Buffered α Fault}

def new (size : Nat) (positive : 0 < size) (source : Reads α Fault) : Buffered α Fault where
  size := size
  positive := positive
  buffer := []
  room := Nat.zero_le size
  stop := none
  source := source
  settled := by rintro ⟨⟩

def pending (b : Buffered α Fault) : List α := b.buffer ++ b.source.content

def weight (b : Buffered α Fault) : Nat := b.buffer.length + b.source.weight

theorem length_readMore (b : Buffered α Fault) :
    (b.buffer ++ (b.source.read (b.size - b.buffer.length)).bytes).length ≤ b.size := by
  have taken : (b.source.read (b.size - b.buffer.length)).bytes.length ≤
      b.size - b.buffer.length := Reads.read_length
  have room := b.room
  rw [List.length_append]
  omega

def readMore (b : Buffered α Fault) : Buffered α Fault where
  size := b.size
  positive := b.positive
  buffer := b.buffer ++ (b.source.read (b.size - b.buffer.length)).bytes
  room := b.length_readMore
  stop := (b.source.read (b.size - b.buffer.length)).stop
  source := (b.source.read (b.size - b.buffer.length)).rest
  settled := fun ended => Reads.read_eof ended

def clear (b : Buffered α Fault) : Buffered α Fault :=
  { b with stop := none, settled := by rintro ⟨⟩ }

def discard (b : Buffered α Fault) (n : Nat) : Buffered α Fault :=
  { b with
    buffer := b.buffer.drop n
    room := (List.length_drop ▸ Nat.sub_le _ _ : (b.buffer.drop n).length ≤ _).trans b.room }

def fillFrom : Nat → Buffered α Fault → Buffered α Fault
  | 0, b => { b with stop := some .noProgress, settled := by rintro ⟨⟩ }
  | tries + 1, b =>
      if b.readMore.stop.isSome ∨ b.buffer.length < b.readMore.buffer.length then b.readMore
      else fillFrom tries b.readMore

def fill (b : Buffered α Fault) : Buffered α Fault := b.fillFrom 100

structure Filled (b b' : Buffered α Fault) : Prop where
  size : b'.size = b.size
  pending : b'.pending = b.pending
  fault : b'.source.fault = b.source.fault
  kept : b.buffer.length ≤ b'.buffer.length
  progress : b'.stop = none → b.buffer.length < b'.buffer.length

theorem readMore_pending : b.readMore.pending = b.pending := by
  simp only [readMore, pending, List.append_assoc, Reads.read_content]

theorem readMore_kept : b.buffer.length ≤ b.readMore.buffer.length := by
  simp only [readMore, List.length_append]
  omega

theorem fillFrom_filled (tries : Nat) : Filled b (b.fillFrom tries) := by
  induction tries generalizing b with
  | zero => exact ⟨rfl, rfl, rfl, le_rfl, by rintro ⟨⟩⟩
  | succ tries ih =>
    simp only [fillFrom]
    split
    next done =>
      refine ⟨rfl, readMore_pending, Reads.read_fault, readMore_kept, fun more => ?_⟩
      rcases done with stopped | grown
      · simp [more] at stopped
      · exact grown
    · obtain ⟨size, pending, fault, kept, progress⟩ := ih (b := b.readMore)
      exact ⟨size, pending.trans readMore_pending, fault.trans Reads.read_fault,
        readMore_kept.trans kept, fun more => readMore_kept.trans_lt (progress more)⟩

theorem fill_filled : Filled b b.fill := fillFrom_filled 100

section Slice

variable [DecidableEq α] {delim : α}

/-- The bytes up to and with the delimiter, or the buffer when it is full or
the source has ended. -/
def readSlice (b : Buffered α Fault) (delim : α) : ReadResult α (Cut Fault) (Buffered α Fault) :=
  if delim ∈ b.buffer then
    ⟨b.buffer.take (b.buffer.idxOf delim + 1), none, b.discard (b.buffer.idxOf delim + 1)⟩
  else if b.stop.isSome then
    ⟨b.buffer, b.stop.map .stopped, (b.discard b.buffer.length).clear⟩
  else if b.size ≤ b.buffer.length then
    ⟨b.buffer, some .full, b.discard b.buffer.length⟩
  else b.fill.readSlice delim
termination_by (b.size - b.buffer.length) + (if b.stop.isSome then 0 else 1)
decreasing_by
  obtain ⟨size, -, -, kept, progress⟩ := b.fill_filled
  cases more : b.fill.stop with
  | none =>
    have grown := progress more
    simp_all
    omega
  | some reason =>
    simp_all
    omega

structure Sliced (delim : α) (b : Buffered α Fault)
    (line : ReadResult α (Cut Fault) (Buffered α Fault)) : Prop where
  pending : line.bytes ++ line.rest.pending = b.pending
  size : line.rest.size = b.size
  fault : line.rest.source.fault = b.source.fault
  whole : line.stop = none → ∃ body, line.bytes = body ++ [delim] ∧ delim ∉ body
  fragment : line.stop = some .full → line.bytes.length = b.size ∧ delim ∉ line.bytes

omit [DecidableEq α] in
theorem discard_pending {n : Nat} : b.buffer.take n ++ (b.discard n).pending = b.pending := by
  simp only [discard, pending, ← List.append_assoc, List.take_append_drop]

omit [DecidableEq α] in
theorem discardAll_pending : b.buffer ++ (b.discard b.buffer.length).pending = b.pending := by
  simp only [discard, pending, List.drop_length, List.nil_append]

theorem take_idxOf {xs : List α} (found : delim ∈ xs) :
    ∃ body, xs.take (xs.idxOf delim + 1) = body ++ [delim] ∧ delim ∉ body := by
  have bound := List.idxOf_lt_length_of_mem found
  refine ⟨xs.take (xs.idxOf delim), ?_, fun earlier => ?_⟩
  · rw [List.take_add_one, List.getElem?_eq_getElem bound, List.getElem_idxOf bound]
    rfl
  · exact lt_irrefl _ ((List.mem_take_iff_idxOf_lt found).mp earlier)

theorem readSlice_sliced : Sliced delim b (b.readSlice delim) := by
  fun_induction readSlice b delim with
  | case1 b found =>
    exact ⟨discard_pending, rfl, rfl, fun _ => take_idxOf found, by rintro ⟨⟩⟩
  | case2 b missing stopped =>
    obtain ⟨reason, stopped⟩ := Option.isSome_iff_exists.mp stopped
    refine ⟨?_, rfl, rfl, ?_, ?_⟩
    · exact discardAll_pending
    · simp [stopped]
    · simp [stopped]
  | case3 b missing more full =>
    exact ⟨discardAll_pending, rfl, rfl, by rintro ⟨⟩, fun _ => ⟨le_antisymm b.room full, missing⟩⟩
  | case4 b missing more room ih =>
    obtain ⟨pending, size, fault, whole, fragment⟩ := ih
    exact ⟨pending.trans fill_filled.pending, size.trans fill_filled.size,
      fault.trans fill_filled.fault, whole,
      fun full => ⟨(fragment full).1.trans fill_filled.size, (fragment full).2⟩⟩

end Slice

/-- At most so many bytes. A large request passes by an empty buffer. -/
def read (b : Buffered α Fault) (capacity : Nat) : ReadResult α (Stop Fault) (Buffered α Fault) :=
  if b.buffer ≠ [] then ⟨b.buffer.take capacity, none, b.discard capacity⟩
  else if b.stop.isSome then ⟨[], b.stop, b.clear⟩
  else if b.size ≤ capacity then
    ⟨(b.source.read capacity).bytes, (b.source.read capacity).stop,
      { b with source := (b.source.read capacity).rest, stop := none, settled := by rintro ⟨⟩ }⟩
  else if b.readMore.buffer = [] then ⟨[], b.readMore.stop, b.readMore.clear⟩
  else ⟨b.readMore.buffer.take capacity, none, b.readMore.discard capacity⟩

structure Fetched (capacity : Nat) (b : Buffered α Fault)
    (taken : ReadResult α (Stop Fault) (Buffered α Fault)) : Prop where
  pending : taken.bytes ++ taken.rest.pending = b.pending
  fault : taken.rest.source.fault = b.source.fault
  ended : taken.stop = some .eof → taken.rest.pending = [] ∧ taken.rest.source.fault = none
  bound : taken.bytes.length ≤ capacity
  shrinks : taken.stop = none → taken.rest.weight < b.weight

theorem discard_weight {n : Nat} (positive : 0 < n) (present : b.buffer ≠ []) :
    (b.discard n).weight < b.weight := by
  have occupied := List.length_pos_iff.mpr present
  simp only [discard, weight, List.length_drop]
  omega

theorem readMore_weight (empty : b.buffer = []) : b.readMore.weight ≤ b.weight := by
  have bounded : (b.source.read b.size).bytes.length + (b.source.read b.size).rest.weight ≤
      b.source.weight := (Reads.read_weight b.positive).1
  simp only [readMore, weight, empty, List.nil_append, List.length_nil, Nat.sub_zero]
  omega

theorem read_fetched {capacity : Nat} (positive : 0 < capacity) :
    Fetched capacity b (b.read capacity) := by
  unfold read
  split
  next present =>
    exact ⟨discard_pending, rfl, by rintro ⟨⟩, List.length_take_le _ _,
      fun _ => discard_weight positive present⟩
  next absent =>
    have empty : b.buffer = [] := not_not.mp absent
    split
    next stopped =>
      refine ⟨rfl, rfl, fun ended => ?_, Nat.zero_le _, fun more => ?_⟩
      rotate_left
      · exact absurd more (Option.isSome_iff_ne_none.mp stopped)
      simp only [clear, pending, empty, List.nil_append]
      exact b.settled ended
    next more =>
      split
      · refine ⟨?_, Reads.read_fault, fun ended => ?_, Reads.read_length, fun goes => ?_⟩
        · simp only [pending, empty, List.nil_append, Reads.read_content]
        · simp only [pending, empty, List.nil_append]
          exact Reads.read_eof ended
        · simp only [weight, empty, List.length_nil, Nat.zero_add]
          exact (Reads.read_weight positive).2 goes
      · split
        next nothing =>
          refine ⟨readMore_pending, Reads.read_fault, fun ended => ?_, Nat.zero_le _,
            fun goes => ?_⟩
          · simp only [clear, pending, nothing, List.nil_append]
            exact b.readMore.settled ended
          · have shrinks : b.readMore.source.weight < b.source.weight :=
              (Reads.read_weight (by simpa [empty] using b.positive)).2 goes
            simpa only [clear, weight, nothing, empty, List.length_nil, Nat.zero_add] using shrinks
        next something =>
          exact ⟨discard_pending.trans readMore_pending, Reads.read_fault, by rintro ⟨⟩,
            List.length_take_le _ _,
            fun _ => (discard_weight positive something).trans_le (readMore_weight empty)⟩

end Buffered
