import Mathlib.Data.Set.Image
import RelayTale.Foundation.Guard
import RelayTale.Foundation.Regions

/-!
# Programs out of parts

Checks that can fail, rows that are locked and then read, and the program of one
component run on the store of a larger system. An embedded program runs as it
does alone on its part of the store and leaves the rest of it as it is.
-/

namespace Locking

section Statements

variable {Object α : Type} {Value : Object → Type}

namespace Program

def check (condition : Bool) (next : Program Value) : Program Value :=
  if condition then next else .abort

def ifSome (found : Option α) (next : α → Program Value) : Program Value :=
  match found with
  | some value => next value
  | none => .abort

def ifOk {Refusal : Type} (result : Except Refusal α) (next : α → Program Value) : Program Value :=
  ifSome result.toOption next

def select (object : Object) (mode : Mode) (next : Value object → Program Value) : Program Value :=
  .acquire object mode (.read object next)

/-- `SELECT ... FOR UPDATE` of a row that has to be there. -/
def lockRow (object : Object) (row : Value object → Option α) (next : α → Program Value) :
    Program Value :=
  select object .exclusive fun value => ifSome (row value) next

/-- `SELECT ... FOR UPDATE SKIP LOCKED` of a row: it is found by a snapshot and
locked if it is free. -/
def selectRow (object : Object) (row : Value object → Option α)
    (next : Store Value → α → α → Program Value) : Program Value :=
  .snapshot fun view => ifSome (row (view object)) fun old =>
    .tryAcquire object .exclusive (.read object fun value => ifSome (row value) (next view old))
      .abort

variable {held final : Set (Object × Mode)} {store : Store Value} {known : Store Value → Prop}
variable {shows : Visibility Value}
variable {seen : List (Store Value)} {writes : List (Sigma Value)}
variable {object : Object} {mode : Mode} {found : Option α} {row : Value object → Option α}
variable {next : α → Program Value} {Refusal : Type} {result : Except Refusal α} {condition : Bool}

theorem Guarded.mono {program : Program Value} {more : Set (Object × Mode)}
    (guarded : program.Guarded held) (subset : held ⊆ more) : program.Guarded more := by
  induction program generalizing held more with
  | commit writes => exact fun write member => subset (guarded write member)
  | abort => trivial
  | acquire object mode next ih => exact ih guarded (Set.insert_subset_insert subset)
  | tryAcquire object mode next skip ih ih' =>
    exact ⟨ih guarded.1 (Set.insert_subset_insert subset), ih' guarded.2 subset⟩
  | read object next ih =>
    obtain ⟨⟨mode, inside⟩, later⟩ := guarded
    exact ⟨⟨mode, subset inside⟩, fun value => ih value (later value) subset⟩
  | snapshot next ih => exact fun view => ih view (guarded view) subset

theorem check_guarded {next : Program Value} (guarded : next.Guarded held) :
    (check condition next).Guarded held := by
  cases condition with
  | true => exact guarded
  | false => trivial

theorem ifSome_guarded (guarded : ∀ value, (next value).Guarded held) :
    (ifSome found next).Guarded held := by
  cases found with
  | some value => exact guarded value
  | none => trivial

theorem ifOk_guarded (guarded : ∀ value, (next value).Guarded held) :
    (ifOk result next).Guarded held :=
  ifSome_guarded guarded

theorem select_guarded {next : Value object → Program Value}
    (guarded : ∀ value, (next value).Guarded (insert (object, mode) held)) :
    (select object mode next).Guarded held :=
  ⟨⟨mode, Set.mem_insert _ _⟩, guarded⟩

theorem lockRow_guarded
    (guarded : ∀ value, (next value).Guarded (insert (object, .exclusive) held)) :
    (lockRow object row next).Guarded held :=
  select_guarded fun _ => ifSome_guarded guarded

theorem selectRow_guarded {next : Store Value → α → α → Program Value}
    (guarded : ∀ view old value, (next view old value).Guarded (insert (object, .exclusive) held)) :
    (selectRow object row next).Guarded held :=
  fun view => ifSome_guarded fun old =>
    ⟨⟨⟨.exclusive, Set.mem_insert _ _⟩, fun _ => ifSome_guarded (guarded view old)⟩, trivial⟩

@[simp] theorem check_runs {next : Program Value} :
    (check condition next).Runs shows store known held seen writes final ↔
      condition = true ∧ next.Runs shows store known held seen writes final := by
  cases condition <;> simp [check, Runs]

section Guards

variable {Refusal Result Final : Type}

/-- A guarded computation inside a program, check by check. -/
theorem ifSome_require {holds : Prop} [Decidable holds] {refusal : Refusal}
    {rest : PUnit → Except Refusal Final} {next : Final → Program Value} :
    ifSome (Guard.require holds refusal >>= rest).toOption next =
      check (decide holds) (ifSome (rest ⟨⟩).toOption next) := by
  by_cases passes : holds <;>
    simp [Guard.require, check, passes, bind, Except.bind, Except.toOption, ifSome]

theorem ifSome_demand {found : Option Result} {refusal : Refusal}
    {rest : Result → Except Refusal Final} {next : Final → Program Value} :
    ifSome (Guard.demand found refusal >>= rest).toOption next =
      ifSome found fun value => ifSome (rest value).toOption next := by
  cases found <;> simp [Guard.demand, bind, Except.bind, Except.toOption, ifSome]

end Guards

@[simp] theorem ifSome_runs :
    (ifSome found next).Runs shows store known held seen writes final ↔
      ∃ value, found = some value ∧ (next value).Runs shows store known held seen writes final := by
  cases found <;> simp [ifSome, Runs]

@[simp] theorem ifOk_runs :
    (ifOk result next).Runs shows store known held seen writes final ↔
      ∃ value, result = .ok value ∧ (next value).Runs shows store known held seen writes final := by
  cases result <;> simp [ifOk, Except.toOption]

theorem lockRow_runs :
    (lockRow object row next).Runs shows store known held seen writes final ↔
      ∃ value, row (store object) = some value ∧
        (next value).Runs shows store known (insert (object, .exclusive) held) seen writes final :=
  ifSome_runs

theorem selectRow_runs {next : Store Value → α → α → Program Value}
    (runs : (selectRow object row next).Runs shows store known held seen writes final) :
    ∃ view later old value, ∃ known' : Store Value → Prop, seen = view :: later ∧
      row (view object) = some old ∧ row (store object) = some value ∧
      (next view old value).Runs shows store known' (insert (object, .exclusive) held) later writes
        final := by
  obtain ⟨view, later, rfl, -, -, runs⟩ := runs
  obtain ⟨old, read, runs⟩ := ifSome_runs.mp runs
  obtain ⟨value, found, runs⟩ := ifSome_runs.mp (runs.resolve_right fun aborted => aborted)
  exact ⟨view, later, old, value, _, rfl, read, found, runs⟩

@[simp] theorem ifOk_yields :
    (ifOk result next).Yields store seen writes ↔
      ∃ value, result = .ok value ∧ (next value).Yields store seen writes := by
  cases result <;> simp [ifOk, ifSome, Except.toOption, Yields]

theorem check_yields {next : Program Value} :
    (check condition next).Yields store seen writes ↔
      condition = true ∧ next.Yields store seen writes := by
  cases condition <;> simp [check, Yields]

theorem select_yields {next : Value object → Program Value} :
    (select object mode next).Yields store seen writes ↔
      (next (store object)).Yields store seen writes :=
  Iff.rfl

theorem ifSome_yields :
    (ifSome found next).Yields store seen writes ↔
      ∃ value, found = some value ∧ (next value).Yields store seen writes := by
  cases found <;> simp [ifSome, Yields]

theorem lockRow_yields :
    (lockRow object row next).Yields store seen writes ↔
      ∃ value, row (store object) = some value ∧ (next value).Yields store seen writes :=
  ifSome_yields

theorem selectRow_yields {next : Store Value → α → α → Program Value}
    (yields : (selectRow object row next).Yields store seen writes) :
    ∃ view later old value, seen = view :: later ∧ row (view object) = some old ∧
      row (store object) = some value ∧ (next view old value).Yields store later writes := by
  obtain ⟨final, runs⟩ := yields.runs (fun _ => True.intro) ∅
  obtain ⟨view, later, old, value, _, rfl, read, found, runs⟩ := selectRow_runs runs
  exact ⟨view, later, old, value, rfl, read, found, runs.yields⟩

theorem acquire_runs {next : Program Value} :
    (acquire object mode next).Runs shows store known held seen writes final ↔
      next.Runs shows store known (insert (object, mode) held) seen writes final :=
  Iff.rfl

theorem select_runs {next : Value object → Program Value} :
    (select object mode next).Runs shows store known held seen writes final ↔
      (next (store object)).Runs shows store known (insert (object, mode) held) seen writes final :=
  Iff.rfl

end Program

end Statements

section Skipping

variable {Object : Type} {Value : Object → Type}

namespace Program

/-- `FOR UPDATE SKIP LOCKED LIMIT limit`: the first objects that can be locked and are
acceptable as they are then. -/
def skipLocked (accept : Sigma Value → Bool) (limit : Nat)
    (next : List (Sigma Value) → Program Value) : List Object → List (Sigma Value) → Program Value
  | [], taken => next taken
  | object :: rest, taken =>
      if taken.length = limit then next taken
      else
        .tryAcquire object .exclusive
          (.read object fun value => skipLocked accept limit next rest
            (if accept ⟨object, value⟩ then taken ++ [⟨object, value⟩] else taken))
          (skipLocked accept limit next rest taken)

variable {accept : Sigma Value → Bool} {limit : Nat} {next : List (Sigma Value) → Program Value}
variable {objects : List Object} {taken : List (Sigma Value)}

theorem skipLocked_guarded {held : Set (Object × Mode)}
    (locked : ∀ row ∈ taken, (row.1, Mode.exclusive) ∈ held)
    (guarded : ∀ final more, held ⊆ more → (∀ row ∈ final, (row.1, Mode.exclusive) ∈ more) →
      (next final).Guarded more) : (skipLocked accept limit next objects taken).Guarded held := by
  induction objects generalizing taken held with
  | nil => exact guarded taken held subset_rfl locked
  | cons object rest ih =>
    unfold skipLocked
    split
    · exact guarded taken held subset_rfl locked
    · have more : held ⊆ insert (object, Mode.exclusive) held := Set.subset_insert _ _
      refine ⟨⟨⟨_, Set.mem_insert _ _⟩, fun value => ih ?_ fun final larger subset =>
        guarded final larger (more.trans subset)⟩, ih locked guarded⟩
      intro row member
      split at member
      · rcases List.mem_append.mp member with old | new
        · exact more (locked row old)
        · obtain rfl := List.mem_singleton.mp new
          exact Set.mem_insert _ _
      · exact more (locked row member)

/-- What was taken is acceptable as the store has it. -/
theorem skipLocked_yields {store : Store Value} {seen : List (Store Value)}
    {writes : List (Sigma Value)}
    (yields : (skipLocked accept limit next objects taken).Yields store seen writes) :
    ∃ final, (next final).Yields store seen writes ∧
      ∀ row ∈ final, row ∈ taken ∨ row.2 = store row.1 ∧ accept row = true ∧ row.1 ∈ objects := by
  induction objects generalizing taken with
  | nil => exact ⟨taken, yields, fun row member => .inl member⟩
  | cons object rest ih =>
    unfold skipLocked at yields
    split at yields
    · exact ⟨taken, yields, fun row member => .inl member⟩
    · rcases yields with granted | skipped
      · obtain ⟨final, yields, rows⟩ := ih granted
        refine ⟨final, yields, fun row member => ?_⟩
        rcases rows row member with known | ⟨value, accepted, inside⟩
        · split at known
          next accepted =>
            rcases List.mem_append.mp known with old | new
            · exact .inl old
            · obtain rfl := List.mem_singleton.mp new
              exact .inr ⟨rfl, accepted, List.mem_cons_self⟩
          · exact .inl known
        · exact .inr ⟨value, accepted, List.mem_cons_of_mem _ inside⟩
      · obtain ⟨final, yields, rows⟩ := ih skipped
        refine ⟨final, yields, fun row member => ?_⟩
        exact (rows row member).imp_right fun ⟨value, accepted, inside⟩ =>
          ⟨value, accepted, List.mem_cons_of_mem _ inside⟩

end Program

end Skipping

section Candidates

variable {Object Key Row : Type} {Value : Object → Type}

/-- A row that a selection has locked, as its snapshot and as the lock found it. -/
structure Candidate (Key Row : Type) where
  id : Key
  old : Row
  current : Row

namespace Program

variable (object : Key → Object) (row : ∀ key, Value (object key) → Option Row)

/-- `SELECT ... FOR UPDATE SKIP LOCKED`, once its snapshot is taken. -/
def lockCandidates (view : Store Value) :
    List Key → (List (Candidate Key Row) → Program Value) → Program Value
  | [], next => next []
  | key :: rest, next =>
      match row key (view (object key)) with
      | none => lockCandidates view rest next
      | some old =>
          .tryAcquire (object key) .exclusive
            (.read (object key) fun found =>
              match row key found with
              | none => lockCandidates view rest next
              | some current =>
                  lockCandidates view rest fun others => next (⟨key, old, current⟩ :: others))
            (lockCandidates view rest next)

variable {object row} {view : Store Value} {keys : List Key}
variable {next : List (Candidate Key Row) → Program Value} {held final : Set (Object × Mode)}
variable {store : Store Value} {known : Store Value → Prop} {seen : List (Store Value)}
variable {shows : Visibility Value}
variable {writes : List (Sigma Value)}

theorem lockCandidates_guarded
    (guarded : ∀ found more, held ⊆ more →
      (∀ x ∈ found, (object x.id, Mode.exclusive) ∈ more) → (next found).Guarded more) :
    (lockCandidates object row view keys next).Guarded held := by
  induction keys generalizing next held with
  | nil => exact guarded [] held subset_rfl (by simp)
  | cons key rest ih =>
    unfold lockCandidates
    have granted : held ⊆ insert (object key, .exclusive) held := Set.subset_insert _ _
    split
    · exact ih guarded
    · refine ⟨⟨⟨.exclusive, Set.mem_insert _ _⟩, fun found => ?_⟩, ih guarded⟩
      dsimp only
      split
      · exact ih fun found more subset => guarded found more (granted.trans subset)
      · refine ih fun others more subset locked => guarded _ more (granted.trans subset) ?_
        exact List.forall_mem_cons.mpr ⟨subset (Set.mem_insert _ _), locked⟩

theorem lockCandidates_runs
    (runs : (lockCandidates object row view keys next).Runs shows store known held seen writes
      final) :
    ∃ found more, (next found).Runs shows store known more seen writes final ∧ held ⊆ more ∧
      List.Sublist (found.map (·.id)) keys ∧ ∀ x ∈ found, (object x.id, Mode.exclusive) ∈ more ∧
        row x.id (view (object x.id)) = some x.old ∧
        row x.id (store (object x.id)) = some x.current := by
  induction keys generalizing next held with
  | nil => exact ⟨[], held, runs, subset_rfl, .slnil, by simp⟩
  | cons key rest ih =>
    have granted : held ⊆ insert (object key, .exclusive) held := Set.subset_insert _ _
    unfold lockCandidates at runs
    split at runs
    · obtain ⟨found, more, continues, subset, sublist, read⟩ := ih runs
      exact ⟨found, more, continues, subset, sublist.cons key, read⟩
    next old selected =>
      rcases runs with runs | runs
      · simp only [Runs] at runs
        split at runs
        · obtain ⟨found, more, continues, subset, sublist, read⟩ := ih runs
          exact ⟨found, more, continues, granted.trans subset, sublist.cons key, read⟩
        next current locked =>
          obtain ⟨others, more, continues, subset, sublist, read⟩ := ih runs
          exact ⟨⟨key, old, current⟩ :: others, more, continues, granted.trans subset,
            sublist.cons_cons key, List.forall_mem_cons.mpr
              ⟨⟨subset (Set.mem_insert _ _), selected, locked⟩, read⟩⟩
      · obtain ⟨found, more, continues, subset, sublist, read⟩ := ih runs
        exact ⟨found, more, continues, subset, sublist.cons key, read⟩

theorem lockCandidates_yields
    (yields : (lockCandidates object row view keys next).Yields store seen writes) :
    ∃ found, (next found).Yields store seen writes ∧ List.Sublist (found.map (·.id)) keys ∧
      ∀ x ∈ found, row x.id (view (object x.id)) = some x.old ∧
        row x.id (store (object x.id)) = some x.current := by
  obtain ⟨final, runs⟩ := yields.runs (fun _ => True.intro) ∅
  obtain ⟨found, more, continues, -, sublist, read⟩ := lockCandidates_runs runs
  exact ⟨found, continues.yields, sublist, fun x inside => (read x inside).2⟩

end Program

end Candidates

section Embedding

variable {Inner Object : Type} {Value : Object → Type} (place : Inner → Object)

abbrev Store.part (store : Store Value) : Store fun inner => Value (place inner) :=
  fun inner => store (place inner)

def placed (write : Sigma fun inner => Value (place inner)) : Sigma Value :=
  ⟨place write.1, write.2⟩

def Program.embed : Program (fun inner => Value (place inner)) → Program Value
  | .commit writes => .commit (writes.map (placed place))
  | .abort => .abort
  | .acquire object mode next => .acquire (place object) mode next.embed
  | .tryAcquire object mode next skip => .tryAcquire (place object) mode next.embed skip.embed
  | .read object next => .read (place object) fun value => (next value).embed
  | .snapshot next => .snapshot fun view => (next (Store.part place view)).embed

variable {place} {program : Program fun inner => Value (place inner)}

theorem embed_guarded {held : Set (Inner × Mode)} (guarded : program.Guarded held) :
    (program.embed place).Guarded ((fun lock => (place lock.1, lock.2)) '' held) := by
  induction program generalizing held with
  | commit writes =>
    intro write member
    obtain ⟨inner, inside, rfl⟩ := List.mem_map.mp member
    exact ⟨_, guarded inner inside, rfl⟩
  | abort => trivial
  | acquire object mode next ih =>
    have next := ih guarded
    rwa [Set.image_insert_eq] at next
  | tryAcquire object mode next skip ih ih' =>
    have granted := ih guarded.1
    rw [Set.image_insert_eq] at granted
    exact ⟨granted, ih' guarded.2⟩
  | read object next ih =>
    obtain ⟨⟨mode, inside⟩, later⟩ := guarded
    exact ⟨⟨mode, _, inside, rfl⟩, fun value => ih value (later value)⟩
  | snapshot next ih => exact fun view => ih _ (guarded _)

theorem embed_guarded_empty (guarded : program.Guarded ∅) : (program.embed place).Guarded ∅ := by
  have embedded := embed_guarded guarded
  rwa [Set.image_empty] at embedded

theorem embed_runs {shows : Visibility Value}
    {store : Store Value} {known : Store Value → Prop} {held final : Set (Object × Mode)}
    {seen : List (Store Value)} {writes : List (Sigma Value)}
    (runs : (program.embed place).Runs shows store known held seen writes final) :
    ∃ inner, writes = inner.map (placed place) ∧
      program.Yields (Store.part place store) (seen.map (Store.part place)) inner := by
  induction program generalizing known held seen with
  | commit done =>
    obtain ⟨rfl, rfl, -⟩ := runs
    exact ⟨done, rfl, rfl, rfl⟩
  | abort => cases runs
  | acquire object mode next ih => exact ih runs
  | tryAcquire object mode next skip ih ih' =>
    rcases runs with runs | runs
    · obtain ⟨inner, same, yields⟩ := ih runs
      exact ⟨inner, same, .inl yields⟩
    · obtain ⟨inner, same, yields⟩ := ih' runs
      exact ⟨inner, same, .inr yields⟩
  | read object next ih => exact ih _ runs
  | snapshot next ih =>
    obtain ⟨view, later, rfl, -, -, runs⟩ := runs
    obtain ⟨inner, same, yields⟩ := ih _ runs
    exact ⟨inner, same, _, _, rfl, yields⟩

variable [DecidableEq Inner] [DecidableEq Object]

theorem part_write (injective : Function.Injective place) (store : Store Value)
    (inner : List (Sigma fun inner => Value (place inner))) :
    Store.part place (store.write (inner.map (placed place))) =
      (Store.part place store).write inner := by
  induction inner generalizing store with
  | nil => rfl
  | cons write rest ih =>
    refine (ih _).trans (congrArg (Store.write · rest) ?_)
    funext object
    change Function.update store (place write.1) write.2 (place object) =
      Function.update (Store.part place store) write.1 write.2 object
    by_cases same : object = write.1
    · subst same
      rw [Function.update_self, Function.update_self]
    · have apart : place object ≠ place write.1 := fun equal => same (injective equal)
      rw [Function.update_of_ne apart, Function.update_of_ne same]

omit [DecidableEq Inner] in
theorem embed_other (store : Store Value)
    (inner : List (Sigma fun inner => Value (place inner))) {object : Object}
    (outside : ∀ part, place part ≠ object) :
    store.write (inner.map (placed place)) object = store object := by
  refine write_other fun write member => ?_
  obtain ⟨own, -, rfl⟩ := List.mem_map.mp member
  exact outside own.1

/-- Of all writes a component sees its own. -/
theorem part_write_append (injective : Function.Injective place) (store : Store Value)
    {others : List (Sigma Value)} (outside : ∀ write ∈ others, ∀ part, place part ≠ write.1)
    (inner : List (Sigma fun inner => Value (place inner))) :
    Store.part place (store.write (others ++ inner.map (placed place))) =
      (Store.part place store).write inner := by
  have unchanged : Store.part place (store.write others) = Store.part place store := by
    funext part
    exact write_other fun write member same => outside write member part same.symm
  rw [← unchanged, ← part_write injective]
  exact congrArg (Store.part place) (List.foldl_append)

end Embedding

end Locking
