import Mathlib.Data.List.Induction
import Mathlib.Data.Set.Insert
import Mathlib.Logic.Function.Basic

/-!
# Interleaved transactions

A transaction is a program whose statements take locks, read committed values
and at last commit all writes at once. Locks are kept to the end of the
transaction, so a program that reads under locks and writes under exclusive
ones commits what it would commit if it ran alone at that moment. Only what it
took from a snapshot may be older.
-/

namespace Locking

inductive Mode
  | shared
  | exclusive
  deriving DecidableEq, Repr

def Mode.compatible (mode other : Mode) : Bool := mode = .shared && other = .shared

section Programs

variable {Object : Type}

abbrev Store (Value : Object → Type) := (object : Object) → Value object

/-- `acquire` waits for the lock, `tryAcquire` goes on without it. A `read` is
meant for locked objects; a `snapshot` is the unlocked view of one statement. -/
inductive Program (Value : Object → Type)
  | commit (writes : List (Sigma Value))
  | abort
  | acquire (object : Object) (mode : Mode) (next : Program Value)
  | tryAcquire (object : Object) (mode : Mode) (next skip : Program Value)
  | read (object : Object) (next : Value object → Program Value)
  | snapshot (next : Store Value → Program Value)

variable {Value : Object → Type}

section Write

variable [DecidableEq Object]

def Store.write (store : Store Value) (writes : List (Sigma Value)) : Store Value :=
  writes.foldl (fun store write => Function.update store write.1 write.2) store

theorem write_other {store : Store Value} {writes : List (Sigma Value)} {object : Object}
    (other : ∀ write ∈ writes, write.1 ≠ object) : store.write writes object = store object := by
  induction writes generalizing store with
  | nil => rfl
  | cons write rest ih =>
    obtain ⟨different, others⟩ := List.forall_mem_cons.mp other
    exact (ih others).trans (Function.update_of_ne (Ne.symm different) _ _)

theorem write_mem {store : Store Value} {writes : List (Sigma Value)} {object : Object}
    {value : Value object} (distinct : (writes.map Sigma.fst).Nodup)
    (member : ⟨object, value⟩ ∈ writes) : store.write writes object = value := by
  induction writes generalizing store with
  | nil => cases member
  | cons write rest ih =>
    rw [List.map_cons, List.nodup_cons] at distinct
    rcases List.mem_cons.mp member with rfl | later
    · have others : ∀ write ∈ rest, write.1 ≠ object := by
        rintro write inside rfl
        exact distinct.1 (List.mem_map.mpr ⟨write, inside, rfl⟩)
      exact (write_other others).trans (Function.update_self object value store)
    · exact ih distinct.2 later

end Write

namespace Program

/-- Running alone on the store the program can commit the writes, when its
snapshots are the given ones. -/
def Yields (store : Store Value) :
    Program Value → List (Store Value) → List (Sigma Value) → Prop
  | .commit writes, seen, result => seen = [] ∧ result = writes
  | .abort, _, _ => False
  | .acquire _ _ next, seen, result => next.Yields store seen result
  | .tryAcquire _ _ next skip, seen, result =>
      next.Yields store seen result ∨ skip.Yields store seen result
  | .read object next, seen, result => (next (store object)).Yields store seen result
  | .snapshot next, seen, result =>
      ∃ view later, seen = view :: later ∧ (next view).Yields store later result

/-- With these locks held, the program reads only what it has locked and writes
only what it has locked exclusively. -/
def Guarded : Program Value → Set (Object × Mode) → Prop
  | .commit writes, held => ∀ write ∈ writes, (write.1, Mode.exclusive) ∈ held
  | .abort, _ => True
  | .acquire object mode next, held => next.Guarded (insert (object, mode) held)
  | .tryAcquire object mode next skip, held =>
      next.Guarded (insert (object, mode) held) ∧ skip.Guarded held
  | .read object next, held =>
      (∃ mode, (object, mode) ∈ held) ∧ ∀ value, (next value).Guarded held
  | .snapshot next, held => ∀ view, (next view).Guarded held

end Program

end Programs

section Configurations

variable {Object : Type} (Request : Type) (Value : Object → Type)

structure Transaction where
  request : Request
  rest : Program Value
  seen : List (Store Value) := []

/-- A committed transaction with the store that it found. -/
structure Committed where
  request : Request
  seen : List (Store Value)
  before : Store Value
  writes : List (Sigma Value)

structure Config : Type where
  store : Store Value
  active : Nat → Option (Transaction Request Value) := fun _ => none
  holders : Object → List (Nat × Mode) := fun _ => []
  log : List (Committed Request Value) := []

inductive Event
  | start (t : Nat) (request : Request)
  | advance (t : Nat)
  | rollback (t : Nat)

variable {Request Value} [DecidableEq Object]

def alone (t : Nat) (request : Request) (statements : Nat) : List (Event Request) :=
  .start t request :: List.replicate statements (.advance t)

def Committed.after (entry : Committed Request Value) : Store Value :=
  entry.before.write entry.writes

namespace Config

variable (t : Nat) (object : Object) (mode : Mode)

def held (c : Config Request Value) : Set (Object × Mode) :=
  { lock | (t, lock.2) ∈ c.holders lock.1 }

def grants (c : Config Request Value) : Bool :=
  (c.holders object).all fun holder => holder.1 = t || mode.compatible holder.2

def lock (c : Config Request Value) : Config Request Value :=
  { c with holders := Function.update c.holders object ((t, mode) :: c.holders object) }

def resume (tx : Transaction Request Value) (c : Config Request Value) : Config Request Value :=
  { c with active := Function.update c.active t (some tx) }

def leave (c : Config Request Value) : Config Request Value :=
  { c with
    active := Function.update c.active t none
    holders := fun object => (c.holders object).filter fun holder => holder.1 ≠ t }

def commit (tx : Transaction Request Value) (writes : List (Sigma Value))
    (c : Config Request Value) : Config Request Value :=
  let entry : Committed Request Value :=
    { request := tx.request, seen := tx.seen, before := c.store, writes }
  { c with store := entry.after, log := c.log ++ [entry] }.leave t

def advance (tx : Transaction Request Value) (c : Config Request Value) : Config Request Value :=
  match tx.rest with
  | .commit writes => c.commit t tx writes
  | .abort => c.leave t
  | .acquire object mode next =>
      if c.grants t object mode then (c.lock t object mode).resume t { tx with rest := next }
      else c
  | .tryAcquire object mode next skip =>
      if c.grants t object mode then (c.lock t object mode).resume t { tx with rest := next }
      else c.resume t { tx with rest := skip }
  | .read object next => c.resume t { tx with rest := next (c.store object) }
  | .snapshot next =>
      c.resume t { tx with rest := next c.store, seen := tx.seen ++ [c.store] }

variable (program : Request → Program Value)

def step (c : Config Request Value) : Event Request → Config Request Value
  | .start t request =>
      match c.active t with
      | some _ => c
      | none => c.resume t { request, rest := program request }
  | .advance t =>
      match c.active t with
      | some tx => c.advance t tx
      | none => c
  | .rollback t => c.leave t

def run (c : Config Request Value) (events : List (Event Request)) : Config Request Value :=
  events.foldl (step program) c

end Config

end Configurations

section Locks

variable {Object Request : Type} {Value : Object → Type}

/-- On every store that agrees with the locked objects, what is left of the
transaction completes a run of its program. -/
def Replays (program : Request → Program Value) (store : Store Value)
    (held : Set (Object × Mode)) (tx : Transaction Request Value) : Prop :=
  ∀ other : Store Value, (∀ lock ∈ held, other lock.1 = store lock.1) → ∀ later writes,
    tx.rest.Yields other later writes → (program tx.request).Yields other (tx.seen ++ later) writes

structure Locked (program : Request → Program Value) (c : Config Request Value) : Prop where
  alone : ∀ {object holder other}, holder ∈ c.holders object → other ∈ c.holders object →
    holder.1 = other.1 ∨ holder.2 = .shared ∧ other.2 = .shared
  owned : ∀ {t}, c.active t = none → c.held t = ∅
  guarded : ∀ {t tx}, c.active t = some tx → tx.rest.Guarded (c.held t)
  replays : ∀ {t tx}, c.active t = some tx → Replays program c.store (c.held t) tx

variable {program : Request → Program Value} {c c' : Config Request Value} {t other : Nat}
variable {tx : Transaction Request Value} {object : Object} {mode : Mode}

theorem held_leave_self : (c.leave t).held t = ∅ := by
  ext lock
  simp [Config.held, Config.leave]

theorem held_leave_other (different : other ≠ t) : (c.leave t).held other = c.held other := by
  ext lock
  simp [Config.held, Config.leave, different]

theorem Replays.weaken {store : Store Value} {held more : Set (Object × Mode)}
    (replays : Replays program store held tx) (subset : held ⊆ more) :
    Replays program store more tx :=
  fun view agrees => replays view fun lock inside => agrees lock (subset inside)

/-- A step of one transaction leaves the place and the locks of the others alone. -/
structure Apart (t : Nat) (c c' : Config Request Value) : Prop where
  active : ∀ other, other ≠ t → c'.active other = c.active other
  held : ∀ other, other ≠ t → c'.held other = c.held other

theorem apart_leave (c : Config Request Value) (t : Nat) : Apart t c (c.leave t) where
  active _ different := Function.update_of_ne different _ _
  held _ different := held_leave_other different

theorem apart_resume (c : Config Request Value) (t : Nat) (tx : Transaction Request Value) :
    Apart t c (c.resume t tx) where
  active _ different := Function.update_of_ne different _ _
  held _ _ := rfl

theorem Locked.of_apart (locked : Locked program c) (apart : Apart t c c')
    (store : c'.store = c.store)
    (alone : ∀ {object holder other}, holder ∈ c'.holders object → other ∈ c'.holders object →
      holder.1 = other.1 ∨ holder.2 = .shared ∧ other.2 = .shared)
    (idle : c'.active t = none → c'.held t = ∅)
    (own : ∀ tx, c'.active t = some tx →
      tx.rest.Guarded (c'.held t) ∧ Replays program c.store (c'.held t) tx) :
    Locked program c' := by
  have others {other : Nat} {tx : Transaction Request Value} (running : c'.active other = some tx) :
      tx.rest.Guarded (c'.held other) ∧ Replays program c.store (c'.held other) tx := by
    by_cases same : other = t
    · subst same
      exact own tx running
    · rw [apart.active other same] at running
      rw [apart.held other same]
      exact ⟨locked.guarded running, locked.replays running⟩
  refine ⟨alone, fun {other} free => ?_, fun running => (others running).1,
    fun running => store ▸ (others running).2⟩
  by_cases same : other = t
  · subst same
    exact idle free
  · rw [apart.held other same]
    exact locked.owned (apart.active other same ▸ free)

theorem Locked.leave (locked : Locked program c) (t : Nat) : Locked program (c.leave t) := by
  refine locked.of_apart (apart_leave c t) rfl (fun member member' => ?_)
    (fun _ => held_leave_self) fun tx running => ?_
  · exact locked.alone (List.mem_filter.mp member).1 (List.mem_filter.mp member').1
  · simp [Config.leave] at running

theorem Locked.resume (locked : Locked program c) (guarded : tx.rest.Guarded (c.held t))
    (replays : Replays program c.store (c.held t) tx) : Locked program (c.resume t tx) := by
  refine locked.of_apart (apart_resume c t tx) rfl locked.alone (fun idle => ?_) fun tx' running => ?_
  · simp [Config.resume] at idle
  · obtain rfl : tx = tx' := by simpa [Config.resume] using running
    exact ⟨guarded, replays⟩

/-- At the moment of its commit a transaction does what its program would do alone. -/
theorem Locked.yields (locked : Locked program c) (running : c.active t = some tx)
    {writes : List (Sigma Value)} (last : tx.rest = .commit writes) :
    (program tx.request).Yields c.store tx.seen writes := by
  have done : tx.rest.Yields c.store [] writes := by
    rw [last]
    exact ⟨rfl, rfl⟩
  simpa using locked.replays running c.store (fun _ _ => rfl) [] writes done

variable [DecidableEq Object]

theorem held_lock_self :
    (c.lock t object mode).held t = insert (object, mode) (c.held t) := by
  ext ⟨target, wanted⟩
  by_cases same : target = object
  · subst same
    simp [Config.held, Config.lock]
  · simp [Config.held, Config.lock, same]

theorem held_lock_other (different : other ≠ t) :
    (c.lock t object mode).held other = c.held other := by
  ext ⟨target, wanted⟩
  by_cases same : target = object
  · subst same
    simp [Config.held, Config.lock, different]
  · simp [Config.held, Config.lock, same]

theorem apart_grant (c : Config Request Value) (t : Nat) (object : Object) (mode : Mode)
    (tx : Transaction Request Value) : Apart t c ((c.lock t object mode).resume t tx) where
  active _ different := Function.update_of_ne different _ _
  held _ different := held_lock_other different

theorem Locked.grant (locked : Locked program c) (granted : c.grants t object mode = true)
    (guarded : tx.rest.Guarded (insert (object, mode) (c.held t)))
    (replays : Replays program c.store (c.held t) tx) :
    Locked program ((c.lock t object mode).resume t tx) := by
  have free {holder : Nat × Mode} (member : holder ∈ c.holders object) :
      holder.1 = t ∨ mode = .shared ∧ holder.2 = .shared := by
    have compatible := List.all_eq_true.mp granted holder member
    simpa [Mode.compatible] using compatible
  refine locked.of_apart (apart_grant c t object mode tx) rfl
    (fun {target holder other} member member' => ?_) (fun idle => ?_) fun tx' running => ?_
  · by_cases same : target = object
    · subst same
      simp only [Config.resume, Config.lock, Function.update_self, List.mem_cons] at member member'
      rcases member with rfl | old <;> rcases member' with rfl | old'
      · exact .inl rfl
      · exact (free old').imp Eq.symm id
      · exact (free old).imp id And.symm
      · exact locked.alone old old'
    · simp only [Config.resume, Config.lock, Function.update_of_ne same] at member member'
      exact locked.alone member member'
  · simp [Config.resume] at idle
  · obtain rfl : tx = tx' := by simpa [Config.resume] using running
    rw [show ((c.lock t object mode).resume t tx).held t = insert (object, mode) (c.held t) from
      held_lock_self]
    exact ⟨guarded, replays.weaken (Set.subset_insert _ _)⟩

/-- A transaction about to commit holds what it writes alone, so nothing that
another one has locked changes. -/
theorem Locked.write_held (locked : Locked program c) (running : c.active t = some tx)
    {writes : List (Sigma Value)} (last : tx.rest = .commit writes) (different : other ≠ t)
    {lock : Object × Mode} (inside : lock ∈ c.held other) :
    c.store.write writes lock.1 = c.store lock.1 := by
  refine write_other fun write member same => ?_
  have guarded := locked.guarded running
  rw [last] at guarded
  have mine : (t, Mode.exclusive) ∈ c.holders lock.1 := same ▸ guarded write member
  rcases locked.alone mine inside with owner | ⟨shared, -⟩
  · exact different owner.symm
  · cases shared

theorem Locked.commit (locked : Locked program c) (running : c.active t = some tx)
    {writes : List (Sigma Value)} (last : tx.rest = .commit writes) :
    Locked program (c.commit t tx writes) := by
  have left := locked.leave t
  refine ⟨left.alone, left.owned, left.guarded, ?_⟩
  intro other tx' active view agrees
  by_cases same : other = t
  · subst same
    simp [Config.commit, Config.leave] at active
  · refine left.replays (t := other) active view fun lock inside => ?_
    rw [agrees lock inside]
    rw [held_leave_other same] at inside
    exact locked.write_held running last same inside

theorem Locked.advance (locked : Locked program c) (running : c.active t = some tx) :
    Locked program (c.advance t tx) := by
  have guarded := locked.guarded running
  have replays := locked.replays running
  unfold Config.advance
  cases rest : tx.rest with
  | commit writes => exact locked.commit running rest
  | abort => exact locked.leave t
  | acquire object mode next =>
    rw [rest] at guarded
    simp only
    split
    next granted =>
      refine locked.grant granted guarded fun view agrees later writes yields => ?_
      exact replays view agrees later writes (by rw [rest]; exact yields)
    · exact locked
  | tryAcquire object mode next skip =>
    rw [rest] at guarded
    simp only
    split
    next granted =>
      refine locked.grant granted guarded.1 fun view agrees later writes yields => ?_
      exact replays view agrees later writes (by rw [rest]; exact .inl yields)
    · refine locked.resume guarded.2 fun view agrees later writes yields => ?_
      exact replays view agrees later writes (by rw [rest]; exact .inr yields)
  | read object next =>
    rw [rest] at guarded
    obtain ⟨⟨mode, inside⟩, guarded⟩ := guarded
    refine locked.resume (guarded _) fun view agrees later writes yields => ?_
    refine replays view agrees later writes ?_
    rw [rest]
    show (next (view object)).Yields view later writes
    rw [agrees (object, mode) inside]
    exact yields
  | snapshot next =>
    rw [rest] at guarded
    refine locked.resume (guarded _) fun view agrees later writes yields => ?_
    rw [List.append_assoc]
    refine replays view agrees _ writes ?_
    rw [rest]
    exact ⟨c.store, later, rfl, yields⟩

variable (guarded : ∀ request, (program request).Guarded ∅)
include guarded

theorem Locked.step (locked : Locked program c) (event : Event Request) :
    Locked program (c.step program event) := by
  cases event with
  | start t request =>
    simp only [Config.step]
    split
    · exact locked
    next idle =>
      refine locked.resume ?_ fun _ _ _ _ yields => yields
      rw [locked.owned idle]
      exact guarded request
  | advance t =>
    simp only [Config.step]
    split
    next running => exact locked.advance running
    · exact locked
  | rollback t => exact locked.leave t

end Locks

section Histories

variable {Object Request : Type} {Value : Object → Type} [DecidableEq Object]
variable {program : Request → Program Value} {c c' : Config Request Value}
variable {event : Event Request}

/-- What one step can do: a transaction goes on without a trace in the store, or
it commits. -/
inductive Moved (c : Config Request Value) (event : Event Request) :
    Config Request Value → Prop
  | kept {c' : Config Request Value} (store : c'.store = c.store) (log : c'.log = c.log)
      (active : ∀ t tx', c'.active t = some tx' →
        event = .start t tx'.request ∧ tx'.seen = [] ∨
          ∃ tx, c.active t = some tx ∧ tx'.request = tx.request ∧
            ∀ view ∈ tx'.seen, view ∈ tx.seen ∨ view = c.store) : Moved c event c'
  | committed {t : Nat} {tx : Transaction Request Value} {writes : List (Sigma Value)}
      (moves : event = .advance t) (running : c.active t = some tx)
      (last : tx.rest = .commit writes) : Moved c event (c.commit t tx writes)

theorem moved_leave (c : Config Request Value) (event : Event Request) (t : Nat) :
    Moved c event (c.leave t) := by
  refine .kept rfl rfl fun other tx' active => ?_
  by_cases same : other = t
  · subst same
    simp [Config.leave] at active
  · have running : c.active other = some tx' := by simpa [Config.leave, same] using active
    exact .inr ⟨tx', running, rfl, fun _ inside => .inl inside⟩

theorem moved_resume {t : Nat} {tx tx' : Transaction Request Value} (store : c'.store = c.store)
    (log : c'.log = c.log) (active : c'.active = Function.update c.active t (some tx'))
    (running : c.active t = some tx) (request : tx'.request = tx.request)
    (seen : ∀ view ∈ tx'.seen, view ∈ tx.seen ∨ view = c.store) : Moved c event c' := by
  refine .kept store log fun other next found => ?_
  rw [active] at found
  by_cases same : other = t
  · subst same
    obtain rfl : tx' = next := by simpa using found
    exact .inr ⟨tx, running, request, seen⟩
  · rw [Function.update_of_ne same] at found
    exact .inr ⟨next, found, rfl, fun _ inside => .inl inside⟩

theorem moved_same (c : Config Request Value) (event : Event Request) : Moved c event c :=
  .kept rfl rfl fun _ tx active => .inr ⟨tx, active, rfl, fun _ inside => .inl inside⟩

theorem step_moved (program : Request → Program Value) (c : Config Request Value)
    (event : Event Request) : Moved c event (c.step program event) := by
  cases event with
  | rollback t => exact moved_leave c _ t
  | start t request =>
    simp only [Config.step]
    split
    · exact moved_same c _
    next idle =>
      refine .kept rfl rfl fun other tx' found => ?_
      by_cases same : other = t
      · subst same
        obtain rfl : _ = tx' := by simpa [Config.resume] using found
        exact .inl ⟨rfl, rfl⟩
      · have running : c.active other = some tx' := by simpa [Config.resume, same] using found
        exact .inr ⟨tx', running, rfl, fun _ inside => .inl inside⟩
  | advance t =>
    simp only [Config.step]
    split
    case h_2 => exact moved_same c _
    next tx running =>
      unfold Config.advance
      cases rest : tx.rest with
      | commit writes => exact .committed rfl running rest
      | abort => exact moved_leave c _ t
      | acquire object mode next =>
        simp only
        split
        · exact moved_resume rfl rfl rfl running rfl fun _ inside => .inl inside
        · exact moved_same c _
      | tryAcquire object mode next skip =>
        simp only
        split
        · exact moved_resume rfl rfl rfl running rfl fun _ inside => .inl inside
        · exact moved_resume rfl rfl rfl running rfl fun _ inside => .inl inside
      | read object next => exact moved_resume rfl rfl rfl running rfl fun _ inside => .inl inside
      | snapshot next =>
        refine moved_resume rfl rfl rfl running rfl fun view inside => ?_
        simpa using inside

theorem run_started (store : Store Value) (events : List (Event Request)) {t : Nat}
    {tx : Transaction Request Value}
    (running : (Config.run program { store } events).active t = some tx) :
    .start t tx.request ∈ events := by
  induction events using List.reverseRecOn generalizing t tx with
  | nil => cases running
  | append_singleton events event ih =>
    rw [Config.run, List.foldl_append] at running
    change (Config.step program (Config.run program { store } events) event).active t = some tx
      at running
    generalize Config.step program (Config.run program { store } events) event = c',
      step_moved program (Config.run program { store } events) event = moved at running
    cases moved with
    | kept _ _ active =>
      rcases active t tx running with ⟨started, -⟩ | ⟨old, before, same, -⟩
      · simp [started]
      · rw [same]
        exact List.mem_append_left _ (ih before)
    | @committed other _ _ _ _ _ =>
      by_cases same : t = other
      · subst same
        simp [Config.commit, Config.leave] at running
      · refine List.mem_append_left _ (ih ?_)
        simpa [Config.commit, Config.leave, same] using running

variable {holds : Store Value → Prop} {earlier : Store Value → Store Value → Prop}

/-- What has to be checked of every program alone: on a store of the invariant,
with snapshots of which only the age is known, it leaves a later store of the
invariant. -/
structure Rule (program : Request → Program Value) (holds : Store Value → Prop)
    (earlier : Store Value → Store Value → Prop) : Prop where
  guarded : ∀ request, (program request).Guarded ∅
  refl : ∀ store, earlier store store
  trans : ∀ {first second third}, earlier first second → earlier second third → earlier first third
  keeps : ∀ {request store seen writes}, holds store → (∀ view ∈ seen, earlier view store) →
    (program request).Yields store seen writes →
    holds (store.write writes) ∧ earlier store (store.write writes)

/-- A committed transaction, as if it had run alone. -/
structure Serial (program : Request → Program Value) (holds : Store Value → Prop)
    (earlier : Store Value → Store Value → Prop) (entry : Committed Request Value) : Prop where
  found : holds entry.before
  seen : ∀ view ∈ entry.seen, earlier view entry.before
  yields : (program entry.request).Yields entry.before entry.seen entry.writes

structure History (program : Request → Program Value) (holds : Store Value → Prop)
    (earlier : Store Value → Store Value → Prop) (c : Config Request Value) : Prop where
  locked : Locked program c
  current : holds c.store
  seen : ∀ {t tx}, c.active t = some tx → ∀ view ∈ tx.seen, earlier view c.store
  serial : ∀ entry ∈ c.log, Serial program holds earlier entry
  ordered : c.log.Pairwise fun entry next => earlier entry.after next.before
  reached : ∀ entry ∈ c.log, earlier entry.after c.store

theorem Rule.after (rule : Rule program holds earlier) {entry : Committed Request Value}
    (serial : Serial program holds earlier entry) :
    holds entry.after ∧ earlier entry.before entry.after :=
  rule.keeps serial.found serial.seen serial.yields

theorem history_initial {store : Store Value} (start : holds store) :
    History program holds earlier { store } where
  locked := ⟨nofun, fun _ => by simp [Config.held], nofun, nofun⟩
  current := start
  seen := nofun
  serial := nofun
  ordered := .nil
  reached := nofun

theorem Rule.step (rule : Rule program holds earlier) (history : History program holds earlier c)
    (event : Event Request) : History program holds earlier (c.step program event) := by
  have locked := history.locked.step rule.guarded event
  generalize c.step program event = c', step_moved program c event = moved at locked
  cases moved with
  | kept store log active =>
    refine ⟨locked, store ▸ history.current, fun running view inside => ?_, log ▸ history.serial,
      log ▸ history.ordered, by rw [store, log]; exact history.reached⟩
    rw [store]
    rcases active _ _ running with ⟨-, none⟩ | ⟨tx, before, -, seen⟩
    · simp [none] at inside
    · rcases seen view inside with old | rfl
      · exact history.seen before view old
      · exact rule.refl _
  | @committed t tx writes moves running last =>
    let entry : Committed Request Value :=
      { request := tx.request, seen := tx.seen, before := c.store, writes }
    have serial : Serial program holds earlier entry :=
      ⟨history.current, history.seen running, history.locked.yields running last⟩
    obtain ⟨after, later⟩ := rule.after serial
    refine ⟨locked, after, fun {other tx'} active view inside => ?_, ?_, ?_, ?_⟩
    · by_cases same : other = t
      · subst same
        simp [Config.commit, Config.leave] at active
      · have before : c.active other = some tx' := by
          simpa [Config.commit, Config.leave, same] using active
        exact rule.trans (history.seen before view inside) later
    · exact List.forall_mem_append.mpr ⟨history.serial, List.forall_mem_singleton.mpr serial⟩
    · refine List.pairwise_append.mpr ⟨history.ordered, List.pairwise_singleton _ _, ?_⟩
      exact fun old member new single => List.mem_singleton.mp single ▸ history.reached old member
    · refine List.forall_mem_append.mpr ⟨fun old member => ?_, ?_⟩
      · exact rule.trans (history.reached old member) later
      · exact List.forall_mem_singleton.mpr (rule.refl _)

/-- Every interleaving is a history of transactions that ran one after another. -/
theorem Rule.run (rule : Rule program holds earlier) {store : Store Value} (start : holds store)
    (events : List (Event Request)) :
    History program holds earlier (Config.run program { store } events) := by
  have along (c : Config Request Value) (history : History program holds earlier c) :
      History program holds earlier (c.run program events) := by
    induction events generalizing c with
    | nil => exact history
    | cons event rest ih => exact ih _ (rule.step history event)
  exact along _ (history_initial start)

/-- Of two committed transactions one has found what the other has left. -/
theorem History.comparable (history : History program holds earlier c)
    {first second : Committed Request Value} (member : first ∈ c.log) (member' : second ∈ c.log)
    (different : first ≠ second) :
    earlier first.after second.before ∨ earlier second.after first.before := by
  obtain ⟨i, bound, rfl⟩ := List.getElem_of_mem member
  obtain ⟨j, bound', rfl⟩ := List.getElem_of_mem member'
  have ordered := List.pairwise_iff_getElem.mp history.ordered
  rcases Nat.lt_trichotomy i j with less | rfl | greater
  · exact .inl (ordered i j bound bound' less)
  · exact absurd rfl different
  · exact .inr (ordered j i bound' bound greater)

end Histories

section Watches

variable {Object Request : Type} {Value : Object → Type} [DecidableEq Object]
variable {program : Request → Program Value} {c : Config Request Value}
variable {holds good : Store Value → Prop} {earlier fresh : Store Value → Store Value → Prop}
variable {watches disturbs : Request → Prop}

/-- With this step a transaction commits that disturbs, while one that watches is on
its way from its snapshot to its end. -/
def Config.Overtakes (watches disturbs : Request → Prop) (c : Config Request Value)
    (event : Event Request) : Prop :=
  ∃ t tx writes, event = .advance t ∧ c.active t = some tx ∧ tx.rest = .commit writes ∧
    disturbs tx.request ∧ ∃ other watcher, c.active other = some watcher ∧
      watches watcher.request ∧ watcher.seen ≠ []

/-- What has to be checked of every program where snapshots are to stay fresh: only
a transaction that disturbs makes them stale, and one that acts on a fresh snapshot
leaves a good store. -/
structure Watch (program : Request → Program Value) (holds : Store Value → Prop)
    (earlier : Store Value → Store Value → Prop) (watches disturbs : Request → Prop)
    (good : Store Value → Prop) (fresh : Store Value → Store Value → Prop) : Prop where
  refl : ∀ {store}, holds store → good store → fresh store store
  stays : ∀ {view entry}, Serial program holds earlier entry → earlier view entry.before →
    fresh view entry.before → ¬ disturbs entry.request → fresh view entry.after
  keeps : ∀ {entry}, Serial program holds earlier entry → good entry.before →
    (watches entry.request → ∀ view ∈ entry.seen, fresh view entry.before) → good entry.after

/-- The store is good, and whoever watches has read what is still fresh. -/
structure Watched (watches : Request → Prop) (good : Store Value → Prop)
    (fresh : Store Value → Store Value → Prop) (c : Config Request Value) : Prop where
  current : good c.store
  active : ∀ {t tx}, c.active t = some tx → watches tx.request →
    ∀ view ∈ tx.seen, fresh view c.store
  log : ∀ entry ∈ c.log, good entry.before ∧
    (watches entry.request → ∀ view ∈ entry.seen, fresh view entry.before)

theorem Watch.step (watch : Watch program holds earlier watches disturbs good fresh)
    (history : History program holds earlier c) (watched : Watched watches good fresh c)
    {event : Event Request} (calm : ¬ c.Overtakes watches disturbs event) :
    Watched watches good fresh (c.step program event) := by
  generalize c.step program event = c', step_moved program c event = moved
  cases moved with
  | kept store log active =>
    refine ⟨store ▸ watched.current, fun {t tx} running asks view inside => ?_, log ▸ watched.log⟩
    rw [store]
    rcases active t tx running with ⟨-, none⟩ | ⟨old, before, same, seen⟩
    · simp [none] at inside
    · rw [same] at asks
      rcases seen view inside with known | rfl
      · exact watched.active before asks view known
      · exact watch.refl history.current watched.current
  | @committed t tx writes moves running last =>
    let entry : Committed Request Value :=
      { request := tx.request, seen := tx.seen, before := c.store, writes }
    have serial : Serial program holds earlier entry :=
      ⟨history.current, history.seen running, history.locked.yields running last⟩
    refine ⟨watch.keeps serial watched.current (watched.active running),
      fun {other tx'} running' asks view inside => ?_,
      List.forall_mem_append.mpr ⟨watched.log, List.forall_mem_singleton.mpr
        ⟨watched.current, watched.active running⟩⟩⟩
    by_cases same : other = t
    · subst same
      simp [Config.commit, Config.leave] at running'
    · have before : c.active other = some tx' := by
        simpa [Config.commit, Config.leave, same] using running'
      refine watch.stays serial (history.seen before view inside)
        (watched.active before asks view inside) fun disturbed => calm ?_
      exact ⟨t, tx, writes, moves, running, last, disturbed, other, tx', before, asks,
        List.ne_nil_of_mem inside⟩

/-- In a run in which nothing overtakes a transaction that watches, it acts on a
snapshot that is still fresh. -/
theorem Watch.run (watch : Watch program holds earlier watches disturbs good fresh)
    (rule : Rule program holds earlier) {store : Store Value} (start : holds store)
    (initially : good store) (events : List (Event Request))
    (calm : ∀ before event after, events = before ++ event :: after →
      ¬ (Config.run program { store } before).Overtakes watches disturbs event) :
    Watched watches good fresh (Config.run program { store } events) := by
  induction events using List.reverseRecOn with
  | nil => exact ⟨initially, nofun, nofun⟩
  | append_singleton events event ih =>
    have steps : Config.run program { store } (events ++ [event]) =
        (Config.run program { store } events).step program event := by
      simp [Config.run]
    rw [steps]
    refine watch.step (rule.run start events) (ih fun before event' later same => ?_)
      (calm events event [] rfl)
    exact calm before event' (later ++ [event]) (by simp [same])

end Watches

end Locking
