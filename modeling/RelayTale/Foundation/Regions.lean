import RelayTale.Foundation.Locking

/-!
# What a lock protects

A lock can stand for more than the value of its object. Where every transaction
that changes what a lock protects takes a lock that conflicts with it, a snapshot
that is taken under the lock shows the protected part as it still is at the
commit. The commits of a run form a chain in which each one finds what the last
one left.
-/

namespace Locking

section Writes

variable {Object : Type} {Value : Object → Type} [DecidableEq Object]

theorem write_cases (store : Store Value) (writes : List (Sigma Value)) (object : Object) :
    (∃ value, ⟨object, value⟩ ∈ writes ∧ store.write writes object = value) ∨
      (∀ write ∈ writes, write.1 ≠ object) ∧ store.write writes object = store object := by
  induction writes generalizing store with
  | nil => exact .inr ⟨nofun, rfl⟩
  | cons write rest ih =>
    rcases ih (Function.update store write.1 write.2) with ⟨value, later, same⟩ | ⟨others, same⟩
    · exact .inl ⟨value, List.mem_cons_of_mem _ later, same⟩
    · by_cases here : write.1 = object
      · subst here
        exact .inl ⟨write.2, List.mem_cons_self, same.trans (Function.update_self _ _ _)⟩
      · refine .inr ⟨List.forall_mem_cons.mpr ⟨here, others⟩, same.trans ?_⟩
        exact Function.update_of_ne (Ne.symm here) _ _

theorem write_append (store : Store Value) (writes more : List (Sigma Value)) :
    store.write (writes ++ more) = (store.write writes).write more :=
  List.foldl_append

end Writes

section Runs

variable {Object Request : Type} {Value : Object → Type}

/-- `agree lock` relates stores that agree on what the lock protects. -/
abbrev Agreement (Value : Object → Type) := Object × Mode → Store Value → Store Value → Prop

/-- Which snapshots can be taken with these locks held on a store. -/
abbrev Visibility (Value : Object → Type) :=
  Set (Object × Mode) → Store Value → Store Value → Prop

/-- A snapshot taken with these locks shows what they protect as the store has it. -/
def Shows (agree : Agreement Value) (held : Set (Object × Mode)) (view store : Store Value) : Prop :=
  ∀ lock ∈ held, view lock.1 = store lock.1 ∧ agree lock view store

def Permits (held : Set (Object × Mode)) (lock : Object × Mode) : Prop :=
  ∀ other ∈ held, other.1 = lock.1 → other.2 = .shared ∧ lock.2 = .shared

theorem Permits.not_exclusive {held : Set (Object × Mode)} {lock : Object × Mode}
    (permits : Permits held lock) : (lock.1, Mode.exclusive) ∉ held := by
  intro inside
  cases (permits _ inside rfl).1

/-- Running alone on the store with these locks the program can commit the writes
with the locks `final`, when its snapshots are the given ones. Each of them shows
what it has to and is such as is known of it from those before. -/
def Program.Runs (shows : Visibility Value)
    (store : Store Value) :
    Program Value → (Store Value → Prop) → Set (Object × Mode) → List (Store Value) →
      List (Sigma Value) → Set (Object × Mode) → Prop
  | .commit writes, _, held, seen, result, final => seen = [] ∧ result = writes ∧ final = held
  | .abort, _, _, _, _, _ => False
  | .acquire object mode next, known, held, seen, result, final =>
      next.Runs shows store known (insert (object, mode) held) seen result final
  | .tryAcquire object mode next skip, known, held, seen, result, final =>
      next.Runs shows store known (insert (object, mode) held) seen result final ∨
        skip.Runs shows store known held seen result final
  | .read object next, known, held, seen, result, final =>
      (next (store object)).Runs shows store known held seen result final
  | .snapshot next, known, held, seen, result, final =>
      ∃ view later, seen = view :: later ∧ shows held view store ∧ known view ∧
        (next view).Runs shows store (fun other => known other ∧ shows held view other) held later
          result final

variable {shows : Visibility Value}
variable {known : Store Value → Prop}
variable {store : Store Value} {p : Program Value} {held final : Set (Object × Mode)}
variable {seen : List (Store Value)} {writes : List (Sigma Value)}

/-- Of unrestricted snapshots nothing is known but what they led to. -/
theorem Program.Yields.runs (yields : p.Yields store seen writes)
    (trivial : ∀ view, known view) (held : Set (Object × Mode)) :
    ∃ final, p.Runs (fun _ _ _ => True) store known held seen writes final := by
  induction p generalizing known held seen with
  | commit done => exact ⟨held, yields.1, yields.2, rfl⟩
  | abort => exact yields.elim
  | acquire object mode next ih => exact ih yields trivial _
  | tryAcquire object mode next skip ih ih' =>
    rcases yields with yields | yields
    · obtain ⟨final, runs⟩ := ih yields trivial (insert (object, mode) held)
      exact ⟨final, .inl runs⟩
    · obtain ⟨final, runs⟩ := ih' yields trivial held
      exact ⟨final, .inr runs⟩
  | read object next ih => exact ih _ yields trivial held
  | snapshot next ih =>
    obtain ⟨view, later, shape, yields⟩ := yields
    have more : ∀ other, known other ∧ True := fun other => ⟨trivial other, True.intro⟩
    obtain ⟨final, runs⟩ := ih view yields more held
    exact ⟨final, view, later, shape, True.intro, trivial view, runs⟩

theorem Program.Runs.yields (runs : p.Runs shows store known held seen writes final) :
    p.Yields store seen writes := by
  induction p generalizing known held seen with
  | commit done => exact ⟨runs.1, runs.2.1⟩
  | abort => exact runs.elim
  | acquire object mode next ih => exact ih runs
  | tryAcquire object mode next skip ih ih' => exact runs.imp ih ih'
  | read object next ih => exact ih _ runs
  | snapshot next ih =>
    obtain ⟨view, later, shape, -, -, runs⟩ := runs
    exact ⟨view, later, shape, ih view runs⟩

/-- Locks are kept to the end. -/
theorem Program.Runs.held_subset (runs : p.Runs shows store known held seen writes final) :
    held ⊆ final := by
  induction p generalizing known held seen with
  | commit done => exact runs.2.2 ▸ subset_rfl
  | abort => exact runs.elim
  | acquire object mode next ih => exact (Set.subset_insert _ _).trans (ih runs)
  | tryAcquire object mode next skip ih ih' =>
    rcases runs with runs | runs
    · exact (Set.subset_insert _ _).trans (ih runs)
    · exact ih' runs
  | read object next ih => exact ih _ runs
  | snapshot next ih =>
    obtain ⟨view, later, -, -, -, runs⟩ := runs
    exact ih view runs

/-- What is known of all snapshots of a transaction when it starts. -/
abbrev Anything : Store Value → Prop := fun _ => True

/-- What is left of the transaction completes a run of its program on every store
that agrees with the locked objects and with what they protect. All such stores
are as is known from the snapshots so far. -/
def Resumes (program : Request → Program Value) (agree : Agreement Value) (store : Store Value)
    (held : Set (Object × Mode)) (tx : Transaction Request Value) : Prop :=
  ∃ known : Store Value → Prop, ∀ other, Shows agree held store other →
    known other ∧ ∀ later writes final,
      tx.rest.Runs (Shows agree) other known held later writes final →
        (program tx.request).Runs (Shows agree) other Anything ∅ (tx.seen ++ later) writes final

end Runs

section Protection

variable {Object Request : Type} {Value : Object → Type} [DecidableEq Object]

/-- What a lock protects is changed only under a lock that conflicts with it. -/
structure Protection (program : Request → Program Value) (holds : Store Value → Prop)
    (earlier : Store Value → Store Value → Prop) (agree : Agreement Value) : Prop where
  refl : ∀ lock store, agree lock store store
  trans : ∀ {lock first second third}, agree lock first second → agree lock second third →
    agree lock first third
  protects : ∀ {request store seen writes final}, holds store → (∀ view ∈ seen, earlier view store) →
    (program request).Runs (Shows agree) store Anything ∅ seen writes final →
    ∀ lock, Permits final lock → agree lock store (store.write writes)

structure Tracked (program : Request → Program Value) (agree : Agreement Value)
    (c : Config Request Value) : Prop where
  resumes : ∀ {t tx}, c.active t = some tx → Resumes program agree c.store (c.held t) tx
  runs : ∀ entry ∈ c.log, ∃ final,
    (program entry.request).Runs (Shows agree) entry.before Anything ∅ entry.seen entry.writes
      final

variable {program : Request → Program Value} {agree : Agreement Value}
variable {c c' : Config Request Value} {t : Nat} {tx : Transaction Request Value}

omit [DecidableEq Object] in
/-- A step of one transaction that leaves the store alone. -/
theorem Tracked.of_apart (tracked : Tracked program agree c) (apart : Apart t c c')
    (store : c'.store = c.store) (log : c'.log = c.log)
    (own : ∀ tx', c'.active t = some tx' → Resumes program agree c.store (c'.held t) tx') :
    Tracked program agree c' := by
  refine ⟨fun {other tx'} active => ?_, log ▸ tracked.runs⟩
  rw [store]
  by_cases same : other = t
  · subst same
    exact own tx' active
  · rw [apart.held other same]
    exact tracked.resumes (apart.active other same ▸ active)

omit [DecidableEq Object] in
theorem Tracked.leave (tracked : Tracked program agree c) (t : Nat) :
    Tracked program agree (c.leave t) := by
  refine tracked.of_apart (apart_leave c t) rfl rfl fun tx' active => ?_
  simp [Config.leave] at active

omit [DecidableEq Object] in
theorem Tracked.resume (tracked : Tracked program agree c)
    (resumes : Resumes program agree c.store (c.held t) tx) :
    Tracked program agree (c.resume t tx) := by
  refine tracked.of_apart (apart_resume c t tx) rfl rfl fun tx' active => ?_
  obtain rfl : tx = tx' := by simpa [Config.resume] using active
  exact resumes

theorem Tracked.grant {object : Object} {mode : Mode} (tracked : Tracked program agree c)
    (resumes : Resumes program agree c.store (insert (object, mode) (c.held t)) tx) :
    Tracked program agree ((c.lock t object mode).resume t tx) := by
  refine tracked.of_apart (apart_grant c t object mode tx) rfl rfl fun tx' active => ?_
  obtain rfl : tx = tx' := by simpa [Config.resume] using active
  rw [show ((c.lock t object mode).resume t tx).held t = insert (object, mode) (c.held t) from
    held_lock_self]
  exact resumes

omit [DecidableEq Object] in
theorem shows_refl (refl : ∀ lock store, agree lock store store) (held : Set (Object × Mode))
    (store : Store Value) : Shows agree held store store :=
  fun _ _ => ⟨rfl, refl _ _⟩

theorem Tracked.commit (locked : Locked program c) (tracked : Tracked program agree c)
    (refl : ∀ lock store, agree lock store store)
    (trans : ∀ {lock first second third}, agree lock first second → agree lock second third →
      agree lock first third)
    (running : c.active t = some tx) {writes : List (Sigma Value)} (last : tx.rest = .commit writes)
    (protects : ∀ {final},
      (program tx.request).Runs (Shows agree) c.store Anything ∅ tx.seen writes final →
      ∀ lock, Permits final lock → agree lock c.store (c.store.write writes)) :
    Tracked program agree (c.commit t tx writes) := by
  have runs : (program tx.request).Runs (Shows agree) c.store Anything ∅ tx.seen writes
      (c.held t) := by
    obtain ⟨known, resumes⟩ := tracked.resumes running
    have done : tx.rest.Runs (Shows agree) c.store known (c.held t) [] writes (c.held t) := by
      rw [last]
      exact ⟨rfl, rfl, rfl⟩
    simpa using (resumes c.store (shows_refl refl _ _)).2 [] writes _ done
  refine ⟨fun {other tx'} active => ?_, List.forall_mem_append.mpr
    ⟨tracked.runs, List.forall_mem_singleton.mpr ⟨_, runs⟩⟩⟩
  by_cases same : other = t
  · subst same
    simp [Config.commit, Config.leave] at active
  have before : c.active other = some tx' := by
    simpa [Config.commit, Config.leave, same] using active
  have held : (c.commit t tx writes).held other = c.held other := held_leave_other same
  rw [held]
  obtain ⟨known, resumes⟩ := tracked.resumes before
  refine ⟨known, fun view agrees => resumes view fun lock inside => ?_⟩
  obtain ⟨value, region⟩ := agrees lock inside
  refine ⟨(locked.write_held running last same inside).symm.trans value, trans ?_ region⟩
  refine protects runs lock fun mine member object => ?_
  have holder : (t, mine.2) ∈ c.holders lock.1 := object ▸ member
  exact (locked.alone holder inside).resolve_left fun owner => same owner.symm

theorem Tracked.advance (locked : Locked program c) (tracked : Tracked program agree c)
    (refl : ∀ lock store, agree lock store store) (running : c.active t = some tx)
    (commits : ∀ writes, tx.rest = .commit writes → Tracked program agree (c.commit t tx writes)) :
    Tracked program agree (c.advance t tx) := by
  have guarded := locked.guarded running
  obtain ⟨known, resumes⟩ := tracked.resumes running
  unfold Config.advance
  cases rest : tx.rest with
  | commit writes => exact commits writes rest
  | abort => exact tracked.leave t
  | acquire object mode next =>
    simp only
    split
    · refine tracked.grant ⟨known, fun view agrees => ?_⟩
      obtain ⟨current, completes⟩ := resumes view fun lock inside => agrees lock (.inr inside)
      refine ⟨current, fun later writes final runs => completes later writes final ?_⟩
      rw [rest]
      exact runs
    · exact tracked
  | tryAcquire object mode next skip =>
    simp only
    split
    · refine tracked.grant ⟨known, fun view agrees => ?_⟩
      obtain ⟨current, completes⟩ := resumes view fun lock inside => agrees lock (.inr inside)
      refine ⟨current, fun later writes final runs => completes later writes final ?_⟩
      rw [rest]
      exact .inl runs
    · refine tracked.resume ⟨known, fun view agrees => ?_⟩
      obtain ⟨current, completes⟩ := resumes view agrees
      refine ⟨current, fun later writes final runs => completes later writes final ?_⟩
      rw [rest]
      exact .inr runs
  | read object next =>
    rw [rest] at guarded
    obtain ⟨⟨mode, inside⟩, -⟩ := guarded
    refine tracked.resume ⟨known, fun view agrees => ?_⟩
    obtain ⟨current, completes⟩ := resumes view agrees
    refine ⟨current, fun later writes final runs => completes later writes final ?_⟩
    rw [rest]
    show (next (view object)).Runs (Shows agree) view known (c.held t) later writes final
    rw [← (agrees (object, mode) inside).1]
    exact runs
  | snapshot next =>
    -- the snapshot is the store of this moment, and the later ones agree with it
    refine tracked.resume ⟨fun other => known other ∧ Shows agree (c.held t) c.store other,
      fun view agrees => ?_⟩
    obtain ⟨current, completes⟩ := resumes view agrees
    refine ⟨⟨current, agrees⟩, fun later writes final runs => ?_⟩
    rw [List.append_assoc]
    refine completes _ writes final ?_
    rw [rest]
    exact ⟨c.store, later, rfl, agrees, (resumes c.store (shows_refl refl _ _)).1, runs⟩

variable {holds : Store Value → Prop} {earlier : Store Value → Store Value → Prop}

theorem Protection.step (protection : Protection program holds earlier agree)
    (history : History program holds earlier c) (tracked : Tracked program agree c)
    (event : Event Request) : Tracked program agree (c.step program event) := by
  cases event with
  | start t request =>
    simp only [Config.step]
    split
    · exact tracked
    next idle =>
      refine tracked.resume ?_
      rw [history.locked.owned idle]
      exact ⟨Anything, fun _ _ => ⟨True.intro, fun _ _ _ runs => runs⟩⟩
  | advance t =>
    simp only [Config.step]
    split
    next tx running =>
      refine Tracked.advance history.locked tracked protection.refl running fun writes last => ?_
      exact Tracked.commit history.locked tracked protection.refl protection.trans running last
        (protection.protects history.current (history.seen running))
    · exact tracked
  | rollback t => exact tracked.leave t

/-- In every interleaving each commit is a run of its program in which the
snapshots show what was locked. -/
theorem Protection.run (protection : Protection program holds earlier agree)
    (rule : Rule program holds earlier) {store : Store Value} (start : holds store)
    (events : List (Event Request)) : Tracked program agree (Config.run program { store } events) := by
  have along (c : Config Request Value) (history : History program holds earlier c)
      (tracked : Tracked program agree c) : Tracked program agree (c.run program events) := by
    induction events generalizing c with
    | nil => exact tracked
    | cons event rest ih =>
      exact ih _ (rule.step history event) (protection.step history tracked event)
  exact along _ (history_initial start) ⟨nofun, nofun⟩

end Protection

section Chains

variable {Object Request : Type} {Value : Object → Type} [DecidableEq Object]

def Chained (first : Store Value) : List (Committed Request Value) → Store Value → Prop
  | [], last => last = first
  | entry :: rest, last => entry.before = first ∧ Chained entry.after rest last

variable {first last : Store Value} {log earlier later : List (Committed Request Value)}
variable {entry : Committed Request Value}

theorem chained_append :
    Chained first (earlier ++ later) last ↔
      ∃ middle, Chained first earlier middle ∧ Chained middle later last := by
  induction earlier generalizing first with
  | nil => simp [Chained]
  | cons entry rest ih => simp [Chained, ih, and_assoc]

/-- A property of stores and of what was committed before holds at every commit
and at the end. -/
theorem Chained.along {P : List (Committed Request Value) → Store Value → Prop}
    (chained : Chained first log last) (initial : P [] first)
    (step : ∀ earlier entry later, log = earlier ++ entry :: later → P earlier entry.before →
      P (earlier ++ [entry]) entry.after) : P log last := by
  induction log using List.reverseRecOn generalizing last with
  | nil =>
    obtain rfl : last = first := chained
    exact initial
  | append_singleton earlier entry ih =>
    obtain ⟨middle, before, same, rfl⟩ := chained_append.mp chained
    refine step earlier entry [] rfl ?_
    rw [same]
    refine ih before fun older each younger shape => step older each (younger ++ [entry]) ?_
    simp [shape]

theorem Chained.before (chained : Chained first (earlier ++ entry :: later) last) :
    Chained first earlier entry.before := by
  obtain ⟨middle, before, same, -⟩ := chained_append.mp chained
  exact same ▸ before

theorem run_chained (program : Request → Program Value) (store : Store Value)
    (events : List (Event Request)) :
    Chained store (Config.run program { store } events).log
      (Config.run program { store } events).store := by
  induction events using List.reverseRecOn with
  | nil => rfl
  | append_singleton events event ih =>
    rw [Config.run, List.foldl_append]
    change Chained store (Config.step program (Config.run program { store } events) event).log
      (Config.step program (Config.run program { store } events) event).store
    generalize Config.step program (Config.run program { store } events) event = c',
      step_moved program (Config.run program { store } events) event = moved
    cases moved with
    | kept same log => rwa [same, log]
    | committed => exact chained_append.mpr ⟨_, ih, rfl, rfl⟩

variable {program : Request → Program Value} {holds : Store Value → Prop}
variable {earlier : Store Value → Store Value → Prop} {c : Config Request Value}

/-- The store of a configuration is earlier than the stores reached from it. -/
theorem Rule.reaches (rule : Rule program holds earlier) (history : History program holds earlier c)
    (events : List (Event Request)) : earlier c.store (c.run program events).store := by
  induction events generalizing c with
  | nil => exact rule.refl _
  | cons event rest ih =>
    have next := rule.step history event
    refine rule.trans ?_ (ih next)
    generalize c.step program event = c', step_moved program c event = moved
    cases moved with
    | kept same => exact same ▸ rule.refl _
    | @committed t tx writes moves running last =>
      have serial : Serial program holds earlier
          { request := tx.request, seen := tx.seen, before := c.store, writes } :=
        ⟨history.current, history.seen running, history.locked.yields running last⟩
      exact (rule.after serial).2

end Chains

end Locking
