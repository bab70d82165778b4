import RelayTale.Admission.Statements

/-!
# What a committed request has done

Each request is taken apart once: what it has read, in which snapshot and under
which locks, and what it has written. All later results argue from these
records.
-/

namespace RelayTale.Admission

open Locking
open Locking.Program (check_runs ifSome_runs ifOk_runs lockRow_runs select_runs selectRow_runs
  lockCandidates_runs)
open Queue (Message Op RecoverInput Candidate)

section Runs

variable {shows : Visibility Resource.Value} {store : Store}
variable {held final : Set (Resource × Mode)} {seen : List Store} {known : Store → Prop}
variable {writes : List (Sigma Resource.Value)}

def tableWrite : Sigma Resource.Value → Option (Sigma Queue.Resource.Value)
  | ⟨.table resource, value⟩ => some ⟨resource, value⟩
  | _ => none

theorem tables_update (store : Store) (write : Sigma Resource.Value) :
    Store.tables (Function.update store write.1 write.2) =
      store.tables.write (tableWrite write).toList := by
  funext resource
  obtain ⟨object, value⟩ := write
  cases object with
  | table target =>
    by_cases same : resource = target
    · subst same
      simp [Store.tables, tableWrite, Store.write]
    · simp [Store.tables, tableWrite, Store.write, same]
  | _ => simp [Store.tables, tableWrite, Store.write]

theorem tables_write (store : Store) (writes : List (Sigma Resource.Value)) :
    Store.tables (store.write writes) = store.tables.write (writes.filterMap tableWrite) := by
  induction writes generalizing store with
  | nil => rfl
  | cons write rest ih =>
    have first := tables_update store write
    refine (ih _).trans ?_
    rw [first, List.filterMap_cons]
    cases tableWrite write <;> rfl

end Runs

section Claim

def claimLocks (id : MessageID) (i : AdmitInput) : Set (Resource × Mode) :=
  insert (.provider i.provider, .exclusive)
    (insert (.table (.message id), .exclusive) (insert (.table .policy, .shared) ∅))

def withGroup (p : Provider) (held : Set (Resource × Mode)) : Set (Resource × Mode) :=
  match p.quotaGroup with
  | some g => insert (.group g, .exclusive) held
  | none => held

theorem subset_withGroup (p : Provider) (held : Set (Resource × Mode)) : held ⊆ withGroup p held := by
  unfold withGroup
  split
  · exact Set.subset_insert _ _
  · exact subset_rfl

inductive Probing (i : AdmitInput) (enforced : Bool) (known : Store → Prop) (seen : List Store) (store : Store) :
    Option Health → Prop
  | unenforced (off : enforced = false) :
      Probing i enforced known seen store (store (.health i.provider))
  | idle {view : Store} (member : view ∈ seen) (shown : known view)
      (waits : (∀ h, view (.health i.provider) = some h → h.due i.probeClock = false) ∨
        ∀ h, store (.health i.provider) = some h → h.due i.probeClock = false) :
      Probing i enforced known seen store (store (.health i.provider))
  | started {h : Health} (found : store (.health i.provider) = some h)
      (due : h.due i.probeClock = true) :
      Probing i enforced known seen store (some (h.startProbe i.attempt))

variable {shows : Visibility Resource.Value} {store : Store}
variable {held final : Set (Resource × Mode)} {seen : List Store} {known : Store → Prop}
variable {writes base : List (Sigma Resource.Value)} {i : AdmitInput}

theorem Probing.weaken {enforced : Bool} {health : Option Health} {more : List Store}
    {less : Store → Prop} (probing : Probing i enforced known seen store health)
    (subset : seen ⊆ more) (implies : ∀ view, known view → less view) :
    Probing i enforced less more store health := by
  cases probing with
  | unenforced off => exact .unenforced off
  | idle member shown waits => exact .idle (subset member) (implies _ shown) waits
  | started found due => exact .started found due

theorem lockGroupOf_runs {p : Provider} {next : Statements} :
    (lockGroupOf p next).Runs shows store known held seen writes final ↔
      next.Runs shows store known (withGroup p held) seen writes final := by
  unfold lockGroupOf withGroup
  cases p.quotaGroup <;> exact Iff.rfl

theorem startProbe_runs (runs : (startProbe i base).Runs shows store known held seen writes final) :
    (writes = base ∧ ∃ view ∈ seen, known view ∧
      ((∀ h, view (.health i.provider) = some h → h.due i.probeClock = false) ∨
        ∀ h, store (.health i.provider) = some h → h.due i.probeClock = false)) ∨
    ∃ h, store (.health i.provider) = some h ∧ h.due i.probeClock = true ∧
      writes = putHealth i.provider (h.startProbe i.attempt) :: base := by
  obtain ⟨view, later, rfl, -, shown, runs⟩ := runs
  dsimp only at runs
  split at runs
  next idle =>
    refine .inl ⟨runs.2.1, view, List.mem_cons_self, shown, .inl fun h found => ?_⟩
    simpa using Option.filter_eq_none_iff.mp idle h found
  next due =>
    simp only [Program.Runs] at runs
    split at runs
    next idle =>
      refine .inl ⟨runs.2.1, view, List.mem_cons_self, shown, .inr fun h found => ?_⟩
      simpa using Option.filter_eq_none_iff.mp idle h found
    next h found =>
      obtain ⟨current, due⟩ := Option.filter_eq_some_iff.mp found
      exact .inr ⟨h, current, due, runs.2.1⟩

variable [Primitives] {d : Catalog} {id : MessageID}

abbrev AdmitInput.claimOf (d : Catalog) (view : Store) (shown p : Provider) (i : AdmitInput) :
    Queue.ClaimInput :=
  i.admitted (remaining d view i.quotaClock shown) p

/-- What `reserveControls` has written together with the message. -/
structure Reserved (id : MessageID) (i : AdmitInput) (units : Nat) (p : Provider) (m : Message)
    (known : Store → Prop) (seen : List Store) (store after : Store) : Prop where
  fresh : store (.attempt i.attempt) = none
  tables : after.tables = store.tables.write [Queue.put id m]
  attempts : ∀ a, after (.attempt a) = if a = i.attempt then some id else store (.attempt a)
  providers : ∀ q, after (.provider q) =
    if q = i.provider then some (p.reserve (i.usage units)) else store (.provider q)
  groups : ∀ g, after (.group g) = store (.group g)
  healths : ∀ q, q ≠ i.provider → after (.health q) = store (.health q)
  probing : Probing i (i.healthEnabled && p.healthCheckEnabled) known seen store
    (after (.health i.provider))

/-- A committed claim: what it found, what its snapshots showed, what it wrote. -/
structure Claimed (d : Catalog) (shows : Visibility Resource.Value)
    (id : MessageID) (i : AdmitInput) (seen : List Store) (store after : Store) (m m' : Message)
    (p shown : Provider) (counting admitting : Store) : Prop where
  message : store.message id = some m
  provider : store (.provider i.provider) = some p
  selected : ∃ view ∈ seen, ∃ old, view.message id = some old ∧
    Queue.selectable (store (.table .policy)) i.claim (old.reread m) = true
  counts : counting ∈ seen ∧ shows (claimLocks id i) counting store
  connections : active d counting i.provider i.activeClock < p.maxConnections
  admits : admitting ∈ seen ∧ shows (withGroup p (claimLocks id i)) admitting store
  read : admitting (.provider i.provider) = some shown
  controlled : i.controlled d admitting i.quotaClock shown = true
  claimed : Queue.claimSelected (store (.table .policy)) (i.claimOf d admitting shown p) m = .ok m'
  reserved : Reserved id i
    (Queue.picks (store (.table .policy)) (i.claimOf d admitting shown p) m).length p m'
    (shows (withGroup p (claimLocks id i)) admitting) seen store after

omit [Primitives] in
/-- What a claim writes besides the circuit. -/
theorem reserved_writes (store : Store) (id : MessageID) (i : AdmitInput) (m : Message)
    (p : Provider) :
    let after : Store := store.write [put id m, ⟨.attempt i.attempt, some id⟩,
      putProvider i.provider p]
    after.tables = store.tables.write [Queue.put id m] ∧
      (∀ a, after (.attempt a) = if a = i.attempt then some id else store (.attempt a)) ∧
      (∀ q, after (.provider q) = if q = i.provider then some p else store (.provider q)) ∧
      (∀ g, after (.group g) = store (.group g)) ∧
      ∀ q, after (.health q) = store (.health q) := by
  refine ⟨tables_write _ _, fun a => ?_, fun q => ?_, fun g => ?_, fun q => ?_⟩
  · by_cases same : a = i.attempt
    · subst same
      simp [Store.write, put, putProvider]
    · simp [Store.write, put, putProvider, same]
  · by_cases same : q = i.provider
    · subst same
      simp [Store.write, put, putProvider]
    · simp [Store.write, put, putProvider, same]
  all_goals simp [Store.write, put, putProvider]

omit [Primitives] in
theorem reserveControls_runs {units : Nat} {p : Provider} {m : Message}
    (runs : (reserveControls id i units p m).Runs shows store known held seen writes final) :
    Reserved id i units p m known seen store (store.write writes) := by
  obtain ⟨unused, runs⟩ := check_runs.mp runs
  have fresh := Option.isNone_iff_eq_none.mp unused
  obtain ⟨tables, attempts, providers, groups, healths⟩ :=
    reserved_writes store id i m (p.reserve (i.usage units))
  dsimp only at runs
  split at runs
  case isFalse off =>
    obtain ⟨-, rfl, -⟩ := runs
    refine ⟨fresh, tables, attempts, providers, groups, fun q _ => healths q, ?_⟩
    rw [healths]
    exact .unenforced (by simpa using off)
  case isTrue =>
    rcases startProbe_runs runs with ⟨rfl, view, member, shown, waits⟩ | ⟨h, found, due, rfl⟩
    · refine ⟨fresh, tables, attempts, providers, groups, fun q _ => healths q, ?_⟩
      rw [healths]
      exact .idle member shown waits
    · -- the circuit is written first, so the others act on a store that differs there only
      let marked : Store := Function.update store (.health i.provider)
        (some (h.startProbe i.attempt))
      obtain ⟨tables', attempts', providers', groups', healths'⟩ :=
        reserved_writes marked id i m (p.reserve (i.usage units))
      have same (object : Resource) (other : object ≠ .health i.provider) :
          marked object = store object := Function.update_of_ne other _ _
      refine ⟨fresh, ?_, fun a => ?_, fun q => ?_, fun g => ?_, fun q other => ?_, ?_⟩
      · refine tables'.trans ?_
        rw [show marked.tables = store.tables from
          tables_update store (putHealth i.provider (h.startProbe i.attempt))]
      · exact (attempts' a).trans (by rw [same (.attempt a) nofun])
      · exact (providers' q).trans (by rw [same (.provider q) nofun])
      · exact (groups' g).trans (same (.group g) nofun)
      · exact (healths' q).trans (same _ fun equal => other (Resource.health.inj equal))
      · have started : store.write (putHealth i.provider (h.startProbe i.attempt) ::
            [put id m, ⟨.attempt i.attempt, some id⟩,
              putProvider i.provider (p.reserve (i.usage units))]) (.health i.provider) =
            some (h.startProbe i.attempt) :=
          (healths' i.provider).trans (Function.update_self _ _ _)
        rw [started]
        exact .started found due

theorem claimed_of_runs
    (runs : (claimStatements d id i).Runs shows store Anything ∅ seen writes final) :
    ∃ m m' p shown counting admitting,
      Claimed d shows id i seen store (store.write writes) m m' p shown counting admitting ∧
      withGroup p (claimLocks id i) ⊆ final := by
  obtain ⟨first, later, old, m, _, rfl, read, message, runs⟩ :=
    selectRow_runs (select_runs.mp runs)
  obtain ⟨selected, runs⟩ := check_runs.mp runs
  obtain ⟨second, later, older, p, _, rfl, -, provider, runs⟩ := selectRow_runs runs
  obtain ⟨-, runs⟩ := check_runs.mp runs
  obtain ⟨counting, later, rfl, counted, -, runs⟩ := runs
  obtain ⟨connections, runs⟩ := check_runs.mp runs
  obtain ⟨admitting, rest, rfl, admitted, -, runs⟩ := lockGroupOf_runs.mp runs
  obtain ⟨shown, read', runs⟩ := ifSome_runs.mp runs
  obtain ⟨controlled, runs⟩ := check_runs.mp runs
  obtain ⟨m', claimed, runs⟩ := ifOk_runs.mp runs
  have locks := runs.held_subset
  have reserved := reserveControls_runs runs
  refine ⟨m, m', p, shown, counting, admitting, ?_, locks⟩
  exact
    { message, provider
      selected := ⟨first, List.mem_cons_self, old, read, selected⟩
      counts := ⟨by simp, counted⟩
      connections := by simpa using connections
      admits := ⟨by simp, admitted⟩
      read := read'
      controlled, claimed
      reserved :=
        { reserved with
          probing := reserved.probing.weaken (fun view member => by simp [member])
            fun view shown => shown.2 } }

end Claim

section Finish

variable [Primitives]

structure Finished (id : MessageID) (i : FinishInput) (store after : Store) (m m' : Message)
    (a : Queue.Attempt) (p : Provider) : Prop where
  message : store.message id = some m
  current : m.current i.job = some a
  provider : store (.provider a.provider) = some p
  finished : Queue.finish i.flags i.job (i.result m) i.clock i.now m = .ok m'
  tables : after.tables = store.tables.write [Queue.put id m']
  attempts : ∀ b, after (.attempt b) = store (.attempt b)
  providers : ∀ q, after (.provider q) = if q = a.provider then
    some (p.observe i.job.attempt (sampleOf (i.result m)) i.observeClock) else store (.provider q)
  groups : ∀ g, after (.group g) = store (.group g)
  healths : ∀ q, after (.health q) = if q = a.provider then
    some (finishHealth i (sampleOf (i.result m)) p ((store (.health a.provider)).getD {}))
    else store (.health q)

variable {shows : Visibility Resource.Value} {store : Store}
variable {final : Set (Resource × Mode)} {seen : List Store}
variable {writes : List (Sigma Resource.Value)} {id : MessageID} {i : FinishInput}

theorem finished_of_runs (runs : (finishStatements id i).Runs shows store Anything ∅ seen writes final) :
    ∃ m m' a p, Finished id i store (store.write writes) m m' a p ∧
      (Resource.provider a.provider, Mode.exclusive) ∈ final := by
  obtain ⟨m, message, runs⟩ := lockRow_runs.mp runs
  obtain ⟨-, -, runs⟩ := ifOk_runs.mp runs
  obtain ⟨a, current, runs⟩ := ifSome_runs.mp runs
  obtain ⟨p, provider, runs⟩ := lockRow_runs.mp runs
  obtain ⟨m', finished, runs⟩ := ifOk_runs.mp runs
  obtain ⟨-, rfl, rfl⟩ := runs
  refine ⟨m, m', a, p, ?_, by simp⟩
  refine ⟨message, current, provider, finished, tables_write _ _, fun b => ?_, fun q => ?_,
    fun g => ?_, fun q => ?_⟩
  · simp [Store.write, put, putProvider, putHealth]
  · by_cases same : q = a.provider
    · subst same
      simp [Store.write, put, putProvider, putHealth]
    · simp [Store.write, put, putProvider, putHealth, same]
  · simp [Store.write, put, putProvider, putHealth]
  · by_cases same : q = a.provider
    · subst same
      simp [Store.write, put, putProvider, putHealth]
    · simp [Store.write, put, putProvider, putHealth, same]

end Finish

section Recovery

variable {shows : Visibility Resource.Value} {store view : Store}
variable {held final : Set (Resource × Mode)} {seen : List Store} {known : Store → Prop}
variable {writes : List (Sigma Resource.Value)} {d : Catalog}

def Releases (store : Store) (attempt : AttemptID) (clock : Int)
    (released : List (Sigma Resource.Value)) : Prop :=
  ∀ write ∈ released, ∃ q h, write = putHealth q (h.trip clock) ∧ store (.health q) = some h ∧
    h.probe = some attempt

theorem recoverProbe_runs {attempt : AttemptID} {clock : Int} {providers : List ProviderID}
    {next : List (Sigma Resource.Value) → Statements}
    (runs : (recoverProbe attempt clock view providers next).Runs shows store known held seen writes final) :
    ∃ released more, (next released).Runs shows store known more seen writes final ∧ held ⊆ more ∧
      Releases store attempt clock released ∧
      ∀ q ∈ providers, ∀ h h', view (.health q) = some h → h.probe = some attempt →
        store (.health q) = some h' → h'.probe = some attempt →
          putHealth q (h'.trip clock) ∈ released := by
  induction providers generalizing next held with
  | nil => exact ⟨[], held, runs, subset_rfl, List.forall_mem_nil _, by simp⟩
  | cons p rest ih =>
    have granted : held ⊆ insert (.health p, .exclusive) held := Set.subset_insert _ _
    unfold recoverProbe at runs
    split at runs
    next unseen =>
      obtain ⟨released, more, continues, subset, releases, complete⟩ := ih runs
      refine ⟨released, more, continues, subset, releases, List.forall_mem_cons.mpr ⟨?_, complete⟩⟩
      intro h h' shown probe
      exact absurd probe (by simpa using Option.filter_eq_none_iff.mp unseen h shown)
    · simp only [Program.Runs] at runs
      split at runs
      next gone =>
        obtain ⟨released, more, continues, subset, releases, complete⟩ := ih runs
        refine ⟨released, more, continues, granted.trans subset, releases,
          List.forall_mem_cons.mpr ⟨?_, complete⟩⟩
        intro h h' _ _ found probe
        exact absurd probe (by simpa using Option.filter_eq_none_iff.mp gone h' found)
      next h found =>
        obtain ⟨found, probe⟩ := Option.filter_eq_some_iff.mp found
        obtain ⟨released, more, continues, subset, releases, complete⟩ := ih runs
        refine ⟨_, more, continues, granted.trans subset, List.forall_mem_cons.mpr
          ⟨⟨p, h, rfl, found, by simpa using probe⟩, releases⟩, List.forall_mem_cons.mpr ⟨?_, ?_⟩⟩
        · intro _ h' _ _ found' _
          obtain rfl := Option.mem_unique found found'
          exact List.mem_cons_self
        · intro q inside h h' shown probe found probe'
          exact List.mem_cons_of_mem _ (complete q inside h h' shown probe found probe')

theorem recoverProbes_runs {clock : AttemptID → Int} {attempts : List AttemptID}
    {next : List (Sigma Resource.Value) → Statements}
    (runs : (recoverProbes d clock attempts next).Runs shows store known held seen writes final) :
    ∃ released more later, ∃ known' : Store → Prop,
      (next released).Runs shows store known' more later writes final ∧
      (∀ write ∈ released, ∃ a ∈ attempts, Releases store a (clock a) [write]) ∧
      ∀ a ∈ attempts, ∃ view ∈ seen, ∃ locks, held ⊆ locks ∧ shows locks view store ∧
        ∀ q ∈ d.providers, ∀ h h', view (.health q) = some h → h.probe = some a →
          store (.health q) = some h' → h'.probe = some a →
            putHealth q (h'.trip (clock a)) ∈ released := by
  induction attempts generalizing next held seen known with
  | nil => exact ⟨[], held, seen, known, runs, by simp, by simp⟩
  | cons attempt rest ih =>
    obtain ⟨view, after, rfl, shown, -, runs⟩ := runs
    obtain ⟨first, more, runs, subset, releases, complete⟩ := recoverProbe_runs runs
    obtain ⟨others, most, later, known', continues, releases', complete'⟩ := ih runs
    refine ⟨first ++ others, most, later, known', continues, List.forall_mem_append.mpr ⟨?_, ?_⟩,
      List.forall_mem_cons.mpr ⟨?_, ?_⟩⟩
    · exact fun write member => ⟨attempt, List.mem_cons_self,
        List.forall_mem_singleton.mpr (releases write member)⟩
    · intro write member
      obtain ⟨a, inside, releases⟩ := releases' write member
      exact ⟨a, List.mem_cons_of_mem _ inside, releases⟩
    · refine ⟨view, List.mem_cons_self, held, subset_rfl, shown, ?_⟩
      intro q inside h h' seen probe found probe'
      exact List.mem_append_left _ (complete q inside h h' seen probe found probe')
    · intro a inside
      obtain ⟨view, member, locks, kept, shown, complete⟩ := complete' a inside
      refine ⟨view, List.mem_cons_of_mem _ member, locks, subset.trans kept, shown, ?_⟩
      intro q known h h' seen probe found probe'
      exact List.mem_append_right _ (complete q known h h' seen probe found probe')

structure Recovered (d : Catalog) (shows : Visibility Resource.Value)
    (ids : List MessageID) (i : RecoverInput) (clock : AttemptID → Int) (seen : List Store)
    (store after : Store) (view : Store) (jobs : List Abandoned) : Prop where
  distinct : ids.Nodup
  snapshot : view ∈ seen
  selected : List.Sublist (jobs.map (·.id)) ids
  read : ∀ x ∈ jobs, view.message x.id = some x.old ∧ store.message x.id = some x.current ∧
    Queue.abandoned i.leaseClock (x.old.reread x.current) = some x.attempt
  tables : after.tables = store.tables.write (jobs.map fun x => Queue.put x.id (x.recovered i))
  attempts : ∀ a, after (.attempt a) = store (.attempt a)
  providers : ∀ q, after (.provider q) = store (.provider q)
  groups : ∀ g, after (.group g) = store (.group g)
  healths : ∀ q, after (.health q) = store (.health q) ∨ ∃ x ∈ jobs, ∃ h,
    store (.health q) = some h ∧ h.probe = some x.attempt.id ∧
      after (.health q) = some (h.trip (clock x.attempt.id))
  probes : ∀ x ∈ jobs, ∃ view ∈ seen, ∃ locks,
    (∀ y ∈ jobs, (Resource.table (.message y.id), Mode.exclusive) ∈ locks) ∧
    shows locks view store ∧ ∀ q ∈ d.providers, ∀ h h', view (.health q) = some h →
      h.probe = some x.attempt.id → store (.health q) = some h' → h'.probe = some x.attempt.id →
        after (.health q) = some (h'.trip (clock x.attempt.id))

theorem abandoned_mem {leaseClock : Int} {found : List Candidate} {x : Abandoned}
    (member : x ∈ abandoned leaseClock found) :
    (⟨x.id, x.old, x.current⟩ : Candidate) ∈ found ∧
      Queue.abandoned leaseClock (x.old.reread x.current) = some x.attempt := by
  obtain ⟨candidate, inside, same⟩ := List.mem_filterMap.mp member
  obtain ⟨a, selected, rfl⟩ := Option.map_eq_some_iff.mp same
  exact ⟨inside, selected⟩

theorem abandoned_ids (leaseClock : Int) (found : List Candidate) :
    List.Sublist ((abandoned leaseClock found).map (·.id)) (found.map (·.id)) := by
  induction found with
  | nil => exact .slnil
  | cons x rest ih =>
    simp only [abandoned, List.filterMap_cons] at ih ⊢
    cases Queue.abandoned leaseClock (x.old.reread x.current) with
    | none => exact ih.cons _
    | some a => exact ih.cons_cons _

theorem recovered_of_runs {ids : List MessageID} {i : RecoverInput} {clock : AttemptID → Int}
    (runs : (recoverStatements d ids i clock).Runs shows store Anything ∅ seen writes final) :
    ∃ view jobs, Recovered d shows ids i clock seen store (store.write writes) view jobs := by
  obtain ⟨bounded, runs⟩ := check_runs.mp runs
  obtain ⟨view, later, rfl, -, -, runs⟩ := runs
  obtain ⟨found, more, runs, -, sublist, read⟩ := lockCandidates_runs runs
  obtain ⟨released, most, rest, _, runs, releases, complete⟩ := recoverProbes_runs runs
  obtain ⟨-, rfl, -⟩ := runs
  have health (write : Sigma Resource.Value) (member : write ∈ released) :
      ∃ q h a, a ∈ (abandoned i.leaseClock found).map (·.attempt.id) ∧
        write = putHealth q (h.trip (clock a)) ∧ store (.health q) = some h ∧ h.probe = some a := by
    obtain ⟨a, inside, single⟩ := releases write member
    obtain ⟨q, h, same, current, probe⟩ := single write List.mem_cons_self
    exact ⟨q, h, a, inside, same, current, probe⟩
  -- only messages and circuits are written
  have untouched (object : Resource) (table : ∀ target, Resource.table target ≠ object)
      (circuit : ∀ q, Resource.health q ≠ object) :
      store.write ((abandoned i.leaseClock found).map (fun x => put x.id (x.recovered i)) ++
        released) object = store object := by
    refine write_other fun write member => ?_
    rcases List.mem_append.mp member with message | releasing
    · obtain ⟨x, -, rfl⟩ := List.mem_map.mp message
      exact table _
    · obtain ⟨q, h, a, -, rfl, -⟩ := health write releasing
      exact circuit q
  have circuits (q : ProviderID) (value : Option Health)
      (member : ⟨.health q, value⟩ ∈ (abandoned i.leaseClock found).map
        (fun x => put x.id (x.recovered i)) ++ released) :
      ∃ a ∈ (abandoned i.leaseClock found).map (·.attempt.id), ∃ h,
        store (.health q) = some h ∧ h.probe = some a ∧ value = some (h.trip (clock a)) := by
    rcases List.mem_append.mp member with message | releasing
    · obtain ⟨x, -, same⟩ := List.mem_map.mp message
      cases same
    · obtain ⟨_, h, a, inside, same, current, probe⟩ := health _ releasing
      cases same
      exact ⟨a, inside, h, current, probe, rfl⟩
  refine ⟨view, abandoned i.leaseClock found, ?_⟩
  refine
    { distinct := (by simpa using bounded : _ ∧ _).1
      snapshot := List.mem_cons_self
      selected := (abandoned_ids i.leaseClock found).trans sublist
      read := fun x member => ?_
      tables := ?_
      attempts := fun a => untouched _ nofun nofun
      providers := fun q => untouched _ nofun nofun
      groups := fun g => untouched _ nofun nofun
      healths := fun q => ?_
      probes := fun x member => ?_ }
  · obtain ⟨inside, selected⟩ := abandoned_mem member
    obtain ⟨-, old, current⟩ := read _ inside
    exact ⟨old, current, selected⟩
  · have none : released.filterMap tableWrite = [] := by
      refine List.filterMap_eq_nil_iff.mpr fun write member => ?_
      obtain ⟨q, h, a, -, rfl, -⟩ := health write member
      rfl
    rw [tables_write, List.filterMap_append, none, List.append_nil, List.filterMap_map]
    exact congrArg store.tables.write (congrFun List.filterMap_eq_map _)
  · rcases write_cases store _ (.health q) with ⟨value, member, same⟩ | ⟨-, same⟩
    · obtain ⟨a, inside, h, current, probe, rfl⟩ := circuits q value member
      obtain ⟨x, job, rfl⟩ := List.mem_map.mp inside
      exact .inr ⟨x, job, h, current, probe, same⟩
    · exact .inl same
  · obtain ⟨shown, inside, locks, kept, shows', complete⟩ :=
      complete x.attempt.id (List.mem_map_of_mem member)
    refine ⟨shown, List.mem_cons_of_mem _ inside, locks, fun y job => ?_, shows', ?_⟩
    · exact kept (read _ (abandoned_mem job).1).1
    · intro q known h h' seen probe current probe'
      have written := complete q known h h' seen probe current probe'
      rcases write_cases store _ (.health q) with ⟨value, member, same⟩ | ⟨others, -⟩
      · obtain ⟨a, -, h'', current', probe'', rfl⟩ := circuits q value member
        obtain rfl := Option.mem_unique current current'
        obtain rfl := Option.mem_unique probe' probe''
        exact same
      · exact absurd rfl (others _ (List.mem_append_right _ written))

end Recovery

section Steps

variable [Primitives]

/-- A provider is configured, or joins a group under the lock of the group. -/
structure Provider.Managed (final : Set (Resource × Mode)) (old p : Provider) : Prop where
  attempts : p.attempts = old.attempts
  healthCheckEnabled : p.healthCheckEnabled = old.healthCheckEnabled
  quotaGroup : p.quotaGroup = old.quotaGroup ∨ old.quotaGroup = none ∧
    ∃ g, p.quotaGroup = some g ∧ (Resource.group g, Mode.exclusive) ∈ final

structure Administered (d : Catalog) (final : Set (Resource × Mode)) (store after : Store) : Prop where
  tables : after.tables = store.tables
  attempts : ∀ a, after (.attempt a) = store (.attempt a)
  healths : ∀ q, after (.health q) = store (.health q)
  providers : ∀ q, after (.provider q) = store (.provider q) ∨
    (∃ p, q ∈ d.providers ∧ store (.provider q) = none ∧ after (.provider q) = some p ∧
      p.attempts = [] ∧ p.quotaGroup = none) ∨
    ∃ old p, store (.provider q) = some old ∧ after (.provider q) = some p ∧ old.Managed final p

inductive Step (d : Catalog) (shows : Visibility Resource.Value)
    (seen : List Store) (final : Set (Resource × Mode)) (store after : Store) : Request → Prop
  | queue {op : Op} {inner : List (Sigma Queue.Resource.Value)} (plain : ordinary op = true)
      (yields : op.statements.Yields store.tables (seen.map Store.tables) inner)
      (tables : after.tables = store.tables.write inner)
      (rest : ∀ object, (∀ target, .table target ≠ object) → after object = store object) :
      Step d shows seen final store after (.queue op)
  | claim {id : MessageID} {i : AdmitInput} {m m' : Message} {p shown : Provider}
      {counting admitting : Store} (listed : id ∈ d.messages)
      (claimed : Claimed d shows id i seen store after m m' p shown counting admitting)
      (locks : withGroup p (claimLocks id i) ⊆ final) :
      Step d shows seen final store after (.claim id i)
  | finish {id : MessageID} {i : FinishInput} {m m' : Message} {a : Queue.Attempt} {p : Provider}
      (finished : Finished id i store after m m' a p)
      (lock : (.provider a.provider, .exclusive) ∈ final) :
      Step d shows seen final store after (.finish id i)
  | recover {ids : List MessageID} {i : RecoverInput} {clock : AttemptID → Int} {view : Store}
      {jobs : List Abandoned}
      (recovered : Recovered d shows ids i clock seen store after view jobs) :
      Step d shows seen final store after (.recover ids i clock)
  | administer {request : Request} (administered : Administered d final store after) :
      Step d shows seen final store after request

variable {shows : Visibility Resource.Value} {store : Store} {d : Catalog}
variable {final : Set (Resource × Mode)} {seen : List Store}
variable {writes : List (Sigma Resource.Value)}

omit [Primitives] in
theorem administered_of_provider {id : ProviderID} {p : Provider}
    (change : (id ∈ d.providers ∧ store (.provider id) = none ∧ p.attempts = [] ∧ p.quotaGroup = none) ∨
      ∃ old, store (.provider id) = some old ∧ old.Managed final p) :
    Administered d final store (store.write [putProvider id p]) := by
  refine ⟨tables_write _ _, fun a => write_other (by simp [putProvider]),
    fun q => write_other (by simp [putProvider]), fun q => ?_⟩
  by_cases same : q = id
  · subst same
    have written : store.write [putProvider q p] (.provider q) = some p :=
      Function.update_self _ _ _
    rcases change with ⟨known, absent, fresh⟩ | ⟨old, found, managed⟩
    · exact .inr (.inl ⟨p, known, absent, written, fresh⟩)
    · exact .inr (.inr ⟨old, p, found, written, managed⟩)
  · exact .inl (write_other (by simp [putProvider, Ne.symm same]))

omit [Primitives] in
theorem administered_of_group {id : GroupID} {g : Group} :
    Administered d final store (store.write [⟨.group id, some g⟩]) :=
  ⟨tables_write _ _, fun a => write_other (by simp), fun q => write_other (by simp),
    fun q => .inl (write_other (by simp))⟩

theorem step_of_runs {request : Request}
    (runs : (request.statements d).Runs shows store Anything ∅ seen writes final) :
    Step d shows seen final store (store.write writes) request := by
  cases request with
  | queue op =>
    obtain ⟨plain, runs⟩ := check_runs.mp runs
    obtain ⟨inner, rfl, yields⟩ := embed_runs runs
    refine .queue plain yields ?_ fun object other => write_other fun write member => ?_
    · rw [tables_write, List.filterMap_map]
      exact congrArg store.tables.write (List.filterMap_some)
    · obtain ⟨target, -, rfl⟩ := List.mem_map.mp member
      exact other _
  | claim id i =>
    obtain ⟨listed, runs⟩ := check_runs.mp runs
    obtain ⟨m, m', p, shown, counting, admitting, claimed, locks⟩ := claimed_of_runs runs
    exact .claim (by simpa using listed) claimed locks
  | finish id i =>
    obtain ⟨m, m', a, p, finished, lock⟩ := finished_of_runs runs
    exact .finish finished lock
  | recover ids i clock =>
    obtain ⟨view, jobs, recovered⟩ := recovered_of_runs runs
    exact .recover recovered
  | createProvider id s enabled =>
    obtain ⟨valid, runs⟩ := check_runs.mp runs
    obtain ⟨absent, runs⟩ := check_runs.mp runs
    obtain ⟨-, rfl, rfl⟩ := runs
    rw [Bool.and_eq_true, decide_eq_true_eq] at valid
    exact .administer (administered_of_provider
      (.inl ⟨valid.2, Option.isNone_iff_eq_none.mp absent, rfl, rfl⟩))
  | configureProvider id expected s =>
    obtain ⟨-, runs⟩ := check_runs.mp runs
    obtain ⟨p, before, runs⟩ := lockRow_runs.mp runs
    obtain ⟨-, runs⟩ := check_runs.mp runs
    obtain ⟨-, rfl, rfl⟩ := runs
    exact .administer (administered_of_provider (.inr ⟨p, before, rfl, rfl, .inl rfl⟩))
  | createQuotaGroup id hourly daily =>
    obtain ⟨-, runs⟩ := check_runs.mp runs
    obtain ⟨-, runs⟩ := check_runs.mp runs
    obtain ⟨-, rfl, rfl⟩ := runs
    exact .administer administered_of_group
  | configureQuotaGroup id expected hourly daily =>
    obtain ⟨-, runs⟩ := check_runs.mp runs
    obtain ⟨g, -, runs⟩ := lockRow_runs.mp runs
    obtain ⟨-, runs⟩ := check_runs.mp runs
    obtain ⟨-, rfl, rfl⟩ := runs
    exact .administer administered_of_group
  | attachQuotaGroup provider group expected =>
    obtain ⟨p, before, runs⟩ := lockRow_runs.mp runs
    obtain ⟨detached, runs⟩ := check_runs.mp runs
    obtain ⟨g, -, runs⟩ := lockRow_runs.mp runs
    obtain ⟨-, rfl, rfl⟩ := runs
    rw [decide_eq_true_eq] at detached
    refine .administer (administered_of_provider (.inr ⟨p, before, rfl, rfl, .inr ?_⟩))
    exact ⟨detached.2, group, rfl, Set.mem_insert _ _⟩

end Steps

end RelayTale.Admission
