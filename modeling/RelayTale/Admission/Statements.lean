import RelayTale.Admission.State
import RelayTale.Foundation.Composition

/-!
# Admission as statements

`Claim` selects a message and a provider with separate snapshots, counts the
connections again once it has the provider, locks the quota group and only then
reads what is left of the quotas. `Finish` takes the provider after its message.
`Recover` releases an abandoned probe without the lock of the provider. All
other transactions of the queue run beside them unchanged.
-/

namespace RelayTale.Admission

open Locking
open Locking.Program (check ifSome ifOk select lockRow selectRow lockCandidates check_guarded
  ifSome_guarded ifOk_guarded select_guarded lockRow_guarded selectRow_guarded
  lockCandidates_guarded)
open Queue (Message Action Op ClaimInput RecoverInput Candidate)

section Rows

def put (id : MessageID) (m : Message) : Sigma Resource.Value := ⟨.table (.message id), some m⟩

def putProvider (id : ProviderID) (p : Provider) : Sigma Resource.Value := ⟨.provider id, some p⟩

def putHealth (id : ProviderID) (h : Health) : Sigma Resource.Value := ⟨.health id, some h⟩

abbrev lockPolicy (next : List Queue.Entry → Statements) : Statements :=
  select (.table .policy) .shared next

abbrev lockMessage (id : MessageID) (next : Message → Statements) : Statements :=
  lockRow (.table (.message id)) (fun m => m) next

abbrev lockProvider (id : ProviderID) (next : Provider → Statements) : Statements :=
  lockRow (.provider id) (fun p => p) next

abbrev lockGroup (id : GroupID) (next : Group → Statements) : Statements :=
  lockRow (.group id) (fun g => g) next

abbrev selectMessage (id : MessageID) (next : Store → Message → Message → Statements) : Statements :=
  selectRow (.table (.message id)) (fun m => m) next

abbrev selectProvider (id : ProviderID) (next : Store → Provider → Provider → Statements) :
    Statements :=
  selectRow (.provider id) (fun p => p) next

end Rows

section Claim

structure AdmitInput where
  claim : ClaimInput
  healthEnabled : Bool
  eligibleClock : Int
  activeClock : Int
  quotaClock : Int
  reserveClock : Int
  probeClock : Int

namespace AdmitInput

abbrev provider (i : AdmitInput) : ProviderID := i.claim.provider

abbrev attempt (i : AdmitInput) : AttemptID := i.claim.attempt

variable (d : Catalog) (view : Store)

/-- `controlRequirements`. -/
def controlled (clock : Int) (p : Provider) (i : AdmitInput) : Bool :=
  decide (0 < remaining d view clock p) &&
    (!i.healthEnabled || circuitAvailable clock p (view (.health i.provider)))

/-- `providerRequirements` and `controlRequirements`. The columns are those of
the locked row, the reservations those of the snapshot. -/
def eligible (old p : Provider) (i : AdmitInput) : Bool :=
  decide (1 ≤ p.timeoutSeconds ∧ p.timeoutSeconds ≤ 300 ∧ 1 ≤ p.maxConnections ∧
    p.maxConnections ≤ 32 ∧ active d view i.provider i.eligibleClock < p.maxConnections) &&
    i.controlled d view i.eligibleClock { p with attempts := old.attempts }

/-- The claim with the allowance of `admission`. -/
def admitted (allowance : Int) (p : Provider) (i : AdmitInput) : ClaimInput :=
  { i.claim with allowance := allowance.toNat, timeoutSeconds := p.timeoutSeconds }

def usage (units : Nat) (i : AdmitInput) : Usage where
  attempt := i.attempt
  startedAt := i.claim.now
  reservedAt := i.reserveClock
  units := units

end AdmitInput

def lockGroupOf (p : Provider) (next : Statements) : Statements :=
  match p.quotaGroup with
  | some g => .acquire (.group g) .exclusive next
  | none => next

def insertAttempt (attempt : AttemptID) (next : Statements) : Statements :=
  .acquire (.attempt attempt) .exclusive
    (.read (.attempt attempt) fun used => check used.isNone next)

/-- The update with which `reserveControls` makes the attempt the probe of a
circuit whose pause is over. -/
def startProbe (i : AdmitInput) (writes : List (Sigma Resource.Value)) : Statements :=
  .snapshot fun view =>
    match (view (.health i.provider)).filter (·.due i.probeClock) with
    | none => .commit writes
    | some _ =>
        .acquire (.health i.provider) .exclusive (.read (.health i.provider) fun found =>
          match found.filter (·.due i.probeClock) with
          | none => .commit writes
          | some h => .commit (putHealth i.provider (h.startProbe i.attempt) :: writes))

variable [Primitives] (d : Catalog)

/-- `reserveControls` and the commit, with the message as `Claim` leaves it. -/
def reserveControls (id : MessageID) (i : AdmitInput) (units : Nat) (p : Provider) (m : Message) :
    Statements :=
  insertAttempt i.attempt <|
    let writes := [put id m, ⟨.attempt i.attempt, some id⟩,
      putProvider i.provider (p.reserve (i.usage units))]
    if i.healthEnabled && p.healthCheckEnabled then startProbe i writes else .commit writes

/-- `admission` and the updates of `Claim`. -/
def admission (id : MessageID) (i : AdmitInput) (entries : List Queue.Entry) (m : Message)
    (p : Provider) : Statements :=
  lockGroupOf p <|
    .snapshot fun view => ifSome (view (.provider i.provider)) fun seen =>
      check (i.controlled d view i.quotaClock seen) <|
        let c := i.admitted (remaining d view i.quotaClock seen) p
        ifOk (Queue.claimSelected entries c m) fun next =>
          reserveControls id i (Queue.picks entries c m).length p next

/-- `Claim`. -/
def claimStatements (id : MessageID) (i : AdmitInput) : Statements :=
  lockPolicy fun entries =>
    selectMessage id fun _ old m =>
      check (Queue.selectable entries i.claim (old.reread m)) <|
        selectProvider i.provider fun view old p =>
          check (i.eligible d view old p) <|
            .snapshot fun view =>
              check (active d view i.provider i.activeClock < p.maxConnections) <|
                admission d id i entries m p

end Claim

section Finish

structure FinishInput where
  flags : Queue.Flags
  job : Queue.Job
  dispatch : Queue.Dispatch
  healthEnabled : Bool
  clock : Int
  now : Int
  observeClock : Int
  windowClock : Int
  turnClock : Int

def FinishInput.result [Primitives] (m : Message) (i : FinishInput) : Smtp.Result :=
  i.dispatch.result (m.envelope i.job)

/-- The samples counted by `finishHealth`, which include the one just taken. -/
def FinishInput.samples (sample : Outcome) (p : Provider) (h : Health) (i : FinishInput) :
    List Outcome :=
  Admission.samples h.samplesSince i.windowClock
    (p.observe i.job.attempt sample i.observeClock).attempts

/-- The circuit after `finishHealth`. -/
def finishHealth (i : FinishInput) (sample : Outcome) (p : Provider) (h : Health) : Health :=
  let counted := i.samples sample p h
  h.turn (i.healthEnabled && p.healthCheckEnabled) i.job.attempt sample counted.length
    (counted.count .failure) i.turnClock

variable [Primitives]

/-- `Finish`. -/
def finishStatements (id : MessageID) (i : FinishInput) : Statements :=
  lockMessage id fun m =>
    ifOk (Queue.fence i.job none m) fun _ => ifSome (m.current i.job) fun a =>
      lockProvider a.provider fun p =>
        ifOk (Queue.finish i.flags i.job (i.result m) i.clock i.now m) fun next =>
          .acquire (.health a.provider) .exclusive (.read (.health a.provider) fun found =>
            let sample := sampleOf (i.result m)
            .commit [put id next,
              putProvider a.provider (p.observe i.job.attempt sample i.observeClock),
              putHealth a.provider (finishHealth i sample p (found.getD {}))])

end Finish

section Recovery

/-- A message to be recovered with the attempt that was selected for it. -/
structure Abandoned where
  id : MessageID
  old : Message
  current : Message
  attempt : Queue.Attempt

def abandoned (leaseClock : Int) (found : List Candidate) : List Abandoned :=
  found.filterMap fun x =>
    (Queue.abandoned leaseClock (x.old.reread x.current)).map (⟨x.id, x.old, x.current, ·⟩)

def Abandoned.recovered (i : RecoverInput) (x : Abandoned) : Message :=
  Queue.recoverAttempt i x.attempt.id x.attempt.dataArmedAt.isSome x.current

/-- `recoverProbe`, once its snapshot is taken, for these providers. -/
def recoverProbe (attempt : AttemptID) (clock : Int) (view : Store) :
    List ProviderID → (List (Sigma Resource.Value) → Statements) → Statements
  | [], next => next []
  | p :: rest, next =>
      match (view (.health p)).filter (·.probe = some attempt) with
      | none => recoverProbe attempt clock view rest next
      | some _ =>
          .acquire (.health p) .exclusive (.read (.health p) fun found =>
            match found.filter (·.probe = some attempt) with
            | none => recoverProbe attempt clock view rest next
            | some h => recoverProbe attempt clock view rest fun others =>
                next (putHealth p (h.trip clock) :: others))

def recoverProbes (d : Catalog) (clock : AttemptID → Int) :
    List AttemptID → (List (Sigma Resource.Value) → Statements) → Statements
  | [], next => next []
  | attempt :: rest, next =>
      .snapshot fun view => recoverProbe attempt (clock attempt) view d.providers fun writes =>
        recoverProbes d clock rest fun others => next (writes ++ others)

/-- `Recover`. -/
def recoverStatements (d : Catalog) (ids : List MessageID) (i : RecoverInput)
    (clock : AttemptID → Int) : Statements :=
  check (ids.Nodup ∧ ids.length ≤ 20) <|
    .snapshot fun view => lockCandidates (fun id => .table (.message id)) (fun _ m => m) view ids fun found =>
      let jobs := abandoned i.leaseClock found
      recoverProbes d clock (jobs.map (·.attempt.id)) fun writes =>
        .commit (jobs.map (fun x => put x.id (x.recovered i)) ++ writes)

end Recovery

section Requests

variable [Primitives]

/-- Claims, finishes and recoveries are those above. -/
def ordinaryAction : Action → Bool
  | .claim _ | .finish _ _ _ _ _ | .recover _ => false
  | _ => true

def ordinary : Op → Bool
  | .transact _ action | .batch _ action => ordinaryAction action
  | _ => true

inductive Request
  | queue (op : Op)
  | claim (id : MessageID) (i : AdmitInput)
  | finish (id : MessageID) (i : FinishInput)
  | recover (ids : List MessageID) (i : RecoverInput) (clock : AttemptID → Int)
  | createProvider (id : ProviderID) (s : Settings) (healthCheckEnabled : Bool)
  | configureProvider (id : ProviderID) (expected : Nat) (s : Settings)
  | createQuotaGroup (id : GroupID) (hourlyLimit dailyLimit : Nat)
  | configureQuotaGroup (id : GroupID) (expected hourlyLimit dailyLimit : Nat)
  | attachQuotaGroup (provider : ProviderID) (group : GroupID) (expected : Nat)

def limitsValid (hourlyLimit dailyLimit : Nat) : Bool :=
  decide (hourlyLimit ≤ unlimited ∧ dailyLimit ≤ unlimited)

/-- Messages are claimed and providers are created within the catalog, so that
the loops over it miss nothing. -/
def Request.statements (d : Catalog) : Request → Statements
  | .queue op => check (ordinary op) (Program.embed Resource.table op.statements)
  | .claim id i => check (decide (id ∈ d.messages)) (claimStatements d id i)
  | .finish id i => finishStatements id i
  | .recover ids i clock => recoverStatements d ids i clock
  | .createProvider id s healthCheckEnabled =>
      check (s.valid && decide (id ∈ d.providers)) <|
        .acquire (.provider id) .exclusive (.read (.provider id) fun found =>
          check found.isNone (.commit [putProvider id (s.provider healthCheckEnabled)]))
  | .configureProvider id expected s =>
      check s.valid <| lockProvider id fun p =>
        check (p.revision = expected) (.commit [putProvider id (p.configure s)])
  | .createQuotaGroup id hourlyLimit dailyLimit =>
      check (limitsValid hourlyLimit dailyLimit) <|
        .acquire (.group id) .exclusive (.read (.group id) fun found =>
          check found.isNone (.commit [⟨.group id, some { hourlyLimit, dailyLimit }⟩]))
  | .configureQuotaGroup id expected hourlyLimit dailyLimit =>
      check (limitsValid hourlyLimit dailyLimit) <| lockGroup id fun g =>
        check (g.revision = expected)
          (.commit [⟨.group id, some { revision := g.revision + 1, hourlyLimit, dailyLimit }⟩])
  | .attachQuotaGroup provider group expected =>
      lockProvider provider fun p =>
        check (p.revision = expected ∧ p.quotaGroup = none) <|
          lockGroup group fun _ => .commit [putProvider provider (p.attach group)]

def emptyStore : Store
  | .table resource => Queue.emptyTables resource
  | .attempt _ | .provider _ | .group _ | .health _ => none

def interleaving (d : Catalog) (events : List (Event Request)) : Config Request Resource.Value :=
  Config.run (Request.statements d) { store := emptyStore } events

end Requests

section Guarded

variable {held : Set (Resource × Mode)}

abbrev Covers (writes : List (Sigma Resource.Value)) (held : Set (Resource × Mode)) : Prop :=
  ∀ write ∈ writes, (write.1, Mode.exclusive) ∈ held

theorem recoverProbe_guarded {attempt : AttemptID} {clock : Int} {view : Store}
    {providers : List ProviderID} {next : List (Sigma Resource.Value) → Statements}
    (guarded : ∀ writes more, held ⊆ more → Covers writes more → (next writes).Guarded more) :
    (recoverProbe attempt clock view providers next).Guarded held := by
  induction providers generalizing next held with
  | nil => exact guarded [] held subset_rfl (List.forall_mem_nil _)
  | cons p rest ih =>
    unfold recoverProbe
    have granted : held ⊆ insert (.health p, .exclusive) held := Set.subset_insert _ _
    split
    · exact ih guarded
    · refine ⟨⟨.exclusive, Set.mem_insert _ _⟩, fun found => ?_⟩
      dsimp only
      split
      · exact ih fun writes more subset => guarded writes more (granted.trans subset)
      · refine ih fun writes more subset covers => guarded _ more (granted.trans subset) ?_
        exact List.forall_mem_cons.mpr ⟨subset (Set.mem_insert _ _), covers⟩

theorem recoverProbes_guarded {d : Catalog} {clock : AttemptID → Int} {attempts : List AttemptID}
    {next : List (Sigma Resource.Value) → Statements}
    (guarded : ∀ writes more, held ⊆ more → Covers writes more → (next writes).Guarded more) :
    (recoverProbes d clock attempts next).Guarded held := by
  induction attempts generalizing next held with
  | nil => exact guarded [] held subset_rfl (List.forall_mem_nil _)
  | cons attempt rest ih =>
    refine fun view => recoverProbe_guarded fun writes more subset covers => ?_
    refine ih fun others most subset' covers' => guarded _ most (subset.trans subset') ?_
    exact List.forall_mem_append.mpr ⟨fun write member => subset' (covers write member), covers'⟩

variable [Primitives]

omit [Primitives] in
theorem startProbe_guarded {i : AdmitInput} {writes : List (Sigma Resource.Value)}
    (covers : Covers writes held) : (startProbe i writes).Guarded held := by
  intro view
  dsimp only
  have more : Covers writes (insert (.health i.provider, .exclusive) held) :=
    fun write member => Set.mem_insert_of_mem _ (covers write member)
  split
  · exact covers
  · refine ⟨⟨.exclusive, Set.mem_insert _ _⟩, fun found => ?_⟩
    dsimp only
    split
    · exact more
    · exact List.forall_mem_cons.mpr ⟨Set.mem_insert _ _, more⟩

theorem claimStatements_guarded (d : Catalog) (id : MessageID) (i : AdmitInput) :
    (claimStatements d id i).Guarded ∅ := by
  refine select_guarded fun entries => selectRow_guarded fun _ old m => check_guarded ?_
  refine selectRow_guarded fun view old p => check_guarded fun view => check_guarded ?_
  have reserving (held : Set (Resource × Mode)) (units : Nat) (next : Message)
      (message : (Resource.table (.message id), Mode.exclusive) ∈ held)
      (provider : (Resource.provider i.provider, Mode.exclusive) ∈ held) :
      (reserveControls id i units p next).Guarded held := by
    refine ⟨⟨.exclusive, Set.mem_insert _ _⟩, fun used => check_guarded ?_⟩
    have covers : Covers [put id next, ⟨.attempt i.attempt, some id⟩,
        putProvider i.provider (p.reserve (i.usage units))]
        (insert (.attempt i.attempt, .exclusive) held) := by
      simp [Covers, put, putProvider, message, provider]
    split
    · exact startProbe_guarded covers
    · exact covers
  have admitting (held : Set (Resource × Mode))
      (message : (Resource.table (.message id), Mode.exclusive) ∈ held)
      (provider : (Resource.provider i.provider, Mode.exclusive) ∈ held) (view : Store) :
      (ifSome (view (.provider i.provider)) fun seen =>
        check (i.controlled d view i.quotaClock seen) <|
          ifOk (Queue.claimSelected entries
            (i.admitted (remaining d view i.quotaClock seen) p) m) fun next =>
            reserveControls id i (Queue.picks entries
              (i.admitted (remaining d view i.quotaClock seen) p) m).length p next).Guarded held :=
    ifSome_guarded fun seen => check_guarded <| ifOk_guarded fun next =>
      reserving held _ next message provider
  unfold admission lockGroupOf
  split
  · exact admitting _ (by simp) (by simp)
  · exact admitting _ (by simp) (by simp)

theorem statements_guarded (d : Catalog) (request : Request) :
    (request.statements d).Guarded ∅ := by
  cases request with
  | queue op =>
    exact check_guarded (embed_guarded_empty (Queue.statements_guarded op))
  | claim id i => exact check_guarded (claimStatements_guarded d id i)
  | finish id i =>
    refine lockRow_guarded fun m => ifOk_guarded fun _ => ifSome_guarded fun a => ?_
    refine lockRow_guarded fun p => ifOk_guarded fun next => ?_
    refine ⟨⟨.exclusive, Set.mem_insert _ _⟩, fun found => ?_⟩
    intro write member
    simp only [List.mem_cons, List.not_mem_nil, or_false] at member
    rcases member with rfl | rfl | rfl <;> simp [put, putProvider, putHealth]
  | recover ids i clock =>
    refine check_guarded fun view => lockCandidates_guarded fun found held _ locked => ?_
    refine recoverProbes_guarded fun writes more subset covers => ?_
    refine List.forall_mem_append.mpr ⟨fun write member => subset ?_, covers⟩
    obtain ⟨x, inside, rfl⟩ := List.mem_map.mp member
    obtain ⟨candidate, selected, same⟩ := List.mem_filterMap.mp inside
    obtain ⟨a, -, rfl⟩ := Option.map_eq_some_iff.mp same
    exact locked candidate selected
  | createProvider id s enabled =>
    refine check_guarded ⟨⟨.exclusive, Set.mem_insert _ _⟩, fun found => check_guarded ?_⟩
    exact List.forall_mem_singleton.mpr (Set.mem_insert _ _)
  | configureProvider id expected s =>
    refine check_guarded <| lockRow_guarded fun p => check_guarded ?_
    exact List.forall_mem_singleton.mpr (Set.mem_insert _ _)
  | createQuotaGroup id hourly daily =>
    refine check_guarded ⟨⟨.exclusive, Set.mem_insert _ _⟩, fun found => check_guarded ?_⟩
    exact List.forall_mem_singleton.mpr (Set.mem_insert _ _)
  | configureQuotaGroup id expected hourly daily =>
    refine check_guarded <| lockRow_guarded fun g => check_guarded ?_
    exact List.forall_mem_singleton.mpr (Set.mem_insert _ _)
  | attachQuotaGroup provider group expected =>
    refine lockRow_guarded fun p => check_guarded <| lockRow_guarded fun g => ?_
    exact List.forall_mem_singleton.mpr (Set.mem_insert_of_mem _ (Set.mem_insert _ _))

end Guarded

end RelayTale.Admission
