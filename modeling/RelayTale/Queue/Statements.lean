import RelayTale.Foundation.Composition
import RelayTale.Queue.Succession

/-!
# The transactions as statements

The operations again, now with the locks they take and with what they read
before they have them. `FOR UPDATE` waits for the message row and goes on with
the row it finds then. `FOR UPDATE OF m SKIP LOCKED` reads a snapshot, locks the
message rows that are free and reads these again, but not the recipients and the
attempts that belong to them. The advisory lock of the suppression policy is taken
exclusively by its writers and shared by its readers.
-/

namespace RelayTale.Queue

open Locking Guard
open Locking.Program (check ifOk select lockRow selectRow lockCandidates check_guarded ifOk_guarded
  select_guarded lockRow_guarded selectRow_guarded lockCandidates_guarded)

/-- What a lock is for: `suppression_entries`, or a message with its children. -/
inductive Resource
  | policy
  | message (id : MessageID)
  deriving DecidableEq

abbrev Resource.Value : Resource → Type
  | .policy => List Entry
  | .message _ => Option Message

abbrev Tables := Store Resource.Value

abbrev Statements := Program Resource.Value

/-- What a selection with locks returns for a message that it read as `old` and
locked as `current`: only the columns of the message row are the current ones. -/
def Message.reread (old current : Message) : Message :=
  { current with row := old.row, attempts := old.attempts }

/-- The constraint `cancelled_message_terminal` on the message row. -/
def Message.admitted (m : Message) : Prop :=
  m.cancelledAt = none ∨ m.status = .cancelled ∧ m.lockedBy = none ∧ m.nextAttemptAt = none

instance (m : Message) : Decidable m.admitted := by
  unfold Message.admitted
  infer_instance

def put (id : MessageID) (m : Message) : Sigma Resource.Value := ⟨.message id, some m⟩

def save (id : MessageID) (result : Except Refusal Message) : Statements :=
  ifOk result fun m => .commit [put id m]

/-- `SELECT ... FOR UPDATE` of a message. -/
abbrev lockMessage (id : MessageID) (next : Message → Statements) : Statements :=
  lockRow (.message id) (fun m => m) next

abbrev selectMessage (id : MessageID) (next : Tables → Message → Message → Statements) :
    Statements :=
  selectRow (.message id) (fun m => m) next

/-- `suppression.Lock` for reading. -/
abbrev lockPolicy (next : List Entry → Statements) : Statements := select .policy .shared next

/-- `suppression.Lock` for writing, as `begin` of the service takes it. -/
def changePolicy (change : List Entry → Except Refusal (List Entry)) : Statements :=
  select .policy .exclusive fun entries =>
    ifOk (change entries) fun next => .commit [⟨.policy, next⟩]

section Selections

abbrev Candidate := Locking.Candidate MessageID Message

/-- The loop over the selected messages. `settle` answers for the messages that
the selection returns, and the database for the rows it is to store. -/
def settleAll (settle : Message → Message → Option (Except Refusal Message)) :
    List Candidate → Except Refusal (List (Sigma Resource.Value))
  | [] => pure []
  | x :: rest =>
      match settle x.old x.current with
      | none => settleAll settle rest
      | some result => do
          let m ← result
          require m.admitted .checkViolation
          let others ← settleAll settle rest
          pure (put x.id m :: others)

def saveAll (settle : Message → Message → Option (Except Refusal Message))
    (found : List Candidate) : Statements :=
  ifOk (settleAll settle found) .commit

def selecting (ids : List MessageID) (next : Tables → List Candidate → Statements) : Statements :=
  .snapshot fun view => lockCandidates Resource.message (fun _ m => m) view ids (next view)

end Selections

variable [Primitives]

/-- `enqueueTx`. The new row is locked by its insertion. -/
def createMessage (id : MessageID) (s : Submission) (next : Message → Statements) : Statements :=
  select (.message id) .exclusive fun found =>
    if found.isSome then .abort
    else if s.production then lockPolicy fun entries => ifOk (s.enqueue entries) next
    else ifOk (s.enqueue []) next

/-- The claim as its later statements find the message: what the selection has
read in its snapshot is checked again. -/
def ClaimInput.settled (c : ClaimInput) : ClaimInput :=
  { c with openClock := c.pickClock, pathClock := c.routeClock }

def Action.settled : Action → Action
  | .claim c => .claim c.settled
  | action => action

/-- The transactions on one message. Those that read the policy take its lock
after the message, only `Claim` takes it first. -/
def Action.statements (id : MessageID) : Action → Statements
  | .claim c =>
      lockPolicy fun entries => selectMessage id fun _ old m =>
        check (selectable entries c (old.reread m)) (save id (claimSelected entries c m))
  | .armData job i =>
      lockMessage id fun m => ifOk (fence job (some i.leaseClock) m) fun _ =>
        lockPolicy fun entries => save id ((Queue.armData entries job i m).map Prod.fst)
  | .resolveUnknown v =>
      lockMessage id fun m =>
        if v.action = .retry then
          lockPolicy fun entries => save id (Queue.resolveUnknown entries v m)
        else save id (Queue.resolveUnknown [] v m)
  | .record job event clock => lockMessage id fun m => save id (Queue.record job event clock m)
  | .finish flags job dispatch clock now =>
      lockMessage id fun m =>
        save id (Queue.finish flags job (dispatch.result (m.envelope job)) clock now m)
  | .cancelPending identity replacing clock =>
      lockMessage id fun m => save id (Queue.cancelPending identity replacing clock m)
  | .retire => lockMessage id fun m => save id (Queue.retire m)
  | .recover _ | .schedule _ | .sweepExpired _ _ _ | .sweepSuppressed _ _ _ => .abort

/-- The transactions on a batch of messages. `SweepSuppressed` selects before it
has locked the policy. -/
def Action.batchStatements (ids : List MessageID) : Action → Statements
  | .recover i => selecting ids fun _ => saveAll fun old m =>
      (abandoned i.leaseClock (old.reread m)).map fun a =>
        .ok (recoverAttempt i a.id a.dataArmedAt.isSome m)
  | .schedule i => selecting ids fun _ => saveAll fun old m =>
      if schedulable i (old.reread m) then some (scheduleSelected i m) else none
  | .sweepExpired selectClock expiryClock now => selecting ids fun _ => saveAll fun old m =>
      if expirable selectClock (old.reread m) then some (.ok ((m.applyExpiry expiryClock).refresh now))
      else none
  | .sweepSuppressed selectClock policyClock now => selecting ids fun view found =>
      lockPolicy fun entries => saveAll (fun old m =>
        if suppressible (view .policy) selectClock (old.reread m) then
          some (.ok ((m.suppressHits entries policyClock false).refresh now))
        else none) found
  | _ => .abort

def Op.statements : Op → Statements
  | .enqueue id s => createMessage id s fun m => .commit [put id m]
  | .transact id action => action.statements id
  | .batch ids action =>
      if ids.Nodup ∧ ids.length ≤ 20 then action.batchStatements ids else .abort
  | .replace old new identity clock s =>
      if s.apiKey = some identity then
        lockMessage old fun m => ifOk (cancelPending identity true clock m) fun cancelled =>
          createMessage new s fun fresh => .commit [put old cancelled, put new fresh]
      else .abort
  | .addSuppression v => changePolicy (Queue.addSuppression v)
  | .releaseSuppression id clock => changePolicy (Queue.releaseSuppression id clock)

section Guarded

variable {held : Set (Resource × Mode)} {id : MessageID}

omit [Primitives]

theorem save_guarded {result : Except Refusal Message}
    (locked : (Resource.message id, Mode.exclusive) ∈ held) : (save id result).Guarded held :=
  ifOk_guarded fun _ => List.forall_mem_singleton.mpr locked

theorem changePolicy_guarded {change : List Entry → Except Refusal (List Entry)} :
    (changePolicy change).Guarded held :=
  select_guarded fun _ => ifOk_guarded fun _ =>
    List.forall_mem_singleton.mpr (Set.mem_insert _ _)

end Guarded

section Yields

variable {store view : Tables} {seen : List Tables} {writes : List (Sigma Resource.Value)}
variable {id : MessageID}

omit [Primitives]

theorem save_yields {result : Except Refusal Message} :
    (save id result).Yields store seen writes ↔
      ∃ m, result = .ok m ∧ seen = [] ∧ writes = [put id m] :=
  Program.ifOk_yields

/-- What the loop over the selected messages writes. -/
theorem settleAll_ok {settle : Message → Message → Option (Except Refusal Message)}
    {found : List Candidate} (settled : settleAll settle found = .ok writes) :
    ∃ results : List (Candidate × Message), writes = results.map (fun x => put x.1.id x.2) ∧
      List.Sublist (results.map Prod.fst) found ∧
      ∀ x ∈ results, settle x.1.old x.1.current = some (.ok x.2) ∧ x.2.admitted := by
  induction found generalizing writes with
  | nil =>
    obtain rfl := pure_eq_ok.mp settled
    exact ⟨[], rfl, .slnil, by simp⟩
  | cons candidate rest ih =>
    unfold settleAll at settled
    split at settled
    · obtain ⟨results, same, sublist, each⟩ := ih settled
      exact ⟨results, same, sublist.cons candidate, each⟩
    next result answer =>
      simp only [do_eq_ok, require_eq_ok, exists_const, pure_eq_ok] at settled
      obtain ⟨m, rfl, admitted, others, later, rfl⟩ := settled
      obtain ⟨results, rfl, sublist, each⟩ := ih later
      exact ⟨(candidate, m) :: results, rfl, sublist.cons_cons candidate,
        List.forall_mem_cons.mpr ⟨⟨answer, admitted⟩, each⟩⟩

theorem saveAll_guarded {held : Set (Resource × Mode)}
    {settle : Message → Message → Option (Except Refusal Message)}
    {found : List Candidate}
    (locked : ∀ x ∈ found, (Resource.message x.id, Mode.exclusive) ∈ held) :
    (saveAll settle found).Guarded held := by
  unfold saveAll
  cases settled : settleAll settle found with
  | error refusal => trivial
  | ok writes =>
    obtain ⟨results, rfl, sublist, -⟩ := settleAll_ok settled
    intro write member
    obtain ⟨x, inside, rfl⟩ := List.mem_map.mp member
    exact locked x.1 (sublist.subset (List.mem_map_of_mem inside))

end Yields

section Transactions

variable {held : Set (Resource × Mode)}

theorem createMessage_guarded {id : MessageID} {s : Submission} {next : Message → Statements}
    (guarded : ∀ m more, insert (.message id, .exclusive) held ⊆ more → (next m).Guarded more) :
    (createMessage id s next).Guarded held := by
  refine ⟨⟨.exclusive, Set.mem_insert _ _⟩, fun found => ?_⟩
  dsimp only
  split
  · trivial
  split
  · exact select_guarded fun _ => ifOk_guarded fun m => guarded m _ (Set.subset_insert _ _)
  · exact ifOk_guarded fun m => guarded m _ subset_rfl

/-- Every transaction reads under locks and writes under exclusive ones. -/
theorem statements_guarded (op : Op) : op.statements.Guarded ∅ := by
  cases op with
  | enqueue id s =>
    refine createMessage_guarded fun m more subset => ?_
    exact List.forall_mem_singleton.mpr (subset (Set.mem_insert _ _))
  | addSuppression v => exact changePolicy_guarded
  | releaseSuppression id clock => exact changePolicy_guarded
  | replace old new identity clock s =>
    dsimp only [Op.statements]
    split
    · refine lockRow_guarded fun m => ifOk_guarded fun cancelled => ?_
      refine createMessage_guarded fun fresh more subset => ?_
      refine List.forall_mem_cons.mpr ⟨?_, List.forall_mem_singleton.mpr ?_⟩
      · exact subset (Set.mem_insert_of_mem _ (Set.mem_insert _ _))
      · exact subset (Set.mem_insert _ _)
    · trivial
  | transact id action =>
    cases action with
    | claim c =>
      exact select_guarded fun entries => selectRow_guarded fun view old m =>
        check_guarded (save_guarded (Set.mem_insert _ _))
    | armData job i =>
      refine lockRow_guarded fun m => ifOk_guarded fun _ => select_guarded fun entries => ?_
      exact save_guarded (Set.mem_insert_of_mem _ (Set.mem_insert _ _))
    | resolveUnknown v =>
      refine lockRow_guarded fun m => ?_
      split
      · exact select_guarded fun entries =>
          save_guarded (Set.mem_insert_of_mem _ (Set.mem_insert _ _))
      · exact save_guarded (Set.mem_insert _ _)
    | record | finish | cancelPending | retire =>
      exact lockRow_guarded fun m => save_guarded (Set.mem_insert _ _)
    | recover | schedule | sweepExpired | sweepSuppressed => trivial
  | batch ids action =>
    dsimp only [Op.statements]
    split
    case isFalse => trivial
    cases action with
    | recover | schedule | sweepExpired =>
      exact fun view => lockCandidates_guarded fun found more _ locked => saveAll_guarded locked
    | sweepSuppressed selectClock policyClock now =>
      refine fun view => lockCandidates_guarded fun found more _ locked => ?_
      exact select_guarded fun entries =>
        saveAll_guarded fun x inside => Set.mem_insert_of_mem _ (locked x inside)
    | _ => trivial

end Transactions

end RelayTale.Queue
