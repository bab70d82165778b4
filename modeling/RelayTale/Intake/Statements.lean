import RelayTale.Intake.State

/-!
# Submissions as statements

A submission inserts its row of the ledger first and so waits for every other
one with the same key. It holds the row of its identity from the first look at
the budgets to the commit. What it counts it reads with snapshots of their own,
after it has the identity. `ReceiveReplacing` looks the key up before it starts
the transaction, under a lock of the session that it does not wait for. That lock
can be lost at any time with its connection, and the call then goes on like one
of `EnqueueIdempotent`.
-/

namespace RelayTale.Intake

open Locking Guard
open Locking.Program (check ifSome select)
open Queue (Message Op)

section Calls

structure Clocks where
  cancel : Int
  expiry : Int
  schedule : Int
  capacity : Int
  usage : Int
  streamUsage : Int
  reserve : Int
  queuedAt : Int
  policy : Int
  now : Int
  deriving DecidableEq, Repr

/-- The fields of a submission that its handling depends on. -/
structure Submission where
  id : MessageID
  replaces : Option MessageID := none
  scheduleAt : Option Int := none
  expiresAt : Option Int := none
  stream : Bytes := []
  business : Business := {}
  sender : Address
  recipients : List Address
  archiveSHA256 : Bytes
  archiveSize : Nat
  deriving DecidableEq, Repr

def instant (time : Option Int) : Identity.Instant := ⟨time.getD zeroTime, 0⟩

/-- The submission to the byte. The fingerprint does not depend on the fields that are left empty. -/
def Submission.document [Mailboxes] (s : Submission) : Identity.Submission where
  replaces := s.replaces.elim [] Mailboxes.uuid
  scheduleAt := instant s.scheduleAt
  expiresAt := instant s.expiresAt
  stream := s.stream
  business := s.business
  id := []
  envelope := ⟨[], utf8 s.sender, s.recipients.map utf8⟩
  archive := ⟨[], s.archiveSize, s.archiveSHA256⟩
  messageID := []
  headerFrom := []
  subject := []
  receivedAt := instant none
  archivedAt := instant none

def requestFingerprint [Mailboxes] (s : Submission) : Except Refusal Fingerprint :=
  Identity.fields Mailboxes.bare s.document

/-- A call with what it generates. `acknowledged` says whether the caller learns
that the transaction was committed. -/
structure Call where
  call : CallID
  identity : IdentityID
  key : String
  submission : Submission
  recipientIDs : List RecipientID
  clocks : Clocks
  acknowledged : Bool

structure CancelCall where
  call : CallID
  identity : IdentityID
  message : MessageID
  clock : Int
  acknowledged : Bool

/-- An identity as `NewSendHandler` is started with it. -/
structure Configuration where
  identity : IdentityID
  budget : Budget
  production : Bool
  streams : Stream → Option StreamPolicy

namespace Call

abbrev id (i : Call) : MessageID := i.submission.id

abbrev units (i : Call) : Nat := i.submission.recipients.length

abbrev envelope (i : Call) : List (RecipientID × Address) :=
  i.recipientIDs.zip i.submission.recipients

/-- The submission as the queue takes it, once its environment is known. -/
def queued (i : Call) (production : Bool) : Option Queue.Submission :=
  if valid : i.recipientIDs.length = i.units ∧ i.envelope ≠ [] ∧ (i.envelope.map Prod.fst).Nodup then
    some {
      production
      apiKey := some i.identity
      recipients := i.envelope
      scheduleAt := i.submission.scheduleAt
      expiresAt := i.submission.expiresAt
      queuedAt := i.clocks.queuedAt
      policyClock := i.clocks.policy
      now := i.clocks.now
      nonempty := valid.2.1
      distinct := valid.2.2 }
  else none

/-- The checks that `ReceiveReplacing` makes of its arguments, in their order, and
the call in canonical form. -/
def received (i : Call) : Except Refusal Call := do
  let _ ← Identity.canonicalExpiry (instant i.submission.scheduleAt)
  require (i.submission.scheduleAt.all fun earliest => i.submission.expiresAt.all (earliest < ·))
    .invalidSchedule
  let _ ← Identity.canonicalExpiry (instant i.submission.expiresAt)
  let stream ← canonicalStream i.submission.stream
  let business ← i.submission.business.canonical
  require (validKey i.key) .invalidSubmission
  pure { i with submission := { i.submission with stream := stream.name, business } }

def committed (i : Call) : Answer :=
  if i.acknowledged then .accepted i.id false else .refused .commit

def details (i : Call) : Details where
  key := i.key
  size := i.submission.archiveSize
  replaces := i.submission.replaces

def reservation (i : Call) (stream : Stream) : Reservation where
  identity := i.identity
  units := i.units
  stream := stream
  reservedAt := i.clocks.reserve

end Call

end Calls

section Combinators

def put (id : MessageID) (m : Message) : Sigma Resource.Value := ⟨.table (.message id), some m⟩

def answer (call : CallID) (a : Answer) (writes : List (Sigma Resource.Value)) : Statements :=
  .acquire (.answer call) .exclusive (.commit (⟨.answer call, some a⟩ :: writes))

def refuse (call : CallID) (refusal : Refusal) : Statements := answer call (.refused refusal) []

def ifOk {α : Type} (call : CallID) (result : Except Refusal α) (next : α → Statements) :
    Statements :=
  match result with
  | .ok value => next value
  | .error refusal => refuse call refusal

def ensure (call : CallID) (condition : Bool) (refusal : Refusal) (next : Statements) : Statements :=
  if condition then next else refuse call refusal

/-- `SELECT ... FROM api_keys ... FOR NO KEY UPDATE`. -/
def lockIdentity (call : CallID) (q : IdentityID) (next : Identity → Statements) : Statements :=
  select (.identity q) .exclusive fun found =>
    match found with
    | some identity => next identity
    | none => refuse call .noRows

def controlRefusal : Queue.Refusal → Refusal
  | .notCancellable => .notCancellable
  | _ => .controlNotFound

/-- `cancelPendingTx`, with the row before and after. -/
def cancelPendingTx (call : CallID) (q : IdentityID) (id : MessageID) (replacing : Bool) (clock : Int)
    (next : Message → Message → Statements) : Statements :=
  select (.table (.message id)) .exclusive fun found =>
    match found with
    | none => refuse call .controlNotFound
    | some m => ifOk call ((Queue.cancelPending q replacing clock m).mapError controlRefusal) (next m)

end Combinators

section Reservations

def Budget.admitsBatch (units : Nat) (b : Budget) : Bool :=
  b.limits.all fun limit => decide (limit.2 = 0 ∨ units ≤ limit.2)

def Budget.admits (units : Nat) (used : Int → Nat) (b : Budget) : Bool :=
  b.limits.all fun limit => decide (limit.2 = 0 ∨ used limit.1 + units ≤ limit.2)

def horizon : Int := 720 * hour

def admitExpiry (clock : Int) (expiresAt : Option Int) : Except Refusal Unit := do
  require (expiresAt.all (clock < ·)) .expiredSubmission
  require (expiresAt.all (· ≤ clock + horizon)) .invalidExpiry

variable (d : Catalog) (i : Call)

/-- The capacity that `admitSchedule` requires. -/
def roomFor (view : Store) : Bool :=
  decide ((scheduledMessages d view i.identity i.clocks.capacity).length < scheduleLimit ∧
    scheduledBytes d view i.identity i.clocks.capacity + i.submission.archiveSize ≤ scheduleBytes)

/-- `admitSchedule`. Its query sees what the transaction itself has written. -/
def admitSchedule (own : List (Sigma Resource.Value)) (next : Statements) : Statements :=
  match i.submission.scheduleAt with
  | none => next
  | some earliest =>
      ensure i.call (i.submission.expiresAt.all (earliest < ·)) .invalidSchedule <|
        ensure i.call (decide (i.clocks.schedule < earliest ∧
          earliest ≤ i.clocks.schedule + horizon)) .invalidSchedule <|
          .snapshot fun view =>
            ensure i.call (roomFor d i (Store.write view own)) .scheduleCapacity next

/-- The second half of `reserveSubmission`, which is about the stream. -/
def reserveStream (stream : Stream) (next : Statements) : Statements :=
  .snapshot fun view =>
    match view (.stream i.identity stream) with
    | none => refuse i.call .streamDenied
    | some policy =>
        ensure i.call policy.enabled .streamDenied <|
          ensure i.call (policy.budget.admitsBatch i.units) .submissionBatchTooLarge <|
            .snapshot fun view =>
              ensure i.call (policy.budget.admits i.units
                (used d view i.identity i.clocks.streamUsage (some stream))) .streamBudget next

/-- `reserveSubmission`. -/
def reserveSubmission (own : List (Sigma Resource.Value)) (next : Stream → Statements) :
    Statements :=
  ifOk i.call (canonicalStream i.submission.stream) fun stream =>
    lockIdentity i.call i.identity fun identity =>
      ifOk i.call (admitExpiry i.clocks.expiry i.submission.expiresAt) fun _ =>
        admitSchedule d i own <|
          ensure i.call identity.enabled .submissionDisabled <|
            ensure i.call (identity.budget.admitsBatch i.units) .submissionBatchTooLarge <|
              .snapshot fun view =>
                ensure i.call (identity.budget.admits i.units
                  (used d view i.identity i.clocks.usage none)) .submissionBudget <|
                  reserveStream d i stream <|
                    select (.quota i.id) .exclusive fun found =>
                      check found.isNone (next stream)

end Reservations

section Submissions

variable [Primitives]

/-- `enqueueTx`. The new row is locked by its insertion. -/
def enqueueTx (i : Call) (next : Message → Statements) : Statements :=
  .read (.identity i.identity) fun found => ifSome (found.bind fun identity =>
    i.queued identity.production) fun s =>
      select (.table (.message i.id)) .exclusive fun found =>
        check found.isNone <|
          if s.production then
            select (.table .policy) .shared fun entries =>
              ifSome (s.enqueue entries).toOption next
          else ifSome (s.enqueue []).toOption next

def replay (i : Call) (print : Fingerprint) (row : LedgerRow) : Statements :=
  if row.fingerprint = print then answer i.call (.accepted row.message true) []
  else refuse i.call .idempotencyConflict

def cancelReplaced (i : Call) (next : List (Sigma Resource.Value) → Statements) : Statements :=
  match i.submission.replaces with
  | none => next []
  | some old =>
      lockIdentity i.call i.identity fun identity =>
        ensure i.call identity.enabled .submissionDisabled <|
          cancelPendingTx i.call i.identity old true i.clocks.cancel fun _ cancelled =>
            next [put old cancelled]

variable [Mailboxes] (d : Catalog)

/-- The fingerprint of a call whose key is well formed. -/
def Call.fingerprint (i : Call) : Except Refusal Fingerprint := do
  require (validKey i.key) .invalidSubmission
  requestFingerprint i.submission

/-- The transaction of `enqueueIdempotent`. -/
def enqueueWith (i : Call) (print : Fingerprint) : Statements :=
  select (.ledger i.identity i.key) .exclusive fun found =>
    match found with
    | some row => replay i print row
    | none =>
        cancelReplaced i fun own =>
          reserveSubmission d i own fun stream =>
            enqueueTx i fun m =>
              .acquire (.details i.id) .exclusive <|
                answer i.call i.committed (
                  ⟨.ledger i.identity i.key, some ⟨print, i.id⟩⟩ ::
                  ⟨.quota i.id, some (i.reservation stream)⟩ ::
                  ⟨.details i.id, some i.details⟩ :: put i.id m :: own)

/-- `enqueueIdempotent`. A publication of the archive that fails rolls the
transaction back. -/
def enqueueIdempotent (i : Call) : Statements :=
  check (decide (i.id ∈ d.messages)) <| ifOk i.call i.fingerprint (enqueueWith d i)

/-- `ReceiveReplacing`, once it has read the message. -/
def receiveReplacing (i : Call) : Statements :=
  check (decide (i.id ∈ d.messages)) <| ifOk i.call i.received fun i =>
    ifOk i.call (requestFingerprint i.submission) fun print =>
      .tryAcquire (.session i.identity i.key) .exclusive
        (.snapshot fun view =>
          match view (.ledger i.identity i.key) with
          | some row => replay i print row
          | none => enqueueIdempotent d i)
        (refuse i.call .submissionBusy)

omit [Primitives] [Mailboxes] in
/-- `CancelPending`. -/
def cancelPending (i : CancelCall) : Statements :=
  lockIdentity i.call i.identity fun identity =>
    ensure i.call identity.enabled .submissionDisabled <|
      cancelPendingTx i.call i.identity i.message false i.clock fun m m' =>
        answer i.call
          (if i.acknowledged then .cancelled m.cancelledAt.isSome else .refused .commit)
          [put i.message m']

end Submissions

section Configurations

def Stream.all : List Stream := [.normal, .otp, .security, .receipt]

/-- A stream that is not configured is disabled. The normal one always is. -/
def Configuration.policy (c : Configuration) (name : Stream) (old : Option StreamPolicy) :
    Option StreamPolicy :=
  match c.streams name with
  | some policy => some policy
  | none =>
      if name = .normal then some (old.getD { weight := 1 })
      else old.map ({ · with enabled := false })

def configureStreams (c : Configuration) :
    List Stream → (List (Sigma Resource.Value) → Statements) → Statements
  | [], next => next []
  | name :: rest, next =>
      select (.stream c.identity name) .exclusive fun old =>
        configureStreams c rest fun writes =>
          next (⟨.stream c.identity name, c.policy name old⟩ :: writes)

/-- What `NewSendHandler` does for one of its keys. -/
def configure (c : Configuration) : Statements :=
  select (.identity c.identity) .exclusive fun found =>
    check (found.all fun old => decide (old.production = c.production)) <|
      configureStreams c Stream.all fun writes =>
        .commit (⟨.identity c.identity, some ⟨true, c.budget, c.production⟩⟩ :: writes)

end Configurations

section Requests

variable [Primitives] [Mailboxes]

/-- The transactions of the queue beside those above: mail that comes by SMTP,
deliveries, sweeps, operators and the suppression policy. -/
def permitted : Op → Bool
  | .enqueue _ s => s.apiKey.isNone
  | .replace _ _ _ _ _ => false
  | .transact _ (.cancelPending _ _ _) => false
  | _ => true

inductive Request
  | queue (op : Op)
  | enqueueIdempotent (i : Call)
  | receiveReplacing (i : Call)
  | cancelPending (i : CancelCall)
  | configure (c : Configuration)

def Request.statements (d : Catalog) : Request → Statements
  | .queue op => check (permitted op) (Program.embed Resource.table op.statements)
  | .enqueueIdempotent i => Intake.enqueueIdempotent d i
  | .receiveReplacing i => Intake.receiveReplacing d i
  | .cancelPending i => Intake.cancelPending i
  | .configure c => Intake.configure c

def emptyStore : Store
  | .table resource => Queue.emptyTables resource
  | .session _ _ => ()
  | .identity _ | .stream _ _ | .ledger _ _ | .quota _ | .details _ | .answer _ => none

def interleaving (d : Catalog) (events : List (Event Request)) : Config Request Resource.Value :=
  Config.run (Request.statements d) { store := emptyStore } events

end Requests

section Guarded

variable {held : Set (Resource × Mode)} {call : CallID} {i : Call} {d : Catalog}

theorem answer_guarded {a : Answer} {writes : List (Sigma Resource.Value)}
    (locked : ∀ write ∈ writes, (write.1, Mode.exclusive) ∈ held) :
    (answer call a writes).Guarded held := by
  intro write member
  rcases List.mem_cons.mp member with rfl | inside
  · exact Set.mem_insert _ _
  · exact .inr (locked write inside)

theorem refuse_guarded {refusal : Refusal} : (refuse call refusal).Guarded held :=
  answer_guarded (List.forall_mem_nil _)

theorem ifOk_guarded {α : Type} {result : Except Refusal α} {next : α → Statements}
    (guarded : ∀ value, result = .ok value → (next value).Guarded held) :
    (ifOk call result next).Guarded held := by
  cases result with
  | ok value => exact guarded value rfl
  | error refusal => exact refuse_guarded

theorem ensure_guarded {condition : Bool} {refusal : Refusal} {next : Statements}
    (guarded : next.Guarded held) : (ensure call condition refusal next).Guarded held := by
  cases condition with
  | true => exact guarded
  | false => exact refuse_guarded

theorem lockIdentity_guarded {q : IdentityID} {next : Identity → Statements}
    (guarded : ∀ identity, (next identity).Guarded (insert (.identity q, .exclusive) held)) :
    (lockIdentity call q next).Guarded held := by
  refine Program.select_guarded fun found => ?_
  cases found with
  | some identity => exact guarded identity
  | none => exact refuse_guarded

theorem cancelPendingTx_guarded {q : IdentityID} {id : MessageID} {replacing : Bool} {clock : Int}
    {next : Message → Message → Statements}
    (guarded : ∀ m m', (next m m').Guarded (insert (.table (.message id), .exclusive) held)) :
    (cancelPendingTx call q id replacing clock next).Guarded held := by
  refine Program.select_guarded fun found => ?_
  cases found with
  | some m => exact ifOk_guarded fun m' _ => guarded m m'
  | none => exact refuse_guarded

theorem admitSchedule_guarded {own : List (Sigma Resource.Value)} {next : Statements}
    (guarded : next.Guarded held) : (admitSchedule d i own next).Guarded held := by
  unfold admitSchedule
  split
  · exact guarded
  · exact ensure_guarded (ensure_guarded fun view => ensure_guarded guarded)

theorem reserveStream_guarded {stream : Stream} {next : Statements}
    (guarded : next.Guarded held) : (reserveStream d i stream next).Guarded held := by
  intro view
  dsimp only
  split
  · exact refuse_guarded
  · exact ensure_guarded (ensure_guarded fun view => ensure_guarded guarded)

theorem reserveSubmission_guarded {own : List (Sigma Resource.Value)} {next : Stream → Statements}
    (guarded : ∀ stream, (next stream).Guarded
      (insert (.quota i.id, .exclusive) (insert (.identity i.identity, .exclusive) held))) :
    (reserveSubmission d i own next).Guarded held := by
  refine ifOk_guarded fun stream _ => lockIdentity_guarded fun identity => ?_
  refine ifOk_guarded fun _ _ => admitSchedule_guarded (ensure_guarded (ensure_guarded ?_))
  refine fun view => ensure_guarded (reserveStream_guarded ?_)
  exact Program.select_guarded fun found => Program.check_guarded (guarded stream)

variable [Primitives]

theorem enqueueTx_guarded {next : Message → Statements}
    (inside : (.identity i.identity, Mode.exclusive) ∈ held)
    (guarded : ∀ m, (next m).Guarded (insert (.table (.message i.id), .exclusive) held)) :
    (enqueueTx i next).Guarded held := by
  refine ⟨⟨_, inside⟩, fun found => Program.ifSome_guarded fun s => ?_⟩
  refine Program.select_guarded fun found => Program.check_guarded ?_
  split
  · refine Program.select_guarded fun entries => Program.ifSome_guarded fun m => ?_
    exact (guarded m).mono (Set.subset_insert _ _)
  · exact Program.ifSome_guarded guarded

omit [Primitives] in
theorem replay_guarded {print : Fingerprint} {row : LedgerRow} :
    (replay i print row).Guarded held := by
  unfold replay
  split
  · exact answer_guarded (List.forall_mem_nil _)
  · exact refuse_guarded

omit [Primitives] in
theorem cancelReplaced_guarded {next : List (Sigma Resource.Value) → Statements}
    (guarded : ∀ own more, held ⊆ more → (∀ write ∈ own, (write.1, Mode.exclusive) ∈ more) →
      (next own).Guarded more) : (cancelReplaced i next).Guarded held := by
  unfold cancelReplaced
  split
  · exact guarded [] held subset_rfl (List.forall_mem_nil _)
  next old _ =>
    refine lockIdentity_guarded fun identity => ensure_guarded ?_
    refine cancelPendingTx_guarded fun m cancelled => guarded _ _ ?_ ?_
    · exact (Set.subset_insert _ _).trans (Set.subset_insert _ _)
    · exact List.forall_mem_singleton.mpr (Set.mem_insert _ _)

variable [Mailboxes]

omit [Mailboxes] in
theorem enqueueWith_guarded {print : Fingerprint} : (enqueueWith d i print).Guarded held := by
  refine Program.select_guarded fun found => ?_
  cases found with
  | some row => exact replay_guarded
  | none =>
    refine cancelReplaced_guarded fun own more subset locked => ?_
    refine reserveSubmission_guarded fun stream => ?_
    refine enqueueTx_guarded (.inr (Set.mem_insert _ _)) fun m => answer_guarded ?_
    intro write member
    simp only [List.mem_cons] at member
    rcases member with rfl | rfl | rfl | rfl | inside
    · exact .inr (.inr (.inr (.inr (subset (Set.mem_insert _ _)))))
    · exact .inr (.inr (Set.mem_insert _ _))
    · exact Set.mem_insert _ _
    · exact .inr (Set.mem_insert _ _)
    · exact .inr (.inr (.inr (.inr (locked write inside))))

theorem enqueueIdempotent_guarded : (enqueueIdempotent d i).Guarded held :=
  Program.check_guarded (ifOk_guarded fun _ _ => enqueueWith_guarded)

theorem receiveReplacing_guarded : (receiveReplacing d i).Guarded held := by
  refine Program.check_guarded (ifOk_guarded fun j _ => ifOk_guarded fun print _ => ?_)
  refine ⟨fun view => ?_, refuse_guarded⟩
  dsimp only
  split
  · exact replay_guarded
  · exact enqueueIdempotent_guarded

omit [Primitives] [Mailboxes] in
theorem cancelPending_guarded {i : CancelCall} : (cancelPending i).Guarded held := by
  refine lockIdentity_guarded fun identity => ensure_guarded (cancelPendingTx_guarded fun m m' => ?_)
  exact answer_guarded (List.forall_mem_singleton.mpr (Set.mem_insert _ _))

omit [Primitives] [Mailboxes] in
theorem configureStreams_guarded {c : Configuration} {names : List Stream}
    {next : List (Sigma Resource.Value) → Statements}
    (guarded : ∀ writes more, held ⊆ more → (∀ write ∈ writes, (write.1, Mode.exclusive) ∈ more) →
      (next writes).Guarded more) : (configureStreams c names next).Guarded held := by
  induction names generalizing held next with
  | nil => exact guarded [] held subset_rfl (List.forall_mem_nil _)
  | cons name rest ih =>
    refine Program.select_guarded fun old => ih fun writes more subset locked => ?_
    refine guarded _ more ((Set.subset_insert _ _).trans subset) ?_
    exact List.forall_mem_cons.mpr ⟨subset (Set.mem_insert _ _), locked⟩

omit [Primitives] [Mailboxes] in
theorem configure_guarded {c : Configuration} : (configure c).Guarded held := by
  refine Program.select_guarded fun found => Program.check_guarded ?_
  refine configureStreams_guarded fun writes more subset locked => ?_
  exact List.forall_mem_cons.mpr ⟨subset (Set.mem_insert _ _), locked⟩

theorem statements_guarded (d : Catalog) (request : Request) :
    (request.statements d).Guarded ∅ := by
  cases request with
  | queue op => exact Program.check_guarded (embed_guarded_empty (Queue.statements_guarded op))
  | enqueueIdempotent i => exact enqueueIdempotent_guarded
  | receiveReplacing i => exact receiveReplacing_guarded
  | cancelPending i => exact cancelPending_guarded
  | configure c => exact configure_guarded

end Guarded

end RelayTale.Intake
