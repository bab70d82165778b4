import RelayTale.Queue.Transactions

/-!
# Runs of the system

An operation is one transaction of any process with all the inputs it takes
from its environment. A refused operation leaves the database as it is, and a
worker that crashes simply has no further operations, so the runs of the system
are the lists of operations.
-/

namespace RelayTale.Queue

open Guard

variable [Primitives]

/-- A submission as the callers of `enqueueTx` admit it. -/
structure Submission where
  production : Bool
  apiKey : Option IdentityID
  recipients : List (RecipientID × Address)
  scheduleAt : Option Int
  expiresAt : Option Int
  queuedAt : Int
  policyClock : Int
  now : Int
  nonempty : recipients ≠ []
  distinct : (recipients.map Prod.fst).Nodup

namespace Submission

def status (s : Submission) : Status := if s.production then .queued else .sandboxStored

def message (s : Submission) : Message where
  production := s.production
  apiKey := s.apiKey
  status := s.status
  scheduleAt := s.scheduleAt
  expiresAt := s.expiresAt
  nextAttemptAt :=
    if s.production then some (s.scheduleAt.elim s.queuedAt (max s.queuedAt)) else none
  completedAt := if s.production then none else some s.now
  recipients := s.recipients.map Prod.fst
  row id := { address := (s.recipients.lookup id).getD "", status := s.status }

/-- `enqueueTx`. -/
def enqueue (entries : List Entry) (s : Submission) : Except Refusal Message := do
  require (s.apiKey.isSome ∨ s.production ∧ s.scheduleAt = none ∧ s.expiresAt = none)
    .invalidSubmission
  require (s.scheduleAt.all fun earliest => s.expiresAt.all (earliest < ·)) .invalidSubmission
  if s.production then
    let m := s.message.suppressHits entries s.policyClock false
    if m.recipients.all fun id => (m.row id).status = .suppressed then
      pure { m with
        status := .suppressed, completedAt := some s.now, nextAttemptAt := none }
    else pure m
  else pure s.message

end Submission

/-- How `Worker.deliver` came by the result it finishes with. -/
inductive Dispatch
  | undecryptable (now : Int)
  | unreadable (now : Int)
  | sent (session : Smtp.Session)

/-- The closure `failure` of `Worker.deliver`. -/
def preparationFailure (errorClass : Smtp.ErrorClass) (now : Int)
    (recipients : List Smtp.Recipient) : Smtp.Result where
  status := .temporary
  errorClass := errorClass
  startedAt := now
  finishedAt := now
  recipients := recipients.map fun r => { id := r.id, status := .temporary }

def Dispatch.result (recipients : List Smtp.Recipient) : Dispatch → Smtp.Result
  | .undecryptable now => preparationFailure .credentialDecryptionError now recipients
  | .unreadable now => preparationFailure .localStorageError now recipients
  | .sent session => session.send recipients

/-- The recipients of the job as `Claim` returned them. -/
def Message.envelope (job : Job) (m : Message) : List Smtp.Recipient :=
  match m.current job with
  | some a => a.recipients.map fun id => { id, address := (m.row id).address }
  | none => []

inductive Action
  | claim (c : ClaimInput)
  | armData (job : Job) (i : ArmInput)
  | record (job : Job) (event : Smtp.Event) (clock : Int)
  | finish (flags : Flags) (job : Job) (dispatch : Dispatch) (clock now : Int)
  | recover (i : RecoverInput)
  | schedule (i : ScheduleInput)
  | sweepExpired (selectClock expiryClock now : Int)
  | sweepSuppressed (selectClock policyClock now : Int)
  | resolveUnknown (v : Resolution)
  | cancelPending (identity : IdentityID) (replacing : Bool) (clock : Int)
  | retire

def Action.perform (entries : List Entry) (m : Message) : Action → Except Refusal Message
  | .claim c => Queue.claim entries c m
  | .armData job i => (Queue.armData entries job i m).map Prod.fst
  | .record job event clock => Queue.record job event clock m
  | .finish flags job dispatch clock now =>
      Queue.finish flags job (dispatch.result (m.envelope job)) clock now m
  | .recover i => Queue.recover i m
  | .schedule i => Queue.schedule i m
  | .sweepExpired selectClock expiryClock now => Queue.sweepExpired selectClock expiryClock now m
  | .sweepSuppressed selectClock policyClock now =>
      Queue.sweepSuppressed entries selectClock policyClock now m
  | .resolveUnknown v => Queue.resolveUnknown entries v m
  | .cancelPending identity replacing clock => Queue.cancelPending identity replacing clock m
  | .retire => Queue.retire m

def Action.batched : Action → Bool
  | .recover _ | .schedule _ | .sweepExpired _ _ _ | .sweepSuppressed _ _ _ => true
  | _ => false

section Suppression

structure AddRequest where
  id : EntryID
  email : Address
  expiresAt : Option Int
  futureClock : Int
  activeClock : Int
  releaseClock : Int
  deriving DecidableEq, Repr

def sameAddress (email : Address) (entry : Entry) : Bool :=
  decide (Primitives.lower entry.email = Primitives.lower email)

/-- `Service.Add`. -/
def addSuppression (v : AddRequest) (entries : List Entry) : Except Refusal (List Entry) := do
  require (v.expiresAt.all (v.futureClock < ·)) .expiryNotInFuture
  require (active entries v.activeClock v.email = false) .suppressionActive
  require (∀ entry ∈ entries, entry.id ≠ v.id) .uniqueViolation
  let retire (entry : Entry) : Entry :=
    if sameAddress v.email entry && entry.releasedAt.isNone then
      { entry with releasedAt := some v.releaseClock }
    else entry
  pure ({ id := v.id, email := v.email, expiresAt := v.expiresAt } :: entries.map retire)

/-- `Service.Release`. -/
def releaseSuppression (id : EntryID) (clock : Int) (entries : List Entry) :
    Except Refusal (List Entry) := do
  require (entries.any fun entry => entry.id = id && entry.releasedAt.isNone) .suppressionStale
  pure (entries.map fun entry =>
    if entry.id = id && entry.releasedAt.isNone then { entry with releasedAt := some clock }
    else entry)

end Suppression

inductive Op
  | enqueue (id : MessageID) (s : Submission)
  | transact (id : MessageID) (action : Action)
  | batch (ids : List MessageID) (action : Action)
  | replace (old new : MessageID) (identity : IdentityID) (clock : Int) (s : Submission)
  | addSuppression (v : AddRequest)
  | releaseSuppression (id : EntryID) (clock : Int)

namespace Db

def enqueue (id : MessageID) (s : Submission) (db : Db) : Except Refusal Db := do
  require (db.messages id).isNone .uniqueViolation
  let m ← s.enqueue db.entries
  pure (db.put id m)

def perform (action : Action) (id : MessageID) (db : Db) : Except Refusal Db := do
  let m ← demand (db.messages id) .noRows
  let m ← action.perform db.entries m
  pure (db.put id m)

def performAll (action : Action) : List MessageID → Db → Except Refusal Db
  | [], db => pure db
  | id :: rest, db => do
      let db ← db.perform action id
      performAll action rest db

def step (db : Db) : Op → Except Refusal Db
  | .enqueue id s => db.enqueue id s
  | .transact id action => do
      require (action.batched = false) .noRows
      db.perform action id
  | .batch ids action => do
      require (action.batched ∧ ids.Nodup ∧ ids.length ≤ 20) .noRows
      performAll action ids db
  | .replace old new identity clock s => do
      require (s.apiKey = some identity) .invalidSubmission
      let db ← db.perform (.cancelPending identity true clock) old
      db.enqueue new s
  | .addSuppression v => do
      let entries ← Queue.addSuppression v db.entries
      pure { db with entries }
  | .releaseSuppression id clock => do
      let entries ← Queue.releaseSuppression id clock db.entries
      pure { db with entries }

def after (db : Db) (op : Op) : Db :=
  match db.step op with
  | .ok next => next
  | .error _ => db

def run (db : Db) (ops : List Op) : Db := ops.foldl after db

end Db

end RelayTale.Queue
