import RelayTale.Foundation.Composition
import RelayTale.Intake.Identity
import RelayTale.Queue.Ended

/-!
# The tables of the websites

Beside the tables of the queue stand the identities with their budgets and
streams, the ledger of accepted requests, the reservations of the budgets and
those columns of a message that only its submission writes. An answer to a
caller is kept like a row, so a refusal is a transaction that writes nothing
but its answer.
-/

namespace RelayTale.Intake

open Queue (Message unfinishedStatuses)

/-- `SubmissionBudget`. -/
structure Budget where
  minute : Nat := 0
  hour : Nat := 0
  day : Nat := 0
  deriving DecidableEq, Repr

def Budget.limits (b : Budget) : List (Int × Nat) :=
  [(RelayTale.minute, b.minute), (RelayTale.hour, b.hour), (24 * RelayTale.hour, b.day)]

/-- A row of `api_keys`. -/
structure Identity where
  enabled : Bool
  budget : Budget
  production : Bool
  deriving DecidableEq, Repr

/-- A row of `api_message_streams`. -/
structure StreamPolicy where
  enabled : Bool := true
  weight : Nat
  budget : Budget := {}
  deriving DecidableEq, Repr

abbrev Fingerprint := Identity.Fields

/-- A row of `api_submission_ledger`. -/
structure LedgerRow where
  fingerprint : Fingerprint
  message : MessageID
  deriving DecidableEq, Repr

/-- A row of `api_submission_quota`. -/
structure Reservation where
  identity : IdentityID
  units : Nat
  stream : Stream
  reservedAt : Int
  deriving DecidableEq, Repr

/-- The columns `idempotency_key`, `eml_size` and `replaces_message_id`. -/
structure Details where
  key : String
  size : Nat
  replaces : Option MessageID
  deriving DecidableEq, Repr

inductive Answer
  | accepted (message : MessageID) (replayed : Bool)
  | cancelled (replayed : Bool)
  | refused (refusal : Refusal)
  deriving DecidableEq, Repr

abbrev CallID := Nat

inductive Resource
  | table (resource : Queue.Resource)
  | identity (id : IdentityID)
  | stream (identity : IdentityID) (name : Stream)
  | ledger (identity : IdentityID) (key : String)
  | session (identity : IdentityID) (key : String)
  | quota (message : MessageID)
  | details (message : MessageID)
  | answer (call : CallID)
  deriving DecidableEq

abbrev Resource.Value : Resource → Type
  | .table resource => resource.Value
  | .identity _ => Option Identity
  | .stream _ _ => Option StreamPolicy
  | .ledger _ _ => Option LedgerRow
  | .session _ _ => Unit
  | .quota _ => Option Reservation
  | .details _ => Option Details
  | .answer _ => Option Answer

abbrev Store := Locking.Store Resource.Value

abbrev Statements := Locking.Program Resource.Value

abbrev Store.tables (store : Store) : Queue.Tables := Locking.Store.part Resource.table store

abbrev Store.message (store : Store) (id : MessageID) : Option Message :=
  store (.table (.message id))

structure Catalog where
  messages : List MessageID
  nodup : messages.Nodup

section Aggregates

variable (d : Catalog) (view : Store) (q : IdentityID) (clock : Int)

def Reservation.unitsIn (stream : Option Stream) (span : Int) (r : Reservation) : Nat :=
  if r.identity = q ∧ stream.all (· = r.stream) ∧ clock - span < r.reservedAt then r.units else 0

/-- The sums that `reserveSubmission` reads. -/
def used (stream : Option Stream) (span : Int) : Nat :=
  (d.messages.map fun id => (view (.quota id)).elim 0 (·.unitsIn q clock stream span)).sum

/-- The row condition of `admitSchedule`. -/
def scheduled (m : Message) : Bool :=
  decide (m.apiKey = some q) && m.production && m.scheduleAt.any (clock < ·) &&
    decide (m.status ∈ unfinishedStatuses)

def scheduledMessages : List MessageID :=
  d.messages.filter fun id => (view.message id).any (scheduled q clock)

def emlSize (id : MessageID) : Nat := (view (.details id)).elim 0 (·.size)

/-- `sum(eml_size)` of `admitSchedule`. -/
def scheduledBytes : Nat := ((scheduledMessages d view q clock).map (emlSize view)).sum

end Aggregates

def scheduleLimit : Nat := 100

def scheduleBytes : Nat := 128 * 2 ^ 20

end RelayTale.Intake
