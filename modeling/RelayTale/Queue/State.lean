import RelayTale.Delivery.Decision
import RelayTale.Smtp.Client

/-!
# The queue's tables

A message is held together with its recipients and delivery attempts, since
every transaction that writes one of them first locks the message row. A child
table is the list of its keys with the row of each key. The newest attempt
comes first.
-/

namespace RelayTale.Queue

open Delivery (Decision)

/-- The status columns of `messages` and `recipients`. -/
inductive Status
  | queued
  | sending
  | smtpAccepted
  | partialAccepted
  | tempFailed
  | permFailed
  | deliveryUnknown
  | bounced
  | delivered
  | suppressed
  | cancelled
  | expired
  | sandboxStored
  deriving DecidableEq, Repr

/-- The four results of a conversation that `Finish` accepts for a recipient. -/
def Status.ofResult : Smtp.Status → Option Status
  | .accepted => some .smtpAccepted
  | .temporary => some .tempFailed
  | .permanent => some .permFailed
  | .unknown => some .deliveryUnknown
  | _ => none

/-- The result column of an attempt, and the status column of its recipients. -/
inductive Progress
  | pending
  | reported (status : Smtp.Status)
  deriving DecidableEq, Repr

structure AttemptRecipient where
  status : Progress := .pending
  decision : Option Decision := none
  deriving DecidableEq, Repr

structure Attempt where
  id : AttemptID
  provider : ProviderID
  number : Nat
  claimToken : Token
  result : Progress := .pending
  recipients : List RecipientID
  row : RecipientID → AttemptRecipient := fun _ => {}
  dataArmedAt : Option Int := none
  suppressionBlockedAt : Option Int := none
  expiryBlockedAt : Option Int := none
  dataStartedAt : Option Int := none
  finalResponseAt : Option Int := none
  events : List Smtp.Event := []

def Attempt.key (a : Attempt) : AttemptID × ProviderID × Nat × List RecipientID :=
  (a.id, a.provider, a.number, a.recipients)

structure Recipient where
  address : Address
  status : Status
  attemptCount : Nat := 0
  retryStartedAt : Option Int := none
  retryAt : Option Int := none
  retryAutomatic : Bool := false
  completedAt : Option Int := none
  decision : Option Decision := none
  deriving DecidableEq, Repr

structure Message where
  production : Bool
  apiKey : Option IdentityID
  status : Status
  archiveAvailable : Bool := true
  scheduleAt : Option Int := none
  expiresAt : Option Int := none
  nextAttemptAt : Option Int := none
  completedAt : Option Int := none
  cancelledAt : Option Int := none
  lockedBy : Option Token := none
  leaseExpiresAt : Option Int := none
  attemptCount : Nat := 0
  route : Option ProviderID := none
  recipients : List RecipientID
  row : RecipientID → Recipient
  attempts : List Attempt := []

/-- A row of `suppression_entries`. -/
structure Entry where
  id : EntryID
  email : Address
  expiresAt : Option Int
  releasedAt : Option Int := none
  deriving DecidableEq, Repr

structure Db where
  messages : MessageID → Option Message
  entries : List Entry

def Db.empty : Db := { messages := fun _ => none, entries := [] }

def Db.put (db : Db) (id : MessageID) (m : Message) : Db :=
  { db with messages := fun other => if other = id then some m else db.messages other }

inductive Refusal
  | noJob
  | leaseLost
  | noRows
  | uniqueViolation
  | checkViolation
  | expired
  | suppressed
  | dataEvidenceContradictsPolicyFence
  | incompleteRecipientResults
  | unexpectedRecipientResult
  | invalidRecipientResult
  | acceptanceContradictsExpiryFence
  | acceptanceContradictsSuppressionFence
  | incompleteFailoverEvidence
  | nullColumn
  | eventSequence
  | acknowledgementRequired
  | staleResolution
  | archiveUnavailable
  | recipientSuppressed
  | controlNotFound
  | notCancellable
  | expiryNotInFuture
  | suppressionActive
  | suppressionStale
  | earlyData
  | expiredData
  | invalidSubmission
  | protectedArchive
  deriving DecidableEq, Repr

end RelayTale.Queue
