import RelayTale.Delivery.Outcome
import RelayTale.Foundation.Guard
import RelayTale.Queue.Rows

/-!
# Transactions on one message

Every function here is one transaction of the program restricted to a message
it has locked. An error means that the transaction is rolled back. Clock
readings, generated identifiers and the choice of the provider are inputs.
-/

namespace RelayTale.Queue

open Guard
open Delivery (Decision)

variable [Primitives]

namespace Message

def due (clock : Int) (m : Message) : Bool :=
  m.scheduleAt.all (· ≤ clock) && m.expiresAt.all (clock < ·)

def setAttempt (id : AttemptID) (update : Attempt → Attempt) (m : Message) : Message :=
  { m with attempts := m.attempts.map fun a => if a.id = id then update a else a }

def setRow (id : RecipientID) (r : Recipient) (m : Message) : Message :=
  { m with row := fun other => if other = id then r else m.row other }

def unlock (m : Message) : Message :=
  { m with lockedBy := none, leaseExpiresAt := none }

def latestNumber (attempts : List Attempt) (id : RecipientID) : Option Nat :=
  ((attempts.filter fun a => id ∈ a.recipients).map (·.number)).max?

def latestAttempt (attempts : List Attempt) (id : RecipientID) : Option Attempt :=
  attempts.find? fun a => id ∈ a.recipients ∧ some a.number = latestNumber attempts id

end Message

section Failover

/-- Evidence on which a recipient may change provider. -/
def safeDecision (d : Decision) : Bool :=
  decide (d.version = 2) && decide (d.action = .retry) && d.failoverAllowed &&
    !d.mayHaveDelivered

def finishedStatuses : List Status :=
  [.smtpAccepted, .delivered, .permFailed, .bounced, .suppressed, .cancelled, .expired]

def distinctProviders (attempts : List Attempt) : Nat :=
  (attempts.map (·.provider)).dedup.length

/-- The part of `safeFailover` that concerns one recipient. -/
def movable (clock : Int) (m : Message) (id : RecipientID) : Bool :=
  let r := m.row id
  decide (r.status ∈ finishedStatuses) ||
    (decide (r.status = .queued) && r.retryAutomatic && r.withinBudget clock &&
      m.attempts.any fun a =>
        decide (id ∈ a.recipients) && decide (some a.provider = m.route) &&
          decide (a.result = .reported .temporary) && (a.row id).decision.any safeDecision &&
          decide (some a.number = Message.latestNumber m.attempts id))

def safeFailover (clock : Int) (m : Message) : Bool :=
  m.route.isSome && decide (distinctProviders m.attempts < 3) &&
    m.recipients.all (movable clock m)

/-- The route condition of `eligibleProvider`. -/
def routeAllows (flags : Flags) (clock : Int) (provider : ProviderID) (m : Message) : Bool :=
  m.route.isNone || decide (m.route = some provider) ||
    (flags.retryEnabled && flags.failoverEnabled && safeFailover clock m &&
      m.attempts.all fun a => decide (a.provider ≠ provider))

/-- The rows that `recordFailover` finds among the recipients now sending. -/
def failoverEvidence (provider : ProviderID) (earlier : List Attempt) (sending : List RecipientID) :
    List RecipientID :=
  sending.filter fun id =>
    (Message.latestAttempt earlier id).any fun a => decide (a.provider ≠ provider)

end Failover

section Claim

def fairRecipientQuantum : Nat := 16

structure ClaimInput where
  flags : Flags
  provider : ProviderID
  token : Token
  attempt : AttemptID
  allowance : Nat
  timeoutSeconds : Int
  now : Int
  selectClock : Int
  openClock : Int
  pathClock : Int
  routeClock : Int
  startClock : Int
  pickClock : Int

/-- The row condition of `selectFair`, whose parts read the clock one after another. -/
def selectable (entries : List Entry) (c : ClaimInput) (m : Message) : Bool :=
  m.due c.selectClock && decide (m.status = .queued) && m.archiveAvailable &&
    m.nextAttemptAt.any (· ≤ c.now) &&
    (m.recipients.any fun id => (m.row id).claimable c.flags entries c.openClock) &&
    routeAllows c.flags c.pathClock c.provider m

/-- The recipients taken by one claim: eligible ones in the order of their
identifiers, as many as quota and quantum admit. -/
def picks (entries : List Entry) (c : ClaimInput) (m : Message) : List RecipientID :=
  ((m.recipients.filter fun id => (m.row id).claimable c.flags entries c.pickClock).insertionSort
    (· ≤ ·)).take (min c.allowance fairRecipientQuantum)

/-- The message with its new attempt, once `Claim` has found the recipients. -/
def claimed (c : ClaimInput) (ids : List RecipientID) (m : Message) : Message :=
  { m with
    route := some c.provider, status := .sending, lockedBy := some c.token
    leaseExpiresAt := some (c.now + (c.timeoutSeconds + 30) * second)
    attemptCount := m.attemptCount + 1
    row := fun id => if id ∈ ids then (m.row id).claim c.now else m.row id
    attempts :=
      { id := c.attempt, provider := c.provider, number := m.attemptCount + 1
        claimToken := c.token, recipients := ids } :: m.attempts }

/-- What `Claim` does with the message that `selectFair` has locked. -/
def claimSelected (entries : List Entry) (c : ClaimInput) (m : Message) :
    Except Refusal Message := do
  require (routeAllows c.flags c.routeClock c.provider m) .noJob
  require (m.due c.startClock) .noJob
  require (∀ a ∈ m.attempts, a.id ≠ c.attempt ∧ a.number ≠ m.attemptCount + 1 ∧
    a.result ≠ .pending) .uniqueViolation
  let ids := picks entries c m
  require (ids ≠ []) .noJob
  let next := claimed c ids m
  let sending := next.recipients.filter fun id => (next.row id).status = .sending
  require (m.route.isNone ∨ m.route = some c.provider ∨
    (failoverEvidence c.provider m.attempts sending).length = ids.length)
    .incompleteFailoverEvidence
  pure next

/-- `Claim`. -/
def claim (entries : List Entry) (c : ClaimInput) (m : Message) : Except Refusal Message := do
  require (selectable entries c m) .noJob
  claimSelected entries c m

end Claim

structure Job where
  attempt : AttemptID
  token : Token
  deriving DecidableEq, Repr

/-- The fence of every transaction of a worker. A reading is given where the
lease has to be live. -/
def fence (job : Job) (live : Option Int) (m : Message) : Except Refusal PUnit :=
  require (m.production ∧ m.status = .sending ∧ m.lockedBy = some job.token ∧
    live.all fun clock => m.leaseExpiresAt.any (clock < ·)) .leaseLost

def Message.current (job : Job) (m : Message) : Option Attempt :=
  m.attempts.find? fun a =>
    a.id = job.attempt ∧ a.claimToken = job.token ∧ a.result = .pending

section ArmData

inductive Gate
  | armed
  | suppressed
  | expired
  deriving DecidableEq, Repr

structure ArmInput where
  leaseClock : Int
  policyClock : Int
  deadlineClock : Int
  triggerClock : Int
  deriving DecidableEq, Repr

/-- `ArmData`. The message is committed with either answer of the gate. The
database's own triggers refuse a permission outside the schedule. -/
def armData (entries : List Entry) (job : Job) (i : ArmInput) (m : Message) :
    Except Refusal (Message × Gate) := do
  fence job (some i.leaseClock) m
  let a ← demand (m.current job) .noRows
  require (a.dataArmedAt = none) .leaseLost
  require (a.expiryBlockedAt = none) .expired
  require (a.suppressionBlockedAt = none) .suppressed
  if m.recipients.any (m.hit entries i.policyClock true) then
    pure ((m.suppressHits entries i.policyClock true).setAttempt a.id
      fun a => { a with suppressionBlockedAt := some i.policyClock }, .suppressed)
  else if m.expiresAt.any (· ≤ i.deadlineClock) then
    pure (m.setAttempt a.id fun a => { a with expiryBlockedAt := some i.deadlineClock }, .expired)
  else do
    require (m.expiresAt.all (i.triggerClock < ·)) .expiredData
    require (m.scheduleAt.all fun earliest => earliest ≤ i.deadlineClock ∧ earliest ≤ i.triggerClock)
      .earlyData
    pure (m.setAttempt a.id fun a => { a with dataArmedAt := some i.deadlineClock }, .armed)

end ArmData

/-- `recordEvent`: an event whose sequence number is known is not stored twice. -/
def Attempt.recordEvent (event : Smtp.Event) (a : Attempt) : Attempt :=
  if a.events.any fun known => known.sequence = event.sequence then a
  else { a with events := a.events ++ [event] }

/-- `Record`. -/
def record (job : Job) (event : Smtp.Event) (clock : Int) (m : Message) :
    Except Refusal Message := do
  fence job (some clock) m
  require (0 < event.sequence) .eventSequence
  pure (m.setAttempt job.attempt (·.recordEvent event))

section Finish

/-- `decideRecipient` on the row of one recipient. -/
def decideRow (flags : Flags) (attempt : AttemptID) (out : Smtp.Result)
    (rc : Smtp.RecipientResult) (r : Recipient) : Except Refusal (Recipient × Option Decision) := do
  let started ← demand r.retryStartedAt .nullColumn
  let budget : Delivery.Budget :=
    { attempts := r.attemptCount, startedAt := some started, now := out.finishedAt
      seed := (attempt, rc.id) }
  let d := (Delivery.evidence out rc).decide budget
  pure (r.decided flags d out.finishedAt, some d)

/-- `finishSuppression` on the row of one recipient. -/
def finishSuppressionRow (flags : Flags) (attempt : AttemptID) (out : Smtp.Result)
    (rc : Smtp.RecipientResult) (r : Recipient) : Except Refusal (Recipient × Option Decision) := do
  require (rc.status ≠ .accepted ∧ rc.status ≠ .unknown) .acceptanceContradictsSuppressionFence
  let started ← demand r.retryStartedAt .nullColumn
  if r.status = .suppressed then pure (r, r.decision)
  else if rc.stage = .suppressionBlocked ∨ rc.stage = .databaseError then
    pure (r.resume started out.finishedAt, some (r.resumeDecision started out.finishedAt))
  else decideRow flags attempt out rc r

/-- The body of the loop of `Finish` on the row of one recipient, with the
decision to be kept in the attempt. -/
def finishRow (flags : Flags) (a : Attempt) (out : Smtp.Result) (rc : Smtp.RecipientResult)
    (r : Recipient) : Except Refusal (Recipient × Option Decision) := do
  let status ← demand (Status.ofResult rc.status) .invalidRecipientResult
  require (a.expiryBlockedAt = none ∨ rc.status ≠ .accepted ∧ rc.status ≠ .unknown)
    .acceptanceContradictsExpiryFence
  let reported := r.report status out.finishedAt
  if a.suppressionBlockedAt.isSome then finishSuppressionRow flags a.id out rc reported
  else decideRow flags a.id out rc reported

/-- The loop of `Finish` over the results, with the identifiers still expected. -/
def finishLoop (flags : Flags) (a : Attempt) (out : Smtp.Result) :
    List Smtp.RecipientResult → List RecipientID → Message → Except Refusal Message
  | [], _, m => pure m
  | rc :: rest, expected, m => do
      require (rc.id ∈ expected) .unexpectedRecipientResult
      let (r, d) ← finishRow flags a out rc (m.row rc.id)
      let kept : AttemptRecipient := { status := .reported rc.status, decision := d }
      let keep (b : Attempt) : Attempt :=
        { b with row := fun id => if id = rc.id then kept else b.row id }
      finishLoop flags a out rest (expected.erase rc.id)
        ((m.setRow rc.id r).setAttempt a.id keep)

/-- `Finish`. -/
def finish (flags : Flags) (job : Job) (out : Smtp.Result) (clock now : Int) (m : Message) :
    Except Refusal Message := do
  fence job none m
  let a ← demand (m.current job) .noRows
  require (a.suppressionBlockedAt = none ∧ a.expiryBlockedAt = none ∨
    out.dataStartedAt = none ∧ out.finalResponseAt = none ∧ out.bytesSent = 0)
    .dataEvidenceContradictsPolicyFence
  let settle (b : Attempt) : Attempt :=
    { b with
      result := .reported out.status
      dataStartedAt := out.dataStartedAt, finalResponseAt := out.finalResponseAt }
  require (out.recipients.length = a.recipients.length) .incompleteRecipientResults
  let m ← finishLoop flags a out out.recipients a.recipients (m.setAttempt a.id settle)
  let recorded (b : Attempt) : Attempt :=
    out.events.foldl (fun b event => b.recordEvent event) b
  pure (((m.setAttempt a.id recorded).unlock.applyExpiry clock).refresh now)

end Finish

section Recovery

structure RecoverInput where
  leaseClock : Int
  now : Int
  nextAttemptAt : Int
  expiryClock : Int
  deriving DecidableEq, Repr

/-- The row condition of `Recover`, with the attempt it joins. -/
def abandoned (leaseClock : Int) (m : Message) : Option Attempt :=
  if m.status = .sending ∧ m.leaseExpiresAt.any (· ≤ leaseClock) then
    m.attempts.find? (·.result = .pending)
  else none

/-- `expireRecovered`. -/
def expireRecovered (now : Int) (m : Message) : Message :=
  let exhausted (r : Recipient) : Recipient :=
    if r.status = .queued ∧ r.spent now then r.exhaust .recoveryBudgetExhausted else r
  { m with row := fun id => exhausted (m.row id) }.refresh now

/-- The body of the loop of `Recover`, given what its selection read. -/
def recoverAttempt (i : RecoverInput) (attempt : AttemptID) (armed : Bool) (m : Message) :
    Message :=
  let status : Smtp.Status := if armed then .unknown else .temporary
  let abandon (b : Attempt) : Attempt :=
    { b with
      result := .reported status
      row := fun id => { b.row id with status := .reported status } }
  let released :=
    { (m.setAttempt attempt abandon).unlock with
      row := fun id => (m.row id).recover armed
      status := if armed then .deliveryUnknown else .queued
      nextAttemptAt := if armed then none else some i.nextAttemptAt }
  let budgeted := if armed then released else expireRecovered i.now released
  (budgeted.applyExpiry i.expiryClock).refresh i.now

/-- `Recover` on one of the messages it selected. -/
def recover (i : RecoverInput) (m : Message) : Except Refusal Message := do
  let a ← demand (abandoned i.leaseClock m) .noRows
  pure (recoverAttempt i a.id a.dataArmedAt.isSome m)

end Recovery

section Maintenance

structure ScheduleInput where
  flags : Flags
  now : Int
  expiryClock : Int
  workerClock : Int
  deriving DecidableEq, Repr

def Recipient.elapsed (now : Int) (r : Recipient) : Bool :=
  r.retryAt.any (· ≤ now) || r.retryAutomatic && decide (r.status = .queued) && r.spent now

/-- The loop of `Schedule` on the row of one recipient. -/
def scheduleRow (i : ScheduleInput) (r : Recipient) : Recipient :=
  if r.elapsed i.now then
    if 7 ≤ r.attemptCount ∨ r.retryStartedAt.any (· + Delivery.window ≤ i.workerClock) then
      r.exhaust .retryBudgetExhausted
    else if i.flags.retryEnabled then r.promote
    else r
  else r

/-- The row condition of `Schedule`. -/
def schedulable (i : ScheduleInput) (m : Message) : Bool :=
  decide (m.lockedBy = none) && m.archiveAvailable &&
    decide (m.status ∈ [Status.queued, .tempFailed, .partialAccepted]) &&
    m.recipients.any fun id => (m.row id).elapsed i.now

def scheduleSelected (i : ScheduleInput) (m : Message) : Except Refusal Message := do
  let expired := m.applyExpiry i.expiryClock
  require (∀ id ∈ m.recipients, (expired.row id).elapsed i.now →
    (expired.row id).retryStartedAt.isSome) .nullColumn
  pure ({ expired with row := fun id => scheduleRow i (expired.row id) }.refresh i.now)

/-- `Schedule` on one of the messages it selected. -/
def schedule (i : ScheduleInput) (m : Message) : Except Refusal Message := do
  require (schedulable i m) .noRows
  scheduleSelected i m

/-- The row condition of `SweepExpired`. -/
def expirable (selectClock : Int) (m : Message) : Bool :=
  decide (m.lockedBy = none) &&
    decide (m.status ∈ [Status.queued, .tempFailed, .partialAccepted, .deliveryUnknown]) &&
    m.expiresAt.any (· ≤ selectClock) && m.recipients.any fun id => (m.row id).pending

/-- `SweepExpired` on one of the messages it selected. -/
def sweepExpired (selectClock expiryClock now : Int) (m : Message) : Except Refusal Message := do
  require (expirable selectClock m) .noRows
  pure ((m.applyExpiry expiryClock).refresh now)

/-- The row condition of `SweepSuppressed`. -/
def suppressible (entries : List Entry) (selectClock : Int) (m : Message) : Bool :=
  decide (m.lockedBy = none) && m.recipients.any (m.hit entries selectClock false)

/-- `SweepSuppressed` on one of the messages it selected. -/
def sweepSuppressed (entries : List Entry) (selectClock policyClock now : Int) (m : Message) :
    Except Refusal Message := do
  require (suppressible entries selectClock m) .noRows
  pure ((m.suppressHits entries policyClock false).refresh now)

/-- The archive is given up by the retention job, which a trigger admits only
for messages without open recipients. -/
def retire (m : Message) : Except Refusal Message := do
  require (m.lockedBy = none ∧
    m.status ∈ [Status.smtpAccepted, .permFailed, .delivered, .bounced, .suppressed, .cancelled,
      .expired, .sandboxStored] ∧
    (∀ a ∈ m.attempts, a.result ≠ .pending) ∧
    ∀ id ∈ m.recipients,
      (m.row id).status ∉ [Status.queued, .sending, .tempFailed, .deliveryUnknown]) .protectedArchive
  pure { m with archiveAvailable := false }

end Maintenance

section Operators

inductive ResolveAction
  | retry
  | markDelivered
  | markFailed
  deriving DecidableEq, Repr

def ResolveAction.status : ResolveAction → Status
  | .retry => .queued
  | .markDelivered => .delivered
  | .markFailed => .permFailed

structure Resolution where
  recipient : RecipientID
  expectedAttempt : AttemptID
  action : ResolveAction
  acknowledgeDuplicate : Bool
  expiryClock : Int
  policyClock : Int
  updateClock : Int
  now : Int
  deriving DecidableEq, Repr

/-- `ResolveUnknown`. -/
def resolveUnknown (entries : List Entry) (v : Resolution) (m : Message) :
    Except Refusal Message := do
  require (v.action = .retry → v.acknowledgeDuplicate) .acknowledgementRequired
  require (v.recipient ∈ m.recipients) .noRows
  require (m.lockedBy = none) .staleResolution
  let a ← demand (Message.latestAttempt m.attempts v.recipient) .noRows
  require ((m.row v.recipient).status = .deliveryUnknown ∧
    (a.row v.recipient).status = .reported .unknown ∧ a.id = v.expectedAttempt) .staleResolution
  require (v.action = .retry → m.expiresAt.all (v.expiryClock < ·)) .expired
  require (v.action = .retry → m.archiveAvailable) .archiveUnavailable
  require (v.action = .retry → active entries v.policyClock (m.row v.recipient).address = false)
    .recipientSuppressed
  require (v.action = .retry → m.expiresAt.all (v.updateClock < ·)) .expired
  let resolved := m.setRow v.recipient ((m.row v.recipient).resolve v.action.status v.now)
  let routed :=
    if v.action = .retry then
      { resolved with route := some a.provider }
    else resolved
  pure (routed.refresh v.now)

/-- The evidence that makes `cancelPendingTx` refuse. -/
def uncancellable (m : Message) : Bool :=
  m.lockedBy.isSome || decide (m.status ≠ .queued ∧ m.status ≠ .tempFailed) ||
    (m.attempts.any fun a =>
      decide (a.result = .pending) || a.dataArmedAt.isSome || a.dataStartedAt.isSome ||
        a.finalResponseAt.isSome) ||
    (m.attempts.any fun a => a.recipients.any fun id =>
      decide ((a.row id).status = .reported .accepted ∨ (a.row id).status = .reported .unknown)) ||
    m.recipients.any fun id =>
      decide ((m.row id).status ∉
        [Status.queued, .tempFailed, .permFailed, .suppressed, .expired])

/-- `cancelPendingTx`. A message that was cancelled before is left as it is,
unless it is to be replaced. -/
def cancelPending (identity : IdentityID) (replacing : Bool) (clock : Int) (m : Message) :
    Except Refusal Message := do
  require (m.apiKey = some identity ∧ m.production) .controlNotFound
  if m.cancelledAt.isSome then
    require (replacing = false) .notCancellable
    pure m
  else
    require (uncancellable m = false) .notCancellable
    let cancelled (r : Recipient) : Recipient := if r.pending then r.cancel clock else r
    pure { m with
      row := fun id => cancelled (m.row id), status := .cancelled, cancelledAt := some clock
      completedAt := some clock, nextAttemptAt := none }

end Operators

end RelayTale.Queue
