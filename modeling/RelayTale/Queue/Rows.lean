import RelayTale.Queue.State

/-!
# Updates of single rows

Each statement that writes `recipients` is a function of the old row. The
transactions apply these functions to the rows they select.
-/

namespace RelayTale.Queue

open Delivery (Decision)

/-- The switches of `Repository` that the queue's own logic reads. -/
structure Flags where
  retryEnabled : Bool
  failoverEnabled : Bool
  deriving DecidableEq, Repr

section Suppression

variable [Primitives]

/-- `ActiveSQL`: some entry for the address is neither released nor expired. -/
def active (entries : List Entry) (clock : Int) (address : Address) : Bool :=
  entries.any fun entry =>
    decide (Primitives.lower entry.email = Primitives.lower address) &&
      entry.releasedAt.isNone && entry.expiresAt.all (clock < ·)

end Suppression

namespace Recipient

def pending (r : Recipient) : Bool := r.status = .queued || r.status = .tempFailed

def withinBudget (clock : Int) (r : Recipient) : Bool :=
  decide (r.attemptCount < 7) && r.retryStartedAt.any (clock - Delivery.window < ·)

def spent (clock : Int) (r : Recipient) : Bool :=
  decide (7 ≤ r.attemptCount) || r.retryStartedAt.any (· ≤ clock - Delivery.window)

/-- `claimRecipient`. -/
def claimable [Primitives] (flags : Flags) (entries : List Entry) (clock : Int)
    (r : Recipient) : Bool :=
  decide (r.status = .queued) &&
    (!r.retryAutomatic || flags.retryEnabled && r.withinBudget clock) &&
    !active entries clock r.address

def claim (now : Int) (r : Recipient) : Recipient :=
  { r with
    status := .sending, attemptCount := r.attemptCount + 1
    retryStartedAt := some (r.retryStartedAt.getD now), retryAt := none }

def suppressDecision : Decision :=
  { version := 1, action := .suppress, scope := .policy, terminal := true }

/-- The row written by `suppression.Apply`. -/
def suppress (clock : Int) (r : Recipient) : Recipient :=
  { r with
    status := .suppressed, retryAt := none, retryAutomatic := false
    completedAt := some clock, decision := some suppressDecision }

def expireDecision (mayHaveDelivered : Bool) : Decision :=
  { version := 2, action := .expire, reason := .messageDeadlineElapsed, scope := .policy
    terminal := true, mayHaveDelivered }

/-- The row written by `applyExpiry`; `uncertain` tells whether an earlier
attempt left the recipient unknown. -/
def expire (clock : Int) (uncertain : Bool) (r : Recipient) : Recipient :=
  { r with
    status := .expired, retryAt := none, retryAutomatic := false, completedAt := some clock
    decision := some (expireDecision (r.decision.any (·.mayHaveDelivered) || uncertain)) }

def exhaustDecision (reason : Delivery.Reason) : Decision :=
  { version := 1, action := .manual, reason, scope := .policy }

/-- The row written by `Schedule` and `expireRecovered` for a spent budget. -/
def exhaust (reason : Delivery.Reason) (r : Recipient) : Recipient :=
  { r with
    status := .tempFailed, retryAt := none, retryAutomatic := false
    decision := some (exhaustDecision reason) }

/-- The row written by `Schedule` for a due retry. -/
def promote (r : Recipient) : Recipient :=
  { r with status := .queued, retryAt := none, retryAutomatic := true }

/-- The first update of `Finish`, which leaves suppressed rows alone. -/
def report (status : Status) (finishedAt : Int) (r : Recipient) : Recipient :=
  if r.status = .suppressed then r
  else
    let completedAt :=
      if status = .smtpAccepted ∨ status = .permFailed then some finishedAt else none
    { r with status, completedAt }

/-- The update of `decideRecipient`. -/
def decided (flags : Flags) (d : Decision) (finishedAt : Int) (r : Recipient) : Recipient :=
  { r with
    decision := some d
    retryAt :=
      if d.action = .retry ∧ flags.retryEnabled then some (finishedAt + d.retryAfter) else none
    retryAutomatic := false
    completedAt := if d.action = .manual ∨ d.action = .unknown then none else r.completedAt
    status :=
      if d.action = .manual then .tempFailed
      else if d.action = .unknown then .deliveryUnknown
      else r.status }

/-- The continuation that `finishSuppression` chooses for an unsent envelope. -/
def resumeDecision (started finishedAt : Int) (r : Recipient) : Decision :=
  if 7 ≤ r.attemptCount ∨ started + Delivery.window ≤ finishedAt then
    { version := 2, action := .manual, reason := .retryBudgetExhausted, scope := .policy }
  else
    { version := 2, action := .resume, reason := .envelopeAbortedBeforeData, scope := .policy }

def resume (started finishedAt : Int) (r : Recipient) : Recipient :=
  { r with
    status :=
      if 7 ≤ r.attemptCount ∨ started + Delivery.window ≤ finishedAt then .tempFailed else .queued
    decision := some (r.resumeDecision started finishedAt), retryAt := none, completedAt := none }

/-- The row written by `Recover` for a recipient of an abandoned attempt. -/
def recover (armed : Bool) (r : Recipient) : Recipient :=
  if r.status = .sending then
    { r with status := if armed then .deliveryUnknown else .queued }
  else r

def resolveDecision : Decision := { version := 1, action := .manualResolution }

/-- The row written by `ResolveUnknown`. -/
def resolve (status : Status) (now : Int) (r : Recipient) : Recipient :=
  { r with
    status, retryAt := none, retryAutomatic := false, decision := some resolveDecision
    completedAt := if status = .queued then none else some now }

def cancelDecision : Decision :=
  { version := 2, action := .cancel, reason := .websiteCancelled, scope := .policy
    terminal := true }

/-- The row written by `cancelPendingTx`. -/
def cancel (clock : Int) (r : Recipient) : Recipient :=
  { r with
    status := .cancelled, retryAt := none, retryAutomatic := false, completedAt := some clock
    decision := some cancelDecision }

end Recipient

namespace Message

def rowsWith (m : Message) (status : Status) : Nat :=
  m.recipients.countP fun id => (m.row id).status = status

/-- The status that `refresh` derives from all recipients. -/
def projection (m : Message) : Status :=
  let n := m.recipients.length
  let accepted := m.rowsWith .smtpAccepted + m.rowsWith .delivered
  if 0 < m.rowsWith .deliveryUnknown then .deliveryUnknown
  else if 0 < m.rowsWith .sending then .sending
  else if 0 < m.rowsWith .queued then .queued
  else if m.rowsWith .expired = n ∧ 0 < n then .expired
  else if m.rowsWith .suppressed = n ∧ 0 < n then .suppressed
  else if m.rowsWith .delivered = n ∧ 0 < n then .delivered
  else if accepted = n ∧ 0 < n then .smtpAccepted
  else if 0 < accepted then .partialAccepted
  else if 0 < m.rowsWith .tempFailed then .tempFailed
  else .permFailed

def completedStatuses : List Status :=
  [.smtpAccepted, .permFailed, .delivered, .suppressed, .expired]

def refresh (now : Int) (m : Message) : Message :=
  let status := m.projection
  { m with
    status
    nextAttemptAt :=
      if status = .queued then some now
      else (m.recipients.filterMap fun id => (m.row id).retryAt).min?
    completedAt :=
      if status ∈ completedStatuses then some (m.completedAt.getD now) else none }

@[simp] theorem refresh_row (now : Int) (m : Message) : (m.refresh now).row = m.row := rfl

def everUnknown (m : Message) (id : RecipientID) : Bool :=
  m.attempts.any fun a =>
    decide (id ∈ a.recipients) && decide ((a.row id).status = .reported .unknown)

def applyExpiry (clock : Int) (m : Message) : Message :=
  { m with
    row := fun id =>
      if m.expiresAt.any (· ≤ clock) && (m.row id).pending then
        (m.row id).expire clock (m.everUnknown id)
      else m.row id }

/-- The recipients that `suppression.Apply` finds. -/
def hit [Primitives] (entries : List Entry) (clock : Int) (sending : Bool) (m : Message)
    (id : RecipientID) : Bool :=
  (if sending then decide ((m.row id).status = .sending) else (m.row id).pending) &&
    active entries clock (m.row id).address

def suppressHits [Primitives] (entries : List Entry) (clock : Int) (sending : Bool)
    (m : Message) : Message :=
  { m with
    row := fun id => if m.hit entries clock sending id then (m.row id).suppress clock else m.row id }

end Message

end RelayTale.Queue
