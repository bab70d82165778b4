import Mathlib.Data.Prod.Lex
import Mathlib.Order.WithBot
import RelayTale.Basic
import RelayTale.Foundation.Guard
import RelayTale.Foundation.Json
import RelayTale.Foundation.Paging
import RelayTale.Foundation.Truth
import RelayTale.Foundation.Text

/-!
# When an archive may be purged

The rule is written three times: `Cleanup` selects candidates by a condition in
SQL, `LifecyclePreflight` collects the reasons to retain a message, and the
trigger on `messages` refuses a change that has dependencies. Completion times
are microseconds, as the database stores them; instants of the program are
nanoseconds.
-/

namespace RelayTale.Operations.Retention

open Guard

section Rows

/-- The status columns of `messages` and `recipients`. -/
inductive Status
  | received
  | archived
  | queued
  | sending
  | smtpAccepted
  | partialAccepted
  | tempFailed
  | permFailed
  | deliveryUnknown
  | bounced
  | delivered
  | suppressed
  | cancelled
  | expired
  | sandboxStored
  deriving DecidableEq, Repr

inductive ArchiveState
  | available
  | purgePending
  | purged
  deriving DecidableEq, Repr

inductive OutboxState
  | pending
  | inFlight
  | delivered
  | dead
  deriving DecidableEq, Repr

structure Message where
  id : MessageID
  status : Status
  archiveState : ArchiveState
  completedAt : Option Int
  lockedBy : Option Bytes
  idempotencyKey : Option Bytes
  emlPath : Bytes
  deriving DecidableEq, Repr

structure Recipient where
  messageID : MessageID
  status : Status
  decision : Option Json

structure Attempt where
  messageID : MessageID
  result : Bytes

structure OutboxEntry where
  messageID : MessageID
  state : OutboxState

/-- The tables that are read. Of links and ledger entries only the message matters, of reviews the
report. -/
structure Tables where
  messages : List Message
  key : (messages.map Message.id).Nodup
  recipients : List Recipient
  attempts : List Attempt
  feedbackLinks : List MessageID
  submissionLedger : List MessageID
  outbox : List OutboxEntry
  feedbackReports : List Nat
  feedbackReviews : List Nat

/-- `document->>key`: the text of a member, `NULL` where there is none or it is `null`. Of arrays
and objects the opening bracket stands for the whole text: it is only compared with `true`. -/
def member (key : Bytes) : Json → Option Bytes
  | .object members =>
      match (members.find? fun member => member.1 = key).map Prod.snd with
      | some (.string text) => some text
      | some (.bool value) => some (ascii (if value then "true" else "false"))
      | some (.number lexeme) => some lexeme
      | some (.array _) => some (ascii "[")
      | some (.object _) => some (ascii "\x7b")
      | some .null => none
      | none => none
  | _ => none

end Rows

section Conditions

variable (t : Tables) (m : Message)

def terminalStatuses : List Status :=
  [.smtpAccepted, .permFailed, .delivered, .bounced, .suppressed, .cancelled, .expired,
    .sandboxStored]

def inProgress : Option Bool :=
  Truth.anyOf t.attempts fun a => Truth.and (Truth.equal (some a.messageID) (some m.id))
    (Truth.equal (some a.result) (some (ascii "IN_PROGRESS")))

def unresolved : Option Bool :=
  Truth.anyOf t.recipients fun r => Truth.and (Truth.equal (some r.messageID) (some m.id))
    (Truth.or (Truth.oneOf (some r.status) [.queued, .sending, .tempFailed, .deliveryUnknown])
      (Truth.and (Truth.equal (some r.status) (some .expired))
        (Truth.equal (r.decision.bind (member (ascii "may_have_delivered")))
          (some (ascii "true")))))

def linked : Option Bool :=
  Truth.anyOf t.feedbackLinks fun id => Truth.equal (some id) (some m.id)

def inLedger : Option Bool :=
  Truth.anyOf t.submissionLedger fun id => Truth.equal (some id) (some m.id)

def notifying : Option Bool :=
  Truth.anyOf t.outbox fun w => Truth.and (Truth.equal (some w.messageID) (some m.id))
    (Truth.oneOf (some w.state) [.pending, .inFlight, .dead])

def unreviewed : Option Bool :=
  Truth.anyOf t.feedbackReports fun id =>
    Truth.not (Truth.anyOf t.feedbackReviews fun review => Truth.equal (some review) (some id))

end Conditions

section Requests

inductive Refusal
  | retentionBounds
  | cleanupRunning
  | lifecycleBounds
  | lifecycleCursor
  | lifecycleAsOf
  deriving DecidableEq, Repr

/-- `AddDate(0, 0, -days)` in UTC. -/
def daysBefore (instant days : Int) : Int := instant - days * (24 * hour)

/-- An instant as it is sent to the database, which keeps microseconds. -/
def sent (instant : Int) : Int := instant / 1000

def yearsEnd : Int := 253402300800 * second

/-- An instant of a request, where the zero time stands for the clock. -/
def orClock (clock instant : Int) : Int := if instant = zeroTime then clock else instant

end Requests

section Cleanup

variable (t : Tables)

structure RetentionOptions where
  emlDays : Int
  debugDays : Int
  batch : Int
  now : Int

/-- `validateRetention`. The clock is the one of the program. -/
def validateRetention (clock : Int) (p : RetentionOptions) : Except Refusal RetentionOptions :=
  if p.emlDays < 0 ∨ p.debugDays < 0 ∨ 36500 < p.emlDays ∨ 36500 < p.debugDays ∨ p.batch < 1 ∨
      1000 < p.batch then
    .error .retentionBounds
  else .ok { p with now := orClock clock p.now }

def terminal (m : Message) : Option Bool :=
  Truth.and (Truth.oneOf (some m.status) terminalStatuses)
    (Truth.and (Truth.isNull m.lockedBy)
      (Truth.and (Truth.not (inProgress t m)) (Truth.not (unresolved t m))))

def retentionDependencies (m : Message) : Option Bool :=
  Truth.and (Truth.isNull m.idempotencyKey)
    (Truth.and (Truth.not (linked t m))
      (Truth.and (Truth.not (inLedger t m))
        (Truth.and (Truth.not (notifying t m)) (Truth.not (unreviewed t)))))

def retentionCandidate (m : Message) (cutoff : Int) : Option Bool :=
  Truth.or
    (Truth.and (Truth.equal (some m.archiveState) (some .available))
      (Truth.and (Truth.compare (· < ·) m.completedAt (some cutoff)) (retentionDependencies t m)))
    (Truth.equal (some m.archiveState) (some .purgePending))

structure CleanupItem where
  id : MessageID
  state : ArchiveState
  path : Bytes
  deriving DecidableEq, Repr

/-- `ORDER BY completed_at, id`, where a missing time comes last. -/
def completion (m : Message) : WithTop Int ×ₗ MessageID :=
  toLex (m.completedAt.elim ⊤ fun time => (time : WithTop Int), m.id)

/-- The rows of the query of `Cleanup`, before its limit. -/
def candidates (cutoff : Int) : List Message :=
  t.messages.filter fun m => Truth.and (terminal t m) (retentionCandidate t m cutoff) = some true

/-- The archives that `Cleanup` selects. `free` is the answer of the advisory lock. -/
def cleanupArchives (clock : Int) (free : Bool) (p : RetentionOptions) :
    Except Refusal (List CleanupItem) := do
  let p ← validateRetention clock p
  require (free = true) .cleanupRunning
  let rows := candidates t (sent (daysBefore p.now p.emlDays))
  pure <| if 0 < p.emlDays then
    ((Paging.sort completion rows).take p.batch.toNat).map fun m => ⟨m.id, m.archiveState, m.emlPath⟩
  else []

end Cleanup

section Preflight

inductive Reason
  | retentionDisabled
  | nonTerminalMessage
  | messageLease
  | attemptInProgress
  | recipientUnresolved
  | completionUnrecorded
  | retentionWindow
  | idempotencyReference
  | webhookRequiresReview
  | manualFeedbackHistory
  | unscopedFeedbackReview
  | archiveNotAvailable
  deriving DecidableEq, Repr

inductive Disposition
  | retain
  | reviewCandidate
  deriving DecidableEq, Repr

/-- The text of the cursor: none, a UUID or another one. -/
inductive Cursor
  | absent
  | uuid (id : MessageID)
  | unreadable
  deriving DecidableEq, Repr

/-- The absent cursor is the nil UUID. -/
def Cursor.parse : Cursor → Option MessageID
  | .absent => some 0
  | .uuid id => some id
  | .unreadable => none

structure LifecycleOptions where
  emlDays : Int
  limit : Int
  after : Cursor
  asOf : Int

structure LifecycleItem where
  messageID : MessageID
  status : Status
  archiveState : ArchiveState
  disposition : Disposition
  reasons : List Reason
  deriving DecidableEq, Repr

structure LifecycleReport where
  asOf : Int
  emlDays : Int
  items : List LifecycleItem
  hasMore : Bool
  nextAfter : Option MessageID
  unreviewedFeedback : Bool
  deriving DecidableEq, Repr

variable (t : Tables)

/-- The columns of a row are scanned into booleans, which are never `NULL`. -/
def scanned (column : Option Bool) : Bool := column = some true

def hold (yes : Bool) (reason : Reason) : List Reason := if yes then [reason] else []

def retainReasons (m : Message) (asOf days : Int) : List Reason :=
  hold (days = 0) .retentionDisabled ++
  hold (m.status ∉ terminalStatuses) .nonTerminalMessage ++
  hold (scanned (Truth.not (Truth.isNull m.lockedBy))) .messageLease ++
  hold (scanned (inProgress t m)) .attemptInProgress ++
  hold (scanned (unresolved t m)) .recipientUnresolved ++
  hold m.completedAt.isNone .completionUnrecorded ++
  hold (m.completedAt.any fun time => ¬ 1000 * time < daysBefore asOf days) .retentionWindow ++
  hold (scanned (Truth.or (inLedger t m) (Truth.not (Truth.isNull m.idempotencyKey))))
    .idempotencyReference ++
  hold (scanned (notifying t m)) .webhookRequiresReview ++
  hold (scanned (linked t m)) .manualFeedbackHistory ++
  hold (scanned (unreviewed t)) .unscopedFeedbackReview ++
  hold (m.archiveState ≠ .available) .archiveNotAvailable

def lifecycleItem (asOf days : Int) (m : Message) : LifecycleItem :=
  let reasons := retainReasons t m asOf days
  { messageID := m.id, status := m.status, archiveState := m.archiveState
    disposition := if reasons.length = 0 then .reviewCandidate else .retain, reasons }

/-- `LifecyclePreflight` at a time of the database: a page of the messages after the cursor. -/
def lifecyclePreflight (clock : Int) (p : LifecycleOptions) : Except Refusal LifecycleReport := do
  require (0 ≤ p.emlDays ∧ p.emlDays ≤ 36500 ∧ 1 ≤ p.limit ∧ p.limit ≤ 1000) .lifecycleBounds
  let after ← demand p.after.parse .lifecycleCursor
  let asOf := orClock clock p.asOf
  require (asOf ≤ clock ∧ zeroTime ≤ asOf ∧ asOf < yearsEnd) .lifecycleAsOf
  let limit := p.limit.toNat
  let rows := (Paging.sort Message.id (t.messages.filter fun m => after < m.id)).take (limit + 1)
  let items := (rows.take limit).map (lifecycleItem t asOf p.emlDays)
  pure {
    asOf, emlDays := p.emlDays, items, hasMore := limit < rows.length
    nextAfter := items.getLast?.map LifecycleItem.messageID
    unreviewedFeedback := scanned (unreviewed t) }

end Preflight

section Trigger

inductive Isolation
  | readCommitted
  | repeatableRead
  | serializable
  deriving DecidableEq, Repr

inductive GateError
  | reactivated
  | isolation
  | dependencies
  deriving DecidableEq, Repr

variable (t : Tables)

def retiring (old new : Message) : Option Bool :=
  Truth.and (Truth.not (Truth.equal (some old.archiveState) (some .available)))
    (Truth.or (Truth.equal (some new.archiveState) (some .available))
      (Truth.or (Truth.not (Truth.isNull new.lockedBy))
        (Truth.or (Truth.not (Truth.oneOf (some new.status) terminalStatuses))
          (Truth.distinct new.idempotencyKey old.idempotencyKey))))

def protected' (new : Message) : Option Bool :=
  Truth.or (linked t new)
    (Truth.or (Truth.not (Truth.isNull new.idempotencyKey))
      (Truth.or (inLedger t new)
        (Truth.or (notifying t new)
          (Truth.or (unreviewed t)
            (Truth.or (Truth.not (Truth.isNull new.lockedBy))
              (Truth.or (Truth.not (Truth.oneOf (some new.status) terminalStatuses))
                (Truth.or (inProgress t new) (unresolved t new))))))))

/-- The trigger before an update of a message. -/
def retentionMessageGate (isolation : Isolation) (old new : Message) :
    Except GateError Message := do
  require (retiring old new ≠ some true) GateError.reactivated
  if Truth.and (Truth.equal (some old.archiveState) (some .available))
      (Truth.not (Truth.equal (some new.archiveState) (some .available))) = some true then
    require (isolation = .readCommitted) GateError.isolation
    require (protected' t new ≠ some true) GateError.dependencies
  pure new

end Trigger

section Agreement

variable {t : Tables} {m : Message} {asOf days clock : Int}

/-- Nothing refers to the message and it is at rest. -/
structure Clear (t : Tables) (m : Message) : Prop where
  status : m.status ∈ terminalStatuses
  unlocked : m.lockedBy = none
  attempts : inProgress t m ≠ some true
  recipients : unresolved t m ≠ some true
  key : m.idempotencyKey = none
  links : linked t m ≠ some true
  ledger : inLedger t m ≠ some true
  outbox : notifying t m ≠ some true
  reviewed : unreviewed t ≠ some true

theorem terminal_and_dependencies :
    Truth.and (terminal t m) (retentionDependencies t m) = some true ↔ Clear t m := by
  simp only [terminal, retentionDependencies, Truth.and_eq_true, Truth.not_eq_true,
    Truth.oneOf_some, Truth.isNull, Option.some.injEq, decide_eq_true_eq, Option.isNone_iff_eq_none]
  constructor
  · rintro ⟨⟨status, unlocked, attempts, recipients⟩, key, links, ledger, outbox, reviewed⟩
    exact ⟨status, unlocked, Truth.anyOf_eq_false.mp attempts, Truth.anyOf_eq_false.mp recipients,
      key, Truth.anyOf_eq_false.mp links, Truth.anyOf_eq_false.mp ledger,
      Truth.anyOf_eq_false.mp outbox, Truth.anyOf_eq_false.mp reviewed⟩
  · rintro ⟨status, unlocked, attempts, recipients, key, links, ledger, outbox, reviewed⟩
    exact ⟨⟨status, unlocked, Truth.anyOf_eq_false.mpr attempts,
      Truth.anyOf_eq_false.mpr recipients⟩, key, Truth.anyOf_eq_false.mpr links,
      Truth.anyOf_eq_false.mpr ledger, Truth.anyOf_eq_false.mpr outbox,
      Truth.anyOf_eq_false.mpr reviewed⟩

theorem not_isNull {α : Type} {value : Option α} :
    Truth.not (Truth.isNull value) = some true ↔ value ≠ none := by
  cases value <;> simp [Truth.not, Truth.isNull]

/-- What `Cleanup` selects of the archives that are there. -/
theorem selected_iff (available : m.archiveState = .available) (cutoff : Int) :
    Truth.and (terminal t m) (retentionCandidate t m cutoff) = some true ↔
      Clear t m ∧ ∃ time, m.completedAt = some time ∧ time < cutoff := by
  have completed : Truth.compare (· < ·) m.completedAt (some cutoff) = some true ↔
      ∃ time, m.completedAt = some time ∧ time < cutoff := by
    cases m.completedAt <;> simp [Truth.compare]
  rw [← terminal_and_dependencies]
  simp only [retentionCandidate, available, Truth.and_eq_true, Truth.or_eq_true, Truth.equal_some,
    Option.some.injEq, decide_eq_true_eq, true_and, reduceCtorEq, or_false, completed]
  tauto

theorem hold_eq_nil {yes : Bool} {reason : Reason} : hold yes reason = [] ↔ yes = false := by
  cases yes <;> simp [hold]

/-- What `LifecyclePreflight` finds no reason to retain. -/
theorem retainReasons_eq_nil (available : m.archiveState = .available) (positive : 1 ≤ days) :
    retainReasons t m asOf days = [] ↔
      Clear t m ∧ ∃ time, m.completedAt = some time ∧ 1000 * time < daysBefore asOf days := by
  have enabled : decide (days = 0) = false := by simpa using show days ≠ 0 by omega
  have completed : (m.completedAt.isNone = false ∧
      (m.completedAt.any fun time => decide ¬ 1000 * time < daysBefore asOf days) = false) ↔
        ∃ time, m.completedAt = some time ∧ 1000 * time < daysBefore asOf days := by
    cases m.completedAt <;> simp
  have unscanned (column : Option Bool) : scanned column = false ↔ column ≠ some true := by
    simp [scanned]
  rw [← completed]
  simp only [retainReasons, List.append_eq_nil_iff, hold_eq_nil, enabled, available, unscanned,
    not_isNull, ne_eq, not_true_eq_false, decide_false, Truth.or_eq_true, not_or,
    decide_eq_false_iff_not, not_not, true_and, and_true]
  constructor
  · rintro ⟨⟨⟨⟨⟨⟨⟨⟨⟨status, unlocked⟩, attempts⟩, recipients⟩, done⟩, past⟩, ledger, key⟩, outbox⟩,
      links⟩, reviewed⟩
    exact ⟨⟨status, unlocked, attempts, recipients, key, links, ledger, outbox, reviewed⟩, done,
      past⟩
  · rintro ⟨⟨status, unlocked, attempts, recipients, key, links, ledger, outbox, reviewed⟩, done,
      past⟩
    exact ⟨⟨⟨⟨⟨⟨⟨⟨⟨status, unlocked⟩, attempts⟩, recipients⟩, done⟩, past⟩, ledger, key⟩, outbox⟩,
      links⟩, reviewed⟩

/-- What the trigger lets pass. -/
theorem gate_permits (available : m.archiveState = .available) :
    retentionMessageGate t .readCommitted m { m with archiveState := .purgePending } =
        .ok { m with archiveState := .purgePending } ↔ Clear t m := by
  have fresh : retiring m { m with archiveState := .purgePending } ≠ some true := by
    simp [retiring, available]
  have changes : Truth.and (Truth.equal (some m.archiveState) (some .available))
      (Truth.not (Truth.equal (some ArchiveState.purgePending) (some .available))) = some true := by
    simp [available]
  have ended : Truth.not (Truth.oneOf (some m.status) terminalStatuses) = some true ↔
      m.status ∉ terminalStatuses := by
    simp
  have open' : protected' t { m with archiveState := .purgePending } ≠ some true ↔ Clear t m := by
    -- The conditions do not read the state of the archive.
    rw [show protected' t { m with archiveState := .purgePending } = protected' t m from rfl]
    unfold protected'
    simp only [ne_eq, Truth.or_eq_true, not_isNull, ended, not_or, not_not]
    constructor
    · rintro ⟨links, key, ledger, outbox, reviewed, unlocked, status, attempts, recipients⟩
      exact ⟨status, unlocked, attempts, recipients, key, links, ledger, outbox, reviewed⟩
    · rintro ⟨status, unlocked, attempts, recipients, key, links, ledger, outbox, reviewed⟩
      exact ⟨links, key, ledger, outbox, reviewed, unlocked, status, attempts, recipients⟩
  rw [← open']
  unfold retentionMessageGate
  simp only [if_pos changes, do_eq_ok, require_eq_ok, pure_eq_ok]
  constructor
  · rintro ⟨-, -, -, -, -, clear, -⟩
    exact clear
  · exact fun clear => ⟨⟨⟩, fresh, ⟨⟩, trivial, ⟨⟩, clear, trivial⟩

variable (t m) in
/-- A message is among the archives that `Cleanup` selects. -/
def Selects (clock : Int) (free : Bool) (p : RetentionOptions) : Prop :=
  ∃ items ∈ (cleanupArchives t clock free p).toOption, ∃ item ∈ items, item.id = m.id

variable (t m) in
def Reports (clock : Int) (p : LifecycleOptions) : Prop :=
  ∃ report ∈ (lifecyclePreflight t clock p).toOption,
    ∃ item ∈ report.items, item.messageID = m.id ∧ item.disposition = .reviewCandidate

instance {free : Bool} {p : RetentionOptions} : Decidable (Selects t m clock free p) :=
  inferInstanceAs (Decidable (∃ items ∈ (cleanupArchives t clock free p).toOption,
    ∃ item ∈ items, item.id = m.id))

instance {p : LifecycleOptions} : Decidable (Reports t m clock p) :=
  inferInstanceAs (Decidable (∃ report ∈ (lifecyclePreflight t clock p).toOption,
    ∃ item ∈ report.items, item.messageID = m.id ∧ item.disposition = .reviewCandidate))

theorem selects_iff (here : m ∈ t.messages) (started : zeroTime < asOf) {debug batch : Int}
    (positive : 1 ≤ days) (bounded : days ≤ 36500) (debugs : 0 ≤ debug ∧ debug ≤ 36500)
    (batches : 1 ≤ batch ∧ batch ≤ 1000)
    (within : Paging.Within completion (candidates t (sent (daysBefore asOf days))) m batch.toNat) :
    Selects t m clock true ⟨days, debug, batch, asOf⟩ ↔
      Truth.and (terminal t m) (retentionCandidate t m (sent (daysBefore asOf days))) =
        some true := by
  have valid : validateRetention clock ⟨days, debug, batch, asOf⟩ =
      .ok ⟨days, debug, batch, asOf⟩ := by
    rw [validateRetention, if_neg (by dsimp only; omega), orClock, if_neg started.ne']
  have rows (other : Message) : other ∈ candidates t (sent (daysBefore asOf days)) ↔
      other ∈ t.messages ∧ Truth.and (terminal t other)
        (retentionCandidate t other (sent (daysBefore asOf days))) = some true := by
    simp [candidates]
  simp only [Selects, cleanupArchives, valid, require, if_pos, Except.toOption, bind, Except.bind,
    pure, Except.pure, if_pos (show (0 : Int) < days by omega), Option.mem_some_iff,
    exists_eq_left', List.mem_map, exists_exists_and_eq_and]
  constructor
  · rintro ⟨other, listed, same⟩
    obtain ⟨inside, selected⟩ :=
      (rows other).mp ((Paging.sort_perm _).mem_iff.mp (List.mem_of_mem_take listed))
    rwa [← List.inj_on_of_nodup_map t.key inside here same]
  · exact fun selected => ⟨m, within.mem_take ((rows m).mpr ⟨here, selected⟩), rfl⟩

theorem reports_iff (here : m ∈ t.messages) (started : zeroTime < asOf) (past : asOf ≤ clock)
    (years : asOf < yearsEnd) (positive : 1 ≤ days) (bounded : days ≤ 36500) {limit : Int}
    (limits : 1 ≤ limit ∧ limit ≤ 1000) {after : Cursor} {mark : MessageID}
    (cursor : after.parse = some mark) (beyond : mark < m.id)
    (within : Paging.Within Message.id (t.messages.filter fun m => mark < m.id) m limit.toNat) :
    Reports t m clock ⟨days, limit, after, asOf⟩ ↔ retainReasons t m asOf days = [] := by
  have candidate (other : Message) :
      (lifecycleItem t asOf days other).disposition = .reviewCandidate ↔
        retainReasons t other asOf days = [] := by
    simp [lifecycleItem]
  have page : ((Paging.sort Message.id (t.messages.filter fun m => mark < m.id)).take
      (limit.toNat + 1)).take limit.toNat =
        (Paging.sort Message.id (t.messages.filter fun m => mark < m.id)).take limit.toNat := by
    rw [List.take_take, Nat.min_eq_left (Nat.le_succ _)]
  have bounds : 0 ≤ days ∧ days ≤ 36500 ∧ 1 ≤ limit ∧ limit ≤ 1000 := by omega
  simp only [Reports, lifecyclePreflight, require, if_pos bounds, cursor, demand, orClock,
    if_neg started.ne', if_pos (show asOf ≤ clock ∧ zeroTime ≤ asOf ∧ asOf < yearsEnd from
    ⟨past, started.le, years⟩), page, Except.toOption, bind, Except.bind, pure, Except.pure,
    Option.mem_some_iff, exists_eq_left', List.mem_map, exists_exists_and_eq_and, candidate]
  constructor
  · rintro ⟨other, listed, same, none'⟩
    have inside := (Paging.sort_perm _).mem_iff.mp (List.mem_of_mem_take listed)
    rwa [← List.inj_on_of_nodup_map t.key (List.mem_filter.mp inside).1 here same]
  · exact fun none' =>
      ⟨m, within.mem_take (List.mem_filter.mpr ⟨here, by simpa using beyond⟩), rfl, none'⟩

/-- The three checks agree for instants in whole microseconds that are not ahead of the database's
clock, and messages that the limits of the two queries do not cut off. -/
theorem retention_checks_agree (t : Tables) (m : Message) (here : m ∈ t.messages)
    (available : m.archiveState = .available) (asOf clock wall : Int) (whole : 1000 ∣ asOf)
    (started : zeroTime < asOf) (past : asOf ≤ clock) (years : asOf < yearsEnd) (days : Int)
    (positive : 1 ≤ days) (bounded : days ≤ 36500) (debug : Int)
    (debugs : 0 ≤ debug ∧ debug ≤ 36500) (limit batch : Int) (limits : 1 ≤ limit ∧ limit ≤ 1000)
    (batches : 1 ≤ batch ∧ batch ≤ 1000) (after : Cursor) (mark : MessageID)
    (cursor : after.parse = some mark) (beyond : mark < m.id)
    (paged : Paging.Within Message.id (t.messages.filter fun m => mark < m.id) m limit.toNat)
    (batched :
      Paging.Within completion (candidates t (sent (daysBefore asOf days))) m batch.toNat) :
    (Reports t m clock ⟨days, limit, after, asOf⟩ ↔
      Selects t m wall true ⟨days, debug, batch, asOf⟩) ∧
    (Selects t m wall true ⟨days, debug, batch, asOf⟩ →
      retentionMessageGate t .readCommitted m { m with archiveState := .purgePending } =
        .ok { m with archiveState := .purgePending }) ∧
    (retentionMessageGate t .readCommitted m { m with archiveState := .purgePending } =
        .ok { m with archiveState := .purgePending } →
      (∃ time, m.completedAt = some time ∧ 1000 * time < daysBefore asOf days) →
      Reports t m clock ⟨days, limit, after, asOf⟩ ∧
        Selects t m wall true ⟨days, debug, batch, asOf⟩) := by
  have cutoff (time : Int) : time < sent (daysBefore asOf days) ↔
      1000 * time < daysBefore asOf days := by
    obtain ⟨micros, rfl⟩ := whole
    unfold sent daysBefore hour minute second
    omega
  rw [reports_iff here started past years positive bounded limits cursor beyond paged,
    selects_iff here started positive bounded debugs batches batched,
    retainReasons_eq_nil available positive, selected_iff available, gate_permits available]
  simp only [cutoff]
  exact ⟨trivial, And.left, fun clear completed => ⟨⟨clear, completed⟩, clear, completed⟩⟩

section Samples

def sampleMessage (id : MessageID) (completed : Int) : Message :=
  ⟨id, .delivered, .available, some completed, none, none, []⟩

def sampleTables (id : MessageID) (completed : Int) : Tables where
  messages := [sampleMessage id completed]
  key := List.nodup_singleton _
  recipients := []
  attempts := []
  feedbackLinks := []
  submissionLedger := []
  outbox := []
  feedbackReports := []
  feedbackReviews := []

theorem retention_checks_agree_of_sample :
    Reports (sampleTables 1 0) (sampleMessage 1 0) (48 * hour)
      ⟨1, 1, .absent, 48 * hour⟩ ∧
    Selects (sampleTables 1 0) (sampleMessage 1 0) 0 true
      ⟨1, 0, 1, 48 * hour⟩ :=
  (retention_checks_agree (sampleTables 1 0) (sampleMessage 1 0)
    List.mem_cons_self rfl (48 * hour) (48 * hour) 0 (by decide) (by decide) le_rfl (by decide) 1
    le_rfl (by decide) 0 (by decide) 1 1 (by decide) (by decide) .absent 0 rfl (by decide)
    (by decide) (by decide)).2.2 (by decide) ⟨0, rfl, by decide⟩

/-- Half a microsecond after the end of the period only the preflight sees the message. The
preflight refuses an instant ahead of the clock. A message whose identifier is the nil UUID is on
no page. -/
theorem retention_checks_differ :
    (Reports (sampleTables 1 0) (sampleMessage 1 0) (48 * hour)
        ⟨1, 1, .absent, 24 * hour + 500⟩ ∧
      ¬ Selects (sampleTables 1 0) (sampleMessage 1 0) 0 true ⟨1, 0, 1, 24 * hour + 500⟩) ∧
    (¬ Reports (sampleTables 1 0) (sampleMessage 1 0) (47 * hour) ⟨1, 1, .absent, 48 * hour⟩ ∧
      Selects (sampleTables 1 0) (sampleMessage 1 0) 0 true ⟨1, 0, 1, 48 * hour⟩) ∧
    (∀ clock p, ¬ Reports (sampleTables 0 0) (sampleMessage 0 0) clock p) ∧
      Selects (sampleTables 0 0) (sampleMessage 0 0) 0 true ⟨1, 0, 1, 48 * hour⟩ := by
  refine ⟨by decide, by decide, fun clock p => ?_, by decide⟩
  rintro ⟨report, given, item, listed, -⟩
  cases found : lifecyclePreflight (sampleTables 0 0) clock p with
  | error refusal => simp [found, Except.toOption] at given
  | ok answer =>
    obtain rfl : answer = report := by simpa [found, Except.toOption] using given
    simp only [lifecyclePreflight, do_eq_ok, pure_eq_ok] at found
    obtain ⟨-, -, after, -, -, -, rfl⟩ := found
    simp [sampleTables, sampleMessage, Paging.sort] at listed

end Samples

end Agreement

end RelayTale.Operations.Retention
