import RelayTale.Feedback.Evidence
import RelayTale.Foundation.Composition
import RelayTale.Foundation.Keyed

/-!
# Publication of feedback

Reports, their dismissals, the links to messages and the reviews of links are
tables to which rows are only added. What a website is shown of a link is not
stored but computed from all four. Every transaction that adds a row has the
advisory lock `78320421` when it does, so the lock stands here for the tables.
What the statements read of the delivery tables changes at any time and is a
part of the call.
-/

namespace RelayTale.Feedback

open Text Locking Keyed
open Locking.Program (check ifSome select)

section Rows

/-- A row of `feedback_reports`. `parsed` is absent for an unsupported report. -/
structure ReportRow where
  id : FeedbackID
  source : Bytes
  externalID : Bytes
  sha256 : Digest
  raw : Bytes
  parsed : Option Report
  deriving DecidableEq, Repr

/-- A row of `feedback_links`. -/
structure LinkRow where
  id : LinkID
  feedback : FeedbackID
  index : Nat
  message : MessageID
  attempt : AttemptID
  recipient : RecipientID
  deriving DecidableEq, Repr

inductive ReviewAction
  | confirmFailure
  | withdraw
  deriving DecidableEq, Repr

/-- A row of `feedback_link_reviews`. -/
structure ReviewRow where
  link : LinkID
  revision : Nat
  action : ReviewAction
  deriving DecidableEq, Repr

inductive EventKind
  | feedbackLinked
  | feedbackReviewed
  | feedbackInvalidated
  deriving DecidableEq, Repr

/-- A row of `events` about a link. -/
structure EventRow where
  message : MessageID
  attempt : AttemptID
  recipient : RecipientID
  kind : EventKind
  link : LinkID
  deriving DecidableEq, Repr

abbrev ReportRow.evidence (f : ReportRow) : Bytes × Bytes × Digest :=
  (f.source, f.externalID, f.sha256)

abbrev LinkRow.reported (l : LinkRow) : FeedbackID × Nat := (l.feedback, l.index)

abbrev ReviewRow.key (r : ReviewRow) : LinkID × Nat := (r.link, r.revision)

/-- The report says something else under the same name. -/
def ReportRow.contradicts (f other : ReportRow) : Bool :=
  other.source = f.source && other.externalID = f.externalID && other.sha256 ≠ f.sha256

def LinkRow.event (l : LinkRow) (kind : EventKind) : EventRow :=
  ⟨l.message, l.attempt, l.recipient, kind, l.id⟩

end Rows

structure Tables where
  reports : List ReportRow
  dismissed : List FeedbackID
  links : List LinkRow
  reviews : List ReviewRow
  events : List EventRow
  reportKey : (reports.map ReportRow.id).Nodup
  evidenceKey : (reports.map ReportRow.evidence).Nodup
  dismissedKey : dismissed.Nodup
  linkKey : (links.map LinkRow.id).Nodup
  reportedKey : (links.map LinkRow.reported).Nodup
  reviewKey : (reviews.map ReviewRow.key).Nodup
  dismissedReport : ∀ id ∈ dismissed, ∃ f ∈ reports, f.id = id
  linkReport : ∀ l ∈ links, ∃ f ∈ reports, f.id = l.feedback
  reviewLink : ∀ r ∈ reviews, ∃ l ∈ links, l.id = r.link

namespace Tables

variable (t : Tables)

def insertReport (row : ReportRow) : Option Tables :=
  if new : row.id ∉ t.reports.map ReportRow.id ∧
      row.evidence ∉ t.reports.map ReportRow.evidence then
    some { t with
      reports := t.reports ++ [row]
      reportKey := nodup_snoc t.reportKey new.1
      evidenceKey := nodup_snoc t.evidenceKey new.2
      dismissedReport := refers_snoc t.dismissedReport
      linkReport := refers_snoc t.linkReport }
  else none

def insertDismissal (id : FeedbackID) : Option Tables :=
  if new : id ∉ t.dismissed ∧ ∃ f ∈ t.reports, f.id = id then
    some { t with
      dismissed := t.dismissed ++ [id]
      dismissedKey := nodup_snoc_self t.dismissedKey new.1
      dismissedReport := snoc_refers t.dismissedReport new.2 }
  else none

def insertLink (row : LinkRow) : Option Tables :=
  if new : row.id ∉ t.links.map LinkRow.id ∧ row.reported ∉ t.links.map LinkRow.reported ∧
      ∃ f ∈ t.reports, f.id = row.feedback then
    some { t with
      links := t.links ++ [row]
      linkKey := nodup_snoc t.linkKey new.1
      reportedKey := nodup_snoc t.reportedKey new.2.1
      linkReport := snoc_refers t.linkReport new.2.2
      reviewLink := refers_snoc t.reviewLink }
  else none

def insertReview (row : ReviewRow) : Option Tables :=
  if new : row.key ∉ t.reviews.map ReviewRow.key ∧ (∃ l ∈ t.links, l.id = row.link) ∧
      row.revision ∈ [1, 2] ∧ (row.revision = 1 ∨ row.action = .withdraw) then
    some { t with
      reviews := t.reviews ++ [row]
      reviewKey := nodup_snoc t.reviewKey new.1
      reviewLink := snoc_refers t.reviewLink new.2.1 }
  else none

def notify (events : List EventRow) : Tables := { t with events := t.events ++ events }

def report (id : FeedbackID) : Option ReportRow := t.reports.find? fun f => f.id = id

def link (id : LinkID) : Option LinkRow := t.links.find? fun l => l.id = id

def reviewsOf (id : LinkID) : List ReviewRow := t.reviews.filter fun r => r.link = id

def latest (id : LinkID) : Option ReviewRow := (t.reviewsOf id).argmax ReviewRow.revision

def contradicted (f : ReportRow) : Bool := t.reports.any f.contradicts

/-- The state of a report in `columns`. -/
def recordState (f : ReportRow) : RecordState :=
  if t.contradicted f then .conflict
  else if f.id ∈ t.dismissed then .dismissed
  else .quarantined

end Tables

section Projection

inductive PublicationState
  | pendingReview
  | failureConfirmedByOperator
  | withdrawn
  | evidenceConflict
  deriving DecidableEq, Repr

structure Publication where
  link : LinkRow
  state : PublicationState
  revision : Nat
  deriving DecidableEq, Repr

variable (t : Tables)

def publicationState (f : ReportRow) (rev : Option ReviewRow) : PublicationState :=
  if t.contradicted f then .evidenceConflict
  else if f.id ∈ t.dismissed then .withdrawn
  else match rev.map ReviewRow.action with
    | some .withdraw => .withdrawn
    | some .confirmFailure => .failureConfirmedByOperator
    | none => .pendingReview

/-- The query `Projection` for one link. -/
def projection (id : LinkID) : Option Publication := do
  let l ← t.link id
  let f ← t.report l.feedback
  let rev := t.latest id
  some ⟨l, publicationState t f rev, rev.elim 0 ReviewRow.revision⟩

end Projection

section Store

/-- The row of `feedback_capacity`. -/
structure Capacity where
  records : Nat
  storedBytes : Nat
  deriving DecidableEq, Repr

def Capacity.charge [Reader] (c : Capacity) (row : ReportRow) : Option Capacity :=
  let size := row.raw.length + Reader.storedSize row.parsed
  if c.records < 100000 ∧ c.storedBytes + size ≤ 1073741824 then
    some ⟨c.records + 1, c.storedBytes + size⟩
  else none

/-- `publication` is the lock `78320421` and `retention` the lock `78320420`. -/
inductive Resource
  | publication
  | retention
  | capacity
  deriving DecidableEq

abbrev Resource.Value : Resource → Type
  | .publication => Tables
  | .retention => Unit
  | .capacity => Capacity

abbrev Store := Locking.Store Resource.Value

abbrev Statements := Locking.Program Resource.Value

end Store

section Calls

structure ImportCall where
  id : FeedbackID
  source : Bytes
  externalID : Bytes
  actor : Bytes
  reason : Bytes
  raw : Bytes

structure DismissCall where
  id : FeedbackID
  digest : Digest
  actor : Bytes
  reason : Bytes

/-- A call of `Link` with the identifier it generates. `relation` is the row it finds in the
delivery tables, `eligible` what the trigger finds there. -/
structure LinkCall where
  id : LinkID
  feedback : FeedbackID
  expectedSHA256 : Digest
  message : MessageID
  attempt : AttemptID
  recipient : RecipientID
  reportIndex : Nat
  reason : Bytes
  actor : Bytes
  acknowledgeUnverified : Bool
  manualAssociation : Bool
  relation : Option Relation
  eligible : Bool

/-- A call of `Review`. `stable` is what it finds in the delivery tables. -/
structure ReviewCall where
  id : LinkID
  expectedRevision : Nat
  action : ReviewAction
  reason : Bytes
  actor : Bytes
  acknowledgeUnverified : Bool
  stable : Bool

def maxRecipients : Nat := 100

def maxBytes : Nat := 1048576

def valid (limit : Nat) (text : Bytes) : Bool :=
  trimSpace text ≠ [] && text.length ≤ limit && validUTF8 text &&
    text.all fun byte => byte ≠ 0 && byte ≠ 13 && byte ≠ 10

def contradictedLinks (t : Tables) (row : ReportRow) : List LinkRow :=
  t.links.filter fun l => t.reports.any fun f => f.id = l.feedback && f.contradicts row

def dismissedLinks (t : Tables) (id : FeedbackID) : List LinkRow :=
  t.links.filter fun l => l.feedback = id

def invalidations (links : List LinkRow) : List EventRow :=
  links.map (·.event .feedbackInvalidated)

def publish (t : Tables) : Sigma Resource.Value := ⟨.publication, t⟩

variable [Reader]

def ImportCall.row (v : ImportCall) : ReportRow where
  id := v.id
  source := v.source
  externalID :=
    if v.externalID = [] then ascii "sha256:" ++ Reader.digest v.raw else v.externalID
  sha256 := Reader.digest v.raw
  raw := v.raw
  parsed := Reader.parse v.raw

def ImportCall.accepted (v : ImportCall) : Bool :=
  valid 128 v.source && valid 128 v.actor && valid 2048 v.reason &&
    (v.externalID = [] || valid 256 v.externalID) &&
    decide (1 ≤ v.raw.length ∧ v.raw.length ≤ maxBytes)

/-- `INSERT INTO feedback_reports … ON CONFLICT DO NOTHING` with its triggers. -/
def importRaw (v : ImportCall) : Statements :=
  .acquire .publication .exclusive <| .acquire .retention .exclusive <|
    .read .publication fun t =>
      if v.row.evidence ∈ t.reports.map ReportRow.evidence then .commit []
      else
        ifSome (t.insertReport v.row) fun t' =>
          select .capacity .exclusive fun c =>
            ifSome (c.charge v.row) fun c' =>
              .commit [⟨.capacity, c'⟩,
                publish (t'.notify (invalidations (contradictedLinks t' v.row)))]

def importStatements (v : ImportCall) : Statements := check v.accepted (importRaw v)

def dismissStatements (v : DismissCall) : Statements :=
  check (valid 128 v.actor && valid 2048 v.reason) <|
    .snapshot fun view =>
      ifSome (Tables.report (view .publication) v.id) fun f =>
        check (f.sha256 = v.digest) <|
          select .publication .exclusive fun t =>
            ifSome (t.insertDismissal v.id) fun t' =>
              .commit [publish (t'.notify (invalidations (dismissedLinks t' v.id)))]

/-- The part of `inspectSnapshot` that concerns the report. -/
def inspect (t : Tables) (f : ReportRow) (v : LinkCall) : Option Assessment :=
  match f.parsed with
  | none =>
      some (assess ⟨t.recordState f, false, f.sha256 = v.expectedSHA256, v.relation,
        ⟨[], [], [], []⟩, 0⟩)
  | some report => do
      let selected ← report.recipients[v.reportIndex]?
      let rows := match reportMailbox selected.finalRecipient with
        | some address => report.recipients.countP fun r =>
            (reportMailbox r.finalRecipient).any (sameMailbox address)
        | none => 0
      some (assess ⟨t.recordState f, true, f.sha256 = v.expectedSHA256, v.relation, selected, rows⟩)

/-- The conditions under which `Link` goes on. -/
def associates (v : LinkCall) (state : RecordState) (a : Assessment) : Bool :=
  state = .quarantined &&
    v.relation.any (fun row =>
      row.currentStatus = .smtpAccepted && row.attemptStatus = .smtpAccepted) &&
    .noStableSmtpAcceptance ∉ a.reasons && .newerRecipientAttempt ∉ a.reasons &&
    .reportPredatesAttempt ∉ a.reasons &&
    if .unsupportedReport ∈ a.reasons then
      v.manualAssociation && v.reportIndex = 0 && .relationMismatch ∉ a.reasons
    else !v.manualAssociation && a.candidateMatches

def LinkCall.row (v : LinkCall) : LinkRow :=
  ⟨v.id, v.feedback, v.reportIndex, v.message, v.attempt, v.recipient⟩

/-- What the trigger of `feedback_links` checks. -/
def linkGuard (t : Tables) (v : LinkCall) : Bool :=
  (t.links.countP fun l => l.message = v.message) < 100 && v.eligible

def LinkCall.accepted (v : LinkCall) : Bool :=
  v.acknowledgeUnverified && valid 2048 v.reason && valid 128 v.actor &&
    decide (v.reportIndex < maxRecipients)

def linkStatements (v : LinkCall) : Statements :=
  check v.accepted <|
    select .publication .exclusive fun t =>
      ifSome (t.report v.feedback) fun f =>
        check (Reader.digest f.raw = v.expectedSHA256) <|
          ifSome (inspect t f v) fun a =>
            check (associates v (t.recordState f) a) <|
              check (linkGuard t v) <|
                ifSome (t.insertLink v.row) fun t' =>
                  .commit [publish (t'.notify [v.row.event .feedbackLinked])]

def ReviewCall.accepted (v : ReviewCall) : Bool :=
  v.acknowledgeUnverified && valid 2048 v.reason && valid 128 v.actor &&
    decide (v.expectedRevision ≤ 1)

/-- The checks of `Review` against the publication it found. -/
def reviewable (v : ReviewCall) (out : Publication) : Bool :=
  out.revision = v.expectedRevision && out.state ≠ .withdrawn &&
    !(v.action = .confirmFailure && out.state ≠ .pendingReview) &&
    !(out.revision = 1 && v.action ≠ .withdraw)

def reportsFailure (f : ReportRow) (index : Nat) : Bool :=
  f.parsed.all fun report => (report.recipients[index]?).any fun r =>
    r.action = ascii "failed" && (ascii "5.").isPrefixOf r.status

def confirmable (f : ReportRow) (index : Nat) (v : ReviewCall) : Bool :=
  v.action = .withdraw || (reportsFailure f index && v.stable)

/-- What the trigger of `feedback_link_reviews` checks. -/
def reviewGuard (t : Tables) (row : ReviewRow) : Bool :=
  let previous := (t.latest row.link).map ReviewRow.action
  !(row.revision = 1 && previous.isSome) &&
    !(row.revision = 2 && previous ≠ some .confirmFailure)

def reviewStatements (v : ReviewCall) : Statements :=
  check v.accepted <|
    select .publication .exclusive fun t =>
      ifSome (projection t v.id) fun out =>
        check (reviewable v out) <|
          ifSome (t.report out.link.feedback) fun f =>
            check (confirmable f out.link.index v) <|
              let row : ReviewRow := ⟨v.id, out.revision + 1, v.action⟩
              check (reviewGuard t row) <|
                ifSome (t.insertReview row) fun t' =>
                  .commit [publish (t'.notify [out.link.event .feedbackReviewed])]

end Calls

section Service

inductive Request
  | importReport (v : ImportCall)
  | dismiss (v : DismissCall)
  | link (v : LinkCall)
  | review (v : ReviewCall)

variable [Reader]

def statements : Request → Statements
  | .importReport v => importStatements v
  | .dismiss v => dismissStatements v
  | .link v => linkStatements v
  | .review v => reviewStatements v

end Service

end RelayTale.Feedback
