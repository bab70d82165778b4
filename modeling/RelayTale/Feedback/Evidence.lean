import RelayTale.Queue.State
import RelayTale.Foundation.Text

/-!
# Evidence

A delivery report as it was parsed and what `Assess` makes of it, given the
attempt and the recipient an operator wants to associate it with.
-/

namespace RelayTale.Feedback

open Text

abbrev FeedbackID := Nat
abbrev LinkID := Nat
abbrev Digest := Bytes

structure Recipient where
  finalRecipient : Bytes
  originalRecipient : Bytes := []
  action : Bytes
  status : Bytes
  deriving DecidableEq, Repr

structure Report where
  recipients : List Recipient
  deriving DecidableEq, Repr

/-- What is done with the bytes of a report: their digest in hexadecimal, `Parse`, the
length of what it returns as stored, and whether `mail.ParseAddress` takes an address as it is. -/
class Reader where
  digest : Bytes → Digest
  parse : Bytes → Option Report
  storedSize : Option Report → Nat
  bare : Bytes → Bool

inductive RecordState
  | conflict
  | dismissed
  | quarantined
  deriving DecidableEq, Repr

inductive Classification
  | unclassified
  | addressInvalidReported
  | permanentFailureReported
  | temporaryFailureReported
  | deliveryReported
  | relayReported
  | expansionReported
  deriving DecidableEq, Repr

inductive Reason
  | sourceUnverified
  | evidenceDigestMismatch
  | sourceEventConflict
  | feedbackDismissed
  | unsupportedReport
  | relationMismatch
  | unsupportedRecipientAddress
  | recipientAddressMismatch
  | recipientRewritten
  | ambiguousRecipientBlocks
  | reportPredatesAttempt
  | newerRecipientAttempt
  | deliveryUnknownPreserved
  | noStableSmtpAcceptance
  | addressFailureRequiresVerifiedSource
  | temporaryFailureNotAddressSuppression
  | permanentFailureNotProofOfInvalidAddress
  | reportDoesNotProveInboxDelivery
  | unclassifiedReport
  deriving DecidableEq, Repr

structure Assessment where
  classification : Classification
  candidateMatches : Bool
  reasons : List Reason
  deriving DecidableEq, Repr

structure Relation where
  address : Bytes
  currentStatus : Queue.Status
  attemptStatus : Queue.Status
  finalAccepted : Bool
  latestAttempt : Bool
  predatesAttempt : Bool
  deriving DecidableEq, Repr

structure AssociationEvidence where
  recordState : RecordState
  parsed : Bool
  expectedDigestMatches : Bool
  relation : Option Relation
  selected : Recipient
  sameAddressRows : Nat

section Classify

def dottedDigits : Bytes → Option Bytes
  | 46 :: rest =>
      let digits := rest.takeWhile isDigit
      if 1 ≤ digits.length ∧ digits.length ≤ 3 then some (rest.dropWhile isDigit) else none
  | _ => none

/-- The expression `^[245]\.[0-9]{1,3}\.[0-9]{1,3}$`. -/
def statusPattern : Bytes → Bool
  | first :: rest =>
      (first = 50 || first = 52 || first = 53) &&
        (dottedDigits rest).bind dottedDigits = some []
  | [] => false

def classify (r : Recipient) : Classification :=
  if !statusPattern r.status then .unclassified
  else if r.action = ascii "failed" then
    if r.status = ascii "5.1.1" then .addressInvalidReported
    else if r.status.head? = some 53 then .permanentFailureReported
    else .unclassified
  else if r.action = ascii "delayed" then
    if r.status.head? = some 52 then .temporaryFailureReported else .unclassified
  else if r.action = ascii "delivered" then
    if r.status.head? = some 50 then .deliveryReported else .unclassified
  else if r.action = ascii "relayed" then
    if r.status.head? = some 50 then .relayReported else .unclassified
  else if r.action = ascii "expanded" then
    if r.status.head? = some 50 then .expansionReported else .unclassified
  else .unclassified

end Classify

section Assess

/-- `strings.EqualFold` where one of the texts is ASCII. -/
def equalFold (a b : Bytes) : Bool := fold a = fold b

variable [Reader]

/-- The address of a field `rfc822; address`. -/
def reportMailbox (field : Bytes) : Option Bytes :=
  match field.dropWhile (· ≠ 59) with
  | [] => none
  | _ :: rest =>
      let address := trimSpace rest
      if equalFold (trimSpace (field.takeWhile (· ≠ 59))) (ascii "rfc822") && Reader.bare address &&
          address.length ≤ 320 && address.all fun byte =>
            byte ≠ 13 && byte ≠ 10 && byte ≠ 0 && byte < 0x80 then
        some address
      else none

/-- The part before the last `@` and the part behind it. -/
def splitMailbox (address : Bytes) : Option (Bytes × Bytes) :=
  match address.reverse.dropWhile (· ≠ 64) with
  | _ :: local' =>
      if local' = [] then none
      else some (local'.reverse, (address.reverse.takeWhile (· ≠ 64)).reverse)
  | [] => none

def sameMailbox (a b : Bytes) : Bool :=
  match splitMailbox a, splitMailbox b with
  | some (user, domain), some (user', domain') => user = user' && equalFold domain domain'
  | _, _ => false

def reasonIf (condition : Bool) (reason : Reason) : List Reason :=
  if condition then [reason] else []

def recordReasons : RecordState → List Reason
  | .conflict => [.sourceEventConflict]
  | .dismissed => [.feedbackDismissed]
  | .quarantined => []

def classificationReason : Classification → Reason
  | .addressInvalidReported => .addressFailureRequiresVerifiedSource
  | .temporaryFailureReported => .temporaryFailureNotAddressSuppression
  | .permanentFailureReported => .permanentFailureNotProofOfInvalidAddress
  | .deliveryReported | .relayReported | .expansionReported => .reportDoesNotProveInboxDelivery
  | .unclassified => .unclassifiedReport

def assess (e : AssociationEvidence) : Assessment :=
  let final := reportMailbox e.selected.finalRecipient
  let address := e.relation.elim [] Relation.address
  let matched := final.any (sameMailbox · address)
  let rewritten := e.selected.originalRecipient ≠ [] &&
    !(reportMailbox e.selected.originalRecipient).any (sameMailbox · (final.getD []))
  let predates := e.relation.any Relation.predatesAttempt
  { classification := classify e.selected
    candidateMatches := e.expectedDigestMatches && e.parsed && e.relation.isSome && matched &&
      e.sameAddressRows = 1 && !rewritten && !predates
    reasons := [.sourceUnverified] ++
      reasonIf (!e.expectedDigestMatches) .evidenceDigestMismatch ++
      recordReasons e.recordState ++
      reasonIf (!e.parsed) .unsupportedReport ++
      reasonIf e.relation.isNone .relationMismatch ++
      reasonIf final.isNone .unsupportedRecipientAddress ++
      reasonIf (final.isSome && !matched) .recipientAddressMismatch ++
      reasonIf rewritten .recipientRewritten ++
      reasonIf (e.sameAddressRows ≠ 1) .ambiguousRecipientBlocks ++
      reasonIf predates .reportPredatesAttempt ++
      reasonIf (e.relation.any fun row => !row.latestAttempt) .newerRecipientAttempt ++
      reasonIf (e.relation.any fun row =>
        row.currentStatus = .deliveryUnknown || row.attemptStatus = .deliveryUnknown)
        .deliveryUnknownPreserved ++
      reasonIf (e.relation.any fun row => row.currentStatus ≠ .smtpAccepted ||
        row.attemptStatus ≠ .smtpAccepted || !row.finalAccepted) .noStableSmtpAcceptance ++
      [classificationReason (classify e.selected)] }

end Assess

end RelayTale.Feedback
