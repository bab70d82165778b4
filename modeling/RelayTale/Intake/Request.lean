import RelayTale.Basic
import RelayTale.Foundation.ByteOrder
import RelayTale.Foundation.Guard
import RelayTale.Foundation.Text

/-!
# Requests of websites

The errors with which a request is answered, and the checks of its texts.
-/

namespace RelayTale.Intake

open Guard
open Text (within isDigit)

inductive Refusal
  | invalidSubmission
  | invalidSchedule
  | invalidExpiry
  | expiredSubmission
  | idempotencyConflict
  | submissionBusy
  | submissionDisabled
  | controlNotFound
  | notCancellable
  | scheduleCapacity
  | submissionBatchTooLarge
  | submissionBudget
  | streamDenied
  | streamBudget
  | noRows
  | commit
  deriving DecidableEq, Repr

/-- What is asked of `mail.ParseAddress`, whether the text is a bare address, and the text of an
identifier. -/
class Mailboxes where
  bare : Bytes → Bool
  uuid : MessageID → Bytes

section Business

structure Business where
  clientReference : Bytes := []
  tags : List Bytes := []
  deriving DecidableEq, Repr

def isLower : UInt8 → Bool := within 0x61 0x7A

def isUpper : UInt8 → Bool := within 0x41 0x5A

def isHex (byte : UInt8) : Bool := isDigit byte || within 0x61 0x66 byte

/-- `referencePattern`. -/
def validReference : Bytes → Bool
  | [] => false
  | first :: rest =>
      (isUpper first || isLower first || isDigit first) && decide (rest.length ≤ 127) &&
        rest.all fun byte => isUpper byte || isLower byte || isDigit byte ||
          byte ∈ [0x2E, 0x5F, 0x3A, 0x2D]

/-- `tagPattern`. -/
def validTag : Bytes → Bool
  | [] => false
  | first :: rest =>
      (isLower first || isDigit first) && decide (rest.length ≤ 31) &&
        rest.all fun byte => isLower byte || isDigit byte || byte ∈ [0x5F, 0x2D]

namespace Business

def present (b : Business) : Bool := decide (b.clientReference ≠ [] ∨ b.tags ≠ [])

def canonical (b : Business) : Except Refusal Business := do
  require ((b.clientReference = [] ∨ validReference b.clientReference) ∧ b.tags.length ≤ 8)
    .invalidSubmission
  let tags := b.tags.insertionSort ByteOrder.AtMost
  require (tags.all validTag ∧ ∀ pair ∈ tags.zip tags.tail, pair.1 ≠ pair.2) .invalidSubmission
  pure { b with tags }

end Business

end Business

inductive Stream
  | normal
  | otp
  | security
  | receipt
  deriving DecidableEq, Repr

def canonicalStream (name : Bytes) : Except Refusal Stream :=
  if name = [] ∨ name = ascii "normal" then .ok .normal
  else if name = ascii "otp" then .ok .otp
  else if name = ascii "security" then .ok .security
  else if name = ascii "receipt" then .ok .receipt
  else .error .invalidSubmission

def Stream.name : Stream → Bytes
  | .normal => ascii "normal"
  | .otp => ascii "otp"
  | .security => ascii "security"
  | .receipt => ascii "receipt"

def firstSecond : Int := -62135596800

def lastSecond : Int := 253402300799

def utf8 (value : Address) : Bytes := value.toByteArray.data.toList

/-- What `CanonicalAddress` checks. `bare` tells whether `mail.ParseAddress` finds this very
address and no name in the text. -/
def validAddress (bare : Bytes → Bool) (value : Bytes) : Bool :=
  decide (value.length ≤ 254) && value.all (fun byte => byte ≠ 13 && byte ≠ 10) &&
    value.all (fun byte => decide (byte < 0x80)) && bare value &&
    decide (value.reverse.takeWhile (· ≠ 0x40) ≠ [] ∧
      2 ≤ (value.reverse.dropWhile (· ≠ 0x40)).length)

/-- The text of 32 bytes as `hex.EncodeToString` writes it. -/
def validDigest (text : Bytes) : Bool := decide (text.length = 64) && text.all isHex

def validKey (key : String) : Bool :=
  decide (1 ≤ key.utf8ByteSize ∧ key.utf8ByteSize ≤ 128) &&
    key.toList.all fun char => decide (33 ≤ char.val ∧ char.val ≤ 126)

end RelayTale.Intake
