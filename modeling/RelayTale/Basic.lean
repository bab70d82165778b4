import Mathlib.Algebra.Ring.Int.Defs
import Mathlib.Algebra.Ring.Nat
import Mathlib.Data.List.Sort
import Mathlib.Data.List.MinMax
import Mathlib.Logic.Relation

/-!
# Identifiers, instants and the two external functions

Instants and durations are exact integers counting nanoseconds. Row
identifiers are UUIDs in the program; only their equality and their order in
`ORDER BY id` are used, so natural numbers stand for them.
-/

namespace RelayTale

def second : Int := 1000000000
def minute : Int := 60 * second
def hour : Int := 60 * minute

/-- The zero `time.Time`, the first instant of the year 1. -/
def zeroTime : Int := -62135596800 * second

abbrev MessageID := Nat
abbrev RecipientID := Nat
abbrev AttemptID := Nat
abbrev ProviderID := Nat
abbrev IdentityID := Nat
abbrev EntryID := Nat
abbrev Token := Nat
abbrev Address := String

/-- The retry jitter hashes the attempt identifier followed by the recipient identifier. -/
abbrev Seed := AttemptID × RecipientID

/-- What the program takes from outside: the database's `lower()` and the
leading sixteen bits of SHA-256. No result depends on their values. -/
class Primitives where
  lower : Address → Address
  digest : Seed → UInt16

end RelayTale
