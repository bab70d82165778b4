import RelayTale.Admission.State
import RelayTale.Foundation.Wheel
import Mathlib.Data.List.MinMax
import Mathlib.Data.Prod.Lex
import Mathlib.Order.Lattice.Nat

/-!
# The claim of a worker

`Repository.Claim` as a whole: the two sweeps, the choice of an owner and of one
of its messages by `selectFair`, the choice of a provider and its admission, and
the updates that commit together. Transactions run one after the other here, so
no row is ever skipped for its lock. The rows of a message are those of `Queue`,
the reservations, groups and circuits those of `Admission`.
-/

namespace RelayTale.Dispatch

open Guard
open Queue (Message Flags)
open Admission (GroupID Group Health Usage)

section Tables

/-- The values of `source_type`. -/
inductive Source
  | api
  | internal
  | smtp
  deriving DecidableEq, Repr

def Source.rank : Source → ℕ
  | .api => 0
  | .internal => 1
  | .smtp => 2

/-- The parts of the text that `queue_owner` builds. No identifier stands for
`legacy`. -/
structure OwnerKey where
  source : Source
  identity : Option IdentityID
  deriving Repr

/-- Texts of identifiers are hexadecimal and come before `legacy`. -/
def OwnerKey.rank (key : OwnerKey) : ℕ ×ₗ ℕ ×ₗ ℕ :=
  toLex (key.source.rank, toLex (key.identity.elim (1, 0) fun id => (0, id)))

theorem OwnerKey.rank_injective : Function.Injective OwnerKey.rank := by
  rintro ⟨source, identity⟩ ⟨source', identity'⟩ same
  simp only [rank, toLex_inj, Prod.mk.injEq] at same
  obtain ⟨sources, identities⟩ := same
  have sources : source = source' := by cases source <;> cases source' <;> first | rfl | cases sources
  cases identity <;> cases identity' <;> simp_all

instance : LinearOrder OwnerKey := LinearOrder.lift' OwnerKey.rank OwnerKey.rank_injective

def queueOwner (source : Source) (apiKey smtpAccount : Option IdentityID) : OwnerKey :=
  ⟨source, apiKey <|> smtpAccount⟩

inductive Stream
  | normal
  | otp
  | receipt
  | security
  deriving DecidableEq, Repr

/-- The column `weight`, with its check. -/
abbrev Weight := { weight : ℕ // 1 ≤ weight ∧ weight ≤ 8 }

/-- The columns of a message that are written once, when it is submitted. -/
structure Header where
  source : Source
  apiKey : Option IdentityID
  smtpAccount : Option IdentityID
  stream : Stream
  createdAt : Int
  envelopeFrom : Address
  headerFrom : Address

def Header.owner (h : Header) : OwnerKey := queueOwner h.source h.apiKey h.smtpAccount

inductive Security
  | implicitTLS
  | starttls
  | plain
  deriving DecidableEq, Repr

/-- A row of `providers`. -/
structure Provider extends Admission.Provider where
  enabled : Bool
  security : Security
  fromDomains : List String
  priority : Int

/-- A row of `queue_fair_owners`, as the trigger inserts it. -/
structure Turn where
  lastTicket : ℕ := 0
  cursor : ℕ := 0
  deriving DecidableEq, Repr

/-- The tables that a claim consults and that others write as well. -/
structure Tables where
  providers : List ProviderID
  providersNodup : providers.Nodup
  provider : ProviderID → Provider
  groups : GroupID → Option Group
  health : ProviderID → Option Health
  streams : IdentityID → Stream → Option Weight

structure World where
  db : Queue.Db
  messages : List MessageID
  messagesNodup : messages.Nodup
  header : MessageID → Header
  owners : List OwnerKey
  turn : OwnerKey → Turn
  absent : ∀ owner, owner ∉ owners → turn owner = {}
  ticket : ℕ
  tables : Tables

namespace World

variable (w : World)

def owner (id : MessageID) : OwnerKey := (w.header id).owner

def catalog : Admission.Catalog where
  messages := w.messages
  providers := w.tables.providers
  messagesNodup := w.messagesNodup
  providersNodup := w.tables.providersNodup

def store : Admission.Store
  | .table .policy => w.db.entries
  | .table (.message id) => w.db.messages id
  | .attempt _ => none
  | .provider id =>
      if id ∈ w.tables.providers then some (w.tables.provider id).toProvider else none
  | .group id => w.tables.groups id
  | .health id => w.tables.health id

def active (clock : Int) (provider : ProviderID) : ℕ :=
  Admission.active w.catalog w.store provider clock

def remaining (clock : Int) (provider : ProviderID) : Int :=
  Admission.remaining w.catalog w.store clock (w.tables.provider provider).toProvider

end World

end Tables

section Errors

/-- What the triggers on `messages`, `recipients` and `delivery_attempts` raise. -/
inductive Trigger
  | sandboxLease
  | scheduledLater
  | retiringArchive
  | cancelledMessage
  deriving DecidableEq, Repr

inductive Refusal
  | queue (refusal : Queue.Refusal)
  | trigger (trigger : Trigger)
  deriving DecidableEq, Repr

/-- `ErrNoJob`. -/
abbrev Refusal.noJob : Refusal := .queue .noJob

def ofQueue {α : Type} (result : Except Queue.Refusal α) : Except Refusal α :=
  result.mapError .queue

/-- The trigger that keeps a message from being leased. -/
def raised (clock : Int) (m : Message) : Option Trigger :=
  if m.production = false then some .sandboxLease
  else if m.scheduleAt.any (clock < ·) then some .scheduledLater
  else if m.archiveAvailable = false then some .retiringArchive
  else if m.cancelledAt.isSome then some .cancelledMessage
  else none

def passTriggers (clock : Int) (m : Message) : Except Refusal PUnit :=
  match raised clock m with
  | some trigger => .error (.trigger trigger)
  | none => .ok ⟨⟩

end Errors

section Eligibility

/-- The switches of `Repository`. -/
structure Repository extends Flags where
  healthEnabled : Bool
  deriving DecidableEq, Repr

variable [Primitives]

/-- `lower(split_part(address, '@', 2))`. -/
def domain (address : Address) : String :=
  Primitives.lower (String.ofList (((address.toList.splitOn '@')[1]?).getD []))

namespace World

variable (r : Repository) (clock now : Int) (w : World)

def providerRequirements (h : Header) (provider : ProviderID) : Bool :=
  let p := w.tables.provider provider
  p.enabled && decide (p.security = .starttls ∨ p.security = .implicitTLS) &&
    decide (1 ≤ p.timeoutSeconds ∧ p.timeoutSeconds ≤ 300 ∧
      1 ≤ p.maxConnections ∧ p.maxConnections ≤ 32) &&
    decide (domain h.envelopeFrom ∈ p.fromDomains) && decide (domain h.headerFrom ∈ p.fromDomains) &&
    decide (w.active clock provider < p.maxConnections)

omit [Primitives] in
def controlRequirements (provider : ProviderID) : Bool :=
  decide (0 < w.remaining clock provider) &&
    (!r.healthEnabled ||
      Admission.circuitAvailable clock (w.tables.provider provider).toProvider
        (w.tables.health provider))

def eligibleProvider (h : Header) (m : Message) (provider : ProviderID) : Bool :=
  w.providerRequirements clock h provider && w.controlRequirements r clock provider &&
    Queue.routeAllows r.toFlags clock provider m

/-- The predicate `eligible` of `selectFair`. -/
def eligible (h : Header) (m : Message) : Bool :=
  m.due clock && decide (m.status = .queued) && m.archiveAvailable &&
    m.nextAttemptAt.any (· ≤ now) &&
    (m.recipients.any fun id => (m.row id).claimable r.toFlags w.db.entries clock) &&
    w.tables.providers.any (w.eligibleProvider r clock h m)

def candidates : List MessageID :=
  w.messages.filter fun id => (w.db.messages id).any (w.eligible r clock now (w.header id))

def ready : List OwnerKey :=
  w.owners.filter fun owner => (w.candidates r clock now).any fun id => w.owner id = owner

end World

end Eligibility

section Selection

variable [Primitives]

/-- Instants are compared as numbers. -/
local instance instantOrder : Preorder ℤ := Int.instLinearOrder.toPreorder

/-- Readings of the clock, in the order in which a sweep takes them. -/
structure Sweep where
  now : Int
  select : Int
  apply : Int
  deriving DecidableEq, Repr

/-- Readings of the clock during a claim. The choice of a provider comes after
that of the message. -/
structure Clocks where
  expired : Sweep
  suppressed : Sweep
  now : Int
  owner : Int
  message : Int
  provider : Int
  active : Int
  quota : Int
  start : Int
  pick : Int
  reserve : Int
  probe : Int
  ordered : message ≤ provider

def Clocks.still (clock : Int) : Clocks where
  expired := ⟨clock, clock, clock⟩
  suppressed := ⟨clock, clock, clock⟩
  now := clock
  owner := clock
  message := clock
  provider := clock
  active := clock
  quota := clock
  start := clock
  pick := clock
  reserve := clock
  probe := clock
  ordered := le_rfl

namespace World

variable (r : Repository) (c : Clocks) (w : World)

/-- The first query of `selectFair`. -/
def selectOwner : Option OwnerKey :=
  (w.ready r c.owner c.now).argmin fun owner => toLex ((w.turn owner).lastTicket, owner)

omit [Primitives] in
def weight (owner : OwnerKey) (stream : Stream) : Weight :=
  match owner with
  | ⟨.api, some id⟩ => (w.tables.streams id stream).getD ⟨1, by decide⟩
  | _ => ⟨1, by decide⟩

/-- `weights`, in the order of the names. -/
def lanesOf (weight : Stream → Weight) : List (Stream × ℕ) :=
  [(.normal, weight .normal), (.otp, weight .otp), (.receipt, weight .receipt),
    (.security, weight .security)]

omit [Primitives] in
def lanes (owner : OwnerKey) : List (Stream × ℕ) := lanesOf (w.weight owner)

omit [Primitives] in
/-- The column `distance` of `turns`. -/
def distance (owner : OwnerKey) (id : MessageID) : ℕ :=
  Wheel.distance (w.lanes owner) (w.turn owner).cursor (w.header id).stream

/-- The messages that the second query of `selectFair` orders. -/
def queueOf (owner : OwnerKey) : List MessageID :=
  (w.candidates r c.message c.now).filter fun id => w.owner id = owner

/-- The second query of `selectFair`. -/
def selectMessage (owner : OwnerKey) : Option MessageID :=
  (w.queueOf r c owner).argmin fun id =>
    toLex (w.distance owner id, toLex ((w.header id).createdAt, id))

omit [Primitives] in
/-- The cursor that `selectFair` returns with the message. -/
def nextCursor (owner : OwnerKey) (id : MessageID) : ℕ :=
  ((w.turn owner).cursor + w.distance owner id + 1) % Wheel.total (w.lanes owner)

/-- The query for the provider in `Claim`. -/
def selectProvider (h : Header) (m : Message) : Option ProviderID :=
  (w.tables.providers.filter (w.eligibleProvider r c.provider h m)).argmin fun id =>
    toLex (decide (m.route = some id), toLex ((w.tables.provider id).priority, id))

end World

end Selection

section Sweeps

variable [Primitives]

/-- `ORDER BY key LIMIT 20`. -/
def firstTwenty {κ : Type} [LinearOrder κ] (key : MessageID → κ) (ids : List MessageID) :
    List MessageID :=
  (ids.insertionSort fun a b => key a ≤ key b).take 20

namespace World

variable (w : World)

def setDb (db : Queue.Db) : World := { w with db }

/-- `SweepExpired`. -/
def sweepExpired (s : Sweep) : Except Refusal World := do
  let selected := w.messages.filter fun id => (w.db.messages id).any (Queue.expirable s.select)
  let ids := firstTwenty
    (fun id => toLex (((w.db.messages id).bind (·.expiresAt)).getD 0, id)) selected
  let db ← ofQueue (w.db.step (.batch ids (.sweepExpired s.select s.apply s.now)))
  pure (w.setDb db)

/-- `SweepSuppressed`. -/
def sweepSuppressed (s : Sweep) : Except Refusal World := do
  let selected := w.messages.filter fun id =>
    (w.db.messages id).any (Queue.suppressible w.db.entries s.select)
  let ids := firstTwenty (fun id => toLex ((w.header id).createdAt, id)) selected
  let db ← ofQueue (w.db.step (.batch ids (.sweepSuppressed s.select s.apply s.now)))
  pure (w.setDb db)

/-- The two sweeps of `Claim`. -/
def sweep (c : Clocks) : Except Refusal World := do
  let swept ← w.sweepExpired c.expired
  swept.sweepSuppressed c.suppressed

end World

end Sweeps

section Claim

variable [Primitives]

structure Draw where
  token : Token
  attempt : AttemptID
  deriving DecidableEq, Repr

/-- What `Claim` returns. -/
structure Job extends Queue.Job where
  message : MessageID
  provider : ProviderID
  stream : Stream
  recipients : List Smtp.Recipient

namespace World

variable (r : Repository) (c : Clocks) (draw : Draw) (w : World)

omit [Primitives] in
def unused (attempt : AttemptID) : Bool :=
  (w.messages.all fun id => (w.db.messages id).all fun m =>
    m.attempts.all fun a => decide (a.id ≠ attempt)) &&
    w.tables.providers.all fun id =>
      (w.tables.provider id).attempts.all fun u => decide (u.attempt ≠ attempt)

omit [Primitives] in
/-- The claim of one message, with the allowance of `admission`. -/
def claimInput (provider : ProviderID) : Queue.ClaimInput where
  flags := r.toFlags
  provider := provider
  token := draw.token
  attempt := draw.attempt
  allowance := (w.remaining c.quota provider).toNat
  timeoutSeconds := (w.tables.provider provider).timeoutSeconds
  now := c.now
  selectClock := c.message
  openClock := c.message
  pathClock := c.message
  routeClock := c.provider
  startClock := c.start
  pickClock := c.pick

omit [Primitives] in
/-- The writes of `reserveControls`. -/
def reserveControls (provider : ProviderID) (units : ℕ) : Tables :=
  let p := w.tables.provider provider
  let u : Usage :=
    { attempt := draw.attempt, startedAt := c.now, reservedAt := c.reserve, units }
  let probes := r.healthEnabled && p.healthCheckEnabled
  { w.tables with
    provider := Function.update w.tables.provider provider { p with attempts := u :: p.attempts }
    health := fun id =>
      (w.tables.health id).map fun h =>
        if id = provider ∧ probes ∧ h.due c.probe then h.startProbe draw.attempt else h }

omit [Primitives] in
def serve (owner : OwnerKey) (next : ℕ) (listed : owner ∈ w.owners) : World where
  db := w.db
  messages := w.messages
  messagesNodup := w.messagesNodup
  header := w.header
  owners := w.owners
  turn := Function.update w.turn owner ⟨w.ticket + 1, next⟩
  absent other missing := by
    have different : other ≠ owner := fun same => missing (same ▸ listed)
    rw [Function.update_of_ne different]
    exact w.absent other missing
  ticket := w.ticket + 1
  tables := w.tables

/-- The transaction of `Claim` for the owner that it has locked. -/
def takeFor (owner : OwnerKey) (listed : owner ∈ w.owners) : Except Refusal (World × Job) := do
  let id ← demand (w.selectMessage r c owner) .noJob
  let m ← demand (w.db.messages id) .noJob
  let provider ← demand (w.selectProvider r c (w.header id) m) .noJob
  require (w.active c.active provider < (w.tables.provider provider).maxConnections) .noJob
  require (w.controlRequirements r c.quota provider) .noJob
  require (m.due c.start) .noJob
  passTriggers c.start m
  let i := w.claimInput r c draw provider
  let claimed ← ofQueue (Queue.claimSelected w.db.entries i m)
  require (w.unused draw.attempt) (.queue .uniqueViolation)
  let ids := Queue.picks w.db.entries i m
  let written := { w with
    db := w.db.put id claimed, tables := w.reserveControls r c draw provider ids.length }
  pure (written.serve owner (w.nextCursor owner id) listed,
    { attempt := draw.attempt, token := draw.token, message := id, provider
      stream := (w.header id).stream
      recipients := ids.map fun id => { id, address := (m.row id).address } })

/-- The transaction of `Claim`. -/
def take : Except Refusal (World × Job) :=
  match w.selectOwner r c with
  | none => .error .noJob
  | some owner =>
      if listed : owner ∈ w.owners then w.takeFor r c draw owner listed else .error .noJob

/-- `Claim`. The sweeps stay committed where the claim finds nothing. -/
def claim : World × Except Refusal Job :=
  match w.sweepExpired c.expired with
  | .error refusal => (w, .error refusal)
  | .ok swept =>
      match swept.sweepSuppressed c.suppressed with
      | .error refusal => (swept, .error refusal)
      | .ok swept =>
          match swept.take r c draw with
          | .error refusal => (swept, .error refusal)
          | .ok (next, job) => (next, .ok job)

end World

end Claim

end RelayTale.Dispatch
