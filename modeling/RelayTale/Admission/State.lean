import RelayTale.Queue.Interleaving

/-!
# Quotas and circuit breakers of the providers

The rows that a claim consults besides its message: the provider with its
reservations, the quota group it may belong to and the state of its circuit
breaker. A reservation and the health columns of its attempt are written under
the lock of the provider, so they are held together with it.
-/

namespace RelayTale.Admission

open Queue (Message)

abbrev GroupID := Nat

section Health

/-- The values of `health_outcome`. -/
inductive Outcome
  | success
  | failure
  | ignored
  deriving DecidableEq, Repr

def ignoredClasses : List String :=
  ["LOCAL_STORAGE_ERROR", "DATABASE_ERROR", "RECORDER_ERROR", "INVALID_EML", "INVALID_ENVELOPE",
    "CREDENTIAL_DECRYPTION_ERROR"]

def failurePrefixes : List String :=
  ["DNS_", "CONNECT_", "TLS_", "STARTTLS_", "SMTP_GREETING_", "EHLO_", "AUTH_CONNECTION_",
    "DATA_WRITE_", "FINAL_RESPONSE_UNKNOWN", "FINAL_RESPONSE_TIMEOUT"]

/-- `ProviderOutcome`. -/
def providerOutcome (e : Delivery.Evidence) : Outcome :=
  if e.finalResponse ∧ 200 ≤ e.finalCode ∧ e.finalCode < 300 ∧
      (e.status = .accepted ∨ e.status = .partiallyAccepted) then .success
  else if e.errorClass.text ∈ ignoredClasses then .ignored
  else if e.errorClass.text = "AUTH_ERROR" then
    if 400 ≤ e.code ∧ e.code < 500 then .failure else .ignored
  else if failurePrefixes.any fun head => head.toList.isPrefixOf e.errorClass.text.toList then
    .failure
  else if e.errorClass.text = "CONNECTION_RESET" then .failure
  else if (e.stage = .dataRejected ∨ e.stage = .finalResponseError) ∧
      400 ≤ e.code ∧ e.code < 500 then .failure
  else .ignored

/-- The sample that `finishHealth` takes of a finished attempt. -/
def sampleOf (out : Smtp.Result) : Outcome :=
  providerOutcome
    { stage := out.stage, errorClass := out.errorClass, status := out.status, code := out.code
      finalCode := out.code, finalResponse := out.finalResponseAt.isSome
      bodyStarted := out.dataStartedAt.isSome }

inductive Circuit
  | closed
  | opened
  | halfOpen
  deriving DecidableEq, Repr

/-- A row of `provider_health`, as `finishHealth` first inserts it. -/
structure Health where
  circuit : Circuit := .closed
  openUntil : Option Int := none
  probe : Option AttemptID := none
  samplesSince : Int := 0
  deriving DecidableEq, Repr

namespace Health

def due (clock : Int) (h : Health) : Bool :=
  decide (h.circuit = .opened) && h.openUntil.any (· ≤ clock) && h.probe.isNone

def startProbe (attempt : AttemptID) (h : Health) : Health :=
  { h with circuit := .halfOpen, probe := some attempt }

def trip (clock : Int) (h : Health) : Health :=
  { h with circuit := .opened, probe := none, openUntil := some (clock + minute) }

def reset (clock : Int) (h : Health) : Health :=
  { h with circuit := .closed, probe := none, openUntil := none, samplesSince := clock }

/-- The transition of `finishHealth`, given the samples it has counted. -/
def turn (enforced : Bool) (attempt : AttemptID) (sample : Outcome) (total failed : Nat)
    (clock : Int) (h : Health) : Health :=
  if h.circuit = .halfOpen ∧ h.probe = some attempt then
    if sample = .success then h.reset clock else h.trip clock
  else if h.circuit = .closed ∧ enforced ∧ 5 ≤ total ∧ total ≤ failed * 2 then h.trip clock
  else h

end Health

end Health

section Providers

/-- An attempt in `provider_quota` and in the health columns of
`delivery_attempts`. -/
structure Usage where
  attempt : AttemptID
  startedAt : Int
  reservedAt : Int
  units : Nat
  observed : Option (Outcome × Int) := none
  deriving DecidableEq, Repr

/-- The row of `provider_quota`. -/
def Usage.reservation (u : Usage) : AttemptID × Int × Nat := (u.attempt, u.reservedAt, u.units)

/-- A provider with its attempts, the newest one first. -/
structure Provider where
  revision : Nat := 1
  maxConnections : Nat
  timeoutSeconds : Nat
  hourlyLimit : Option Nat
  dailyLimit : Option Nat
  quotaGroup : Option GroupID := none
  healthCheckEnabled : Bool
  attempts : List Usage := []
  deriving DecidableEq, Repr

/-- A row of `provider_quota_groups`. A limit of zero is none. -/
structure Group where
  revision : Nat := 1
  hourlyLimit : Nat
  dailyLimit : Nat
  deriving DecidableEq, Repr

structure Settings where
  maxConnections : Nat
  timeoutSeconds : Nat
  hourlyLimit : Nat
  dailyLimit : Nat
  deriving DecidableEq, Repr

def unlimited : Nat := 2147483647

def Settings.valid (s : Settings) : Bool :=
  decide (1 ≤ s.timeoutSeconds ∧ s.timeoutSeconds ≤ 300 ∧ 1 ≤ s.maxConnections ∧
    s.maxConnections ≤ 32 ∧ s.hourlyLimit ≤ unlimited ∧ s.dailyLimit ≤ unlimited)

/-- `NULLIF(limit, 0)`. -/
def nullIfZero (limit : Nat) : Option Nat := if limit = 0 then none else some limit

def Settings.provider (s : Settings) (healthCheckEnabled : Bool) : Provider where
  maxConnections := s.maxConnections
  timeoutSeconds := s.timeoutSeconds
  hourlyLimit := nullIfZero s.hourlyLimit
  dailyLimit := nullIfZero s.dailyLimit
  healthCheckEnabled := healthCheckEnabled

namespace Provider

/-- `Manage` with the action `configure`. -/
def configure (s : Settings) (p : Provider) : Provider :=
  { p with
    revision := p.revision + 1, maxConnections := s.maxConnections
    timeoutSeconds := s.timeoutSeconds, hourlyLimit := nullIfZero s.hourlyLimit
    dailyLimit := nullIfZero s.dailyLimit }

def attach (group : GroupID) (p : Provider) : Provider :=
  { p with revision := p.revision + 1, quotaGroup := some group }

def reserve (u : Usage) (p : Provider) : Provider :=
  { p with attempts := u :: p.attempts }

def observe (attempt : AttemptID) (sample : Outcome) (clock : Int) (p : Provider) : Provider :=
  { p with
    attempts := p.attempts.map fun u =>
      if u.attempt = attempt then { u with observed := some (sample, clock) } else u }

end Provider

def reserved (span clock : Int) (attempts : List Usage) : Nat :=
  ((attempts.filter fun u => clock - span < u.reservedAt).map (·.units)).sum

def limitLeft (limit : Option Nat) (used : Nat) : Int :=
  limit.elim unlimited fun limit => limit - used

/-- `quotaAvailable`. -/
def quotaAvailable (clock : Int) (p : Provider) : Int :=
  min (limitLeft p.hourlyLimit (reserved hour clock p.attempts))
    (limitLeft p.dailyLimit (reserved (24 * hour) clock p.attempts))

/-- The samples that `finishHealth` counts. -/
def samples (since clock : Int) (attempts : List Usage) : List Outcome :=
  attempts.filterMap fun u => u.observed.bind fun (sample, observedAt) =>
    if since ≤ u.startedAt ∧ clock - 10 * minute < observedAt ∧ sample ≠ .ignored then some sample
    else none

/-- `circuitAvailable`. -/
def circuitAvailable (clock : Int) (p : Provider) (health : Option Health) : Bool :=
  !p.healthCheckEnabled || health.all fun h => decide (h.circuit = .closed) || h.due clock

end Providers

section Tables

/-- What a lock is for. The key of an attempt is locked by its insertion. -/
inductive Resource
  | table (resource : Queue.Resource)
  | attempt (id : AttemptID)
  | provider (id : ProviderID)
  | group (id : GroupID)
  | health (provider : ProviderID)
  deriving DecidableEq

abbrev Resource.Value : Resource → Type
  | .table resource => resource.Value
  | .attempt _ => Option MessageID
  | .provider _ => Option Provider
  | .group _ => Option Group
  | .health _ => Option Health

abbrev Store := Locking.Store Resource.Value

abbrev Statements := Locking.Program Resource.Value

def Store.tables (store : Store) : Queue.Tables := fun resource => store (.table resource)

abbrev Store.message (store : Store) (id : MessageID) : Option Message :=
  store (.table (.message id))

/-- The identifiers in use, so that a query over a table is a loop. -/
structure Catalog where
  messages : List MessageID
  providers : List ProviderID
  messagesNodup : messages.Nodup
  providersNodup : providers.Nodup

variable (d : Catalog) (view : Store)

def connections (p : ProviderID) (clock : Int) (m : Message) : Nat :=
  if m.leaseExpiresAt.any (clock < ·) then
    m.attempts.countP fun a => a.provider = p ∧ a.result = .pending
  else 0

def active (p : ProviderID) (clock : Int) : Nat :=
  (d.messages.map fun id => (view.message id).elim 0 (connections p clock)).sum

def groupReserved (g : GroupID) (span clock : Int) : Nat :=
  (d.providers.map fun p => (view (.provider p)).elim 0 fun pr =>
    if pr.quotaGroup = some g then reserved span clock pr.attempts else 0).sum

def groupLimitLeft (limit used : Nat) : Int :=
  if limit = 0 then unlimited else limit - used

/-- `sharedQuotaAvailable`. -/
def sharedQuotaAvailable (clock : Int) (p : Provider) : Int :=
  (p.quotaGroup.bind fun g => (view (.group g)).map fun group =>
    min (groupLimitLeft group.hourlyLimit (groupReserved d view g hour clock))
      (groupLimitLeft group.dailyLimit (groupReserved d view g (24 * hour) clock))).getD unlimited

/-- The first two columns of `admission`. -/
def remaining (clock : Int) (p : Provider) : Int :=
  min (quotaAvailable clock p) (sharedQuotaAvailable d view clock p)

end Tables

end RelayTale.Admission
