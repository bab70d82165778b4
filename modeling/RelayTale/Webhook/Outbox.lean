import RelayTale.Basic
import RelayTale.Foundation.Composition
import RelayTale.Foundation.Text

/-!
# The outbox of webhooks

A notification is a row that workers claim under a lease, send and finish. A
claim retires rows that are past their deadline and takes one that is due, in
one transaction. Between its transactions a worker keeps what it has claimed in
its memory, which is an object of the store like a row; so is the source of the
lease tokens, none of which is drawn twice.
-/

namespace RelayTale.Webhook

open Text Locking
open Locking.Program (check ifSome select skipLocked)

abbrev Sequence := Nat
abbrev EndpointID := Nat
abbrev WorkerID := Nat

section Rows

inductive State
  | pending
  | inFlight
  | delivered
  | dead
  deriving DecidableEq, Repr

inductive Outcome
  | started
  | acknowledged
  | retry
  | exhausted
  | replayRequested
  deriving DecidableEq, Repr

/-- A row of `webhook_delivery_log`. -/
structure LogRow where
  generation : Nat
  attempt : Nat
  outcome : Outcome
  httpCode : Option Int := none
  deriving DecidableEq, Repr

def Leased (state : State) (token : Option Token) (until' : Option Int) : Prop :=
  state = .inFlight ↔ token.isSome = true ∧ until'.isSome = true

/-- A row of `webhook_outbox` with the rows of the log that refer to it. -/
structure Row where
  endpoint : EndpointID
  message : MessageID
  payload : Bytes
  state : State
  attempts : Nat
  generation : Nat
  deadline : Int
  nextAt : Int
  leaseToken : Option Token
  leaseUntil : Option Int
  log : List LogRow
  leased : Leased state leaseToken leaseUntil
  deriving DecidableEq

theorem leased_free {state : State} (idle : state ≠ .inFlight) : Leased state none none := by
  simp [Leased, idle]

theorem leased_taken (token : Token) (until' : Int) :
    Leased .inFlight (some token) (some until') := by
  simp [Leased]

theorem leased_idle {state state' : State} {token : Option Token} {until' : Option Int}
    (leased : Leased state token until') (idle : state ≠ .inFlight) (idle' : state' ≠ .inFlight) :
    Leased state' token until' := by
  simp only [Leased, idle, idle', false_iff] at leased ⊢
  exact leased

structure Claim where
  sequence : Sequence
  token : Token
  attempt : Nat
  generation : Nat
  deriving DecidableEq, Repr

namespace Row

/-- `INSERT INTO webhook_outbox` with its defaults. -/
def captured (endpoint : EndpointID) (message : MessageID) (payload : Bytes)
    (deadlineClock nextClock : Int) : Row where
  endpoint := endpoint
  message := message
  payload := payload
  state := .pending
  attempts := 0
  generation := 0
  deadline := deadlineClock + 24 * hour
  nextAt := nextClock
  leaseToken := none
  leaseUntil := none
  log := []
  leased := leased_free State.noConfusion

def retire (r : Row) : Row := { r with
  state := .dead
  leaseToken := none
  leaseUntil := none
  log := r.log ++ [⟨r.generation, r.attempts, .exhausted, none⟩]
  leased := leased_free State.noConfusion }

def claim (r : Row) (token : Token) (clock : Int) : Row := { r with
  state := .inFlight
  attempts := r.attempts + 1
  leaseToken := some token
  leaseUntil := some (clock + minute)
  log := r.log ++ [⟨r.generation, r.attempts + 1, .started, none⟩]
  leased := leased_taken token _ }

def finish (r : Row) (c : Claim) (state : State) (idle : state ≠ .inFlight) (outcome : Outcome)
    (httpCode : Option Int) (nextAt : Int) : Row := { r with
  state := state
  leaseToken := none
  leaseUntil := none
  nextAt := nextAt
  log := r.log ++ [⟨c.generation, c.attempt, outcome, httpCode⟩]
  leased := leased_free idle }

def replay (r : Row) (dead : r.state = .dead) (nextClock deadlineClock : Int) : Row := { r with
  state := .pending
  attempts := 0
  generation := r.generation + 1
  nextAt := nextClock
  deadline := deadlineClock + 24 * hour
  log := r.log ++ [⟨r.generation + 1, 0, .replayRequested, none⟩]
  leased := leased_idle r.leased (dead ▸ State.noConfusion) State.noConfusion }

end Row

end Rows

section Store

inductive Memory
  | idle
  | drawn (token : Token)
  | claimed (c : Claim)
  deriving DecidableEq, Repr

inductive Resource
  | row (sequence : Sequence)
  | worker (id : WorkerID)
  | entropy
  deriving DecidableEq

/-- `entropy` holds the tokens that were drawn. -/
abbrev Resource.Value : Resource → Type
  | .row _ => Option Row
  | .worker _ => Memory
  | .entropy => List Token

abbrev Store := Locking.Store Resource.Value

abbrev Statements := Locking.Program Resource.Value

/-- The rows over which a query ranges, in the order of their sequence. -/
structure Catalog where
  sequences : List Sequence
  sorted : sequences.Pairwise (· < ·)

end Store

section Claiming

/-- What `clock_timestamp()` returns at its places in a condition. -/
structure Reading where
  lease : Int
  deadline : Int
  next : Int
  deriving DecidableEq, Repr

/-- The readings of one query: for every row it scans, and for every row it checks again
because it was changed meanwhile. -/
structure Readings where
  scan : Sequence → Reading
  recheck : Sequence → Reading

def maxAttempts : Nat := 8

def expired (e : EndpointID) (now : Reading) (r : Row) : Bool :=
  r.endpoint = e &&
    (r.state = .pending || (r.state = .inFlight && r.leaseUntil.any (· ≤ now.lease))) &&
    (r.deadline ≤ now.deadline || maxAttempts ≤ r.attempts)

def due (e : EndpointID) (now : Reading) (r : Row) : Bool :=
  r.endpoint = e && r.attempts < maxAttempts && now.deadline < r.deadline &&
    ((r.state = .pending && r.nextAt ≤ now.next) ||
      (r.state = .inFlight && r.leaseUntil.any (· ≤ now.lease)))

def current (view : Store) (condition : Reading → Row → Bool) (now : Readings) :
    Sigma Resource.Value → Bool
  | ⟨.row seq, some r⟩ => view (.row seq) = some r || condition (now.recheck seq) r
  | _ => false

variable (d : Catalog)

def candidates (view : Store) (condition : Reading → Row → Bool) (now : Readings) :
    List Sequence :=
  d.sequences.filter fun seq => (view (.row seq)).any (condition (now.scan seq))

/-- `ORDER BY next_at,sequence`. -/
def byNextAt (view : Store) (sequences : List Sequence) : List Sequence :=
  sequences.mergeSort fun a b =>
    match view (.row a), view (.row b) with
    | some r, some r' => r.nextAt < r'.nextAt || (r.nextAt = r'.nextAt && a ≤ b)
    | _, _ => a ≤ b

/-- A call of `claim`. `acknowledged` says whether the worker learns that its transaction
was committed. -/
structure ClaimCall where
  worker : WorkerID
  endpoint : EndpointID
  eligible : Bool
  retireNow : Readings
  claimNow : Readings
  leaseClock : Int
  acknowledged : Bool

def forget (w : WorkerID) : Sigma Resource.Value := ⟨.worker w, Memory.idle⟩

def retired : Sigma Resource.Value → Sigma Resource.Value
  | ⟨.row seq, some r⟩ => ⟨.row seq, some r.retire⟩
  | other => other

def remember (v : ClaimCall) (c : Claim) : Sigma Resource.Value :=
  ⟨.worker v.worker, if v.acknowledged then .claimed c else .idle⟩

/-- The end of `claim`: at most one row was taken. -/
def takeRow (v : ClaimCall) (token : Token) (own taken : List (Sigma Resource.Value)) :
    Statements :=
  match taken with
  | ⟨.row seq, some r⟩ :: _ =>
      .commit (own ++ [⟨.row seq, some (r.claim token v.leaseClock)⟩,
        remember v ⟨seq, token, r.attempts + 1, r.generation⟩])
  | _ => .commit (own ++ [forget v.worker])

def claimNext (v : ClaimCall) (token : Token) (own : List (Sigma Resource.Value)) : Statements :=
  .snapshot fun view =>
    let view := Locking.Store.write view own
    skipLocked (current view (due v.endpoint) v.claimNow) 1 (takeRow v token own)
      ((byNextAt view (candidates d view (due v.endpoint) v.claimNow)).map .row) []

def claimStatements (v : ClaimCall) : Statements :=
  select (.worker v.worker) .exclusive fun memory =>
    match memory with
    | .drawn token =>
        if !v.eligible then .commit [forget v.worker]
        else
          .snapshot fun view =>
            skipLocked (current view (expired v.endpoint) v.retireNow) 100
              (fun rows => claimNext d v token (rows.map retired))
              ((candidates d view (expired v.endpoint) v.retireNow).map .row) []
    | _ => .abort

end Claiming

section Finishing

/-- A call of `finish`. `failed` says that the send returned an error. -/
structure FinishCall where
  worker : WorkerID
  code : Int
  failed : Bool
  clock : Int
  nextClock : Int
  jitter : Fin 16

def FinishCall.success (v : FinishCall) : Bool := !v.failed && 200 ≤ v.code && v.code < 300

def finalState (v : FinishCall) (c : Claim) : State :=
  if v.success then .delivered else if maxAttempts ≤ c.attempt then .dead else .pending

def finalOutcome (v : FinishCall) (c : Claim) : Outcome :=
  if v.success then .acknowledged else if maxAttempts ≤ c.attempt then .exhausted else .retry

theorem finalState_idle (v : FinishCall) (c : Claim) : finalState v c ≠ .inFlight := by
  unfold finalState
  split_ifs <;> simp

def delay (v : FinishCall) (c : Claim) : Int :=
  60 * 2 ^ min (c.attempt - 1) 6 + v.jitter.val

def FinishCall.httpCode (v : FinishCall) : Option Int :=
  if v.code < 100 || 599 < v.code || v.code = 0 then none else some v.code

/-- The condition of the update in `finish`. -/
def owned (c : Claim) (clock : Int) (r : Row) : Bool :=
  r.leaseToken = some c.token && r.state = .inFlight && r.leaseUntil.any (clock < ·)

def finished (v : FinishCall) (c : Claim) (r : Row) : Row :=
  r.finish c (finalState v c) (finalState_idle v c) (finalOutcome v c) v.httpCode
    (v.nextClock + delay v c * second)

def finishStatements (v : FinishCall) : Statements :=
  select (.worker v.worker) .exclusive fun memory =>
    match memory with
    | .claimed c =>
        select (.row c.sequence) .exclusive fun found =>
          match found with
          | some r =>
              if owned c v.clock r then
                .commit [⟨.row c.sequence, some (finished v c r)⟩, forget v.worker]
              else .commit [forget v.worker]
          | none => .commit [forget v.worker]
    | _ => .abort

end Finishing

section Others

structure ReplayCall where
  sequence : Int
  generation : Int
  actor : Bytes
  reason : Bytes
  nextClock : Int
  deadlineClock : Int

def ReplayCall.accepted (v : ReplayCall) : Bool :=
  1 ≤ v.sequence && 0 ≤ v.generation && trimSpace v.actor ≠ [] && v.actor.length ≤ 128 &&
    trimSpace v.reason ≠ [] && v.reason.length ≤ 1000

/-- `generation` is a column of 32 bits, so the last one cannot be left. -/
def replayStatements (v : ReplayCall) : Statements :=
  check v.accepted <|
    select (.row v.sequence.toNat) .exclusive fun found =>
      ifSome found fun r =>
        if dead : r.state = .dead then
          check (r.generation = v.generation && r.generation + 1 < 2 ^ 31) <|
            .commit [⟨.row v.sequence.toNat, some (r.replay dead v.nextClock v.deadlineClock)⟩]
        else .abort

/-- An event is captured by the trigger of `events`. -/
structure CaptureCall where
  sequence : Sequence
  endpoint : EndpointID
  message : MessageID
  payload : Bytes
  deadlineClock : Int
  nextClock : Int

def captureStatements (v : CaptureCall) : Statements :=
  select (.row v.sequence) .exclusive fun found =>
    match found with
    | some _ => .abort
    | none =>
        .commit [⟨.row v.sequence, some
          (.captured v.endpoint v.message v.payload v.deadlineClock v.nextClock)⟩]

/-- `uuid.NewString()`. -/
def drawStatements (w : WorkerID) (token : Token) : Statements :=
  select .entropy .exclusive fun used =>
    check (token ∉ used) <|
      .acquire (.worker w) .exclusive <|
        .commit [⟨.entropy, token :: used⟩, ⟨.worker w, .drawn token⟩]

def crashStatements (w : WorkerID) : Statements :=
  .acquire (.worker w) .exclusive <| .commit [forget w]

inductive Request
  | capture (v : CaptureCall)
  | draw (w : WorkerID) (token : Token)
  | claim (v : ClaimCall)
  | finish (v : FinishCall)
  | crash (w : WorkerID)
  | replay (v : ReplayCall)

def statements (d : Catalog) : Request → Statements
  | .capture v => captureStatements v
  | .draw w token => drawStatements w token
  | .claim v => claimStatements d v
  | .finish v => finishStatements v
  | .crash w => crashStatements w
  | .replay v => replayStatements v

end Others

end RelayTale.Webhook
