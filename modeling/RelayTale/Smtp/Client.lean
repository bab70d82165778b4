import RelayTale.Foundation.EarlyReturn
import RelayTale.Foundation.Text
import RelayTale.Smtp.Result

/-!
# One SMTP conversation

`send` is the delivery path of `Client.Send`. What the network, the recorder,
the payload and the durable fence answer is given by a `Session`: every answer
is free, and an answer is only consulted when the conversation gets that far.
The run keeps a transcript of what was written and read.
-/

namespace RelayTale.Smtp

open EarlyReturn Text

/-- The enhanced status code of a reply: its first field, if that starts with
three numbers separated by dots. -/
def enhanced (response : Bytes) : Bytes :=
  let field := firstField response
  match (scanInt field).bind scanDot |>.bind scanInt |>.bind scanDot |>.bind scanInt with
  | some _ => field
  | none => []

def redacted : Bytes := ascii "[REDACTED]"

def safeResponse (text password : Bytes) : Bytes :=
  let text :=
    if password ≠ [] then
      replaceAll (replaceAll text password redacted) (base64 password) redacted
    else text
  toValidUTF8 (replaceAll (text.take 4096) [0] [])

def redactAuth (value username password : Bytes) : Bytes :=
  replaceAll value (base64 (0 :: username ++ 0 :: password)) redacted

/-- A reply of the server, a `textproto.Error` where it was not the expected one. -/
structure Reply where
  code : Int
  text : Bytes
  deriving DecidableEq, Repr

/-- What `errors.As` and `errors.Is` can find in an error that is not a reply. -/
structure Fault where
  dns : Bool := false
  refused : Bool := false
  network : Bool := false
  networkTimeout : Bool := false
  deadline : Bool := false
  reset : Bool := false
  eof : Bool := false
  suppressed : Bool := false
  expired : Bool := false
  deriving DecidableEq, Repr

inductive Failure
  | rejected (reply : Reply)
  | fault (cause : Fault)
  deriving DecidableEq, Repr

def Failure.cause : Failure → Fault
  | .rejected _ => {}
  | .fault cause => cause

/-- The outcome of writing a command and reading its reply. An answer that is
not a reply can still carry the number the reader got before it failed. -/
inductive Answer
  | reply (value : Reply)
  | broken (code : Int) (cause : Fault)
  deriving DecidableEq, Repr

def Answer.code : Answer → Int
  | .reply value => value.code
  | .broken code _ => code

/-- `ReadResponse` with an expectation on the code. -/
def Answer.expect (expected : Int → Bool) : Answer → Except Failure Reply
  | .reply value => if expected value.code then .ok value else .error (.rejected value)
  | .broken _ cause => .error (.fault cause)

structure Recipient where
  id : RecipientID
  address : Address
  deriving DecidableEq, Repr

structure RecipientResult where
  id : RecipientID
  status : Status
  stage : Stage := .unset
  code : Int := 0
  enhanced : Bytes := []
  response : Bytes := []
  deriving DecidableEq, Repr

inductive EventKind
  | dnsStarted
  | dnsResolved
  | tcpConnected
  | tlsEstablished
  | smtpGreeting
  | ehloCompleted
  | authStarted
  | authSucceeded
  | mailFromAccepted
  | rcptRejected
  | rcptAccepted
  | dataStarted
  | dataCompleted
  | smtpAccepted
  | quitSent
  deriving DecidableEq, Repr

structure Event where
  sequence : Nat
  kind : EventKind
  recipient : Option RecipientID
  code : Int
  response : Bytes
  deriving DecidableEq, Repr

structure Result where
  stage : Stage := .unset
  status : Status := .unset
  errorClass : ErrorClass := .unset
  code : Int := 0
  enhanced : Bytes := []
  response : Bytes := []
  recorderError : Bool := false
  startedAt : Int
  dataStartedAt : Option Int := none
  dataCompletedAt : Option Int := none
  finalResponseAt : Option Int := none
  finishedAt : Int
  bytesSent : Int := 0
  recipients : List RecipientResult
  events : List Event := []
  deriving DecidableEq, Repr

def Result.aggregate (out : Result) : Status :=
  let accepted := out.recipients.countP (·.status = .accepted)
  let temporary := out.recipients.countP (·.status = .temporary)
  let unknown := out.recipients.countP (·.status = .unknown)
  if 0 < unknown then .unknown
  else if accepted = out.recipients.length ∧ 0 < accepted then .accepted
  else if 0 < accepted then .partiallyAccepted
  else if 0 < temporary then .temporary
  else .permanent

inductive Security
  | starttls
  | implicitTls
  | plain
  deriving DecidableEq, Repr

/-- Everything a conversation can meet. `recorder` fails per event sequence
number, `auth` answers the successive lines of the AUTH exchange, `sasl` is the
client's own failure to continue it, and `rcpt` answers the recipients in order. -/
structure Session where
  security : Security
  envelopeValid : Bool
  username : Bytes
  password : Bytes
  payload : Option Fault
  recorder : Nat → Option Failure
  dns : Option Fault
  connect : Option Fault
  handshake : Option Fault
  greeting : Answer
  ehlo : Answer
  starttlsOffered : Bool
  starttls : Answer
  ehloSecured : Answer
  mechanismOffered : Bool
  saslStart : Option Fault
  auth : Nat → Answer
  sasl : Nat → Option Fault
  mailFrom : Answer
  rcpt : Nat → Answer
  beforeData : Option Failure
  data : Answer
  streamed : Int
  stream : Option Fault
  final : Answer
  quitWritten : Bool
  startedAt : Int
  dataStartedAt : Int
  dataCompletedAt : Int
  finalResponseAt : Int
  finishedAt : Int

/-- A conversation over TLS in which the server accepts everything at one instant. -/
def Session.smooth (now : Int) : Session where
  security := .implicitTls
  envelopeValid := true
  username := []
  password := []
  payload := none
  recorder _ := none
  dns := none
  connect := none
  handshake := none
  greeting := .reply ⟨220, []⟩
  ehlo := .reply ⟨250, []⟩
  starttlsOffered := false
  starttls := .reply ⟨220, []⟩
  ehloSecured := .reply ⟨250, []⟩
  mechanismOffered := true
  saslStart := none
  auth _ := .reply ⟨235, []⟩
  sasl _ := none
  mailFrom := .reply ⟨250, []⟩
  rcpt _ := .reply ⟨250, []⟩
  beforeData := none
  data := .reply ⟨354, []⟩
  streamed := 1
  stream := none
  final := .reply ⟨250, []⟩
  quitWritten := true
  startedAt := now
  dataStartedAt := now
  dataCompletedAt := now
  finalResponseAt := now
  finishedAt := now

inductive Command
  | ehlo
  | starttls
  | auth
  | mailFrom
  | rcpt (index : Nat)
  | data
  | body
  | quit
  deriving DecidableEq, Repr

/-- An entry of the transcript: a command (or the body) handed to the
connection, the code of a reply to it, or the answer of the durable fence. -/
inductive Act
  | wrote (command : Command)
  | answered (command : Command) (code : Int)
  | fenced (passed : Bool)
  deriving DecidableEq, Repr

structure Run where
  stage : Stage
  out : Result
  accepted : Nat := 0
  transcript : List Act := []

def classify (stage : Stage) (failure : Failure) : ErrorClass :=
  let cause := failure.cause
  if stage = .authError ∧ (cause.network || cause.eof || cause.reset) then .authConnectionError
  else if stage ∈ [Stage.authError, .tlsError, .recorderError] then .stage stage
  else if cause.dns then .stage .dnsError
  else if cause.refused then .connectRefused
  else if cause.network && cause.networkTimeout || cause.deadline then
    if stage ∈ [Stage.finalResponseError, .finalResponseUnknown, .finalResponse] then
      .finalResponseTimeout
    else if stage = .connectError then .connectTimeout
    else .timeout stage
  else if cause.reset then .connectionReset
  else .stage stage

def redactedAuthResponse : Bytes := ascii "authentication rejected (redacted)"

/-- The status a failure gives the recipients that have no answer of their own. -/
def failureStatus (failure : Failure) (uncertain : Bool) : Status :=
  match failure with
  | .rejected reply =>
      if 500 ≤ reply.code ∧ reply.code ≤ 599 then .permanent
      else if uncertain ∧ (reply.code < 400 ∨ 599 < reply.code) then .unknown
      else .temporary
  | .fault _ => if uncertain then .unknown else .temporary

def RecipientResult.pending (rc : RecipientResult) : Bool :=
  rc.status = .rcptAccepted ∨ rc.status = .temporary ∧ rc.code = 0

def RecipientResult.inherit (out : Result) (stage : Stage) (status : Status)
    (rc : RecipientResult) : RecipientResult :=
  if rc.pending then
    { rc with
      status, stage, code := out.code, response := out.response, enhanced := out.enhanced }
  else rc

def RecipientResult.accept (rc : RecipientResult) : RecipientResult :=
  if rc.status = .rcptAccepted then { rc with status := .accepted, stage := .finalResponse }
  else rc

namespace Session

variable (s : Session)

def safe (text : Bytes) : Bytes :=
  safeResponse (redactAuth text s.username s.password) s.password

/-- What the closure `fail` of `Send` writes besides the recipients. -/
def failed (failure : Failure) (uncertain : Bool) (run : Run) : Result :=
  let out := { run.out with errorClass := classify run.stage failure }
  let out :=
    match failure with
    | .rejected reply =>
        { out with
          code := reply.code, response := s.safe reply.text, enhanced := enhanced reply.text }
    | .fault _ =>
        if uncertain then { out with errorClass := classify .finalResponseUnknown failure }
        else out
  if run.stage = .authError then { out with response := redactedAuthResponse } else out

/-- The closure `fail` of `Send`. -/
def fail (failure : Failure) (uncertain : Bool) (run : Run) : Run :=
  let out := s.failed failure uncertain run
  let inherit := RecipientResult.inherit out run.stage (failureStatus failure uncertain)
  { run with out := { out with recipients := run.out.recipients.map inherit } }

/-- The closure `event` of `Send`: a recorder failure ends the conversation
only while DATA has not started. -/
def event (kind : EventKind) (recipient : Option RecipientID) (code : Int) (text : Bytes) :
    Step Run := fun run =>
  let entry : Event :=
    { sequence := run.out.events.length + 1, kind, recipient, code, response := s.safe text }
  let out := { run.out with events := run.out.events ++ [entry] }
  match s.recorder entry.sequence with
  | none => .ok { run with out }
  | some failure =>
      let out := { out with recorderError := true }
      if out.dataStartedAt = none then
        .error (s.fail failure false { run with out, stage := .recorderError })
      else .ok { run with out }

def enter (stage : Stage) : Step Run := fun run => .ok { run with stage }

def check (outcome : Option Fault) : Step Run := fun run =>
  match outcome with
  | none => .ok run
  | some cause => .error (s.fail (.fault cause) false run)

/-- A precondition whose failure belongs to another stage than the current one. -/
def require (stage : Stage) (outcome : Option Fault) : Step Run := fun run =>
  match outcome with
  | none => .ok run
  | some cause => .error (s.fail (.fault cause) false { run with stage })

def exchange (command : Command) (answer : Answer) (run : Run) : Run :=
  let replied :=
    match answer with
    | .reply value => [Act.answered command value.code]
    | .broken _ _ => []
  { run with transcript := run.transcript ++ Act.wrote command :: replied }

def command (command : Command) (expected : Int) (answer : Answer)
    (next : Reply → Step Run) : Step Run := fun run =>
  let run := exchange command answer run
  match answer.expect (· = expected) with
  | .ok reply => next reply run
  | .error failure => .error (s.fail failure false run)

def readGreeting : Step Run := fun run =>
  match s.greeting.expect (· = 220) with
  | .ok _ => s.event .smtpGreeting none 220 [] run
  | .error failure => .error (s.fail failure false run)

def demand (holds : Bool) : Option Fault := if holds then none else some {}

def invalidAddress (recipient : Recipient) : Bool :=
  recipient.address.toList.any fun char => char = '\r' || char = '\n'

def prepare (recipients : List Recipient) : Step Run := .sequence
  [s.require .tlsError (demand (s.security ≠ .plain)),
    s.require .invalidEnvelope (demand s.envelopeValid),
    s.require .invalidEnvelope (demand (!recipients.any invalidAddress)),
    s.require .invalidEml s.payload]

def dial : Step Run := .sequence
  [enter .dnsError, s.event .dnsStarted none 0 [], s.check s.dns,
    s.event .dnsResolved none 0 [],
    enter .connectError, s.check s.connect, s.event .tcpConnected none 0 []]

def secure : Step Run := .sequence
  [enter .tlsError, s.check s.handshake, s.event .tlsEstablished none 0 []]

def hello (answer : Answer) : Step Run := .sequence
  [enter .ehloError,
    s.command .ehlo 250 answer fun reply => s.event .ehloCompleted none 250 reply.text]

def upgrade : Step Run := .sequence
  [enter .tlsError, s.check (demand s.starttlsOffered),
    enter .starttlsError, s.command .starttls 220 s.starttls fun _ => Step.skip,
    s.secure, s.hello s.ehloSecured]

def greet : Step Run := .sequence
  [if s.security = .implicitTls then s.secure else Step.skip,
    enter .smtpGreetingError, s.readGreeting,
    s.hello s.ehlo,
    if s.security = .starttls then s.upgrade else Step.skip]

/-- The AUTH exchange from its line `line` on, with `rounds` continuations left. -/
def authExchange : (rounds line : Nat) → List Act × Option Failure
  | rounds, line =>
      match s.auth line with
      | .broken _ cause => ([.wrote .auth], some (.fault cause))
      | .reply reply =>
          let here := [Act.wrote .auth, .answered .auth reply.code]
          let rejected := Failure.rejected { reply with text := ascii "authentication rejected" }
          if reply.code = 334 then
            match rounds, s.sasl line with
            | 0, _ => (here, some rejected)
            | _ + 1, some cause => (here, some (.fault cause))
            | rounds + 1, none =>
                let rest := authExchange rounds (line + 1)
                (here ++ rest.1, rest.2)
          else if reply.code = 235 then (here, none)
          else (here, some rejected)

def authLines : Step Run := fun run =>
  let exchange := s.authExchange 10 0
  let run := { run with transcript := run.transcript ++ exchange.1 }
  match exchange.2 with
  | none => s.event .authSucceeded none 235 [] run
  | some failure => .error (s.fail failure false run)

def authenticate : Step Run := .sequence
  [s.event .authStarted none 0 [], enter .authError,
    s.check (demand s.mechanismOffered), s.check s.saslStart, s.authLines]

def mail : Step Run := .sequence
  [enter .mailFromRejected,
    s.command .mailFrom 250 s.mailFrom fun _ => s.event .mailFromAccepted none 250 []]

def rcptResult (recipient : Recipient) (reply : Reply) (status : Status) (stage : Stage) :
    RecipientResult :=
  { id := recipient.id, status, stage, code := reply.code
    enhanced := enhanced reply.text, response := s.safe reply.text }

def rcptTo (index : Nat) (recipient : Recipient) : Step Run := fun run =>
  let run := exchange (.rcpt index) (s.rcpt index) { run with stage := .rcptRejected }
  match s.rcpt index with
  | .broken _ cause => .error (s.fail (.fault cause) false run)
  | .reply reply =>
      let settle (result : RecipientResult) : Result :=
        { run.out with recipients := run.out.recipients.set index result }
      if reply.code / 10 = 25 then
        s.event .rcptAccepted (some recipient.id) reply.code reply.text
          { run with
            accepted := run.accepted + 1
            out := settle (s.rcptResult recipient reply .rcptAccepted .rcptAccepted) }
      else
        let status := if 500 ≤ reply.code then Status.permanent else .temporary
        s.event .rcptRejected (some recipient.id) reply.code reply.text
          { run with out := settle (s.rcptResult recipient reply status .rcptRejected) }

def rcptAll : Nat → List Recipient → Step Run
  | _, [] => Step.skip
  | index, recipient :: rest => (s.rcptTo index recipient).andThen (rcptAll (index + 1) rest)

def anyAccepted : Step Run := fun run => if run.accepted = 0 then .error run else .ok run

/-- The durable fence: DATA is only requested once `beforeData` has committed. -/
def authorize : Step Run := fun run =>
  match s.beforeData with
  | none => .ok { run with transcript := run.transcript ++ [.fenced true] }
  | some failure =>
      let stage :=
        if failure.cause.suppressed then Stage.suppressionBlocked
        else if failure.cause.expired then .expiryBlocked
        else run.stage
      .error (s.fail failure false
        { run with stage, transcript := run.transcript ++ [.fenced false] })

def startData : Step Run :=
  s.command .data 354 s.data fun _ run =>
    s.event .dataStarted none 354 []
      { run with out := { run.out with dataStartedAt := some s.dataStartedAt } }

def writeBody : Step Run := fun run =>
  let run :=
    { run with
      stage := .dataWriteError, transcript := run.transcript ++ [.wrote .body]
      out := { run.out with bytesSent := s.streamed } }
  match s.stream with
  | some cause => .error (s.fail (.fault cause) true run)
  | none =>
      s.event .dataCompleted none 0 []
        { run with out := { run.out with dataCompletedAt := some s.dataCompletedAt } }

def acceptAll (reply : Reply) (out : Result) : Result :=
  { out with
    finalResponseAt := some s.finalResponseAt
    code := reply.code, response := s.safe reply.text, enhanced := enhanced reply.text
    recipients := out.recipients.map RecipientResult.accept }

def readFinal : Step Run := fun run =>
  let answered :=
    match s.final with
    | .reply reply => [Act.answered .body reply.code]
    | .broken _ _ => []
  let finalResponseAt :=
    if s.final.code ≠ 0 then some s.finalResponseAt else run.out.finalResponseAt
  let run :=
    { run with
      stage := .finalResponseError, transcript := run.transcript ++ answered
      out := { run.out with finalResponseAt } }
  match s.final.expect (· / 100 = 2) with
  | .error failure => .error (s.fail failure true run)
  | .ok reply =>
      s.event .smtpAccepted none reply.code reply.text { run with out := s.acceptAll reply run.out }

def quit : Step Run := fun run =>
  let run := { run with transcript := run.transcript ++ [.wrote .quit] }
  if s.quitWritten then s.event .quitSent none 0 [] run else .ok run

def transmit : Step Run := .sequence
  [anyAccepted, enter .databaseError, s.authorize, enter .dataRejected, s.startData,
    s.writeBody, s.readFinal, s.quit]

def conversation (recipients : List Recipient) : Step Run := .sequence
  [s.prepare recipients, s.dial, s.greet, s.authenticate, s.mail, s.rcptAll 0 recipients,
    s.transmit]

def initialRun (recipients : List Recipient) : Run :=
  { stage := .connectError
    out :=
      { startedAt := s.startedAt, finishedAt := s.finishedAt
        recipients := recipients.map fun r => { id := r.id, status := .temporary } } }

def finalRun (recipients : List Recipient) : Run :=
  (s.conversation recipients).ending (s.initialRun recipients)

/-- `Client.Send` with `probe` unset. -/
def send (recipients : List Recipient) : Result :=
  let run := s.finalRun recipients
  { run.out with stage := run.stage, status := run.out.aggregate }

end Session

end RelayTale.Smtp
