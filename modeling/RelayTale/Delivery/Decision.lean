import RelayTale.Smtp.Result

/-!
# Delivery policy

`Evidence.decide` classifies the evidence of one attempt for one recipient and,
where a retry is safe, spends the recipient's budget of seven attempts in
twenty-four hours. It performs no I/O.
-/

namespace RelayTale.Delivery

open Smtp (Status Stage ErrorClass)

inductive Action
  | accept
  | expire
  | resume
  | retry
  | permanent
  | unknown
  | manual
  | suppress
  | cancel
  | manualResolution
  deriving DecidableEq, Repr

def maxAttempts : Int := 7
def window : Int := 24 * hour

inductive Scope
  | unset
  | unknown
  | none
  | recipient
  | provider
  | configuration
  | local
  | message
  | policy
  deriving DecidableEq, Repr

inductive Reason
  | unset
  | unclassifiedEvidence
  | final2xx
  | remoteAcceptanceUncertain
  | rcptRejected
  | authTemporaryFailure
  | configError
  | errorClass (reported : ErrorClass)
  | providerSetupRejected
  | explicit5xx
  | invalidRetryBudget
  | retryBudgetExhausted
  | retryWindowExhausted
  | recoveryBudgetExhausted
  | envelopeAbortedBeforeData
  | messageDeadlineElapsed
  | websiteCancelled
  deriving DecidableEq, Repr

structure Evidence where
  stage : Stage
  errorClass : ErrorClass
  status : Status
  code : Int
  finalCode : Int
  finalResponse : Bool
  bodyStarted : Bool
  deriving DecidableEq, Repr

structure Decision where
  version : Nat
  action : Action
  reason : Reason := .unset
  scope : Scope := .unset
  retryAfter : Int := 0
  mayHaveDelivered : Bool := false
  failoverAllowed : Bool := false
  terminal : Bool := false
  deriving DecidableEq, Repr

structure Budget where
  attempts : Int
  startedAt : Option Int
  now : Int
  seed : Seed
  deriving DecidableEq, Repr

/-- The classes whose text starts with one of the prefixes of `safeTemporary`. -/
def transportClass : ErrorClass → Bool
  | .stage reached | .timeout reached =>
      decide (reached ∈ [Stage.dnsError, .connectError, .tlsError, .starttlsError,
        .smtpGreetingError, .ehloError])
  | .authConnectionError | .connectRefused | .connectTimeout => true
  | _ => false

def transportPrefixes : List String :=
  ["DNS_", "CONNECT_", "TLS_", "STARTTLS_", "SMTP_GREETING_", "EHLO_", "AUTH_CONNECTION_"]

namespace Evidence

def rcRejected (e : Evidence) : Prop :=
  e.stage = .rcptRejected ∧ 400 ≤ e.code ∧ e.code < 600

def final2xx (e : Evidence) : Prop :=
  e.finalResponse = true ∧ 200 ≤ e.finalCode ∧ e.finalCode < 300

def finalRejected (e : Evidence) : Prop :=
  e.finalResponse = true ∧ 400 ≤ e.finalCode ∧ e.finalCode < 600

instance (e : Evidence) : Decidable e.rcRejected :=
  inferInstanceAs (Decidable (_ ∧ _ ∧ _))

instance (e : Evidence) : Decidable e.final2xx :=
  inferInstanceAs (Decidable (_ ∧ _ ∧ _))

instance (e : Evidence) : Decidable e.finalRejected :=
  inferInstanceAs (Decidable (_ ∧ _ ∧ _))

def safeTemporary (e : Evidence) : Bool :=
  decide (400 ≤ e.code ∧ e.code < 500) ||
  decide (e.finalResponse = true ∧ 400 ≤ e.finalCode ∧ e.finalCode < 500) ||
  transportClass e.errorClass ||
  (e.errorClass == .connectionReset && !e.bodyStarted)

/-- Permission to change provider: nothing of the message can have left. -/
def failoverSafe (e : Evidence) : Bool :=
  !e.bodyStarted && !e.finalResponse &&
    (decide (e.code = 0 ∧ e.stage ∈ [Stage.dnsError, .connectError, .tlsError]) ||
      decide (e.stage = .dataRejected ∧ 400 ≤ e.code ∧ e.code < 500))

end Evidence

def baseDelay (attempts : Int) : Int :=
  min (minute * 4 ^ (attempts - 1).toNat) (12 * hour)

theorem baseDelay_nonneg (attempts : Int) : 0 ≤ baseDelay attempts := by
  unfold baseDelay
  refine le_min (Int.mul_nonneg (by decide) ?_) (by decide)
  exact Int.pow_nonneg (by decide)

section Budgeted

variable [Primitives]

/-- The delay before the next attempt, with the jitter of the seed. -/
def retryDelay (b : Budget) : Int :=
  baseDelay b.attempts * (800 + (Primitives.digest b.seed).toNat % 401) / 1000

/-- The part of `Decide` after its switch: a retry has to fit the budget. -/
def Decision.budgeted (d : Decision) (b : Budget) : Decision :=
  match b.startedAt with
  | none => { d with action := .manual, failoverAllowed := false, reason := .invalidRetryBudget }
  | some startedAt =>
      if b.attempts < 1 ∨ b.now < startedAt then
        { d with action := .manual, failoverAllowed := false, reason := .invalidRetryBudget }
      else if maxAttempts ≤ b.attempts ∨ startedAt + window ≤ b.now then
        { d with action := .manual, failoverAllowed := false, reason := .retryBudgetExhausted }
      else if startedAt + window ≤ b.now + retryDelay b then
        { d with
          action := .manual, failoverAllowed := false, reason := .retryWindowExhausted
          retryAfter := 0 }
      else { d with retryAfter := retryDelay b }

def Evidence.decide (e : Evidence) (b : Budget) : Decision :=
  let d : Decision :=
    { version := 2, action := .manual, reason := .unclassifiedEvidence, scope := .unknown }
  if e.status = .accepted ∧ e.final2xx then
    { d with
      action := .accept, reason := .final2xx, terminal := true, mayHaveDelivered := true
      scope := .none }
  else if (¬ e.rcRejected ∧ e.final2xx ∧ e.status ≠ .accepted) ∨ e.status = .unknown ∨
      (¬ e.rcRejected ∧ e.bodyStarted = true ∧ ¬ e.finalRejected) then
    { d with
      action := .unknown, reason := .remoteAcceptanceUncertain, mayHaveDelivered := true }
  else if e.rcRejected then
    if 500 ≤ e.code then
      { d with
        scope := .recipient, reason := .rcptRejected, action := .permanent, terminal := true }
    else
      { d with scope := .recipient, reason := .rcptRejected, action := .retry }.budgeted b
  else if e.errorClass = .stage .authError ∧ 400 ≤ e.code ∧ e.code < 500 then
    { d with action := .retry, reason := .authTemporaryFailure, scope := .provider }.budgeted b
  else if e.errorClass = .stage .authError ∨ e.errorClass = .credentialDecryptionError then
    { d with reason := .configError, scope := .configuration }
  else if e.errorClass = .localStorageError ∨ e.errorClass = .stage .databaseError ∨
      e.errorClass = .stage .recorderError then
    { d with reason := .errorClass e.errorClass, scope := .local }
  else if e.errorClass = .stage .invalidEml ∨ e.errorClass = .stage .invalidEnvelope then
    { d with reason := .errorClass e.errorClass, scope := .message }
  else if e.status = .permanent ∧
      e.stage ∈ [Stage.smtpGreetingError, .ehloError, .starttlsError] then
    { d with reason := .providerSetupRejected, scope := .provider }
  else if e.status = .permanent ∧ ((500 ≤ e.code ∧ e.code < 600) ∨
      (e.finalResponse = true ∧ 500 ≤ e.finalCode ∧ e.finalCode < 600)) then
    { d with action := .permanent, reason := .explicit5xx, scope := .message, terminal := true }
  else if e.status = .temporary ∧ e.safeTemporary = true then
    { d with
      action := .retry, reason := .errorClass e.errorClass, scope := .provider
      failoverAllowed := e.failoverSafe }.budgeted b
  else d

def Budget.Admits (b : Budget) : Prop :=
  ∃ startedAt, b.startedAt = some startedAt ∧ 1 ≤ b.attempts ∧ b.attempts < maxAttempts ∧
    startedAt ≤ b.now ∧ b.now + retryDelay b < startedAt + window

theorem retryDelay_nonneg (b : Budget) : 0 ≤ retryDelay b := by
  unfold retryDelay
  refine Int.ediv_nonneg (Int.mul_nonneg (baseDelay_nonneg b.attempts) ?_) (by decide)
  omega

theorem Decision.budgeted_of_admits {d : Decision} {b : Budget} (admits : b.Admits) :
    d.budgeted b = { d with retryAfter := retryDelay b } := by
  obtain ⟨startedAt, started, positive, few, after, fits⟩ := admits
  have delay := retryDelay_nonneg b
  unfold Decision.budgeted
  rw [started]
  simp only
  rw [if_neg (by omega), if_neg (by omega), if_neg (by omega)]

theorem Decision.budgeted_of_not_admits {d : Decision} {b : Budget} (refused : ¬ b.Admits) :
    (d.budgeted b).action = .manual ∧ (d.budgeted b).failoverAllowed = false := by
  unfold Decision.budgeted
  cases started : b.startedAt with
  | none => exact ⟨rfl, rfl⟩
  | some startedAt =>
    simp only
    split
    · exact ⟨rfl, rfl⟩
    · split
      · exact ⟨rfl, rfl⟩
      · split
        · exact ⟨rfl, rfl⟩
        · exact absurd ⟨startedAt, started, by omega, by omega, by omega, by omega⟩ refused

/-- What `Decide` needs before it can answer with a retry. -/
def Evidence.Retriable (e : Evidence) : Prop :=
  e.rcRejected ∧ e.code < 500 ∨
    e.errorClass = .stage .authError ∧ 400 ≤ e.code ∧ e.code < 500 ∨
    e.status = .temporary ∧ e.safeTemporary = true

def Evidence.Uncertain (e : Evidence) : Prop :=
  ¬ e.rcRejected ∧ e.final2xx ∧ e.status ≠ .accepted ∨ e.status = .unknown ∨
    ¬ e.rcRejected ∧ e.bodyStarted = true ∧ ¬ e.finalRejected

/-- The five actions of `Decide` with what each of them rests on. -/
inductive Justified (e : Evidence) (b : Budget) (d : Decision) : Prop
  | accept (action : d.action = .accept) (accepted : e.status = .accepted) (final : e.final2xx)
  | unknown (action : d.action = .unknown) (uncertain : e.Uncertain)
      (other : ¬ (e.status = .accepted ∧ e.final2xx))
  | permanent (action : d.action = .permanent) (certain : ¬ e.Uncertain)
      (cause : e.rcRejected ∧ 500 ≤ e.code ∨ e.status = .permanent)
  | retry (action : d.action = .retry) (certain : ¬ e.Uncertain) (cause : e.Retriable)
      (admits : b.Admits) (delay : d.retryAfter = retryDelay b)
      (undelivered : d.mayHaveDelivered = false)
  | manual (action : d.action = .manual) (certain : ¬ e.Uncertain)

variable {e : Evidence} {b : Budget}

theorem justified_budgeted {d : Decision} (action : d.action = .retry)
    (undelivered : d.mayHaveDelivered = false) (certain : ¬ e.Uncertain)
    (cause : e.Retriable) : Justified e b (d.budgeted b) := by
  by_cases admits : b.Admits
  · rw [Decision.budgeted_of_admits admits]
    exact .retry action certain cause admits rfl undelivered
  · exact .manual (Decision.budgeted_of_not_admits admits).1 certain

theorem decide_justified (e : Evidence) (b : Budget) : Justified e b (e.decide b) := by
  unfold Evidence.decide
  by_cases accepted : e.status = .accepted ∧ e.final2xx
  · rw [if_pos accepted]
    exact .accept rfl accepted.1 accepted.2
  rw [if_neg accepted]
  by_cases uncertain : e.Uncertain
  · rw [if_pos (by exact uncertain)]
    exact .unknown rfl uncertain accepted
  rw [if_neg (by exact uncertain)]
  by_cases rejected : e.rcRejected
  · rw [if_pos rejected]
    by_cases permanent : 500 ≤ e.code
    · rw [if_pos permanent]
      exact .permanent rfl uncertain (.inl ⟨rejected, permanent⟩)
    · rw [if_neg permanent]
      exact justified_budgeted rfl rfl uncertain (.inl ⟨rejected, by omega⟩)
  rw [if_neg rejected]
  split
  next auth => exact justified_budgeted rfl rfl uncertain (.inr (.inl auth))
  split
  · exact .manual rfl uncertain
  split
  · exact .manual rfl uncertain
  split
  · exact .manual rfl uncertain
  split
  · exact .manual rfl uncertain
  split
  next refused => exact .permanent rfl uncertain (.inr refused.1)
  split
  next safe => exact justified_budgeted rfl rfl uncertain (.inr (.inr safe))
  exact .manual rfl uncertain

theorem decide_accept_iff :
    (e.decide b).action = .accept ↔ e.status = .accepted ∧ e.final2xx := by
  constructor
  · intro action
    cases decide_justified e b with
    | accept _ accepted final => exact ⟨accepted, final⟩
    | unknown other | permanent other | retry other | manual other =>
      rw [other] at action
      cases action
  · intro accepted
    unfold Evidence.decide
    rw [if_pos accepted]

theorem decide_unknown (uncertain : e.Uncertain)
    (other : ¬ (e.status = .accepted ∧ e.final2xx)) : (e.decide b).action = .unknown := by
  unfold Evidence.decide
  rw [if_neg other, if_pos (by exact uncertain)]

theorem decide_retry (action : (e.decide b).action = .retry) :
    ¬ e.Uncertain ∧ e.Retriable ∧ b.Admits ∧ (e.decide b).retryAfter = retryDelay b := by
  cases decide_justified e b with
  | retry _ certain cause admits delay => exact ⟨certain, cause, admits, delay⟩
  | accept other | unknown other | permanent other | manual other =>
    rw [other] at action
    cases action

/-- A retry means that the body was never started, or that the server has
refused the recipient or the message. -/
theorem decide_retry_cause (action : (e.decide b).action = .retry) :
    e.bodyStarted = false ∨ e.rcRejected ∧ e.code < 500 ∨ e.finalRejected := by
  obtain ⟨certain, -, -, -⟩ := decide_retry action
  by_cases started : e.bodyStarted = true
  · by_cases rejected : e.rcRejected
    · refine .inr (.inl ⟨rejected, ?_⟩)
      by_contra large
      have refused : 500 ≤ e.code := by omega
      unfold Evidence.decide at action
      by_cases accepted : e.status = .accepted ∧ e.final2xx
      · rw [if_pos accepted] at action
        cases action
      · rw [if_neg accepted, if_neg (by exact certain), if_pos rejected, if_pos refused] at action
        cases action
    · by_contra cause
      rw [not_or, not_or] at cause
      exact certain (.inr (.inr ⟨rejected, started, cause.2.2⟩))
  · exact .inl (by simpa using started)

/-- Classes that `Decide` handles before it looks at temporary failures. -/
def specialClasses : List ErrorClass :=
  [.stage .authError, .credentialDecryptionError, .localStorageError, .stage .databaseError,
    .stage .recorderError, .stage .invalidEml, .stage .invalidEnvelope]

theorem decide_temporary (certain : ¬ e.Uncertain) (addressed : ¬ e.rcRejected)
    (ordinary : e.errorClass ∉ specialClasses) (status : e.status = .temporary)
    (safe : e.safeTemporary = true) (admits : b.Admits) : (e.decide b).action = .retry := by
  have notAccepted : ¬ (e.status = .accepted ∧ e.final2xx) := by simp [status]
  simp only [specialClasses, List.mem_cons, List.not_mem_nil, or_false, not_or] at ordinary
  obtain ⟨auth, credential, storage, database, recorder, eml, envelope⟩ := ordinary
  unfold Evidence.decide
  rw [if_neg notAccepted, if_neg (by exact certain), if_neg addressed]
  simp only [auth, credential, storage, database, recorder, eml, envelope, status, safe,
    reduceCtorEq, false_and, or_self, and_self, if_false, if_true]
  rw [Decision.budgeted_of_admits admits]

end Budgeted

end RelayTale.Delivery
