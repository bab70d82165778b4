import RelayTale.Delivery.Decision
import RelayTale.Foundation.Text

/-!
# The policy on free texts

`decide` is `Decide` as it is written: stage, error class and status are strings
that any caller can set, and the delay is computed on 64 bits. The queue only
ever passes the constants of the program; `Evidence.decide` is this function on
them (`decide_spelled`).
-/

namespace RelayTale.Delivery.Policy


structure Evidence where
  stage : Bytes
  errorClass : Bytes
  status : Bytes
  code : Int
  finalCode : Int
  finalResponse : Bool
  bodyStarted : Bool
  deriving DecidableEq, Repr

structure Decision where
  version : Nat
  action : Action
  reason : Bytes
  scope : Bytes
  retryAfter : Int := 0
  mayHaveDelivered : Bool := false
  failoverAllowed : Bool := false
  terminal : Bool := false
  deriving DecidableEq, Repr

/-- Instants count nanoseconds from the Unix epoch. -/
structure Budget where
  attempts : Int
  startedAt : Int
  now : Int
  seed : Bytes
  deriving DecidableEq, Repr

def wrap64 (value : Int) : Int := Int.bmod value (2 ^ 64)

def Fits64 (value : Int) : Prop := -2 ^ 63 ≤ value ∧ value < 2 ^ 63

theorem wrap64_of_fits {value : Int} (fits : Fits64 value) : wrap64 value = value := by
  obtain ⟨low, high⟩ := fits
  exact Int.bmod_eq_of_le (by simpa using low) (by simpa using high)

namespace Evidence

variable (e : Evidence)

def rcRejected : Prop := e.stage = ascii "RCPT_REJECTED" ∧ 400 ≤ e.code ∧ e.code < 600

def final2xx : Prop := e.finalResponse = true ∧ 200 ≤ e.finalCode ∧ e.finalCode < 300

def finalRejected : Prop := e.finalResponse = true ∧ 400 ≤ e.finalCode ∧ e.finalCode < 600

instance : Decidable e.rcRejected := inferInstanceAs (Decidable (_ ∧ _ ∧ _))

instance : Decidable e.final2xx := inferInstanceAs (Decidable (_ ∧ _ ∧ _))

instance : Decidable e.finalRejected := inferInstanceAs (Decidable (_ ∧ _ ∧ _))

def safeTemporary : Bool :=
  decide (400 ≤ e.code ∧ e.code < 500) ||
  decide (e.finalResponse = true ∧ 400 ≤ e.finalCode ∧ e.finalCode < 500) ||
  (transportPrefixes.any fun head => (ascii head).isPrefixOf e.errorClass) ||
  (e.errorClass == ascii "CONNECTION_RESET" && !e.bodyStarted)

def failoverSafe : Bool :=
  !e.bodyStarted && !e.finalResponse &&
    (decide (e.code = 0 ∧
        e.stage ∈ [ascii "DNS_ERROR", ascii "CONNECT_ERROR", ascii "TLS_ERROR"]) ||
      decide (e.stage = ascii "DATA_REJECTED" ∧ 400 ≤ e.code ∧ e.code < 500))

end Evidence

section Decide

variable (sha256 : Bytes → Fin 32 → UInt8)

namespace Budget

variable (b : Budget)

/-- `time.Minute * time.Duration(1<<uint(2*(b.Attempts-1)))`, at most twelve hours. -/
def base : Int :=
  let base := wrap64 (minute * wrap64 (2 ^ (2 * (b.attempts - 1)).toNat))
  if 12 * hour < base then 12 * hour else base

def factor : Int :=
  let hash := sha256 b.seed
  800 + ((hash 0).toNat * 256 + (hash 1).toNat) % 401

def delay : Int := (wrap64 (b.base * b.factor sha256)).tdiv 1000

end Budget

/-- The part of `Decide` after its switch. -/
def Decision.budgeted (d : Decision) (b : Budget) : Decision :=
  if b.attempts < 1 ∨ b.startedAt = zeroTime ∨ b.now < b.startedAt then
    { d with
      action := .manual, failoverAllowed := false, reason := ascii "INVALID_RETRY_BUDGET" }
  else if maxAttempts ≤ b.attempts ∨ ¬ b.now < b.startedAt + window then
    { d with
      action := .manual, failoverAllowed := false, reason := ascii "RETRY_BUDGET_EXHAUSTED" }
  else
    let d := { d with retryAfter := b.delay sha256 }
    if ¬ b.now + d.retryAfter < b.startedAt + window then
      { d with
        action := .manual, failoverAllowed := false, reason := ascii "RETRY_WINDOW_EXHAUSTED"
        retryAfter := 0 }
    else d

def decide (e : Evidence) (b : Budget) : Decision :=
  let d : Decision :=
    { version := 2, action := .manual, reason := ascii "UNCLASSIFIED_EVIDENCE"
      scope := ascii "unknown" }
  if e.status = ascii "SMTP_ACCEPTED" ∧ e.final2xx then
    { d with
      action := .accept, reason := ascii "FINAL_2XX", terminal := true, mayHaveDelivered := true
      scope := ascii "none" }
  else if (¬ e.rcRejected ∧ e.final2xx ∧ e.status ≠ ascii "SMTP_ACCEPTED") ∨
      e.status = ascii "DELIVERY_UNKNOWN" ∨
      (¬ e.rcRejected ∧ e.bodyStarted = true ∧ ¬ e.finalRejected) then
    { d with
      action := .unknown, reason := ascii "REMOTE_ACCEPTANCE_UNCERTAIN"
      mayHaveDelivered := true }
  else if e.rcRejected then
    let d := { d with scope := ascii "recipient", reason := ascii "RCPT_REJECTED" }
    if 500 ≤ e.code then { d with action := .permanent, terminal := true }
    else { d with action := .retry }.budgeted sha256 b
  else if e.errorClass = ascii "AUTH_ERROR" ∧ 400 ≤ e.code ∧ e.code < 500 then
    { d with
      action := .retry, reason := ascii "AUTH_TEMPORARY_FAILURE"
      scope := ascii "provider" }.budgeted sha256 b
  else if e.errorClass = ascii "AUTH_ERROR" ∨
      e.errorClass = ascii "CREDENTIAL_DECRYPTION_ERROR" then
    { d with reason := ascii "CONFIG_ERROR", scope := ascii "configuration" }
  else if e.errorClass = ascii "LOCAL_STORAGE_ERROR" ∨ e.errorClass = ascii "DATABASE_ERROR" ∨
      e.errorClass = ascii "RECORDER_ERROR" then
    { d with reason := e.errorClass, scope := ascii "local" }
  else if e.errorClass = ascii "INVALID_EML" ∨ e.errorClass = ascii "INVALID_ENVELOPE" then
    { d with reason := e.errorClass, scope := ascii "message" }
  else if e.status = ascii "PERM_FAILED" ∧ (e.stage = ascii "SMTP_GREETING_ERROR" ∨
      e.stage = ascii "EHLO_ERROR" ∨ e.stage = ascii "STARTTLS_ERROR") then
    { d with reason := ascii "PROVIDER_SETUP_REJECTED", scope := ascii "provider" }
  else if e.status = ascii "PERM_FAILED" ∧ ((500 ≤ e.code ∧ e.code < 600) ∨
      (e.finalResponse = true ∧ 500 ≤ e.finalCode ∧ e.finalCode < 600)) then
    { d with
      action := .permanent, reason := ascii "EXPLICIT_5XX", scope := ascii "message"
      terminal := true }
  else if e.status = ascii "TEMP_FAILED" ∧ e.safeTemporary = true then
    { d with
      action := .retry, reason := e.errorClass, scope := ascii "provider"
      failoverAllowed := e.failoverSafe }.budgeted sha256 b
  else d

structure Budget.Admits (b : Budget) : Prop where
  positive : 1 ≤ b.attempts
  few : b.attempts < maxAttempts
  started : b.startedAt ≠ zeroTime
  after : b.startedAt ≤ b.now
  fits : b.now + b.delay sha256 < b.startedAt + window

end Decide

/-! ### The delay -/

section Delay

variable {sha256 : Bytes → Fin 32 → UInt8} {b : Budget}

theorem attempts_cases {n : Int} (positive : 1 ≤ n) (few : n < maxAttempts) :
    n = 1 ∨ n = 2 ∨ n = 3 ∨ n = 4 ∨ n = 5 ∨ n = 6 := by
  unfold maxAttempts at few
  omega

/-- The delay of any attempt stays well below that of the next one. -/
theorem baseDelay_growth {n m : Int} (positive : 1 ≤ n) (less : n < m) (few : m < maxAttempts) :
    3 * baseDelay n < 2 * baseDelay m := by
  rcases attempts_cases positive (by omega) with rfl | rfl | rfl | rfl | rfl | rfl <;>
    rcases attempts_cases (by omega) few with rfl | rfl | rfl | rfl | rfl | rfl <;>
    first | omega | decide

/-- Up to twelve hours, and whole microseconds: the division by 1000 is exact. -/
theorem baseDelay_multiple {n : Int} (positive : 1 ≤ n) (few : n < maxAttempts) :
    ∃ unit, baseDelay n = 1000 * unit ∧ 0 < unit ∧ 1000 * unit ≤ 12 * hour := by
  refine ⟨baseDelay n / 1000, ?_⟩
  rcases attempts_cases positive few with rfl | rfl | rfl | rfl | rfl | rfl <;> decide

theorem base_eq (positive : 1 ≤ b.attempts) (few : b.attempts < maxAttempts) :
    b.base = baseDelay b.attempts := by
  unfold Budget.base
  rcases attempts_cases positive few with h | h | h | h | h | h <;> rw [h] <;> decide

theorem factor_bounds (sha256 : Bytes → Fin 32 → UInt8) (b : Budget) :
    800 ≤ b.factor sha256 ∧ b.factor sha256 ≤ 1200 := by
  simp only [Budget.factor]
  omega

/-- None of the steps that lead to the delay leaves the range of an `int64`. -/
structure Budget.Exact (sha256 : Bytes → Fin 32 → UInt8) (b : Budget) : Prop where
  shifted : Fits64 (2 ^ (2 * (b.attempts - 1)).toNat)
  minutes : Fits64 (minute * 2 ^ (2 * (b.attempts - 1)).toNat)
  scaled : Fits64 (b.base * b.factor sha256)

theorem exact_of_attempts (sha256 : Bytes → Fin 32 → UInt8) (positive : 1 ≤ b.attempts)
    (few : b.attempts < maxAttempts) : b.Exact sha256 := by
  obtain ⟨low, high⟩ := factor_bounds sha256 b
  obtain ⟨unit, multiple, unitPositive, unitBound⟩ := baseDelay_multiple positive few
  refine ⟨?_, ?_, ?_⟩
  · unfold Fits64
    rcases attempts_cases positive few with h | h | h | h | h | h <;> rw [h] <;> decide
  · unfold Fits64
    rcases attempts_cases positive few with h | h | h | h | h | h <;> rw [h] <;> decide
  · rw [base_eq positive few, multiple]
    have lower : 0 ≤ 1000 * unit * b.factor sha256 := Int.mul_nonneg (by omega) (by omega)
    have upper : 1000 * unit * b.factor sha256 ≤ 12 * hour * 1200 :=
      Int.mul_le_mul unitBound high (by omega) (by decide)
    have room : 12 * hour * 1200 < (2 : Int) ^ 63 := by decide
    exact ⟨by omega, by omega⟩

variable (sha256) in
theorem delay_eq (positive : 1 ≤ b.attempts) (few : b.attempts < maxAttempts) :
    1000 * b.delay sha256 = baseDelay b.attempts * b.factor sha256 := by
  obtain ⟨unit, multiple, -, -⟩ := baseDelay_multiple positive few
  have exact' := (exact_of_attempts sha256 positive few).scaled
  unfold Budget.delay
  rw [wrap64_of_fits exact', base_eq positive few, multiple, Int.mul_assoc,
    Int.mul_tdiv_cancel_left _ (by decide)]

variable (sha256) in
theorem delay_bounds (positive : 1 ≤ b.attempts) (few : b.attempts < maxAttempts) :
    8 * baseDelay b.attempts ≤ 10 * b.delay sha256 ∧
      10 * b.delay sha256 ≤ 12 * baseDelay b.attempts := by
  obtain ⟨low, high⟩ := factor_bounds sha256 b
  have nonneg := baseDelay_nonneg b.attempts
  have delay := delay_eq sha256 positive few
  have lower := Int.mul_le_mul_of_nonneg_left low nonneg
  have upper := Int.mul_le_mul_of_nonneg_left high nonneg
  omega

theorem delay_increases {b' : Budget} (positive : 1 ≤ b.attempts)
    (less : b.attempts < b'.attempts) (few : b'.attempts < maxAttempts) :
    b.delay sha256 < b'.delay sha256 := by
  have upper := (delay_bounds sha256 positive (less.trans few)).2
  have lower := (delay_bounds sha256 (positive.trans less.le) few).1
  have growth := baseDelay_growth positive less few
  omega

end Delay

/-! ### The verdict -/

namespace Evidence

variable (e : Evidence)

def Uncertain : Prop :=
  (¬ e.rcRejected ∧ e.final2xx ∧ e.status ≠ ascii "SMTP_ACCEPTED") ∨
    e.status = ascii "DELIVERY_UNKNOWN" ∨
    (¬ e.rcRejected ∧ e.bodyStarted = true ∧ ¬ e.finalRejected)

def Accepted : Prop := e.status = ascii "SMTP_ACCEPTED" ∧ e.final2xx

/-- One of the failures that `Decide` takes up before the temporary ones. -/
def Classified : Prop :=
  (e.errorClass = ascii "AUTH_ERROR" ∨ e.errorClass = ascii "CREDENTIAL_DECRYPTION_ERROR") ∨
    (e.errorClass = ascii "LOCAL_STORAGE_ERROR" ∨ e.errorClass = ascii "DATABASE_ERROR" ∨
      e.errorClass = ascii "RECORDER_ERROR") ∨
    (e.errorClass = ascii "INVALID_EML" ∨ e.errorClass = ascii "INVALID_ENVELOPE")

/-- The switch of `Decide` ends in a retry. -/
inductive Retriable : Prop
  | recipient (rejected : e.rcRejected) (temporary : e.code < 500)
  | auth (addressed : ¬ e.rcRejected) (class' : e.errorClass = ascii "AUTH_ERROR")
      (low : 400 ≤ e.code) (high : e.code < 500)
  | transport (addressed : ¬ e.rcRejected) (ordinary : ¬ e.Classified)
      (temporary : e.status = ascii "TEMP_FAILED") (safe : e.safeTemporary = true)

def unsent : Evidence := { e with bodyStarted := false }

end Evidence

/-- The answers of `Decide`, with the permissions that go with each. -/
inductive Verdict (sha256 : Bytes → Fin 32 → UInt8) (e : Evidence) (b : Budget) (d : Decision) :
    Prop
  | accept (action : d.action = .accept) (accepted : e.Accepted) (delay : d.retryAfter = 0)
      (delivered : d.mayHaveDelivered = true) (terminal : d.terminal = true)
      (failover : d.failoverAllowed = false)
  | unknown (action : d.action = .unknown) (other : ¬ e.Accepted) (uncertain : e.Uncertain)
      (delay : d.retryAfter = 0)
      (delivered : d.mayHaveDelivered = true) (terminal : d.terminal = false)
      (failover : d.failoverAllowed = false)
  | permanent (action : d.action = .permanent) (certain : ¬ e.Uncertain) (delay : d.retryAfter = 0)
      (final : ¬ e.Retriable)
      (delivered : d.mayHaveDelivered = false) (terminal : d.terminal = true)
      (failover : d.failoverAllowed = false)
  | manual (action : d.action = .manual) (certain : ¬ e.Uncertain) (delay : d.retryAfter = 0)
      (delivered : d.mayHaveDelivered = false) (terminal : d.terminal = false)
      (failover : d.failoverAllowed = false)
      (refused : e.Retriable → ¬ b.Admits sha256)
  | retry (action : d.action = .retry) (other : ¬ e.Accepted) (certain : ¬ e.Uncertain)
      (cause : e.Retriable) (admits : b.Admits sha256) (delay : d.retryAfter = b.delay sha256)
      (delivered : d.mayHaveDelivered = false) (terminal : d.terminal = false)
      (failover : d.failoverAllowed = true →
        e.status = ascii "TEMP_FAILED" ∧ e.failoverSafe = true)

section Verdict

variable {sha256 : Bytes → Fin 32 → UInt8} {e : Evidence} {b : Budget}

theorem budgeted_of_admits {d : Decision} (admits : b.Admits sha256) :
    d.budgeted sha256 b = { d with retryAfter := b.delay sha256 } := by
  obtain ⟨positive, few, started, after, fits⟩ := admits
  have delay := (delay_bounds sha256 positive few).1
  have nonneg := baseDelay_nonneg b.attempts
  unfold Decision.budgeted
  rw [if_neg (not_or.mpr ⟨by omega, not_or.mpr ⟨started, by omega⟩⟩), if_neg (by omega),
    if_neg (by simpa using fits)]

theorem budgeted_of_not_admits {d : Decision} (refused : ¬ b.Admits sha256)
    (delay : d.retryAfter = 0) :
    ∃ reason, d.budgeted sha256 b =
      { d with action := .manual, failoverAllowed := false, reason, retryAfter := 0 } := by
  obtain ⟨version, action, reason, scope, retryAfter, mayHaveDelivered, failover, terminal⟩ := d
  cases delay
  unfold Decision.budgeted
  split
  · exact ⟨_, rfl⟩
  next started =>
    split
    · exact ⟨_, rfl⟩
    next few =>
      simp only
      split
      · exact ⟨_, rfl⟩
      next fits =>
        rw [not_or, not_or] at started
        rw [not_or] at few
        exact absurd ⟨by omega, by omega, started.2.1, by omega, by simpa using fits⟩ refused

theorem verdict_budgeted {d : Decision} (action : d.action = .retry) (delay : d.retryAfter = 0)
    (delivered : d.mayHaveDelivered = false) (terminal : d.terminal = false)
    (failover : d.failoverAllowed = true →
      e.status = ascii "TEMP_FAILED" ∧ e.failoverSafe = true)
    (other : ¬ e.Accepted) (certain : ¬ e.Uncertain) (cause : e.Retriable) :
    Verdict sha256 e b (d.budgeted sha256 b) := by
  by_cases admits : b.Admits sha256
  · rw [budgeted_of_admits admits]
    exact .retry action other certain cause admits (by simp only) delivered terminal failover
  · obtain ⟨reason, result⟩ := budgeted_of_not_admits admits delay
    rw [result]
    exact .manual rfl certain rfl delivered terminal rfl fun _ => admits

theorem decide_verdict (sha256 : Bytes → Fin 32 → UInt8) (e : Evidence) (b : Budget) :
    Verdict sha256 e b (decide sha256 e b) := by
  unfold decide
  by_cases accepted : e.Accepted
  · rw [if_pos (by exact accepted)]
    exact .accept rfl accepted rfl rfl rfl rfl
  rw [if_neg (by exact accepted)]
  by_cases uncertain : e.Uncertain
  · rw [if_pos (by exact uncertain)]
    exact .unknown rfl accepted uncertain rfl rfl rfl rfl
  rw [if_neg (by exact uncertain)]
  by_cases rejected : e.rcRejected
  · rw [if_pos rejected]
    by_cases permanent : 500 ≤ e.code
    · rw [if_pos permanent]
      have final : ¬ e.Retriable := by
        rintro (⟨-, temporary⟩ | ⟨addressed⟩ | ⟨addressed⟩)
        · omega
        · exact addressed rejected
        · exact addressed rejected
      exact .permanent rfl uncertain rfl final rfl rfl rfl
    · rw [if_neg permanent]
      exact verdict_budgeted rfl rfl rfl rfl (by simp) accepted uncertain
        (.recipient rejected (by omega))
  rw [if_neg rejected]
  by_cases auth : e.errorClass = ascii "AUTH_ERROR" ∧ 400 ≤ e.code ∧ e.code < 500
  · rw [if_pos auth]
    exact verdict_budgeted rfl rfl rfl rfl (by simp) accepted uncertain
      (.auth rejected auth.1 auth.2.1 auth.2.2)
  rw [if_neg auth]
  -- From here on a retry takes a class of none of the branches above it.
  have unretriable (blocked : e.Classified ∨ e.status = ascii "PERM_FAILED" ∨
      ¬ (e.status = ascii "TEMP_FAILED" ∧ e.safeTemporary = true)) : ¬ e.Retriable := by
    rintro (⟨wrong⟩ | ⟨-, class', low, high⟩ | ⟨-, ordinary, temporary, safe⟩)
    · exact rejected wrong
    · exact auth ⟨class', low, high⟩
    · rcases blocked with classified | status | unsafe'
      · exact ordinary classified
      · rw [status] at temporary
        exact absurd temporary (by decide)
      · exact unsafe' ⟨temporary, safe⟩
  have refuse (blocked : e.Classified ∨ e.status = ascii "PERM_FAILED" ∨
      ¬ (e.status = ascii "TEMP_FAILED" ∧ e.safeTemporary = true)) :
      e.Retriable → ¬ b.Admits sha256 := fun cause => absurd cause (unretriable blocked)
  split
  next config => exact .manual rfl uncertain rfl rfl rfl rfl (refuse (.inl (.inl config)))
  next config =>
  split
  next storage => exact .manual rfl uncertain rfl rfl rfl rfl (refuse (.inl (.inr (.inl storage))))
  next storage =>
  split
  next content => exact .manual rfl uncertain rfl rfl rfl rfl (refuse (.inl (.inr (.inr content))))
  next content =>
  split
  next setup => exact .manual rfl uncertain rfl rfl rfl rfl (refuse (.inr (.inl setup.1)))
  split
  next refused =>
    exact .permanent rfl uncertain rfl (unretriable (.inr (.inl refused.1))) rfl rfl rfl
  split
  next temporary =>
    refine verdict_budgeted rfl rfl rfl rfl (fun failover => ⟨temporary.1, failover⟩) accepted
      uncertain (.transport rejected ?_ temporary.1 temporary.2)
    rintro (wrong | wrong | wrong)
    · exact config wrong
    · exact storage wrong
    · exact content wrong
  next ordinary => exact .manual rfl uncertain rfl rfl rfl rfl (refuse (.inr (.inr ordinary)))

theorem decide_retry_iff :
    (decide sha256 e b).action = .retry ↔
      ¬ e.Accepted ∧ ¬ e.Uncertain ∧ e.Retriable ∧ b.Admits sha256 := by
  cases decide_verdict sha256 e b with
  | accept action accepted => simp [action, accepted]
  | unknown action _ uncertain => simp [action, uncertain]
  | permanent action _ _ final => simp [action, final]
  | manual action _ _ _ _ _ refused =>
    simp only [action, reduceCtorEq, false_iff]
    exact fun ⟨_, _, cause, admits⟩ => refused cause admits
  | retry action other certain cause admits => simp [action, other, certain, cause, admits]

theorem decide_delay (action : (decide sha256 e b).action = .retry) :
    (decide sha256 e b).retryAfter = b.delay sha256 := by
  cases decide_verdict sha256 e b with
  | retry _ _ _ _ _ delay => exact delay
  | accept other | unknown other | permanent other | manual other =>
    rw [other] at action
    cases action

theorem safeTemporary_unsent (safe : e.safeTemporary = true) : e.unsent.safeTemporary = true := by
  unfold Evidence.safeTemporary at safe ⊢
  simp only [Bool.or_eq_true, Bool.and_eq_true] at safe ⊢
  rcases safe with safe | ⟨reset, -⟩
  · exact .inl safe
  · exact .inr ⟨reset, rfl⟩

theorem retriable_unsent (cause : e.Retriable) : e.unsent.Retriable := by
  cases cause with
  | recipient rejected temporary => exact .recipient rejected temporary
  | auth addressed class' low high => exact .auth addressed class' low high
  | transport addressed ordinary temporary safe =>
    exact .transport addressed ordinary temporary (safeTemporary_unsent safe)

theorem uncertain_of_unsent (uncertain : e.unsent.Uncertain) : e.Uncertain := by
  rcases uncertain with final | status | ⟨-, started, -⟩
  · exact .inl final
  · exact .inr (.inl status)
  · cases started

/-- Evidence that the body was sent never makes a retry possible. -/
theorem decide_retry_unsent (action : (decide sha256 e b).action = .retry) :
    (decide sha256 e.unsent b).action = .retry := by
  obtain ⟨other, certain, cause, admits⟩ := decide_retry_iff.mp action
  exact decide_retry_iff.mpr
    ⟨other, fun uncertain => certain (uncertain_of_unsent uncertain), retriable_unsent cause,
      admits⟩

end Verdict

structure Paced (sha256 : Bytes → Fin 32 → UInt8) (b : Budget) (delay : Int) : Prop where
  positive : 1 ≤ b.attempts
  few : b.attempts ≤ 6
  after : b.startedAt ≤ b.now
  within : b.now + delay < b.startedAt + 24 * hour
  lower : 8 * min (4 ^ (b.attempts - 1).toNat * minute) (12 * hour) ≤ 10 * delay
  upper : 10 * delay ≤ 12 * min (4 ^ (b.attempts - 1).toNat * minute) (12 * hour)
  exact : b.Exact sha256

theorem paced_of_admits {sha256 : Bytes → Fin 32 → UInt8} {b : Budget}
    (admits : b.Admits sha256) : Paced sha256 b (b.delay sha256) := by
  obtain ⟨positive, few, -, after, fits⟩ := admits
  have bounds := delay_bounds sha256 positive few
  unfold baseDelay at bounds
  rw [Int.mul_comm minute] at bounds
  have exact' := exact_of_attempts sha256 positive few
  unfold maxAttempts at few
  exact ⟨positive, by omega, after, fits, bounds.1, bounds.2, exact'⟩

theorem retry_policy (sha256 : Bytes → Fin 32 → UInt8) (e : Evidence) (b : Budget) :
    ((decide sha256 e b).action = .retry → Paced sha256 b (decide sha256 e b).retryAfter) ∧
    ((decide sha256 e b).action ≠ .retry → (decide sha256 e b).retryAfter = 0) ∧
    (∀ (e' : Evidence) (b' : Budget), b.attempts < b'.attempts →
      (decide sha256 e b).action = .retry → (decide sha256 e' b').action = .retry →
      (decide sha256 e b).retryAfter < (decide sha256 e' b').retryAfter) ∧
    ((decide sha256 e b).mayHaveDelivered = true ↔
      (decide sha256 e b).action = .accept ∨ (decide sha256 e b).action = .unknown) ∧
    ((decide sha256 e b).terminal = true ↔
      (decide sha256 e b).action = .accept ∨ (decide sha256 e b).action = .permanent) ∧
    ((decide sha256 e b).failoverAllowed = true →
      (decide sha256 e b).action = .retry ∧ e.status = ascii "TEMP_FAILED" ∧
        e.bodyStarted = false ∧ e.finalResponse = false) ∧
    ((decide sha256 { e with bodyStarted := true } b).action = .retry →
      (decide sha256 { e with bodyStarted := false } b).action = .retry) ∧
    (e.bodyStarted = true →
      ¬ (e.finalResponse = true ∧ 400 ≤ e.finalCode ∧ e.finalCode ≤ 599) →
      ¬ (e.stage = ascii "RCPT_REJECTED" ∧ 400 ≤ e.code ∧ e.code ≤ 599) →
      (decide sha256 e b).action = .accept ∨ (decide sha256 e b).action = .unknown) := by
  refine ⟨?_, ?_, ?_, ?_, ?_, ?_, decide_retry_unsent, ?_⟩
  · intro action
    rw [decide_delay action]
    exact paced_of_admits (decide_retry_iff.mp action).2.2.2
  · intro action
    cases decide_verdict sha256 e b with
    | retry retried => exact absurd retried action
    | accept _ _ delay | unknown _ _ _ delay | permanent _ _ delay | manual _ _ delay => exact delay
  · intro e' b' less first second
    rw [decide_delay first, decide_delay second]
    exact delay_increases (decide_retry_iff.mp first).2.2.2.positive less
      (decide_retry_iff.mp second).2.2.2.few
  · cases decide_verdict sha256 e b <;> simp [*]
  · cases decide_verdict sha256 e b <;> simp [*]
  · intro allowed
    cases decide_verdict sha256 e b with
    | retry action _ _ _ _ _ _ _ failover =>
      obtain ⟨status, safe⟩ := failover allowed
      simp only [Evidence.failoverSafe, Bool.and_eq_true, Bool.not_eq_true'] at safe
      exact ⟨action, status, safe.1.1, safe.1.2⟩
    | accept _ _ _ _ _ denied | unknown _ _ _ _ _ _ denied | permanent _ _ _ _ _ _ denied
    | manual _ _ _ _ _ denied =>
      rw [denied] at allowed
      cases allowed
  · intro started unfinished addressed
    have uncertain : e.Uncertain := by
      refine .inr (.inr ⟨fun rejected => addressed ?_, started, fun rejected => unfinished ?_⟩)
      · exact ⟨rejected.1, rejected.2.1, by have := rejected.2.2; omega⟩
      · exact ⟨rejected.1, rejected.2.1, by have := rejected.2.2; omega⟩
    cases decide_verdict sha256 e b with
    | accept action => exact .inl action
    | unknown action => exact .inr action
    | permanent _ certain | manual _ certain | retry _ _ certain => exact absurd uncertain certain

def unreached : Evidence where
  stage := ascii "CONNECT_ERROR"
  errorClass := ascii "CONNECT_REFUSED"
  status := ascii "TEMP_FAILED"
  code := 0
  finalCode := 0
  finalResponse := false
  bodyStarted := false

def deferred : Evidence where
  stage := ascii "FINAL_RESPONSE_ERROR"
  errorClass := ascii "FINAL_RESPONSE_ERROR"
  status := ascii "TEMP_FAILED"
  code := 451
  finalCode := 451
  finalResponse := true
  bodyStarted := true

def interrupted : Evidence :=
  { unreached with stage := ascii "DATA_WRITE_ERROR", bodyStarted := true }

def spent (attempts : Int) : Budget where
  attempts := attempts
  startedAt := 0
  now := hour
  seed := []

theorem retry_policy_of_deferred :
    let sha256 : Bytes → Fin 32 → UInt8 := fun _ _ => 255
    Paced sha256 (spent 1) (decide sha256 deferred (spent 1)).retryAfter ∧
    (decide sha256 deferred (spent 7)).retryAfter = 0 ∧
    (decide sha256 deferred (spent 1)).retryAfter <
      (decide sha256 unreached (spent 6)).retryAfter ∧
    ((decide sha256 unreached (spent 1)).action = .retry ∧
      unreached.status = ascii "TEMP_FAILED" ∧ unreached.bodyStarted = false ∧
      unreached.finalResponse = false) ∧
    (decide sha256 { deferred with bodyStarted := false } (spent 1)).action = .retry ∧
    ((decide sha256 interrupted (spent 1)).action = .accept ∨
      (decide sha256 interrupted (spent 1)).action = .unknown) := by
  intro sha256
  obtain ⟨paced, -, increases, -, -, -, unsent, -⟩ := retry_policy sha256 deferred (spent 1)
  obtain ⟨-, final, -⟩ := retry_policy sha256 deferred (spent 7)
  obtain ⟨-, -, -, -, -, failover, -, -⟩ := retry_policy sha256 unreached (spent 1)
  obtain ⟨-, -, -, -, -, -, -, uncertain⟩ := retry_policy sha256 interrupted (spent 1)
  refine ⟨paced ?_, final ?_, increases unreached (spent 6) ?_ ?_ ?_, failover ?_, unsent ?_,
    uncertain ?_ ?_ ?_⟩ <;> decide +kernel

/-! ### The constants of the program -/

section Constants

open Smtp (Status Stage ErrorClass)

def reasonText : Reason → Bytes
  | .unset => []
  | .unclassifiedEvidence => ascii "UNCLASSIFIED_EVIDENCE"
  | .final2xx => ascii "FINAL_2XX"
  | .remoteAcceptanceUncertain => ascii "REMOTE_ACCEPTANCE_UNCERTAIN"
  | .rcptRejected => ascii "RCPT_REJECTED"
  | .authTemporaryFailure => ascii "AUTH_TEMPORARY_FAILURE"
  | .configError => ascii "CONFIG_ERROR"
  | .errorClass reported => ascii reported.text
  | .providerSetupRejected => ascii "PROVIDER_SETUP_REJECTED"
  | .explicit5xx => ascii "EXPLICIT_5XX"
  | .invalidRetryBudget => ascii "INVALID_RETRY_BUDGET"
  | .retryBudgetExhausted => ascii "RETRY_BUDGET_EXHAUSTED"
  | .retryWindowExhausted => ascii "RETRY_WINDOW_EXHAUSTED"
  | .recoveryBudgetExhausted => ascii "RECOVERY_BUDGET_EXHAUSTED"
  | .envelopeAbortedBeforeData => ascii "ENVELOPE_ABORTED_BEFORE_DATA"
  | .messageDeadlineElapsed => ascii "MESSAGE_DEADLINE_ELAPSED"
  | .websiteCancelled => ascii "WEBSITE_CANCELLED"

def scopeText : Scope → Bytes
  | .unset => []
  | .unknown => ascii "unknown"
  | .none => ascii "none"
  | .recipient => ascii "recipient"
  | .provider => ascii "provider"
  | .configuration => ascii "configuration"
  | .local => ascii "local"
  | .message => ascii "message"
  | .policy => ascii "policy"

def spell (e : Delivery.Evidence) : Evidence where
  stage := ascii e.stage.text
  errorClass := ascii e.errorClass.text
  status := ascii e.status.text
  code := e.code
  finalCode := e.finalCode
  finalResponse := e.finalResponse
  bodyStarted := e.bodyStarted

def spellDecision (d : Delivery.Decision) : Decision where
  version := d.version
  action := d.action
  reason := reasonText d.reason
  scope := scopeText d.scope
  retryAfter := d.retryAfter
  mayHaveDelivered := d.mayHaveDelivered
  failoverAllowed := d.failoverAllowed
  terminal := d.terminal

def stages : List Stage :=
  [.unset, .connectError, .tlsError, .invalidEnvelope, .invalidEml, .dnsError, .recorderError,
    .smtpGreetingError, .ehloError, .starttlsError, .authError, .mailFromRejected, .rcptRejected,
    .rcptAccepted, .databaseError, .suppressionBlocked, .expiryBlocked, .dataRejected,
    .dataWriteError, .finalResponseError, .finalResponseUnknown, .finalResponse]

theorem mem_stages (reached : Stage) : reached ∈ stages := by cases reached <;> decide

def errorClasses : List ErrorClass :=
  stages.map .stage ++ stages.map .timeout ++
    [.unset, .authConnectionError, .connectRefused, .connectTimeout, .finalResponseTimeout,
      .connectionReset, .credentialDecryptionError, .localStorageError]

theorem mem_errorClasses (reported : ErrorClass) : reported ∈ errorClasses := by
  unfold errorClasses
  cases reported with
  | stage reached => simp [mem_stages reached]
  | timeout reached => simp [mem_stages reached]
  | _ => simp

theorem status_spelled (status other : Status) :
    ascii status.text = ascii other.text ↔ status = other := by
  cases status <;> cases other <;> decide

theorem stage_spelled (reached other : Stage) :
    ascii reached.text = ascii other.text ↔ reached = other := by
  have all : ∀ reached ∈ stages, ∀ other ∈ stages,
      (ascii reached.text = ascii other.text ↔ reached = other) := by decide +kernel
  exact all reached (mem_stages reached) other (mem_stages other)

/-- The spelling tells the classes of `Decide` from all others. -/
theorem errorClass_spelled (reported special : ErrorClass)
    (listed : special ∈ .connectionReset :: specialClasses) :
    ascii reported.text = ascii special.text ↔ reported = special := by
  have all : ∀ reported ∈ errorClasses, ∀ special ∈ .connectionReset :: specialClasses,
      (ascii reported.text = ascii special.text ↔ reported = special) := by decide +kernel
  exact all reported (mem_errorClasses reported) special listed

theorem transport_spelled (reported : ErrorClass) :
    (transportPrefixes.any fun head => (ascii head).isPrefixOf (ascii reported.text)) =
      transportClass reported := by
  have all : ∀ reported ∈ errorClasses,
      (transportPrefixes.any fun head => (ascii head).isPrefixOf (ascii reported.text)) =
        transportClass reported := by decide +kernel
  exact all reported (mem_errorClasses reported)

variable (e : Delivery.Evidence)

theorem spell_status (known : Status) (text : String) (same : known.text = text) :
    (spell e).status = ascii text ↔ e.status = known := same ▸ status_spelled e.status known

theorem spell_stage (known : Stage) (text : String) (same : known.text = text) :
    (spell e).stage = ascii text ↔ e.stage = known := same ▸ stage_spelled e.stage known

theorem spell_errorClass (known : ErrorClass) (text : String) (same : known.text = text)
    (listed : known ∈ .connectionReset :: specialClasses) :
    (spell e).errorClass = ascii text ↔ e.errorClass = known :=
  same ▸ errorClass_spelled e.errorClass known listed

theorem spell_rcRejected : (spell e).rcRejected ↔ e.rcRejected :=
  and_congr (spell_stage e .rcptRejected _ rfl) Iff.rfl

theorem spell_safeTemporary : (spell e).safeTemporary = e.safeTemporary := by
  have reset : ((spell e).errorClass == ascii "CONNECTION_RESET") =
      (e.errorClass == .connectionReset) := by
    rw [Bool.eq_iff_iff, beq_iff_eq, beq_iff_eq]
    exact spell_errorClass e .connectionReset _ rfl (by simp)
  unfold Evidence.safeTemporary Delivery.Evidence.safeTemporary
  rw [reset, ← transport_spelled]
  rfl

theorem spell_failoverSafe : (spell e).failoverSafe = e.failoverSafe := by
  unfold Evidence.failoverSafe Delivery.Evidence.failoverSafe
  simp only [List.mem_cons, List.not_mem_nil, spell_stage e .dnsError "DNS_ERROR" rfl,
    spell_stage e .connectError "CONNECT_ERROR" rfl, spell_stage e .tlsError "TLS_ERROR" rfl,
    spell_stage e .dataRejected "DATA_REJECTED" rfl]
  rfl

section Spelled

variable [Primitives] {sha256 : Bytes → Fin 32 → UInt8}

/-- A budget of the queue as `Decide` is given it. -/
structure Spelled (sha256 : Bytes → Fin 32 → UInt8) (b : Delivery.Budget) (raw : Budget) :
    Prop where
  attempts : raw.attempts = b.attempts
  now : raw.now = b.now
  unstarted : b.startedAt = none → raw.startedAt = zeroTime
  started : ∀ startedAt, b.startedAt = some startedAt →
    raw.startedAt = startedAt ∧ startedAt ≠ zeroTime
  digest : (sha256 raw.seed 0).toNat * 256 + (sha256 raw.seed 1).toNat =
    (Primitives.digest b.seed).toNat

variable {b : Delivery.Budget} {raw : Budget}

theorem Spelled.delay (spelled : Spelled sha256 b raw) (positive : 1 ≤ b.attempts)
    (few : b.attempts < maxAttempts) : raw.delay sha256 = retryDelay b := by
  have delay := delay_eq sha256 (b := raw) (by rw [spelled.attempts]; exact positive)
    (by rw [spelled.attempts]; exact few)
  have factor : raw.factor sha256 = 800 + (Primitives.digest b.seed).toNat % 401 := by
    have digest := spelled.digest
    simp only [Budget.factor]
    omega
  rw [spelled.attempts, factor] at delay
  unfold retryDelay
  rw [← delay, Int.mul_ediv_cancel_left _ (by decide)]

theorem Spelled.budgeted (spelled : Spelled sha256 b raw) (d : Delivery.Decision) :
    (spellDecision d).budgeted sha256 raw = spellDecision (d.budgeted b) := by
  unfold Decision.budgeted Delivery.Decision.budgeted
  cases started : b.startedAt with
  | none =>
    rw [if_pos (.inr (.inl (spelled.unstarted started)))]
    rfl
  | some startedAt =>
    obtain ⟨same, nonzero⟩ := spelled.started startedAt started
    simp only [spelled.attempts, spelled.now, same, nonzero, false_or, not_lt]
    split
    · rfl
    next valid =>
      split
      · rfl
      next room =>
        rw [not_or] at valid room
        simp only [spelled.delay (by omega) (by omega)]
        split <;> rfl

/-- On the constants of the program the two functions agree in every field. -/
theorem decide_spelled (spelled : Spelled sha256 b raw) (e : Delivery.Evidence) :
    decide sha256 (spell e) raw = spellDecision (e.decide b) := by
  have final : (spell e).final2xx ↔ e.final2xx := Iff.rfl
  have refused : (spell e).finalRejected ↔ e.finalRejected := Iff.rfl
  have code : (spell e).code = e.code := rfl
  have finalCode : (spell e).finalCode = e.finalCode := rfl
  have finalResponse : (spell e).finalResponse = e.finalResponse := rfl
  have bodyStarted : (spell e).bodyStarted = e.bodyStarted := rfl
  unfold decide Delivery.Evidence.decide
  simp only [spell_status e .accepted "SMTP_ACCEPTED" rfl,
    spell_status e .unknown "DELIVERY_UNKNOWN" rfl, spell_status e .permanent "PERM_FAILED" rfl,
    spell_status e .temporary "TEMP_FAILED" rfl,
    spell_stage e .smtpGreetingError "SMTP_GREETING_ERROR" rfl,
    spell_stage e .ehloError "EHLO_ERROR" rfl, spell_stage e .starttlsError "STARTTLS_ERROR" rfl,
    spell_errorClass e (.stage .authError) "AUTH_ERROR" rfl (by decide),
    spell_errorClass e .credentialDecryptionError "CREDENTIAL_DECRYPTION_ERROR" rfl (by decide),
    spell_errorClass e .localStorageError "LOCAL_STORAGE_ERROR" rfl (by decide),
    spell_errorClass e (.stage .databaseError) "DATABASE_ERROR" rfl (by decide),
    spell_errorClass e (.stage .recorderError) "RECORDER_ERROR" rfl (by decide),
    spell_errorClass e (.stage .invalidEml) "INVALID_EML" rfl (by decide),
    spell_errorClass e (.stage .invalidEnvelope) "INVALID_ENVELOPE" rfl (by decide),
    spell_rcRejected, final, refused, code, finalCode, finalResponse, bodyStarted,
    spell_safeTemporary, spell_failoverSafe, ne_eq, List.mem_cons, List.not_mem_nil, or_false,
    apply_ite spellDecision, ← spelled.budgeted]
  rfl

end Spelled

end Constants

end RelayTale.Delivery.Policy
