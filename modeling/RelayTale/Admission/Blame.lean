import RelayTale.Admission.State
import RelayTale.Delivery.Outcome

/-!
# Failures of this side

A conversation can end because the payload is refused, because an event cannot
be recorded or because the database does not grant DATA. None of this is the
provider's fault: its health sample is to be ignored and the recipients wait for
an operator. Which class such a failure gets depends on what its error wraps.
-/

namespace RelayTale.Admission

open EarlyReturn Smtp Delivery

section Reports

variable (s : Session)

/-- Before DATA: nothing of this side has failed and no reply has been reported. -/
structure Calm (run : Run) : Prop where
  granted : .fenced false ∉ run.transcript
  recorded : run.out.recorderError = false
  code : run.out.code = 0
  unstarted : run.out.dataStartedAt = none

structure Started (run : Run) : Prop where
  granted : .fenced false ∉ run.transcript
  started : run.out.dataStartedAt ≠ none

/-- How a conversation that is over was ended from this side, if it was. -/
inductive Reported (run : Run) : Prop
  | elsewhere (granted : .fenced false ∉ run.transcript)
      (recorded : run.out.dataStartedAt = none → run.out.recorderError = false)
  | recorder (granted : .fenced false ∉ run.transcript)
      (unstarted : run.out.dataStartedAt = none) (stage : run.stage = .recorderError)
      (errorClass : run.out.errorClass = .stage .recorderError)
  | fence (failure : Failure) (refused : s.beforeData = some failure)
      (recorded : run.out.recorderError = false) (unstarted : run.out.dataStartedAt = none)
      (stage : run.stage = s.fenceStage)
      (errorClass : run.out.errorClass = classify s.fenceStage failure)
      (code : ∀ cause, failure = .fault cause → run.out.code = 0)

def Reports (holds : Run → Prop) (step : Step Run) : Prop :=
  Triple holds step holds (Reported s)

end Reports

section Steps

variable {s : Session} {run : Run} {failure : Failure} {uncertain : Bool}

theorem failed_recorderError :
    (s.failed failure uncertain run).recorderError = run.out.recorderError := by
  unfold Session.failed
  cases failure <;> cases uncertain <;> by_cases auth : run.stage = .authError <;> simp [auth]

theorem failed_code (cause : Fault) :
    (s.failed (.fault cause) uncertain run).code = run.out.code := by
  unfold Session.failed
  cases uncertain <;> by_cases auth : run.stage = .authError <;> simp [auth]

theorem failed_errorClass :
    (s.failed failure false run).errorClass = classify run.stage failure := by
  unfold Session.failed
  cases failure <;> by_cases auth : run.stage = .authError <;> simp [auth]

theorem Calm.fail (calm : Calm run) : Reported s (s.fail failure uncertain run) :=
  .elsewhere calm.granted fun _ => failed_recorderError.trans calm.recorded

theorem Started.fail (begun : Started run) : Reported s (s.fail failure uncertain run) :=
  .elsewhere begun.granted fun unstarted =>
    absurd (failed_dataStartedAt.symm.trans unstarted) begun.started

theorem Calm.append {lines : List Act} (calm : Calm run) (granted : .fenced false ∉ lines) :
    Calm { run with transcript := run.transcript ++ lines } :=
  ⟨List.not_mem_append calm.granted granted, calm.recorded, calm.code, calm.unstarted⟩

theorem Calm.move (calm : Calm run) (stage : Stage) : Calm { run with stage } :=
  ⟨calm.granted, calm.recorded, calm.code, calm.unstarted⟩

theorem reports_skip {holds : Run → Prop} : Reports s holds Step.skip := fun _ still => still

theorem reports_enter (stage : Stage) : Reports s Calm (Session.enter stage) :=
  fun _ calm => calm.move stage

theorem reports_event (kind : EventKind) (recipient : Option RecipientID) (code : Int)
    (text : Bytes) : Reports s Calm (s.event kind recipient code text) := by
  intro run calm
  unfold Session.event
  cases recorded : s.recorder (run.out.events.length + 1) with
  | none =>
    simp only [recorded]
    exact ⟨calm.granted, calm.recorded, calm.code, calm.unstarted⟩
  | some failure =>
    simp only [recorded, calm.unstarted, if_true]
    exact .recorder calm.granted failed_dataStartedAt rfl failed_errorClass

theorem started_event (kind : EventKind) (recipient : Option RecipientID) (code : Int)
    (text : Bytes) : Reports s Started (s.event kind recipient code text) := by
  intro run begun
  unfold Session.event
  cases recorded : s.recorder (run.out.events.length + 1) with
  | none =>
    simp only [recorded]
    exact ⟨begun.granted, begun.started⟩
  | some failure =>
    simp only [recorded, begun.started, if_false]
    exact ⟨begun.granted, begun.started⟩

theorem Calm.exchange {command : Command} {answer : Answer} (calm : Calm run) :
    Calm (Session.exchange command answer run) := by
  cases answer <;> exact calm.append (by simp)

theorem carries_calm (s : Session) (recipients : List Recipient) :
    s.Carries recipients (fun _ => Calm) (Reported s) where
  survives _ :=
    { enter := fun stage calm => calm.move stage
      extend := fun calm inert =>
        calm.append fun fenced => by simpa [Act.inert] using inert _ fenced
      event := reports_event
      fail := fun _ calm => calm.fail }
  settle {count run _ reply} _ _ calm := by
    have asked : Calm (Session.exchange (.rcpt count) (.reply reply)
      { run with stage := .rcptRejected }) := (calm.move _).exchange
    exact ⟨asked.granted, asked.recorded, asked.code, asked.unstarted⟩

theorem reports_anyAccepted : Reports s Calm Session.anyAccepted := by
  intro run calm
  unfold Session.anyAccepted
  by_cases none : run.accepted = 0
  · simp only [none, if_true]
    exact .elsewhere calm.granted fun _ => calm.recorded
  · simpa only [none, if_false] using calm

theorem authorize_reports :
    Triple (fun run => Calm run ∧ run.stage = .databaseError) s.authorize Calm (Reported s) := by
  rintro run ⟨calm, stage⟩
  unfold Session.authorize
  cases answer : s.beforeData with
  | none => exact calm.append (by simp)
  | some failure =>
    have fenceStage : s.fenceStage =
        if failure.cause.suppressed then .suppressionBlocked
        else if failure.cause.expired then .expiryBlocked
        else run.stage := by
      simp only [Session.fenceStage, answer, stage]
    refine .fence failure answer (failed_recorderError.trans calm.recorded)
      (failed_dataStartedAt.trans calm.unstarted) fenceStage.symm ?_ ?_
    · exact failed_errorClass.trans (by rw [fenceStage])
    · rintro cause rfl
      exact (failed_code cause).trans calm.code

theorem startData_reports : Triple Calm s.startData Started (Reported s) := by
  intro run calm
  unfold Session.startData Session.command
  cases outcome : s.data.expect (· = 354) with
  | ok reply =>
    exact started_event _ _ _ _ _ ⟨calm.exchange.granted, Option.some_ne_none _⟩
  | error failure => exact calm.exchange.fail

theorem reports_writeBody : Reports s Started s.writeBody := by
  intro run begun
  have granted : .fenced false ∉ run.transcript ++ [Act.wrote .body] :=
    List.not_mem_append begun.granted (by simp)
  unfold Session.writeBody
  cases s.stream with
  | some cause => exact Started.fail ⟨granted, begun.started⟩
  | none => exact started_event _ _ _ _ _ ⟨granted, begun.started⟩

theorem reports_readFinal : Reports s Started s.readFinal := by
  intro run begun
  unfold Session.readFinal
  cases answer : s.final with
  | broken code cause =>
    exact Started.fail ⟨List.not_mem_append begun.granted List.not_mem_nil, begun.started⟩
  | reply reply =>
    have granted : .fenced false ∉ run.transcript ++ [Act.answered .body reply.code] :=
      List.not_mem_append begun.granted (by simp)
    by_cases accepted : reply.code / 100 = 2
    · simp only [Answer.expect, accepted, decide_true, if_true]
      exact started_event _ _ _ _ _ ⟨granted, begun.started⟩
    · simp only [Answer.expect, accepted, decide_false, Bool.false_eq_true, if_false]
      exact Started.fail ⟨granted, begun.started⟩

theorem reports_quit : Reports s Started s.quit := by
  intro run begun
  have granted : .fenced false ∉ run.transcript ++ [Act.wrote .quit] :=
    List.not_mem_append begun.granted (by simp)
  unfold Session.quit
  cases s.quitWritten with
  | true => exact started_event _ _ _ _ _ ⟨granted, begun.started⟩
  | false => exact ⟨granted, begun.started⟩

theorem transmit_reports : Triple Calm s.transmit Started (Reported s) := by
  refine Triple.andThen reports_anyAccepted ?_
  have entering : Triple Calm (Session.enter .databaseError)
      (fun run => Calm run ∧ run.stage = .databaseError) (Reported s) :=
    fun _ calm => ⟨calm.move _, rfl⟩
  refine Triple.andThen entering ?_
  refine Triple.andThen authorize_reports ?_
  refine Triple.andThen (reports_enter _) ?_
  refine Triple.andThen startData_reports ?_
  refine Triple.andThen reports_writeBody ?_
  refine Triple.andThen reports_readFinal ?_
  exact Triple.andThen reports_quit reports_skip

theorem finalRun_reported (recipients : List Recipient) :
    Reported s (s.finalRun recipients) := by
  have conversed := (carries_calm s recipients).conversation transmit_reports
  refine conversed.ending (fun run begun => ?_) (fun _ reported => reported)
    ⟨List.not_mem_nil, rfl, rfl, rfl⟩
  exact .elsewhere begun.granted fun unstarted => absurd unstarted begun.started

/-- The payload is validated before anything else is done with it. -/
theorem finalRun_payload {recipients : List Recipient} {cause : Fault}
    (secured : s.security ≠ .plain) (envelope : s.envelopeValid = true)
    (addresses : recipients.any Session.invalidAddress = false)
    (refused : s.payload = some cause) :
    s.finalRun recipients =
      s.fail (.fault cause) false { s.initialRun recipients with stage := .invalidEml } := by
  simp [Session.finalRun, Session.conversation, Session.prepare, Session.require, Session.demand,
    Step.ending, Step.sequence, Step.andThen, secured, envelope, addresses, refused]

end Steps

section Class

/-- The error wraps what `classify` takes for a failure of the network. -/
def misleading (cause : Fault) : Bool :=
  cause.dns || cause.refused ||
    cause.reset && !(cause.network && cause.networkTimeout || cause.deadline)

def localStages : List Stage := [.databaseError, .recorderError, .invalidEml]

inductive LocalClass (failure : Failure) (stage : Stage) : ErrorClass → Prop
  | stage : LocalClass failure stage (.stage stage)
  | timeout (cause : Fault) (silent : failure = .fault cause) :
      LocalClass failure stage (.timeout stage)

theorem classify_local {failure : Failure} {stage : Stage} (own : stage ∈ localStages)
    (plain : stage = .recorderError ∨ misleading failure.cause = false) :
    LocalClass failure stage (classify stage failure) := by
  by_cases recorder : stage = .recorderError
  · subst recorder
    exact .stage
  have plain := plain.resolve_left recorder
  simp only [localStages, List.mem_cons, List.not_mem_nil, or_false, recorder, false_or] at own
  cases failure with
  | rejected reply => rcases own with rfl | rfl <;> exact .stage
  | fault cause =>
    simp only [misleading, Failure.cause, Bool.or_eq_false_iff] at plain
    obtain ⟨⟨dns, refused⟩, reset⟩ := plain
    by_cases late : (cause.network && cause.networkTimeout || cause.deadline) = true
    · rcases own with rfl | rfl <;>
        simp only [classify, Failure.cause, dns, refused, late] <;> exact .timeout cause rfl
    · simp only [late, Bool.not_false, Bool.and_true] at reset
      rcases own with rfl | rfl <;>
        simp only [classify, Failure.cause, dns, refused, late, reset] <;> exact .stage

def networkClasses : List ErrorClass := [.stage .dnsError, .connectRefused, .connectionReset]

theorem classify_network {failure : Failure} {stage : Stage} (own : stage ∈ localStages)
    (open_ : stage ≠ .recorderError) (wraps : misleading failure.cause = true) :
    classify stage failure ∈ networkClasses := by
  simp only [localStages, List.mem_cons, List.not_mem_nil, or_false, open_, false_or] at own
  have unprotected : stage ≠ .authError ∧ stage ∉ [Stage.authError, .tlsError, .recorderError] := by
    rcases own with rfl | rfl <;> decide
  simp only [classify, unprotected.1, false_and, if_false, unprotected.2]
  by_cases dns : failure.cause.dns = true
  · simp [dns, networkClasses]
  by_cases refused : failure.cause.refused = true
  · simp [dns, refused, networkClasses]
  · simp only [misleading, dns, refused, Bool.false_or, Bool.and_eq_true, Bool.not_eq_true'] at wraps
    simp [dns, refused, wraps.1, wraps.2, networkClasses]

variable {e : Evidence} {failure : Failure}

theorem timeout_text_plain : ∀ stage ∈ localStages,
    (ErrorClass.timeout stage).text ≠ "AUTH_ERROR" ∧
      (ErrorClass.timeout stage).text ≠ "CONNECTION_RESET" ∧
      (failurePrefixes.any fun head =>
        head.toList.isPrefixOf (ErrorClass.timeout stage).text.toList) = false := by
  decide

theorem providerOutcome_local (own : e.stage ∈ localStages)
    (reported : LocalClass failure e.stage e.errorClass) (unanswered : e.finalResponse = false) :
    providerOutcome e = .ignored := by
  have named : ∀ stage ∈ localStages, (ErrorClass.stage stage).text ∈ ignoredClasses := by decide
  have early : ¬ (e.stage = .dataRejected ∨ e.stage = .finalResponseError) := by
    rintro (late | late) <;> simp [late, localStages] at own
  unfold providerOutcome
  rw [if_neg (by simp [unanswered])]
  generalize e.errorClass = errorClass at reported
  cases reported with
  | stage => rw [if_pos (named _ own)]
  | timeout cause silent =>
    obtain ⟨auth, reset, plain⟩ := timeout_text_plain _ own
    simp [auth, reset, plain, early]

theorem providerOutcome_network (named : e.errorClass ∈ networkClasses)
    (unanswered : e.finalResponse = false) : providerOutcome e = .failure := by
  have counted : ∀ named ∈ networkClasses, named.text ∉ ignoredClasses ∧
      named.text ≠ "AUTH_ERROR" ∧ ((failurePrefixes.any fun head =>
        head.toList.isPrefixOf named.text.toList) = true ∨ named.text = "CONNECTION_RESET") := by
    decide
  obtain ⟨notIgnored, notAuth, begins | reset⟩ := counted _ named
  · simp [providerOutcome, unanswered, notIgnored, notAuth, begins]
  · simp [providerOutcome, unanswered, reset, ignoredClasses]

theorem decide_local [Primitives] (b : Budget) (own : e.stage ∈ localStages)
    (reported : LocalClass failure e.stage e.errorClass)
    (silent : ∀ cause, failure = .fault cause → e.code = 0)
    (status : e.status = .temporary ∨ e.status = .permanent ∧ 500 ≤ e.code)
    (unanswered : e.finalResponse = false) (unstarted : e.bodyStarted = false) :
    (e.decide b).action = .manual ∧ (e.decide b).failoverAllowed = false := by
  have accepted : ¬ (e.status = .accepted ∧ e.final2xx) := by
    rintro ⟨-, final, -⟩
    simp [unanswered] at final
  have certain : ¬ e.Uncertain := by
    rintro (⟨-, ⟨final, -⟩, -⟩ | unknown | ⟨-, started, -⟩)
    · simp [unanswered] at final
    · rcases status with temporary | ⟨permanent, -⟩ <;> simp_all
    · simp [unstarted] at started
  have addressed : ¬ e.rcRejected := by
    rintro ⟨rejected, -⟩
    simp [rejected, localStages] at own
  unfold Evidence.decide
  rw [if_neg accepted, if_neg (by exact certain), if_neg addressed]
  simp only [localStages, List.mem_cons, List.not_mem_nil, or_false] at own
  generalize cls : e.errorClass = errorClass at reported
  cases reported with
  | stage => rcases own with stage | stage | stage <;> simp [stage]
  | timeout cause same =>
    -- Without a reply there is no code, and so neither a 5xx nor a 4xx.
    have code : e.code = 0 := silent cause same
    have temporary : e.status = .temporary := by
      rcases status with temporary | ⟨-, large⟩
      · exact temporary
      · omega
    have untried : e.safeTemporary = false := by
      rcases own with stage | stage | stage <;>
        simp [Evidence.safeTemporary, cls, stage, code, unanswered, transportClass]
    simp [temporary, untried]

end Class

section Outcome

variable (s : Session) (recipients : List Recipient)

/-- The conversation met a failure of this side before DATA, at the stage and
with the cause. -/
inductive LocalFailure : Stage → Fault → Prop
  | fence (failure : Failure) (refused : s.beforeData = some failure)
      (asked : .fenced false ∈ transcript s recipients)
      (other : failure.cause.suppressed = false ∧ failure.cause.expired = false) :
      LocalFailure .databaseError failure.cause
  | recorder (failed : (s.send recipients).recorderError = true)
      (before : (s.send recipients).dataStartedAt = none) (cause : Fault) :
      LocalFailure .recorderError cause
  | payload (cause : Fault) (refused : s.payload = some cause) (secured : s.security ≠ .plain)
      (envelope : s.envelopeValid = true)
      (addresses : recipients.any Session.invalidAddress = false) :
      LocalFailure .invalidEml cause

variable {s recipients} {stage : Stage} {cause : Fault}

/-- A failure of this side ends the conversation at a stage of its own. -/
theorem LocalFailure.reported (met : LocalFailure s recipients stage cause) :
    stage ∈ localStages ∧ (s.finalRun recipients).stage = stage ∧
      (s.finalRun recipients).out.dataStartedAt = none ∧ ∃ failure,
      (s.finalRun recipients).out.errorClass = classify stage failure ∧
      (∀ fault, failure = .fault fault → (s.finalRun recipients).out.code = 0) ∧
      (stage = .recorderError ∨ failure.cause = cause) := by
  cases met with
  | fence failure refused asked other =>
    cases finalRun_reported (s := s) recipients with
    | elsewhere granted => exact absurd asked granted
    | recorder granted => exact absurd asked granted
    | fence failure' same _ unstarted ends errorClass code =>
      obtain rfl : failure = failure' := Option.mem_unique refused same
      have own : s.fenceStage = .databaseError := by
        simp [Session.fenceStage, refused, other.1, other.2]
      rw [own] at ends errorClass
      exact ⟨by decide, ends, unstarted, failure, errorClass, code, .inr rfl⟩
  | recorder failed before =>
    cases finalRun_reported (s := s) recipients with
    | elsewhere _ recorded => exact absurd (failed.symm.trans (recorded before)) (by decide)
    | fence _ _ recorded => exact absurd (failed.symm.trans recorded) (by decide)
    | recorder _ unstarted ends errorClass =>
      exact ⟨by decide, ends, unstarted, .rejected ⟨0, []⟩, errorClass, by simp, .inl rfl⟩
  | payload cause refused secured envelope addresses =>
    rw [finalRun_payload secured envelope addresses refused]
    exact ⟨by decide, rfl, failed_dataStartedAt, .fault cause, failed_errorClass,
      fun _ _ => failed_code cause, .inr rfl⟩

/-- A failure of this side is not counted against the provider, and no recipient
that could still be delivered to is tried again without an operator, just if the
error at the fence or of the payload does not look like one of the network. -/
theorem local_failure_never_blamed [Primitives] (met : LocalFailure s recipients stage cause) :
    (sampleOf (s.send recipients) = .ignored ∧
      ∀ index rc, (s.send recipients).recipients[index]? = some rc →
        (replyTo (.rcpt index) (transcript s recipients) = none ∨
          RcptAccepted s recipients index) →
        ∀ b, ((evidence (s.send recipients) rc).decide b).action = .manual ∧
          ((evidence (s.send recipients) rc).decide b).failoverAllowed = false) ↔
    (stage = .recorderError ∨ misleading cause = false) := by
  obtain ⟨own, ends, unstarted, failure, errorClass, silent, causes⟩ := met.reported
  obtain abandoned | concluded := finalRun_ended s recipients
  swap
  · exact absurd unstarted concluded.started
  have unanswered : (s.send recipients).finalResponseAt.isSome = false := by
    rw [show (s.send recipients).finalResponseAt = none from abandoned.unanswered]
    rfl
  constructor
  · rintro ⟨ignored, -⟩
    by_contra blamed
    obtain ⟨open_, wraps⟩ := not_or.mp blamed
    rw [← causes.resolve_left open_, Bool.not_eq_false] at wraps
    have network := errorClass ▸ classify_network own open_ wraps
    have failed : sampleOf (s.send recipients) = .failure :=
      providerOutcome_network network unanswered
    exact absurd (failed.symm.trans ignored) (by decide)
  · intro plain
    have reported : LocalClass failure stage (s.finalRun recipients).out.errorClass := by
      rw [errorClass]
      rcases causes with recorder | rfl
      · exact classify_local own (.inl recorder)
      · exact classify_local own plain
    rw [← ends] at own reported
    refine ⟨providerOutcome_local own reported unanswered, fun index rc row open_ b => ?_⟩
    cases abandoned.dropped index rc row with
    | rejected code replied rejected =>
      rcases open_ with unasked | ⟨code', accepted, matched⟩
      · exact absurd (replied.symm.trans unasked) (by simp)
      · obtain rfl : code = code' := Option.mem_unique replied accepted
        exact absurd matched rejected.refused
    | inherited stage code status =>
      rw [← stage] at own reported
      refine decide_local b own reported (fun cause same => ?_) ?_ unanswered ?_
      · exact code.trans (silent cause same)
      · exact status.imp_right fun permanent => ⟨permanent.1, permanent.2.1⟩
      · show (s.finalRun recipients).out.dataStartedAt.isSome = false
        rw [unstarted]
        rfl

def fenced (cause : Fault) : Session :=
  { Session.smooth 0 with beforeData := some (.fault cause) }

attribute [local instance] Queue.plain

/-- The database timed out, an event was not recorded, the payload was not canonical. -/
theorem local_failure_never_blamed_of_outages :
    sampleOf ((fenced { deadline := true }).send [⟨1, "a"⟩]) = .ignored ∧
    sampleOf ({ Session.smooth 0 with recorder := fun _ => some (.fault {}) }.send
      [⟨1, "a"⟩]) = .ignored ∧
    sampleOf ({ Session.smooth 0 with payload := some {} }.send [⟨1, "a"⟩]) = .ignored := by
  have asked : .fenced false ∈ transcript (fenced { deadline := true }) [⟨1, "a"⟩] := by
    decide +kernel
  have failed : ({ Session.smooth 0 with recorder := fun _ => some (.fault {}) }.send
      [⟨1, "a"⟩]).recorderError = true := by decide +kernel
  have addresses : List.any [⟨1, "a"⟩] Session.invalidAddress = false := by decide +kernel
  exact ⟨((local_failure_never_blamed (.fence (.fault { deadline := true }) rfl asked
      ⟨rfl, rfl⟩)).mpr (.inr rfl)).1,
    ((local_failure_never_blamed (.recorder failed (by decide +kernel) {})).mpr (.inl rfl)).1,
    ((local_failure_never_blamed (.payload {} rfl (by decide) rfl addresses)).mpr (.inr rfl)).1⟩

/-- A database that refuses the connection is taken for a provider that does:
its sample is a failure and the recipient is sent to again. -/
theorem refused_database_blamed :
    sampleOf ((fenced { refused := true }).send [⟨1, "a"⟩]) = .failure ∧
    ((fenced { refused := true }).send [⟨1, "a"⟩]).recipients.map (fun rc =>
      ((evidence ((fenced { refused := true }).send [⟨1, "a"⟩]) rc).decide
        ⟨1, some 0, 1, (0, 1)⟩).action) = [.retry] := by
  decide +kernel

end Outcome

end RelayTale.Admission
