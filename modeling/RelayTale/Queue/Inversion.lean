import RelayTale.Queue.System

/-!
# What a committed transaction has checked

One lemma for each transaction says under which conditions it commits and which
message it then leaves. Nothing later unfolds a transaction.
-/

namespace RelayTale.Queue

open Guard
open Delivery (Decision)

section Plain

variable {m m' : Message}

theorem fence_eq_ok {job : Job} {live : Option Int} {checked : PUnit} :
    fence job live m = .ok checked ↔
      m.production = true ∧ m.status = .sending ∧ m.lockedBy = some job.token ∧
        live.all (fun clock => m.leaseExpiresAt.any (clock < ·)) = true := by
  simp [fence]

theorem record_ok {job : Job} {event : Smtp.Event} {clock : Int}
    (committed : record job event clock m = .ok m') :
    m.status = .sending ∧ m.lockedBy = some job.token ∧
      m' = m.setAttempt job.attempt (·.recordEvent event) := by
  simp only [record, do_eq_ok, fence_eq_ok, require_eq_ok, pure_eq_ok, exists_const] at committed
  obtain ⟨⟨-, sending, locked, -⟩, -, rfl⟩ := committed
  exact ⟨sending, locked, rfl⟩

theorem recover_ok {i : RecoverInput} (committed : recover i m = .ok m') :
    ∃ a, m.status = .sending ∧ m.leaseExpiresAt.any (· ≤ i.leaseClock) = true ∧
      m.attempts.find? (·.result = .pending) = some a ∧
      m' = recoverAttempt i a.id a.dataArmedAt.isSome m := by
  simp only [recover, do_eq_ok, demand_eq_ok, pure_eq_ok] at committed
  obtain ⟨a, selected, rfl⟩ := committed
  unfold abandoned at selected
  split at selected
  next condition => exact ⟨a, condition.1, condition.2, selected, rfl⟩
  · cases selected

theorem schedule_ok {i : ScheduleInput} (committed : schedule i m = .ok m') :
    m.lockedBy = none ∧ m.archiveAvailable = true ∧
      m.status ∈ [Status.queued, .tempFailed, .partialAccepted] ∧
      (∃ id ∈ m.recipients, (m.row id).elapsed i.now = true) ∧
      m' = { m.applyExpiry i.expiryClock with
        row := fun id => scheduleRow i ((m.applyExpiry i.expiryClock).row id) }.refresh i.now := by
  simp only [schedule, scheduleSelected, schedulable, do_eq_ok, require_eq_ok, pure_eq_ok,
    exists_const, Bool.and_eq_true, decide_eq_true_eq] at committed
  obtain ⟨⟨⟨⟨unlocked, available⟩, status⟩, elapsed⟩, -, rfl⟩ := committed
  exact ⟨unlocked, available, status, List.any_eq_true.mp elapsed, rfl⟩

theorem sweepExpired_ok {selectClock expiryClock now : Int}
    (committed : sweepExpired selectClock expiryClock now m = .ok m') :
    m.lockedBy = none ∧ (∃ id ∈ m.recipients, (m.row id).pending = true) ∧
      m' = (m.applyExpiry expiryClock).refresh now := by
  simp only [sweepExpired, expirable, do_eq_ok, require_eq_ok, pure_eq_ok, exists_const,
    Bool.and_eq_true, decide_eq_true_eq] at committed
  obtain ⟨⟨⟨⟨unlocked, -⟩, -⟩, pending⟩, rfl⟩ := committed
  exact ⟨unlocked, List.any_eq_true.mp pending, rfl⟩

theorem retire_ok (committed : retire m = .ok m') :
    m.lockedBy = none ∧ m' = { m with archiveAvailable := false } := by
  simp only [retire, do_eq_ok, require_eq_ok, pure_eq_ok, exists_const] at committed
  obtain ⟨⟨unlocked, -⟩, rfl⟩ := committed
  exact ⟨unlocked, rfl⟩

theorem cancelPending_ok {identity : IdentityID} {replacing : Bool} {clock : Int}
    (committed : cancelPending identity replacing clock m = .ok m') :
    m' = m ∨ uncancellable m = false ∧
      m' = { m with
        row := fun id => if (m.row id).pending then (m.row id).cancel clock else m.row id
        status := .cancelled, cancelledAt := some clock, completedAt := some clock
        nextAttemptAt := none } := by
  simp only [cancelPending, do_eq_ok, require_eq_ok, exists_const] at committed
  obtain ⟨-, committed⟩ := committed
  split at committed
  · simp only [do_eq_ok, require_eq_ok, pure_eq_ok, exists_const] at committed
    exact .inl committed.2.symm
  · simp only [do_eq_ok, require_eq_ok, pure_eq_ok, exists_const] at committed
    exact .inr ⟨committed.1, committed.2.symm⟩

/-- What `applyExpiry` does to a row. -/
inductive Expires (clock : Int) (r : Recipient) : Recipient → Prop
  | kept : Expires clock r r
  | expired (uncertain : Bool) (pending : r.pending = true) :
      Expires clock r (r.expire clock uncertain)

theorem applyExpiry_row (m : Message) (clock : Int) (id : RecipientID) :
    Expires clock (m.row id) ((m.applyExpiry clock).row id) := by
  simp only [Message.applyExpiry]
  split
  next elapsed => exact .expired _ (Bool.and_eq_true _ _ ▸ elapsed).2
  · exact .kept

/-- What the loop of `Schedule` does to a row. -/
inductive Schedules (i : ScheduleInput) (r : Recipient) : Recipient → Prop
  | kept : Schedules i r r
  | exhausted (elapsed : r.elapsed i.now = true) :
      Schedules i r (r.exhaust .retryBudgetExhausted)
  | promoted (elapsed : r.elapsed i.now = true) (enabled : i.flags.retryEnabled = true)
      (few : r.attemptCount < 7)
      (early : ∀ started, r.retryStartedAt = some started →
        i.workerClock < started + Delivery.window) : Schedules i r r.promote

theorem scheduleRow_schedules (i : ScheduleInput) (r : Recipient) :
    Schedules i r (scheduleRow i r) := by
  unfold scheduleRow
  split
  next elapsed =>
    split
    · exact .exhausted elapsed
    next budget =>
      rw [not_or, Nat.not_le] at budget
      split
      next enabled =>
        refine .promoted elapsed enabled budget.1 fun started since => ?_
        simpa [since] using budget.2
      · exact .kept
  · exact .kept

/-- What `Recover` does to a row before it looks at the message's deadline. -/
inductive Recovers (now : Int) (armed : Bool) (r : Recipient) : Recipient → Prop
  | kept (other : r.status ≠ .sending) : Recovers now armed r r
  | stranded (sending : r.status = .sending) (permitted : armed = true) :
      Recovers now armed r { r with status := .deliveryUnknown }
  | requeued (sending : r.status = .sending) (unpermitted : armed = false)
      (budget : r.spent now = false) : Recovers now armed r { r with status := .queued }
  | exhausted (waiting : r.status = .sending ∨ r.status = .queued) (unpermitted : armed = false)
      (budget : r.spent now = true) :
      Recovers now armed r (r.exhaust .recoveryBudgetExhausted)

/-- The row of an attempt that `Recover` closes. -/
def Attempt.abandoned (armed : Bool) (b : Attempt) : Attempt :=
  let status : Smtp.Status := if armed then .unknown else .temporary
  { b with
    result := .reported status
    row := fun id => { b.row id with status := .reported status } }

theorem recoverAttempt_eq (i : RecoverInput) (attempt : AttemptID) (armed : Bool) (m : Message) :
    ∃ rows : RecipientID → Recipient, ∃ status next completed,
      (∀ id, Recovers i.now armed (m.row id) (rows id)) ∧
      recoverAttempt i attempt armed m =
        ({ m.setAttempt attempt (·.abandoned armed) with
          row := rows, lockedBy := none, leaseExpiresAt := none
          status := status, nextAttemptAt := next
          completedAt := completed }.applyExpiry i.expiryClock).refresh i.now := by
  cases armed with
  | true =>
    refine ⟨fun id => (m.row id).recover true, _, _, _, fun id => ?_, rfl⟩
    by_cases sending : (m.row id).status = .sending
    · simp only [Recipient.recover, sending, if_true]
      exact .stranded sending rfl
    · simp only [Recipient.recover, sending, if_false]
      exact .kept sending
  | false =>
    refine ⟨fun id =>
      let r := (m.row id).recover false
      if r.status = .queued ∧ r.spent i.now then r.exhaust .recoveryBudgetExhausted else r,
      _, _, _, fun id => ?_, rfl⟩
    by_cases sending : (m.row id).status = .sending
    · simp only [Recipient.recover, sending, if_true, true_and, Bool.false_eq_true, if_false]
      split
      next budget => exact .exhausted (.inl sending) rfl budget
      next budget => exact .requeued sending rfl (Bool.not_eq_true _ ▸ budget)
    · simp only [Recipient.recover, sending, if_false]
      split
      next waiting => exact .exhausted (.inr waiting.1) rfl waiting.2
      · exact .kept sending

end Plain

section Policy

variable [Primitives] {entries : List Entry} {m m' : Message}
variable {flags : Flags} {a : Attempt} {out : Smtp.Result} {rc : Smtp.RecipientResult}
variable {r r' : Recipient} {d : Option Decision}

/-- What `suppression.Apply` does to a row. -/
inductive Suppresses (entries : List Entry) (clock : Int) (sending : Bool) (r : Recipient) :
    Recipient → Prop
  | kept : Suppresses entries clock sending r r
  | suppressed (eligible : if sending then r.status = .sending else r.pending = true)
      (listed : active entries clock r.address = true) :
      Suppresses entries clock sending r (r.suppress clock)

theorem suppressHits_row (entries : List Entry) (clock : Int) (sending : Bool) (m : Message)
    (id : RecipientID) :
    Suppresses entries clock sending (m.row id) ((m.suppressHits entries clock sending).row id) := by
  simp only [Message.suppressHits]
  split
  next hit =>
    rw [Message.hit, Bool.and_eq_true] at hit
    refine .suppressed ?_ hit.2
    cases sending <;> simpa using hit.1
  · exact .kept

theorem claim_ok {c : ClaimInput} (committed : claim entries c m = .ok m') :
    m' = claimed c (picks entries c m) m ∧ selectable entries c m = true ∧
      routeAllows c.flags c.routeClock c.provider m = true ∧ picks entries c m ≠ [] ∧
      ∀ a ∈ m.attempts, a.id ≠ c.attempt ∧ a.number ≠ m.attemptCount + 1 ∧
        a.result ≠ .pending := by
  simp only [claim, claimSelected, do_eq_ok, require_eq_ok, pure_eq_ok, exists_const] at committed
  obtain ⟨selected, routed, -, fresh, nonempty, -, rfl⟩ := committed
  exact ⟨rfl, selected, routed, nonempty, fresh⟩

/-- The three ways in which `ArmData` commits. -/
inductive Armed (entries : List Entry) (i : ArmInput) (a : Attempt) (m : Message) :
    Message × Gate → Prop
  | suppressed (hit : m.recipients.any (m.hit entries i.policyClock true) = true) :
      Armed entries i a m
        ((m.suppressHits entries i.policyClock true).setAttempt a.id
          fun a => { a with suppressionBlockedAt := some i.policyClock }, .suppressed)
  | expired (clear : m.recipients.any (m.hit entries i.policyClock true) = false) :
      Armed entries i a m
        (m.setAttempt a.id fun a => { a with expiryBlockedAt := some i.deadlineClock }, .expired)
  | armed (clear : m.recipients.any (m.hit entries i.policyClock true) = false) :
      Armed entries i a m
        (m.setAttempt a.id fun a => { a with dataArmedAt := some i.deadlineClock }, .armed)

theorem armData_ok {job : Job} {i : ArmInput} {answer : Message × Gate}
    (committed : armData entries job i m = .ok answer) :
    ∃ a, m.status = .sending ∧ m.lockedBy = some job.token ∧ m.current job = some a ∧
      a.dataArmedAt = none ∧ a.expiryBlockedAt = none ∧ a.suppressionBlockedAt = none ∧
      Armed entries i a m answer := by
  simp only [armData, do_eq_ok, fence_eq_ok, demand_eq_ok, require_eq_ok, exists_const] at committed
  obtain ⟨⟨-, sending, locked, -⟩, a, current, unarmed, unexpired, unblocked, committed⟩ := committed
  refine ⟨a, sending, locked, current, unarmed, unexpired, unblocked, ?_⟩
  split at committed
  next hit =>
    cases committed
    exact .suppressed hit
  next clear =>
    rw [Bool.not_eq_true] at clear
    split at committed
    · cases committed
      exact .expired clear
    · simp only [do_eq_ok, require_eq_ok, pure_eq_ok, exists_const] at committed
      obtain ⟨-, -, rfl⟩ := committed
      exact .armed clear

theorem sweepSuppressed_ok {selectClock policyClock now : Int}
    (committed : sweepSuppressed entries selectClock policyClock now m = .ok m') :
    m.lockedBy = none ∧ (∃ id ∈ m.recipients, (m.row id).pending = true) ∧
      m' = (m.suppressHits entries policyClock false).refresh now := by
  simp only [sweepSuppressed, suppressible, do_eq_ok, require_eq_ok, pure_eq_ok, exists_const,
    Bool.and_eq_true, decide_eq_true_eq] at committed
  obtain ⟨⟨unlocked, found⟩, rfl⟩ := committed
  obtain ⟨id, member, hit⟩ := List.any_eq_true.mp found
  have pending : (m.row id).pending = true := by
    simp only [Message.hit, Bool.false_eq_true, if_false, Bool.and_eq_true] at hit
    exact hit.1
  exact ⟨unlocked, ⟨id, member, pending⟩, rfl⟩

theorem resolveUnknown_ok {v : Resolution} (committed : resolveUnknown entries v m = .ok m') :
    ∃ a, (v.action = .retry → v.acknowledgeDuplicate = true) ∧ v.recipient ∈ m.recipients ∧
      m.lockedBy = none ∧ Message.latestAttempt m.attempts v.recipient = some a ∧
      (m.row v.recipient).status = .deliveryUnknown ∧
      (a.row v.recipient).status = .reported .unknown ∧ a.id = v.expectedAttempt ∧
      (v.action = .retry → active entries v.policyClock (m.row v.recipient).address = false) ∧
      ∃ resolved : Message, m' = resolved.refresh v.now ∧
        resolved = { m with
          row := fun id =>
            if id = v.recipient then (m.row v.recipient).resolve v.action.status v.now
            else m.row id
          route := if v.action = .retry then some a.provider else m.route } := by
  simp only [resolveUnknown, do_eq_ok, require_eq_ok, demand_eq_ok, pure_eq_ok, exists_const]
    at committed
  obtain ⟨acknowledged, member, unlocked, a, latest, ⟨unknown, reported, expected⟩, -, -, clear, -,
    rfl⟩ := committed
  refine ⟨a, acknowledged, member, unlocked, latest, unknown, reported, expected, clear, _, rfl, ?_⟩
  split <;> rfl

/-- The budget with which `decideRecipient` asks the policy. -/
def decisionBudget (attempt : AttemptID) (out : Smtp.Result) (rc : Smtp.RecipientResult)
    (r : Recipient) (started : Int) : Delivery.Budget where
  attempts := r.attemptCount
  startedAt := some started
  now := out.finishedAt
  seed := (attempt, rc.id)

/-- The ways in which the loop of `Finish` writes a row that is not suppressed. -/
inductive Finished (flags : Flags) (a : Attempt) (out : Smtp.Result) (rc : Smtp.RecipientResult)
    (r : Recipient) : Recipient → Option Decision → Prop
  | resumed {status : Status} {started : Int} (blocked : a.suppressionBlockedAt.isSome = true)
      (refused : rc.status ≠ .accepted ∧ rc.status ≠ .unknown)
      (stage : rc.stage = .suppressionBlocked ∨ rc.stage = .databaseError)
      (reported : Status.ofResult rc.status = some status)
      (since : r.retryStartedAt = some started) :
      Finished flags a out rc r ((r.report status out.finishedAt).resume started out.finishedAt)
        (some ((r.report status out.finishedAt).resumeDecision started out.finishedAt))
  | decided {status : Status} {started : Int}
      (refused : a.suppressionBlockedAt.isSome = true →
        rc.status ≠ .accepted ∧ rc.status ≠ .unknown)
      (stage : a.suppressionBlockedAt.isSome = true →
        ¬ (rc.stage = .suppressionBlocked ∨ rc.stage = .databaseError))
      (reported : Status.ofResult rc.status = some status)
      (since : r.retryStartedAt = some started) :
      Finished flags a out rc r
        ((r.report status out.finishedAt).decided flags
          ((Delivery.evidence out rc).decide (decisionBudget a.id out rc r started))
          out.finishedAt)
        (some ((Delivery.evidence out rc).decide (decisionBudget a.id out rc r started)))

omit [Primitives] in
theorem report_of_not_suppressed {r : Recipient} (other : r.status ≠ .suppressed)
    (status : Status) (finishedAt : Int) :
    r.report status finishedAt =
      { r with
        status
        completedAt :=
          if status = .smtpAccepted ∨ status = .permFailed then some finishedAt else none } := by
  simp [Recipient.report, other]

theorem decideRow_ok {attempt : AttemptID}
    (committed : decideRow flags attempt out rc r = .ok (r', d)) :
    ∃ started, r.retryStartedAt = some started ∧
      r' = r.decided flags ((Delivery.evidence out rc).decide
        (decisionBudget attempt out rc r started)) out.finishedAt ∧
      d = some ((Delivery.evidence out rc).decide (decisionBudget attempt out rc r started)) := by
  simp only [decideRow, do_eq_ok, demand_eq_ok, pure_eq_ok, Prod.mk.injEq] at committed
  obtain ⟨started, since, row, decision⟩ := committed
  exact ⟨started, since, row.symm, decision.symm⟩

theorem finishRow_ok (other : r.status ≠ .suppressed)
    (committed : finishRow flags a out rc r = .ok (r', d)) : Finished flags a out rc r r' d := by
  simp only [finishRow, do_eq_ok, demand_eq_ok, require_eq_ok, exists_const] at committed
  obtain ⟨status, reported, -, committed⟩ := committed
  have stillOther : (r.report status out.finishedAt).status ≠ .suppressed := by
    rw [report_of_not_suppressed other]
    intro suppressed
    simp only at suppressed
    subst suppressed
    revert reported
    cases rc.status <;> simp [Status.ofResult]
  have sameStart : (r.report status out.finishedAt).retryStartedAt = r.retryStartedAt := by
    rw [report_of_not_suppressed other]
  have sameBudget (started : Int) :
      decisionBudget a.id out rc (r.report status out.finishedAt) started =
        decisionBudget a.id out rc r started := by
    rw [report_of_not_suppressed other]
    rfl
  split at committed
  next blocked =>
    simp only [finishSuppressionRow, do_eq_ok, require_eq_ok, demand_eq_ok, exists_const,
      if_neg stillOther] at committed
    obtain ⟨refused, started, since, committed⟩ := committed
    rw [sameStart] at since
    split at committed
    next stage =>
      simp only [pure_eq_ok, Prod.mk.injEq] at committed
      obtain ⟨rfl, rfl⟩ := committed
      exact .resumed blocked refused stage reported since
    next stage =>
      obtain ⟨started', since', rfl, rfl⟩ := decideRow_ok committed
      rw [sameStart] at since'
      rw [sameBudget]
      exact .decided (fun _ => refused) (fun _ => stage) reported since'
  next unblocked =>
    obtain ⟨started, since, rfl, rfl⟩ := decideRow_ok committed
    rw [sameStart] at since
    rw [sameBudget]
    exact .decided (fun blocked => absurd blocked unblocked) (fun blocked => absurd blocked unblocked)
      reported since

theorem finishRow_suppressed (suppressed : r.status = .suppressed)
    (blocked : a.suppressionBlockedAt.isSome = true)
    (committed : finishRow flags a out rc r = .ok (r', d)) : r' = r := by
  have untouched (status : Status) : r.report status out.finishedAt = r := by
    simp [Recipient.report, suppressed]
  simp only [finishRow, do_eq_ok, demand_eq_ok, require_eq_ok, exists_const, if_pos blocked,
    untouched, finishSuppressionRow, if_pos suppressed, pure_eq_ok, Prod.mk.injEq] at committed
  obtain ⟨-, -, -, -, -, -, rfl, -⟩ := committed
  rfl

structure Attempt.Keeps (b b' : Attempt) : Prop where
  key : b'.key = b.key
  claimToken : b'.claimToken = b.claimToken
  dataArmedAt : b'.dataArmedAt = b.dataArmedAt
  suppressionBlockedAt : b'.suppressionBlockedAt = b.suppressionBlockedAt
  expiryBlockedAt : b'.expiryBlockedAt = b.expiryBlockedAt

/-- The message after the loop of `Finish` over these results, with what the
loop has written to the attempt. -/
structure Looped (flags : Flags) (a : Attempt) (out : Smtp.Result)
    (results : List Smtp.RecipientResult) (write : Attempt → Attempt) (m m' : Message) : Prop where
  written : ∀ rc ∈ results, ∃ d, finishRow flags a out rc (m.row rc.id) = .ok (m'.row rc.id, d) ∧
    ∀ b, b.id = a.id → (write b).row rc.id = ⟨.reported rc.status, d⟩
  untouched : ∀ id, id ∉ results.map (·.id) →
    m'.row id = m.row id ∧ ∀ b, (write b).row id = b.row id
  attempts : m'.attempts = m.attempts.map fun b => if b.id = a.id then write b else b
  keeps : ∀ b, b.Keeps (write b) ∧ (write b).result = b.result
  rest : { m' with row := m.row, attempts := m.attempts } = m

theorem finishLoop_ok {results : List Smtp.RecipientResult} {expected : List RecipientID}
    (nodup : expected.Nodup) (committed : finishLoop flags a out results expected m = .ok m') :
    results.map (·.id) ⊆ expected ∧ (results.map (·.id)).Nodup ∧
      ∃ write, Looped flags a out results write m m' := by
  induction results generalizing expected m with
  | nil =>
    simp only [finishLoop, pure_eq_ok] at committed
    subst committed
    refine ⟨by simp, by simp, id, ?_⟩
    exact ⟨by simp, fun _ _ => ⟨rfl, fun _ => rfl⟩, by simp,
      fun _ => ⟨⟨rfl, rfl, rfl, rfl, rfl⟩, rfl⟩, rfl⟩
  | cons rc results ih =>
    simp only [finishLoop, do_eq_ok, require_eq_ok, exists_const] at committed
    obtain ⟨member, ⟨r, d⟩, row, committed⟩ := committed
    obtain ⟨subset, distinct, write, looped⟩ := ih (nodup.erase rc.id) committed
    have later : rc.id ∉ results.map (·.id) := fun repeated =>
      List.Nodup.not_mem_erase nodup (subset repeated)
    refine ⟨?_, ?_, ?_⟩
    · rw [List.map_cons, List.cons_subset]
      exact ⟨member, fun id inside => List.mem_of_mem_erase (subset inside)⟩
    · rw [List.map_cons, List.nodup_cons]
      exact ⟨later, distinct⟩
    let keep (b : Attempt) : Attempt :=
      { b with row := fun id => if id = rc.id then ⟨.reported rc.status, d⟩ else b.row id }
    refine ⟨fun b => write (keep b), ?_⟩
    constructor
    case written =>
      intro other inside
      rcases List.mem_cons.mp inside with rfl | inside
      · obtain ⟨same, kept⟩ := looped.untouched _ later
        refine ⟨d, ?_, fun b _ => ?_⟩
        · rw [same]
          simpa [Message.setRow, Message.setAttempt] using row
        · rw [kept]
          simp [keep]
      · have different : other.id ≠ rc.id := fun same =>
          later (same ▸ List.mem_map_of_mem inside)
        obtain ⟨e, finished, kept⟩ := looped.written other inside
        refine ⟨e, ?_, fun b same => kept (keep b) same⟩
        simpa [Message.setRow, Message.setAttempt, different] using finished
    case untouched =>
      intro id outside
      rw [List.map_cons, List.mem_cons, not_or] at outside
      obtain ⟨same, kept⟩ := looped.untouched id outside.2
      refine ⟨?_, fun b => ?_⟩
      · rw [same]
        simp [Message.setRow, Message.setAttempt, outside.1]
      · rw [kept]
        simp [keep, outside.1]
    case attempts =>
      rw [looped.attempts]
      simp only [Message.setAttempt, List.map_map, Message.setRow]
      apply List.map_congr_left
      intro b _
      by_cases same : b.id = a.id <;> simp [same, keep]
    case keeps =>
      intro b
      obtain ⟨⟨key, token, armed, blocked, expired⟩, result⟩ := looped.keeps (keep b)
      exact ⟨⟨key, token, armed, blocked, expired⟩, result⟩
    case rest =>
      exact congrArg (fun x : Message => { x with row := m.row, attempts := m.attempts }) looped.rest

/-- The columns of an attempt that `Finish` writes from the result itself. -/
def Attempt.settled (out : Smtp.Result) (b : Attempt) : Attempt :=
  { b with
    result := .reported out.status
    dataStartedAt := out.dataStartedAt, finalResponseAt := out.finalResponseAt }

theorem finish_ok {job : Job} {clock now : Int}
    (committed : finish flags job out clock now m = .ok m') :
    ∃ a looped, m.status = .sending ∧ m.lockedBy = some job.token ∧ m.current job = some a ∧
      (a.suppressionBlockedAt = none ∧ a.expiryBlockedAt = none ∨
        out.dataStartedAt = none ∧ out.finalResponseAt = none ∧ out.bytesSent = 0) ∧
      out.recipients.length = a.recipients.length ∧
      finishLoop flags a out out.recipients a.recipients (m.setAttempt a.id (·.settled out)) =
        .ok looped ∧
      m' = (((looped.setAttempt a.id fun b => out.events.foldl (·.recordEvent ·) b).unlock).applyExpiry
        clock).refresh now := by
  simp only [finish, do_eq_ok, fence_eq_ok, demand_eq_ok, require_eq_ok, pure_eq_ok, exists_const]
    at committed
  obtain ⟨⟨-, sending, locked, -⟩, a, current, fenced, complete, looped, loop, rfl⟩ := committed
  exact ⟨a, looped, sending, locked, current, fenced, complete, loop, rfl⟩

end Policy

end RelayTale.Queue
