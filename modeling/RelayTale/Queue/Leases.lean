import RelayTale.Queue.Coherence

/-!
# Leases in all runs

Every action keeps the lease of a message in agreement with its attempts and
recipients, so the agreement holds in every state of every run. A worker whose
lease was taken away can change nothing.
-/

namespace RelayTale.Queue

open Guard

section Preservation

variable {m m' : Message}

/-- The step of an action that keeps the keys: what it leaves is coherent again. -/
structure Kept (m m' : Message) : Prop where
  framed : Framed m m'
  coherent : Coherent m'

theorem Coherent.kept_idle (coherent : Coherent m) (framed : Framed m m') (idle : Idle m') :
    Kept m m' := ⟨framed, coherent.keyed.of_framed framed, .inl idle⟩

theorem Coherent.kept_leased {a : Attempt} {rest : List Attempt} (coherent : Coherent m)
    (framed : Framed m m') (leased : Leased m' a rest) : Kept m m' :=
  ⟨framed, coherent.keyed.of_framed framed, .inr ⟨a, rest, leased⟩⟩

/-- Rewriting rows of an idle message keeps it idle, as long as none starts sending. -/
theorem Coherent.rewrite (coherent : Coherent m) (unlocked : m.lockedBy = none)
    (rows : RecipientID → Recipient) (route : Option ProviderID) (now : Int)
    (keeps : ∀ id, (m.row id).status ≠ .sending → (rows id).status ≠ .sending) :
    Kept m ({ m with row := rows, route }.refresh now) := by
  have idle := coherent.idle unlocked
  refine coherent.kept_idle ⟨rfl, rfl, rfl, rfl⟩
    (idle_refresh idle.unlocked idle.unleased fun id member => ?_)
  exact keeps id (idle.rows id member)

theorem unlocked_of_cancellable (evidence : uncancellable m = false) : m.lockedBy = none := by
  simp only [uncancellable, Bool.or_eq_false_iff, Option.isSome_eq_false_iff,
    Option.isNone_iff_eq_none] at evidence
  exact evidence.1.1.1.1

variable [Primitives]

/-- What the actions on an idle message make of its rows. -/
inductive Rewrites (c : Commit) : (RecipientID → Recipient) → Prop
  | scheduled {i : ScheduleInput} (action : c.action = .schedule i)
      (elapsed : ∃ id ∈ c.before.recipients, (c.before.row id).elapsed i.now = true) :
      Rewrites c fun id => scheduleRow i ((c.before.applyExpiry i.expiryClock).row id)
  | expired {selectClock expiryClock now : Int}
      (action : c.action = .sweepExpired selectClock expiryClock now)
      (pending : ∃ id ∈ c.before.recipients, (c.before.row id).pending = true) :
      Rewrites c (c.before.applyExpiry expiryClock).row
  | suppressed {selectClock policyClock now : Int}
      (action : c.action = .sweepSuppressed selectClock policyClock now)
      (pending : ∃ id ∈ c.before.recipients, (c.before.row id).pending = true) :
      Rewrites c (c.before.suppressHits c.entries policyClock false).row
  | resolved {v : Resolution} (action : c.action = .resolveUnknown v)
      (committed : resolveUnknown c.entries v c.before = .ok c.after) :
      Rewrites c fun id =>
        if id = v.recipient then (c.before.row v.recipient).resolve v.action.status v.now
        else c.before.row id

/-- Which action was committed, with what it has found and left. -/
inductive Performed (c : Commit) : Prop
  | claimed {i : ClaimInput} (action : c.action = .claim i)
      (committed : claim c.entries i c.before = .ok c.after)
      (same : c.after = claimed i (picks c.entries i c.before) c.before)
  | armed {job : Job} {i : ArmInput} {answer : Message × Gate} {a : Attempt} {rest : List Attempt}
      (action : c.action = .armData job i) (leased : Leased c.before a rest)
      (unarmed : a.dataArmedAt = none) (unblocked : a.suppressionBlockedAt = none)
      (armed : Armed c.entries i a c.before answer) (same : answer.1 = c.after)
  | recorded {job : Job} {event : Smtp.Event} {clock : Int} {f : Attempt → Attempt} {a : Attempt}
      {rest : List Attempt} (action : c.action = .record job event clock)
      (leased : Leased c.before a rest) (added : ∀ x, ∃ events, f x = { x with events })
      (same : c.after = { c.before with attempts := c.before.attempts.map f })
  | finished {flags : Flags} {job : Job} {dispatch : Dispatch} {clock now : Int} {a b : Attempt}
      {rest : List Attempt} {rows : RecipientID → Recipient}
      (action : c.action = .finish flags job dispatch clock now)
      (finishing : Finishing flags job (dispatch.result (c.before.envelope job)) clock now c.before
        c.after a b rest rows)
  | recovered {i : RecoverInput} {a : Attempt} {rest : List Attempt} (action : c.action = .recover i)
      (leased : Leased c.before a rest)
      (same : c.after = recoverAttempt i a.id a.dataArmedAt.isSome c.before)
  | rewritten {rows : RecipientID → Recipient} {route : Option ProviderID}
      {now : Int} (rewrites : Rewrites c rows) (unlocked : c.before.lockedBy = none)
      (routed : (∃ v, c.action = .resolveUnknown v) ∨ route = c.before.route)
      (same : c.after = { c.before with row := rows, route }.refresh now)
  | repeated {identity : IdentityID} {replacing : Bool} {clock : Int}
      (action : c.action = .cancelPending identity replacing clock) (same : c.after = c.before)
  | cancelled {identity : IdentityID} {replacing : Bool} {clock : Int}
      (action : c.action = .cancelPending identity replacing clock)
      (evidence : uncancellable c.before = false)
      (same : c.after = { c.before with
        row := fun id =>
          if (c.before.row id).pending then (c.before.row id).cancel clock else c.before.row id
        status := .cancelled, cancelledAt := some clock, completedAt := some clock
        nextAttemptAt := none })
  | retired (action : c.action = .retire) (unlocked : c.before.lockedBy = none)
      (same : c.after = { c.before with
        archiveAvailable := false })

theorem commit_performed (c : Commit) (coherent : Coherent c.before) : Performed c := by
  have performed := c.performed
  cases action : c.action <;> rw [action] at performed
  case claim i => exact .claimed action performed (claim_ok performed).1
  case armData job i =>
    obtain ⟨answer, committed, same⟩ := map_eq_ok.mp performed
    obtain ⟨a, rest, leased, -, unarmed, unblocked, armed⟩ := armData_armed coherent committed
    exact .armed action leased unarmed unblocked armed same
  case record job event clock =>
    obtain ⟨sending, f, added, same⟩ := record_events performed
    obtain ⟨a, rest, leased⟩ := coherent.leased sending
    exact .recorded action leased added same
  case finish flags job dispatch clock now =>
    obtain ⟨a, b, rest, rows, finishing⟩ := finish_finishing coherent performed
    exact .finished action finishing
  case recover i =>
    obtain ⟨a, rest, leased, -, same⟩ := recover_leased coherent performed
    exact .recovered action leased same
  case schedule i =>
    obtain ⟨unlocked, -, -, elapsed, same⟩ := schedule_ok performed
    exact .rewritten (.scheduled action elapsed) unlocked (.inr rfl) same
  case sweepExpired selectClock expiryClock now =>
    obtain ⟨unlocked, pending, same⟩ := sweepExpired_ok performed
    exact .rewritten (.expired action pending) unlocked (.inr rfl) same
  case sweepSuppressed selectClock policyClock now =>
    obtain ⟨unlocked, pending, same⟩ := sweepSuppressed_ok performed
    exact .rewritten (.suppressed action pending) unlocked (.inr rfl) same
  case resolveUnknown v =>
    obtain ⟨a, -, -, unlocked, -, -, -, -, -, resolved, same, shape⟩ := resolveUnknown_ok performed
    exact .rewritten (.resolved action performed) unlocked (.inl ⟨v, action⟩) (shape ▸ same)
  case cancelPending identity replacing clock =>
    rcases cancelPending_ok performed with same | ⟨evidence, same⟩
    · exact .repeated action same
    · exact .cancelled action evidence same
  case retire => exact .retired action (retire_ok performed).1 (retire_ok performed).2

theorem Rewrites.not_sending {c : Commit} {rows : RecipientID → Recipient}
    (rewrites : Rewrites c rows) (id : RecipientID) (other : (c.before.row id).status ≠ .sending) :
    (rows id).status ≠ .sending := by
  cases rewrites with
  | scheduled =>
    exact (scheduleRow_schedules _ _).not_sending ((applyExpiry_row _ _ id).not_sending other)
  | expired => exact (applyExpiry_row _ _ id).not_sending other
  | suppressed => exact (suppressHits_row _ _ false _ id).not_sending other
  | @resolved v =>
    simp only
    split
    · simp only [Recipient.resolve]
      cases v.action <;> simp [ResolveAction.status]
    · exact other

variable (c : Commit) (coherent : Coherent c.before)

include coherent

/-- Every action but a claim keeps the keys, and every action keeps coherence. -/
theorem commit_kept : (∃ i, c.action = .claim i) ∧ Coherent c.after ∨ Kept c.before c.after := by
  cases commit_performed c coherent with
  | @claimed i action committed =>
    obtain ⟨-, keyed, leased⟩ := claim_leases coherent committed
    exact .inl ⟨⟨i, action⟩, keyed, .inr ⟨_, _, leased⟩⟩
  | armed _ leased _ _ armed same =>
    obtain ⟨b, -, -, -, leased', framed⟩ := armed.attempts leased coherent.keyed
    rw [same] at leased' framed
    exact .inr (coherent.kept_leased framed leased')
  | recorded _ leased added same =>
    rw [same]
    refine .inr (coherent.kept_leased ⟨rfl, rfl, rfl, ?_⟩ (leased.record added))
    simp only [List.map_map]
    apply List.map_congr_left
    intro a _
    obtain ⟨events, same⟩ := added a
    simp [same, Attempt.key]
  | finished _ finishing => exact .inr (coherent.kept_idle finishing.framed finishing.idle)
  | recovered _ leased same =>
    rw [same]
    exact .inr (coherent.kept_idle (recoverAttempt_framed _ _ _ c.before)
      (recoverAttempt_idle _ _ _ c.before))
  | rewritten rewrites unlocked _ same =>
    rw [same]
    exact .inr (coherent.rewrite unlocked _ _ _ rewrites.not_sending)
  | repeated _ same =>
    rw [same]
    exact .inr ⟨Framed.refl _, coherent⟩
  | cancelled _ evidence same =>
    have idle := coherent.idle (unlocked_of_cancellable evidence)
    rw [same]
    refine .inr (coherent.kept_idle ⟨rfl, rfl, rfl, rfl⟩
      ⟨idle.unlocked, idle.unleased, by simp, fun id member => ?_⟩)
    simp only
    split
    · simp [Recipient.cancel]
    · exact idle.rows id member
  | retired _ unlocked same =>
    have idle := coherent.idle unlocked
    rw [same]
    exact .inr (coherent.kept_idle ⟨rfl, rfl, rfl, rfl⟩
      ⟨idle.unlocked, idle.unleased, idle.status, idle.rows⟩)

theorem commit_coherent : Coherent c.after := by
  rcases commit_kept c coherent with ⟨-, claimed⟩ | kept
  · exact claimed
  · exact kept.coherent

theorem commit_recipients : c.after.recipients = c.before.recipients := by
  rcases commit_kept c coherent with ⟨⟨i, action⟩, -⟩ | kept
  · have performed := c.performed
    rw [action] at performed
    rw [(claim_ok performed).1]
    rfl
  · exact kept.framed.recipients

theorem commit_production : c.after.production = c.before.production := by
  rcases commit_kept c coherent with ⟨⟨i, action⟩, -⟩ | kept
  · have performed := c.performed
    rw [action] at performed
    rw [(claim_ok performed).1]
    rfl
  · exact kept.framed.production

/-- While a message is leased only its worker and `Recover` change it. -/
theorem leased_commit {a : Attempt} {rest : List Attempt} (leased : Leased c.before a rest) :
    (∃ job i, c.action = .armData job i) ∨ (∃ job event clock, c.action = .record job event clock) ∨
      (∃ flags job dispatch clock now, c.action = .finish flags job dispatch clock now) ∨
      (∃ i, c.action = .recover i) ∨ c.after = c.before := by
  have locked : c.before.lockedBy ≠ none := by simp [leased.locked]
  cases commit_performed c coherent with
  | claimed _ committed => exact absurd (claim_leases coherent committed).1.unlocked locked
  | armed action => exact .inl ⟨_, _, action⟩
  | recorded action => exact .inr (.inl ⟨_, _, _, action⟩)
  | finished action => exact .inr (.inr (.inl ⟨_, _, _, _, _, action⟩))
  | recovered action => exact .inr (.inr (.inr (.inl ⟨_, action⟩)))
  | rewritten _ unlocked => exact absurd unlocked locked
  | repeated _ same => exact .inr (.inr (.inr (.inr same)))
  | cancelled _ evidence => exact absurd (unlocked_of_cancellable evidence) locked
  | retired _ unlocked => exact absurd unlocked locked

end Preservation

section Runs

variable [Primitives] {entries : List Entry} {m : Message} {db : Db} {id : MessageID}

theorem submission_eq {s : Submission} (created : s.enqueue entries = .ok m) :
    s.production = false ∧ m = s.message ∨
    s.production = true ∧
      ((∃ id ∈ m.recipients, (m.row id).status ≠ .suppressed) ∧
          m = s.message.suppressHits entries s.policyClock false ∨
        (∀ id ∈ m.recipients, (m.row id).status = .suppressed) ∧
          m = { s.message.suppressHits entries s.policyClock false with
            status := .suppressed, completedAt := some s.now, nextAttemptAt := none }) := by
  simp only [Submission.enqueue, do_eq_ok, require_eq_ok, exists_const] at created
  obtain ⟨-, -, created⟩ := created
  split at created
  next production =>
    refine .inr ⟨production, ?_⟩
    split at created
    next everyone =>
      obtain rfl := pure_eq_ok.mp created
      exact .inr ⟨by simpa using everyone, rfl⟩
    next someone =>
      obtain rfl := pure_eq_ok.mp created
      exact .inl ⟨by simpa using someone, rfl⟩
  next sandbox =>
    obtain rfl := pure_eq_ok.mp created
    exact .inl ⟨by simpa using sandbox, rfl⟩

theorem enqueue_coherent {s : Submission} (created : s.enqueue entries = .ok m) : Coherent m := by
  have status : s.status ≠ .sending := by
    unfold Submission.status
    split <;> simp
  have keyed (m : Message) (recipients : m.recipients = s.recipients.map Prod.fst)
      (attempts : m.attempts = []) : Keyed m := by
    constructor <;> simp [recipients, attempts, s.distinct]
  have rows (id : RecipientID) :=
    (suppressHits_row entries s.policyClock false s.message id).not_sending status
  rcases submission_eq created with ⟨-, rfl⟩ | ⟨-, ⟨-, rfl⟩ | ⟨-, rfl⟩⟩
  · exact ⟨keyed _ rfl rfl, .inl ⟨rfl, rfl, status, fun _ _ => status⟩⟩
  · exact ⟨keyed _ rfl rfl, .inl ⟨rfl, rfl, status, fun id _ => rows id⟩⟩
  · exact ⟨keyed _ rfl rfl, .inl ⟨rfl, rfl, by simp, fun id _ => rows id⟩⟩

theorem Reachable.coherent (reached : Reachable db) (found : db.messages id = some m) :
    Coherent m :=
  reached.invariant (fun _ _ _ => enqueue_coherent) commit_coherent found

theorem commit_attended (c : Commit) (coherent : Coherent c.before)
    (attended : c.before.Attended) : c.after.Attended := by
  cases commit_performed c coherent with
  | claimed _ _ same =>
    rw [same]
    exact fun _ _ _ => nofun
  | armed _ leased _ _ armed same =>
    obtain ⟨b, -, -, -, leased', -⟩ := armed.attempts leased coherent.keyed
    rw [same] at leased'
    exact fun _ _ _ => by simp [leased'.locked]
  | recorded _ leased _ same =>
    rw [same]
    exact fun _ _ _ => by simp [leased.locked]
  | finished _ finishing =>
    rw [finishing.message]
    intro x member pending
    rcases List.mem_cons.mp member with rfl | older
    · cases finishing.result.symm.trans pending
    · exact absurd pending (finishing.leased.finished x older)
  | @recovered i a rest _ leased same =>
    intro x member pending
    rw [same, recoverAttempt_attempts leased coherent.keyed] at member
    rcases List.mem_cons.mp member with rfl | older
    · cases pending
    · exact absurd pending (leased.finished x older)
  | rewritten _ _ _ same | repeated _ same | cancelled _ _ same | retired _ _ same =>
    rw [same]
    exact attended

theorem Reachable.attended (reached : Reachable db) (found : db.messages id = some m) :
    m.Attended := by
  refine (reached.invariant (P := fun m => Coherent m ∧ m.Attended) ?_ ?_ found).2
  · intro entries s m created
    refine ⟨enqueue_coherent created, fun a member => ?_⟩
    rcases submission_eq created with ⟨-, rfl⟩ | ⟨-, ⟨-, rfl⟩ | ⟨-, rfl⟩⟩ <;> cases member
  · exact fun c ⟨coherent, attended⟩ =>
      ⟨commit_coherent c coherent, commit_attended c coherent attended⟩

/-- The lease column, the status, the attempts and the recipients of a message
tell the same story. -/
structure Agreement (m : Message) : Prop where
  locked : m.lockedBy.isSome = true ↔ m.status = .sending
  single : m.status = .sending ↔ (m.attempts.filter (·.result = .pending)).length = 1
  token : ∀ a ∈ m.attempts, a.result = .pending → m.lockedBy = some a.claimToken
  sending : ∀ id ∈ m.recipients, (m.row id).status = .sending →
    m.lockedBy.isSome = true ∧ ∃ a ∈ m.attempts, a.result = .pending ∧ id ∈ a.recipients
  envelope : ∀ a ∈ m.attempts, a.result = .pending → ∀ id ∈ a.recipients,
    (m.row id).status = .sending ∨
      a.suppressionBlockedAt.isSome = true ∧ (m.row id).status = .suppressed

omit [Primitives] in
theorem Idle.agreement (idle : Idle m) (finished : ∀ a ∈ m.attempts, a.result ≠ .pending) :
    Agreement m where
  locked := by simp [idle.unlocked, idle.status]
  single := by
    have none : m.attempts.filter (·.result = .pending) = [] := by
      simpa [List.filter_eq_nil_iff] using finished
    simp [none, idle.status]
  token a member pending := absurd pending (finished a member)
  sending id member sending := absurd sending (idle.rows id member)
  envelope a member pending := absurd pending (finished a member)

omit [Primitives] in
theorem Leased.agreement {a : Attempt} {rest : List Attempt} (leased : Leased m a rest) :
    Agreement m := by
  have only (b : Attempt) (member : b ∈ m.attempts) (pending : b.result = .pending) : b = a := by
    rw [leased.attempts] at member
    rcases List.mem_cons.mp member with rfl | older
    · rfl
    · exact absurd pending (leased.finished b older)
  have head : a ∈ m.attempts := leased.attempts ▸ List.mem_cons_self
  constructor
  case locked => simp [leased.locked, leased.status]
  case single =>
    have none : rest.filter (·.result = .pending) = [] := by
      simpa [List.filter_eq_nil_iff] using leased.finished
    simp [leased.attempts, leased.status, leased.pending, none]
  case token =>
    intro b member pending
    rw [only b member pending, leased.locked]
  case sending =>
    intro id member sending
    exact ⟨by simp [leased.locked], a, head, leased.pending, leased.sending id member sending⟩
  case envelope =>
    intro b member pending
    rw [only b member pending]
    exact leased.members

def Action.job : Action → Option Job
  | .armData job _ => some job
  | .record job _ _ => some job
  | .finish _ job _ _ _ => some job
  | _ => none

def Action.closes : Action → Bool
  | .finish _ _ _ _ _ => true
  | .recover _ => true
  | _ => false

theorem perform_locked {m m' : Message} {action : Action} {job : Job}
    (named : action.job = some job) (performed : action.perform entries m = .ok m') :
    m.lockedBy = some job.token := by
  cases action with
  | armData other i =>
    obtain rfl := Option.some.inj named
    obtain ⟨answer, committed, -⟩ := map_eq_ok.mp performed
    obtain ⟨a, -, locked, -⟩ := armData_ok committed
    exact locked
  | record other event clock =>
    obtain rfl := Option.some.inj named
    exact (record_ok performed).2.1
  | finish flags other dispatch clock now =>
    obtain rfl := Option.some.inj named
    obtain ⟨a, looped, -, locked, -⟩ := finish_ok performed
    exact locked
  | _ => cases named

/-- A worker without the lease is refused and changes nothing. -/
theorem step_of_stale {action : Action} {job : Job} (found : db.messages id = some m)
    (named : action.job = some job) (stale : m.lockedBy ≠ some job.token) :
    (∃ refusal, db.step (.transact id action) = .error refusal) ∧
      db.after (.transact id action) = db := by
  cases committed : db.step (.transact id action) with
  | error refusal => exact ⟨⟨refusal, rfl⟩, after_of_error committed⟩
  | ok db' =>
    have acts : (Op.transact id action).actionOn id = some action := by simp [Op.actionOn]
    cases step_touched committed id with
    | performed acts' before performed =>
      obtain rfl := Option.mem_unique acts' acts
      obtain rfl := Option.mem_unique before found
      exact absurd (perform_locked named performed) stale
    | created idle | untouched idle => cases idle.symm.trans acts

theorem closes_idle (c : Commit) (coherent : Coherent c.before) (closes : c.action.closes = true) :
    Idle c.after := by
  obtain ⟨entries, m, action, m', performed⟩ := c
  simp only at coherent closes ⊢
  cases action with
  | finish flags job dispatch clock now =>
    obtain ⟨a, b, rest, rows, finishing⟩ := finish_finishing coherent performed
    exact finishing.idle
  | recover i =>
    obtain ⟨a, rest, leased, -, rfl⟩ := recover_leased coherent performed
    exact recoverAttempt_idle i a.id _ m
  | _ => cases closes

/-- In every reached state lease, status, attempts and recipients agree; a
worker whose token is not the lease's is refused and changes nothing; and once
an attempt was finished or recovered no recipient is left sending. -/
theorem lease_safety {db : Db} (reached : Reachable db) {id : MessageID} {m : Message}
    (found : db.messages id = some m) :
    Agreement m ∧
    (∀ action job, Action.job action = some job → m.lockedBy ≠ some job.token →
      (∃ refusal, db.step (.transact id action) = .error refusal) ∧
        db.after (.transact id action) = db) ∧
    ∀ op action db' m', Op.actionOn id op = some action → action.closes = true →
      db.step op = .ok db' → db'.messages id = some m' →
      ∀ r ∈ m'.recipients, (m'.row r).status ≠ .sending := by
  have coherent := reached.coherent found
  refine ⟨?_, fun action job named => step_of_stale found named, ?_⟩
  · rcases coherent.mode with idle | ⟨a, rest, leased⟩
    · exact idle.agreement fun a member pending => reached.attended found a member pending idle.unlocked
    · exact leased.agreement
  · intro op action db' m' acts closes committed found'
    cases step_touched committed id with
    | performed acts' before performed after =>
      obtain rfl := Option.mem_unique acts' acts
      obtain rfl := Option.mem_unique before found
      obtain rfl := Option.mem_unique after found'
      exact (closes_idle ⟨_, _, _, _, performed⟩ coherent closes).rows
    | created idle | untouched idle => cases idle.symm.trans acts

end Runs

section Witness

/-- Addresses that are already lower-case and retries without jitter. -/
@[reducible] def plain : Primitives := ⟨id, fun _ => 0⟩

attribute [local instance] plain

def letter : Submission where
  production := true
  apiKey := some 1
  recipients := [(1, "a@example.test"), (2, "b@example.test")]
  scheduleAt := none
  expiresAt := none
  queuedAt := 0
  policyClock := 0
  now := 0
  nonempty := by decide
  distinct := by decide

def claimAt (provider : ProviderID) (attempt : AttemptID) (token : Token) (now : Int) :
    ClaimInput where
  flags := ⟨true, true⟩
  provider := provider
  token := token
  attempt := attempt
  allowance := 16
  timeoutSeconds := 60
  now := now
  selectClock := now
  openClock := now
  pathClock := now
  routeClock := now
  startClock := now
  pickClock := now

def recoverAt (now : Int) : RecoverInput := ⟨now, now, now, now⟩

def leasedLetter : Db :=
  Db.empty.run [.enqueue 0 letter, .transact 0 (.claim (claimAt 1 10 7 1))]

def unresolved (now : Int) : Smtp.Session :=
  { Smtp.Session.smooth now with dns := some { dns := true } }

/-- The first attempt fails temporarily and its retry comes due. -/
def rescheduledRun : List Op :=
  [.enqueue 0 letter, .transact 0 (.claim (claimAt 1 10 7 1)),
    .transact 0 (.finish ⟨true, true⟩ ⟨10, 7⟩ (.sent (unresolved 2)) 2 2),
    .batch [0] (.schedule ⟨⟨true, true⟩, 2 * minute, 2 * minute, 2 * minute⟩)]

def permission : ArmInput := ⟨2, 2, 2, 2⟩

/-- A conversation up to the reply to the body, whose second recipient gets the
given reply. -/
def answeredSession (second final : Smtp.Answer) (now : Int) : Smtp.Session :=
  { Smtp.Session.smooth now with
    rcpt := fun index => if index = 0 then .reply ⟨250, []⟩ else second
    final := final }

def sentRun (session : Smtp.Session) : List Op :=
  [.enqueue 0 letter, .transact 0 (.claim (claimAt 1 10 7 1)),
    .transact 0 (.armData ⟨10, 7⟩ permission),
    .transact 0 (.finish ⟨true, true⟩ ⟨10, 7⟩ (.sent session) 3 3)]

def strayEvent : Smtp.Event := ⟨1, .tcpConnected, none, 0, []⟩

theorem lease_safety_of_leasedLetter :
    ∃ m, leasedLetter.messages 0 = some m ∧ m.lockedBy = some 7 ∧ Agreement m ∧
      leasedLetter.after (.transact 0 (.record ⟨10, 8⟩ strayEvent 2)) = leasedLetter := by
  obtain ⟨agreement, stale, -⟩ := @lease_safety plain leasedLetter ⟨_, rfl⟩ 0 _ rfl
  exact ⟨_, rfl, rfl, agreement, (stale _ ⟨10, 8⟩ rfl (by decide)).2⟩

end Witness

end RelayTale.Queue
