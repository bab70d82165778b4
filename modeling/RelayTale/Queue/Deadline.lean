import RelayTale.Queue.Disclosure

/-!
# Schedule and deadline

The schedule and the deadline of a message are read again by every statement
that opens a gate. A permission lies between them. An attempt that the fence
has stopped at the deadline leaves no recipient open, since whoever closes it
reads the clock later.
-/

namespace RelayTale.Queue

open Guard

section Clock

variable [Primitives]

/-- The readings of the database clock that an action takes while it holds the
message, in their order. -/
def Action.readings : Action → List Int
  | .claim i => [i.routeClock, i.startClock, i.pickClock]
  | .armData _ i => [i.policyClock, i.deadlineClock, i.triggerClock]
  | .record _ _ clock => [clock]
  | .finish _ _ _ clock _ => [clock]
  | .recover i => [i.expiryClock]
  | .schedule i => [i.expiryClock]
  | .sweepExpired _ expiryClock _ => [expiryClock]
  | .sweepSuppressed _ policyClock _ => [policyClock]
  | .resolveUnknown v => [v.expiryClock, v.policyClock, v.updateClock]
  | .cancelPending _ _ clock => [clock]
  | .retire => []

/-- The clock never went back while the commits took their readings. -/
def Timely (commits : List Commit) : Prop :=
  (commits.flatMap (·.action.readings)).Pairwise (· ≤ ·)

instance (commits : List Commit) : Decidable (Timely commits) :=
  inferInstanceAs (Decidable (List.Pairwise _ _))

theorem Timely.tail {c : Commit} {rest : List Commit} (timely : Timely (c :: rest)) :
    Timely rest := by
  rw [Timely, List.flatMap_cons, List.pairwise_append] at timely
  exact timely.2.1

theorem Timely.later {c d : Commit} {rest : List Commit} (timely : Timely (c :: rest))
    (member : d ∈ rest) {first second : Int} (early : first ∈ c.action.readings)
    (late : second ∈ d.action.readings) : first ≤ second := by
  rw [Timely, List.flatMap_cons, List.pairwise_append] at timely
  exact timely.2.2 first early second (List.mem_flatMap.mpr ⟨d, member, late⟩)

omit [Primitives] in
theorem expiryClock_mem_readings {action : Action} {clock : Int}
    (reading : action.expiryClock = some clock) : clock ∈ action.readings := by
  cases action with
  | finish | recover | schedule | sweepExpired =>
    obtain rfl := Option.some.inj reading
    simp [Action.readings]
  | _ => cases reading

end Clock

section Frame

variable [Primitives]

/-- No action writes the schedule or the deadline. -/
theorem commit_dates (c : Commit) (coherent : Coherent c.before) :
    c.after.scheduleAt = c.before.scheduleAt ∧ c.after.expiresAt = c.before.expiresAt := by
  have same := (commit_fixed c coherent).1
  exact ⟨congrArg (·.2.2.1) same, congrArg (·.2.2.2) same⟩

end Frame

section Gates

variable {m : Message} {clock : Int}

def Message.Open (m : Message) (clock : Int) : Prop :=
  (∀ earliest, m.scheduleAt = some earliest → earliest ≤ clock) ∧
    ∀ deadline, m.expiresAt = some deadline → clock < deadline

def Message.Overdue (m : Message) (clock : Int) : Prop :=
  ∃ deadline, m.expiresAt = some deadline ∧ deadline ≤ clock

theorem overdue_iff : m.Overdue clock ↔ m.expiresAt.any (· ≤ clock) = true := by
  cases deadline : m.expiresAt <;> simp [Message.Overdue, deadline]

theorem open_iff :
    m.Open clock ↔ m.scheduleAt.all (· ≤ clock) = true ∧ m.expiresAt.all (clock < ·) = true := by
  cases earliest : m.scheduleAt <;> cases deadline : m.expiresAt <;>
    simp [Message.Open, earliest, deadline]

structure Attempt.Punctual (m : Message) (a : Attempt) : Prop where
  armed : ∀ clock, a.dataArmedAt = some clock → m.Open clock
  blocked : ∀ clock, a.expiryBlockedAt = some clock → m.Overdue clock

variable [Primitives] {c : Commit}

theorem Rewritten.punctual {a b : Attempt} (rewritten : Rewritten c a b)
    (punctual : a.Punctual c.before) : b.Punctual c.before := by
  obtain ⟨armed, blocked⟩ := punctual
  cases rewritten with
  | suppressed | recorded | abandoned => exact ⟨armed, blocked⟩
  | expired _ _ _ elapsed =>
    refine ⟨armed, fun clock stopped => ?_⟩
    obtain rfl := Option.some.inj stopped
    exact overdue_iff.mpr elapsed
  | armed _ _ _ early due =>
    refine ⟨fun clock permitted => ?_, blocked⟩
    obtain rfl := Option.some.inj permitted
    exact open_iff.mpr ⟨due, early⟩
  | finished _ keeps =>
    exact ⟨fun clock permitted => armed clock (keeps.dataArmedAt ▸ permitted),
      fun clock stopped => blocked clock (keeps.expiryBlockedAt ▸ stopped)⟩

theorem commit_punctual (coherent : Coherent c.before)
    (punctual : ∀ a ∈ c.before.attempts, a.Punctual c.before) :
    ∀ a ∈ c.after.attempts, a.Punctual c.after := by
  have kept : ∀ a ∈ c.after.attempts, a.Punctual c.before :=
    (commit_sequel c coherent).keeps (fun _ => ⟨nofun, nofun⟩)
      (fun _ _ punctual => ⟨punctual.armed, punctual.blocked⟩)
      (fun _ _ _ _ rewritten => rewritten.punctual) punctual
  obtain ⟨schedule, deadline⟩ := commit_dates c coherent
  intro a member
  obtain ⟨armed, blocked⟩ := kept a member
  refine ⟨fun clock permitted => ?_, fun clock stopped => ?_⟩
  · rw [Message.Open, schedule, deadline]
    exact armed clock permitted
  · rw [Message.Overdue, deadline]
    exact blocked clock stopped

omit [Primitives] in
theorem applyExpiry_overdue (overdue : m.expiresAt.any (· ≤ clock) = true) (id : RecipientID) :
    ((m.applyExpiry clock).row id).pending = false := by
  simp only [Message.applyExpiry, overdue, Bool.true_and]
  split
  · rfl
  next done => simpa using done

/-- Whoever closes an attempt after the deadline leaves no recipient pending. -/
theorem closes_overdue (coherent : Coherent c.before) (closes : c.action.closes = true)
    (reading : c.action.expiryClock = some clock) (overdue : c.before.Overdue clock)
    (id : RecipientID) : (c.after.row id).pending = false := by
  rw [overdue_iff] at overdue
  have performed := c.performed
  cases action : c.action with
  | finish flags job dispatch at_ now =>
    rw [action] at performed reading
    obtain rfl := Option.some.inj reading
    obtain ⟨a, b, rest, rows, finishing⟩ := finish_finishing coherent performed
    rw [finishing.message, Message.refresh_row]
    refine applyExpiry_overdue ?_ id
    exact overdue
  | recover i =>
    rw [action] at performed reading
    obtain rfl := Option.some.inj reading
    obtain ⟨a, -, -, -, same⟩ := recover_ok performed
    obtain ⟨rows, status, next, completed, -, shape⟩ :=
      recoverAttempt_eq i a.id a.dataArmedAt.isSome c.before
    rw [same, shape, Message.refresh_row]
    refine applyExpiry_overdue ?_ id
    exact overdue
  | _ => simp [action, Action.closes] at closes

end Gates

section Runs

variable [Primitives]

/-- Every answer of the fence was given before the readings of these commits. -/
def Elder (m : Message) (commits : List Commit) : Prop :=
  ∀ a ∈ m.attempts, ∀ clock, a.expiryBlockedAt = some clock →
    ∀ c ∈ commits, ∀ reading ∈ c.action.readings, clock ≤ reading

theorem Elder.step {c : Commit} {rest : List Commit} (coherent : Coherent c.before)
    (timely : Timely (c :: rest)) (elder : Elder c.before (c :: rest)) : Elder c.after rest := by
  refine (commit_sequel c coherent).keeps
    (P := fun a => ∀ clock, a.expiryBlockedAt = some clock →
      ∀ c ∈ rest, ∀ reading ∈ c.action.readings, clock ≤ reading)
    (fun _ => nofun) (fun _ _ kept => kept) (fun a b _ _ rewritten kept => ?_)
    fun a member clock stopped d later => elder a member clock stopped d (List.mem_cons_of_mem c later)
  cases rewritten with
  | suppressed | armed | recorded | abandoned => exact kept
  | @expired job i action =>
    intro clock stopped d later reading late
    obtain rfl := Option.some.inj stopped
    exact timely.later later (by simp [action, Action.readings]) late
  | finished _ keeps => exact keeps.expiryBlockedAt ▸ kept

structure Dated (m : Message) (commits : List Commit) : Prop where
  valid : Valid m
  punctual : ∀ a ∈ m.attempts, a.Punctual m
  elder : Elder m commits

theorem Follows.dated {m m' : Message} {commits : List Commit} (follows : Follows m commits m')
    (timely : Timely commits) (dated : Dated m commits) :
    (∀ c ∈ commits, Dated c.before [c]) ∧ Dated m' [] := by
  induction follows with
  | nil => exact ⟨by simp, dated⟩
  | cons c _ ih =>
    obtain ⟨valid, punctual, elder⟩ := dated
    obtain ⟨later, last⟩ := ih timely.tail ⟨commit_valid c valid,
      commit_punctual valid.coherent punctual, elder.step valid.coherent timely⟩
    refine ⟨fun d member => ?_, last⟩
    rcases List.mem_cons.mp member with rfl | member
    · refine ⟨valid, punctual, fun a inside clock stopped e only => ?_⟩
      obtain rfl := List.mem_singleton.mp only
      exact elder a inside clock stopped e List.mem_cons_self
    · exact later d member

/-- An attempt that was stopped at the deadline leaves no recipient open. -/
theorem Dated.closed {c : Commit} (dated : Dated c.before [c]) (closes : c.action.closes = true)
    {a : Attempt} (member : a ∈ c.before.attempts) (stopped : a.expiryBlockedAt.isSome = true)
    {id : RecipientID} (inside : id ∈ a.recipients) :
    (c.after.row id).status ∉ [Status.queued, .sending, .tempFailed] := by
  obtain ⟨valid, punctual, elder⟩ := dated
  obtain ⟨clock, stopped⟩ := Option.isSome_iff_exists.mp stopped
  obtain ⟨deadline, expires, elapsed⟩ := (punctual a member).blocked clock stopped
  obtain ⟨reading, read⟩ : ∃ reading, c.action.expiryClock = some reading := by
    cases action : c.action <;> simp [action, Action.closes] at closes <;> exact ⟨_, rfl⟩
  have later : clock ≤ reading := elder a member clock stopped c List.mem_cons_self reading
    (expiryClock_mem_readings read)
  have idle := closes_idle c valid.coherent closes
  have known : id ∈ c.after.recipients := by
    rw [commit_recipients c valid.coherent]
    exact (valid.coherent.keyed.envelopes a member).2 inside
  have settled := closes_overdue valid.coherent closes read ⟨deadline, expires, by omega⟩ id
  have unsent := idle.rows id known
  simp only [Recipient.pending, Bool.or_eq_false_iff, decide_eq_false_iff_not] at settled
  simp [settled.1, settled.2, unsent]

theorem expired_overdue {c : Commit} (valid : Valid c.before) {id : RecipientID}
    (expired : (c.after.row id).status = .expired)
    (before : (c.before.row id).status ≠ .expired) :
    ∃ clock, c.action.expiryClock = some clock ∧ c.before.Overdue clock := by
  have ended : (c.after.row id).status ∈ policyStatuses := by simp [expired, policyStatuses]
  cases commit_ends_by_policy c valid ended with
  | kept same => exact absurd (same ▸ expired) before
  | suppressed _ row | cancelled _ _ row =>
    rw [row] at expired
    cases expired
  | expired reading elapsed => exact ⟨_, reading, overdue_iff.mpr elapsed⟩

/-- Where the clock does not go back, every permission lies between schedule and
deadline and excludes a block, no claim starts outside them, a recipient expires
only once the deadline has come, and an attempt that was stopped at the deadline
leaves no recipient queued, sending or temporarily failed. -/
theorem deadline_gates {ops : List Op} {message : MessageID} {m : Message}
    (found : (Db.empty.run ops).messages message = some m)
    (timely : Timely (Db.empty.history message ops)) :
    (∀ a ∈ m.attempts, (∀ clock, a.dataArmedAt = some clock → m.Open clock) ∧
      (a.dataArmedAt = none ∨ a.suppressionBlockedAt = none ∧ a.expiryBlockedAt = none)) ∧
    ∀ c ∈ Db.empty.history message ops,
      (∀ i, c.action = .claim i → c.before.Open i.startClock) ∧
      (∀ id, (c.after.row id).status = .expired → (c.before.row id).status ≠ .expired →
        ∃ clock, c.action.expiryClock = some clock ∧ c.before.Overdue clock) ∧
      ∀ a ∈ c.before.attempts, a.result = .pending → a.expiryBlockedAt.isSome = true →
        c.action.closes = true → ∀ id ∈ a.recipients,
          (c.after.row id).status ∉ [Status.queued, .sending, .tempFailed] := by
  have reached : Reachable (Db.empty.run ops) := ⟨ops, rfl⟩
  obtain ⟨entries, s, fresh, created, follows⟩ := run_created ops rfl found
  obtain ⟨unattempted, -, -⟩ := enqueue_fresh created
  have initial : Dated fresh (Db.empty.history message ops) :=
    ⟨enqueue_valid created, by simp [unattempted], by simp [Elder, unattempted]⟩
  obtain ⟨commits, last⟩ := follows.dated timely initial
  refine ⟨fun a member => ⟨(last.punctual a member).armed, (reached.plain found a member).fenced⟩,
    fun c member => ⟨fun i action => ?_, fun id => expired_overdue (commits c member).valid,
      fun a inside _ stopped closes id => (commits c member).closed closes inside stopped⟩⟩
  have performed := c.performed
  rw [action] at performed
  simp only [Action.perform, claim, claimSelected, do_eq_ok, require_eq_ok, exists_const]
    at performed
  have due := performed.2.2.1
  rw [Message.due, Bool.and_eq_true] at due
  exact open_iff.mpr due

end Runs

section Witness

attribute [local instance] plain

/-- The deadline comes between the claim and the fence, and the worker is lost. -/
def overtakenRun : List Op :=
  [.enqueue 0 datedLetter, .transact 0 (.claim (claimAt 1 10 7 (9 * minute))),
    .transact 0 (.armData ⟨10, 7⟩ ⟨10 * minute, 10 * minute, 10 * minute, 10 * minute⟩),
    .batch [0] (.recover (recoverAt (12 * minute)))]

theorem deadline_gates_of_overtakenRun :
    ∃ m c, (Db.empty.run overtakenRun).messages 0 = some m ∧ (m.row 1).status = .expired ∧
      (∀ a ∈ m.attempts, a.expiryBlockedAt = some (10 * minute) ∧ a.dataArmedAt = none) ∧
      c ∈ Db.empty.history 0 overtakenRun ∧ c.action = .recover (recoverAt (12 * minute)) ∧
      ∀ a ∈ c.before.attempts, ∀ id ∈ a.recipients,
        (c.after.row id).status ∉ [Status.queued, .sending, .tempFailed] := by
  obtain ⟨fences, commits⟩ :=
    @deadline_gates plain overtakenRun 0 _ rfl (by decide)
  have last := commits _ (.tail _ (.tail _ (.head _)))
  refine ⟨_, _, rfl, rfl, fun a member => ?_, .tail _ (.tail _ (.head _)), rfl, fun a member => ?_⟩
  · obtain rfl := List.mem_singleton.mp member
    exact ⟨rfl, rfl⟩
  · obtain rfl := List.mem_singleton.mp member
    exact last.2.2 _ member rfl rfl rfl

end Witness

end RelayTale.Queue
