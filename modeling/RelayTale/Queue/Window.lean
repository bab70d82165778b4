import RelayTale.Queue.Budget

/-!
# The retry window

`Claim` looks at the window of a recipient only where its retry is automatic.
A first attempt that is abandoned before DATA puts its recipients back into the
queue without that mark, so they can be claimed at any later time. Where no
unmarked recipient comes back that way, the window is respected.
-/

namespace RelayTale.Queue

open Guard
open Relation (ReflTransGen)

section Model

variable [Primitives]

section Histories

def Commit.takes (id : RecipientID) (c : Commit) : Bool :=
  match c.action with
  | .claim i => decide (id ∈ picks c.entries i c.before)
  | _ => false

/-- After these commits a retry granted by an operator has not been claimed yet. -/
def outstanding (id : RecipientID) : List Commit → Bool → Bool
  | [], granted => granted
  | c :: rest, granted =>
      outstanding id rest (if c.retries id then true else if c.takes id then false else granted)

/-- Every claim of the recipient, except its first one and the first one after an
operator's retry, finds it within the window. -/
def Windowed (id : RecipientID) (history : List Commit) : Prop :=
  ∀ earlier c later i, history = earlier ++ c :: later → c.action = .claim i →
    c.takes id = true → earlier.any (·.takes id) = true → outstanding id earlier false = false →
    ∃ started, (c.before.row id).retryStartedAt = some started ∧
      i.pickClock < started + Delivery.window

/-- The commit does not put the recipient back into the queue unmarked: where it
closes the attempt before DATA, the recipient is in an automatic retry. -/
def Commit.spares (id : RecipientID) (c : Commit) : Bool :=
  c.before.attempts.all fun a =>
    !(decide (a.result = .pending) && decide (id ∈ a.recipients) &&
        decide ((c.before.row id).status = .sending) &&
        match c.action with
        | .recover _ => a.dataArmedAt.isNone
        | .finish _ _ _ _ _ => a.suppressionBlockedAt.isSome
        | _ => false) ||
      (c.before.row id).retryAutomatic

end Histories

section Changes

variable {c : Commit} {id : RecipientID} {r r' : Recipient} {granted : Bool}

/-- A recipient that waits in the queue again is marked, or an operator has put
it there. -/
def Recipient.Marked (granted : Bool) (r : Recipient) : Prop :=
  r.status = .queued → 0 < r.attemptCount → granted = true ∨ r.retryAutomatic = true

theorem spares_leased {a : Attempt} {rest : List Attempt} (spares : c.spares id = true)
    (leased : Leased c.before a rest) (member : id ∈ a.recipients)
    (sending : (c.before.row id).status = .sending)
    (closes : (∃ i, c.action = .recover i) ∧ a.dataArmedAt = none ∨
      (∃ flags job dispatch clock now, c.action = .finish flags job dispatch clock now) ∧
        a.suppressionBlockedAt.isSome = true) : (c.before.row id).retryAutomatic = true := by
  have here := List.all_eq_true.mp spares a (leased.attempts ▸ List.mem_cons_self)
  rcases closes with ⟨⟨i, action⟩, unarmed⟩ | ⟨⟨flags, job, dispatch, clock, now, action⟩, blocked⟩
  · simpa [leased.pending, member, sending, action, unarmed] using here
  · simpa [leased.pending, member, sending, action, blocked] using here

theorem Change.marked (change : Change c id r r') (known : id ∈ c.before.recipients)
    (spares : c.spares id = true) (plainly : c.retries id = false) (marked : r.Marked granted) :
    r'.Marked granted := by
  cases change with
  | claimed | suppressed | expired | exhausted | stranded | cancelled => exact nofun
  | promoted => exact fun _ _ => .inr rfl
  | finished action leased attempt member sending _ _ finished =>
    intro queued _
    obtain ⟨blocked, -, same⟩ := finished.queued sending queued
    rw [same]
    exact .inr (spares_leased spares leased member sending
      (.inr ⟨⟨_, _, _, _, _, action⟩, blocked⟩))
  | requeued action leased sending unpermitted =>
    intro _ _
    exact .inr (spares_leased spares leased (leased.sending id known sending) sending
      (.inl ⟨⟨_, action⟩, unpermitted⟩))
  | @resolved v _ action named =>
    intro queued _
    simp only [Commit.retries, action, named, decide_true, Bool.true_and,
      decide_eq_false_iff_not] at plainly
    cases chosen : v.action <;> simp [Recipient.resolve, chosen, ResolveAction.status] at queued
    exact absurd chosen plainly

theorem takes_iff : c.takes id = true ↔
    ∃ i, c.action = .claim i ∧ id ∈ picks c.entries i c.before := by
  unfold Commit.takes
  cases c.action <;> simp

theorem taken_row (takes : c.takes id = true) :
    ∃ now, c.after.row id = (c.before.row id).claim now := by
  obtain ⟨i, action, picked⟩ := takes_iff.mp takes
  have performed := c.performed
  rw [action] at performed
  rw [(claim_ok performed).1]
  exact ⟨i.now, by simp [claimed, picked]⟩

theorem commit_marked (valid : Valid c.before) (known : id ∈ c.before.recipients)
    (spares : c.spares id = true) (marked : (c.before.row id).Marked granted) :
    (c.after.row id).Marked
      (if c.retries id then true else if c.takes id then false else granted) := by
  by_cases retried : c.retries id = true
  · rw [if_pos retried]
    exact fun _ _ => .inl rfl
  rw [if_neg retried]
  split
  next takes =>
    obtain ⟨now, same⟩ := taken_row takes
    rw [same]
    exact nofun
  · have plainly : c.retries id = false := by simpa using retried
    exact changes_keep (fun _ _ change => change.marked known spares plainly) (valid.changes id)
      marked

theorem Change.count_le (change : Change c id r r') : r.attemptCount ≤ r'.attemptCount := by
  cases change with
  | claimed => exact Nat.le_succ _
  | finished _ _ _ _ sending _ _ finished => exact (finished.fixed sending).2.1.ge
  | suppressed | expired | exhausted | promoted | stranded | requeued | resolved | cancelled =>
    exact le_rfl

theorem commit_count_le (valid : Valid c.before) :
    (c.before.row id).attemptCount ≤ (c.after.row id).attemptCount :=
  changes_keep (P := fun r => (c.before.row id).attemptCount ≤ r.attemptCount)
    (fun _ _ change le => le.trans change.count_le) (valid.changes id) le_rfl

theorem takes_windowed {i : ClaimInput} (action : c.action = .claim i) (takes : c.takes id = true)
    (marked : (c.before.row id).Marked false) (attempted : 0 < (c.before.row id).attemptCount) :
    ∃ started, (c.before.row id).retryStartedAt = some started ∧
      i.pickClock < started + Delivery.window := by
  obtain ⟨j, same, picked⟩ := takes_iff.mp takes
  obtain rfl := Action.claim.inj (action.symm.trans same)
  have claimable := (picks_claimable picked).2
  simp only [Recipient.claimable, Bool.and_eq_true, decide_eq_true_eq] at claimable
  obtain ⟨⟨queued, budget⟩, -⟩ := claimable
  have automatic : (c.before.row id).retryAutomatic = true :=
    (marked queued attempted).resolve_left (by rintro ⟨⟩)
  simp only [automatic, Bool.not_true, Bool.false_or, Bool.and_eq_true, Recipient.withinBudget]
    at budget
  obtain ⟨started, since, early⟩ := (Option.any_eq_true _ _).mp budget.2.2
  exact ⟨started, since, by simpa using Int.lt_add_of_sub_right_lt (of_decide_eq_true early)⟩

end Changes

section Runs

variable {m m' : Message} {commits : List Commit} {id : RecipientID}

theorem Follows.windowed (follows : Follows m commits m') (valid : Valid m)
    (known : id ∈ m.recipients) (spared : ∀ c ∈ commits, c.spares id = true) (granted taken : Bool)
    (marked : (m.row id).Marked granted)
    (attempted : taken = true → 0 < (m.row id).attemptCount) :
    ∀ earlier c later i, commits = earlier ++ c :: later → c.action = .claim i →
      c.takes id = true → (taken || earlier.any (·.takes id)) = true →
      outstanding id earlier granted = false →
      ∃ started, (c.before.row id).retryStartedAt = some started ∧
        i.pickClock < started + Delivery.window := by
  induction follows generalizing granted taken with
  | nil => intro earlier c later i split; simp at split
  | cons d _ ih =>
    intro earlier c later i split action takes again plainly
    obtain ⟨here, rest⟩ := List.forall_mem_cons.mp spared
    cases earlier with
    | nil =>
      obtain ⟨rfl, -⟩ := List.cons.inj split
      simp only [outstanding] at plainly
      rw [plainly] at marked
      exact takes_windowed action takes marked (attempted (by simpa using again))
    | cons first earlier =>
      obtain ⟨rfl, others⟩ := List.cons.inj split
      have known' : id ∈ d.after.recipients := commit_recipients d valid.coherent ▸ known
      have attempted' : (taken || d.takes id) = true → 0 < (d.after.row id).attemptCount := by
        intro before
        rcases (Bool.or_eq_true _ _).mp before with before | now
        · exact (attempted before).trans_le (commit_count_le valid)
        · obtain ⟨now, same⟩ := taken_row now
          rw [same]
          exact Nat.succ_pos _
      refine ih (commit_valid d valid) known' rest _ (taken || d.takes id)
        (commit_marked valid known here marked) attempted' earlier c later i others action takes ?_
        plainly
      simpa [Bool.or_assoc] using again

theorem Follows.taken_known (follows : Follows m commits m') (valid : Valid m) {c : Commit}
    (member : c ∈ commits) (takes : c.takes id = true) : id ∈ m.recipients := by
  obtain ⟨i, -, picked⟩ := takes_iff.mp takes
  have same := follows.before (P := fun n => Valid n ∧ n.recipients = m.recipients)
    (fun c holds => ⟨commit_valid c holds.1,
      (commit_recipients c holds.1.coherent).trans holds.2⟩) ⟨valid, rfl⟩ c member
  exact same.2 ▸ (picks_claimable picked).1

/-- In a run in which no commit puts the recipient back into the queue unmarked,
every claim respects the window. -/
theorem window_respected (ops : List Op) (message : MessageID) (r : RecipientID)
    (spared : (Db.empty.history message ops).all (·.spares r) = true) :
    Windowed r (Db.empty.history message ops) := by
  intro earlier c later i split action takes again plainly
  cases found : (Db.empty.run ops).messages message with
  | none => simp [history_of_absent ops found] at split
  | some m =>
    obtain ⟨entries, s, fresh, created, follows⟩ := run_created ops rfl found
    have valid := enqueue_valid created
    have zero := ((enqueue_fresh created).2.2 r).1
    have member : c ∈ Db.empty.history message ops := by simp [split]
    exact follows.windowed valid (follows.taken_known valid member takes)
      (List.all_eq_true.mp spared) false false (fun _ positive => absurd positive (by simp [zero]))
      nofun earlier c later i split action takes (by simpa using again) plainly

end Runs

end Model

section Witness

attribute [local instance] plain

/-- The first worker is lost before DATA, and no provider is available for a day. -/
def crashedRun : List Op :=
  [.enqueue 0 letter, .transact 0 (.claim (claimAt 1 10 7 1)),
    .batch [0] (.recover (recoverAt (2 * minute))),
    .transact 0 (.claim (claimAt 1 11 8 (25 * hour)))]

theorem window_exceeded :
    ¬ Windowed 1 (Db.empty.history 0 crashedRun) := by
  intro windowed
  obtain ⟨started, since, early⟩ := windowed [_, _] _ [] (claimAt 1 11 8 (25 * hour)) rfl rfl rfl
    rfl rfl
  obtain rfl := Option.some.inj since
  exact absurd early (by decide)

/-- A temporary failure is retried after its delay. -/
def retriedRun : List Op := rescheduledRun ++ [.transact 0 (.claim (claimAt 1 11 8 (3 * minute)))]

theorem window_respected_of_retriedRun :
    (Db.empty.history 0 retriedRun).length = 4 ∧
      Windowed 1 (Db.empty.history 0 retriedRun) := by
  exact ⟨rfl, @window_respected plain retriedRun 0 1 rfl⟩

end Witness

end RelayTale.Queue
