import RelayTale.Queue.Changes

/-!
# The attempt budget

Five places decide whether a recipient may go again. Together they keep the
number of its attempts within seven and one more for each retry an operator has
asked for.
-/

namespace RelayTale.Queue

open Guard
open Relation (ReflTransGen)

section Bound

/-- The attempts of a recipient stay within the budget and the retries granted
by operators; one that waits in the queue has an attempt left. -/
structure Recipient.Within (granted : Nat) (r : Recipient) : Prop where
  queued : r.status = .queued → r.attemptCount ≤ 6 + granted
  count : r.attemptCount ≤ 7 + granted

variable {granted : Nat} {r r' : Recipient}

theorem Recipient.Within.mono (within : r.Within granted) {more : Nat} (le : granted ≤ more) :
    r.Within more :=
  ⟨fun queued => by have := within.queued queued; omega, by have := within.count; omega⟩

theorem Recipient.Within.of_count (within : r.Within granted)
    (count : r'.attemptCount = r.attemptCount)
    (queued : r'.status = .queued → r.attemptCount < 7 ∨ r.status = .queued) :
    r'.Within granted := by
  refine ⟨fun waiting => ?_, count ▸ within.count⟩
  rw [count]
  rcases queued waiting with few | waiting
  · omega
  · exact within.queued waiting

end Bound

section Runs

variable [Primitives]

def Commit.retries (id : RecipientID) (c : Commit) : Bool :=
  match c.action with
  | .resolveUnknown v => decide (v.recipient = id) && decide (v.action = .retry)
  | _ => false

section Changes

variable {c : Commit} {id : RecipientID} {r r' : Recipient} {granted : Nat}

theorem Change.count (change : Change c id r r') (other : ∀ i, c.action ≠ .claim i) :
    r'.attemptCount = r.attemptCount := by
  cases change with
  | claimed action => exact absurd action (other _)
  | finished _ _ _ _ sending _ _ finished => exact (finished.fixed sending).2.1
  | suppressed | expired | exhausted | promoted | stranded | requeued | resolved | cancelled => rfl

theorem Change.started (change : Change c id r r') {started : Int}
    (since : r.retryStartedAt = some started) : r'.retryStartedAt = some started := by
  cases change with
  | claimed => simp [Recipient.claim, since]
  | finished _ _ _ _ sending _ _ finished => rw [(finished.fixed sending).2.2, since]
  | suppressed | expired | exhausted | promoted | stranded | requeued | resolved | cancelled =>
    exact since

/-- A change keeps the bound, counting the retries that this commit grants. -/
theorem Change.within (change : Change c id r r') (before : (c.before.row id).Within granted)
    (within : r.Within (granted + (c.retries id).toNat)) :
    r'.Within (granted + (c.retries id).toNat) := by
  cases change with
  | claimed action picked =>
    have claimable := (picks_claimable picked).2
    simp only [Recipient.claimable, Bool.and_eq_true, decide_eq_true_eq] at claimable
    have few := within.queued claimable.1.1
    exact ⟨by simp [Recipient.claim], by simp only [Recipient.claim]; omega⟩
  | suppressed | expired | exhausted | stranded | cancelled =>
    exact within.of_count rfl (by simp [Recipient.suppress, Recipient.expire, Recipient.exhaust,
      Recipient.cancel])
  | promoted _ _ _ few => exact within.of_count rfl fun _ => .inl few
  | finished _ _ _ _ sending _ _ finished =>
    exact within.of_count (finished.fixed sending).2.1 fun queued =>
      .inl (finished.queued sending queued).2.1
  | requeued _ _ _ _ budget =>
    simp only [Recipient.spent, Bool.or_eq_false_iff, decide_eq_false_iff_not] at budget
    exact within.of_count rfl fun _ => .inl (by omega)
  | resolved action named =>
    refine ⟨fun queued => ?_, within.count⟩
    have retried : c.retries id = true := by
      simp only [Recipient.resolve] at queued
      revert queued
      simp only [Commit.retries, action, named]
      cases Resolution.action _ <;> simp [ResolveAction.status]
    have count := before.count
    simp only [Recipient.resolve, retried, Bool.toNat_true]
    omega

theorem commit_within (valid : Valid c.before) (within : (c.before.row id).Within granted) :
    (c.after.row id).Within (granted + (c.retries id).toNat) :=
  changes_keep (fun _ _ change => change.within within) (valid.changes id)
    (within.mono (Nat.le_add_right _ _))

end Changes

section Counting

def Message.Counted (m : Message) : Prop :=
  ∀ id, (m.row id).attemptCount = m.attempts.countP fun a => id ∈ a.recipients

omit [Primitives] in
theorem Framed.attempted {m m' : Message} (framed : Framed m m') (id : RecipientID) :
    m'.attempts.countP (fun a => id ∈ a.recipients) =
      m.attempts.countP fun a => id ∈ a.recipients := by
  have counts := congrArg (List.countP fun key => decide (id ∈ key.2.2.2)) framed.keys
  rw [List.countP_map, List.countP_map] at counts
  exact counts

theorem commit_counted {c : Commit} (valid : Valid c.before) (counted : c.before.Counted) :
    c.after.Counted := by
  intro id
  by_cases claims : ∃ i, c.action = .claim i
  · obtain ⟨i, action⟩ := claims
    have performed := c.performed
    rw [action] at performed
    rw [(claim_ok performed).1]
    by_cases picked : id ∈ picks c.entries i c.before <;>
      simp [claimed, picked, Recipient.claim, counted id]
  · have other (i : ClaimInput) : c.action ≠ .claim i := fun action => claims ⟨i, action⟩
    have same : (c.after.row id).attemptCount = (c.before.row id).attemptCount :=
      changes_keep (P := fun r => r.attemptCount = (c.before.row id).attemptCount)
        (fun _ _ change kept => (change.count other).trans kept) (valid.changes id) rfl
    rcases commit_kept c valid.coherent with ⟨claim, -⟩ | kept
    · exact absurd claim claims
    · rw [same, kept.framed.attempted, counted id]

end Counting

section Histories

variable {m m' : Message} {commits : List Commit} {id : RecipientID}

theorem Follows.within (follows : Follows m commits m') (valid : Valid m) {granted : Nat}
    (within : (m.row id).Within granted) :
    (m'.row id).Within (granted + commits.countP (·.retries id)) := by
  induction follows generalizing granted with
  | nil => exact within
  | cons c _ ih =>
    have later := ih (commit_valid c valid) (commit_within valid within)
    rw [List.countP_cons]
    refine later.mono ?_
    cases c.retries id <;> simp only [Bool.toNat_true, Bool.toNat_false, if_true, if_false,
      Bool.false_eq_true] <;> omega

theorem Follows.started (follows : Follows m commits m') (valid : Valid m) {started : Int}
    (since : (m.row id).retryStartedAt = some started) :
    (m'.row id).retryStartedAt = some started :=
  follows.row_keeps (P := fun r => r.retryStartedAt = some started) valid
    (fun _ _ _ _ _ change => change.started) since

theorem Follows.counted (follows : Follows m commits m') (valid : Valid m) (counted : m.Counted) :
    m'.Counted := by
  induction follows with
  | nil => exact counted
  | cons c _ ih => exact ih (commit_valid c valid) (commit_counted valid counted)

end Histories

/-- The number of attempts of a recipient is the number of its rows in the
attempts, at most seven and one more for each retry granted by an operator. A
scheduled retry leaves room for an attempt within the window, and the window
never moves. -/
theorem attempt_budget (ops : List Op) {id : MessageID} {m : Message}
    (found : (Db.empty.run ops).messages id = some m) (r : RecipientID) :
    (m.row r).attemptCount ≤ 7 + (Db.empty.history id ops).countP (·.retries r) ∧
    (m.row r).attemptCount = m.attempts.countP (fun a => r ∈ a.recipients) ∧
    (∀ instant, (m.row r).retryAt = some instant →
      1 ≤ (m.row r).attemptCount ∧ (m.row r).attemptCount ≤ 6 ∧
        ∃ started, (m.row r).retryStartedAt = some started ∧ instant < started + Delivery.window) ∧
    ∀ later m' started, ((Db.empty.run ops).run later).messages id = some m' →
      (m.row r).retryStartedAt = some started → (m'.row r).retryStartedAt = some started := by
  have valid := Reachable.valid ⟨ops, rfl⟩ found
  obtain ⟨entries, s, fresh, created, follows⟩ := run_created ops rfl found
  obtain ⟨unattempted, -, rows⟩ := enqueue_fresh created
  have zero (id : RecipientID) := (rows id).1
  have within : (fresh.row r).Within 0 := ⟨by simp [zero], by simp [zero]⟩
  refine ⟨?_, ?_, ?_, ?_⟩
  · simpa using (follows.within (enqueue_valid created) within).count
  · refine follows.counted (enqueue_valid created) (fun id => ?_) r
    simp [unattempted, zero]
  · intro instant scheduled
    obtain ⟨-, -, positive, few, window⟩ := (valid.sound r).retry instant scheduled
    exact ⟨positive, few, window⟩
  · intro later m' started last since
    obtain ⟨m'', reached, continues⟩ := run_follows later found
    obtain rfl := Option.mem_unique reached last
    exact continues.started valid since

end Runs

section Witness

attribute [local instance] plain

theorem attempt_budget_of_leasedLetter :
    ∃ m, leasedLetter.messages 0 = some m ∧ (m.row 1).attemptCount = 1 ∧
      (m.row 1).attemptCount = m.attempts.countP (fun a => 1 ∈ a.recipients) := by
  obtain ⟨-, counted, -⟩ := @attempt_budget plain
    [.enqueue 0 letter, .transact 0 (.claim (claimAt 1 10 7 1))] 0 _ rfl 1
  exact ⟨_, rfl, rfl, counted⟩

end Witness

end RelayTale.Queue
