import RelayTale.Queue.Changes

/-!
# Terminal facts

A recipient whose fate is recorded keeps it, and only an operator who names the
recipient and its latest attempt moves it out of the unknown.
-/

namespace RelayTale.Queue

open Guard
open Relation (ReflTransGen)

def terminalStatuses : List Status :=
  [.smtpAccepted, .delivered, .permFailed, .suppressed, .expired, .cancelled]

section Runs

variable [Primitives]

section Changes

variable {c : Commit} {id : RecipientID} {r r' : Recipient}

omit [Primitives] in
theorem pending_iff : r.pending = true ↔ r.status = .queued ∨ r.status = .tempFailed := by
  simp [Recipient.pending]

theorem picked_queued {entries : List Entry} {i : ClaimInput} {m : Message}
    (picked : id ∈ picks entries i m) : (m.row id).status = .queued := by
  have claimable := (picks_claimable picked).2
  simp only [Recipient.claimable, Bool.and_eq_true, decide_eq_true_eq] at claimable
  exact claimable.1.1

theorem Change.opened (change : Change c id r r') :
    r.pending = true ∨ r.status = .sending ∨ r.status = .deliveryUnknown := by
  cases change with
  | claimed _ picked => exact .inl (pending_iff.mpr (.inl (picked_queued picked)))
  | suppressed _ eligible | exhausted _ eligible =>
    exact eligible.imp_right fun sending => .inl sending.1
  | expired _ _ pending | promoted _ pending | cancelled _ pending => exact .inl pending
  | finished _ _ _ _ sending | stranded _ _ sending | requeued _ _ sending =>
    exact .inr (.inl sending)
  | resolved _ _ _ unknown => exact .inr (.inr unknown)

theorem Change.not_terminal (change : Change c id r r') : r.status ∉ terminalStatuses := by
  rcases change.opened with pending | sending | unknown
  · rcases pending_iff.mp pending with status | status <;> simp [status, terminalStatuses]
  · simp [sending, terminalStatuses]
  · simp [unknown, terminalStatuses]

theorem unchanged (fixed : ∀ next, ¬ Change c id r next)
    (changes : ReflTransGen (Change c id) r r') : r' = r := by
  rcases changes.cases_head with same | ⟨next, change, -⟩
  · exact same.symm
  · exact absurd change (fixed next)

theorem terminal_unchanged (terminal : r.status ∈ terminalStatuses)
    (changes : ReflTransGen (Change c id) r r') : r' = r :=
  unchanged (fun _ change => change.not_terminal terminal) changes

def Commit.resolves (c : Commit) (id : RecipientID) : Prop :=
  ∃ v a, c.action = .resolveUnknown v ∧ v.recipient = id ∧
    Message.latestAttempt c.before.attempts id = some a ∧ a.id = v.expectedAttempt

theorem unknown_changes (unknown : r.status = .deliveryUnknown)
    (changes : ReflTransGen (Change c id) r r') : r' = r ∨ c.resolves id := by
  rcases changes.cases_head with same | ⟨next, change, -⟩
  · exact .inl same.symm
  right
  cases change with
  | resolved action named _ _ latest expected => exact ⟨_, _, action, named, latest, expected⟩
  | claimed _ picked => cases (picked_queued picked).symm.trans unknown
  | suppressed _ eligible | exhausted _ eligible =>
    rcases eligible with pending | ⟨sending, -⟩
    · simp [Recipient.pending, unknown] at pending
    · cases sending.symm.trans unknown
  | expired _ _ pending | promoted _ pending | cancelled _ pending =>
    simp [Recipient.pending, unknown] at pending
  | finished _ _ _ _ sending | stranded _ _ sending | requeued _ _ sending =>
    cases sending.symm.trans unknown

end Changes

section Commits

variable {c : Commit}

def Message.closed (m : Message) : Prop :=
  ∀ id ∈ m.recipients, (m.row id).status ∈ terminalStatuses

theorem closed_after (valid : Valid c.before) (closed : c.before.closed) : c.after.closed := by
  intro id member
  rw [commit_recipients c valid.coherent] at member
  rw [terminal_unchanged (closed id member) (valid.changes id)]
  exact closed id member

omit [Primitives] in
theorem closed_not_pending {m : Message} (closed : m.closed) {id : RecipientID}
    (member : id ∈ m.recipients) : (m.row id).pending ≠ true := by
  intro pending
  have terminal := closed id member
  rcases pending_iff.mp pending with status | status <;>
    simp [status, terminalStatuses] at terminal

/-- A closed message is neither claimed nor scheduled. -/
theorem closed_actions (valid : Valid c.before) (closed : c.before.closed) :
    (∀ i, c.action ≠ .claim i) ∧ ∀ i, c.action ≠ .schedule i := by
  have performed := c.performed
  constructor
  · intro i action
    rw [action] at performed
    obtain ⟨-, -, -, nonempty, -⟩ := claim_ok performed
    obtain ⟨id, picked⟩ := List.exists_mem_of_ne_nil _ nonempty
    exact closed_not_pending closed (picks_claimable picked).1
      (pending_iff.mpr (.inl (picked_queued picked)))
  · intro i action
    rw [action] at performed
    obtain ⟨-, -, -, ⟨id, member, elapsed⟩, -⟩ := schedule_ok performed
    exact closed_not_pending closed member ((valid.sound id).pending_of_elapsed elapsed)

end Commits

section Histories

variable {m m' : Message} {commits : List Commit}

theorem Follows.terminal (follows : Follows m commits m') (valid : Valid m) {id : RecipientID}
    (terminal : (m.row id).status ∈ terminalStatuses) : m'.row id = m.row id := by
  refine follows.row_keeps (P := (· = m.row id)) valid (fun c _ _ r r' change same => ?_) rfl
  exact absurd (same ▸ terminal) change.not_terminal

theorem Follows.unknown (follows : Follows m commits m') (valid : Valid m) {id : RecipientID}
    (unknown : (m.row id).status = .deliveryUnknown) :
    (m'.row id).status = .deliveryUnknown ∨ ∃ c ∈ commits, c.resolves id := by
  induction follows with
  | nil => exact .inl unknown
  | cons c _ ih =>
    rcases unknown_changes unknown (valid.changes id) with same | resolves
    · rcases ih (commit_valid c valid) (same ▸ unknown) with still | ⟨d, member, resolves⟩
      · exact .inl still
      · exact .inr ⟨d, List.mem_cons_of_mem c member, resolves⟩
    · exact .inr ⟨c, List.mem_cons_self, resolves⟩

theorem Follows.closed (follows : Follows m commits m') (valid : Valid m) (closed : m.closed) :
    (m'.lockedBy = none ∨ m'.lockedBy = m.lockedBy) ∧
      ∀ c ∈ commits, (∀ i, c.action ≠ .claim i) ∧ ∀ i, c.action ≠ .schedule i := by
  induction follows with
  | nil => exact ⟨.inr rfl, by simp⟩
  | cons c _ ih =>
    have here := closed_actions valid closed
    obtain ⟨later, others⟩ := ih (commit_valid c valid) (closed_after valid closed)
    refine ⟨?_, List.forall_mem_cons.mpr ⟨here, others⟩⟩
    rcases later with released | same
    · exact .inl released
    · rw [same]
      exact (commit_frame c valid.coherent).1.lockedBy.resolve_left fun ⟨i, action⟩ =>
        here.1 i action

end Histories

/-- Terminal statuses are never rewritten, an unknown recipient is only moved by
an operator who names it and its latest attempt, and a message without open
recipients is never locked, claimed or scheduled again. -/
theorem terminal_facts {db : Db} (reached : Reachable db) {id : MessageID} {m : Message}
    (found : db.messages id = some m) (ops : List Op) :
    ∃ m', (db.run ops).messages id = some m' ∧
      (∀ r ∈ m.recipients, (m.row r).status ∈ terminalStatuses →
        (m'.row r).status = (m.row r).status) ∧
      (∀ r ∈ m.recipients, (m.row r).status = .deliveryUnknown →
        (m'.row r).status = .deliveryUnknown ∨ ∃ c ∈ db.history id ops, c.resolves r) ∧
      (m.closed → (m'.lockedBy = none ∨ m'.lockedBy = m.lockedBy) ∧
        ∀ c ∈ db.history id ops, (∀ i, c.action ≠ .claim i) ∧ ∀ i, c.action ≠ .schedule i) := by
  have valid := reached.valid found
  obtain ⟨m', last, follows⟩ := run_follows ops found
  refine ⟨m', last, fun r _ terminal => ?_, fun r _ => follows.unknown valid,
    follows.closed valid⟩
  rw [follows.terminal valid terminal]

end Runs

section Witness

attribute [local instance] plain

def cancelledLetter : Db :=
  Db.empty.run [.enqueue 0 letter, .transact 0 (.cancelPending 1 false 1)]

theorem terminal_facts_of_cancelledLetter :
    ∃ m m', cancelledLetter.messages 0 = some m ∧ (m.row 1).status = .cancelled ∧
      (cancelledLetter.run [.transact 0 (.claim (claimAt 1 10 7 1))]).messages 0 = some m' ∧
      (m'.row 1).status = .cancelled := by
  obtain ⟨m', last, terminal, -, -⟩ := @terminal_facts plain cancelledLetter ⟨_, rfl⟩ 0 _ rfl
    [.transact 0 (.claim (claimAt 1 10 7 1))]
  exact ⟨_, m', rfl, rfl, last, terminal 1 (by decide) (by decide)⟩

end Witness

end RelayTale.Queue
