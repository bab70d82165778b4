import RelayTale.Queue.Terminal

/-!
# The message row as a projection

Outside a lease the status, the completion and the due time of a message are
what `refresh` derives from all of its recipients, and a recipient that waits
for a retry or in the queue is reachable through them.
-/

namespace RelayTale.Queue

open Guard

section Refresh

variable {m : Message} {id : RecipientID}

/-- The message row agrees with its recipients, unless a worker holds the
message or its owner has cancelled it. -/
def Message.Projected (m : Message) : Prop :=
  m.production = true → m.cancelledAt = none → m.lockedBy = none →
    m.status = m.projection ∧
      (m.completedAt.isSome = true ↔ m.status ∈ Message.completedStatuses) ∧
      (m.status = .queued → m.nextAttemptAt.isSome = true)

theorem refresh_projected (m : Message) (now : Int) : (m.refresh now).Projected := by
  intro _ _ _
  refine ⟨rfl, ?_, fun queued => ?_⟩
  · simp only [Message.refresh]
    split <;> simp [*]
  · simp only [Message.refresh] at queued ⊢
    simp [queued]

theorem projected_of_locked (locked : m.lockedBy.isSome = true) : m.Projected := by
  intro _ _ unlocked
  simp [unlocked] at locked

theorem exists_row {status : Status} (member : id ∈ m.recipients)
    (row : (m.row id).status = status) : 0 < m.rowsWith status := by
  rw [Message.rowsWith, List.countP_pos_iff]
  exact ⟨id, member, by simpa using row⟩

theorem rowsWith_ne_length {status other : Status} (member : id ∈ m.recipients)
    (row : (m.row id).status = status) (differs : status ≠ other) :
    m.rowsWith other ≠ m.recipients.length := by
  rw [Message.rowsWith, Ne, List.countP_eq_length]
  intro everyone
  exact differs (row.symm.trans (by simpa using everyone id member))

theorem projection_of_queued (idle : ∀ id ∈ m.recipients, (m.row id).status ≠ .sending)
    (member : id ∈ m.recipients) (queued : (m.row id).status = .queued) :
    m.projection = .queued ∨ m.projection = .deliveryUnknown := by
  have none : m.rowsWith .sending = 0 := rowsWith_eq_zero.mpr idle
  unfold Message.projection
  simp only [none, Nat.lt_irrefl, if_false, exists_row member queued, if_true]
  split <;> simp

theorem projection_eq_queued
    (rows : ∀ id ∈ m.recipients, (m.row id).status = .queued ∨ (m.row id).status = .suppressed)
    (member : id ∈ m.recipients) (queued : (m.row id).status = .queued) :
    m.projection = .queued := by
  have unknown : m.rowsWith .deliveryUnknown = 0 :=
    rowsWith_eq_zero.mpr fun id member => by rcases rows id member with row | row <;> simp [row]
  have idle : m.rowsWith .sending = 0 :=
    rowsWith_eq_zero.mpr fun id member => by rcases rows id member with row | row <;> simp [row]
  simp [Message.projection, unknown, idle, exists_row member queued]

theorem projection_eq_suppressed (nonempty : m.recipients ≠ [])
    (rows : ∀ id ∈ m.recipients, (m.row id).status = .suppressed) :
    m.projection = .suppressed := by
  have none {other : Status} (differs : .suppressed ≠ other) : m.rowsWith other = 0 :=
    rowsWith_eq_zero.mpr fun id member => by rw [rows id member]; exact differs
  have everyone : m.rowsWith .suppressed = m.recipients.length :=
    List.countP_eq_length.mpr fun id member => by simpa using rows id member
  have positive : 0 < m.recipients.length := List.length_pos_iff.mpr nonempty
  have few : 0 ≠ m.recipients.length := Nat.ne_of_lt positive
  simp [Message.projection, none, everyone, positive, few]

theorem accepted_ne_length (member : id ∈ m.recipients) (failed : (m.row id).status = .tempFailed) :
    m.rowsWith .smtpAccepted + m.rowsWith .delivered ≠ m.recipients.length := by
  -- a recipient is counted by at most one of the two statuses
  have total (ids : List RecipientID) :
      ids.countP (fun id => (m.row id).status = .smtpAccepted) +
        ids.countP (fun id => (m.row id).status = .delivered) =
      ids.countP fun id => (m.row id).status = .smtpAccepted ∨ (m.row id).status = .delivered := by
    induction ids with
    | nil => rfl
    | cons id ids ih =>
      simp only [List.countP_cons, ← ih, decide_eq_true_eq]
      by_cases accepted : (m.row id).status = .smtpAccepted
      · simp [accepted, Nat.add_right_comm]
      · by_cases delivered : (m.row id).status = .delivered <;> simp [accepted, delivered, Nat.add_assoc]
  rw [Message.rowsWith, Message.rowsWith, total, Ne, List.countP_eq_length]
  intro everyone
  simpa [failed] using everyone id member

theorem projection_of_tempFailed (idle : ∀ id ∈ m.recipients, (m.row id).status ≠ .sending)
    (member : id ∈ m.recipients) (failed : (m.row id).status = .tempFailed) :
    m.projection ∈ [Status.queued, .tempFailed, .partialAccepted, .deliveryUnknown] := by
  have none : m.rowsWith .sending = 0 := rowsWith_eq_zero.mpr idle
  have others (other : Status) (differs : .tempFailed ≠ other) :=
    rowsWith_ne_length member failed differs
  unfold Message.projection
  simp only [none, Nat.lt_irrefl, if_false, others .expired nofun,
    others .suppressed nofun, others .delivered nofun, false_and,
    accepted_ne_length member failed, exists_row member failed, if_true]
  repeat' split
  all_goals simp

end Refresh

section Runs

variable [Primitives] {entries : List Entry} {s : Submission} {m : Message}

theorem commit_projected {c : Commit} (valid : Valid c.before) (projected : c.before.Projected) :
    c.after.Projected := by
  cases commit_performed c valid.coherent with
  | claimed _ committed =>
    obtain ⟨-, -, leased⟩ := claim_leases valid.coherent committed
    exact projected_of_locked (by simp [leased.locked])
  | armed _ leased _ _ armed same =>
    obtain ⟨b, -, -, -, leased', -⟩ := armed.attempts leased valid.coherent.keyed
    rw [← same]
    exact projected_of_locked (by simp [leased'.locked])
  | recorded _ leased _ same =>
    rw [same]
    exact projected_of_locked (by simp [leased.locked])
  | finished _ finishing =>
    rw [finishing.message]
    exact refresh_projected _ _
  | @recovered i a _ _ _ same =>
    obtain ⟨rows, status, next, completed, -, shape⟩ :=
      recoverAttempt_eq i a.id a.dataArmedAt.isSome c.before
    rw [same, shape]
    exact refresh_projected _ i.now
  | rewritten _ _ _ same => exact same ▸ refresh_projected _ _
  | repeated _ same => exact same ▸ projected
  | cancelled _ _ same =>
    rw [same]
    exact nofun
  | retired _ _ same =>
    rw [same]
    exact projected

theorem enqueue_rows (entries : List Entry) (production : s.production = true) (id : RecipientID) :
    ((s.message.suppressHits entries s.policyClock false).row id).status = .queued ∨
      ((s.message.suppressHits entries s.policyClock false).row id).status = .suppressed := by
  generalize row_eq : (s.message.suppressHits entries s.policyClock false).row id = r
  cases row_eq ▸ suppressHits_row entries s.policyClock false s.message id with
  | kept => exact .inl (by simp [Submission.message, Submission.status, production])
  | suppressed => exact .inr rfl

theorem enqueue_projected (created : s.enqueue entries = .ok m) : m.Projected := by
  intro real _ _
  rcases submission_eq created with ⟨sandbox, rfl⟩ | ⟨production, ⟨⟨id, member, other⟩, rfl⟩ |
    ⟨everyone, rfl⟩⟩
  · cases sandbox.symm.trans real
  · have rows := enqueue_rows entries production
    refine ⟨?_, ?_, ?_⟩
    · rw [projection_eq_queued (fun id _ => rows id) member ((rows id).resolve_right other)]
      exact if_pos production
    · simp [Message.suppressHits, Submission.message, Submission.status, production,
        Message.completedStatuses]
    · simp [Message.suppressHits, Submission.message, production]
  · refine ⟨?_, by simp [Message.completedStatuses], by rintro ⟨⟩⟩
    refine (projection_eq_suppressed ?_ everyone).symm
    simpa [Message.suppressHits, Submission.message] using s.nonempty

/-- Messages outside the delivery path have no open recipients. -/
structure Message.Shelved (m : Message) : Prop where
  sandbox : m.production = false → ∀ id ∈ m.recipients, (m.row id).status = .sandboxStored
  cancelled : m.cancelledAt.isSome = true → m.closed

omit [Primitives] in
theorem closed_of_cancellable {clock : Int} (evidence : uncancellable m = false) {id : RecipientID}
    (member : id ∈ m.recipients) :
    (if (m.row id).pending then (m.row id).cancel clock else m.row id).status ∈
      terminalStatuses := by
  simp only [uncancellable, Bool.or_eq_false_iff, List.any_eq_false] at evidence
  have listed := evidence.2 id member
  simp only [decide_eq_true_eq, not_not] at listed
  split
  · simp [Recipient.cancel, terminalStatuses]
  next settled =>
    simp only [Bool.not_eq_true, Recipient.pending, Bool.or_eq_false_iff,
      decide_eq_false_iff_not] at settled
    simp only [List.mem_cons, settled.1, settled.2, false_or, List.not_mem_nil, or_false] at listed
    rcases listed with status | status | status <;> simp [status, terminalStatuses]

theorem commit_shelved {c : Commit} (valid : Valid c.before) (shelved : c.before.Shelved) :
    c.after.Shelved := by
  constructor
  · intro sandbox id member
    rw [commit_production c valid.coherent] at sandbox
    rw [commit_recipients c valid.coherent] at member
    have stored := shelved.sandbox sandbox id member
    rw [unchanged (fun next change => ?_) (valid.changes id), stored]
    rcases change.opened with pending | sending | unknown
    · simp [Recipient.pending, stored] at pending
    · cases stored.symm.trans sending
    · cases stored.symm.trans unknown
  · intro cancelled
    rcases (commit_frame c valid.coherent).1.cancelledAt with ⟨identity, replacing, clock, action⟩ |
      same
    · have performed := c.performed
      rw [action] at performed
      rcases cancelPending_ok performed with same | ⟨evidence, same⟩
      · rw [same] at cancelled ⊢
        exact shelved.cancelled cancelled
      · rw [same]
        exact fun id member => closed_of_cancellable evidence member
    · exact closed_after valid (shelved.cancelled (same ▸ cancelled))

theorem enqueue_shelved (created : s.enqueue entries = .ok m) : m.Shelved := by
  rcases submission_eq created with ⟨sandbox, rfl⟩ | ⟨production, ⟨-, rfl⟩ | ⟨-, rfl⟩⟩
  · exact ⟨fun _ id _ => by simp [Submission.message, Submission.status, sandbox], by rintro ⟨⟩⟩
  · exact ⟨fun sandbox => absurd (production.symm.trans sandbox) (by decide), by rintro ⟨⟩⟩
  · exact ⟨fun sandbox => absurd (production.symm.trans sandbox) (by decide), by rintro ⟨⟩⟩

/-- A claimed message is a queued one: none of its recipients is unknown. -/
theorem claim_known {i : ClaimInput} {m m' : Message} (valid : Valid m) (projected : m.Projected)
    (shelved : m.Shelved) (committed : claim entries i m = .ok m') {id : RecipientID}
    (member : id ∈ m.recipients) : (m.row id).status ≠ .deliveryUnknown := by
  obtain ⟨-, selected, -, nonempty, -⟩ := claim_ok committed
  obtain ⟨other, picked⟩ := List.exists_mem_of_ne_nil _ nonempty
  have queued := picked_queued picked
  have known := (picks_claimable picked).1
  have production : m.production = true := by
    by_contra sandbox
    have stored := shelved.sandbox (by simpa using sandbox) other known
    cases queued.symm.trans stored
  have uncancelled : m.cancelledAt = none := by
    by_contra cancelled
    have closed := shelved.cancelled (Option.isSome_iff_ne_none.mpr cancelled)
    exact closed_not_pending closed known (pending_iff.mpr (.inl queued))
  have unlocked := (claim_leases valid.coherent committed).1.unlocked
  obtain ⟨status, -, -⟩ := projected production uncancelled unlocked
  have waiting : m.status = .queued := by
    simp only [selectable, Bool.and_eq_true, decide_eq_true_eq] at selected
    exact selected.1.1.1.1.2
  intro unknown
  have shown : m.projection = .deliveryUnknown := by
    simp [Message.projection, exists_row member unknown]
  cases waiting.symm.trans (status.trans shown)

theorem Reachable.projected {db : Db} (reached : Reachable db) {id : MessageID}
    (found : db.messages id = some m) : m.Projected :=
  (reached.invariant (P := fun m => Valid m ∧ m.Projected)
    (fun _ _ _ created => ⟨enqueue_valid created, enqueue_projected created⟩)
    (fun c holds => ⟨commit_valid c holds.1, commit_projected holds.1 holds.2⟩) found).2

/-- Outside a lease the message row is the projection of its recipients, and
every recipient that waits for a retry or in the queue can be reached through
it. -/
theorem message_projection {db : Db} (reached : Reachable db) {id : MessageID} {m : Message}
    (found : db.messages id = some m) (production : m.production = true)
    (unlocked : m.lockedBy = none) (uncancelled : m.cancelledAt = none) :
    m.status = m.projection ∧
    (m.completedAt.isSome = true ↔
      m.status ∈ [Status.smtpAccepted, .permFailed, .delivered, .suppressed, .expired]) ∧
    (∀ r ∈ m.recipients, (m.row r).retryAt.isSome = true →
      (m.row r).status = .tempFailed ∧ (m.row r).retryAutomatic = false ∧
        m.status ∈ [Status.queued, .tempFailed, .partialAccepted, .deliveryUnknown]) ∧
    ∀ r ∈ m.recipients, (m.row r).status = .queued →
      (m.status = .queued ∨ m.status = .deliveryUnknown) ∧
        (m.status = .queued → m.nextAttemptAt.isSome = true) := by
  have valid := reached.valid found
  have idle := (valid.coherent.idle unlocked).rows
  obtain ⟨status, completed, due⟩ := reached.projected found production uncancelled unlocked
  refine ⟨status, completed, fun r member scheduled => ?_, fun r member queued => ⟨?_, due⟩⟩
  · obtain ⟨instant, retryAt⟩ := Option.isSome_iff_exists.mp scheduled
    obtain ⟨failed, manual, -⟩ := (valid.sound r).retry instant retryAt
    exact ⟨failed, manual, status ▸ projection_of_tempFailed idle member failed⟩
  · rw [status]
    exact projection_of_queued idle member queued

end Runs

section Witness

attribute [local instance] plain

/-- The first recipient is accepted and the second one has to wait. -/
def mixedRun : List Op :=
  sentRun (answeredSession (.reply ⟨450, []⟩) (.reply ⟨250, []⟩) 3)

theorem message_projection_of_mixedRun :
    ∃ m, (Db.empty.run mixedRun).messages 0 = some m ∧ (m.row 1).status = .smtpAccepted ∧
      (m.row 2).status = .tempFailed ∧ m.status = .partialAccepted ∧ m.status = m.projection ∧
      m.completedAt = none := by
  have check : ((Db.empty.run mixedRun).messages 0).any (fun m =>
      decide (m.production = true ∧ m.lockedBy = none ∧ m.cancelledAt = none ∧
        (m.row 1).status = .smtpAccepted ∧ (m.row 2).status = .tempFailed ∧
        m.status = .partialAccepted)) = true := by
    decide +kernel
  obtain ⟨m, found, check⟩ := (Option.any_eq_true _ _).mp check
  obtain ⟨production, unlocked, uncancelled, accepted, waiting, status⟩ := of_decide_eq_true check
  have projection := @message_projection plain _ ⟨_, rfl⟩ 0 m found production unlocked uncancelled
  refine ⟨m, found, accepted, waiting, status, projection.1, ?_⟩
  simpa [status] using projection.2.1

end Witness

end RelayTale.Queue
