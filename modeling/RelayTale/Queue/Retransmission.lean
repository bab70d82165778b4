import RelayTale.Queue.Changes

/-!
# No automatic retransmission

Once the durable fence of an attempt has opened, its recipients may have been
served. They are claimed again only on evidence that they were not, or when an
operator takes the risk of a duplicate.
-/

namespace RelayTale.Queue

open Guard
open Delivery (Decision)
open Relation (ReflTransGen)

/-- Nothing brings the recipient back into the queue by itself. -/
structure Recipient.Held (r : Recipient) : Prop where
  unqueued : r.status ≠ .queued
  unsent : r.status ≠ .sending
  unscheduled : r.retryAt = none

section Rows

variable {clock : Int} {r r' : Recipient}

theorem Expires.held (expires : Expires clock r r') (held : r.Held) : r'.Held := by
  cases expires with
  | kept => exact held
  | expired => exact ⟨nofun, nofun, rfl⟩

variable [Primitives]

/-- A reported recipient is held, unless its envelope was blocked before DATA or
the policy has decided on a retry. -/
theorem Finished.held {flags : Flags} {a : Attempt} {out : Smtp.Result}
    {rc : Smtp.RecipientResult} {d : Option Decision} (sending : r.status = .sending)
    (finished : Finished flags a out rc r r' d) :
    r'.Held ∨ a.suppressionBlockedAt.isSome = true ∨
      ∃ b, ((Delivery.evidence out rc).decide b).action = .retry := by
  have written := finished.status (by simp [sending])
  have unsent : r'.status ≠ .sending := fun again => by simp [again] at written
  by_cases queued : r'.status = .queued
  · exact .inr (.inl (finished.queued sending queued).1)
  cases finished with
  | resumed blocked => exact .inr (.inl blocked)
  | @decided status started =>
    by_cases retried : ((Delivery.evidence out rc).decide
        (decisionBudget a.id out rc r started)).action = .retry
    · exact .inr (.inr ⟨_, retried⟩)
    · exact .inl ⟨queued, unsent, by simp [Recipient.decided, retried]⟩

end Rows

section Runs

variable [Primitives]

/-- `Finish` of the attempt has shown that the recipient was not served: the body
was never started, or the recipient was rejected with 4xx, or the message was
rejected after its body. -/
def Commit.refutes (attempt : AttemptID) (id : RecipientID) (c : Commit) : Prop :=
  ∃ flags job dispatch clock now, c.action = .finish flags job dispatch clock now ∧
    job.attempt = attempt ∧
    ((dispatch.result (c.before.envelope job)).dataStartedAt = none ∨
      (∃ rc ∈ (dispatch.result (c.before.envelope job)).recipients, rc.id = id ∧
        rc.stage = .rcptRejected ∧ 400 ≤ rc.code ∧ rc.code ≤ 499) ∨
      (dispatch.result (c.before.envelope job)).finalResponseAt.isSome = true ∧
        400 ≤ (dispatch.result (c.before.envelope job)).code ∧
        (dispatch.result (c.before.envelope job)).code ≤ 599)

def Commit.acknowledges (id : RecipientID) (c : Commit) : Prop :=
  ∃ v, c.action = .resolveUnknown v ∧ v.recipient = id ∧ v.action = .retry ∧
    v.acknowledgeDuplicate = true

section Changes

variable {c : Commit} {id : RecipientID} {r r' : Recipient}

theorem Change.held (change : Change c id r r') (held : r.Held) (silent : ¬ c.acknowledges id) :
    r'.Held := by
  cases change with
  | claimed _ picked =>
    have claimable := (picks_claimable picked).2
    simp only [Recipient.claimable, Bool.and_eq_true, decide_eq_true_eq] at claimable
    exact absurd claimable.1.1 held.unqueued
  | suppressed | expired | exhausted | cancelled => exact ⟨by rintro ⟨⟩, by rintro ⟨⟩, rfl⟩
  | promoted _ _ elapsed =>
    simp [Recipient.elapsed, held.unscheduled, held.unqueued] at elapsed
  | finished _ _ _ _ sending | stranded _ _ sending | requeued _ _ sending =>
    exact absurd sending held.unsent
  | @resolved v _ action named acknowledged =>
    have other : v.action ≠ .retry := fun retry =>
      silent ⟨v, action, named, retry, acknowledged retry⟩
    cases chosen : v.action with
    | retry => exact absurd chosen other
    | markDelivered | markFailed => exact ⟨by rintro ⟨⟩, by rintro ⟨⟩, rfl⟩

end Changes

structure Permitted (attempt : AttemptID) (id : RecipientID) (m : Message) (a : Attempt)
    (rest : List Attempt) : Prop where
  leased : Leased m a rest
  attempt : a.id = attempt
  armed : a.dataArmedAt.isSome = true
  member : id ∈ a.recipients
  sending : (m.row id).status = .sending

def Guarded (attempt : AttemptID) (id : RecipientID) (m : Message) : Prop :=
  (∃ a rest, Permitted attempt id m a rest) ∨ (m.row id).Held

section Steps

variable {c : Commit} {attempt : AttemptID} {id : RecipientID} {a : Attempt}
variable {rest : List Attempt}

theorem Finishing.refutes {flags : Flags} {job : Job} {dispatch : Dispatch} {clock now : Int}
    {b : Attempt} {rows : RecipientID → Recipient}
    (action : c.action = .finish flags job dispatch clock now)
    (finishing : Finishing flags job (dispatch.result (c.before.envelope job)) clock now c.before
      c.after a b rest rows)
    (member : id ∈ a.recipients) (sending : (c.before.row id).status = .sending) :
    (rows id).Held ∨ c.refutes a.id id := by
  rcases finishing.row member with ⟨-, suppressed, -⟩ | ⟨-, rc, reported, named, d, finished, -⟩
  · cases suppressed.symm.trans sending
  rcases finished.held sending with held | blocked | ⟨budget, retried⟩
  · exact .inl held
  · refine .inr ⟨flags, job, dispatch, clock, now, action, finishing.attempt.symm, .inl ?_⟩
    rcases finishing.fenced with ⟨unblocked, -⟩ | unstarted
    · simp [unblocked] at blocked
    · exact unstarted.1
  · refine .inr ⟨flags, job, dispatch, clock, now, action, finishing.attempt.symm, ?_⟩
    rcases Delivery.decide_retry_cause retried with unstarted | ⟨⟨stage, least, -⟩, small⟩ |
      ⟨answered, least, greatest⟩
    · exact .inl (by simpa [Delivery.evidence] using unstarted)
    · exact .inr (.inl ⟨rc, reported, named, stage, least, Int.le_of_lt_add_one small⟩)
    · exact .inr (.inr ⟨answered, least, Int.le_of_lt_add_one greatest⟩)

/-- What can happen while the fence is open. -/
theorem permitted_step (valid : Valid c.before) (permitted : Permitted attempt id c.before a rest) :
    Guarded attempt id c.after ∨ c.refutes attempt id := by
  obtain ⟨leased, rfl, armed, member, sending⟩ := permitted
  have performed := c.performed
  rcases leased_commit c valid.coherent leased with ⟨job, i, action⟩ | ⟨job, event, clock, action⟩ |
    ⟨flags, job, dispatch, clock, now, action⟩ | ⟨i, action⟩ | same
  · rw [action] at performed
    obtain ⟨answer, committed, -⟩ := map_eq_ok.mp performed
    obtain ⟨b, older, leased', -, unarmed, -⟩ := armData_armed valid.coherent committed
    obtain ⟨rfl, -⟩ := List.cons.inj (leased.attempts.symm.trans leased'.attempts)
    simp [unarmed] at armed
  · rw [action] at performed
    obtain ⟨-, f, added, same⟩ := record_events performed
    obtain ⟨events, kept⟩ := added a
    have leased' := leased.record added
    rw [← same, kept] at leased'
    refine .inl (.inl ⟨_, _, leased', rfl, armed, member, ?_⟩)
    rw [same]
    exact sending
  · rw [action] at performed
    obtain ⟨b, b', older, rows, finishing⟩ := finish_finishing valid.coherent performed
    obtain ⟨rfl, -⟩ := List.cons.inj (leased.attempts.symm.trans finishing.leased.attempts)
    refine (finishing.refutes action member sending).imp_left fun held => .inr ?_
    rw [finishing.message, Message.refresh_row]
    exact (applyExpiry_row _ clock id).held held
  · rw [action] at performed
    obtain ⟨b, older, leased', -, same⟩ := recover_leased valid.coherent performed
    obtain ⟨rfl, -⟩ := List.cons.inj (leased.attempts.symm.trans leased'.attempts)
    obtain ⟨rows, status, next, completed, recovers, shape⟩ :=
      recoverAttempt_eq i a.id a.dataArmedAt.isSome c.before
    have held : (rows id).Held := by
      generalize row_eq : rows id = row
      cases row_eq ▸ recovers id with
      | kept other => exact absurd sending other
      | stranded => exact ⟨nofun, nofun, (valid.sound id).unscheduled (by simp [sending])⟩
      | requeued _ unpermitted | exhausted _ unpermitted => cases armed.symm.trans unpermitted
    rw [same, shape]
    exact .inl (.inr ((applyExpiry_row _ i.expiryClock id).held held))
  · rw [same]
    exact .inl (.inl ⟨a, rest, leased, rfl, armed, member, sending⟩)

theorem guarded_step (valid : Valid c.before) (guarded : Guarded attempt id c.before)
    (silent : ¬ c.acknowledges id) (unrefuted : ¬ c.refutes attempt id) :
    Guarded attempt id c.after := by
  rcases guarded with ⟨a, rest, permitted⟩ | held
  · exact (permitted_step valid permitted).resolve_right unrefuted
  · exact .inr (changes_keep (fun _ _ change held => change.held held silent) (valid.changes id) held)

theorem guarded_unpicked {m m' : Message} {entries : List Entry} {i : ClaimInput}
    (valid : Valid m) (guarded : Guarded attempt id m) (committed : claim entries i m = .ok m') :
    id ∉ picks entries i m := by
  intro picked
  rcases guarded with ⟨a, rest, permitted⟩ | held
  · have unlocked := (claim_leases valid.coherent committed).1.unlocked
    rw [permitted.leased.locked] at unlocked
    cases unlocked
  · have claimable := (picks_claimable picked).2
    simp only [Recipient.claimable, Bool.and_eq_true, decide_eq_true_eq] at claimable
    exact held.unqueued claimable.1.1

end Steps

theorem Follows.guarded {m m' : Message} {commits : List Commit} {attempt : AttemptID}
    {id : RecipientID} (follows : Follows m commits m') (valid : Valid m)
    (guarded : Guarded attempt id m)
    (silent : ∀ c ∈ commits, ¬ (c.refutes attempt id ∨ c.acknowledges id)) :
    Guarded attempt id m' := by
  induction follows with
  | nil => exact guarded
  | cons c _ ih =>
    obtain ⟨here, later⟩ := List.forall_mem_cons.mp silent
    rw [not_or] at here
    exact ih (commit_valid c valid) (guarded_step valid guarded here.2 here.1) later

/-- An open fence guards the recipients of its attempt. -/
theorem guarded_of_armed {m m' : Message} {entries : List Entry} {job : Job} {i : ArmInput}
    (valid : Valid m) (armed : armData entries job i m = .ok (m', .armed)) {a : Attempt}
    (current : a ∈ m.attempts) (named : a.id = job.attempt) {id : RecipientID}
    (member : id ∈ a.recipients) : Guarded job.attempt id m' := by
  obtain ⟨b, rest, leased, attempt, -, unblocked, gate⟩ := armData_armed valid.coherent armed
  -- the keys leave only the newest attempt under this identifier
  have same : a = b := by
    rw [leased.attempts] at current
    rcases List.mem_cons.mp current with same | older
    · exact same
    · refine absurd ?_ (leased.fresh valid.coherent.keyed)
      rw [attempt, ← named]
      exact List.mem_map_of_mem older
  subst same
  obtain ⟨d, attempts, key, opened, leased', -⟩ := gate.attempts leased valid.coherent.keyed
  have recipients : d.recipients = a.recipients := congrArg (·.2.2.2) key
  have sending : (m'.row id).status = .sending := by
    cases gate with
    | armed clear =>
      refine (leased.members id member).resolve_right ?_
      simp [unblocked]
  exact .inl ⟨d, rest, leased', (congrArg (·.1) key).trans attempt, opened rfl,
    recipients ▸ member, sending⟩

/-- After the fence of an attempt has opened, a recipient of the attempt is
claimed again only if `Finish` of that attempt has shown that it was not served,
or an operator has acknowledged a duplicate. -/
theorem no_retransmission {db : Db} (reached : Reachable db) {id : MessageID} {m m₁ : Message}
    (found : db.messages id = some m) {job : Job} {i : ArmInput}
    (armed : armData db.entries job i m = .ok (m₁, .armed)) {a : Attempt}
    (current : a ∈ m.attempts) (named : a.id = job.attempt) {r : RecipientID}
    (member : r ∈ a.recipients) (middle : List Op) {m₂ m₃ : Message}
    (later : ((db.after (.transact id (.armData job i))).run middle).messages id = some m₂)
    {c : ClaimInput}
    (claims : claim ((db.after (.transact id (.armData job i))).run middle).entries c m₂ = .ok m₃)
    {b : Attempt} (created : m₃.attempts = b :: m₂.attempts) (included : r ∈ b.recipients) :
    ∃ commit ∈ (db.after (.transact id (.armData job i))).history id middle,
      commit.refutes job.attempt r ∨ commit.acknowledges r := by
  by_contra silent
  have valid := reached.valid found
  have performed : Action.perform db.entries m (.armData job i) = .ok m₁ := by
    simp [Action.perform, armed, Except.map]
  have first : (db.after (.transact id (.armData job i))).messages id = some m₁ := by
    rw [after_of_ok (step_transact rfl found performed), put_self]
  have valid₁ : Valid m₁ := commit_valid ⟨_, _, _, _, performed⟩ valid
  obtain ⟨last, reached₂, follows⟩ := run_follows middle first
  obtain rfl := Option.some.inj (reached₂.symm.trans later)
  have guarded := follows.guarded valid₁ (guarded_of_armed valid armed current named member)
    (by simpa using silent)
  have valid₂ : Valid last := follows.keeps (fun c _ => commit_valid c) valid₁
  refine guarded_unpicked valid₂ guarded claims ?_
  rw [(claim_ok claims).1] at created
  obtain ⟨rfl, -⟩ := List.cons.inj created
  exact included

end Runs

section Witness

attribute [local instance] plain

def resolution (recipient : RecipientID) (now : Int) : Resolution where
  recipient := recipient
  expectedAttempt := 10
  action := .retry
  acknowledgeDuplicate := true
  expiryClock := now
  policyClock := now
  updateClock := now
  now := now

theorem no_retransmission_of_leasedLetter :
    let middle : List Op :=
      [.batch [0] (.recover (recoverAt (2 * minute))),
        .transact 0 (.resolveUnknown (resolution 1 (3 * minute))),
        .transact 0 (.resolveUnknown (resolution 2 (3 * minute)))]
    let armed := leasedLetter.after (.transact 0 (.armData ⟨10, 7⟩ permission))
    ∃ m m', (armed.run middle).messages 0 = some m ∧
      claim (armed.run middle).entries (claimAt 1 11 8 (4 * minute)) m = .ok m' ∧
      ∃ commit ∈ armed.history 0 middle, commit.refutes 10 1 ∨ commit.acknowledges 1 := by
  refine ⟨_, _, rfl, rfl, ?_⟩
  refine @no_retransmission plain leasedLetter ⟨_, rfl⟩ 0 _ _ rfl ⟨10, 7⟩ permission rfl _
    List.mem_cons_self rfl 1 (by decide) _ _ _ rfl (claimAt 1 11 8 (4 * minute)) rfl
    { id := 11, provider := 1, number := 2, claimToken := 8, recipients := [1, 2] } ?_ (by decide)
  rfl

end Witness

end RelayTale.Queue
