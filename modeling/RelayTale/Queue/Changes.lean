import RelayTale.Queue.Frames

/-!
# What can happen to a recipient

A committed action changes the row of a recipient in a few steps, each of which
is one of ten changes. The guards are those that hold in reached states, so a
property of recipients that survives the ten changes survives every run.
-/

namespace RelayTale.Queue

open Guard
open Delivery (Decision)
open Relation (ReflTransGen)

section Dispatch

variable {recipients : List Smtp.Recipient}

theorem Dispatch.result_ids (dispatch : Dispatch) :
    (dispatch.result recipients).recipients.map (·.id) = recipients.map (·.id) := by
  cases dispatch with
  | undecryptable now | unreadable now =>
    simp [Dispatch.result, preparationFailure, Function.comp_def]
  | sent session => exact Delivery.send_ids session recipients

theorem Dispatch.result_coherent (dispatch : Dispatch) {rc : Smtp.RecipientResult}
    (member : rc ∈ (dispatch.result recipients).recipients) :
    Delivery.Coherent (dispatch.result recipients) rc := by
  cases dispatch with
  | undecryptable now | unreadable now =>
    obtain ⟨r, -, rfl⟩ := List.mem_map.mp member
    exact Delivery.Failed.coherent (.inl rfl)
  | sent session =>
    obtain ⟨index, row⟩ := List.getElem?_of_mem member
    exact Delivery.send_coherent row

end Dispatch

section Sound

/-- A scheduled retry belongs to a temporary failure with budget left, and the
window starts with the first attempt. -/
structure Recipient.Sound (r : Recipient) : Prop where
  retry : ∀ instant, r.retryAt = some instant → r.status = .tempFailed ∧ r.retryAutomatic = false ∧
    1 ≤ r.attemptCount ∧ r.attemptCount ≤ 6 ∧
    ∃ started, r.retryStartedAt = some started ∧ instant < started + Delivery.window
  started : r.retryStartedAt.isSome = true ↔ 0 < r.attemptCount

variable {r r' : Recipient}

theorem Recipient.Sound.of_unscheduled (sound : r.Sound) (unscheduled : r'.retryAt = none)
    (count : r'.attemptCount = r.attemptCount) (since : r'.retryStartedAt = r.retryStartedAt) :
    r'.Sound :=
  ⟨by simp [unscheduled], by rw [count, since]; exact sound.started⟩

theorem Recipient.Sound.unscheduled (sound : r.Sound) (other : r.status ≠ .tempFailed) :
    r.retryAt = none := by
  cases scheduled : r.retryAt with
  | none => rfl
  | some instant => exact absurd (sound.retry instant scheduled).1 other

/-- Whatever `Schedule` finds elapsed is still pending. -/
theorem Recipient.Sound.pending_of_elapsed {now : Int} (sound : r.Sound)
    (elapsed : r.elapsed now = true) : r.pending = true := by
  rw [Recipient.elapsed, Bool.or_eq_true, Bool.and_eq_true, Bool.and_eq_true] at elapsed
  rcases elapsed with due | ⟨⟨-, queued⟩, -⟩
  · obtain ⟨instant, scheduled, -⟩ := (Option.any_eq_true _ _).mp due
    simp [Recipient.pending, (sound.retry instant scheduled).1]
  · simp [Recipient.pending, of_decide_eq_true queued]

variable [Primitives] {flags : Flags} {a : Attempt} {out : Smtp.Result} {rc : Smtp.RecipientResult}
variable {d : Option Decision}

/-- The columns that `Finish` never writes. -/
theorem Finished.fixed (sending : r.status = .sending) (finished : Finished flags a out rc r r' d) :
    r'.address = r.address ∧ r'.attemptCount = r.attemptCount ∧
      r'.retryStartedAt = r.retryStartedAt := by
  have other : r.status ≠ .suppressed := by simp [sending]
  cases finished with
  | resumed => simp [Recipient.resume, report_of_not_suppressed other]
  | decided => simp [Recipient.decided, report_of_not_suppressed other]

/-- `Finish` puts a recipient back into the queue only when its envelope was
blocked before DATA and its budget is not used up. -/
theorem Finished.queued (sending : r.status = .sending) (finished : Finished flags a out rc r r' d)
    (queued : r'.status = .queued) :
    a.suppressionBlockedAt.isSome = true ∧ r.attemptCount < 7 ∧
      r'.retryAutomatic = r.retryAutomatic := by
  have other : r.status ≠ .suppressed := by simp [sending]
  cases finished with
  | resumed blocked =>
    simp only [Recipient.resume, report_of_not_suppressed other] at queued ⊢
    split at queued
    · cases queued
    next budget =>
      rw [not_or, Nat.not_le] at budget
      exact ⟨blocked, budget.1, trivial⟩
  | decided _ _ reported =>
    simp only [Recipient.decided, report_of_not_suppressed other] at queued
    split at queued
    · cases queued
    split at queued
    · cases queued
    subst queued
    revert reported
    cases rc.status <;> simp [Status.ofResult]

/-- The row that `Finish` writes is sound. -/
theorem Finished.sound (coherent : Delivery.Coherent out rc) (sending : r.status = .sending)
    (sound : r.Sound) (finished : Finished flags a out rc r r' d) : r'.Sound := by
  have other : r.status ≠ .suppressed := by simp [sending]
  cases finished with
  | resumed _ _ _ _ since =>
    exact sound.of_unscheduled rfl (by simp [Recipient.resume, report_of_not_suppressed other])
      (by simp [Recipient.resume, report_of_not_suppressed other])
  | decided _ _ reported since =>
    rw [report_of_not_suppressed other]
    refine ⟨fun instant scheduled => ?_, sound.started⟩
    simp only [Recipient.decided] at scheduled ⊢
    split at scheduled
    next retried =>
      have temporary := coherent.temporary_of_retry retried.1
      obtain ⟨-, -, ⟨started, begun, positive, few, -, fits⟩, delay⟩ := Delivery.decide_retry retried.1
      obtain rfl := Option.some.inj begun
      obtain rfl := Option.some.inj scheduled
      simp only [decisionBudget, Delivery.maxAttempts] at positive few
      refine ⟨?_, trivial, by omega, by omega, _, since, ?_⟩
      · rw [temporary] at reported
        simp [retried.1, Option.some.inj reported.symm]
      · rw [delay]
        exact fits
    · cases scheduled

end Sound

section Changes

variable [Primitives]

/-- One change of the row of a recipient during a committed action. -/
inductive Change (c : Commit) (id : RecipientID) : Recipient → Recipient → Prop
  | claimed {i : ClaimInput} (action : c.action = .claim i)
      (picked : id ∈ picks c.entries i c.before) :
      Change c id (c.before.row id) ((c.before.row id).claim i.now)
  | suppressed {r : Recipient} (clock : Int)
      (eligible : r.pending = true ∨ r.status = .sending ∧ ∃ job i, c.action = .armData job i) :
      Change c id r (r.suppress clock)
  | expired {r : Recipient} (clock : Int) (uncertain : Bool) (pending : r.pending = true) :
      Change c id r (r.expire clock uncertain)
  | exhausted {r : Recipient} (reason : Delivery.Reason)
      (eligible : r.pending = true ∨ r.status = .sending ∧ ∃ i a rest, c.action = .recover i ∧
        Leased c.before a rest ∧ a.dataArmedAt = none) : Change c id r (r.exhaust reason)
  | promoted {r : Recipient} {i : ScheduleInput} (action : c.action = .schedule i)
      (pending : r.pending = true) (elapsed : r.elapsed i.now = true) (few : r.attemptCount < 7)
      (early : ∀ started, r.retryStartedAt = some started →
        i.workerClock < started + Delivery.window) : Change c id r r.promote
  | finished {r' : Recipient} {flags : Flags} {job : Job} {dispatch : Dispatch}
      {clock now : Int} {a : Attempt} {rest : List Attempt} {rc : Smtp.RecipientResult}
      {d : Option Decision} (action : c.action = .finish flags job dispatch clock now)
      (leased : Leased c.before a rest) (attempt : a.id = job.attempt)
      (member : id ∈ a.recipients) (sending : (c.before.row id).status = .sending)
      (reported : rc ∈ (dispatch.result (c.before.envelope job)).recipients) (named : rc.id = id)
      (finished : Finished flags a (dispatch.result (c.before.envelope job)) rc (c.before.row id)
        r' d) : Change c id (c.before.row id) r'
  | stranded {i : RecoverInput} {a : Attempt} {rest : List Attempt}
      (action : c.action = .recover i) (leased : Leased c.before a rest)
      (sending : (c.before.row id).status = .sending) (permitted : a.dataArmedAt.isSome = true) :
      Change c id (c.before.row id) { c.before.row id with status := .deliveryUnknown }
  | requeued {i : RecoverInput} {a : Attempt} {rest : List Attempt}
      (action : c.action = .recover i) (leased : Leased c.before a rest)
      (sending : (c.before.row id).status = .sending) (unpermitted : a.dataArmedAt = none)
      (budget : (c.before.row id).spent i.now = false) :
      Change c id (c.before.row id) { c.before.row id with status := .queued }
  | resolved {v : Resolution} {a : Attempt} (action : c.action = .resolveUnknown v)
      (named : v.recipient = id) (acknowledged : v.action = .retry → v.acknowledgeDuplicate = true)
      (unknown : (c.before.row id).status = .deliveryUnknown)
      (latest : Message.latestAttempt c.before.attempts id = some a)
      (expected : a.id = v.expectedAttempt) :
      Change c id (c.before.row id) ((c.before.row id).resolve v.action.status v.now)
  | cancelled {r : Recipient} (clock : Int) (pending : r.pending = true) :
      Change c id r (r.cancel clock)

variable {c : Commit} {id : RecipientID} {r r' : Recipient}

theorem Change.sound (change : Change c id r r') (sound : r.Sound) : r'.Sound := by
  cases change with
  | claimed =>
    exact ⟨nofun, by simp [Recipient.claim]⟩
  | suppressed | expired | exhausted | promoted | resolved | cancelled =>
    exact sound.of_unscheduled rfl rfl rfl
  | finished _ _ _ _ sending reported _ finished =>
    exact finished.sound (Dispatch.result_coherent _ reported) sending sound
  | stranded _ _ sending | requeued _ _ sending =>
    exact sound.of_unscheduled (sound.unscheduled (by simp [sending])) rfl rfl

theorem changes_keep {P : Recipient → Prop} (keeps : ∀ r r', Change c id r r' → P r → P r')
    (changes : ReflTransGen (Change c id) r r') (holds : P r) : P r' := by
  induction changes with
  | refl => exact holds
  | tail _ change ih => exact keeps _ _ change ih

theorem changes_sound (changes : ReflTransGen (Change c id) r r') (sound : r.Sound) : r'.Sound :=
  changes_keep (fun _ _ change => change.sound) changes sound

theorem Expires.changes {clock : Int} (expires : Expires clock r r') :
    ReflTransGen (Change c id) r r' := by
  cases expires with
  | kept => exact .refl
  | expired uncertain pending => exact .single (.expired clock uncertain pending)

theorem applyExpiry_changes {m : Message} (clock : Int) (row : m.row id = r) :
    ReflTransGen (Change c id) r ((m.applyExpiry clock).row id) :=
  row ▸ (applyExpiry_row m clock id).changes

theorem Suppresses.changes {clock : Int} {sending : Bool}
    (suppresses : Suppresses c.entries clock sending r r')
    (action : sending = true → ∃ job i, c.action = .armData job i) :
    ReflTransGen (Change c id) r r' := by
  cases suppresses with
  | kept => exact .refl
  | suppressed eligible =>
    refine .single (.suppressed clock ?_)
    cases sending with
    | false => exact .inl eligible
    | true => exact .inr ⟨eligible, action rfl⟩

theorem Schedules.changes {i : ScheduleInput} (action : c.action = .schedule i) (sound : r.Sound)
    (schedules : Schedules i r r') : ReflTransGen (Change c id) r r' := by
  cases schedules with
  | kept => exact .refl
  | exhausted elapsed => exact .single (.exhausted _ (.inl (sound.pending_of_elapsed elapsed)))
  | promoted elapsed _ few early =>
    exact .single (.promoted action (sound.pending_of_elapsed elapsed) elapsed few early)

theorem Recovers.changes {i : RecoverInput} {a : Attempt} {rest : List Attempt}
    (action : c.action = .recover i) (leased : Leased c.before a rest)
    (recovers : Recovers i.now a.dataArmedAt.isSome (c.before.row id) r') :
    ReflTransGen (Change c id) (c.before.row id) r' := by
  cases recovers with
  | kept => exact .refl
  | stranded sending permitted => exact .single (.stranded action leased sending permitted)
  | requeued sending unpermitted budget =>
    have unarmed : a.dataArmedAt = none := by simpa using unpermitted
    exact .single (.requeued action leased sending unarmed budget)
  | exhausted waiting unpermitted =>
    have unarmed : a.dataArmedAt = none := by simpa using unpermitted
    refine .single (.exhausted _ ?_)
    rcases waiting with sending | queued
    · exact .inr ⟨sending, i, a, rest, action, leased, unarmed⟩
    · exact .inl (by simp [Recipient.pending, queued])

theorem Finishing.changes {flags : Flags} {job : Job} {dispatch : Dispatch} {clock now : Int}
    {a b : Attempt} {rest : List Attempt} {rows : RecipientID → Recipient}
    (action : c.action = .finish flags job dispatch clock now)
    (finishing : Finishing flags job (dispatch.result (c.before.envelope job)) clock now c.before
      c.after a b rest rows) :
    ReflTransGen (Change c id) (c.before.row id) (rows id) := by
  by_cases member : id ∈ a.recipients
  · rcases finishing.row member with ⟨-, -, same⟩ | ⟨sending, rc, reported, named, d, finished, -⟩
    · rw [same]
    · exact .single (.finished action finishing.leased finishing.attempt member sending reported
        named finished)
  · rw [finishing.outside id member]

theorem commit_changes (c : Commit) (coherent : Coherent c.before)
    (sound : (c.before.row id).Sound) :
    ReflTransGen (Change c id) (c.before.row id) (c.after.row id) := by
  cases commit_performed c coherent with
  | claimed action _ same =>
    rw [same]
    simp only [claimed]
    split
    next picked => exact .single (.claimed action picked)
    · exact .refl
  | @armed job i _ _ _ action _ _ _ armed same =>
    rw [← same]
    cases armed with
    | suppressed hit =>
      have suppresses := suppressHits_row c.entries i.policyClock true c.before id
      exact suppresses.changes fun _ => ⟨job, i, action⟩
    | expired | armed => exact .refl
  | finished action finishing =>
    refine (finishing.changes action).trans ?_
    rw [finishing.message, Message.refresh_row]
    exact applyExpiry_changes _ rfl
  | @recovered i a _ action leased same =>
    obtain ⟨rows, status, next, completed, recovers, shape⟩ :=
      recoverAttempt_eq i a.id a.dataArmedAt.isSome c.before
    rw [same, shape, Message.refresh_row]
    exact ((recovers id).changes action leased).trans (applyExpiry_changes _ rfl)
  | rewritten rewrites _ _ same =>
    rw [same, Message.refresh_row]
    cases rewrites with
    | @scheduled i action =>
      have expired : ReflTransGen (Change c id) (c.before.row id) _ :=
        applyExpiry_changes (m := c.before) i.expiryClock rfl
      exact expired.trans
        ((scheduleRow_schedules i _).changes action (changes_sound expired sound))
    | expired => exact (applyExpiry_row c.before _ id).changes
    | suppressed => exact (suppressHits_row c.entries _ false c.before id).changes (by rintro ⟨⟩)
    | resolved action committed =>
      obtain ⟨a, acknowledged, -, -, latest, unknown, -, expected, -⟩ := resolveUnknown_ok committed
      simp only
      split
      next named =>
        subst named
        exact .single (.resolved action rfl acknowledged unknown latest expected)
      · exact .refl
  | @cancelled _ _ clock _ _ same =>
    rw [same]
    simp only
    split
    next pending => exact .single (.cancelled clock pending)
    · exact .refl
  | recorded _ _ _ same | repeated _ same | retired _ _ same => rw [same]

end Changes

section Valid

variable [Primitives] {entries : List Entry} {s : Submission} {m : Message}

structure Valid (m : Message) : Prop where
  coherent : Coherent m
  sound : ∀ id, (m.row id).Sound

theorem Valid.changes {c : Commit} (valid : Valid c.before) (id : RecipientID) :
    ReflTransGen (Change c id) (c.before.row id) (c.after.row id) :=
  commit_changes c valid.coherent (valid.sound id)

theorem commit_valid (c : Commit) (valid : Valid c.before) : Valid c.after :=
  ⟨commit_coherent c valid.coherent, fun id => changes_sound (valid.changes id) (valid.sound id)⟩

section

variable (created : s.enqueue entries = .ok m)

include created

/-- A new message has no attempts behind it. -/
theorem enqueue_fresh :
    m.attempts = [] ∧ m.route = none ∧ ∀ id, (m.row id).attemptCount = 0 ∧
      (m.row id).status ∈ [Status.queued, .sandboxStored, .suppressed] := by
  have status : s.status ∈ [Status.queued, .sandboxStored, .suppressed] := by
    unfold Submission.status
    split <;> simp
  have hits (id : RecipientID) :
      ((s.message.suppressHits entries s.policyClock false).row id).attemptCount = 0 ∧
        ((s.message.suppressHits entries s.policyClock false).row id).status ∈
          [Status.queued, .sandboxStored, .suppressed] := by
    generalize row_eq : (s.message.suppressHits entries s.policyClock false).row id = r
    cases row_eq ▸ suppressHits_row entries s.policyClock false s.message id with
    | kept => exact ⟨rfl, status⟩
    | suppressed => exact ⟨rfl, by simp [Recipient.suppress]⟩
  rcases submission_eq created with ⟨-, rfl⟩ | ⟨-, ⟨-, rfl⟩ | ⟨-, rfl⟩⟩
  · exact ⟨rfl, rfl, fun _ => ⟨rfl, status⟩⟩
  · exact ⟨rfl, rfl, hits⟩
  · exact ⟨rfl, rfl, hits⟩

/-- A new row is the submitted one, or suppressed right away. -/
theorem enqueue_row (id : RecipientID) :
    m.row id = s.message.row id ∨ m.row id = (s.message.row id).suppress s.policyClock := by
  have hits : (s.message.suppressHits entries s.policyClock false).row id = s.message.row id ∨
      (s.message.suppressHits entries s.policyClock false).row id =
        (s.message.row id).suppress s.policyClock := by
    generalize row_eq : (s.message.suppressHits entries s.policyClock false).row id = r
    cases row_eq ▸ suppressHits_row entries s.policyClock false s.message id with
    | kept => exact .inl rfl
    | suppressed => exact .inr rfl
  rcases submission_eq created with ⟨-, rfl⟩ | ⟨-, ⟨-, rfl⟩ | ⟨-, rfl⟩⟩
  · exact .inl rfl
  · exact hits
  · exact hits

theorem enqueue_sound (id : RecipientID) : (m.row id).Sound := by
  have fresh : (s.message.row id).Sound := ⟨nofun, by simp [Submission.message]⟩
  rcases enqueue_row created id with same | same
  · exact same ▸ fresh
  · rw [same]
    exact fresh.of_unscheduled rfl rfl rfl

theorem enqueue_valid : Valid m :=
  ⟨enqueue_coherent created, enqueue_sound created⟩

end

theorem Reachable.valid {db : Db} (reached : Reachable db) {id : MessageID}
    (found : db.messages id = some m) : Valid m :=
  reached.invariant (fun _ _ _ => enqueue_valid) commit_valid found

theorem Follows.row_keeps {m m' : Message} {commits : List Commit} {id : RecipientID}
    {P : Recipient → Prop} (follows : Follows m commits m') (valid : Valid m)
    (keeps : ∀ c ∈ commits, Valid c.before → ∀ r r', Change c id r r' → P r → P r')
    (holds : P (m.row id)) : P (m'.row id) := by
  induction follows with
  | nil => exact holds
  | cons c _ ih =>
    have step := keeps c List.mem_cons_self valid
    refine ih (commit_valid c valid) (fun d member => keeps d (List.mem_cons_of_mem c member)) ?_
    exact changes_keep step (valid.changes id) holds

end Valid

end RelayTale.Queue
