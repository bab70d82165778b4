import RelayTale.Queue.Endings
import RelayTale.Queue.Retransmission
import RelayTale.Queue.Terminal

/-!
# Possible deliveries of ended recipients

A recipient that policy has ended says whether it may have been delivered.
Expiry takes the flag from all attempts and cancellation refuses messages with
uncertain results, but suppression always writes that nothing was delivered. An
operator's retry of an unknown recipient can be suppressed afterwards; as long
as that does not happen, no possible delivery is hidden.
-/

namespace RelayTale.Queue

open Guard
open Delivery (Decision)

section Decisions

def policyActions : List Delivery.Action := [.expire, .suppress, .cancel]

/-- Only ended recipients carry the decisions of policy. -/
def Recipient.Consistent (r : Recipient) : Prop :=
  ∀ d, r.decision = some d → d.action ∈ policyActions → r.status ∈ policyStatuses

variable {r r' : Recipient}

theorem Recipient.Consistent.of_same (consistent : r.Consistent)
    (open_ : r.status ∉ policyStatuses) (same : r'.decision = r.decision) : r'.Consistent :=
  fun d decided policy => absurd (consistent d (same ▸ decided) policy) open_

theorem Recipient.Consistent.of_decision {d : Decision} (decided : r.decision = some d)
    (other : d.action ∉ policyActions) : r.Consistent := by
  intro e found policy
  obtain rfl := Option.mem_unique decided found
  exact absurd policy other

variable [Primitives]

theorem decide_not_policy (e : Delivery.Evidence) (b : Delivery.Budget) :
    (e.decide b).action ∉ policyActions := by
  cases Delivery.decide_justified e b with
  | accept action | unknown action | permanent action | retry action | manual action =>
    simp [action, policyActions]

theorem Finished.consistent {flags : Flags} {a : Attempt} {out : Smtp.Result}
    {rc : Smtp.RecipientResult} {d : Option Decision} (finished : Finished flags a out rc r r' d) :
    r'.Consistent := by
  cases finished with
  | resumed =>
    refine .of_decision rfl ?_
    simp only [Recipient.resumeDecision]
    split <;> simp [policyActions]
  | decided => exact .of_decision rfl (decide_not_policy _ _)

theorem Change.consistent {c : Commit} {id : RecipientID} (change : Change c id r r')
    (consistent : r.Consistent) : r'.Consistent := by
  have waiting (pending : r.pending = true) : r.status ∉ policyStatuses := by
    rcases pending_iff.mp pending with status | status <;> simp [status, policyStatuses]
  cases change with
  | claimed action picked =>
    exact consistent.of_same (by simp [picked_queued picked, policyStatuses]) rfl
  | suppressed =>
    intro _ _ _
    simp [Recipient.suppress, policyStatuses]
  | expired =>
    intro _ _ _
    simp [Recipient.expire, policyStatuses]
  | cancelled =>
    intro _ _ _
    simp [Recipient.cancel, policyStatuses]
  | exhausted => exact .of_decision rfl (by simp [Recipient.exhaustDecision, policyActions])
  | promoted _ pending => exact consistent.of_same (waiting pending) rfl
  | finished _ _ _ _ _ _ _ finished => exact finished.consistent
  | stranded _ _ sending | requeued _ _ sending =>
    exact consistent.of_same (by simp [sending, policyStatuses]) rfl
  | resolved => exact .of_decision rfl (by simp [Recipient.resolveDecision, policyActions])

end Decisions

section Runs

variable [Primitives] {c : Commit} {id : RecipientID}
variable {m : Message} {message : MessageID}

/-- A decision by which policy has ended the recipient admits what attempts reported. -/
def Disclosed (m : Message) (id : RecipientID) : Prop :=
  ∀ d, (m.row id).decision = some d → d.action ∈ policyActions → m.everUnknown id = true →
    d.mayHaveDelivered = true

/-- The commit suppresses a recipient that some attempt has left unknown. -/
def Commit.conceals (id : RecipientID) (c : Commit) : Bool :=
  c.suppresses id && c.before.everUnknown id

/-- What the recipient's decision rests on. -/
structure Accounted (m : Message) (id : RecipientID) : Prop where
  valid : Valid m
  plain : ∀ a ∈ m.attempts, a.Plain
  consistent : (m.row id).Consistent
  disclosed : Disclosed m id

omit [Primitives] in
theorem certain_of_cancellable (evidence : uncancellable m = false) : m.everUnknown id = false := by
  rw [Bool.eq_false_iff]
  intro unknown
  obtain ⟨a, member, inside, reported⟩ := everUnknown_iff.mp unknown
  simp only [uncancellable, Bool.or_eq_false_iff, List.any_eq_false, decide_eq_true_eq] at evidence
  exact evidence.1.2 a member (List.any_eq_true.mpr ⟨id, inside, by simp [reported]⟩)

theorem commit_disclosed (accounted : Accounted c.before id)
    (consistent : (c.after.row id).Consistent) (shown : c.conceals id = false) :
    Disclosed c.after id := by
  obtain ⟨valid, plain, -, disclosed⟩ := accounted
  intro d decided policy unknown
  have ended := consistent d decided policy
  have before (rest : c.action.closes = true → (c.before.row id).status ≠ .sending) :
      c.before.everUnknown id = true :=
    everUnknown_of_after valid.coherent plain rest unknown
  cases commit_ends_by_policy c valid ended with
  | kept same =>
    rw [same] at decided ended
    have rest : (c.before.row id).status ≠ .sending := fun sending => by
      simp [sending, policyStatuses] at ended
    exact disclosed d decided policy (before fun _ => rest)
  | suppressed hits row =>
    have certain : c.before.everUnknown id = false := by
      simpa [Commit.conceals, hits] using shown
    have open_ : c.action.closes ≠ true := by
      unfold Commit.suppresses at hits
      split at hits <;> simp_all [Action.closes]
    rw [before fun closes => absurd closes open_] at certain
    cases certain
  | expired _ _ row =>
    rw [row] at decided
    obtain rfl := Option.some.inj decided
    simp [Recipient.expireDecision, unknown]
  | cancelled action evidence =>
    rw [certain_of_cancellable evidence] at before
    cases before (by simp [action, Action.closes])

theorem commit_accounted (accounted : Accounted c.before id) (shown : c.conceals id = false) :
    Accounted c.after id := by
  have consistent : (c.after.row id).Consistent :=
    changes_keep (fun _ _ change => change.consistent) (accounted.valid.changes id)
      accounted.consistent
  exact ⟨commit_valid c accounted.valid, commit_plain accounted.valid.coherent accounted.plain,
    consistent, commit_disclosed accounted consistent shown⟩

theorem enqueue_accounted {entries : List Entry} {s : Submission}
    (created : s.enqueue entries = .ok m) (id : RecipientID) : Accounted m id := by
  obtain ⟨unattempted, -, -⟩ := enqueue_fresh created
  refine ⟨enqueue_valid created, by simp [unattempted], fun d decided _ => ?_, fun d _ _ unknown => ?_⟩
  · rcases enqueue_row created id with same | same
    · rw [same] at decided
      cases decided
    · rw [same]
      simp [Recipient.suppress, policyStatuses]
  · simp [Message.everUnknown, unattempted] at unknown

theorem Reachable.plain {db : Db} (reached : Reachable db) (found : db.messages message = some m) :
    ∀ a ∈ m.attempts, a.Plain := by
  have invariant : Coherent m ∧ ∀ a ∈ m.attempts, a.Plain :=
    reached.invariant (P := fun m => Coherent m ∧ ∀ a ∈ m.attempts, a.Plain)
      (fun _ _ _ created => ⟨enqueue_coherent created, by simp [(enqueue_fresh created).1]⟩)
      (fun c holds => ⟨commit_coherent c holds.1, commit_plain holds.1 holds.2⟩) found
  exact invariant.2

/-- Once some attempt has reported the recipient as unknown, this stays on record. -/
theorem run_everUnknown {db : Db} (reached : Reachable db) (later : List Op) {m m' : Message}
    (found : db.messages message = some m) (unknown : m.everUnknown id = true)
    (found' : (db.run later).messages message = some m') : m'.everUnknown id = true := by
  obtain ⟨last, reached', follows⟩ := run_follows later found
  obtain rfl := Option.mem_unique reached' found'
  refine (follows.keeps
    (P := fun m => Coherent m ∧ (∀ a ∈ m.attempts, a.Plain) ∧ m.everUnknown id = true)
    (fun c _ holds => ?_) ⟨reached.coherent found, reached.plain found, unknown⟩).2.2
  exact ⟨commit_coherent c holds.1, commit_plain holds.1 holds.2.1,
    commit_everUnknown holds.1 holds.2.1 holds.2.2⟩

/-- In a run in which no commit suppresses the recipient while some attempt has
left it unknown, no decision of policy hides that it may have been delivered. -/
theorem possible_delivery_disclosed {earlier later : List Op} {message : MessageID}
    {m₁ m : Message} {r : RecipientID}
    (uncertain : (Db.empty.run earlier).messages message = some m₁)
    (unknown : m₁.everUnknown r = true)
    (found : (Db.empty.run (earlier ++ later)).messages message = some m)
    (shown : (Db.empty.history message (earlier ++ later)).all (fun c => !c.conceals r) = true)
    {d : Decision} (decided : (m.row r).decision = some d)
    (policy : d.action ∈ [Delivery.Action.expire, .suppress, .cancel]) :
    d.mayHaveDelivered = true := by
  obtain ⟨entries, s, fresh, created, follows⟩ := run_created (earlier ++ later) rfl found
  have accounted : Accounted m r := by
    refine follows.keeps (P := (Accounted · r)) (fun c inside holds => ?_)
      (enqueue_accounted created r)
    exact commit_accounted holds (by simpa using List.all_eq_true.mp shown c inside)
  have still : m.everUnknown r = true := by
    refine run_everUnknown ⟨earlier, rfl⟩ later uncertain unknown ?_
    simpa [Db.run] using found
  exact accounted.disclosed d decided policy still

end Runs

section Witness

attribute [local instance] plain

/-- The worker is lost after its permission and an operator retries the first
recipient. -/
def retriedUnknown (s : Submission) : List Op :=
  [.enqueue 0 s, .transact 0 (.claim (claimAt 1 10 7 1)),
    .transact 0 (.armData ⟨10, 7⟩ permission), .batch [0] (.recover (recoverAt (2 * minute))),
    .transact 0 (.resolveUnknown (resolution 1 (3 * minute)))]

def suppressedRetry : List Op :=
  [.addSuppression ⟨1, "a@example.test", none, 4 * minute, 4 * minute, 4 * minute⟩,
    .batch [0] (.sweepSuppressed (5 * minute) (5 * minute) (5 * minute))]

theorem possible_delivery_hidden :
    ∃ m₁ m d, (Db.empty.run (retriedUnknown letter)).messages 0 = some m₁ ∧ m₁.everUnknown 1 = true ∧
      (Db.empty.run (retriedUnknown letter ++ suppressedRetry)).messages 0 = some m ∧
      (m.row 1).decision = some d ∧ d.action = .suppress ∧ d.mayHaveDelivered = false :=
  ⟨_, _, _, rfl, rfl, rfl, rfl, rfl, rfl⟩

def datedLetter : Submission := { letter with expiresAt := some (10 * minute) }

def expiredRetry : List Op :=
  [.batch [0] (.sweepExpired (11 * minute) (11 * minute) (11 * minute))]

theorem possible_delivery_disclosed_of_expiredRetry :
    ∃ m d, (Db.empty.run (retriedUnknown datedLetter ++ expiredRetry)).messages 0 = some m ∧
      (m.row 1).decision = some d ∧ d.action = .expire ∧ d.mayHaveDelivered = true := by
  refine ⟨_, _, rfl, rfl, rfl, ?_⟩
  exact @possible_delivery_disclosed plain (retriedUnknown datedLetter) expiredRetry 0 _ _ 1 rfl rfl
    rfl rfl _ rfl (by decide)

end Witness

end RelayTale.Queue
