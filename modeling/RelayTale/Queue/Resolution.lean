import RelayTale.Queue.Failover
import RelayTale.Queue.Retransmission

/-!
# Resolving unknown recipients

The status of a recipient comes from the policy, the status of its row in the
attempt from the conversation. An operator can resolve an unknown recipient only
where both say so. They agree as long as the server answers RCPT with codes that
the protocol provides for it.
-/

namespace RelayTale.Queue

open Guard
open Delivery (Decision)

section Regular

variable [Primitives]

/-- The conversation behind the result had only regular replies to RCPT. -/
def Dispatch.regular (recipients : List Smtp.Recipient) : Dispatch → Bool
  | .sent session => Delivery.rcptRegular session recipients
  | _ => true

/-- Where the commit is a `Finish`, its conversation was regular. -/
def Commit.regular (c : Commit) : Bool :=
  match c.action with
  | .finish _ job dispatch _ _ => dispatch.regular (c.before.envelope job)
  | _ => true

variable {recipients : List Smtp.Recipient} {dispatch : Dispatch} {rc : Smtp.RecipientResult}

/-- The policy is uncertain only where the conversation is. -/
theorem Dispatch.unknown_of_regular (regular : dispatch.regular recipients = true)
    (reported : rc ∈ (dispatch.result recipients).recipients) {budget : Delivery.Budget}
    (uncertain : ((Delivery.evidence (dispatch.result recipients) rc).decide budget).action =
      .unknown) : rc.status = .unknown := by
  generalize decision_eq :
    (Delivery.evidence (dispatch.result recipients) rc).decide budget = d at uncertain
  cases decision_eq ▸ Delivery.decide_justified _ budget with
  | accept action | permanent action | retry action | manual action =>
    cases action.symm.trans uncertain
  | unknown _ uncertain other =>
    cases dispatch with
    | undecryptable now | unreadable now =>
      obtain ⟨r, -, rfl⟩ := List.mem_map.mp reported
      rcases uncertain with ⟨-, final, -⟩ | unknown | ⟨-, started, -⟩
      · cases final.1
      · exact unknown
      · cases started
    | sent session =>
      obtain ⟨index, row⟩ := List.getElem?_of_mem reported
      exact Delivery.send_uncertain regular row uncertain other

/-- Of a sending recipient `Finish` makes an unknown one only if the row of the
attempt is unknown. -/
theorem Finished.unknown {flags : Flags} {a : Attempt} {r r' : Recipient} {d : Option Decision}
    (regular : dispatch.regular recipients = true)
    (reported : rc ∈ (dispatch.result recipients).recipients) (sending : r.status = .sending)
    (finished : Finished flags a (dispatch.result recipients) rc r r' d)
    (unknown : r'.status = .deliveryUnknown) : rc.status = .unknown := by
  have other : r.status ≠ .suppressed := by simp [sending]
  cases finished with
  | resumed =>
    simp only [Recipient.resume] at unknown
    split at unknown <;> cases unknown
  | decided _ _ known =>
    rw [report_of_not_suppressed other] at unknown
    simp only [Recipient.decided] at unknown
    split at unknown
    · cases unknown
    split at unknown
    next uncertain => exact Dispatch.unknown_of_regular regular reported uncertain
    · subst unknown
      revert known
      cases rc.status <;> simp [Status.ofResult]

end Regular

section Backed

variable [Primitives] {c : Commit} {id : RecipientID}

def Backed (m : Message) : Prop :=
  ∀ id ∈ m.recipients, (m.row id).status = .deliveryUnknown →
    ∀ a rest, m.attempts = a :: rest → (a.row id).status = .reported .unknown

theorem unknown_closes (valid : Valid c.before)
    (unknown : (c.after.row id).status = .deliveryUnknown) :
    (c.before.row id).status = .deliveryUnknown ∨ c.action.closes = true := by
  refine changes_keep (P := fun r => r.status = .deliveryUnknown →
    (c.before.row id).status = .deliveryUnknown ∨ c.action.closes = true)
    (fun r r' change _ => ?_) (valid.changes id) .inl unknown
  cases change with
  | claimed | suppressed | expired | exhausted | promoted | requeued | cancelled => rintro ⟨⟩
  | finished action | stranded action => exact fun _ => .inr (by rw [action]; rfl)
  | @resolved v =>
    simp only [Recipient.resolve]
    cases v.action <;> rintro ⟨⟩

omit [Primitives] in
theorem Expires.unknown {clock : Int} {r r' : Recipient} (expires : Expires clock r r')
    (unknown : r'.status = .deliveryUnknown) : r.status = .deliveryUnknown := by
  cases expires with
  | kept => exact unknown
  | expired => cases unknown

/-- While a message is leased none of its recipients is unknown. -/
theorem Placed.known (placed : Placed c.before) {a : Attempt} {rest : List Attempt}
    (leased : Leased c.before a rest) (member : id ∈ c.before.recipients) :
    (c.before.row id).status ≠ .deliveryUnknown := by
  intro unknown
  obtain ⟨b, older, attempts, inside⟩ := placed.routed.unknown id member unknown
  obtain ⟨rfl, -⟩ := List.cons.inj (leased.attempts.symm.trans attempts)
  rcases leased.members id inside with sending | ⟨-, suppressed⟩
  · cases unknown.symm.trans sending
  · cases unknown.symm.trans suppressed

theorem finish_backed {flags : Flags} {job : Job} {dispatch : Dispatch} {clock now : Int}
    (placed : Placed c.before) (action : c.action = .finish flags job dispatch clock now)
    (regular : dispatch.regular (c.before.envelope job) = true) : Backed c.after := by
  have performed := c.performed
  rw [action] at performed
  obtain ⟨a, b, rest, rows, finishing⟩ := finish_finishing placed.valid.coherent performed
  intro id member unknown newest older attempts
  rw [finishing.framed.recipients] at member
  rw [finishing.message] at unknown attempts
  obtain ⟨rfl, -⟩ := List.cons.inj (show b :: rest = newest :: older from attempts)
  have reported := (applyExpiry_row _ clock id).unknown unknown
  have known := placed.known finishing.leased member
  by_cases inside : id ∈ a.recipients
  · rcases finishing.row inside with ⟨-, -, same⟩ | ⟨sending, rc, listed, -, d, finished, kept⟩
    · exact absurd (same ▸ reported) known
    · rw [kept, finished.unknown regular listed sending reported]
  · exact absurd (finishing.outside id inside ▸ reported) known

theorem recover_backed {i : RecoverInput} (placed : Placed c.before)
    (action : c.action = .recover i) : Backed c.after := by
  have performed := c.performed
  rw [action] at performed
  obtain ⟨a, rest, leased, -, same⟩ := recover_leased placed.valid.coherent performed
  have attempts := recoverAttempt_attempts leased placed.valid.coherent.keyed i a.dataArmedAt.isSome
  have framed := recoverAttempt_framed i a.id a.dataArmedAt.isSome c.before
  obtain ⟨rows, status, next, completed, recovers, shape⟩ :=
    recoverAttempt_eq i a.id a.dataArmedAt.isSome c.before
  rw [← same] at attempts framed shape
  intro id member unknown newest older listed
  rw [framed.recipients] at member
  obtain ⟨rfl, -⟩ := List.cons.inj (attempts.symm.trans listed)
  rw [shape] at unknown
  have stranded : (rows id).status = .deliveryUnknown :=
    (applyExpiry_row _ i.expiryClock id).unknown unknown
  generalize row_eq : rows id = row at stranded
  cases row_eq ▸ recovers id with
  | kept => exact absurd stranded (placed.known leased member)
  | stranded _ permitted => simp [Attempt.abandoned, permitted]
  | requeued | exhausted => cases stranded

/-- Apart from the ends of attempts, no action changes the newest attempt of a
message that has unknown recipients. -/
theorem commit_backed (placed : Placed c.before) (regular : c.regular = true) (backed : Backed c.before) :
    Backed c.after := by
  by_cases closes : c.action.closes = true
  · cases action : c.action with
    | finish flags job dispatch clock now =>
      rw [Commit.regular, action] at regular
      exact finish_backed placed action regular
    | recover i => exact recover_backed placed action
    | _ => simp [action, Action.closes] at closes
  · intro id member unknown
    rw [commit_recipients c placed.valid.coherent] at member
    have before := (unknown_closes placed.valid unknown).resolve_right closes
    obtain ⟨-, ⟨i, action⟩ | written⟩ := commit_frame c placed.valid.coherent
    · have performed := c.performed
      rw [action] at performed
      exact absurd before
        (claim_known placed.valid placed.projected placed.shelved performed member)
    · cases written with
      | unchanged same =>
        rw [same]
        exact backed id member before
      | newest leased => exact absurd before (placed.known leased member)

/-- In every run with regular conversations only, the latest attempt of an
unknown recipient is unknown too, so its operator can mark it. -/
theorem unknown_resolvable {ops : List Op} {message : MessageID} {m : Message}
    (found : (Db.empty.run ops).messages message = some m)
    (regular : (Db.empty.history message ops).all Commit.regular = true)
    (unlocked : m.lockedBy = none) {id : RecipientID} (member : id ∈ m.recipients)
    (unknown : (m.row id).status = .deliveryUnknown) :
    ∃ a, Message.latestAttempt m.attempts id = some a ∧
      (a.row id).status = .reported .unknown ∧
      ∀ v : Resolution, v.recipient = id → v.expectedAttempt = a.id →
        v.action = .markDelivered ∨ v.action = .markFailed →
        ∃ m', resolveUnknown (Db.empty.run ops).entries v m = .ok m' := by
  obtain ⟨entries, s, fresh, created, follows⟩ := run_created ops rfl found
  have invariant : Placed m ∧ Backed m := by
    refine follows.keeps (P := fun m => Placed m ∧ Backed m) (fun c inside holds => ?_) ?_
    · exact ⟨commit_placed c holds.1, commit_backed holds.1 (List.all_eq_true.mp regular c inside) holds.2⟩
    · obtain ⟨unattempted, -, -⟩ := enqueue_fresh created
      refine ⟨enqueue_placed created, fun _ _ _ a rest attempts => ?_⟩
      cases unattempted.symm.trans attempts
  obtain ⟨placed, backed⟩ := invariant
  obtain ⟨a, rest, attempts, inside⟩ := placed.routed.unknown id member unknown
  have latest : Message.latestAttempt m.attempts id = some a := by
    rw [latestAttempt_eq placed.valid.coherent.keyed.numbers, attempts, lastTry_cons_of_mem inside]
  have reported := backed id member unknown a rest attempts
  refine ⟨a, latest, reported, ?_⟩
  rintro v rfl expected marks
  have marked : v.action ≠ .retry := by
    rcases marks with mark | mark <;> simp [mark]
  simp only [resolveUnknown, do_eq_ok, require_eq_ok, demand_eq_ok, pure_eq_ok, exists_const]
  exact ⟨_, fun retry => absurd retry marked, member, unlocked, a, latest,
    ⟨unknown, reported, expected.symm⟩, fun retry => absurd retry marked,
    fun retry => absurd retry marked, fun retry => absurd retry marked,
    fun retry => absurd retry marked, rfl⟩

end Backed

section Witness

attribute [local instance] plain

def marking (recipient : RecipientID) (now : Int) : Resolution :=
  { resolution recipient now with action := .markDelivered, acknowledgeDuplicate := false }

/-- A reply of 300 to the second recipient, and the body is accepted. -/
def oddRun : List Op :=
  sentRun (answeredSession (.reply ⟨300, []⟩) (.reply ⟨250, []⟩) 3)

theorem unknown_unresolvable :
    ∃ m a, (Db.empty.run oddRun).messages 0 = some m ∧ m.lockedBy = none ∧ 2 ∈ m.recipients ∧
      (m.row 2).status = .deliveryUnknown ∧ Message.latestAttempt m.attempts 2 = some a ∧
      a.id = 10 ∧ (a.row 2).status = .reported .temporary ∧
      resolveUnknown (Db.empty.run oddRun).entries (marking 2 4) m = .error .staleResolution := by
  have check : ((Db.empty.run oddRun).messages 0).any (fun m =>
      decide (m.lockedBy = none ∧ 2 ∈ m.recipients ∧ (m.row 2).status = .deliveryUnknown) &&
      ((Message.latestAttempt m.attempts 2).any fun a =>
        decide (a.id = 10 ∧ (a.row 2).status = .reported .temporary)) &&
      match resolveUnknown (Db.empty.run oddRun).entries (marking 2 4) m with
      | .error refusal => decide (refusal = .staleResolution)
      | .ok _ => false) = true := by
    decide +kernel
  obtain ⟨m, found, check⟩ := (Option.any_eq_true _ _).mp check
  rw [Bool.and_eq_true, Bool.and_eq_true, decide_eq_true_eq] at check
  obtain ⟨⟨⟨unlocked, member, unknown⟩, tried⟩, refused⟩ := check
  obtain ⟨a, latest, reported⟩ := (Option.any_eq_true _ _).mp tried
  obtain ⟨named, reported⟩ := of_decide_eq_true reported
  refine ⟨m, a, found, unlocked, member, unknown, latest, named, reported, ?_⟩
  split at refused
  next same => rw [same, of_decide_eq_true refused]
  · cases refused

def brokenRun : List Op :=
  sentRun (answeredSession (.reply ⟨550, []⟩) (.broken 0 { eof := true }) 3)

theorem unknown_resolvable_of_brokenRun :
    ∃ m m', (Db.empty.run brokenRun).messages 0 = some m ∧
      (m.row 1).status = .deliveryUnknown ∧ (m.row 2).status = .permFailed ∧
      resolveUnknown (Db.empty.run brokenRun).entries (marking 1 4) m = .ok m' := by
  have check : ((Db.empty.run brokenRun).messages 0).any (fun m =>
      decide (m.lockedBy = none ∧ 1 ∈ m.recipients ∧ (m.row 1).status = .deliveryUnknown ∧
        (m.row 2).status = .permFailed) &&
      (Message.latestAttempt m.attempts 1).all fun a => decide (a.id = 10)) = true := by
    decide +kernel
  have regular : (Db.empty.history 0 brokenRun).all Commit.regular = true := by decide +kernel
  obtain ⟨m, found, check⟩ := (Option.any_eq_true _ _).mp check
  rw [Bool.and_eq_true, decide_eq_true_eq] at check
  obtain ⟨⟨unlocked, member, unknown, failed⟩, named⟩ := check
  obtain ⟨a, latest, -, resolves⟩ :=
    @unknown_resolvable plain brokenRun 0 m found regular unlocked 1 member unknown
  rw [latest, Option.all_some, decide_eq_true_eq] at named
  obtain ⟨m', resolved⟩ := resolves (marking 1 4) rfl named.symm (.inl rfl)
  exact ⟨m, m', found, unknown, failed, resolved⟩

end Witness

end RelayTale.Queue
