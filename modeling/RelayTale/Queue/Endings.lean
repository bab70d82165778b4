import RelayTale.Queue.Changes

/-!
# How attempts go on and how recipients end

A commit leaves the attempts alone, adds one, or rewrites the one in progress.
A recipient is ended by policy when it is suppressed, cancelled or overtaken by
the deadline of its message, and the flag that a delivery is possible is set
from the attempts as the commit leaves them.
-/

namespace RelayTale.Queue

open Guard
open Delivery (Decision)

section Attempts

variable [Primitives]

inductive Rewritten (c : Commit) (a : Attempt) : Attempt → Prop
  | suppressed {job : Job} {i : ArmInput} (action : c.action = .armData job i)
      (unarmed : a.dataArmedAt = none) (unexpired : a.expiryBlockedAt = none) :
      Rewritten c a { a with suppressionBlockedAt := some i.policyClock }
  | expired {job : Job} {i : ArmInput} (action : c.action = .armData job i)
      (unarmed : a.dataArmedAt = none) (unblocked : a.suppressionBlockedAt = none)
      (elapsed : c.before.expiresAt.any (· ≤ i.deadlineClock) = true) :
      Rewritten c a { a with expiryBlockedAt := some i.deadlineClock }
  | armed {job : Job} {i : ArmInput} (action : c.action = .armData job i)
      (unblocked : a.suppressionBlockedAt = none) (unexpired : a.expiryBlockedAt = none)
      (early : c.before.expiresAt.all (i.deadlineClock < ·) = true)
      (due : c.before.scheduleAt.all (· ≤ i.deadlineClock) = true) :
      Rewritten c a { a with dataArmedAt := some i.deadlineClock }
  | recorded (events : List Smtp.Event) : Rewritten c a { a with events }
  | finished {flags : Flags} {job : Job} {dispatch : Dispatch} {clock now : Int} {b : Attempt}
      (action : c.action = .finish flags job dispatch clock now) (keeps : a.Keeps b)
      (ended : b.result ≠ .pending)
      (fenced : a.suppressionBlockedAt.isSome = true → ∀ id ∈ a.recipients,
        (b.row id).status ≠ .reported .unknown) : Rewritten c a b
  | abandoned {i : RecoverInput} (action : c.action = .recover i) :
      Rewritten c a (a.abandoned a.dataArmedAt.isSome)

inductive Sequel (c : Commit) : Prop
  | unchanged (same : c.after.attempts = c.before.attempts)
  | claimed {i : ClaimInput} (action : c.action = .claim i)
      (attempts : c.after.attempts =
        i.attemptOf (picks c.entries i c.before) c.before :: c.before.attempts)
  | rewritten {a b : Attempt} {rest : List Attempt} {f : Attempt → Attempt}
      (leased : Leased c.before a rest) (rewritten : Rewritten c a b)
      (added : ∀ x, ∃ events, f x = { x with events })
      (attempts : c.after.attempts = b :: rest.map f)

theorem armData_clocks {entries : List Entry} {m : Message} {job : Job} {i : ArmInput}
    {answer : Message × Gate} (committed : armData entries job i m = .ok answer) :
    (∃ a, m.current job = some a ∧ a.expiryBlockedAt = none) ∧
    (answer.2 = .expired → m.expiresAt.any (· ≤ i.deadlineClock) = true) ∧
    (answer.2 = .armed → m.expiresAt.all (i.deadlineClock < ·) = true ∧
      m.scheduleAt.all (· ≤ i.deadlineClock) = true) := by
  simp only [armData, do_eq_ok, fence_eq_ok, demand_eq_ok, require_eq_ok, exists_const] at committed
  obtain ⟨-, a, current, -, unexpired, -, committed⟩ := committed
  refine ⟨⟨a, current, unexpired⟩, ?_⟩
  split at committed
  · cases committed
    exact ⟨by rintro ⟨⟩, by rintro ⟨⟩⟩
  split at committed
  next elapsed =>
    cases committed
    exact ⟨fun _ => elapsed, by rintro ⟨⟩⟩
  next early =>
    simp only [do_eq_ok, require_eq_ok, pure_eq_ok, exists_const] at committed
    obtain ⟨-, due, rfl⟩ := committed
    refine ⟨by rintro ⟨⟩, fun _ => ⟨?_, ?_⟩⟩
    · cases deadline : m.expiresAt with
      | none => rfl
      | some instant => simpa [deadline] using early
    · cases earliest : m.scheduleAt with
      | none => rfl
      | some instant =>
        rw [earliest, Option.all_some, decide_eq_true_eq] at due
        simpa using due.1

theorem finishRow_blocked {flags : Flags} {a : Attempt} {out : Smtp.Result}
    {rc : Smtp.RecipientResult} {r : Recipient} {written : Recipient × Option Decision}
    (blocked : a.suppressionBlockedAt.isSome = true)
    (committed : finishRow flags a out rc r = .ok written) : rc.status ≠ .unknown := by
  simp only [finishRow, do_eq_ok, demand_eq_ok, require_eq_ok, exists_const, if_pos blocked,
    finishSuppressionRow] at committed
  obtain ⟨-, -, -, refused, -⟩ := committed
  exact refused.2

theorem Sequel.of_head {c : Commit} {a b : Attempt} {rest : List Attempt}
    (leased : Leased c.before a rest) (rewritten : Rewritten c a b)
    (attempts : c.after.attempts = b :: rest) : Sequel c :=
  .rewritten (f := id) leased rewritten (fun x => ⟨x.events, rfl⟩) (by simpa using attempts)

theorem armData_sequel {c : Commit} (coherent : Coherent c.before) {job : Job} {i : ArmInput}
    (action : c.action = .armData job i) : Sequel c := by
  have performed := c.performed
  rw [action] at performed
  obtain ⟨answer, committed, same⟩ := map_eq_ok.mp performed
  obtain ⟨a, rest, leased, -, unarmed, unblocked, armed⟩ := armData_armed coherent committed
  obtain ⟨⟨b, current, unexpired⟩, elapsed, early⟩ := armData_clocks committed
  obtain ⟨rfl, -⟩ := leased.current current
  have attempts := leased.setAttempt coherent.keyed
  cases armed with
  | suppressed =>
    exact .of_head leased (.suppressed action unarmed unexpired) (by rw [← same]; exact attempts _)
  | expired =>
    exact .of_head leased (.expired action unarmed unblocked (elapsed rfl))
      (by rw [← same]; exact attempts _)
  | armed =>
    exact .of_head leased (.armed action unblocked unexpired (early rfl).1 (early rfl).2)
      (by rw [← same]; exact attempts _)

theorem commit_sequel (c : Commit) (coherent : Coherent c.before) : Sequel c := by
  cases commit_performed c coherent with
  | claimed action _ same => exact .claimed action (by rw [same]; rfl)
  | armed action => exact armData_sequel coherent action
  | @recorded _ _ _ f a _ _ leased added same =>
    obtain ⟨events, head⟩ := added a
    refine .rewritten leased (b := f a) (head ▸ .recorded events) added ?_
    rw [same, leased.attempts]
    rfl
  | finished action finishing =>
    refine .of_head finishing.leased (.finished action finishing.keeps ?_ ?_) ?_
    · simp [finishing.result]
    · intro blocked id member
      obtain ⟨rc, -, -, d, finished, kept⟩ := finishing.covers id member
      rw [kept]
      simpa using finishRow_blocked blocked finished
    · rw [finishing.message]
      rfl
  | recovered action leased same =>
    refine .of_head leased (.abandoned action) ?_
    rw [same]
    exact recoverAttempt_attempts leased coherent.keyed _ _
  | rewritten _ _ _ same => exact .unchanged (by rw [same]; rfl)
  | repeated _ same | cancelled _ _ same | retired _ _ same => exact .unchanged (by rw [same])

/-- A property of attempts that new ones have, that events do not touch and that
the attempt in progress keeps holds of all attempts. -/
theorem Sequel.keeps {c : Commit} {P : Attempt → Prop} (sequel : Sequel c)
    (fresh : ∀ i, P (ClaimInput.attemptOf i (picks c.entries i c.before) c.before))
    (events : ∀ (x : Attempt) events, P x → P { x with events })
    (kept : ∀ a b rest, Leased c.before a rest → Rewritten c a b → P a → P b)
    (holds : ∀ a ∈ c.before.attempts, P a) : ∀ a ∈ c.after.attempts, P a := by
  intro x member
  cases sequel with
  | unchanged same => exact holds x (same ▸ member)
  | @claimed i action attempts =>
    rw [attempts] at member
    rcases List.mem_cons.mp member with rfl | older
    · exact fresh i
    · exact holds x older
  | @rewritten a b rest f leased rewritten added attempts =>
    rw [attempts] at member
    rcases List.mem_cons.mp member with rfl | older
    · exact kept a x rest leased rewritten (holds a (leased.attempts ▸ List.mem_cons_self))
    · obtain ⟨y, inside, rfl⟩ := List.mem_map.mp older
      obtain ⟨added, same⟩ := added y
      rw [same]
      exact events y added (holds y (leased.attempts ▸ List.mem_cons_of_mem a inside))

end Attempts

section Reports

variable [Primitives] {c : Commit} {id : RecipientID}

/-- The fence gave the attempt at most one answer, and an attempt in progress
has no results. -/
structure Attempt.Plain (a : Attempt) : Prop where
  fenced : a.dataArmedAt = none ∨ a.suppressionBlockedAt = none ∧ a.expiryBlockedAt = none
  unreported : a.result = .pending → ∀ id, (a.row id).status = .pending

theorem Rewritten.plain {a b : Attempt} (rewritten : Rewritten c a b) (plain : a.Plain) :
    b.Plain := by
  obtain ⟨fenced, unreported⟩ := plain
  cases rewritten with
  | suppressed _ unarmed | expired _ unarmed => exact ⟨.inl unarmed, unreported⟩
  | armed _ unblocked unexpired => exact ⟨.inr ⟨unblocked, unexpired⟩, unreported⟩
  | recorded events => exact ⟨fenced, unreported⟩
  | finished _ keeps ended =>
    refine ⟨?_, fun pending => absurd pending ended⟩
    rw [keeps.dataArmedAt, keeps.suppressionBlockedAt, keeps.expiryBlockedAt]
    exact fenced
  | abandoned => exact ⟨fenced, nofun⟩

theorem commit_plain (coherent : Coherent c.before) (plain : ∀ a ∈ c.before.attempts, a.Plain) :
    ∀ a ∈ c.after.attempts, a.Plain :=
  (commit_sequel c coherent).keeps (fun _ => ⟨.inl rfl, fun _ _ => rfl⟩)
    (fun _ _ plain => ⟨plain.fenced, plain.unreported⟩)
    (fun _ _ _ _ rewritten => rewritten.plain) plain

omit [Primitives] in
theorem everUnknown_iff {m : Message} :
    m.everUnknown id = true ↔
      ∃ a ∈ m.attempts, id ∈ a.recipients ∧ (a.row id).status = .reported .unknown := by
  simp [Message.everUnknown]

/-- A reported uncertainty is never taken back. -/
theorem commit_everUnknown (coherent : Coherent c.before)
    (plain : ∀ a ∈ c.before.attempts, a.Plain) (before : c.before.everUnknown id = true) :
    c.after.everUnknown id = true := by
  obtain ⟨x, member, inside, unknown⟩ := everUnknown_iff.mp before
  rw [everUnknown_iff]
  cases commit_sequel c coherent with
  | unchanged same => exact ⟨x, same ▸ member, inside, unknown⟩
  | claimed _ attempts => exact ⟨x, attempts ▸ List.mem_cons_of_mem _ member, inside, unknown⟩
  | @rewritten a b rest f leased rewritten added attempts =>
    have finished : x.result ≠ .pending := fun pending => by
      cases unknown.symm.trans ((plain x member).unreported pending id)
    rw [leased.attempts] at member
    rcases List.mem_cons.mp member with rfl | older
    · exact absurd leased.pending finished
    · obtain ⟨events, same⟩ := added x
      refine ⟨f x, attempts ▸ List.mem_cons_of_mem b (List.mem_map_of_mem older), ?_⟩
      rw [same]
      exact ⟨inside, unknown⟩

/-- Results come with the end of an attempt, and a recipient that is not sending
then gets no uncertain one. -/
theorem everUnknown_of_after (coherent : Coherent c.before)
    (plain : ∀ a ∈ c.before.attempts, a.Plain)
    (rest : c.action.closes = true → (c.before.row id).status ≠ .sending)
    (after : c.after.everUnknown id = true) : c.before.everUnknown id = true := by
  obtain ⟨x, member, inside, unknown⟩ := everUnknown_iff.mp after
  rw [everUnknown_iff]
  cases commit_sequel c coherent with
  | unchanged same => exact ⟨x, same ▸ member, inside, unknown⟩
  | claimed _ attempts =>
    rw [attempts] at member
    rcases List.mem_cons.mp member with rfl | older
    · cases unknown
    · exact ⟨x, older, inside, unknown⟩
  | @rewritten a b others f leased rewritten added attempts =>
    rw [attempts] at member
    have head : a ∈ c.before.attempts := leased.attempts ▸ List.mem_cons_self
    rcases List.mem_cons.mp member with rfl | older
    · -- the recipient was suppressed at the fence, which excludes a permission
      have blocked (closes : c.action.closes = true) (same : x.recipients = a.recipients) :
          a.suppressionBlockedAt.isSome = true :=
        ((leased.members id (same ▸ inside)).resolve_left (rest closes)).1
      cases rewritten with
      | suppressed | expired | armed | recorded => exact ⟨a, head, inside, unknown⟩
      | finished action keeps _ fenced =>
        have same : x.recipients = a.recipients := congrArg (·.2.2.2) keeps.key
        exact absurd unknown (fenced (blocked (by rw [action]; rfl) same) id (same ▸ inside))
      | abandoned action =>
        have unarmed : a.dataArmedAt = none := by
          refine (plain a head).fenced.resolve_right fun unblocked => ?_
          have answered := blocked (by rw [action]; rfl) rfl
          simp [unblocked.1] at answered
        simp [Attempt.abandoned, unarmed] at unknown
    · obtain ⟨y, listed, rfl⟩ := List.mem_map.mp older
      obtain ⟨events, same⟩ := added y
      rw [same] at inside unknown
      exact ⟨y, leased.attempts ▸ List.mem_cons_of_mem a listed, inside, unknown⟩

end Reports

section Ends

variable [Primitives]

def policyStatuses : List Status := [.suppressed, .expired, .cancelled]

def Action.expiryClock : Action → Option Int
  | .finish _ _ _ clock _ => some clock
  | .recover i => some i.expiryClock
  | .schedule i => some i.expiryClock
  | .sweepExpired _ expiryClock _ => some expiryClock
  | _ => none

def Commit.suppresses (id : RecipientID) (c : Commit) : Bool :=
  match c.action with
  | .armData _ i => c.before.hit c.entries i.policyClock true id
  | .sweepSuppressed _ policyClock _ => c.before.hit c.entries policyClock false id
  | _ => false

inductive Ends (c : Commit) (id : RecipientID) : Prop
  | kept (same : c.after.row id = c.before.row id)
  | suppressed {clock : Int} (hits : c.suppresses id = true)
      (row : c.after.row id = (c.before.row id).suppress clock)
  | expired {r : Recipient} {clock : Int} (reading : c.action.expiryClock = some clock)
      (elapsed : c.before.expiresAt.any (· ≤ clock) = true)
      (row : c.after.row id = r.expire clock (c.after.everUnknown id))
  | cancelled {identity : IdentityID} {replacing : Bool} {clock : Int}
      (action : c.action = .cancelPending identity replacing clock)
      (evidence : uncancellable c.before = false)
      (row : c.after.row id = (c.before.row id).cancel clock)

variable {c : Commit} {id : RecipientID}

omit [Primitives] in
theorem applyExpiry_cases (m : Message) (clock : Int) (id : RecipientID) :
    (m.applyExpiry clock).row id = m.row id ∨
      m.expiresAt.any (· ≤ clock) = true ∧ (m.row id).pending = true ∧
        (m.applyExpiry clock).row id = (m.row id).expire clock (m.everUnknown id) := by
  simp only [Message.applyExpiry]
  split
  next elapsed =>
    rw [Bool.and_eq_true] at elapsed
    exact .inr ⟨elapsed.1, elapsed.2, rfl⟩
  · exact .inl rfl

/-- The end of a commit that applies the deadline to the message it has made. -/
theorem Ends.of_expiry {m : Message} {clock : Int} (reading : c.action.expiryClock = some clock)
    (deadline : m.expiresAt = c.before.expiresAt) (attempts : c.after.attempts = m.attempts)
    (row : c.after.row id = (m.applyExpiry clock).row id)
    (kept : c.after.row id = m.row id → c.after.row id = c.before.row id) : Ends c id := by
  rcases applyExpiry_cases m clock id with same | ⟨elapsed, -, same⟩
  · exact .kept (kept (row.trans same))
  · refine .expired (r := m.row id) reading (deadline ▸ elapsed) ?_
    rw [row, same, Message.everUnknown, Message.everUnknown, attempts]

theorem finish_ends_by_policy {flags : Flags} {job : Job} {dispatch : Dispatch} {clock now : Int}
    (valid : Valid c.before) (action : c.action = .finish flags job dispatch clock now)
    (ended : (c.after.row id).status ∈ policyStatuses) : Ends c id := by
  have performed := c.performed
  rw [action] at performed
  obtain ⟨a, b, rest, rows, finishing⟩ := finish_finishing valid.coherent performed
  have same := finishing.message
  refine .of_expiry (m := { c.before with row := rows, attempts := b :: rest }.unlock)
    (by rw [action]; rfl) rfl (by rw [same]; rfl) (by rw [same]; rfl) fun kept => ?_
  have kept : c.after.row id = rows id := kept
  rw [kept] at ended ⊢
  by_cases member : id ∈ a.recipients
  · rcases finishing.row member with ⟨-, -, same⟩ | ⟨sending, rc, -, -, d, finished, -⟩
    · exact same
    · have written := finished.status (by simp [sending])
      simp only [policyStatuses, List.mem_cons, List.not_mem_nil, or_false] at ended
      rcases ended with ended | ended | ended <;> simp [ended] at written
  · exact finishing.outside id member

theorem recover_ends_by_policy {i : RecoverInput} (valid : Valid c.before)
    (action : c.action = .recover i) (ended : (c.after.row id).status ∈ policyStatuses) :
    Ends c id := by
  have performed := c.performed
  rw [action] at performed
  obtain ⟨a, rest, leased, -, same⟩ := recover_leased valid.coherent performed
  obtain ⟨rows, status, next, completed, recovers, shape⟩ :=
    recoverAttempt_eq i a.id a.dataArmedAt.isSome c.before
  rw [shape] at same
  refine .of_expiry (m := { c.before.setAttempt a.id (·.abandoned a.dataArmedAt.isSome) with
      row := rows, lockedBy := none, leaseExpiresAt := none
      status := status, nextAttemptAt := next, completedAt := completed })
    (by rw [action]; rfl) rfl (by rw [same]; rfl) (by rw [same]; rfl) fun kept => ?_
  have kept : c.after.row id = rows id := kept
  rw [kept] at ended ⊢
  generalize row_eq : rows id = row at ended
  cases row_eq ▸ recovers id with
  | kept => rfl
  | stranded | requeued | exhausted => simp [policyStatuses, Recipient.exhaust] at ended

theorem schedule_ends_by_policy {i : ScheduleInput} (action : c.action = .schedule i)
    (ended : (c.after.row id).status ∈ policyStatuses) : Ends c id := by
  have performed := c.performed
  rw [action] at performed
  obtain ⟨-, -, -, -, same⟩ := schedule_ok performed
  have row : c.after.row id = scheduleRow i ((c.before.applyExpiry i.expiryClock).row id) := by
    rw [same]
    rfl
  refine .of_expiry (m := c.before) (by rw [action]; rfl) rfl (by rw [same]; rfl) ?_ fun kept => kept
  rw [row] at ended ⊢
  generalize row_eq : scheduleRow i ((c.before.applyExpiry i.expiryClock).row id) = r at ended
  cases row_eq ▸ scheduleRow_schedules i _ with
  | kept => rfl
  | exhausted | promoted => simp [policyStatuses, Recipient.exhaust, Recipient.promote] at ended

theorem suppressHits_cases (entries : List Entry) (clock : Int) (sending : Bool)
    (m : Message) (id : RecipientID) :
    (m.suppressHits entries clock sending).row id = m.row id ∨
      m.hit entries clock sending id = true ∧
        (m.suppressHits entries clock sending).row id = (m.row id).suppress clock := by
  simp only [Message.suppressHits]
  split
  next hit => exact .inr ⟨hit, rfl⟩
  · exact .inl rfl

theorem commit_ends_by_policy (c : Commit) (valid : Valid c.before)
    (ended : (c.after.row id).status ∈ policyStatuses) : Ends c id := by
  cases commit_performed c valid.coherent with
  | claimed _ _ same =>
    rw [same] at ended
    simp only [claimed] at ended
    split at ended
    · simp [policyStatuses, Recipient.claim] at ended
    next outside => exact .kept (by rw [same]; simp [claimed, outside])
  | @armed _ i _ _ _ action _ _ _ armed same =>
    cases armed with
    | suppressed =>
      rcases suppressHits_cases c.entries i.policyClock true c.before id with row | ⟨hit, row⟩
      · exact .kept (by rw [← same]; exact row)
      · exact .suppressed (by rw [Commit.suppresses, action]; exact hit)
          (by rw [← same]; exact row)
    | expired | armed => exact .kept (by rw [← same]; rfl)
  | finished action => exact finish_ends_by_policy valid action ended
  | recovered action => exact recover_ends_by_policy valid action ended
  | rewritten rewrites _ _ same =>
    cases rewrites with
    | scheduled action => exact schedule_ends_by_policy action ended
    | expired action =>
      exact .of_expiry (m := c.before) (by rw [action]; rfl) rfl (by rw [same]; rfl)
        (by rw [same]; rfl) fun kept => kept
    | @suppressed _ policyClock _ action =>
      rcases suppressHits_cases c.entries policyClock false c.before id with row | ⟨hit, row⟩
      · exact .kept (by rw [same]; exact row)
      · exact .suppressed (by rw [Commit.suppresses, action]; exact hit) (by rw [same]; exact row)
    | @resolved v =>
      rw [same] at ended
      simp only [Message.refresh] at ended
      split at ended
      · simp only [Recipient.resolve] at ended
        cases chosen : v.action <;> simp [chosen, ResolveAction.status, policyStatuses] at ended
      next other => exact .kept (by rw [same]; simp [Message.refresh, other])
  | @cancelled _ _ clock action evidence same =>
    by_cases pending : (c.before.row id).pending = true
    · have row : c.after.row id = (c.before.row id).cancel clock := by
        rw [same]
        simp [pending]
      exact .cancelled action evidence row
    · exact .kept (by rw [same]; simp [pending])
  | recorded _ _ _ same | repeated _ same | retired _ _ same => exact .kept (by rw [same])

end Ends

end RelayTale.Queue
