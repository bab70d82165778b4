import RelayTale.Queue.Interleaving
import RelayTale.Queue.Projection

/-!
# Messages that have ended

An action leaves a message without open recipients that no worker holds as it is,
except that its archive can be given up. Cancelled messages and those with a final
status have ended. In every interleaving a cancelled message is not written any
more and a final status stays one, also where a sweep selects a message before it
locks it and renews a status for which there is no reason left.
-/

namespace RelayTale.Queue

open Guard
open Locking.Program (lockCandidates ifOk_yields select_yields lockRow_yields)

def openStatuses : List Status := [.queued, .sending, .tempFailed, .deliveryUnknown]

def unfinishedStatuses : List Status :=
  [.queued, .tempFailed, .partialAccepted, .sending, .deliveryUnknown]

/-- No recipient is open, no worker is at work and no row shows anything to do. -/
structure Message.Ended (m : Message) : Prop where
  unlocked : m.lockedBy = none
  settled : ∀ id ∈ m.recipients, (m.row id).status ∉ openStatuses
  status : m.status ∉ [Status.queued, .tempFailed, .sending]

def Message.Pends (m : Message) : Prop := ∃ id ∈ m.recipients, (m.row id).pending = true

def Message.retired (m : Message) : Message :=
  { m with archiveAvailable := false }

/-- What is left of a message at a later time. -/
structure Message.Lasts (m m' : Message) : Prop where
  fixed : m'.fixed = m.fixed
  archive : m'.archiveAvailable = true → m.archiveAvailable = true
  cancelled : m.cancelledAt.isSome = true → ∃ available, m' = { m with archiveAvailable := available }
  finished : m.production = true → m.status ∉ unfinishedStatuses → m'.status ∉ unfinishedStatuses

section Messages

variable {m m' : Message}

theorem Message.Ended.not_sending (ended : m.Ended) : m.status ≠ .sending := by
  intro sending
  exact ended.status (by simp [sending])

theorem Message.Ended.not_pends (ended : m.Ended) : ¬ m.Pends := by
  rintro ⟨id, member, pending⟩
  refine ended.settled id member ?_
  rcases pending_iff.mp pending with status | status <;> simp [status, openStatuses]

theorem Message.Ended.retired (ended : m.Ended) : m.retired.Ended :=
  ⟨ended.unlocked, ended.settled, ended.status⟩

theorem Message.Lasts.refl (m : Message) : m.Lasts m := ⟨rfl, id, fun _ => ⟨_, rfl⟩, fun _ => id⟩

theorem Message.Lasts.trans {last : Message} (first : m.Lasts m') (second : m'.Lasts last) :
    m.Lasts last where
  fixed := second.fixed.trans first.fixed
  archive available := first.archive (second.archive available)
  cancelled cancelled := by
    obtain ⟨available, rfl⟩ := first.cancelled cancelled
    exact second.cancelled cancelled
  finished production finished := by
    have same : m'.production = m.production := congrArg (·.1) first.fixed
    exact second.finished (same.trans production) (first.finished production finished)

theorem closed_settled (closed : m.closed) : ∀ id ∈ m.recipients, (m.row id).status ∉ openStatuses := by
  intro id member inside
  have terminal := closed id member
  simp only [openStatuses, List.mem_cons, List.not_mem_nil, or_false] at inside
  rcases inside with status | status | status | status <;> simp [status, terminalStatuses] at terminal

theorem cancellable_status (evidence : uncancellable m = false) :
    m.lockedBy = none ∧ m.status ∈ [Status.queued, .tempFailed] ∧
      ∀ a ∈ m.attempts, a.result ≠ .pending ∧ a.dataArmedAt = none := by
  simp only [uncancellable, Bool.or_eq_false_iff, List.any_eq_false, decide_eq_false_iff_not,
    Option.isSome_eq_false_iff, Option.isNone_iff_eq_none] at evidence
  obtain ⟨⟨⟨⟨unlocked, waiting⟩, attempts⟩, -⟩, -⟩ := evidence
  refine ⟨unlocked, ?_, fun a member => ?_⟩
  · simpa [or_iff_not_imp_left] using waiting
  · have clear := attempts a member
    simp only [Bool.or_eq_true, decide_eq_true_eq, not_or, Option.not_isSome_iff_eq_none] at clear
    exact ⟨clear.1.1.1, clear.1.1.2⟩

variable [Primitives]

/-- Nothing but the archive of an ended message is written. -/
theorem ended_commit (c : Commit) (valid : Valid c.before) (ended : c.before.Ended) :
    c.after = c.before ∨ c.action = .retire ∧ c.after = c.before.retired := by
  cases commit_performed c valid.coherent with
  | claimed _ committed =>
    obtain ⟨-, -, -, nonempty, -⟩ := claim_ok committed
    obtain ⟨id, picked⟩ := List.exists_mem_of_ne_nil _ nonempty
    have queued := pending_iff.mpr (.inl (picked_queued picked))
    exact absurd ⟨id, (picks_claimable picked).1, queued⟩ ended.not_pends
  | armed _ leased | recorded _ leased | recovered _ leased =>
    exact absurd leased.status ended.not_sending
  | finished _ finishing => exact absurd finishing.leased.status ended.not_sending
  | rewritten rewrites =>
    cases rewrites with
    | scheduled _ elapsed =>
      obtain ⟨id, member, elapsed⟩ := elapsed
      exact absurd ⟨id, member, (valid.sound id).pending_of_elapsed elapsed⟩ ended.not_pends
    | expired _ pending | suppressed _ pending => exact absurd pending ended.not_pends
    | @resolved v _ committed =>
      obtain ⟨a, -, member, -, -, unknown, -⟩ := resolveUnknown_ok committed
      exact absurd (by simp [unknown, openStatuses]) (ended.settled v.recipient member)
  | repeated _ same => exact .inl same
  | cancelled _ evidence =>
    obtain ⟨-, waiting, -⟩ := cancellable_status evidence
    refine absurd ?_ ended.status
    simp only [List.mem_cons, List.not_mem_nil, or_false] at waiting ⊢
    exact waiting.imp_right .inl
  | retired action _ same => exact .inr ⟨action, same⟩

/-- A cancelled message has ended without an attempt that was allowed to send. -/
structure Message.Withdrawn (m : Message) : Prop where
  ended : m.Ended
  status : m.status = .cancelled
  closed : m.closed
  unarmed : ∀ a ∈ m.attempts, a.result ≠ .pending ∧ a.dataArmedAt = none

structure Message.Orderly (m : Message) : Prop where
  valid : Valid m
  projected : m.Projected
  cancelled : m.cancelledAt.isSome = true → m.Withdrawn

omit [Primitives] in
theorem Message.Orderly.ended (orderly : m.Orderly) (production : m.production = true)
    (finished : m.status ∉ unfinishedStatuses) : m.Ended := by
  by_cases cancelled : m.cancelledAt.isSome = true
  · exact (orderly.cancelled cancelled).ended
  have idle : Idle m := by
    rcases orderly.valid.coherent.mode with idle | ⟨a, rest, leased⟩
    · exact idle
    · exact absurd (by simp [leased.status, unfinishedStatuses]) finished
  have shown : m.status = m.projection :=
    (orderly.projected production (by simpa using cancelled) idle.unlocked).1
  refine ⟨idle.unlocked, fun id member inside => finished ?_, fun inside => finished ?_⟩
  · rw [shown]
    simp only [openStatuses, List.mem_cons, List.not_mem_nil, or_false] at inside
    rcases inside with queued | sending | failed | unknown
    · rcases projection_of_queued idle.rows member queued with status | status <;>
        simp [status, unfinishedStatuses]
    · exact absurd sending (idle.rows id member)
    · have status := projection_of_tempFailed idle.rows member failed
      simp only [List.mem_cons, List.not_mem_nil, or_false] at status
      rcases status with status | status | status | status <;> simp [status, unfinishedStatuses]
    · have status : m.projection = .deliveryUnknown := by
        simp [Message.projection, exists_row member unknown]
      simp [status, unfinishedStatuses]
  · simp only [List.mem_cons, List.not_mem_nil, or_false] at inside
    rcases inside with status | status | status <;> simp [status, unfinishedStatuses]

theorem enqueue_orderly {entries : List Entry} {s : Submission}
    (created : s.enqueue entries = .ok m) : m.Orderly := by
  refine ⟨enqueue_valid created, enqueue_projected created, fun cancelled => ?_⟩
  rcases submission_eq created with ⟨-, rfl⟩ | ⟨-, ⟨-, rfl⟩ | ⟨-, rfl⟩⟩ <;> cases cancelled

theorem enqueue_fixed {entries : List Entry} {s : Submission} (created : s.enqueue entries = .ok m) :
    m.fixed = (s.production, s.apiKey, s.scheduleAt, s.expiresAt) ∧ m.cancelledAt = none ∧
      m.attempts = [] := by
  rcases submission_eq created with ⟨-, rfl⟩ | ⟨-, ⟨-, rfl⟩ | ⟨-, rfl⟩⟩ <;> exact ⟨rfl, rfl, rfl⟩

def Message.cancel (clock : Int) (m : Message) : Message :=
  { m with
    row := fun id => if (m.row id).pending then (m.row id).cancel clock else m.row id
    status := .cancelled, cancelledAt := some clock, completedAt := some clock
    nextAttemptAt := none }

omit [Primitives] in
theorem cancelPending_cases {identity : IdentityID} {replacing : Bool} {clock : Int}
    (committed : cancelPending identity replacing clock m = .ok m') :
    m.apiKey = some identity ∧ m.production = true ∧
      (m.cancelledAt.isSome = true ∧ replacing = false ∧ m' = m ∨
        m.cancelledAt = none ∧ uncancellable m = false ∧ m' = m.cancel clock) := by
  simp only [cancelPending, do_eq_ok, require_eq_ok, exists_const] at committed
  obtain ⟨⟨owner, production⟩, committed⟩ := committed
  refine ⟨owner, production, ?_⟩
  split at committed
  next cancelled =>
    simp only [do_eq_ok, require_eq_ok, pure_eq_ok, exists_const] at committed
    exact .inl ⟨cancelled, committed.1, committed.2.symm⟩
  next uncancelled =>
    simp only [do_eq_ok, require_eq_ok, pure_eq_ok, exists_const] at committed
    exact .inr ⟨by simpa using uncancelled, committed.1, committed.2.symm⟩

omit [Primitives] in
theorem cancel_withdrawn (evidence : uncancellable m = false) (clock : Int) :
    (m.cancel clock).Withdrawn := by
  have closed : (m.cancel clock).closed := fun _ member => closed_of_cancellable evidence member
  obtain ⟨unlocked, -, unarmed⟩ := cancellable_status evidence
  exact ⟨⟨unlocked, closed_settled closed, by simp [Message.cancel]⟩, rfl, closed, unarmed⟩

theorem commit_orderly (c : Commit) (orderly : c.before.Orderly) : c.after.Orderly := by
  refine ⟨commit_valid c orderly.valid, commit_projected orderly.valid orderly.projected,
    fun cancelled => ?_⟩
  by_cases before : c.before.cancelledAt.isSome = true
  · have withdrawn := orderly.cancelled before
    rcases ended_commit c orderly.valid withdrawn.ended with same | ⟨-, same⟩
    · exact same ▸ withdrawn
    · exact same ▸ ⟨withdrawn.ended.retired, withdrawn.status, withdrawn.closed, withdrawn.unarmed⟩
  · -- nobody else writes the column
    rcases (commit_frame c orderly.valid.coherent).1.cancelledAt with
      ⟨identity, replacing, clock, action⟩ | same
    · have performed := c.performed
      rw [action] at performed
      obtain ⟨-, -, ⟨found, -⟩ | ⟨-, evidence, same⟩⟩ := cancelPending_cases performed
      · exact absurd found before
      · exact same ▸ cancel_withdrawn evidence clock
    · exact absurd (same ▸ cancelled) before

end Messages

section Tables

open Locking

variable [Primitives] {op : Op} {seen : List Tables} {store : Tables} {target : MessageID}
variable {writes : List (Sigma Resource.Value)} {m : Message}

def Orderly (store : Tables) : Prop := ∀ {id m}, store (.message id) = some m → m.Orderly

omit [Primitives] in
/-- Where no recipient waits, a sweep finds the status as it was. -/
theorem Message.Ended.swept {rows : RecipientID → Recipient} {now : Int} (ended : m.Ended)
    (valid : Valid m) (sweeps : ∀ id, (m.row id).Sound → (m.row id).Sweeps (rows id)) :
    ({ m with row := rows }.refresh now).status = m.projection := by
  have same (id : RecipientID) (member : id ∈ m.recipients) : rows id = m.row id := by
    refine (sweeps id (valid.sound id)).settled (Bool.eq_false_iff.mpr fun pending => ?_)
    exact ended.not_pends ⟨id, member, pending⟩
  have counts (status : Status) :
      ({ m with row := rows } : Message).rowsWith status = m.rowsWith status :=
    List.countP_congr fun id member => by simp only [same id member]
  show ({ m with row := rows } : Message).projection = m.projection
  simp only [Message.projection, counts]

theorem Effect.lasts {result : Option Message} (orderly : Orderly store)
    (effect : Effect op seen store target result) :
    (∀ m', result = some m' → m'.Orderly) ∧
      ∀ m, store (.message target) = some m → ∃ m', result = some m' ∧ m.Lasts m' := by
  have known {m m' : Message} (before : store (.message target) = some m) (own : m'.Orderly)
      (lasts : m.Lasts m') : (∀ n, some m' = some n → n.Orderly) ∧
        ∀ n, store (.message target) = some n → ∃ n', some m' = some n' ∧ n.Lasts n' := by
    refine ⟨fun n same => Option.some.inj same ▸ own, fun n found => ?_⟩
    obtain rfl := Option.mem_unique before found
    exact ⟨m', rfl, lasts⟩
  cases effect with
  | untouched => exact ⟨fun m' found => orderly found, fun m found => ⟨m, found, .refl m⟩⟩
  | created absent created =>
    refine ⟨fun m' same => ?_, fun m found => by cases absent.symm.trans found⟩
    exact Option.some.inj same ▸ enqueue_orderly created
  | @performed action m m' acts before performed =>
    let c : Commit := ⟨_, m, action.settled, m', performed⟩
    have own : c.before.Orderly := orderly before
    obtain ⟨fixed, archive⟩ := commit_fixed c own.valid.coherent
    have kept (ended : c.before.Ended) : ∃ available, m' = { m with archiveAvailable := available } := by
      rcases ended_commit c own.valid ended with same | ⟨-, same⟩
      · exact ⟨_, same⟩
      · exact ⟨_, same⟩
    refine known before (commit_orderly c own) ⟨fixed, archive,
      fun cancelled => kept (own.cancelled cancelled).ended, fun production finished => ?_⟩
    obtain ⟨available, rfl⟩ := kept (own.ended production finished)
    exact finished
  | @recovered i view old m a acts snapshot read before selected =>
    have own := orderly before
    have sending := (abandoned_reread selected).1
    obtain ⟨rows, status, next, completed, -, shape⟩ :=
      recoverAttempt_eq i a.id a.dataArmedAt.isSome m
    have valid := (recoverAttempt_successor own.valid i a.id a.dataArmedAt.isSome).1
    have busy (cancelled : m.cancelledAt.isSome = true) : False :=
      (own.cancelled cancelled).ended.not_sending sending
    refine known before ⟨valid, ?_, fun cancelled => ?_⟩ ?_
    · rw [shape]
      exact refresh_projected _ i.now
    · rw [shape] at cancelled
      exact (busy cancelled).elim
    · rw [shape]
      refine ⟨rfl, id, fun cancelled => (busy cancelled).elim, fun _ finished => ?_⟩
      exact absurd (by simp [sending, unfinishedStatuses]) finished
  | @rewritten m rows now before unlocked uncancelled sweeps =>
    have own := orderly before
    have each (id : RecipientID) := sweeps id (own.valid.sound id)
    have open_ {n : Message} (same : n.cancelledAt = m.cancelledAt) : ¬ n.cancelledAt.isSome = true := by
      simp [same, uncancelled]
    refine known before ⟨(rewrite_successor own.valid unlocked each now).1, refresh_projected _ now,
      fun cancelled => absurd cancelled (open_ rfl)⟩
      ⟨rfl, id, fun cancelled => absurd cancelled (open_ rfl), fun production finished => ?_⟩
    rw [(own.ended production finished).swept own.valid sweeps,
      ← (own.projected production uncancelled unlocked).1]
    exact finished

/-- Every transaction of the queue keeps the messages in order. -/
theorem statements_last (orderly : Orderly store)
    (yields : op.statements.Yields store seen writes) :
    Orderly (store.write writes) ∧ ∀ {id m}, store (.message id) = some m →
      ∃ m', store.write writes (.message id) = some m' ∧ m.Lasts m' := by
  have each (target : MessageID) := ((statements_effects yields).messages target).lasts orderly
  exact ⟨fun found => (each _).1 _ found, fun found => (each _).2 _ found⟩

/-- Only a cancellation cancels, and it has found no evidence against it. -/
theorem Effect.cancels {m' : Message} (orderly : Orderly store)
    (effect : Effect op seen store target (some m')) (found : store (.message target) = some m)
    (uncancelled : m.cancelledAt = none) (cancelled : m'.cancelledAt.isSome = true) :
    uncancellable m = false := by
  have kept (same : m'.cancelledAt = m.cancelledAt) : uncancellable m = false := by
    rw [same, uncancelled] at cancelled
    cases cancelled
  generalize result : some m' = now at effect
  cases effect with
  | untouched =>
    obtain rfl := Option.some.inj (result.trans found)
    exact kept rfl
  | created absent => cases absent.symm.trans found
  | @performed action n n' acts before performed =>
    obtain rfl := Option.mem_unique before found
    obtain rfl := Option.some.inj result
    let c : Commit := ⟨_, n, action.settled, m', performed⟩
    rcases (commit_frame c (orderly before).valid.coherent).1.cancelledAt with
      ⟨identity, replacing, clock, action⟩ | same
    · have performed := c.performed
      rw [action] at performed
      obtain ⟨-, -, ⟨already, -⟩ | ⟨-, evidence, -⟩⟩ := cancelPending_cases performed
      · rw [uncancelled] at already
        cases already
      · exact evidence
    · exact kept same
  | @recovered i view old n a acts snapshot read before selected =>
    obtain rfl := Option.mem_unique before found
    obtain rfl := Option.some.inj result
    obtain ⟨rows, status, next, completed, -, shape⟩ :=
      recoverAttempt_eq i a.id a.dataArmedAt.isSome n
    refine kept ?_
    rw [shape]
    rfl
  | rewritten before =>
    obtain rfl := Option.mem_unique before found
    obtain rfl := Option.some.inj result
    exact kept rfl

theorem batch_found {ids : List MessageID} {action : Action} (distinct : ids.Nodup)
    (yields : (action.batchStatements ids).Yields store seen writes) (target : MessageID) :
    store.write writes (.message target) = store (.message target) ∨
      ∃ m, store (.message target) = some m := by
  have found {settle : Message → Message → Option (Except Refusal Message)}
      {next : List Candidate → Statements} {view : Tables} {later : List Tables}
      (saves : ∀ found, (next found).Yields store later writes →
        (saveAll settle found).Yields store later writes)
      (yields : (lockCandidates Resource.message (fun _ m => m) view ids next).Yields store later writes) :
      store.write writes (.message target) = store (.message target) ∨
        ∃ m, store (.message target) = some m := by
    obtain ⟨-, -, settled⟩ := lockCandidates_settled distinct saves yields
    exact (settled target).imp_right fun ⟨_, m, _, _, _, before, _⟩ => ⟨m, before⟩
  cases action with
  | recover | schedule | sweepExpired =>
    obtain ⟨view, later, rfl, yields⟩ := yields
    exact found (fun _ => id) yields
  | sweepSuppressed =>
    obtain ⟨view, later, rfl, yields⟩ := yields
    exact found (fun _ => select_yields.mp) yields
  | _ => cases yields

/-- A message comes into the tables by a submission only. -/
theorem statements_created
    (yields : op.statements.Yields store seen writes) (absent : store (.message target) = none)
    (found : store.write writes (.message target) = some m) :
    ∃ s, s.enqueue (store .policy) = .ok m ∧ (op = .enqueue target s ∨
      ∃ old identity clock, op = .replace old target identity clock s) := by
  have changed : store.write writes (.message target) ≠ store (.message target) := by
    rw [absent, found]
    exact nofun
  cases op with
  | enqueue id s =>
    obtain ⟨-, fresh, created, -, rfl⟩ := createMessage_yields yields
    rw [write_put] at found
    split at found
    next same =>
      subst same
      exact ⟨s, Option.some.inj found ▸ created, .inl rfl⟩
    · cases absent.symm.trans found
  | transact id action =>
    obtain ⟨n, n', before, -, rfl⟩ := transact_yields yields
    rw [write_put] at changed
    split at changed
    next same =>
      subst same
      cases absent.symm.trans before
    · exact absurd rfl changed
  | batch ids action =>
    dsimp only [Op.statements] at yields
    split at yields
    next bounded =>
      rcases batch_found bounded.1 yields target with same | ⟨n, before⟩
      · exact absurd same changed
      · cases absent.symm.trans before
    · cases yields
  | replace old new identity clock s =>
    dsimp only [Op.statements] at yields
    split at yields
    · obtain ⟨n, before, cancelling⟩ := lockRow_yields.mp yields
      obtain ⟨cancelled, -, creating⟩ := ifOk_yields.mp cancelling
      obtain ⟨-, fresh, created, -, rfl⟩ := createMessage_yields creating
      have written : store.write [put old cancelled, put new fresh] (.message target) =
          if target = new then some fresh else store.write [put old cancelled] (.message target) :=
        write_put (store.write [put old cancelled]) new target fresh
      rw [written, write_put] at found
      split at found
      next same =>
        subst same
        exact ⟨s, Option.some.inj found ▸ created, .inr ⟨old, identity, clock, rfl⟩⟩
      split at found
      next same =>
        subst same
        cases absent.symm.trans before
      · cases absent.symm.trans found
    · cases yields
  | addSuppression | releaseSuppression =>
    obtain ⟨next, -, -, rfl⟩ := ifOk_yields.mp yields
    exact absurd rfl changed

end Tables

end RelayTale.Queue
