import RelayTale.Queue.Terminal

/-!
# A message at two times

Whatever is committed on a message in between, its addresses, its terminal
recipients and the answers of the fence are found again later. This also holds
for a recovery that takes another attempt for the abandoned one, and for a sweep
that finds nothing left to do.
-/

namespace RelayTale.Queue

open Guard
open Relation (ReflTransGen)

/-- What an attempt of the message has become. Once the fence has blocked it, no
row changes as long as its lease is kept. -/
structure Survives (m m' : Message) (a b : Attempt) : Prop where
  key : b.key = a.key
  fated : a.Fated b
  pending : b.result = .pending → a.result = .pending
  held : b.result = .pending → m'.lockedBy ≠ none →
    m.lockedBy ≠ none ∧ (a.suppressionBlockedAt ≠ none → m'.row = m.row)

structure Successor (m m' : Message) : Prop where
  addresses : ∀ id, (m'.row id).address = (m.row id).address
  terminal : ∀ id, (m.row id).status ∈ terminalStatuses → m'.row id = m.row id
  attempts : ∀ a ∈ m.attempts, ∃ b ∈ m'.attempts, Survives m m' a b

theorem Attempt.Fated.trans {a b c : Attempt} (first : a.Fated b) (second : b.Fated c) :
    a.Fated c := by
  intro answered
  obtain ⟨armed, blocked⟩ := first answered
  rw [← armed, ← blocked]
  exact second (by rwa [armed, blocked])

theorem Survives.refl (m : Message) (a : Attempt) : Survives m m a a :=
  ⟨rfl, fun _ => ⟨rfl, rfl⟩, id, fun _ locked => ⟨locked, fun _ => rfl⟩⟩

theorem Survives.of_finished {m m' : Message} {a b : Attempt} (key : b.key = a.key)
    (fated : a.Fated b) (finished : b.result ≠ .pending) : Survives m m' a b :=
  ⟨key, fated, fun pending => absurd pending finished, fun pending => absurd pending finished⟩

theorem Survives.trans {m m' later : Message} {a b c : Attempt} (first : Survives m m' a b)
    (second : Survives m' later b c) : Survives m later a c where
  key := second.key.trans first.key
  fated := first.fated.trans second.fated
  pending pending := first.pending (second.pending pending)
  held pending locked := by
    obtain ⟨middle, last⟩ := second.held pending locked
    obtain ⟨start, rows⟩ := first.held (second.pending pending) middle
    refine ⟨start, fun blocked => (last ?_).trans (rows blocked)⟩
    rw [(first.fated (.inr blocked)).2]
    exact blocked

namespace Successor

variable {m m' later : Message}

theorem refl (m : Message) : Successor m m :=
  ⟨fun _ => rfl, fun _ _ => rfl, fun a member => ⟨a, member, .refl m a⟩⟩

theorem trans (first : Successor m m') (second : Successor m' later) : Successor m later where
  addresses id := (second.addresses id).trans (first.addresses id)
  terminal id closed := by
    have same := first.terminal id closed
    exact (second.terminal id (same ▸ closed)).trans same
  attempts a member := by
    obtain ⟨b, inside, survives⟩ := first.attempts a member
    obtain ⟨c, last, survives'⟩ := second.attempts b inside
    exact ⟨c, last, survives.trans survives'⟩

/-- An attempt is found again by its identifier. -/
theorem survives (successor : Successor m m') (keyed : Keyed m') {a b : Attempt}
    (member : a ∈ m.attempts) (inside : b ∈ m'.attempts) (same : b.id = a.id) :
    Survives m m' a b := by
  obtain ⟨c, found, survives⟩ := successor.attempts a member
  have id : c.id = b.id := (congrArg (·.1) survives.key : c.id = a.id).trans same.symm
  obtain rfl := List.inj_on_of_nodup_map keyed.attempts found inside id
  exact survives

end Successor

section Rows

variable {clock now : Int} {r r' : Recipient}

/-- A row that keeps its address, stays sound and is left alone once terminal. -/
structure Recipient.Continues (r r' : Recipient) : Prop where
  address : r'.address = r.address
  terminal : r.status ∈ terminalStatuses → r' = r
  sound : r.Sound → r'.Sound

theorem Recipient.Continues.refl (r : Recipient) : r.Continues r :=
  ⟨rfl, fun _ => rfl, id⟩

theorem Recipient.Continues.trans {r₁ r₂ r₃ : Recipient} (first : r₁.Continues r₂)
    (second : r₂.Continues r₃) : r₁.Continues r₃ where
  address := second.address.trans first.address
  terminal closed := by
    have same := first.terminal closed
    exact (second.terminal (same ▸ closed)).trans same
  sound sound := second.sound (first.sound sound)

theorem not_terminal_of_pending (pending : r.pending = true) : r.status ∉ terminalStatuses := by
  rcases pending_iff.mp pending with status | status <;> simp [status, terminalStatuses]

/-- A row as a sweep leaves it: only one that is pending is written. -/
structure Recipient.Sweeps (r r' : Recipient) : Prop where
  continues : r.Continues r'
  not_sending : r.status ≠ .sending → r'.status ≠ .sending
  settled : r.pending = false → r' = r

theorem Recipient.Sweeps.refl (r : Recipient) : r.Sweeps r :=
  ⟨.refl r, id, fun _ => rfl⟩

theorem Recipient.Sweeps.trans {r₁ r₂ r₃ : Recipient} (first : r₁.Sweeps r₂)
    (second : r₂.Sweeps r₃) : r₁.Sweeps r₃ where
  continues := first.continues.trans second.continues
  not_sending other := second.not_sending (first.not_sending other)
  settled closed := by
    have same := first.settled closed
    exact (second.settled (same ▸ closed)).trans same

theorem Recipient.Sweeps.of_pending (pending : r.pending = true) (address : r'.address = r.address)
    (other : r'.status ≠ .sending) (sound : r.Sound → r'.Sound) : r.Sweeps r' where
  continues := ⟨address, fun closed => absurd closed (not_terminal_of_pending pending), sound⟩
  not_sending _ := other
  settled closed := by cases pending.symm.trans closed

theorem Expires.sweeps (expires : Expires clock r r') : r.Sweeps r' := by
  cases expires with
  | kept => exact .refl r
  | expired uncertain pending =>
    exact .of_pending pending rfl nofun fun sound => sound.of_unscheduled rfl rfl rfl

theorem Schedules.sweeps {i : ScheduleInput} (schedules : Schedules i r r') (sound : r.Sound) :
    r.Sweeps r' := by
  cases schedules with
  | kept => exact .refl r
  | exhausted elapsed | promoted elapsed =>
    exact .of_pending (sound.pending_of_elapsed elapsed) rfl nofun
      fun sound => sound.of_unscheduled rfl rfl rfl

theorem applyExpiry_continues {m : Message} {id : RecipientID} (clock : Int)
    (row : m.row id = r) : r.Continues ((m.applyExpiry clock).row id) :=
  row ▸ (applyExpiry_row m clock id).sweeps.continues

theorem Recovers.continues {armed : Bool} (recovers : Recovers now armed r r') :
    r.Continues r' := by
  have opened (sending : r.status = .sending) : r.status ∉ terminalStatuses := by
    simp [sending, terminalStatuses]
  have unscheduled (sending : r.status = .sending) (sound : r.Sound) : r.retryAt = none :=
    sound.unscheduled (by simp [sending])
  cases recovers with
  | kept => exact .refl r
  | stranded sending | requeued sending =>
    exact ⟨rfl, fun closed => absurd closed (opened sending),
      fun sound => sound.of_unscheduled (unscheduled sending sound) rfl rfl⟩
  | exhausted waiting =>
    refine ⟨rfl, fun closed => ?_, fun sound => sound.of_unscheduled rfl rfl rfl⟩
    rcases waiting with sending | queued
    · exact absurd closed (opened sending)
    · simp [queued, terminalStatuses] at closed

variable [Primitives]

theorem Suppresses.sweeps {entries : List Entry}
    (suppresses : Suppresses entries clock false r r') : r.Sweeps r' := by
  cases suppresses with
  | kept => exact .refl r
  | suppressed pending =>
    exact .of_pending pending rfl nofun fun sound => sound.of_unscheduled rfl rfl rfl

theorem Change.address {c : Commit} {id : RecipientID} (change : Change c id r r') :
    r'.address = r.address := by
  cases change with
  | finished _ _ _ _ sending _ _ finished => exact (finished.fixed sending).1
  | _ => rfl

end Rows

section Commits

variable {m m' : Message}

theorem Written.attempts (written : Written m m') :
    ∀ a ∈ m.attempts, ∃ b ∈ m'.attempts, b.key = a.key ∧ a.Fated b ∧
      (b.result = .pending → a.result = .pending) := by
  intro x member
  cases written with
  | unchanged same => exact ⟨x, same ▸ member, rfl, fun _ => ⟨rfl, rfl⟩, id⟩
  | @newest a b rest f leased key fated added attempts =>
    rw [leased.attempts] at member
    rcases List.mem_cons.mp member with rfl | older
    · exact ⟨b, attempts ▸ List.mem_cons_self, key, fated, fun _ => leased.pending⟩
    · obtain ⟨events, same⟩ := added x
      refine ⟨f x, attempts ▸ List.mem_cons_of_mem b (List.mem_map_of_mem older), ?_⟩
      rw [same]
      exact ⟨rfl, fun _ => ⟨rfl, rfl⟩, id⟩

theorem Valid.of_rows (valid : Valid m) (coherent : Coherent m')
    (rows : ∀ id, (m.row id).Continues (m'.row id)) : Valid m' :=
  ⟨coherent, fun id => (rows id).sound (valid.sound id)⟩

theorem Successor.of_rows (rows : ∀ id, (m.row id).Continues (m'.row id))
    (attempts : ∀ a ∈ m.attempts, ∃ b ∈ m'.attempts, Survives m m' a b) :
    Successor m m' :=
  ⟨fun id => (rows id).address, fun id => (rows id).terminal, attempts⟩

theorem recoverAttempt_rows (i : RecoverInput) (attempt : AttemptID) (armed : Bool) (m : Message)
    (id : RecipientID) : (m.row id).Continues ((recoverAttempt i attempt armed m).row id) := by
  obtain ⟨rows, status, next, completed, recovers, same⟩ := recoverAttempt_eq i attempt armed m
  rw [same, Message.refresh_row]
  exact (recovers id).continues.trans (applyExpiry_continues _ rfl)

theorem recoverAttempt_survives (i : RecoverInput) (attempt : AttemptID) (armed : Bool)
    {a : Attempt} (member : a ∈ m.attempts) :
    ∃ b ∈ (recoverAttempt i attempt armed m).attempts, b.key = a.key ∧
      (b.dataArmedAt = a.dataArmedAt ∧ b.suppressionBlockedAt = a.suppressionBlockedAt) ∧
      (b.result = .pending → a.result = .pending) := by
  by_cases own : a.id = attempt
  · exact ⟨_, recoverAttempt_mem.mpr ⟨a, member, .inl ⟨own, rfl⟩⟩, rfl, ⟨rfl, rfl⟩, nofun⟩
  · exact ⟨a, recoverAttempt_mem.mpr ⟨a, member, .inr ⟨own, rfl⟩⟩, rfl, ⟨rfl, rfl⟩, id⟩

/-- A recovery, whichever attempt it gives up and whatever it takes the fence to have
answered. -/
theorem recoverAttempt_successor (valid : Valid m) (i : RecoverInput) (attempt : AttemptID)
    (armed : Bool) :
    Valid (recoverAttempt i attempt armed m) ∧ Successor m (recoverAttempt i attempt armed m) := by
  have rows := recoverAttempt_rows i attempt armed m
  have idle := recoverAttempt_idle i attempt armed m
  have kept := valid.coherent.kept_idle (recoverAttempt_framed i attempt armed m) idle
  refine ⟨valid.of_rows kept.coherent rows, .of_rows rows fun a member => ?_⟩
  obtain ⟨b, inside, key, answers, pending⟩ := recoverAttempt_survives i attempt armed member
  exact ⟨b, inside, key, fun _ => answers, pending, fun _ locked => absurd idle.unlocked locked⟩

/-- A message that no worker holds, with its rows swept and its status renewed. -/
theorem rewrite_successor (valid : Valid m) (unlocked : m.lockedBy = none)
    {rows : RecipientID → Recipient} (sweeps : ∀ id, (m.row id).Sweeps (rows id)) (now : Int) :
    Valid ({ m with row := rows }.refresh now) ∧
      Successor m ({ m with row := rows }.refresh now) := by
  have kept := valid.coherent.rewrite unlocked rows m.route now fun id => (sweeps id).not_sending
  have continues (id : RecipientID) := (sweeps id).continues
  refine ⟨valid.of_rows kept.coherent continues, .of_rows continues fun a member => ?_⟩
  exact ⟨a, member, rfl, fun _ => ⟨rfl, rfl⟩, id, fun _ locked => absurd unlocked locked⟩

variable [Primitives]

theorem blocked_commit (c : Commit) (coherent : Coherent c.before) {a : Attempt}
    {rest : List Attempt} (leased : Leased c.before a rest)
    (blocked : a.suppressionBlockedAt ≠ none) : Idle c.after ∨ c.after.row = c.before.row := by
  have performed := c.performed
  rcases leased_commit c coherent leased with ⟨job, i, action⟩ | ⟨job, event, clock, action⟩ |
    ⟨flags, job, dispatch, clock, now, action⟩ | ⟨i, action⟩ | same
  · rw [action] at performed
    obtain ⟨answer, committed, -⟩ := map_eq_ok.mp performed
    obtain ⟨b, older, leased', -, -, unblocked, -⟩ := armData_armed coherent committed
    obtain ⟨rfl, -⟩ := List.cons.inj (leased'.attempts.symm.trans leased.attempts)
    exact absurd unblocked blocked
  · rw [action] at performed
    obtain ⟨-, f, -, same⟩ := record_events performed
    exact .inr (by rw [same])
  · exact .inl (closes_idle c coherent (by rw [action]; rfl))
  · exact .inl (closes_idle c coherent (by rw [action]; rfl))
  · exact .inr (by rw [same])

theorem commit_successor (c : Commit) (valid : Valid c.before) : Successor c.before c.after := by
  obtain ⟨columns, frame⟩ := commit_frame c valid.coherent
  by_cases claims : ∃ i, c.action = .claim i
  all_goals
    refine ⟨fun id => ?_, fun id closed => terminal_unchanged closed (valid.changes id), ?_⟩
    · refine changes_keep (P := fun r => r.address = (c.before.row id).address) ?_
        (valid.changes id) rfl
      exact fun _ _ change same => change.address.trans same
  · obtain ⟨i, action⟩ := claims
    have performed := c.performed
    rw [action] at performed
    intro a member
    obtain ⟨same, -, -, -, fresh⟩ := claim_ok performed
    rw [same]
    have finished := (fresh a member).2.2
    exact ⟨a, List.mem_cons_of_mem _ member, .of_finished rfl (fun _ => ⟨rfl, rfl⟩) finished⟩
  · intro a member
    obtain ⟨b, inside, key, fated, pending⟩ := (frame.resolve_left claims).attempts a member
    refine ⟨b, inside, key, fated, pending, fun open_ locked => ?_⟩
    -- only a claim locks a message
    have before : c.before.lockedBy ≠ none := by
      rcases columns.lockedBy.resolve_left claims with none | same
      · exact absurd none locked
      · exact same ▸ locked
    obtain ⟨rest, leased⟩ := valid.coherent.leased_of_pending before member (pending open_)
    refine ⟨before, fun blocked => ?_⟩
    rcases blocked_commit c valid.coherent leased blocked with idle | same
    · exact absurd idle.unlocked locked
    · exact same

end Commits

end RelayTale.Queue
