import RelayTale.Queue.Leases

/-!
# What an action leaves alone

The lock, the route and the cancellation of a message are each written by a few
actions only, and apart from a claim only the newest attempt is ever written.
-/

namespace RelayTale.Queue

open Guard

/-- Once the fence has answered for an attempt, the answer stays. -/
def Attempt.Fated (a b : Attempt) : Prop :=
  a.dataArmedAt ≠ none ∨ a.suppressionBlockedAt ≠ none →
    b.dataArmedAt = a.dataArmedAt ∧ b.suppressionBlockedAt = a.suppressionBlockedAt

def Message.fixed (m : Message) : Bool × Option IdentityID × Option Int × Option Int :=
  (m.production, m.apiKey, m.scheduleAt, m.expiresAt)

variable [Primitives]

structure Columns (c : Commit) : Prop where
  lockedBy : (∃ i, c.action = .claim i) ∨
    c.after.lockedBy = none ∨ c.after.lockedBy = c.before.lockedBy
  cancelledAt : (∃ identity replacing clock, c.action = .cancelPending identity replacing clock) ∨
    c.after.cancelledAt = c.before.cancelledAt
  route : (∃ i, c.action = .claim i) ∨ (∃ v, c.action = .resolveUnknown v) ∨
    c.after.route = c.before.route

/-- The attempts after an action that is not a claim: at most the newest one is
written, and older ones only gain events. -/
inductive Written (m m' : Message) : Prop
  | unchanged (same : m'.attempts = m.attempts)
  | newest {a b : Attempt} {rest : List Attempt} {f : Attempt → Attempt} (leased : Leased m a rest)
      (key : b.key = a.key) (fated : a.Fated b) (added : ∀ x, ∃ events, f x = { x with events })
      (attempts : m'.attempts = b :: rest.map f)

omit [Primitives] in
theorem Written.of_head {m m' : Message} {a b : Attempt} {rest : List Attempt}
    (leased : Leased m a rest) (key : b.key = a.key) (fated : a.Fated b)
    (attempts : m'.attempts = b :: rest) : Written m m' :=
  .newest (f := id) leased key fated (fun x => ⟨x.events, rfl⟩) (by simpa using attempts)

theorem Columns.of_same {c : Commit}
    (lockedBy : c.after.lockedBy = none ∨ c.after.lockedBy = c.before.lockedBy)
    (cancelledAt : c.after.cancelledAt = c.before.cancelledAt)
    (route : c.after.route = c.before.route) : Columns c :=
  ⟨.inr lockedBy, .inr cancelledAt, .inr (.inr route)⟩

theorem Armed.columns {m : Message} {entries : List Entry} {i : ArmInput} {a : Attempt}
    {answer : Message × Gate} (armed : Armed entries i a m answer) :
    answer.1.lockedBy = m.lockedBy ∧ answer.1.cancelledAt = m.cancelledAt ∧
      answer.1.route = m.route := by
  cases armed <;> exact ⟨rfl, rfl, rfl⟩

theorem commit_frame (c : Commit) (coherent : Coherent c.before) :
    Columns c ∧ ((∃ i, c.action = .claim i) ∨ Written c.before c.after) := by
  cases commit_performed c coherent with
  | @claimed i action _ same =>
    exact ⟨⟨.inl ⟨i, action⟩, .inr (by rw [same]; rfl), .inl ⟨i, action⟩⟩,
      .inl ⟨i, action⟩⟩
  | @armed _ _ _ a _ _ leased unarmed unblocked armed same =>
    obtain ⟨b, attempts, key, -⟩ := armed.attempts leased coherent.keyed
    obtain ⟨lockedBy, cancelledAt, route⟩ := armed.columns
    have fated : a.Fated b := by simp [Attempt.Fated, unarmed, unblocked]
    rw [same] at attempts lockedBy cancelledAt route
    exact ⟨.of_same (.inr lockedBy) cancelledAt route,
      .inr (.of_head leased key fated attempts)⟩
  | @recorded _ _ _ f a _ _ leased added same =>
    obtain ⟨events, head⟩ := added a
    have fated : a.Fated (f a) := by
      rw [head]
      exact fun _ => ⟨rfl, rfl⟩
    refine ⟨.of_same (.inr (by rw [same])) (by rw [same]) (by rw [same]),
      .inr (.newest leased (b := f a) (by rw [head]; rfl) fated added ?_)⟩
    rw [same]
    simp [leased.attempts]
  | @finished _ _ _ _ _ a b _ _ _ finishing =>
    have same := finishing.message
    have fated : a.Fated b := fun _ =>
      ⟨finishing.keeps.dataArmedAt, finishing.keeps.suppressionBlockedAt⟩
    exact ⟨.of_same (.inl (by rw [same]; rfl)) (by rw [same]; rfl) (by rw [same]; rfl),
      .inr (.of_head finishing.leased finishing.keeps.key fated (by rw [same]; rfl))⟩
  | @recovered i a _ _ leased same =>
    have attempts := recoverAttempt_attempts leased coherent.keyed i a.dataArmedAt.isSome
    rw [← same] at attempts
    have key : (a.abandoned a.dataArmedAt.isSome).key = a.key := rfl
    refine ⟨?_, .inr (.of_head leased key (fun _ => ⟨rfl, rfl⟩) attempts)⟩
    obtain ⟨rows, status, next, completed, -, shape⟩ :=
      recoverAttempt_eq i a.id a.dataArmedAt.isSome c.before
    rw [shape] at same
    exact .of_same (.inl (by rw [same]; rfl)) (by rw [same]; rfl) (by rw [same]; rfl)
  | rewritten _ _ routed same =>
    refine ⟨⟨.inr (.inr (by rw [same]; rfl)), .inr (by rw [same]; rfl), .inr ?_⟩,
      .inr (.unchanged (by rw [same]; rfl))⟩
    exact routed.imp_right fun kept => by rw [same, ← kept]; rfl
  | repeated _ same =>
    exact ⟨.of_same (.inr (by rw [same])) (by rw [same]) (by rw [same]),
      .inr (.unchanged (by rw [same]))⟩
  | cancelled action _ same =>
    exact ⟨⟨.inr (.inr (by rw [same])), .inl ⟨_, _, _, action⟩, .inr (.inr (by rw [same]))⟩,
      .inr (.unchanged (by rw [same]))⟩
  | retired _ _ same =>
    exact ⟨.of_same (.inr (by rw [same])) (by rw [same]) (by rw [same]),
      .inr (.unchanged (by rw [same]))⟩

/-- The fixed columns stay, and an archive that was given up is not found again. -/
theorem commit_fixed (c : Commit) (coherent : Coherent c.before) :
    c.after.fixed = c.before.fixed ∧
      (c.after.archiveAvailable = true → c.before.archiveAvailable = true) := by
  cases commit_performed c coherent with
  | armed _ _ _ _ armed same =>
    rw [← same]
    cases armed <;> exact ⟨rfl, id⟩
  | finished _ finishing =>
    rw [finishing.message]
    exact ⟨rfl, id⟩
  | @recovered i a _ _ _ same =>
    obtain ⟨rows, status, next, completed, -, shape⟩ :=
      recoverAttempt_eq i a.id a.dataArmedAt.isSome c.before
    rw [same, shape]
    exact ⟨rfl, id⟩
  | retired _ _ same =>
    rw [same]
    exact ⟨rfl, nofun⟩
  | claimed _ _ same | recorded _ _ _ same | rewritten _ _ _ same | repeated _ same
  | cancelled _ _ same =>
    rw [same]
    exact ⟨rfl, id⟩

end RelayTale.Queue
