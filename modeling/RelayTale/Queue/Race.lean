import RelayTale.Queue.Fence

/-!
# Recovery and the DATA fence

`Recover` takes the answer of the fence from the snapshot of its selection, which
does not read the attempts again when it has the row lock. An authorization that
commits between the snapshot and the row lock is missed. In every run without such
a step recovery reads the fence as it is.
-/

namespace RelayTale.Queue

open Locking Guard

section Snapshots

/-- Nothing was armed since the snapshot. -/
def Fresh (target : MessageID) (view store : Tables) : Prop :=
  ∀ {old m a b}, view (.message target) = some old → store (.message target) = some m →
    a ∈ old.attempts → b ∈ m.attempts → b.id = a.id → b.dataArmedAt = a.dataArmedAt

theorem recoverAttempt_fence (i : RecoverInput) (attempt : AttemptID) (armed : Bool) {m : Message}
    {a : Attempt} (member : a ∈ m.attempts) :
    ∃ b ∈ (recoverAttempt i attempt armed m).attempts, b.id = a.id ∧
      b.dataArmedAt = a.dataArmedAt := by
  obtain ⟨b, inside, key, answers, -⟩ := recoverAttempt_survives i attempt armed member
  exact ⟨b, inside, congrArg (·.1) key, answers.1⟩

variable [Primitives]

/-- Only `ArmData` writes the answer of the fence. -/
theorem commit_fence (c : Commit) (coherent : Coherent c.before)
    (other : ∀ job i, c.action ≠ .armData job i) {a : Attempt} (member : a ∈ c.before.attempts) :
    ∃ b ∈ c.after.attempts, b.id = a.id ∧ b.dataArmedAt = a.dataArmedAt := by
  cases commit_performed c coherent with
  | claimed _ _ same => exact ⟨a, same ▸ List.mem_cons_of_mem _ member, rfl, rfl⟩
  | armed action => exact absurd action (other _ _)
  | @recorded _ _ _ f _ _ _ _ added same =>
    obtain ⟨events, extended⟩ := added a
    refine ⟨f a, same ▸ List.mem_map_of_mem member, ?_⟩
    rw [extended]
    exact ⟨rfl, rfl⟩
  | @finished _ _ _ _ _ x b _ _ _ finishing =>
    rw [finishing.leased.attempts] at member
    rw [finishing.message]
    rcases List.mem_cons.mp member with rfl | older
    · exact ⟨b, List.mem_cons_self, congrArg (·.1) finishing.keeps.key, finishing.keeps.dataArmedAt⟩
    · exact ⟨a, List.mem_cons_of_mem _ older, rfl, rfl⟩
  | recovered _ _ same => exact same ▸ recoverAttempt_fence _ _ _ member
  | rewritten _ _ _ same | repeated _ same | cancelled _ _ same | retired _ _ same =>
    exact ⟨a, same ▸ member, rfl, rfl⟩

theorem Effect.fence {op : Op} {seen : List Tables} {store : Tables} {target : MessageID}
    {m m' : Message} (consistent : Consistent store)
    (effect : Effect op seen store target (some m')) (before : store (.message target) = some m)
    (other : ∀ job i, op.actionOn target ≠ some (.armData job i)) {a : Attempt}
    (member : a ∈ m.attempts) : ∃ b ∈ m'.attempts, b.id = a.id ∧ b.dataArmedAt = a.dataArmedAt := by
  generalize result : some m' = left at effect
  cases effect with
  | untouched =>
    obtain rfl := Option.some.inj (result.trans before)
    exact ⟨a, member, rfl, rfl⟩
  | created absent => cases absent.symm.trans before
  | @performed action n _ acts found performed =>
    obtain rfl := Option.mem_unique found before
    obtain rfl := Option.some.inj result
    refine commit_fence ⟨_, n, action.settled, m', performed⟩ (consistent before).coherent
      (fun job i arms => other job i ?_) member
    rw [acts, Action.settled_eq arms nofun]
  | recovered _ _ _ found =>
    obtain rfl := Option.mem_unique found before
    obtain rfl := Option.some.inj result
    exact recoverAttempt_fence _ _ _ member
  | rewritten found =>
    obtain rfl := Option.mem_unique found before
    obtain rfl := Option.some.inj result
    exact ⟨a, member, rfl, rfl⟩

def Arming (target : MessageID) (request : Op) : Prop :=
  ∃ job i, request.actionOn target = some (.armData job i)

theorem arms_watch (target : MessageID) :
    Watch Op.statements Consistent Earlier (Recovering target) (Arming target) (fun _ => True)
      (Fresh target) where
  refl consistent _ := by
    intro old m a b read current member inside same
    obtain rfl := Option.mem_unique read current
    have keyed := (consistent current).coherent.keyed
    rw [List.inj_on_of_nodup_map keyed.attempts inside member same]
  stays {view entry} serial earlier fresh other := by
    intro old m' a b read after member inside same
    obtain ⟨m, before, successor⟩ := earlier.messages read
    obtain ⟨x, found, survives⟩ := successor.attempts a member
    have id : x.id = a.id := congrArg (·.1) survives.key
    have effect := (serial_effects serial).messages target
    have keyed := ((effect.keeps serial.found).1 m' after).coherent.keyed
    rw [after] at effect
    obtain ⟨y, left, same', kept⟩ := effect.fence serial.found before
      (fun job i acts => other ⟨job, i, acts⟩) found
    obtain rfl := List.inj_on_of_nodup_map keyed.attempts left inside
      ((same'.trans id).trans same.symm)
    exact kept.trans (fresh read before member found id)
  keeps _ _ _ := trivial

end Snapshots

section Runs

variable [Primitives]

/-- With this step an authorization commits while a recovery of the same message
is on its way from its snapshot to its end. -/
def Overtakes (c : Config Op Resource.Value) (event : Event Op) : Prop :=
  ∃ t tx writes target job i, event = .advance t ∧ c.active t = some tx ∧
    tx.rest = .commit writes ∧ tx.request.actionOn target = some (.armData job i) ∧
    ∃ other recovery r, c.active other = some recovery ∧
      recovery.request.actionOn target = some (.recover r) ∧ recovery.seen ≠ []

omit [Primitives] in
theorem overtakes_of_target {c : Config Op Resource.Value} {event : Event Op} {target : MessageID}
    (overtakes : c.Overtakes (Recovering target) (Arming target) event) : Overtakes c event := by
  obtain ⟨t, tx, writes, moves, running, last, ⟨job, i, arms⟩, other, recovery, active, ⟨r, acts⟩,
    seen⟩ := overtakes
  exact ⟨t, tx, writes, target, job, i, moves, running, last, arms, other, recovery, r, active,
    acts, seen⟩

/-- The transaction is an `ArmData` that commits the permission of the attempt. -/
inductive Arms (target : MessageID) (attempt : AttemptID) (entry : Committed Op Resource.Value) : Prop
  | intro {job : Job} {i : ArmInput} {m : Message} {a : Attempt}
      (request : entry.request = .transact target (.armData job i)) (named : job.attempt = attempt)
      (after : entry.after (.message target) = some m) (member : a ∈ m.attempts)
      (same : a.id = attempt) (armed : a.dataArmedAt ≠ none)

/-- The transaction is a `Recover` that commits the attempt as failed temporarily. -/
inductive Abandons (target : MessageID) (attempt : AttemptID)
    (entry : Committed Op Resource.Value) : Prop
  | intro {ids : List MessageID} {r : RecoverInput} {m m' : Message} {a b : Attempt}
      (request : entry.request = .batch ids (.recover r)) (batch : target ∈ ids)
      (before : entry.before (.message target) = some m) (member : a ∈ m.attempts)
      (named : a.id = attempt) (pending : a.result = .pending)
      (after : entry.after (.message target) = some m') (inside : b ∈ m'.attempts)
      (same : b.id = attempt) (temporary : b.result = .reported .temporary)

variable {target : MessageID} {attempt : AttemptID} {entry : Committed Op Resource.Value}

/-- A recovery that reads the fence as it is gives up only unarmed attempts. -/
theorem Abandons.unarmed (serial : Serial Op.statements Consistent Earlier entry)
    (fresh : Recovering target entry.request → ∀ view ∈ entry.seen, Fresh target view entry.before)
    (abandons : Abandons target attempt entry) :
    ∃ m m' a b, entry.before (.message target) = some m ∧ a ∈ m.attempts ∧ a.id = attempt ∧
      a.dataArmedAt = none ∧ entry.after (.message target) = some m' ∧ b ∈ m'.attempts ∧
      b.id = attempt ∧ b.result ≠ .pending := by
  obtain @⟨ids, r, m, m', a, b, request, batch, before, member, named, pending, after, inside, same,
    temporary⟩ := abandons
  have closed : b.result ≠ .pending := by simp [temporary]
  refine ⟨m, m', a, b, before, member, named, ?_, after, inside, same, closed⟩
  have keyed := (serial.found before : Valid m).coherent.keyed
  have kept (unchanged : b ∈ m.attempts) : a.dataArmedAt = none := by
    rw [List.inj_on_of_nodup_map keyed.attempts unchanged member (same.trans named.symm)] at closed
    exact absurd pending closed
  -- the flag with which the loop was entered shows in the result
  have flagged {i : RecoverInput} {x : Attempt}
      (written : m' = recoverAttempt i x.id x.dataArmedAt.isSome m)
      (read : a.id = x.id → a.dataArmedAt = x.dataArmedAt) : a.dataArmedAt = none := by
    rw [written] at inside
    obtain ⟨y, older, ⟨own, rfl⟩ | ⟨-, rfl⟩⟩ := recoverAttempt_mem.mp inside
    · rw [read ((named.trans same.symm).trans own)]
      by_contra permitted
      simp [Attempt.abandoned, Option.isSome_iff_ne_none.mpr permitted] at temporary
    · exact kept older
  have acts : entry.request.actionOn target = some (.recover r) := by
    simp [request, Op.actionOn, batch]
  have effect := (serial_effects serial).messages target
  rw [after] at effect
  generalize result_eq : some m' = result at effect
  cases effect with
  | untouched =>
    obtain rfl := Option.some.inj (result_eq.trans before)
    exact kept inside
  | created absent => cases absent.symm.trans before
  | @performed action m₁ m₂ performs found performed =>
    obtain rfl := Option.mem_unique before found
    obtain rfl := Option.some.inj result_eq
    obtain rfl := Option.mem_unique acts performs
    obtain ⟨x, older, leased, -, written⟩ := recover_leased (serial.found before).coherent performed
    refine flagged written fun same => ?_
    have newest : x ∈ m.attempts := leased.attempts ▸ List.mem_cons_self
    rw [List.inj_on_of_nodup_map keyed.attempts member newest same]
  | rewritten found =>
    obtain rfl := Option.mem_unique before found
    obtain rfl := Option.some.inj result_eq
    exact kept inside
  | @recovered i view old m₁ x performs snapshot read found selected =>
    obtain rfl := Option.mem_unique before found
    obtain ⟨-, known, -⟩ := abandoned_reread selected
    exact flagged (Option.some.inj result_eq) fun same =>
      fresh ⟨i, performs⟩ view snapshot read before known member same

/-- An `ArmData` that commits a permission has found the attempt in progress. -/
theorem Arms.pending (serial : Serial Op.statements Consistent Earlier entry)
    (arms : Arms target attempt entry) :
    ∃ m a, entry.before (.message target) = some m ∧ a ∈ m.attempts ∧ a.id = attempt ∧
      a.result = .pending := by
  obtain @⟨job, i, m', b, request, named, -, -, -, -⟩ := arms
  obtain ⟨m, n, before, committed, -⟩ := serial_performs serial request
  obtain ⟨answer, gate, -⟩ := map_eq_ok.mp committed
  obtain ⟨a, rest, leased, same, -⟩ := armData_armed (serial.found before).coherent gate
  exact ⟨m, a, before, leased.attempts ▸ List.mem_cons_self, same.trans named, leased.pending⟩

/-- In every run in which no authorization overtakes a recovery, no attempt is
both authorized for DATA and given up as a temporary failure. -/
theorem recovery_reads_fence (events : List (Event Op))
    (calm : ∀ before event after, events = before ++ event :: after →
      ¬ Overtakes (interleaving before) event) :
    ∀ arm ∈ (interleaving events).log, ∀ recovery ∈ (interleaving events).log,
      ∀ target attempt, Arms target attempt arm → ¬ Abandons target attempt recovery := by
  intro arm member recovery member' target attempt arms abandons
  have history := interleaving_history events
  have start : Consistent emptyTables := nofun
  have watched := (arms_watch target).run tables_rule start trivial events fun before event after same =>
    mt overtakes_of_target (calm before event after same)
  obtain ⟨m, m', a, b, before, inside, named, unarmed, after, inside', named', closed⟩ :=
    abandons.unarmed (history.serial recovery member') (watched.log recovery member').2
  have different : arm ≠ recovery := by
    rintro rfl
    obtain ⟨request, -⟩ := arms
    obtain ⟨request', -⟩ := abandons
    cases request.symm.trans request'
  rcases history.comparable member member' different with earlier | earlier
  · -- the permission was there when the recovery locked the message
    obtain @⟨job, i, n, x, request, -, armedAfter, armedMember, same, armed⟩ := arms
    obtain ⟨n', current, successor⟩ := earlier.messages armedAfter
    obtain rfl := Option.mem_unique before current
    have keyed := ((history.serial recovery member').found before).coherent.keyed
    have survives := successor.survives keyed armedMember inside (named.trans same.symm)
    exact armed ((survives.fated (.inl armed)).1.symm.trans unarmed)
  · -- the attempt was over when its worker asked for permission
    have serial := history.serial arm member
    obtain ⟨n, x, found, armedMember, same, pending⟩ := arms.pending serial
    obtain ⟨n', current, successor⟩ := earlier.messages after
    obtain rfl := Option.mem_unique found current
    have keyed := (serial.found found).coherent.keyed
    have survives := successor.survives keyed inside' armedMember (same.trans named'.symm)
    exact closed (survives.pending pending)

end Runs

section Witness

attribute [local instance] plain

def delayed : ArmInput := ⟨2, 3 * minute, 3 * minute, 3 * minute⟩

def checkedLease : List (Event Op) :=
  alone 0 (.enqueue 0 letter) 5 ++ alone 1 (.transact 0 (.claim (claimAt 1 10 7 1))) 6 ++
    alone 2 (.transact 0 (.armData ⟨10, 7⟩ delayed)) 2

/-- The recovery reads its snapshot, the permission commits, the recovery goes on. -/
def overtaken : List (Event Op) :=
  checkedLease ++ alone 3 (.batch [0] (.recover (recoverAt (2 * minute)))) 1 ++
    List.replicate 3 (.advance 2) ++ List.replicate 3 (.advance 3)

def misreads : List (Committed Op Resource.Value) → Bool
  | [_, _, arm, recovery] =>
      (match arm.request, recovery.request with
      | .transact 0 (.armData job i), .batch [0] (.recover r) =>
          decide (job = ⟨10, 7⟩ ∧ i = delayed ∧ r = recoverAt (2 * minute))
      | _, _ => false) &&
      ((arm.after (.message 0)).any fun m =>
        m.attempts.any fun a => decide (a.id = 10 ∧ a.dataArmedAt ≠ none)) &&
      ((recovery.before (.message 0)).any fun m =>
        m.attempts.any fun a => decide (a.id = 10 ∧ a.result = .pending)) &&
      (recovery.after (.message 0)).any fun m =>
        (m.attempts.any fun a => decide (a.id = 10 ∧ a.result = .reported .temporary)) &&
          m.recipients.all fun id => decide ((m.row id).status = .queued)
  | _ => false

theorem recovery_misreads_fence :
    ∃ events : List (Event Op), ∃ arm ∈ (interleaving events).log,
      ∃ recovery ∈ (interleaving events).log, Arms 0 10 arm ∧ Abandons 0 10 recovery ∧
        ∃ m, recovery.after (.message 0) = some m ∧
          ∀ id ∈ m.recipients, (m.row id).status = .queued := by
  have shape : misreads (interleaving overtaken).log = true := by decide
  unfold misreads at shape
  split at shape
  case h_2 => cases shape
  next first second arm recovery log =>
    simp only [Bool.and_eq_true] at shape
    obtain ⟨⟨⟨requests, armed⟩, open_⟩, closed⟩ := shape
    split at requests
    case h_2 => cases requests
    next job i r arms recovers =>
      obtain ⟨rfl, rfl, rfl⟩ := of_decide_eq_true requests
      obtain ⟨m, after, found⟩ := (Option.any_eq_true _ _).mp armed
      obtain ⟨a, member, armed⟩ := List.any_eq_true.mp found
      obtain ⟨m₁, before₁, found⟩ := (Option.any_eq_true _ _).mp open_
      obtain ⟨b, member₁, pending⟩ := List.any_eq_true.mp found
      obtain ⟨m₂, after₂, found⟩ := (Option.any_eq_true _ _).mp closed
      rw [Bool.and_eq_true] at found
      obtain ⟨x, member₂, temporary⟩ := List.any_eq_true.mp found.1
      refine ⟨overtaken, arm, by simp [log], recovery, by simp [log], ?_, ?_, m₂, after₂, ?_⟩
      · exact ⟨arms, rfl, after, member, (of_decide_eq_true armed).1, (of_decide_eq_true armed).2⟩
      · exact ⟨recovers, List.mem_cons_self, before₁, member₁, (of_decide_eq_true pending).1,
          (of_decide_eq_true pending).2, after₂, member₂, (of_decide_eq_true temporary).1,
          (of_decide_eq_true temporary).2⟩
      · exact fun id inside => of_decide_eq_true (List.all_eq_true.mp found.2 id inside)

def orderly : List (Event Op) :=
  checkedLease ++ List.replicate 3 (.advance 2) ++
    alone 3 (.batch [0] (.recover (recoverAt (2 * minute)))) 4

theorem orderly_calm (before : List (Event Op)) (event : Event Op) (after : List (Event Op))
    (split : orderly = before ++ event :: after) : ¬ Overtakes (interleaving before) event := by
  rintro ⟨t, tx, writes, target, job, i, rfl, running, -, arms, other, recovery, r, running', recovers,
    -⟩
  have armStart := run_started _ _ running
  have recoverStart := run_started _ _ running'
  have armKind : eventKind (.start t tx.request) = (t, 1) := by
    revert arms
    cases tx.request <;> simp [Op.actionOn] <;> rintro _ rfl <;> rfl
  have recoverKind := eventKind_recovering ⟨r, recovers⟩ other
  have second : ∀ x ∈ orderly.map eventKind, x.2 = 1 → x.1 = 2 := by decide
  have third : (orderly.map eventKind).Pairwise fun x y => x.2 = 2 → y.2 = 3 → y.1 = 3 := by decide
  have inside : Event.start t tx.request ∈ orderly := by simp [split, armStart]
  have sublist : [Event.start other recovery.request, .advance t].Sublist orderly := by
    rw [split]
    exact (List.singleton_sublist.mpr recoverStart).append
      (List.singleton_sublist.mpr List.mem_cons_self)
  have two : t = 2 := by
    have found := second _ (List.mem_map_of_mem inside)
    rw [armKind] at found
    exact found rfl
  have three : t = 3 := by
    have found := List.pairwise_iff_forall_sublist.mp third (sublist.map eventKind)
    rw [recoverKind] at found
    exact found rfl rfl
  omega

theorem recovery_reads_fence_of_orderly :
    (interleaving orderly).log.length = 4 ∧
    ∀ arm ∈ (interleaving orderly).log, ∀ recovery ∈ (interleaving orderly).log,
      ∀ target attempt, Arms target attempt arm → ¬ Abandons target attempt recovery :=
  ⟨by decide, @recovery_reads_fence plain orderly orderly_calm⟩

end Witness

end RelayTale.Queue
