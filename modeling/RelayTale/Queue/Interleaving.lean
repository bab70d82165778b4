import RelayTale.Queue.Statements

/-!
# Transactions in any interleaving

Because of their locks the transactions take effect one after another, each on
the tables as they are when it commits. Those that select messages in a snapshot
can differ from the operation on whole tables: a recovery gives up the attempt
that it read, and a sweep finds its reason gone.
-/

namespace RelayTale.Queue

open Locking Guard
open Locking.Program (lockCandidates check_yields ifOk_yields select_yields lockRow_yields
  selectRow_yields lockCandidates_yields)

section Reading

variable {old m m' : Message}

theorem schedulable_unlocked {i : ScheduleInput} (selected : schedulable i (old.reread m) = true) :
    m.lockedBy = none := by
  simp only [schedulable, Bool.and_eq_true, decide_eq_true_eq] at selected
  exact selected.1.1.1

theorem expirable_unlocked {clock : Int} (selected : expirable clock (old.reread m) = true) :
    m.lockedBy = none := by
  simp only [expirable, Bool.and_eq_true, decide_eq_true_eq] at selected
  exact selected.1.1.1

variable [Primitives] {entries : List Entry}

theorem claimSelected_settled {c : ClaimInput}
    (selected : selectable entries c (old.reread m) = true)
    (committed : claimSelected entries c m = .ok m') : claim entries c.settled m = .ok m' := by
  refine do_eq_ok.mpr ⟨⟨⟩, require_eq_ok.mpr ?_, committed⟩
  simp only [claimSelected, do_eq_ok, require_eq_ok, exists_const] at committed
  obtain ⟨routed, -, -, nonempty, -⟩ := committed
  obtain ⟨id, picked⟩ := List.exists_mem_of_ne_nil _ nonempty
  have claimable : m.recipients.any (fun id => (m.row id).claimable c.flags entries c.pickClock) =
      true := List.any_eq_true.mpr ⟨id, picks_claimable picked⟩
  simp only [selectable, Bool.and_eq_true] at selected ⊢
  exact ⟨⟨selected.1.1, claimable⟩, routed⟩

theorem suppressible_unlocked {clock : Int}
    (selected : suppressible entries clock (old.reread m) = true) : m.lockedBy = none := by
  simp only [suppressible, Bool.and_eq_true, decide_eq_true_eq] at selected
  exact selected.1

/-- Only a retry asks for the policy. -/
theorem resolveUnknown_of_not_retry (entries : List Entry) {v : Resolution}
    (other : v.action ≠ .retry) : resolveUnknown [] v m = resolveUnknown entries v m := by
  simp [resolveUnknown, other]

theorem enqueue_of_sandbox {s : Submission} (sandbox : ¬ s.production = true) :
    s.enqueue [] = s.enqueue entries := by
  simp [Submission.enqueue, sandbox]

end Reading

section Writes

variable {store view : Tables} {seen : List Tables} {writes : List (Sigma Resource.Value)}
variable {target id : MessageID} {m m' : Message}

theorem write_put (store : Tables) (id target : MessageID) (m : Message) :
    store.write [put id m] (.message target) =
      if target = id then some m else store (.message target) := by
  by_cases same : target = id
  · subst same
    simp [Store.write, put]
  · simp [Store.write, put, same]

theorem write_results {results : List (Candidate × Message)}
    (distinct : (results.map (·.1.id)).Nodup) (target : MessageID) :
    (∃ x ∈ results, x.1.id = target ∧
      store.write (results.map fun x => put x.1.id x.2) (.message target) = some x.2) ∨
    store.write (results.map fun x => put x.1.id x.2) (.message target) =
      store (.message target) := by
  by_cases settled : ∃ x ∈ results, x.1.id = target
  · obtain ⟨x, inside, rfl⟩ := settled
    refine .inl ⟨x, inside, rfl, write_mem ?_ (List.mem_map.mpr ⟨x, inside, rfl⟩)⟩
    have injective : Function.Injective Resource.message := fun _ _ => Resource.message.inj
    rw [List.map_map]
    rw [show (Sigma.fst ∘ fun x : Candidate × Message => put x.1.id x.2) =
      Resource.message ∘ fun x : Candidate × Message => x.1.id from rfl, ← List.map_map]
    exact distinct.map injective
  · refine .inr (write_other fun write member same => settled ?_)
    obtain ⟨x, inside, rfl⟩ := List.mem_map.mp member
    exact ⟨x, inside, Resource.message.inj same⟩

/-- What a selection commits: settled messages, and the policy left alone. -/
theorem lockCandidates_settled {ids : List MessageID}
    {settle : Message → Message → Option (Except Refusal Message)}
    {next : List Candidate → Statements} (distinct : ids.Nodup)
    (saves : ∀ found, (next found).Yields store seen writes →
      (saveAll settle found).Yields store seen writes)
    (yields : (lockCandidates Resource.message (fun _ m => m) view ids next).Yields store seen writes) :
    store.write writes .policy = store .policy ∧ seen = [] ∧
    ∀ target, store.write writes (.message target) = store (.message target) ∨
      ∃ old m m', target ∈ ids ∧ view (.message target) = some old ∧
        store (.message target) = some m ∧ settle old m = some (.ok m') ∧ m'.admitted ∧
        store.write writes (.message target) = some m' := by
  obtain ⟨found, saved, sublist, read⟩ := lockCandidates_yields yields
  obtain ⟨_, settled, none, rfl⟩ := ifOk_yields.mp (saves found saved)
  obtain ⟨results, rfl, selected, each⟩ := settleAll_ok settled
  have ids_sublist : List.Sublist (results.map (·.1.id)) ids := by
    have mapped := selected.map Candidate.id
    rw [List.map_map] at mapped
    exact mapped.trans sublist
  refine ⟨write_other ?_, none, fun target => ?_⟩
  · intro write member
    obtain ⟨x, -, rfl⟩ := List.mem_map.mp member
    exact nofun
  · rcases write_results (distinct.sublist ids_sublist) target with ⟨x, inside, rfl, same⟩ | same
    · obtain ⟨before, current⟩ := read x.1 (selected.subset (List.mem_map_of_mem inside))
      exact .inr ⟨x.1.old, x.1.current, x.2, ids_sublist.subset (List.mem_map.mpr ⟨x, inside, rfl⟩),
        before, current, (each x inside).1, (each x inside).2, same⟩
    · exact .inl same

end Writes

section Times

structure Entry.Continues (entry later : Entry) : Prop where
  id : later.id = entry.id
  email : later.email = entry.email
  expiresAt : later.expiresAt = entry.expiresAt
  released : entry.releasedAt ≠ none → later.releasedAt = entry.releasedAt

structure Earlier (view store : Tables) : Prop where
  messages : ∀ {id old}, view (.message id) = some old →
    ∃ m, store (.message id) = some m ∧ Successor old m
  entries : ∀ entry ∈ view .policy, ∃ later ∈ store .policy, entry.Continues later

theorem Entry.Continues.refl (entry : Entry) : entry.Continues entry :=
  ⟨rfl, rfl, rfl, fun _ => rfl⟩

theorem Entry.Continues.trans {entry later last : Entry} (first : entry.Continues later)
    (second : later.Continues last) : entry.Continues last where
  id := second.id.trans first.id
  email := second.email.trans first.email
  expiresAt := second.expiresAt.trans first.expiresAt
  released released := by
    have same := first.released released
    exact (second.released (same ▸ released)).trans same

theorem Earlier.refl (store : Tables) : Earlier store store :=
  ⟨fun found => ⟨_, found, .refl _⟩, fun entry member => ⟨entry, member, .refl entry⟩⟩

theorem Earlier.trans {first second third : Tables} (left : Earlier first second)
    (right : Earlier second third) : Earlier first third where
  messages found := by
    obtain ⟨m, middle, successor⟩ := left.messages found
    obtain ⟨last, reached, successor'⟩ := right.messages middle
    exact ⟨last, reached, successor.trans successor'⟩
  entries entry member := by
    obtain ⟨later, inside, continues⟩ := left.entries entry member
    obtain ⟨last, reached, continues'⟩ := right.entries later inside
    exact ⟨last, reached, continues.trans continues'⟩

end Times

variable [Primitives]

section Effects

variable {op : Op} {seen : List Tables} {store : Tables} {target : MessageID}
variable {writes : List (Sigma Resource.Value)}

inductive Effect (op : Op) (seen : List Tables) (store : Tables) (target : MessageID) :
    Option Message → Prop
  | untouched : Effect op seen store target (store (.message target))
  | created {s : Submission} {m : Message} (absent : store (.message target) = none)
      (created : s.enqueue (store .policy) = .ok m) : Effect op seen store target (some m)
  | performed {action : Action} {m m' : Message} (acts : op.actionOn target = some action)
      (before : store (.message target) = some m)
      (performed : action.settled.perform (store .policy) m = .ok m') :
      Effect op seen store target (some m')
  | recovered {i : RecoverInput} {view : Tables} {old m : Message} {a : Attempt}
      (acts : op.actionOn target = some (.recover i)) (snapshot : view ∈ seen)
      (read : view (.message target) = some old) (before : store (.message target) = some m)
      (selected : abandoned i.leaseClock (old.reread m) = some a) :
      Effect op seen store target (some (recoverAttempt i a.id a.dataArmedAt.isSome m))
  | rewritten {m : Message} {rows : RecipientID → Recipient} {now : Int}
      (before : store (.message target) = some m) (unlocked : m.lockedBy = none)
      (uncancelled : m.cancelledAt = none)
      (sweeps : ∀ id, (m.row id).Sound → (m.row id).Sweeps (rows id)) :
      Effect op seen store target (some ({ m with row := rows }.refresh now))

inductive PolicyEffect (op : Op) (entries : List Entry) : List Entry → Prop
  | untouched : PolicyEffect op entries entries
  | added {v : AddRequest} {next : List Entry} (acts : op = .addSuppression v)
      (added : addSuppression v entries = .ok next) : PolicyEffect op entries next
  | released {id : EntryID} {clock : Int} {next : List Entry}
      (acts : op = .releaseSuppression id clock)
      (released : releaseSuppression id clock entries = .ok next) : PolicyEffect op entries next

structure Effects (op : Op) (seen : List Tables) (store after : Tables) : Prop where
  policy : PolicyEffect op (store .policy) (after .policy)
  messages : ∀ target, Effect op seen store target (after (.message target))

theorem effects_of_put {id : MessageID} {action : Action} {m m' : Message}
    (before : store (.message id) = some m)
    (performed : action.settled.perform (store .policy) m = .ok m') :
    Effects (.transact id action) seen store (store.write [put id m']) := by
  refine ⟨.untouched, fun target => ?_⟩
  rw [write_put]
  split
  next same =>
    subst same
    exact .performed (by simp [Op.actionOn]) before performed
  · exact .untouched

theorem effects_of_policy {change : List Entry → Except Refusal (List Entry)}
    (changes : ∀ next, change (store .policy) = .ok next →
      PolicyEffect op (store .policy) next)
    (yields : (changePolicy change).Yields store seen writes) :
    Effects op seen store (store.write writes) := by
  obtain ⟨next, changed, -, rfl⟩ := ifOk_yields.mp yields
  exact ⟨changes next changed, fun target => .untouched⟩

theorem createMessage_yields {id : MessageID} {s : Submission} {next : Message → Statements}
    (yields : (createMessage id s next).Yields store seen writes) :
    store (.message id) = none ∧ ∃ m, s.enqueue (store .policy) = .ok m ∧
      (next m).Yields store seen writes := by
  have yields := select_yields.mp yields
  split at yields
  · cases yields
  next absent =>
    rw [Option.not_isSome_iff_eq_none] at absent
    refine ⟨absent, ?_⟩
    split at yields
    · exact ifOk_yields.mp (select_yields.mp yields)
    next sandbox =>
      rw [enqueue_of_sandbox sandbox] at yields
      exact ifOk_yields.mp yields

theorem transact_yields {id : MessageID} {action : Action}
    (yields : (action.statements id).Yields store seen writes) :
    ∃ m m', store (.message id) = some m ∧ action.settled.perform (store .policy) m = .ok m' ∧
      writes = [put id m'] := by
  cases action with
  | claim c =>
    obtain ⟨view, later, old, m, rfl, read, before, selected⟩ :=
      selectRow_yields (select_yields.mp yields)
    obtain ⟨chosen, saved⟩ := check_yields.mp selected
    obtain ⟨m', claimed, -, rfl⟩ := save_yields.mp saved
    exact ⟨m, m', before, claimSelected_settled chosen claimed, rfl⟩
  | armData job i =>
    obtain ⟨m, before, fenced⟩ := lockRow_yields.mp yields
    obtain ⟨-, -, saved⟩ := ifOk_yields.mp fenced
    obtain ⟨m', armed, -, rfl⟩ := save_yields.mp (select_yields.mp saved)
    exact ⟨m, m', before, armed, rfl⟩
  | resolveUnknown v =>
    obtain ⟨m, before, resolved⟩ := lockRow_yields.mp yields
    split at resolved
    · obtain ⟨m', performed, -, rfl⟩ := save_yields.mp (select_yields.mp resolved)
      exact ⟨m, m', before, performed, rfl⟩
    next other =>
      rw [resolveUnknown_of_not_retry (store .policy) other] at resolved
      obtain ⟨m', performed, -, rfl⟩ := save_yields.mp resolved
      exact ⟨m, m', before, performed, rfl⟩
  | record | finish | cancelPending | retire =>
    obtain ⟨m, before, saved⟩ := lockRow_yields.mp yields
    obtain ⟨m', performed, -, rfl⟩ := save_yields.mp saved
    exact ⟨m, m', before, performed, rfl⟩
  | recover | schedule | sweepExpired | sweepSuppressed => cases yields

omit [Primitives] in
/-- The status of a cancelled message is not renewed. -/
theorem Message.admitted.uncancelled {m : Message} {now : Int} (admitted : (m.refresh now).admitted) :
    m.cancelledAt = none :=
  admitted.resolve_right fun cancelled => projection_ne_cancelled cancelled.1

theorem batch_effects {ids : List MessageID} {action : Action} (distinct : ids.Nodup)
    (yields : (action.batchStatements ids).Yields store seen writes) :
    Effects (.batch ids action) seen store (store.write writes) := by
  have acts {target : MessageID} (member : target ∈ ids) :
      (Op.batch ids action).actionOn target = some action := by
    simp [Op.actionOn, member]
  cases action with
  | recover i =>
    obtain ⟨view, later, rfl, yields⟩ := yields
    obtain ⟨policy, -, settled⟩ := lockCandidates_settled distinct (fun _ => id) yields
    refine ⟨policy ▸ .untouched, fun target => ?_⟩
    rcases settled target with same | ⟨old, m, m', member, read, before, settle, -, after⟩
    · exact same ▸ .untouched
    · obtain ⟨a, selected, same⟩ := Option.map_eq_some_iff.mp settle
      rw [after, ← Except.ok.inj same]
      exact .recovered (acts member) List.mem_cons_self read before selected
  | schedule i =>
    obtain ⟨view, later, rfl, yields⟩ := yields
    obtain ⟨policy, -, settled⟩ := lockCandidates_settled distinct (fun _ => id) yields
    refine ⟨policy ▸ .untouched, fun target => ?_⟩
    rcases settled target with same | ⟨old, m, m', -, -, before, settle, admitted, after⟩
    · exact same ▸ .untouched
    · obtain ⟨selected, same⟩ := Option.ite_none_right_eq_some.mp settle
      have scheduled := Option.some.inj same
      simp only [scheduleSelected, do_eq_ok, require_eq_ok, pure_eq_ok, exists_const] at scheduled
      obtain ⟨-, rfl⟩ := scheduled
      rw [after]
      refine .rewritten (m := m) before (schedulable_unlocked selected) admitted.uncancelled
        fun id sound => ?_
      have expired := (applyExpiry_row m i.expiryClock id).sweeps
      exact expired.trans ((scheduleRow_schedules i _).sweeps (expired.continues.sound sound))
  | sweepExpired selectClock expiryClock now =>
    obtain ⟨view, later, rfl, yields⟩ := yields
    obtain ⟨policy, -, settled⟩ := lockCandidates_settled distinct (fun _ => id) yields
    refine ⟨policy ▸ .untouched, fun target => ?_⟩
    rcases settled target with same | ⟨old, m, m', -, -, before, settle, admitted, after⟩
    · exact same ▸ .untouched
    · obtain ⟨selected, same⟩ := Option.ite_none_right_eq_some.mp settle
      obtain rfl := Except.ok.inj (Option.some.inj same)
      rw [after]
      exact .rewritten before (expirable_unlocked selected) admitted.uncancelled
        fun id _ => (applyExpiry_row m expiryClock id).sweeps
  | sweepSuppressed selectClock policyClock now =>
    obtain ⟨view, later, rfl, yields⟩ := yields
    obtain ⟨policy, -, settled⟩ := lockCandidates_settled distinct (fun _ => select_yields.mp) yields
    refine ⟨policy ▸ .untouched, fun target => ?_⟩
    rcases settled target with same | ⟨old, m, m', -, -, before, settle, admitted, after⟩
    · exact same ▸ .untouched
    · obtain ⟨selected, same⟩ := Option.ite_none_right_eq_some.mp settle
      obtain rfl := Except.ok.inj (Option.some.inj same)
      rw [after]
      exact .rewritten before (suppressible_unlocked selected) admitted.uncancelled
        fun id _ => (suppressHits_row (store .policy) policyClock false m id).sweeps
  | _ => cases yields

/-- A transaction that commits has its effects on the tables of that moment. -/
theorem statements_effects (yields : op.statements.Yields store seen writes) :
    Effects op seen store (store.write writes) := by
  cases op with
  | transact id action =>
    obtain ⟨m, m', before, performed, rfl⟩ := transact_yields yields
    exact effects_of_put before performed
  | batch ids action =>
    dsimp only [Op.statements] at yields
    split at yields
    next bounded => exact batch_effects bounded.1 yields
    · cases yields
  | addSuppression v =>
    exact effects_of_policy (fun next added => .added rfl added) yields
  | releaseSuppression id clock =>
    exact effects_of_policy (fun next released => .released rfl released) yields
  | enqueue id s =>
    obtain ⟨absent, m, created, -, rfl⟩ := createMessage_yields yields
    refine ⟨.untouched, fun target => ?_⟩
    rw [write_put]
    split
    next same =>
      subst same
      exact .created absent created
    · exact .untouched
  | replace old new identity clock s =>
    dsimp only [Op.statements] at yields
    split at yields
    · obtain ⟨m, before, cancelling⟩ := lockRow_yields.mp yields
      obtain ⟨cancelled, performed, creating⟩ := ifOk_yields.mp cancelling
      obtain ⟨absent, fresh, created, -, rfl⟩ := createMessage_yields creating
      have different : new ≠ old := by
        rintro rfl
        cases absent.symm.trans before
      refine ⟨.untouched, fun target => ?_⟩
      have written : store.write [put old cancelled, put new fresh] (.message target) =
          if target = new then some fresh
          else if target = old then some cancelled else store (.message target) := by
        rw [← write_put store old target cancelled]
        exact write_put (store.write [put old cancelled]) new target fresh
      rw [written]
      split
      next same =>
        subst same
        exact .created absent created
      split
      next same =>
        subst same
        have acts : (Op.replace target new identity clock s).actionOn target =
            some (.cancelPending identity true clock) := by simp [Op.actionOn]
        exact .performed acts before performed
      · exact .untouched
    · cases yields

end Effects

section Rule

variable {op : Op} {seen : List Tables} {store after : Tables} {target : MessageID}
variable {old m : Message} {a : Attempt}

omit [Primitives] in
/-- A recovery finds the message leased when it has the lock, but the attempt that
it selects is one that was in progress when it read its snapshot. -/
theorem abandoned_reread {clock : Int} (selected : abandoned clock (old.reread m) = some a) :
    m.status = .sending ∧ a ∈ old.attempts ∧ a.result = .pending := by
  unfold abandoned at selected
  split at selected
  case isFalse => cases selected
  next condition =>
    exact ⟨condition.1, List.mem_of_find?_eq_some selected, by simpa using List.find?_some selected⟩

omit [Primitives] in
/-- An action other than a claim takes effect as it was asked for. -/
theorem Action.settled_eq {action other : Action} (same : action.settled = other)
    (unclaimed : ∀ c, other ≠ .claim c) : action = other := by
  cases action with
  | claim c => exact absurd same.symm (unclaimed c.settled)
  | _ => exact same

def Consistent (store : Tables) : Prop := ∀ {id m}, store (.message id) = some m → Valid m

theorem Effect.keeps {result : Option Message} (consistent : Consistent store)
    (effect : Effect op seen store target result) :
    (∀ m', result = some m' → Valid m') ∧
      ∀ m, store (.message target) = some m → ∃ m', result = some m' ∧ Successor m m' := by
  have known {m m' : Message} (before : store (.message target) = some m)
      (kept : Valid m' ∧ Successor m m') : (∀ n, some m' = some n → Valid n) ∧
        ∀ n, store (.message target) = some n → ∃ n', some m' = some n' ∧ Successor n n' := by
    refine ⟨fun n same => Option.some.inj same ▸ kept.1, fun n found => ?_⟩
    obtain rfl := Option.mem_unique before found
    exact ⟨m', rfl, kept.2⟩
  cases effect with
  | untouched => exact ⟨fun m' found => consistent found, fun m found => ⟨m, found, .refl m⟩⟩
  | created absent created =>
    refine ⟨fun m' same => ?_, fun m found => by cases absent.symm.trans found⟩
    exact Option.some.inj same ▸ enqueue_valid created
  | @performed action m m' acts before performed =>
    let c : Commit := ⟨_, m, action.settled, m', performed⟩
    have valid : Valid c.before := consistent before
    exact known before ⟨commit_valid c valid, commit_successor c valid⟩
  | recovered _ _ _ before => exact known before (recoverAttempt_successor (consistent before) _ _ _)
  | rewritten before unlocked _ sweeps =>
    have valid := consistent before
    exact known before
      (rewrite_successor valid unlocked (fun id => sweeps id (valid.sound id)) _)

/-- An attempt that a transaction leaves was there before, or it was claimed. -/
theorem Effect.traces {m' : Message} (consistent : Consistent store)
    (effect : Effect op seen store target (some m')) (found : store (.message target) = some m)
    {b : Attempt} (member : b ∈ m'.attempts) :
    (∃ c, op.actionOn target = some (.claim c) ∧ c.attempt = b.id ∧ m'.lockedBy ≠ none) ∨
      ∃ a ∈ m.attempts, a.id = b.id := by
  generalize result : some m' = left at effect
  cases effect with
  | untouched =>
    obtain rfl := Option.some.inj (result.trans found)
    exact .inr ⟨b, member, rfl⟩
  | created absent => cases absent.symm.trans found
  | @performed action n n' acts before performed =>
    obtain rfl := Option.mem_unique before found
    obtain rfl := Option.some.inj result
    rcases commit_kept ⟨_, n, action.settled, m', performed⟩ (consistent before).coherent with
      ⟨⟨i, claims⟩, -⟩ | kept
    · cases action with
      | claim c =>
        obtain ⟨rfl, -⟩ := claim_ok performed
        rcases List.mem_cons.mp member with rfl | older
        · exact .inl ⟨c, acts, rfl, nofun⟩
        · exact .inr ⟨b, older, rfl⟩
      | _ => cases claims
    · exact .inr (kept.framed.exists_id member)
  | recovered _ _ _ before =>
    obtain rfl := Option.mem_unique before found
    obtain rfl := Option.some.inj result
    exact .inr ((recoverAttempt_framed _ _ _ _).exists_id member)
  | rewritten before =>
    obtain rfl := Option.mem_unique before found
    obtain rfl := Option.some.inj result
    exact .inr ⟨b, member, rfl⟩

theorem addSuppression_ok {v : AddRequest} {entries next : List Entry}
    (added : addSuppression v entries = .ok next) :
    ({ id := v.id, email := v.email, expiresAt := v.expiresAt } : Entry) ∈ next ∧
      ∀ entry ∈ entries, ∃ later ∈ next, entry.Continues later := by
  simp only [addSuppression, do_eq_ok, require_eq_ok, pure_eq_ok, exists_const] at added
  obtain ⟨-, -, -, rfl⟩ := added
  refine ⟨List.mem_cons_self, fun entry member => ?_⟩
  refine ⟨_, List.mem_cons_of_mem _ (List.mem_map_of_mem member), ?_⟩
  split
  next retired =>
    simp only [Bool.and_eq_true, Option.isNone_iff_eq_none] at retired
    exact ⟨rfl, rfl, rfl, fun released => absurd retired.2 released⟩
  · exact .refl entry

omit [Primitives] in
theorem releaseSuppression_ok {id : EntryID} {clock : Int} {entries next : List Entry}
    (released : releaseSuppression id clock entries = .ok next) :
    ∀ entry ∈ entries, ∃ later ∈ next, entry.Continues later := by
  simp only [releaseSuppression, do_eq_ok, require_eq_ok, pure_eq_ok, exists_const] at released
  obtain ⟨-, rfl⟩ := released
  intro entry member
  refine ⟨_, List.mem_map_of_mem member, ?_⟩
  split
  next open_ =>
    simp only [Bool.and_eq_true, Option.isNone_iff_eq_none] at open_
    exact ⟨rfl, rfl, rfl, fun released => absurd open_.2 released⟩
  · exact .refl entry

theorem PolicyEffect.continues {entries next : List Entry}
    (effect : PolicyEffect op entries next) :
    ∀ entry ∈ entries, ∃ later ∈ next, entry.Continues later := by
  cases effect with
  | untouched => exact fun entry member => ⟨entry, member, .refl entry⟩
  | added _ added => exact (addSuppression_ok added).2
  | released _ released => exact releaseSuppression_ok released

theorem Effects.keeps (consistent : Consistent store) (effects : Effects op seen store after) :
    Consistent after ∧ Earlier store after := by
  refine ⟨fun found => ?_, fun found => ?_, effects.policy.continues⟩
  · exact ((effects.messages _).keeps consistent).1 _ found
  · exact ((effects.messages _).keeps consistent).2 _ found

/-- Every transaction keeps the invariant of the tables in every interleaving. -/
theorem tables_rule : Rule Op.statements Consistent Earlier where
  guarded := statements_guarded
  refl := Earlier.refl
  trans := Earlier.trans
  keeps consistent _ yields := (statements_effects yields).keeps consistent

end Rule

section Runs

def emptyTables : Tables
  | .policy => []
  | .message _ => none

def interleaving (events : List (Event Op)) : Config Op Resource.Value :=
  Config.run Op.statements { store := emptyTables } events

theorem interleaving_history (events : List (Event Op)) :
    History Op.statements Consistent Earlier (interleaving events) := by
  have start : Consistent emptyTables := nofun
  exact tables_rule.run start events

variable {entry : Committed Op Resource.Value}

theorem serial_effects (serial : Serial Op.statements Consistent Earlier entry) :
    Effects entry.request entry.seen entry.before entry.after :=
  statements_effects serial.yields

theorem serial_performs (serial : Serial Op.statements Consistent Earlier entry) {id : MessageID}
    {action : Action} (request : entry.request = .transact id action) :
    ∃ m m', entry.before (.message id) = some m ∧
      action.settled.perform (entry.before .policy) m = .ok m' ∧ entry.after (.message id) = some m' := by
  have yields := serial.yields
  rw [request] at yields
  obtain ⟨m, m', before, performed, writes⟩ := transact_yields yields
  refine ⟨m, m', before, performed, ?_⟩
  rw [Committed.after, writes, write_put, if_pos rfl]

end Runs

end RelayTale.Queue
