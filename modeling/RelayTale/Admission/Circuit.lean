import RelayTale.Admission.Quota

/-!
# The circuit breaker

While a circuit is probed its probe is an attempt in progress of the provider,
and only the end of that attempt ends the probing. Claims find a circuit closed
or ready to be probed, and then become the probe. A closed circuit opens on
samples of attempts that were started after it was closed.
-/

namespace RelayTale.Admission

open Locking
open Queue (Message RecoverInput)

section Probe

variable {m m' : Message} {id : MessageID}

def InProgress (store : Store) (q : ProviderID) (attempt : AttemptID) : Prop :=
  ∃ id m, store.message id = some m ∧
    ∃ x ∈ m.attempts, x.id = attempt ∧ x.provider = q ∧ x.result = .pending

def Probed (store : Store) : Prop :=
  ∀ {q h attempt}, store (.health q) = some h → h.probe = some attempt → InProgress store q attempt

variable [Primitives] {d : Catalog} {seen : List Store} {final : Set (Resource × Mode)}
variable {store after : Store} {request : Request} {q : ProviderID} {attempt : AttemptID}

omit [Primitives] in
theorem Quiet.inProgress {before now : Option Message} (quiet : Quiet before now) {m : Message}
    (found : before = some m) {x : Queue.Attempt} (member : x ∈ m.attempts) :
    ∃ m', now = some m' ∧ ∃ y ∈ m'.attempts, y.id = x.id ∧ y.provider = x.provider ∧
      y.result = x.result := by
  cases quiet with
  | same => exact ⟨m, found, x, member, rfl, rfl, rfl⟩
  | created => cases found
  | undisturbed undisturbed =>
    obtain rfl := Option.some.inj found
    obtain ⟨y, inside, same⟩ := undisturbed.mem member
    exact ⟨_, rfl, y, inside, same⟩

omit [Primitives] in
theorem Settled.only {a b x : Queue.Attempt} {rest : List Queue.Attempt}
    (settled : Settled m m' a b rest) (member : x ∈ m.attempts) (pending : x.result = .pending) :
    x = a := by
  rw [settled.leased.attempts] at member
  rcases List.mem_cons.mp member with rfl | older
  · rfl
  · exact absurd pending (settled.leased.finished x older)

theorem Step.inProgress_of_queue {op : Queue.Op} {inner : List (Sigma Queue.Resource.Value)}
    (plain : ordinary op = true) (consistent : Consistent d store)
    (yields : op.statements.Yields store.tables (seen.map Store.tables) inner)
    (tables : after.tables = store.tables.write inner) (progress : InProgress store q attempt) :
    InProgress after q attempt := by
  obtain ⟨id, m, found, x, member, rfl, rfl, pending⟩ := progress
  have effects := Queue.statements_effects yields
  rw [← tables] at effects
  have quiet := effect_quiet consistent.tables plain (effects.messages id)
  obtain ⟨m', now, y, inside, same, provider, result⟩ := quiet.inProgress found member
  exact ⟨id, m', now, y, inside, same, provider, result.trans pending⟩

theorem Claimed.inProgress {i : AdmitInput} {p shown : Provider} {counting admitting : Store}
    (claimed : Claimed d (Shows agree) id i seen store after m m' p shown counting admitting)
    (progress : InProgress store q attempt) : InProgress after q attempt := by
  obtain ⟨target, n, found, x, member, rfl, rfl, pending⟩ := progress
  have other : target ≠ id := by
    rintro rfl
    obtain rfl := Option.mem_unique claimed.message found
    exact ((Queue.claim_ok claimed.performed).2.2.2.2 x member).2.2 pending
  exact ⟨target, n, by rw [claimed.messages, if_neg other, found], x, member, rfl, rfl, pending⟩

theorem Claimed.starts {i : AdmitInput} {p shown : Provider} {counting admitting : Store}
    (claimed : Claimed d (Shows agree) id i seen store after m m' p shown counting admitting) :
    InProgress after i.provider i.attempt := by
  obtain ⟨rfl, -⟩ := Queue.claim_ok claimed.performed
  exact ⟨id, _, by rw [claimed.messages, if_pos rfl], _, List.mem_cons_self, rfl, rfl, rfl⟩

/-- A finish ends one attempt only. -/
theorem Finished.inProgress {i : FinishInput} {a : Queue.Attempt} {p : Provider}
    (finished : Finished id i store after m m' a p) (consistent : Consistent d store)
    (progress : InProgress store q attempt) (other : ¬ (q = a.provider ∧ attempt = i.job.attempt)) :
    InProgress after q attempt := by
  obtain ⟨target, n, found, x, member, rfl, rfl, pending⟩ := progress
  have elsewhere : target ≠ id := by
    rintro rfl
    obtain rfl := Option.mem_unique finished.message found
    obtain ⟨named, b, rest, settled⟩ := finish_settled (consistent.tables found).coherent
      finished.current finished.finished
    obtain rfl := settled.only member pending
    exact other ⟨rfl, named⟩
  exact ⟨target, n, by rw [finished.messages, if_neg elsewhere, found], x, member, rfl, rfl, pending⟩

omit [Primitives] in
/-- A recovery leaves no circuit with a probe that it has ended. -/
theorem Recovered.inProgress {ids : List MessageID} {i : RecoverInput} {clock : AttemptID → Int}
    {view : Store} {jobs : List Abandoned}
    (recovered : Recovered d (Shows agree) ids i clock seen store after view jobs)
    (consistent : Consistent d store) (earlier : ∀ view ∈ seen, Earlier view store)
    (progress : InProgress store q attempt) {h : Health} (found : store (.health q) = some h)
    (probe : h.probe = some attempt) (kept : after (.health q) = some h) :
    InProgress after q attempt := by
  obtain ⟨target, n, message, x, member, rfl, rfl, pending⟩ := progress
  rcases recovered.messages target with ⟨job, inside, rfl, now⟩ | ⟨-, same⟩
  · have current := (recovered.read job inside).2.1
    obtain rfl := Option.mem_unique current message
    by_cases named : x.id = job.attempt.id
    case neg =>
      exact ⟨job.id, _, now, x, Queue.recoverAttempt_mem.mpr ⟨x, member, .inr ⟨named, rfl⟩⟩, rfl, rfl,
        pending⟩
    -- the snapshot of the update shows the probe of a locked message
    obtain ⟨shown, snapshot, locks, locked, shows, released⟩ := recovered.probes job inside
    have same : shown.message job.id = store.message job.id := (shows _ (locked job inside)).1
    have seen := (earlier shown snapshot).probes (same.trans message) x member found probe
    have ended := released _ (consistent.known (.inr (by simp [found]))) h h seen
      (named ▸ probe) found (named ▸ probe)
    rw [kept] at ended
    rw [Option.some.inj ended] at probe
    cases probe
  · exact ⟨target, n, same.trans message, x, member, rfl, rfl, pending⟩

theorem Step.probed (step : Step d (Shows agree) seen final store after request)
    (consistent : Consistent d store) (earlier : ∀ view ∈ seen, Earlier view store)
    (probed : Probed store) : Probed after := by
  intro q h attempt found probe
  cases step with
  | queue plain yields tables rest =>
    have progress := probed ((rest (.health q) nofun).symm.trans found) probe
    exact Step.inProgress_of_queue plain consistent yields tables progress
  | @claim id i m m' p shown counting admitting listed claimed locks =>
    by_cases same : q = i.provider
    · subst same
      have probing := claimed.reserved.probing
      rw [found] at probing
      generalize result : some h = now at probing
      cases probing with
      | unenforced => exact claimed.inProgress (probed result.symm probe)
      | idle => exact claimed.inProgress (probed result.symm probe)
      | started =>
        obtain rfl := Option.some.inj result
        obtain rfl : i.attempt = attempt := Option.some.inj probe
        exact claimed.starts
    · exact claimed.inProgress
        (probed ((claimed.reserved.healths q same).symm.trans found) probe)
  | @finish id i m m' a p finished lock =>
    by_cases same : q = a.provider
    · subst same
      obtain ⟨h', now, turned⟩ := finished.turned
      obtain rfl := Option.mem_unique found now
      cases before : store (.health a.provider) with
      | none =>
        rw [turned.same probe, before] at probe
        cases probe
      | some old =>
        rw [before] at turned
        cases turned with
        | recovered | failed | tripped => cases probe
        | kept other =>
          have halfOpen := (consistent.circuits before).mpr (by rw [Option.getD_some] at probe; simp [probe])
          refine finished.inProgress consistent (probed before probe) fun own => other ⟨halfOpen, ?_⟩
          rw [← own.2]
          exact probe
    · rw [finished.healths, if_neg same] at found
      exact finished.inProgress consistent (probed found probe) fun own => same own.1
  | recover recovered =>
    rcases recovered.healths q with same | ⟨x, -, old, -, -, same⟩
    · have before := same.symm.trans found
      exact recovered.inProgress consistent earlier (probed before probe) before probe found
    · obtain rfl := Option.mem_unique same found
      cases probe
  | administer administered =>
    obtain ⟨id, m, message, rest⟩ := probed ((administered.healths q).symm.trans found) probe
    exact ⟨id, m, (congrFun administered.tables (.message id)).trans message, rest⟩

end Probe

section Samples

def Usage.counts (since clock : Int) (u : Usage) : Bool :=
  decide (since ≤ u.startedAt) && u.observed.any fun (sample, observedAt) =>
    decide (clock - 10 * minute < observedAt ∧ sample ≠ .ignored)

def Usage.failed (u : Usage) : Bool := u.observed.any fun (sample, _) => sample = .failure

theorem samples_counts (since clock : Int) (attempts : List Usage) :
    (samples since clock attempts).length = (attempts.filter (·.counts since clock)).length ∧
      (samples since clock attempts).count .failure =
        (attempts.filter (·.counts since clock)).countP Usage.failed := by
  induction attempts with
  | nil => exact ⟨rfl, rfl⟩
  | cons u rest ih =>
    obtain ⟨length, failures⟩ := ih
    unfold samples at length failures ⊢
    rw [List.filterMap_cons, List.filter_cons]
    cases observed : u.observed with
    | none =>
      rw [if_neg (by simp [Usage.counts, observed])]
      exact ⟨length, failures⟩
    | some row =>
      obtain ⟨sample, observedAt⟩ := row
      by_cases inside : since ≤ u.startedAt ∧ clock - 10 * minute < observedAt ∧ sample ≠ .ignored
      · have counts : u.counts since clock = true := by
          simpa [Usage.counts, observed] using inside
        rw [if_pos counts]
        simp only [Option.bind_some, inside, not_false_eq_true, and_self, if_true, ne_eq]
        rw [List.length_cons, List.length_cons, List.count_cons, List.countP_cons, length, failures]
        refine ⟨rfl, ?_⟩
        simp [Usage.failed, observed]
      · have counts : ¬ u.counts since clock = true := by
          simpa [Usage.counts, observed] using inside
        rw [if_neg counts]
        simp only [Option.bind_some, if_neg inside]
        exact ⟨length, failures⟩

end Samples

section Transitions

variable [Primitives]

def Concludes (store after : Store) (attempt : AttemptID) : Prop :=
  ∃ id m m', store.message id = some m ∧ after.message id = some m' ∧
    (∃ x ∈ m.attempts, x.id = attempt ∧ x.result = .pending) ∧
    ∃ y ∈ m'.attempts, y.id = attempt ∧ y.result ≠ .pending

/-- The transitions of the circuit of a provider that was last closed at `closed`. -/
inductive Transition (request : Request) (store after : Store) (q : ProviderID)
    (lastClosed : Option Int) : Option Health → Option Health → Prop
  | stays (found : Option Health) : Transition request store after q lastClosed found found
  | registered : Transition request store after q lastClosed none (some {})
  | probing {id : MessageID} {i : AdmitInput} {h : Health} (claims : request = .claim id i)
      (own : i.provider = q) (opened : h.circuit = .opened) :
      Transition request store after q lastClosed (some h) (some (h.startProbe i.attempt))
  | restored {id : MessageID} {i : FinishInput} {m : Message} {h : Health}
      (finishes : request = .finish id i) (halfOpen : h.circuit = .halfOpen)
      (probe : h.probe = some i.job.attempt) (found : store.message id = some m)
      (success : sampleOf (i.result m) = .success) :
      Transition request store after q lastClosed (some h) (some (h.reset i.turnClock))
  | failed {id : MessageID} {i : FinishInput} {h : Health} (finishes : request = .finish id i)
      (halfOpen : h.circuit = .halfOpen) (probe : h.probe = some i.job.attempt) :
      Transition request store after q lastClosed (some h) (some (h.trip i.turnClock))
  | abandoned {ids : List MessageID} {i : RecoverInput} {clock : AttemptID → Int} {h : Health}
      {attempt : AttemptID} (recovers : request = .recover ids i clock)
      (halfOpen : h.circuit = .halfOpen) (probe : h.probe = some attempt)
      (concludes : Concludes store after attempt) :
      Transition request store after q lastClosed (some h) (some (h.trip (clock attempt)))
  | tripped {id : MessageID} {i : FinishInput} {p : Provider} {found : Option Health}
      {counted : List Usage} (finishes : request = .finish id i)
      (closed : (found.getD {}).circuit = .closed) (row : after (.provider q) = some p)
      (read : counted = p.attempts.filter (·.counts (found.getD {}).samplesSince i.windowClock))
      (enough : 5 ≤ counted.length) (half : counted.length ≤ 2 * counted.countP Usage.failed)
      (fresh : ∀ closedAt, lastClosed = some closedAt → ∀ u ∈ counted, closedAt ≤ u.startedAt) :
      Transition request store after q lastClosed found
        (some ((found.getD {}).trip i.turnClock))

variable {d : Catalog} {seen : List Store} {final : Set (Resource × Mode)}
variable {store after : Store} {request : Request} {q : ProviderID} {lastClosed : Option Int}

theorem Finished.transition {id : MessageID} {i : FinishInput} {m m' : Message}
    {a : Queue.Attempt} {p : Provider} (finished : Finished id i store after m m' a p)
    (since : ∀ closedAt, lastClosed = some closedAt →
      ((store (.health a.provider)).getD {}).samplesSince = closedAt) :
    Transition (.finish id i) store after a.provider lastClosed (store (.health a.provider))
      (after (.health a.provider)) := by
  obtain ⟨h', now, turned⟩ := finished.turned
  rw [now]
  cases turned with
  | tripped closed on enough half =>
    obtain ⟨length, failures⟩ := samples_counts ((store (.health a.provider)).getD {}).samplesSince
      i.windowClock (p.observe i.job.attempt (sampleOf (i.result m)) i.observeClock).attempts
    simp only [FinishInput.samples] at enough half
    rw [length] at enough half
    rw [failures] at half
    refine .tripped rfl closed ((finished.providers _).trans (if_pos rfl)) rfl enough
      (by omega) fun closedAt last u member => ?_
    have counts := (List.mem_filter.mp member).2
    simp only [Usage.counts, Bool.and_eq_true, decide_eq_true_eq] at counts
    exact since closedAt last ▸ counts.1
  | recovered halfOpen probe success =>
    cases before : store (.health a.provider) with
    | none => simp [before] at probe
    | some h =>
      rw [before] at halfOpen probe
      exact .restored rfl halfOpen probe finished.message success
  | failed halfOpen probe failure =>
    cases before : store (.health a.provider) with
    | none => simp [before] at probe
    | some h =>
      rw [before] at halfOpen probe
      exact .failed rfl halfOpen probe
  | kept =>
    cases store (.health a.provider) with
    | none => exact .registered
    | some h => exact .stays _

theorem Step.transition (step : Step d (Shows agree) seen final store after request)
    (consistent : Consistent d store) (earlier : ∀ view ∈ seen, Earlier view store)
    (probed : Probed store)
    (since : ∀ closedAt, lastClosed = some closedAt →
      ((store (.health q)).getD {}).samplesSince = closedAt) :
    Transition request store after q lastClosed (store (.health q)) (after (.health q)) := by
  have same (kept : after (.health q) = store (.health q)) :
      Transition request store after q lastClosed (store (.health q)) (after (.health q)) := by
    rw [kept]
    exact .stays _
  cases step with
  | queue _ _ _ rest => exact same (rest (.health q) nofun)
  | @claim id i m m' p shown counting admitting listed claimed locks =>
    by_cases own : q = i.provider
    · subst own
      have probing := claimed.reserved.probing
      generalize after (.health i.provider) = now at probing ⊢
      cases probing with
      | unenforced => exact .stays _
      | idle => exact .stays _
      | @started h found due =>
        rw [found]
        simp only [Health.due, Bool.and_eq_true, decide_eq_true_eq] at due
        exact .probing rfl rfl due.1.1
    · exact same (claimed.reserved.healths q own)
  | @finish id i m m' a p finished lock =>
    by_cases own : q = a.provider
    · subst own
      exact finished.transition since
    · exact same (by rw [finished.healths, if_neg own])
  | @recover ids i clock view jobs recovered =>
    rcases recovered.healths q with kept | ⟨x, member, h, found, probe, tripped⟩
    · exact same kept
    · rw [found, tripped]
      have halfOpen := (consistent.circuits found).mpr (by simp [probe])
      refine .abandoned rfl halfOpen probe ?_
      obtain ⟨read, current, selected⟩ := recovered.read x member
      -- the probe belongs to the message of which the attempt was read
      obtain ⟨id, n, message, b, progress, named, -, pending⟩ := probed found probe
      obtain ⟨-, known, -⟩ := Queue.abandoned_reread selected
      obtain ⟨n', again, successor⟩ := (earlier view recovered.snapshot).tables.messages read
      obtain rfl := Option.mem_unique current again
      obtain ⟨c, still, survives⟩ := successor.attempts x.attempt known
      have key := consistent.keyed current c still
      rw [show c.id = b.id from (congrArg (·.1) survives.key).trans named.symm,
        consistent.keyed message b progress] at key
      obtain rfl := Option.some.inj key
      obtain rfl := Option.mem_unique current message
      rcases recovered.messages x.id with ⟨y, inside, equal, now⟩ | ⟨others, -⟩
      · have identical : y = x := by
          have distinct := recovered.distinct.sublist recovered.selected
          exact List.inj_on_of_nodup_map distinct inside member equal
        subst identical
        exact ⟨y.id, y.current, _, current, now, ⟨b, progress, named, pending⟩,
          b.abandoned y.attempt.dataArmedAt.isSome,
          Queue.recoverAttempt_mem.mpr ⟨b, progress, .inl ⟨named, rfl⟩⟩, named, nofun⟩
      · exact absurd rfl (others x member)
  | administer administered => exact same (administered.healths q)

end Transitions

section Claims

variable [Primitives] {d : Catalog} {seen : List Store} {store after : Store}

/-- What an enforced claim finds and leaves of the circuit. -/
inductive Admits (i : AdmitInput) : Option Health → Option Health → Prop
  | unregistered : Admits i none none
  | closed {h : Health} (closed : h.circuit = .closed) : Admits i (some h) (some h)
  | probes {h : Health} {openUntil : Int} (opened : h.circuit = .opened)
      (until_ : h.openUntil = some openUntil) (elapsed : openUntil ≤ i.quotaClock) :
      Admits i (some h) (some (h.startProbe i.attempt))

omit [Primitives] in
theorem due_iff {h : Health} {clock : Int} :
    h.due clock = true ↔ h.circuit = .opened ∧
      (∃ openUntil, h.openUntil = some openUntil ∧ openUntil ≤ clock) ∧ h.probe = none := by
  simp [Health.due, Option.any_eq_true, and_assoc]

omit [Primitives] in
theorem due_later {h : Health} {clock later : Int} (due : h.due clock = true)
    (monotone : clock ≤ later) : h.due later = true := by
  obtain ⟨opened, ⟨openUntil, until_, elapsed⟩, idle⟩ := due_iff.mp due
  exact due_iff.mpr ⟨opened, ⟨openUntil, until_, elapsed.trans monotone⟩, idle⟩

omit [Primitives] in
/-- Under the lock of the provider a circuit that is not probed is seen as it is. -/
theorem shows_circuit {view : Store} {held : Set (Resource × Mode)} {q : ProviderID}
    (shows : Shows agree held view store) (locked : (Resource.provider q, Mode.exclusive) ∈ held)
    (idle : ∀ h, view (.health q) = some h → h.circuit ≠ .halfOpen) :
    store (.health q) = view (.health q) :=
  (shows _ locked).2 idle

theorem Claimed.admits_circuit {id : MessageID} {i : AdmitInput} {m m' : Message}
    {p shown : Provider} {counting admitting : Store}
    (claimed : Claimed d (Shows agree) id i seen store after m m' p shown counting admitting)
    (enabled : i.healthEnabled = true) (checked : p.healthCheckEnabled = true)
    (monotone : i.quotaClock ≤ i.probeClock) :
    Admits i (store (.health i.provider)) (after (.health i.provider)) := by
  obtain rfl := claimed.shown_eq
  have lock := provider_mem_locks id i shown
  have available : (admitting (.health i.provider)).all
      (fun h => decide (h.circuit = .closed) || h.due i.quotaClock) = true := by
    have controlled := claimed.controlled
    simp only [AdmitInput.controlled, circuitAvailable, enabled, checked, Bool.not_true,
      Bool.false_or, Bool.and_eq_true] at controlled
    exact controlled.2
  have idle (h : Health) (found : admitting (.health i.provider) = some h) :
      h.circuit ≠ .halfOpen := by
    rw [found, Option.all_some, Bool.or_eq_true, decide_eq_true_eq, due_iff] at available
    rcases available with closed | ⟨opened, -⟩ <;> simp [*]
  have same := shows_circuit claimed.admits.2 lock idle
  rw [← same] at available
  have probing := claimed.reserved.probing
  generalize after (.health i.provider) = now at probing ⊢
  cases probing with
  | unenforced off => simp [enabled, checked] at off
  | @started h found due =>
    rw [found]
    rw [found, Option.all_some, Bool.or_eq_true, decide_eq_true_eq] at available
    rcases available with closed | ready
    · rw [(due_iff.mp due).1] at closed
      cases closed
    · obtain ⟨opened, ⟨openUntil, until_, elapsed⟩, -⟩ := due_iff.mp ready
      exact .probes opened until_ elapsed
  | @idle view member shows waits =>
    cases found : store (.health i.provider) with
    | none => exact .unregistered
    | some h =>
      rw [found, Option.all_some, Bool.or_eq_true, decide_eq_true_eq] at available
      rcases available with closed | ready
      · exact .closed closed
      · -- the pause is over, so the update of `reserveControls` would have found the circuit
        have due := due_later ready monotone
        have seen : view (.health i.provider) = some h :=
          (shows_circuit shows lock idle).trans (same.symm.trans found)
        rcases waits with waits | waits
        · rw [waits h seen] at due
          cases due
        · rw [waits h found] at due
          cases due

end Claims

section LastClosed

variable [Primitives]
variable {entry : Committed Request Resource.Value} {log : List (Committed Request Resource.Value)}

def closing (q : ProviderID) (entry : Committed Request Resource.Value) : Option Int :=
  match entry.request with
  | .finish _ i =>
      if (entry.before (.health q)).any (fun h => h.circuit ≠ .closed) ∧
          (entry.after (.health q)).any (fun h => h.circuit = .closed) then some i.turnClock
      else none
  | _ => none

def closedAt (q : ProviderID) (log : List (Committed Request Resource.Value)) : Option Int :=
  (log.filterMap (closing q)).getLast?

omit [Primitives] in
theorem closedAt_append (q : ProviderID) (log : List (Committed Request Resource.Value))
    (entry : Committed Request Resource.Value) :
    closedAt q (log ++ [entry]) = (closing q entry).or (closedAt q log) := by
  unfold closedAt
  rw [List.filterMap_append, List.getLast?_append]
  simp only [List.filterMap_cons, List.filterMap_nil]
  cases closing q entry <;> rfl

def SampledSince (log : List (Committed Request Resource.Value)) (store : Store) : Prop :=
  ∀ q c, closedAt q log = some c → ∃ h, store (.health q) = some h ∧ h.samplesSince = c

omit [Primitives] in
/-- What is known of a transaction that has closed the circuit. -/
theorem closing_some {q : ProviderID} {c : Int} (closes : closing q entry = some c) :
    ∃ id i h h', entry.request = .finish id i ∧ i.turnClock = c ∧
      entry.before (.health q) = some h ∧ h.circuit ≠ .closed ∧
      entry.after (.health q) = some h' ∧ h'.circuit = .closed := by
  unfold closing at closes
  split at closes
  next id i request =>
    obtain ⟨⟨before, after⟩, clock⟩ := Option.ite_none_right_eq_some.mp closes
    obtain ⟨h, found, open_⟩ := (Option.any_eq_true _ _).mp before
    obtain ⟨h', now, closed⟩ := (Option.any_eq_true _ _).mp after
    exact ⟨id, i, h, h', request, Option.some.inj clock, found, by simpa using open_, now,
      by simpa using closed⟩
  · cases closes

theorem SampledSince.step (sampled : SampledSince log entry.before)
    (transition : ∀ q, Transition entry.request entry.before entry.after q (closedAt q log)
      (entry.before (.health q)) (entry.after (.health q))) :
    SampledSince (log ++ [entry]) entry.after := by
  intro q c last
  rw [closedAt_append] at last
  have moves := transition q
  generalize found : entry.before (.health q) = before at moves
  generalize now : entry.after (.health q) = after at moves
  cases closes : closing q entry with
  | some clock =>
    -- only a successful probe closes the circuit, and it starts the samples anew
    rw [closes, Option.some_or] at last
    obtain rfl := Option.some.inj last
    obtain ⟨id, i, h, h', request, rfl, old, open_, new, closed⟩ := closing_some closes
    rw [found] at old
    rw [now] at new
    subst old new
    generalize result : some h' = final at moves
    cases moves with
    | stays => exact absurd (Option.some.inj result ▸ closed) open_
    | probing | failed | abandoned | tripped =>
      obtain rfl := Option.some.inj result
      cases closed
    | restored finishes =>
      obtain rfl := Option.some.inj result
      rw [request] at finishes
      cases finishes
      exact ⟨_, rfl, rfl⟩
  | none =>
    rw [closes, Option.none_or] at last
    obtain ⟨h, known, since⟩ := sampled q c last
    rw [found] at known
    subst known
    generalize start : some h = first at moves
    cases moves with
    | stays => exact ⟨h, start.symm, since⟩
    | registered => cases start
    | probing | failed | abandoned =>
      obtain rfl := Option.some.inj start
      exact ⟨_, rfl, since⟩
    | tripped =>
      subst start
      exact ⟨_, rfl, since⟩
    | @restored id i m h' finishes halfOpen probe =>
      obtain rfl := Option.some.inj start
      unfold closing at closes
      rw [finishes] at closes
      simp [found, now, halfOpen, Health.reset] at closes

variable {d : Catalog}

/-- A committed transaction as `interleaving_steps` describes it. -/
def Stepped (d : Catalog) (entry : Committed Request Resource.Value) : Prop :=
  Consistent d entry.before ∧ (∀ view ∈ entry.seen, Earlier view entry.before) ∧
    ∃ final, Step d (Shows agree) entry.seen final entry.before entry.after entry.request

theorem Stepped.transition (stepped : Stepped d entry)
    (invariants : Probed entry.before ∧ SampledSince log entry.before) (q : ProviderID) :
    Transition entry.request entry.before entry.after q (closedAt q log)
      (entry.before (.health q)) (entry.after (.health q)) := by
  obtain ⟨consistent, earlier, final, step⟩ := stepped
  refine step.transition consistent earlier invariants.1 fun c last => ?_
  obtain ⟨h, found, since⟩ := invariants.2 q c last
  rw [found]
  exact since

theorem chained_invariants {last : Store} (chained : Chained emptyStore log last)
    (stepped : ∀ entry ∈ log, Stepped d entry) : Probed last ∧ SampledSince log last := by
  refine chained.along (P := fun log store => Probed store ∧ SampledSince log store) ⟨nofun, nofun⟩ ?_
  intro earlier entry later split invariants
  have own : Stepped d entry := stepped entry (by simp [split])
  refine ⟨?_, invariants.2.step (own.transition invariants)⟩
  obtain ⟨consistent, older, final, step⟩ := own
  exact step.probed consistent older invariants.1

end LastClosed

section Protocol

variable [Primitives] (d : Catalog) (events : List (Event Request))

theorem circuit_invariants {earlier later : List (Committed Request Resource.Value)}
    {entry : Committed Request Resource.Value}
    (split : (interleaving d events).log = earlier ++ entry :: later) :
    Probed entry.before ∧ SampledSince earlier entry.before := by
  have chained : Chained emptyStore (earlier ++ entry :: later) (interleaving d events).store :=
    split ▸ run_chained (Request.statements d) emptyStore events
  refine chained_invariants (d := d) chained.before fun each member => ?_
  exact interleaving_steps d events (by simp [split, member])

/-- The protocol of the circuit breaker in every interleaving. A probed circuit has
an attempt in progress as its probe, every transaction makes one of the listed
transitions, and a claim whose health checks are enforced finds the circuit
closed or becomes its probe. -/
theorem circuit_protocol :
    (∀ q h, (interleaving d events).store (.health q) = some h →
      (h.circuit = .halfOpen ↔ h.probe ≠ none) ∧
      ∀ attempt, h.probe = some attempt → InProgress (interleaving d events).store q attempt) ∧
    ∀ earlier entry later, (interleaving d events).log = earlier ++ entry :: later →
      (∀ q, Transition entry.request entry.before entry.after q (closedAt q earlier)
        (entry.before (.health q)) (entry.after (.health q))) ∧
      ∀ id i p, entry.request = .claim id i → entry.before (.provider i.provider) = some p →
        i.healthEnabled = true → p.healthCheckEnabled = true → i.quotaClock ≤ i.probeClock →
        Admits i (entry.before (.health i.provider)) (entry.after (.health i.provider)) := by
  have history := interleaving_history d events
  refine ⟨fun q h found => ⟨history.current.circuits found, fun attempt probe => ?_⟩,
    fun earlier entry later split => ?_⟩
  · have chained := run_chained (Request.statements d) emptyStore events
    exact (chained_invariants chained fun each member =>
      interleaving_steps d events member).1 found probe
  · have member : entry ∈ (interleaving d events).log := by simp [split]
    have stepped : Stepped d entry := interleaving_steps d events member
    refine ⟨stepped.transition (circuit_invariants d events split), ?_⟩
    intro id i p request found enabled checked monotone
    obtain ⟨m, m', p', shown, counting, admitting, claimed⟩ :=
      interleaving_claims d events member request
    obtain rfl := Option.mem_unique claimed.provider found
    exact claimed.admits_circuit enabled checked monotone

end Protocol

section Witness

attribute [local instance] Queue.plain

theorem office_messages_nodup : [0, 1, 2, 3, 4, 5].Nodup := by decide

theorem office_providers_nodup : [1].Nodup := List.nodup_singleton 1

def office : Catalog :=
  ⟨[0, 1, 2, 3, 4, 5], [1], office_messages_nodup, office_providers_nodup⟩

def unresolvedAt (attempt : AttemptID) (now : Int) : FinishInput where
  flags := ⟨true, true⟩
  job := ⟨attempt, 7⟩
  dispatch := .sent (Queue.unresolved now)
  healthEnabled := true
  clock := now
  now := now
  observeClock := now
  windowClock := now
  turnClock := now

def failedDelivery (id : MessageID) : List (Event Request) :=
  alone 0 (.queue (.enqueue id Queue.letter)) 5 ++ alone 0 (.claim id (admitAt (10 + id) 7 1)) 14 ++
    alone 0 (.finish id (unresolvedAt (10 + id) 2)) 7

def probeClaim : AdmitInput := admitAt 15 7 (2 + minute)

/-- Five deliveries fail, and after the pause the provider is tried again. -/
def outage : List (Event Request) :=
  alone 0 (.createProvider 1 ⟨1, 60, 0, 0⟩ true) 3 ++ [0, 1, 2, 3, 4].flatMap failedDelivery ++
    alone 0 (.queue (.enqueue 5 Queue.letter)) 5 ++ alone 0 (.claim 5 probeClaim) 16

def probes (entry : Committed Request Resource.Value) : Bool :=
  match entry.request with
  | .claim _ i => i.attempt == 15 && i.provider == 1 && i.healthEnabled &&
      decide (i.quotaClock ≤ i.probeClock) &&
      (entry.before (.provider i.provider)).any (·.healthCheckEnabled)
  | _ => false

theorem probes_claim {entry : Committed Request Resource.Value} (probing : probes entry = true) :
    ∃ id i p, entry.request = .claim id i ∧ i.attempt = 15 ∧ i.provider = 1 ∧
      entry.before (.provider i.provider) = some p ∧ i.healthEnabled = true ∧
      p.healthCheckEnabled = true ∧ i.quotaClock ≤ i.probeClock := by
  unfold probes at probing
  split at probing
  · rename_i id i request
    simp only [Bool.and_eq_true, beq_iff_eq, decide_eq_true_eq, Option.any_eq_true] at probing
    obtain ⟨⟨⟨⟨attempt, provider⟩, enabled⟩, monotone⟩, p, row, checked⟩ := probing
    exact ⟨id, i, p, request, attempt, provider, row, enabled, checked, monotone⟩
  · cases probing

theorem circuit_protocol_of_outage :
    (∃ h, (interleaving office outage).store (.health 1) = some h ∧ h.probe = some 15 ∧
      InProgress (interleaving office outage).store 1 15) ∧
    ∃ entry ∈ (interleaving office outage).log, ∃ id i, entry.request = .claim id i ∧
      i.attempt = 15 ∧ Admits i (entry.before (.health 1)) (entry.after (.health 1)) := by
  obtain ⟨invariants, entries⟩ := circuit_protocol office outage
  constructor
  · have probed : ((interleaving office outage).store (.health 1)).any
        (fun h => decide (h.probe = some 15)) = true := by
      decide +kernel
    obtain ⟨h, found, probe⟩ := (Option.any_eq_true _ _).mp probed
    have probe : h.probe = some 15 := of_decide_eq_true probe
    exact ⟨h, found, probe, (invariants 1 h found).2 15 probe⟩
  · have logged : (interleaving office outage).log[17]?.any probes = true := by
      decide +kernel
    obtain ⟨entry, found, probing⟩ := (Option.any_eq_true _ _).mp logged
    obtain ⟨id, i, p, request, attempt, provider, row, enabled, checked, monotone⟩ :=
      probes_claim probing
    have member := List.mem_of_getElem? found
    obtain ⟨earlier, later, split⟩ := List.append_of_mem member
    have admits := (entries earlier entry later split).2 id i p request row enabled checked monotone
    exact ⟨entry, member, id, i, request, attempt, provider ▸ admits⟩

end Witness

end RelayTale.Admission
