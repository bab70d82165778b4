import RelayTale.Admission.Effects

/-!
# Admission in any interleaving

The invariant of the tables, what of them is found again later, and what the
locks of a provider and of a quota group protect: a circuit that is not being
probed is left alone by those who do not hold the provider, and no reservation
joins a group without the lock of the group.
-/

namespace RelayTale.Admission

open Locking
open Queue (Message)

section Times

/-- The rows of `provider_quota`. -/
def Provider.reservations (p : Provider) : List (AttemptID × Int × Nat) :=
  p.attempts.map Usage.reservation

structure Provider.Grows (p later : Provider) : Prop where
  reservations : p.reservations <:+ later.reservations
  healthCheckEnabled : later.healthCheckEnabled = p.healthCheckEnabled
  quotaGroup : p.quotaGroup ≠ none → later.quotaGroup = p.quotaGroup

theorem Provider.Grows.refl (p : Provider) : p.Grows p := ⟨List.suffix_rfl, rfl, fun _ => rfl⟩

theorem Provider.Grows.trans {p later last : Provider} (first : p.Grows later)
    (second : later.Grows last) : p.Grows last where
  reservations := first.reservations.trans second.reservations
  healthCheckEnabled := second.healthCheckEnabled.trans first.healthCheckEnabled
  quotaGroup joined := by
    have same := first.quotaGroup joined
    exact (second.quotaGroup (same ▸ joined)).trans same

theorem reservations_observe (p : Provider) (attempt : AttemptID) (sample : Outcome) (clock : Int) :
    (p.observe attempt sample clock).reservations = p.reservations := by
  simp only [Provider.reservations, Provider.observe, List.map_map]
  refine List.map_congr_left fun u _ => ?_
  dsimp only [Function.comp_apply]
  split <;> rfl

def reservationsOf (store : Store) (q : ProviderID) : Option (List (AttemptID × Int × Nat)) :=
  (store (.provider q)).map Provider.reservations

def Health.WellFormed (h : Health) : Prop := h.circuit = .halfOpen ↔ h.probe ≠ none

inductive Turned (enforced : Bool) (attempt : AttemptID) (sample : Outcome) (total failed : Nat)
    (clock : Int) (h : Health) : Health → Prop
  | recovered (halfOpen : h.circuit = .halfOpen) (probe : h.probe = some attempt)
      (success : sample = .success) :
      Turned enforced attempt sample total failed clock h (h.reset clock)
  | failed (halfOpen : h.circuit = .halfOpen) (probe : h.probe = some attempt)
      (failure : sample ≠ .success) :
      Turned enforced attempt sample total failed clock h (h.trip clock)
  | tripped (closed : h.circuit = .closed) (on : enforced = true) (enough : 5 ≤ total)
      (half : total ≤ failed * 2) :
      Turned enforced attempt sample total failed clock h (h.trip clock)
  | kept (other : ¬ (h.circuit = .halfOpen ∧ h.probe = some attempt)) :
      Turned enforced attempt sample total failed clock h h

/-- The invariant of the tables in every interleaving. -/
structure Consistent (d : Catalog) (store : Store) : Prop where
  tables : Queue.Consistent store.tables
  known : ∀ {q}, store (.provider q) ≠ none ∨ store (.health q) ≠ none → q ∈ d.providers
  listed : ∀ {a id}, store (.attempt a) = some id → id ∈ d.messages
  keyed : ∀ {id m}, store.message id = some m → ∀ a ∈ m.attempts, store (.attempt a.id) = some id
  circuits : ∀ {q h}, store (.health q) = some h → h.WellFormed

/-- The tables at two times. A provider that has reserved nothing in between has
gained no connection, and nothing becomes the probe of an attempt that is known. -/
structure Earlier (view store : Store) : Prop where
  tables : Queue.Earlier view.tables store.tables
  providers : ∀ {q p}, view (.provider q) = some p →
    ∃ later, store (.provider q) = some later ∧ p.Grows later
  calm : ∀ {q}, reservationsOf view q = reservationsOf store q → ∀ id clock,
    (store.message id).elim 0 (connections q clock) ≤ (view.message id).elim 0 (connections q clock)
  probes : ∀ {id m q h}, view.message id = some m → ∀ a ∈ m.attempts,
    store (.health q) = some h → h.probe = some a.id → view (.health q) = some h

theorem Earlier.refl (store : Store) : Earlier store store where
  tables := .refl _
  providers found := ⟨_, found, .refl _⟩
  calm _ _ _ := le_rfl
  probes _ _ _ found _ := found

variable {first second third : Store}

/-- If nothing was reserved in the end, nothing was reserved on the way. -/
theorem reservationsOf_between (left : Earlier first second) (right : Earlier second third)
    {q : ProviderID} (same : reservationsOf first q = reservationsOf third q) :
    reservationsOf first q = reservationsOf second q := by
  unfold reservationsOf at same ⊢
  cases found : first (.provider q) with
  | none =>
    rw [found] at same
    cases middle : second (.provider q) with
    | none => rfl
    | some p =>
      obtain ⟨later, reached, -⟩ := right.providers middle
      rw [reached] at same
      cases same
  | some p =>
    obtain ⟨p', middle, grows⟩ := left.providers found
    obtain ⟨last, reached, grows'⟩ := right.providers middle
    rw [found, reached] at same
    have equal : p.reservations = last.reservations := Option.some.inj same
    have length := grows'.reservations.length_le
    rw [← equal] at length
    rw [middle, Option.map_some, Option.map_some,
      grows.reservations.eq_of_length (le_antisymm grows.reservations.length_le length)]

theorem Earlier.trans (left : Earlier first second) (right : Earlier second third) :
    Earlier first third where
  tables := left.tables.trans right.tables
  providers found := by
    obtain ⟨p, middle, grows⟩ := left.providers found
    obtain ⟨last, reached, grows'⟩ := right.providers middle
    exact ⟨last, reached, grows.trans grows'⟩
  calm same id clock := by
    have between := reservationsOf_between left right same
    exact (right.calm (between.symm.trans same) id clock).trans (left.calm between id clock)
  probes found a member current probe := by
    obtain ⟨m, middle, successor⟩ := left.tables.messages found
    obtain ⟨b, inside, survives⟩ := successor.attempts a member
    have id : b.id = a.id := congrArg (·.1) survives.key
    exact left.probes found a member (right.probes middle b inside current (id ▸ probe)) probe

end Times

section Agreements

def sharedReservations (g : GroupID) (found : Option Provider) : List (AttemptID × Int × Nat) :=
  found.elim [] fun p => if p.quotaGroup = some g then p.reservations else []

def agree : Agreement Resource.Value
  | (.provider q, _), view, store =>
      (∀ h, view (.health q) = some h → h.circuit ≠ .halfOpen) →
        store (.health q) = view (.health q)
  | (.group g, _), view, store => ∀ q,
      sharedReservations g (store (.provider q)) = sharedReservations g (view (.provider q))
  | _, _, _ => True

theorem agree_refl (lock : Resource × Mode) (store : Store) : agree lock store store := by
  obtain ⟨object, mode⟩ := lock
  cases object with
  | provider q => exact fun _ => rfl
  | group g => exact fun _ => rfl
  | _ => trivial

theorem agree_trans {lock : Resource × Mode} {first second third : Store}
    (left : agree lock first second) (right : agree lock second third) :
    agree lock first third := by
  obtain ⟨object, mode⟩ := lock
  cases object with
  | provider q =>
    intro idle
    have same := left idle
    exact (right (by rwa [same])).trans same
  | group g => exact fun q => (right q).trans (left q)
  | _ => trivial

end Agreements

section Keeps

variable [Primitives] {d : Catalog} {shows : Visibility Resource.Value}
variable {seen : List Store} {final : Set (Resource × Mode)} {store after : Store}
variable {request : Request}

omit [Primitives] in
theorem turn_turned (enforced : Bool) (attempt : AttemptID) (sample : Outcome)
    (total failed : Nat) (clock : Int) (h : Health) :
    Turned enforced attempt sample total failed clock h
      (h.turn enforced attempt sample total failed clock) := by
  unfold Health.turn
  split
  next probing =>
    split
    next success => exact .recovered probing.1 probing.2 success
    next failure => exact .failed probing.1 probing.2 failure
  next other =>
    split
    next trips => exact .tripped trips.1 trips.2.1 trips.2.2.1 trips.2.2.2
    · exact .kept other

omit [Primitives] in
theorem Turned.wellFormed {enforced : Bool} {attempt : AttemptID} {sample : Outcome}
    {total failed : Nat} {clock : Int} {h h' : Health}
    (turned : Turned enforced attempt sample total failed clock h h')
    (wellFormed : h.WellFormed) : h'.WellFormed := by
  cases turned with
  | recovered => simp [Health.WellFormed, Health.reset]
  | failed => simp [Health.WellFormed, Health.trip]
  | tripped => simp [Health.WellFormed, Health.trip]
  | kept => exact wellFormed

omit [Primitives] in
theorem Turned.same {enforced : Bool} {attempt probe : AttemptID} {sample : Outcome}
    {total failed : Nat} {clock : Int} {h h' : Health}
    (turned : Turned enforced attempt sample total failed clock h h')
    (probing : h'.probe = some probe) : h' = h := by
  cases turned with
  | recovered | failed | tripped => cases probing
  | kept => rfl

theorem Finished.turned {id : MessageID} {i : FinishInput} {m m' : Message} {a : Queue.Attempt}
    {p : Provider} (finished : Finished id i store after m m' a p) :
    ∃ h', after (.health a.provider) = some h' ∧
      Turned (i.healthEnabled && p.healthCheckEnabled) i.job.attempt (sampleOf (i.result m))
        (i.samples (sampleOf (i.result m)) p ((store (.health a.provider)).getD {})).length
        ((i.samples (sampleOf (i.result m)) p
          ((store (.health a.provider)).getD {})).count .failure)
        i.turnClock ((store (.health a.provider)).getD {}) h' := by
  refine ⟨_, ?_, turn_turned _ _ _ _ _ _ _⟩
  rw [finished.healths, if_pos rfl]
  rfl

theorem claim_connections {entries : List Queue.Entry} {c : Queue.ClaimInput} {m m' : Message}
    (committed : Queue.claim entries c m = .ok m') {q : ProviderID} (other : q ≠ c.provider)
    (clock : Int) : connections q clock m' = 0 := by
  obtain ⟨rfl, -, -, -, fresh⟩ := Queue.claim_ok committed
  unfold connections
  split
  · refine List.countP_eq_zero.mpr fun a member => ?_
    rcases List.mem_cons.mp member with rfl | older
    · simp [Ne.symm other]
    · simp [(fresh a older).2.2]
  · rfl

section

variable (step : Step d shows seen final store after request) (consistent : Consistent d store)

include step consistent

theorem Step.keyed {target : MessageID} {n : Message} (found : after.message target = some n) :
    ∀ a ∈ n.attempts, after (.attempt a.id) = some target := by
  intro x member
  cases step with
  | queue plain yields tables rest =>
    rw [rest (.attempt x.id) nofun]
    have effects := Queue.statements_effects yields
    have quiet := effect_quiet consistent.tables plain (effects.messages target)
    rw [← tables] at quiet
    rw [show after.tables (.message target) = some n from found] at quiet
    generalize before : store.tables (.message target) = old at quiet
    cases quiet with
    | same => exact consistent.keyed before x member
    | created attempts => simp [attempts] at member
    | undisturbed undisturbed =>
      obtain ⟨b, inside, id, -⟩ := undisturbed.symm.mem member
      rw [← id]
      exact consistent.keyed before b inside
  | @claim id i m m' p shown counting admitting listed claimed locks =>
    rw [claimed.messages] at found
    rw [claimed.reserved.attempts]
    -- the keys that were there before are not the new one
    have old (other : MessageID) (old : Message) (before : store.message other = some old)
        (inside : x ∈ old.attempts) :
        (if x.id = i.attempt then some id else store (.attempt x.id)) = some other := by
      have key := consistent.keyed before x inside
      rw [if_neg, key]
      intro same
      rw [same, claimed.reserved.fresh] at key
      cases key
    split at found
    next same =>
      subst same
      obtain rfl := Option.some.inj found
      obtain ⟨rfl, -⟩ := Queue.claim_ok claimed.performed
      rcases List.mem_cons.mp member with rfl | inside
      · exact if_pos rfl
      · exact old _ m claimed.message inside
    · exact old _ n found member
  | finish finished =>
    rw [finished.messages] at found
    rw [finished.attempts]
    split at found
    next same =>
      subst same
      obtain rfl := Option.some.inj found
      obtain ⟨-, b, rest, settled⟩ := finish_settled (consistent.tables finished.message).coherent
        finished.current finished.finished
      obtain ⟨y, inside, id⟩ := settled.mem member
      rw [id]
      exact consistent.keyed finished.message y inside
    · exact consistent.keyed found x member
  | recover recovered =>
    rw [recovered.attempts]
    rcases recovered.messages target with ⟨job, inside, rfl, same⟩ | ⟨-, same⟩
    · rw [same] at found
      obtain rfl := Option.some.inj found
      obtain ⟨y, before, id⟩ := (Queue.recoverAttempt_framed _ _ _ _).exists_id member
      rw [← id]
      exact consistent.keyed (recovered.read job inside).2.1 y before
    · exact consistent.keyed (same ▸ found) x member
  | administer administered =>
    rw [administered.attempts]
    refine consistent.keyed ?_ x member
    exact (congrFun administered.tables (.message target)).symm.trans found

theorem Step.listed {a : AttemptID} {id : MessageID} (found : after (.attempt a) = some id) :
    id ∈ d.messages := by
  cases step with
  | queue _ _ _ rest => exact consistent.listed ((rest (.attempt a) nofun).symm.trans found)
  | claim listed claimed =>
    rw [claimed.reserved.attempts] at found
    split at found
    · exact Option.some.inj found ▸ listed
    · exact consistent.listed found
  | finish finished => exact consistent.listed ((finished.attempts a).symm.trans found)
  | recover recovered => exact consistent.listed ((recovered.attempts a).symm.trans found)
  | administer administered => exact consistent.listed ((administered.attempts a).symm.trans found)

theorem Step.circuits {q : ProviderID} {h : Health} (found : after (.health q) = some h) :
    h.WellFormed := by
  cases step with
  | queue _ _ _ rest => exact consistent.circuits ((rest (.health q) nofun).symm.trans found)
  | @claim id i m m' p shown counting admitting listed claimed locks =>
    by_cases same : q = i.provider
    · subst same
      have probing := claimed.reserved.probing
      rw [found] at probing
      generalize result : some h = now at probing
      cases probing with
      | unenforced => exact consistent.circuits result.symm
      | idle => exact consistent.circuits result.symm
      | started =>
        obtain rfl := Option.some.inj result
        simp [Health.WellFormed, Health.startProbe]
    · exact consistent.circuits ((claimed.reserved.healths q same).symm.trans found)
  | @finish id i m m' a p finished lock =>
    by_cases same : q = a.provider
    · subst same
      obtain ⟨h', after', turned⟩ := finished.turned
      obtain rfl := Option.mem_unique found after'
      refine turned.wellFormed ?_
      cases before : store (.health a.provider) with
      | none => simp [Health.WellFormed]
      | some old => exact consistent.circuits before
    · rw [finished.healths, if_neg same] at found
      exact consistent.circuits found
  | recover recovered =>
    rcases recovered.healths q with same | ⟨x, -, old, -, -, same⟩
    · exact consistent.circuits (same.symm.trans found)
    · obtain rfl := Option.mem_unique same found
      simp [Health.WellFormed, Health.trip]
  | administer administered =>
    exact consistent.circuits ((administered.healths q).symm.trans found)

omit consistent in
theorem Step.providers {q : ProviderID} {p : Provider} (found : store (.provider q) = some p) :
    ∃ later, after (.provider q) = some later ∧ p.Grows later := by
  have same (kept : after (.provider q) = store (.provider q)) :
      ∃ later, after (.provider q) = some later ∧ p.Grows later :=
    ⟨p, kept.trans found, .refl p⟩
  cases step with
  | queue _ _ _ rest => exact same (rest (.provider q) nofun)
  | @claim id i m m' p' shown counting admitting listed claimed locks =>
    have written := claimed.reserved.providers q
    split at written
    next here =>
      subst here
      obtain rfl := Option.mem_unique found claimed.provider
      exact ⟨_, written, List.suffix_cons _ _, rfl, fun _ => rfl⟩
    · exact same written
  | @finish id i m m' a p' finished lock =>
    have written := finished.providers q
    split at written
    next here =>
      subst here
      obtain rfl := Option.mem_unique found finished.provider
      refine ⟨_, written, ?_, rfl, fun _ => rfl⟩
      simp only [reservations_observe, List.suffix_rfl]
    · exact same written
  | recover recovered => exact same (recovered.providers q)
  | administer administered =>
    rcases administered.providers q with kept | ⟨-, -, absent, -⟩ | ⟨old, later, before, written, managed⟩
    · exact same kept
    · cases absent.symm.trans found
    · obtain rfl := Option.mem_unique before found
      refine ⟨later, written, ?_, managed.healthCheckEnabled, fun joined => ?_⟩
      · simp only [Provider.reservations, managed.attempts, List.suffix_rfl]
      · exact managed.quotaGroup.resolve_right fun attached => joined attached.1

theorem Step.known {q : ProviderID}
    (found : after (.provider q) ≠ none ∨ after (.health q) ≠ none) : q ∈ d.providers := by
  have same (provider : after (.provider q) = store (.provider q))
      (health : after (.health q) = store (.health q)) : q ∈ d.providers := by
    rw [provider, health] at found
    exact consistent.known found
  cases step with
  | queue _ _ _ rest => exact same (rest (.provider q) nofun) (rest (.health q) nofun)
  | @claim id i m m' p shown counting admitting listed claimed locks =>
    by_cases here : q = i.provider
    · subst here
      exact consistent.known (.inl (by simp [claimed.provider]))
    · exact same (by rw [claimed.reserved.providers, if_neg here]) (claimed.reserved.healths q here)
  | @finish id i m m' a p finished lock =>
    by_cases here : q = a.provider
    · subst here
      exact consistent.known (.inl (by simp [finished.provider]))
    · exact same (by rw [finished.providers, if_neg here]) (by rw [finished.healths, if_neg here])
  | recover recovered =>
    rcases recovered.healths q with kept | ⟨-, -, h, before, -⟩
    · exact same (recovered.providers q) kept
    · exact consistent.known (.inr (by simp [before]))
  | administer administered =>
    rcases administered.providers q with kept | ⟨-, inside, -⟩ | ⟨old, -, before, -⟩
    · exact same kept (administered.healths q)
    · exact inside
    · exact consistent.known (.inl (by simp [before]))

theorem Step.calm {q : ProviderID} (quiet : reservationsOf store q = reservationsOf after q)
    (target : MessageID) (clock : Int) :
    (after.message target).elim 0 (connections q clock) ≤
      (store.message target).elim 0 (connections q clock) := by
  cases step with
  | queue plain yields tables =>
    have effects := Queue.statements_effects yields
    rw [← tables] at effects
    exact (effect_quiet consistent.tables plain (effects.messages target)).connections q clock
  | @claim id i m m' p shown counting admitting listed claimed locks =>
    rw [claimed.messages]
    split
    next same =>
      have other : q ≠ i.provider := by
        rintro rfl
        have longer := congrArg (Option.map List.length) quiet
        simp [reservationsOf, claimed.provider, claimed.reserved.providers, Provider.reservations,
          Provider.reserve] at longer
      exact (claim_connections claimed.performed other clock).le.trans (Nat.zero_le _)
    · exact le_rfl
  | finish finished =>
    rw [finished.messages]
    split
    · obtain ⟨-, b, rest, settled⟩ := finish_settled (consistent.tables finished.message).coherent
        finished.current finished.finished
      exact (settled.connections q clock).le.trans (Nat.zero_le _)
    · exact le_rfl
  | @recover _ i _ _ _ recovered =>
    rcases recovered.messages target with ⟨job, inside, rfl, same⟩ | ⟨-, same⟩
    · rw [same]
      exact (job.connections i q clock).le.trans (Nat.zero_le _)
    · rw [same]
  | administer administered =>
    rw [show after.message target = store.message target from
      congrFun administered.tables (.message target)]

theorem Step.probes {id : MessageID} {n : Message} {q : ProviderID} {h : Health}
    (found : store.message id = some n) {x : Queue.Attempt} (member : x ∈ n.attempts)
    (current : after (.health q) = some h) (probe : h.probe = some x.id) :
    store (.health q) = some h := by
  cases step with
  | queue _ _ _ rest => exact (rest (.health q) nofun).symm.trans current
  | @claim id' i m m' p shown counting admitting listed claimed locks =>
    by_cases same : q = i.provider
    · subst same
      have probing := claimed.reserved.probing
      rw [current] at probing
      generalize result : some h = now at probing
      cases probing with
      | unenforced => rfl
      | idle => rfl
      | started =>
        obtain rfl := Option.some.inj result
        have attempt : i.attempt = x.id := Option.some.inj probe
        have key := consistent.keyed found x member
        rw [← attempt, claimed.reserved.fresh] at key
        cases key
    · exact (claimed.reserved.healths q same).symm.trans current
  | @finish id' i m m' a p finished lock =>
    by_cases same : q = a.provider
    · subst same
      obtain ⟨h', after', turned⟩ := finished.turned
      obtain rfl := Option.mem_unique current after'
      have kept := turned.same probe
      cases before : store (.health a.provider) with
      | none =>
        rw [kept, before] at probe
        cases probe
      | some old =>
        rw [kept, before]
        rfl
    · rwa [finished.healths, if_neg same] at current
  | recover recovered =>
    rcases recovered.healths q with same | ⟨y, -, old, -, -, same⟩
    · exact same.symm.trans current
    · obtain rfl := Option.mem_unique same current
      cases probe
  | administer administered => exact (administered.healths q).symm.trans current

theorem Step.keeps : Consistent d after ∧ Earlier store after := by
  obtain ⟨tables, later⟩ := step.tables consistent.tables
  refine ⟨⟨tables, step.known consistent, step.listed consistent, step.keyed consistent,
    step.circuits consistent⟩, ?_⟩
  exact ⟨later, step.providers, step.calm consistent,
    fun found a member => step.probes consistent found member⟩

end

/-- Every request keeps the invariant of the tables in every interleaving. -/
theorem request_rule (d : Catalog) : Rule (Request.statements d) (Consistent d) Earlier where
  guarded := statements_guarded d
  refl := Earlier.refl
  trans := Earlier.trans
  keeps consistent _ yields := by
    have anything : ∀ view : Store, Anything view := fun _ => True.intro
    obtain ⟨final, runs⟩ := yields.runs anything ∅
    exact (step_of_runs runs).keeps consistent

/-- Without the lock of the provider only a probe can be ended. -/
theorem Step.protects_provider (step : Step d shows seen final store after request)
    (consistent : Consistent d store) {q : ProviderID}
    (unlocked : (Resource.provider q, Mode.exclusive) ∉ final)
    (idle : ∀ h, store (.health q) = some h → h.circuit ≠ .halfOpen) :
    after (.health q) = store (.health q) := by
  cases step with
  | queue _ _ _ rest => exact rest (.health q) nofun
  | @claim id i m m' p shown counting admitting listed claimed locks =>
    refine claimed.reserved.healths q ?_
    rintro rfl
    exact unlocked (locks (subset_withGroup p _ (Set.mem_insert _ _)))
  | @finish id i m m' a p finished lock =>
    rw [finished.healths, if_neg]
    rintro rfl
    exact unlocked lock
  | recover recovered =>
    rcases recovered.healths q with same | ⟨x, -, h, found, probe, -⟩
    · exact same
    · refine absurd ((consistent.circuits found).mpr ?_) (idle h found)
      rw [probe]
      exact nofun
  | administer administered => exact administered.healths q

/-- Without the lock of the group nothing is reserved on its account. -/
theorem Step.protects_group (step : Step d shows seen final store after request) {g : GroupID}
    (unlocked : (Resource.group g, Mode.exclusive) ∉ final) (q : ProviderID) :
    sharedReservations g (after (.provider q)) = sharedReservations g (store (.provider q)) := by
  cases step with
  | queue _ _ _ rest => rw [rest (.provider q) nofun]
  | @claim id i m m' p shown counting admitting listed claimed locks =>
    rw [claimed.reserved.providers]
    split
    next same =>
      have outside : p.quotaGroup ≠ some g := by
        intro joined
        refine unlocked (locks ?_)
        rw [withGroup, joined]
        exact Set.mem_insert _ _
      rw [same, claimed.provider]
      simp [sharedReservations, Provider.reserve, outside]
    · rfl
  | @finish id i m m' a p finished lock =>
    rw [finished.providers]
    split
    next same =>
      rw [same, finished.provider]
      simp only [sharedReservations, Option.elim_some, reservations_observe]
      rfl
    · rfl
  | recover recovered => rw [recovered.providers]
  | administer administered =>
    rcases administered.providers q with
      same | ⟨p, -, absent, created, -, single⟩ | ⟨old, p, before, written, managed⟩
    · rw [same]
    · simp [absent, created, sharedReservations, single]
    · rw [before, written]
      have reservations : p.reservations = old.reservations :=
        congrArg (List.map Usage.reservation) managed.attempts
      rcases managed.quotaGroup with kept | ⟨single, joined, attached, lock⟩
      · simp [sharedReservations, kept, reservations]
      · have other : joined ≠ g := by
          rintro rfl
          exact unlocked lock
        simp [sharedReservations, single, attached, other]

theorem request_protection (d : Catalog) :
    Protection (Request.statements d) (Consistent d) Earlier agree where
  refl := agree_refl
  trans := agree_trans
  protects consistent _ runs lock permits := by
    have step := step_of_runs runs
    have unlocked := permits.not_exclusive
    obtain ⟨object, mode⟩ := lock
    cases object with
    | provider q => exact step.protects_provider consistent unlocked
    | group g => exact step.protects_group unlocked
    | _ => trivial

end Keeps

section Claims

variable [Primitives] {d : Catalog} {seen : List Store} {store after : Store} {id : MessageID}
variable {i : AdmitInput} {m m' : Message} {p shown : Provider} {counting admitting : Store}

omit [Primitives] in
theorem provider_mem_locks (id : MessageID) (i : AdmitInput) (p : Provider) :
    (Resource.provider i.provider, Mode.exclusive) ∈ withGroup p (claimLocks id i) :=
  subset_withGroup p _ (Set.mem_insert _ _)

/-- The row of the provider is the one that the claim has locked. -/
theorem Claimed.shown_eq
    (claimed : Claimed d (Shows agree) id i seen store after m m' p shown counting admitting) :
    shown = p := by
  have same : admitting (.provider i.provider) = store (.provider i.provider) :=
    (claimed.admits.2 _ (provider_mem_locks id i p)).1
  rw [claimed.read, claimed.provider] at same
  exact Option.some.inj same

end Claims

section Histories

variable [Primitives] (d : Catalog) (events : List (Event Request))

omit [Primitives] in
theorem emptyStore_consistent : Consistent d emptyStore :=
  ⟨nofun, fun found => by simp [emptyStore] at found, nofun, nofun, nofun⟩

theorem interleaving_history :
    History (Request.statements d) (Consistent d) Earlier (interleaving d events) :=
  (request_rule d).run (emptyStore_consistent d) events

theorem interleaving_append (later : List (Event Request)) :
    interleaving d (events ++ later) =
      (interleaving d events).run (Request.statements d) later :=
  List.foldl_append

/-- Every entry of the log is a step whose snapshots show what was locked. -/
theorem interleaving_steps {entry : Committed Request Resource.Value}
    (member : entry ∈ (interleaving d events).log) :
    Consistent d entry.before ∧ (∀ view ∈ entry.seen, Earlier view entry.before) ∧
      ∃ final, Step d (Shows agree) entry.seen final entry.before entry.after entry.request := by
  have serial := (interleaving_history d events).serial entry member
  obtain ⟨final, runs⟩ := ((request_protection d).run (request_rule d)
    (emptyStore_consistent d) events).runs entry member
  exact ⟨serial.found, serial.seen, final, step_of_runs runs⟩

theorem interleaving_claims {entry : Committed Request Resource.Value}
    (member : entry ∈ (interleaving d events).log) {id : MessageID} {i : AdmitInput}
    (request : entry.request = .claim id i) :
    ∃ m m' p shown counting admitting, Claimed d (Shows agree) id i entry.seen entry.before
      entry.after m m' p shown counting admitting := by
  obtain ⟨final, runs⟩ := ((request_protection d).run (request_rule d)
    (emptyStore_consistent d) events).runs entry member
  rw [request] at runs
  obtain ⟨m, m', p, shown, counting, admitting, claimed, -⟩ :=
    claimed_of_runs (Program.check_runs.mp runs).2
  exact ⟨m, m', p, shown, counting, admitting, claimed⟩

/-- Attempts are numbered as they are made, and an attempt belongs to one message and to
recipients of it. -/
theorem attempts_in_order :
    let store : Store := (interleaving d events).store
    (∀ id m, store.message id = some m → (m.attempts.map (·.number)).Pairwise (· > ·) ∧
      ∀ a ∈ m.attempts, a.number ≤ m.attemptCount ∧ a.recipients.Nodup ∧
        a.recipients ⊆ m.recipients) ∧
    ∀ id other m n a b, store.message id = some m → store.message other = some n →
      a ∈ m.attempts → b ∈ n.attempts → a.id = b.id → id = other ∧ a = b := by
  intro store
  have consistent : Consistent d store := (interleaving_history d events).current
  refine ⟨fun id m found => ?_, fun id other m n a b found found' member member' same => ?_⟩
  · have keyed := (consistent.tables found).coherent.keyed
    exact ⟨keyed.numbers, fun a member => ⟨keyed.counted a member, keyed.envelopes a member⟩⟩
  · have owner := consistent.keyed found a member
    rw [same, consistent.keyed found' b member'] at owner
    obtain rfl := Option.some.inj owner
    obtain rfl := Option.mem_unique found found'
    exact ⟨rfl, List.inj_on_of_nodup_map (consistent.tables found).coherent.keyed.attempts
      member member' same⟩

end Histories

end RelayTale.Admission
