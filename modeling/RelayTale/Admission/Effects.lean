import RelayTale.Admission.Steps

/-!
# The messages of a committed request

A claim starts one attempt, a finish or a recovery ends the one in progress,
and whatever else is committed leaves the attempts in progress and their leases
alone.
-/

namespace RelayTale.Admission

open Locking
open Queue (Message Op Action RecoverInput Commit Coherent Leased)

section Messages

variable {m m' : Message}

/-- The lease of the message and its attempts in progress are as before. -/
structure Undisturbed (m m' : Message) : Prop where
  leaseExpiresAt : m'.leaseExpiresAt = m.leaseExpiresAt
  attempts : m'.attempts.map (fun a => (a.id, a.provider, a.result)) =
    m.attempts.map fun a => (a.id, a.provider, a.result)

theorem Undisturbed.of_same (lease : m'.leaseExpiresAt = m.leaseExpiresAt)
    (attempts : m'.attempts = m.attempts) : Undisturbed m m' := ⟨lease, by rw [attempts]⟩

theorem Undisturbed.mem (undisturbed : Undisturbed m m') {a : Queue.Attempt}
    (member : a ∈ m.attempts) :
    ∃ b ∈ m'.attempts, b.id = a.id ∧ b.provider = a.provider ∧ b.result = a.result := by
  have inside : (a.id, a.provider, a.result) ∈
      m'.attempts.map fun a => (a.id, a.provider, a.result) :=
    undisturbed.attempts ▸ List.mem_map.mpr ⟨a, member, rfl⟩
  obtain ⟨b, found, same⟩ := List.mem_map.mp inside
  simp only [Prod.mk.injEq] at same
  exact ⟨b, found, same⟩

theorem Undisturbed.symm (undisturbed : Undisturbed m m') : Undisturbed m' m :=
  ⟨undisturbed.leaseExpiresAt.symm, undisturbed.attempts.symm⟩

theorem Undisturbed.connections (undisturbed : Undisturbed m m') (q : ProviderID) (clock : Int) :
    connections q clock m' = connections q clock m := by
  have counted (n : Message) : (n.attempts.countP fun a => a.provider = q ∧ a.result = .pending) =
      (n.attempts.map fun a => (a.id, a.provider, a.result)).countP
        fun x => x.2.1 = q ∧ x.2.2 = .pending := by
    rw [List.countP_map]
    rfl
  unfold Admission.connections
  rw [undisturbed.leaseExpiresAt, counted, counted, undisturbed.attempts]

structure Settled (m m' : Message) (a b : Queue.Attempt) (rest : List Queue.Attempt) : Prop where
  leased : Leased m a rest
  attempts : m'.attempts = b :: rest
  key : b.key = a.key
  finished : b.result ≠ .pending
  unleased : m'.leaseExpiresAt = none

/-- The attempts are still the same ones. -/
theorem Settled.mem {a b : Queue.Attempt} {rest : List Queue.Attempt}
    (settled : Settled m m' a b rest) {x : Queue.Attempt} (member : x ∈ m'.attempts) :
    ∃ y ∈ m.attempts, x.id = y.id := by
  rw [settled.leased.attempts]
  rw [settled.attempts] at member
  rcases List.mem_cons.mp member with rfl | inside
  · exact ⟨a, List.mem_cons_self, congrArg (·.1) settled.key⟩
  · exact ⟨x, List.mem_cons_of_mem _ inside, rfl⟩

theorem Settled.connections {a b : Queue.Attempt} {rest : List Queue.Attempt}
    (settled : Settled m m' a b rest) (q : ProviderID) (clock : Int) :
    connections q clock m' = 0 := by
  simp [Admission.connections, settled.unleased]

inductive Quiet : Option Message → Option Message → Prop
  | same (found : Option Message) : Quiet found found
  | created {m : Message} (attempts : m.attempts = []) : Quiet none (some m)
  | undisturbed {m m' : Message} (undisturbed : Undisturbed m m') : Quiet (some m) (some m')

theorem Quiet.connections {before after : Option Message} (quiet : Quiet before after)
    (q : ProviderID) (clock : Int) :
    after.elim 0 (connections q clock) ≤ before.elim 0 (connections q clock) := by
  cases quiet with
  | same => exact le_rfl
  | created attempts => simp [Admission.connections, attempts]
  | undisturbed undisturbed => exact (undisturbed.connections q clock).le

variable [Primitives]

theorem commit_undisturbed (c : Commit) (coherent : Coherent c.before)
    (plain : ordinaryAction c.action = true) : Undisturbed c.before c.after := by
  cases Queue.commit_performed c coherent with
  | claimed action | finished action | recovered action => simp [action, ordinaryAction] at plain
  | @armed _ _ answer a _ _ leased _ _ armed same =>
    obtain ⟨b, attempts, key, -, leased', -⟩ := armed.attempts leased coherent.keyed
    have lease : answer.1.leaseExpiresAt = c.before.leaseExpiresAt := by cases armed <;> rfl
    rw [same] at lease attempts leased'
    refine ⟨lease, ?_⟩
    have id : b.id = a.id := congrArg (·.1) key
    have provider : b.provider = a.provider := congrArg (·.2.1) key
    rw [attempts, leased.attempts, List.map_cons, List.map_cons, id, provider, leased.pending,
      leased'.pending]
  | recorded _ _ added same =>
    rw [same]
    refine ⟨rfl, ?_⟩
    simp only [List.map_map]
    refine List.map_congr_left fun b _ => ?_
    obtain ⟨events, later⟩ := added b
    simp [later]
  | rewritten _ _ _ same => exact .of_same (by rw [same]; rfl) (by rw [same]; rfl)
  | repeated _ same | cancelled _ _ same | retired _ _ same =>
    exact .of_same (by rw [same]) (by rw [same])

omit [Primitives] in
theorem ordinary_actionOn {op : Op} {target : MessageID} {action : Action}
    (plain : ordinary op = true) (acts : op.actionOn target = some action) :
    ordinaryAction action = true := by
  cases op with
  | transact id performed =>
    simp only [Queue.Op.actionOn, Option.ite_none_right_eq_some, Option.some.injEq] at acts
    exact acts.2 ▸ plain
  | batch ids performed =>
    simp only [Queue.Op.actionOn, Option.ite_none_right_eq_some, Option.some.injEq] at acts
    exact acts.2 ▸ plain
  | replace old new identity clock s =>
    simp only [Queue.Op.actionOn, Option.ite_none_right_eq_some, Option.some.injEq] at acts
    rw [← acts.2]
    rfl
  | _ => cases acts

theorem effect_quiet {op : Op} {seen : List Queue.Tables} {store : Queue.Tables}
    {target : MessageID} {result : Option Message} (consistent : Queue.Consistent store)
    (plain : ordinary op = true) (effect : Queue.Effect op seen store target result) :
    Quiet (store (.message target)) result := by
  cases effect with
  | untouched => exact .same _
  | created absent created =>
    rw [absent]
    exact .created (Queue.enqueue_fresh created).1
  | @performed action m m' acts before performed =>
    rw [before]
    let c : Commit := ⟨_, m, action.settled, m', performed⟩
    have ordinary := ordinary_actionOn plain acts
    refine .undisturbed (commit_undisturbed c (consistent before).coherent ?_)
    cases action with
    | claim => cases ordinary
    | _ => exact ordinary
  | recovered acts =>
    cases ordinary_actionOn plain acts
  | rewritten before =>
    rw [before]
    exact .undisturbed (.of_same rfl rfl)

theorem finish_settled {flags : Queue.Flags} {job : Queue.Job} {out : Smtp.Result} {clock now : Int}
    {a : Queue.Attempt} (coherent : Coherent m) (current : m.current job = some a)
    (committed : Queue.finish flags job out clock now m = .ok m') :
    a.id = job.attempt ∧ ∃ b rest, Settled m m' a b rest := by
  obtain ⟨x, b, rest, rows, finishing⟩ := Queue.finish_finishing coherent committed
  obtain ⟨rfl, attempt⟩ := finishing.leased.current current
  have same := finishing.message
  refine ⟨attempt, b, rest, finishing.leased, by rw [same]; rfl, finishing.keeps.key, ?_,
    by rw [same]; rfl⟩
  rw [finishing.result]
  exact nofun

end Messages

section Tables

variable [Primitives] {d : Catalog} {shows : Visibility Resource.Value}
variable {seen : List Store} {final : Set (Resource × Mode)} {store after : Store}
variable {id target : MessageID} {m m' : Message} {p shown : Provider} {counting admitting : Store}

section

variable {i : AdmitInput} (claimed : Claimed d shows id i seen store after m m' p shown counting admitting)

include claimed

theorem Claimed.performed :
    Queue.claim (store (.table .policy)) (i.claimOf d admitting shown p).settled m = .ok m' := by
  obtain ⟨view, member, old, read, selected⟩ := claimed.selected
  exact Queue.claimSelected_settled (c := i.claimOf d admitting shown p) selected claimed.claimed

theorem Claimed.effects :
    Queue.Effects (.transact id (.claim (i.claimOf d admitting shown p))) (seen.map Store.tables)
      store.tables after.tables := by
  rw [claimed.reserved.tables]
  exact Queue.effects_of_put claimed.message claimed.performed

theorem Claimed.messages (target : MessageID) :
    after.message target = if target = id then some m' else store.message target :=
  (congrFun claimed.reserved.tables (.message target)).trans (Queue.write_put _ _ _ _)

end

theorem Finished.effects {i : FinishInput} {a : Queue.Attempt}
    (finished : Finished id i store after m m' a p) :
    Queue.Effects (.transact id (.finish i.flags i.job i.dispatch i.clock i.now)) [] store.tables
      after.tables := by
  rw [finished.tables]
  exact Queue.effects_of_put finished.message finished.finished

theorem Finished.messages {i : FinishInput} {a : Queue.Attempt}
    (finished : Finished id i store after m m' a p) (target : MessageID) :
    after.message target = if target = id then some m' else store.message target :=
  (congrFun finished.tables (.message target)).trans (Queue.write_put _ _ _ _)

omit [Primitives] in
theorem Recovered.messages {ids : List MessageID} {i : RecoverInput} {clock : AttemptID → Int}
    {view : Store} {jobs : List Abandoned}
    (recovered : Recovered d shows ids i clock seen store after view jobs) (target : MessageID) :
    (∃ x ∈ jobs, x.id = target ∧ after.message target = some (x.recovered i)) ∨
      (∀ x ∈ jobs, x.id ≠ target) ∧ after.message target = store.message target := by
  have same : after.message target = store.tables.write
      (jobs.map fun x => Queue.put x.id (x.recovered i)) (.message target) :=
    congrFun recovered.tables (.message target)
  rw [same]
  rcases write_cases store.tables (jobs.map fun x => Queue.put x.id (x.recovered i))
    (.message target) with ⟨value, member, written⟩ | ⟨others, kept⟩
  · obtain ⟨x, inside, equal⟩ := List.mem_map.mp member
    cases equal
    exact .inl ⟨x, inside, rfl, written⟩
  · refine .inr ⟨fun x inside same => ?_, kept⟩
    subst same
    exact others _ (List.mem_map.mpr ⟨x, inside, rfl⟩) rfl

omit [Primitives] in
theorem Abandoned.connections (x : Abandoned) (i : RecoverInput) (q : ProviderID) (clock : Int) :
    connections q clock (x.recovered i) = 0 := by
  have unleased : (x.recovered i).leaseExpiresAt = none :=
    (Queue.recoverAttempt_idle _ _ _ x.current).unleased
  simp [Admission.connections, unleased]

theorem Recovered.effects {ids : List MessageID} {i : RecoverInput} {clock : AttemptID → Int}
    {view : Store} {jobs : List Abandoned}
    (recovered : Recovered d shows ids i clock seen store after view jobs) :
    Queue.Effects (.batch ids (.recover i)) (seen.map Store.tables) store.tables after.tables := by
  constructor
  case policy =>
    have same : after.tables .policy = store.tables .policy := by
      rw [recovered.tables]
      refine write_other fun write member => ?_
      obtain ⟨x, -, rfl⟩ := List.mem_map.mp member
      exact nofun
    exact same ▸ .untouched
  case messages =>
    intro target
    rcases recovered.messages target with ⟨x, member, rfl, same⟩ | ⟨-, same⟩
    · obtain ⟨old, current, selected⟩ := recovered.read x member
      have inside : x.id ∈ ids := recovered.selected.subset (List.mem_map_of_mem member)
      rw [show after.tables (.message x.id) = some (x.recovered i) from same]
      exact .recovered (by simp [Queue.Op.actionOn, inside])
        (List.mem_map_of_mem recovered.snapshot) old current selected
    · rw [show after.tables (.message target) = store.tables (.message target) from same]
      exact .untouched

/-- The tables of the queue keep their invariant. -/
theorem Step.tables {request : Request} (step : Step d shows seen final store after request)
    (consistent : Queue.Consistent store.tables) :
    Queue.Consistent after.tables ∧ Queue.Earlier store.tables after.tables := by
  have same (kept : after.tables = store.tables) :
      Queue.Consistent after.tables ∧ Queue.Earlier store.tables after.tables := by
    rw [kept]
    exact ⟨consistent, .refl _⟩
  cases step with
  | queue plain yields tables =>
    rw [tables]
    exact (Queue.statements_effects yields).keeps consistent
  | claim _ claimed => exact claimed.effects.keeps consistent
  | finish finished => exact finished.effects.keeps consistent
  | recover recovered => exact recovered.effects.keeps consistent
  | administer administered => exact same administered.tables

end Tables

end RelayTale.Admission
