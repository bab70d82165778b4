import RelayTale.Webhook.Protocol

/-!
# Leases of the outbox

A token is drawn once, so it leads from a row to one claim. This holds together
over all runs: rows change in a few ways only, a delivered row is the end, and
the claims of a generation are numbered in the order in which they start.
-/

namespace RelayTale.Webhook

open Locking

section Conditions

variable {r : Row} {e : EndpointID} {now : Reading}

theorem owned_iff {c : Claim} {clock : Int} :
    owned c clock r = true ↔ r.leaseToken = some c.token ∧ r.state = .inFlight ∧
      ∃ end', r.leaseUntil = some end' ∧ clock < end' := by
  simp [owned, Option.any_eq_true, and_assoc]

theorem expired_iff : expired e now r = true ↔
    r.endpoint = e ∧
      (r.state = .pending ∨
        r.state = .inFlight ∧ ∃ end', r.leaseUntil = some end' ∧ end' ≤ now.lease) ∧
      (r.deadline ≤ now.deadline ∨ maxAttempts ≤ r.attempts) := by
  simp [expired, Option.any_eq_true, and_assoc]

theorem due_iff : due e now r = true ↔
    r.endpoint = e ∧ r.attempts < maxAttempts ∧ now.deadline < r.deadline ∧
      (r.state = .pending ∧ r.nextAt ≤ now.next ∨
        r.state = .inFlight ∧ ∃ end', r.leaseUntil = some end' ∧ end' ≤ now.lease) := by
  simp [due, Option.any_eq_true, and_assoc]

end Conditions

section Turns

inductive Turn (store after : Store) (seq : Sequence) (r : Row) : Request → Row → Prop
  | kept {request : Request} : Turn store after seq r request r
  | retired (v : ClaimCall) (now : Reading) (reads : v.retireNow.Gives seq now)
      (isExpired : expired v.endpoint now r = true) : Turn store after seq r (.claim v) r.retire
  | claimed (v : ClaimCall) (token : Token) (now : Reading) (reads : v.claimNow.Gives seq now)
      (isDue : due v.endpoint now r = true) (drawn : store (.worker v.worker) = .drawn token)
      (used : after (.worker v.worker) ≠ .drawn token) :
      Turn store after seq r (.claim v) (r.claim token v.leaseClock)
  | finished (v : FinishCall) (c : Claim) (claimed : store (.worker v.worker) = .claimed c)
      (same : c.sequence = seq) (isOwned : owned c v.clock r = true) :
      Turn store after seq r (.finish v) (finished v c r)
  | replayed (v : ReplayCall) (dead : r.state = .dead)
      (same : (r.generation : Int) = v.generation) :
      Turn store after seq r (.replay v) (r.replay dead v.nextClock v.deadlineClock)

inductive Recalls (store after : Store) (w : WorkerID) : Request → Memory → Prop
  | kept {request : Request} : Recalls store after w request (store (.worker w))
  | forgotten {request : Request} : Recalls store after w request .idle
  | drawn (token : Token) (new : token ∉ store .entropy) (issued : token ∈ after .entropy) :
      Recalls store after w (.draw w token) (.drawn token)
  | claimed {request : Request} (seq : Sequence) (r : Row) (token : Token) (clock : Int)
      (drawn : store (.worker w) = .drawn token)
      (row : after (.row seq) = some (r.claim token clock)) :
      Recalls store after w request (.claimed ⟨seq, token, r.attempts + 1, r.generation⟩)

inductive Change (store after : Store) (request : Request) : Sigma Resource.Value → Prop
  | captured (v : CaptureCall) (same : request = .capture v)
      (free : store (.row v.sequence) = none) :
      Change store after request ⟨.row v.sequence, some
        (.captured v.endpoint v.message v.payload v.deadlineClock v.nextClock)⟩
  | turned {seq : Sequence} {r r' : Row} (found : store (.row seq) = some r)
      (turn : Turn store after seq r request r') : Change store after request ⟨.row seq, some r'⟩
  | recalled {w : WorkerID} {m : Memory} (recalls : Recalls store after w request m) :
      Change store after request ⟨.worker w, m⟩
  | issued (token : Token) : Change store after request ⟨.entropy, token :: store .entropy⟩

variable {store : Store} {request : Request} {writes : List (Sigma Resource.Value)}
variable {seq : Sequence} {r : Row}

theorem write_claim (store : Store) (seq : Sequence) (own : List (Sigma Resource.Value))
    (v : ClaimCall) (c : Claim) (row : Option Row) :
    Locking.Store.write store (own ++ [⟨.row seq, row⟩, remember v c]) (.row seq) = row ∧
      Locking.Store.write store (own ++ [⟨.row seq, row⟩, remember v c]) (.worker v.worker) =
        if v.acknowledged then .claimed c else .idle := by
  rw [write_append]
  constructor <;> simp [Locking.Store.write, remember]

theorem Retires.change {after : Store} {v : ClaimCall} {own : List (Sigma Resource.Value)}
    (rows : Retires store v own) : ∀ write ∈ own, Change store after (.claim v) write := by
  intro write member
  obtain ⟨seq, r, now, found, reads, isExpired, rfl⟩ := rows write member
  exact .turned found (.retired v now reads isExpired)

variable (written : Written store request writes)

include written

theorem Written.change :
    ∀ write ∈ writes, Change store (Locking.Store.write store writes) request write := by
  cases written with
  | captured v free => exact List.forall_mem_singleton.mpr (.captured v rfl free)
  | drawn w token new =>
    refine List.forall_mem_cons.mpr ⟨.issued token, List.forall_mem_singleton.mpr ?_⟩
    refine .recalled (.drawn token new ?_)
    have used : Locking.Store.write store [⟨.entropy, token :: store .entropy⟩,
        ⟨.worker w, .drawn token⟩] .entropy = token :: store .entropy := rfl
    rw [used]
    exact List.mem_cons_self
  | forgotten w known => exact List.forall_mem_singleton.mpr (.recalled .forgotten)
  | retired v own rows =>
    refine List.forall_mem_append.mpr ⟨rows.change, List.forall_mem_singleton.mpr ?_⟩
    exact .recalled .forgotten
  | claimed v own seq r now token rows apart drawn found reads isDue =>
    obtain ⟨row, memory⟩ := write_claim store seq own v
      ⟨seq, token, r.attempts + 1, r.generation⟩ (some (r.claim token v.leaseClock))
    refine List.forall_mem_append.mpr ⟨rows.change, List.forall_mem_cons.mpr
      ⟨.turned found (.claimed v token now reads isDue drawn ?_), List.forall_mem_singleton.mpr ?_⟩⟩
    · rw [memory]
      split <;> simp
    · refine .recalled ?_
      split
      · exact .claimed seq r token v.leaseClock drawn row
      · exact .forgotten
  | finished v c r claimed found isOwned =>
    refine List.forall_mem_cons.mpr ⟨?_, List.forall_mem_singleton.mpr (.recalled .forgotten)⟩
    exact .turned found (.finished v c claimed rfl isOwned)
  | replayed v r found dead same =>
    exact List.forall_mem_singleton.mpr (.turned found (.replayed v dead same))

theorem Written.turn (found : store (.row seq) = some r) :
    ∃ r', Locking.Store.write store writes (.row seq) = some r' ∧
      Turn store (Locking.Store.write store writes) seq r request r' := by
  rcases write_cases store writes (.row seq) with ⟨value, member, same⟩ | ⟨-, same⟩
  · rw [same]
    cases written.change _ member with
    | captured v _ free => cases found.symm.trans free
    | turned stored turn =>
      obtain rfl := Option.mem_unique found stored
      exact ⟨_, rfl, turn⟩
  · exact ⟨r, same.trans found, .kept⟩

theorem Written.fresh (none : store (.row seq) = none)
    (found : Locking.Store.write store writes (.row seq) = some r) :
    ∃ v, request = .capture v ∧
      r = .captured v.endpoint v.message v.payload v.deadlineClock v.nextClock := by
  rcases write_cases store writes (.row seq) with ⟨value, member, same⟩ | ⟨-, same⟩
  · obtain rfl : value = some r := same.symm.trans found
    cases written.change _ member with
    | captured v request free => exact ⟨v, request, rfl⟩
    | turned stored turn => cases none.symm.trans stored
  · cases (none.symm.trans same.symm).trans found

theorem Written.recalls (w : WorkerID) :
    Recalls store (Locking.Store.write store writes) w request
      (Locking.Store.write store writes (.worker w)) := by
  rcases write_cases store writes (.worker w) with ⟨value, member, same⟩ | ⟨-, same⟩
  · have change := written.change _ member
    rw [same]
    cases change with
    | recalled recalls => exact recalls
  · have kept : Recalls store (Locking.Store.write store writes) w request (store (.worker w)) :=
      .kept
    rwa [← same] at kept

theorem Written.issued {token : Token} (member : token ∈ store .entropy) :
    token ∈ Locking.Store.write store writes .entropy := by
  rcases write_cases store writes .entropy with ⟨value, change, same⟩ | ⟨-, same⟩
  · rw [same]
    cases written.change _ change with
    | issued token' => exact List.mem_cons_of_mem _ member
  · rw [same]
    exact member

end Turns

section Invariant

def Memory.token : Memory → Option Token
  | .idle => none
  | .drawn token => some token
  | .claimed c => some c.token

structure Lawful (store : Store) : Prop where
  sound : ∀ {seq r}, store (.row seq) = some r → r.Sound
  issued : ∀ {seq r token}, store (.row seq) = some r → r.leaseToken = some token →
    token ∈ store .entropy
  known : ∀ {w token}, (store (.worker w)).token = some token → token ∈ store .entropy
  unused : ∀ {w token seq r}, store (.worker w) = .drawn token → store (.row seq) = some r →
    r.leaseToken ≠ some token
  alone : ∀ {w w' token}, (store (.worker w)).token = some token →
    (store (.worker w')).token = some token → w = w'
  own : ∀ {w c r}, store (.worker w) = .claimed c → store (.row c.sequence) = some r →
    r.leaseToken = some c.token → r.attempts = c.attempt ∧ r.generation = c.generation

variable {store after : Store} {request : Request} {writes : List (Sigma Resource.Value)}
variable {seq : Sequence} {r r' : Row} {w w' : WorkerID} {token : Token}

theorem token_of_drawn (drawn : store (.worker w) = .drawn token) :
    (store (.worker w)).token = some token := by
  rw [drawn, Memory.token]

theorem token_of_claimed {c : Claim} (claimed : store (.worker w) = .claimed c) :
    (store (.worker w)).token = some c.token := by
  rw [claimed, Memory.token]

theorem finalOutcome_other (v : FinishCall) (c : Claim) : finalOutcome v c ≠ .started := by
  unfold finalOutcome
  split_ifs <;> simp

theorem Turn.sound (turn : Turn store after seq r request r') (sound : r.Sound) : r'.Sound := by
  cases turn with
  | kept => exact sound
  | retired v now reads isExpired => exact sound.retire
  | claimed v token now reads isDue drawn used => exact sound.claim (due_iff.mp isDue).2.1 token _
  | finished v c claimed same isOwned => exact sound.finish (finalOutcome_other v c)
  | replayed v dead same => exact sound.replay dead _ _

/-- A row that is leased was not changed, or it was taken with the token of a worker. -/
theorem Turn.lease (turn : Turn store after seq r request r') (sound : r.Sound)
    (leased : r'.leaseToken = some token) :
    r' = r ∨ ∃ w, store (.worker w) = .drawn token ∧ after (.worker w) ≠ .drawn token := by
  cases turn with
  | kept => exact .inl rfl
  | retired v now reads isExpired => cases leased
  | claimed v token' now reads isDue drawn used =>
    cases leased
    exact .inr ⟨v.worker, drawn, used⟩
  | finished v c claimed same isOwned => cases leased
  | replayed v dead same =>
    have free : r.leaseToken = none := (sound.free (dead ▸ State.noConfusion)).1
    cases free.symm.trans leased

/-- A worker has its token from before, or has drawn it. -/
theorem Recalls.has_token {m : Memory} (recalls : Recalls store after w request m)
    (has : m.token = some token) :
    (store (.worker w)).token = some token ∨
      request = .draw w token ∧ token ∉ store .entropy ∧ token ∈ after .entropy := by
  cases recalls with
  | kept => exact .inl has
  | forgotten => cases has
  | drawn token' new issued =>
    cases has
    exact .inr ⟨rfl, new, issued⟩
  | claimed seq r token' clock drawn row =>
    cases has
    rw [drawn]
    exact .inl rfl

theorem Recalls.unspent {m : Memory} (recalls : Recalls store after w request m)
    (same : m = .drawn token) : store (.worker w) = .drawn token ∨ token ∉ store .entropy := by
  cases recalls with
  | kept => exact .inl same
  | forgotten => cases same
  | drawn token' new issued =>
    cases same
    exact .inr new
  | claimed seq r token' clock drawn row => cases same

theorem Recalls.spent {m : Memory} {c : Claim} (recalls : Recalls store after w request m)
    (same : m = .claimed c) : store (.worker w) = .claimed c ∨
      ∃ r clock, after (.row c.sequence) = some (Row.claim r c.token clock) ∧
        c.attempt = r.attempts + 1 ∧ c.generation = r.generation := by
  cases recalls with
  | kept => exact .inl same
  | forgotten => cases same
  | drawn token' new issued => cases same
  | claimed seq r token' clock drawn row =>
    cases same
    exact .inr ⟨r, clock, row, rfl, rfl⟩

variable (lawful : Lawful store) (written : Written store request writes)
include lawful written

/-- Rows after a commit: new ones are free, the others took a turn. -/
theorem Lawful.leased {r : Row} (found : Locking.Store.write store writes (.row seq) = some r)
    (leased : r.leaseToken = some token) :
    store (.row seq) = some r ∨ ∃ w, store (.worker w) = .drawn token ∧
      Locking.Store.write store writes (.worker w) ≠ .drawn token := by
  cases before : store (.row seq) with
  | none =>
    obtain ⟨v, -, rfl⟩ := written.fresh before found
    cases leased
  | some old =>
    obtain ⟨r', same, turn⟩ := written.turn before
    obtain rfl := Option.mem_unique same found
    rcases turn.lease (lawful.sound before) leased with rfl | taken
    · exact .inl rfl
    · exact .inr taken

theorem Lawful.sound_write {r : Row}
    (found : Locking.Store.write store writes (.row seq) = some r) : r.Sound := by
  cases before : store (.row seq) with
  | none =>
    obtain ⟨v, -, rfl⟩ := written.fresh before found
    exact captured_sound v
  | some old =>
    obtain ⟨r', same, turn⟩ := written.turn before
    obtain rfl := Option.mem_unique same found
    exact turn.sound (lawful.sound before)

theorem Lawful.write : Lawful (Locking.Store.write store writes) where
  sound := lawful.sound_write written
  issued {seq r token} found leased := by
    refine written.issued ?_
    rcases lawful.leased written found leased with before | ⟨w, drawn, -⟩
    · exact lawful.issued before leased
    · exact lawful.known (token_of_drawn drawn)
  known {w token} has := by
    rcases (written.recalls w).has_token has with old | ⟨-, -, issued⟩
    · exact written.issued (lawful.known old)
    · exact issued
  unused {w token seq r} drawn found leased := by
    rcases (written.recalls w).unspent drawn with old | new
    · rcases lawful.leased written found leased with before | ⟨w', taken, used⟩
      · exact lawful.unused old before leased
      · obtain rfl := lawful.alone (token_of_drawn old) (token_of_drawn taken)
        exact used drawn
    · rcases lawful.leased written found leased with before | ⟨w', taken, -⟩
      · exact new (lawful.issued before leased)
      · exact new (lawful.known (token_of_drawn taken))
  alone {w w' token} has has' := by
    rcases (written.recalls w).has_token has with old | ⟨same, new, -⟩
    · rcases (written.recalls w').has_token has' with old' | ⟨-, new, -⟩
      · exact lawful.alone old old'
      · exact absurd (lawful.known old) new
    · rcases (written.recalls w').has_token has' with old' | ⟨same', -, -⟩
      · exact absurd (lawful.known old') new
      · cases same.symm.trans same'
        rfl
  own {w c r} claimed found leased := by
    rcases (written.recalls w).spent claimed with old | ⟨r', clock, row, attempt, generation⟩
    · rcases lawful.leased written found leased with before | ⟨w', taken, -⟩
      · exact lawful.own old before leased
      · obtain rfl := lawful.alone (token_of_claimed old) (token_of_drawn taken)
        cases old.symm.trans taken
    · obtain rfl := Option.mem_unique row found
      exact ⟨attempt.symm, generation.symm⟩

end Invariant

section Guards

variable (d : Catalog)

theorem takeRow_guarded {v : ClaimCall} {token : Token} {own taken : List (Sigma Resource.Value)}
    {held : Set (Resource × Mode)} (mine : (Resource.worker v.worker, Mode.exclusive) ∈ held)
    (rows : ∀ write ∈ own, (write.1, Mode.exclusive) ∈ held)
    (locked : ∀ row ∈ taken, (row.1, Mode.exclusive) ∈ held) :
    (takeRow v token own taken).Guarded held := by
  unfold takeRow
  split
  next seq r rest =>
    refine List.forall_mem_append.mpr ⟨rows, List.forall_mem_cons.mpr ⟨?_, ?_⟩⟩
    · exact locked ⟨.row seq, some r⟩ List.mem_cons_self
    · exact List.forall_mem_singleton.mpr mine
  · exact List.forall_mem_append.mpr ⟨rows, List.forall_mem_singleton.mpr mine⟩

theorem retired_object (row : Sigma Resource.Value) : (retired row).1 = row.1 := by
  unfold retired
  split <;> rfl

theorem claim_guarded (v : ClaimCall) : (claimStatements d v).Guarded ∅ := by
  refine Program.select_guarded fun memory => ?_
  have mine : (Resource.worker v.worker, Mode.exclusive) ∈
      insert (Resource.worker v.worker, Mode.exclusive) (∅ : Set (Resource × Mode)) :=
    Set.mem_insert _ _
  cases memory with
  | idle => trivial
  | claimed c => trivial
  | drawn token =>
    simp only
    split
    · exact List.forall_mem_singleton.mpr mine
    · refine fun view => Program.skipLocked_guarded (List.forall_mem_nil _) ?_
      intro rows held subset locked view'
      refine Program.skipLocked_guarded (List.forall_mem_nil _) ?_
      intro taken held' subset' locked'
      refine takeRow_guarded (subset' (subset mine)) (fun write member => ?_) locked'
      obtain ⟨row, inside, rfl⟩ := List.mem_map.mp member
      rw [retired_object]
      exact subset' (locked row inside)

theorem finish_guarded (v : FinishCall) : (finishStatements v).Guarded ∅ := by
  refine Program.select_guarded fun memory => ?_
  cases memory with
  | idle => trivial
  | drawn token => trivial
  | claimed c =>
    refine Program.select_guarded fun found => ?_
    have nothing : (Program.commit [forget v.worker]).Guarded
        (insert (Resource.row c.sequence, Mode.exclusive)
          (insert (Resource.worker v.worker, Mode.exclusive) ∅)) :=
      List.forall_mem_singleton.mpr (Set.mem_insert_of_mem _ (Set.mem_insert _ _))
    cases found with
    | none => exact nothing
    | some r =>
      simp only
      split
      · refine List.forall_mem_cons.mpr ⟨Set.mem_insert _ _, nothing⟩
      · exact nothing

theorem statements_guarded (request : Request) : (statements d request).Guarded ∅ := by
  cases request with
  | capture v =>
    refine Program.select_guarded fun found => ?_
    cases found with
    | none => exact List.forall_mem_singleton.mpr (Set.mem_insert _ _)
    | some r => trivial
  | draw w token =>
    refine Program.select_guarded fun used => Program.check_guarded ?_
    refine List.forall_mem_cons.mpr ⟨Set.mem_insert_of_mem _ (Set.mem_insert _ _), ?_⟩
    exact List.forall_mem_singleton.mpr (Set.mem_insert _ _)
  | claim v => exact claim_guarded d v
  | finish v => exact finish_guarded v
  | crash w => exact List.forall_mem_singleton.mpr (Set.mem_insert _ _)
  | replay v =>
    refine Program.check_guarded (Program.select_guarded fun found => ?_)
    refine Program.ifSome_guarded fun r => ?_
    split
    · exact Program.check_guarded (List.forall_mem_singleton.mpr (Set.mem_insert _ _))
    · trivial

end Guards

section Runs

structure Handled (entry : Committed Request Resource.Value) (seq : Sequence) (r r' : Row) :
    Prop where
  identity : r'.endpoint = r.endpoint ∧ r'.message = r.message ∧ r'.payload = r.payload
  final : r.state = .delivered → r' = r
  delivered : r'.state = .delivered → r' = r ∨
    ∃ v c, entry.request = .finish v ∧ entry.before (.worker v.worker) = .claimed c ∧
      c.sequence = seq ∧ r.state = .inFlight ∧ r.leaseToken = some c.token ∧
      c.attempt = r.attempts ∧ c.generation = r.generation ∧
      v.failed = false ∧ 200 ≤ v.code ∧ v.code < 300
  dead : r'.state = .dead → r' = r ∨ r'.attempts = maxAttempts ∨
    ∃ v now, entry.request = .claim v ∧ v.retireNow.Gives seq now ∧ r.deadline ≤ now.deadline
  inFlight : r'.state = .inFlight → r' = r ∨
    ∃ v token, entry.request = .claim v ∧ r.attempts < maxAttempts ∧
      r' = r.claim token v.leaseClock
  finish : ∀ v, entry.request = .finish v → r' = r ∨
    ∃ c end', entry.before (.worker v.worker) = .claimed c ∧ c.sequence = seq ∧
      r.leaseToken = some c.token ∧ r.leaseUntil = some end' ∧ v.clock < end'

variable {entry : Committed Request Resource.Value} {seq : Sequence} {r r' : Row}

theorem success_iff {v : FinishCall} :
    v.success = true ↔ v.failed = false ∧ 200 ≤ v.code ∧ v.code < 300 := by
  simp [FinishCall.success, and_assoc]

/-- The state that a finish leaves is told by what the worker says. -/
theorem finalState_cases (v : FinishCall) (c : Claim) :
    finalState v c = .delivered ∧ v.success = true ∨
      finalState v c = .dead ∧ maxAttempts ≤ c.attempt ∨ finalState v c = .pending := by
  unfold finalState
  split_ifs with success spent
  · exact .inl ⟨rfl, success⟩
  · exact .inr (.inl ⟨rfl, spent⟩)
  · exact .inr (.inr rfl)

theorem Turn.handled (lawful : Lawful entry.before) (found : entry.before (.row seq) = some r)
    (turn : Turn entry.before entry.after seq r entry.request r') : Handled entry seq r r' := by
  have bounded := (lawful.sound found).bounded
  generalize same : entry.request = request at turn
  cases turn with
  | kept => exact ⟨⟨rfl, rfl, rfl⟩, fun _ => rfl, fun _ => .inl rfl, fun _ => .inl rfl,
      fun _ => .inl rfl, fun _ _ => .inl rfl⟩
  | retired v now reads isExpired =>
    obtain ⟨-, state, spent⟩ := expired_iff.mp isExpired
    refine ⟨⟨rfl, rfl, rfl⟩, fun final => ?_, nofun, fun _ => .inr ?_, nofun, fun v' finish => ?_⟩
    · rw [final] at state
      simp at state
    · rcases spent with passed | used
      · exact .inr ⟨v, now, same, reads, passed⟩
      · exact .inl (Nat.le_antisymm bounded used)
    · cases same.symm.trans finish
  | claimed v token now reads isDue drawn used =>
    obtain ⟨-, room, -, state⟩ := due_iff.mp isDue
    refine ⟨⟨rfl, rfl, rfl⟩, fun final => ?_, nofun, nofun, fun _ => .inr ?_, fun v' finish => ?_⟩
    · rw [final] at state
      simp at state
    · exact ⟨v, token, same, room, rfl⟩
    · cases same.symm.trans finish
  | finished v c claimed sequence isOwned =>
    obtain ⟨token, state, end', leaseUntil, early⟩ := owned_iff.mp isOwned
    obtain ⟨attempt, generation⟩ := lawful.own claimed (sequence ▸ found) token
    have shape := finalState_cases v c
    refine ⟨⟨rfl, rfl, rfl⟩, fun final => ?_, fun delivered => .inr ?_, fun dead => .inr (.inl ?_),
      fun busy => absurd busy (finalState_idle v c), fun v' finish => .inr ?_⟩
    · cases state.symm.trans final
    · change finalState v c = .delivered at delivered
      rw [delivered] at shape
      simp only [true_and, reduceCtorEq, false_and, or_false] at shape
      exact ⟨v, c, same, claimed, sequence, state, token, attempt.symm, generation.symm,
        success_iff.mp shape⟩
    · change finalState v c = .dead at dead
      rw [dead] at shape
      simp only [reduceCtorEq, false_and, true_and, or_false, false_or] at shape
      exact Nat.le_antisymm bounded (attempt ▸ shape)
    · cases same.symm.trans finish
      exact ⟨c, end', claimed, sequence, token, leaseUntil, early⟩
  | replayed v dead generation =>
    refine ⟨⟨rfl, rfl, rfl⟩, fun final => ?_, nofun, nofun, nofun, fun v' finish => ?_⟩
    · cases dead.symm.trans final
    · cases same.symm.trans finish

/-- The attempts of a generation that were started, as the log of a row tells. -/
def startedOf (store : Store) (seq : Sequence) (g : Nat) : List Nat :=
  (store (.row seq)).elim [] (·.started g)

def startOf (seq : Sequence) (g : Nat) (entry : Committed Request Resource.Value) : Option Nat :=
  match entry.request, entry.before (.row seq), entry.after (.row seq) with
  | .claim _, some r, some r' =>
      if r'.generation = g ∧ r.attempts < r'.attempts then some r'.attempts else none
  | _, _, _ => none

theorem startedOf_after (written : Written entry.before entry.request entry.writes)
    (seq : Sequence) (g : Nat) :
    startedOf entry.after seq g = startedOf entry.before seq g ++ (startOf seq g entry).toList := by
  unfold startedOf startOf
  cases before : entry.before (.row seq) with
  | none =>
    cases after : entry.after (.row seq) with
    | none => simp
    | some r =>
      obtain ⟨v, request, rfl⟩ := written.fresh before after
      simp [Row.started, Row.captured]
  | some r =>
    obtain ⟨r', after, turn⟩ := written.turn before
    change entry.after (.row seq) = some r' at after
    rw [after]
    generalize entry.request = request at turn
    cases turn with
    | kept => cases request <;> simp
    | retired v now reads isExpired =>
      simp only [Option.elim_some, Row.started_retire]
      simp [Row.retire]
    | claimed v token now reads isDue drawn used =>
      simp only [Option.elim_some, Row.started_claim]
      by_cases same : r.generation = g <;> simp [Row.claim, same]
    | finished v c claimed sequence isOwned =>
      simp [finished, Row.started_finish r (finalOutcome_other v c)]
    | replayed v dead generation => simp [Row.started_replay]

/-- Rows stay and keep what they are about; a delivered row stays as it is. -/
def Later (first second : Store) : Prop :=
  ∀ seq r, first (.row seq) = some r → ∃ r', second (.row seq) = some r' ∧
    r'.payload = r.payload ∧ (r.state = .delivered → r' = r)

theorem outbox_rule (d : Catalog) : Rule (statements d) Lawful Later where
  guarded := statements_guarded d
  refl store seq r found := ⟨r, found, rfl, fun _ => rfl⟩
  trans first second seq r found := by
    obtain ⟨middle, between, payload, final⟩ := first seq r found
    obtain ⟨last, after, payload', final'⟩ := second seq middle between
    refine ⟨last, after, payload'.trans payload, fun delivered => ?_⟩
    obtain rfl := final delivered
    exact final' delivered
  keeps {request store seen writes} lawful _ yields := by
    have written := statements_written yields
    refine ⟨lawful.write written, fun seq r found => ?_⟩
    obtain ⟨r', after, turn⟩ := written.turn found
    have handled : Handled ⟨request, seen, store, writes⟩ seq r r' := turn.handled lawful found
    exact ⟨r', after, handled.identity.2.2, handled.final⟩

def outbox (d : Catalog) (store : Store) (events : List (Event Request)) :
    Config Request Resource.Value :=
  Config.run (statements d) { store } events

/-- The claims of a run are those of which the rows tell. -/
theorem startedOf_run (d : Catalog) {store : Store} (start : Lawful store)
    (events : List (Event Request)) (seq : Sequence) (g : Nat) :
    startedOf store seq g ++ (outbox d store events).log.filterMap (startOf seq g) =
      startedOf (outbox d store events).store seq g := by
  have history := (outbox_rule d).run start events
  have chained := run_chained (statements d) store events
  refine (chained.along (P := fun log last =>
    startedOf last seq g = startedOf store seq g ++ log.filterMap (startOf seq g)) ?_ ?_).symm
  · simp
  · intro earlier entry later shape ih
    have member : entry ∈ (Config.run (statements d) { store } events).log := by simp [shape]
    have written := statements_written (history.serial entry member).yields
    rw [startedOf_after written, ih, List.filterMap_append, List.append_assoc]
    cases start : startOf seq g entry <;> simp [start]

theorem startedOf_numbers {store : Store} (lawful : Lawful store) (seq : Sequence) (g : Nat) :
    ∃ k ≤ maxAttempts, startedOf store seq g = List.range' 1 k := by
  unfold startedOf
  cases found : store (.row seq) with
  | none => exact ⟨0, Nat.zero_le _, rfl⟩
  | some r =>
    obtain ⟨k, small, numbers, -⟩ := (lawful.sound found).started g
    exact ⟨k, small, numbers⟩

/-- In every interleaving of workers that claim, finish, stall or crash, of events that are
captured and of operators who replay. -/
theorem outbox_protocol (d : Catalog) {store : Store} (start : Lawful store)
    (events more : List (Event Request)) :
    (∀ seq g, ∃ k ≤ maxAttempts,
      startedOf store seq g ++ (outbox d store events).log.filterMap (startOf seq g) =
          List.range' 1 k ∧
        startedOf (outbox d store events).store seq g = List.range' 1 k) ∧
      (∀ seq r, (outbox d store events).store (.row seq) = some r →
        (r.state = .inFlight ↔ r.leaseToken.isSome = true ∧ r.leaseUntil.isSome = true) ∧
          (r.state ≠ .inFlight → r.leaseToken = none ∧ r.leaseUntil = none)) ∧
      (∀ entry ∈ (outbox d store events).log, ∀ seq,
        (∀ r, entry.before (.row seq) = some r →
          ∃ r', entry.after (.row seq) = some r' ∧ Handled entry seq r r') ∧
        (∀ r', entry.before (.row seq) = none → entry.after (.row seq) = some r' →
          r'.state = .pending ∧ r'.attempts = 0)) ∧
      (∀ entry ∈ (outbox d store events).log, ∀ v, entry.request = .replay v →
        ∃ r r', entry.before (.row v.sequence.toNat) = some r ∧ r.state = .dead ∧
          (r.generation : Int) = v.generation ∧ entry.after (.row v.sequence.toNat) = some r' ∧
          r'.state = .pending ∧ r'.attempts = 0 ∧ r'.generation = r.generation + 1) ∧
      Later (outbox d store events).store (outbox d store (events ++ more)).store := by
  have history := (outbox_rule d).run start events
  have written (entry) (member : entry ∈ (outbox d store events).log) :
      Written entry.before entry.request entry.writes :=
    statements_written (history.serial entry member).yields
  refine ⟨fun seq g => ?_, fun seq r found => ?_, fun entry member seq => ⟨?_, ?_⟩, ?_, ?_⟩
  · obtain ⟨k, small, numbers⟩ := startedOf_numbers history.current seq g
    exact ⟨k, small, (startedOf_run d start events seq g).trans numbers, numbers⟩
  · exact ⟨r.leased, (history.current.sound found).free⟩
  · intro r found
    obtain ⟨r', after, turn⟩ := (written entry member).turn found
    exact ⟨r', after, turn.handled (history.serial entry member).found found⟩
  · intro r' none found
    obtain ⟨v, -, rfl⟩ := (written entry member).fresh none found
    exact ⟨rfl, rfl⟩
  · intro entry member v same
    have written := written entry member
    rw [same] at written
    generalize replays : entry.writes = writes at written
    cases written with
    | forgotten w known => exact absurd rfl (known v)
    | replayed v r found dead generation =>
      refine ⟨r, r.replay dead v.nextClock v.deadlineClock, found, dead, generation, ?_, rfl, rfl,
        rfl⟩
      rw [Committed.after, replays]
      exact Function.update_self _ _ _
  · have reached := (outbox_rule d).reaches history more
    rwa [Config.run, Config.run, ← List.foldl_append] at reached

end Runs

section Sample

def sampleCatalog : Catalog := ⟨[1], by simp⟩

def emptyOutbox : Store
  | .row _ => none
  | .worker _ => .idle
  | .entropy => []

theorem emptyOutbox_lawful : Lawful emptyOutbox :=
  ⟨nofun, nofun, nofun, nofun, nofun, nofun⟩

def sampleReadings (clock : Int) : Readings :=
  ⟨fun _ => ⟨clock, clock, clock⟩, fun _ => ⟨clock, clock, clock⟩⟩

def sampleClaim (w : WorkerID) (clock : Int) : Request :=
  .claim ⟨w, 5, true, sampleReadings clock, sampleReadings clock, clock, true⟩

def sampleFinish (w : WorkerID) : Request :=
  .finish ⟨w, 200, false, minute + 1, minute + 1, 0⟩

/-- A worker stalls past its lease and finishes after another one has claimed the row. -/
def stalledEvents : List (Event Request) :=
  [.start 0 (.capture ⟨1, 5, 6, [], 0, 0⟩), .start 1 (.draw 1 10), .start 2 (.draw 2 20)] ++
    List.replicate 3 (.advance 0) ++ List.replicate 4 (.advance 1) ++
    List.replicate 4 (.advance 2) ++
    .start 3 (sampleClaim 1 0) :: List.replicate 8 (.advance 3) ++
    .start 4 (sampleClaim 2 minute) :: List.replicate 8 (.advance 4) ++
    .start 5 (sampleFinish 1) :: List.replicate 5 (.advance 5) ++
    .start 6 (sampleFinish 2) :: List.replicate 5 (.advance 6)

theorem outbox_protocol_of_stalled :
    ((outbox sampleCatalog emptyOutbox stalledEvents).log.filterMap (startOf 1 0) = [1, 2] ∧
      ((outbox sampleCatalog emptyOutbox stalledEvents).store (.row 1)).map Row.state =
        some .delivered) ∧
    ∀ seq g, ∃ k ≤ maxAttempts,
      startedOf emptyOutbox seq g ++
          (outbox sampleCatalog emptyOutbox stalledEvents).log.filterMap (startOf seq g) =
          List.range' 1 k ∧
        startedOf (outbox sampleCatalog emptyOutbox stalledEvents).store seq g = List.range' 1 k :=
  ⟨by decide +kernel, (outbox_protocol sampleCatalog emptyOutbox_lawful stalledEvents []).1⟩

end Sample

end RelayTale.Webhook
