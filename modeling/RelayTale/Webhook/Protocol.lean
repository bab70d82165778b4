import RelayTale.Webhook.Outbox

/-!
# The protocol of the outbox

What a commit writes is one of a few changes of rows. A row keeps count of the
claims of its generation, and the token of a claim leads back to no other one,
because it was drawn once and is forgotten by its worker before the next.
-/

namespace RelayTale.Webhook

open Locking

section Sound

namespace Row

def started (r : Row) (g : Nat) : List Nat :=
  (r.log.filter fun entry => entry.outcome = .started && entry.generation = g).map LogRow.attempt

structure Sound (r : Row) : Prop where
  bounded : r.attempts ≤ maxAttempts
  free : r.state ≠ .inFlight → r.leaseToken = none ∧ r.leaseUntil = none
  started : ∀ g, ∃ k ≤ maxAttempts, r.started g = List.range' 1 k ∧
    (g = r.generation → k = r.attempts) ∧ (r.generation < g → k = 0)

variable {r r' : Row} {entry : LogRow}

theorem started_append (log : r'.log = r.log ++ [entry]) (g : Nat) :
    r'.started g = r.started g ++
      if entry.outcome = .started ∧ entry.generation = g then [entry.attempt] else [] := by
  unfold started
  rw [log, List.filter_append, List.map_append]
  congr 1
  by_cases mine : entry.outcome = .started ∧ entry.generation = g <;> simp [mine]

theorem started_same (log : r'.log = r.log ++ [entry]) (other : entry.outcome ≠ .started)
    (g : Nat) : r'.started g = r.started g := by
  rw [started_append log, if_neg fun mine => other mine.1, List.append_nil]

theorem started_retire (r : Row) (g : Nat) : r.retire.started g = r.started g :=
  started_same rfl Outcome.noConfusion g

theorem started_claim (r : Row) (token : Token) (clock : Int) (g : Nat) :
    (r.claim token clock).started g =
      r.started g ++ if r.generation = g then [r.attempts + 1] else [] := by
  rw [started_append rfl]
  simp only [true_and]

theorem started_finish (r : Row) {c : Claim} {state : State} {idle : state ≠ .inFlight}
    {outcome : Outcome} {httpCode : Option Int} {nextAt : Int} (other : outcome ≠ .started)
    (g : Nat) : (r.finish c state idle outcome httpCode nextAt).started g = r.started g :=
  started_same rfl other g

theorem started_replay (r : Row) (dead : r.state = .dead) (nextClock deadlineClock : Int)
    (g : Nat) : (r.replay dead nextClock deadlineClock).started g = r.started g :=
  started_same rfl Outcome.noConfusion g

theorem Sound.retire (sound : r.Sound) : r.retire.Sound where
  bounded := sound.bounded
  free _ := ⟨rfl, rfl⟩
  started g := by
    rw [started_retire]
    exact sound.started g

theorem Sound.finish (sound : r.Sound) {c : Claim} {state : State} {idle : state ≠ .inFlight}
    {outcome : Outcome} {httpCode : Option Int} {nextAt : Int} (other : outcome ≠ .started) :
    (r.finish c state idle outcome httpCode nextAt).Sound where
  bounded := sound.bounded
  free _ := ⟨rfl, rfl⟩
  started g := by
    rw [started_finish r other]
    exact sound.started g

theorem Sound.claim (sound : r.Sound) (room : r.attempts < maxAttempts) (token : Token)
    (clock : Int) : (r.claim token clock).Sound where
  bounded := room
  free busy := absurd rfl busy
  started g := by
    rw [started_claim]
    obtain ⟨k, small, numbers, now, later⟩ := sound.started g
    by_cases same : r.generation = g
    · obtain rfl := now same.symm
      refine ⟨r.attempts + 1, room, ?_, fun _ => rfl, fun after => absurd same after.ne⟩
      rw [numbers, if_pos same, List.range'_1_concat]
      simp [Nat.add_comm]
    · refine ⟨k, small, ?_, fun own => absurd own.symm same, later⟩
      rw [if_neg same, List.append_nil]
      exact numbers

theorem Sound.replay (sound : r.Sound) (dead : r.state = .dead) (nextClock deadlineClock : Int) :
    (r.replay dead nextClock deadlineClock).Sound where
  bounded := Nat.zero_le _
  free _ := sound.free (dead ▸ State.noConfusion)
  started g := by
    rw [started_replay]
    obtain ⟨k, small, numbers, -, later⟩ := sound.started g
    refine ⟨k, small, numbers, fun own => later ?_, fun after => later ?_⟩
    · rw [own]
      exact Nat.lt_succ_self _
    · exact Nat.lt_of_succ_lt after

end Row

theorem captured_sound (v : CaptureCall) :
    (Row.captured v.endpoint v.message v.payload v.deadlineClock v.nextClock).Sound where
  bounded := Nat.zero_le _
  free _ := ⟨rfl, rfl⟩
  started _ := ⟨0, Nat.zero_le _, rfl, fun _ => rfl, fun _ => rfl⟩

end Sound

section Writes

def Readings.Gives (now : Readings) (seq : Sequence) (reading : Reading) : Prop :=
  reading = now.scan seq ∨ reading = now.recheck seq

def Retires (store : Store) (v : ClaimCall) (own : List (Sigma Resource.Value)) : Prop :=
  ∀ write ∈ own, ∃ seq r now, store (.row seq) = some r ∧ v.retireNow.Gives seq now ∧
    expired v.endpoint now r = true ∧ write = ⟨.row seq, some r.retire⟩

inductive Written (store : Store) : Request → List (Sigma Resource.Value) → Prop
  | captured (v : CaptureCall) (free : store (.row v.sequence) = none) :
      Written store (.capture v) [⟨.row v.sequence, some
        (.captured v.endpoint v.message v.payload v.deadlineClock v.nextClock)⟩]
  | drawn (w : WorkerID) (token : Token) (new : token ∉ store .entropy) :
      Written store (.draw w token) [⟨.entropy, token :: store .entropy⟩, ⟨.worker w, .drawn token⟩]
  | forgotten {request : Request} (w : WorkerID) (known : ∀ v, request ≠ .replay v) :
      Written store request [forget w]
  | retired (v : ClaimCall) (own : List (Sigma Resource.Value)) (rows : Retires store v own) :
      Written store (.claim v) (own ++ [forget v.worker])
  | claimed (v : ClaimCall) (own : List (Sigma Resource.Value)) (seq : Sequence) (r : Row)
      (now : Reading) (token : Token) (rows : Retires store v own)
      (apart : ∀ write ∈ own, write.1 ≠ .row seq)
      (drawn : store (.worker v.worker) = .drawn token) (found : store (.row seq) = some r)
      (reads : v.claimNow.Gives seq now) (isDue : due v.endpoint now r = true) :
      Written store (.claim v) (own ++ [⟨.row seq, some (r.claim token v.leaseClock)⟩,
        remember v ⟨seq, token, r.attempts + 1, r.generation⟩])
  | finished (v : FinishCall) (c : Claim) (r : Row)
      (claimed : store (.worker v.worker) = .claimed c) (found : store (.row c.sequence) = some r)
      (isOwned : owned c v.clock r = true) :
      Written store (.finish v) [⟨.row c.sequence, some (finished v c r)⟩, forget v.worker]
  | replayed (v : ReplayCall) (r : Row) (found : store (.row v.sequence.toNat) = some r)
      (dead : r.state = .dead) (same : (r.generation : Int) = v.generation) :
      Written store (.replay v)
        [⟨.row v.sequence.toNat, some (r.replay dead v.nextClock v.deadlineClock)⟩]

variable {d : Catalog} {store : Store} {seen : List Store} {writes : List (Sigma Resource.Value)}

/-- A row that a query has locked meets its condition, as it was scanned or as it is. -/
theorem current_condition {view : Store} {condition : Reading → Row → Bool} {now : Readings}
    {sequences : List Sequence} {row : Sigma Resource.Value}
    (value : row.2 = store row.1) (accepted : current view condition now row = true)
    (listed : row.1 ∈ sequences.map Resource.row)
    (scanned : ∀ seq ∈ sequences, seq ∈ candidates d view condition now) :
    ∃ seq r at', seq ∈ sequences ∧ store (.row seq) = some r ∧ now.Gives seq at' ∧
      condition at' r = true ∧ row = ⟨.row seq, some r⟩ := by
  obtain ⟨seq, inside, same⟩ := List.mem_map.mp listed
  obtain ⟨object, found⟩ := row
  obtain rfl : Resource.row seq = object := same
  cases found with
  | none => cases accepted
  | some r =>
    have candidate := (List.mem_filter.mp (scanned seq inside)).2
    simp only [current, Bool.or_eq_true, decide_eq_true_eq] at accepted
    rcases accepted with unchanged | holds
    · rw [unchanged, Option.any_some] at candidate
      exact ⟨seq, r, _, inside, value.symm, .inl rfl, candidate, rfl⟩
    · exact ⟨seq, r, _, inside, value.symm, .inr rfl, holds, rfl⟩

/-- No row is retired and claimed by one transaction. -/
theorem candidate_apart {v : ClaimCall} {own : List (Sigma Resource.Value)} {view : Store}
    {seq : Sequence} (rows : Retires store v own)
    (candidate : seq ∈ candidates d (Locking.Store.write view own) (due v.endpoint) v.claimNow) :
    ∀ write ∈ own, write.1 ≠ .row seq := by
  have scanned := (List.mem_filter.mp candidate).2
  rcases write_cases view own (.row seq) with ⟨value, member, same⟩ | ⟨others, -⟩
  · obtain ⟨seq', r, now, -, -, -, shape⟩ := rows _ member
    cases shape
    rw [same] at scanned
    simp [due, Row.retire] at scanned
  · exact others

theorem takeRow_written {v : ClaimCall} {token : Token} {own taken : List (Sigma Resource.Value)}
    (drawn : store (.worker v.worker) = .drawn token) (rows : Retires store v own)
    (found : ∀ row ∈ taken, ∃ seq r now, (∀ write ∈ own, write.1 ≠ .row seq) ∧
      store (.row seq) = some r ∧ v.claimNow.Gives seq now ∧ due v.endpoint now r = true ∧
      row = ⟨.row seq, some r⟩)
    (yields : (takeRow v token own taken).Yields store seen writes) :
    Written store (.claim v) writes := by
  cases taken with
  | nil =>
    obtain ⟨-, rfl⟩ := yields
    exact .retired v own rows
  | cons row rest =>
    obtain ⟨seq, r, now, apart, stored, reads, isDue, rfl⟩ := found row List.mem_cons_self
    obtain ⟨-, rfl⟩ := yields
    exact .claimed v own seq r now token rows apart drawn stored reads isDue

theorem claimNext_written {v : ClaimCall} {token : Token} {own : List (Sigma Resource.Value)}
    (drawn : store (.worker v.worker) = .drawn token) (rows : Retires store v own)
    (yields : (claimNext d v token own).Yields store seen writes) :
    Written store (.claim v) writes := by
  obtain ⟨view, later, -, yields⟩ := yields
  obtain ⟨taken, yields, accepted⟩ := Program.skipLocked_yields yields
  refine takeRow_written drawn rows (fun row member => ?_) yields
  rcases accepted row member with none | ⟨value, isCurrent, listed⟩
  · cases none
  · obtain ⟨seq, r, now, inside, stored, reads, isDue, rfl⟩ := current_condition (d := d) value
      isCurrent listed fun seq inside => List.mem_mergeSort.mp inside
    have apart := candidate_apart rows (List.mem_mergeSort.mp inside)
    exact ⟨seq, r, now, apart, stored, reads, isDue, rfl⟩

theorem claim_written {v : ClaimCall} (yields : (claimStatements d v).Yields store seen writes) :
    Written store (.claim v) writes := by
  simp only [claimStatements, Program.select, Program.Yields] at yields
  cases memory : store (.worker v.worker) with
  | idle =>
    rw [memory] at yields
    exact yields.elim
  | claimed c =>
    rw [memory] at yields
    exact yields.elim
  | drawn token =>
    rw [memory] at yields
    simp only at yields
    split at yields
    · obtain ⟨-, rfl⟩ := yields
      exact .forgotten v.worker (by simp)
    · obtain ⟨view, later, -, yields⟩ := yields
      obtain ⟨rows, yields, accepted⟩ := Program.skipLocked_yields yields
      refine claimNext_written memory (fun write member => ?_) yields
      obtain ⟨row, inside, rfl⟩ := List.mem_map.mp member
      rcases accepted row inside with none | ⟨value, isCurrent, listed⟩
      · cases none
      · obtain ⟨seq, r, now, -, stored, reads, isExpired, rfl⟩ :=
          current_condition (d := d) value isCurrent listed fun seq inside => inside
        exact ⟨seq, r, now, stored, reads, isExpired, rfl⟩

theorem finish_written {v : FinishCall} (yields : (finishStatements v).Yields store seen writes) :
    Written store (.finish v) writes := by
  simp only [finishStatements, Program.select, Program.Yields] at yields
  cases memory : store (.worker v.worker) with
  | idle =>
    rw [memory] at yields
    exact yields.elim
  | drawn token =>
    rw [memory] at yields
    exact yields.elim
  | claimed c =>
    rw [memory] at yields
    simp only [Program.Yields] at yields
    cases found : store (.row c.sequence) with
    | none =>
      rw [found] at yields
      obtain ⟨-, rfl⟩ := yields
      exact .forgotten v.worker (by simp)
    | some r =>
      rw [found] at yields
      simp only at yields
      split at yields
      next isOwned =>
        obtain ⟨-, rfl⟩ := yields
        exact .finished v c r memory found isOwned
      · obtain ⟨-, rfl⟩ := yields
        exact .forgotten v.worker (by simp)

theorem replay_written {v : ReplayCall} (yields : (replayStatements v).Yields store seen writes) :
    Written store (.replay v) writes := by
  obtain ⟨final, runs⟩ := yields.runs (fun _ => True.intro) ∅
  obtain ⟨-, runs⟩ := Program.check_runs.mp runs
  obtain ⟨r, found, runs⟩ := Program.ifSome_runs.mp (Program.select_runs.mp runs)
  split at runs
  next dead =>
    obtain ⟨same, -, rfl, -⟩ := Program.check_runs.mp runs
    simp only [Bool.and_eq_true, decide_eq_true_eq] at same
    exact .replayed v r found dead same.1
  · exact runs.elim

theorem statements_written {request : Request}
    (yields : (statements d request).Yields store seen writes) :
    Written store request writes := by
  cases request with
  | capture v =>
    simp only [statements, captureStatements, Program.select, Program.Yields] at yields
    cases found : store (.row v.sequence) with
    | some r =>
      rw [found] at yields
      exact yields.elim
    | none =>
      rw [found] at yields
      obtain ⟨-, rfl⟩ := yields
      exact .captured v found
  | draw w token =>
    obtain ⟨final, runs⟩ := yields.runs (fun _ => True.intro) ∅
    obtain ⟨new, -, rfl, -⟩ := Program.check_runs.mp runs
    exact .drawn w token (by simpa using new)
  | crash w =>
    obtain ⟨-, rfl⟩ := yields
    exact .forgotten w (by simp)
  | claim v => exact claim_written yields
  | finish v => exact finish_written yields
  | replay v => exact replay_written yields

end Writes

end RelayTale.Webhook
