import RelayTale.Intake.Statements

/-!
# What a committed call has done

Each call is taken apart once. It is answered and nothing else is written, or it
has made all its writes. Of a submission that was taken it is kept what it has
read, in which snapshot and with the row of its identity locked.
-/

namespace RelayTale.Intake

open Locking Guard
open Queue (Message Op)

def Answered (call : CallID) (a : Answer) (writes : List (Sigma Resource.Value)) : Prop :=
  writes = [⟨.answer call, some a⟩]

def Refused (call : CallID) (writes : List (Sigma Resource.Value)) : Prop :=
  ∃ refusal, Answered call (.refused refusal) writes

section Combinators

variable {shows : Visibility Resource.Value} {store : Store}
variable {held final : Set (Resource × Mode)} {seen : List Store} {known : Store → Prop}
variable {writes own : List (Sigma Resource.Value)} {call : CallID}

theorem answer_runs {a : Answer}
    (runs : (answer call a own).Runs shows store known held seen writes final) :
    writes = ⟨.answer call, some a⟩ :: own := runs.2.1

theorem refuse_runs {refusal : Refusal}
    (runs : (refuse call refusal).Runs shows store known held seen writes final) :
    Answered call (.refused refusal) writes := answer_runs runs

theorem ifOk_runs {α : Type} {result : Except Refusal α} {next : α → Statements}
    (runs : (ifOk call result next).Runs shows store known held seen writes final) :
    (∃ refusal, result = .error refusal ∧ Answered call (.refused refusal) writes) ∨
      ∃ value, result = .ok value ∧ (next value).Runs shows store known held seen writes final := by
  cases result with
  | ok value => exact .inr ⟨value, rfl, runs⟩
  | error refusal => exact .inl ⟨refusal, rfl, refuse_runs runs⟩

theorem ensure_runs {condition : Bool} {refusal : Refusal} {next : Statements}
    (runs : (ensure call condition refusal next).Runs shows store known held seen writes final) :
    Refused call writes ∨
      condition = true ∧ next.Runs shows store known held seen writes final := by
  cases condition with
  | true => exact .inr ⟨rfl, runs⟩
  | false => exact .inl ⟨_, refuse_runs runs⟩

theorem lockIdentity_runs {q : IdentityID} {next : Identity → Statements}
    (runs : (lockIdentity call q next).Runs shows store known held seen writes final) :
    Refused call writes ∨ ∃ identity, store (.identity q) = some identity ∧
      (next identity).Runs shows store known (insert (.identity q, .exclusive) held) seen writes
        final := by
  have runs := Program.select_runs.mp runs
  split at runs
  next identity found => exact .inr ⟨identity, found, runs⟩
  next absent => exact .inl ⟨_, refuse_runs runs⟩

theorem cancelPendingTx_runs {q : IdentityID} {id : MessageID} {replacing : Bool} {clock : Int}
    {next : Message → Message → Statements}
    (runs : (cancelPendingTx call q id replacing clock next).Runs shows store known held seen writes
      final) :
    Refused call writes ∨ ∃ m m', store.message id = some m ∧
      Queue.cancelPending q replacing clock m = .ok m' ∧
      (next m m').Runs shows store known (insert (.table (.message id), .exclusive) held) seen
        writes final := by
  have runs := Program.select_runs.mp runs
  split at runs
  next absent => exact .inl ⟨_, refuse_runs runs⟩
  next m found =>
    rcases ifOk_runs runs with ⟨refusal, -, refused⟩ | ⟨m', committed, runs⟩
    · exact .inl ⟨refusal, refused⟩
    · refine .inr ⟨m, m', found, ?_, runs⟩
      cases result : Queue.cancelPending q replacing clock m with
      | ok value =>
        rw [result] at committed
        simpa [Except.mapError] using committed
      | error refusal =>
        rw [result] at committed
        cases committed

end Combinators

section Reservations

/-- A snapshot that was taken with the row of the identity locked. -/
def ShownUnder (shows : Visibility Resource.Value) (store : Store)
    (q : IdentityID) (view : Store) : Prop :=
  ∃ held, (.identity q, Mode.exclusive) ∈ held ∧ shows held view store

/-- A scheduled submission is in time and has found room. -/
def HasRoom (d : Catalog) (shows : Visibility Resource.Value)
    (seen : List Store) (store : Store) (i : Call) (own : List (Sigma Resource.Value)) : Prop :=
  ∀ earliest, i.submission.scheduleAt = some earliest → ∃ view ∈ seen,
    ShownUnder shows store i.identity view ∧ roomFor d i (Store.write view own) = true

structure StreamReserved (d : Catalog) (shows : Visibility Resource.Value)
    (seen : List Store) (store : Store) (i : Call) (stream : Stream) (policy : StreamPolicy) :
    Prop where
  read : ∃ view ∈ seen, ShownUnder shows store i.identity view ∧
    view (.stream i.identity stream) = some policy
  enabled : policy.enabled = true
  admitted : ∃ view ∈ seen, ShownUnder shows store i.identity view ∧
    policy.budget.admits i.units (used d view i.identity i.clocks.streamUsage (some stream)) = true

structure IdentityReserved (d : Catalog) (shows : Visibility Resource.Value)
    (seen : List Store) (store : Store) (i : Call) (identity : Identity) : Prop where
  read : store (.identity i.identity) = some identity
  enabled : identity.enabled = true
  admitted : ∃ view ∈ seen, ShownUnder shows store i.identity view ∧
    identity.budget.admits i.units (used d view i.identity i.clocks.usage none) = true

variable {shows : Visibility Resource.Value} {store : Store}
variable {held final : Set (Resource × Mode)} {seen more : List Store} {known : Store → Prop}
variable {writes own : List (Sigma Resource.Value)} {d : Catalog} {i : Call}

theorem StreamReserved.weaken {stream : Stream} {policy : StreamPolicy}
    (reserved : StreamReserved d shows seen store i stream policy) (subset : seen ⊆ more) :
    StreamReserved d shows more store i stream policy where
  read := by
    obtain ⟨view, member, shown⟩ := reserved.read
    exact ⟨view, subset member, shown⟩
  enabled := reserved.enabled
  admitted := by
    obtain ⟨view, member, shown⟩ := reserved.admitted
    exact ⟨view, subset member, shown⟩

theorem IdentityReserved.weaken {identity : Identity}
    (reserved : IdentityReserved d shows seen store i identity) (subset : seen ⊆ more) :
    IdentityReserved d shows more store i identity where
  read := reserved.read
  enabled := reserved.enabled
  admitted := by
    obtain ⟨view, member, shown⟩ := reserved.admitted
    exact ⟨view, subset member, shown⟩

theorem HasRoom.weaken (room : HasRoom d shows seen store i own) (subset : seen ⊆ more) :
    HasRoom d shows more store i own := by
  intro earliest scheduled
  obtain ⟨view, member, shown⟩ := room earliest scheduled
  exact ⟨view, subset member, shown⟩

theorem admitSchedule_runs {next : Statements} (inside : (.identity i.identity, .exclusive) ∈ held)
    (runs : (admitSchedule d i own next).Runs shows store known held seen writes final) :
    Refused i.call writes ∨ HasRoom d shows seen store i own ∧ ∃ later known', later ⊆ seen ∧
      next.Runs shows store known' held later writes final := by
  unfold admitSchedule at runs
  split at runs
  next unscheduled =>
    refine .inr ⟨fun earliest scheduled => ?_, seen, known, List.Subset.refl _, runs⟩
    cases unscheduled.symm.trans scheduled
  next earliest _ =>
    rcases ensure_runs runs with refused | ⟨-, runs⟩
    · exact .inl refused
    rcases ensure_runs runs with refused | ⟨-, view, later, rfl, shown, -, runs⟩
    · exact .inl refused
    rcases ensure_runs runs with refused | ⟨room, runs⟩
    · exact .inl refused
    · exact .inr ⟨fun _ _ => ⟨view, List.mem_cons_self, ⟨held, inside, shown⟩, room⟩, later, _,
        List.subset_cons_self _ _, runs⟩

theorem reserveStream_runs {stream : Stream} {next : Statements}
    (inside : (.identity i.identity, .exclusive) ∈ held)
    (runs : (reserveStream d i stream next).Runs shows store known held seen writes final) :
    Refused i.call writes ∨ ∃ policy, StreamReserved d shows seen store i stream policy ∧
      ∃ later known', later ⊆ seen ∧ next.Runs shows store known' held later writes final := by
  obtain ⟨view, later, rfl, shown, -, runs⟩ := runs
  dsimp only at runs
  split at runs
  · exact .inl ⟨_, refuse_runs runs⟩
  next policy read =>
    rcases ensure_runs runs with refused | ⟨enabled, runs⟩
    · exact .inl refused
    rcases ensure_runs runs with refused | ⟨-, usage, last, rfl, current, -, runs⟩
    · exact .inl refused
    rcases ensure_runs runs with refused | ⟨admitted, runs⟩
    · exact .inl refused
    refine .inr ⟨policy, ⟨⟨view, List.mem_cons_self, ⟨held, inside, shown⟩, read⟩, enabled,
      usage, by simp, ⟨held, inside, current⟩, admitted⟩, last, _, ?_, runs⟩
    exact fun _ member => List.mem_cons_of_mem _ (List.mem_cons_of_mem _ member)

/-- What `reserveSubmission` has found when it lets the submission in. -/
structure Reserved (d : Catalog) (shows : Visibility Resource.Value)
    (seen : List Store) (store : Store) (i : Call) (own : List (Sigma Resource.Value))
    (stream : Stream) (identity : Identity) (policy : StreamPolicy) : Prop where
  named : canonicalStream i.submission.stream = .ok stream
  identity : IdentityReserved d shows seen store i identity
  room : HasRoom d shows seen store i own
  policy : StreamReserved d shows seen store i stream policy
  fresh : store (.quota i.id) = none

theorem Reserved.weaken {stream : Stream} {identity : Identity} {policy : StreamPolicy}
    (reserved : Reserved d shows seen store i own stream identity policy) (subset : seen ⊆ more) :
    Reserved d shows more store i own stream identity policy :=
  ⟨reserved.named, reserved.identity.weaken subset, reserved.room.weaken subset,
    reserved.policy.weaken subset, reserved.fresh⟩

theorem reserveSubmission_runs {next : Stream → Statements}
    (runs : (reserveSubmission d i own next).Runs shows store known held seen writes final) :
    Refused i.call writes ∨ ∃ stream identity policy,
      Reserved d shows seen store i own stream identity policy ∧
      ∃ later known', later ⊆ seen ∧ (next stream).Runs shows store known'
        (insert (.quota i.id, .exclusive) (insert (.identity i.identity, .exclusive) held)) later
        writes final := by
  rcases ifOk_runs runs with ⟨refusal, -, refused⟩ | ⟨stream, named, runs⟩
  · exact .inl ⟨refusal, refused⟩
  rcases lockIdentity_runs runs with refused | ⟨identity, read, runs⟩
  · exact .inl refused
  rcases ifOk_runs runs with ⟨refusal, -, refused⟩ | ⟨_, -, runs⟩
  · exact .inl ⟨refusal, refused⟩
  have inside : (.identity i.identity, Mode.exclusive) ∈
      insert (Resource.identity i.identity, Mode.exclusive) held := Set.mem_insert _ _
  rcases admitSchedule_runs inside runs with refused | ⟨room, after, _, subset, runs⟩
  · exact .inl refused
  rcases ensure_runs runs with refused | ⟨enabled, runs⟩
  · exact .inl refused
  rcases ensure_runs runs with refused | ⟨-, view, rest, rfl, shown, -, runs⟩
  · exact .inl refused
  rcases ensure_runs runs with refused | ⟨admitted, runs⟩
  · exact .inl refused
  rcases reserveStream_runs inside runs with refused | ⟨policy, reserved, last, _, subset', runs⟩
  · exact .inl refused
  have runs := Program.select_runs.mp runs
  obtain ⟨absent, runs⟩ := Program.check_runs.mp runs
  have tail : rest ⊆ seen := List.Subset.trans (List.subset_cons_self _ _) subset
  refine .inr ⟨stream, identity, policy, ⟨named, ⟨read, enabled, view, subset List.mem_cons_self,
    ⟨_, inside, shown⟩, admitted⟩, room, reserved.weaken tail, ?_⟩, last, _,
    List.Subset.trans subset' tail, runs⟩
  simpa using absent

end Reservations

section Submissions

inductive Replacing (store : Store) (i : Call) : List (Sigma Resource.Value) → Prop
  | nothing (none : i.submission.replaces = none) : Replacing store i []
  | cancelled {old : MessageID} {m m' : Message} (replaces : i.submission.replaces = some old)
      (found : store.message old = some m)
      (committed : Queue.cancelPending i.identity true i.clocks.cancel m = .ok m') :
      Replacing store i [put old m']

variable [Primitives]

/-- The message that `enqueueTx` inserts. -/
structure Created (store : Store) (i : Call) (identity : Identity) (s : Queue.Submission)
    (m : Message) : Prop where
  queued : i.queued identity.production = some s
  absent : store.message i.id = none
  created : s.enqueue (store (.table .policy)) = .ok m

/-- A submission that was taken, with all that it writes. -/
structure Submitted (d : Catalog) (shows : Visibility Resource.Value)
    (seen : List Store) (final : Set (Resource × Mode)) (store : Store) (i : Call)
    (print : Fingerprint) (writes : List (Sigma Resource.Value)) (own : List (Sigma Resource.Value))
    (stream : Stream) (identity : Identity) (policy : StreamPolicy) (s : Queue.Submission)
    (m : Message) : Prop where
  listed : i.id ∈ d.messages
  unknown : store (.ledger i.identity i.key) = none
  replacing : Replacing store i own
  reserved : Reserved d shows seen store i own stream identity policy
  created : Created store i identity s m
  locked : (.identity i.identity, Mode.exclusive) ∈ final
  writes : writes = ⟨.answer i.call, some i.committed⟩ ::
    ⟨.ledger i.identity i.key, some ⟨print, i.id⟩⟩ ::
    ⟨.quota i.id, some (i.reservation stream)⟩ ::
    ⟨.details i.id, some i.details⟩ :: put i.id m :: own

inductive Outcome (d : Catalog) (shows : Visibility Resource.Value)
    (seen : List Store) (final : Set (Resource × Mode)) (store : Store) (i : Call)
    (print : Fingerprint) (writes : List (Sigma Resource.Value)) : Prop
  | replayed {row : LedgerRow}
      (found : ∃ view, (view = store ∨ view ∈ seen) ∧ view (.ledger i.identity i.key) = some row)
      (same : row.fingerprint = print)
      (answered : Answered i.call (.accepted row.message true) writes)
  | conflict {row : LedgerRow}
      (found : ∃ view, (view = store ∨ view ∈ seen) ∧ view (.ledger i.identity i.key) = some row)
      (differs : row.fingerprint ≠ print)
      (answered : Answered i.call (.refused .idempotencyConflict) writes)
  | refused (unknown : store (.ledger i.identity i.key) = none) (refused : Refused i.call writes)
  | submitted {own : List (Sigma Resource.Value)} {stream : Stream} {identity : Identity}
      {policy : StreamPolicy} {s : Queue.Submission} {m : Message}
      (submitted : Submitted d shows seen final store i print writes own stream identity policy s m)

variable {shows : Visibility Resource.Value} {store : Store}
variable {held final : Set (Resource × Mode)} {seen more : List Store} {known : Store → Prop}
variable {writes own : List (Sigma Resource.Value)} {d : Catalog} {i : Call} {print : Fingerprint}

omit [Primitives] in
theorem replay_runs {row : LedgerRow}
    (runs : (replay i print row).Runs shows store known held seen writes final) :
    row.fingerprint = print ∧ Answered i.call (.accepted row.message true) writes ∨
      row.fingerprint ≠ print ∧ Answered i.call (.refused .idempotencyConflict) writes := by
  unfold replay at runs
  split at runs
  next same => exact .inl ⟨same, answer_runs runs⟩
  next differs => exact .inr ⟨differs, refuse_runs runs⟩

omit [Primitives] in
theorem cancelReplaced_runs {next : List (Sigma Resource.Value) → Statements}
    (runs : (cancelReplaced i next).Runs shows store known held seen writes final) :
    Refused i.call writes ∨ ∃ own held', Replacing store i own ∧
      (next own).Runs shows store known held' seen writes final := by
  unfold cancelReplaced at runs
  split at runs
  next nothing => exact .inr ⟨[], held, .nothing nothing, runs⟩
  next old replaces =>
    rcases lockIdentity_runs runs with refused | ⟨identity, -, runs⟩
    · exact .inl refused
    rcases ensure_runs runs with refused | ⟨-, runs⟩
    · exact .inl refused
    rcases cancelPendingTx_runs runs with refused | ⟨m, m', found, committed, runs⟩
    · exact .inl refused
    · exact .inr ⟨_, _, .cancelled replaces found committed, runs⟩

omit [Primitives] in
theorem toOption_eq_some {ε α : Type} {result : Except ε α} {value : α} :
    result.toOption = some value ↔ result = .ok value := by
  cases result <;> simp [Except.toOption]

theorem enqueueTx_runs {next : Message → Statements} {identity : Identity}
    (read : store (.identity i.identity) = some identity)
    (runs : (enqueueTx i next).Runs shows store known held seen writes final) :
    ∃ s m held', Created store i identity s m ∧ held ⊆ held' ∧
      (next m).Runs shows store known held' seen writes final := by
  obtain ⟨s, queued, runs⟩ := Program.ifSome_runs.mp runs
  have runs := Program.select_runs.mp runs
  obtain ⟨absent, runs⟩ := Program.check_runs.mp runs
  rw [read] at queued
  have absent : store.message i.id = none := by simpa using absent
  split at runs
  · have runs := Program.select_runs.mp runs
    obtain ⟨m, created, runs⟩ := Program.ifSome_runs.mp runs
    exact ⟨s, m, _, ⟨queued, absent, toOption_eq_some.mp created⟩,
      (Set.subset_insert _ _).trans (Set.subset_insert _ _), runs⟩
  next sandbox =>
    obtain ⟨m, created, runs⟩ := Program.ifSome_runs.mp runs
    refine ⟨s, m, _, ⟨queued, absent, ?_⟩, Set.subset_insert _ _, runs⟩
    rw [← Queue.enqueue_of_sandbox sandbox]
    exact toOption_eq_some.mp created

theorem enqueueWith_runs (listed : i.id ∈ d.messages)
    (runs : (enqueueWith d i print).Runs shows store known held seen writes final) :
    Outcome d shows seen final store i print writes := by
  have runs := Program.select_runs.mp runs
  split at runs
  next row found =>
    rcases replay_runs runs with ⟨same, answered⟩ | ⟨differs, answered⟩
    · exact .replayed ⟨store, .inl rfl, found⟩ same answered
    · exact .conflict ⟨store, .inl rfl, found⟩ differs answered
  next unknown =>
    rcases cancelReplaced_runs runs with refused | ⟨own, held', replacing, runs⟩
    · exact .refused unknown refused
    rcases reserveSubmission_runs runs with
      refused | ⟨stream, identity, policy, reserved, later, _, subset, runs⟩
    · exact .refused unknown refused
    obtain ⟨s, m, locks, created, kept, runs⟩ := enqueueTx_runs reserved.identity.read runs
    have inside := kept (.inr (Set.mem_insert _ _))
    refine .submitted ⟨listed, unknown, replacing, reserved, created, runs.held_subset inside, ?_⟩
    exact answer_runs (Program.acquire_runs.mp runs)

theorem Outcome.weaken (outcome : Outcome d shows seen final store i print writes)
    (subset : seen ⊆ more) : Outcome d shows more final store i print writes := by
  cases outcome with
  | replayed found same answered =>
    obtain ⟨view, known, found⟩ := found
    exact .replayed ⟨view, known.imp_right (subset ·), found⟩ same answered
  | conflict found differs answered =>
    obtain ⟨view, known, found⟩ := found
    exact .conflict ⟨view, known.imp_right (subset ·), found⟩ differs answered
  | refused unknown refused => exact .refused unknown refused
  | submitted s =>
    exact .submitted ⟨s.listed, s.unknown, s.replacing, s.reserved.weaken subset, s.created,
      s.locked, s.writes⟩

end Submissions

section Steps

variable [Primitives] [Mailboxes]

def Request.call : Request → Option Call
  | .enqueueIdempotent i | .receiveReplacing i => some i
  | _ => none

/-- A submission that gets as far as to the ledger, in the form in which it gets
there, with its fingerprint. -/
inductive Prepared : Request → Call → Fingerprint → Prop
  | enqueue {i : Call} {print : Fingerprint} (taken : i.fingerprint = .ok print) :
      Prepared (.enqueueIdempotent i) i print
  | receive {i j : Call} {print : Fingerprint} (received : j.received = .ok i)
      (taken : i.fingerprint = .ok print) : Prepared (.receiveReplacing j) i print

/-- A submission that is refused by the checks of its arguments. -/
inductive Invalid : Request → Refusal → Prop
  | enqueue {i : Call} {refusal : Refusal} (taken : i.fingerprint = .error refusal) :
      Invalid (.enqueueIdempotent i) refusal
  | arguments {i : Call} {refusal : Refusal} (received : i.received = .error refusal) :
      Invalid (.receiveReplacing i) refusal
  | receive {i j : Call} {refusal : Refusal} (received : j.received = .ok i)
      (taken : i.fingerprint = .error refusal) : Invalid (.receiveReplacing j) refusal

inductive Step (d : Catalog) (shows : Visibility Resource.Value)
    (seen : List Store) (final : Set (Resource × Mode)) (store : Store) :
    Request → List (Sigma Resource.Value) → Prop
  | queue {op : Op} {inner : List (Sigma Queue.Resource.Value)} (allowed : permitted op = true)
      (yields : op.statements.Yields store.tables (seen.map Store.tables) inner) :
      Step d shows seen final store (.queue op) (inner.map (placed Resource.table))
  | invalid {request : Request} {i : Call} {refusal : Refusal}
      {writes : List (Sigma Resource.Value)} (call : request.call = some i)
      (invalid : Invalid request refusal) (answered : Answered i.call (.refused refusal) writes) :
      Step d shows seen final store request writes
  | busy {i : Call} {writes : List (Sigma Resource.Value)}
      (answered : Answered i.call (.refused .submissionBusy) writes) :
      Step d shows seen final store (.receiveReplacing i) writes
  | handled {request : Request} {i : Call} {print : Fingerprint}
      {writes : List (Sigma Resource.Value)} (prepared : Prepared request i print)
      (outcome : Outcome d shows seen final store i print writes) :
      Step d shows seen final store request writes
  | uncancelled {i : CancelCall} {writes : List (Sigma Resource.Value)}
      (refused : Refused i.call writes) : Step d shows seen final store (.cancelPending i) writes
  | cancelled {i : CancelCall} {m m' : Message} {a : Answer}
      (found : store.message i.message = some m)
      (committed : Queue.cancelPending i.identity false i.clock m = .ok m') :
      Step d shows seen final store (.cancelPending i)
        [⟨.answer i.call, some a⟩, put i.message m']
  | configured {c : Configuration} {writes : List (Sigma Resource.Value)}
      (locked : (.identity c.identity, Mode.exclusive) ∈ final)
      (same : ∀ old, store (.identity c.identity) = some old → old.production = c.production)
      (streams : ∀ write ∈ writes, ∃ name, write.1 = .stream c.identity name) :
      Step d shows seen final store (.configure c)
        (⟨.identity c.identity, some ⟨true, c.budget, c.production⟩⟩ :: writes)

variable {shows : Visibility Resource.Value} {store : Store}
variable {held final : Set (Resource × Mode)} {seen : List Store} {known : Store → Prop}
variable {writes : List (Sigma Resource.Value)} {d : Catalog} {i : Call}

omit [Primitives] [Mailboxes] in
/-- The canonical form differs in the stream and the correlation only. -/
theorem received_ok {j : Call} (received : j.received = .ok i) :
    validKey j.key = true ∧ ∃ stream business,
      i = { j with submission := { j.submission with stream, business } } := by
  simp only [Call.received, do_eq_ok, require_eq_ok, pure_eq_ok, exists_const] at received
  obtain ⟨-, -, -, -, -, stream, -, business, -, valid, rfl⟩ := received
  exact ⟨valid, stream.name, business, rfl⟩

theorem enqueueIdempotent_runs
    (runs : (enqueueIdempotent d i).Runs shows store known held seen writes final) :
    (∃ refusal, i.fingerprint = .error refusal ∧ Answered i.call (.refused refusal) writes) ∨
      ∃ print, i.fingerprint = .ok print ∧ Outcome d shows seen final store i print writes := by
  obtain ⟨listed, runs⟩ := Program.check_runs.mp runs
  rcases ifOk_runs runs with refused | ⟨print, taken, runs⟩
  · exact .inl refused
  · exact .inr ⟨print, taken, enqueueWith_runs (by simpa using listed) runs⟩

theorem receiveReplacing_runs
    (runs : (receiveReplacing d i).Runs shows store known held seen writes final) :
    Step d shows seen final store (.receiveReplacing i) writes := by
  obtain ⟨-, runs⟩ := Program.check_runs.mp runs
  rcases ifOk_runs runs with ⟨refusal, failed, answered⟩ | ⟨j, received, runs⟩
  · exact .invalid rfl (.arguments failed) answered
  obtain ⟨valid, stream, business, rfl⟩ := received_ok received
  -- the key has been checked, so both calls compute one fingerprint
  have fingerprint (s : Submission) : Call.fingerprint { i with submission := s } =
      requestFingerprint s := by
    rw [Call.fingerprint, require, if_pos valid]
    rfl
  rcases ifOk_runs runs with ⟨refusal, failed, answered⟩ | ⟨print, taken, runs | runs⟩
  · exact .invalid rfl (.receive received ((fingerprint _).trans failed)) answered
  · obtain ⟨view, later, rfl, -, -, runs⟩ := runs
    have prepared := Prepared.receive received ((fingerprint _).trans taken)
    dsimp only at runs
    split at runs
    next row found =>
      rcases replay_runs runs with ⟨same, answered⟩ | ⟨differs, answered⟩
      · exact .handled prepared
          (.replayed ⟨view, .inr List.mem_cons_self, found⟩ same answered)
      · exact .handled prepared
          (.conflict ⟨view, .inr List.mem_cons_self, found⟩ differs answered)
    · rcases enqueueIdempotent_runs runs with ⟨refusal, failed, -⟩ | ⟨print', again, outcome⟩
      · cases ((fingerprint _).trans taken).symm.trans failed
      · obtain rfl := Except.ok.inj (((fingerprint _).trans taken).symm.trans again)
        exact .handled prepared (outcome.weaken (List.subset_cons_self _ _))
  · exact .busy (refuse_runs runs)

omit [Primitives] [Mailboxes] in
theorem configureStreams_runs {c : Configuration} {names : List Stream}
    {next : List (Sigma Resource.Value) → Statements}
    (runs : (configureStreams c names next).Runs shows store known held seen writes final) :
    ∃ own held', held ⊆ held' ∧ (∀ write ∈ own, ∃ name, write.1 = .stream c.identity name) ∧
      (next own).Runs shows store known held' seen writes final := by
  induction names generalizing held next with
  | nil => exact ⟨[], held, subset_rfl, List.forall_mem_nil _, runs⟩
  | cons name rest ih =>
    obtain ⟨own, held', subset, streams, runs⟩ := ih (Program.select_runs.mp runs)
    exact ⟨_, held', (Set.subset_insert _ _).trans subset,
      List.forall_mem_cons.mpr ⟨⟨name, rfl⟩, streams⟩, runs⟩

theorem statements_step {request : Request}
    (runs : (request.statements d).Runs shows store known held seen writes final) :
    Step d shows seen final store request writes := by
  cases request with
  | queue op =>
    obtain ⟨allowed, runs⟩ := Program.check_runs.mp runs
    obtain ⟨inner, rfl, yields⟩ := embed_runs runs
    exact .queue allowed yields
  | enqueueIdempotent i =>
    rcases enqueueIdempotent_runs runs with ⟨refusal, failed, answered⟩ | ⟨print, taken, outcome⟩
    · exact .invalid rfl (.enqueue failed) answered
    · exact .handled (.enqueue taken) outcome
  | receiveReplacing i => exact receiveReplacing_runs runs
  | cancelPending i =>
    rcases lockIdentity_runs runs with refused | ⟨identity, -, runs⟩
    · exact .uncancelled refused
    rcases ensure_runs runs with refused | ⟨-, runs⟩
    · exact .uncancelled refused
    rcases cancelPendingTx_runs runs with refused | ⟨m, m', found, committed, runs⟩
    · exact .uncancelled refused
    · rw [answer_runs runs]
      exact .cancelled found committed
  | configure c =>
    have runs := Program.select_runs.mp runs
    obtain ⟨same, runs⟩ := Program.check_runs.mp runs
    obtain ⟨own, held', subset, streams, -, rfl, rfl⟩ := configureStreams_runs runs
    refine .configured (subset (Set.mem_insert _ _)) (fun old found => ?_) streams
    simpa [found] using same

end Steps

end RelayTale.Intake
