import RelayTale.Intake.Interleaving

/-!
# Idempotent submissions

Whatever the order of concurrent and repeated calls, an identity has at most one
message under a key. A call that comes to the ledger after the submission that
was taken is answered from the ledger and writes nothing but its answer, and a
submission is recorded as a whole or not at all.
-/

namespace RelayTale.Intake

open Locking
open Queue (Message Op)

section Keys

def Keyed (store : Store) (q : IdentityID) (k : String) (id : MessageID) : Prop :=
  Owned store id q ∧ ∃ x, store (.details id) = some x ∧ x.key = k

variable {d : Catalog} {view store : Store} {q : IdentityID} {k : String} {id other : MessageID}

theorem Earlier.keyed (earlier : Earlier view store) (keyed : Keyed view q k id) :
    Keyed store q k id := by
  obtain ⟨owned, x, details, key⟩ := keyed
  exact ⟨earlier.owned owned, x, earlier.details details, key⟩

/-- A message under a key is the one of the ledger. -/
theorem Consistent.ledger_of_keyed (consistent : Consistent d store) (keyed : Keyed store q k id) :
    ∃ row, store (.ledger q k) = some row ∧ row.message = id := by
  obtain ⟨owned, x, details, rfl⟩ := keyed
  obtain ⟨y, row, details', ledger, message⟩ := consistent.owned owned
  obtain rfl := Option.mem_unique details details'
  exact ⟨row, ledger, message⟩

theorem Consistent.keyed_unique (consistent : Consistent d store) (keyed : Keyed store q k id)
    (keyed' : Keyed store q k other) : id = other := by
  obtain ⟨row, ledger, rfl⟩ := consistent.ledger_of_keyed keyed
  obtain ⟨row', ledger', rfl⟩ := consistent.ledger_of_keyed keyed'
  rw [Option.mem_unique ledger ledger']

end Keys

section Calls

variable [Primitives] [Mailboxes] {d : Catalog} {i j : Call} {print : Fingerprint}
variable {entry : Committed Request Resource.Value}

def Returns (entry : Committed Request Resource.Value) (i : Call) (a : Answer) : Prop :=
  ⟨.answer i.call, some a⟩ ∈ entry.writes

/-- What a submission does whose key is in the ledger already. Only the last two
come to the ledger. In all cases nothing but the answer is written. -/
inductive Repeats (entry : Committed Request Resource.Value) (i : Call) (row : LedgerRow) : Prop
  | invalid {refusal : Refusal} (invalid : Invalid entry.request refusal)
      (answered : Answered i.call (.refused refusal) entry.writes)
  | busy (receives : entry.request = .receiveReplacing i)
      (answered : Answered i.call (.refused .submissionBusy) entry.writes)
  | replayed {j : Call} {print : Fingerprint} (prepared : Prepared entry.request j print)
      (same : row.fingerprint = print)
      (answered : Answered i.call (.accepted row.message true) entry.writes)
  | conflict {j : Call} {print : Fingerprint} (prepared : Prepared entry.request j print)
      (differs : row.fingerprint ≠ print)
      (answered : Answered i.call (.refused .idempotencyConflict) entry.writes)

/-- A submission that was taken, with its message and recipients, its row of the
ledger, its reservation and the cancellation of the message that it replaces. -/
def Complete (entry : Committed Request Resource.Value) (i : Call) (print : Fingerprint) : Prop :=
  Prepared entry.request i print ∧ entry.before (.ledger i.identity i.key) = none ∧
    ∃ stream identity s m, Taken entry.before entry.after i print stream m ∧
      Created entry.before i identity s m

/-- The row of the ledger was written by a submission of the log. -/
def Traced (log : List (Committed Request Resource.Value)) (q : IdentityID) (k : String)
    (row : LedgerRow) : Prop :=
  ∃ entry ∈ log, ∃ i print, Complete entry i print ∧ i.identity = q ∧ i.key = k ∧
    row = ⟨print, i.id⟩

omit [Primitives] in
theorem Prepared.call {request : Request} (prepared : Prepared request j print)
    (call : request.call = some i) :
    j.call = i.call ∧ j.identity = i.identity ∧ j.key = i.key ∧ j.id = i.id := by
  cases prepared with
  | enqueue =>
    obtain rfl := Option.some.inj call
    exact ⟨rfl, rfl, rfl, rfl⟩
  | receive received =>
    obtain rfl := Option.some.inj call
    obtain ⟨-, stream, business, rfl⟩ := received_ok received
    exact ⟨rfl, rfl, rfl, rfl⟩

omit [Primitives] in
/-- A request comes to the ledger in one form. -/
theorem Prepared.unique {request : Request} {other : Fingerprint}
    (prepared : Prepared request i print) (again : Prepared request j other) : i = j := by
  cases prepared with
  | enqueue =>
    cases again
    rfl
  | receive received =>
    cases again with
    | receive received' => exact Except.ok.inj (received.symm.trans received')

omit [Primitives] [Mailboxes] in
theorem Answered.returns {a b : Answer} (answered : Answered i.call a entry.writes)
    (returns : Returns entry i b) : b = a := by
  unfold Returns at returns
  rw [answered] at returns
  simpa using returns

def Stepped (d : Catalog) (entry : Committed Request Resource.Value) : Prop :=
  Consistent d entry.before ∧ (∀ view ∈ entry.seen, Earlier view entry.before) ∧
    ∃ final, Step d (Shows agree) entry.seen final entry.before entry.request entry.writes

omit [Primitives] [Mailboxes] in
theorem found_before {row : LedgerRow} (earlier : ∀ view ∈ entry.seen, Earlier view entry.before)
    (found : ∃ view, (view = entry.before ∨ view ∈ entry.seen) ∧
      view (.ledger j.identity j.key) = some row) :
    entry.before (.ledger j.identity j.key) = some row := by
  obtain ⟨view, rfl | inside, found⟩ := found
  · exact found
  · exact (earlier view inside).ledger found

/-- Every submission repeats one that was taken, is refused, or is recorded as a whole. -/
theorem Stepped.cases (stepped : Stepped d entry) (call : entry.request.call = some i) :
    (∃ row, entry.before (.ledger i.identity i.key) = some row ∧ Repeats entry i row) ∨
    entry.before (.ledger i.identity i.key) = none ∧ Refused i.call entry.writes ∨
    ∃ j print, Complete entry j print ∧ j.identity = i.identity ∧ j.key = i.key ∧ j.id = i.id ∧
      ∀ a, Returns entry i a → a = j.committed := by
  obtain ⟨-, earlier, final, step⟩ := stepped
  have refused {refusal : Refusal} (answered : Answered i.call (.refused refusal) entry.writes)
      (repeats : ∀ row, Repeats entry i row) :
      (∃ row, entry.before (.ledger i.identity i.key) = some row ∧ Repeats entry i row) ∨
        entry.before (.ledger i.identity i.key) = none ∧ Refused i.call entry.writes := by
    cases found : entry.before (.ledger i.identity i.key) with
    | none => exact .inr ⟨rfl, refusal, answered⟩
    | some row => exact .inl ⟨row, rfl, repeats row⟩
  generalize request : entry.request = r at step call
  generalize written : entry.writes = w at step
  cases step with
  | queue | uncancelled | cancelled | configured => cases call
  | invalid call' invalid answered =>
    obtain rfl := Option.mem_unique call' call
    subst request written
    rcases refused answered fun row => .invalid invalid answered with repeats | absent
    · exact .inl repeats
    · exact .inr (.inl absent)
  | @busy i' _ answered =>
    obtain rfl := Option.some.inj call
    subst written
    rcases refused answered fun row => .busy request answered with repeats | absent
    · exact .inl repeats
    · exact .inr (.inl absent)
  | @handled _ j print _ prepared outcome =>
    subst request written
    obtain ⟨sameCall, sameIdentity, sameKey, sameID⟩ := prepared.call call
    rw [← sameIdentity, ← sameKey]
    cases outcome with
    | @replayed row found same answered =>
      exact .inl ⟨row, found_before earlier found, .replayed prepared same (sameCall ▸ answered)⟩
    | @conflict row found differs answered =>
      exact .inl ⟨row, found_before earlier found, .conflict prepared differs (sameCall ▸ answered)⟩
    | refused unknown refused => exact .inr (.inl ⟨unknown, sameCall ▸ refused⟩)
    | @submitted own stream identity policy s m submitted =>
      refine .inr (.inr ⟨j, print, ⟨prepared, submitted.unknown, stream, identity, s, m,
        submitted.taken, submitted.created⟩, rfl, rfl, sameID, fun a returns => ?_⟩)
      unfold Returns at returns
      rw [submitted.writes, ← sameCall] at returns
      have outside : ∀ write ∈ put j.id m :: own, write.1 ≠ .answer j.call := by
        obtain ⟨inner, rfl⟩ := submitted.replacing.inner
        rw [put_placed, ← List.map_cons]
        intro write inside
        obtain ⟨part, -, rfl⟩ := List.mem_map.mp inside
        exact nofun
      simp only [List.mem_cons, Sigma.mk.injEq, reduceCtorEq, false_and, false_or, true_and,
        heq_eq_eq] at returns
      rcases returns with same | inside
      · exact Option.some.inj same
      · exact absurd rfl (outside _ (List.mem_cons.mpr inside))

theorem Complete.keyed (complete : Complete entry j print) :
    Keyed entry.after j.identity j.key j.id := by
  obtain ⟨-, -, stream, identity, s, m, taken, created⟩ := complete
  refine ⟨⟨m, taken.message, created.apiKey⟩, j.details, ?_, rfl⟩
  rw [taken.details, if_pos rfl]

end Calls

section Runs

variable [Primitives] [Mailboxes] (d : Catalog) (events later : List (Event Request))

/-- The rows of the ledger come from submissions that were committed as a whole. -/
theorem ledger_traced {q : IdentityID} {k : String} {row : LedgerRow}
    (found : (interleaving d events).store (.ledger q k) = some row) :
    Traced (interleaving d events).log q k row := by
  have chained := run_chained (Request.statements d) emptyStore events
  refine chained.along (P := fun log store => store (.ledger q k) = some row → Traced log q k row)
    nofun (fun earlier entry rest split ih now => ?_) found
  have member : entry ∈ (interleaving d events).log := by
    rw [show (interleaving d events).log = _ from split]
    simp
  obtain ⟨consistent, older, final, step⟩ := interleaving_steps d events member
  have old (before : entry.before (.ledger q k) = some row) :
      Traced (earlier ++ [entry]) q k row := by
    obtain ⟨first, inside, traced⟩ := ih before
    exact ⟨first, List.mem_append_left _ inside, traced⟩
  rcases step.kind.plain_or consistent.tables with
    plain | ⟨i, print, writes, own, stream, identity, policy, s, m, prepared, submitted, taken⟩
  · exact old ((plain.ledger q k).symm.trans now)
  · have written := (taken.ledger q k).symm.trans now
    split at written
    next same =>
      refine ⟨entry, by simp, i, print, ⟨prepared, submitted.unknown, stream, identity, s, m,
        taken, submitted.created⟩, same.1.symm, same.2.symm, (Option.some.inj written).symm⟩
    · exact old written

/-- Submissions are idempotent in every interleaving, with failures at any statement
and with commits of which the caller does not learn. -/
theorem submissions_idempotent :
    (∀ q k id other, Keyed (interleaving d events).store q k id →
      Keyed (interleaving d (events ++ later)).store q k other → id = other) ∧
    (∀ entry ∈ (interleaving d events).log, ∀ i, entry.request.call = some i →
      (∀ id replayed, Returns entry i (.accepted id replayed) →
        Keyed (interleaving d events).store i.identity i.key id) ∧
      (∀ row, entry.before (.ledger i.identity i.key) = some row →
        Keyed (interleaving d events).store i.identity i.key row.message ∧ Repeats entry i row) ∧
      ((∃ a, Answered i.call a entry.writes) ∨ ∃ j print, Complete entry j print ∧
        j.identity = i.identity ∧ j.key = i.key ∧ j.id = i.id)) ∧
    (∀ q k row, (interleaving d events).store (.ledger q k) = some row →
      Traced (interleaving d events).log q k row) ∧
    (∀ id q, Owned (interleaving d events).store id q →
      ∃ k row, (interleaving d events).store (.ledger q k) = some row ∧ row.message = id) ∧
    (∀ id r, (interleaving d events).store (.quota id) = some r →
      Owned (interleaving d events).store id r.identity) ∧
    Chained emptyStore (interleaving d events).log (interleaving d events).store := by
  have history := interleaving_history d events
  refine ⟨fun q k id other keyed keyed' => ?_, fun entry member i call => ?_,
    fun q k row found => ledger_traced d events found, fun id q owned => ?_,
    fun id r found => history.current.reserved found,
    run_chained (Request.statements d) emptyStore events⟩
  · have keyed := (interleaving_later d events later).keyed keyed
    exact (interleaving_history d (events ++ later)).current.keyed_unique keyed keyed'
  · have stepped : Stepped d entry := interleaving_steps d events member
    have serial := history.serial entry member
    have reached := (((request_rule d).after serial).2).trans (history.reached entry member)
    -- the row that is found names the message from then on
    have recorded {row : LedgerRow} (found : entry.before (.ledger i.identity i.key) = some row) :
        Keyed (interleaving d events).store i.identity i.key row.message :=
      reached.keyed (stepped.1.recorded found)
    rcases stepped.cases call with
      ⟨row, found, repeats⟩ | ⟨unknown, refusal, answered⟩ |
      ⟨j, print, complete, identity, key, id, only⟩
    · refine ⟨fun id replayed returns => ?_, fun row' found' => ?_, .inl ?_⟩
      · cases repeats with
        | invalid _ answered => cases answered.returns returns
        | busy _ answered => cases answered.returns returns
        | conflict _ _ answered => cases answered.returns returns
        | replayed _ _ answered =>
          cases answered.returns returns
          exact recorded found
      · obtain rfl := Option.mem_unique found found'
        exact ⟨recorded found, repeats⟩
      · cases repeats with
        | invalid _ answered => exact ⟨_, answered⟩
        | busy _ answered => exact ⟨_, answered⟩
        | replayed _ _ answered => exact ⟨_, answered⟩
        | conflict _ _ answered => exact ⟨_, answered⟩
    · refine ⟨fun id replayed returns => ?_, fun row found => ?_, .inl ⟨_, answered⟩⟩
      · cases answered.returns returns
      · cases unknown.symm.trans found
    · refine ⟨fun id' replayed returns => ?_, fun row found => ?_,
        .inr ⟨j, print, complete, identity, key, id⟩⟩
      · have same := only _ returns
        unfold Call.committed at same
        split at same
        · obtain ⟨rfl, -⟩ := Answer.accepted.inj same
          rw [← identity, ← key]
          exact (history.reached entry member).keyed complete.keyed
        · cases same
      · rw [← identity, ← key, complete.2.1] at found
        cases found
  · obtain ⟨x, row, -, ledger, message⟩ := history.current.owned owned
    exact ⟨x.key, row, ledger, message⟩

end Runs

section Witness

@[reducible] def anyMailbox : Mailboxes := ⟨fun _ => true, fun _ => []⟩

attribute [local instance] Queue.plain anyMailbox

def drawer : Catalog := ⟨[0, 1, 2], by decide⟩

def shop : Configuration where
  identity := 5
  budget := { minute := 3 }
  production := true
  streams := fun _ => none

def clockAt (now : Int) : Clocks := ⟨now, now, now, now, now, now, now, now, now, now⟩

def order (call : CallID) (id : MessageID) (address : Address) (acknowledged : Bool) : Call where
  call
  identity := 5
  key := "order-1"
  submission := {
    id
    sender := "shop@example.org"
    recipients := [address]
    archiveSHA256 := ascii "0123456789abcdef0123456789abcdef0123456789abcdef0123456789abcdef"
    archiveSize := 10 }
  recipientIDs := [id]
  clocks := clockAt 1
  acknowledged

/-- The shop does not learn that its order was taken, repeats it and then sends
another one under the same key. -/
def repeatedOrder : List (Event Request) :=
  alone 0 (.configure shop) 20 ++
    alone 1 (.enqueueIdempotent (order 1 0 "a@example.org" false)) 30 ++
    alone 2 (.receiveReplacing (order 2 1 "a@example.org" true)) 30 ++
    alone 3 (.enqueueIdempotent (order 3 2 "b@example.org" true)) 30

def tells (call : CallID) (a : Answer) : Sigma Resource.Value → Bool
  | ⟨.answer told, some b⟩ => decide (told = call ∧ b = a)
  | _ => false

theorem tells_eq {call : CallID} {a : Answer} {write : Sigma Resource.Value}
    (told : tells call a write = true) : write = ⟨.answer call, some a⟩ := by
  unfold tells at told
  split at told
  · obtain ⟨rfl, rfl⟩ := of_decide_eq_true told
    rfl
  · cases told

/-- A call under the key of the order, with the answer that it gets. -/
def answersOrder (a : Answer) (entry : Committed Request Resource.Value) : Bool :=
  entry.request.call.any fun i => decide (i.identity = 5 ∧ i.key = "order-1") &&
    (entry.before (.ledger 5 "order-1")).isSome && entry.writes.any (tells i.call a)

theorem submissions_idempotent_of_repeatedOrder :
    (∃ entry ∈ (interleaving drawer repeatedOrder).log, ∃ i row, entry.request.call = some i ∧
      Returns entry i (.accepted 0 true) ∧ Repeats entry i row) ∧
    Keyed (interleaving drawer repeatedOrder).store 5 "order-1" 0 ∧
    (∀ other, Keyed (interleaving drawer (repeatedOrder ++ [.rollback 1])).store 5 "order-1" other →
      0 = other) ∧
    ∃ row, (interleaving drawer repeatedOrder).store (.ledger 5 "order-1") = some row ∧
      Traced (interleaving drawer repeatedOrder).log 5 "order-1" row := by
  obtain ⟨unique, entries, traced, -⟩ :=
    submissions_idempotent drawer repeatedOrder [.rollback 1]
  have logged : (interleaving drawer repeatedOrder).log[2]?.any (answersOrder (.accepted 0 true)) =
      true := by
    decide +kernel
  obtain ⟨entry, found, answers⟩ := (Option.any_eq_true _ _).mp logged
  obtain ⟨i, call, holds⟩ := (Option.any_eq_true _ _).mp answers
  simp only [Bool.and_eq_true, decide_eq_true_eq, Option.isSome_iff_exists,
    List.any_eq_true] at holds
  obtain ⟨⟨⟨identity, key⟩, row, recorded⟩, write, written, told⟩ := holds
  obtain rfl := tells_eq told
  have returns : Returns entry i (.accepted 0 true) := written
  have member := List.mem_of_getElem? found
  obtain ⟨success, repeats, -⟩ := entries entry member i call
  have keyed := success 0 true returns
  rw [identity, key] at keyed repeats
  have stored : ((interleaving drawer repeatedOrder).store (.ledger 5 "order-1")).isSome = true := by
    decide +kernel
  obtain ⟨last, ledger⟩ := Option.isSome_iff_exists.mp stored
  exact ⟨⟨entry, member, i, row, call, returns, (repeats row recorded).2⟩, keyed,
    fun other => unique 5 "order-1" 0 other keyed, last, ledger, traced 5 "order-1" last ledger⟩

end Witness

end RelayTale.Intake
