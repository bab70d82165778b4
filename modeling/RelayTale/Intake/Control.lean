import RelayTale.Intake.Ledger

/-!
# Cancellation and replacement exclude delivery

A cancellation is refused as long as an attempt is in progress and for ever once
one has been allowed to send. After it the message is not written any more,
except that its archive can be given up. So of a message and its replacement at
most one is ever sent.
-/

namespace RelayTale.Intake

open Locking
open Queue (Message Op)

section Messages

def Armed (store : Store) (id : MessageID) : Prop :=
  ∃ m, store.message id = some m ∧ ∃ a ∈ m.attempts, a.dataArmedAt ≠ none

def Cancelled (store : Store) (id : MessageID) : Prop :=
  ∃ m, store.message id = some m ∧ m.cancelledAt.isSome = true

/-- The message is as it was but for the columns of its archive. -/
def Frozen (store later : Store) (id : MessageID) : Prop :=
  ∃ m available, store.message id = some m ∧
    later.message id = some { m with archiveAvailable := available }

variable {d : Catalog} {view store : Store} {id : MessageID}

theorem Earlier.armed (earlier : Earlier view store) (armed : Armed view id) : Armed store id := by
  obtain ⟨m, found, a, member, permitted⟩ := armed
  obtain ⟨m', reached, successor⟩ := earlier.tables.messages found
  obtain ⟨b, inside, survives⟩ := successor.attempts a member
  refine ⟨m', reached, b, inside, ?_⟩
  rw [(survives.fated (.inl permitted)).1]
  exact permitted

theorem Earlier.frozen (earlier : Earlier view store)
    (cancelled : Cancelled view id) : Frozen view store id := by
  obtain ⟨m, found, cancelled⟩ := cancelled
  obtain ⟨m', reached, lasts⟩ := earlier.messages found
  obtain ⟨available, rfl⟩ := lasts.cancelled cancelled
  exact ⟨m, available, found, reached⟩

theorem Frozen.cancelled (frozen : Frozen view store id) (cancelled : Cancelled view id) :
    Cancelled store id := by
  obtain ⟨m, available, found, reached⟩ := frozen
  obtain ⟨n, again, cancelled⟩ := cancelled
  obtain rfl := Option.mem_unique found again
  exact ⟨_, reached, cancelled⟩

theorem Consistent.unarmed (consistent : Consistent d store) (cancelled : Cancelled store id) :
    ¬ Armed store id := by
  rintro ⟨m, found, a, member, permitted⟩
  obtain ⟨n, again, cancelled⟩ := cancelled
  obtain rfl := Option.mem_unique found again
  exact permitted (((consistent.tables found).cancelled cancelled).unarmed a member).2

end Messages

section Runs

variable [Primitives] [Mailboxes] (d : Catalog) (events later : List (Event Request))

/-- A message that is cancelled at some time was and will be sent at no time. -/
theorem cancelled_never_armed {id : MessageID}
    (cancelled : Cancelled (interleaving d events).store id ∨
      Cancelled (interleaving d (events ++ later)).store id) :
    ¬ Armed (interleaving d events).store id ∧
      ¬ Armed (interleaving d (events ++ later)).store id := by
  have reaches := interleaving_later d events later
  have first := (interleaving_history d events).current
  have last := (interleaving_history d (events ++ later)).current
  have finally_ : Cancelled (interleaving d (events ++ later)).store id := by
    rcases cancelled with early | late
    · exact (reaches.frozen early).cancelled early
    · exact late
  have unarmed := last.unarmed finally_
  exact ⟨fun armed => unarmed (reaches.armed armed), unarmed⟩

/-- Whatever cancels a message has found it without delivery evidence. -/
theorem Kind.cancels {shows : Visibility Resource.Value} {seen : List Store}
    {final : Set (Resource × Mode)} {store after : Store} {request : Request} {d : Catalog}
    (kind : Kind d shows seen final store after request) (orderly : Queue.Orderly store.tables) {id : MessageID} {m : Message}
    (found : store.message id = some m) (uncancelled : m.cancelledAt = none)
    (cancelled : Cancelled after id) : Queue.uncancellable m = false := by
  obtain ⟨m', reached, cancelled⟩ := cancelled
  have unchanged (same : after.message id = store.message id) : Queue.uncancellable m = false := by
    obtain rfl := Option.some.inj (reached.symm.trans (same.trans found))
    rw [uncancelled] at cancelled
    cases cancelled
  have acted {op : Op} (acts : Acts op store after) : Queue.uncancellable m = false := by
    obtain ⟨views, inner, yields, same⟩ := acts
    have effect := (Queue.statements_effects yields).messages id
    rw [← same, show after.tables (.message id) = some m' from reached] at effect
    exact effect.cancels orderly found uncancelled cancelled
  cases kind with
  | answered rest => exact unchanged (rest _ nofun)
  | queue acts => exact acted acts
  | submitted _ _ acts => exact acted acts
  | configured _ rest => exact unchanged (rest _ nofun nofun)

/-- A submission that is not taken leaves every message as it was. -/
theorem Stepped.untouched {d : Catalog} {entry : Committed Request Resource.Value} {i : Call}
    (stepped : Stepped d entry) (call : entry.request.call = some i) :
    (∃ j print, Complete entry j print) ∨
      ∀ id, Store.message entry.after id = Store.message entry.before id := by
  have answered {a : Answer} (answered : Answered i.call a entry.writes) (id : MessageID) :
      Store.message entry.after id = Store.message entry.before id := answered.rest _ nofun
  rcases stepped.cases call with
    ⟨row, -, repeats⟩ | ⟨-, refusal, refused⟩ | ⟨j, print, complete, -⟩
  · refine .inr ?_
    cases repeats with
    | invalid _ told => exact answered told
    | busy _ told => exact answered told
    | replayed _ _ told => exact answered told
    | conflict _ _ told => exact answered told
  · exact .inr (answered refused)
  · exact .inl ⟨j, print, complete⟩

/-- Cancellation and replacement exclude delivery in every interleaving. -/
theorem cancellation_excludes_delivery :
    (∀ id, Cancelled (interleaving d events).store id →
      Frozen (interleaving d events).store (interleaving d (events ++ later)).store id ∧
      ∃ m, (interleaving d (events ++ later)).store (.table (.message id)) = some m ∧
        m.Withdrawn) ∧
    (∀ entry ∈ (interleaving d events).log, ∀ id m, entry.before (.table (.message id)) = some m →
      m.cancelledAt = none → Cancelled entry.after id →
      m.lockedBy = none ∧ ∀ a ∈ m.attempts, a.result ≠ .pending ∧ a.dataArmedAt = none) ∧
    (∀ id, Cancelled (interleaving d (events ++ later)).store id →
      ¬ Armed (interleaving d events).store id ∧
        ¬ Armed (interleaving d (events ++ later)).store id) ∧
    (∀ new old, Replaces (interleaving d (events ++ later)).store new old →
      Cancelled (interleaving d (events ++ later)).store old ∧
      ¬ Armed (interleaving d events).store old ∧
        ¬ Armed (interleaving d (events ++ later)).store old) ∧
    (∀ new other old, Replaces (interleaving d events).store new old →
      Replaces (interleaving d events).store other old → new = other) ∧
    (∀ id, ¬ Relation.TransGen (Replaces (interleaving d events).store) id id) ∧
    (∀ entry ∈ (interleaving d events).log, ∀ i, entry.request.call = some i →
      (∃ j print, Complete entry j print) ∨
        ∀ id, entry.after (.table (.message id)) = entry.before (.table (.message id))) ∧
    Chained emptyStore (interleaving d events).log (interleaving d events).store := by
  have history := interleaving_history d events
  have last := (interleaving_history d (events ++ later)).current
  have reaches := interleaving_later d events later
  refine ⟨fun id cancelled => ?_, fun entry member id m found uncancelled cancelled => ?_,
    fun id cancelled => cancelled_never_armed d events later (.inr cancelled),
    fun new old link => ?_, fun new other old => history.current.single, history.current.acyclic,
    fun entry member i call => ?_, run_chained (Request.statements d) emptyStore events⟩
  · have frozen := reaches.frozen cancelled
    obtain ⟨m, found, still⟩ := frozen.cancelled cancelled
    exact ⟨frozen, m, found, (last.tables found).cancelled still⟩
  · obtain ⟨consistent, earlier, final, step⟩ := interleaving_steps d events member
    have evidence := step.kind.cancels consistent.tables found uncancelled cancelled
    obtain ⟨unlocked, -, attempts⟩ := Queue.cancellable_status evidence
    exact ⟨unlocked, attempts⟩
  · have cancelled := last.replaced link
    exact ⟨cancelled, cancelled_never_armed d events later (.inr cancelled)⟩
  · exact Stepped.untouched (interleaving_steps d events member) call

end Runs

section Witness

attribute [local instance] Queue.plain anyMailbox

def replacement (call : CallID) (id : MessageID) (key : String) : Call :=
  let first := order call id "b@example.org" true
  { first with key, submission := { first.submission with replaces := some 0 } }

/-- The first order is replaced, and the second replacement comes too late. -/
def replacedRun : List (Event Request) :=
  alone 0 (.configure shop) 20 ++
    alone 1 (.enqueueIdempotent (order 1 0 "a@example.org" true)) 30 ++
    alone 2 (.enqueueIdempotent (replacement 2 1 "order-2")) 40 ++
    alone 3 (.enqueueIdempotent (replacement 3 2 "order-3")) 40

def cancelsOrder (entry : Committed Request Resource.Value) : Bool :=
  (entry.before (.table (.message 0))).any (·.cancelledAt.isNone) &&
    (entry.after (.table (.message 0))).any (·.cancelledAt.isSome)

theorem cancellation_excludes_delivery_of_replacedRun :
    Replaces (interleaving drawer replacedRun).store 1 0 ∧
    Cancelled (interleaving drawer replacedRun).store 0 ∧
    ¬ Armed (interleaving drawer replacedRun).store 0 ∧
    (∃ m, (interleaving drawer replacedRun).store (.table (.message 0)) = some m ∧ m.Withdrawn) ∧
    (∃ entry ∈ (interleaving drawer replacedRun).log, ∃ m,
      entry.before (.table (.message 0)) = some m ∧ m.lockedBy = none ∧ Cancelled entry.after 0) ∧
    (∀ other, Replaces (interleaving drawer replacedRun).store other 0 → 1 = other) ∧
    ∃ entry ∈ (interleaving drawer replacedRun).log, ∃ i, entry.request.call = some i ∧
      i.key = "order-3" ∧ ((∃ j print, Complete entry j print) ∨
        ∀ id, entry.after (.table (.message id)) = entry.before (.table (.message id))) := by
  obtain ⟨frozen, found, -, replaced, single, -, failed, -⟩ :=
    cancellation_excludes_delivery drawer replacedRun []
  rw [List.append_nil] at frozen replaced
  have linked : ((interleaving drawer replacedRun).store (.details 1)).any
      (fun x => decide (x.replaces = some 0)) = true := by
    decide +kernel
  obtain ⟨x, details, target⟩ := (Option.any_eq_true _ _).mp linked
  have link : Replaces (interleaving drawer replacedRun).store 1 0 :=
    ⟨x, details, of_decide_eq_true target⟩
  obtain ⟨cancelled, unarmed, -⟩ := replaced 1 0 link
  have logged : (interleaving drawer replacedRun).log[2]?.any cancelsOrder = true := by
    decide +kernel
  obtain ⟨entry, at_, cancels⟩ := (Option.any_eq_true _ _).mp logged
  obtain ⟨open_, closed⟩ := Bool.and_eq_true_iff.mp cancels
  obtain ⟨m, before, uncancelled⟩ := (Option.any_eq_true _ _).mp open_
  have after : Cancelled entry.after 0 := (Option.any_eq_true _ _).mp closed
  have member := List.mem_of_getElem? at_
  have free := (found entry member 0 m before (Option.isNone_iff_eq_none.mp uncancelled) after).1
  have refused : (interleaving drawer replacedRun).log[3]?.any (fun entry =>
      entry.request.call.any fun i => decide (i.key = "order-3")) = true := by
    decide +kernel
  obtain ⟨last, at_, called⟩ := (Option.any_eq_true _ _).mp refused
  obtain ⟨i, call, key⟩ := (Option.any_eq_true _ _).mp called
  have inside := List.mem_of_getElem? at_
  exact ⟨link, cancelled, unarmed, (frozen 0 cancelled).2, ⟨entry, member, m, before, free, after⟩,
    fun other => single 1 other 0 link, last, inside, i, call, of_decide_eq_true key,
    failed last inside i call⟩

end Witness

end RelayTale.Intake
