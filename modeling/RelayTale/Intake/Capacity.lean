import RelayTale.Foundation.Sums
import RelayTale.Intake.Ledger

/-!
# Budgets and capacity are never oversold

A submission sums up the reservations and counts the scheduled messages of its
identity while it holds the row of the identity. Nobody else adds to them until
it commits, and what the queue does meanwhile only takes messages away. So the
limits hold with the new message included, at the commit and at every later
reading of the clock.
-/

namespace RelayTale.Intake

open Locking Sums
open Queue (Message unfinishedStatuses)

section Totals

variable {q : IdentityID} {clock t : Int}

def unitsOf (store : Store) (q : IdentityID) (t : Int) (stream : Option Stream) (span : Int)
    (id : MessageID) : Nat :=
  (store (.quota id)).elim 0 (·.unitsIn q t stream span)

def whenScheduled (store : Store) (q : IdentityID) (t : Int) (weight : MessageID → Nat)
    (id : MessageID) : Nat :=
  if (store.message id).any (scheduled q t) then weight id else 0

theorem unitsOf_filter (store : Store) (q : IdentityID) (t : Int) (stream : Option Stream)
    (span : Int) (id : MessageID) : unitsOf store q t stream span id =
      ((store (.quota id)).filter (·.identity = q)).elim 0 (·.unitsIn q t stream span) := by
  unfold unitsOf
  cases store (.quota id) with
  | none => rfl
  | some r =>
    by_cases own : r.identity = q
    · have kept : Option.filter (fun r : Reservation => decide (r.identity = q)) (some r) = some r :=
        if_pos (decide_eq_true own)
      rw [kept]
    · have dropped : Option.filter (fun r : Reservation => decide (r.identity = q)) (some r) = none :=
        if_neg fun same => own (of_decide_eq_true same)
      rw [dropped]
      exact if_neg fun within => own within.1

theorem unitsIn_anti (later : clock ≤ t) (stream : Option Stream) (span : Int) (r : Reservation) :
    r.unitsIn q t stream span ≤ r.unitsIn q clock stream span := by
  unfold Reservation.unitsIn
  split
  next within =>
    rw [if_pos ⟨within.1, within.2.1, by omega⟩]
  · exact Nat.zero_le _

theorem unitsIn_le (stream : Option Stream) (span : Int) (r : Reservation) :
    r.unitsIn q t stream span ≤ r.units := by
  unfold Reservation.unitsIn
  split
  · exact le_rfl
  · exact Nat.zero_le _

theorem scheduled_length (d : Catalog) (view : Store) : (scheduledMessages d view q t).length =
    (d.messages.map (whenScheduled view q t fun _ => 1)).sum := by
  have ones : (scheduledMessages d view q t).length =
      ((scheduledMessages d view q t).map fun _ => 1).sum := by simp
  exact ones.trans (sum_filter _ _ _)

theorem scheduled_bytes (d : Catalog) (view : Store) : scheduledBytes d view q t =
    (d.messages.map (whenScheduled view q t (emlSize view))).sum := sum_filter _ _ _

theorem scheduled_iff {m : Message} : scheduled q t m = true ↔ m.apiKey = some q ∧
    m.production = true ∧ (∃ earliest, m.scheduleAt = some earliest ∧ t < earliest) ∧
    m.status ∈ unfinishedStatuses := by
  simp [scheduled, Option.any_eq_true, and_assoc]

theorem Earlier.scheduled {view store : Store} (earlier : Earlier view store) {id : MessageID}
    {m m' : Message} (found : view.message id = some m) (reached : store.message id = some m')
    (later : clock ≤ t) (waits : scheduled q t m' = true) : scheduled q clock m = true := by
  obtain ⟨n, again, lasts⟩ := earlier.messages found
  obtain rfl := Option.mem_unique reached again
  have fixed : (m'.production, m'.apiKey, m'.scheduleAt, m'.expiresAt) =
      (m.production, m.apiKey, m.scheduleAt, m.expiresAt) := lasts.fixed
  simp only [Prod.mk.injEq] at fixed
  obtain ⟨owner, production, ⟨earliest, schedule, future⟩, unfinished⟩ := scheduled_iff.mp waits
  have production := fixed.1.symm.trans production
  refine scheduled_iff.mpr ⟨fixed.2.1.symm.trans owner, production,
    ⟨earliest, fixed.2.2.1.symm.trans schedule, by omega⟩, ?_⟩
  by_contra finished
  exact earlier.finished found reached production finished unfinished

end Totals

section Reservations

variable [Primitives] {d : Catalog} {seen : List Store} {final : Set (Resource × Mode)}
variable {store after : Store} {i : Call} {print : Fingerprint} {stream : Stream}
variable {identity : Identity} {policy : StreamPolicy} {s : Queue.Submission} {m : Message}
variable {writes own : List (Sigma Resource.Value)} {q : IdentityID} {t clock : Int}

def Within (store : Store) (q : IdentityID) (stream : Option Stream) (b : Budget) (t : Int) : Prop :=
  ∀ limit ∈ b.limits, limit.2 ≠ 0 → ∀ ids : List MessageID, ids.Nodup →
    (ids.map (unitsOf store q t stream limit.1)).sum ≤ limit.2

omit [Primitives] in
theorem shown_identity {view : Store} (shown : ShownUnder (Shows agree) store q view) :
    SameIdentity q view store := by
  obtain ⟨held, inside, shows⟩ := shown
  exact (shows _ inside).2

omit [Primitives] in
/-- The new reservation is the only one since the sums were read. -/
theorem Taken.used_le (taken : Taken store after i print stream m) {view : Store}
    (same : SameIdentity i.identity view store) (later : clock ≤ t) (name : Option Stream)
    (span : Int) : (d.messages.map (unitsOf after i.identity t name span)).sum ≤
      used d view i.identity clock name span + i.units := by
  refine sum_le_sum_add d.nodup i.id (fun id other => ?_) ?_
  · have kept : after (.quota id) = store (.quota id) := by rw [taken.quota, if_neg other]
    have shown : unitsOf store i.identity t name span id =
        unitsOf view i.identity t name span id := by
      rw [unitsOf_filter, unitsOf_filter, same.quota]
    unfold unitsOf at shown ⊢
    rw [kept, shown]
    cases view (.quota id) with
    | none => exact le_rfl
    | some r => exact unitsIn_anti later name span r
  · unfold unitsOf
    rw [taken.quota, if_pos rfl]
    exact (unitsIn_le name span (i.reservation stream)).trans (Nat.le_add_left _ _)

omit [Primitives] in
theorem Taken.within (taken : Taken store after i print stream m) {view : Store} {b : Budget}
    {name : Option Stream} (consistent : Consistent d after)
    (same : SameIdentity i.identity view store) (later : clock ≤ t)
    (admitted : b.admits i.units (used d view i.identity clock name) = true) :
    Within after i.identity name b t := by
  intro limit member nonzero ids distinct
  have room := of_decide_eq_true (List.all_eq_true.mp admitted limit member)
  have bound := room.resolve_left nonzero
  refine (sum_le_sum_of_support distinct d.nodup fun id _ counts => ?_).trans
    ((taken.used_le same later name limit.1).trans bound)
  cases found : after (.quota id) with
  | none => simp [unitsOf, found] at counts
  | some r => exact consistent.listed (consistent.reserved found)

/-- What a submission has read of its limits, and that they hold with it included. -/
structure Budgeted (entry : Committed Request Resource.Value) (i : Call) (identity : Identity)
    (stream : Stream) (policy : StreamPolicy) : Prop where
  named : canonicalStream i.submission.stream = .ok stream
  read : entry.before (.identity i.identity) = some identity
  readStream : entry.before (.stream i.identity stream) = some policy
  reserved : entry.after (.quota i.id) = some (i.reservation stream)
  identity : ∀ t, i.clocks.usage ≤ t → Within entry.after i.identity none identity.budget t
  stream : ∀ t, i.clocks.streamUsage ≤ t →
    Within entry.after i.identity (some stream) policy.budget t

theorem Submitted.budgeted {entry : Committed Request Resource.Value}
    (submitted : Submitted d (Shows agree) entry.seen final entry.before i print writes own stream
      identity policy s m)
    (taken : Taken entry.before entry.after i print stream m)
    (consistent : Consistent d entry.after) : Budgeted entry i identity stream policy := by
  have reserved := submitted.reserved
  obtain ⟨usage, -, shown, admitted⟩ := reserved.identity.admitted
  obtain ⟨reading, -, shownPolicy, read⟩ := reserved.policy.read
  obtain ⟨streamUsage, -, shownStream, admittedStream⟩ := reserved.policy.admitted
  constructor
  case named => exact reserved.named
  case read => exact reserved.identity.read
  case readStream => exact ((shown_identity shownPolicy).streams stream).trans read
  case reserved => rw [taken.quota, if_pos rfl]
  case identity => exact fun t later => taken.within consistent (shown_identity shown) later admitted
  case stream =>
    exact fun t later => taken.within consistent (shown_identity shownStream) later admittedStream

end Reservations

section Schedules

variable [Primitives] [Mailboxes] {d : Catalog} {seen : List Store} {final : Set (Resource × Mode)}
variable {store after : Store} {i : Call} {print : Fingerprint} {stream : Stream}
variable {identity : Identity} {policy : StreamPolicy} {s : Queue.Submission} {m : Message}
variable {writes own : List (Sigma Resource.Value)} {q : IdentityID} {t clock : Int}

def WithinCapacity (store : Store) (q : IdentityID) (t : Int) : Prop :=
  ∀ ids : List MessageID, ids.Nodup →
    (∀ id ∈ ids, ∃ m, store.message id = some m ∧ scheduled q t m = true) →
    ids.length ≤ scheduleLimit ∧ (ids.map (emlSize store)).sum ≤ scheduleBytes

def Bounded (d : Catalog) (store : Store) (q : IdentityID) (t : Int) : Prop :=
  (d.messages.map (whenScheduled store q t fun _ => 1)).sum ≤ scheduleLimit ∧
    (d.messages.map (whenScheduled store q t (emlSize store))).sum ≤ scheduleBytes

omit [Primitives] [Mailboxes] in
theorem scheduled_owned {id : MessageID} {m : Message} (found : store.message id = some m)
    (waits : scheduled q t m = true) : Owned store id q := ⟨m, found, (scheduled_iff.mp waits).1⟩

omit [Primitives] [Mailboxes] in
theorem Bounded.withinCapacity (bounded : Bounded d store q t) (consistent : Consistent d store) :
    WithinCapacity store q t := by
  intro ids distinct waiting
  have total (weight : MessageID → Nat) : (ids.map weight).sum ≤
      (d.messages.map (whenScheduled store q t weight)).sum := by
    have counted : ids.map weight = ids.map (whenScheduled store q t weight) := by
      refine List.map_congr_left fun id member => ?_
      obtain ⟨m, found, waits⟩ := waiting id member
      simp [whenScheduled, found, waits]
    rw [counted]
    refine sum_le_sum_of_support distinct d.nodup fun id member _ => ?_
    obtain ⟨m, found, waits⟩ := waiting id member
    exact consistent.listed (scheduled_owned found waits)
  have ones : ids.length = (ids.map fun _ => 1).sum := by simp
  exact ⟨ones ▸ (total _).trans bounded.1, (total _).trans bounded.2⟩

omit [Primitives] [Mailboxes] in
/-- What counts of a message is not more than it was. -/
theorem whenScheduled_le {view : Store} {id : MessageID} {weight old : MessageID → Nat}
    (before : ∀ m', store.message id = some m' → scheduled q t m' = true →
      (∃ m, view.message id = some m ∧ scheduled q clock m = true) ∧ weight id = old id) :
    whenScheduled store q t weight id ≤ whenScheduled view q clock old id := by
  unfold whenScheduled
  split
  next counts =>
    obtain ⟨m', found, waits⟩ := (Option.any_eq_true _ _).mp counts
    obtain ⟨⟨m, shown, waited⟩, same⟩ := before m' found waits
    rw [if_pos (by simp [shown, waited]), same]
  · exact Nat.zero_le _

omit [Primitives] [Mailboxes] in
theorem emlSize_eq {view : Store} {id : MessageID}
    (same : store (.details id) = view (.details id)) : emlSize store id = emlSize view id := by
  rw [emlSize, emlSize, same]

omit [Primitives] [Mailboxes] in
/-- A step that adds no scheduled message keeps the bounds. -/
theorem Bounded.kept (bounded : Bounded d store q t) (earlier : Earlier store after)
    (old : ∀ {id m}, after.message id = some m → scheduled q t m = true →
      Owned store id q ∧ after (.details id) = store (.details id)) : Bounded d after q t := by
  have each {weight before : MessageID → Nat}
      (same : ∀ id, after (.details id) = store (.details id) → weight id = before id) :
      (d.messages.map (whenScheduled after q t weight)).sum ≤
        (d.messages.map (whenScheduled store q t before)).sum := by
    refine List.sum_le_sum fun id _ => whenScheduled_le fun m' found waits => ?_
    obtain ⟨⟨m, shown, -⟩, details⟩ := old found waits
    exact ⟨⟨m, shown, earlier.scheduled shown found le_rfl waits⟩, same id details⟩
  exact ⟨(each fun _ _ => rfl).trans bounded.1, (each fun _ same => emlSize_eq same).trans bounded.2⟩

omit [Mailboxes] in
theorem Created.scheduleAt (created : Created store i identity s m) :
    m.scheduleAt = i.submission.scheduleAt := by
  have same : m.scheduleAt = s.scheduleAt :=
    congrArg (·.2.2.1) (Queue.enqueue_fixed created.created).1
  exact same.trans (queued_eq created.queued).2.2.1

omit [Mailboxes] in
/-- A submission that adds a scheduled message has counted all others. -/
theorem Taken.bounded (taken : Taken store after i print stream m)
    (submitted : Submitted d (Shows agree) seen final store i print writes own stream identity policy
      s m)
    (continued : Continued store after)
    (earlier : ∀ view ∈ seen, Earlier view store) (reaches : Earlier store after)
    {earliest : Int} (schedule : i.submission.scheduleAt = some earliest)
    (later : i.clocks.capacity ≤ t) : Bounded d after i.identity t := by
  obtain ⟨view, member, shown, room⟩ := submitted.reserved.room earliest schedule
  have same := shown_identity shown
  have older := earlier view member
  -- a message that counts now was counted, unless it is the new one
  have counted {id : MessageID} {m' : Message} (other : id ≠ i.id)
      (found : after.message id = some m') (waits : scheduled i.identity t m' = true) :
      (∃ n, Store.message (view.write own) id = some n ∧
        scheduled i.identity i.clocks.capacity n = true) ∧
      after (.details id) = Store.write view own (.details id) := by
    have owned := (taken.owned_before submitted.created continued
      (scheduled_owned found waits)).resolve_left fun new => other new.1
    obtain ⟨⟨n, read, -⟩, details⟩ := same.owned owned.2
    obtain ⟨m'', reached, -⟩ := older.messages read
    have waited := older.scheduled read reached le_rfl
      (reaches.scheduled reached found later waits)
    have untouched : i.submission.replaces ≠ some id := by
      intro replaces
      obtain ⟨n', -, -, -, cancelled⟩ := taken.cancels replaces
      obtain rfl := Option.mem_unique cancelled found
      simp [scheduled, Queue.Message.cancel, unfinishedStatuses] at waits
    have kept (object : Resource) (different : ∀ old, i.submission.replaces = some old →
        object ≠ .table (.message old)) : view.write own object = view object := by
      cases submitted.replacing with
      | nothing => rfl
      | cancelled replaces =>
        exact write_other (List.forall_mem_singleton.mpr (different _ replaces).symm)
    refine ⟨⟨n, (kept _ fun old replaces => ?_).trans read, waited⟩, ?_⟩
    · rintro ⟨⟩
      exact untouched replaces
    · rw [taken.details, if_neg other, details, kept (.details id) fun _ _ => by rintro ⟨⟩]
  have total {weight before : MessageID → Nat} {extra : Nat} (new : weight i.id ≤ extra)
      (same : ∀ id, after (.details id) = Store.write view own (.details id) →
        weight id = before id) :
      (d.messages.map (whenScheduled after i.identity t weight)).sum ≤
        (d.messages.map (whenScheduled (view.write own) i.identity i.clocks.capacity before)).sum +
          extra := by
    refine sum_le_sum_add d.nodup i.id (fun id other => ?_) ?_
    · refine whenScheduled_le fun m' found waits => ?_
      obtain ⟨waited, details⟩ := counted other found waits
      exact ⟨waited, same id details⟩
    · refine le_trans ?_ (Nat.le_add_left _ _)
      unfold whenScheduled
      split
      · exact new
      · exact Nat.zero_le _
  obtain ⟨messages, bytes⟩ := of_decide_eq_true room
  rw [scheduled_length] at messages
  rw [scheduled_bytes] at bytes
  have size : emlSize after i.id = i.submission.archiveSize := by
    rw [emlSize, taken.details, if_pos rfl]
    rfl
  refine ⟨(total le_rfl fun _ _ => rfl).trans messages, ?_⟩
  exact (total size.le fun _ same => emlSize_eq same).trans bytes

omit [Primitives] in
theorem Prepared.origin {request : Request} (prepared : Prepared request i print) :
    ∃ j, request.call = some j ∧ j.clocks = i.clocks ∧
      j.submission.scheduleAt = i.submission.scheduleAt := by
  cases prepared with
  | enqueue => exact ⟨i, rfl, rfl, rfl⟩
  | receive received =>
    obtain ⟨-, stream, business, rfl⟩ := received_ok received
    exact ⟨_, rfl, rfl, rfl⟩

/-- The time is after the readings with which the scheduled submissions counted. -/
def Counted (log : List (Committed Request Resource.Value)) (t : Int) : Prop :=
  ∀ entry ∈ log, ∀ i, entry.request.call = some i → i.submission.scheduleAt ≠ none →
    i.clocks.capacity ≤ t

theorem step_bounded {entry : Committed Request Resource.Value} (stepped : Stepped d entry)
    (bounded : Bounded d entry.before q t)
    (counted : ∀ i, entry.request.call = some i → i.submission.scheduleAt ≠ none →
      i.clocks.capacity ≤ t) : Bounded d entry.after q t := by
  obtain ⟨consistent, earlier, final, step⟩ := stepped
  have kind := step.kind
  have continued := kind.continued consistent.tables
  have reaches := (kind.keeps consistent).2
  rcases kind.plain_or consistent.tables with
    plain | ⟨i, print, writes, own, stream, identity, policy, s, m, prepared, submitted, taken⟩
  · exact bounded.kept reaches fun found waits =>
      ⟨plain.owned (scheduled_owned found waits), plain.details _⟩
  -- only a scheduled message of the same identity can be one more
  have others (unscheduled : q = i.identity → i.submission.scheduleAt = none) :
      Bounded d entry.after q t := by
    refine bounded.kept reaches fun {id m'} found waits => ?_
    rcases taken.owned_before submitted.created continued (scheduled_owned found waits) with
      ⟨rfl, own⟩ | ⟨other, owned⟩
    · obtain rfl := Option.mem_unique taken.message found
      obtain ⟨-, -, ⟨earliest, schedule, -⟩, -⟩ := scheduled_iff.mp waits
      rw [submitted.created.scheduleAt, unscheduled own] at schedule
      cases schedule
    · exact ⟨owned, (taken.details id).trans (if_neg other)⟩
  cases schedule : i.submission.scheduleAt with
  | none => exact others fun _ => schedule
  | some earliest =>
    by_cases same : q = i.identity
    · subst same
      obtain ⟨j, call, clocks, at_⟩ := prepared.origin
      have later := counted j call (by rw [at_, schedule]; exact nofun)
      rw [clocks] at later
      exact taken.bounded submitted continued earlier reaches schedule later
    · exact others fun own => absurd own same

end Schedules

section Runs

variable [Primitives] [Mailboxes] (d : Catalog) (events : List (Event Request))

theorem interleaving_bounded {q : IdentityID} {t : Int}
    (counted : Counted (interleaving d events).log t) : Bounded d (interleaving d events).store q t := by
  have chained := run_chained (Request.statements d) emptyStore events
  refine chained.along (P := fun log store => Counted log t → Bounded d store q t) (fun _ => ?_)
    (fun earlier entry rest split ih counted => ?_) counted
  · have nothing (weight : MessageID → Nat) :
        (d.messages.map (whenScheduled emptyStore q t weight)).sum = 0 := by
      refine List.sum_eq_zero fun value member => ?_
      obtain ⟨id, -, rfl⟩ := List.mem_map.mp member
      rfl
    exact ⟨(nothing _).trans_le (Nat.zero_le _), (nothing _).trans_le (Nat.zero_le _)⟩
  · have member : entry ∈ (interleaving d events).log := by
      rw [show (interleaving d events).log = _ from split]
      simp
    refine step_bounded (interleaving_steps d events member) ?_ fun i => counted entry (by simp) i
    exact ih fun first inside => counted first (List.mem_append_left _ inside)

/-- In every interleaving a submission commits within the limits that it has read,
itself included, and at no time is more scheduled than there is room for. -/
theorem website_never_oversold :
    (∀ entry ∈ (interleaving d events).log, ∀ i print, Complete entry i print →
      ∃ identity stream policy, Budgeted entry i identity stream policy) ∧
    ∀ q t, Counted (interleaving d events).log t →
      WithinCapacity (interleaving d events).store q t := by
  have history := interleaving_history d events
  refine ⟨fun entry member i print complete => ?_, fun q t counted => ?_⟩
  · obtain ⟨consistent, earlier, final, step⟩ := interleaving_steps d events member
    have kind := step.kind
    obtain ⟨after, -⟩ := kind.keeps consistent
    obtain ⟨prepared, unknown, stream, identity, s, m, taken, -⟩ := complete
    rcases kind.plain_or consistent.tables with
      plain | ⟨j, print', writes, own, stream, identity, policy, s, m, prepared', submitted, taken'⟩
    · -- a step that records nothing is no submission that was taken
      have recorded := taken.ledger i.identity i.key
      rw [if_pos ⟨rfl, rfl⟩] at recorded
      cases unknown.symm.trans ((plain.ledger _ _).symm.trans recorded)
    · obtain rfl := prepared.unique prepared'
      exact ⟨identity, stream, policy, submitted.budgeted taken' after⟩
  · exact (interleaving_bounded d events counted).withinCapacity history.current

end Runs

section Witness

attribute [local instance] Queue.plain anyMailbox

def scheduledOrder : Call :=
  let call := order 1 0 "a@example.org" true
  { call with submission := { call.submission with scheduleAt := some hour } }

def scheduledRun : List (Event Request) :=
  alone 0 (.configure shop) 20 ++ alone 1 (.enqueueIdempotent scheduledOrder) 30

theorem website_never_oversold_of_scheduledRun :
    (∃ entry ∈ (interleaving drawer scheduledRun).log, ∃ i identity stream policy,
      i.id = 0 ∧ Budgeted entry i identity stream policy) ∧
    (∃ m, (interleaving drawer scheduledRun).store (.table (.message 0)) = some m ∧
      scheduled 5 1 m = true) ∧
    WithinCapacity (interleaving drawer scheduledRun).store 5 1 := by
  obtain ⟨budgets, capacity⟩ := website_never_oversold drawer scheduledRun
  have stored : ((interleaving drawer scheduledRun).store (.ledger 5 "order-1")).any
      (fun row => decide (row.message = 0)) = true := by
    decide +kernel
  obtain ⟨row, found, message⟩ := (Option.any_eq_true _ _).mp stored
  obtain ⟨entry, member, i, print, complete, -, -, rfl⟩ := ledger_traced drawer scheduledRun found
  obtain ⟨identity, stream, policy, budgeted⟩ := budgets entry member i print complete
  have waiting : ((interleaving drawer scheduledRun).store (.table (.message 0))).any
      (scheduled 5 1) = true := by
    decide +kernel
  have clocks : ((interleaving drawer scheduledRun).log.all fun entry =>
      entry.request.call.all fun i => decide (i.clocks.capacity ≤ 1)) = true := by
    decide +kernel
  have counted : Counted (interleaving drawer scheduledRun).log 1 := by
    intro entry member i call _
    have each := List.all_eq_true.mp clocks entry member
    rw [call] at each
    exact of_decide_eq_true each
  exact ⟨⟨entry, member, i, identity, stream, policy, of_decide_eq_true message, budgeted⟩,
    (Option.any_eq_true _ _).mp waiting, capacity 5 1 counted⟩

end Witness

end RelayTale.Intake
