import RelayTale.Intake.Steps

/-!
# What a step leaves of the tables

To the tables of the queue every step is one of the transactions of the queue, or
nothing at all. Outside of them a step either leaves everything but an answer as
it is, or it takes a submission, or it configures an identity.
-/

namespace RelayTale.Intake

open Locking
open Queue (Message Op)

section Writes

variable {store : Store}

theorem table_injective : Function.Injective Resource.table := fun _ _ => Resource.table.inj

theorem put_placed (id : MessageID) (m : Message) :
    put id m = placed Resource.table (Queue.put id m) := rfl

theorem enqueue_yields [Primitives] {tables : Queue.Tables} {id : MessageID} {s : Queue.Submission}
    {m : Message} {next : Message → Queue.Statements} {seen : List Queue.Tables}
    {writes : List (Sigma Queue.Resource.Value)} (absent : tables (.message id) = none)
    (created : s.enqueue (tables .policy) = .ok m) (yields : (next m).Yields tables seen writes) :
    (Queue.createMessage id s next).Yields tables seen writes := by
  refine Program.select_yields.mpr ?_
  simp only [absent, Option.isSome_none, Bool.false_eq_true, if_false]
  split
  · exact Program.select_yields.mpr (Program.ifOk_yields.mpr ⟨m, created, yields⟩)
  next sandbox =>
    rw [Queue.enqueue_of_sandbox sandbox]
    exact Program.ifOk_yields.mpr ⟨m, created, yields⟩

end Writes

/-- To the queue the step is one of its transactions. -/
def Acts [Primitives] (op : Op) (store after : Store) : Prop :=
  ∃ views inner, op.statements.Yields store.tables views inner ∧
    after.tables = store.tables.write inner

section Submitted

variable [Primitives] {shows : Visibility Resource.Value} {store : Store}
variable {final : Set (Resource × Mode)} {seen : List Store}
variable {writes own : List (Sigma Resource.Value)} {d : Catalog} {i : Call} {print : Fingerprint}
variable {stream : Stream} {identity : Identity} {policy : StreamPolicy} {s : Queue.Submission}
variable {m : Message}

omit [Primitives] in
theorem queued_eq {production : Bool} (queued : i.queued production = some s) :
    s.production = production ∧ s.apiKey = some i.identity ∧
      s.scheduleAt = i.submission.scheduleAt ∧ s.expiresAt = i.submission.expiresAt := by
  unfold Call.queued at queued
  split at queued
  · obtain rfl := Option.some.inj queued
    exact ⟨rfl, rfl, rfl, rfl⟩
  · cases queued

def Call.op (i : Call) (s : Queue.Submission) : Op :=
  match i.submission.replaces with
  | none => .enqueue i.id s
  | some old => .replace old i.id i.identity i.clocks.cancel s

def Call.records (i : Call) (print : Fingerprint) (stream : Stream) : List (Sigma Resource.Value) :=
  [⟨.answer i.call, some i.committed⟩, ⟨.ledger i.identity i.key, some ⟨print, i.id⟩⟩,
    ⟨.quota i.id, some (i.reservation stream)⟩, ⟨.details i.id, some i.details⟩]

omit [Primitives] in
theorem Replacing.inner (replacing : Replacing store i own) :
    ∃ inner : List (Sigma Queue.Resource.Value), own = inner.map (placed Resource.table) := by
  cases replacing with
  | nothing => exact ⟨[], rfl⟩
  | @cancelled old n n' => exact ⟨[Queue.put old n'], rfl⟩

variable
  (submitted : Submitted d shows seen final store i print writes own stream identity policy s m)

include submitted

theorem Submitted.tables {inner : List (Sigma Queue.Resource.Value)}
    (shape : own = inner.map (placed Resource.table)) :
    Store.tables (store.write writes) = store.tables.write (Queue.put i.id m :: inner) := by
  have outside : ∀ write ∈ i.records print stream, ∀ part, Resource.table part ≠ write.1 := by
    simp [Call.records]
  rw [submitted.writes, shape]
  exact part_write_append table_injective store outside (Queue.put i.id m :: inner)

/-- Other objects than messages are written as the records say. -/
theorem Submitted.records (object : Resource) (outside : ∀ part, Resource.table part ≠ object) :
    store.write writes object = store.write (i.records print stream) object := by
  obtain ⟨inner, rfl⟩ := submitted.replacing.inner
  rw [submitted.writes]
  exact embed_other (store.write (i.records print stream)) (Queue.put i.id m :: inner) outside

/-- To the queue a submission is one of its own operations. -/
theorem Submitted.acts : Acts (i.op s) store (store.write writes) := by
  have created := submitted.created
  have absent : store.tables (.message i.id) = none := created.absent
  unfold Call.op
  cases submitted.replacing with
  | nothing replaces =>
    rw [replaces]
    refine ⟨[], [Queue.put i.id m], ?_, submitted.tables rfl⟩
    exact enqueue_yields absent created.created ⟨rfl, rfl⟩
  | @cancelled old n n' replaces found committed =>
    rw [replaces]
    have different : Queue.Resource.message i.id ≠ .message old := by
      intro same
      obtain rfl := Queue.Resource.message.inj same
      cases created.absent.symm.trans found
    refine ⟨[], [Queue.put old n', Queue.put i.id m], ?_, ?_⟩
    · rw [Op.statements, if_pos (queued_eq created.queued).2.1]
      refine Program.lockRow_yields.mpr ⟨n, found, Program.ifOk_yields.mpr ⟨n', committed, ?_⟩⟩
      exact enqueue_yields absent created.created ⟨rfl, rfl⟩
    · -- the two rows are different ones, so their order does not matter
      rw [submitted.tables (show [put old n'] = [Queue.put old n'].map (placed Resource.table)
        from rfl)]
      exact Function.update_comm different _ _ _

variable {after : Store}

structure Taken (store after : Store) (i : Call) (print : Fingerprint) (stream : Stream)
    (m : Message) : Prop where
  message : after.message i.id = some m
  others : ∀ {target}, target ≠ i.id → i.submission.replaces ≠ some target →
    after.message target = store.message target
  replaced : ∀ {old}, i.submission.replaces = some old → old ≠ i.id ∧ ∃ n n',
    store.message old = some n ∧
      Queue.cancelPending i.identity true i.clocks.cancel n = .ok n' ∧ after.message old = some n'
  answer : after (.answer i.call) = some i.committed
  ledger : ∀ q k, after (.ledger q k) =
    if q = i.identity ∧ k = i.key then some ⟨print, i.id⟩ else store (.ledger q k)
  quota : ∀ id, after (.quota id) = if id = i.id then some (i.reservation stream) else store (.quota id)
  details : ∀ id, after (.details id) = if id = i.id then some i.details else store (.details id)
  identity : ∀ q, after (.identity q) = store (.identity q)
  stream : ∀ q name, after (.stream q name) = store (.stream q name)

theorem Submitted.taken : Taken store (store.write writes) i print stream m := by
  have rows (inner : List (Sigma Queue.Resource.Value))
      (shape : own = inner.map (placed Resource.table)) (target : MessageID) :
      Store.message (store.write writes) target =
        (store.tables.write [Queue.put i.id m]).write inner (.message target) :=
    congrFun (submitted.tables shape) (.message target)
  have fresh : ∀ {old n}, store.message old = some n → old ≠ i.id := by
    rintro old n found rfl
    cases submitted.created.absent.symm.trans found
  constructor
  case message =>
    cases submitted.replacing with
    | nothing => rw [rows [] rfl, Store.write, List.foldl_nil, Queue.write_put, if_pos rfl]
    | @cancelled old n n' replaces found =>
      rw [rows [Queue.put old n'] rfl, Queue.write_put, if_neg (fresh found).symm, Queue.write_put,
        if_pos rfl]
  case others =>
    intro target different kept
    cases submitted.replacing with
    | nothing => rw [rows [] rfl, Store.write, List.foldl_nil, Queue.write_put, if_neg different]
    | @cancelled old n n' replaces found =>
      have other : target ≠ old := by
        rintro rfl
        exact kept replaces
      rw [rows [Queue.put old n'] rfl, Queue.write_put, if_neg other, Queue.write_put,
        if_neg different]
  case replaced =>
    intro old replaces
    cases submitted.replacing with
    | nothing none => cases none.symm.trans replaces
    | @cancelled old' n n' replaces' found committed =>
      obtain rfl := Option.mem_unique replaces' replaces
      refine ⟨fresh found, n, n', found, committed, ?_⟩
      rw [rows [Queue.put old' n'] rfl, Queue.write_put, if_pos rfl]
  case answer =>
    rw [submitted.records (.answer i.call) fun _ => by rintro ⟨⟩]
    simp [Call.records, Store.write]
  case ledger =>
    intro q k
    rw [submitted.records (.ledger q k) fun _ => by rintro ⟨⟩]
    by_cases same : q = i.identity ∧ k = i.key
    · obtain ⟨rfl, rfl⟩ := same
      simp [Call.records, Store.write]
    · simp [Call.records, Store.write, same]
  case quota =>
    intro id
    rw [submitted.records (.quota id) fun _ => by rintro ⟨⟩]
    by_cases same : id = i.id
    · subst same
      simp [Call.records, Store.write]
    · simp [Call.records, Store.write, same]
  case details =>
    intro id
    rw [submitted.records (.details id) fun _ => by rintro ⟨⟩]
    by_cases same : id = i.id
    · subst same
      simp [Call.records, Store.write]
    · simp [Call.records, Store.write, same]
  case identity =>
    intro q
    rw [submitted.records (.identity q) fun _ => by rintro ⟨⟩]
    simp [Call.records, Store.write]
  case stream =>
    intro q name
    rw [submitted.records (.stream q name) fun _ => by rintro ⟨⟩]
    simp [Call.records, Store.write]

end Submitted

section Kinds

variable [Primitives] [Mailboxes]

/-- Objects that only submissions and configurations write. -/
def Resource.settled : Resource → Bool
  | .table _ | .answer _ => false
  | _ => true

/-- What a step leaves of the store. -/
inductive Kind (d : Catalog) (shows : Visibility Resource.Value)
    (seen : List Store) (final : Set (Resource × Mode)) (store after : Store) : Request → Prop
  | answered {request : Request} (rest : ∀ object, (∀ call, object ≠ .answer call) →
      after object = store object) : Kind d shows seen final store after request
  | queue {request : Request} {op : Op} (acts : Acts op store after)
      (unowned : ∀ id s, op = .enqueue id s → s.apiKey = none)
      (single : ∀ old new q clock s, op ≠ .replace old new q clock s)
      (rest : ∀ object, object.settled = true → after object = store object) :
      Kind d shows seen final store after request
  | submitted {request : Request} {i : Call} {print : Fingerprint}
      {writes own : List (Sigma Resource.Value)} {stream : Stream} {identity : Identity}
      {policy : StreamPolicy} {s : Queue.Submission} {m : Message}
      (prepared : Prepared request i print)
      (submitted : Submitted d shows seen final store i print writes own stream identity policy s m)
      (acts : Acts (i.op s) store after) (taken : Taken store after i print stream m) :
      Kind d shows seen final store after request
  | configured {c : Configuration} (locked : (.identity c.identity, Mode.exclusive) ∈ final)
      (rest : ∀ object, object ≠ .identity c.identity →
        (∀ name, object ≠ .stream c.identity name) → after object = store object) :
      Kind d shows seen final store after (.configure c)

variable {shows : Visibility Resource.Value} {store : Store}
variable {final : Set (Resource × Mode)} {seen : List Store}
variable {writes : List (Sigma Resource.Value)} {d : Catalog} {request : Request}

omit [Primitives] [Mailboxes] in
theorem Answered.rest {call : CallID} {a : Answer} (answered : Answered call a writes)
    (object : Resource) (other : ∀ call, object ≠ .answer call) :
    store.write writes object = store object := by
  rw [answered]
  exact write_other (List.forall_mem_singleton.mpr (other call).symm)

theorem Step.kind (step : Step d shows seen final store request writes) :
    Kind d shows seen final store (store.write writes) request := by
  cases step with
  | @queue op inner allowed yields =>
    refine .queue ⟨_, inner, yields, part_write table_injective store inner⟩ ?_ ?_
      fun object settled => ?_
    · rintro id s rfl
      exact Option.isNone_iff_eq_none.mp allowed
    · rintro old new q clock s rfl
      cases allowed
    · have outside : ∀ part, Resource.table part ≠ object := by
        rintro part rfl
        cases settled
      exact embed_other store inner outside
  | invalid _ _ answered => exact .answered answered.rest
  | busy answered => exact .answered answered.rest
  | handled prepared outcome =>
    cases outcome with
    | replayed _ _ answered => exact .answered answered.rest
    | conflict _ _ answered => exact .answered answered.rest
    | refused _ refused =>
      obtain ⟨refusal, answered⟩ := refused
      exact .answered answered.rest
    | submitted submitted => exact .submitted prepared submitted submitted.acts submitted.taken
  | uncancelled refused =>
    obtain ⟨refusal, answered⟩ := refused
    exact .answered answered.rest
  | @cancelled i m m' a found committed =>
    have outside : ∀ write ∈ [(⟨.answer i.call, some a⟩ : Sigma Resource.Value)],
        ∀ part, Resource.table part ≠ write.1 := List.forall_mem_singleton.mpr nofun
    have yields : (Op.transact i.message (.cancelPending i.identity false i.clock)).statements.Yields
        store.tables [] [Queue.put i.message m'] :=
      Program.lockRow_yields.mpr ⟨m, found, Queue.save_yields.mpr ⟨m', committed, rfl, rfl⟩⟩
    refine .queue ⟨[], _, yields,
      part_write_append table_injective store outside [Queue.put i.message m']⟩ nofun nofun ?_
    · intro object settled
      refine write_other (List.forall_mem_cons.mpr ⟨?_, List.forall_mem_singleton.mpr ?_⟩)
      · rintro rfl
        cases settled
      · rintro rfl
        cases settled
  | configured locked same streams =>
    refine .configured locked fun object identity other => write_other ?_
    refine List.forall_mem_cons.mpr ⟨identity.symm, fun write member => ?_⟩
    obtain ⟨name, stream⟩ := streams write member
    exact stream ▸ (other name).symm

end Kinds

end RelayTale.Intake
