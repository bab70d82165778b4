import Mathlib.Logic.Relation
import RelayTale.Intake.Effects

/-!
# Submissions in any interleaving

The invariant of the tables ties every message of an identity to its row of the
ledger and every replacement to a cancelled message. What was recorded is found
again later. The lock of an identity protects its reservations, its streams and
the list of its messages.
-/

namespace RelayTale.Intake

open Locking
open Queue (Message Op unfinishedStatuses)

section Times

def Owned (store : Store) (id : MessageID) (q : IdentityID) : Prop :=
  ∃ m, store.message id = some m ∧ m.apiKey = some q

def Replaces (store : Store) (new old : MessageID) : Prop :=
  ∃ x, store (.details new) = some x ∧ x.replaces = some old

structure Consistent (d : Catalog) (store : Store) : Prop where
  tables : Queue.Orderly store.tables
  listed : ∀ {id q}, Owned store id q → id ∈ d.messages
  owned : ∀ {id q}, Owned store id q → ∃ x row, store (.details id) = some x ∧
    store (.ledger q x.key) = some row ∧ row.message = id
  recorded : ∀ {q k row}, store (.ledger q k) = some row → Owned store row.message q ∧
    ∃ x, store (.details row.message) = some x ∧ x.key = k
  reserved : ∀ {id r}, store (.quota id) = some r → Owned store id r.identity
  detailed : ∀ {id x}, store (.details id) = some x → ∃ q, Owned store id q
  replaced : ∀ {new old}, Replaces store new old →
    ∃ m, store.message old = some m ∧ m.cancelledAt.isSome = true
  single : ∀ {new other old}, Replaces store new old → Replaces store other old → new = other
  acyclic : ∀ id, ¬ Relation.TransGen (Replaces store) id id

structure Earlier (view store : Store) : Prop where
  tables : Queue.Earlier view.tables store.tables
  messages : ∀ {id m}, view.message id = some m → ∃ m', store.message id = some m' ∧ m.Lasts m'
  finished : ∀ {id m m'}, view.message id = some m → store.message id = some m' →
    m.production = true → m.status ∉ unfinishedStatuses → m'.status ∉ unfinishedStatuses
  ledger : ∀ {q k row}, view (.ledger q k) = some row → store (.ledger q k) = some row
  quota : ∀ {id r}, view (.quota id) = some r → store (.quota id) = some r
  details : ∀ {id x}, view (.details id) = some x → store (.details id) = some x

theorem Earlier.refl (store : Store) : Earlier store store where
  tables := .refl _
  messages found := ⟨_, found, .refl _⟩
  finished found again _ finished := Option.mem_unique found again ▸ finished
  ledger := id
  quota := id
  details := id

theorem Earlier.trans {first second third : Store} (left : Earlier first second)
    (right : Earlier second third) : Earlier first third where
  tables := left.tables.trans right.tables
  messages found := by
    obtain ⟨m, middle, lasts⟩ := left.messages found
    obtain ⟨last, reached, lasts'⟩ := right.messages middle
    exact ⟨last, reached, lasts.trans lasts'⟩
  finished found reached production finished := by
    obtain ⟨m, middle, lasts⟩ := left.messages found
    have same : m.production = _ := congrArg (·.1) lasts.fixed
    exact right.finished middle reached (same.trans production)
      (left.finished found middle production finished)
  ledger found := right.ledger (left.ledger found)
  quota found := right.quota (left.quota found)
  details found := right.details (left.details found)

variable {view store : Store}

theorem lasts_apiKey {m m' : Message} (lasts : m.Lasts m') : m'.apiKey = m.apiKey :=
  congrArg (·.2.1) lasts.fixed

theorem Earlier.owned (earlier : Earlier view store) {id : MessageID} {q : IdentityID}
    (owned : Owned view id q) : Owned store id q := by
  obtain ⟨m, found, owner⟩ := owned
  obtain ⟨m', reached, lasts⟩ := earlier.messages found
  exact ⟨m', reached, (lasts_apiKey lasts).trans owner⟩

end Times

section Agreements

/-- What the lock of an identity protects. -/
structure SameIdentity (q : IdentityID) (view store : Store) : Prop where
  quota : ∀ id, (store (.quota id)).filter (·.identity = q) =
    (view (.quota id)).filter (·.identity = q)
  streams : ∀ name, store (.stream q name) = view (.stream q name)
  owned : ∀ {id}, Owned store id q → Owned view id q ∧ store (.details id) = view (.details id)

def agree : Agreement Resource.Value
  | (.identity q, _), view, store => SameIdentity q view store
  | _, _, _ => True

theorem agree_refl (lock : Resource × Mode) (store : Store) : agree lock store store := by
  obtain ⟨object, mode⟩ := lock
  cases object with
  | identity q => exact ⟨fun _ => rfl, fun _ => rfl, fun owned => ⟨owned, rfl⟩⟩
  | _ => trivial

theorem agree_trans {lock : Resource × Mode} {first second third : Store}
    (left : agree lock first second) (right : agree lock second third) :
    agree lock first third := by
  obtain ⟨object, mode⟩ := lock
  cases object with
  | identity q =>
    refine ⟨fun id => (right.quota id).trans (left.quota id),
      fun name => (right.streams name).trans (left.streams name), fun owned => ?_⟩
    obtain ⟨middle, same⟩ := right.owned owned
    obtain ⟨first, same'⟩ := left.owned middle
    exact ⟨first, same.trans same'⟩
  | _ => trivial

end Agreements

section Keeps

variable [Primitives] [Mailboxes] {d : Catalog}
variable {shows : Visibility Resource.Value} {seen : List Store}
variable {final : Set (Resource × Mode)} {store after : Store} {request : Request}
variable {id : MessageID} {q : IdentityID}

structure Continued (store after : Store) : Prop where
  tables : Queue.Orderly after.tables
  earlier : Queue.Earlier store.tables after.tables
  messages : ∀ {id m}, store.message id = some m → ∃ m', after.message id = some m' ∧ m.Lasts m'

omit [Mailboxes] in
theorem Acts.continued {op : Op} (acts : Acts op store after)
    (orderly : Queue.Orderly store.tables) : Continued store after := by
  obtain ⟨views, inner, yields, same⟩ := acts
  have valid : Queue.Consistent store.tables := fun found => (orderly found).valid
  obtain ⟨after', lasts⟩ := Queue.statements_last orderly yields
  rw [← same] at after'
  refine ⟨after', ?_, fun {id m} found => ?_⟩
  · rw [same]
    exact ((Queue.statements_effects yields).keeps valid).2
  · obtain ⟨m', reached, lasting⟩ := lasts found
    exact ⟨m', (congrFun same (.message id)).trans reached, lasting⟩

omit [Primitives] [Mailboxes] in
theorem continued_of_same (orderly : Queue.Orderly store.tables)
    (same : after.tables = store.tables) : Continued store after := by
  refine ⟨same ▸ orderly, same ▸ .refl _, fun {id m} found => ⟨m, ?_, .refl m⟩⟩
  exact (congrFun same (.message id)).trans found

theorem Kind.continued (kind : Kind d shows seen final store after request)
    (orderly : Queue.Orderly store.tables) : Continued store after := by
  cases kind with
  | answered rest => exact continued_of_same orderly (funext fun part => rest (.table part) nofun)
  | queue acts => exact acts.continued orderly
  | submitted _ _ acts => exact acts.continued orderly
  | configured _ rest =>
    exact continued_of_same orderly (funext fun part => rest (.table part) nofun nofun)

omit [Primitives] [Mailboxes] in
theorem Continued.owned (continued : Continued store after) (owned : Owned store id q) :
    Owned after id q := by
  obtain ⟨m, found, owner⟩ := owned
  obtain ⟨m', reached, lasts⟩ := continued.messages found
  exact ⟨m', reached, (lasts_apiKey lasts).trans owner⟩

omit [Primitives] [Mailboxes] in
/-- A message that was there before belongs to the same identity. -/
theorem Continued.owned_before (continued : Continued store after) (owned : Owned after id q) :
    Owned store id q ∨ store.message id = none := by
  obtain ⟨m', reached, owner⟩ := owned
  cases found : store.message id with
  | none => exact .inr rfl
  | some m =>
    obtain ⟨n, again, lasts⟩ := continued.messages found
    obtain rfl := Option.mem_unique reached again
    exact .inl ⟨m, found, (lasts_apiKey lasts).symm.trans owner⟩

omit [Mailboxes] in
/-- The other transactions of the queue give no message to an identity. -/
theorem Acts.owned_before {op : Op} (acts : Acts op store after)
    (unowned : ∀ id s, op = .enqueue id s → s.apiKey = none)
    (single : ∀ old new q clock s, op ≠ .replace old new q clock s)
    (continued : Continued store after)
    (owned : Owned after id q) : Owned store id q := by
  refine (continued.owned_before owned).resolve_right fun absent => ?_
  obtain ⟨m, found, owner⟩ := owned
  obtain ⟨views, inner, yields, same⟩ := acts
  have found : store.tables.write inner (.message id) = some m :=
    (congrFun same (.message id)).symm.trans found
  obtain ⟨s, created, rfl | ⟨old, q', clock, rfl⟩⟩ :=
    Queue.statements_created yields absent found
  · have owner' : m.apiKey = s.apiKey := congrArg (·.2.1) (Queue.enqueue_fixed created).1
    rw [owner', unowned id s rfl] at owner
    cases owner
  · exact single _ _ _ _ _ rfl

structure Plain (store after : Store) : Prop where
  owned : ∀ {id q}, Owned after id q → Owned store id q
  ledger : ∀ q k, after (.ledger q k) = store (.ledger q k)
  quota : ∀ id, after (.quota id) = store (.quota id)
  details : ∀ id, after (.details id) = store (.details id)

/-- A submission was taken, or nothing was recorded. -/
theorem Kind.plain_or (kind : Kind d shows seen final store after request)
    (orderly : Queue.Orderly store.tables) :
    Plain store after ∨ ∃ i print writes own stream identity policy s m,
      Prepared request i print ∧
      Submitted d shows seen final store i print writes own stream identity policy s m ∧
      Taken store after i print stream m := by
  have continued := kind.continued orderly
  cases kind with
  | answered rest =>
    refine .inl ⟨fun ⟨m, found, owner⟩ => ⟨m, ?_, owner⟩, fun _ _ => rest _ nofun,
      fun _ => rest _ nofun, fun _ => rest _ nofun⟩
    exact (rest (.table (.message _)) nofun).symm.trans found
  | queue acts unowned single rest =>
    exact .inl ⟨acts.owned_before unowned single continued, fun _ _ => rest _ rfl,
      fun _ => rest _ rfl, fun _ => rest _ rfl⟩
  | submitted prepared submitted _ taken =>
    exact .inr ⟨_, _, _, _, _, _, _, _, _, prepared, submitted, taken⟩
  | configured _ rest =>
    refine .inl ⟨fun ⟨m, found, owner⟩ => ⟨m, ?_, owner⟩, fun _ _ => rest _ nofun nofun,
      fun _ => rest _ nofun nofun, fun _ => rest _ nofun nofun⟩
    exact (rest (.table (.message _)) nofun nofun).symm.trans found

omit [Primitives] [Mailboxes] in
theorem Continued.cancelled (continued : Continued store after)
    {m : Message} (found : store.message id = some m) (cancelled : m.cancelledAt.isSome = true) :
    ∃ m', after.message id = some m' ∧ m'.cancelledAt.isSome = true := by
  obtain ⟨m', reached, lasts⟩ := continued.messages found
  obtain ⟨available, rfl⟩ := lasts.cancelled cancelled
  exact ⟨_, reached, cancelled⟩

omit [Primitives] [Mailboxes] in
/-- A message that is through stays so. -/
theorem Continued.finished (continued : Continued store after)
    {m m' : Message} (found : store.message id = some m)
    (reached : after.message id = some m') (production : m.production = true)
    (finished : m.status ∉ unfinishedStatuses) : m'.status ∉ unfinishedStatuses := by
  obtain ⟨n, again, lasts⟩ := continued.messages found
  obtain rfl := Option.mem_unique reached again
  exact lasts.finished production finished

omit [Primitives] [Mailboxes] in
theorem Plain.keeps (plain : Plain store after) (continued : Continued store after)
    (consistent : Consistent d store) : Consistent d after ∧ Earlier store after := by
  have replaces {new old : MessageID} (replaces : Replaces after new old) :
      Replaces store new old := by
    obtain ⟨x, found, target⟩ := replaces
    exact ⟨x, (plain.details new).symm.trans found, target⟩
  constructor
  · constructor
    case tables => exact continued.tables
    case listed => exact fun owned => consistent.listed (plain.owned owned)
    case owned =>
      intro id q owned
      obtain ⟨x, row, details, ledger, message⟩ := consistent.owned (plain.owned owned)
      exact ⟨x, row, (plain.details id).trans details, (plain.ledger q x.key).trans ledger, message⟩
    case recorded =>
      intro q k row found
      obtain ⟨owned, x, details, key⟩ := consistent.recorded ((plain.ledger q k).symm.trans found)
      exact ⟨continued.owned owned, x, (plain.details _).trans details, key⟩
    case reserved =>
      intro id r found
      exact continued.owned (consistent.reserved ((plain.quota id).symm.trans found))
    case detailed =>
      intro id x found
      obtain ⟨q, owned⟩ := consistent.detailed ((plain.details id).symm.trans found)
      exact ⟨q, continued.owned owned⟩
    case replaced =>
      intro new old link
      obtain ⟨m, found, cancelled⟩ := consistent.replaced (replaces link)
      exact continued.cancelled found cancelled
    case single => exact fun first second => consistent.single (replaces first) (replaces second)
    case acyclic =>
      intro id cycle
      have fewer : Replaces after ≤ Replaces store := fun _ _ => replaces
      exact consistent.acyclic id (Relation.TransGen.mono fewer _ _ cycle)
  · exact ⟨continued.earlier, continued.messages, continued.finished,
      (plain.ledger _ _).trans, (plain.quota _).trans, (plain.details _).trans⟩

omit [Primitives] [Mailboxes] in
/-- A new vertex without a way to it closes no cycle. -/
theorem acyclic_of_fresh {α : Type} {r r' : α → α → Prop} (fresh : α)
    (known : ∀ {a b}, a ≠ fresh → r' a b → r a b) (unreached : ∀ a, ¬ r' a fresh)
    (acyclic : ∀ a, ¬ Relation.TransGen r a a) (a : α) : ¬ Relation.TransGen r' a a := by
  have reached {a b : α} (path : Relation.TransGen r' a b) : b ≠ fresh := by
    rintro rfl
    cases path with
    | single edge => exact unreached _ edge
    | tail _ edge => exact unreached _ edge
  intro cycle
  have start := reached cycle
  have path {b : α} (path : Relation.TransGen r' a b) : Relation.TransGen r a b := by
    induction path with
    | single edge => exact .single (known start edge)
    | tail before edge ih => exact ih.tail (known (reached before) edge)
  exact acyclic a (path cycle)

variable {writes own : List (Sigma Resource.Value)} {i : Call} {print : Fingerprint}
variable {stream : Stream} {identity : Identity} {policy : StreamPolicy} {s : Queue.Submission}
variable {m : Message}

omit [Mailboxes] in
theorem Created.apiKey (created : Created store i identity s m) : m.apiKey = some i.identity := by
  have owner : m.apiKey = s.apiKey := congrArg (·.2.1) (Queue.enqueue_fixed created.created).1
  exact owner.trans (queued_eq created.queued).2.1

omit [Mailboxes] in
theorem Taken.owned_before (taken : Taken store after i print stream m)
    (created : Created store i identity s m) (continued : Continued store after)
    (owned : Owned after id q) : id = i.id ∧ q = i.identity ∨ id ≠ i.id ∧ Owned store id q := by
  by_cases same : id = i.id
  · subst same
    obtain ⟨n, found, owner⟩ := owned
    obtain rfl := Option.mem_unique taken.message found
    exact .inl ⟨rfl, Option.mem_unique owner created.apiKey⟩
  · refine .inr ⟨same, (continued.owned_before owned).resolve_right fun absent => ?_⟩
    obtain ⟨n, found, -⟩ := owned
    by_cases old : i.submission.replaces = some id
    · obtain ⟨-, n, -, before, -⟩ := taken.replaced old
      cases absent.symm.trans before
    · rw [taken.others same old, absent] at found
      cases found

omit [Primitives] [Mailboxes] in
theorem Taken.cancels (taken : Taken store after i print stream m) {old : MessageID}
    (replaces : i.submission.replaces = some old) : ∃ n, store.message old = some n ∧
      n.cancelledAt = none ∧ Queue.uncancellable n = false ∧
      after.message old = some (n.cancel i.clocks.cancel) := by
  obtain ⟨-, n, n', before, committed, found⟩ := taken.replaced replaces
  obtain ⟨-, -, ⟨-, replacing, -⟩ | ⟨uncancelled, evidence, rfl⟩⟩ :=
    Queue.cancelPending_cases committed
  · cases replacing
  · exact ⟨n, before, uncancelled, evidence, found⟩

omit [Mailboxes] in
theorem Taken.keeps (taken : Taken store after i print stream m)
    (submitted : Submitted d shows seen final store i print writes own stream identity policy s m)
    (continued : Continued store after) (consistent : Consistent d store) :
    Consistent d after ∧ Earlier store after := by
  have created := submitted.created
  have new : Owned after i.id i.identity := ⟨m, taken.message, created.apiKey⟩
  have fresh {id : MessageID} {q : IdentityID} (owned : Owned store id q) : id ≠ i.id := by
    rintro rfl
    obtain ⟨n, found, -⟩ := owned
    cases created.absent.symm.trans found
  have details {id : MessageID} {x : Details} (found : store (.details id) = some x) :
      after (.details id) = some x := by
    obtain ⟨q, owned⟩ := consistent.detailed found
    rw [taken.details, if_neg (fresh owned), found]
  have ledger {q : IdentityID} {k : String} {row : LedgerRow}
      (found : store (.ledger q k) = some row) : after (.ledger q k) = some row := by
    rw [taken.ledger, if_neg, found]
    rintro ⟨rfl, rfl⟩
    cases submitted.unknown.symm.trans found
  have links {new old : MessageID} (link : Replaces after new old) :
      new = i.id ∧ i.submission.replaces = some old ∨ new ≠ i.id ∧ Replaces store new old := by
    obtain ⟨x, found, target⟩ := link
    rw [taken.details] at found
    split at found
    next same =>
      obtain rfl := Option.some.inj found
      exact .inl ⟨same, target⟩
    next other => exact .inr ⟨other, x, found, target⟩
  -- a message that has a replacement is cancelled, so it gets no second one
  have second {new old : MessageID} (link : Replaces store new old)
      (target : i.submission.replaces = some old) : False := by
    obtain ⟨n, found, cancelled⟩ := consistent.replaced link
    obtain ⟨n', before, uncancelled, -⟩ := taken.cancels target
    obtain rfl := Option.mem_unique found before
    simp [uncancelled] at cancelled
  constructor
  · constructor
    case tables => exact continued.tables
    case listed =>
      intro id q owned
      rcases taken.owned_before created continued owned with ⟨rfl, -⟩ | ⟨-, before⟩
      · exact submitted.listed
      · exact consistent.listed before
    case owned =>
      intro id q owned
      rcases taken.owned_before created continued owned with ⟨rfl, rfl⟩ | ⟨-, before⟩
      · refine ⟨i.details, ⟨print, i.id⟩, ?_, ?_, rfl⟩
        · rw [taken.details, if_pos rfl]
        · rw [taken.ledger, if_pos ⟨rfl, rfl⟩]
      · obtain ⟨x, row, found, recorded, message⟩ := consistent.owned before
        exact ⟨x, row, details found, ledger recorded, message⟩
    case recorded =>
      intro q k row found
      rw [taken.ledger] at found
      split at found
      next same =>
        obtain ⟨rfl, rfl⟩ := same
        obtain rfl := Option.some.inj found
        refine ⟨new, i.details, ?_, rfl⟩
        rw [taken.details, if_pos rfl]
      · obtain ⟨owned, x, found, key⟩ := consistent.recorded found
        exact ⟨continued.owned owned, x, details found, key⟩
    case reserved =>
      intro id r found
      rw [taken.quota] at found
      split at found
      next same =>
        obtain rfl := Option.some.inj found
        exact same ▸ new
      · exact continued.owned (consistent.reserved found)
    case detailed =>
      intro id x found
      rw [taken.details] at found
      split at found
      next same => exact ⟨i.identity, same ▸ new⟩
      · obtain ⟨q, owned⟩ := consistent.detailed found
        exact ⟨q, continued.owned owned⟩
    case replaced =>
      intro new old link
      rcases links link with ⟨-, target⟩ | ⟨-, link⟩
      · obtain ⟨n, -, -, -, found⟩ := taken.cancels target
        exact ⟨_, found, rfl⟩
      · obtain ⟨n, found, cancelled⟩ := consistent.replaced link
        exact continued.cancelled found cancelled
    case single =>
      intro new other old first link
      rcases links first with ⟨rfl, target⟩ | ⟨-, first⟩ <;>
        rcases links link with ⟨rfl, target'⟩ | ⟨-, link⟩
      · rfl
      · exact (second link target).elim
      · exact (second first target').elim
      · exact consistent.single first link
    case acyclic =>
      refine acyclic_of_fresh i.id (fun other link => ?_) (fun new link => ?_)
        consistent.acyclic
      · exact ((links link).resolve_left fun same => other same.1).2
      · -- what is replaced was there before
        rcases links link with ⟨-, target⟩ | ⟨-, link⟩
        · exact (taken.replaced target).1 rfl
        · obtain ⟨n, found, -⟩ := consistent.replaced link
          cases created.absent.symm.trans found
  · refine ⟨continued.earlier, continued.messages, continued.finished, ledger,
      fun {id r} found => ?_, details⟩
    rw [taken.quota, if_neg (fresh (consistent.reserved found)), found]

theorem Kind.keeps (kind : Kind d shows seen final store after request)
    (consistent : Consistent d store) : Consistent d after ∧ Earlier store after := by
  have continued := kind.continued consistent.tables
  rcases kind.plain_or consistent.tables with
    plain | ⟨i, print, writes, own, stream, identity, policy, s, m, -, submitted, taken⟩
  · exact plain.keeps continued consistent
  · exact taken.keeps submitted continued consistent

/-- Every request keeps the invariant of the tables in every interleaving. -/
theorem request_rule (d : Catalog) : Rule (Request.statements d) (Consistent d) Earlier where
  guarded := statements_guarded d
  refl := Earlier.refl
  trans := Earlier.trans
  keeps consistent _ yields := by
    have anything : ∀ view : Store, Anything view := fun _ => True.intro
    obtain ⟨final, runs⟩ := yields.runs anything ∅
    exact (statements_step runs).kind.keeps consistent

/-- Without the lock of the identity nothing of it changes. -/
theorem Kind.protects (kind : Kind d shows seen final store after request)
    (consistent : Consistent d store)
    (unlocked : (Resource.identity q, Mode.exclusive) ∉ final) : SameIdentity q store after := by
  have continued := kind.continued consistent.tables
  have streams (name : Stream) : after (.stream q name) = store (.stream q name) := by
    cases kind with
    | answered rest => exact rest _ nofun
    | queue _ _ _ rest => exact rest _ rfl
    | submitted _ _ _ taken => exact taken.stream q name
    | @configured c locked rest =>
      refine rest _ nofun fun other same => unlocked ?_
      obtain ⟨rfl, -⟩ := Resource.stream.inj same
      exact locked
  rcases kind.plain_or consistent.tables with
    plain | ⟨i, print, writes, own, stream, identity, policy, s, m, -, submitted, taken⟩
  · exact ⟨fun id => by rw [plain.quota], streams, fun owned => ⟨plain.owned owned, plain.details _⟩⟩
  · have other : i.identity ≠ q := by
      rintro rfl
      exact unlocked submitted.locked
    refine ⟨fun id => ?_, streams, fun owned => ?_⟩
    · rw [taken.quota]
      split
      next same =>
        subst same
        rw [submitted.reserved.fresh]
        exact if_neg fun same => other (of_decide_eq_true same)
      · rfl
    · rcases taken.owned_before submitted.created continued owned with ⟨-, same⟩ | ⟨different, before⟩
      · exact absurd same.symm other
      · exact ⟨before, by rw [taken.details, if_neg different]⟩

theorem request_protection (d : Catalog) :
    Protection (Request.statements d) (Consistent d) Earlier agree where
  refl := agree_refl
  trans := agree_trans
  protects consistent _ runs lock permits := by
    have kind := (statements_step runs).kind
    have unlocked := permits.not_exclusive
    obtain ⟨object, mode⟩ := lock
    cases object with
    | identity q => exact kind.protects consistent unlocked
    | _ => trivial

end Keeps

section Histories

variable [Primitives] [Mailboxes] (d : Catalog) (events : List (Event Request))

omit [Primitives] [Mailboxes] in
theorem emptyStore_consistent : Consistent d emptyStore := by
  have unowned {id : MessageID} {q : IdentityID} : ¬ Owned emptyStore id q := by
    rintro ⟨m, found, -⟩
    cases found
  have unlinked {new old : MessageID} : ¬ Replaces emptyStore new old := by
    rintro ⟨x, found, -⟩
    cases found
  constructor
  case tables =>
    intro id m found
    cases found
  case listed => exact fun owned => absurd owned unowned
  case owned => exact fun owned => absurd owned unowned
  case recorded =>
    intro q k row found
    cases found
  case reserved =>
    intro id r found
    cases found
  case detailed =>
    intro id x found
    cases found
  case replaced => exact fun link => absurd link unlinked
  case single => exact fun link => absurd link unlinked
  case acyclic =>
    intro id cycle
    cases cycle with
    | single link => exact unlinked link
    | tail _ link => exact unlinked link

theorem interleaving_history :
    History (Request.statements d) (Consistent d) Earlier (interleaving d events) :=
  (request_rule d).run (emptyStore_consistent d) events

theorem interleaving_append (later : List (Event Request)) :
    interleaving d (events ++ later) =
      (interleaving d events).run (Request.statements d) later :=
  List.foldl_append

theorem interleaving_later (later : List (Event Request)) :
    Earlier (interleaving d events).store (interleaving d (events ++ later)).store := by
  rw [interleaving_append]
  exact (request_rule d).reaches (interleaving_history d events) later

/-- Every entry of the log is a step whose snapshots show what was locked. -/
theorem interleaving_steps {entry : Committed Request Resource.Value}
    (member : entry ∈ (interleaving d events).log) :
    Consistent d entry.before ∧ (∀ view ∈ entry.seen, Earlier view entry.before) ∧
      ∃ final, Step d (Shows agree) entry.seen final entry.before entry.request entry.writes := by
  have serial := (interleaving_history d events).serial entry member
  obtain ⟨final, runs⟩ := ((request_protection d).run (request_rule d)
    (emptyStore_consistent d) events).runs entry member
  exact ⟨serial.found, serial.seen, final, statements_step runs⟩

/-- Whatever the requests do, no record is lost, and what was written once stays as it
was: the columns of the submission, the addresses, the attempts with the answer of the
fence, the suppressions with their release and the rows of the ledger and the budgets. -/
theorem records_last (later : List (Event Request)) :
    let store : Store := (interleaving d events).store
    let last : Store := (interleaving d (events ++ later)).store
    (∀ id m, store.message id = some m → ∃ m', last.message id = some m' ∧ m'.fixed = m.fixed ∧
      (m'.archiveAvailable = true → m.archiveAvailable = true) ∧
      (∀ r, (m'.row r).address = (m.row r).address) ∧
      ∀ a ∈ m.attempts, ∃ b ∈ m'.attempts, b.key = a.key ∧ a.Fated b) ∧
    (∀ entry ∈ store.tables .policy, ∃ kept ∈ last.tables .policy, entry.Continues kept) ∧
    (∀ q k row, store (.ledger q k) = some row → last (.ledger q k) = some row) ∧
    (∀ id r, store (.quota id) = some r → last (.quota id) = some r) ∧
    ∀ id x, store (.details id) = some x → last (.details id) = some x := by
  intro store last
  have earlier : Earlier store last := interleaving_later d events later
  refine ⟨fun id m found => ?_, earlier.tables.entries, fun q k row => earlier.ledger,
    fun id r => earlier.quota, fun id x => earlier.details⟩
  obtain ⟨m', found', lasts⟩ := earlier.messages found
  obtain ⟨same, again, successor⟩ := earlier.tables.messages found
  obtain rfl := Option.mem_unique again found'
  refine ⟨same, found', lasts.fixed, lasts.archive, successor.addresses, fun a member => ?_⟩
  obtain ⟨b, kept, survives⟩ := successor.attempts a member
  exact ⟨b, kept, survives.key, survives.fated⟩

end Histories

end RelayTale.Intake
