import RelayTale.Queue.Projection
import Mathlib.Data.List.Destutter

/-!
# Failover

The provider of a message changes only while every open recipient carries
evidence that nothing of the message can have left. The route is the provider
of the newest attempt, and evidence kept by older attempts is never rewritten,
so recipients that follow in later batches change provider safely too.
-/

namespace RelayTale.Queue

open Guard

section Latest

variable {attempts rest : List Attempt} {a : Attempt} {id : RecipientID}

/-- The newest attempt with the recipient, read off the order of the attempts. -/
def lastTry (attempts : List Attempt) (id : RecipientID) : Option Attempt :=
  attempts.find? fun a => id ∈ a.recipients

theorem lastTry_cons_of_mem (member : id ∈ a.recipients) : lastTry (a :: rest) id = some a := by
  simp [lastTry, member]

theorem lastTry_cons_of_not_mem (outside : id ∉ a.recipients) :
    lastTry (a :: rest) id = lastTry rest id := by
  simp [lastTry, outside]

theorem latestNumber_cons_of_not_mem (outside : id ∉ a.recipients) :
    Message.latestNumber (a :: rest) id = Message.latestNumber rest id := by
  simp [Message.latestNumber, outside]

theorem latestNumber_cons_of_mem (newest : ∀ b ∈ rest, a.number > b.number)
    (member : id ∈ a.recipients) : Message.latestNumber (a :: rest) id = some a.number := by
  rw [Message.latestNumber, List.filter_cons_of_pos (by simpa using member), List.map_cons,
    List.max?_eq_some_iff]
  refine ⟨List.mem_cons_self, fun number listed => ?_⟩
  rcases List.mem_cons.mp listed with rfl | older
  · exact le_rfl
  · obtain ⟨b, inside, rfl⟩ := List.mem_map.mp older
    exact (newest b (List.mem_of_mem_filter inside)).le

/-- The query by number finds the newest attempt with the recipient. -/
theorem latestAttempt_eq (numbers : (attempts.map (·.number)).Pairwise (· > ·)) :
    Message.latestAttempt attempts id = lastTry attempts id := by
  induction attempts with
  | nil => rfl
  | cons a rest ih =>
    rw [List.map_cons, List.pairwise_cons] at numbers
    obtain ⟨newest, numbers⟩ := numbers
    by_cases member : id ∈ a.recipients
    · have latest := latestNumber_cons_of_mem (fun b inside =>
        newest b.number (List.mem_map_of_mem inside)) member
      rw [lastTry_cons_of_mem member, Message.latestAttempt, latest]
      simp [member]
    · rw [lastTry_cons_of_not_mem member, ← ih numbers, Message.latestAttempt,
        latestNumber_cons_of_not_mem member]
      simp [member, Message.latestAttempt]

theorem lastTry_of_number (numbers : (attempts.map (·.number)).Pairwise (· > ·))
    (inside : a ∈ attempts) (member : id ∈ a.recipients)
    (latest : some a.number = Message.latestNumber attempts id) : lastTry attempts id = some a := by
  induction attempts with
  | nil => cases inside
  | cons b rest ih =>
    rw [List.map_cons, List.pairwise_cons] at numbers
    obtain ⟨newest, numbers⟩ := numbers
    by_cases first : id ∈ b.recipients
    · have number := latestNumber_cons_of_mem (fun c inside =>
        newest c.number (List.mem_map_of_mem inside)) first
      rw [lastTry_cons_of_mem first]
      rcases List.mem_cons.mp inside with rfl | older
      · rfl
      · have smaller := newest a.number (List.mem_map_of_mem older)
        have same := Option.some.inj (latest.trans number)
        omega
    · rw [lastTry_cons_of_not_mem first]
      rcases List.mem_cons.mp inside with rfl | older
      · exact absurd member first
      · exact ih numbers older (latest.trans (latestNumber_cons_of_not_mem first))

end Latest

section Sequence

variable {provider : ProviderID} {providers : List ProviderID}

theorem destutter_repeated :
    (provider :: provider :: providers).destutter (· ≠ ·) =
      (provider :: providers).destutter (· ≠ ·) := by
  simp [List.destutter, List.destutter']

theorem destutter_fresh (fresh : provider ∉ providers) :
    (provider :: providers).destutter (· ≠ ·) = provider :: providers.destutter (· ≠ ·) := by
  cases providers with
  | nil => rfl
  | cons next rest =>
    have different : provider ≠ next := fun same => fresh (same ▸ List.mem_cons_self)
    simp [List.destutter, List.destutter', different]

end Sequence

section Routed

def Message.providers (m : Message) : List ProviderID := m.attempts.map (·.provider)

/-- The last attempt of the recipient was at the route, or has left evidence on
which the recipient may change provider. -/
def Message.SafeFor (m : Message) (id : RecipientID) : Prop :=
  ∀ b, lastTry m.attempts id = some b →
    m.route = some b.provider ∨ (b.row id).decision.any safeDecision = true

structure Routed (m : Message) : Prop where
  route : m.route = m.providers.head?
  few : m.providers.dedup.length ≤ 3
  sequence : (m.providers.destutter (· ≠ ·)).Nodup
  safe : ∀ id ∈ m.recipients, (m.row id).status ∉ finishedStatuses → m.SafeFor id
  unknown : ∀ id ∈ m.recipients, (m.row id).status = .deliveryUnknown →
    ∃ a rest, m.attempts = a :: rest ∧ id ∈ a.recipients

variable {m m' : Message} {id : RecipientID}

theorem Written.providers (written : Written m m') : m'.providers = m.providers := by
  cases written with
  | unchanged same => rw [Message.providers, same]; rfl
  | @newest a b rest f leased key fated added attempts =>
    have head : b.provider = a.provider := congrArg (·.2.1) key
    have older : (rest.map f).map (·.provider) = rest.map (·.provider) := by
      rw [List.map_map]
      apply List.map_congr_left
      intro x _
      obtain ⟨events, same⟩ := added x
      simp [same]
    simp only [Message.providers, attempts, leased.attempts, List.map_cons, head, older]

theorem lastTry_map {rest : List Attempt} {f : Attempt → Attempt}
    (added : ∀ x, ∃ events, f x = { x with events }) :
    lastTry (rest.map f) id = (lastTry rest id).map f := by
  have same (x : Attempt) : (f x).recipients = x.recipients := by
    obtain ⟨events, same⟩ := added x
    rw [same]
  simp only [lastTry, List.find?_map, Function.comp_def, same]

/-- Evidence survives every action that is not a claim, as long as the route
stays. -/
theorem Written.safeFor (written : Written m m') (route : m'.route = m.route)
    (head : m.route = m.providers.head?) (safe : m.SafeFor id) : m'.SafeFor id := by
  cases written with
  | unchanged same =>
    intro b found
    rw [route]
    exact safe b (same ▸ found)
  | @newest a b rest f leased key fated added attempts =>
    have recipients : b.recipients = a.recipients := congrArg (·.2.2.2) key
    have provider : b.provider = a.provider := congrArg (·.2.1) key
    intro last found
    rw [attempts] at found
    rw [route]
    by_cases member : id ∈ b.recipients
    · rw [lastTry_cons_of_mem member] at found
      obtain rfl := Option.some.inj found
      left
      rw [head, Message.providers, leased.attempts, provider]
      rfl
    · rw [lastTry_cons_of_not_mem member, lastTry_map added, Option.map_eq_some_iff] at found
      obtain ⟨old, found, rfl⟩ := found
      obtain ⟨events, same⟩ := added old
      rw [same]
      refine safe old ?_
      rw [leased.attempts, lastTry_cons_of_not_mem (recipients ▸ member)]
      exact found

theorem Written.exists_head (written : Written m m')
    (old : ∃ a rest, m.attempts = a :: rest ∧ id ∈ a.recipients) :
    ∃ a rest, m'.attempts = a :: rest ∧ id ∈ a.recipients := by
  cases written with
  | unchanged same => rwa [same]
  | @newest a b rest f leased key fated added attempts =>
    obtain ⟨c, others, same, member⟩ := old
    obtain ⟨rfl, -⟩ := List.cons.inj (leased.attempts.symm.trans same)
    have recipients : b.recipients = a.recipients := congrArg (·.2.2.2) key
    exact ⟨b, _, attempts, recipients ▸ member⟩

end Routed

section Claims

inductive Admits (clock : Int) (provider : ProviderID) (m : Message) : Prop
  | unrouted (route : m.route = none)
  | pinned (route : m.route = some provider)
  | failover (few : m.providers.dedup.length < 3)
      (movable : ∀ id ∈ m.recipients, movable clock m id = true) (fresh : provider ∉ m.providers)

variable {m m' : Message} {id : RecipientID} {clock : Int} {provider : ProviderID}

theorem routeAllows_admits {flags : Flags} (allowed : routeAllows flags clock provider m = true) :
    Admits clock provider m := by
  simp only [routeAllows, Bool.or_eq_true, Bool.and_eq_true, decide_eq_true_eq,
    Option.isNone_iff_eq_none, safeFailover, List.all_eq_true] at allowed
  rcases allowed with (unrouted | pinned) | ⟨⟨-, ⟨-, few⟩, movable⟩, fresh⟩
  · exact .unrouted unrouted
  · exact .pinned pinned
  · refine .failover few movable fun listed => ?_
    obtain ⟨a, inside, same⟩ := List.mem_map.mp listed
    exact fresh a inside same

theorem movable_safe (keyed : Keyed m) (moves : movable clock m id = true)
    (unfinished : (m.row id).status ∉ finishedStatuses) {b : Attempt}
    (last : lastTry m.attempts id = some b) : (b.row id).decision.any safeDecision = true := by
  simp only [movable, Bool.or_eq_true, decide_eq_true_eq, unfinished, false_or, Bool.and_eq_true,
    List.any_eq_true] at moves
  obtain ⟨-, a, inside, ⟨⟨⟨member, -⟩, -⟩, safe⟩, latest⟩ := moves
  have found := lastTry_of_number keyed.numbers inside member latest
  obtain rfl := Option.mem_unique last found
  exact safe

theorem Routed.unattempted (routed : Routed m) (unrouted : m.route = none) : m.attempts = [] := by
  have head := routed.route
  rw [unrouted] at head
  cases attempts : m.attempts with
  | nil => rfl
  | cons a rest => simp [Message.providers, attempts] at head

/-- Where another provider is admitted, every open recipient that was tried
elsewhere carries safe evidence. -/
theorem Routed.safe_of_moved (routed : Routed m) (keyed : Keyed m)
    (admits : Admits clock provider m) (member : id ∈ m.recipients)
    (unfinished : (m.row id).status ∉ finishedStatuses) {b : Attempt}
    (last : lastTry m.attempts id = some b) (moved : b.provider ≠ provider) :
    (b.row id).decision.any safeDecision = true := by
  cases admits with
  | unrouted route => simp [routed.unattempted route, lastTry] at last
  | pinned route =>
    refine (routed.safe id member unfinished b last).resolve_left fun same => ?_
    exact moved (Option.mem_unique same route)
  | failover few movable fresh => exact movable_safe keyed (movable id member) unfinished last

variable [Primitives] {entries : List Entry} {i : ClaimInput}

/-- A claim keeps the route, the providers and the evidence in order. -/
theorem claim_routed (routed : Routed m) (valid : Valid m)
    (known : ∀ id ∈ m.recipients, (m.row id).status ≠ .deliveryUnknown)
    (committed : claim entries i m = .ok m') : Routed m' := by
  obtain ⟨same, -, allowed, -, -⟩ := claim_ok committed
  have admits := routeAllows_admits allowed
  have providers : m'.providers = i.provider :: m.providers := by
    rw [same]
    rfl
  have route : m'.route = some i.provider := by rw [same]; rfl
  constructor
  case route => rw [providers, route]; rfl
  case few =>
    rw [providers]
    cases admits with
    | unrouted route =>
      simp [Message.providers, routed.unattempted route]
    | pinned route =>
      have listed : i.provider ∈ m.providers := by
        rw [routed.route] at route
        exact List.mem_of_mem_head? route
      rw [List.dedup_cons_of_mem listed]
      exact routed.few
    | failover few _ fresh =>
      rw [List.dedup_cons_of_notMem fresh, List.length_cons]
      omega
  case sequence =>
    rw [providers]
    cases admits with
    | unrouted route =>
      simp [Message.providers, routed.unattempted route]
    | pinned route =>
      rw [routed.route] at route
      obtain ⟨older, shape⟩ := List.head?_eq_some_iff.mp route
      rw [shape, destutter_repeated, ← shape]
      exact routed.sequence
    | failover _ _ fresh =>
      rw [destutter_fresh fresh, List.nodup_cons]
      exact ⟨fun listed => fresh ((List.destutter_sublist _ _).subset listed), routed.sequence⟩
  case safe =>
    rw [same]
    intro id member unfinished b last
    by_cases picked : id ∈ picks entries i m
    · have first : lastTry (claimed i (picks entries i m) m).attempts id = some _ :=
        lastTry_cons_of_mem (show id ∈ (i.attemptOf (picks entries i m) m).recipients from picked)
      obtain rfl := Option.mem_unique first last
      exact .inl rfl
    · have older : lastTry m.attempts id = some b := by
        rw [← last]
        exact (lastTry_cons_of_not_mem
          (show id ∉ (i.attemptOf (picks entries i m) m).recipients from picked)).symm
      have still : (m.row id).status ∉ finishedStatuses := by
        simpa [claimed, picked] using unfinished
      by_cases moved : b.provider = i.provider
      · exact .inl (by rw [moved]; rfl)
      · exact .inr (routed.safe_of_moved valid.coherent.keyed admits member still older moved)
  case unknown =>
    rw [same]
    intro id member unknown
    by_cases picked : id ∈ picks entries i m
    · simp [claimed, picked, Recipient.claim] at unknown
    · exact absurd (by simpa [claimed, picked] using unknown) (known id member)

end Claims

section Runs

variable [Primitives] {c : Commit} {m : Message}

theorem unknown_origin {id : RecipientID} (valid : Valid c.before)
    (unknown : (c.after.row id).status = .deliveryUnknown) :
    (c.before.row id).status = .deliveryUnknown ∨ (c.before.row id).status = .sending := by
  refine changes_keep (P := fun r => r.status = .deliveryUnknown →
    (c.before.row id).status = .deliveryUnknown ∨ (c.before.row id).status = .sending)
    (fun r r' change _ => ?_) (valid.changes id) .inl unknown
  cases change with
  | claimed | suppressed | expired | exhausted | promoted | requeued | cancelled => rintro ⟨⟩
  | finished _ _ _ _ sending | stranded _ _ sending => exact fun _ => .inr sending
  | @resolved v =>
    simp only [Recipient.resolve]
    cases v.action <;> rintro ⟨⟩

theorem finished_unchanged {id : RecipientID} (valid : Valid c.before)
    (finished : (c.before.row id).status ∈ finishedStatuses) :
    c.after.row id = c.before.row id := by
  refine unchanged (fun next change => ?_) (valid.changes id)
  rcases change.opened with pending | sending | unknown
  · rcases pending_iff.mp pending with status | status <;>
      simp [status, finishedStatuses] at finished
  · simp [sending, finishedStatuses] at finished
  · simp [unknown, finishedStatuses] at finished

/-- An operator's retry writes the route that the message has. -/
theorem resolve_route (valid : Valid c.before) (routed : Routed c.before) {v : Resolution}
    (action : c.action = .resolveUnknown v) : c.after.route = c.before.route := by
  have performed := c.performed
  rw [action] at performed
  obtain ⟨a, -, member, -, latest, unknown, -, -, -, resolved, same, shape⟩ :=
    resolveUnknown_ok performed
  rw [same, shape]
  simp only [Message.refresh]
  split
  · obtain ⟨b, rest, attempts, inside⟩ := routed.unknown v.recipient member unknown
    rw [latestAttempt_eq valid.coherent.keyed.numbers, attempts, lastTry_cons_of_mem inside] at latest
    obtain rfl := Option.some.inj latest
    rw [routed.route, Message.providers, attempts]
    rfl
  · rfl

theorem written_routed (valid : Valid c.before) (routed : Routed c.before)
    (written : Written c.before c.after) (route : c.after.route = c.before.route) :
    Routed c.after := by
  have recipients := commit_recipients c valid.coherent
  constructor
  case route => rw [route, written.providers, routed.route]
  case few => rw [written.providers]; exact routed.few
  case sequence => rw [written.providers]; exact routed.sequence
  case safe =>
    intro id member unfinished
    rw [recipients] at member
    refine written.safeFor route routed.route (routed.safe id member fun finished => ?_)
    rw [finished_unchanged valid finished] at unfinished
    exact unfinished finished
  case unknown =>
    intro id member unknown
    rw [recipients] at member
    rcases unknown_origin valid unknown with before | sending
    · exact written.exists_head (routed.unknown id member before)
    · rcases valid.coherent.mode with idle | ⟨a, rest, leased⟩
      · exact absurd sending (idle.rows id member)
      · exact written.exists_head ⟨a, rest, leased.attempts, leased.sending id member sending⟩

/-- The invariant of failover, with what it rests on. -/
structure Placed (m : Message) : Prop where
  valid : Valid m
  projected : m.Projected
  shelved : m.Shelved
  routed : Routed m

theorem commit_placed (c : Commit) (placed : Placed c.before) : Placed c.after := by
  obtain ⟨valid, projected, shelved, routed⟩ := placed
  refine ⟨commit_valid c valid, commit_projected valid projected, commit_shelved valid shelved, ?_⟩
  have claims {i : ClaimInput} (action : c.action = .claim i) : Routed c.after := by
    have performed := c.performed
    rw [action] at performed
    exact claim_routed routed valid
      (fun id member => claim_known valid projected shelved performed member) performed
  obtain ⟨columns, ⟨i, action⟩ | written⟩ := commit_frame c valid.coherent
  · exact claims action
  · rcases columns.route with ⟨i, action⟩ | ⟨v, action⟩ | route
    · exact claims action
    · exact written_routed valid routed written (resolve_route valid routed action)
    · exact written_routed valid routed written route

theorem enqueue_placed {entries : List Entry} {s : Submission}
    (created : s.enqueue entries = .ok m) : Placed m := by
  refine ⟨enqueue_valid created, enqueue_projected created, enqueue_shelved created, ?_⟩
  obtain ⟨unattempted, unrouted, rows⟩ := enqueue_fresh created
  have providers : m.providers = [] := by simp [Message.providers, unattempted]
  constructor
  case route => simp [unrouted, providers]
  case few => simp [providers]
  case sequence => simp [providers]
  case safe => simp [Message.SafeFor, unattempted, lastTry]
  case unknown =>
    intro id _ unknown
    simpa [unknown] using (rows id).2

theorem Reachable.placed {db : Db} (reached : Reachable db) {id : MessageID}
    (found : db.messages id = some m) : Placed m :=
  reached.invariant (fun _ _ _ => enqueue_placed) commit_placed found

/-- A recipient changes provider only on evidence that permits it, a message
uses at most three providers and returns to none it has left, and its route is
the provider of its newest attempt. -/
theorem failover_safety {db : Db} (reached : Reachable db) {id : MessageID} {m : Message}
    (found : db.messages id = some m) :
    (∀ i m', claim db.entries i m = .ok m' → ∀ r ∈ picks db.entries i m, ∀ a,
      Message.latestAttempt m.attempts r = some a → a.provider ≠ i.provider →
      ∃ d, (a.row r).decision = some d ∧ d.version = 2 ∧ d.action = .retry ∧
        d.failoverAllowed = true ∧ d.mayHaveDelivered = false) ∧
    distinctProviders m.attempts ≤ 3 ∧
    ((m.attempts.map (·.provider)).destutter (· ≠ ·)).Nodup ∧
    ∀ a rest, m.attempts = a :: rest → m.route = some a.provider := by
  obtain ⟨valid, -, -, routed⟩ := reached.placed found
  refine ⟨?_, routed.few, routed.sequence, ?_⟩
  · intro i m' committed r picked a latest moved
    rw [latestAttempt_eq valid.coherent.keyed.numbers] at latest
    obtain ⟨-, -, allowed, -, -⟩ := claim_ok committed
    have unfinished : (m.row r).status ∉ finishedStatuses := by
      simp [picked_queued picked, finishedStatuses]
    have safe := routed.safe_of_moved valid.coherent.keyed (routeAllows_admits allowed)
      (picks_claimable picked).1 unfinished latest moved
    obtain ⟨d, decided, evidence⟩ := (Option.any_eq_true _ _).mp safe
    simp only [safeDecision, Bool.and_eq_true, decide_eq_true_eq, Bool.not_eq_true'] at evidence
    exact ⟨d, decided, evidence.1.1.1, evidence.1.1.2, evidence.1.2, evidence.2⟩
  · intro a rest attempts
    rw [routed.route, Message.providers, attempts]
    rfl

end Runs

section Witness

attribute [local instance] plain

theorem failover_safety_of_rescheduledRun :
    ∃ m m' a d, (Db.empty.run rescheduledRun).messages 0 = some m ∧
      claim (Db.empty.run rescheduledRun).entries (claimAt 2 11 8 (3 * minute)) m = .ok m' ∧
      Message.latestAttempt m.attempts 1 = some a ∧ a.provider = 1 ∧
      (a.row 1).decision = some d ∧ d.failoverAllowed = true ∧ d.mayHaveDelivered = false := by
  have check : ((Db.empty.run rescheduledRun).messages 0).any (fun m =>
      (claim (Db.empty.run rescheduledRun).entries (claimAt 2 11 8 (3 * minute)) m).isOk &&
        decide (1 ∈ picks (Db.empty.run rescheduledRun).entries (claimAt 2 11 8 (3 * minute)) m) &&
        (Message.latestAttempt m.attempts 1).any (·.provider = 1)) = true := by
    decide
  obtain ⟨m, found, check⟩ := (Option.any_eq_true _ _).mp check
  rw [Bool.and_eq_true, Bool.and_eq_true, decide_eq_true_eq] at check
  obtain ⟨⟨commits, picked⟩, tried⟩ := check
  obtain ⟨a, latest, provider⟩ := (Option.any_eq_true _ _).mp tried
  rw [decide_eq_true_eq] at provider
  cases committed : claim (Db.empty.run rescheduledRun).entries (claimAt 2 11 8 (3 * minute)) m with
  | error refusal => simp [committed, Except.isOk, Except.toBool] at commits
  | ok m' =>
    obtain ⟨moves, -⟩ := @failover_safety plain (Db.empty.run rescheduledRun) ⟨_, rfl⟩ 0 m found
    obtain ⟨d, decided, -, -, allowed, undelivered⟩ :=
      moves _ m' committed 1 picked a latest (by rw [provider]; decide)
    exact ⟨m, m', a, d, found, committed, latest, provider, decided, allowed, undelivered⟩

end Witness

end RelayTale.Queue
