import RelayTale.Queue.Runs

/-!
# Lease and attempt

A message is either idle or leased to the worker of its newest attempt. The two
modes are defined so that they exclude each other, and every action moves
between them as a whole.
-/

namespace RelayTale.Queue

section Frame

structure Keyed (m : Message) : Prop where
  recipients : m.recipients.Nodup
  attempts : (m.attempts.map (·.id)).Nodup
  numbers : (m.attempts.map (·.number)).Pairwise (· > ·)
  counted : ∀ a ∈ m.attempts, a.number ≤ m.attemptCount
  envelopes : ∀ a ∈ m.attempts, a.recipients.Nodup ∧ a.recipients ⊆ m.recipients

/-- Nothing but the rows and the columns outside the keys has changed. -/
structure Framed (m m' : Message) : Prop where
  production : m'.production = m.production
  recipients : m'.recipients = m.recipients
  attemptCount : m'.attemptCount = m.attemptCount
  keys : m'.attempts.map Attempt.key = m.attempts.map Attempt.key

variable {m m' : Message}

theorem Framed.refl (m : Message) : Framed m m := ⟨rfl, rfl, rfl, rfl⟩

theorem map_of_keys {β : Type} (framed : Framed m m')
    (read : AttemptID × ProviderID × Nat × List RecipientID → β) :
    m'.attempts.map (fun a => read a.key) = m.attempts.map fun a => read a.key := by
  have mapped := congrArg (List.map read) framed.keys
  simpa only [List.map_map, Function.comp_def] using mapped

theorem Framed.exists_key (framed : Framed m m') {a : Attempt} (member : a ∈ m'.attempts) :
    ∃ b ∈ m.attempts, b.key = a.key := by
  have inside : a.key ∈ m'.attempts.map Attempt.key := List.mem_map_of_mem member
  rw [framed.keys] at inside
  exact List.mem_map.mp inside

theorem Framed.exists_id (framed : Framed m m') {a : Attempt} (member : a ∈ m'.attempts) :
    ∃ b ∈ m.attempts, b.id = a.id := by
  obtain ⟨b, inside, key⟩ := framed.exists_key member
  exact ⟨b, inside, congrArg (·.1) key⟩

theorem Keyed.of_framed (keyed : Keyed m) (framed : Framed m m') : Keyed m' where
  recipients := framed.recipients ▸ keyed.recipients
  attempts := by
    rw [show m'.attempts.map (·.id) = m.attempts.map (·.id) from map_of_keys framed (·.1)]
    exact keyed.attempts
  numbers := by
    rw [show m'.attempts.map (·.number) = m.attempts.map (·.number)
      from map_of_keys framed (·.2.2.1)]
    exact keyed.numbers
  counted a member := by
    obtain ⟨b, inside, same⟩ := framed.exists_key member
    have number : b.number = a.number := congrArg (·.2.2.1) same
    rw [framed.attemptCount, ← number]
    exact keyed.counted b inside
  envelopes a member := by
    obtain ⟨b, inside, same⟩ := framed.exists_key member
    have recipients : b.recipients = a.recipients := congrArg (·.2.2.2) same
    rw [framed.recipients, ← recipients]
    exact keyed.envelopes b inside

theorem framed_setAttempt (m : Message) (id : AttemptID) (update : Attempt → Attempt)
    (keeps : ∀ a, (update a).key = a.key) : Framed m (m.setAttempt id update) where
  production := rfl
  recipients := rfl
  attemptCount := rfl
  keys := by
    simp only [Message.setAttempt, List.map_map]
    apply List.map_congr_left
    intro a _
    simp only [Function.comp_apply]
    split
    · exact keeps a
    · rfl

end Frame

section Modes

variable {m : Message} {a : Attempt} {rest : List Attempt}

structure Idle (m : Message) : Prop where
  unlocked : m.lockedBy = none
  unleased : m.leaseExpiresAt = none
  status : m.status ≠ .sending
  rows : ∀ id ∈ m.recipients, (m.row id).status ≠ .sending

structure Leased (m : Message) (a : Attempt) (rest : List Attempt) : Prop where
  attempts : m.attempts = a :: rest
  locked : m.lockedBy = some a.claimToken
  leased : m.leaseExpiresAt.isSome = true
  status : m.status = .sending
  pending : a.result = .pending
  finished : ∀ b ∈ rest, b.result ≠ .pending
  sending : ∀ id ∈ m.recipients, (m.row id).status = .sending → id ∈ a.recipients
  members : ∀ id ∈ a.recipients, (m.row id).status = .sending ∨
    a.suppressionBlockedAt.isSome = true ∧ (m.row id).status = .suppressed

/-- The lease of a message agrees with its attempts and its recipients. -/
structure Coherent (m : Message) : Prop where
  keyed : Keyed m
  mode : Idle m ∨ ∃ a rest, Leased m a rest

theorem Coherent.idle (coherent : Coherent m) (unlocked : m.lockedBy = none) : Idle m := by
  rcases coherent.mode with idle | ⟨a, rest, leased⟩
  · exact idle
  · rw [leased.locked] at unlocked
    cases unlocked

theorem Coherent.leased (coherent : Coherent m) (status : m.status = .sending) :
    ∃ a rest, Leased m a rest := by
  rcases coherent.mode with idle | leased
  · exact absurd status idle.status
  · exact leased

/-- Every attempt in progress has a lease. A recovery that acts on an old snapshot can
leave one behind without. -/
def Message.Attended (m : Message) : Prop :=
  ∀ a ∈ m.attempts, a.result = .pending → m.lockedBy ≠ none

/-- An attempt in progress of a message that is held is the newest one and has the lease. -/
theorem Coherent.leased_of_pending (coherent : Coherent m) (locked : m.lockedBy ≠ none)
    (member : a ∈ m.attempts) (pending : a.result = .pending) : ∃ rest, Leased m a rest := by
  rcases coherent.mode with idle | ⟨b, rest, leased⟩
  · exact absurd idle.unlocked locked
  · rw [leased.attempts] at member
    rcases List.mem_cons.mp member with rfl | older
    · exact ⟨rest, leased⟩
    · exact absurd pending (leased.finished a older)

theorem Leased.current (leased : Leased m a rest) {job : Job} {b : Attempt}
    (current : m.current job = some b) : b = a ∧ a.id = job.attempt := by
  have member := List.mem_of_find?_eq_some current
  have found := List.find?_some current
  simp only [decide_eq_true_eq] at found
  rw [leased.attempts] at member
  rcases List.mem_cons.mp member with rfl | older
  · exact ⟨rfl, found.1⟩
  · exact absurd found.2.2 (leased.finished b older)

theorem Leased.find_pending (leased : Leased m a rest) {b : Attempt}
    (found : m.attempts.find? (·.result = .pending) = some b) : b = a := by
  rw [leased.attempts, List.find?_cons_of_pos (by simpa using leased.pending)] at found
  exact (Option.some.inj found).symm

theorem setAttempt_head {id : AttemptID} (head : a.id = id) (fresh : id ∉ rest.map (·.id))
    (update : Attempt → Attempt) (attempts : m.attempts = a :: rest) :
    (m.setAttempt id update).attempts = update a :: rest := by
  simp only [Message.setAttempt, attempts, List.map_cons, head, if_true]
  congr 1
  rw [List.map_congr_left fun b member => if_neg ?_]
  · exact List.map_id' rest
  · intro same
    exact fresh (same ▸ List.mem_map_of_mem member)

theorem Leased.fresh (leased : Leased m a rest) (keyed : Keyed m) : a.id ∉ rest.map (·.id) := by
  have distinct := keyed.attempts
  rw [leased.attempts, List.map_cons, List.nodup_cons] at distinct
  exact distinct.1

/-- An update of the leased attempt leaves the older ones alone. -/
theorem Leased.setAttempt (leased : Leased m a rest) (keyed : Keyed m)
    (update : Attempt → Attempt) : (m.setAttempt a.id update).attempts = update a :: rest :=
  setAttempt_head rfl (leased.fresh keyed) update leased.attempts

theorem rowsWith_eq_zero {status : Status} :
    m.rowsWith status = 0 ↔ ∀ id ∈ m.recipients, (m.row id).status ≠ status := by
  simp [Message.rowsWith, List.countP_eq_zero]

theorem projection_ne_sending (rows : ∀ id ∈ m.recipients, (m.row id).status ≠ .sending) :
    m.projection ≠ .sending := by
  have none : m.rowsWith .sending = 0 := rowsWith_eq_zero.mpr rows
  unfold Message.projection
  simp only [none, Nat.lt_irrefl, if_false]
  repeat' split
  all_goals decide

theorem projection_ne_cancelled : m.projection ≠ .cancelled := by
  simp only [Message.projection]
  repeat' split
  all_goals decide

theorem idle_refresh {now : Int} (unlocked : m.lockedBy = none)
    (unleased : m.leaseExpiresAt = none)
    (rows : ∀ id ∈ m.recipients, (m.row id).status ≠ .sending) : Idle (m.refresh now) :=
  ⟨unlocked, unleased, projection_ne_sending rows, rows⟩

end Modes

section Finish

theorem recordEvent_eq (event : Smtp.Event) (b : Attempt) :
    ∃ events, b.recordEvent event = { b with events } := by
  unfold Attempt.recordEvent
  split
  · exact ⟨b.events, rfl⟩
  · exact ⟨_, rfl⟩

theorem recordEvents_eq (events : List Smtp.Event) (b : Attempt) :
    ∃ stored, events.foldl (fun b event => b.recordEvent event) b = { b with events := stored } := by
  induction events generalizing b with
  | nil => exact ⟨b.events, rfl⟩
  | cons event events ih =>
    obtain ⟨first, once⟩ := recordEvent_eq event b
    obtain ⟨stored, all⟩ := ih (b.recordEvent event)
    refine ⟨stored, ?_⟩
    rw [List.foldl_cons, all, once]

variable [Primitives] {m m' : Message} {flags : Flags} {job : Job} {out : Smtp.Result}
variable {clock now : Int}

/-- A committed `Finish`: the newest attempt `a` becomes `b`, and every recipient
of its envelope takes the row that the loop computed for it. -/
structure Finishing (flags : Flags) (job : Job) (out : Smtp.Result) (clock now : Int)
    (m m' : Message) (a b : Attempt) (rest : List Attempt) (rows : RecipientID → Recipient) :
    Prop where
  leased : Leased m a rest
  attempt : a.id = job.attempt
  fenced : a.suppressionBlockedAt = none ∧ a.expiryBlockedAt = none ∨
    out.dataStartedAt = none ∧ out.finalResponseAt = none ∧ out.bytesSent = 0
  keeps : a.Keeps b
  result : b.result = .reported out.status
  covers : ∀ id ∈ a.recipients, ∃ rc ∈ out.recipients, rc.id = id ∧
    ∃ d, finishRow flags a out rc (m.row id) = .ok (rows id, d) ∧
      b.row id = ⟨.reported rc.status, d⟩
  outside : ∀ id, id ∉ a.recipients → rows id = m.row id
  message : m' = ({ m with row := rows, attempts := b :: rest }.unlock.applyExpiry clock).refresh now

theorem finish_finishing (coherent : Coherent m)
    (committed : finish flags job out clock now m = .ok m') :
    ∃ a b rest rows, Finishing flags job out clock now m m' a b rest rows := by
  obtain ⟨a', next, sending, -, current, fenced, complete, loop, rfl⟩ := finish_ok committed
  obtain ⟨a, rest, leased⟩ := coherent.leased sending
  obtain ⟨rfl, attempt⟩ := leased.current current
  have envelope := coherent.keyed.envelopes a' (leased.attempts ▸ List.mem_cons_self)
  obtain ⟨subset, distinct, write, looped⟩ := finishLoop_ok envelope.1 loop
  have everyone : ∀ id, id ∈ a'.recipients ↔ id ∈ out.recipients.map (·.id) := by
    have perm := (List.subperm_of_subset distinct subset).perm_of_length_le (by simp [complete])
    exact fun id => perm.mem_iff.symm
  obtain ⟨kept, sameResult⟩ := looped.keeps (a'.settled out)
  have sameId : (write (a'.settled out)).id = a'.id := congrArg (·.1) kept.key
  have fresh := leased.fresh coherent.keyed
  have attempts : next.attempts = write (a'.settled out) :: rest := by
    have settled := leased.setAttempt coherent.keyed (·.settled out)
    have sameId : (a'.settled out).id = a'.id := rfl
    exact looped.attempts.trans (setAttempt_head sameId fresh write settled)
  obtain ⟨events, stored⟩ := recordEvents_eq out.events (write (a'.settled out))
  refine ⟨a', { write (a'.settled out) with events }, rest, next.row, leased, attempt, fenced,
    ⟨kept.key, kept.claimToken, kept.dataArmedAt, kept.suppressionBlockedAt,
      kept.expiryBlockedAt⟩, sameResult, fun id member => ?_, fun id outside => ?_, ?_⟩
  · obtain ⟨rc, inside, rfl⟩ := List.mem_map.mp ((everyone id).mp member)
    obtain ⟨d, finished, decided⟩ := looped.written rc inside
    exact ⟨rc, inside, rfl, d, finished, decided _ rfl⟩
  · exact (looped.untouched id (fun inside => outside ((everyone id).mpr inside))).1
  · have recorded := setAttempt_head sameId fresh
      (fun b => out.events.foldl (fun b event => b.recordEvent event) b) attempts
    rw [stored] at recorded
    have others : next = { m with row := next.row, attempts := next.attempts } :=
      congrArg (fun x : Message => { x with row := next.row, attempts := next.attempts }) looped.rest
    congr 3
    calc next.setAttempt a'.id (fun b => out.events.foldl (fun b event => b.recordEvent event) b)
        = { next with attempts := { write (a'.settled out) with events } :: rest } := by
          rw [← recorded]
          rfl
      _ = _ := by rw [others]

end Finish

section Rows

variable {clock now : Int} {r r' : Recipient}

theorem Expires.not_sending (expires : Expires clock r r') (other : r.status ≠ .sending) :
    r'.status ≠ .sending := by
  cases expires with
  | kept => exact other
  | expired => simp [Recipient.expire]

theorem Schedules.not_sending {i : ScheduleInput} (schedules : Schedules i r r')
    (other : r.status ≠ .sending) : r'.status ≠ .sending := by
  cases schedules with
  | kept => exact other
  | exhausted => simp [Recipient.exhaust]
  | promoted => simp [Recipient.promote]

theorem Recovers.not_sending {armed : Bool} (recovers : Recovers now armed r r') :
    r'.status ≠ .sending := by
  cases recovers with
  | kept other => exact other
  | stranded | requeued => simp
  | exhausted => simp [Recipient.exhaust]

variable [Primitives]

theorem Suppresses.not_sending {entries : List Entry} (suppresses : Suppresses entries clock false r r')
    (other : r.status ≠ .sending) : r'.status ≠ .sending := by
  cases suppresses with
  | kept => exact other
  | suppressed => simp [Recipient.suppress]

/-- The statuses that `Finish` leaves in the rows it writes. -/
theorem Finished.status {flags : Flags} {a : Attempt} {out : Smtp.Result}
    {rc : Smtp.RecipientResult} {d : Option Delivery.Decision} (other : r.status ≠ .suppressed)
    (finished : Finished flags a out rc r r' d) :
    r'.status ∈ [Status.queued, .smtpAccepted, .tempFailed, .permFailed, .deliveryUnknown] := by
  have results {status : Status} (reported : Status.ofResult rc.status = some status) :
      status ∈ [Status.smtpAccepted, .tempFailed, .permFailed, .deliveryUnknown] := by
    revert reported
    cases rc.status <;> simp [Status.ofResult] <;> rintro rfl <;> simp
  cases finished with
  | resumed _ _ _ reported since =>
    simp only [Recipient.resume]
    split <;> simp
  | decided _ _ reported since =>
    have kept := results reported
    simp only [Recipient.decided, report_of_not_suppressed other]
    split
    · simp
    split
    · simp
    · exact List.mem_cons_of_mem _ kept

end Rows

section Actions

variable [Primitives] {entries : List Entry} {m m' : Message} {a : Attempt} {rest : List Attempt}

theorem picks_claimable {c : ClaimInput} {id : RecipientID} (picked : id ∈ picks entries c m) :
    id ∈ m.recipients ∧ (m.row id).claimable c.flags entries c.pickClock = true := by
  have sorted := List.mem_of_mem_take picked
  rw [List.mem_insertionSort] at sorted
  exact List.mem_filter.mp sorted

theorem picks_nodup (keyed : Keyed m) (c : ClaimInput) : (picks entries c m).Nodup := by
  refine List.Nodup.sublist (List.take_sublist _ _) ?_
  rw [(List.perm_insertionSort _ _).nodup_iff]
  exact keyed.recipients.filter _

def ClaimInput.attemptOf (c : ClaimInput) (ids : List RecipientID) (m : Message) : Attempt where
  id := c.attempt
  provider := c.provider
  number := m.attemptCount + 1
  claimToken := c.token
  recipients := ids

/-- A claim takes an idle message and leases it to a new attempt. -/
theorem claim_leases {c : ClaimInput} (coherent : Coherent m)
    (committed : claim entries c m = .ok m') :
    Idle m ∧ Keyed m' ∧ Leased m' (c.attemptOf (picks entries c m) m) m.attempts := by
  obtain ⟨rfl, -, -, -, fresh⟩ := claim_ok committed
  have idle : Idle m := by
    rcases coherent.mode with idle | ⟨a, rest, leased⟩
    · exact idle
    · exact absurd leased.pending (fresh a (leased.attempts ▸ List.mem_cons_self)).2.2
  refine ⟨idle, ?_, ?_⟩
  · have keyed := coherent.keyed
    constructor
    case recipients => exact keyed.recipients
    case attempts =>
      simp only [claimed, List.map_cons, List.nodup_cons]
      refine ⟨fun repeated => ?_, keyed.attempts⟩
      obtain ⟨a, member, same⟩ := List.mem_map.mp repeated
      exact (fresh a member).1 same
    case numbers =>
      simp only [claimed, List.map_cons, List.pairwise_cons]
      refine ⟨fun number older => ?_, keyed.numbers⟩
      obtain ⟨a, member, rfl⟩ := List.mem_map.mp older
      exact Nat.lt_succ_of_le (keyed.counted a member)
    case counted =>
      intro a member
      rcases List.mem_cons.mp member with rfl | older
      · exact le_refl _
      · exact Nat.le_succ_of_le (keyed.counted a older)
    case envelopes =>
      intro a member
      rcases List.mem_cons.mp member with rfl | older
      · exact ⟨picks_nodup keyed c, fun id picked => (picks_claimable picked).1⟩
      · exact keyed.envelopes a older
  · refine ⟨rfl, rfl, rfl, rfl, rfl, fun a older => (fresh a older).2.2, fun id member sending => ?_,
      fun id picked => ?_⟩
    · by_contra outside
      have missing : id ∉ picks entries c m := outside
      exact idle.rows id member (by simpa [claimed, missing] using sending)
    · exact .inl (by simp [claimed, Recipient.claim, show id ∈ picks entries c m from picked])

omit [Primitives] in
theorem Leased.update {a b : Attempt} (leased : Leased m a rest)
    (attempts : m'.attempts = b :: rest) (locked : m'.lockedBy = m.lockedBy)
    (lease : m'.leaseExpiresAt = m.leaseExpiresAt) (status : m'.status = m.status)
    (recipients : m'.recipients = m.recipients) (token : b.claimToken = a.claimToken)
    (result : b.result = a.result) (envelope : b.recipients = a.recipients)
    (rows : ∀ id, (m'.row id).status = (m.row id).status ∧
        b.suppressionBlockedAt = a.suppressionBlockedAt ∨
      b.suppressionBlockedAt.isSome = true ∧ ((m'.row id).status = (m.row id).status ∨
        (m'.row id).status = .suppressed)) : Leased m' b rest where
  attempts := attempts
  locked := by rw [locked, token, leased.locked]
  leased := lease ▸ leased.leased
  status := status.trans leased.status
  pending := result.trans leased.pending
  finished := leased.finished
  sending id member sending := by
    rw [envelope]
    rw [recipients] at member
    apply leased.sending id member
    rcases rows id with ⟨same, -⟩ | ⟨-, same | suppressed⟩
    · exact same.symm.trans sending
    · exact same.symm.trans sending
    · cases suppressed.symm.trans sending
  members id member := by
    rw [envelope] at member
    rcases rows id with ⟨same, blocked⟩ | ⟨blocked, same | suppressed⟩
    · rw [same, blocked]
      exact leased.members id member
    · rw [same]
      exact (leased.members id member).imp_right fun suppressed => ⟨blocked, suppressed.2⟩
    · exact .inr ⟨blocked, suppressed⟩

theorem Armed.attempts {i : ArmInput} {answer : Message × Gate} (leased : Leased m a rest)
    (keyed : Keyed m) (armed : Armed entries i a m answer) :
    ∃ b, answer.1.attempts = b :: rest ∧ b.key = a.key ∧ (answer.2 = .armed → b.dataArmedAt.isSome) ∧
      Leased answer.1 b rest ∧ Framed m answer.1 := by
  cases armed with
  | suppressed hit =>
    have attempts := leased.setAttempt keyed
      fun a => { a with suppressionBlockedAt := some i.policyClock }
    refine ⟨_, attempts, rfl, nofun, leased.update attempts rfl rfl rfl rfl rfl rfl rfl ?_, ?_⟩
    · intro id
      refine .inr ⟨rfl, ?_⟩
      generalize row_eq : Message.row _ id = row
      have suppresses := suppressHits_row entries i.policyClock true m id
      rw [show (m.suppressHits entries i.policyClock true).row id = row from row_eq] at suppresses
      cases suppresses with
      | kept => exact .inl rfl
      | suppressed => exact .inr rfl
    · have keys := (framed_setAttempt (m.suppressHits entries i.policyClock true) a.id
        (fun a => { a with suppressionBlockedAt := some i.policyClock }) fun _ => rfl).keys
      exact ⟨rfl, rfl, rfl, keys⟩
  | expired clear =>
    have attempts := leased.setAttempt keyed
      fun a => { a with expiryBlockedAt := some i.deadlineClock }
    exact ⟨_, attempts, rfl, nofun,
      leased.update attempts rfl rfl rfl rfl rfl rfl rfl fun id => .inl ⟨rfl, rfl⟩,
      framed_setAttempt m a.id _ fun _ => rfl⟩
  | armed clear =>
    have attempts := leased.setAttempt keyed
      fun a => { a with dataArmedAt := some i.deadlineClock }
    exact ⟨_, attempts, rfl, fun _ => rfl,
      leased.update attempts rfl rfl rfl rfl rfl rfl rfl fun id => .inl ⟨rfl, rfl⟩,
      framed_setAttempt m a.id _ fun _ => rfl⟩

theorem armData_armed {job : Job} {i : ArmInput} {answer : Message × Gate}
    (coherent : Coherent m) (committed : armData entries job i m = .ok answer) :
    ∃ a rest, Leased m a rest ∧ a.id = job.attempt ∧ a.dataArmedAt = none ∧
      a.suppressionBlockedAt = none ∧ Armed entries i a m answer := by
  obtain ⟨b, sending, -, current, unarmed, -, unblocked, armed⟩ := armData_ok committed
  obtain ⟨a, rest, leased⟩ := coherent.leased sending
  obtain ⟨rfl, attempt⟩ := leased.current current
  exact ⟨b, rest, leased, attempt, unarmed, unblocked, armed⟩

omit [Primitives] in
/-- `Record` adds events and nothing else. -/
theorem record_events {job : Job} {event : Smtp.Event} {clock : Int}
    (committed : record job event clock m = .ok m') :
    m.status = .sending ∧ ∃ f : Attempt → Attempt, (∀ a, ∃ events, f a = { a with events }) ∧
      m' = { m with attempts := m.attempts.map f } := by
  obtain ⟨sending, -, rfl⟩ := record_ok committed
  refine ⟨sending, _, fun a => ?_, rfl⟩
  simp only
  split
  · exact recordEvent_eq event a
  · exact ⟨a.events, rfl⟩

omit [Primitives] in
theorem Leased.record (leased : Leased m a rest) {f : Attempt → Attempt}
    (added : ∀ a, ∃ events, f a = { a with events }) :
    Leased { m with attempts := m.attempts.map f } (f a) (rest.map f) := by
  obtain ⟨events, same⟩ := added a
  have attempts : m.attempts.map f = f a :: rest.map f := by
    rw [leased.attempts, List.map_cons]
  rw [same] at attempts ⊢
  refine ⟨attempts, leased.locked, leased.leased, leased.status, leased.pending, ?_,
    leased.sending, leased.members⟩
  intro b member
  obtain ⟨old, older, rfl⟩ := List.mem_map.mp member
  obtain ⟨events, same⟩ := added old
  rw [same]
  exact leased.finished old older

section Finish

variable {flags : Flags} {job : Job} {out : Smtp.Result} {clock now : Int} {a b : Attempt}
variable {rest : List Attempt} {rows : RecipientID → Recipient}
variable (finishing : Finishing flags job out clock now m m' a b rest rows)

include finishing

/-- A recipient of a finished envelope was either suppressed at the fence and is
left alone, or was sending and takes its result. -/
theorem Finishing.row {id : RecipientID} (member : id ∈ a.recipients) :
    (a.suppressionBlockedAt.isSome = true ∧ (m.row id).status = .suppressed ∧ rows id = m.row id) ∨
      (m.row id).status = .sending ∧ ∃ rc ∈ out.recipients, rc.id = id ∧
        ∃ d, Finished flags a out rc (m.row id) (rows id) d ∧
          b.row id = ⟨.reported rc.status, d⟩ := by
  obtain ⟨rc, inside, same, d, finished, kept⟩ := finishing.covers id member
  rcases finishing.leased.members id member with sending | ⟨blocked, suppressed⟩
  · refine .inr ⟨sending, rc, inside, same, d, finishRow_ok ?_ finished, kept⟩
    simp [sending]
  · exact .inl ⟨blocked, suppressed, finishRow_suppressed suppressed blocked finished⟩

theorem Finishing.not_sending {id : RecipientID} (member : id ∈ m.recipients) :
    (rows id).status ≠ .sending := by
  by_cases inside : id ∈ a.recipients
  · rcases finishing.row inside with ⟨-, suppressed, same⟩ | ⟨sending, rc, -, -, d, finished, -⟩
    · simp [same, suppressed]
    · have written := finished.status (by simp [sending])
      intro again
      simp [again] at written
  · rw [finishing.outside id inside]
    exact fun sending => inside (finishing.leased.sending id member sending)

theorem Finishing.framed : Framed m m' := by
  rw [finishing.message]
  refine ⟨rfl, rfl, rfl, ?_⟩
  simp only [Message.refresh, Message.applyExpiry, Message.unlock, finishing.leased.attempts,
    List.map_cons, finishing.keeps.key]

theorem Finishing.idle : Idle m' := by
  rw [finishing.message]
  refine idle_refresh rfl rfl fun id member => ?_
  exact (applyExpiry_row _ clock id).not_sending (finishing.not_sending member)

end Finish

omit [Primitives] in
theorem recover_leased {i : RecoverInput} (coherent : Coherent m)
    (committed : recover i m = .ok m') :
    ∃ a rest, Leased m a rest ∧ m.leaseExpiresAt.any (· ≤ i.leaseClock) = true ∧
      m' = recoverAttempt i a.id a.dataArmedAt.isSome m := by
  obtain ⟨b, sending, expired, found, rfl⟩ := recover_ok committed
  obtain ⟨a, rest, leased⟩ := coherent.leased sending
  obtain rfl := leased.find_pending found
  exact ⟨b, rest, leased, expired, rfl⟩

omit [Primitives] in
theorem recoverAttempt_framed (i : RecoverInput) (attempt : AttemptID) (armed : Bool)
    (m : Message) : Framed m (recoverAttempt i attempt armed m) := by
  obtain ⟨rows, status, next, completed, -, same⟩ := recoverAttempt_eq i attempt armed m
  rw [same]
  exact ⟨rfl, rfl, rfl, (framed_setAttempt m attempt (·.abandoned armed) fun _ => rfl).keys⟩

omit [Primitives] in
theorem recoverAttempt_attempts (leased : Leased m a rest) (keyed : Keyed m) (i : RecoverInput)
    (armed : Bool) : (recoverAttempt i a.id armed m).attempts = a.abandoned armed :: rest := by
  obtain ⟨rows, status, next, completed, -, same⟩ := recoverAttempt_eq i a.id armed m
  rw [same]
  exact leased.setAttempt keyed (·.abandoned armed)

omit [Primitives] in
theorem recoverAttempt_mem {i : RecoverInput} {attempt : AttemptID} {armed : Bool} {b : Attempt} :
    b ∈ (recoverAttempt i attempt armed m).attempts ↔
      ∃ a ∈ m.attempts, a.id = attempt ∧ b = a.abandoned armed ∨ a.id ≠ attempt ∧ b = a := by
  obtain ⟨rows, status, next, completed, -, same⟩ := recoverAttempt_eq i attempt armed m
  rw [same]
  refine List.mem_map.trans (exists_congr fun a => and_congr_right fun _ => ?_)
  by_cases own : a.id = attempt <;> simp [own, @eq_comm _ b]

omit [Primitives] in
theorem recoverAttempt_idle (i : RecoverInput) (attempt : AttemptID) (armed : Bool) (m : Message) :
    Idle (recoverAttempt i attempt armed m) := by
  obtain ⟨rows, status, next, completed, recovers, same⟩ := recoverAttempt_eq i attempt armed m
  rw [same]
  refine idle_refresh rfl rfl fun id _ => ?_
  exact (applyExpiry_row _ _ id).not_sending (recovers id).not_sending

end Actions

end RelayTale.Queue
