import RelayTale.Queue.Interleaving
import RelayTale.Queue.Retransmission

/-!
# The suppression fence

An address that is added to the policy is not written to by any DATA authorized
later, however the statements of the transactions interleave. An attempt that
the fence has blocked is never armed and its listed recipients stay suppressed.
The others go back to the queue, unless their own RCPT replies, their budget or
the deadline of the message decide otherwise. Only this last part depends on the
run: a recovery that read its snapshot before the attempt was claimed gives up an
older attempt in its place, and may take the recipients for sent.
-/

namespace RelayTale.Queue

open Locking Guard
open Locking.Program (ifOk_yields)

section Dispatch

/-- The worker was told that the fence has blocked the envelope, or did not get
the answer of the database. -/
def Dispatch.refused (recipients : List Smtp.Recipient) : Dispatch → Prop
  | .sent session =>
      .fenced false ∈ Delivery.transcript session recipients ∧
        ∃ cause, session.beforeData = some (.fault cause) ∧
          (cause.expired = true → cause.suppressed = true)
  | .undecryptable _ | .unreadable _ => False

def Dispatch.rcptReply (recipients : List Smtp.Recipient) (id : RecipientID) :
    Dispatch → Option Int
  | .sent session =>
      Smtp.replyTo (.rcpt ((recipients.map (·.id)).idxOf id))
        (Delivery.transcript session recipients)
  | .undecryptable _ | .unreadable _ => none

/-- After a refusal at the fence a recipient was rejected by its own RCPT reply,
or `finishSuppression` takes its envelope for aborted. -/
theorem Dispatch.refused_row {dispatch : Dispatch} {recipients : List Smtp.Recipient}
    {rc : Smtp.RecipientResult} (refused : dispatch.refused recipients)
    (distinct : (recipients.map (·.id)).Nodup)
    (reported : rc ∈ (dispatch.result recipients).recipients)
    (unstarted : (dispatch.result recipients).dataStartedAt = none) :
    (∃ code, dispatch.rcptReply recipients rc.id = some code ∧ Smtp.Rejected code rc) ∨
      rc.stage = .suppressionBlocked ∨ rc.stage = .databaseError := by
  cases dispatch with
  | undecryptable | unreadable => exact refused.elim
  | sent session =>
    obtain ⟨fenced, cause, answer, told⟩ := refused
    obtain ⟨index, row⟩ := List.getElem?_of_mem reported
    have named : (recipients.map (·.id))[index]? = some rc.id := by
      have ids : ((Dispatch.sent session).result recipients).recipients.map (·.id) =
          recipients.map (·.id) := Dispatch.result_ids _
      have same := congrArg (fun ids : List RecipientID => ids[index]?) ids
      simp only [List.getElem?_map, row, Option.map_some] at same
      simpa using same.symm
    have position : (recipients.map (·.id)).idxOf rc.id = index := by
      obtain ⟨bound, same⟩ := List.getElem?_eq_some_iff.mp named
      rw [← same]
      exact distinct.idxOf_getElem index bound
    rcases Delivery.send_refused row fenced unstarted with rejected | stage
    · rw [Dispatch.rcptReply, position]
      exact .inl rejected
    · refine .inr ?_
      rw [stage, Smtp.Session.fenceStage, answer]
      by_cases known : cause.suppressed = true
      · simp [Smtp.Failure.cause, known]
      · simp [Smtp.Failure.cause, known, mt told known]

end Dispatch

section Rows

/-- How a recipient leaves an envelope that was stopped before DATA, where `reply`
is the reply to its own RCPT. -/
inductive Aborted (now : Int) (reply : Option Int) (r : Recipient) : Status → Prop
  | requeued (budget : r.spent now = false) : Aborted now reply r .queued
  | exhausted (budget : r.spent now = true) : Aborted now reply r .tempFailed
  | deferred {code : Int} (replied : reply = some code) (refused : code / 10 ≠ 25) :
      Aborted now reply r .tempFailed
  | rejected {code : Int} (replied : reply = some code) (permanent : 500 ≤ code) :
      Aborted now reply r .permFailed
  | expired : Aborted now reply r .expired

def unsentStatuses : List Status := [.queued, .tempFailed, .permFailed, .expired]

variable {now clock : Int} {r r' : Recipient}

theorem Aborted.unsent {reply : Option Int} {status : Status} (aborted : Aborted now reply r status) :
    status ∈ unsentStatuses := by
  cases aborted <;> decide

theorem Aborted.of_unreplied {status : Status} (aborted : Aborted now none r status)
    (reply : Option Int) : Aborted now reply r status := by
  cases aborted with
  | requeued budget => exact .requeued budget
  | exhausted budget => exact .exhausted budget
  | expired => exact .expired
  | deferred replied | rejected replied => cases replied

theorem Expires.status (expires : Expires clock r r') :
    r'.status = r.status ∨ r'.status = .expired := by
  cases expires with
  | kept => exact .inl rfl
  | expired => exact .inr rfl

theorem Recovers.aborted (recovers : Recovers now false r r') (sending : r.status = .sending) :
    Aborted now none r r'.status := by
  cases recovers with
  | kept other => exact absurd sending other
  | stranded _ permitted => cases permitted
  | requeued _ _ budget => exact .requeued budget
  | exhausted _ _ budget => exact .exhausted budget

theorem spent_iff {started : Int} (since : r.retryStartedAt = some started) :
    r.spent now = true ↔ 7 ≤ r.attemptCount ∨ started + Delivery.window ≤ now := by
  simp only [Recipient.spent, since, Option.any_some, Bool.or_eq_true, decide_eq_true_eq]
  constructor <;> exact Or.imp_right fun elapsed => by omega

variable [Primitives] {flags : Flags} {a : Attempt} {out : Smtp.Result}
variable {rc : Smtp.RecipientResult} {d : Option Delivery.Decision}

/-- A blocked envelope is decided on without acceptance and without doubt. -/
theorem Finished.blocked (finished : Finished flags a out rc r r' d) (sending : r.status = .sending)
    (blocked : a.suppressionBlockedAt.isSome = true) (unstarted : out.dataStartedAt = none)
    (unanswered : out.finalResponseAt = none) :
    (rc.stage = .suppressionBlocked ∨ rc.stage = .databaseError) ∧
        Aborted out.finishedAt none r r'.status ∨
      ¬ (rc.stage = .suppressionBlocked ∨ rc.stage = .databaseError) ∧
        (r'.status = .tempFailed ∨ r'.status = .permFailed ∧ rc.status = .permanent) := by
  have other : r.status ≠ .suppressed := by simp [sending]
  cases finished with
  | @resumed status started _ refused stage reported since =>
    refine .inl ⟨stage, ?_⟩
    simp only [Recipient.resume, report_of_not_suppressed other, ← spent_iff since]
    split
    next budget => exact .exhausted budget
    next budget => exact .requeued (Bool.not_eq_true _ ▸ budget)
  | @decided status started refused stage reported since =>
    refine .inr ⟨stage blocked, ?_⟩
    obtain ⟨unaccepted, known⟩ := refused blocked
    obtain ⟨-, certain⟩ := Delivery.decide_unsent unstarted unanswered unaccepted known
      (decisionBudget a.id out rc r started)
    simp only [Recipient.decided, report_of_not_suppressed other, if_neg certain]
    split
    · exact .inl rfl
    · revert reported
      cases result : rc.status with
      | temporary => exact fun reported => .inl (Option.some.inj reported).symm
      | permanent => exact fun reported => .inr ⟨(Option.some.inj reported).symm, rfl⟩
      | accepted => exact absurd result unaccepted
      | unknown => exact absurd result known
      | _ => rintro ⟨⟩

end Rows

section Endings

variable {m m' : Message} {a : Attempt} {rest : List Attempt} {id : RecipientID}

theorem envelope_nodup (keyed : Keyed m) (job : Job) : ((m.envelope job).map (·.id)).Nodup := by
  unfold Message.envelope
  split
  next b current =>
    have nodup := (keyed.envelopes b (List.mem_of_find?_eq_some current)).1
    simpa [Function.comp_def] using nodup
  · simp

theorem recover_ends (i : RecoverInput) (attempt : AttemptID) (sending : (m.row id).status = .sending) :
    Aborted i.now none (m.row id) ((recoverAttempt i attempt false m).row id).status := by
  obtain ⟨rows, status, next, completed, recovers, same⟩ :=
    recoverAttempt_eq i attempt false m
  rw [same, Message.refresh_row]
  rcases (applyExpiry_row _ i.expiryClock id).status with kept | expired
  · rw [kept]
    exact (recovers id).aborted sending
  · rw [expired]
    exact .expired

variable [Primitives] {flags : Flags} {job : Job} {dispatch : Dispatch} {clock now : Int}

theorem finish_ends (coherent : Coherent m) (leased : Leased m a rest)
    (blocked : a.suppressionBlockedAt ≠ none)
    (committed : finish flags job (dispatch.result (m.envelope job)) clock now m = .ok m')
    (member : id ∈ a.recipients) (sending : (m.row id).status = .sending) :
    (m'.row id).status ∈ unsentStatuses ∧
      (dispatch.refused (m.envelope job) →
        Aborted (dispatch.result (m.envelope job)).finishedAt
          (dispatch.rcptReply (m.envelope job) id) (m.row id) (m'.row id).status) := by
  obtain ⟨x, b, older, rows, finishing⟩ := finish_finishing coherent committed
  obtain ⟨rfl, -⟩ := List.cons.inj (finishing.leased.attempts.symm.trans leased.attempts)
  obtain ⟨unstarted, unanswered, -⟩ := finishing.fenced.resolve_left fun open_ => blocked open_.1
  rw [finishing.message, Message.refresh_row]
  rcases (applyExpiry_row _ clock id).status with kept | expired
  case inr =>
    rw [expired]
    exact ⟨by decide, fun _ => .expired⟩
  rw [kept]
  show (rows id).status ∈ _ ∧ (_ → Aborted _ _ _ (rows id).status)
  rcases finishing.row member with ⟨-, suppressed, -⟩ | ⟨-, rc, reported, rfl, d, finished, -⟩
  · cases sending.symm.trans suppressed
  rcases finished.blocked sending (Option.isSome_iff_ne_none.mpr blocked) unstarted unanswered with
    ⟨-, aborted⟩ | ⟨stage, status⟩
  · exact ⟨aborted.unsent, fun _ => aborted.of_unreplied _⟩
  · refine ⟨by rcases status with status | ⟨status, -⟩ <;> simp [status, unsentStatuses], ?_⟩
    intro refused
    obtain ⟨code, replied, rejected⟩ :=
      (Dispatch.refused_row refused (envelope_nodup coherent.keyed job) reported
        unstarted).resolve_right stage
    rcases status with status | ⟨status, permanent⟩
    · rw [status]
      exact .deferred replied rejected.refused
    · rw [status]
      rcases Delivery.rejection_cases code with temporary | ⟨-, large⟩
      · cases (rejected.status.trans temporary).symm.trans permanent
      · exact .rejected replied large

end Endings

section Blocked

/-- What is left of a fence that found the recipients `hits`. -/
structure Blocked (job : Job) (hits : RecipientID → Prop) (m : Message) : Prop where
  attempt : ∃ a ∈ m.attempts, a.id = job.attempt
  answered : ∀ a ∈ m.attempts, a.id = job.attempt →
    a.suppressionBlockedAt ≠ none ∧ a.dataArmedAt = none
  suppressed : ∀ id, hits id → (m.row id).status = .suppressed

/-- As long as the attempt is in progress, its recipients other than `hits` are
being sent to. -/
def Unsettled (job : Job) (hits : RecipientID → Prop) (m : Message) : Prop :=
  ∀ a ∈ m.attempts, a.id = job.attempt → a.result = .pending →
    ∀ id ∈ a.recipients, ¬ hits id → (m.row id).status = .sending

variable {m m' : Message} {job : Job} {hits : RecipientID → Prop}

theorem Blocked.later (blocked : Blocked job hits m) (keyed : Keyed m')
    (successor : Successor m m') : Blocked job hits m' := by
  obtain ⟨a, member, named⟩ := blocked.attempt
  obtain ⟨stopped, unarmed⟩ := blocked.answered a member named
  have survives {b : Attempt} (inside : b ∈ m'.attempts) (same : b.id = job.attempt) :
      Survives m m' a b := successor.survives keyed member inside (same.trans named.symm)
  constructor
  case attempt =>
    obtain ⟨b, inside, survives⟩ := successor.attempts a member
    exact ⟨b, inside, (congrArg (·.1) survives.key : b.id = a.id).trans named⟩
  case answered =>
    intro b inside same
    obtain ⟨armed, still⟩ := (survives inside same).fated (.inr stopped)
    exact ⟨still ▸ stopped, armed.trans unarmed⟩
  case suppressed =>
    intro id hit
    have suppressed := blocked.suppressed id hit
    rw [successor.terminal id (by simp [suppressed, terminalStatuses]), suppressed]

/-- The rows of a blocked attempt that keeps its lease wait with it. -/
theorem Unsettled.later (unsettled : Unsettled job hits m) (blocked : Blocked job hits m)
    (keyed : Keyed m') (successor : Successor m m')
    (locked : ∀ b ∈ m'.attempts, b.id = job.attempt → b.result = .pending → m'.lockedBy ≠ none) :
    Unsettled job hits m' := by
  intro b inside same pending id recipient other
  obtain ⟨a, member, named⟩ := blocked.attempt
  have survives := successor.survives keyed member inside (same.trans named.symm)
  have recipients : b.recipients = a.recipients := congrArg (·.2.2.2) survives.key
  rw [(survives.held pending (locked b inside same pending)).2 (blocked.answered a member named).1]
  exact unsettled a member named (survives.pending pending) id (recipients ▸ recipient) other

theorem Leased.updated {a b : Attempt} {rest : List Attempt} (leased : Leased m a rest)
    (keyed : Keyed m) {update : Attempt → Attempt}
    (member : b ∈ (m.setAttempt a.id update).attempts) (same : b.id = a.id) : b = update a := by
  rw [leased.setAttempt keyed] at member
  refine (List.mem_cons.mp member).resolve_right fun older => leased.fresh keyed ?_
  rw [← same]
  exact List.mem_map_of_mem older

variable [Primitives]

/-- What `ArmData` commits when it finds hits. -/
theorem armData_blocks {entries : List Entry} {i : ArmInput} (coherent : Coherent m)
    (committed : (armData entries job i m).map Prod.fst = .ok m')
    (found : m.recipients.any (m.hit entries i.policyClock true) = true) :
    Blocked job (fun id => m.hit entries i.policyClock true id = true) m' ∧
      Unsettled job (fun id => m.hit entries i.policyClock true id = true) m' := by
  obtain ⟨answer, armed, rfl⟩ := map_eq_ok.mp committed
  obtain ⟨a, rest, leased, named, unarmed, unblocked, armed⟩ := armData_armed coherent armed
  have envelope (id : RecipientID) (member : id ∈ a.recipients) : (m.row id).status = .sending :=
    (leased.members id member).resolve_right fun suppressed => by simp [unblocked] at suppressed
  cases armed with
  | expired clear | armed clear => exact absurd found (by simp [clear])
  | suppressed =>
    have attempts := leased.setAttempt coherent.keyed
      fun a => { a with suppressionBlockedAt := some i.policyClock }
    have still : { a with suppressionBlockedAt := some i.policyClock } ∈
        ((m.suppressHits entries i.policyClock true).setAttempt a.id
          fun a => { a with suppressionBlockedAt := some i.policyClock }).attempts :=
      attempts ▸ List.mem_cons_self
    refine ⟨⟨⟨_, still, named⟩, fun b member same => ?_, fun id hit => ?_⟩,
      fun b member same pending id recipient other => ?_⟩
    · rw [leased.updated coherent.keyed member (same.trans named.symm)]
      exact ⟨nofun, unarmed⟩
    · simp [Message.setAttempt, Message.suppressHits, hit, Recipient.suppress]
    · rw [leased.updated coherent.keyed member (same.trans named.symm)] at recipient
      simp [Message.setAttempt, Message.suppressHits, other, envelope id recipient]

end Blocked

section Interleavings

variable [Primitives]

/-- The row that `Service.Add` inserts. -/
def AddRequest.entry (v : AddRequest) : Entry where
  id := v.id
  email := v.email
  expiresAt := v.expiresAt

/-- As long as the entry is not expired, the transaction neither authorizes DATA
for the address nor claims a recipient with it. -/
structure Spares (v : AddRequest) (entry : Committed Op Resource.Value) : Prop where
  arm : ∀ {id job i m a}, entry.request = .transact id (.armData job i) →
    v.expiresAt.all (i.policyClock < ·) = true → entry.after (.message id) = some m →
    a ∈ m.attempts → a.id = job.attempt → ∀ recipient ∈ a.recipients,
    Primitives.lower (m.row recipient).address = Primitives.lower v.email → a.dataArmedAt = none
  claim : ∀ {id c m a}, entry.request = .transact id (.claim c) →
    v.expiresAt.all (c.pickClock < ·) = true → entry.after (.message id) = some m →
    a ∈ m.attempts → a.id = c.attempt → ∀ recipient ∈ a.recipients,
    Primitives.lower (m.row recipient).address ≠ Primitives.lower v.email

/-- What a transaction makes of a blocked attempt that is in progress. -/
inductive Proceeds (request : Op) (target : MessageID) (a : Attempt)
    (others : RecipientID → Prop) (m m' : Message) : Prop
  | waits (rows : m'.row = m.row)
      (pending : ∀ b ∈ m'.attempts, b.id = a.id → b.result = .pending)
  | finished {flags : Flags} {job : Job} {dispatch : Dispatch} {clock now : Int}
      (acts : request.actionOn target = some (.finish flags job dispatch clock now))
      (ends : ∀ id, others id → (m'.row id).status ∈ unsentStatuses ∧
        (dispatch.refused (m.envelope job) →
          Aborted (dispatch.result (m.envelope job)).finishedAt
            (dispatch.rcptReply (m.envelope job) id) (m.row id) (m'.row id).status))
  | recovered {i : RecoverInput} (acts : request.actionOn target = some (.recover i))
      (ends : ∀ id, others id → Aborted i.now none (m.row id) (m'.row id).status)

variable {m : Message} {entries : List Entry} {v : AddRequest}

theorem active_of_entry (listed : v.entry ∈ entries) {clock : Int} {address : Address}
    (unexpired : v.expiresAt.all (clock < ·) = true)
    (same : Primitives.lower address = Primitives.lower v.email) :
    active entries clock address = true := by
  refine List.any_eq_true.mpr ⟨v.entry, listed, ?_⟩
  simp only [AddRequest.entry, same, unexpired]
  decide

theorem armData_spares {job : Job} {i : ArmInput} {m' : Message} (coherent : Coherent m)
    (committed : (armData entries job i m).map Prod.fst = .ok m') (listed : v.entry ∈ entries)
    (unexpired : v.expiresAt.all (i.policyClock < ·) = true) {b : Attempt} (member : b ∈ m'.attempts)
    (same : b.id = job.attempt) {id : RecipientID} (recipient : id ∈ b.recipients)
    (address : Primitives.lower (m'.row id).address = Primitives.lower v.email) :
    b.dataArmedAt = none := by
  obtain ⟨answer, gate, rfl⟩ := map_eq_ok.mp committed
  obtain ⟨a, rest, leased, named, unarmed, unblocked, armed⟩ := armData_armed coherent gate
  have newest := same.trans named.symm
  cases armed with
  | suppressed | expired =>
    rw [leased.updated coherent.keyed member newest]
    exact unarmed
  | armed clear =>
    rw [leased.updated coherent.keyed member newest] at recipient
    have inside := (coherent.keyed.envelopes a (leased.attempts ▸ List.mem_cons_self)).2 recipient
    have sending : (m.row id).status = .sending :=
      (leased.members id recipient).resolve_right fun suppressed => by simp [unblocked] at suppressed
    have hit : m.hit entries i.policyClock true id = true := by
      simp only [Message.hit, sending, if_true, decide_true, Bool.true_and]
      exact active_of_entry listed unexpired address
    exact absurd (List.any_eq_true.mpr ⟨id, inside, hit⟩) (by simp [clear])

theorem claim_spares {c : ClaimInput} {m' : Message}
    (committed : claim entries c m = .ok m') (listed : v.entry ∈ entries)
    (unexpired : v.expiresAt.all (c.pickClock < ·) = true) {b : Attempt} (member : b ∈ m'.attempts)
    (same : b.id = c.attempt) {id : RecipientID} (recipient : id ∈ b.recipients) :
    Primitives.lower (m'.row id).address ≠ Primitives.lower v.email := by
  obtain ⟨rfl, -, -, -, fresh⟩ := claim_ok committed
  rcases List.mem_cons.mp member with rfl | older
  · have picked : id ∈ picks entries c m := recipient
    have claimable := (picks_claimable picked).2
    intro address
    have same : Primitives.lower (m.row id).address = Primitives.lower v.email := by
      simpa [claimed, picked, Recipient.claim] using address
    simp [Recipient.claimable, active_of_entry listed unexpired same] at claimable
  · exact absurd same (fresh b older).1

variable {entry : Committed Op Resource.Value} {target : MessageID} {job : Job}
variable {hits : RecipientID → Prop} {a : Attempt}

theorem serial_spares (serial : Serial Op.statements Consistent Earlier entry)
    (listed : v.entry ∈ entry.before .policy) : Spares v entry := by
  constructor
  case arm =>
    intro id job i m' a request unexpired after member same recipient inside address
    obtain ⟨m, n, before, committed, written⟩ := serial_performs serial request
    obtain rfl := Option.mem_unique written after
    exact armData_spares (serial.found before).coherent committed listed unexpired member same
      inside address
  case claim =>
    intro id c m' a request unexpired after member same recipient inside
    obtain ⟨m, n, before, committed, written⟩ := serial_performs serial request
    obtain rfl := Option.mem_unique written after
    exact claim_spares committed listed unexpired member same inside

/-- A committed action on a message whose attempt is blocked. -/
theorem commit_proceeds {request : Op} {asked : Action} (c : Commit)
    (acts : request.actionOn target = some asked) (settled : asked.settled = c.action)
    (valid : Valid c.before) {rest : List Attempt} (leased : Leased c.before a rest)
    (blocked : a.suppressionBlockedAt ≠ none) (unarmed : a.dataArmedAt = none)
    {others : RecipientID → Prop} (members : ∀ id, others id → id ∈ a.recipients)
    (sending : ∀ id, others id → (c.before.row id).status = .sending) :
    Proceeds request target a others c.before c.after := by
  have coherent := valid.coherent
  have performed := c.performed
  have newest {b : Attempt} (member : b ∈ c.before.attempts) (same : b.id = a.id) : b = a := by
    have inside : a ∈ c.before.attempts := leased.attempts ▸ List.mem_cons_self
    exact List.inj_on_of_nodup_map coherent.keyed.attempts member inside same
  rcases leased_commit c coherent leased with ⟨job, i, action⟩ | ⟨job, event, clock, action⟩ |
    ⟨flags, job, dispatch, clock, now, action⟩ | ⟨i, action⟩ | same
  · rw [action] at performed
    obtain ⟨answer, committed, -⟩ := map_eq_ok.mp performed
    obtain ⟨b, older, leased', -, -, unblocked, -⟩ := armData_armed coherent committed
    obtain ⟨rfl, -⟩ := List.cons.inj (leased'.attempts.symm.trans leased.attempts)
    exact absurd unblocked blocked
  · rw [action] at performed
    obtain ⟨-, f, added, same⟩ := record_events performed
    refine .waits (by rw [same]) fun b member named => ?_
    rw [same] at member
    obtain ⟨x, inside, rfl⟩ := List.mem_map.mp member
    obtain ⟨events, extended⟩ := added x
    rw [extended] at named ⊢
    rw [newest inside named]
    exact leased.pending
  · rw [action] at performed settled
    obtain rfl := Action.settled_eq settled nofun
    exact .finished acts fun id other =>
      finish_ends coherent leased blocked performed (members id other) (sending id other)
  · rw [action] at performed settled
    obtain rfl := Action.settled_eq settled nofun
    obtain ⟨b, older, leased', -, same⟩ := recover_leased coherent performed
    obtain ⟨rfl, -⟩ := List.cons.inj (leased'.attempts.symm.trans leased.attempts)
    refine .recovered acts fun id other => ?_
    rw [same, unarmed]
    exact recover_ends i b.id (sending id other)
  · refine .waits (by rw [same]) fun b member named => ?_
    rw [same] at member
    rw [newest member named]
    exact leased.pending

section Claims

def Recovering (target : MessageID) (request : Op) : Prop :=
  ∃ r, request.actionOn target = some (.recover r)

def Claiming (target : MessageID) (attempt : AttemptID) (request : Op) : Prop :=
  ∃ c, request.actionOn target = some (.claim c) ∧ c.attempt = attempt

/-- When the attempt is claimed, no recovery of its message has read a snapshot and
not yet ended. -/
def ClaimedApart (target : MessageID) (attempt : AttemptID) (events : List (Event Op)) : Prop :=
  ∀ before event after, events = before ++ event :: after →
    ¬ (interleaving before).Overtakes (Recovering target) (Claiming target attempt) event

/-- While the attempt is in progress, its worker holds the message. -/
def Attends (target : MessageID) (attempt : AttemptID) (store : Tables) : Prop :=
  ∀ {m a}, store (.message target) = some m → a ∈ m.attempts → a.id = attempt →
    a.result = .pending → m.lockedBy ≠ none

/-- While the attempt is in progress, no other one is so in the snapshot. -/
def Sole (target : MessageID) (attempt : AttemptID) (view store : Tables) : Prop :=
  ∀ {old m a}, view (.message target) = some old → store (.message target) = some m →
    a ∈ m.attempts → a.id = attempt → a.result = .pending →
    ∀ x ∈ old.attempts, x.result = .pending → x.id = attempt

variable {attempt : AttemptID}

theorem Sole.stays {view : Tables} (serial : Serial Op.statements Consistent Earlier entry)
    (earlier : Earlier view entry.before) (sole : Sole target attempt view entry.before)
    (unclaimed : ¬ Claiming target attempt entry.request) : Sole target attempt view entry.after := by
  intro old m' b read after inside named pending
  obtain ⟨m, before, -⟩ := earlier.messages read
  have effect := (serial_effects serial).messages target
  obtain ⟨valid, later⟩ := effect.keeps serial.found
  obtain ⟨n, same, successor⟩ := later m before
  obtain rfl := Option.mem_unique same after
  rw [after] at effect
  rcases effect.traces serial.found before inside with ⟨c, acts, id, -⟩ | ⟨a, member, id⟩
  · exact absurd ⟨c, acts, id.trans named⟩ unclaimed
  · have survives := successor.survives (valid n after).coherent.keyed member inside id.symm
    exact sole read before member (id.trans named) (survives.pending pending)

theorem Attends.keeps (serial : Serial Op.statements Consistent Earlier entry)
    (attends : Attends target attempt entry.before)
    (sole : Recovering target entry.request → ∀ view ∈ entry.seen,
      Sole target attempt view entry.before) : Attends target attempt entry.after := by
  intro m' b after inside named pending
  have effect := (serial_effects serial).messages target
  obtain ⟨valid, later⟩ := effect.keeps serial.found
  have traces {m : Message} (before : entry.before (.message target) = some m) :
      m'.lockedBy ≠ none ∨ ∃ a ∈ m.attempts, a.id = attempt ∧ a.result = .pending := by
    rw [after] at effect
    obtain ⟨n, same, successor⟩ := later m before
    obtain rfl := Option.mem_unique same after
    rcases effect.traces serial.found before inside with ⟨c, -, -, locked⟩ | ⟨a, member, id⟩
    · exact .inl locked
    · have survives := successor.survives (valid n after).coherent.keyed member inside id.symm
      exact .inr ⟨a, member, id.trans named, survives.pending pending⟩
  rw [after] at effect
  generalize result : some m' = left at effect
  cases effect with
  | untouched => exact attends result.symm inside named pending
  | created absent created =>
    obtain rfl := Option.some.inj result
    rcases submission_eq created with ⟨-, rfl⟩ | ⟨-, ⟨-, rfl⟩ | ⟨-, rfl⟩⟩ <;> cases inside
  | @performed action m n acts before performed =>
    obtain rfl := Option.some.inj result
    rcases traces before with locked | ⟨a, member, same, open_⟩
    · exact locked
    · have attended : m.Attended := fun _ _ _ => attends before member same open_
      exact commit_attended ⟨_, m, action.settled, m', performed⟩ (serial.found before).coherent
        attended b inside pending
  | @recovered i view old m x acts snapshot read before selected =>
    obtain rfl := Option.some.inj result
    rcases traces before with locked | ⟨a, member, same, open_⟩
    · exact locked
    · -- the recovery gives up this very attempt
      obtain ⟨-, known, waiting⟩ := abandoned_reread selected
      have own : x.id = attempt :=
        sole ⟨i, acts⟩ view snapshot read before member same open_ x known waiting
      obtain ⟨y, -, ⟨-, rfl⟩ | ⟨other, rfl⟩⟩ := recoverAttempt_mem.mp inside
      · cases pending
      · exact absurd (named.trans own.symm) other
  | rewritten before unlocked =>
    obtain rfl := Option.some.inj result
    exact absurd unlocked (attends before inside named pending)

theorem claims_watch (target : MessageID) (attempt : AttemptID) :
    Watch Op.statements Consistent Earlier (Recovering target) (Claiming target attempt)
      (Attends target attempt) (Sole target attempt) where
  refl := by
    intro store consistent attends old m a read current member named pending x inside open_
    obtain rfl := Option.mem_unique read current
    obtain ⟨rest, leased⟩ := (consistent current).coherent.leased_of_pending
      (attends current member named pending) member pending
    rw [leased.attempts] at inside
    rcases List.mem_cons.mp inside with rfl | older
    · exact named
    · exact absurd open_ (leased.finished x older)
  stays := Sole.stays
  keeps := Attends.keeps

theorem serial_proceeds (serial : Serial Op.statements Consistent Earlier entry)
    (attends : Attends target job.attempt entry.before)
    (sole : Recovering target entry.request → ∀ view ∈ entry.seen,
      Sole target job.attempt view entry.before)
    (before : entry.before (.message target) = some m) (blocked : Blocked job hits m)
    (unsettled : Unsettled job hits m) (member : a ∈ m.attempts) (named : a.id = job.attempt)
    (pending : a.result = .pending) :
    ∃ m', entry.after (.message target) = some m' ∧
      Proceeds entry.request target a (fun id => id ∈ a.recipients ∧ ¬ hits id) m m' := by
  have valid : Valid m := serial.found before
  obtain ⟨stopped, unarmed⟩ := blocked.answered a member named
  have sending (id : RecipientID) (other : id ∈ a.recipients ∧ ¬ hits id) :
      (m.row id).status = .sending := unsettled a member named pending id other.1 other.2
  have locked := attends before member named pending
  obtain ⟨rest, leased⟩ := valid.coherent.leased_of_pending locked member pending
  have effect := (serial_effects serial).messages target
  generalize entry.after (.message target) = result at effect
  cases effect with
  | untouched =>
    refine ⟨m, before, .waits rfl fun b inside same => ?_⟩
    rw [List.inj_on_of_nodup_map valid.coherent.keyed.attempts inside member same]
    exact pending
  | created absent => cases absent.symm.trans before
  | @performed action m₁ m' acts found performed =>
    obtain rfl := Option.mem_unique before found
    exact ⟨m', rfl, commit_proceeds ⟨_, m, action.settled, m', performed⟩ acts rfl valid leased
      stopped unarmed (fun id other => other.1) sending⟩
  | @recovered i view old m₁ x acts snapshot read found selected =>
    obtain rfl := Option.mem_unique before found
    obtain ⟨n, current, successor⟩ := (serial.seen view snapshot).messages read
    obtain rfl := Option.mem_unique before current
    obtain ⟨-, known, waiting⟩ := abandoned_reread selected
    have own := sole ⟨i, acts⟩ view snapshot read before member named pending x known waiting
    -- an attempt that the selection saw armed would be armed still
    have survives := successor.survives valid.coherent.keyed known member (named.trans own.symm)
    have unpermitted : x.dataArmedAt = none := by
      by_contra armed
      exact armed ((survives.fated (.inl armed)).1.symm.trans unarmed)
    refine ⟨_, rfl, .recovered acts fun id other => ?_⟩
    rw [unpermitted]
    exact recover_ends i x.id (sending id other)
  | rewritten found unlocked =>
    obtain rfl := Option.mem_unique before found
    exact absurd unlocked locked

end Claims

theorem serial_adds (serial : Serial Op.statements Consistent Earlier entry)
    (request : entry.request = .addSuppression v) : v.entry ∈ entry.after .policy := by
  have yields := serial.yields
  rw [request] at yields
  obtain ⟨next, added, -, writes⟩ := ifOk_yields.mp yields
  have after : entry.after .policy = next := by
    rw [Committed.after, writes]
    rfl
  rw [after]
  exact (addSuppression_ok added).1

omit [Primitives] in
/-- An entry is found again as it was added, or released. -/
theorem entry_remains {first last : Tables} (earlier : Earlier first last)
    (listed : v.entry ∈ first .policy) :
    v.entry ∈ last .policy ∨ ∃ clock, { v.entry with releasedAt := some clock } ∈ last .policy := by
  obtain ⟨later, inside, continues⟩ := earlier.entries v.entry listed
  have same : later = { v.entry with releasedAt := later.releasedAt } := by
    obtain ⟨id, email, expiresAt, releasedAt⟩ := later
    simp only [Entry.mk.injEq, and_true]
    exact ⟨continues.id, continues.email, continues.expiresAt⟩
  rw [same] at inside
  cases released : later.releasedAt with
  | none =>
    rw [released] at inside
    exact .inl inside
  | some clock =>
    rw [released] at inside
    exact .inr ⟨clock, inside⟩

/-- The fence in every interleaving. After an addition has committed, every later
transaction finds the entry, or finds it released; while it finds the entry it
spares the address. Where `ArmData` finds hits, the attempt is blocked and never
armed and the hits stay suppressed in every later state. If the attempt was claimed
apart from recoveries, whatever commits later leaves it in progress or ends it
without DATA. -/
theorem suppression_fence (events : List (Event Op)) :
    (∀ add later v, [add, later].Sublist (interleaving events).log →
      add.request = .addSuppression v →
      (v.entry ∈ later.before .policy ∨
        ∃ clock, { v.entry with releasedAt := some clock } ∈ later.before .policy) ∧
      (v.entry ∈ later.before .policy → Spares v later)) ∧
    ∀ arm target job i m, arm ∈ (interleaving events).log →
      arm.request = .transact target (.armData job i) → arm.before (.message target) = some m →
      m.recipients.any (m.hit (arm.before .policy) i.policyClock true) = true →
      let hits := fun id => m.hit (arm.before .policy) i.policyClock true id = true
      (∃ m', (interleaving events).store (.message target) = some m' ∧ Blocked job hits m' ∧
        (ClaimedApart target job.attempt events → Unsettled job hits m')) ∧
      (ClaimedApart target job.attempt events →
        ∀ later m₁ a, [arm, later].Sublist (interleaving events).log →
          later.before (.message target) = some m₁ → a ∈ m₁.attempts → a.id = job.attempt →
          a.result = .pending →
          ∃ m₂, later.after (.message target) = some m₂ ∧
            Proceeds later.request target a (fun id => id ∈ a.recipients ∧ ¬ hits id) m₁ m₂) := by
  have history := interleaving_history events
  have ordered {first second : Committed Op Resource.Value}
      (sublist : [first, second].Sublist (interleaving events).log) :
      Earlier first.after second.before :=
    List.pairwise_iff_forall_sublist.mp history.ordered sublist
  have serial {entry : Committed Op Resource.Value} (member : entry ∈ (interleaving events).log) :=
    history.serial entry member
  refine ⟨fun add later v sublist request => ?_, fun arm target job i m member request before found => ?_⟩
  · have listed := serial_adds (serial (sublist.subset (by simp))) request
    exact ⟨entry_remains (ordered sublist) listed, serial_spares (serial (sublist.subset (by simp)))⟩
  · obtain ⟨m₀, n, before', committed, after⟩ := serial_performs (serial member) request
    obtain rfl := Option.mem_unique before before'
    obtain ⟨blocked, unsettled⟩ :=
      armData_blocks ((serial member).found before).coherent committed found
    have start : Consistent emptyTables := nofun
    have unclaimed : Attends target job.attempt emptyTables := nofun
    have watched (apart : ClaimedApart target job.attempt events) :=
      (claims_watch target job.attempt).run tables_rule start unclaimed events apart
    refine ⟨?_, fun apart later m₁ a sublist before₁ inside named pending => ?_⟩
    · obtain ⟨m', current, successor⟩ := (history.reached arm member).messages after
      have keyed := (history.current current).coherent.keyed
      refine ⟨m', current, blocked.later keyed successor, fun apart => ?_⟩
      exact unsettled.later blocked keyed successor fun b => (watched apart).current current
    · obtain ⟨m', current, successor⟩ := (ordered sublist).messages after
      obtain rfl := Option.some.inj (before₁.symm.trans current)
      have logged := sublist.subset (by simp : later ∈ [arm, later])
      have keyed := ((serial logged).found before₁).coherent.keyed
      obtain ⟨attends, sole⟩ := (watched apart).log later logged
      exact serial_proceeds (serial logged) attends sole before₁ (blocked.later keyed successor)
        (unsettled.later blocked keyed successor fun b => attends before₁) inside named pending

end Interleavings

section Witness

attribute [local instance] plain

/-- A conversation in which both recipients are accepted and the fence then reports
a suppression. -/
def refusedSession (now : Int) : Smtp.Session :=
  { Smtp.Session.smooth now with beforeData := some (.fault { suppressed := true }) }

def listing : AddRequest := ⟨1, "a@example.test", none, 2, 2, 2⟩

/-- `ArmData` has locked the message when the first recipient is suppressed. -/
def lateListing : List (Event Op) :=
  alone 0 (.enqueue 0 letter) 5 ++ alone 1 (.transact 0 (.claim (claimAt 1 10 7 1))) 6 ++
    .start 2 (.transact 0 (.armData ⟨10, 7⟩ permission)) :: .advance 2 :: .advance 2 ::
    alone 3 (.addSuppression listing) 3 ++ [.advance 2, .advance 2, .advance 2] ++
    alone 4 (.transact 0 (.finish ⟨true, true⟩ ⟨10, 7⟩ (.sent (refusedSession 3)) 3 3)) 3

/-- The last three transactions of `lateListing`. -/
def blocksLetter : List (Committed Op Resource.Value) → Bool
  | [_, _, add, arm, last] =>
      (match add.request, arm.request with
      | .addSuppression v, .transact 0 (.armData job i) =>
          decide (v = listing ∧ job = ⟨10, 7⟩ ∧ i = permission)
      | _, _ => false) &&
      decide (listing.entry ∈ arm.before .policy) &&
      ((arm.before (.message 0)).any fun m =>
        m.recipients.any (m.hit (arm.before .policy) 2 true)) &&
      (last.before (.message 0)).any fun m =>
        m.attempts.any fun a => decide (a.id = 10 ∧ a.result = .pending)
  | _ => false

/-- The transaction of an event, with a number for what it asks for. -/
def eventKind : Event Op → Nat × Nat
  | .start t (.transact _ (.armData _ _)) | .start t (.batch _ (.armData _ _)) => (t, 1)
  | .start t (.transact _ (.recover _)) | .start t (.batch _ (.recover _)) => (t, 2)
  | .start t _ => (t, 0)
  | .advance t => (t, 3)
  | .rollback t => (t, 4)

theorem eventKind_recovering {request : Op} {target : MessageID}
    (recovering : Recovering target request) (t : Nat) : eventKind (.start t request) = (t, 2) := by
  obtain ⟨r, recovers⟩ := recovering
  revert recovers
  cases request <;> simp [Op.actionOn] <;> rintro _ rfl <;> rfl

/-- Nothing is recovered in this run. -/
theorem lateListing_apart : ClaimedApart 0 10 lateListing := by
  rintro before event after split ⟨-, -, -, -, -, -, -, other, watcher, running, recovering, -⟩
  have started := run_started _ _ running
  have inside : Event.start other watcher.request ∈ lateListing := by simp [split, started]
  have none : ∀ x ∈ lateListing.map eventKind, x.2 ≠ 2 := by decide
  have other := none _ (List.mem_map_of_mem inside)
  rw [eventKind_recovering recovering] at other
  exact other rfl

theorem suppression_fence_of_lateListing :
    ∃ add arm last m m₁ a,
      [add, arm].Sublist (interleaving lateListing).log ∧ add.request = .addSuppression listing ∧
      Spares listing arm ∧ arm.before (.message 0) = some m ∧
      [arm, last].Sublist (interleaving lateListing).log ∧ last.before (.message 0) = some m₁ ∧
      a ∈ m₁.attempts ∧ a.id = 10 ∧
      let hits := fun id => m.hit (arm.before .policy) 2 true id = true
      (∃ m', (interleaving lateListing).store (.message 0) = some m' ∧ Blocked ⟨10, 7⟩ hits m' ∧
        (ClaimedApart 0 10 lateListing → Unsettled ⟨10, 7⟩ hits m')) ∧
      ∃ m₂, last.after (.message 0) = some m₂ ∧
        Proceeds last.request 0 a (fun id => id ∈ a.recipients ∧ ¬ hits id) m₁ m₂ := by
  have shape : blocksLetter (interleaving lateListing).log = true := by decide +kernel
  unfold blocksLetter at shape
  split at shape
  case h_2 => cases shape
  next first second add arm last log =>
    simp only [Bool.and_eq_true] at shape
    obtain ⟨⟨⟨requests, listed⟩, hit⟩, open_⟩ := shape
    split at requests
    case h_2 => cases requests
    next v job i adds arms =>
      obtain ⟨rfl, rfl, rfl⟩ := of_decide_eq_true requests
      obtain ⟨m, before, found⟩ := (Option.any_eq_true _ _).mp hit
      obtain ⟨m₁, before₁, attempts⟩ := (Option.any_eq_true _ _).mp open_
      obtain ⟨a, inside, pending⟩ := List.any_eq_true.mp attempts
      obtain ⟨named, pending⟩ := of_decide_eq_true pending
      have added : [add, arm].Sublist (interleaving lateListing).log := by
        rw [log]
        exact ((List.nil_sublist [last]).cons_cons arm).cons_cons add |>.cons second |>.cons first
      have ended : [arm, last].Sublist (interleaving lateListing).log := by
        rw [log]
        exact (List.Sublist.refl [arm, last]).cons add |>.cons second |>.cons first
      obtain ⟨spares, blocks⟩ := @suppression_fence plain lateListing
      obtain ⟨blocked, proceeds⟩ := blocks arm 0 ⟨10, 7⟩ permission m (added.subset (by simp)) arms
        before found
      exact ⟨add, arm, last, m, m₁, a, added, adds,
        (spares add arm listing added adds).2 (of_decide_eq_true listed), before, ended, before₁,
        inside, named, blocked, proceeds lateListing_apart last m₁ a ended before₁ inside named pending⟩

def acceptedSession (now : Int) : Smtp.Session :=
  { refusedSession now with
    beforeData := none, data := .reply ⟨354, []⟩, final := .reply ⟨250, []⟩ }

/-- A message to three recipients, of which a first attempt takes one. -/
def longLetter : Submission :=
  { letter with
    recipients := [(1, "a@example.test"), (2, "b@example.test"), (3, "c@example.test")]
    nonempty := by decide
    distinct := by decide }

/-- The recovery reads attempt 10, armed and with its lease over. Before it locks the
message, the worker ends attempt 10, and attempt 11 is claimed and blocked. -/
def staleRecovery : List (Event Op) :=
  alone 0 (.enqueue 0 longLetter) 5 ++
    alone 1 (.transact 0 (.claim { claimAt 1 10 7 1 with allowance := 1 })) 6 ++
    alone 2 (.transact 0 (.armData ⟨10, 7⟩ permission)) 5 ++
    alone 3 (.batch [0] (.recover (recoverAt (5 * minute)))) 1 ++
    alone 4 (.transact 0 (.finish ⟨true, true⟩ ⟨10, 7⟩ (.sent (acceptedSession (2 * minute)))
      (2 * minute) (2 * minute))) 3 ++
    alone 5 (.transact 0 (.claim (claimAt 1 11 8 (2 * minute)))) 6 ++
    alone 6 (.addSuppression ⟨1, "b@example.test", none, 2 * minute, 2 * minute, 2 * minute⟩) 3 ++
    alone 7 (.transact 0 (.armData ⟨11, 8⟩ ⟨2 * minute, 2 * minute, 2 * minute, 2 * minute⟩)) 5 ++
    List.replicate 3 (.advance 3)

/-- The fence has answered for attempt 11 before the recovery commits, and then its
recipient that is not listed is in doubt while the attempt is still in progress. -/
def strands : List (Committed Op Resource.Value) → Bool
  | [_, _, _, _, _, _, arm, recovery] =>
      (match arm.request, recovery.request with
      | .transact 0 (.armData job _), .batch [0] (.recover _) => decide (job = ⟨11, 8⟩)
      | _, _ => false) &&
      ((arm.after (.message 0)).any fun m => m.attempts.any fun a =>
        decide (a.id = 11 ∧ a.suppressionBlockedAt ≠ none ∧ a.dataArmedAt = none ∧
          a.recipients = [2, 3] ∧ (m.row 2).status = .suppressed ∧ (m.row 3).status = .sending)) &&
      (recovery.after (.message 0)).any fun m => m.attempts.any fun a =>
        decide (a.id = 11 ∧ a.result = .pending ∧ a.dataArmedAt = none ∧
          m.lockedBy = none ∧ (m.row 3).status = .deliveryUnknown)
  | _ => false

theorem stale_recovery_strands :
    ∃ events : List (Event Op), ∃ arm recovery,
      [arm, recovery].Sublist (interleaving events).log ∧
      (∃ i, arm.request = .transact 0 (.armData ⟨11, 8⟩ i)) ∧
      (∃ m, arm.after (.message 0) = some m ∧ ∃ a ∈ m.attempts, a.id = 11 ∧
        a.suppressionBlockedAt ≠ none ∧ a.dataArmedAt = none ∧ a.recipients = [2, 3] ∧
        (m.row 2).status = .suppressed ∧ (m.row 3).status = .sending) ∧
      (∃ r, recovery.request = .batch [0] (.recover r)) ∧
      ∃ m, recovery.after (.message 0) = some m ∧ ∃ a ∈ m.attempts, a.id = 11 ∧
        a.result = .pending ∧ a.dataArmedAt = none ∧ m.lockedBy = none ∧
        (m.row 3).status = .deliveryUnknown := by
  have shape : strands (interleaving staleRecovery).log = true := by decide +kernel
  unfold strands at shape
  split at shape
  case h_2 => cases shape
  next _ _ _ _ _ _ arm recovery log =>
    simp only [Bool.and_eq_true] at shape
    obtain ⟨⟨requests, blocked⟩, stranded⟩ := shape
    split at requests
    case h_2 => cases requests
    next job i r arms recovers =>
      obtain rfl := of_decide_eq_true requests
      obtain ⟨m, after, found⟩ := (Option.any_eq_true _ _).mp blocked
      obtain ⟨a, member, answered⟩ := List.any_eq_true.mp found
      obtain ⟨m', after', found'⟩ := (Option.any_eq_true _ _).mp stranded
      obtain ⟨b, member', doubted⟩ := List.any_eq_true.mp found'
      refine ⟨staleRecovery, arm, recovery, ?_, ⟨i, arms⟩,
        ⟨m, after, a, member, of_decide_eq_true answered⟩, ⟨r, recovers⟩,
        m', after', b, member', of_decide_eq_true doubted⟩
      rw [log]
      exact List.sublist_append_right [_, _, _, _, _, _] [arm, recovery]

end Witness

end RelayTale.Queue
