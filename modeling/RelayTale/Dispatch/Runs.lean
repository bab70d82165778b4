import RelayTale.Dispatch.Claim
import RelayTale.Queue.Runs

/-!
# Claims among other operations

Claims come one after the other, with any other operations of the queue, new
messages and new owners in between, and with the providers, groups, circuits and
stream weights changed in any way. What a claim that returned a job has found
and written is read off once.
-/

namespace RelayTale.Dispatch

open Guard

section Events

def claims : Queue.Op → Bool
  | .transact _ (.claim _) => true
  | _ => false

def inserted : Queue.Op → Option (MessageID × Queue.Submission)
  | .enqueue id s => some (id, s)
  | .replace _ new _ _ s => some (new, s)
  | _ => none

inductive Event
  | claim (r : Repository) (c : Clocks) (draw : Draw)
  -- a claim that is rolled back does not return the ticket it has drawn
  | drawTicket
  | queue (op : Queue.Op) (h : Header)
  | configure (tables : Tables)

namespace World

variable (w : World)

/-- A message is inserted, and its owner by the trigger unless it is known. -/
def insert (id : MessageID) (h : Header) : World where
  db := w.db
  messages := w.messages.insert id
  messagesNodup := w.messagesNodup.insert
  header := Function.update w.header id h
  owners := w.owners.insert h.owner
  turn := w.turn
  absent owner missing := w.absent owner fun known => missing (List.mem_insert_of_mem known)
  ticket := w.ticket
  tables := w.tables

def initial (header : MessageID → Header) (tables : Tables) : World where
  db := .empty
  messages := []
  messagesNodup := List.nodup_nil
  header := header
  owners := []
  turn := fun _ => {}
  absent _ _ := rfl
  ticket := 0
  tables := tables

variable [Primitives]

def perform (op : Queue.Op) (h : Header) : World :=
  if claims op then w
  else
    match w.db.step op with
    | .error _ => w
    | .ok db =>
        match inserted op with
        | some (id, s) => (w.setDb db).insert id { h with apiKey := s.apiKey }
        | none => w.setDb db

def after : Event → World
  | .claim r c draw => (w.claim r c draw).1
  | .drawTicket => { w with ticket := w.ticket + 1 }
  | .queue op h => w.perform op h
  | .configure tables => { w with tables }

def run (events : List Event) : World := events.foldl (fun w event => w.after event) w

def Reachable (w : World) : Prop := ∃ header tables events, w = (initial header tables).run events

theorem Reachable.invariant {P : World → Prop}
    (first : ∀ header tables, P (initial header tables))
    (keeps : ∀ (w : World) (event : Event), P w → P (w.after event)) {w : World}
    (reached : w.Reachable) : P w := by
  obtain ⟨header, tables, events, rfl⟩ := reached
  have run (w : World) (holds : P w) : P (w.run events) := by
    induction events generalizing w with
    | nil => exact holds
    | cons event rest ih => exact ih _ (keeps w event holds)
  exact run _ (first header tables)

end World

end Events

section Claims

variable [Primitives] {r : Repository} {c : Clocks} {draw : Draw} {w next : World} {job : Job}

omit [Primitives] in
theorem ofQueue_eq_ok {α : Type} {result : Except Queue.Refusal α} {value : α} :
    ofQueue result = .ok value ↔ result = .ok value := by
  cases result <;> simp [ofQueue, Except.mapError]

omit [Primitives] in
theorem passTriggers_eq_ok {clock : Int} {m : Queue.Message} {passed : PUnit} :
    passTriggers clock m = .ok passed ↔ raised clock m = none := by
  unfold passTriggers
  split <;> simp [*]

structure Found (r : Repository) (c : Clocks) (draw : Draw) (w : World) (job : Job)
    (m claimed : Queue.Message) : Prop where
  message : w.db.messages job.message = some m
  provider : w.selectProvider r c (w.header job.message) m = some job.provider
  capacity : w.active c.active job.provider < (w.tables.provider job.provider).maxConnections
  controls : w.controlRequirements r c.quota job.provider = true
  due : m.due c.start = true
  triggers : raised c.start m = none
  claimed : Queue.claimSelected w.db.entries (w.claimInput r c draw job.provider) m = .ok claimed
  unused : w.unused draw.attempt = true
  recipients : job.recipients =
    (Queue.picks w.db.entries (w.claimInput r c draw job.provider) m).map fun id =>
      { id, address := (m.row id).address }

structure Taken (r : Repository) (c : Clocks) (draw : Draw) (w next : World) (job : Job) :
    Prop where
  owner : w.selectOwner r c = some (w.owner job.message)
  message : w.selectMessage r c (w.owner job.message) = some job.message
  stream : job.stream = (w.header job.message).stream
  turn : next.turn = Function.update w.turn (w.owner job.message)
    ⟨w.ticket + 1, w.nextCursor (w.owner job.message) job.message⟩
  ticket : next.ticket = w.ticket + 1
  owners : next.owners = w.owners
  messages : next.messages = w.messages
  header : next.header = w.header
  found : ∃ m claimed, Found r c draw w job m claimed ∧
    next.db = w.db.put job.message claimed

theorem owner_of_selectMessage {owner : OwnerKey} {id : MessageID}
    (selected : w.selectMessage r c owner = some id) : w.owner id = owner := by
  have member := List.argmin_mem selected
  simpa using (List.mem_filter.mp member).2

theorem takeFor_taken {owner : OwnerKey} {listed : owner ∈ w.owners}
    (first : w.selectOwner r c = some owner)
    (committed : w.takeFor r c draw owner listed = .ok (next, job)) :
    Taken r c draw w next job := by
  simp only [World.takeFor, do_eq_ok, demand_eq_ok, require_eq_ok, ofQueue_eq_ok,
    passTriggers_eq_ok, pure_eq_ok, exists_const, Prod.mk.injEq] at committed
  obtain ⟨id, selected, m, message, provider, chosen, capacity, controls, due, triggers, claimed,
    performed, unused, rfl, rfl⟩ := committed
  obtain rfl := owner_of_selectMessage selected
  exact
    { owner := first, message := selected, stream := rfl, turn := rfl, ticket := rfl
      owners := rfl, messages := rfl, header := rfl
      found := ⟨m, claimed, ⟨message, chosen, capacity, controls, due, triggers, performed, unused,
        rfl⟩, rfl⟩ }

theorem take_taken (committed : w.take r c draw = .ok (next, job)) : Taken r c draw w next job := by
  unfold World.take at committed
  split at committed
  · cases committed
  next first =>
    split at committed
    · exact takeFor_taken first committed
    · cases committed

end Claims

section Frames

variable [Primitives] {w next : World} {s : Sweep} {c : Clocks}

/-- The columns beside the messages that a sweep leaves alone. -/
def World.outside (w : World) :=
  (w.messages, w.header, w.owners, w.turn, w.ticket, w.tables)

omit [Primitives] in
theorem World.turn_of_outside (same : next.outside = w.outside) : next.turn = w.turn :=
  congrArg (·.2.2.2.1) same

omit [Primitives] in
theorem World.ticket_of_outside (same : next.outside = w.outside) : next.ticket = w.ticket :=
  congrArg (·.2.2.2.2.1) same

omit [Primitives] in
theorem World.owners_of_outside (same : next.outside = w.outside) : next.owners = w.owners :=
  congrArg (·.2.2.1) same

theorem sweepExpired_ok (committed : w.sweepExpired s = .ok next) :
    ∃ op db, claims op = false ∧ inserted op = none ∧ w.db.step op = .ok db ∧
      next = w.setDb db := by
  simp only [World.sweepExpired, do_eq_ok, ofQueue_eq_ok, pure_eq_ok] at committed
  obtain ⟨db, stepped, rfl⟩ := committed
  exact ⟨_, db, rfl, rfl, stepped, rfl⟩

theorem sweepSuppressed_ok (committed : w.sweepSuppressed s = .ok next) :
    ∃ op db, claims op = false ∧ inserted op = none ∧ w.db.step op = .ok db ∧
      next = w.setDb db := by
  simp only [World.sweepSuppressed, do_eq_ok, ofQueue_eq_ok, pure_eq_ok] at committed
  obtain ⟨db, stepped, rfl⟩ := committed
  exact ⟨_, db, rfl, rfl, stepped, rfl⟩

theorem sweepExpired_outside (committed : w.sweepExpired s = .ok next) :
    next.outside = w.outside := by
  obtain ⟨-, db, -, -, -, rfl⟩ := sweepExpired_ok committed
  rfl

theorem sweepSuppressed_outside (committed : w.sweepSuppressed s = .ok next) :
    next.outside = w.outside := by
  obtain ⟨-, db, -, -, -, rfl⟩ := sweepSuppressed_ok committed
  rfl

theorem sweep_outside (committed : w.sweep c = .ok next) : next.outside = w.outside := by
  simp only [World.sweep, do_eq_ok] at committed
  obtain ⟨swept, expired, suppressed⟩ := committed
  exact (sweepSuppressed_outside suppressed).trans (sweepExpired_outside expired)

/-- Other operations of the queue move no owner. -/
theorem perform_turn (op : Queue.Op) (h : Header) :
    (w.perform op h).turn = w.turn ∧ (w.perform op h).ticket = w.ticket := by
  unfold World.perform
  split
  · exact ⟨rfl, rfl⟩
  split
  · exact ⟨rfl, rfl⟩
  split <;> exact ⟨rfl, rfl⟩

end Frames

section Services

variable [Primitives]

/-- A claim that returned a job, between the world that the sweeps left and the
world that it committed. -/
structure Service where
  before : World
  r : Repository
  c : Clocks
  draw : Draw
  job : Job
  after : World
  taken : Taken r c draw before after job

def Service.owner (s : Service) : OwnerKey := s.before.owner s.job.message

namespace World

def service (r : Repository) (c : Clocks) (draw : Draw) (w : World) : Option Service :=
  match w.sweep c with
  | .error _ => none
  | .ok swept =>
      match committed : swept.take r c draw with
      | .error _ => none
      | .ok (next, job) => some ⟨swept, r, c, draw, job, next, take_taken committed⟩

def serviceOf (w : World) : Event → Option Service
  | .claim r c draw => w.service r c draw
  | _ => none

def services : World → List Event → List Service
  | _, [] => []
  | w, event :: rest => (w.serviceOf event).toList ++ (w.after event).services rest

end World

inductive Ended (r : Repository) (c : Clocks) (draw : Draw) (w : World) :
    World × Except Refusal Job → Prop
  | failed {next : World} {refusal : Refusal} (service : w.service r c draw = none)
      (same : next.outside = w.outside) : Ended r c draw w (next, .error refusal)
  | served (s : Service) (service : w.service r c draw = some s)
      (same : s.before.outside = w.outside) : Ended r c draw w (s.after, .ok s.job)

theorem claim_ended (r : Repository) (c : Clocks) (draw : Draw) (w : World) :
    Ended r c draw w (w.claim r c draw) := by
  unfold World.claim
  split
  next expired =>
    exact .failed (by simp only [World.service, World.sweep, expired]; rfl) rfl
  next first expired =>
    split
    next suppressed =>
      refine .failed ?_ (sweepExpired_outside expired)
      simp only [World.service, World.sweep, expired]
      rw [show (Except.ok first >>= fun swept : World => swept.sweepSuppressed c.suppressed) =
        first.sweepSuppressed c.suppressed from rfl, suppressed]
    next swept suppressed =>
      have sweeps : w.sweep c = .ok swept := by
        simp only [World.sweep, do_eq_ok]
        exact ⟨first, expired, suppressed⟩
      have outside := sweep_outside sweeps
      split
      next failed =>
        refine .failed ?_ outside
        simp only [World.service, sweeps]
        split
        · rfl
        next committed => cases failed.symm.trans committed
      next next' job committed =>
        refine .served ⟨swept, r, c, draw, job, next', take_taken committed⟩ ?_ outside
        simp only [World.service, sweeps]
        split
        next failed => cases committed.symm.trans failed
        next again =>
          cases committed.symm.trans again
          rfl

inductive Moves (w : World) (event : Event) : Prop
  | served (s : Service) (service : w.serviceOf event = some s) (after : w.after event = s.after)
      (before : s.before.outside = w.outside)
  | still (service : w.serviceOf event = none) (turn : (w.after event).turn = w.turn)
      (ticket : w.ticket ≤ (w.after event).ticket)

theorem event_moves (w : World) (event : Event) : Moves w event := by
  cases event with
  | claim r c draw =>
    have ended := claim_ended r c draw w
    generalize result : w.claim r c draw = answer at ended
    have after : w.after (.claim r c draw) = answer.1 := congrArg Prod.fst result
    cases ended with
    | failed service same =>
      refine .still service ?_ ?_
      · rw [after]
        exact World.turn_of_outside same
      · rw [after]
        exact (World.ticket_of_outside same).ge
    | served s service same => exact .served s service after same
  | drawTicket => exact .still rfl rfl (Nat.le_succ _)
  | queue op h => exact .still rfl (perform_turn op h).1 (perform_turn op h).2.ge
  | configure tables => exact .still rfl rfl le_rfl

end Services

end RelayTale.Dispatch
