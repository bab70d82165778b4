import RelayTale.Dispatch.Runs
import RelayTale.Foundation.Tickets
import RelayTale.Queue.Leases

/-!
# Turns of owners and of their streams

Owners take turns by ticket: between two turns of an owner every other owner
that always had work has exactly one. Within an owner the streams take turns on
a wheel that is as wide as their weights: every full round serves each stream
that always had work as often as its weight says.
-/

namespace RelayTale.Dispatch

section Turns

variable [Primitives] (s : Service)

theorem Service.turn_owner :
    s.after.turn s.owner = ⟨s.before.ticket + 1, s.before.nextCursor s.owner s.job.message⟩ := by
  rw [s.taken.turn]
  exact Function.update_self ..

theorem Service.turn_other {other : OwnerKey} (different : other ≠ s.owner) :
    s.after.turn other = s.before.turn other := by
  rw [s.taken.turn]
  exact Function.update_of_ne different ..

end Turns

section Owners

variable [Primitives]

def World.Sequenced (w : World) : Prop := ∀ owner, (w.turn owner).lastTicket ≤ w.ticket

theorem after_sequenced {w : World} (sequenced : w.Sequenced) (event : Event) :
    (w.after event).Sequenced := by
  intro owner
  cases event_moves w event with
  | still service turn ticket =>
    rw [turn]
    exact (sequenced owner).trans ticket
  | served s service after before =>
    have turn := World.turn_of_outside before
    have ticket := World.ticket_of_outside before
    rw [after, s.taken.ticket]
    by_cases same : owner = s.owner
    · rw [same, s.turn_owner]
    · rw [s.turn_other same, turn, ticket]
      exact Nat.le_succ_of_le (sequenced owner)

theorem World.Reachable.sequenced {w : World} (reached : w.Reachable) : w.Sequenced :=
  World.Reachable.invariant (P := World.Sequenced) (fun _ _ _ => Nat.zero_le _)
    (fun _ event holds => after_sequenced holds event) reached

def World.tickets (w : World) (owner : OwnerKey) : ℕ := (w.turn owner).lastTicket

def Service.ticket (s : Service) : OwnerKey × ℕ := (s.owner, s.before.ticket + 1)

def Service.ready (s : Service) : List OwnerKey := s.before.ready s.r s.c.owner s.c.now

theorem Service.first (s : Service) {other : OwnerKey} (ready : other ∈ s.ready) :
    toLex (s.before.tickets s.owner, s.owner) ≤ toLex (s.before.tickets other, other) :=
  List.le_of_mem_argmin (f := fun owner => toLex ((s.before.turn owner).lastTicket, owner)) ready
    s.taken.owner

theorem Service.tickets_after (s : Service) :
    s.after.tickets = Function.update s.before.tickets s.owner (s.before.ticket + 1) := by
  funext other
  by_cases same : other = s.owner
  · subst same
    rw [World.tickets, s.turn_owner, Function.update_self]
  · rw [World.tickets, s.turn_other same, Function.update_of_ne same, World.tickets]

/-- The services of a run follow the rule of the tickets. -/
theorem services_lawful {waiting : Set OwnerKey} {w : World} (sequenced : w.Sequenced)
    (events : List Event)
    (ready : ∀ s ∈ w.services events, ∀ owner ∈ waiting, owner ∈ s.ready) :
    Tickets.Lawful waiting w.tickets ((w.services events).map Service.ticket) := by
  induction events generalizing w with
  | nil => trivial
  | cons event rest ih =>
    have later := after_sequenced sequenced event
    rw [World.services] at ready ⊢
    cases event_moves w event with
    | still service turn ticket =>
      rw [service, Option.toList_none, List.nil_append] at ready ⊢
      have tickets : (w.after event).tickets = w.tickets := by
        funext owner
        rw [World.tickets, turn, World.tickets]
      rw [← tickets]
      exact ih later ready
    | served s service after before =>
      rw [service, Option.toList_some, List.singleton_append] at ready ⊢
      have tickets : s.before.tickets = w.tickets := by
        funext owner
        rw [World.tickets, World.turn_of_outside before, World.tickets]
      rw [List.map_cons, Service.ticket, ← tickets]
      refine ⟨fun other => ?_, fun other waits => ?_, ?_⟩
      · rw [tickets, World.ticket_of_outside before]
        exact Nat.lt_succ_of_le (sequenced other)
      · exact s.first (ready s List.mem_cons_self other waits)
      · rw [← s.tickets_after, ← after]
        exact ih later fun t listed => ready t (List.mem_cons_of_mem s listed)

/-- Between two consecutive services of an owner that always has an eligible
message, every other such owner is served exactly once, and a claim without a
job leaves the tickets and the cursors of all owners as they were. -/
theorem owners_take_turns {w : World} (reached : w.Reachable) (events : List Event)
    (waiting : Set OwnerKey)
    (ready : ∀ s ∈ w.services events, ∀ owner ∈ waiting, owner ∈ s.ready) :
    (∀ (earlier between later : List Service) (a b : Service),
      w.services events = earlier ++ a :: between ++ b :: later → a.owner = b.owner →
      a.owner ∈ waiting → a.owner ∉ between.map Service.owner →
      ∀ other ∈ waiting, other ≠ a.owner → (between.map Service.owner).count other = 1) ∧
    ∀ (any : World) (r : Repository) (c : Clocks) (draw : Draw) (refusal : Refusal),
      (any.claim r c draw).2 = .error refusal →
      (any.claim r c draw).1.owners = any.owners ∧ (any.claim r c draw).1.turn = any.turn := by
  constructor
  · intro earlier between later a b services same waits absent other waits' different
    have lawful := services_lawful reached.sequenced events ready
    rw [services, List.append_assoc, List.map_append, List.cons_append, List.map_cons,
      List.map_append, List.map_cons] at lawful
    have tail := (Tickets.Lawful.append.mp lawful).2
    rw [show ∀ (x y : OwnerKey × ℕ) (mid last : List (OwnerKey × ℕ)),
      x :: (mid ++ y :: last) = (x :: mid ++ [y]) ++ last by simp] at tail
    have window := (Tickets.Lawful.append.mp tail).1
    have owners : (between.map Service.ticket).map Prod.fst = between.map Service.owner := by
      rw [List.map_map]
      rfl
    rw [Service.ticket, Service.ticket, ← same] at window
    rw [← owners] at absent ⊢
    exact Tickets.served_once waits waits' different window absent
  · intro any r c draw refusal failed
    have ended := claim_ended r c draw any
    generalize any.claim r c draw = answer at ended failed
    cases ended with
    | failed service outside =>
      exact ⟨World.owners_of_outside outside, World.turn_of_outside outside⟩
    | served s service outside => cases failed

end Owners

section Streams

variable [Primitives] {weights : Stream → Weight} {owner : OwnerKey}

omit [Primitives] in
theorem lanes_nodup (weights : Stream → Weight) :
    ((World.lanesOf weights).map Prod.fst).Nodup := by
  simp [World.lanesOf]

omit [Primitives] in
theorem mem_lanes (weights : Stream → Weight) (stream : Stream) :
    stream ∈ (World.lanesOf weights).map Prod.fst := by
  cases stream <;> simp [World.lanesOf]

omit [Primitives] in
theorem width_lanes (weights : Stream → Weight) (stream : Stream) :
    Wheel.width stream (World.lanesOf weights) = weights stream := by
  cases stream <;> simp [World.lanesOf, Wheel.width]

omit [Primitives] in
theorem total_lanes (weights : Stream → Weight) :
    0 < Wheel.total (World.lanesOf weights) ∧ Wheel.total (World.lanesOf weights) ≤ 32 := by
  have bounds (stream : Stream) := (weights stream).property
  have a := bounds .normal
  have b := bounds .otp
  have c := bounds .receipt
  have d := bounds .security
  simp only [Wheel.total, World.lanesOf, List.map_cons, List.map_nil, List.sum_cons, List.sum_nil]
  omega

def Service.queue (s : Service) : List MessageID := s.before.queueOf s.r s.c s.owner

def Service.Offers (s : Service) (streams : Finset Stream) : Prop :=
  ∀ stream, stream ∈ streams ↔ ∃ id ∈ s.queue, (s.before.header id).stream = stream

theorem Service.mem_queue (s : Service) : s.job.message ∈ s.queue :=
  List.argmin_mem s.taken.message

/-- The message that was served comes first by distance, age and identifier. -/
theorem Service.least (s : Service) {id : MessageID} (listed : id ∈ s.queue) :
    toLex (s.before.distance s.owner s.job.message,
        toLex ((s.before.header s.job.message).createdAt, s.job.message)) ≤
      toLex (s.before.distance s.owner id, toLex ((s.before.header id).createdAt, id)) :=
  List.le_of_mem_argmin (f := fun id => toLex (s.before.distance s.owner id,
    toLex ((s.before.header id).createdAt, id))) listed s.taken.message

/-- The services of an owner are the stops of its cursor on the wheel. -/
theorem services_visit {streams : Finset Stream} (events : List Event) (w : World)
    (fixed : ∀ s ∈ w.services events, s.owner = owner →
      s.before.weight owner = weights ∧ s.Offers streams) :
    ∃ stop, Wheel.Visits (Wheel.around (World.lanesOf weights))
      (fun stream => decide (stream ∈ streams)) (w.turn owner).cursor
      (((w.services events).filter fun s => s.owner = owner).map fun s => s.job.stream) stop := by
  induction events generalizing w with
  | nil => exact ⟨_, .nil _⟩
  | cons event rest ih =>
    rw [World.services] at fixed ⊢
    cases event_moves w event with
    | still service turn ticket =>
      rw [service, Option.toList_none, List.nil_append] at fixed ⊢
      rw [← turn]
      exact ih _ fixed
    | served s service after before =>
      rw [service, Option.toList_some, List.singleton_append] at fixed ⊢
      obtain ⟨stop, later⟩ := ih (w.after event) fun t listed =>
        fixed t (List.mem_cons_of_mem s listed)
      have turn := World.turn_of_outside before
      by_cases own : s.owner = owner
      case neg =>
        have kept : (w.after event).turn owner = w.turn owner := by
          rw [after, s.turn_other (Ne.symm own), turn]
        rw [List.filter_cons_of_neg (by simpa using own), ← kept]
        exact ⟨stop, later⟩
      case pos =>
        obtain ⟨weight, offers⟩ := fixed s List.mem_cons_self own
        subst own
        have distance (id : MessageID) : s.before.distance s.owner id =
            Wheel.distance (World.lanesOf weights) (w.turn s.owner).cursor
              (s.before.header id).stream := by
          rw [World.distance, World.lanes, weight, turn]
        rw [List.filter_cons_of_pos (by simp), List.map_cons, s.taken.stream]
        rw [after] at later ⊢
        rw [s.turn_owner] at later
        simp only [World.nextCursor, distance, turn, World.lanes, weight] at later
        refine Wheel.Visits.nearest (lanes_nodup weights) (mem_lanes weights _) ?_ ?_ ?_ later
        · rw [width_lanes]
          exact (weights _).property.1
        · exact decide_eq_true ((offers _).mpr ⟨_, s.mem_queue, rfl⟩)
        · intro other busy
          obtain ⟨id, listed, rfl⟩ := (offers other).mp (of_decide_eq_true busy)
          have nearer := Prod.Lex.monotone_fst _ _ (s.least listed)
          simpa only [ofLex_toLex, distance] using nearer

/-- With fixed weights, and as long as the same streams of an owner have an
eligible message at each of its claims, every window of services that is as long
as the weights of these streams together serves each of them as often as its
weight says. The cursor stays on the wheel, and a stream is served by age. -/
theorem streams_take_turns (w : World) (events : List Event) (owner : OwnerKey)
    (weights : Stream → Weight) (streams : Finset Stream)
    (fixed : ∀ s ∈ w.services events, s.owner = owner →
      s.before.weight owner = weights ∧ s.Offers streams) :
    (∀ window : List Service,
      window <:+: (w.services events).filter (fun s => s.owner = owner) →
      window.length = ∑ stream ∈ streams, (weights stream : ℕ) →
      ∀ stream ∈ streams, (window.map fun s => s.job.stream).count stream = weights stream) ∧
    ∀ s ∈ w.services events, s.owner = owner →
      (s.after.turn owner).cursor < ∑ stream ∈ {.normal, .otp, .receipt, .security},
        (weights stream : ℕ) ∧
      (s.after.turn owner).cursor ≤ 31 ∧
      ∀ id ∈ s.queue, (s.before.header id).stream = s.job.stream →
        toLex ((s.before.header s.job.message).createdAt, s.job.message) ≤
          toLex ((s.before.header id).createdAt, id) := by
  constructor
  · rintro window ⟨earlier, later, served⟩ full stream busy
    obtain ⟨stop, visits⟩ := services_visit events w fixed
    rw [← served, List.map_append, List.map_append] at visits
    obtain ⟨_, front, _⟩ := visits.append
    obtain ⟨_, _, visits⟩ := front.append
    have exact' := Wheel.Visits.exact (lanes_nodup weights) (fun name _ => mem_lanes weights name)
      visits
    simp only [width_lanes, List.length_map] at exact'
    exact exact' full busy
  · intro s listed own
    obtain ⟨weight, -⟩ := fixed s listed own
    subst own
    obtain ⟨positive, small⟩ := total_lanes weights
    have cursor : (s.after.turn s.owner).cursor < Wheel.total (World.lanesOf weights) := by
      rw [s.turn_owner]
      simp only [World.nextCursor, World.lanes, weight]
      exact Nat.mod_lt _ positive
    refine ⟨?_, by omega, fun id queued same => ?_⟩
    · refine cursor.trans_eq ?_
      simp [Wheel.total, World.lanesOf]
    · have least := s.least queued
      rw [s.taken.stream] at same
      have distance : s.before.distance s.owner id = s.before.distance s.owner s.job.message := by
        rw [World.distance, World.distance, same]
      rw [distance, Prod.Lex.toLex_le_toLex] at least
      exact (least.resolve_left (lt_irrefl _)).2

end Streams

section Witness

attribute [local instance] Queue.plain

/-- The first website has two streams, the second one only the normal one. -/
def sampleHeader (id : MessageID) : Header where
  source := .api
  apiKey := none
  smtpAccount := none
  stream := if id = 3 then .otp else .normal
  createdAt := id
  envelopeFrom := "shop@example.test"
  headerFrom := "shop@example.test"

theorem one_weighs : 1 ≤ 1 ∧ 1 ≤ 8 := by decide

theorem two_weighs : 1 ≤ 2 ∧ 2 ≤ 8 := by decide

theorem one_provider : [1].Nodup := List.nodup_singleton 1

def sampleTables : Tables where
  providers := [1]
  providersNodup := one_provider
  provider _ :=
    { maxConnections := 8, timeoutSeconds := 60, hourlyLimit := none, dailyLimit := none
      healthCheckEnabled := false, enabled := true, security := .starttls
      fromDomains := ["example.test"], priority := 10 }
  groups _ := none
  health _ := none
  streams id stream := if id = 1 ∧ stream = .normal then some ⟨2, two_weighs⟩ else none

def sampleLetter (id : MessageID) : Queue.Submission :=
  { Queue.letter with apiKey := some (if id < 4 then 1 else 2) }

def sampleWorld : World :=
  (World.initial sampleHeader sampleTables).run
    ([0, 1, 2, 3, 4, 5].map fun id => .queue (.enqueue id (sampleLetter id)) (sampleHeader id))

def sampleClaims (n : ℕ) : List Event :=
  (List.range n).map fun i =>
    .claim ⟨⟨true, true⟩, true⟩ (.still (i + 1 : ℕ)) ⟨i + 1, i + 1⟩

theorem sampleWorld_reachable : sampleWorld.Reachable := ⟨_, _, _, rfl⟩

theorem owners_take_turns_of_sample :
    (sampleWorld.services (sampleClaims 3)).map Service.owner =
      [⟨.api, some 1⟩, ⟨.api, some 2⟩, ⟨.api, some 1⟩] ∧
    ∀ (earlier between later : List Service) (a b : Service),
      sampleWorld.services (sampleClaims 3) = earlier ++ a :: between ++ b :: later →
      a.owner = b.owner → a.owner ∈ ({⟨.api, some 1⟩, ⟨.api, some 2⟩} : Set OwnerKey) →
      a.owner ∉ between.map Service.owner →
      ∀ other ∈ ({⟨.api, some 1⟩, ⟨.api, some 2⟩} : Set OwnerKey), other ≠ a.owner →
        (between.map Service.owner).count other = 1 := by
  have ready : ∀ s ∈ sampleWorld.services (sampleClaims 3),
      (⟨.api, some 1⟩ : OwnerKey) ∈ s.ready ∧ (⟨.api, some 2⟩ : OwnerKey) ∈ s.ready := by
    decide +kernel
  refine ⟨by decide +kernel, (@owners_take_turns Queue.plain sampleWorld sampleWorld_reachable
    (sampleClaims 3) _ fun s listed owner waits => ?_).1⟩
  rcases waits with rfl | rfl
  · exact (ready s listed).1
  · exact (ready s listed).2

/-- Two letters of the normal stream for each one-time password. -/
def sampleWeights (stream : Stream) : Weight :=
  if stream = .normal then ⟨2, two_weighs⟩ else ⟨1, one_weighs⟩

theorem streams_take_turns_of_sample :
    ((sampleWorld.services (sampleClaims 5)).filter fun s => s.owner = ⟨.api, some 1⟩).map
      (fun s => s.job.stream) = [.normal, .normal, .otp] ∧
    ∀ window : List Service,
      window <:+: (sampleWorld.services (sampleClaims 5)).filter
        (fun s => s.owner = ⟨.api, some 1⟩) →
      window.length = ∑ stream ∈ ({.normal, .otp} : Finset Stream), (sampleWeights stream : ℕ) →
      ∀ stream ∈ ({.normal, .otp} : Finset Stream),
        (window.map fun s => s.job.stream).count stream = sampleWeights stream := by
  have fixed : ∀ s ∈ sampleWorld.services (sampleClaims 5), s.owner = ⟨.api, some 1⟩ →
      (s.before.weight ⟨.api, some 1⟩ .normal = sampleWeights .normal ∧
        s.before.weight ⟨.api, some 1⟩ .otp = sampleWeights .otp ∧
        s.before.weight ⟨.api, some 1⟩ .receipt = sampleWeights .receipt ∧
        s.before.weight ⟨.api, some 1⟩ .security = sampleWeights .security) ∧
      (∀ id ∈ s.queue, (s.before.header id).stream = .normal ∨
        (s.before.header id).stream = .otp) ∧
      (∃ id ∈ s.queue, (s.before.header id).stream = .normal) ∧
      ∃ id ∈ s.queue, (s.before.header id).stream = .otp := by
    decide +kernel
  refine ⟨by decide +kernel, (@streams_take_turns Queue.plain sampleWorld (sampleClaims 5)
    ⟨.api, some 1⟩ sampleWeights {.normal, .otp} fun s listed own => ?_).1⟩
  obtain ⟨⟨normal, otp, receipt, security⟩, only, normals, otps⟩ := fixed s listed own
  refine ⟨?_, fun stream => ⟨fun member => ?_, fun ⟨id, queued, same⟩ => ?_⟩⟩
  · funext stream
    cases stream <;> assumption
  · rcases Finset.mem_insert.mp member with rfl | member
    · exact normals
    · exact Finset.mem_singleton.mp member ▸ otps
  · rcases only id queued with first | second
    · rw [← same, first]
      decide
    · rw [← same, second]
      decide

end Witness

end RelayTale.Dispatch
