import Mathlib.Algebra.BigOperators.Group.List.Basic
import Mathlib.Algebra.Order.BigOperators.Group.List
import Mathlib.Data.List.Nodup
import RelayTale.Resource.Limiter

/-!
# Accounts, order and wake-ups of the limiter

One invariant holds in every state that calls, cancellations and releases can
reach in any order. It ties each sleeping goroutine to the channel that the next
change closes.
-/

namespace RelayTale.Resource

variable (want : CallID → Reservation)

structure Sound (s : System) : Prop where
  order : s.entered.filter (s.phase · ≠ .gaveUp) = s.granted ++ s.pending
  distinct : s.entered.Nodup
  entered : ∀ c ∈ s.entered, s.phase c ≠ .ready
  queued : ∀ c, c ∈ s.pending ↔ (s.phase c).waits = true
  held : ∀ c, c ∈ s.granted ↔ s.phase c = .holding ∨ s.phase c = .released
  nonnegative : ∀ c ∈ s.granted ++ s.pending, 0 ≤ (want c).memory ∧ 0 ≤ (want c).spool
  waiting : s.limiter.waiting = s.pending.length
  memory : s.limiter.memory = (s.outstanding.map fun c => (want c).memory).sum
  spool : s.limiter.spool = (s.outstanding.map fun c => (want c).spool).sum
  memory_le : s.limiter.memory ≤ s.limiter.memoryLimit
  spool_le : s.limiter.spool ≤ s.limiter.spoolLimit
  channel : ∀ c channel, s.phase c = .blocked channel → channel ≤ s.limiter.changed
  awake : ∀ c, s.phase c = .blocked s.limiter.changed →
    ¬ (s.pending.head? = some c ∧ s.limiter.fits (want c) = true)

variable {want} {s : System} {call : CallID} {memoryLimit spoolLimit : Nat}

/-- A phase that a call neither leaves nor reaches has the same calls as before. -/
theorem move_phase_iff {phase p : Phase} (was : s.phase call ≠ p) (now : phase ≠ p) (c : CallID) :
    (s.move call phase).phase c = p ↔ s.phase c = p := by
  by_cases same : c = call
  · subst same
    simp [System.move, was, now]
  · simp [System.move, same]

theorem start_sound : Sound want (start memoryLimit spoolLimit) where
  order := rfl
  distinct := List.nodup_nil
  entered := List.forall_mem_nil _
  queued _ := by simp [start, System.pending, Limiter.pending, Phase.waits]
  held _ := by simp [start]
  nonnegative := List.forall_mem_nil _
  waiting := rfl
  memory := rfl
  spool := rfl
  memory_le := Int.natCast_nonneg _
  spool_le := Int.natCast_nonneg _
  channel _ _ blocked := by cases blocked
  awake _ blocked := by cases blocked

namespace Sound

variable (sound : Sound want s)

include sound

theorem nodup : (s.granted ++ s.pending).Nodup :=
  sound.order ▸ sound.distinct.filter _

theorem notGranted (waits : (s.phase call).waits = true) : call ∉ s.granted := by
  intro granted
  rcases (sound.held call).mp granted with holding | released
  · simp [holding, Phase.waits] at waits
  · simp [released, Phase.waits] at waits

theorem move {phase : Phase} (same : phase.waits = (s.phase call).waits)
    (kept : ∀ p ∈ [Phase.gaveUp, .holding, .released], s.phase call ≠ p ∧ phase ≠ p)
    (left : phase ≠ .ready)
    (slept : ∀ channel, phase = .blocked channel → channel = s.limiter.changed ∧
      ¬ (s.pending.head? = some call ∧ s.limiter.fits (want call) = true)) :
    Sound want (s.move call phase) := by
  have keeps (p : Phase) (listed : p ∈ [Phase.gaveUp, .holding, .released]) :
      ∀ c, (s.move call phase).phase c = p ↔ s.phase c = p :=
    move_phase_iff (kept p listed).1 (kept p listed).2
  have outstanding : (s.move call phase).outstanding = s.outstanding :=
    List.filter_congr fun c _ => by simp only [keeps .holding (by simp) c]
  constructor
  case order =>
    refine (List.filter_congr fun c _ => ?_).trans sound.order
    simp only [ne_eq, keeps .gaveUp (by simp) c]
  case distinct => exact sound.distinct
  case entered =>
    intro c member
    by_cases mine : c = call
    · subst mine
      simpa [System.move] using left
    · simpa [System.move, mine] using sound.entered c member
  case queued =>
    intro c
    refine (sound.queued c).trans ?_
    by_cases mine : c = call
    · subst mine
      simp [System.move, same]
    · simp [System.move, mine]
  case held =>
    intro c
    refine (sound.held c).trans ?_
    simp only [keeps .holding (by simp) c, keeps .released (by simp) c]
  case nonnegative => exact sound.nonnegative
  case waiting => exact sound.waiting
  case memory => rw [outstanding]; exact sound.memory
  case spool => rw [outstanding]; exact sound.spool
  case memory_le => exact sound.memory_le
  case spool_le => exact sound.spool_le
  case channel =>
    intro c channel blocked
    by_cases mine : c = call
    · subst mine
      simp only [System.move, Function.update_self] at blocked
      exact (slept channel blocked).1.le
    · simp only [System.move, Function.update_of_ne mine] at blocked
      exact sound.channel c channel blocked
  case awake =>
    intro c blocked
    by_cases mine : c = call
    · subst mine
      simp only [System.move, Function.update_self] at blocked
      exact (slept _ blocked).2
    · simp only [System.move, Function.update_of_ne mine] at blocked
      exact sound.awake c blocked

/-- A call that waits goes on waiting: woken up, or back to sleep. -/
theorem rest {phase : Phase} (waits : (s.phase call).waits = true) (still : phase.waits = true)
    (slept : ∀ channel, phase = .blocked channel → channel = s.limiter.changed ∧
      ¬ (s.pending.head? = some call ∧ s.limiter.fits (want call) = true)) :
    Sound want (s.move call phase) := by
  have ends {p q : Phase} (busy : p.waits = true) (rests : q.waits = false) : p ≠ q := by
    rintro rfl
    exact absurd busy (by simp [rests])
  refine sound.move (still.trans waits.symm) (fun p listed => ?_) (ends still rfl) slept
  have idle : p.waits = false := by
    simp only [List.mem_cons, List.not_mem_nil, or_false] at listed
    rcases listed with rfl | rfl | rfl <;> rfl
  exact ⟨ends waits idle, ends still idle⟩

/-- A call that has not entered the queue and does not enter it now. -/
theorem refuse (ready : s.phase call = .ready) : Sound want (s.move call .refused) :=
  sound.move (by rw [ready]; rfl) (by simp [ready]) nofun nofun

/-- A change closes the channel on which the calls sleep. -/
theorem closed (s' : System) (phase : Phase) (moved : s'.phase = (s.move call phase).phase)
    (runs : ∀ channel, phase ≠ .blocked channel)
    (closes : s'.limiter.changed = s.limiter.changed + 1) :
    ∀ c channel, s'.phase c = .blocked channel → channel < s'.limiter.changed := by
  intro c channel blocked
  rw [closes, Nat.lt_succ_iff]
  by_cases mine : c = call
  · subst mine
    simp only [moved, System.move, Function.update_self] at blocked
    exact absurd blocked (runs channel)
  · simp only [moved, System.move, Function.update_of_ne mine] at blocked
    exact sound.channel c channel blocked

theorem enter (ready : s.phase call = .ready) (within : s.limiter.exceeds (want call) = false) :
    Sound want (s.enter call) := by
  have fresh : call ∉ s.entered := fun member => sound.entered call member ready
  have other {c : CallID} (member : c ∈ s.entered) : c ≠ call := by
    rintro rfl
    exact fresh member
  have known {c : CallID} (member : c ∈ s.granted ++ s.pending) : c ∈ s.entered :=
    List.mem_of_mem_filter (sound.order ▸ member)
  have pending : (s.enter call).pending = s.pending ++ [call] := Limiter.pending_enqueue
  have outstanding : (s.enter call).outstanding = s.outstanding :=
    List.filter_congr fun c member => by
      simp [System.enter, System.move, other (known (List.mem_append_left _ member))]
  simp only [Limiter.exceeds, Bool.or_eq_false_iff, decide_eq_false_iff_not, not_lt] at within
  constructor
  case order =>
    rw [pending]
    have rest : s.entered.filter ((s.enter call).phase · ≠ .gaveUp) = s.granted ++ s.pending := by
      refine (List.filter_congr fun c member => ?_).trans sound.order
      simp [System.enter, System.move, other member]
    simp only [System.enter, List.filter_append] at rest ⊢
    rw [rest]
    simp [System.move]
  case distinct => exact sound.distinct.append (List.nodup_singleton call) (by simpa using fresh)
  case entered =>
    intro c member
    rcases List.mem_append.mp member with earlier | now
    · simpa [System.enter, System.move, other earlier] using sound.entered c earlier
    · simp [System.enter, System.move, List.mem_singleton.mp now]
  case queued =>
    intro c
    rw [pending, List.mem_append, sound.queued c, List.mem_singleton]
    by_cases same : c = call
    · subst same
      simp [System.enter, System.move, Phase.waits]
    · simp [System.enter, System.move, same]
  case held =>
    intro c
    refine (sound.held c).trans ?_
    by_cases same : c = call
    · subst same
      simp [System.enter, System.move, ready]
    · simp [System.enter, System.move, same]
  case nonnegative =>
    intro c member
    rw [pending, ← List.append_assoc, List.mem_append] at member
    rcases member with earlier | now
    · exact sound.nonnegative c earlier
    · rw [List.mem_singleton.mp now]
      exact ⟨within.1.1.1, within.1.1.2⟩
  case waiting =>
    rw [pending, List.length_append, Nat.cast_add, ← sound.waiting]
    rfl
  case memory => rw [outstanding]; exact sound.memory
  case spool => rw [outstanding]; exact sound.spool
  case memory_le => exact sound.memory_le
  case spool_le => exact sound.spool_le
  case channel =>
    intro c channel blocked
    by_cases same : c = call
    · subst same
      simp [System.enter, System.move] at blocked
    · simp only [System.enter, System.move, Function.update_of_ne same] at blocked
      exact sound.channel c channel blocked
  case awake =>
    intro c blocked
    by_cases same : c = call
    · subst same
      simp [System.enter, System.move] at blocked
    · simp only [System.enter, System.move, Function.update_of_ne same] at blocked
      -- the queue was not empty, so its head is the same
      have waits : c ∈ s.pending := (sound.queued c).mpr (by rw [blocked]; rfl)
      rw [pending, List.head?_append_of_ne_nil _ (List.ne_nil_of_mem waits)]
      exact sound.awake c blocked

theorem giveUp (running : s.phase call = .running) : Sound want (s.giveUp call) := by
  have waits : (s.phase call).waits = true := by rw [running]; rfl
  have notGranted := sound.notGranted waits
  have member : call ∈ s.pending := (sound.queued call).mpr waits
  have distinct := sound.nodup.of_append_right
  have pending : (s.giveUp call).pending = s.pending.erase call := Limiter.pending_withdraw
  have keeps (p : Phase) (was : .running ≠ p) (now : .gaveUp ≠ p) :
      ∀ c, (s.giveUp call).phase c = p ↔ s.phase c = p := move_phase_iff (running ▸ was) now
  have outstanding : (s.giveUp call).outstanding = s.outstanding :=
    List.filter_congr fun c _ => by simp [keeps]
  have closed := sound.closed (s.giveUp call) .gaveUp rfl nofun rfl
  constructor
  case order =>
    have gone : (s.giveUp call).entered.filter ((s.giveUp call).phase · ≠ .gaveUp) =
        (s.entered.filter (s.phase · ≠ .gaveUp)).filter (· != call) := by
      rw [List.filter_filter]
      refine List.filter_congr fun c _ => ?_
      by_cases same : c = call <;> simp [System.giveUp, System.move, same]
    rw [gone, sound.order, pending, ← sound.nodup.erase_eq_filter,
      List.erase_append_right _ notGranted]
    rfl
  case distinct => exact sound.distinct
  case entered =>
    intro c member
    exact fun ready => sound.entered c member ((keeps .ready (by simp) (by simp) c).mp ready)
  case queued =>
    intro c
    rw [pending, distinct.mem_erase_iff, sound.queued c]
    by_cases same : c = call
    · subst same
      simp [System.giveUp, System.move, Phase.waits]
    · simp [System.giveUp, System.move, same]
  case held =>
    intro c
    refine (sound.held c).trans ?_
    simp [keeps]
  case nonnegative =>
    intro c member
    rw [pending, List.mem_append] at member
    exact sound.nonnegative c (List.mem_append.mpr (member.imp_right List.mem_of_mem_erase))
  case waiting =>
    have count := List.length_erase_of_mem member
    have some : 0 < s.pending.length := List.length_pos_of_mem member
    have before := sound.waiting
    simp only [pending, count]
    simp only [System.giveUp, Limiter.withdraw, Limiter.broadcast]
    omega
  case memory => rw [outstanding]; exact sound.memory
  case spool => rw [outstanding]; exact sound.spool
  case memory_le => exact sound.memory_le
  case spool_le => exact sound.spool_le
  case channel => exact fun c channel blocked => (closed c channel blocked).le
  case awake => exact fun c blocked => absurd (closed c _ blocked) (lt_irrefl _)

theorem grant (running : s.phase call = .running) (head : s.pending.head? = some call)
    (fits : s.limiter.fits (want call) = true) : Sound want (s.grant call (want call)) := by
  have waits : (s.phase call).waits = true := by rw [running]; rfl
  have notGranted := sound.notGranted waits
  obtain ⟨rest, queue⟩ : ∃ rest, s.pending = call :: rest := by
    rw [List.head?_eq_some_iff] at head
    exact head
  have distinct : (call :: rest).Nodup := queue ▸ sound.nodup.of_append_right
  have pending : (s.grant call (want call)).pending = rest := by
    refine Limiter.pending_grant.trans ?_
    rw [show s.limiter.pending = call :: rest from queue, List.tail_cons]
  have keeps (p : Phase) (was : .running ≠ p) (now : .holding ≠ p) :
      ∀ c, (s.grant call (want call)).phase c = p ↔ s.phase c = p :=
    move_phase_iff (running ▸ was) now
  have outstanding : (s.grant call (want call)).outstanding = s.outstanding ++ [call] := by
    have earlier : s.granted.filter ((s.grant call (want call)).phase · = .holding) =
        s.outstanding := by
      refine List.filter_congr fun c member => ?_
      have other : c ≠ call := by
        rintro rfl
        exact notGranted member
      simp [System.grant, System.move, other]
    simp only [System.outstanding, System.grant, List.filter_append] at earlier ⊢
    rw [earlier]
    simp [System.move]
  simp only [Limiter.fits, Bool.and_eq_true, decide_eq_true_eq] at fits
  have closed := sound.closed (s.grant call (want call)) .holding rfl nofun rfl
  constructor
  case order =>
    rw [pending]
    refine (List.filter_congr fun c _ => ?_).trans (sound.order.trans ?_)
    · simp [keeps]
    · simp [System.grant, queue]
  case distinct => exact sound.distinct
  case entered =>
    intro c member
    exact fun ready => sound.entered c member ((keeps .ready (by simp) (by simp) c).mp ready)
  case queued =>
    intro c
    have before := sound.queued c
    rw [queue, List.mem_cons] at before
    rw [pending]
    by_cases same : c = call
    · subst same
      simpa [System.grant, System.move, Phase.waits] using (List.nodup_cons.mp distinct).1
    · simpa [System.grant, System.move, same] using before
  case held =>
    intro c
    refine List.mem_append.trans ?_
    rw [sound.held c, List.mem_singleton]
    by_cases same : c = call
    · subst same
      simp [System.grant, System.move]
    · simp [System.grant, System.move, same]
  case nonnegative =>
    intro c member
    refine sound.nonnegative c ?_
    rw [pending] at member
    simpa [System.grant, queue] using member
  case waiting =>
    have before := sound.waiting
    simp only [queue, List.length_cons] at before
    simp only [pending]
    simp only [System.grant, Limiter.grant, Limiter.broadcast]
    omega
  case memory =>
    rw [outstanding, List.map_append, List.sum_append, ← sound.memory, List.map_singleton,
      List.sum_singleton]
    rfl
  case spool =>
    rw [outstanding, List.map_append, List.sum_append, ← sound.spool, List.map_singleton,
      List.sum_singleton]
    rfl
  case memory_le =>
    simp only [System.grant, Limiter.grant, Limiter.broadcast]
    omega
  case spool_le =>
    simp only [System.grant, Limiter.grant, Limiter.broadcast]
    omega
  case channel => exact fun c channel blocked => (closed c channel blocked).le
  case awake => exact fun c blocked => absurd (closed c _ blocked) (lt_irrefl _)

theorem giveBack (holding : s.phase call = .holding) :
    Sound want (s.giveBack call (want call)) := by
  have granted : call ∈ s.granted := (sound.held call).mpr (.inl holding)
  have held : call ∈ s.outstanding := List.mem_filter.mpr ⟨granted, by simpa using holding⟩
  have distinct : s.outstanding.Nodup := sound.nodup.of_append_left.filter _
  have keeps (p : Phase) (was : .holding ≠ p) (now : .released ≠ p) :
      ∀ c, (s.giveBack call (want call)).phase c = p ↔ s.phase c = p :=
    move_phase_iff (holding ▸ was) now
  have outstanding : (s.giveBack call (want call)).outstanding = s.outstanding.erase call := by
    rw [distinct.erase_eq_filter, System.outstanding, System.outstanding, List.filter_filter]
    refine List.filter_congr fun c _ => ?_
    by_cases same : c = call <;> simp [System.giveBack, System.move, same]
  have share := sound.nonnegative call (List.mem_append_left _ granted)
  have memory := List.sum_map_erase (fun c => (want c).memory) held
  have spool := List.sum_map_erase (fun c => (want c).spool) held
  rw [← outstanding, ← sound.memory] at memory
  rw [← outstanding, ← sound.spool] at spool
  have memory_le := sound.memory_le
  have spool_le := sound.spool_le
  have closed := sound.closed (s.giveBack call (want call)) .released rfl nofun rfl
  constructor
  case order =>
    refine (List.filter_congr fun c _ => ?_).trans sound.order
    simp [keeps]
  case distinct => exact sound.distinct
  case entered =>
    intro c member
    exact fun ready => sound.entered c member ((keeps .ready (by simp) (by simp) c).mp ready)
  case queued =>
    intro c
    refine (sound.queued c).trans ?_
    by_cases same : c = call
    · subst same
      simp [System.giveBack, System.move, holding, Phase.waits]
    · simp [System.giveBack, System.move, same]
  case held =>
    intro c
    refine (sound.held c).trans ?_
    by_cases same : c = call
    · subst same
      simp [System.giveBack, System.move, holding]
    · simp [System.giveBack, System.move, same]
  case nonnegative => exact sound.nonnegative
  case waiting => exact sound.waiting
  case memory => exact Int.sub_eq_iff_eq_add'.mpr memory.symm
  case spool => exact Int.sub_eq_iff_eq_add'.mpr spool.symm
  case memory_le =>
    simp only [System.giveBack, Limiter.giveBack, Limiter.broadcast]
    omega
  case spool_le =>
    simp only [System.giveBack, Limiter.giveBack, Limiter.broadcast]
    omega
  case channel => exact fun c channel blocked => (closed c channel blocked).le
  case awake => exact fun c blocked => absurd (closed c _ blocked) (lt_irrefl _)

theorem turn (running : s.phase call = .running) : Sound want (s.turn call (want call)) := by
  unfold System.turn
  split
  · exact sound.giveUp running
  split
  next first => exact sound.grant running first.1 first.2
  next stuck =>
    refine sound.rest (by rw [running]; rfl) rfl fun channel now => ?_
    cases now
    exact ⟨rfl, stuck⟩

theorem step {s' : System} (stepped : Stepped want s s') : Sound want s' := by
  cases stepped with
  | refused ready => exact sound.refuse ready
  | entered ready within =>
    exact (sound.enter ready within).turn (by simp [System.enter, System.move])
  | cancelled => exact { sound with }
  | woken blocked => exact sound.rest (by rw [blocked]; rfl) rfl nofun
  | turned running => exact sound.turn running
  | released holding => exact sound.giveBack holding
  | again => exact sound

theorem run {events : List Event} {s' : System} (ran : run want events s = some s') :
    Sound want s' := by
  induction events generalizing s with
  | nil => exact Option.some.inj ran ▸ sound
  | cons event rest ih =>
    obtain ⟨next, stepped, ran⟩ := Option.bind_eq_some_iff.mp ran
    exact ih (sound.step (step_cases stepped)) ran

/-- The head of the queue is not asleep when it could be granted. -/
theorem wakes (head : s.pending.head? = some call) (fits : s.limiter.fits (want call) = true) :
    s.phase call = .running ∨ ∃ channel < s.limiter.changed, s.phase call = .blocked channel := by
  have waits := (sound.queued call).mp (List.mem_of_mem_head? head)
  cases phase : s.phase call with
  | running => exact .inl rfl
  | blocked channel =>
    refine .inr ⟨channel, lt_of_le_of_ne (sound.channel call channel phase) ?_, rfl⟩
    rintro rfl
    exact sound.awake call phase ⟨head, fits⟩
  | _ => simp [phase, Phase.waits] at waits

end Sound

def System.SameLimits (s s' : System) : Prop :=
  s'.limiter.memoryLimit = s.limiter.memoryLimit ∧ s'.limiter.spoolLimit = s.limiter.spoolLimit

theorem turn_limits (s : System) (call : CallID) (r : Reservation) :
    s.SameLimits (s.turn call r) := by
  unfold System.turn
  split
  · exact ⟨rfl, rfl⟩
  split <;> exact ⟨rfl, rfl⟩

theorem Stepped.limits {s' : System} (stepped : Stepped want s s') : s.SameLimits s' := by
  cases stepped with
  | entered => exact turn_limits (s.enter _) _ _
  | turned => exact turn_limits s _ _
  | _ => exact ⟨rfl, rfl⟩

theorem run_limits {events : List Event} {s' : System} (ran : run want events s = some s') :
    s.SameLimits s' := by
  induction events generalizing s with
  | nil => exact Option.some.inj ran ▸ ⟨rfl, rfl⟩
  | cons event rest ih =>
    obtain ⟨next, stepped, ran⟩ := Option.bind_eq_some_iff.mp ran
    have first := (step_cases stepped).limits
    exact ⟨(ih ran).1.trans first.1, (ih ran).2.trans first.2⟩

/-- What a call that gives up leaves behind: the shares that are out, the other
requests in their order, and where the other calls stand. -/
structure System.Leaves (s s' : System) (call : CallID) : Prop where
  memory : s'.limiter.memory = s.limiter.memory
  spool : s'.limiter.spool = s.limiter.spool
  pending : s'.pending = s.pending.erase call
  waiting : s'.limiter.waiting = (s.pending.erase call).length
  granted : s'.granted = s.granted
  others : ∀ other ≠ call, s'.phase other = s.phase other

theorem move_ne_gaveUp {caller : CallID} {phase : Phase} (was : s.phase call ≠ .gaveUp)
    (now : phase ≠ .gaveUp) : (s.move caller phase).phase call ≠ .gaveUp := by
  by_cases same : call = caller
  · subst same
    simpa [System.move] using now
  · simpa [System.move, same] using was

theorem turn_gaveUp {caller : CallID} {r : Reservation} (was : s.phase call ≠ .gaveUp)
    (gone : (s.turn caller r).phase call = .gaveUp) :
    caller = call ∧ s.turn caller r = s.giveUp call := by
  unfold System.turn at gone ⊢
  split at gone
  next done =>
    by_cases same : call = caller
    · subst same
      exact ⟨rfl, if_pos done⟩
    · exact absurd (by simpa [System.giveUp, System.move, same] using gone) was
  split at gone
  · exact absurd gone (move_ne_gaveUp was nofun)
  · exact absurd gone (move_ne_gaveUp was nofun)

theorem Stepped.gaveUp {s' : System} (stepped : Stepped want s s') (sound : Sound want s)
    (was : s.phase call ≠ .gaveUp) (gone : s'.phase call = .gaveUp) : s.Leaves s' call := by
  have after := (sound.step stepped).waiting
  cases stepped with
  | @entered caller ready within =>
    have entering : (s.enter caller).phase call ≠ .gaveUp := move_ne_gaveUp was nofun
    obtain ⟨rfl, same⟩ := turn_gaveUp entering gone
    rw [same] at after ⊢
    -- the request was appended and is taken out again
    have absent : caller ∉ s.pending := by
      rw [sound.queued, ready]
      decide
    have pending : ((s.enter caller).giveUp caller).pending = s.pending.erase caller := by
      refine Limiter.pending_withdraw.trans ?_
      rw [show (s.enter caller).limiter.pending = s.pending ++ [caller] from
        Limiter.pending_enqueue, List.erase_append_right _ absent, List.erase_cons_head,
        List.append_nil, List.erase_of_not_mem absent]
    refine ⟨rfl, rfl, pending, by rw [after, pending], rfl, fun other different => ?_⟩
    simp [System.giveUp, System.enter, System.move, different]
  | @turned caller running =>
    obtain ⟨rfl, same⟩ := turn_gaveUp was gone
    rw [same] at after ⊢
    have pending : (s.giveUp caller).pending = s.pending.erase caller := Limiter.pending_withdraw
    refine ⟨rfl, rfl, pending, by rw [after, pending], rfl, fun other different => ?_⟩
    simp [System.giveUp, System.move, different]
  | refused => exact absurd gone (move_ne_gaveUp was nofun)
  | woken => exact absurd gone (move_ne_gaveUp was nofun)
  | released => exact absurd gone (move_ne_gaveUp was nofun)
  | cancelled => exact absurd gone was
  | again => exact absurd gone was

/-- The shares that are out add up to the accounts of the limiter and stay within
its limits. Requests are granted in the order in which they entered, but for those
that gave up, and a request that gives up changes nothing for the others. The head
of the queue is awake, or about to be, when it can be granted. -/
theorem limiter_accounts_and_wakes (want : CallID → Reservation) (memoryLimit spoolLimit : Nat)
    (events : List Event) (s : System)
    (ran : run want events (start memoryLimit spoolLimit) = some s) :
    (s.limiter.memory = (s.outstanding.map fun c => (want c).memory).sum ∧
      s.limiter.spool = (s.outstanding.map fun c => (want c).spool).sum ∧
      s.limiter.memory ≤ memoryLimit ∧ s.limiter.spool ≤ spoolLimit) ∧
    s.entered.filter (s.phase · ≠ .gaveUp) = s.granted ++ s.pending ∧
    (∀ event s' call, step want event s = some s' → s.phase call ≠ .gaveUp →
      s'.phase call = .gaveUp → s.Leaves s' call) ∧
    s.limiter.waiting = s.pending.length ∧
    ∀ call, s.pending.head? = some call → s.limiter.fits (want call) = true →
      s.phase call = .running ∨ (∃ channel < s.limiter.changed, s.phase call = .blocked channel) ∨
        s.done call = true := by
  have sound : Sound want s := start_sound.run ran
  obtain ⟨memoryLimit_eq, spoolLimit_eq⟩ := run_limits ran
  refine ⟨⟨sound.memory, sound.spool, ?_, ?_⟩, sound.order, ?_, sound.waiting, ?_⟩
  · rw [← show s.limiter.memoryLimit = memoryLimit from memoryLimit_eq]
    exact sound.memory_le
  · rw [← show s.limiter.spoolLimit = spoolLimit from spoolLimit_eq]
    exact sound.spool_le
  · intro event s' call stepped was gone
    exact (step_cases stepped).gaveUp sound was gone
  · intro call head fits
    exact (sound.wakes head fits).imp_right .inl

/-- Three requests of three units for a limiter of five: the second waits, the
third gives up, and the second goes on once the first has given its share back. -/
def contention : List Event :=
  [.acquire 0, .acquire 1, .acquire 2, .cancel 2, .wake 2, .resume 2, .release 0, .release 0,
    .wake 1, .resume 1]

theorem limiter_accounts_and_wakes_of_contention :
    ∃ s, run (fun _ => ⟨3, 0⟩) contention (start 5 0) = some s ∧ s.granted = [0, 1] ∧
      s.entered = [0, 1, 2] ∧ s.limiter.memory = 3 ∧ s.limiter.waiting = s.pending.length := by
  have ran : ((run (fun _ => ⟨3, 0⟩) contention (start 5 0)).any fun s =>
      s.granted = [0, 1] ∧ s.entered = [0, 1, 2] ∧ s.limiter.memory = 3) = true := by decide
  obtain ⟨s, ran, checked⟩ := (Option.any_eq_true _ _).mp ran
  obtain ⟨granted, entered, memory⟩ := of_decide_eq_true checked
  exact ⟨s, ran, granted, entered, memory,
    (limiter_accounts_and_wakes _ 5 0 contention s ran).2.2.2.1⟩

end RelayTale.Resource
