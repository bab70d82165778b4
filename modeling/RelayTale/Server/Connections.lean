import Mathlib.Algebra.BigOperators.Ring.Finset
import Mathlib.Algebra.Order.Ring.Int
import Mathlib.Data.List.Nodup
import Mathlib.Logic.Function.Basic
import RelayTale.Basic

/-!
# Admission of SMTP connections

The server counts connections and authentications by source. An entry of the
map is an object of its own: the release functions that `connect` and
`authenticate` return keep a pointer to it, whatever the map holds later. Every
access is made under the mutex, so a call is one step. Whether a token bucket
has a token is a part of the event.
-/

namespace RelayTale.Server

section Entries

abbrev SourceKey := String

/-- The address of a `sourceState`. -/
abbrev Pointer := ℕ

/-- The limits that `New` accepts. -/
structure Limits where
  connections : Int
  perSource : Int
  valid : 1 ≤ connections ∧ 1 ≤ perSource ∧ perSource ≤ connections

def maxSources : ℕ := 4096

def sourceTTL : Int := 5 * minute

inductive Kind
  | connection
  | authentication
  deriving DecidableEq, Repr

structure SourceState where
  connections : Int := 0
  auth : Int := 0
  touched : Int := 0
  deriving DecidableEq, Repr

namespace SourceState

def count : Kind → SourceState → Int
  | .connection, s => s.connections
  | .authentication, s => s.auth

def add (change : Int) : Kind → SourceState → SourceState
  | .connection, s => { s with connections := s.connections + change }
  | .authentication, s => { s with auth := s.auth + change }

def touch (now : Int) (s : SourceState) : SourceState := { s with touched := now }

/-- Without connections and authentications, and untouched for a while. -/
def idle (now : Int) (s : SourceState) : Bool :=
  decide (s.connections = 0) && decide (s.auth = 0) && decide (sourceTTL ≤ now - s.touched)

theorem count_touch (now : Int) (kind : Kind) (s : SourceState) :
    (s.touch now).count kind = s.count kind := by
  cases kind <;> rfl

theorem count_add (change : Int) (kind kind' : Kind) (s : SourceState) :
    (s.add change kind).count kind' = s.count kind' + if kind = kind' then change else 0 := by
  cases kind <;> cases kind' <;> simp [add, count]

end SourceState

def Kind.bound (limits : Limits) : Kind → Int
  | .connection => limits.perSource
  | .authentication => 1

/-- The share of a kind in `total`. -/
def Kind.share : Kind → Int
  | .connection => 1
  | .authentication => 0

end Entries

section Calls

/-- A release function with the entry it points to, the source it was returned
for and the state of its `sync.Once`. -/
structure Release where
  kind : Kind
  key : SourceKey
  entry : Pointer
  done : Bool := false
  deriving DecidableEq, Repr

structure Admission where
  limits : Limits
  sources : List (SourceKey × Pointer) := []
  total : Int := 0
  nextSweep : Option Int := none
  entries : Pointer → SourceState := fun _ => {}
  fresh : Pointer := 0
  releases : List Release := []

namespace Admission

variable (a : Admission)

def lookup (key : SourceKey) : Option Pointer := a.sources.lookup key

def modify (p : Pointer) (update : SourceState → SourceState) : Admission :=
  { a with entries := Function.update a.entries p (update (a.entries p)) }

/-- The sweep at the start of `connect`. -/
def sweep (now : Int) : Admission :=
  if a.nextSweep.all (· ≤ now) then
    { a with
      sources := a.sources.filter fun source => !(a.entries source.2).idle now
      nextSweep := some (now + minute) }
  else a

/-- The entry of a source, made if there is none and room for one. -/
def intern (key : SourceKey) : Option (Admission × Pointer) :=
  match a.lookup key with
  | some p => some (a, p)
  | none =>
      if maxSources ≤ a.sources.length then none
      else
        some ({ a with
          sources := (key, a.fresh) :: a.sources
          entries := Function.update a.entries a.fresh {}
          fresh := a.fresh + 1 }, a.fresh)

/-- One more is counted, and the function that gives it back is returned. -/
def grant (kind : Kind) (key : SourceKey) (p : Pointer) : Admission :=
  { a.modify p (·.add 1 kind) with
    total := a.total + kind.share
    releases := a.releases ++ [⟨kind, key, p, false⟩] }

/-- `connect`. -/
def connect (key : SourceKey) (now : Int) (token : Bool) : Admission :=
  let swept := a.sweep now
  if swept.limits.connections ≤ swept.total then swept
  else
    match swept.intern key with
    | none => swept
    | some (known, p) =>
        let touched := known.modify p (·.touch now)
        if touched.limits.perSource ≤ (touched.entries p).connections || !token then touched
        else touched.grant .connection key p

/-- `authenticate`. -/
def authenticate (key : SourceKey) (now : Int) (token : Bool) : Admission :=
  match a.lookup key with
  | none => a
  | some p =>
      let touched := a.modify p (·.touch now)
      if 1 ≤ (touched.entries p).auth || !token then touched
      else touched.grant .authentication key p

def release (i : ℕ) (now : Int) : Admission :=
  match a.releases[i]? with
  | none => a
  | some r =>
      if r.done then a
      else
        { (a.modify r.entry (·.add (-1) r.kind)).modify r.entry (·.touch now) with
          total := a.total - r.kind.share
          releases := a.releases.set i { r with done := true } }

end Admission

inductive Event
  | connect (key : SourceKey) (now : Int) (token : Bool)
  | authenticate (key : SourceKey) (now : Int) (token : Bool)
  | release (i : ℕ) (now : Int)

namespace Admission

def step (a : Admission) : Event → Admission
  | .connect key now token => a.connect key now token
  | .authenticate key now token => a.authenticate key now token
  | .release i now => a.release i now

def run (a : Admission) (events : List Event) : Admission := events.foldl step a

end Admission

/-- `newAdmission`. -/
def newAdmission (limits : Limits) : Admission := { limits }

end Calls

section Accounting

def Release.holds (kind : Kind) (p : Pointer) (r : Release) : Bool :=
  !r.done && decide (r.kind = kind) && decide (r.entry = p)

def Release.connected (r : Release) : Bool := !r.done && decide (r.kind = .connection)

/-- The admission agrees with the release functions that have not run: each of
them points to the entry that the map holds for its source, and the counters are
their numbers. -/
structure Accounted (a : Admission) : Prop where
  keys : (a.sources.map Prod.fst).Nodup
  pointers : (a.sources.map Prod.snd).Nodup
  allocated : ∀ source ∈ a.sources, source.2 < a.fresh
  current : ∀ r ∈ a.releases, r.done = false → (r.key, r.entry) ∈ a.sources
  counts : ∀ kind p, (a.entries p).count kind = a.releases.countP (Release.holds kind p)
  total : a.total = a.releases.countP Release.connected
  capacity : a.total ≤ a.limits.connections
  bounded : ∀ kind p, (a.entries p).count kind ≤ kind.bound a.limits
  room : a.sources.length ≤ maxSources

variable {a : Admission} {key : SourceKey} {p : Pointer} {now : Int}

theorem Accounted.initial (limits : Limits) : Accounted (newAdmission limits) where
  keys := List.nodup_nil
  pointers := List.nodup_nil
  allocated := by simp [newAdmission]
  current := by simp [newAdmission]
  counts := by
    intro kind p
    cases kind <;> rfl
  total := rfl
  capacity := Int.le_of_lt limits.valid.1
  bounded := by
    intro kind p
    cases kind with
    | connection => exact Int.le_of_lt limits.valid.2.1
    | authentication => exact Int.zero_le_ofNat 1
  room := Nat.zero_le _

theorem count_modify {update : SourceState → SourceState} {change : Kind → Int}
    (changes : ∀ kind s, (update s).count kind = s.count kind + change kind) (kind : Kind)
    (p q : Pointer) :
    ((a.modify p update).entries q).count kind =
      (a.entries q).count kind + if q = p then change kind else 0 := by
  by_cases same : q = p
  · subst same
    simp [Admission.modify, changes]
  · simp [Admission.modify, same]

theorem mem_of_lookup (found : a.lookup key = some p) : (key, p) ∈ a.sources := by
  obtain ⟨before, after, sources, -⟩ := List.lookup_eq_some_iff.mp found
  simp [sources]

/-- A predicate that no release function satisfies once it has run. -/
theorem countP_set (holds : Release → Bool) (over' : ∀ r : Release, r.done = true → holds r = false)
    {releases : List Release} {i : ℕ} {r : Release} (found : releases[i]? = some r) :
    (releases.set i { r with done := true }).countP holds + (if holds r then 1 else 0) =
      releases.countP holds := by
  induction releases generalizing i with
  | nil => cases found
  | cons first rest ih =>
    cases i with
    | zero =>
      obtain rfl := Option.some.inj found
      rw [List.set_cons_zero, List.countP_cons, List.countP_cons, over' _ rfl]
      simp
    | succ i =>
      rw [List.set_cons_succ, List.countP_cons, List.countP_cons, ← ih found]
      omega

variable (accounted : Accounted a)

include accounted

/-- A release function that has not run keeps its entry from being idle. -/
theorem Accounted.busy {r : Release} (listed : r ∈ a.releases) (pending : r.done = false)
    (now : Int) : (a.entries r.entry).idle now = false := by
  have held : r.holds r.kind r.entry = true := by simp [Release.holds, pending]
  have positive : 0 < a.releases.countP (Release.holds r.kind r.entry) :=
    List.countP_pos_iff.mpr ⟨r, listed, held⟩
  have counts := accounted.counts r.kind r.entry
  have counted : (a.entries r.entry).count r.kind ≠ 0 := by omega
  cases kind : r.kind <;> simp_all [SourceState.idle, SourceState.count]

/-- Only entries that nobody holds leave the map. -/
theorem Accounted.sweep (now : Int) : Accounted (a.sweep now) := by
  unfold Admission.sweep
  split
  case isFalse => exact accounted
  have kept : (a.sources.filter fun source => !(a.entries source.2).idle now).Sublist a.sources :=
    List.filter_sublist
  exact
    { accounted with
      keys := accounted.keys.sublist (kept.map Prod.fst)
      pointers := accounted.pointers.sublist (kept.map Prod.snd)
      allocated := fun source listed => accounted.allocated source (kept.subset listed)
      current := fun r listed pending => List.mem_filter.mpr
        ⟨accounted.current r listed pending, by simpa using accounted.busy listed pending now⟩
      room := kept.length_le.trans accounted.room }

/-- Entries count by what they hold. -/
theorem Accounted.recount {entries : Pointer → SourceState}
    (same : ∀ kind p, (entries p).count kind = (a.entries p).count kind) :
    Accounted { a with entries } :=
  { accounted with
    counts := fun kind p => (same kind p).trans (accounted.counts kind p)
    bounded := fun kind p => (same kind p).trans_le (accounted.bounded kind p) }

theorem Accounted.touch (now : Int) (p : Pointer) : Accounted (a.modify p (·.touch now)) := by
  refine accounted.recount fun kind q => ?_
  have unchanged (kind : Kind) (s : SourceState) : (s.touch now).count kind = s.count kind + 0 :=
    (s.count_touch now kind).trans (Int.add_zero _).symm
  have counted := count_modify (a := a) unchanged kind p q
  rwa [ite_self, Int.add_zero] at counted

theorem lookup_of_mem (listed : (key, p) ∈ a.sources) : a.lookup key = some p := by
  cases found : a.lookup key with
  | none =>
    have missing := List.lookup_eq_none_iff.mp found (key, p) listed
    simp at missing
  | some q =>
    have same := List.inj_on_of_nodup_map accounted.keys (mem_of_lookup found) listed rfl
    rw [(Prod.mk.inj same).2]

/-- Nobody holds an entry that has not been made yet. -/
theorem Accounted.unheld (kind : Kind) : (a.entries a.fresh).count kind = 0 := by
  rw [accounted.counts, Int.natCast_eq_zero, List.countP_eq_zero]
  intro r listed held
  simp only [Release.holds, Bool.and_eq_true, Bool.not_eq_true', decide_eq_true_eq] at held
  have old := accounted.allocated _ (accounted.current r listed held.1.1)
  rw [held.2] at old
  exact lt_irrefl _ old

/-- A source that is not known yet gets an entry of its own. -/
theorem Accounted.intern {known : Admission} (interned : a.intern key = some (known, p)) :
    Accounted known ∧ (key, p) ∈ known.sources ∧ known.total = a.total ∧
      known.limits = a.limits := by
  unfold Admission.intern at interned
  split at interned
  next found =>
    cases interned
    exact ⟨accounted, mem_of_lookup found, rfl, rfl⟩
  next unknown =>
    split at interned
    · cases interned
    next room =>
      cases interned
      have made : Accounted { a with entries := Function.update a.entries a.fresh {} } := by
        refine accounted.recount fun kind q => ?_
        by_cases here : q = a.fresh
        · rw [here, Function.update_self, accounted.unheld]
          cases kind <;> rfl
        · rw [Function.update_of_ne here]
      refine ⟨{ made with keys := ?_, pointers := ?_, allocated := ?_, current := ?_, room := ?_ },
        List.mem_cons_self, rfl, rfl⟩
      · refine List.nodup_cons.mpr ⟨fun listed => ?_, accounted.keys⟩
        obtain ⟨source, member, same⟩ := List.mem_map.mp listed
        have missing := List.lookup_eq_none_iff.mp unknown source member
        simp [same] at missing
      · refine List.nodup_cons.mpr ⟨fun listed => ?_, accounted.pointers⟩
        obtain ⟨source, member, same⟩ := List.mem_map.mp listed
        exact absurd same (accounted.allocated source member).ne
      · intro source listed
        rcases List.mem_cons.mp listed with rfl | old
        · exact Nat.lt_succ_self _
        · exact Nat.lt_succ_of_lt (accounted.allocated source old)
      · exact fun r listed pending => List.mem_cons_of_mem _ (accounted.current r listed pending)
      · exact Nat.lt_of_not_le room

theorem Accounted.grant {kind : Kind} (listed : (key, p) ∈ a.sources)
    (capacity : a.total + kind.share ≤ a.limits.connections)
    (few : (a.entries p).count kind < kind.bound a.limits) : Accounted (a.grant kind key p) := by
  have counted (kind' : Kind) (q : Pointer) : ((a.grant kind key p).entries q).count kind' =
      (a.entries q).count kind' + if q = p then (if kind = kind' then 1 else 0) else 0 :=
    count_modify (a := a) (fun kind' s => s.count_add 1 kind kind') kind' p q
  refine { accounted with
    current := ?_, counts := fun kind' q => ?_, total := ?_, capacity := capacity
    bounded := fun kind' q => ?_ }
  · intro r member pending
    rcases List.mem_append.mp member with old | new
    · exact accounted.current r old pending
    · obtain rfl := List.mem_singleton.mp new
      exact listed
  · rw [counted, accounted.counts]
    simp only [Admission.grant, List.countP_append, List.countP_singleton, Release.holds]
    by_cases same : q = p <;> by_cases same' : kind = kind' <;>
      simp [same, same', eq_comm (a := p)]
  · simp only [Admission.grant, accounted.total, List.countP_append, List.countP_singleton]
    cases kind <;> simp [Release.connected, Kind.share]
  · rw [counted]
    by_cases here : q = p ∧ kind = kind'
    · obtain ⟨rfl, rfl⟩ := here
      rw [if_pos rfl, if_pos rfl]
      exact few
    · have none : (if q = p then (if kind = kind' then (1 : Int) else 0) else 0) = 0 := by
        by_cases same : q = p <;> by_cases same' : kind = kind' <;> simp_all
      rw [none, Int.add_zero]
      exact accounted.bounded kind' q

theorem Accounted.release (i : ℕ) (now : Int) : Accounted (a.release i now) := by
  unfold Admission.release
  split
  · exact accounted
  next r found =>
    split
    · exact accounted
    next pending =>
      rw [Bool.not_eq_true] at pending
      have fewer (kind : Kind) (q : Pointer) :=
        countP_set (Release.holds kind q) (fun r done => by simp [Release.holds, done])
          found
      have connected := countP_set Release.connected
        (fun r done => by simp [Release.connected, done]) found
      have counted (kind : Kind) (q : Pointer) :=
        count_modify (a := a) (fun kind s => s.count_add (-1) r.kind kind) kind r.entry q
      have touched (kind : Kind) (q : Pointer) :=
        count_modify (a := a.modify r.entry (·.add (-1) r.kind))
          (fun kind s => (s.count_touch now kind).trans (Int.add_zero _).symm) kind r.entry q
      have counts (kind : Kind) (q : Pointer) :
          (((a.modify r.entry (·.add (-1) r.kind)).modify r.entry (·.touch now)).entries q).count
            kind = ((a.releases.set i { r with done := true }).countP (Release.holds kind q)) := by
        rw [touched, ite_self, Int.add_zero, counted, accounted.counts, ← fewer kind q]
        by_cases same : q = r.entry <;> by_cases same' : r.kind = kind <;>
          simp [Release.holds, pending, same, same', eq_comm (a := r.entry)]
      constructor
      case keys => exact accounted.keys
      case pointers => exact accounted.pointers
      case allocated => exact accounted.allocated
      case current =>
        intro other listed unreleased
        rcases List.mem_or_eq_of_mem_set listed with old | rfl
        · exact accounted.current other old unreleased
        · cases unreleased
      case counts => exact counts
      case total =>
        have share : (if r.connected then (1 : Int) else 0) = r.kind.share := by
          cases kind : r.kind <;> simp [Release.connected, pending, kind, Kind.share]
        have total := accounted.total
        simp only
        rw [total, ← connected, ← share]
        split <;> simp
      case capacity =>
        have capacity := accounted.capacity
        have share : 0 ≤ r.kind.share := by cases r.kind <;> decide
        exact Int.le_trans (Int.sub_le_self _ share) capacity
      case bounded =>
        intro kind q
        have old := accounted.bounded kind q
        have before := accounted.counts kind q
        have fewer := fewer kind q
        refine Int.le_trans ?_ old
        rw [counts, before]
        omega
      case room => exact accounted.room

end Accounting

section Runs

variable {a : Admission}

theorem sum_indicator (p : Pointer) (pointers : List Pointer) :
    (pointers.map fun q => if p = q then 1 else 0).sum = pointers.count p := by
  induction pointers with
  | nil => rfl
  | cons q rest ih =>
    rw [List.map_cons, List.sum_cons, ih, List.count_cons, Nat.add_comm]
    simp [eq_comm (a := p)]

/-- Every release function points to one of these entries, so they count them all. -/
theorem sum_holds (pointers : List Pointer) (nodup : pointers.Nodup) (releases : List Release)
    (listed : ∀ r ∈ releases, r.connected = true → r.entry ∈ pointers) :
    (pointers.map fun p => releases.countP (Release.holds .connection p)).sum =
      releases.countP Release.connected := by
  induction releases with
  | nil => simp
  | cons r rest ih =>
    have holds (p : Pointer) : r.holds .connection p = (r.connected && decide (r.entry = p)) := rfl
    simp only [List.countP_cons, List.sum_map_add, holds]
    rw [ih fun r member => listed r (List.mem_cons_of_mem _ member)]
    congr 1
    by_cases connected : r.connected = true
    · have member := listed r List.mem_cons_self connected
      simp only [connected, Bool.true_and, decide_eq_true_eq, if_true]
      rw [sum_indicator, List.count_eq_one_of_mem nodup member]
    · simp [connected]

theorem limits_sweep (a : Admission) (now : Int) : (a.sweep now).limits = a.limits := by
  unfold Admission.sweep
  split <;> rfl

section

variable (accounted : Accounted a)

include accounted

theorem Accounted.connect (key : SourceKey) (now : Int) (token : Bool) :
    Accounted (a.connect key now token) := by
  have swept := accounted.sweep now
  simp only [Admission.connect]
  split
  · exact swept
  next below =>
    split
    · exact swept
    next known p interned =>
      obtain ⟨made, listed, total, limits⟩ := swept.intern interned
      have touched := made.touch now p
      split
      · exact touched
      next free =>
        rw [Bool.not_eq_true, Bool.or_eq_false_iff, decide_eq_false_iff_not, Int.not_le] at free
        refine touched.grant listed ?_ free.1
        have kept : known.total + 1 ≤ known.limits.connections := by
          rw [total, limits]
          omega
        exact kept

theorem Accounted.authenticate (key : SourceKey) (now : Int) (token : Bool) :
    Accounted (a.authenticate key now token) := by
  simp only [Admission.authenticate]
  split
  · exact accounted
  next p found =>
    have touched := accounted.touch now p
    split
    · exact touched
    next free =>
      rw [Bool.not_eq_true, Bool.or_eq_false_iff, decide_eq_false_iff_not, Int.not_le] at free
      refine touched.grant (mem_of_lookup found) ?_ free.1
      exact (Int.add_zero _).trans_le touched.capacity

theorem Accounted.step (event : Event) : Accounted (a.step event) := by
  cases event with
  | connect key now token => exact accounted.connect key now token
  | authenticate key now token => exact accounted.authenticate key now token
  | release i now => exact accounted.release i now

theorem Accounted.run (events : List Event) : Accounted (a.run events) := by
  induction events generalizing a with
  | nil => exact accounted
  | cons event rest ih => exact ih (accounted.step event)

/-- The counts that the map holds sum up to the open connections. -/
theorem Accounted.sum :
    (a.sources.map fun source => (a.entries source.2).connections).sum =
      a.releases.countP Release.connected := by
  have listed (r : Release) (member : r ∈ a.releases) (connected : r.connected = true) :
      r.entry ∈ a.sources.map Prod.snd := by
    rw [Release.connected, Bool.and_eq_true, Bool.not_eq_true'] at connected
    exact List.mem_map_of_mem (accounted.current r member connected.1)
  rw [← sum_holds _ accounted.pointers a.releases listed, Nat.cast_list_sum, List.map_map,
    List.map_map]
  congr 1
  exact List.map_congr_left fun source _ => accounted.counts .connection source.2

theorem Accounted.nonneg (kind : Kind) (p : Pointer) : 0 ≤ (a.entries p).count kind := by
  rw [accounted.counts]
  exact Int.natCast_nonneg _

theorem Accounted.lookup {r : Release} (listed : r ∈ a.releases) (pending : r.done = false) :
    a.lookup r.key = some r.entry :=
  lookup_of_mem accounted (accounted.current r listed pending)

theorem limits_step (event : Event) : (a.step event).limits = a.limits := by
  cases event with
  | connect key now token =>
    simp only [Admission.step, Admission.connect]
    split
    · exact limits_sweep a now
    · split
      · exact limits_sweep a now
      next known p interned =>
        have known : known.limits = a.limits :=
          ((accounted.sweep now).intern interned).2.2.2.trans (limits_sweep a now)
        split <;> exact known
  | authenticate key now token =>
    simp only [Admission.step, Admission.authenticate]
    split
    · rfl
    · split <;> rfl
  | release i now =>
    simp only [Admission.step, Admission.release]
    split
    · rfl
    · split <;> rfl

theorem limits_run (events : List Event) : (a.run events).limits = a.limits := by
  induction events generalizing a with
  | nil => rfl
  | cons event rest ih => exact (ih (accounted.step event)).trans (limits_step accounted event)

end

/-- Over every run the counters of the admission are the numbers of connections
and authentications that are not released, within their limits, and a release
function finds its entry in the map. -/
theorem admission_accounted (limits : Limits) (events : List Event) :
    let a := (newAdmission limits).run events
    a.total = a.releases.countP Release.connected ∧
      a.total = (a.sources.map fun source => (a.entries source.2).connections).sum ∧
      0 ≤ a.total ∧ a.total ≤ limits.connections ∧
      (∀ p, 0 ≤ (a.entries p).connections ∧ (a.entries p).connections ≤ limits.perSource ∧
        0 ≤ (a.entries p).auth ∧ (a.entries p).auth ≤ 1) ∧
      a.sources.length ≤ 4096 ∧
      (∀ r ∈ a.releases, r.done = false → a.lookup r.key = some r.entry) ∧
      ∀ now, ∀ r ∈ a.releases, r.done = false → (a.sweep now).lookup r.key = some r.entry := by
  intro a
  have accounted : Accounted a := (Accounted.initial limits).run events
  have same : a.limits = limits := limits_run (Accounted.initial limits) events
  have swept (now : Int) : (a.sweep now).releases = a.releases := by
    unfold Admission.sweep
    split <;> rfl
  refine ⟨accounted.total, accounted.total.trans accounted.sum.symm, ?_, ?_, fun p => ?_,
    accounted.room, fun r listed pending => accounted.lookup listed pending,
    fun now r listed pending => (accounted.sweep now).lookup (swept now ▸ listed) pending⟩
  · rw [accounted.total]
    exact Int.natCast_nonneg _
  · exact same ▸ accounted.capacity
  · have connections := accounted.bounded .connection p
    rw [same] at connections
    exact ⟨accounted.nonneg .connection p, connections, accounted.nonneg .authentication p,
      accounted.bounded .authentication p⟩

def defaultLimits : Limits := ⟨128, 8, by decide⟩

/-- Nine connections from one address, of which the last is refused, an authentication, and a
release function that is called twice. -/
def crowd : List Event :=
  List.replicate 9 (.connect "192.0.2.1" 0 true) ++
    [.authenticate "192.0.2.1" 0 true, .release 0 1, .release 0 2]

theorem admission_accounted_of_crowd :
    let a := (newAdmission defaultLimits).run crowd
    a.total = 7 ∧ a.releases.countP Release.connected = 7 ∧ (a.entries 0).connections ≤ 8 ∧
      (a.entries 0).auth ≤ 1 := by
  intro a
  have accounted := admission_accounted defaultLimits crowd
  have total : a.total = 7 := by decide
  have source := accounted.2.2.2.2.1 0
  exact ⟨total, Int.ofNat_inj.mp (accounted.1.symm.trans total), source.2.1, source.2.2.2⟩

end Runs

end RelayTale.Server
