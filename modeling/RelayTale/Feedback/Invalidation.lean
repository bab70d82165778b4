import RelayTale.Feedback.Publication

/-!
# Published feedback moves towards invalidation

What one commit can do to the tables is one row more and the events that come
with it. From that follows, for every interleaving, that the state of a link
goes forward only and that each change of it is announced for its message.
-/

namespace RelayTale.Feedback

open Locking RelayTale.Smtp

section Inserts

variable {t t' : Tables}

/-- The new row stands behind the others and the other tables are the same. -/
theorem insertReport_fields {row : ReportRow} (inserted : t.insertReport row = some t') :
    t'.reports = t.reports ++ [row] ∧ t'.dismissed = t.dismissed ∧ t'.links = t.links ∧
      t'.reviews = t.reviews ∧ t'.events = t.events := by
  unfold Tables.insertReport at inserted
  split at inserted
  · obtain rfl := Option.some.inj inserted
    exact ⟨rfl, rfl, rfl, rfl, rfl⟩
  · cases inserted

theorem insertDismissal_fields {id : FeedbackID} (inserted : t.insertDismissal id = some t') :
    t'.reports = t.reports ∧ t'.dismissed = t.dismissed ++ [id] ∧ t'.links = t.links ∧
      t'.reviews = t.reviews ∧ t'.events = t.events := by
  unfold Tables.insertDismissal at inserted
  split at inserted
  · obtain rfl := Option.some.inj inserted
    exact ⟨rfl, rfl, rfl, rfl, rfl⟩
  · cases inserted

theorem insertLink_fields {row : LinkRow} (inserted : t.insertLink row = some t') :
    row.id ∉ t.links.map LinkRow.id ∧ t'.reports = t.reports ∧ t'.dismissed = t.dismissed ∧
      t'.links = t.links ++ [row] ∧ t'.reviews = t.reviews ∧ t'.events = t.events := by
  unfold Tables.insertLink at inserted
  split at inserted
  next new =>
    obtain rfl := Option.some.inj inserted
    exact ⟨new.1, rfl, rfl, rfl, rfl, rfl⟩
  · cases inserted

theorem insertReview_fields {row : ReviewRow} (inserted : t.insertReview row = some t') :
    (row.revision ∈ [1, 2] ∧ (row.revision = 1 ∨ row.action = .withdraw)) ∧
      t'.reports = t.reports ∧ t'.dismissed = t.dismissed ∧ t'.links = t.links ∧
      t'.reviews = t.reviews ++ [row] ∧ t'.events = t.events := by
  unfold Tables.insertReview at inserted
  split at inserted
  next new =>
    obtain rfl := Option.some.inj inserted
    exact ⟨new.2.2, rfl, rfl, rfl, rfl, rfl⟩
  · cases inserted

end Inserts

section Changes

inductive Change (t : Tables) : Tables → Prop
  | kept : Change t t
  | imported {row : ReportRow} {t' : Tables} (inserted : t.insertReport row = some t') :
      Change t (t'.notify (invalidations (contradictedLinks t' row)))
  | dismissed {id : FeedbackID} {t' : Tables} (inserted : t.insertDismissal id = some t') :
      Change t (t'.notify (invalidations (dismissedLinks t' id)))
  | linked {row : LinkRow} {f : ReportRow} {t' : Tables} (found : t.report row.feedback = some f)
      (free : t.recordState f = .quarantined) (inserted : t.insertLink row = some t') :
      Change t (t'.notify [row.event .feedbackLinked])
  | reviewed {row : ReviewRow} {out : Publication} {t' : Tables}
      (found : projection t row.link = some out) (revision : row.revision = out.revision + 1)
      (guarded : reviewGuard t row = true) (inserted : t.insertReview row = some t') :
      Change t (t'.notify [out.link.event .feedbackReviewed])

theorem commit_guarded {t : Tables} {held : Set (Resource × Mode)}
    (inside : (Resource.publication, Mode.exclusive) ∈ held) :
    (Program.commit [publish t]).Guarded held :=
  List.forall_mem_singleton.mpr inside

variable [Reader]

theorem importRaw_guarded (v : ImportCall) : (importRaw v).Guarded ∅ := by
  refine ⟨⟨.exclusive, by simp⟩, fun t => ?_⟩
  beta_reduce
  split
  · exact List.forall_mem_nil _
  · refine Program.ifSome_guarded fun t' => Program.select_guarded fun c => ?_
    refine Program.ifSome_guarded fun c' => List.forall_mem_cons.mpr ⟨?_, commit_guarded ?_⟩
    · exact Set.mem_insert _ _
    · simp

theorem statements_guarded (request : Request) : (statements request).Guarded ∅ := by
  have inside : (Resource.publication, Mode.exclusive) ∈
      insert (Resource.publication, Mode.exclusive) (∅ : Set (Resource × Mode)) :=
    Set.mem_insert _ _
  cases request with
  | importReport v => exact Program.check_guarded (importRaw_guarded v)
  | dismiss v =>
    refine Program.check_guarded fun view => Program.ifSome_guarded fun f => ?_
    refine Program.check_guarded (Program.select_guarded fun t => ?_)
    exact Program.ifSome_guarded fun t' => commit_guarded inside
  | link v =>
    refine Program.check_guarded (Program.select_guarded fun t => ?_)
    refine Program.ifSome_guarded fun f => Program.check_guarded (Program.ifSome_guarded fun a => ?_)
    refine Program.check_guarded (Program.check_guarded (Program.ifSome_guarded fun t' => ?_))
    exact commit_guarded inside
  | review v =>
    refine Program.check_guarded (Program.select_guarded fun t => ?_)
    refine Program.ifSome_guarded fun out => Program.check_guarded ?_
    refine Program.ifSome_guarded fun f => Program.check_guarded (Program.check_guarded ?_)
    exact Program.ifSome_guarded fun t' => commit_guarded inside

/-- Every commit adds one row at most. -/
theorem statements_change {request : Request} {store : Store} {seen : List Store}
    {writes : List (Sigma Resource.Value)}
    (yields : (statements request).Yields store seen writes) :
    Change (store .publication) (Locking.Store.write store writes .publication) := by
  obtain ⟨final, runs⟩ := yields.runs (fun _ => True.intro) ∅
  cases request with
  | importReport v =>
    obtain ⟨-, runs⟩ := Program.check_runs.mp runs
    change (if _ then _ else _ : Statements).Runs _ store _ _ seen writes final at runs
    split at runs
    · obtain ⟨-, rfl, -⟩ := runs
      exact .kept
    · obtain ⟨t', inserted, runs⟩ := Program.ifSome_runs.mp runs
      obtain ⟨c', -, -, rfl, -⟩ := Program.ifSome_runs.mp runs
      exact .imported inserted
  | dismiss v =>
    obtain ⟨-, view, later, -, -, -, runs⟩ := Program.check_runs.mp runs
    obtain ⟨f, -, runs⟩ := Program.ifSome_runs.mp runs
    obtain ⟨-, runs⟩ := Program.check_runs.mp runs
    obtain ⟨t', inserted, -, rfl, -⟩ := Program.ifSome_runs.mp runs
    exact .dismissed inserted
  | link v =>
    obtain ⟨-, runs⟩ := Program.check_runs.mp runs
    obtain ⟨f, found, runs⟩ := Program.ifSome_runs.mp runs
    obtain ⟨-, runs⟩ := Program.check_runs.mp runs
    obtain ⟨a, -, runs⟩ := Program.ifSome_runs.mp runs
    obtain ⟨associated, runs⟩ := Program.check_runs.mp runs
    obtain ⟨-, runs⟩ := Program.check_runs.mp runs
    obtain ⟨t', inserted, -, rfl, -⟩ := Program.ifSome_runs.mp runs
    have free : Tables.recordState (store .publication) f = .quarantined := by
      simp only [associates, Bool.and_eq_true, decide_eq_true_eq] at associated
      exact associated.1.1.1.1.1
    exact .linked found free inserted
  | review v =>
    obtain ⟨-, runs⟩ := Program.check_runs.mp runs
    obtain ⟨out, found, runs⟩ := Program.ifSome_runs.mp runs
    obtain ⟨-, runs⟩ := Program.check_runs.mp runs
    obtain ⟨f, -, runs⟩ := Program.ifSome_runs.mp runs
    obtain ⟨-, runs⟩ := Program.check_runs.mp runs
    obtain ⟨guarded, runs⟩ := Program.check_runs.mp runs
    obtain ⟨t', inserted, -, rfl, -⟩ := Program.ifSome_runs.mp runs
    exact .reviewed found rfl guarded inserted

end Changes

section Histories

inductive Reviewed (id : LinkID) : List ReviewRow → Prop
  | never : Reviewed id []
  | once (action : ReviewAction) : Reviewed id [⟨id, 1, action⟩]
  | twice : Reviewed id [⟨id, 1, .confirmFailure⟩, ⟨id, 2, .withdraw⟩]

theorem Reviewed.actions {id : LinkID} {rows : List ReviewRow} (reviewed : Reviewed id rows) :
    rows.map ReviewRow.action ∈
      [[], [.confirmFailure], [.withdraw], [.confirmFailure, .withdraw]] := by
  cases reviewed with
  | never => simp
  | once action => cases action <;> simp
  | twice => simp

def Lawful (t : Tables) : Prop := ∀ id, Reviewed id (t.reviewsOf id)

variable {t t' : Tables} {row : ReviewRow} {id : LinkID}

theorem reviewsOf_snoc (added : t'.reviews = t.reviews ++ [row]) :
    t'.reviewsOf id = t.reviewsOf id ++ if row.link = id then [row] else [] := by
  rw [Tables.reviewsOf, added, List.filter_append]
  by_cases same : row.link = id <;> simp [Tables.reviewsOf, same]

theorem latest_of_reviewsOf (same : t'.reviewsOf id = t.reviewsOf id) :
    t'.latest id = t.latest id := by
  rw [Tables.latest, same, Tables.latest]

theorem projection_revision {out : Publication} (found : projection t id = some out) :
    out.revision = (t.latest id).elim 0 ReviewRow.revision := by
  simp only [projection, Option.bind_eq_bind, Option.bind_eq_some_iff] at found
  obtain ⟨l, -, f, -, same⟩ := found
  rw [← Option.some.inj same]

theorem reviewGuard_second (guarded : reviewGuard t row = true) (second : row.revision = 2) :
    (t.latest row.link).map ReviewRow.action = some .confirmFailure := by
  simp only [reviewGuard, second, Bool.and_eq_true, Bool.not_eq_true', decide_true,
    Bool.true_and, decide_eq_false_iff_not, ne_eq, not_not] at guarded
  exact guarded.2

/-- A review is the first one, or it withdraws a confirmation. -/
theorem review_succeeds {out : Publication} (lawful : Lawful t)
    (found : projection t row.link = some out) (revision : row.revision = out.revision + 1)
    (guarded : reviewGuard t row = true) (inserted : t.insertReview row = some t') :
    (t.reviewsOf row.link = [] ∧ row = ⟨row.link, 1, row.action⟩) ∨
      (t.reviewsOf row.link = [⟨row.link, 1, .confirmFailure⟩] ∧ row = ⟨row.link, 2, .withdraw⟩) := by
  obtain ⟨⟨bound, later⟩, -⟩ := insertReview_fields inserted
  have current := projection_revision found
  have second := reviewGuard_second guarded
  have shape := lawful row.link
  obtain ⟨link, number, action⟩ := row
  simp only [Tables.latest] at shape current second revision bound later ⊢
  generalize t.reviewsOf link = rows at *
  cases shape with
  | never =>
    obtain rfl : number = 1 := by simpa [current] using revision
    exact .inl ⟨rfl, rfl⟩
  | once first =>
    obtain rfl : number = 2 := by simpa [current] using revision
    obtain rfl : action = .withdraw := by simpa using later
    obtain rfl : first = .confirmFailure := by simpa using second
    exact .inr ⟨rfl, rfl⟩
  | twice =>
    have number : number = 3 := by
      rw [revision, current]
      rfl
    simp [number] at bound

theorem Change.lawful (lawful : Lawful t) (change : Change t t') : Lawful t' := by
  cases change with
  | kept => exact lawful
  | imported inserted =>
    obtain ⟨-, -, -, reviews, -⟩ := insertReport_fields inserted
    intro id
    have same := lawful id
    rwa [Tables.reviewsOf, ← reviews] at same
  | dismissed inserted =>
    obtain ⟨-, -, -, reviews, -⟩ := insertDismissal_fields inserted
    intro id
    have same := lawful id
    rwa [Tables.reviewsOf, ← reviews] at same
  | linked found free inserted =>
    obtain ⟨-, -, -, -, reviews, -⟩ := insertLink_fields inserted
    intro id
    have same := lawful id
    rwa [Tables.reviewsOf, ← reviews] at same
  | @reviewed row out t' found revision guarded inserted =>
    obtain ⟨-, -, -, -, reviews, -⟩ := insertReview_fields inserted
    intro id
    have added : t'.reviewsOf id = _ := reviewsOf_snoc reviews
    change Reviewed id (t'.reviewsOf id)
    rw [added]
    by_cases same : row.link = id
    · subst same
      rcases review_succeeds lawful found revision guarded inserted with ⟨none, first⟩ | ⟨one, next⟩
      · rw [none, if_pos rfl, first]
        exact .once _
      · rw [one, if_pos rfl, next]
        exact .twice
    · rw [if_neg same, List.append_nil]
      exact lawful id

end Histories

section States

def PublicationState.rank : PublicationState → Nat
  | .pendingReview => 0
  | .failureConfirmedByOperator => 1
  | .withdrawn => 2
  | .evidenceConflict => 3

/-- `Projection` gives the link this state. -/
def Shown (t : Tables) (l : LinkRow) (s : PublicationState) : Prop :=
  ∃ revision, projection t l.id = some ⟨l, s, revision⟩

/-- The rows of `events` that were added. -/
def added (t t' : Tables) : List EventRow := t'.events.drop t.events.length

def Announced (t t' : Tables) (l : LinkRow) : Prop :=
  ∃ event ∈ added t t', event.message = l.message ∧ event.link = l.id ∧
    (event.kind = .feedbackReviewed ∨ event.kind = .feedbackInvalidated)

/-- The link stays, its state goes forward, and a change of it is announced. -/
structure Advances (t t' : Tables) (l : LinkRow) (s s' : PublicationState) : Prop where
  before : Shown t l s
  kept : l ∈ t'.links
  after : Shown t' l s'
  forward : s.rank ≤ s'.rank
  announced : s ≠ s' → Announced t t' l

variable {t t' : Tables} {l : LinkRow} {f : ReportRow} {s s' : PublicationState}

theorem Shown.unique (first : Shown t l s) (second : Shown t l s') : s = s' := by
  obtain ⟨revision, first⟩ := first
  obtain ⟨revision', second⟩ := second
  rw [first] at second
  exact (Publication.mk.inj (Option.some.inj second)).2.1

theorem report_of_link (member : l ∈ t.links) : ∃ f, t.report l.feedback = some f := by
  obtain ⟨f, inside, same⟩ := t.linkReport l member
  exact ⟨f, same ▸ Keyed.find_of_mem t.reportKey inside⟩

theorem report_id (found : t.report l.feedback = some f) : f.id = l.feedback ∧ f ∈ t.reports :=
  ⟨by simpa using List.find?_some found, List.mem_of_find?_eq_some found⟩

theorem shown_of_mem (member : l ∈ t.links) (found : t.report l.feedback = some f) :
    Shown t l (publicationState t f (t.latest l.id)) := by
  have linked : t.link l.id = some l := Keyed.find_of_mem t.linkKey member
  exact ⟨(t.latest l.id).elim 0 ReviewRow.revision, by simp [projection, linked, found]⟩

theorem added_notify (events : List EventRow) (same : t'.events = t.events) :
    added t (t'.notify events) = events := by
  rw [added, Tables.notify, same, List.drop_left]

theorem publicationState_congr {rev : Option ReviewRow}
    (contradicted : t'.contradicted f = t.contradicted f)
    (dismissed : f.id ∈ t'.dismissed ↔ f.id ∈ t.dismissed) :
    publicationState t' f rev = publicationState t f rev := by
  simp only [publicationState, contradicted, dismissed]

theorem rank_le (s : PublicationState) : s.rank ≤ 3 := by
  cases s <;> decide

theorem rank_uncontradicted {rev : Option ReviewRow} (free : t.contradicted f = false) :
    (publicationState t f rev).rank ≤ 2 := by
  simp only [publicationState, free, Bool.false_eq_true, if_false]
  split_ifs
  · decide
  · split <;> decide

/-- The state after a first review, or after a withdrawal. -/
theorem rank_reviewed {rev rev' : Option ReviewRow}
    (later : rev = none ∨ rev'.map ReviewRow.action = some .withdraw) :
    (publicationState t f rev).rank ≤ (publicationState t f rev').rank := by
  cases conflict : t.contradicted f with
  | true => simp [publicationState, conflict]
  | false =>
    rcases later with rfl | withdrawn
    · simp only [publicationState, conflict, Bool.false_eq_true, if_false]
      split_ifs
      · exact Nat.le_refl _
      · exact Nat.zero_le _
    · have last : publicationState t f rev' = .withdrawn := by
        simp [publicationState, conflict, withdrawn]
      rw [last]
      exact rank_uncontradicted conflict

theorem latest_same (reviews : t'.reviews = t.reviews) (id : LinkID) :
    t'.latest id = t.latest id :=
  latest_of_reviewsOf (by rw [Tables.reviewsOf, reviews, Tables.reviewsOf])

theorem contradicted_same (reports : t'.reports = t.reports) (f : ReportRow) :
    t'.contradicted f = t.contradicted f := by
  rw [Tables.contradicted, reports, Tables.contradicted]

theorem report_same (reports : t'.reports = t.reports) (id : FeedbackID) :
    t'.report id = t.report id := by
  rw [Tables.report, reports, Tables.report]

/-- A new report contradicts the reports it contradicts, and no others. -/
theorem advances_imported {row : ReportRow} (inserted : t.insertReport row = some t')
    (member : l ∈ t.links) :
    ∃ s s', Advances t (t'.notify (invalidations (contradictedLinks t' row))) l s s' := by
  obtain ⟨reports, dismissed, links, reviews, events⟩ := insertReport_fields inserted
  obtain ⟨f, found⟩ := report_of_link member
  have member' : l ∈ t'.links := links ▸ member
  have found' : t'.report l.feedback = some f := by
    rw [Tables.report, reports, List.find?_append, ← Tables.report, found]
    rfl
  have contradicted : t'.contradicted f = (t.contradicted f || f.contradicts row) := by
    rw [Tables.contradicted, reports, List.any_append, Tables.contradicted]
    simp
  have latest := latest_same reviews l.id
  have shown := shown_of_mem member found
  have shown' : Shown (t'.notify (invalidations (contradictedLinks t' row))) l
      (publicationState t' f (t'.latest l.id)) := shown_of_mem member' found'
  have others (agrees : f.contradicts row = false) :
      publicationState t' f (t.latest l.id) = publicationState t f (t.latest l.id) :=
    publicationState_congr (by rw [contradicted, agrees, Bool.or_false]) (by rw [dismissed])
  refine ⟨_, _, shown, member', shown', ?_, fun changed => ?_⟩
  · rw [latest]
    cases contradicts : f.contradicts row with
    | true =>
      have conflict : publicationState t' f (t.latest l.id) = .evidenceConflict := by
        rw [publicationState, contradicted, contradicts, Bool.or_true, if_pos rfl]
      rw [conflict]
      exact rank_le _
    | false => rw [others contradicts]
  · have contradicts : f.contradicts row = true := by
      by_contra agrees
      exact changed (by rw [latest, others (Bool.eq_false_iff.mpr agrees)])
    obtain ⟨same, inside⟩ := report_id found'
    refine ⟨l.event .feedbackInvalidated, ?_, rfl, rfl, .inr rfl⟩
    rw [added_notify _ events]
    refine List.mem_map_of_mem (List.mem_filter.mpr ⟨member', ?_⟩)
    exact List.any_eq_true.mpr ⟨f, inside, by simp [same, contradicts]⟩

theorem advances_dismissed {id : FeedbackID} (inserted : t.insertDismissal id = some t')
    (member : l ∈ t.links) :
    ∃ s s', Advances t (t'.notify (invalidations (dismissedLinks t' id))) l s s' := by
  obtain ⟨reports, dismissed, links, reviews, events⟩ := insertDismissal_fields inserted
  obtain ⟨f, found⟩ := report_of_link member
  have member' : l ∈ t'.links := links ▸ member
  have found' : t'.report l.feedback = some f := (report_same reports _).trans found
  have contradicted := contradicted_same reports f
  have latest := latest_same reviews l.id
  have shown := shown_of_mem member found
  have shown' : Shown (t'.notify (invalidations (dismissedLinks t' id))) l
      (publicationState t' f (t'.latest l.id)) := shown_of_mem member' found'
  have others (other : f.id ≠ id) :
      publicationState t' f (t.latest l.id) = publicationState t f (t.latest l.id) :=
    publicationState_congr contradicted (by simp [dismissed, other])
  refine ⟨_, _, shown, member', shown', ?_, fun changed => ?_⟩
  · rw [latest]
    by_cases same : f.id = id
    · cases conflict : t.contradicted f with
      | true => simp [publicationState, contradicted, conflict]
      | false =>
        have withdrawn : publicationState t' f (t.latest l.id) = .withdrawn := by
          simp [publicationState, contradicted, conflict, dismissed, same]
        rw [withdrawn]
        exact rank_uncontradicted conflict
    · rw [others same]
  · have same : f.id = id := by
      by_contra other
      exact changed (by rw [latest, others other])
    refine ⟨l.event .feedbackInvalidated, ?_, rfl, rfl, .inr rfl⟩
    rw [added_notify _ events]
    refine List.mem_map_of_mem (List.mem_filter.mpr ⟨member', ?_⟩)
    simp [← (report_id found).1, same]

/-- A new link leaves the others as they are. -/
theorem advances_linked {row : LinkRow} (inserted : t.insertLink row = some t')
    (member : l ∈ t.links) :
    ∃ s s', Advances t (t'.notify [row.event .feedbackLinked]) l s s' := by
  obtain ⟨-, reports, dismissed, links, reviews, -⟩ := insertLink_fields inserted
  obtain ⟨f, found⟩ := report_of_link member
  have member' : l ∈ t'.links := links ▸ List.mem_append_left _ member
  have found' : t'.report l.feedback = some f := (report_same reports _).trans found
  have shown := shown_of_mem member found
  have shown' : Shown (t'.notify [row.event .feedbackLinked]) l
      (publicationState t' f (t'.latest l.id)) := shown_of_mem member' found'
  have same : publicationState t' f (t'.latest l.id) = publicationState t f (t.latest l.id) := by
    rw [latest_same reviews]
    exact publicationState_congr (contradicted_same reports f) (by rw [dismissed])
  rw [same] at shown'
  exact ⟨_, _, shown, member', shown', Nat.le_refl _, fun changed => absurd rfl changed⟩

/-- It starts without a review of its own, and nothing is wrong with its report. -/
theorem linked_pending {row : LinkRow} (found : t.report row.feedback = some f)
    (free : t.recordState f = .quarantined) (inserted : t.insertLink row = some t') :
    Shown (t'.notify [row.event .feedbackLinked]) row .pendingReview := by
  obtain ⟨fresh, reports, dismissed, links, reviews, -⟩ := insertLink_fields inserted
  have member : row ∈ t'.links := by simp [links]
  have found' : t'.report row.feedback = some f := (report_same reports _).trans found
  have unreviewed : t.reviewsOf row.id = [] := by
    refine List.filter_eq_nil_iff.mpr fun review inside same => fresh ?_
    obtain ⟨l, known, own⟩ := t.reviewLink review inside
    rw [← of_decide_eq_true same, ← own]
    exact List.mem_map_of_mem known
  have latest : t'.latest row.id = none := by
    rw [latest_same reviews, Tables.latest, unreviewed]
    rfl
  have shown : Shown (t'.notify [row.event .feedbackLinked]) row
      (publicationState t' f (t'.latest row.id)) := shown_of_mem member found'
  have state : publicationState t' f none = .pendingReview := by
    rw [publicationState, contradicted_same reports, dismissed]
    unfold Tables.recordState at free
    split_ifs at free ⊢
    rfl
  rwa [latest, state] at shown

theorem projection_link {id : LinkID} {out : Publication} (found : projection t id = some out) :
    out.link ∈ t.links ∧ out.link.id = id := by
  simp only [projection, Option.bind_eq_bind, Option.bind_eq_some_iff] at found
  obtain ⟨l, linked, f, -, same⟩ := found
  obtain rfl := Option.some.inj same
  exact ⟨List.mem_of_find?_eq_some linked, by simpa using List.find?_some linked⟩

/-- A review moves its own link forward. -/
theorem advances_reviewed {row : ReviewRow} {out : Publication} (lawful : Lawful t)
    (found : projection t row.link = some out) (revision : row.revision = out.revision + 1)
    (guarded : reviewGuard t row = true) (inserted : t.insertReview row = some t')
    (member : l ∈ t.links) :
    ∃ s s', Advances t (t'.notify [out.link.event .feedbackReviewed]) l s s' := by
  obtain ⟨-, reports, dismissed, links, reviews, events⟩ := insertReview_fields inserted
  obtain ⟨f, reported⟩ := report_of_link member
  have member' : l ∈ t'.links := links ▸ member
  have reported' : t'.report l.feedback = some f := (report_same reports _).trans reported
  have shown := shown_of_mem member reported
  have shown' : Shown (t'.notify [out.link.event .feedbackReviewed]) l
      (publicationState t' f (t'.latest l.id)) := shown_of_mem member' reported'
  rw [publicationState_congr (contradicted_same reports f) (by rw [dismissed])] at shown'
  have added : t'.reviewsOf l.id = _ := reviewsOf_snoc reviews
  by_cases same : row.link = l.id
  · refine ⟨_, _, shown, member', shown', ?_, fun _ => ?_⟩
    · rw [if_pos same] at added
      refine rank_reviewed ?_
      rcases review_succeeds lawful found revision guarded inserted with ⟨first, -⟩ | ⟨one, next⟩
      · rw [same] at first
        left
        rw [Tables.latest, first]
        rfl
      · rw [same] at one
        right
        rw [Tables.latest, added, one, next]
        rfl
    · obtain ⟨known, own⟩ := projection_link found
      obtain rfl : out.link = l := Keyed.eq_of_key t.linkKey known member (own.trans same)
      refine ⟨out.link.event .feedbackReviewed, ?_, rfl, rfl, .inl rfl⟩
      rw [added_notify _ events]
      exact List.mem_singleton_self _
  · rw [if_neg same, List.append_nil] at added
    rw [latest_of_reviewsOf added] at shown'
    exact ⟨_, _, shown, member', shown', Nat.le_refl _, fun changed => absurd rfl changed⟩

end States

section Runs

variable {t t' : Tables} {l : LinkRow}

theorem Change.advances (lawful : Lawful t) (change : Change t t') (member : l ∈ t.links) :
    ∃ s s', Advances t t' l s s' := by
  cases change with
  | kept =>
    obtain ⟨f, found⟩ := report_of_link member
    have shown := shown_of_mem member found
    exact ⟨_, _, shown, member, shown, Nat.le_refl _, fun changed => absurd rfl changed⟩
  | imported inserted => exact advances_imported inserted member
  | dismissed inserted => exact advances_dismissed inserted member
  | linked found free inserted => exact advances_linked inserted member
  | reviewed found revision guarded inserted =>
    exact advances_reviewed lawful found revision guarded inserted member

theorem Change.created (change : Change t t') (member : l ∈ t'.links) (new : l ∉ t.links) :
    Shown t' l .pendingReview := by
  cases change with
  | kept => exact absurd member new
  | imported inserted =>
    obtain ⟨-, -, links, -⟩ := insertReport_fields inserted
    exact absurd (links ▸ member) new
  | dismissed inserted =>
    obtain ⟨-, -, links, -⟩ := insertDismissal_fields inserted
    exact absurd (links ▸ member) new
  | linked found free inserted =>
    obtain ⟨-, -, -, links, -⟩ := insertLink_fields inserted
    have member : l ∈ _ ++ [_] := links ▸ member
    rcases List.mem_append.mp member with old | single
    · exact absurd old new
    · obtain rfl := List.mem_singleton.mp single
      exact linked_pending found free inserted
  | reviewed found revision guarded inserted =>
    obtain ⟨-, -, -, links, -⟩ := insertReview_fields inserted
    exact absurd (links ▸ member) new

def Forward (t t' : Tables) : Prop :=
  ∀ l ∈ t.links, l ∈ t'.links ∧ ∃ s s', Shown t l s ∧ Shown t' l s' ∧ s.rank ≤ s'.rank

theorem Forward.refl (t : Tables) : Forward t t := by
  intro l member
  obtain ⟨f, found⟩ := report_of_link member
  have shown := shown_of_mem member found
  exact ⟨member, _, _, shown, shown, Nat.le_refl _⟩

theorem Forward.trans {first second third : Tables} (forward : Forward first second)
    (next : Forward second third) : Forward first third := by
  intro l member
  obtain ⟨kept, s, middle, before, between, le⟩ := forward l member
  obtain ⟨last, middle', s', between', after, le'⟩ := next l kept
  obtain rfl := between.unique between'
  exact ⟨last, s, s', before, after, le.trans le'⟩

variable [Reader]

theorem statements_rule :
    Rule statements (fun store => Lawful (store .publication))
      (fun first second => Forward (first .publication) (second .publication)) where
  guarded := statements_guarded
  refl store := Forward.refl _
  trans := Forward.trans
  keeps lawful _ yields := by
    have change := statements_change yields
    refine ⟨change.lawful lawful, fun l member => ?_⟩
    obtain ⟨s, s', advances⟩ := change.advances lawful member
    exact ⟨advances.kept, s, s', advances.before, advances.after, advances.forward⟩

/-- In every interleaving of imports, dismissals, links and reviews. -/
theorem feedback_only_invalidated {store : Store} (start : Lawful (store .publication))
    (events more : List (Event Request)) :
    Forward ((Config.run statements { store } events).store .publication)
        ((Config.run statements { store } (events ++ more)).store .publication) ∧
      (∀ id, (((Config.run statements { store } events).store .publication).reviewsOf id).map
        ReviewRow.action ∈ [[], [.confirmFailure], [.withdraw], [.confirmFailure, .withdraw]]) ∧
      (∀ entry ∈ (Config.run statements { store } events).log,
        ∀ l ∈ (entry.before .publication).links,
          ∃ s s', Advances (entry.before .publication) (entry.after .publication) l s s') ∧
      (∀ entry ∈ (Config.run statements { store } events).log,
        ∀ l ∈ (entry.after .publication).links, l ∉ (entry.before .publication).links →
          Shown (entry.after .publication) l .pendingReview) ∧
      (((Config.run statements { store } events).store .publication).links.map
        LinkRow.reported).Nodup := by
  have history := statements_rule.run start events
  have change (entry) (member : entry ∈ (Config.run statements { store } events).log) :
      Change (entry.before .publication) (entry.after .publication) :=
    statements_change (history.serial entry member).yields
  refine ⟨?_, fun id => (history.current id).actions, ?_, ?_, Tables.reportedKey _⟩
  · have reached := statements_rule.reaches history more
    rwa [Config.run, Config.run, ← List.foldl_append] at reached
  · intro entry member l linked
    exact (change entry member).advances (history.serial entry member).found linked
  · intro entry member l linked new
    exact (change entry member).created linked new

end Runs

section Sample

@[reducible] def sampleReader : Reader where
  digest raw := raw
  parse _ := none
  storedSize _ := 2
  bare _ := true

attribute [local instance] sampleReader

def emptyTables : Tables where
  reports := []
  dismissed := []
  links := []
  reviews := []
  events := []
  reportKey := List.nodup_nil
  evidenceKey := List.nodup_nil
  dismissedKey := List.nodup_nil
  linkKey := List.nodup_nil
  reportedKey := List.nodup_nil
  reviewKey := List.nodup_nil
  dismissedReport := List.forall_mem_nil _
  linkReport := List.forall_mem_nil _
  reviewLink := List.forall_mem_nil _

def emptyStore : Store
  | .publication => emptyTables
  | .retention => ()
  | .capacity => ⟨0, 0⟩

theorem emptyTables_lawful : Lawful emptyTables := fun _ => .never

def sampleImport (id : FeedbackID) (raw : Bytes) : Request :=
  .importReport ⟨id, ascii "imap", ascii "report", ascii "op", ascii "why", raw⟩

def sampleLink : Request :=
  .link ⟨5, 1, ascii "a", 7, 8, 9, 0, ascii "why", ascii "op", true, true,
    some ⟨ascii "x@y", .smtpAccepted, .smtpAccepted, true, true, false⟩, true⟩

def sampleReview : Request := .review ⟨5, 0, .confirmFailure, ascii "why", ascii "op", true, true⟩

/-- Another report with the same name is imported while the link is made, and waits for it
and for its review. -/
def conflictingEvents : List (Event Request) :=
  .start 0 (sampleImport 1 (ascii "a")) :: List.replicate 6 (.advance 0) ++
    [.start 1 sampleLink, .advance 1, .start 2 (sampleImport 2 (ascii "b")), .advance 2,
      .advance 1, .advance 1, .start 1 sampleReview, .advance 1, .advance 1, .advance 1] ++
    List.replicate 6 (.advance 2)

theorem feedback_only_invalidated_of_conflict :
    ((Config.run statements { store := emptyStore } conflictingEvents).log.length = 4 ∧
      (projection ((Config.run statements { store := emptyStore } conflictingEvents).store
        .publication) 5).map Publication.state = some .evidenceConflict) ∧
    ∀ entry ∈ (Config.run statements { store := emptyStore } conflictingEvents).log,
      ∀ l ∈ (entry.before .publication).links,
        ∃ s s', Advances (entry.before .publication) (entry.after .publication) l s s' :=
  ⟨by decide, (feedback_only_invalidated emptyTables_lawful conflictingEvents []).2.2.1⟩

end Sample

end RelayTale.Feedback
