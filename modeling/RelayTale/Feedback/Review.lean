import RelayTale.Feedback.Invalidation
import RelayTale.Foundation.Guard
import RelayTale.Foundation.Text

/-!
# Reviews and what the database refuses

`Review` decides from the projected state, the trigger on
`feedback_link_reviews` from the rows. Where reports contradict each other the
projection hides the review that a link already has, and the two disagree: a
second withdrawal passes the checks of `Review` and fails in the trigger.
-/

namespace RelayTale.Feedback

open Locking Locking.Program Guard Text

section Calls

structure ReviewRequest where
  expectedRevision : Int
  action : Bytes
  reason : Bytes
  acknowledgeUnverified : Bool
  deriving DecidableEq, Repr

namespace ReviewAction

def text : ReviewAction → Bytes
  | .confirmFailure => ascii "CONFIRM_FAILURE"
  | .withdraw => ascii "WITHDRAW"

def parse (text : Bytes) : Option ReviewAction :=
  if text = confirmFailure.text then some .confirmFailure
  else if text = withdraw.text then some .withdraw
  else none

theorem parse_text (action : ReviewAction) : parse action.text = some action := by
  cases action <;> decide

theorem text_of_parse {text : Bytes} {action : ReviewAction} (parsed : parse text = some action) :
    text = action.text := by
  unfold parse at parsed
  split at parsed
  next confirms => exact Option.some.inj parsed ▸ confirms
  · split at parsed
    next withdraws => exact Option.some.inj parsed ▸ withdraws
    · cases parsed

end ReviewAction

/-- Which rule of `feedback_link_reviews` a row violates. -/
inductive Violation
  | trigger
  | check
  | key
  deriving DecidableEq, Repr

/-- How a call of `Review` can fail. `rejected` is an error of the database. -/
inductive ReviewError
  | invalidPublication
  | publication
  | notFound
  | rejected (violation : Violation)
  deriving DecidableEq, Repr

def characters (text : Bytes) : Nat := text.countP fun byte => !continuation byte

def ReviewRequest.accepted (v : ReviewRequest) (actor : Bytes) : Bool :=
  v.acknowledgeUnverified && valid 2048 v.reason && valid 128 actor &&
    decide (0 ≤ v.expectedRevision) && decide (v.expectedRevision ≤ 1)

def ReviewRequest.call (v : ReviewRequest) (id : LinkID) (action : ReviewAction) (actor : Bytes)
    (stable : Bool) : ReviewCall :=
  ⟨id, v.expectedRevision.toNat, action, v.reason, actor, v.acknowledgeUnverified, stable⟩

/-- The check constraints of `feedback_link_reviews`. -/
def reviewChecks (row : ReviewRow) (actor reason : Bytes) : Prop :=
  row.revision ∈ [1, 2] ∧ (1 ≤ characters actor ∧ characters actor ≤ 128) ∧
    (1 ≤ characters reason ∧ characters reason ≤ 2048) ∧
    (row.revision = 1 ∨ row.action = .withdraw)

instance (row : ReviewRow) (actor reason : Bytes) : Decidable (reviewChecks row actor reason) := by
  unfold reviewChecks
  infer_instance

/-- `INSERT INTO feedback_link_reviews`: the trigger runs before the checks. -/
def addReview (t : Tables) (row : ReviewRow) (actor reason : Bytes) :
    Except ReviewError Tables := do
  require (reviewGuard t row = true) (.rejected .trigger)
  require (reviewChecks row actor reason) (.rejected .check)
  demand (t.insertReview row) (.rejected .key)

/-- `Review`, with the link that the identifier in the request names if it is one. -/
def review (t : Tables) (id : Option LinkID) (v : ReviewRequest) (actor : Bytes) (stable : Bool) :
    Except ReviewError Tables := do
  let id ← demand id .invalidPublication
  require (v.accepted actor = true) .invalidPublication
  let action ← demand (ReviewAction.parse v.action) .invalidPublication
  let out ← demand (projection t id) .notFound
  let call := v.call id action actor stable
  require (reviewable call out = true) .publication
  let f ← demand (t.report out.link.feedback) .notFound
  require (confirmable f out.link.index call = true) .publication
  let t' ← addReview t ⟨id, out.revision + 1, action⟩ actor v.reason
  pure (t'.notify [out.link.event .feedbackReviewed])

end Calls

section Checks

variable {t : Tables} {id : LinkID} {out : Publication} {text : Bytes} {history : List ReviewRow}

/-- What `Review` accepts as a text satisfies the length check of its column. -/
theorem characters_of_valid {limit : Nat} (accepted : valid limit text = true) :
    1 ≤ characters text ∧ characters text ≤ limit := by
  simp only [valid, Bool.and_eq_true, decide_eq_true_eq] at accepted
  obtain ⟨⟨⟨nonblank, short⟩, utf8⟩, -⟩ := accepted
  refine ⟨?_, List.countP_le_length.trans short⟩
  have nonempty : text ≠ [] := by
    rintro rfl
    exact nonblank rfl
  refine rune_induction (motive := fun text => text ≠ [] → 1 ≤ characters text)
    (fun none => absurd rfl none) (fun rune rest isRune _ _ => ?_) text utf8 nonempty
  obtain ⟨first, more, rfl⟩ := List.exists_cons_of_ne_nil isRune.1
  refine List.countP_pos_iff.mpr ⟨first, by simp, ?_⟩
  rw [rune_first isRune, Bool.not_false]

/-- The review of the link is hidden: reports contradict each other, and the
only review is a withdrawal. -/
def Masked (t : Tables) (id : LinkID) : Prop :=
  (∃ out, projection t id = some out ∧ out.state = .evidenceConflict) ∧
    t.reviewsOf id = [⟨id, 1, .withdraw⟩]

theorem projection_state (found : projection t id = some out) :
    ∃ f, t.report out.link.feedback = some f ∧ out.state = publicationState t f (t.latest id) := by
  simp only [projection, Option.bind_eq_bind, Option.bind_eq_some_iff] at found
  obtain ⟨l, -, f, reported, same⟩ := found
  rw [← Option.some.inj same]
  exact ⟨f, reported, rfl⟩

theorem withdrawn_or_conflict {f : ReportRow} {rev : Option ReviewRow}
    (withdrawn : rev.map ReviewRow.action = some .withdraw) :
    publicationState t f rev = .withdrawn ∨ publicationState t f rev = .evidenceConflict := by
  unfold publicationState
  rw [withdrawn]
  split
  · exact .inr rfl
  · split <;> exact .inl rfl

/-- A row that `Review` has not refused is the first one of its link, or it
withdraws a confirmation. -/
theorem reviewable_row {call : ReviewCall} (lawful : Lawful t) (found : projection t id = some out)
    (early : call.expectedRevision ≤ 1) (passes : reviewable call out = true)
    (unmasked : ¬(Masked t id ∧ call.expectedRevision = 1 ∧ call.action = .withdraw)) :
    (t.reviewsOf id = [] ∧ out.revision = 0) ∨
      (t.reviewsOf id = [⟨id, 1, .confirmFailure⟩] ∧ out.revision = 1 ∧
        call.action = .withdraw) := by
  have revision := projection_revision found
  obtain ⟨f, -, state⟩ := projection_state found
  simp only [reviewable, Bool.and_eq_true, decide_eq_true_eq, Bool.not_eq_true',
    Bool.and_eq_false_iff, decide_eq_false_iff_not, not_not] at passes
  obtain ⟨⟨⟨expected, open'⟩, -⟩, second⟩ := passes
  have shape := lawful id
  simp only [Tables.latest] at revision state
  generalize rows : t.reviewsOf id = history at shape revision state ⊢
  cases shape with
  | never => exact .inl ⟨rfl, revision⟩
  | once action =>
    obtain rfl | rfl : action = .confirmFailure ∨ action = .withdraw := by cases action <;> simp
    · exact .inr ⟨rfl, revision, second.resolve_left (not_not.mpr revision)⟩
    -- the state shows the withdrawal, unless other evidence hides it
    · exfalso
      have last : (List.argmax ReviewRow.revision [⟨id, 1, .withdraw⟩]).map ReviewRow.action =
          some .withdraw := rfl
      rcases withdrawn_or_conflict (t := t) (f := f) last with withdrawn | conflict
      · exact open' (state.trans withdrawn)
      · exact unmasked ⟨⟨⟨out, found, state.trans conflict⟩, rows⟩, expected.symm.trans revision,
          second.resolve_left (not_not.mpr revision)⟩
  | twice =>
    have late : out.revision = 2 := revision
    omega

theorem key_of_reviewsOf {row : ReviewRow} (rows : t.reviewsOf row.link = history)
    (new : ∀ old ∈ history, old.revision ≠ row.revision) :
    row.key ∉ t.reviews.map ReviewRow.key := by
  intro listed
  obtain ⟨old, member, same⟩ := List.mem_map.mp listed
  obtain ⟨link, revision⟩ := Prod.mk.inj same
  exact new old (rows ▸ List.mem_filter.mpr ⟨member, decide_eq_true link⟩) revision

theorem link_of_projection (found : projection t id = some out) : ∃ l ∈ t.links, l.id = id := by
  simp only [projection, Option.bind_eq_bind, Option.bind_eq_some_iff] at found
  obtain ⟨l, linked, -⟩ := found
  exact ⟨l, List.mem_of_find?_eq_some linked, by simpa using List.find?_some linked⟩

/-- The database takes every row that `Review` inserts, but for hidden reviews. -/
theorem addReview_ok (call : ReviewCall) {actor reason : Bytes} (lawful : Lawful t)
    (found : projection t id = some out) (early : call.expectedRevision ≤ 1)
    (actorValid : valid 128 actor = true) (reasonValid : valid 2048 reason = true)
    (passes : reviewable call out = true)
    (unmasked : ¬(Masked t id ∧ call.expectedRevision = 1 ∧ call.action = .withdraw)) :
    ∃ t', addReview t ⟨id, out.revision + 1, call.action⟩ actor reason = .ok t' := by
  have link := link_of_projection found
  have actors := characters_of_valid actorValid
  have reasons := characters_of_valid reasonValid
  have accepts (revision : Nat) (action : ReviewAction)
      (guarded : reviewGuard t ⟨id, revision, action⟩) (bound : revision ∈ [1, 2])
      (later : revision = 1 ∨ action = .withdraw)
      (new : (⟨id, revision, action⟩ : ReviewRow).key ∉ t.reviews.map ReviewRow.key) :
      ∃ t', addReview t ⟨id, revision, action⟩ actor reason = .ok t' := by
    refine ⟨_, do_eq_ok.mpr ⟨⟨⟩, require_eq_ok.mpr guarded, do_eq_ok.mpr ⟨⟨⟩, require_eq_ok.mpr
      ⟨bound, actors, reasons, later⟩, demand_eq_ok.mpr (dif_pos ⟨new, link, bound, later⟩)⟩⟩⟩
  rcases reviewable_row lawful found early passes unmasked with
    ⟨none, first⟩ | ⟨one, second, withdraws⟩
  · rw [first]
    refine accepts 1 _ ?_ (by simp) (.inl rfl) (key_of_reviewsOf none (List.forall_mem_nil _))
    simp [reviewGuard, Tables.latest, none]
  · rw [second, withdraws]
    refine accepts 2 _ ?_ (by simp) (.inr rfl) (key_of_reviewsOf one (by simp))
    simp [reviewGuard, Tables.latest, one]

end Checks

section Outcomes

theorem ifSome_addReview {t : Tables} {row : ReviewRow} {actor reason : Bytes}
    (actorValid : valid 128 actor = true) (reasonValid : valid 2048 reason = true)
    {rest : Tables → Except ReviewError Tables} {next : Tables → Statements} :
    ifSome (addReview t row actor reason >>= rest).toOption next =
      check (reviewGuard t row) (ifSome (t.insertReview row) fun t' =>
        ifSome (rest t').toOption next) := by
  simp only [addReview, bind_assoc, ifSome_require, ifSome_demand, Bool.decide_eq_true]
  congr 1
  cases inserted : t.insertReview row with
  | none => simp [check, ifSome]
  | some t' =>
    have checks : reviewChecks row actor reason :=
      have fields := (insertReview_fields inserted).1
      ⟨fields.1, characters_of_valid actorValid, characters_of_valid reasonValid, fields.2⟩
    simp [check, checks]

/-- The transaction of `Review` commits what `review` returns. -/
theorem reviewStatements_eq (call : ReviewCall) :
    reviewStatements call =
      check call.accepted (select .publication .exclusive fun t =>
        ifSome (review t (some call.id) ⟨call.expectedRevision, call.action.text, call.reason,
          call.acknowledgeUnverified⟩ call.actor call.stable).toOption fun t' =>
            .commit [publish t']) := by
  by_cases accepted : call.accepted = true
  case neg => simp [reviewStatements, check, accepted]
  refine congrArg (check _) (congrArg (select _ _) (funext fun t => ?_))
  simp only [ReviewCall.accepted, Bool.and_eq_true, decide_eq_true_eq] at accepted
  obtain ⟨⟨⟨acknowledged, reason⟩, actor⟩, early⟩ := accepted
  have request : ReviewRequest.accepted ⟨call.expectedRevision, call.action.text, call.reason,
      call.acknowledgeUnverified⟩ call.actor = true := by
    have early' : (call.expectedRevision : Int) ≤ 1 := by omega
    simpa [ReviewRequest.accepted, acknowledged, reason, actor] using early'
  simp only [review, ifSome_demand, ifSome_require, ifSome_addReview actor reason, request,
    ReviewAction.parse_text, Bool.decide_eq_true]
  rfl

/-- The request passes the checks of `Review` and withdraws a second time what
the projection hides. -/
def WithdrawsMasked (t : Tables) (id : Option LinkID) (v : ReviewRequest) (actor : Bytes) : Prop :=
  ∃ link, id = some link ∧ Masked t link ∧ v.accepted actor = true ∧ v.expectedRevision = 1 ∧
    v.action = ReviewAction.withdraw.text

/-- The trigger finds the withdrawal that `Review` did not see. -/
theorem WithdrawsMasked.rejected {t : Tables} {id : Option LinkID} {v : ReviewRequest}
    {actor : Bytes} (masked : WithdrawsMasked t id v actor) (stable : Bool) :
    review t id v actor stable = .error (.rejected .trigger) := by
  obtain ⟨link, rfl, ⟨⟨out, found, conflict⟩, rows⟩, accepted, second, withdraws⟩ := masked
  have latest : t.latest link = some ⟨link, 1, .withdraw⟩ := by
    simp only [Tables.latest, rows]
    rfl
  have revision : out.revision = 1 := by
    rw [projection_revision found, latest]
    rfl
  obtain ⟨f, reported, -⟩ := projection_state found
  have passes : reviewable (v.call link .withdraw actor stable) out = true := by
    simp [reviewable, ReviewRequest.call, revision, second, conflict]
  have unguarded : reviewGuard t ⟨link, 2, .withdraw⟩ = false := by
    simp [reviewGuard, latest]
  have confirms : confirmable f out.link.index (v.call link .withdraw actor stable) = true := rfl
  simp [review, addReview, do_eq_error, demand_eq_error, require_eq_error, accepted, withdraws,
    ReviewAction.parse_text, found, passes, reported, confirms, revision, unguarded]

variable [Reader]

theorem reached_lawful (events : List (Event Request)) :
    Lawful ((Config.run statements { store := emptyStore } events).store .publication) :=
  (statements_rule.run emptyTables_lawful events).current

/-- After any run `Review` refuses by itself whatever the database would refuse,
but for a second withdrawal of a link whose first one is hidden. -/
theorem review_refuses_itself (events : List (Event Request)) (id : Option LinkID)
    (v : ReviewRequest) (actor : Bytes) (stable : Bool) :
    let t := (Config.run statements { store := emptyStore } events).store .publication
    ((∃ t', review t id v actor stable = .ok t') ∨
      review t id v actor stable = .error .invalidPublication ∨
      review t id v actor stable = .error .publication ∨
      review t id v actor stable = .error .notFound) ↔ ¬ WithdrawsMasked t id v actor := by
  intro t
  have lawful : Lawful t := reached_lawful events
  constructor
  · intro itself masked
    simp [masked.rejected stable] at itself
  intro unmasked
  cases outcome : review t id v actor stable with
  | ok t' => exact .inl ⟨t', rfl⟩
  | error refusal =>
    cases refusal with
    | invalidPublication => exact .inr (.inl rfl)
    | publication => exact .inr (.inr (.inl rfl))
    | notFound => exact .inr (.inr (.inr rfl))
    | rejected violation =>
      exfalso
      simp only [review, do_eq_error, demand_eq_error, require_eq_error, demand_eq_ok,
        require_eq_ok, reduceCtorEq, and_false, false_or] at outcome
      obtain ⟨link, rfl, -, accepted, action, parsed, out, found, -, passes, -, -, -, -, failed⟩ :=
        outcome
      have unhidden : ¬(Masked t link ∧ v.expectedRevision.toNat = 1 ∧ action = .withdraw) := by
        rintro ⟨masked, second, rfl⟩
        exact unmasked ⟨link, rfl, masked, accepted, by omega, ReviewAction.text_of_parse parsed⟩
      simp only [ReviewRequest.accepted, Bool.and_eq_true, decide_eq_true_eq] at accepted
      obtain ⟨⟨⟨⟨-, reasonValid⟩, actorValid⟩, nonneg⟩, early⟩ := accepted
      obtain ⟨t', added⟩ := addReview_ok (v.call link action actor stable) lawful found
        (Int.toNat_le.mpr early) actorValid reasonValid passes unhidden
      rcases failed with failed | ⟨t', -, failed⟩
      · cases added.symm.trans failed
      · cases failed

end Outcomes

section Sample

attribute [local instance] sampleReader

/-- A report is imported, linked and withdrawn, and then contradicted by another one. -/
def maskingEvents : List (Event Request) :=
  .start 0 (sampleImport 1 (ascii "a")) :: List.replicate 6 (.advance 0) ++
    .start 1 sampleLink :: List.replicate 3 (.advance 1) ++
    .start 2 (.review ⟨5, 0, .withdraw, ascii "why", ascii "op", true, true⟩) ::
      List.replicate 3 (.advance 2) ++
    .start 3 (sampleImport 2 (ascii "b")) :: List.replicate 6 (.advance 3)

def withdrawal : ReviewRequest := ⟨1, ascii "WITHDRAW", ascii "why", true⟩

theorem masked_withdrawal_rejected :
    ((Config.run statements { store := emptyStore } maskingEvents).log.length = 4 ∧
      (projection ((Config.run statements { store := emptyStore } maskingEvents).store
        .publication) 5).map (fun out => (out.state, out.revision)) =
          some (.evidenceConflict, 1)) ∧
    review ((Config.run statements { store := emptyStore } maskingEvents).store .publication)
      (some 5) withdrawal (ascii "op") true = .error (.rejected .trigger) := by
  refine ⟨by decide, ?_⟩
  have refused : refusal (review ((Config.run statements { store := emptyStore }
      maskingEvents).store .publication) (some 5) withdrawal (ascii "op") true) =
        some (.rejected .trigger) := by
    decide
  exact refusal_eq_some.mp refused

end Sample

end RelayTale.Feedback
