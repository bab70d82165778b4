import RelayTale.Smtp.Conversation

/-!
# What the result of a conversation says

The conversation passes through three phases. While it is addressing, every
recipient row is a function of the RCPT reply read for it. It is then either
abandoned before DATA was accepted or concluded after it, and the final rows
are determined by the transcript.
-/

namespace RelayTale.Smtp

open EarlyReturn

def replyTo (command : Command) (transcript : List Act) : Option Int :=
  transcript.findSome? fun
    | .answered asked code => if asked = command then some code else none
    | _ => none

/-- Every occurrence of `later` comes after an occurrence of `first`. -/
def Precedes (first later : Act) (transcript : List Act) : Prop :=
  ∀ before after, transcript = before ++ later :: after → first ∈ before

section Transcripts

variable {command : Command} {transcript extra : List Act} {first later : Act}

@[simp] theorem replyTo_nil : replyTo command [] = none := rfl

@[simp] theorem replyTo_append :
    replyTo command (transcript ++ extra) =
      (replyTo command transcript).or (replyTo command extra) := by
  simp [replyTo, List.findSome?_append]

@[simp] theorem replyTo_wrote {written : Command} :
    replyTo command (.wrote written :: transcript) = replyTo command transcript := by
  simp [replyTo]

@[simp] theorem replyTo_fenced {passed : Bool} :
    replyTo command (.fenced passed :: transcript) = replyTo command transcript := by
  simp [replyTo]

@[simp] theorem replyTo_answered {asked : Command} {code : Int} :
    replyTo command (.answered asked code :: transcript) =
      if asked = command then some code else replyTo command transcript := by
  unfold replyTo
  rw [List.findSome?_cons]
  by_cases same : asked = command <;> simp [same]

theorem mem_of_replyTo {code : Int} (replied : replyTo command transcript = some code) :
    Act.answered command code ∈ transcript := by
  obtain ⟨act, membership, found⟩ := List.exists_of_findSome?_eq_some replied
  cases act with
  | answered asked read =>
    by_cases same : asked = command
    · simp only [same, if_pos, Option.some.injEq] at found
      rw [same, found] at membership
      exact membership
    · simp [same] at found
  | wrote written => simp at found
  | fenced passed => simp at found

theorem precedes_of_not_mem (absent : later ∉ transcript) : Precedes first later transcript := by
  intro before after split
  exact absurd (split ▸ List.mem_append_right _ List.mem_cons_self) absent

theorem Precedes.append (ordered : Precedes first later transcript)
    (new : later ∈ extra → first ∈ transcript) : Precedes first later (transcript ++ extra) := by
  intro before after split
  rcases List.append_eq_append_iff.mp split with ⟨middle, rfl, inExtra⟩ | ⟨middle, inTranscript, rest⟩
  · have occurs : later ∈ extra := by simp [inExtra]
    exact List.mem_append_left _ (new occurs)
  · cases middle with
    | nil =>
      have occurs : later ∈ extra := by
        rw [List.nil_append] at rest
        exact rest ▸ List.mem_cons_self
      rw [List.append_nil] at inTranscript
      exact inTranscript ▸ new occurs
    | cons head tail =>
      obtain ⟨rfl, -⟩ := List.cons.inj rest
      exact ordered before tail inTranscript

end Transcripts

theorem replyTo_inert {command : Command} {lines : List Act}
    (inert : ∀ act ∈ lines, act.inert) (other : command.preliminary = false) :
    replyTo command lines = none := by
  cases replied : replyTo command lines with
  | none => rfl
  | some code =>
    have member := inert _ (mem_of_replyTo replied)
    simp [Act.inert, other] at member

structure Disciplined (s : Session) (transcript : List Act) : Prop where
  data : Precedes (.fenced true) (.wrote .data) transcript
  body : Precedes (.answered .data 354) (.wrote .body) transcript
  fence : .fenced true ∈ transcript → s.beforeData = none

theorem Disciplined.append {s : Session} {transcript lines : List Act}
    (disciplined : Disciplined s transcript)
    (data : .wrote .data ∈ lines → .fenced true ∈ transcript)
    (body : .wrote .body ∈ lines → .answered .data 354 ∈ transcript)
    (fence : .fenced true ∈ lines → s.beforeData = none) :
    Disciplined s (transcript ++ lines) where
  data := disciplined.data.append data
  body := disciplined.body.append body
  fence membership := (List.mem_append.mp membership).elim disciplined.fence fence

structure Facts where
  recipients : List RecipientResult
  accepted : Nat
  code : Int
  dataStartedAt : Option Int
  finalResponseAt : Option Int
  bytesSent : Int
  transcript : List Act

def Run.facts (run : Run) : Facts where
  recipients := run.out.recipients
  accepted := run.accepted
  code := run.out.code
  dataStartedAt := run.out.dataStartedAt
  finalResponseAt := run.out.finalResponseAt
  bytesSent := run.out.bytesSent
  transcript := run.transcript

def rejection (code : Int) : Status := if 500 ≤ code then .permanent else .temporary

/-- A row as the RCPT reply `code`, which was not an acceptance, left it. -/
structure Rejected (code : Int) (rc : RecipientResult) : Prop where
  refused : code / 10 ≠ 25
  stage : rc.stage = .rcptRejected
  status : rc.status = rejection code
  kept : rc.code = code

theorem Rejected.unanswered {code : Int} {rc : RecipientResult} (rejected : Rejected code rc)
    (pending : rc.pending) : code = 0 := by
  rw [← rejected.kept]
  have status := rejected.status
  unfold rejection at status
  unfold RecipientResult.pending at pending
  split at status <;> simp_all

/-- A row as the RCPT dialogue left it. -/
inductive Settled : Option Int → RecipientResult → Prop
  | unasked {rc} (status : rc.status = .temporary) (code : rc.code = 0) : Settled none rc
  | accepted {code rc} (matched : code / 10 = 25) (status : rc.status = .rcptAccepted) :
      Settled (some code) rc
  | rejected {code rc} (rejected : Rejected code rc) : Settled (some code) rc

theorem settled_append {rows : List RecipientResult} {transcript lines : List Act}
    (settled : ∀ i rc, rows[i]? = some rc → Settled (replyTo (.rcpt i) transcript) rc)
    (silent : ∀ i, replyTo (.rcpt i) lines = none) :
    ∀ i rc, rows[i]? = some rc → Settled (replyTo (.rcpt i) (transcript ++ lines)) rc := by
  intro i rc row
  rw [replyTo_append, silent, Option.or_none]
  exact settled i rc row

theorem asked_append {count : Nat} {transcript lines : List Act}
    (asked : ∀ i < count, replyTo (.rcpt i) transcript ≠ none) :
    ∀ i < count, replyTo (.rcpt i) (transcript ++ lines) ≠ none := by
  intro i bound
  rw [replyTo_append]
  simp [asked i bound]

/-- The first `asked` recipients have been answered and DATA was not requested. -/
structure Addressing (s : Session) (recipients : List Recipient) (asked : Nat) (facts : Facts) :
    Prop where
  ids : facts.recipients.map (·.id) = recipients.map (·.id)
  settled : ∀ i rc, facts.recipients[i]? = some rc →
    Settled (replyTo (.rcpt i) facts.transcript) rc
  unasked : ∀ i, replyTo (.rcpt i) facts.transcript = none ↔ asked ≤ i
  counted : ∀ i code, replyTo (.rcpt i) facts.transcript = some code → code / 10 = 25 →
    facts.accepted ≠ 0
  code : facts.code = 0
  unstarted : facts.dataStartedAt = none
  unanswered : facts.finalResponseAt = none
  unsent : facts.bytesSent = 0
  disciplined : Disciplined s facts.transcript
  unrefused : .fenced false ∉ facts.transcript
  data : replyTo .data facts.transcript = none
  body : replyTo .body facts.transcript = none

/-- A row when the conversation ended before DATA was accepted. -/
inductive Dropped (run : Run) (reply : Option Int) (rc : RecipientResult) : Prop
  | rejected (code : Int) (replied : reply = some code) (rejected : Rejected code rc)
  | inherited (stage : rc.stage = run.stage) (code : rc.code = run.out.code)
      (status : rc.status = .temporary ∨ rc.status = .permanent ∧ 500 ≤ rc.code ∧ rc.code ≤ 599)

/-- The stage at which a conversation ends when `beforeData` fails. -/
def Session.fenceStage (s : Session) : Stage :=
  match s.beforeData with
  | none => .databaseError
  | some failure =>
      if failure.cause.suppressed then .suppressionBlocked
      else if failure.cause.expired then .expiryBlocked
      else .databaseError

structure Abandoned (s : Session) (recipients : List Recipient) (run : Run) : Prop where
  ids : run.out.recipients.map (·.id) = recipients.map (·.id)
  dropped : ∀ i rc, run.out.recipients[i]? = some rc →
    Dropped run (replyTo (.rcpt i) run.transcript) rc
  unstarted : run.out.dataStartedAt = none
  unanswered : run.out.finalResponseAt = none
  unsent : run.out.bytesSent = 0
  disciplined : Disciplined s run.transcript
  refused : .fenced false ∈ run.transcript → run.stage = s.fenceStage
  data : replyTo .data run.transcript ≠ some 354
  body : replyTo .body run.transcript = none

/-- DATA was accepted and no reply to the terminator has been read. -/
structure Transferring (s : Session) (recipients : List Recipient) (facts : Facts) : Prop where
  ids : facts.recipients.map (·.id) = recipients.map (·.id)
  settled : ∀ i rc, facts.recipients[i]? = some rc →
    Settled (replyTo (.rcpt i) facts.transcript) rc
  asked : ∀ i < recipients.length, replyTo (.rcpt i) facts.transcript ≠ none
  code : facts.code = 0
  started : facts.dataStartedAt ≠ none
  unanswered : facts.finalResponseAt = none
  disciplined : Disciplined s facts.transcript
  data : replyTo .data facts.transcript = some 354
  body : replyTo .body facts.transcript = none

def conclusion : Option Int → Status
  | none => .unknown
  | some code =>
      if code / 100 = 2 then .accepted
      else if 500 ≤ code ∧ code ≤ 599 then .permanent
      else if 400 ≤ code ∧ code ≤ 499 then .temporary
      else .unknown

/-- A row when the conversation ended after DATA was accepted, `final` being
the reply to the terminator. -/
inductive Decided (final : Option Int) : Option Int → RecipientResult → Prop
  | rejected {answer rc} (rejected : Rejected answer rc) : Decided final (some answer) rc
  | overwritten {reply rc} (unanswered : ∀ answer, reply = some answer → answer = 0)
      (status : rc.status = .temporary ∨ rc.status = .unknown ∨
        rc.status = .permanent ∧ 500 ≤ rc.code) :
      Decided final reply rc
  | concluded {answer rc} (matched : answer / 10 = 25) (status : rc.status = conclusion final)
      (stage : rc.stage ≠ .rcptRejected)
      (code : ∀ last, final = some last → last / 100 ≠ 2 → rc.code = last) :
      Decided final (some answer) rc

structure Concluded (s : Session) (recipients : List Recipient) (facts : Facts)
    (errorClass : ErrorClass) : Prop where
  ids : facts.recipients.map (·.id) = recipients.map (·.id)
  decided : ∀ i rc, facts.recipients[i]? = some rc →
    Decided (replyTo .body facts.transcript) (replyTo (.rcpt i) facts.transcript) rc
  asked : ∀ i < recipients.length, replyTo (.rcpt i) facts.transcript ≠ none
  started : facts.dataStartedAt ≠ none
  disciplined : Disciplined s facts.transcript
  data : replyTo .data facts.transcript = some 354
  code : ∀ last, replyTo .body facts.transcript = some last → facts.code = last
  answered : ∀ last, replyTo .body facts.transcript = some last → last ≠ 0 →
    facts.finalResponseAt ≠ none
  errorClass : ∀ last, replyTo .body facts.transcript = some last → last / 100 ≠ 2 →
    errorClass = .stage .finalResponseError

def Ended (s : Session) (recipients : List Recipient) (run : Run) : Prop :=
  Abandoned s recipients run ∨ Concluded s recipients run.facts run.out.errorClass

section Failing

variable {s : Session} {recipients : List Recipient} {asked : Nat} {run : Run}
variable {failure : Failure} {uncertain : Bool}

@[simp] theorem failed_dataStartedAt :
    (s.failed failure uncertain run).dataStartedAt = run.out.dataStartedAt := by
  unfold Session.failed
  cases failure <;> cases uncertain <;> by_cases auth : run.stage = .authError <;> simp [auth]

@[simp] theorem failed_finalResponseAt :
    (s.failed failure uncertain run).finalResponseAt = run.out.finalResponseAt := by
  unfold Session.failed
  cases failure <;> cases uncertain <;> by_cases auth : run.stage = .authError <;> simp [auth]

@[simp] theorem failed_bytesSent :
    (s.failed failure uncertain run).bytesSent = run.out.bytesSent := by
  unfold Session.failed
  cases failure <;> cases uncertain <;> by_cases auth : run.stage = .authError <;> simp [auth]

@[simp] theorem failed_rejected_code {reply : Reply} :
    (s.failed (.rejected reply) uncertain run).code = reply.code := by
  unfold Session.failed
  by_cases auth : run.stage = .authError <;> simp [auth]

theorem failed_rejected_errorClass {reply : Reply} :
    (s.failed (.rejected reply) uncertain run).errorClass =
      classify run.stage (.rejected reply) := by
  unfold Session.failed
  by_cases auth : run.stage = .authError <;> simp [auth]

theorem inherit_id (out : Result) (stage : Stage) (status : Status) (rc : RecipientResult) :
    (rc.inherit out stage status).id = rc.id := by
  unfold RecipientResult.inherit
  split <;> rfl

theorem fail_ids :
    (s.fail failure uncertain run).out.recipients.map (·.id) =
      run.out.recipients.map (·.id) := by
  simp only [Session.fail, List.map_map]
  exact List.map_congr_left fun rc _ => inherit_id _ _ _ rc

theorem fail_row {i : Nat} {rc : RecipientResult}
    (row : (s.fail failure uncertain run).out.recipients[i]? = some rc) :
    ∃ old, run.out.recipients[i]? = some old ∧
      rc = old.inherit (s.failed failure uncertain run) run.stage
        (failureStatus failure uncertain) := by
  simp only [Session.fail, List.getElem?_map, Option.map_eq_some_iff] at row
  obtain ⟨old, found, same⟩ := row
  exact ⟨old, found, same.symm⟩

theorem failureStatus_certain (failure : Failure) :
    failureStatus failure false = .temporary ∨
      failureStatus failure false = .permanent ∧
        500 ≤ (s.failed failure false run).code ∧ (s.failed failure false run).code ≤ 599 := by
  cases failure with
  | fault cause => exact .inl rfl
  | rejected reply =>
    rw [failed_rejected_code]
    unfold failureStatus
    by_cases permanent : 500 ≤ reply.code ∧ reply.code ≤ 599 <;> simp [permanent]

/-- A failure before DATA is accepted leaves a rejected row alone and gives every
other one the status of the failure. -/
theorem Settled.drop {reply : Option Int} {rc : RecipientResult} (settled : Settled reply rc)
    (failure : Failure) :
    Dropped (s.fail failure false run) reply
      (rc.inherit (s.failed failure false run) run.stage (failureStatus failure false)) := by
  by_cases pending : rc.pending
  · rw [RecipientResult.inherit, if_pos pending]
    exact .inherited rfl rfl (failureStatus_certain failure)
  · rw [RecipientResult.inherit, if_neg pending]
    cases settled with
    | unasked status code => simp [RecipientResult.pending, status, code] at pending
    | accepted matched status => simp [RecipientResult.pending, status] at pending
    | rejected rejected => exact .rejected _ rfl rejected

theorem fail_abandons (ids : run.out.recipients.map (·.id) = recipients.map (·.id))
    (settled : ∀ i rc, run.out.recipients[i]? = some rc →
      Settled (replyTo (.rcpt i) run.transcript) rc)
    (unstarted : run.out.dataStartedAt = none) (unanswered : run.out.finalResponseAt = none)
    (unsent : run.out.bytesSent = 0) (disciplined : Disciplined s run.transcript)
    (refused : .fenced false ∈ run.transcript → run.stage = s.fenceStage)
    (data : replyTo .data run.transcript ≠ some 354)
    (body : replyTo .body run.transcript = none) :
    Abandoned s recipients (s.fail failure false run) where
  ids := fail_ids.trans ids
  dropped i rc row := by
    obtain ⟨old, found, rfl⟩ := fail_row row
    exact (settled i old found).drop failure
  unstarted := failed_dataStartedAt.trans unstarted
  unanswered := failed_finalResponseAt.trans unanswered
  unsent := failed_bytesSent.trans unsent
  disciplined := disciplined
  refused := refused
  data := data
  body := body

theorem Addressing.fail (addressing : Addressing s recipients asked run.facts)
    (failure : Failure) : Abandoned s recipients (s.fail failure false run) :=
  fail_abandons addressing.ids addressing.settled addressing.unstarted addressing.unanswered
    addressing.unsent addressing.disciplined
    (fun member => absurd member addressing.unrefused)
    (fun accepted => Option.some_ne_none _ (accepted.symm.trans addressing.data))
    addressing.body

end Failing

/-- An event changes nothing the phases depend on. It can only end the
conversation while DATA has not started. -/
theorem event_outcome (s : Session) (kind : EventKind) (recipient : Option RecipientID)
    (code : Int) (text : Bytes) (run : Run) :
    (∃ next, s.event kind recipient code text run = .ok next ∧ next.facts = run.facts ∧
      next.out.errorClass = run.out.errorClass) ∨
    (run.out.dataStartedAt = none ∧ ∃ failure last,
      s.event kind recipient code text run = .error (s.fail failure false last) ∧
        last.facts = run.facts) := by
  unfold Session.event
  cases recorded : s.recorder (run.out.events.length + 1) with
  | none =>
    simp only [recorded]
    exact .inl ⟨_, rfl, rfl, rfl⟩
  | some failure =>
    by_cases unstarted : run.out.dataStartedAt = none
    · simp only [recorded]
      exact .inr ⟨unstarted, failure, _, if_pos unstarted, rfl⟩
    · simp only [recorded]
      exact .inl ⟨_, if_neg unstarted, rfl, rfl⟩

section Preliminary

variable {s : Session} {recipients : List Recipient} {asked : Nat}

theorem Addressing.append {run : Run} {lines : List Act}
    (addressing : Addressing s recipients asked run.facts)
    (silent : ∀ command, command.preliminary = false → replyTo command lines = none)
    (disciplined : Disciplined s (run.transcript ++ lines))
    (unrefused : .fenced false ∉ lines) :
    Addressing s recipients asked { run with transcript := run.transcript ++ lines }.facts := by
  have unchanged (command : Command) (other : command.preliminary = false) :
      replyTo command (run.transcript ++ lines) = replyTo command run.transcript := by
    rw [replyTo_append, silent command other, Option.or_none]
  have rcpt (i : Nat) := unchanged (.rcpt i) rfl
  exact { addressing with
    disciplined
    unrefused := List.not_mem_append addressing.unrefused unrefused
    data := (unchanged .data rfl).trans addressing.data
    body := (unchanged .body rfl).trans addressing.body
    settled := by simpa [Run.facts, rcpt] using addressing.settled
    unasked := by simpa [Run.facts, rcpt] using addressing.unasked
    counted := by simpa [Run.facts, rcpt] using addressing.counted }

theorem Addressing.extend {run : Run} {lines : List Act}
    (addressing : Addressing s recipients asked run.facts)
    (inert : ∀ act ∈ lines, act.inert) :
    Addressing s recipients asked { run with transcript := run.transcript ++ lines }.facts := by
  have foreign (act : Act) (other : act.inert = false) : act ∉ lines := by
    intro membership
    simp [inert act membership] at other
  refine addressing.append (fun command other => replyTo_inert inert other) ?_ (foreign _ rfl)
  exact addressing.disciplined.append (fun membership => absurd membership (foreign _ rfl))
    (fun membership => absurd membership (foreign _ rfl))
    (fun membership => absurd membership (foreign _ rfl))

theorem event_addresses (kind : EventKind) (recipient : Option RecipientID) (code : Int)
    (text : Bytes) :
    Triple (fun run => Addressing s recipients asked run.facts) (s.event kind recipient code text)
      (fun run => Addressing s recipients asked run.facts) (Ended s recipients) := by
  intro run addressing
  rcases event_outcome s kind recipient code text run with
    ⟨next, outcome, same, -⟩ | ⟨-, failure, last, outcome, same⟩
  · simp only [outcome, same]
    exact addressing
  · simp only [outcome]
    rw [← same] at addressing
    exact .inl (addressing.fail failure)

end Preliminary

section Envelope

variable {s : Session} {recipients : List Recipient} {asked : Nat} {run : Run}

theorem map_id_set {rows : List RecipientResult} {recipient : Recipient}
    {result : RecipientResult} (ids : rows.map (·.id) = recipients.map (·.id))
    (addressed : recipients[asked]? = some recipient) (id : result.id = recipient.id) :
    (rows.set asked result).map (·.id) = recipients.map (·.id) := by
  rw [List.map_set, ids]
  apply List.ext_getElem?
  intro i
  rw [List.getElem?_set]
  by_cases same : asked = i
  · subst same
    obtain ⟨inside, found⟩ := List.getElem?_eq_some_iff.mp addressed
    simp [inside, found, id]
  · simp [same]

/-- The state after the reply to RCPT number `asked` was read and its row was set. -/
theorem Addressing.settle {facts : Facts} (addressing : Addressing s recipients asked facts)
    {recipient : Recipient} (addressed : recipients[asked]? = some recipient) {code : Int}
    {result : RecipientResult} (id : result.id = recipient.id)
    (settled : Settled (some code) result) {accepted : Nat} (grows : facts.accepted ≤ accepted)
    (counted : code / 10 = 25 → accepted ≠ 0) :
    Addressing s recipients (asked + 1)
      { facts with
        accepted, recipients := facts.recipients.set asked result
        transcript := facts.transcript ++ [.wrote (.rcpt asked), .answered (.rcpt asked) code] }
    := by
  have unanswered : replyTo (.rcpt asked) facts.transcript = none :=
    (addressing.unasked asked).mpr (Nat.le_refl asked)
  have replies (i : Nat) :
      replyTo (.rcpt i)
          (facts.transcript ++ [.wrote (.rcpt asked), .answered (.rcpt asked) code]) =
        if asked = i then some code else replyTo (.rcpt i) facts.transcript := by
    by_cases same : asked = i
    · subst same
      simp [unanswered]
    · simp [same]
  refine { addressing with
    ids := map_id_set addressing.ids addressed id
    disciplined := addressing.disciplined.append (by simp) (by simp) (by simp)
    unrefused := by simp [addressing.unrefused]
    data := by simp [addressing.data]
    body := by simp [addressing.body]
    settled := fun i rc row => ?_
    unasked := fun i => ?_
    counted := fun i answer replied matched => ?_ }
  · rw [replies]
    rw [List.getElem?_set] at row
    by_cases same : asked = i
    · simp only [same, if_true] at row ⊢
      split at row
      · cases row
        exact settled
      · cases row
    · simp only [same, if_false] at row ⊢
      exact addressing.settled i rc row
  · rw [replies]
    by_cases same : asked = i
    · simp only [same, if_true]
      simp
    · simp only [same, if_false]
      rw [addressing.unasked]
      omega
  · rw [replies] at replied
    by_cases same : asked = i
    · simp only [same, if_true, Option.some.injEq] at replied
      exact counted (replied ▸ matched)
    · simp only [same, if_false] at replied
      have before := addressing.counted i answer replied matched
      show accepted ≠ 0
      omega

theorem carries_addressing (s : Session) (recipients : List Recipient) :
    s.Carries recipients (fun asked run => Addressing s recipients asked run.facts)
      (Ended s recipients) where
  survives _ :=
    { enter := fun _ addressing => addressing
      extend := fun addressing inert => addressing.extend inert
      event := event_addresses
      fail := fun _ addressing => .inl (addressing.fail _) }
  settle {asked run recipient reply} addressed _ addressing := by
    by_cases matched : reply.code / 10 = 25
    · simp only [Session.asked, matched, if_true]
      exact addressing.settle addressed rfl (.accepted matched rfl) (Nat.le_succ _) (by simp)
    · simp only [Session.asked, matched, if_false]
      exact addressing.settle addressed rfl (.rejected ⟨matched, rfl, rfl, rfl⟩) (Nat.le_refl _)
        (fun same => absurd same matched)

theorem anyAccepted_addresses :
    Triple (fun run => Addressing s recipients recipients.length run.facts) Session.anyAccepted
      (fun run => Addressing s recipients recipients.length run.facts)
      (Abandoned s recipients) := by
  intro run addressing
  unfold Session.anyAccepted
  by_cases none : run.accepted = 0
  · simp only [none, if_true]
    refine ⟨addressing.ids, ?_, addressing.unstarted, addressing.unanswered, addressing.unsent,
      addressing.disciplined, fun member => absurd member addressing.unrefused,
      fun accepted => Option.some_ne_none _ (accepted.symm.trans addressing.data),
      addressing.body⟩
    intro i rc row
    have inside : i < recipients.length := by
      have bound := (List.getElem?_eq_some_iff.mp row).1
      have lengths := congrArg List.length addressing.ids
      simp only [List.length_map] at lengths
      exact lengths ▸ bound
    have settled := addressing.settled i rc row
    generalize reply_eq : replyTo (.rcpt i) run.transcript = reply
    rw [show replyTo (.rcpt i) run.facts.transcript = reply from reply_eq] at settled
    cases settled with
    | unasked status code => exact absurd ((addressing.unasked i).mp reply_eq) (by omega)
    | accepted matched status => exact absurd none (addressing.counted i _ reply_eq matched)
    | rejected rejected => exact .rejected _ rfl rejected
  · simpa [none] using addressing

end Envelope

section Transfer

variable {s : Session} {recipients : List Recipient} {asked : Nat} {run : Run}
variable {exit : Run → Prop} {failure : Failure}

theorem authorize_addresses :
    Triple (fun run => Addressing s recipients asked run.facts ∧ run.stage = .databaseError)
      s.authorize
      (fun run => Addressing s recipients asked run.facts ∧ Act.fenced true ∈ run.transcript)
      (Abandoned s recipients) := by
  rintro run ⟨addressing, stage⟩
  have noData : replyTo .data run.transcript = none := addressing.data
  have noBody : replyTo .body run.transcript = none := addressing.body
  have disciplined : Disciplined s run.transcript := addressing.disciplined
  unfold Session.authorize
  cases answer : s.beforeData with
  | none =>
    refine ⟨addressing.append (by simp) ?_ (by simp), by simp⟩
    exact disciplined.append (by simp) (by simp) (fun _ => answer)
  | some failure =>
    refine fail_abandons addressing.ids (settled_append addressing.settled (by simp))
      addressing.unstarted addressing.unanswered addressing.unsent
      (disciplined.append (by simp) (by simp) (by simp)) (fun _ => ?_) (by simp [noData])
      (by simp [noBody])
    simp [Session.fenceStage, answer, stage]

/-- Once DATA has started an event keeps whatever the phases depend on. -/
theorem event_keeps {P : Facts → ErrorClass → Prop}
    (started : ∀ facts errorClass, P facts errorClass → facts.dataStartedAt ≠ none)
    (kind : EventKind) (recipient : Option RecipientID) (code : Int) (text : Bytes) :
    Triple (fun run => P run.facts run.out.errorClass) (s.event kind recipient code text)
      (fun run => P run.facts run.out.errorClass) exit := by
  intro run holds
  rcases event_outcome s kind recipient code text run with
    ⟨next, outcome, facts, errorClass⟩ | ⟨unstarted, -⟩
  · simp only [outcome, facts, errorClass]
    exact holds
  · exact absurd unstarted (started _ _ holds)

theorem event_transfers (kind : EventKind) (recipient : Option RecipientID) (code : Int)
    (text : Bytes) :
    Triple (fun run => Transferring s recipients run.facts) (s.event kind recipient code text)
      (fun run => Transferring s recipients run.facts) exit :=
  event_keeps (P := fun facts _ => Transferring s recipients facts)
    (fun _ _ transferring => transferring.started) kind recipient code text

theorem startData_transfers :
    Triple
      (fun run => Addressing s recipients recipients.length run.facts ∧
        Act.fenced true ∈ run.transcript)
      s.startData (fun run => Transferring s recipients run.facts) (Abandoned s recipients) := by
  rintro run ⟨addressing, fenced⟩
  have unrefused : Act.fenced false ∉ run.transcript := addressing.unrefused
  have noData : replyTo .data run.transcript = none := addressing.data
  have noBody : replyTo .body run.transcript = none := addressing.body
  have disciplined : Disciplined s run.transcript := addressing.disciplined
  have asked : ∀ i < recipients.length, replyTo (.rcpt i) run.transcript ≠ none :=
    fun i bound none => Nat.not_le.mpr bound ((addressing.unasked i).mp none)
  unfold Session.startData Session.command Session.exchange
  cases answer : s.data with
  | broken code cause =>
    exact fail_abandons addressing.ids (settled_append addressing.settled (by simp)) addressing.unstarted
      addressing.unanswered addressing.unsent
      (disciplined.append (fun _ => fenced) (by simp) (by simp)) (by simp [unrefused])
      (by simp [noData]) (by simp [noBody])
  | reply reply =>
    by_cases accepted : reply.code = 354
    · simp only [Answer.expect, accepted, decide_true, if_true]
      apply event_transfers
      exact
        { addressing with
          settled := settled_append addressing.settled (by simp)
          asked := asked_append asked
          started := by simp [Run.facts]
          disciplined := disciplined.append (fun _ => fenced) (by simp) (by simp)
          data := by simp [Run.facts, noData]
          body := by simp [Run.facts, noBody] }
    · simp only [Answer.expect, accepted, decide_false]
      exact fail_abandons addressing.ids (settled_append addressing.settled (by simp)) addressing.unstarted
        addressing.unanswered addressing.unsent
        (disciplined.append (fun _ => fenced) (by simp) (by simp)) (by simp [unrefused])
        (by simp [noData, accepted]) (by simp [noBody])

def Failure.reply : Failure → Option Int
  | .rejected reply => some reply.code
  | .fault _ => none

theorem failureStatus_uncertain (refused : ∀ last, failure.reply = some last → last / 100 ≠ 2) :
    failureStatus failure true = conclusion failure.reply := by
  cases failure with
  | fault cause => rfl
  | rejected reply =>
    have other := refused reply.code rfl
    simp only [failureStatus, conclusion, Failure.reply, other, if_false]
    by_cases permanent : 500 ≤ reply.code ∧ reply.code ≤ 599
    · simp [permanent]
    · by_cases temporary : 400 ≤ reply.code ∧ reply.code ≤ 499
      · have known : ¬ (reply.code < 400 ∨ 599 < reply.code) := by omega
        simp [permanent, temporary, known]
      · have unknown : reply.code < 400 ∨ 599 < reply.code := by omega
        simp [permanent, temporary, unknown]

theorem failureStatus_overwrites (failure : Failure) :
    failureStatus failure true = .temporary ∨ failureStatus failure true = .unknown ∨
      failureStatus failure true = .permanent ∧ 500 ≤ (s.failed failure true run).code := by
  cases failure with
  | fault cause => exact .inr (.inl rfl)
  | rejected reply =>
    rw [failed_rejected_code]
    unfold failureStatus
    by_cases permanent : 500 ≤ reply.code ∧ reply.code ≤ 599
    · simp [permanent]
    · by_cases unknown : reply.code < 400 ∨ 599 < reply.code <;> simp [permanent, unknown]

/-- A failure after DATA was accepted gives the accepted recipients the
conclusion of the reply, if there was one. -/
theorem Settled.decide {reply : Option Int} {rc : RecipientResult} (settled : Settled reply rc)
    (refused : ∀ last, failure.reply = some last → last / 100 ≠ 2)
    (stage : run.stage ≠ .rcptRejected) :
    Decided failure.reply reply
      (rc.inherit (s.failed failure true run) run.stage (failureStatus failure true)) := by
  by_cases pending : rc.pending
  · rw [RecipientResult.inherit, if_pos pending]
    cases settled with
    | unasked status code => exact .overwritten (by simp) (failureStatus_overwrites failure)
    | rejected rejected =>
      refine .overwritten ?_ (failureStatus_overwrites failure)
      rintro answer ⟨⟩
      exact rejected.unanswered pending
    | accepted matched status =>
      refine .concluded matched (failureStatus_uncertain refused) stage ?_
      intro last answered _
      cases failure with
      | fault cause => cases answered
      | rejected reply => exact failed_rejected_code.trans (Option.some.inj answered)
  · rw [RecipientResult.inherit, if_neg pending]
    cases settled with
    | unasked status code => simp [RecipientResult.pending, status, code] at pending
    | accepted matched status => simp [RecipientResult.pending, status] at pending
    | rejected rejected => exact .rejected rejected

theorem fail_concludes (ids : run.out.recipients.map (·.id) = recipients.map (·.id))
    (settled : ∀ i rc, run.out.recipients[i]? = some rc →
      Settled (replyTo (.rcpt i) run.transcript) rc)
    (asked : ∀ i < recipients.length, replyTo (.rcpt i) run.transcript ≠ none)
    (started : run.out.dataStartedAt ≠ none) (disciplined : Disciplined s run.transcript)
    (data : replyTo .data run.transcript = some 354)
    (body : replyTo .body run.transcript = failure.reply)
    (refused : ∀ last, failure.reply = some last →
      last / 100 ≠ 2 ∧ run.stage = .finalResponseError ∧
        (last ≠ 0 → run.out.finalResponseAt ≠ none)) (stage : run.stage ≠ .rcptRejected) :
    Concluded s recipients (s.fail failure true run).facts
      (s.fail failure true run).out.errorClass where
  ids := fail_ids.trans ids
  decided i rc row := by
    obtain ⟨old, found, rfl⟩ := fail_row row
    rw [show replyTo .body (s.fail failure true run).facts.transcript = failure.reply from body]
    exact (settled i old found).decide (fun last answered => (refused last answered).1) stage
  asked := asked
  started := by
    show (s.failed failure true run).dataStartedAt ≠ none
    rw [failed_dataStartedAt]
    exact started
  disciplined := disciplined
  data := data
  code last answered := by
    have reply := body.symm.trans answered
    cases failure with
    | fault cause => cases reply
    | rejected reply' => exact failed_rejected_code.trans (Option.some.inj reply)
  answered last answered := by
    show last ≠ 0 → (s.failed failure true run).finalResponseAt ≠ none
    rw [failed_finalResponseAt]
    exact (refused last (body.symm.trans answered)).2.2
  errorClass last answered _ := by
    have reply := body.symm.trans answered
    cases failure with
    | fault cause => cases reply
    | rejected reply' =>
      show (s.failed (.rejected reply') true run).errorClass = _
      rw [failed_rejected_errorClass, (refused last reply).2.1]
      simp [classify, Failure.cause]

theorem writeBody_transfers :
    Triple (fun run => Transferring s recipients run.facts) s.writeBody
      (fun run => Transferring s recipients run.facts) (Ended s recipients) := by
  intro run transferring
  have data : replyTo .data run.transcript = some 354 := transferring.data
  have body : replyTo .body run.transcript = none := transferring.body
  have disciplined : Disciplined s (run.transcript ++ [.wrote .body]) :=
    Disciplined.append transferring.disciplined (by simp) (fun _ => mem_of_replyTo data) (by simp)
  have settled : ∀ i rc, run.out.recipients[i]? = some rc →
      Settled (replyTo (.rcpt i) (run.transcript ++ [.wrote .body])) rc :=
    settled_append transferring.settled (by simp)
  unfold Session.writeBody
  cases outcome : s.stream with
  | some cause =>
    exact .inr (fail_concludes transferring.ids settled (asked_append transferring.asked)
      transferring.started disciplined
      (by simp [data]) (by simp [body, Failure.reply]) (by simp [Failure.reply]) (by simp))
  | none =>
    apply event_transfers
    exact
      { transferring with
        settled, disciplined
        asked := asked_append transferring.asked
        data := by simp [Run.facts, data]
        body := by simp [Run.facts, body] }

theorem event_concluded (kind : EventKind) (recipient : Option RecipientID) (code : Int)
    (text : Bytes) :
    Triple (fun run => Concluded s recipients run.facts run.out.errorClass)
      (s.event kind recipient code text)
      (fun run => Concluded s recipients run.facts run.out.errorClass) exit :=
  event_keeps (fun _ _ concluded => concluded.started) kind recipient code text

theorem Settled.accept {reply : Option Int} {rc : RecipientResult} (settled : Settled reply rc)
    {last : Int} (positive : last / 100 = 2) : Decided (some last) reply rc.accept := by
  cases settled with
  | unasked status code =>
    have same : rc.accept = rc := by simp [RecipientResult.accept, status]
    rw [same]
    exact .overwritten (by simp) (.inl status)
  | rejected rejected =>
    have other : rc.status ≠ .rcptAccepted := by
      rw [rejected.status]
      unfold rejection
      split <;> decide
    have same : rc.accept = rc := by simp [RecipientResult.accept, other]
    rw [same]
    exact .rejected rejected
  | accepted matched status =>
    have changed : rc.accept = { rc with status := .accepted, stage := .finalResponse } := by
      simp [RecipientResult.accept, status]
    rw [changed]
    refine .concluded matched (by simp [conclusion, positive]) (by simp) ?_
    rintro _ ⟨⟩ negative
    exact absurd positive negative

theorem accept_id (rc : RecipientResult) : rc.accept.id = rc.id := by
  unfold RecipientResult.accept
  split <;> rfl

theorem readFinal_concludes :
    Triple (fun run => Transferring s recipients run.facts) s.readFinal
      (fun run => Concluded s recipients run.facts run.out.errorClass) (Ended s recipients) := by
  intro run transferring
  have data : replyTo .data run.transcript = some 354 := transferring.data
  have body : replyTo .body run.transcript = none := transferring.body
  have disciplined {lines : List Act}
      (reading : ∀ act ∈ lines, ∃ code, act = .answered .body code) :
      Disciplined s (run.transcript ++ lines) := by
    apply Disciplined.append transferring.disciplined <;> intro membership <;>
      obtain ⟨code, different⟩ := reading _ membership <;> cases different
  unfold Session.readFinal
  cases answer : s.final with
  | broken code cause =>
    exact .inr (fail_concludes transferring.ids (settled_append transferring.settled (by simp))
      (asked_append transferring.asked) transferring.started (disciplined (by simp)) (by simp [data])
      (by simp [body, Failure.reply]) (by simp [Failure.reply]) (by simp))
  | reply reply =>
    have reading : Disciplined s (run.transcript ++ [.answered .body reply.code]) :=
      disciplined (by simp)
    by_cases positive : reply.code / 100 = 2
    · simp only [Answer.expect, positive, decide_true, if_true]
      apply event_concluded
      exact
        { ids := by
            simp only [Run.facts, Session.acceptAll, List.map_map]
            rw [← transferring.ids]
            exact List.map_congr_left fun rc _ => accept_id rc
          decided := by
            intro i rc row
            simp only [Run.facts, Session.acceptAll, List.getElem?_map,
              Option.map_eq_some_iff] at row
            obtain ⟨old, found, rfl⟩ := row
            have final : replyTo .body (run.transcript ++ [.answered .body reply.code]) =
                some reply.code := by simp [body]
            simp only [Run.facts, final]
            exact (settled_append transferring.settled (by simp) i old found).accept positive
          asked := asked_append transferring.asked
          started := transferring.started
          disciplined := reading
          data := by simp [Run.facts, data]
          code := by simp [Run.facts, body, Session.acceptAll]
          answered := by simp [Run.facts, body, Session.acceptAll]
          errorClass := by simp [Run.facts, body, positive] }
    · simp only [Answer.expect, positive, decide_false]
      exact .inr (fail_concludes transferring.ids (settled_append transferring.settled (by simp))
        (asked_append transferring.asked) transferring.started reading (by simp [data]) (by simp [body, Failure.reply])
        (by simp +contextual [Failure.reply, positive, Answer.code]) (by simp))

theorem quit_concluded :
    Triple (fun run => Concluded s recipients run.facts run.out.errorClass) s.quit
      (fun run => Concluded s recipients run.facts run.out.errorClass) exit := by
  intro run concluded
  have quitting : Concluded s recipients
      { run with transcript := run.transcript ++ [Act.wrote .quit] }.facts
      run.out.errorClass := by
    have unchanged (command : Command) :
        replyTo command (run.transcript ++ [.wrote .quit]) = replyTo command run.transcript := by
      simp
    have disciplined : Disciplined s (run.transcript ++ [.wrote .quit]) :=
      concluded.disciplined.append (by simp) (by simp) (by simp)
    obtain ⟨ids, decided, asked, started, -, rest⟩ := concluded
    constructor <;> first | assumption | simpa [Run.facts, unchanged]
  unfold Session.quit
  cases s.quitWritten with
  | true => exact event_concluded _ _ _ _ _ quitting
  | false => exact quitting

theorem enter_keeps {P exit : Run → Prop} (stage : Stage)
    (ignores : ∀ run, P run → P { run with stage }) : Triple P (Session.enter stage) P exit :=
  ignores

theorem transmit_ends :
    Triple (fun run => Addressing s recipients recipients.length run.facts) s.transmit
      (Ended s recipients) (Ended s recipients) := by
  have abandoned : ∀ run, Abandoned s recipients run → Ended s recipients run :=
    fun _ ended => .inl ended
  have concluded : ∀ run : Run, Concluded s recipients run.facts run.out.errorClass →
      Ended s recipients run := fun _ ended => .inr ended
  have same {P : Run → Prop} : ∀ run, P run → P run := fun _ holds => holds
  refine Triple.andThen (anyAccepted_addresses.weaken same same abandoned) ?_
  have asking : Triple (fun run => Addressing s recipients recipients.length run.facts)
      (Session.enter .databaseError)
      (fun run => Addressing s recipients recipients.length run.facts ∧ run.stage = .databaseError)
      (Ended s recipients) := fun _ addressing => ⟨addressing, rfl⟩
  refine Triple.andThen asking ?_
  refine Triple.andThen (authorize_addresses.weaken same same abandoned) ?_
  refine Triple.andThen (enter_keeps _ fun _ authorized => authorized) ?_
  refine Triple.andThen (startData_transfers.weaken same same abandoned) ?_
  refine Triple.andThen writeBody_transfers ?_
  refine Triple.andThen readFinal_concludes ?_
  exact Triple.andThen quit_concluded (Triple.skip concluded)

theorem initialRun_addressing (s : Session) (recipients : List Recipient) :
    Addressing s recipients 0 (s.initialRun recipients).facts where
  ids := by simp [Run.facts, Session.initialRun, Function.comp_def]
  settled i rc row := by
    simp only [Run.facts, Session.initialRun, List.getElem?_map, Option.map_eq_some_iff] at row
    obtain ⟨recipient, -, rfl⟩ := row
    exact .unasked rfl rfl
  unasked i := by simp [Run.facts, Session.initialRun]
  counted i code replied := by simp [Run.facts, Session.initialRun] at replied
  code := rfl
  unstarted := rfl
  unanswered := rfl
  unsent := rfl
  disciplined :=
    ⟨precedes_of_not_mem (by simp [Run.facts, Session.initialRun]),
      precedes_of_not_mem (by simp [Run.facts, Session.initialRun]),
      by simp [Run.facts, Session.initialRun]⟩
  unrefused := by simp [Run.facts, Session.initialRun]
  data := rfl
  body := rfl

/-- Every conversation is abandoned before DATA is accepted or concluded after it. -/
theorem finalRun_ended (s : Session) (recipients : List Recipient) :
    Ended s recipients (s.finalRun recipients) :=
  ((carries_addressing s recipients).conversation transmit_ends).ending (fun _ ended => ended)
    (fun _ ended => ended) (initialRun_addressing s recipients)

end Transfer

end RelayTale.Smtp
