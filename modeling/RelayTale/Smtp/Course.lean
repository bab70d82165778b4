import RelayTale.Smtp.Conversation

/-!
# Replies that are kept

Reply text reaches the result of a conversation in two forms. As `Response` it has gone
through `safe`, as `Enhanced` it is the first field of the reply as the server sent it.
Which replies are kept is decided by codes and failures, never by a text. `course` follows
the conversation without its texts, and `send_texts` says that the result holds the texts of
the replies of the course and no others.
-/

namespace RelayTale.Smtp

open EarlyReturn

inductive Ending
  | failed (failure : Failure)
  | unauthenticated
  | refused
  | accepted (reply : Reply)
  deriving DecidableEq

namespace Ending

def reply : Ending → List Reply
  | .failed (.rejected reply) | .accepted reply => [reply]
  | .failed (.fault _) | .unauthenticated | .refused => []

/-- The ending is passed on to the recipients that have no answer of their own. -/
def inherited : Ending → Bool
  | .failed _ | .unauthenticated => true
  | .refused | .accepted _ => false

end Ending

/-- The number of events, the replies that events quote, the replies to RCPT, and the end. -/
structure Course where
  events : Nat := 0
  quoted : List Reply := []
  asked : List Reply := []
  ending : Ending := .refused

/-- A reply to RCPT is no final answer if it accepts the recipient. -/
def Reply.pending (reply : Reply) : Bool := reply.code / 10 = 25 ∨ reply.code = 0

namespace Course

/-- The replies whose text is recorded as `Response`. -/
def responses (course : Course) : List Reply := course.ending.reply ++ course.quoted

/-- The replies whose first field is recorded as `Enhanced`. -/
def codes (course : Course) : List Reply :=
  course.ending.reply ++
    course.asked.filter fun reply => !(course.ending.inherited && reply.pending)

def halt (ending : Ending) : Step Course := fun course => .error { course with ending }

def meet (outcome : Option Failure) : Step Course := fun course =>
  match outcome with
  | none => .ok course
  | some failure => halt (.failed failure) course

def meetFault (outcome : Option Fault) : Step Course := meet (outcome.map .fault)

/-- AUTH hides what it was told. -/
def meetAuth (outcome : Option Failure) : Step Course := fun course =>
  match outcome with
  | none => .ok course
  | some _ => halt .unauthenticated course

def hear (answer : Answer) (expected : Int → Bool) (next : Reply → Step Course) :
    Step Course := fun course =>
  match answer.expect expected with
  | .ok reply => next reply course
  | .error failure => halt (.failed failure) course

end Course

namespace Session

open Course

variable (s : Session)

/-- An event and the replies it quotes. The recorder may end the conversation. -/
def note (quoted : List Reply) : Step Course := fun course =>
  let course := { course with events := course.events + 1, quoted := course.quoted ++ quoted }
  meet (s.recorder course.events) course

def prepareCourse (recipients : List Recipient) : Step Course := .sequence
  [meetFault (demand (s.security ≠ .plain)), meetFault (demand s.envelopeValid),
    meetFault (demand (!recipients.any invalidAddress)), meetFault s.payload]

def dialCourse : Step Course := .sequence
  [s.note [], meetFault s.dns, s.note [], meetFault s.connect, s.note []]

def secureCourse : Step Course := .sequence [meetFault s.handshake, s.note []]

def helloCourse (answer : Answer) : Step Course :=
  .sequence [hear answer (· = 250) fun reply => s.note [reply]]

def upgradeCourse : Step Course := .sequence
  [meetFault (demand s.starttlsOffered), hear s.starttls (· = 220) fun _ => Step.skip,
    s.secureCourse, s.helloCourse s.ehloSecured]

def greetCourse : Step Course := .sequence
  [if s.security = .implicitTls then s.secureCourse else Step.skip,
    hear s.greeting (· = 220) fun _ => s.note [],
    s.helloCourse s.ehlo,
    if s.security = .starttls then s.upgradeCourse else Step.skip]

def authenticateCourse : Step Course := .sequence
  [s.note [], meetAuth ((demand s.mechanismOffered).map .fault),
    meetAuth (s.saslStart.map .fault),
    (meetAuth (s.authExchange 10 0).2).andThen (s.note [])]

def askCourse (index : Nat) : Step Course := fun course =>
  match s.rcpt index with
  | .broken _ cause => halt (.failed (.fault cause)) course
  | .reply reply => s.note [reply] { course with asked := course.asked ++ [reply] }

def askAllCourse : (index count : Nat) → Step Course
  | _, 0 => Step.skip
  | index, count + 1 => (s.askCourse index).andThen (askAllCourse (index + 1) count)

def anyAcceptedCourse : Step Course := fun course =>
  if course.asked.all fun reply => reply.code / 10 ≠ 25 then halt .refused course else .ok course

/-- No recorder can end the conversation once DATA has started. -/
def transmitCourse : Step Course := .sequence
  [anyAcceptedCourse, meet s.beforeData, hear s.data (· = 354) fun _ => Step.skip,
    meetFault s.stream,
    hear s.final (· / 100 = 2) fun reply course =>
      .ok { course with quoted := course.quoted ++ [reply], ending := .accepted reply }]

/-- The course of the conversation. It depends on the texts of no reply. -/
def course (recipients : List Recipient) : Course :=
  (Step.sequence
    [s.prepareCourse recipients, s.dialCourse, s.greetCourse, s.authenticateCourse,
      .sequence [hear s.mailFrom (· = 250) fun _ => s.note []],
      s.askAllCourse 0 recipients.length, s.transmitCourse]).ending {}

end Session

namespace Result

/-- The texts of fields `Response` that are written to the database. -/
def responses (out : Result) : List Bytes :=
  out.response :: out.recipients.map (·.response) ++ out.events.map (·.response)

/-- The texts of fields `Enhanced` that are written to the database. -/
def enhancedCodes (out : Result) : List Bytes := out.enhanced :: out.recipients.map (·.enhanced)

end Result

namespace Session

open Course

theorem safe_nil (s : Session) : s.safe [] = [] := by
  unfold safe safeResponse redactAuth Text.replaceAll
  split <;> rfl

/-- What the recipients of a result say, as far as it matters here. -/
def view (rc : RecipientResult) : Bool × Bytes × Bytes := (rc.pending, rc.enhanced, rc.response)

def replyView (s : Session) (reply : Reply) : Bool × Bytes × Bytes :=
  (reply.pending, enhanced reply.text, s.safe reply.text)

/-- Where a conversation stands: the recipients asked and left, whether it is within AUTH,
and the replies that the next event quotes. -/
structure Place where
  asked : Nat
  left : Nat
  auth : Bool := false
  told : List Reply := []

/-- A run and its course, for a property of texts that the empty text has. -/
structure Shares (s : Session) (holds : Bytes → Prop) (place : Place) (run : Run)
    (course : Course) : Prop where
  response : run.out.response = []
  enhanced : run.out.enhanced = []
  quoted : (∀ event ∈ run.out.events, holds event.response) ↔
    ∀ reply ∈ course.quoted, holds (s.safe reply.text)
  asked : ∀ reply ∈ course.asked, reply ∈ course.quoted ++ place.told
  recipients : run.out.recipients.map view =
    course.asked.map s.replyView ++ List.replicate place.left (true, [], [])
  accepted : run.accepted = 0 ↔ ∀ reply ∈ course.asked, reply.code / 10 ≠ 25
  stage : run.stage = .authError ↔ place.auth = true

/-- The same before DATA, when a recorder is still heard. -/
structure Tracks (s : Session) (holds : Bytes → Prop) (place : Place) (run : Run)
    (course : Course) : Prop extends s.Shares holds place run course where
  count : course.asked.length = place.asked
  events : run.out.events.length = course.events
  unstarted : run.out.dataStartedAt = none

/-- The result holds the texts of the course. -/
structure Tells (s : Session) (holds : Bytes → Prop) (out : Result) (course : Course) :
    Prop where
  responses : (∀ text ∈ out.responses, holds text) ↔
    (∀ reply ∈ course.responses, holds (s.safe reply.text)) ∧
      (course.ending = .unauthenticated → holds redactedAuthResponse)
  codes : (∀ text ∈ out.enhancedCodes, holds text) ↔
    ∀ reply ∈ course.codes, holds (Smtp.enhanced reply.text)

section Steps

variable {s : Session} {holds : Bytes → Prop} {place : Place} {run : Run} {course : Course}

theorem Shares.recipients_iff (shares : s.Shares holds place run course)
    (fact : Bool × Bytes × Bytes → Prop) (unasked : fact (true, [], [])) :
    (∀ rc ∈ run.out.recipients, fact (view rc)) ↔
      ∀ reply ∈ course.asked, fact (s.replyView reply) := by
  have views : (∀ rc ∈ run.out.recipients, fact (view rc)) ↔
      ∀ row ∈ run.out.recipients.map view, fact row := by simp
  rw [views, shares.recipients]
  simp only [List.mem_append, List.mem_map, List.mem_replicate]
  constructor
  · intro all reply member
    exact all _ (.inl ⟨reply, member, rfl⟩)
  · rintro all row (⟨reply, member, rfl⟩ | ⟨-, rfl⟩)
    · exact all reply member
    · exact unasked

theorem forall_responses {out : Result} :
    (∀ text ∈ out.responses, holds text) ↔ holds out.response ∧
      (∀ rc ∈ out.recipients, holds rc.response) ∧ ∀ event ∈ out.events, holds event.response := by
  simp [Result.responses, or_imp, forall_and]

theorem forall_enhancedCodes {out : Result} :
    (∀ text ∈ out.enhancedCodes, holds text) ↔
      holds out.enhanced ∧ ∀ rc ∈ out.recipients, holds rc.enhanced := by
  simp [Result.enhancedCodes]

/-- The texts of a result in which recipients may have inherited those of the session. -/
theorem Shares.tells (shares : s.Shares holds place run course) (empty : holds [])
    (silent : place.told = []) (ending : Ending) {out : Result} (events : out.events = run.out.events)
    (inherits : out.recipients.map (fun rc => (rc.enhanced, rc.response)) =
      run.out.recipients.map fun rc =>
        if (ending.inherited && rc.pending) = true then (out.enhanced, out.response)
        else (rc.enhanced, rc.response))
    (response : holds out.response ↔ (∀ reply ∈ ending.reply, holds (s.safe reply.text)) ∧
      (ending = .unauthenticated → holds redactedAuthResponse))
    (code : holds out.enhanced ↔ ∀ reply ∈ ending.reply, holds (Smtp.enhanced reply.text)) :
    s.Tells holds out { course with ending } := by
  have rows (fact : Bytes × Bytes → Prop) :
      (∀ rc ∈ out.recipients, fact (rc.enhanced, rc.response)) ↔
        ∀ rc ∈ run.out.recipients,
          fact (if (ending.inherited && rc.pending) = true then (out.enhanced, out.response)
            else (rc.enhanced, rc.response)) := by
    have same := congrArg (fun rows => ∀ row ∈ rows, fact row) inherits
    simpa using same
  constructor
  · rw [forall_responses, rows fun row => holds row.2, events, shares.quoted, response]
    simp only [Course.responses, List.mem_append, or_imp, forall_and]
    constructor
    · rintro ⟨⟨told, hidden⟩, -, quoted⟩
      exact ⟨⟨told, quoted⟩, hidden⟩
    · rintro ⟨⟨told, quoted⟩, hidden⟩
      have own := (shares.recipients_iff (fun row => holds row.2.2) empty).mpr
        fun reply member => quoted reply (by simpa [silent] using shares.asked reply member)
      refine ⟨⟨told, hidden⟩, fun rc member => ?_, quoted⟩
      split
      · exact response.mpr ⟨told, hidden⟩
      · exact own rc member
  · rw [forall_enhancedCodes, rows fun row => holds row.1]
    have own := shares.recipients_iff
      (fun row => (ending.inherited && row.1) = false → holds row.2.1) fun _ => empty
    simp only [Course.codes, List.mem_append, or_imp, forall_and, List.mem_filter,
      Bool.not_eq_true', and_imp, code]
    refine and_congr_right fun told => ?_
    have passed := code.mpr told
    refine Iff.trans (forall₂_congr fun rc _ => ?_) own
    by_cases inherited : (ending.inherited && rc.pending) = true
    · simp [view, inherited, passed]
    · simp [view, inherited]

theorem inherit_texts {failure : Failure} {uncertain : Bool} {ending : Ending}
    (inherited : ending.inherited = true) :
    (s.fail failure uncertain run).out.recipients.map (fun rc => (rc.enhanced, rc.response)) =
      run.out.recipients.map fun rc =>
        if (ending.inherited && rc.pending) = true then
          ((s.fail failure uncertain run).out.enhanced, (s.fail failure uncertain run).out.response)
        else (rc.enhanced, rc.response) := by
  simp only [Session.fail, List.map_map]
  refine List.map_congr_left fun rc _ => ?_
  simp only [Function.comp_apply, RecipientResult.inherit, inherited, Bool.true_and]
  split <;> rfl

/-- A failure outside AUTH hands on its own texts. -/
theorem Shares.fail (shares : s.Shares holds place run course) (empty : holds [])
    (told : place.told = []) (outside : place.auth = false) (failure : Failure)
    (uncertain : Bool) :
    s.Tells holds (s.fail failure uncertain run).out { course with ending := .failed failure } := by
  have stage : run.stage ≠ .authError := fun within => by
    rw [shares.stage, outside] at within
    cases within
  have texts : (s.failed failure uncertain run).events = run.out.events ∧
      (holds (s.failed failure uncertain run).response ↔
        ∀ reply ∈ (Ending.failed failure).reply, holds (s.safe reply.text)) ∧
      (holds (s.failed failure uncertain run).enhanced ↔
        ∀ reply ∈ (Ending.failed failure).reply, holds (Smtp.enhanced reply.text)) := by
    cases failure with
    | rejected reply => simp [failed, stage, Ending.reply]
    | fault cause =>
      cases uncertain <;>
        simp [failed, stage, Ending.reply, shares.response, shares.enhanced, empty]
  obtain ⟨events, response, code⟩ := texts
  refine shares.tells empty told _ events ?_ (by simpa [Session.fail] using response) code
  exact inherit_texts rfl

theorem Shares.failAuth (shares : s.Shares holds place run course) (empty : holds [])
    (told : place.told = []) (inside : place.auth = true) {failure : Failure}
    (hidden : ∀ reply, failure = .rejected reply →
      reply.text = ascii "authentication rejected") :
    s.Tells holds (s.fail failure false run).out { course with ending := .unauthenticated } := by
  have stage : run.stage = .authError := shares.stage.mpr inside
  have fixed : Smtp.enhanced (ascii "authentication rejected") = [] := by decide
  have texts : (s.failed failure false run).events = run.out.events ∧
      (s.failed failure false run).response = redactedAuthResponse ∧
      (s.failed failure false run).enhanced = [] := by
    cases failure with
    | rejected reply => simp [failed, stage, hidden reply rfl, fixed]
    | fault cause => simp [failed, stage, shares.enhanced]
  obtain ⟨events, response, code⟩ := texts
  refine shares.tells empty told _ events (inherit_texts rfl) ?_ ?_
  · simp [Session.fail, response, Ending.reply]
  · simp [Session.fail, code, Ending.reply, empty]

end Steps

/-- A refusal of AUTH is reported with a fixed text. -/
theorem authExchange_hides {s : Session} {rounds line : Nat} {reply : Reply}
    (refused : (s.authExchange rounds line).2 = some (.rejected reply)) :
    reply.text = ascii "authentication rejected" := by
  fun_induction authExchange s rounds line with
  | case4 _ _ _ _ _ _ _ _ ih => exact ih refused
  | case2 | case6 =>
    obtain rfl := Failure.rejected.inj (Option.some.inj refused)
    rfl
  | _ => cases refused

/-- The step of the conversation and that of its course go on, or end, together. -/
def Follows (s : Session) (holds : Bytes → Prop) (place next : Place) (step : Step Run)
    (abstract : Step Course) : Prop :=
  Lockstep (s.Tracks holds place) step abstract (s.Tracks holds next)
    fun run course => s.Tells holds run.out course

/-- The same for a step outside AUTH that asks no recipient. -/
abbrev Stays (s : Session) (holds : Bytes → Prop) (asked left : Nat) (step : Step Run)
    (abstract : Step Course) : Prop :=
  s.Follows holds ⟨asked, left, false, []⟩ ⟨asked, left, false, []⟩ step abstract

section Opening

variable {s : Session} {holds : Bytes → Prop} {place : Place} (empty : holds [])

include empty

theorem event_follows (kind : EventKind) (recipient : Option RecipientID) (code : Int)
    (text : Bytes) (same : holds (s.safe text) ↔ ∀ reply ∈ place.told, holds (s.safe reply.text)) :
    s.Follows holds place { place with told := [] } (s.event kind recipient code text)
      (s.note place.told) := by
  intro run course tracks
  unfold event note meet
  simp only [tracks.events]
  have quoted (entry : Event) (recorded : entry.response = s.safe text) :
      (∀ event ∈ run.out.events ++ [entry], holds event.response) ↔
        ∀ reply ∈ course.quoted ++ place.told, holds (s.safe reply.text) := by
    rw [List.forall_mem_append, List.forall_mem_append, tracks.quoted, List.forall_mem_singleton,
      recorded, same]
  cases failing : s.recorder (course.events + 1) with
  | none =>
    exact { tracks with
      quoted := quoted _ rfl
      asked := by simpa using tracks.asked
      events := by simp [tracks.events] }
  | some failure =>
    simp only [tracks.unstarted, if_true]
    refine Shares.fail (?_ : s.Shares holds { place with auth := false, told := [] } _ _) empty rfl
      rfl _ _
    exact { tracks with
      quoted := quoted _ rfl
      asked := by simpa using tracks.asked
      stage := by simp }

theorem silent_follows (kind : EventKind) (recipient : Option RecipientID) (code : Int)
    (told : place.told = []) :
    s.Follows holds place place (s.event kind recipient code []) (s.note []) := by
  have follows : s.Follows holds place { place with told := [] } _ _ :=
    event_follows empty kind recipient code [] (by simp [told, safe_nil, empty])
  obtain ⟨asked, left, auth, _⟩ := place
  cases told
  exact follows

variable {asked left : Nat}

theorem check_follows (outcome : Option Fault) :
    s.Stays holds asked left (s.check outcome) (meetFault outcome) := by
  intro run course tracks
  cases outcome with
  | none => exact tracks
  | some cause => exact tracks.fail empty rfl rfl _ _

theorem checkAuth_follows (outcome : Option Fault) :
    s.Follows holds ⟨asked, left, true, []⟩ ⟨asked, left, true, []⟩ (s.check outcome)
      (meetAuth (outcome.map .fault)) := by
  intro run course tracks
  cases outcome with
  | none => exact tracks
  | some cause => exact tracks.failAuth empty rfl rfl (by simp)

omit empty in
theorem enter_tracks {auth : Bool} (stage : Stage) (run : Run) (course : Course)
    (tracks : s.Tracks holds ⟨asked, left, auth, []⟩ run course) :
    ∃ next, enter stage run = .ok next ∧
      s.Tracks holds ⟨asked, left, decide (stage = .authError), []⟩ next course :=
  ⟨_, rfl, { tracks with stage := by simp }⟩

theorem require_follows (stage : Stage) (other : stage ≠ .authError) (outcome : Option Fault) :
    s.Stays holds asked left (s.require stage outcome) (meetFault outcome) := by
  intro run course tracks
  cases outcome with
  | none => exact tracks
  | some cause =>
    have moved : s.Tracks holds ⟨asked, left, false, []⟩ { run with stage } course :=
      { tracks with stage := by simpa using other }
    exact moved.fail empty rfl rfl _ _

theorem command_follows (command : Command) (expected : Int) (answer : Answer) {next : Reply → Step Run}
    {abstract : Reply → Step Course}
    (continues : ∀ reply, s.Stays holds asked left
      (next reply) (abstract reply)) :
    s.Stays holds asked left
      (s.command command expected answer next) (hear answer (· = expected) abstract) := by
  intro run course tracks
  have exchanged : s.Tracks holds ⟨asked, left, false, []⟩ (exchange command answer run) course :=
    { tracks with }
  unfold Session.command hear
  simp only
  cases answer.expect (· = expected) with
  | ok reply => exact continues reply _ _ exchanged
  | error failure => exact exchanged.fail empty rfl rfl _ _

theorem quoting_follows (kind : EventKind) (recipient : Option RecipientID) (code : Int)
    (reply : Reply) :
    s.Stays holds asked left (s.event kind recipient code reply.text) (s.note [reply]) := by
  intro run course tracks
  have heard : s.Follows holds ⟨asked, left, false, [reply]⟩ ⟨asked, left, false, []⟩ _ _ :=
    event_follows empty kind recipient code reply.text (by simp)
  refine heard run course { tracks with asked := fun other member => ?_ }
  simpa using .inl (by simpa using tracks.asked other member)

theorem hello_follows (answer : Answer) :
    s.Stays holds asked left (s.hello answer) (s.helloCourse answer) := by
  unfold hello helloCourse
  exact .alone (enter_tracks .ehloError)
    (.cons (command_follows empty _ _ answer fun reply => quoting_follows empty _ _ _ reply) .nil)

theorem secure_follows : s.Stays holds asked left s.secure s.secureCourse := by
  unfold secure secureCourse
  exact .alone (enter_tracks .tlsError)
    (.cons (check_follows empty _) (.cons (silent_follows empty _ _ _ rfl) .nil))

theorem prepare_follows (recipients : List Recipient) :
    s.Stays holds asked left (s.prepare recipients) (s.prepareCourse recipients) := by
  unfold prepare prepareCourse
  exact .cons (require_follows empty _ (by decide) _) (.cons (require_follows empty _ (by decide) _)
    (.cons (require_follows empty _ (by decide) _) (.cons (require_follows empty _ (by decide) _)
      .nil)))

theorem dial_follows : s.Stays holds asked left s.dial s.dialCourse := by
  unfold dial dialCourse
  exact .alone (enter_tracks .dnsError) (.cons (silent_follows empty _ _ _ rfl)
    (.cons (check_follows empty _) (.cons (silent_follows empty _ _ _ rfl)
      (.alone (enter_tracks .connectError) (.cons (check_follows empty _)
        (.cons (silent_follows empty _ _ _ rfl) .nil))))))

theorem readGreeting_follows :
    s.Stays holds asked left s.readGreeting (hear s.greeting (· = 220) fun _ => s.note []) := by
  intro run course tracks
  unfold readGreeting hear
  cases s.greeting.expect (· = 220) with
  | ok reply => exact silent_follows empty _ _ _ rfl run course tracks
  | error failure => exact tracks.fail empty rfl rfl _ _

theorem greet_follows : s.Stays holds asked left s.greet s.greetCourse := by
  have secured : s.Stays holds asked left
      (if s.security = .implicitTls then s.secure else Step.skip)
      (if s.security = .implicitTls then s.secureCourse else Step.skip) := by
    split
    · exact secure_follows empty
    · exact .skip
  have upgraded : s.Stays holds asked left
      (if s.security = .starttls then s.upgrade else Step.skip)
      (if s.security = .starttls then s.upgradeCourse else Step.skip) := by
    split
    · unfold upgrade upgradeCourse
      exact .alone (enter_tracks .tlsError) (.cons (check_follows empty _)
        (.alone (enter_tracks .starttlsError) (.cons (command_follows empty _ _ _ fun _ => .skip)
          (.cons (secure_follows empty) (.cons (hello_follows empty _) .nil)))))
    · exact .skip
  unfold greet greetCourse
  exact .cons secured (.alone (enter_tracks .smtpGreetingError) (.cons (readGreeting_follows empty)
    (.cons (hello_follows empty _) (.cons upgraded .nil))))

theorem authLines_follows :
    s.Follows holds ⟨asked, left, true, []⟩ ⟨asked, left, true, []⟩ s.authLines
      ((meetAuth (s.authExchange 10 0).2).andThen (s.note [])) := by
  intro run course tracks
  have exchanged : s.Tracks holds ⟨asked, left, true, []⟩
      { run with transcript := run.transcript ++ (s.authExchange 10 0).1 } course :=
    { tracks with }
  unfold authLines Step.andThen meetAuth
  dsimp only
  cases outcome : (s.authExchange 10 0).2 with
  | none => exact silent_follows empty _ _ _ rfl _ _ exchanged
  | some failure =>
    refine exchanged.failAuth empty rfl rfl ?_
    rintro reply rfl
    exact authExchange_hides outcome

theorem authenticate_follows :
    s.Follows holds ⟨asked, left, false, []⟩ ⟨asked, left, true, []⟩ s.authenticate
      s.authenticateCourse := by
  unfold authenticate authenticateCourse
  exact .cons (silent_follows empty _ _ _ rfl) (.alone (enter_tracks .authError)
    (.cons (checkAuth_follows empty _) (.cons (checkAuth_follows empty _)
      (.cons (authLines_follows empty) .nil))))

theorem mail_follows :
    s.Follows holds ⟨asked, left, true, []⟩ ⟨asked, left, false, []⟩ s.mail
      (.sequence [hear s.mailFrom (· = 250) fun _ => s.note []]) := by
  unfold mail
  exact .alone (enter_tracks .mailFromRejected)
    (.cons (command_follows empty _ _ _ fun _ => silent_follows empty _ _ _ rfl) .nil)

end Opening

section Asking

variable {s : Session} {holds : Bytes → Prop} {left : Nat} {run : Run} {course : Course}

/-- The answer to RCPT is kept in the place of the recipient. -/
theorem Tracks.settle {index : Nat} {reply : Reply} {result : RecipientResult} {accepted : Nat}
    (tracks : s.Tracks holds ⟨index, left + 1, false, []⟩ run course)
    (seen : view result = s.replyView reply)
    (counted : accepted = 0 ↔ run.accepted = 0 ∧ reply.code / 10 ≠ 25) :
    s.Tracks holds ⟨index + 1, left, false, [reply]⟩
      { run with
        accepted, out := { run.out with recipients := run.out.recipients.set index result } }
      { course with asked := course.asked ++ [reply] } := by
  have place : index = (course.asked.map s.replyView).length := by simp [tracks.count]
  have unasked : ∀ reply ∈ course.asked, reply ∈ course.quoted := by simpa using tracks.asked
  exact { tracks with
    asked := fun other member => by
      rcases List.mem_append.mp member with known | new
      · exact List.mem_append_left _ (unasked other known)
      · exact List.mem_append_right _ new
    recipients := by
      rw [List.map_set, tracks.recipients, seen, place, List.set_append_right _ _ le_rfl]
      simp [List.replicate_succ]
    accepted := by
      rw [counted, tracks.accepted]
      simp [or_imp, forall_and]
    count := by simp [tracks.count] }

theorem rcptTo_follows (empty : holds []) (index : Nat) (recipient : Recipient) :
    s.Follows holds ⟨index, left + 1, false, []⟩ ⟨index + 1, left, false, []⟩
      (s.rcptTo index recipient) (s.askCourse index) := by
  intro run course tracks
  have moved : s.Tracks holds ⟨index, left + 1, false, []⟩
      (exchange (.rcpt index) (s.rcpt index) { run with stage := .rcptRejected }) course :=
    { tracks with stage := by simp [exchange] }
  unfold rcptTo askCourse
  dsimp only
  cases answer : s.rcpt index with
  | broken code cause =>
    rw [answer] at moved
    exact moved.fail empty rfl rfl _ _
  | reply reply =>
    rw [answer] at moved
    have heard (kind : EventKind) : s.Follows holds ⟨index + 1, left, false, [reply]⟩
        ⟨index + 1, left, false, []⟩ _ _ :=
      event_follows empty kind (some recipient.id) reply.code reply.text (by simp)
    by_cases positive : reply.code / 10 = 25
    · simp only [positive, if_true]
      refine heard .rcptAccepted _ _ (moved.settle ?_ ?_)
      · simp [view, rcptResult, replyView, RecipientResult.pending, Reply.pending, positive]
      · simp [positive]
    · simp only [positive, if_false]
      refine heard .rcptRejected _ _ (moved.settle ?_ ?_)
      · by_cases zero : reply.code = 0
        · simp [view, rcptResult, replyView, RecipientResult.pending, Reply.pending, zero]
        · split <;> simp [view, rcptResult, replyView, RecipientResult.pending, Reply.pending,
            positive, zero]
      · simp [positive]

theorem rcptAll_follows (empty : holds []) (index : Nat) (recipients : List Recipient) :
    s.Follows holds ⟨index, recipients.length, false, []⟩
      ⟨index + recipients.length, 0, false, []⟩ (s.rcptAll index recipients)
      (s.askAllCourse index recipients.length) := by
  induction recipients generalizing index with
  | nil => exact .skip
  | cons recipient rest ih =>
    have next := ih (index + 1)
    rw [Nat.add_right_comm] at next
    exact .andThen (rcptTo_follows empty index recipient) next

end Asking

section Sending

variable {s : Session} {holds : Bytes → Prop} {asked : Nat} {run : Run} {course : Course}

/-- Once DATA has started no recorder is heard. -/
def Late (s : Session) (holds : Bytes → Prop) (asked : Nat) (run : Run) (course : Course) : Prop :=
  s.Shares holds ⟨asked, 0, false, []⟩ run course ∧ run.out.dataStartedAt ≠ none

theorem event_late (started : run.out.dataStartedAt ≠ none) (kind : EventKind)
    (recipient : Option RecipientID) (code : Int) (text : Bytes) :
    s.event kind recipient code text run =
      .ok { run with
        out := { run.out with
          events := run.out.events ++
            [⟨run.out.events.length + 1, kind, recipient, code, s.safe text⟩]
          recorderError :=
            run.out.recorderError || (s.recorder (run.out.events.length + 1)).isSome } } := by
  unfold event
  dsimp only
  split
  next silent => simp [silent]
  next failure failing => simp [started, failing]

theorem silent_late (empty : holds []) (late : s.Late holds asked run course) (kind : EventKind)
    (recipient : Option RecipientID) (code : Int) :
    ∃ next, s.event kind recipient code [] run = .ok next ∧ s.Late holds asked next course := by
  obtain ⟨shares, started⟩ := late
  refine ⟨_, event_late started kind recipient code [], { shares with quoted := ?_ }, started⟩
  rw [List.forall_mem_append, List.forall_mem_singleton, safe_nil]
  exact ⟨fun both => shares.quoted.mp both.1, fun all => ⟨shares.quoted.mpr all, empty⟩⟩

section Steps

variable (empty : holds [])

include empty

theorem anyAccepted_follows : s.Stays holds asked 0 anyAccepted anyAcceptedCourse := by
  intro run course tracks
  unfold anyAccepted anyAcceptedCourse
  have same : run.accepted = 0 ↔
      (course.asked.all fun reply => reply.code / 10 ≠ 25) = true := by
    simpa using tracks.accepted
  by_cases none : run.accepted = 0
  · rw [if_pos none, if_pos (same.mp none)]
    refine tracks.tells empty rfl .refused rfl ?_ ?_ ?_
    · simp [Ending.inherited]
    · simp [Ending.reply, tracks.response, empty]
    · simp [Ending.reply, tracks.enhanced, empty]
  · rw [if_neg none, if_neg fun all => none (same.mpr all)]
    exact tracks

theorem authorize_follows : s.Stays holds asked 0 s.authorize (meet s.beforeData) := by
  intro run course tracks
  unfold authorize meet
  cases s.beforeData with
  | none => exact { tracks with }
  | some failure =>
    have stage : run.stage ≠ .authError := by simpa using tracks.stage
    refine Shares.fail (?_ : s.Shares holds ⟨asked, 0, false, []⟩ _ _) empty rfl rfl _ _
    refine { tracks with stage := ?_ }
    split
    · simp
    split
    · simp
    · simp [stage]

theorem startData_follows :
    Lockstep (s.Tracks holds ⟨asked, 0, false, []⟩) s.startData
      (hear s.data (· = 354) fun _ => Step.skip) (s.Late holds asked)
      fun run course => s.Tells holds run.out course := by
  intro run course tracks
  have exchanged : s.Tracks holds ⟨asked, 0, false, []⟩ (exchange .data s.data run) course :=
    { tracks with }
  unfold startData Session.command hear
  dsimp only
  cases s.data.expect (· = 354) with
  | error failure => exact exchanged.fail empty rfl rfl _ _
  | ok reply =>
    have late : s.Late holds asked
        { exchange .data s.data run with
          out := { (exchange .data s.data run).out with dataStartedAt := some s.dataStartedAt } }
        course := ⟨{ exchanged with }, by simp⟩
    obtain ⟨next, ran, late⟩ := silent_late empty late .dataStarted none 354
    simp only [ran]
    exact late

theorem writeBody_follows :
    Lockstep (s.Late holds asked) s.writeBody (meetFault s.stream) (s.Late holds asked)
      fun run course => s.Tells holds run.out course := by
  rintro run course ⟨shares, started⟩
  unfold writeBody meetFault
  dsimp only
  cases s.stream with
  | some cause =>
    refine Shares.fail (?_ : s.Shares holds ⟨asked, 0, false, []⟩ _ _) empty rfl rfl _ _
    exact { shares with stage := by simp }
  | none =>
    dsimp only
    have late : s.Late holds asked
        { run with
          stage := .dataWriteError, transcript := run.transcript ++ [.wrote .body]
          out := { run.out with
            bytesSent := s.streamed, dataCompletedAt := some s.dataCompletedAt } }
        course := ⟨{ shares with stage := by simp }, started⟩
    obtain ⟨next, ran, late⟩ := silent_late empty late .dataCompleted none 0
    simp only [ran]
    exact late

def Answered (s : Session) (holds : Bytes → Prop) (run : Run) (course : Course) : Prop :=
  s.Tells holds run.out course ∧ run.out.dataStartedAt ≠ none

omit empty in
theorem accept_texts (rows : List RecipientResult) :
    (rows.map RecipientResult.accept).map (fun rc => (rc.enhanced, rc.response)) =
      rows.map fun rc => (rc.enhanced, rc.response) := by
  rw [List.map_map]
  refine List.map_congr_left fun rc _ => ?_
  simp only [Function.comp_apply, RecipientResult.accept]
  split <;> rfl

theorem readFinal_follows :
    Lockstep (s.Late holds asked) s.readFinal
      (hear s.final (· / 100 = 2) fun reply course =>
        .ok { course with quoted := course.quoted ++ [reply], ending := .accepted reply })
      (s.Answered holds) fun run course => s.Tells holds run.out course := by
  rintro run course ⟨shares, started⟩
  unfold readFinal hear
  dsimp only
  cases s.final.expect (· / 100 = 2) with
  | error failure =>
    refine Shares.fail (?_ : s.Shares holds ⟨asked, 0, false, []⟩ _ _) empty rfl rfl _ _
    exact { shares with stage := by simp }
  | ok reply =>
    dsimp only
    rw [event_late (by exact started)]
    refine ⟨?_, started⟩
    have heard (entry : Event) (text : entry.response = s.safe reply.text) :
        s.Shares holds ⟨asked, 0, false, []⟩
          { run with out := { run.out with events := run.out.events ++ [entry] } }
          { course with quoted := course.quoted ++ [reply] } :=
      { shares with
        quoted := by
          rw [List.forall_mem_append, List.forall_mem_append, shares.quoted,
            List.forall_mem_singleton, List.forall_mem_singleton, text]
        asked := fun other member => by
          simpa using .inl (by simpa using shares.asked other member) }
    refine (heard _ rfl).tells empty rfl (.accepted reply) rfl ?_ ?_ ?_
    · simpa [Ending.inherited, acceptAll] using accept_texts run.out.recipients
    · simp [Ending.reply, acceptAll]
    · simp [Ending.reply, acceptAll]

theorem quit_follows (run : Run) (course : Course) (answered : s.Answered holds run course) :
    ∃ next, s.quit run = .ok next ∧ s.Tells holds next.out course := by
  obtain ⟨tells, started⟩ := answered
  unfold quit
  dsimp only
  split
  · refine ⟨_, event_late (by exact started) .quitSent none 0 [], ⟨?_, tells.codes⟩⟩
    rw [← tells.responses, forall_responses, forall_responses]
    simp only [List.forall_mem_append, List.forall_mem_singleton, safe_nil, empty, and_true]
  · exact ⟨_, rfl, ⟨tells.responses, tells.codes⟩⟩

theorem transmit_follows :
    Lockstep (s.Tracks holds ⟨asked, 0, false, []⟩) s.transmit s.transmitCourse
      (fun run course => s.Tells holds run.out course)
      fun run course => s.Tells holds run.out course := by
  unfold transmit transmitCourse
  exact .cons (anyAccepted_follows empty) (.alone (enter_tracks .databaseError)
    (.cons (authorize_follows empty) (.alone (enter_tracks .dataRejected)
      (.cons (startData_follows empty) (.cons (writeBody_follows empty)
        (.cons (readFinal_follows empty) (.alone (quit_follows empty) .nil)))))))

end Steps

/-- What the result of a conversation says is what the replies of its course say. -/
theorem send_texts (s : Session) (recipients : List Recipient) (empty : holds []) :
    s.Tells holds (s.send recipients) (s.course recipients) := by
  have start : s.Tracks holds ⟨0, recipients.length, false, []⟩ (s.initialRun recipients) {} := by
    constructor
    case toShares =>
      constructor <;> simp [initialRun, Function.comp_def, view, RecipientResult.pending]
    all_goals simp [initialRun]
  have follows : Lockstep (s.Tracks holds ⟨0, recipients.length, false, []⟩)
      (s.conversation recipients)
      (Step.sequence
        [s.prepareCourse recipients, s.dialCourse, s.greetCourse, s.authenticateCourse,
          .sequence [hear s.mailFrom (· = 250) fun _ => s.note []],
          s.askAllCourse 0 recipients.length, s.transmitCourse])
      (fun run course => s.Tells holds run.out course)
      fun run course => s.Tells holds run.out course :=
    .cons (prepare_follows empty recipients) (.cons (dial_follows empty)
      (.cons (greet_follows empty) (.cons (authenticate_follows empty) (.cons (mail_follows empty)
        (.cons (rcptAll_follows empty 0 recipients) (.cons (transmit_follows empty) .nil))))))
  have tells := follows.ending (fun _ _ tells => tells) (fun _ _ tells => tells) start
  exact ⟨tells.responses, tells.codes⟩

end Sending

end Session

end RelayTale.Smtp
