import RelayTale.Smtp.Client

/-!
# Running through a conversation

Until the last recipient has been asked, a conversation reads replies, records
events and may fail, and does little else. An assertion that survives each of
these holds all the way. It may depend on how many recipients have been asked.
Credentials and envelope are kept back until the server may see them.
-/

namespace RelayTale.Smtp

open EarlyReturn

/-- Commands before the envelope's recipients. -/
def Command.preliminary : Command → Bool
  | .ehlo | .starttls | .auth | .mailFrom => true
  | _ => false

/-- The command an entry of the transcript belongs to; the fence belongs to none. -/
def Act.about : Act → Option Command
  | .wrote command | .answered command _ => some command
  | .fenced _ => none

def Act.inert : Act → Bool
  | .wrote command => decide (command ≠ .data ∧ command ≠ .body)
  | .answered command _ => command.preliminary
  | .fenced _ => false

theorem Act.inert_of_about {command : Command} (preliminary : command.preliminary = true)
    (act : Act) (about : act.about = some command) : act.inert = true := by
  cases act with
  | fenced passed => cases about
  | wrote other =>
    cases about
    cases command <;> first | rfl | cases preliminary
  | answered other code =>
    cases about
    exact preliminary

namespace Session

variable {s : Session} {failure : Failure}

theorem authExchange_about (s : Session) (rounds line : Nat) :
    ∀ act ∈ (s.authExchange rounds line).1, act.about = some .auth := by
  have here (code : Int) :
      ∀ act ∈ [Act.wrote .auth, .answered .auth code], act.about = some .auth := by
    simp [Act.about]
  fun_induction authExchange s rounds line with
  | case1 => simp [Act.about]
  | case4 _ _ _ _ _ _ _ _ ih => exact List.forall_mem_append.mpr ⟨here _, ih⟩
  | _ => exact here _

def asked (s : Session) (index : Nat) (recipient : Recipient) (reply : Reply) (run : Run) : Run :=
  let result :=
    if reply.code / 10 = 25 then s.rcptResult recipient reply .rcptAccepted .rcptAccepted
    else s.rcptResult recipient reply (if 500 ≤ reply.code then .permanent else .temporary)
      .rcptRejected
  { exchange (.rcpt index) (.reply reply) { run with stage := .rcptRejected } with
    accepted := if reply.code / 10 = 25 then run.accepted + 1 else run.accepted
    out := { run.out with recipients := run.out.recipients.set index result } }

/-- What an assertion has to survive if the entries of the transcript are `allowed`. The
conversation may be left with `exit` on the way. -/
structure Survives (s : Session) (allowed : Act → Prop) (before exit : Run → Prop) : Prop where
  enter : ∀ {run} (stage : Stage), before run → before { run with stage }
  extend : ∀ {run} {lines : List Act}, before run → (∀ act ∈ lines, allowed act) →
    before { run with transcript := run.transcript ++ lines }
  event : ∀ kind recipient code text, Triple before (s.event kind recipient code text) before exit
  fail : ∀ {run} failure, before run → exit (s.fail failure false run)

namespace Survives

variable {allowed : Act → Prop} {before exit : Run → Prop}
  (survives : s.Survives allowed before exit)

include survives

theorem stage (stage : Stage) : Triple before (Session.enter stage) before exit :=
  fun _ holds => survives.enter stage holds

omit survives in
theorem skip : Triple before Step.skip before exit :=
  Triple.skip fun _ holds => holds

theorem check (outcome : Option Fault) : Triple before (s.check outcome) before exit := by
  intro run holds
  cases outcome with
  | none => exact holds
  | some cause => exact survives.fail _ holds

theorem require (stage : Stage) (outcome : Option Fault) :
    Triple before (s.require stage outcome) before exit := by
  intro run holds
  cases outcome with
  | none => exact holds
  | some cause => exact survives.fail _ (survives.enter stage holds)

theorem command {asked : Command} {expected : Int} {answer : Answer} {next : Reply → Step Run}
    (admits : ∀ act : Act, act.about = some asked → allowed act)
    (continues : ∀ reply, Triple before (next reply) before exit) :
    Triple before (s.command asked expected answer next) before exit := by
  intro run holds
  have exchanged : before (exchange asked answer run) := by
    apply survives.extend holds
    cases answer with
    | reply reply =>
      exact List.forall_mem_cons.mpr
        ⟨admits _ rfl, List.forall_mem_singleton.mpr (admits _ rfl)⟩
    | broken code cause => exact List.forall_mem_singleton.mpr (admits _ rfl)
  unfold Session.command
  simp only
  cases outcome : answer.expect (· = expected) with
  | ok reply => exact continues reply _ exchanged
  | error failure => exact survives.fail failure exchanged

theorem readGreeting : Triple before s.readGreeting before exit := by
  intro run holds
  unfold Session.readGreeting
  cases outcome : s.greeting.expect (· = 220) with
  | ok reply => exact survives.event _ _ _ _ run holds
  | error failure => exact survives.fail failure holds

theorem prepare (recipients : List Recipient) :
    Triple before (s.prepare recipients) before exit :=
  .sequence ⟨survives.require _ _, survives.require _ _, survives.require _ _, survives.require _ _⟩

theorem dial : Triple before s.dial before exit :=
  .sequence ⟨survives.stage _, survives.event _ _ _ _, survives.check _, survives.event _ _ _ _,
    survives.stage _, survives.check _, survives.event _ _ _ _⟩

theorem secure : Triple before s.secure before exit :=
  .sequence ⟨survives.stage _, survives.check _, survives.event _ _ _ _⟩

section Hello

variable (ehlo : ∀ act : Act, act.about = some .ehlo → allowed act)

include ehlo

theorem hello {answer : Answer} : Triple before (s.hello answer) before exit :=
  .sequence ⟨survives.stage _, survives.command ehlo fun _ => survives.event _ _ _ _⟩

theorem greet (starttls : ∀ act : Act, act.about = some .starttls → allowed act) :
    Triple before s.greet before exit := by
  have upgrade : Triple before s.upgrade before exit :=
    .sequence ⟨survives.stage _, survives.check _, survives.stage _,
      survives.command starttls fun _ => skip, survives.secure, survives.hello ehlo⟩
  refine .sequence ⟨?_, survives.stage _, survives.readGreeting, survives.hello ehlo, ?_⟩
  · split
    · exact survives.secure
    · exact skip
  · change Triple before _ before exit
    split
    · exact upgrade
    · exact skip

end Hello

theorem authenticate (auth : ∀ act : Act, act.about = some .auth → allowed act) :
    Triple before s.authenticate before exit := by
  have lines : Triple before s.authLines before exit := by
    intro run holds
    have extended := survives.extend holds fun act member =>
      auth act (s.authExchange_about 10 0 act member)
    unfold authLines
    simp only
    cases outcome : (s.authExchange 10 0).2 with
    | none => exact survives.event _ _ _ _ _ extended
    | some failure => exact survives.fail failure extended
  exact .sequence ⟨survives.event _ _ _ _, survives.stage _, survives.check _, survives.check _, lines⟩

theorem mail (mailFrom : ∀ act : Act, act.about = some .mailFrom → allowed act) :
    Triple before s.mail before exit :=
  .sequence ⟨survives.stage _, survives.command mailFrom fun _ => survives.event _ _ _ _⟩

end Survives

/-- What an assertion has to survive until all recipients have been asked. -/
structure Carries (s : Session) (recipients : List Recipient) (before : Nat → Run → Prop)
    (exit : Run → Prop) : Prop where
  survives : ∀ count, s.Survives (·.inert = true) (before count) exit
  settle : ∀ {count run recipient reply}, recipients[count]? = some recipient →
    s.rcpt count = .reply reply → before count run →
      before (count + 1) (s.asked count recipient reply run)

namespace Carries

variable {recipients : List Recipient} {before : Nat → Run → Prop} {exit : Run → Prop}
  {count : Nat} (carries : s.Carries recipients before exit)

include carries

theorem rcptTo {recipient : Recipient} (addressed : recipients[count]? = some recipient) :
    Triple (before count) (s.rcptTo count recipient) (before (count + 1)) exit := by
  intro run holds
  unfold Session.rcptTo
  cases answer : s.rcpt count with
  | broken code cause =>
    have survives := carries.survives count
    exact survives.fail _ (survives.extend (survives.enter _ holds) (by simp [Act.inert]))
  | reply reply =>
    have settled := carries.settle addressed answer holds
    unfold asked at settled
    by_cases matched : reply.code / 10 = 25
    · simp only [matched, if_true] at settled ⊢
      exact (carries.survives _).event _ _ _ _ _ settled
    · simp only [matched, if_false] at settled ⊢
      exact (carries.survives _).event _ _ _ _ _ settled

theorem rcptAll {rest : List Recipient} (left : recipients.drop count = rest) :
    Triple (before count) (s.rcptAll count rest) (before (count + rest.length)) exit := by
  induction rest generalizing count with
  | nil => exact Survives.skip
  | cons recipient rest ih =>
    have addressed : recipients[count]? = some recipient := by
      rw [← List.head?_drop, left, List.head?_cons]
    have later : recipients.drop (count + 1) = rest := by
      rw [← List.tail_drop, left, List.tail_cons]
    have loop := ih later
    rw [Nat.add_right_comm] at loop
    exact (carries.rcptTo addressed).andThen loop

/-- What holds at the start is carried to the first command after the recipients. -/
theorem conversation {post : Run → Prop}
    (transmits : Triple (before recipients.length) s.transmit post exit) :
    Triple (before 0) (s.conversation recipients) post exit := by
  have survives := carries.survives 0
  have addressed : Triple (before 0) (s.rcptAll 0 recipients)
      (before (0 + recipients.length)) exit := carries.rcptAll List.drop_zero
  rw [Nat.zero_add] at addressed
  refine (survives.prepare recipients).andThen (survives.dial.andThen
    ((survives.greet (Act.inert_of_about rfl) (Act.inert_of_about rfl)).andThen ?_))
  refine (survives.authenticate (Act.inert_of_about rfl)).andThen
    ((survives.mail (Act.inert_of_about rfl)).andThen ?_)
  exact addressed.andThen (transmits.andThen (Triple.skip fun _ holds => holds))

end Carries

section Secrecy

open Step hiding sequence

/-- The handshake succeeded, and STARTTLS was offered and answered where it is used. -/
structure Secured (s : Session) : Prop where
  handshake : s.handshake = none
  agreed : s.security = .implicitTls ∨ s.security = .starttls ∧ s.starttlsOffered = true ∧
    ∃ text, s.starttls = .reply ⟨220, text⟩

/-- A mechanism was offered and the AUTH exchange ended with 235. -/
structure Authenticated (s : Session) : Prop where
  mechanism : s.mechanismOffered = true
  exchange : (s.authExchange 10 0).2 = none

variable {run next : Run}

theorem check_eq_ok {outcome : Option Fault} :
    s.check outcome run = .ok next ↔ outcome = none ∧ run = next := by
  cases outcome <;> simp [check]

theorem demand_eq_none {holds : Bool} : demand holds = none ↔ holds = true := by
  cases holds <;> simp [demand]

theorem command_ok {asked : Command} {expected : Int} {answer : Answer} {rest : Reply → Step Run}
    (ran : s.command asked expected answer rest run = .ok next) :
    ∃ text, answer = .reply ⟨expected, text⟩ := by
  cases answer with
  | broken code cause => cases ran
  | reply reply =>
    by_cases same : reply.code = expected
    · exact ⟨reply.text, by rw [← same]⟩
    · simp [command, Answer.expect, same] at ran

theorem secured_of_greet (encrypted : s.security ≠ .plain) (greeted : s.greet run = .ok next) :
    s.Secured := by
  cases mode : s.security with
  | plain => exact absurd mode encrypted
  | implicitTls =>
    simp only [greet, secure, mode, if_true, Step.sequence, andThen_eq_ok, check_eq_ok] at greeted
    obtain ⟨_, ⟨_, -, _, ⟨shaken, -⟩, -⟩, -⟩ := greeted
    exact ⟨shaken, .inl mode⟩
  | starttls =>
    simp only [greet, upgrade, secure, mode, if_true, Step.sequence, andThen_eq_ok, check_eq_ok,
      demand_eq_none] at greeted
    obtain ⟨_, -, _, -, _, -, _, -, _, ⟨_, -, _, ⟨offered, -⟩, _, -, _, answered, _,
      ⟨_, -, _, ⟨shaken, -⟩, -⟩, -⟩, -⟩ := greeted
    exact ⟨shaken, .inr ⟨mode, offered, command_ok answered⟩⟩

theorem authenticated_of_authenticate (ran : s.authenticate run = .ok next) :
    s.Authenticated := by
  simp only [authenticate, Step.sequence, andThen_eq_ok, check_eq_ok, demand_eq_none] at ran
  obtain ⟨_, -, _, -, _, ⟨offered, -⟩, _, -, _, exchanged, -⟩ := ran
  refine ⟨offered, ?_⟩
  cases outcome : (s.authExchange 10 0).2 with
  | none => rfl
  | some failure => simp [authLines, outcome] at exchanged

/-- Unless the connection is encrypted the conversation is over before AUTH. -/
theorem conversation_unsecured (unsecured : ¬s.Secured) (recipients : List Recipient) :
    s.conversation recipients run =
      Step.sequence [s.prepare recipients, s.dial, s.greet] run := by
  refine .symm (sequence_append (fun last ran => unsecured ?_) _)
  simp only [Step.sequence, andThen_eq_ok] at ran
  obtain ⟨_, prepared, _, -, _, greeted, -⟩ := ran
  refine secured_of_greet (fun plain => ?_) greeted
  simp [prepare, Step.sequence, andThen, require, demand, plain] at prepared

/-- Unless AUTH has succeeded the conversation is over before MAIL FROM. -/
theorem conversation_unauthenticated (unknown : ¬s.Authenticated) (recipients : List Recipient) :
    s.conversation recipients run =
      Step.sequence [s.prepare recipients, s.dial, s.greet, s.authenticate] run := by
  refine .symm (sequence_append (fun last ran => unknown ?_) _)
  simp only [Step.sequence, andThen_eq_ok] at ran
  obtain ⟨_, -, _, -, _, -, _, authenticated, -⟩ := ran
  exact authenticated_of_authenticate authenticated

def Confined (allowed : Act → Prop) (run : Run) : Prop := ∀ act ∈ run.transcript, allowed act

theorem survives_confined (s : Session) (allowed : Act → Prop) :
    s.Survives allowed (Confined allowed) (Confined allowed) where
  enter _ confined := confined
  extend confined more := List.forall_mem_append.mpr ⟨confined, more⟩
  event kind recipient code text := by
    intro run confined
    unfold event
    simp only
    cases s.recorder (run.out.events.length + 1) with
    | none => exact confined
    | some failure =>
      by_cases unstarted : run.out.dataStartedAt = none
      · simp only [if_pos unstarted]
        exact confined
      · simp only [if_neg unstarted]
        exact confined
  fail _ confined := confined

/-- Nothing but EHLO and STARTTLS is said before the connection is encrypted, and nothing but
these and AUTH before AUTH has succeeded: no envelope, no DATA, no body, and no fence is asked. -/
theorem credentials_only_over_tls (s : Session) (recipients : List Recipient) :
    (¬s.Secured → ∀ act ∈ (s.finalRun recipients).transcript,
      act.about ∈ [some .ehlo, some .starttls]) ∧
    (¬s.Authenticated → ∀ act ∈ (s.finalRun recipients).transcript,
      act.about ∈ [some .ehlo, some .starttls, some .auth]) := by
  have empty (allowed : Act → Prop) : Confined allowed (s.initialRun recipients) :=
    fun act absent => absurd absent List.not_mem_nil
  constructor
  · intro unsecured
    have survives := s.survives_confined fun act => act.about ∈ [some .ehlo, some .starttls]
    have confined := (survives.prepare recipients).andThen (survives.dial.andThen
      ((survives.greet (by simp +contextual) (by simp +contextual)).andThen Survives.skip))
    unfold finalRun Step.ending
    rw [conversation_unsecured unsecured]
    exact confined.ending (fun _ holds => holds) (fun _ holds => holds) (empty _)
  · intro unknown
    have survives := s.survives_confined fun act =>
      act.about ∈ [some .ehlo, some .starttls, some .auth]
    have confined := (survives.prepare recipients).andThen (survives.dial.andThen
      ((survives.greet (by simp +contextual) (by simp +contextual)).andThen
        ((survives.authenticate (by simp +contextual)).andThen Survives.skip)))
    unfold finalRun Step.ending
    rw [conversation_unauthenticated unknown]
    exact confined.ending (fun _ holds => holds) (fun _ holds => holds) (empty _)

end Secrecy

end Session

end RelayTale.Smtp
