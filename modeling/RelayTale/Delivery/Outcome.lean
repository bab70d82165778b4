import RelayTale.Delivery.Decision
import RelayTale.Smtp.Soundness

/-!
# From a conversation to a decision

`evidence` is what the queue hands to the policy for one recipient of a
finished conversation. The results here follow a recipient from the replies in
the transcript to the status reported for it and to the action decided on.
-/

namespace RelayTale.Delivery

open Smtp

/-- The evidence that `decideRecipient` builds from the result of `Send`. -/
def evidence (out : Result) (rc : RecipientResult) : Evidence where
  stage := rc.stage
  errorClass := out.errorClass
  status := rc.status
  code := rc.code
  finalCode := out.code
  finalResponse := out.finalResponseAt.isSome
  bodyStarted := out.dataStartedAt.isSome

section Rows

variable (s : Session) (recipients : List Recipient)

def transcript : List Act := (s.finalRun recipients).transcript

/-- The reply to RCPT number `index` was 25x. -/
def RcptAccepted (index : Nat) : Prop :=
  ∃ code, replyTo (.rcpt index) (transcript s recipients) = some code ∧ code / 10 = 25

def FinalReply (least greatest : Int) : Prop :=
  ∃ code, replyTo .body (transcript s recipients) = some code ∧ least ≤ code ∧ code ≤ greatest

variable {s recipients} {index : Nat} {rc : RecipientResult}

inductive Concludes (last : Int) : Status → Prop
  | accepted (least : 200 ≤ last) (greatest : last ≤ 299) : Concludes last .accepted
  | temporary (least : 400 ≤ last) (greatest : last ≤ 499) : Concludes last .temporary
  | permanent (least : 500 ≤ last) (greatest : last ≤ 599) : Concludes last .permanent
  | unknown (noAcceptance : ¬ (200 ≤ last ∧ last ≤ 299))
      (noRejection : ¬ (400 ≤ last ∧ last ≤ 599)) : Concludes last .unknown

theorem conclusion_concludes (last : Int) : Concludes last (conclusion (some last)) := by
  unfold conclusion
  simp only
  split
  · exact .accepted (by omega) (by omega)
  split
  · exact .permanent (by omega) (by omega)
  split
  · exact .temporary (by omega) (by omega)
  exact .unknown (by omega) (by omega)

theorem conclusion_eq_accepted {final : Option Int} :
    conclusion final = .accepted ↔ ∃ code, final = some code ∧ 200 ≤ code ∧ code ≤ 299 := by
  cases final with
  | none => simp [conclusion]
  | some code =>
    simp only [conclusion, Option.some.injEq, exists_eq_left']
    grind

theorem conclusion_eq_temporary {final : Option Int} :
    conclusion final = .temporary ↔ ∃ code, final = some code ∧ 400 ≤ code ∧ code ≤ 499 := by
  cases final with
  | none => simp [conclusion]
  | some code =>
    simp only [conclusion, Option.some.injEq, exists_eq_left']
    grind

theorem rejection_cases (code : Int) :
    rejection code = .temporary ∨ rejection code = .permanent ∧ 500 ≤ code := by
  unfold rejection
  split
  next large => exact .inr ⟨rfl, large⟩
  · exact .inl rfl

/-- Statuses of rows that no 25x reply stands behind, or that DATA never reached. -/
def Failed (rc : RecipientResult) : Prop :=
  rc.status = .temporary ∨ rc.status = .permanent ∧ 500 ≤ rc.code

theorem failed_of_rejected {code : Int} (rejected : Rejected code rc) : Failed rc := by
  rcases rejection_cases code with temporary | ⟨permanent, large⟩
  · exact .inl (rejected.status.trans temporary)
  · exact .inr ⟨rejected.status.trans permanent, rejected.kept ▸ large⟩

theorem failed_of_dropped {run : Run} {reply : Option Int} (dropped : Dropped run reply rc) :
    Failed rc := by
  cases dropped with
  | rejected code replied rejected => exact failed_of_rejected rejected
  | inherited stage code status => exact status.imp_right fun permanent => ⟨permanent.1, permanent.2.1⟩

theorem Failed.ne_accepted (failed : Failed rc) : rc.status ≠ .accepted := by
  rcases failed with status | ⟨status, -⟩ <;> simp [status]

theorem decided_accepted_iff {final reply : Option Int} (decided : Decided final reply rc) :
    rc.status = .accepted ↔
      (∃ code, reply = some code ∧ code / 10 = 25) ∧
        ∃ code, final = some code ∧ 200 ≤ code ∧ code ≤ 299 := by
  cases decided with
  | rejected rejected =>
    have refused := rejected.refused
    simp [(failed_of_rejected rejected).ne_accepted, refused]
  | overwritten unanswered status =>
    have other : rc.status ≠ .accepted := by
      rcases status with status | status | ⟨status, -⟩ <;> simp [status]
    constructor
    · exact fun accepted => absurd accepted other
    · rintro ⟨⟨code, replied, matched⟩, -⟩
      rw [unanswered code replied] at matched
      cases matched
  | concluded matched status stage code =>
    rw [status, conclusion_eq_accepted]
    exact ⟨fun final => ⟨⟨_, rfl, matched⟩, final⟩, And.right⟩

theorem send_accepted_iff (row : (s.send recipients).recipients[index]? = some rc) :
    rc.status = .accepted ↔
      RcptAccepted s recipients index ∧ FinalReply s recipients 200 299 := by
  rcases finalRun_ended s recipients with abandoned | concluded
  · have failed := failed_of_dropped (abandoned.dropped index rc row)
    have unanswered : replyTo .body (transcript s recipients) = none := abandoned.body
    simp [failed.ne_accepted, FinalReply, unanswered]
  · exact decided_accepted_iff (concluded.decided index rc row)

/-- The row of a recipient accepted at RCPT, when DATA was accepted too. -/
theorem concluded_row (row : (s.send recipients).recipients[index]? = some rc)
    (started : replyTo .data (transcript s recipients) = some 354)
    (accepted : RcptAccepted s recipients index) :
    Concluded s recipients (s.finalRun recipients).facts
        (s.finalRun recipients).out.errorClass ∧
      rc.status = conclusion (replyTo .body (transcript s recipients)) ∧
      rc.stage ≠ .rcptRejected ∧
      ∀ last, replyTo .body (transcript s recipients) = some last → last / 100 ≠ 2 →
        rc.code = last := by
  rcases finalRun_ended s recipients with abandoned | concluded
  · exact absurd started abandoned.data
  · obtain ⟨answer, replied, matched⟩ := accepted
    have decided := concluded.decided index rc row
    rw [show replyTo (.rcpt index) (s.finalRun recipients).facts.transcript = some answer
      from replied] at decided
    cases decided with
    | rejected rejected => exact absurd matched rejected.refused
    | overwritten unanswered =>
      rw [unanswered answer rfl] at matched
      cases matched
    | concluded _ status stage code => exact ⟨concluded, status, stage, code⟩

theorem send_unknown (row : (s.send recipients).recipients[index]? = some rc)
    (started : replyTo .data (transcript s recipients) = some 354)
    (accepted : RcptAccepted s recipients index)
    (noAcceptance : ¬ FinalReply s recipients 200 299)
    (noRejection : ¬ FinalReply s recipients 400 599) : rc.status = .unknown := by
  obtain ⟨-, status, -, -⟩ := concluded_row row started accepted
  rw [status]
  cases final_eq : replyTo .body (transcript s recipients) with
  | none => rfl
  | some last =>
    generalize conclusion_eq : conclusion (some last) = reported
    cases conclusion_eq ▸ conclusion_concludes last with
    | accepted least greatest => exact absurd ⟨last, final_eq, least, greatest⟩ noAcceptance
    | temporary least greatest => exact absurd ⟨last, final_eq, least, by omega⟩ noRejection
    | permanent least greatest => exact absurd ⟨last, final_eq, by omega, greatest⟩ noRejection
    | unknown => rfl

theorem send_ids (s : Session) (recipients : List Recipient) :
    (s.send recipients).recipients.map (·.id) = recipients.map (·.id) := by
  rcases finalRun_ended s recipients with abandoned | concluded
  · exact abandoned.ids
  · exact concluded.ids

theorem transcript_disciplined (s : Session) (recipients : List Recipient) :
    Disciplined s (transcript s recipients) := by
  rcases finalRun_ended s recipients with abandoned | concluded
  · exact abandoned.disciplined
  · exact concluded.disciplined

/-- After a refusal at the fence a recipient has been rejected at RCPT or is left
at the stage of the refusal. -/
theorem send_refused (row : (s.send recipients).recipients[index]? = some rc)
    (refused : .fenced false ∈ transcript s recipients)
    (unstarted : (s.send recipients).dataStartedAt = none) :
    (∃ code, replyTo (.rcpt index) (transcript s recipients) = some code ∧ Rejected code rc) ∨
      rc.stage = s.fenceStage := by
  rcases finalRun_ended s recipients with abandoned | concluded
  · cases abandoned.dropped index rc row with
    | rejected code replied rejected => exact .inl ⟨code, replied, rejected⟩
    | inherited stage => exact .inr (stage.trans (abandoned.refused refused))
  · exact absurd unstarted concluded.started

/-- What the statuses of a result say about its evidence. -/
structure Coherent (out : Result) (rc : RecipientResult) : Prop where
  status : rc.status ∈ [Status.accepted, .temporary, .permanent, .unknown]
  accepted : rc.status = .accepted → (evidence out rc).final2xx
  permanent : rc.status = .permanent → 500 ≤ rc.code

theorem Failed.coherent {out : Result} (failed : Failed rc) : Coherent out rc where
  status := by rcases failed with status | ⟨status, -⟩ <;> simp [status]
  accepted accepted := absurd accepted failed.ne_accepted
  permanent permanent := by
    rcases failed with status | ⟨-, large⟩
    · simp [status] at permanent
    · exact large

theorem concluded_final {last : Int}
    (concluded : Concluded s recipients (s.finalRun recipients).facts
      (s.finalRun recipients).out.errorClass)
    (answered : replyTo .body (transcript s recipients) = some last) (nonzero : last ≠ 0)
    (rc : RecipientResult) :
    (evidence (s.send recipients) rc).finalResponse = true ∧
      (evidence (s.send recipients) rc).finalCode = last :=
  ⟨Option.isSome_iff_ne_none.mpr (concluded.answered last answered nonzero),
    concluded.code last answered⟩

/-- Every reply to RCPT accepts or refuses the recipient as the protocol provides. -/
def rcptRegular (s : Session) (recipients : List Recipient) : Bool :=
  (transcript s recipients).all fun
    | .answered (.rcpt _) code => decide (code / 10 = 25 ∨ 400 ≤ code ∧ code < 600)
    | _ => true

theorem rcptRegular_reply {code : Int} (regular : rcptRegular s recipients = true)
    (replied : replyTo (.rcpt index) (transcript s recipients) = some code) :
    code / 10 = 25 ∨ 400 ≤ code ∧ code < 600 := by
  obtain ⟨act, inside, found⟩ := List.exists_of_findSome?_eq_some replied
  have kept := List.all_eq_true.mp regular act inside
  split at found
  next asked _ =>
    split at found
    next same =>
      obtain rfl := Option.some.inj found
      subst same
      exact of_decide_eq_true kept
    · cases found
  · cases found

theorem send_coherent (row : (s.send recipients).recipients[index]? = some rc) :
    Coherent (s.send recipients) rc := by
  rcases finalRun_ended s recipients with abandoned | concluded
  · exact (failed_of_dropped (abandoned.dropped index rc row)).coherent
  · generalize final_eq : replyTo .body (s.finalRun recipients).facts.transcript = final
    have decided := concluded.decided index rc row
    rw [final_eq] at decided
    generalize replyTo (.rcpt index) (s.finalRun recipients).facts.transcript = reply at decided
    cases decided with
    | rejected rejected => exact (failed_of_rejected rejected).coherent
    | overwritten _ status =>
      constructor
      · rcases status with status | status | ⟨status, -⟩ <;> simp [status]
      · rcases status with status | status | ⟨status, -⟩ <;> simp [status]
      · rcases status with status | status | ⟨status, large⟩ <;> simp [status]
        exact large
    | concluded matched status stage code =>
      cases final with
      | none =>
        have unknown : rc.status = .unknown := status
        exact ⟨by simp [unknown], by simp [unknown], by simp [unknown]⟩
      | some last =>
        generalize conclusion_eq : conclusion (some last) = reported at status
        cases conclusion_eq ▸ conclusion_concludes last with
        | accepted least greatest =>
          obtain ⟨response, same⟩ := concluded_final concluded final_eq (by omega) rc
          exact ⟨by simp [status], fun _ => ⟨response, by omega, by omega⟩, by simp [status]⟩
        | temporary | unknown => exact ⟨by simp [status], by simp [status], by simp [status]⟩
        | permanent least greatest =>
          have kept := code last rfl (by omega)
          exact ⟨by simp [status], by simp [status], fun _ => by omega⟩

/-- The policy is uncertain only about recipients whose row is unknown itself. -/
theorem send_uncertain (regular : rcptRegular s recipients = true)
    (row : (s.send recipients).recipients[index]? = some rc)
    (uncertain : (evidence (s.send recipients) rc).Uncertain)
    (other : ¬ (rc.status = .accepted ∧ (evidence (s.send recipients) rc).final2xx)) :
    rc.status = .unknown := by
  rcases finalRun_ended s recipients with abandoned | concluded
  · rcases uncertain with ⟨-, final, -⟩ | unknown | ⟨-, started, -⟩
    · exact absurd final.1 (by simp [evidence, Session.send, abandoned.unanswered])
    · exact unknown
    · exact absurd started (by simp [evidence, Session.send, abandoned.unstarted])
  have bound : index < recipients.length := by
    have ids := congrArg List.length (send_ids s recipients)
    simp only [List.length_map] at ids
    rw [← ids]
    exact (List.getElem?_eq_some_iff.mp row).1
  obtain ⟨answer, replied⟩ := Option.ne_none_iff_exists'.mp (concluded.asked index bound)
  have decided := concluded.decided index rc row
  rw [replied] at decided
  cases decided with
  | rejected rejected =>
    have range := (rcptRegular_reply regular replied).resolve_left rejected.refused
    rw [← rejected.kept] at range
    have addressed : (evidence (s.send recipients) rc).rcRejected := ⟨rejected.stage, range⟩
    rcases uncertain with ⟨unaddressed, -⟩ | unknown | ⟨unaddressed, -⟩
    · exact absurd addressed unaddressed
    · exact unknown
    · exact absurd addressed unaddressed
  | overwritten unanswered =>
    have range := rcptRegular_reply regular replied
    rw [unanswered answer rfl] at range
    omega
  | concluded matched status =>
    cases final : replyTo .body (transcript s recipients) with
    | none =>
      rw [show replyTo .body (s.finalRun recipients).facts.transcript = none from final] at status
      exact status
    | some last =>
      rw [show replyTo .body (s.finalRun recipients).facts.transcript = some last from final]
        at status
      generalize conclusion_eq : conclusion (some last) = reported at status
      cases conclusion_eq ▸ conclusion_concludes last with
      | unknown => exact status
      | accepted => exact absurd ⟨status, (send_coherent row).accepted status⟩ other
      | temporary least greatest | permanent least greatest =>
        obtain ⟨response, same⟩ := concluded_final concluded final (by omega) rc
        rcases uncertain with ⟨-, ⟨-, -, small⟩, -⟩ | unknown | ⟨-, -, unrejected⟩
        · omega
        · exact unknown
        · exact absurd ⟨response, by omega, by omega⟩ unrejected

end Rows

section Decisions

variable [Primitives] {s : Session} {recipients : List Recipient} {index : Nat}
variable {rc : RecipientResult}

theorem send_decide_accept_iff (row : (s.send recipients).recipients[index]? = some rc)
    (b : Budget) :
    ((evidence (s.send recipients) rc).decide b).action = .accept ↔
      RcptAccepted s recipients index ∧ FinalReply s recipients 200 299 := by
  rw [decide_accept_iff, ← send_accepted_iff row]
  exact ⟨And.left, fun accepted => ⟨accepted, (send_coherent row).accepted accepted⟩⟩

theorem send_decide_unknown (status : rc.status = .unknown) (b : Budget) :
    ((evidence (s.send recipients) rc).decide b).action = .unknown := by
  have unknown : (evidence (s.send recipients) rc).status = .unknown := status
  exact decide_unknown (.inr (.inl unknown)) (by simp [unknown])

theorem decide_unsent {out : Result} (unstarted : out.dataStartedAt = none)
    (unanswered : out.finalResponseAt = none) (refused : rc.status ≠ .accepted)
    (known : rc.status ≠ .unknown) (b : Budget) :
    ((evidence out rc).decide b).action ≠ .accept ∧
      ((evidence out rc).decide b).action ≠ .unknown := by
  cases decide_justified (evidence out rc) b with
  | accept _ accepted => exact absurd accepted refused
  | unknown _ uncertain =>
    rcases uncertain with ⟨-, final, -⟩ | unknown | ⟨-, started, -⟩
    · simp [Evidence.final2xx, evidence, unanswered] at final
    · exact absurd unknown known
    · simp [evidence, unstarted] at started
  | permanent action | retry action | manual action => simp [action]

theorem Coherent.temporary_of_retry {out : Result} (coherent : Coherent out rc) {b : Budget}
    (action : ((evidence out rc).decide b).action = .retry) : rc.status = .temporary := by
  obtain ⟨certain, cause, -, -⟩ := decide_retry action
  have statuses := coherent.status
  simp only [List.mem_cons, List.not_mem_nil, or_false] at statuses
  rcases statuses with accepted | temporary | permanent | unknown
  · have accept := (decide_accept_iff (e := evidence out rc) (b := b)).mpr
      ⟨accepted, coherent.accepted accepted⟩
    cases accept.symm.trans action
  · exact temporary
  · have large := coherent.permanent permanent
    rcases cause with ⟨-, small⟩ | ⟨-, -, small⟩ | ⟨temporary, -⟩
    · exact absurd large (Int.not_le.mpr small)
    · exact absurd large (Int.not_le.mpr small)
    · exact temporary
  · exact absurd (.inr (.inl unknown)) certain

/-- After DATA was accepted a recipient of the envelope is only tried again on a
4xx reply to the terminator, within its budget. -/
theorem send_decide_retry_iff (row : (s.send recipients).recipients[index]? = some rc)
    (started : replyTo .data (transcript s recipients) = some 354)
    (accepted : RcptAccepted s recipients index) (b : Budget) :
    ((evidence (s.send recipients) rc).decide b).action = .retry ↔
      FinalReply s recipients 400 499 ∧ b.Admits := by
  obtain ⟨concluded, status, stage, code⟩ := concluded_row row started accepted
  have addressed : ¬ (evidence (s.send recipients) rc).rcRejected := fun h => stage h.1
  constructor
  · intro action
    obtain ⟨-, -, admits, -⟩ := decide_retry action
    have temporary := (send_coherent row).temporary_of_retry action
    exact ⟨conclusion_eq_temporary.mp (status.symm.trans temporary), admits⟩
  · rintro ⟨⟨last, final, least, greatest⟩, admits⟩
    obtain ⟨response, same⟩ := concluded_final concluded final (by omega) rc
    have kept : (evidence (s.send recipients) rc).code = last := code last final (by omega)
    have temporary : (evidence (s.send recipients) rc).status = .temporary :=
      status.trans (conclusion_eq_temporary.mpr ⟨last, final, least, greatest⟩)
    have rejected : (evidence (s.send recipients) rc).finalRejected :=
      ⟨response, by omega, by omega⟩
    have certain : ¬ (evidence (s.send recipients) rc).Uncertain := by
      rintro (⟨-, ⟨-, -, small⟩, -⟩ | unknown | ⟨-, -, unrejected⟩)
      · omega
      · exact absurd (temporary.symm.trans unknown) (by decide)
      · exact unrejected rejected
    have ordinary : (evidence (s.send recipients) rc).errorClass ∉ specialClasses := by
      rw [show (evidence (s.send recipients) rc).errorClass = .stage .finalResponseError
        from concluded.errorClass last final (by omega)]
      decide
    have safe : (evidence (s.send recipients) rc).safeTemporary = true := by
      have inside : 400 ≤ (evidence (s.send recipients) rc).code ∧
          (evidence (s.send recipients) rc).code < 500 := by omega
      simp [Evidence.safeTemporary, inside]
    exact decide_temporary certain addressed ordinary temporary safe admits

end Decisions

/-- Soundness of a conversation: DATA waits for the durable fence and the body
for 354; the result has one row per recipient in order; a recipient is accepted
exactly on 25x at RCPT and 2xx after the terminator, and unknown where DATA was
accepted and the terminator's reply decides nothing. The policy follows. -/
theorem send_sound [Primitives] (s : Session) (recipients : List Recipient) :
    (Precedes (.fenced true) (.wrote .data) (transcript s recipients) ∧
      (.fenced true ∈ transcript s recipients → s.beforeData = none) ∧
      Precedes (.answered .data 354) (.wrote .body) (transcript s recipients)) ∧
    ((s.send recipients).recipients.map (·.id) = recipients.map (·.id) ∧
      ∀ rc ∈ (s.send recipients).recipients,
        rc.status ∈ [Status.accepted, .temporary, .permanent, .unknown]) ∧
    ∀ index rc, (s.send recipients).recipients[index]? = some rc →
      (rc.status = .accepted ↔
        RcptAccepted s recipients index ∧ FinalReply s recipients 200 299) ∧
      (replyTo .data (transcript s recipients) = some 354 → RcptAccepted s recipients index →
        ¬ FinalReply s recipients 200 299 → ¬ FinalReply s recipients 400 599 →
        rc.status = .unknown) ∧
      ∀ b : Budget,
        (((evidence (s.send recipients) rc).decide b).action = .accept ↔
          RcptAccepted s recipients index ∧ FinalReply s recipients 200 299) ∧
        (replyTo .data (transcript s recipients) = some 354 → RcptAccepted s recipients index →
          ¬ FinalReply s recipients 200 299 → ¬ FinalReply s recipients 400 599 →
          ((evidence (s.send recipients) rc).decide b).action = .unknown) ∧
        (replyTo .data (transcript s recipients) = some 354 → RcptAccepted s recipients index →
          (((evidence (s.send recipients) rc).decide b).action = .retry ↔
            FinalReply s recipients 400 499 ∧ b.Admits)) := by
  have disciplined := transcript_disciplined s recipients
  refine ⟨⟨disciplined.data, disciplined.fence, disciplined.body⟩,
    ⟨send_ids s recipients, ?_⟩, ?_⟩
  · intro rc membership
    obtain ⟨index, row⟩ := List.getElem?_of_mem membership
    exact (send_coherent row).status
  · intro index rc row
    refine ⟨send_accepted_iff row, send_unknown row, fun b => ⟨?_, ?_, ?_⟩⟩
    · exact send_decide_accept_iff row b
    · intro started accepted noAcceptance noRejection
      exact send_decide_unknown (send_unknown row started accepted noAcceptance noRejection) b
    · intro started accepted
      exact send_decide_retry_iff row started accepted b

end RelayTale.Delivery
