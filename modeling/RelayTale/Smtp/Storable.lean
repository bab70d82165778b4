import RelayTale.Foundation.Repair
import RelayTale.Smtp.Course

/-!
# What the database can store

A text column takes valid UTF-8 without NUL. Every `Response` is repaired
before it is recorded and fits whatever the server has sent. An `Enhanced` is
copied from the reply: `Sscanf` looks at three numbers and two dots only, so
anything can follow them up to the next space.
-/

namespace RelayTale.Smtp

open Text

def Storable (text : Bytes) : Prop := validUTF8 text = true ∧ 0 ∉ text

instance (text : Bytes) : Decidable (Storable text) := inferInstanceAs (Decidable (_ ∧ _))

theorem safeResponse_storable (text password : Bytes) : Storable (safeResponse text password) := by
  simp only [safeResponse, replaceAll_nul]
  refine ⟨toValidFrom_valid false _, fun nul => ?_⟩
  rcases mem_toValidFrom nul with present | present
  · simp at present
  · revert present
    decide

/-- Everything a conversation records can be stored exactly if the enhanced codes of the
replies that are kept can. -/
theorem send_storable (s : Session) (recipients : List Recipient) :
    (∀ text ∈ (s.send recipients).responses, Storable text) ∧
    ((∀ text ∈ (s.send recipients).enhancedCodes, Storable text) ↔
      ∀ reply ∈ (s.course recipients).codes, Storable (enhanced reply.text)) := by
  have tells : s.Tells Storable _ _ := s.send_texts recipients (by decide)
  refine ⟨tells.responses.mpr ⟨fun reply _ => safeResponse_storable _ _, fun _ => by decide⟩,
    tells.codes⟩

/-- A conversation over TLS in which the server refuses the only recipient with the text. -/
def refusing (password text : Bytes) : Session :=
  { Session.smooth 0 with
    username := ascii "relay"
    password := password
    rcpt := fun _ => .reply ⟨550, text⟩ }

/-- `550 5.1.1` with a NUL, and with a byte that is not UTF-8, right after the code. -/
theorem send_unstorable :
    ((refusing [] (ascii "5.1.1" ++ [0])).send [⟨1, "a@b"⟩]).recipients.map (·.enhanced) =
        [ascii "5.1.1" ++ [0]] ∧
      ¬ Storable (ascii "5.1.1" ++ [0]) ∧
    ((refusing [] (ascii "5.1.1" ++ [0xFF])).send [⟨1, "a@b"⟩]).recipients.map (·.enhanced) =
        [ascii "5.1.1" ++ [0xFF]] ∧
      ¬ Storable (ascii "5.1.1" ++ [0xFF]) := by
  decide +kernel

end RelayTale.Smtp
