import RelayTale.Foundation.ByteOrder
import RelayTale.Foundation.Calendar
import RelayTale.Foundation.Encoding
import RelayTale.Intake.Request

/-!
# Identity of a request

`RequestFingerprint` hashes a JSON document. This is the document to the byte:
strings are bytes, instants come with a zone, and empty fields are left out. Two
requests have the same document if and only if they ask for the same. SHA-256 is
taken to be free of collisions, so the canonical fields of a request, which
determine the document and are determined by it, stand for the digest.
-/

namespace RelayTale.Intake.Identity

open Guard Json
open Text (within isDigit validUTF8 validUTF8_ascii)

/-- A `time.Time`: nanoseconds from the Unix epoch, and the seconds that its zone is east of
Greenwich. -/
structure Instant where
  nanos : Int
  offset : Int
  deriving DecidableEq, Repr

def Instant.isZero (at' : Instant) : Bool := decide (at'.nanos = firstSecond * second)

structure Archive where
  path : Bytes
  size : Int
  sha256 : Bytes
  deriving DecidableEq, Repr

structure Envelope where
  account : Bytes
  sender : Bytes
  recipients : List Bytes
  deriving DecidableEq, Repr

structure Submission where
  replaces : Bytes
  scheduleAt : Instant
  expiresAt : Instant
  stream : Bytes
  business : Business
  id : Bytes
  envelope : Envelope
  archive : Archive
  messageID : Bytes
  headerFrom : Bytes
  subject : Bytes
  receivedAt : Instant
  archivedAt : Instant
  deriving DecidableEq, Repr

section Canonical

/-- `CanonicalExpiry`. The year of the instant in UTC is 1 to 9999. -/
def canonicalExpiry (at' : Instant) : Except Refusal Bytes :=
  if at'.isZero then .ok []
  else do
    require (firstSecond * second ≤ at'.nanos ∧ at'.nanos < (lastSecond + 1) * second ∧
      at'.nanos % second = 0 ∧ -86400 < at'.offset ∧ at'.offset < 86400) .invalidSubmission
    pure (Calendar.rfc3339 (at'.nanos / second - firstSecond).toNat)

/-- The text of a UUID as `uuid.UUID.String` writes it, other than the nil UUID. -/
def validUUID (text : Bytes) : Bool :=
  decide (text.length = 36) &&
    (text.zipIdx.all fun (byte, index) =>
      if index ∈ [8, 13, 18, 23] then byte = 0x2D else isHex byte) &&
    text.any fun byte => byte ≠ 0x2D && byte ≠ 0x30

end Canonical

section Document

/-- A string member with `omitempty`. -/
def omitEmpty (key : String) (text : Bytes) : List (Bytes × Json) :=
  if text = [] then [] else [(ascii key, .string text)]

def businessJson (b : Business) : Json :=
  .object [(ascii "client_reference", .string b.clientReference),
    (ascii "tags", .array (b.tags.map .string))]

/-- The pointer `association` is nil for a request without business fields. -/
def businessMember (b : Business) : List (Bytes × Json) :=
  if b.present then [(ascii "business", businessJson b)] else []

structure Fields where
  sender : Bytes
  recipients : List Bytes
  sha256 : Bytes
  size : Int
  business : Business
  stream : Bytes
  expiresAt : Bytes
  scheduleAt : Bytes
  replaces : Bytes
  deriving DecidableEq, Repr

namespace Fields

variable (f : Fields)

def version : Nat :=
  let version := 1
  let version := if f.business.present then 2 else version
  let version := if f.stream ≠ [] then 3 else version
  let version := if f.expiresAt ≠ [] then 4 else version
  let version := if f.scheduleAt ≠ [] then 5 else version
  if f.replaces ≠ [] then 6 else version

def json : Json :=
  .object ((ascii "version", .number (decimal f.version)) ::
    (ascii "from", .string f.sender) ::
    (ascii "recipients", .array (f.recipients.map .string)) ::
    (ascii "sha256", .string f.sha256) ::
    (ascii "size", .number (decimal f.size.toNat)) ::
    (businessMember f.business ++ (omitEmpty "stream" f.stream ++ (omitEmpty "expires_at" f.expiresAt ++
      (omitEmpty "schedule_at" f.scheduleAt ++ omitEmpty "replaces" f.replaces)))))

end Fields

variable (bare : Bytes → Bool)

def fields (s : Submission) : Except Refusal Fields := do
  require (validDigest s.archive.sha256 ∧ 1 ≤ s.archive.size ∧ s.envelope.sender ≠ [] ∧
    s.envelope.recipients ≠ [] ∧ s.envelope.recipients.length ≤ 1000) .invalidSubmission
  require (validAddress bare s.envelope.sender) .invalidSubmission
  require (s.envelope.recipients.all (validAddress bare)) .invalidSubmission
  let business ← s.business.canonical
  let stream ← canonicalStream s.stream
  let expiry ← canonicalExpiry s.expiresAt
  let schedule ← canonicalExpiry s.scheduleAt
  require (schedule ≠ [] → ¬ s.expiresAt.isZero → s.scheduleAt.nanos < s.expiresAt.nanos)
    .invalidSchedule
  require (s.replaces ≠ [] → validUUID s.replaces) .invalidSubmission
  pure {
    sender := s.envelope.sender
    recipients := s.envelope.recipients
    sha256 := s.archive.sha256
    size := s.archive.size
    business
    stream := if stream = .normal then [] else stream.name
    expiresAt := expiry
    scheduleAt := schedule
    replaces := s.replaces }

def encoded (s : Submission) : Except Refusal Bytes :=
  (fields bare s).map fun f => compact strings f.json

end Document

/-! ### Every text of an accepted request is ASCII -/

section Ascii

variable {bare : Bytes → Bool}

def Ascii (text : Bytes) : Prop := ∀ byte ∈ text, byte < 0x80

theorem within_small {low high byte : UInt8} (upper : high < 0x80)
    (inside : within low high byte = true) : byte < 0x80 := by
  simp only [within, decide_eq_true_eq] at inside
  exact UInt8.lt_of_le_of_lt inside.2 upper

theorem isHex_small {byte : UInt8} (hex : isHex byte = true) : byte < 0x80 := by
  rcases Bool.or_eq_true_iff.mp hex with digit | letter
  · exact within_small (by decide) digit
  · exact within_small (by decide) letter

theorem validAddress_ascii {value : Bytes} (valid : validAddress bare value = true) :
    Ascii value := by
  simp only [validAddress, Bool.and_eq_true, List.all_eq_true, decide_eq_true_eq] at valid
  exact valid.1.1.2

theorem validDigest_ascii {text : Bytes} (valid : validDigest text = true) : Ascii text := by
  simp only [validDigest, Bool.and_eq_true, List.all_eq_true] at valid
  exact fun byte member => isHex_small (valid.2 byte member)

theorem letter_small {byte : UInt8} (known : isUpper byte = true ∨ isLower byte = true ∨
    isDigit byte = true ∨ byte ∈ [0x2E, 0x5F, 0x3A, 0x2D]) : byte < 0x80 := by
  rcases known with upper | lower | digit | mark
  · exact within_small (by decide) upper
  · exact within_small (by decide) lower
  · exact within_small (by decide) digit
  · simp only [List.mem_cons, List.not_mem_nil, or_false] at mark
    rcases mark with rfl | rfl | rfl | rfl <;> decide

theorem validReference_ascii {text : Bytes} (valid : validReference text = true) : Ascii text := by
  cases text with
  | nil => cases valid
  | cons first rest =>
    simp only [validReference, Bool.and_eq_true, Bool.or_eq_true, List.all_eq_true,
      decide_eq_true_eq] at valid
    obtain ⟨⟨head, -⟩, tail⟩ := valid
    refine List.forall_mem_cons.mpr ⟨letter_small ?_, fun byte member => letter_small ?_⟩
    · tauto
    · have known := tail byte member
      tauto

theorem validTag_ascii {text : Bytes} (valid : validTag text = true) : Ascii text := by
  cases text with
  | nil => cases valid
  | cons first rest =>
    simp only [validTag, Bool.and_eq_true, Bool.or_eq_true, List.all_eq_true,
      decide_eq_true_eq] at valid
    obtain ⟨⟨head, -⟩, tail⟩ := valid
    refine List.forall_mem_cons.mpr ⟨letter_small ?_, fun byte member => letter_small ?_⟩
    · tauto
    · have known := tail byte member
      simp only [List.mem_cons, List.not_mem_nil, or_false] at known ⊢
      tauto

theorem validUUID_ascii {text : Bytes} (valid : validUUID text = true) : Ascii text := by
  simp only [validUUID, Bool.and_eq_true, List.all_eq_true] at valid
  intro byte member
  obtain ⟨index, inside, rfl⟩ := List.mem_iff_getElem.mp member
  have checked := valid.1.2 (text[index], index)
    (List.mem_zipIdx_iff_getElem?.mpr (List.getElem?_eq_getElem inside))
  simp only at checked
  split at checked
  · rw [decide_eq_true_eq] at checked
    rw [checked]
    decide
  · exact isHex_small checked

theorem digit_ascii (value : Nat) : Calendar.digit value < 0x80 := by
  rw [UInt8.lt_iff_toNat_lt, Calendar.digit_toNat]
  show 48 + value % 10 < 128
  omega

theorem rfc3339_ascii (seconds : Nat) : Ascii (Calendar.rfc3339 seconds) := by
  have separators : (45 : UInt8) < 0x80 ∧ (84 : UInt8) < 0x80 ∧ (58 : UInt8) < 0x80 ∧
      (90 : UInt8) < 0x80 := by decide
  simp [Ascii, Calendar.rfc3339, Calendar.fourDigits, Calendar.twoDigits, digit_ascii, separators]

theorem canonicalExpiry_ascii {at' : Instant} {text : Bytes}
    (taken : canonicalExpiry at' = .ok text) : Ascii text := by
  unfold canonicalExpiry at taken
  split at taken
  · rw [← Except.ok.inj taken]
    exact fun _ absent => absurd absent List.not_mem_nil
  · simp only [do_eq_ok, require_eq_ok, pure_eq_ok, exists_const] at taken
    rw [← taken.2]
    exact rfc3339_ascii _

end Ascii

/-! ### The document determines the canonical fields -/

section Injective

structure Fields.Sound (f : Fields) : Prop where
  sender : Ascii f.sender
  recipients : ∀ address ∈ f.recipients, Ascii address
  sha256 : Ascii f.sha256
  size : 1 ≤ f.size
  reference : Ascii f.business.clientReference
  tags : ∀ tag ∈ f.business.tags, Ascii tag
  stream : Ascii f.stream
  expiresAt : Ascii f.expiresAt
  scheduleAt : Ascii f.scheduleAt
  replaces : Ascii f.replaces

theorem lawful_text {text : Bytes} (small : Ascii text) : Lawful strings (.string text) :=
  .string (reads_of_valid (validUTF8_ascii small))

theorem lawful_texts {texts : List Bytes} (small : ∀ text ∈ texts, Ascii text) :
    Lawful strings (.array (texts.map .string)) := by
  refine .array fun item member => ?_
  obtain ⟨text, listed, rfl⟩ := List.mem_map.mp member
  exact lawful_text (small text listed)

theorem omitEmpty_cases {key : String} {text : Bytes} {member : Bytes × Json}
    (listed : member ∈ omitEmpty key text) : member = (ascii key, .string text) := by
  unfold omitEmpty at listed
  split at listed
  · cases listed
  · exact List.mem_singleton.mp listed

/-- A text that is left out when it is empty. -/
theorem text_injective {text other : Bytes}
    (same : (if text ≠ [] then some (Json.string text) else none) =
      if other ≠ [] then some (Json.string other) else none) : text = other := by
  split at same <;> split at same <;> simp_all

theorem Business.member_cases {b : Business} {member : Bytes × Json}
    (listed : member ∈ businessMember b) : member = (ascii "business", businessJson b) := by
  unfold businessMember at listed
  split at listed
  · exact List.mem_singleton.mp listed
  · cases listed

theorem texts_injective {texts others : List Bytes}
    (same : texts.map Json.string = others.map Json.string) : texts = others :=
  List.map_injective_iff.mpr (fun _ _ equal => by injection equal) same

theorem Business.shown_injective {b other : Business}
    (same : (if b.present = true then some (businessJson b) else none) =
      if other.present = true then some (businessJson other) else none) : b = other := by
  have absent (b : Business) (missing : ¬ b.present = true) :
      b.clientReference = [] ∧ b.tags = [] := by
    simpa [Business.present] using missing
  obtain ⟨reference, tags⟩ := b
  obtain ⟨reference', tags'⟩ := other
  split at same <;> split at same
  · simp only [businessJson, Option.some.injEq, List.cons.injEq, Prod.mk.injEq, true_and, and_true,
      Json.object.injEq, Json.string.injEq, Json.array.injEq] at same
    rw [same.1, texts_injective same.2]
  · cases same
  · cases same
  next missing missing' =>
    obtain ⟨rfl, rfl⟩ := absent _ missing
    obtain ⟨rfl, rfl⟩ := absent _ missing'
    rfl

theorem lookup_head (key own : Bytes) (value : Json) (rest : List (Bytes × Json)) :
    ((own, value) :: rest).lookup key = if key = own then some value else rest.lookup key := by
  rw [List.lookup_cons]
  split
  next here => rw [if_pos (beq_iff_eq.mp here)]
  next other => rw [if_neg (beq_eq_false_iff_ne.mp other)]

theorem lookup_omitEmpty (key : Bytes) (name : String) (text : Bytes) (rest : List (Bytes × Json)) :
    (omitEmpty name text ++ rest).lookup key =
      if key = ascii name ∧ text ≠ [] then some (.string text) else rest.lookup key := by
  unfold omitEmpty
  split <;> simp_all [lookup_head]

theorem Business.lookup_member (key : Bytes) (b : Business) (rest : List (Bytes × Json)) :
    (businessMember b ++ rest).lookup key =
      if key = ascii "business" ∧ b.present = true then some (businessJson b) else rest.lookup key := by
  unfold businessMember
  split <;> simp_all [lookup_head]

theorem Fields.json_lawful {f : Fields} (sound : f.Sound) : Lawful strings f.json := by
  have omitted (key : String) {text : Bytes} (valid : validUTF8 (ascii key) = true)
      (small : Ascii text) {member : Bytes × Json} (listed : member ∈ omitEmpty key text) :
      strings.Reads member.1 ∧ Lawful strings member.2 := by
    rw [omitEmpty_cases listed]
    exact ⟨reads_of_valid valid, lawful_text small⟩
  have business {member : Bytes × Json} (listed : member ∈ businessMember f.business) :
      strings.Reads member.1 ∧ Lawful strings member.2 := by
    rw [Business.member_cases listed]
    have key : strings.Reads (ascii "business") := reads_of_valid (by decide)
    refine ⟨key, .object ?_ ?_⟩
    · simp only [List.forall_mem_cons, List.not_mem_nil, IsEmpty.forall_iff, implies_true, and_true]
      exact ⟨reads_of_valid (by decide), reads_of_valid (by decide)⟩
    · simp only [List.forall_mem_cons, List.not_mem_nil, IsEmpty.forall_iff, implies_true, and_true]
      exact ⟨lawful_text sound.reference, lawful_texts sound.tags⟩
  have all : ∀ member ∈ businessMember f.business ++ (omitEmpty "stream" f.stream ++
      (omitEmpty "expires_at" f.expiresAt ++ (omitEmpty "schedule_at" f.scheduleAt ++
        omitEmpty "replaces" f.replaces))), strings.Reads member.1 ∧ Lawful strings member.2 := by
    intro member listed
    simp only [List.mem_append] at listed
    rcases listed with listed | listed | listed | listed | listed
    · exact business listed
    · exact omitted _ (by decide) sound.stream listed
    · exact omitted _ (by decide) sound.expiresAt listed
    · exact omitted _ (by decide) sound.scheduleAt listed
    · exact omitted _ (by decide) sound.replaces listed
  refine .object ?_ ?_
  · simp only [List.forall_mem_cons]
    exact ⟨reads_of_valid (by decide), reads_of_valid (by decide), reads_of_valid (by decide),
      reads_of_valid (by decide), reads_of_valid (by decide), fun member listed =>
        (all member listed).1⟩
  · simp only [List.forall_mem_cons]
    exact ⟨lawful_decimal _ _, lawful_text sound.sender, lawful_texts sound.recipients,
      lawful_text sound.sha256, lawful_decimal _ _, fun member listed => (all member listed).2⟩

theorem decimal_injective {n m : Nat} (same : decimal n = decimal m) : n = m := by
  rw [← natural_decimal n, same, natural_decimal]

/-- No canonical field gets lost in the document. -/
theorem Fields.json_injective {f g : Fields} (sound : f.Sound) (sound' : g.Sound)
    (same : f.json = g.json) : f = g := by
  simp only [Fields.json, Json.object.injEq, List.cons.injEq, Prod.mk.injEq, true_and,
    Json.number.injEq, Json.string.injEq, Json.array.injEq] at same
  obtain ⟨-, sender, recipients, sha256, size, optional⟩ := same
  rw [← List.append_nil (omitEmpty "replaces" f.replaces),
    ← List.append_nil (omitEmpty "replaces" g.replaces)] at optional
  have found (key : Bytes) := congrArg (List.lookup key) optional
  simp only [Business.lookup_member, lookup_omitEmpty, List.lookup_nil] at found
  have business := found (ascii "business")
  have stream := found (ascii "stream")
  have expiresAt := found (ascii "expires_at")
  have scheduleAt := found (ascii "schedule_at")
  have replaces := found (ascii "replaces")
  simp +decide only [true_and, false_and, if_false] at business stream expiresAt scheduleAt replaces
  have sizes : f.size = g.size := by
    have positive := sound.size
    have positive' := sound'.size
    have equal := decimal_injective size
    omega
  obtain ⟨sender', recipients', sha', size', business', stream', expires', schedule',
    replaces'⟩ := f
  simp only at sender recipients sha256 sizes business stream expiresAt scheduleAt replaces
  rw [sender, texts_injective recipients, sha256, sizes, Business.shown_injective business,
    text_injective stream, text_injective expiresAt, text_injective scheduleAt,
    text_injective replaces]

end Injective

/-! ### The canonical fields determine the request -/

section Same

variable {bare : Bytes → Bool}

/-- Two submissions that ask for the same. An absent instant is the zero time. -/
structure SameRequest (s t : Submission) : Prop where
  sender : s.envelope.sender = t.envelope.sender
  recipients : s.envelope.recipients = t.envelope.recipients
  sha256 : s.archive.sha256 = t.archive.sha256
  size : s.archive.size = t.archive.size
  reference : s.business.clientReference = t.business.clientReference
  tags : ∀ tag, tag ∈ s.business.tags ↔ tag ∈ t.business.tags
  stream : canonicalStream s.stream = canonicalStream t.stream
  expiresAt : s.expiresAt.nanos = t.expiresAt.nanos
  scheduleAt : s.scheduleAt.nanos = t.scheduleAt.nanos
  replaces : s.replaces = t.replaces

theorem Business.canonical_ok {b c : Business} (taken : b.canonical = .ok c) :
    c.clientReference = b.clientReference ∧ (∀ tag, tag ∈ c.tags ↔ tag ∈ b.tags) ∧
      c.tags.Pairwise ByteOrder.Before ∧ Ascii c.clientReference ∧ ∀ tag ∈ c.tags, Ascii tag := by
  simp only [Business.canonical, do_eq_ok, require_eq_ok, pure_eq_ok, exists_const,
    List.all_eq_true] at taken
  obtain ⟨⟨reference, -⟩, ⟨tags, apart⟩, rfl⟩ := taken
  have sorted := List.pairwise_insertionSort ByteOrder.AtMost b.tags
  refine ⟨rfl, fun tag => List.mem_insertionSort _, ByteOrder.sorted_of_adjacent sorted apart, ?_,
    fun tag member => validTag_ascii (tags tag member)⟩
  rcases reference with empty | valid
  · show Ascii b.clientReference
    rw [empty]
    exact fun _ absent => absurd absent List.not_mem_nil
  · exact validReference_ascii valid

theorem canonicalExpiry_iff {at' other : Instant} {text text' : Bytes}
    (taken : canonicalExpiry at' = .ok text) (taken' : canonicalExpiry other = .ok text') :
    text = text' ↔ at'.nanos = other.nanos := by
  have nonempty (seconds : Nat) : Calendar.rfc3339 seconds ≠ [] := List.cons_ne_nil _ _
  unfold canonicalExpiry at taken taken'
  simp only [Instant.isZero, decide_eq_true_eq] at taken taken'
  split at taken
  next zero =>
    split at taken'
    next zero' =>
      rw [← Except.ok.inj taken, ← Except.ok.inj taken', zero, zero']
      simp
    next later =>
      simp only [do_eq_ok, require_eq_ok, pure_eq_ok, exists_const] at taken'
      rw [← Except.ok.inj taken, ← taken'.2, zero]
      exact ⟨fun same => absurd same.symm (nonempty _), fun same => absurd same.symm later⟩
  next later =>
    simp only [do_eq_ok, require_eq_ok, pure_eq_ok, exists_const] at taken
    split at taken'
    next zero' =>
      rw [← Except.ok.inj taken', ← taken.2, zero']
      exact ⟨fun same => absurd same (nonempty _), fun same => absurd same later⟩
    next later' =>
      simp only [do_eq_ok, require_eq_ok, pure_eq_ok, exists_const] at taken'
      obtain ⟨⟨lower, upper, whole, -⟩, rfl⟩ := taken
      obtain ⟨⟨lower', upper', whole', -⟩, rfl⟩ := taken'
      constructor
      · intro same
        unfold second firstSecond lastSecond at *
        have seconds := Calendar.rfc3339_injective (by unfold Calendar.secondsPerDay; omega)
          (by unfold Calendar.secondsPerDay; omega) same
        omega
      · intro same
        rw [same]

theorem stream_iff {name name' : Bytes} {stream stream' : Stream}
    (named : canonicalStream name = .ok stream) (named' : canonicalStream name' = .ok stream') :
    ((if stream = .normal then [] else stream.name) =
      if stream' = .normal then [] else stream'.name) ↔
        canonicalStream name = canonicalStream name' := by
  rw [named, named', Except.ok.injEq]
  cases stream <;> cases stream' <;> decide

/-- How the canonical fields come from the submission. -/
structure Gives (s : Submission) (f : Fields) : Prop where
  sender : f.sender = s.envelope.sender
  recipients : f.recipients = s.envelope.recipients
  sha256 : f.sha256 = s.archive.sha256
  size : f.size = s.archive.size
  business : s.business.canonical = .ok f.business
  stream : ∃ stream, canonicalStream s.stream = .ok stream ∧
    f.stream = if stream = .normal then [] else stream.name
  expiresAt : canonicalExpiry s.expiresAt = .ok f.expiresAt
  scheduleAt : canonicalExpiry s.scheduleAt = .ok f.scheduleAt
  replaces : f.replaces = s.replaces

theorem fields_ok {s : Submission} {f : Fields} (taken : fields bare s = .ok f) :
    Gives s f ∧ f.Sound := by
  simp only [fields, do_eq_ok, require_eq_ok, pure_eq_ok, exists_const] at taken
  obtain ⟨⟨digest, size, -⟩, sender, recipients, business, known, stream, named, expiry, expires,
    schedule, scheduled, -, uuid, rfl⟩ := taken
  have ascii' := Business.canonical_ok known
  refine ⟨⟨rfl, rfl, rfl, rfl, known, ⟨stream, named, rfl⟩, expires, scheduled, rfl⟩,
    { sender := validAddress_ascii sender
      recipients := fun address member =>
        validAddress_ascii (List.all_eq_true.mp recipients address member)
      sha256 := validDigest_ascii digest
      size := size
      reference := ascii'.2.2.2.1
      tags := ascii'.2.2.2.2
      stream := ?_
      expiresAt := canonicalExpiry_ascii expires
      scheduleAt := canonicalExpiry_ascii scheduled
      replaces := ?_ }⟩
  · show ∀ byte ∈ if stream = .normal then [] else stream.name, byte < 0x80
    cases stream <;> decide +kernel
  · show Ascii s.replaces
    by_cases none' : s.replaces = []
    · rw [none']
      exact fun _ absent => absurd absent List.not_mem_nil
    · exact validUUID_ascii (uuid none')

theorem fields_eq_iff {s t : Submission} {f g : Fields} (gives : Gives s f) (gives' : Gives t g) :
    f = g ↔ SameRequest s t := by
  obtain ⟨reference, tags, sorted, -⟩ := Business.canonical_ok gives.business
  obtain ⟨reference', tags', sorted', -⟩ := Business.canonical_ok gives'.business
  obtain ⟨stream, named, streamed⟩ := gives.stream
  obtain ⟨stream', named', streamed'⟩ := gives'.stream
  constructor
  · rintro rfl
    exact {
      sender := gives.sender.symm.trans gives'.sender
      recipients := gives.recipients.symm.trans gives'.recipients
      sha256 := gives.sha256.symm.trans gives'.sha256
      size := gives.size.symm.trans gives'.size
      reference := reference.symm.trans reference'
      tags := fun tag => (tags tag).symm.trans (tags' tag)
      stream := (stream_iff named named').mp (streamed.symm.trans streamed')
      expiresAt := (canonicalExpiry_iff gives.expiresAt gives'.expiresAt).mp rfl
      scheduleAt := (canonicalExpiry_iff gives.scheduleAt gives'.scheduleAt).mp rfl
      replaces := gives.replaces.symm.trans gives'.replaces }
  · intro same
    have business : f.business = g.business := by
      have list : f.business.tags = g.business.tags := ByteOrder.eq_of_sorted sorted sorted'
        fun tag => (tags tag).trans ((same.tags tag).trans (tags' tag).symm)
      have name : f.business.clientReference = g.business.clientReference := by
        rw [reference, reference', same.reference]
      cases first : f.business
      cases second : g.business
      rw [first, second] at list name
      simp only at list name
      rw [list, name]
    have streams : f.stream = g.stream := by
      rw [streamed, streamed']
      exact (stream_iff named named').mpr same.stream
    have expiry := (canonicalExpiry_iff gives.expiresAt gives'.expiresAt).mpr same.expiresAt
    have schedule := (canonicalExpiry_iff gives.scheduleAt gives'.scheduleAt).mpr same.scheduleAt
    have senders := gives.sender.trans (same.sender.trans gives'.sender.symm)
    have recipients := gives.recipients.trans (same.recipients.trans gives'.recipients.symm)
    have digests := gives.sha256.trans (same.sha256.trans gives'.sha256.symm)
    have sizes := gives.size.trans (same.size.trans gives'.size.symm)
    have targets := gives.replaces.trans (same.replaces.trans gives'.replaces.symm)
    cases f
    cases g
    simp only at business streams expiry schedule senders recipients digests sizes targets
    rw [business, streams, expiry, schedule, senders, recipients, digests, sizes, targets]

end Same

theorem encoded_injective {bare : Bytes → Bool} {s t : Submission} {f g : Fields}
    (known : fields bare s = .ok f) (known' : fields bare t = .ok g)
    (same : compact strings f.json = compact strings g.json) : f = g :=
  have sound := (fields_ok known).2
  have sound' := (fields_ok known').2
  Fields.json_injective sound sound'
    (write_injective (Fields.json_lawful sound) (Fields.json_lawful sound') same)

theorem encoded_eq_iff {bare : Bytes → Bool} {s t : Submission} {text other : Bytes}
    (taken : encoded bare s = .ok text) (taken' : encoded bare t = .ok other) :
    text = other ↔ SameRequest s t := by
  obtain ⟨f, known, rfl⟩ := map_eq_ok.mp taken
  obtain ⟨g, known', rfl⟩ := map_eq_ok.mp taken'
  rw [← fields_eq_iff (fields_ok known).1 (fields_ok known').1]
  constructor
  · exact encoded_injective known known'
  · rintro rfl
    rfl

/-- An order confirmation with two tags that expires at noon in Berlin. -/
def confirmation : Submission where
  replaces := []
  scheduleAt := ⟨firstSecond * second, 0⟩
  expiresAt := ⟨1767265200 * second, 3600⟩
  stream := []
  business := ⟨ascii "order-7", [ascii "shop", ascii "invoice"]⟩
  id := ascii "01"
  envelope := ⟨ascii "a", ascii "shop@example.org", [ascii "b@example.org"]⟩
  archive := ⟨ascii "x.eml", 120, List.replicate 64 0x61⟩
  messageID := []
  headerFrom := []
  subject := []
  receivedAt := ⟨0, 0⟩
  archivedAt := ⟨0, 0⟩

/-- The same request later, with the tags in another order and the instant given in UTC. -/
def repeated : Submission :=
  { confirmation with
    expiresAt := ⟨1767265200 * second, 0⟩, stream := ascii "normal"
    business := ⟨ascii "order-7", [ascii "invoice", ascii "shop"]⟩, id := ascii "02"
    archive := ⟨ascii "y.eml", 120, List.replicate 64 0x61⟩, receivedAt := ⟨1, 0⟩ }

theorem encoded_eq_iff_of_repeated :
    ∃ text, encoded (fun _ => true) confirmation = .ok text ∧
      encoded (fun _ => true) repeated = .ok text := by
  have same : SameRequest confirmation repeated := by
    refine ⟨rfl, rfl, rfl, rfl, rfl, fun tag => ?_, by decide, rfl, rfl, rfl⟩
    simp only [confirmation, repeated, List.mem_cons, List.not_mem_nil, or_false]
    exact or_comm
  have accepted : (encoded (fun _ => true) confirmation).isOk = true ∧
      (encoded (fun _ => true) repeated).isOk = true := by decide +kernel
  cases first : encoded (fun _ => true) confirmation with
  | error refusal =>
    rw [first] at accepted
    cases accepted.1
  | ok text =>
    cases second : encoded (fun _ => true) repeated with
    | error refusal =>
      rw [second] at accepted
      cases accepted.2
    | ok other =>
      obtain rfl := (encoded_eq_iff first second).mpr same
      exact ⟨text, rfl, rfl⟩

end RelayTale.Intake.Identity
