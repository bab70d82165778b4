import RelayTale.Smtp.Stream

/-!
# The snapshot of a request body

`ReceiveReplacing` copies the body of a request to a private file before anything
else happens to it, and accepts it only with canonical line ends. An accepted
body is accepted again before it is sent and arrives as it was, however the reads
of each loop are split.
-/

namespace RelayTale.Intake

open Smtp

inductive ReceiveError
  | context
  | tooLarge
  | invalidMessage
  | read (fault : Fault)
  deriving DecidableEq, Repr

structure Snapshot where
  size : Nat := 0
  previousCR : Bool := false
  last : UInt8 := 0
  file : Bytes := []
  deriving DecidableEq, Repr

namespace Snapshot

def next (line : Bool × UInt8) (byte : UInt8) : Option (Bool × UInt8) :=
  if line.1 && byte ≠ 10 || byte = 10 && !line.1 then none else some (byte = 13, byte)

def absorb (maxBytes : Nat) (s : Snapshot) (bytes : Bytes) : Except ReceiveError Snapshot :=
  if bytes.isEmpty then .ok s
  else if maxBytes < s.size + bytes.length then .error .tooLarge
  else
    match bytes.foldlM next (s.previousCR, s.last) with
    | none => .error .invalidMessage
    | some (previousCR, last) =>
        .ok { size := s.size + bytes.length, previousCR, last, file := s.file ++ bytes }

end Snapshot

/-- The loop over the reads of the limited reader that are left. That reader ends
early only behind `maxBytes + 1` bytes, where the loop has already returned. -/
def receiveFrom (ended : Nat → Bool) (maxBytes : Nat) (r : Reads UInt8 Fault) :
    Nat → Snapshot → List Bytes → Except ReceiveError Snapshot
  | turn, s, [] =>
      if ended turn then .error .context
      else do
        let s ← s.absorb maxBytes r.last
        match r.fault with
        | some fault => .error (.read fault)
        | none => if s.previousCR || s.last ≠ 10 then .error .invalidMessage else .ok s
  | turn, s, chunk :: rest =>
      if ended turn then .error .context
      else do
        let s ← s.absorb maxBytes chunk
        receiveFrom ended maxBytes r (turn + 1) s rest

/-- `ReceiveReplacing` up to the point where the body is accepted. -/
def receiveCanonical (ended : Nat → Bool) (maxBytes : Nat) (r : Reads UInt8 Fault) :
    Except ReceiveError Snapshot :=
  receiveFrom ended maxBytes r 0 {} r.chunks

/-- What `ValidateCanonical` remembers where the receive loop remembers `line`. -/
def linesOf (any : Bool) (line : Bool × UInt8) : Lines := ⟨line.1, line.2 = 10, any⟩

theorem foldlM_linesOf (any : Bool) (line : Bool × UInt8) (bytes : Bytes) :
    bytes.foldlM Lines.next (linesOf any line) =
      (bytes.foldlM Snapshot.next line).map (linesOf (any || !bytes.isEmpty)) := by
  induction bytes generalizing any line with
  | nil => simp
  | cons byte rest ih =>
    have same : Lines.next (linesOf any line) byte =
        (Snapshot.next line byte).map (linesOf true) := by
      simp only [Lines.next, Snapshot.next, linesOf]
      split
      next refused => exact if_pos refused
      next allowed => exact if_neg allowed
    simp only [List.foldlM_cons, same, List.isEmpty_cons, Bool.not_false, Bool.or_true]
    cases Snapshot.next line byte with
    | none => rfl
    | some line => simpa using ih true line

/-- Both loops ask for the same line ends. -/
theorem canonical_iff {bytes : Bytes} :
    Canonical bytes ↔ ∃ line, bytes.foldlM Snapshot.next (false, 0) = some line ∧ line.2 = 10 := by
  have scanned := foldlM_linesOf false (false, 0) bytes
  rw [show linesOf false (false, 0) = ({} : Lines) from rfl] at scanned
  constructor
  · rintro ⟨final, accepted, -, lastLF⟩
    obtain ⟨line, read, rfl⟩ := Option.map_eq_some_iff.mp (scanned.symm.trans accepted)
    exact ⟨line, read, by simpa [linesOf] using lastLF⟩
  · rintro ⟨line, read, ends⟩
    rw [read, Option.map_some] at scanned
    refine ⟨_, scanned, ?_, by simpa [linesOf] using ends⟩
    -- an empty body leaves the loop with its zero byte
    cases bytes with
    | nil =>
      obtain rfl := Option.some.inj read
      cases ends
    | cons byte rest => rfl

/-- The receive loop remembers a CR exactly where it is the last byte. -/
theorem previousCR_eq {line final : Bool × UInt8} {bytes : Bytes}
    (agrees : line.1 = decide (line.2 = 13))
    (scanned : bytes.foldlM Snapshot.next line = some final) : final.1 = decide (final.2 = 13) := by
  induction bytes generalizing line with
  | nil =>
    obtain rfl := Option.some.inj scanned
    exact agrees
  | cons byte rest ih =>
    rw [List.foldlM_cons] at scanned
    obtain ⟨next, first, scanned⟩ := Option.bind_eq_some_iff.mp scanned
    unfold Snapshot.next at first
    split at first
    · cases first
    · obtain rfl := Option.some.inj first
      exact ih rfl scanned

namespace Snapshot

structure Extends (s : Snapshot) (bytes : Bytes) (s' : Snapshot) : Prop where
  file : s'.file = s.file ++ bytes
  size : s'.size = s.size + bytes.length
  lines : bytes.foldlM next (s.previousCR, s.last) = some (s'.previousCR, s'.last)

variable {s s' : Snapshot} {bytes : Bytes} {maxBytes : Nat}

theorem absorb_ok (absorbed : s.absorb maxBytes bytes = .ok s') : s.Extends bytes s' := by
  unfold absorb at absorbed
  split at absorbed
  next empty =>
    obtain rfl := List.isEmpty_iff.mp empty
    obtain rfl := Except.ok.inj absorbed
    exact ⟨(List.append_nil _).symm, rfl, rfl⟩
  split at absorbed
  · cases absorbed
  split at absorbed
  · cases absorbed
  next scanned =>
    obtain rfl := Except.ok.inj absorbed
    exact ⟨rfl, rfl, scanned⟩

theorem absorb_invalid (refused : s.absorb maxBytes bytes = .error .invalidMessage) :
    bytes.foldlM next (s.previousCR, s.last) = none := by
  unfold absorb at refused
  split at refused
  · cases refused
  split at refused
  · cases refused
  split at refused
  · assumption
  · cases refused

theorem Extends.trans {s'' : Snapshot} {more : Bytes} (first : s.Extends bytes s')
    (second : s'.Extends more s'') : s.Extends (bytes ++ more) s'' where
  file := by rw [second.file, first.file, List.append_assoc]
  size := by rw [second.size, first.size, List.length_append, Nat.add_assoc]
  lines := by
    rw [List.foldlM_append, first.lines]
    exact second.lines

end Snapshot

variable {ended : Nat → Bool} {maxBytes turn : Nat} {r : Reads UInt8 Fault} {s s' : Snapshot}
  {chunks : List Bytes}

theorem receiveFrom_ok (accepted : receiveFrom ended maxBytes r turn s chunks = .ok s') :
    s.Extends (chunks.flatten ++ r.last) s' ∧ s'.last = 10 := by
  induction chunks generalizing turn s with
  | nil =>
    simp only [receiveFrom] at accepted
    split at accepted
    · cases accepted
    obtain ⟨final, absorbed, accepted⟩ := Guard.do_eq_ok.mp accepted
    split at accepted
    · cases accepted
    split at accepted
    · cases accepted
    next ends =>
      obtain rfl := Except.ok.inj accepted
      simp only [Bool.or_eq_true, not_or, decide_eq_true_eq, not_not] at ends
      exact ⟨Snapshot.absorb_ok absorbed, ends.2⟩
  | cons chunk rest ih =>
    simp only [receiveFrom] at accepted
    split at accepted
    · cases accepted
    obtain ⟨next, absorbed, accepted⟩ := Guard.do_eq_ok.mp accepted
    obtain ⟨extended, ends⟩ := ih accepted
    rw [List.flatten_cons, List.append_assoc]
    exact ⟨(Snapshot.absorb_ok absorbed).trans extended, ends⟩

/-- A body refused for its line ends has a line end that is refused, or ends without one. -/
theorem receiveFrom_invalid
    (refused : receiveFrom ended maxBytes r turn s chunks = .error .invalidMessage) :
    ∀ line, (chunks.flatten ++ r.last).foldlM Snapshot.next (s.previousCR, s.last) = some line →
      line.1 = true ∨ line.2 ≠ 10 := by
  induction chunks generalizing turn s with
  | nil =>
    intro line scanned
    rw [List.flatten_nil, List.nil_append] at scanned
    simp only [receiveFrom] at refused
    split at refused
    · cases refused
    cases absorbed : s.absorb maxBytes r.last with
    | error error =>
      rw [absorbed] at refused
      obtain rfl := Except.error.inj refused
      cases (Snapshot.absorb_invalid absorbed).symm.trans scanned
    | ok final =>
      rw [absorbed] at refused
      obtain rfl := Option.some.inj ((Snapshot.absorb_ok absorbed).lines.symm.trans scanned)
      change (match r.fault with
        | some fault => .error (.read fault)
        | none => if final.previousCR || final.last ≠ 10 then .error .invalidMessage else .ok final) =
        Except.error ReceiveError.invalidMessage at refused
      split at refused
      · cases refused
      split at refused
      next bad => simpa using bad
      · cases refused
  | cons chunk rest ih =>
    intro line scanned
    rw [List.flatten_cons, List.append_assoc, List.foldlM_append] at scanned
    obtain ⟨middle, first, scanned⟩ := Option.bind_eq_some_iff.mp scanned
    simp only [receiveFrom] at refused
    split at refused
    · cases refused
    cases absorbed : s.absorb maxBytes chunk with
    | error error =>
      rw [absorbed] at refused
      obtain rfl := Except.error.inj refused
      cases (Snapshot.absorb_invalid absorbed).symm.trans first
    | ok next =>
      rw [absorbed] at refused
      obtain rfl := Option.some.inj ((Snapshot.absorb_ok absorbed).lines.symm.trans first)
      exact ih refused line scanned

/-- A body that is accepted has canonical line ends. It passes the check before the
transfer, and what is written then reads as the body and nothing else, whatever the
reads were. A body refused for its line ends does not pass that check. A transfer
that stops at a read or with its context leaves no complete message on the wire. -/
theorem accepted_body_arrives (bytes : Bytes) :
    (∀ ended maxBytes (r : Reads UInt8 Fault) s, r.Splits bytes →
      receiveCanonical ended maxBytes r = .ok s →
      s.file = bytes ∧ s.size = bytes.length ∧
      ∀ r' : Reads UInt8 Fault, r'.Splits bytes →
        validateCanonical (fun _ => false) r' = .ok ⟨⟩ ∧
        ∃ wire, streamDATA (fun _ => false) {} r' = ⟨⟨wire, none⟩, bytes.length, none⟩ ∧
          decode .start wire = some (bytes, [])) ∧
    (∀ ended ended' maxBytes (r r' : Reads UInt8 Fault), r.Splits bytes → r'.Splits bytes →
      receiveCanonical ended maxBytes r = .error .invalidMessage →
      validateCanonical ended' r' ≠ .ok ⟨⟩) ∧
    (∀ ended room (r : Reads UInt8 Fault) out, r.content = bytes →
      streamDATA ended ⟨[], room⟩ r = out →
      (out.error = some .context ∨ ∃ fault, out.error = some (.read fault)) →
      decode .start out.writer.taken = none) := by
  refine ⟨?_, ?_, ?_⟩
  · intro ended maxBytes r s splits accepted
    obtain ⟨extended, ends⟩ := receiveFrom_ok accepted
    rw [splits.joined] at extended
    have canonical : Canonical bytes := canonical_iff.mpr ⟨_, extended.lines, ends⟩
    refine ⟨extended.file, extended.size.trans (Nat.zero_add _), fun r' splits' => ⟨?_, ?_⟩⟩
    · obtain ⟨final, scanned, any, lastLF⟩ := canonical
      refine validateFrom_completes (fun _ => rfl) splits'.complete splits'.progress ?_ any lastLF
      exact splits'.joined.symm ▸ scanned
    · cases ran : streamDATA (fun _ => false) {} r' with
      | mk writer total error =>
        have completes : (streamDATA (fun _ => false) {} r').error = none :=
          streamFrom_completes (fun _ => rfl) splits'.complete splits'.progress rfl
        obtain rfl : error = none := by rwa [ran] at completes
        obtain ⟨-, counted, took⟩ := (streamFrom_spec ran).1 rfl
        rw [splits'.joined] at counted took
        refine ⟨writer.taken, ?_, took.taken.symm ▸ canonical.decode⟩
        rw [show total = bytes.length from counted.trans (Nat.zero_add _), ← took.endless rfl]
  · intro ended ended' maxBytes r r' splits splits' refused accepted
    obtain ⟨-, final, scanned, any, lastLF⟩ := validateFrom_ok accepted
    rw [splits'.joined] at scanned
    obtain ⟨line, read, ends⟩ := canonical_iff.mp ⟨final, scanned, any, lastLF⟩
    rcases receiveFrom_invalid refused line (splits.joined.symm ▸ read) with cr | other
    · rw [previousCR_eq rfl read, ends] at cr
      cases cr
    · exact other ends
  · intro ended room r out _ ran stopped
    obtain ⟨part, took⟩ := (streamFrom_spec ran).2 (by rcases stopped with h | ⟨_, h⟩ <;> simp [h])
      (by rcases stopped with h | ⟨_, h⟩ <;> simp [h])
    rw [took.taken]
    exact decode_stuff true part (fun _ => rfl) nofun nofun

/-- A body that is a single dot on a line, read byte by byte, a body that ends
with CR, and one whose second read fails. -/
theorem accepted_body_arrives_of_dotLine :
    (∃ wire, streamDATA (fun _ => false) {} ⟨[[46, 13]], [10], none⟩ = ⟨⟨wire, none⟩, 3, none⟩ ∧
      decode .start wire = some ([46, 13, 10], [])) ∧
    validateCanonical (fun _ => false) ⟨[[46]], [13], none⟩ ≠ .ok ⟨⟩ ∧
    decode .start (streamDATA (fun _ => false) {} ⟨[[46, 13, 10]], [], some {}⟩).writer.taken =
      none := by
  have line := (accepted_body_arrives [46, 13, 10]).1 (fun _ => false) 3 ⟨[[46], [13]], [10], none⟩
    ⟨3, false, 10, [46, 13, 10]⟩ ⟨rfl, rfl, by decide⟩ rfl
  have cut := (accepted_body_arrives [46, 13]).2.1 (fun _ => false) (fun _ => false) 3
    ⟨[], [46, 13], none⟩ ⟨[[46]], [13], none⟩ ⟨rfl, rfl, by decide⟩ ⟨rfl, rfl, by decide⟩ rfl
  have stopped := (accepted_body_arrives [46, 13, 10]).2.2 (fun _ => false) none
    ⟨[[46, 13, 10]], [], some {}⟩ _ rfl rfl (.inr ⟨{}, rfl⟩)
  exact ⟨(line.2.2 ⟨[[46, 13]], [10], none⟩ ⟨rfl, rfl, by decide⟩).2, cut, stopped⟩

end RelayTale.Intake
