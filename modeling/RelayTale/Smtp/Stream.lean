import RelayTale.Foundation.Guard
import RelayTale.Foundation.Reads
import RelayTale.Smtp.Client

/-!
# The payload on the wire

`ValidateCanonical` checks the line ends of a payload and `streamDATA` writes it
after the DATA command, both one buffer at a time. What a receiver makes of the
bytes on the wire is its own definition, taken from the protocol.
-/

namespace RelayTale.Smtp

inductive StreamError
  | context
  | nonCanonical
  | noProgress
  | read (fault : Fault)
  | write
  deriving DecidableEq, Repr

/-- What `ValidateCanonical` remembers of the bytes before. -/
structure Lines where
  previousCR : Bool := false
  lastLF : Bool := false
  any : Bool := false
  deriving DecidableEq, Repr

def Lines.next (lines : Lines) (byte : UInt8) : Option Lines :=
  if lines.previousCR && byte ≠ 10 || byte = 10 && !lines.previousCR then none
  else some { previousCR := byte = 13, lastLF := byte = 10, any := true }

/-- The loop of `ValidateCanonical` over the reads that are left. `ended` says
at which of its checks the context has ended. -/
def validateFrom (ended : Nat → Bool) (r : Reads UInt8 Fault) :
    Nat → Lines → List Bytes → Except StreamError Unit
  | turn, lines, [] =>
      if ended turn then .error .context
      else
        match r.last.foldlM Lines.next lines with
        | none => .error .nonCanonical
        | some lines =>
            match r.fault with
            | some fault => .error (.read fault)
            | none => if !lines.any || !lines.lastLF then .error .nonCanonical else .ok ⟨⟩
  | turn, lines, chunk :: rest =>
      if ended turn then .error .context
      else
        match chunk.foldlM Lines.next lines with
        | none => .error .nonCanonical
        | some lines =>
            if chunk.isEmpty then .error .noProgress
            else validateFrom ended r (turn + 1) lines rest

def validateCanonical (ended : Nat → Bool) (r : Reads UInt8 Fault) : Except StreamError Unit :=
  validateFrom ended r 0 {} r.chunks

/-- Where the bytes go. With `room` the connection breaks after so many bytes. -/
structure Writer where
  taken : Bytes := []
  room : Option Nat := none
  deriving DecidableEq, Repr

/-- A write that fails has handed over what there was room for. -/
def Writer.write (w : Writer) (bytes : Bytes) : Except Writer Writer :=
  match w.room with
  | none => .ok { w with taken := w.taken ++ bytes }
  | some room =>
      if bytes.length ≤ room then
        .ok { taken := w.taken ++ bytes, room := some (room - bytes.length) }
      else .error { taken := w.taken ++ bytes.take room, room := some 0 }

/-- The inner loop of `streamDATA` at index `i` of the buffer. The bytes from
`start` on are not written yet. -/
def stuffFrom (buf : Bytes) (i start : Nat) (lineStart : Bool) (w : Writer) :
    Bytes → Except Writer (Bool × Writer)
  | [] => do
      let w ← w.write (buf.drop start)
      .ok (lineStart, w)
  | byte :: rest =>
      if lineStart && byte = 46 then do
        let w ← w.write ((buf.drop start).take (i - start))
        let w ← w.write [46]
        stuffFrom buf (i + 1) i (byte = 10) w rest
      else stuffFrom buf (i + 1) start (byte = 10) w rest

def stuffChunk (buf : Bytes) (lineStart : Bool) (w : Writer) : Except Writer (Bool × Writer) :=
  stuffFrom buf 0 0 lineStart w buf

structure Streamed where
  writer : Writer
  total : Nat
  error : Option StreamError
  deriving DecidableEq, Repr

def streamFrom (ended : Nat → Bool) (r : Reads UInt8 Fault) :
    Nat → Bool → Writer → Nat → List Bytes → Streamed
  | turn, lineStart, w, total, [] =>
      if ended turn then ⟨w, total, some .context⟩
      else
        match stuffChunk r.last lineStart w with
        | .error w => ⟨w, total, some .write⟩
        | .ok (_, w) =>
            let total := total + r.last.length
            match r.fault with
            | some fault => ⟨w, total, some (.read fault)⟩
            | none =>
                match w.write (ascii ".\r\n") with
                | .error w => ⟨w, total, some .write⟩
                | .ok w => ⟨w, total, none⟩
  | turn, lineStart, w, total, chunk :: rest =>
      if ended turn then ⟨w, total, some .context⟩
      else
        match stuffChunk chunk lineStart w with
        | .error w => ⟨w, total, some .write⟩
        | .ok (lineStart, w) =>
            let total := total + chunk.length
            if chunk.isEmpty then ⟨w, total, some .noProgress⟩
            else streamFrom ended r (turn + 1) lineStart w total rest

def streamDATA (ended : Nat → Bool) (w : Writer) (r : Reads UInt8 Fault) : Streamed :=
  streamFrom ended r 0 true w 0 r.chunks

/-- Where a receiver stands in a line: at its start, behind a dot that began it,
behind such a dot and CR, inside it, or behind a CR inside it. -/
inductive Position
  | start
  | dot
  | dotCR
  | inside
  | cr
  deriving DecidableEq, Repr

def Position.after (byte : UInt8) : Position := if byte = 13 then .cr else .inside

/-- What the receiver keeps of a byte and where it stands then; `none` where the
byte completes the line that is a single dot. -/
def Position.next (position : Position) (byte : UInt8) : Option (Bytes × Position) :=
  match position with
  | .start => if byte = 46 then some ([], .dot) else some ([byte], .after byte)
  | .dot => if byte = 13 then some ([], .dotCR) else some ([byte], .after byte)
  | .dotCR => if byte = 10 then none else some ([13, byte], .after byte)
  | .inside => some ([byte], .after byte)
  | .cr => if byte = 10 then some ([byte], .start) else some ([byte], .after byte)

/-- The message in the bytes on the wire and the bytes behind it; `none` as long
as it is not complete. One leading dot of each line is removed. -/
def decode : Position → Bytes → Option (Bytes × Bytes)
  | _, [] => none
  | position, byte :: rest =>
      match position.next byte with
      | none => some ([], rest)
      | some (kept, position) =>
          (decode position rest).map fun (message, left) => (kept ++ message, left)

/-- The payload with a second dot before each dot that begins a line. -/
def stuff : Bool → Bytes → Bytes
  | _, [] => []
  | lineStart, byte :: rest =>
      (if lineStart && byte = 46 then [46, byte] else [byte]) ++ stuff (byte = 10) rest

def lineStartAfter (lineStart : Bool) (bytes : Bytes) : Bool :=
  bytes.foldl (fun _ byte => byte = 10) lineStart

theorem stuff_append (lineStart : Bool) (first second : Bytes) :
    stuff lineStart (first ++ second) =
      stuff lineStart first ++ stuff (lineStartAfter lineStart first) second := by
  induction first generalizing lineStart with
  | nil => rfl
  | cons byte rest ih => simp only [List.cons_append, stuff, ih, List.append_assoc]; rfl

namespace Writer

variable {w w' : Writer} {bytes : Bytes}

/-- `w'` has taken these bytes after what `w` has taken, or as many as there was room for. -/
structure Took (w : Writer) (bytes : Bytes) (w' : Writer) : Prop where
  taken : w'.taken = w.taken ++ bytes
  endless : w.room = none → w'.room = none

theorem write_ok (written : w.write bytes = .ok w') : w.Took bytes w' := by
  unfold write at written
  split at written
  next endless =>
    cases written
    exact ⟨rfl, fun _ => endless⟩
  next limited =>
    split at written
    · cases written
      exact ⟨rfl, fun endless => nomatch limited.symm.trans endless⟩
    · cases written

theorem Took.trans {w'' : Writer} {more : Bytes} (first : w.Took bytes w')
    (second : w'.Took more w'') : w.Took (bytes ++ more) w'' where
  taken := by rw [second.taken, first.taken, List.append_assoc]
  endless endless := second.endless (first.endless endless)

theorem write_endless {Result : Type} {next : Writer → Except Writer Result}
    (endless : w.room = none) :
    (w.write bytes >>= next) = next { w with taken := w.taken ++ bytes } := by
  unfold write
  rw [endless]
  rfl

end Writer

variable {ended : Nat → Bool} {r : Reads UInt8 Fault} {turn total i start : Nat} {lineStart : Bool}
variable {w : Writer} {lines final : Lines} {bytes buf rest : Bytes} {chunks : List Bytes}

/-- The lazily copied runs and the doubled dots make up the stuffed text. -/
theorem stuffFrom_ok {lineStart lineStart' : Bool} {w w' : Writer} (position : buf.drop i = rest)
    (order : start ≤ i) (ran : stuffFrom buf i start lineStart w rest = .ok (lineStart', w')) :
    w.Took ((buf.drop start).take (i - start) ++ stuff lineStart rest) w' ∧
      lineStart' = lineStartAfter lineStart rest := by
  induction rest generalizing i start lineStart w with
  | nil =>
    simp only [stuffFrom, Guard.do_eq_ok] at ran
    obtain ⟨written, wrote, same⟩ := ran
    cases same
    have all : (buf.drop start).take (i - start) = buf.drop start := by
      refine List.take_of_length_le ?_
      have := List.drop_eq_nil_iff.mp position
      rw [List.length_drop]
      omega
    rw [all, stuff, List.append_nil]
    exact ⟨Writer.write_ok wrote, rfl⟩
  | cons byte rest ih =>
    have next : buf.drop (i + 1) = rest := by
      rw [← List.tail_drop, position, List.tail_cons]
    have run : (buf.drop start).take (i + 1 - start) = (buf.drop start).take (i - start) ++ [byte] := by
      have here : (buf.drop start)[i - start]? = some byte := by
        rw [List.getElem?_drop, Nat.add_sub_cancel' order, ← List.head?_drop, position,
          List.head?_cons]
      rw [Nat.sub_add_comm order, List.take_add_one, here]
      rfl
    simp only [stuffFrom] at ran
    split at ran
    next doubled =>
      simp only [Guard.do_eq_ok] at ran
      obtain ⟨first, copied, second, dotted, ran⟩ := ran
      obtain ⟨took, after⟩ := ih next (Nat.le_succ i) ran
      refine ⟨?_, after⟩
      have one : (buf.drop i).take (i + 1 - i) = [byte] := by
        rw [position, Nat.add_sub_cancel_left]
        rfl
      rw [one] at took
      have all := ((Writer.write_ok copied).trans (Writer.write_ok dotted)).trans took
      simpa [stuff, doubled] using all
    next plain =>
      obtain ⟨took, after⟩ := ih next (Nat.le_succ_of_le order) ran
      rw [run] at took
      exact ⟨by simpa [stuff, plain] using took, after⟩

theorem stuffFrom_endless (endless : w.room = none) :
    ∃ result, stuffFrom buf i start lineStart w rest = .ok result := by
  induction rest generalizing i start lineStart w with
  | nil => exact ⟨_, by rw [stuffFrom, Writer.write_endless endless]⟩
  | cons byte rest ih =>
    simp only [stuffFrom]
    split
    · rw [Writer.write_endless endless, Writer.write_endless (w := ⟨w.taken ++ _, w.room⟩) endless]
      exact ih endless
    · exact ih endless

theorem stuffChunk_ok {buf : Bytes} {lineStart lineStart' : Bool} {w w' : Writer}
    (ran : stuffChunk buf lineStart w = .ok (lineStart', w')) :
    w.Took (stuff lineStart buf) w' ∧ lineStart' = lineStartAfter lineStart buf := by
  simpa using stuffFrom_ok (List.drop_zero) le_rfl ran

/-- What `streamDATA` has written when it returns without a failed write. -/
theorem streamFrom_spec {out : Streamed}
    (ran : streamFrom ended r turn lineStart w total chunks = out) :
    (out.error = none → r.fault = none ∧ out.total = total + (chunks.flatten ++ r.last).length ∧
      w.Took (stuff lineStart (chunks.flatten ++ r.last) ++ ascii ".\r\n") out.writer) ∧
    (out.error ≠ none → out.error ≠ some .write →
      ∃ part, w.Took (stuff lineStart part) out.writer) := by
  have kept : w.Took (stuff lineStart []) w := ⟨(List.append_nil _).symm, id⟩
  induction chunks generalizing turn total lineStart w with
  | nil =>
    simp only [streamFrom] at ran
    split at ran
    · subst ran
      exact ⟨nofun, fun _ _ => ⟨[], kept⟩⟩
    split at ran
    · subst ran
      exact ⟨nofun, fun _ other => absurd rfl other⟩
    next copied =>
      obtain ⟨took, -⟩ := stuffChunk_ok copied
      split at ran
      · subst ran
        exact ⟨nofun, fun _ _ => ⟨r.last, took⟩⟩
      next complete =>
        split at ran
        · subst ran
          exact ⟨nofun, fun _ other => absurd rfl other⟩
        next ended =>
          subst ran
          exact ⟨fun _ => ⟨complete, rfl, took.trans (Writer.write_ok ended)⟩,
            fun failed => absurd rfl failed⟩
  | cons chunk rest ih =>
    simp only [streamFrom] at ran
    split at ran
    · subst ran
      exact ⟨nofun, fun _ _ => ⟨[], kept⟩⟩
    split at ran
    · subst ran
      exact ⟨nofun, fun _ other => absurd rfl other⟩
    next copied =>
      obtain ⟨took, rfl⟩ := stuffChunk_ok copied
      split at ran
      · subst ran
        exact ⟨nofun, fun _ _ => ⟨chunk, took⟩⟩
      · obtain ⟨succeeded, failed⟩ := ih ran ⟨(List.append_nil _).symm, id⟩
        constructor
        · intro done
          obtain ⟨complete, counted, written⟩ := succeeded done
          refine ⟨complete, ?_, ?_⟩
          · rw [counted]
            simp only [List.flatten_cons, List.length_append]
            omega
          · rw [List.flatten_cons, List.append_assoc, stuff_append, List.append_assoc]
            exact took.trans written
        · intro stopped other
          obtain ⟨part, written⟩ := failed stopped other
          exact ⟨chunk ++ part, stuff_append _ _ _ ▸ took.trans written⟩

theorem streamFrom_completes (alive : ∀ turn, ended turn = false) (complete : r.fault = none)
    (progress : ∀ chunk ∈ chunks, chunk ≠ []) (endless : w.room = none) :
    (streamFrom ended r turn lineStart w total chunks).error = none := by
  induction chunks generalizing turn total lineStart w with
  | nil =>
    obtain ⟨⟨after, w'⟩, copied⟩ : ∃ result, stuffChunk r.last lineStart w = .ok result :=
      stuffFrom_endless endless
    have ending : w'.write (ascii ".\r\n") = .ok { w' with taken := w'.taken ++ ascii ".\r\n" } := by
      rw [Writer.write, (stuffChunk_ok copied).1.endless endless]
    simp [streamFrom, alive, copied, complete, ending]
  | cons chunk rest ih =>
    obtain ⟨⟨after, w'⟩, copied⟩ : ∃ result, stuffChunk chunk lineStart w = .ok result :=
      stuffFrom_endless endless
    have some : chunk.isEmpty = false := by
      simpa using progress chunk List.mem_cons_self
    have rest : (streamFrom ended r (turn + 1) after w' (total + chunk.length) rest).error = none :=
      ih (fun chunk member => progress chunk (List.mem_cons_of_mem _ member))
        ((stuffChunk_ok copied).1.endless endless)
    simpa [streamFrom, alive, copied, some] using rest

theorem decode_cons_none {position next : Position} {byte : UInt8} {kept rest : Bytes}
    (moves : position.next byte = some (kept, next)) (incomplete : decode next rest = none) :
    decode position (byte :: rest) = none := by
  simp [decode, moves, incomplete]

/-- Stuffed text has no line that is a single dot: the only position behind a dot
that begins a line is before the second one. -/
theorem decode_stuff (lineStart : Bool) (bytes : Bytes) {position : Position}
    (begins : position = .start → lineStart = true) (plain : position ≠ .dot)
    (other : position ≠ .dotCR) : decode position (stuff lineStart bytes) = none := by
  induction bytes generalizing lineStart position with
  | nil => cases position <;> rfl
  | cons byte rest ih =>
    have after : decode (.after byte) (stuff (byte = 10) rest) = none := by
      refine ih _ ?_ ?_ ?_ <;> unfold Position.after <;> split <;> simp
    simp only [stuff]
    split
    next doubled =>
      obtain rfl : byte = 46 := of_decide_eq_true (Bool.and_eq_true _ _ ▸ doubled).2
      cases position with
      | dot => exact absurd rfl plain
      | dotCR => exact absurd rfl other
      | start | inside | cr => exact decode_cons_none rfl (decode_cons_none rfl after)
    next single =>
      cases position with
      | dot => exact absurd rfl plain
      | dotCR => exact absurd rfl other
      | start =>
        have undotted : byte ≠ 46 := by simpa [begins rfl] using single
        exact decode_cons_none (if_neg undotted) after
      | inside => exact decode_cons_none rfl after
      | cr =>
        by_cases ends : byte = 10
        · subst ends
          exact decode_cons_none rfl (ih true (fun _ => rfl) nofun nofun)
        · exact decode_cons_none (if_neg ends) after

theorem decode_cons_some {position next : Position} {byte : UInt8}
    {kept rest message whole left : Bytes} (decoded : decode next rest = some (message, left))
    (moves : position.next byte = some (kept, next)) (joined : kept ++ message = whole) :
    decode position (byte :: rest) = some (whole, left) := by
  simp [decode, moves, decoded, joined]

def Lines.position (lines : Lines) (lineStart : Bool) : Position :=
  if lineStart then .start else if lines.previousCR then .cr else .inside

/-- Canonical text that ends with a line end comes out as it was, and the line
that is a single dot ends it. -/
theorem decode_canonical (scanned : bytes.foldlM Lines.next lines = some final)
    (begins : lineStart = true → lines.previousCR = false)
    (ends : lineStartAfter lineStart bytes = true) :
    decode (lines.position lineStart) (stuff lineStart bytes ++ ascii ".\r\n") = some (bytes, []) := by
  induction bytes generalizing lines lineStart with
  | nil =>
    obtain rfl : lineStart = true := ends
    rfl
  | cons byte rest ih =>
    rw [List.foldlM_cons] at scanned
    obtain ⟨next, first, scanned⟩ := Option.bind_eq_some_iff.mp scanned
    unfold Lines.next at first
    split at first
    · cases first
    next legal =>
      obtain rfl := Option.some.inj first
      simp only [Bool.or_eq_true, Bool.and_eq_true, decide_eq_true_eq, Bool.not_eq_true', not_or,
        not_and, ne_eq] at legal
      have rest := ih scanned (by simp +contextual) ends
      by_cases lf : byte = 10
      · -- a line end: only behind CR, so not at the start of a line
        subst lf
        have afterCR : lines.previousCR = true := Bool.not_eq_false _ ▸ legal.2 rfl
        have inner : lineStart = false :=
          Bool.not_eq_true _ ▸ fun begun => absurd (begins begun) (by simp [afterCR])
        subst inner
        rw [Lines.position, afterCR]
        exact decode_cons_some rest rfl rfl
      · have noCR : lines.previousCR = false := Bool.not_eq_true _ ▸ fun cr => legal.1 cr lf
        have moved : Lines.position ⟨byte = 13, byte = 10, true⟩ (byte = 10) = .after byte := by
          simp [Lines.position, Position.after, lf]
        rw [moved] at rest
        rw [Lines.position, noCR]
        cases lineStart with
        | false => exact decode_cons_some rest rfl rfl
        | true =>
          by_cases dotted : byte = 46
          · subst dotted
            exact decode_cons_some (decode_cons_some rest rfl rfl) rfl rfl
          · simp only [stuff, dotted, decide_false, Bool.and_false, Bool.false_eq_true, if_false]
            exact decode_cons_some rest (if_neg dotted) rfl

/-- What `ValidateCanonical` accepts. -/
def Canonical (bytes : Bytes) : Prop :=
  ∃ lines, bytes.foldlM Lines.next {} = some lines ∧ lines.any = true ∧ lines.lastLF = true

theorem validateFrom_ok {lines : Lines}
    (accepted : validateFrom ended r turn lines chunks = .ok ⟨⟩) :
    r.fault = none ∧ ∃ final, (chunks.flatten ++ r.last).foldlM Lines.next lines = some final ∧
      final.any = true ∧ final.lastLF = true := by
  induction chunks generalizing turn lines with
  | nil =>
    simp only [validateFrom] at accepted
    split at accepted
    · cases accepted
    split at accepted
    · cases accepted
    next final scanned =>
      split at accepted
      · cases accepted
      next complete =>
        split at accepted
        · cases accepted
        next ends => exact ⟨complete, final, scanned, by simpa using ends⟩
  | cons chunk rest ih =>
    simp only [validateFrom] at accepted
    split at accepted
    · cases accepted
    split at accepted
    · cases accepted
    next scanned =>
      split at accepted
      · cases accepted
      · obtain ⟨complete, final, scanned', ends⟩ := ih accepted
        refine ⟨complete, final, ?_, ends⟩
        rw [List.flatten_cons, List.append_assoc, List.foldlM_append, scanned]
        exact scanned'

theorem validateFrom_completes (alive : ∀ turn, ended turn = false) (complete : r.fault = none)
    (progress : ∀ chunk ∈ chunks, chunk ≠ [])
    (scanned : (chunks.flatten ++ r.last).foldlM Lines.next lines = some final)
    (any : final.any = true) (ends : final.lastLF = true) :
    validateFrom ended r turn lines chunks = .ok ⟨⟩ := by
  induction chunks generalizing turn lines with
  | nil =>
    rw [List.flatten_nil, List.nil_append] at scanned
    simp [validateFrom, alive, scanned, complete, any, ends]
  | cons chunk rest ih =>
    rw [List.flatten_cons, List.append_assoc, List.foldlM_append] at scanned
    obtain ⟨next, first, scanned⟩ := Option.bind_eq_some_iff.mp scanned
    have some : chunk.isEmpty = false := by
      simpa using progress chunk List.mem_cons_self
    simp only [validateFrom, alive, first, some, Bool.false_eq_true, if_false]
    exact ih (fun chunk member => progress chunk (List.mem_cons_of_mem _ member)) scanned

/-- Whether a line begins is what the checker has seen last. -/
theorem lineStartAfter_eq (scanned : bytes.foldlM Lines.next lines = some final) :
    lineStartAfter lines.lastLF bytes = final.lastLF := by
  induction bytes generalizing lines with
  | nil =>
    obtain rfl := Option.some.inj scanned
    rfl
  | cons byte rest ih =>
    rw [List.foldlM_cons] at scanned
    obtain ⟨next, first, scanned⟩ := Option.bind_eq_some_iff.mp scanned
    unfold Lines.next at first
    split at first
    · cases first
    · obtain rfl := Option.some.inj first
      exact ih scanned

theorem Canonical.decode (canonical : Canonical bytes) :
    decode .start (stuff true bytes ++ ascii ".\r\n") = some (bytes, []) := by
  obtain ⟨final, scanned, any, lastLF⟩ := canonical
  have ends : lineStartAfter true bytes = true := by
    cases bytes with
    | nil =>
      obtain rfl := Option.some.inj scanned
      cases any
    | cons byte rest => exact (lineStartAfter_eq scanned).trans lastLF
  exact decode_canonical scanned (fun _ => rfl) ends

end RelayTale.Smtp
