import RelayTale.Foundation.Buffered
import RelayTale.Foundation.Guard
import RelayTale.Smtp.Stream

/-!
# Mail that arrives by SMTP

`Receive` reads the header of a message from a buffered reader, asks whether the
sender named there is allowed, and streams the header and the rest of the data
into the archive. The bytes are not changed on the way, whatever the reads of
the connection return.
-/

namespace RelayTale.Intake

open Smtp Guard

/-- The calls of the file system in `Save`. -/
inductive Operation
  | directory
  | temporary
  | sync
  | close
  | link
  | remove
  | syncDirectory
  deriving DecidableEq, Repr

inductive IngressError
  | busy
  | senderDenied
  | identifier
  | invalidMessage
  | read (reason : Stop Fault)
  | context
  | limit
  | operation (failed : Operation)
  | write
  | tooLarge
  | enqueue
  deriving DecidableEq, Repr

/-- What `mail.ReadMessage` finds in a header. Addresses are those of the lists
that `AddressList` and `ParseAddress` return. -/
structure Header where
  from_ : List String
  fromAddresses : Option (List String)
  sender : List String
  senderAddress : Option String
  messageID : String
  subject : String
  deriving DecidableEq, Repr

structure Metadata where
  messageID : String
  headerFrom : String
  subject : String
  deriving DecidableEq, Repr

structure StoredArchive where
  path : String
  size : Nat
  sha256 : String
  deriving DecidableEq, Repr

structure Delivered where
  id : String
  sender : String
  recipients : List String
  archive : StoredArchive
  metadata : Metadata
  deriving DecidableEq, Repr

structure Envelope where
  allows : String → Bool
  sender : String
  recipients : List String

/-- What the calls of other packages return. -/
structure Surroundings where
  acquires : Bool
  newID : Option String
  readMessage : Bytes → Option Header
  digest : Bytes → String
  directory : String
  /-- Whether the context has ended at a read of the copy. -/
  ended : Nat → Bool
  endedAfter : Bool
  writes : Nat → Bool
  succeeds : Operation → Bool
  enqueues : Bool

def readError : Option (Cut Fault) → IngressError
  | some (.stopped (.fault cause)) => .read (.fault cause)
  | some (.stopped .noProgress) => .read .noProgress
  | _ => .invalidMessage

/-- The loop of `readHeader`; `lineBytes` counts the bytes of the line that was begun. -/
def readHeaderFrom (b : Bytes) (lineBytes : Nat) (r : Buffered UInt8 Fault) :
    Except IngressError (Bytes × Buffered UInt8 Fault) :=
  let line := r.readSlice 10
  let lineBytes := lineBytes + line.bytes.length
  if 262144 < b.length ∨ 262144 < (b ++ line.bytes).length then .error .invalidMessage
  else if line.stop = some .full then readHeaderFrom (b ++ line.bytes) lineBytes line.rest
  else if line.stop ≠ none then .error (readError line.stop)
  else if lineBytes = 2 ∧ line.bytes = [13, 10] ∨ lineBytes = 1 ∧ line.bytes = [10] then
    .ok (b ++ line.bytes, line.rest)
  else readHeaderFrom (b ++ line.bytes) 0 line.rest
termination_by 262145 - b.length
decreasing_by
  · have fragment := (Buffered.readSlice_sliced (b := r)).fragment ‹_›
    have positive := r.positive
    simp only [List.length_append] at *
    omega
  · obtain ⟨body, whole, -⟩ := (Buffered.readSlice_sliced (b := r)).whole (not_not.mp ‹_›)
    simp only [List.length_append, whole, List.length_singleton] at *
    omega

def readHeader (r : Buffered UInt8 Fault) : Except IngressError (Bytes × Buffered UInt8 Fault) :=
  readHeaderFrom [] 0 r

def metadata (env : Surroundings) (e : Envelope) (header : Bytes) :
    Except IngressError Metadata :=
  match env.readMessage header with
  | none => .error .invalidMessage
  | some msg => do
      require (msg.from_.length = 1) .invalidMessage
      let headerFrom ←
        match msg.fromAddresses with
        | some [address] => .ok address
        | _ => .error .invalidMessage
      require (e.allows headerFrom) .senderDenied
      require (msg.sender.length ≤ 1) .invalidMessage
      require (msg.sender.head?.getD "" = "" ∨ msg.senderAddress.any e.allows) .senderDenied
      .ok ⟨msg.messageID, headerFrom, msg.subject⟩

/-- The header that was read, and the buffered reader behind it. -/
structure Joined where
  header : Bytes
  rest : Buffered UInt8 Fault

namespace Joined

def pending (m : Joined) : Bytes := m.header ++ m.rest.pending

def weight (m : Joined) : Nat := m.header.length + m.rest.weight

def read (m : Joined) (capacity : Nat) : ReadResult UInt8 (Stop Fault) Joined :=
  if m.header ≠ [] then
    ⟨m.header.take capacity, none, { m with header := m.header.drop capacity }⟩
  else
    ⟨(m.rest.read capacity).bytes, (m.rest.read capacity).stop,
      { m with rest := (m.rest.read capacity).rest }⟩

structure Fetched (capacity : Nat) (m : Joined) (taken : ReadResult UInt8 (Stop Fault) Joined) :
    Prop where
  pending : taken.bytes ++ taken.rest.pending = m.pending
  fault : taken.rest.rest.source.fault = m.rest.source.fault
  ended : taken.stop = some .eof → taken.rest.pending = [] ∧ taken.rest.rest.source.fault = none
  bound : taken.bytes.length ≤ capacity
  shrinks : taken.stop = none → taken.rest.weight < m.weight

theorem read_fetched {m : Joined} {capacity : Nat} (positive : 0 < capacity) :
    Fetched capacity m (m.read capacity) := by
  unfold read
  split
  next present =>
    have occupied := List.length_pos_iff.mpr present
    refine ⟨?_, rfl, by rintro ⟨⟩, List.length_take_le _ _, fun _ => ?_⟩
    · simp only [Joined.pending, ← List.append_assoc, List.take_append_drop]
    · simp only [weight, List.length_drop]
      omega
  next absent =>
    have empty : m.header = [] := not_not.mp absent
    obtain ⟨pending, fault, ended, bound, shrinks⟩ :=
      Buffered.read_fetched (b := m.rest) positive
    refine ⟨?_, fault, ?_, bound, fun more => ?_⟩
    · simpa only [Joined.pending, empty, List.nil_append] using pending
    · simpa only [Joined.pending, empty, List.nil_append] using ended
    · simpa only [weight, empty, List.length_nil, Nat.zero_add] using shrinks more

end Joined

/-- `io.Copy` from a limited reader whose limit is what `remaining` is. -/
def copyFrom (env : Surroundings) (turn : Nat) (remaining : Int) (m : Joined) (file : Bytes) :
    Except IngressError Bytes :=
  if remaining ≤ 0 then .ok file
  else if env.ended turn then .error .context
  else
    let taken := m.read (min 32768 remaining.toNat)
    if taken.bytes ≠ [] ∧ !env.writes turn then .error .write
    else if taken.stop = none then
      copyFrom env (turn + 1) (remaining - taken.bytes.length) taken.rest (file ++ taken.bytes)
    else if taken.stop = some .eof then .ok (file ++ taken.bytes)
    else .error (readError (taken.stop.map .stopped))
termination_by m.weight
decreasing_by
  exact (Joined.read_fetched (by omega)).shrinks ‹_›

/-- `s.MaxBytes+1` in 64 bits. -/
def readLimit (maxBytes : Int) : Int := (maxBytes + 1).bmod (2 ^ 64)

/-- `Save` up to the point where the file gets its name. -/
def store (env : Surroundings) (maxBytes : Int) (m : Joined) : Except IngressError Bytes := do
  require (0 < maxBytes) .limit
  require (env.succeeds .directory) (.operation .directory)
  require (env.succeeds .temporary) (.operation .temporary)
  let file ← copyFrom env 0 (readLimit maxBytes) m []
  require (file.length ≤ maxBytes) .tooLarge
  require (!env.endedAfter) .context
  require (env.succeeds .sync) (.operation .sync)
  require (env.succeeds .close) (.operation .close)
  require (env.succeeds .link) (.operation .link)
  .ok file

/-- What was published under the name of the message, and what the caller is told. -/
structure Saved where
  published : Option Bytes
  result : Except IngressError StoredArchive

def save (env : Surroundings) (maxBytes : Int) (id : String) (m : Joined) : Saved :=
  match store env maxBytes m with
  | .error cause => ⟨none, .error cause⟩
  | .ok file =>
      { published := some file
        result := do
          require (env.succeeds .remove) (.operation .remove)
          require (env.succeeds .syncDirectory) (.operation .syncDirectory)
          .ok ⟨env.directory ++ "/" ++ id ++ ".eml", file.length, env.digest file⟩ }

structure Announced where
  id : String
  metadata : Metadata
  content : Joined

def announce (env : Surroundings) (e : Envelope) (r : Reads UInt8 Fault) :
    Except IngressError Announced := do
  require env.acquires .busy
  require (e.allows e.sender ∧ e.recipients ≠ []) .senderDenied
  let id ← demand env.newID .identifier
  let (header, rest) ← readHeader (.new 4096 (Nat.succ_pos 4095) r)
  let metadata ← metadata env e header
  .ok ⟨id, metadata, ⟨header, rest⟩⟩

structure Reception where
  result : Except IngressError String
  published : Option Bytes
  submitted : Option Delivered

def receive (env : Surroundings) (maxBytes : Int) (e : Envelope) (r : Reads UInt8 Fault) :
    Reception :=
  match announce env e r with
  | .error cause => ⟨.error cause, none, none⟩
  | .ok announced =>
      let saved := save env maxBytes announced.id announced.content
      match saved.result with
      | .error cause => ⟨.error cause, saved.published, none⟩
      | .ok archive =>
          { result := if env.enqueues then .ok announced.id else .error .enqueue
            published := saved.published
            submitted := some ⟨announced.id, e.sender, e.recipients, archive, announced.metadata⟩ }

section Header

def EndsHeader (p : Bytes) : Prop :=
  ∃ lines, (p = lines ++ [10] ∨ p = lines ++ [13, 10]) ∧ (lines = [] ∨ lines.getLast? = some 10)

/-- The shortest part of the data from its start that ends with an empty line. -/
structure FirstEmptyLine (d header : Bytes) : Prop where
  within : header <+: d
  ends : EndsHeader header
  shortest : ∀ p, p <+: d → EndsHeader p → header.length ≤ p.length

/-- What the loop of `readHeader` knows of the data: `b` has no empty line, and
`lineBytes` of its bytes are on a line that was begun. -/
structure Scanned (d b : Bytes) (lineBytes : Nat) (r : Buffered UInt8 Fault) : Prop where
  joined : b ++ r.pending = d
  absent : ∀ p, p <+: b → ¬ EndsHeader p
  begun : ∃ front line, b = front ++ line ∧ (front = [] ∨ front.getLast? = some 10) ∧
    10 ∉ line ∧ line.length = lineBytes
  /-- A carriage return alone was not cut from its line feed. -/
  uncut : lineBytes ≠ 1
  size : 1 < r.size

variable {d b p front line rest : Bytes}

theorem EndsHeader.concat (ends : EndsHeader p) : ∃ q, p = q ++ [10] := by
  obtain ⟨lines, rfl | rfl, -⟩ := ends
  · exact ⟨lines, rfl⟩
  · exact ⟨lines ++ [13], by simp⟩

theorem EndsHeader.within (ends : EndsHeader p) (starts : p <+: b ++ rest) (plain : 10 ∉ rest) :
    p <+: b := by
  induction rest using List.reverseRecOn with
  | nil => simpa using starts
  | append_singleton rest byte ih =>
    rw [← List.append_assoc, List.prefix_concat_iff] at starts
    rcases starts with whole | starts
    · obtain ⟨q, rfl⟩ := ends.concat
      have same : 10 = byte := (List.append_inj' whole rfl).2 |> List.singleton_inj.mp
      exact absurd (List.mem_append_right rest (List.mem_singleton.mpr same)) plain
    · exact ih starts fun inside => plain (List.mem_append_left _ inside)

/-- The part of a line behind its start is empty if the line is. -/
theorem line_nil (plain : 10 ∉ line)
    (starts : front ++ line = [] ∨ (front ++ line).getLast? = some 10) : line = [] := by
  rcases starts with nothing | last
  · exact (List.append_eq_nil_iff.mp nothing).2
  · by_contra some
    rw [List.getLast?_append_of_ne_nil _ some] at last
    exact plain (List.mem_of_getLast? last)

theorem endsHeader_iff (plain : 10 ∉ line) (starts : front = [] ∨ front.getLast? = some 10) :
    EndsHeader (front ++ line ++ [10]) ↔ line = [] ∨ line = [13] := by
  constructor
  · rintro ⟨lines, same | same, begins⟩
    · obtain rfl : front ++ line = lines := (List.append_inj' same rfl).1
      exact .inl (line_nil plain begins)
    · have same : front ++ line = lines ++ [13] := by
        rw [← List.append_left_inj [10], same]
        simp
      rcases List.eq_nil_or_concat' line with rfl | ⟨line', byte, rfl⟩
      · rw [List.append_nil] at same
        simp [same] at starts
      · rw [← List.append_assoc] at same
        obtain ⟨rfl, last⟩ := List.append_inj' same rfl
        obtain rfl := List.singleton_inj.mp last
        rw [line_nil (fun inside => plain (List.mem_append_left _ inside)) begins]
        exact .inr rfl
  · rintro (rfl | rfl)
    · exact ⟨front, .inl (by simp), starts⟩
    · exact ⟨front, .inr (by simp), starts⟩

variable {lineBytes : Nat} {r : Buffered UInt8 Fault} (scanned : Scanned d b lineBytes r)

include scanned

theorem Scanned.fragment (full : (r.readSlice 10).stop = some .full) :
    Scanned d (b ++ (r.readSlice 10).bytes) (lineBytes + (r.readSlice 10).bytes.length)
      (r.readSlice 10).rest := by
  have sliced : Buffered.Sliced 10 r (r.readSlice 10) := Buffered.readSlice_sliced
  obtain ⟨joined, absent, ⟨front, line, rfl, starts, plain, length⟩, -, size⟩ := scanned
  obtain ⟨whole, unended⟩ := sliced.fragment full
  refine ⟨?_, fun p starts ends => absent p (ends.within starts unended) ends,
    ⟨front, line ++ (r.readSlice 10).bytes, List.append_assoc _ _ _, starts, ?_, ?_⟩, ?_, ?_⟩
  · rw [List.append_assoc, sliced.pending, joined]
  · simp [plain, unended]
  · rw [List.length_append, length]
  · omega
  · rwa [sliced.size]

theorem Scanned.lineEnd (whole : (r.readSlice 10).stop = none) :
    (EndsHeader (b ++ (r.readSlice 10).bytes) ↔
      lineBytes + (r.readSlice 10).bytes.length = 2 ∧ (r.readSlice 10).bytes = [13, 10] ∨
        lineBytes + (r.readSlice 10).bytes.length = 1 ∧ (r.readSlice 10).bytes = [10]) ∧
    (∀ p, p <+: b ++ (r.readSlice 10).bytes → EndsHeader p → p = b ++ (r.readSlice 10).bytes) := by
  have sliced : Buffered.Sliced 10 r (r.readSlice 10) := Buffered.readSlice_sliced
  obtain ⟨-, absent, ⟨front, line, rfl, starts, plain, length⟩, uncut, -⟩ := scanned
  obtain ⟨body, ends, unended⟩ := sliced.whole whole
  rw [ends]
  constructor
  · have split : front ++ line ++ (body ++ [10]) = front ++ (line ++ body) ++ [10] := by simp
    rw [split, endsHeader_iff (by simp [plain, unended]) starts]
    subst length
    have crlf : body ++ [10] = [13, 10] ↔ body = [13] := by
      rw [show ([13, 10] : Bytes) = [13] ++ [10] from rfl, List.append_left_inj]
    rcases line with _ | ⟨first, _ | ⟨second, more⟩⟩
    · simp only [crlf, List.nil_append, List.length_nil]
      constructor
      · rintro (rfl | rfl) <;> simp
      · rintro (⟨-, rfl⟩ | ⟨-, nothing⟩)
        · exact .inr rfl
        · exact .inl (by simpa using nothing)
    · exact absurd rfl uncut
    · simp [crlf]
      omega
  · intro p starts ends
    rw [← List.append_assoc, List.prefix_concat_iff] at starts
    rcases starts with rfl | starts
    · simp
    · exact absurd ends (absent p (ends.within starts unended))

theorem Scanned.next (whole : (r.readSlice 10).stop = none)
    (more : ¬ EndsHeader (b ++ (r.readSlice 10).bytes)) :
    Scanned d (b ++ (r.readSlice 10).bytes) 0 (r.readSlice 10).rest := by
  have sliced : Buffered.Sliced 10 r (r.readSlice 10) := Buffered.readSlice_sliced
  obtain ⟨body, ends, -⟩ := sliced.whole whole
  refine ⟨?_, fun p starts ends => ?_, ⟨b ++ (r.readSlice 10).bytes, [], by simp, .inr ?_,
    List.not_mem_nil, rfl⟩, Nat.zero_ne_one, ?_⟩
  · rw [List.append_assoc, sliced.pending, scanned.joined]
  · exact more ((scanned.lineEnd whole).2 p starts ends ▸ ends)
  · simp [ends]
  · rw [sliced.size]
    exact scanned.size

theorem Scanned.found (whole : (r.readSlice 10).stop = none)
    (ends : EndsHeader (b ++ (r.readSlice 10).bytes)) :
    FirstEmptyLine d (b ++ (r.readSlice 10).bytes) := by
  have sliced : Buffered.Sliced 10 r (r.readSlice 10) := Buffered.readSlice_sliced
  have within : b ++ (r.readSlice 10).bytes <+: d := by
    rw [← scanned.joined, ← sliced.pending, ← List.append_assoc]
    exact List.prefix_append _ _
  refine ⟨within, ends, fun p starts ends => ?_⟩
  -- A shorter one would be a part of what was read, and there is only the whole.
  by_contra shorter
  have starts := List.prefix_of_prefix_length_le starts within (by omega)
  exact shorter (le_of_eq (congrArg List.length ((scanned.lineEnd whole).2 p starts ends).symm))

theorem readHeaderFrom_found {header : Bytes} {rest : Buffered UInt8 Fault}
    (read : readHeaderFrom b lineBytes r = .ok (header, rest)) :
    FirstEmptyLine d header ∧ header.length ≤ 262144 ∧ header ++ rest.pending = d ∧
      rest.source.fault = r.source.fault := by
  fun_induction readHeaderFrom b lineBytes r with
  | case1 => cases read
  | case2 b lineBytes r line lineBytes' short full ih =>
    obtain ⟨found, bound, joined, fault⟩ := ih (scanned.fragment full) read
    exact ⟨found, bound, joined, fault.trans Buffered.readSlice_sliced.fault⟩
  | case3 => cases read
  | case4 b lineBytes r line lineBytes' short _ whole empty =>
    obtain ⟨rfl, rfl⟩ := Prod.mk.inj (Except.ok.inj read)
    have whole := not_not.mp whole
    have sliced : Buffered.Sliced 10 r (r.readSlice 10) := Buffered.readSlice_sliced
    refine ⟨scanned.found whole ((scanned.lineEnd whole).1.mpr empty), by omega, ?_, sliced.fault⟩
    rw [List.append_assoc, sliced.pending, scanned.joined]
  | case5 b lineBytes r line lineBytes' short _ whole more ih =>
    have whole := not_not.mp whole
    have unended := fun ends => more ((scanned.lineEnd whole).1.mp ends)
    obtain ⟨found, bound, joined, fault⟩ := ih (scanned.next whole unended) read
    exact ⟨found, bound, joined, fault.trans Buffered.readSlice_sliced.fault⟩

end Header

theorem copyFrom_take {env : Surroundings} {turn : Nat} {remaining : Int} {m : Joined}
    {file out : Bytes} (copied : copyFrom env turn remaining m file = .ok out) :
    out = file ++ m.pending.take remaining.toNat ∧
      (m.pending.length < remaining → m.rest.source.fault = none) := by
  fun_induction copyFrom env turn remaining m file with
  | case1 turn remaining m file spent =>
    obtain rfl := Except.ok.inj copied
    have spent : remaining.toNat = 0 := by omega
    exact ⟨by simp [spent], fun short => by omega⟩
  | case2 => cases copied
  | case3 => cases copied
  | case4 turn remaining m file more _ taken _ goes ih =>
    obtain ⟨pending, fault, -, bound, -⟩ : Joined.Fetched (min 32768 remaining.toNat) m taken :=
      Joined.read_fetched (by omega)
    obtain ⟨rfl, complete⟩ := ih copied
    have short : taken.bytes.length ≤ remaining.toNat := bound.trans (Nat.min_le_right _ _)
    rw [fault] at complete
    rw [← pending, List.take_append, List.take_of_length_le short, List.append_assoc,
      List.length_append]
    refine ⟨?_, fun within => complete (by push_cast at within; omega)⟩
    congr 3
    omega
  | case5 turn remaining m file more _ taken _ _ ended =>
    obtain ⟨pending, fault, atEnd, bound, -⟩ : Joined.Fetched (min 32768 remaining.toNat) m taken :=
      Joined.read_fetched (by omega)
    obtain rfl := Except.ok.inj copied
    obtain ⟨nothing, complete⟩ := atEnd ended
    rw [nothing, List.append_nil] at pending
    rw [← pending, List.take_of_length_le (bound.trans (Nat.min_le_right _ _))]
    exact ⟨rfl, fun _ => fault ▸ complete⟩
  | case6 => cases copied

theorem readLimit_eq {maxBytes : Int} (positive : 0 < maxBytes)
    (range : maxBytes < 9223372036854775807) : readLimit maxBytes = maxBytes + 1 := by
  simp only [readLimit, Int.bmod]
  omega

theorem store_exact {env : Surroundings} {maxBytes : Int} {m : Joined} {file : Bytes}
    (range : maxBytes < 9223372036854775807) (stored : store env maxBytes m = .ok file) :
    file = m.pending ∧ m.pending.length ≤ maxBytes ∧ m.rest.source.fault = none := by
  simp only [store, do_eq_ok, require_eq_ok] at stored
  obtain ⟨-, positive, -, -, -, -, copy, copied, -, bound, -, -, -, -, -, -, -, -, stored⟩ := stored
  obtain rfl : copy = file := Except.ok.inj stored
  rw [readLimit_eq positive range] at copied
  obtain ⟨whole, complete⟩ := copyFrom_take copied
  rw [List.nil_append] at whole
  -- One byte more than the limit would have been copied if there were one.
  have short : m.pending.length ≤ maxBytes := by
    rw [whole, List.length_take] at bound
    omega
  exact ⟨whole.trans (List.take_of_length_le (by omega)), short, complete (by omega)⟩

theorem announce_header {env : Surroundings} {e : Envelope} {r : Reads UInt8 Fault}
    {announced : Announced} (announces : announce env e r = .ok announced) :
    ∃ header, FirstEmptyLine r.content header ∧ header.length ≤ 262144 ∧
      metadata env e header = .ok announced.metadata ∧
      announced.content.pending = r.content ∧ announced.content.rest.source.fault = r.fault := by
  simp only [announce, do_eq_ok, require_eq_ok, demand_eq_ok, Prod.exists] at announces
  obtain ⟨-, -, -, -, id, -, header, rest, read, found, authorised, same⟩ := announces
  obtain rfl := Except.ok.inj same
  have start : Scanned r.content [] 0 (.new 4096 (Nat.succ_pos 4095) r) := by
    refine ⟨rfl, fun p starts ends => ?_, ⟨[], [], rfl, .inl rfl, List.not_mem_nil, rfl⟩,
      Nat.zero_ne_one, (by decide : 1 < 4096)⟩
    obtain ⟨q, rfl⟩ := ends.concat
    simp at starts
  obtain ⟨first, bound, joined, fault⟩ := readHeaderFrom_found start read
  exact ⟨header, first, bound, authorised, joined, fault⟩

/-- The three ways in which `Receive` ends. -/
theorem receive_cases (env : Surroundings) (maxBytes : Int) (e : Envelope)
    (r : Reads UInt8 Fault) :
    (∃ cause, receive env maxBytes e r = ⟨.error cause, none, none⟩) ∨
    ∃ announced file, announce env e r = .ok announced ∧
      store env maxBytes announced.content = .ok file ∧
      ((∃ cause, receive env maxBytes e r = ⟨.error cause, some file, none⟩) ∨
        receive env maxBytes e r =
          { result := if env.enqueues then .ok announced.id else .error .enqueue
            published := some file
            submitted := some ⟨announced.id, e.sender, e.recipients,
              ⟨env.directory ++ "/" ++ announced.id ++ ".eml", file.length, env.digest file⟩,
              announced.metadata⟩ }) := by
  unfold receive
  cases announces : announce env e r with
  | error cause => exact .inl ⟨cause, rfl⟩
  | ok announced =>
    simp only [save]
    cases stored : store env maxBytes announced.content with
    | error cause => exact .inl ⟨cause, rfl⟩
    | ok file =>
      refine .inr ⟨announced, file, rfl, stored, ?_⟩
      dsimp only
      split
      next cause _ => exact .inl ⟨cause, rfl⟩
      next archive kept =>
        simp only [do_eq_ok] at kept
        obtain ⟨-, -, -, -, same⟩ := kept
        exact .inr (Except.ok.inj same ▸ rfl)

/-- A message that is answered with an ID is in the archive as it was received,
and its sender was authorised by its own header. A message without an end of its
header, or one that is too long, leaves nothing. -/
theorem receive_archives_exactly (env : Surroundings) (maxBytes : Int)
    (upper : maxBytes < 9223372036854775807) (e : Envelope) (r : Reads UInt8 Fault) :
    (∀ id, (receive env maxBytes e r).result = .ok id →
      r.fault = none ∧ (receive env maxBytes e r).published = some r.content ∧
      ∃ sub header, (receive env maxBytes e r).submitted = some sub ∧ sub.id = id ∧
        sub.archive.size = r.content.length ∧ sub.archive.sha256 = env.digest r.content ∧
        FirstEmptyLine r.content header ∧ header.length ≤ 262144 ∧
        metadata env e header = .ok sub.metadata) ∧
    ((∀ p, p <+: r.content → EndsHeader p → 262144 < p.length) ∨ maxBytes < r.content.length →
      (receive env maxBytes e r).published = none ∧
        (receive env maxBytes e r).submitted = none) := by
  obtain ⟨cause, nothing⟩ | ⟨announced, file, announces, stored, ends⟩ :=
    receive_cases env maxBytes e r
  · rw [nothing]
    exact ⟨by rintro id ⟨⟩, fun _ => ⟨rfl, rfl⟩⟩
  · obtain ⟨header, first, bound, authorised, pending, fault⟩ := announce_header announces
    obtain ⟨rfl, short, complete⟩ := store_exact upper stored
    rw [pending] at short ends
    refine ⟨fun id answered => ?_, ?_⟩
    · obtain ⟨cause, failed⟩ | done := ends
      · rw [failed] at answered
        cases answered
      · rw [done] at answered ⊢
        refine ⟨fault ▸ complete, rfl, _, header, rfl, ?_, rfl, rfl, first, bound, authorised⟩
        dsimp only at answered ⊢
        split at answered
        · exact Except.ok.inj answered
        · cases answered
    · rintro (unended | long)
      · exact absurd (unended header first.within first.ends) (not_lt.mpr bound)
      · exact absurd long (not_lt.mpr short)

/-- The line `From: a@b` and an empty line. -/
def senderHeader : Bytes := [70, 114, 111, 109, 58, 32, 97, 64, 98, 13, 10, 13, 10]

def calm : Surroundings where
  acquires := true
  newID := some "0190"
  readMessage := fun header =>
    if header = senderHeader then some ⟨["a@b"], some ["a@b"], [], none, "", ""⟩ else none
  digest := fun bytes => toString bytes.length
  directory := "/mail/2026/01/01"
  ended := fun _ => false
  endedAfter := false
  writes := fun _ => true
  succeeds := fun _ => true
  enqueues := true

/-- The line `x` behind the header, read in pieces that cut the empty line. -/
def shortMail : Reads UInt8 Fault :=
  ⟨[senderHeader.take 12, [], [10, 120]], [13, 10], none⟩

def anyone : Envelope := ⟨(· = "a@b"), "a@b", ["c@d"]⟩

theorem receive_archives_exactly_of_shortMail :
    (receive calm 16 anyone shortMail).published = some (senderHeader ++ [120, 13, 10]) ∧
    (receive calm 15 anyone shortMail).published = none :=
  ⟨((receive_archives_exactly calm 16 (by decide) anyone shortMail).1 "0190"
      (by decide +kernel)).2.1,
    ((receive_archives_exactly calm 15 (by decide) anyone shortMail).2 (.inr (by decide))).1⟩

/-- At the largest 64-bit limit, which the configuration does not admit, nothing would be read. -/
example : (receive calm 9223372036854775807 anyone shortMail).published = some [] := by
  decide +kernel

end RelayTale.Intake
