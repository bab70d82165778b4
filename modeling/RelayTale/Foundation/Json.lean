import RelayTale.Foundation.Text

/-!
# JSON documents

A value is written with one member or item on a line and read back from bytes.
How a string is escaped is a parameter; what is needed of it is that the text of
a literal can be read back whatever follows it.
-/

inductive Json
  | null
  | bool (value : Bool)
  | number (lexeme : Bytes)
  | string (text : Bytes)
  | array (items : List Json)
  | object (members : List (Bytes × Json))

namespace Json

inductive All (text number : Bytes → Prop) : Json → Prop
  | null : All text number .null
  | bool (value : Bool) : All text number (.bool value)
  | number {lexeme : Bytes} (holds : number lexeme) : All text number (.number lexeme)
  | string {content : Bytes} (holds : text content) : All text number (.string content)
  | array {items : List Json} (all : ∀ item ∈ items, All text number item) :
      All text number (.array items)
  | object {members : List (Bytes × Json)} (keys : ∀ member ∈ members, text member.1)
      (values : ∀ member ∈ members, All text number member.2) : All text number (.object members)

theorem All.imp {text text' number number' : Bytes → Prop} {value : Json}
    (texts : ∀ {content}, text content → text' content)
    (numbers : ∀ {lexeme}, number lexeme → number' lexeme) (all : All text number value) :
    All text' number' value := by
  induction all with
  | null => exact .null
  | bool value => exact .bool value
  | number holds => exact .number (numbers holds)
  | string holds => exact .string (texts holds)
  | array _ ih => exact .array ih
  | object keys _ ih => exact .object (fun member listed => texts (keys member listed)) ih

/-- How the text of a string is written between its quotation marks, and how it is
read behind the first of them. -/
structure Strings where
  escape : Bytes → Bytes
  scan : Bytes → Option (Bytes × Bytes)

section Writing

variable (s : Strings)

def literal (text : Bytes) : Bytes := 34 :: s.escape text ++ [34]

def blank (byte : UInt8) : Bool := byte = 32 || byte = 9 || byte = 10 || byte = 13

/-- What stands in front of an item or a closing bracket at a depth, and behind a colon. -/
structure Layout where
  line : Nat → Bytes
  gap : Bytes
  lineBlank : ∀ depth, ∀ byte ∈ line depth, blank byte = true
  gapBlank : ∀ byte ∈ gap, blank byte = true

variable (l : Layout)

mutual

def write (depth : Nat) : Json → Bytes
  | .null => [110, 117, 108, 108]
  | .bool true => [116, 114, 117, 101]
  | .bool false => [102, 97, 108, 115, 101]
  | .number lexeme => lexeme
  | .string text => literal s text
  | .array [] => [91, 93]
  | .array (item :: items) =>
      91 :: (l.line (depth + 1) ++ write (depth + 1) item ++
        (writeItems (depth + 1) items ++ l.line depth ++ [93]))
  | .object [] => [123, 125]
  | .object ((key, value) :: members) =>
      123 :: (l.line (depth + 1) ++ literal s key ++ 58 :: l.gap ++ write (depth + 1) value ++
        (writeMembers (depth + 1) members ++ l.line depth ++ [125]))

def writeItems (depth : Nat) : List Json → Bytes
  | [] => []
  | item :: items => 44 :: (l.line depth ++ write depth item ++ writeItems depth items)

def writeMembers (depth : Nat) : List (Bytes × Json) → Bytes
  | [] => []
  | (key, value) :: members =>
      44 :: (l.line depth ++ literal s key ++ 58 :: l.gap ++ write depth value ++
        writeMembers depth members)

end

def newline (depth : Nat) : Bytes := 10 :: List.replicate (2 * depth) 32

def indented : Layout where
  line := newline
  gap := [32]
  lineBlank depth := List.forall_mem_cons.mpr ⟨rfl, fun byte member => by
    rw [List.eq_of_mem_replicate member]
    rfl⟩
  gapBlank := List.forall_mem_singleton.mpr rfl

def tight : Layout where
  line _ := []
  gap := []
  lineBlank _ := List.forall_mem_nil _
  gapBlank := List.forall_mem_nil _

/-- `json.MarshalIndent` with two blanks. -/
def render (value : Json) : Bytes := write s indented 0 value

/-- `json.Marshal`. -/
def compact (value : Json) : Bytes := write s tight 0 value

end Writing

section Reading

def skip (bytes : Bytes) : Bytes := bytes.dropWhile blank

def digit (byte : UInt8) : Bool := 48 ≤ byte && byte ≤ 57

def scanDigits (bytes : Bytes) : Option (Bytes × Bytes) :=
  if (bytes.takeWhile digit).isEmpty then none
  else some (bytes.takeWhile digit, bytes.dropWhile digit)

def scanInteger : Bytes → Option (Bytes × Bytes)
  | 48 :: rest => some ([48], rest)
  | bytes => scanDigits bytes

def scanFraction : Bytes → Option (Bytes × Bytes)
  | 46 :: rest => (scanDigits rest).map fun (text, rest) => (46 :: text, rest)
  | bytes => some ([], bytes)

def scanExponent : Bytes → Option (Bytes × Bytes)
  | byte :: rest =>
      if byte = 101 || byte = 69 then
        match rest with
        | sign :: more =>
            if sign = 43 || sign = 45 then
              (scanDigits more).map fun (text, rest) => (byte :: sign :: text, rest)
            else (scanDigits rest).map fun (text, rest) => (byte :: text, rest)
        | [] => none
      else some ([], byte :: rest)
  | [] => some ([], [])

def scanSign : Bytes → Bytes × Bytes
  | 45 :: rest => ([45], rest)
  | bytes => ([], bytes)

def scanNumber (bytes : Bytes) : Option (Bytes × Bytes) := do
  let (sign, bytes) := scanSign bytes
  let (whole, bytes) ← scanInteger bytes
  let (part, bytes) ← scanFraction bytes
  let (power, bytes) ← scanExponent bytes
  some (sign ++ whole ++ part ++ power, bytes)

def scanScalar : Bytes → Option (Json × Bytes)
  | 110 :: 117 :: 108 :: 108 :: rest => some (.null, rest)
  | 116 :: 114 :: 117 :: 101 :: rest => some (.bool true, rest)
  | 102 :: 97 :: 108 :: 115 :: 101 :: rest => some (.bool false, rest)
  | bytes => (scanNumber bytes).map fun (lexeme, rest) => (.number lexeme, rest)

variable (s : Strings)

mutual

/-- A value and what follows it. The first argument bounds the nesting. -/
def parse : Nat → Bytes → Option (Json × Bytes)
  | 0, _ => none
  | fuel + 1, bytes =>
      match skip bytes with
      | 34 :: rest => (s.scan rest).map fun (text, rest) => (.string text, rest)
      | 91 :: rest =>
          match skip rest with
          | 93 :: rest => some (.array [], rest)
          | _ => (parseItems fuel rest).map fun (items, rest) => (.array items, rest)
      | 123 :: rest =>
          match skip rest with
          | 125 :: rest => some (.object [], rest)
          | _ => (parseMembers fuel rest).map fun (members, rest) => (.object members, rest)
      | rest => scanScalar rest

def parseItems : Nat → Bytes → Option (List Json × Bytes)
  | 0, _ => none
  | fuel + 1, bytes => do
      let (item, rest) ← parse fuel bytes
      match skip rest with
      | 44 :: rest => do
          let (items, rest) ← parseItems fuel rest
          some (item :: items, rest)
      | 93 :: rest => some ([item], rest)
      | _ => none

def parseMembers : Nat → Bytes → Option (List (Bytes × Json) × Bytes)
  | 0, _ => none
  | fuel + 1, bytes =>
      match skip bytes with
      | 34 :: rest => do
          let (key, rest) ← s.scan rest
          match skip rest with
          | 58 :: rest => do
              let (value, rest) ← parse fuel rest
              match skip rest with
              | 44 :: rest => do
                  let (members, rest) ← parseMembers fuel rest
                  some ((key, value) :: members, rest)
              | 125 :: rest => some ([(key, value)], rest)
              | _ => none
          | _ => none
      | _ => none

end

def read (bytes : Bytes) : Option (Json × Bytes) := parse s (bytes.length + 1) bytes

variable {s} {bytes rest : Bytes} {fuel : Nat} {text : Bytes → Prop}

/-- What one more level of calls returns, if every text that is scanned is in order. -/
structure Yields (s : Strings) (text : Bytes → Prop) (fuel : Nat) : Prop where
  value : ∀ {bytes value rest}, parse s fuel bytes = some (value, rest) →
    All text (fun _ => True) value
  items : ∀ {bytes items rest}, parseItems s fuel bytes = some (items, rest) →
    ∀ item ∈ items, All text (fun _ => True) item
  members : ∀ {bytes members rest}, parseMembers s fuel bytes = some (members, rest) →
    ∀ member ∈ members, text member.1 ∧ All text (fun _ => True) member.2

theorem scanScalar_all {value : Json} (scanned : scanScalar bytes = some (value, rest)) :
    All text (fun _ => True) value := by
  unfold scanScalar at scanned
  split at scanned
  · cases scanned
    exact .null
  · cases scanned
    exact .bool true
  · cases scanned
    exact .bool false
  · obtain ⟨number, -, same⟩ := Option.map_eq_some_iff.mp scanned
    cases same
    exact .number trivial

theorem Yields.value_succ (yields : Yields s text fuel)
    (scans : ∀ {bytes content rest}, s.scan bytes = some (content, rest) → text content)
    {value : Json} (parsed : parse s (fuel + 1) bytes = some (value, rest)) :
    All text (fun _ => True) value := by
  rw [parse] at parsed
  split at parsed
  · obtain ⟨⟨content, _⟩, scanned, same⟩ := Option.map_eq_some_iff.mp parsed
    cases same
    exact .string (scans scanned)
  · split at parsed
    · cases parsed
      exact .array (List.forall_mem_nil _)
    · obtain ⟨⟨items, _⟩, all, same⟩ := Option.map_eq_some_iff.mp parsed
      cases same
      exact .array (yields.items all)
  · split at parsed
    · cases parsed
      exact .object (List.forall_mem_nil _) (List.forall_mem_nil _)
    · obtain ⟨⟨members, _⟩, all, same⟩ := Option.map_eq_some_iff.mp parsed
      cases same
      exact .object (fun member listed => (yields.members all member listed).1)
        fun member listed => (yields.members all member listed).2
  · exact scanScalar_all parsed

theorem Yields.items_succ (yields : Yields s text fuel) {items : List Json}
    (parsed : parseItems s (fuel + 1) bytes = some (items, rest)) :
    ∀ item ∈ items, All text (fun _ => True) item := by
  rw [parseItems] at parsed
  obtain ⟨⟨item, _⟩, first, parsed⟩ := Option.bind_eq_some_iff.mp parsed
  dsimp only at parsed
  split at parsed
  · obtain ⟨⟨others, _⟩, all, same⟩ := Option.bind_eq_some_iff.mp parsed
    cases same
    exact List.forall_mem_cons.mpr ⟨yields.value first, yields.items all⟩
  · cases parsed
    exact List.forall_mem_singleton.mpr (yields.value first)
  · cases parsed

theorem Yields.members_succ (yields : Yields s text fuel)
    (scans : ∀ {bytes content rest}, s.scan bytes = some (content, rest) → text content)
    {members : List (Bytes × Json)}
    (parsed : parseMembers s (fuel + 1) bytes = some (members, rest)) :
    ∀ member ∈ members, text member.1 ∧ All text (fun _ => True) member.2 := by
  rw [parseMembers] at parsed
  split at parsed
  swap
  · cases parsed
  obtain ⟨⟨key, _⟩, scanned, parsed⟩ := Option.bind_eq_some_iff.mp parsed
  dsimp only at parsed
  split at parsed
  swap
  · cases parsed
  obtain ⟨⟨value, _⟩, first, parsed⟩ := Option.bind_eq_some_iff.mp parsed
  dsimp only at parsed
  have member : text key ∧ All text (fun _ => True) value := ⟨scans scanned, yields.value first⟩
  split at parsed
  · obtain ⟨⟨others, _⟩, all, same⟩ := Option.bind_eq_some_iff.mp parsed
    cases same
    exact List.forall_mem_cons.mpr ⟨member, yields.members all⟩
  · cases parsed
    exact List.forall_mem_singleton.mpr member
  · cases parsed

theorem read_all (scans : ∀ {bytes content rest}, s.scan bytes = some (content, rest) →
    text content) {value : Json} (parsed : read s bytes = some (value, rest)) :
    All text (fun _ => True) value := by
  have yields (fuel : Nat) : Yields s text fuel := by
    induction fuel with
    | zero => exact ⟨by simp [parse], by simp [parseItems], by simp [parseMembers]⟩
    | succ fuel ih => exact ⟨ih.value_succ scans, ih.items_succ, ih.members_succ scans⟩
  exact (yields _).value parsed

end Reading

section RoundTrip

variable {s : Strings} {l : Layout} {bytes rest : Bytes} {fuel depth : Nat}
variable {byte first : UInt8} {value : Json} {outer : Nat} {more : Bytes} {items : List Json}
variable {members : List (Bytes × Json)}

def ends (byte : UInt8) : Bool := blank byte || byte = 44 || byte = 93 || byte = 125

def Delimited (rest : Bytes) : Prop :=
  rest = [] ∨ ∃ first more, rest = first :: more ∧ ends first = true

def Strings.Reads (s : Strings) (text : Bytes) : Prop :=
  ∀ rest, s.scan (s.escape text ++ 34 :: rest) = some (text, rest)

def Lexeme (lexeme : Bytes) : Prop :=
  ∀ rest, Delimited rest → scanScalar (lexeme ++ rest) = some (.number lexeme, rest)

def Numeral (lexeme : Bytes) : Prop :=
  Lexeme lexeme ∧ ∃ first more, lexeme = first :: more ∧ digit first = true

abbrev Lawful (s : Strings) : Json → Prop := All s.Reads Numeral

mutual

def weight : Json → Nat
  | .array items => 1 + weightItems items
  | .object members => 1 + weightMembers members
  | _ => 1

def weightItems : List Json → Nat
  | [] => 0
  | item :: items => 1 + weight item + weightItems items

def weightMembers : List (Bytes × Json) → Nat
  | [] => 0
  | (_, value) :: members => 1 + weight value + weightMembers members

end

theorem skip_line : skip (l.line depth ++ bytes) = skip bytes :=
  List.dropWhile_append_of_pos (l.lineBlank depth)

theorem skip_cons (visible : blank byte = false) : skip (byte :: rest) = byte :: rest :=
  List.dropWhile_cons_of_neg (by simp [visible])

theorem parse_blanks {pad : Bytes} (blanks : ∀ byte ∈ pad, blank byte = true) :
    parse s fuel (pad ++ bytes) = parse s fuel bytes := by
  cases fuel with
  | zero => rfl
  | succ fuel => simp only [parse, skip, List.dropWhile_append_of_pos blanks]

def opening (first : UInt8) : Bool := !blank first && first ≠ 93 && first ≠ 125

theorem digit_bounds (isDigit : digit byte = true) : 48 ≤ byte.toNat ∧ byte.toNat ≤ 57 := by
  simpa [digit, UInt8.le_iff_toNat_le] using isDigit

theorem ne_of_digit {byte other : UInt8} (isDigit : digit byte = true)
    (outside : other.toNat < 48 ∨ 57 < other.toNat) : byte ≠ other := by
  rintro rfl
  have bounds := digit_bounds isDigit
  omega

theorem opening_of_digit (isDigit : digit byte = true) : opening byte = true := by
  have other {b : UInt8} (outside : b.toNat < 48 ∨ 57 < b.toNat) : byte ≠ b :=
    ne_of_digit isDigit outside
  simp [opening, blank, @other 32 (by decide), @other 9 (by decide), @other 10 (by decide),
    @other 13 (by decide), @other 93 (by decide), @other 125 (by decide)]

theorem write_opening (depth : Nat) (lawful : Lawful s value) :
    ∃ first more, write s l depth value = first :: more ∧ opening first = true := by
  cases lawful with
  | null => exact ⟨_, _, by rw [write], rfl⟩
  | bool value => cases value <;> exact ⟨_, _, by rw [write], rfl⟩
  | number numeral =>
    obtain ⟨-, first, more, rfl, isDigit⟩ := numeral
    exact ⟨first, more, by rw [write], opening_of_digit isDigit⟩
  | string reads => exact ⟨34, _, by rw [write, literal]; rfl, rfl⟩
  | @array items all => cases items <;> exact ⟨91, _, by rw [write], rfl⟩
  | @object members keys values =>
    rcases members with _ | ⟨⟨key, value⟩, members⟩ <;> exact ⟨123, _, by rw [write], rfl⟩

theorem opening_visible (opens : opening first = true) : blank first = false := by
  simp only [opening, Bool.and_eq_true, Bool.not_eq_true'] at opens
  exact opens.1.1

theorem opening_unclosed (opens : opening first = true) : first ≠ 93 := by
  simp only [opening, Bool.and_eq_true, decide_eq_true_eq] at opens
  exact opens.1.2

structure Parses (s : Strings) (l : Layout) (fuel : Nat) : Prop where
  value : ∀ {value depth rest}, Lawful s value → weight value ≤ fuel → Delimited rest →
    parse s fuel (write s l depth value ++ rest) = some (value, rest)
  items : ∀ {item items depth outer rest}, Lawful s item → (∀ v ∈ items, Lawful s v) →
    weightItems (item :: items) ≤ fuel →
    parseItems s fuel (l.line depth ++ write s l depth item ++
      (writeItems s l depth items ++ l.line outer ++ 93 :: rest)) = some (item :: items, rest)
  members : ∀ {key value members depth outer rest}, s.Reads key → Lawful s value →
    (∀ m ∈ members, s.Reads m.1) → (∀ m ∈ members, Lawful s m.2) →
    weightMembers ((key, value) :: members) ≤ fuel →
    parseMembers s fuel (l.line depth ++ literal s key ++ 58 :: l.gap ++ write s l depth value ++
      (writeMembers s l depth members ++ l.line outer ++ 125 :: rest)) =
        some ((key, value) :: members, rest)

theorem weight_pos (value : Json) : 0 < weight value := by
  cases value <;> simp only [weight] <;> omega

theorem parses_zero : Parses s l 0 where
  value {value} _ _ _ small _ := absurd small (Nat.not_le.mpr (weight_pos value))
  items _ _ small := by
    rw [weightItems] at small
    omega
  members _ _ _ _ small := by
    rw [weightMembers] at small
    omega

theorem delimited_line {mark : UInt8} (closes : ends mark = true) :
    Delimited (l.line outer ++ mark :: more) := by
  cases line : l.line outer with
  | nil => exact .inr ⟨mark, more, rfl, closes⟩
  | cons byte line' =>
    have isBlank := l.lineBlank outer byte (line ▸ List.mem_cons_self)
    exact .inr ⟨byte, _, rfl, by rw [ends, isBlank]; rfl⟩

theorem delimited_items : Delimited (writeItems s l depth items ++ l.line outer ++ 93 :: more) := by
  cases items with
  | nil =>
    rw [writeItems]
    exact delimited_line rfl
  | cons item items => exact .inr ⟨44, _, by rw [writeItems]; rfl, rfl⟩

theorem delimited_members :
    Delimited (writeMembers s l depth members ++ l.line outer ++ 125 :: more) := by
  rcases members with _ | ⟨⟨key, value⟩, members⟩
  · rw [writeMembers]
    exact delimited_line rfl
  · exact .inr ⟨44, _, by rw [writeMembers]; rfl, rfl⟩

theorem Parses.items_succ (parses : Parses s l fuel) {item : Json} (first : Lawful s item)
    (others : ∀ v ∈ items, Lawful s v) (small : weightItems (item :: items) ≤ fuel + 1) :
    parseItems s (fuel + 1) (l.line depth ++ write s l depth item ++
      (writeItems s l depth items ++ l.line outer ++ 93 :: rest)) =
        some (item :: items, rest) := by
  simp only [weightItems] at small
  rw [parseItems, List.append_assoc, parse_blanks (l.lineBlank depth),
    parses.value first (by omega) delimited_items]
  cases items with
  | nil =>
    simp only [writeItems, List.nil_append, Option.bind_eq_bind, Option.bind_some, skip_line]
    rw [skip_cons (by decide)]
    rfl
  | cons item' items =>
    obtain ⟨next, others⟩ := List.forall_mem_cons.mp others
    have tail : parseItems s fuel (l.line depth ++ write s l depth item' ++
        (writeItems s l depth items ++ l.line outer ++ 93 :: rest)) =
          some (item' :: items, rest) := parses.items next others (by omega)
    simp only [writeItems, List.cons_append, Option.bind_eq_bind, Option.bind_some]
    rw [skip_cons (by decide)]
    simp only [List.append_assoc] at tail ⊢
    rw [tail]
    rfl

theorem Parses.members_succ (parses : Parses s l fuel) {key : Bytes} (reads : s.Reads key)
    (first : Lawful s value) (keys : ∀ m ∈ members, s.Reads m.1)
    (values : ∀ m ∈ members, Lawful s m.2)
    (small : weightMembers ((key, value) :: members) ≤ fuel + 1) :
    parseMembers s (fuel + 1) (l.line depth ++ literal s key ++ 58 :: l.gap ++
      write s l depth value ++ (writeMembers s l depth members ++ l.line outer ++ 125 :: rest)) =
        some ((key, value) :: members, rest) := by
  simp only [weightMembers] at small
  have valueRead : parse s fuel (l.gap ++ (write s l depth value ++
      (writeMembers s l depth members ++ l.line outer ++ 125 :: rest))) =
        some (value, writeMembers s l depth members ++ l.line outer ++ 125 :: rest) :=
    (parse_blanks l.gapBlank).trans (parses.value first (by omega) delimited_members)
  have keyRead := reads (58 :: (l.gap ++ (write s l depth value ++
    (writeMembers s l depth members ++ l.line outer ++ 125 :: rest))))
  rw [parseMembers]
  simp only [literal, List.append_assoc, List.cons_append, List.nil_append, skip_line]
    at valueRead keyRead ⊢
  rw [skip_cons (by decide)]
  simp only [keyRead, Option.bind_eq_bind, Option.bind_some]
  rw [skip_cons (by decide)]
  simp only [valueRead, Option.bind_some]
  rcases members with _ | ⟨⟨key', value'⟩, members⟩
  · simp only [writeMembers, List.nil_append, skip_line]
    rw [skip_cons (by decide)]
    rfl
  · obtain ⟨nextKey, keys⟩ := List.forall_mem_cons.mp keys
    obtain ⟨nextValue, values⟩ := List.forall_mem_cons.mp values
    have tail : parseMembers s fuel (l.line depth ++ literal s key' ++ 58 :: l.gap ++
        write s l depth value' ++
          (writeMembers s l depth members ++ l.line outer ++ 125 :: rest)) =
            some ((key', value') :: members, rest) :=
      parses.members nextKey nextValue keys values (by omega)
    simp only [writeMembers, List.cons_append]
    rw [skip_cons (by decide)]
    simp only [literal, List.append_assoc, List.cons_append, List.nil_append] at tail ⊢
    rw [tail]
    rfl

theorem parse_scalar (visible : blank first = false) (noString : first ≠ 34) (noArray : first ≠ 91)
    (noObject : first ≠ 123) :
    parse s (fuel + 1) (first :: bytes) = scanScalar (first :: bytes) := by
  rw [parse, skip_cons visible]
  split
  next same => exact absurd (List.cons.inj same).1 noString
  next same => exact absurd (List.cons.inj same).1 noArray
  next same => exact absurd (List.cons.inj same).1 noObject
  · rfl

/-- Behind an opening bracket that is followed by a value there is no closing one. -/
theorem Parses.array_succ (parses : Parses s l fuel) {item : Json} (first : Lawful s item)
    (others : ∀ v ∈ items, Lawful s v) (small : weightItems (item :: items) ≤ fuel) :
    parse s (fuel + 1) (write s l depth (.array (item :: items)) ++ rest) =
      some (.array (item :: items), rest) := by
  obtain ⟨byte, more, written, opens⟩ := @write_opening s l _ (depth + 1) first
  have all : parseItems s fuel (l.line (depth + 1) ++ write s l (depth + 1) item ++
      (writeItems s l (depth + 1) items ++ l.line depth ++ 93 :: rest)) =
        some (item :: items, rest) := parses.items first others small
  rw [written] at all
  rw [write, parse, written, List.cons_append, skip_cons (by decide)]
  simp only [List.append_assoc, List.cons_append, List.nil_append] at all ⊢
  rw [skip_line, skip_cons (opening_visible opens), all]
  split
  next same => exact absurd (List.cons.inj same).1 (opening_unclosed opens)
  · rfl

theorem Parses.object_succ (parses : Parses s l fuel) {key : Bytes} (reads : s.Reads key)
    (first : Lawful s value) (keys : ∀ m ∈ members, s.Reads m.1)
    (values : ∀ m ∈ members, Lawful s m.2)
    (small : weightMembers ((key, value) :: members) ≤ fuel) :
    parse s (fuel + 1) (write s l depth (.object ((key, value) :: members)) ++ rest) =
      some (.object ((key, value) :: members), rest) := by
  have all : parseMembers s fuel (l.line (depth + 1) ++ literal s key ++ 58 :: l.gap ++
      write s l (depth + 1) value ++
        (writeMembers s l (depth + 1) members ++ l.line depth ++ 125 :: rest)) =
          some ((key, value) :: members, rest) := parses.members reads first keys values small
  rw [write, parse, List.cons_append, skip_cons (by decide)]
  simp only [literal, List.append_assoc, List.cons_append, List.nil_append] at all ⊢
  rw [skip_line, skip_cons (by decide), all]
  rfl

theorem Parses.value_succ (parses : Parses s l fuel) (lawful : Lawful s value)
    (small : weight value ≤ fuel + 1) (delimited : Delimited rest) :
    parse s (fuel + 1) (write s l depth value ++ rest) = some (value, rest) := by
  cases lawful with
  | null =>
    rw [write]
    exact parse_scalar (by decide) (by decide) (by decide) (by decide)
  | bool value =>
    cases value <;> rw [write] <;>
      exact parse_scalar (by decide) (by decide) (by decide) (by decide)
  | number numeral =>
    obtain ⟨reads, first, more, rfl, isDigit⟩ := numeral
    have read := reads rest delimited
    rw [write, List.cons_append, parse_scalar (opening_visible (opening_of_digit isDigit))
      (ne_of_digit isDigit (by decide)) (ne_of_digit isDigit (by decide))
      (ne_of_digit isDigit (by decide))]
    exact read
  | string reads =>
    rw [write, literal, List.cons_append, List.cons_append, List.append_assoc, parse,
      skip_cons (by decide)]
    simp only [List.singleton_append, reads rest, Option.map_some]
  | @array items all =>
    rcases items with _ | ⟨item, items⟩
    · rw [write]
      rfl
    · obtain ⟨first, others⟩ := List.forall_mem_cons.mp all
      rw [weight] at small
      exact parses.array_succ first others (by omega)
  | @object members keys values =>
    rcases members with _ | ⟨⟨key, value⟩, members⟩
    · rw [write]
      rfl
    · obtain ⟨reads, keys⟩ := List.forall_mem_cons.mp keys
      obtain ⟨first, values⟩ := List.forall_mem_cons.mp values
      rw [weight] at small
      exact parses.object_succ reads first keys values (by omega)

theorem parses (s : Strings) (l : Layout) (fuel : Nat) : Parses s l fuel := by
  induction fuel with
  | zero => exact parses_zero
  | succ fuel ih => exact ⟨ih.value_succ, ih.items_succ, ih.members_succ⟩

mutual

theorem weight_le_length (depth : Nat) :
    (value : Json) → Lawful s value → weight value ≤ (write s l depth value).length
  | .null, _ => by simp [weight, write]
  | .bool true, _ => by simp [weight, write]
  | .bool false, _ => by simp [weight, write]
  | .number lexeme, .number ⟨_, first, more, same, _⟩ => by simp [weight, write, same]
  | .string text, _ => by simp [weight, write, literal]
  | .array [], _ => by simp [weight, weightItems, write]
  | .array (item :: items), .array all => by
      have first := weight_le_length (depth + 1) item (all item List.mem_cons_self)
      have others := weightItems_le_length (depth + 1) items
        fun v member => all v (List.mem_cons_of_mem _ member)
      simp only [weight, weightItems, write, List.length_cons, List.length_append, List.length_nil]
      omega
  | .object [], _ => by simp [weight, weightMembers, write]
  | .object ((key, value) :: members), .object _ values => by
      have first := weight_le_length (depth + 1) value (values (key, value) List.mem_cons_self)
      have others := weightMembers_le_length (depth + 1) members
        fun m member => values m (List.mem_cons_of_mem _ member)
      simp only [weight, weightMembers, write, List.length_cons, List.length_append]
      omega

theorem weightItems_le_length (depth : Nat) :
    (items : List Json) → (∀ v ∈ items, Lawful s v) →
      weightItems items ≤ (writeItems s l depth items).length
  | [], _ => Nat.zero_le _
  | item :: items, all => by
      have first := weight_le_length depth item (all item List.mem_cons_self)
      have others := weightItems_le_length depth items
        fun v member => all v (List.mem_cons_of_mem _ member)
      simp only [weightItems, writeItems, List.length_cons, List.length_append]
      omega

theorem weightMembers_le_length (depth : Nat) :
    (members : List (Bytes × Json)) → (∀ m ∈ members, Lawful s m.2) →
      weightMembers members ≤ (writeMembers s l depth members).length
  | [], _ => Nat.zero_le _
  | (key, value) :: members, all => by
      have first := weight_le_length depth value (all (key, value) List.mem_cons_self)
      have others := weightMembers_le_length depth members
        fun m member => all m (List.mem_cons_of_mem _ member)
      simp only [weightMembers, writeMembers, List.length_cons, List.length_append]
      omega

end

theorem read_write (lawful : Lawful s value) : read s (write s l 0 value) = some (value, []) := by
  have fits := @weight_le_length s l 0 value lawful
  have parsed : parse s ((write s l 0 value).length + 1) (write s l 0 value ++ []) =
      some (value, []) := (parses s l _).value lawful (by omega) (.inl rfl)
  rwa [List.append_nil] at parsed

/-- The bytes of a document determine it. -/
theorem write_injective {value other : Json} (lawful : Lawful s value) (lawful' : Lawful s other)
    (same : write s l 0 value = write s l 0 other) : value = other := by
  have reading := @read_write s l value lawful
  rw [same, read_write lawful'] at reading
  exact (Prod.mk.inj (Option.some.inj reading)).1.symm

def texts (members : List (Bytes × Bytes)) : List (Bytes × Json) :=
  members.map fun member => (member.1, .string member.2)

theorem lawful_texts {members : List (Bytes × Bytes)}
    (keys : ∀ member ∈ members, s.Reads member.1) (values : ∀ member ∈ members, s.Reads member.2) :
    Lawful s (.object (texts members)) := by
  refine .object (fun member listed => ?_) (fun member listed => ?_)
  · obtain ⟨text, own, rfl⟩ := List.mem_map.mp listed
    exact keys text own
  · obtain ⟨text, own, rfl⟩ := List.mem_map.mp listed
    exact .string (values text own)

end RoundTrip

section Numbers

def decimal (n : Nat) : Bytes :=
  if n < 10 then [UInt8.ofNat (48 + n)] else decimal (n / 10) ++ [UInt8.ofNat (48 + n % 10)]

def natural (lexeme : Bytes) : Nat :=
  lexeme.foldl (fun value byte => 10 * value + (byte.toNat - 48)) 0

def integral : Bytes → Option Int
  | 45 :: lexeme =>
      if lexeme ≠ [] ∧ lexeme.all digit then some (-(natural lexeme : Int)) else none
  | lexeme => if lexeme ≠ [] ∧ lexeme.all digit then some (natural lexeme) else none

variable {n : Nat} {rest : Bytes}

theorem digit_ofNat (small : n < 10) :
    digit (UInt8.ofNat (48 + n)) = true ∧ (UInt8.ofNat (48 + n)).toNat = 48 + n := by
  have exact : (UInt8.ofNat (48 + n)).toNat = 48 + n := by
    rw [UInt8.toNat_ofNat']
    omega
  refine ⟨?_, exact⟩
  simp only [digit, Bool.and_eq_true, decide_eq_true_eq, UInt8.le_iff_toNat_le, exact]
  exact ⟨Nat.le_add_right 48 n, by change 48 + n ≤ 57; omega⟩

theorem decimal_digits (n : Nat) : (decimal n).all digit = true ∧ decimal n ≠ [] := by
  fun_induction decimal n with
  | case1 n small =>
    exact ⟨List.all_eq_true.mpr (List.forall_mem_singleton.mpr (digit_ofNat small).1),
      List.cons_ne_nil _ _⟩
  | case2 n large ih =>
    refine ⟨?_, List.append_ne_nil_of_right_ne_nil _ (List.cons_ne_nil _ _)⟩
    rw [List.all_append, ih.1, Bool.true_and]
    exact List.all_eq_true.mpr
      (List.forall_mem_singleton.mpr (digit_ofNat (Nat.mod_lt n (by decide))).1)

theorem natural_decimal (n : Nat) : natural (decimal n) = n := by
  fun_induction decimal n with
  | case1 n small =>
    simp only [natural, List.foldl_cons, List.foldl_nil, (digit_ofNat small).2]
    omega
  | case2 n large ih =>
    unfold natural at ih ⊢
    rw [List.foldl_append, ih]
    simp only [List.foldl_cons, List.foldl_nil, (digit_ofNat (Nat.mod_lt n (by decide))).2]
    omega

/-- A number does not begin with zero unless it is zero. -/
theorem decimal_head (positive : 0 < n) :
    ∃ first more, decimal n = first :: more ∧ first ≠ 48 ∧ digit first = true := by
  fun_induction decimal n with
  | case1 n small =>
    refine ⟨_, [], rfl, fun zero => ?_, (digit_ofNat small).1⟩
    have exact := (digit_ofNat small).2
    rw [zero] at exact
    have zero : (48 : UInt8).toNat = 48 := rfl
    omega
  | case2 n large ih =>
    obtain ⟨first, more, same, nonzero, isDigit⟩ := ih (by omega)
    exact ⟨first, _, by rw [same]; rfl, nonzero, isDigit⟩

theorem integral_decimal (n : Nat) : integral (decimal n) = some (n : Int) := by
  obtain ⟨digits, nonempty⟩ := decimal_digits n
  unfold integral
  split
  next lexeme same =>
    rw [same] at digits
    simp [digit] at digits
  · rw [if_pos ⟨nonempty, digits⟩, natural_decimal]

/-- Nothing of a number stands behind it. -/
theorem Delimited.scans (delimited : Delimited rest) :
    rest.takeWhile digit = [] ∧ rest.dropWhile digit = rest ∧
      scanFraction rest = some ([], rest) ∧ scanExponent rest = some ([], rest) := by
  rcases delimited with rfl | ⟨first, more, rfl, last⟩
  · exact ⟨rfl, rfl, rfl, rfl⟩
  · simp only [ends, blank, Bool.or_eq_true, decide_eq_true_eq] at last
    rcases last with (((((rfl | rfl) | rfl) | rfl) | rfl) | rfl) | rfl <;>
      exact ⟨rfl, rfl, rfl, rfl⟩

theorem scanInteger_decimal (n : Nat) (delimited : Delimited rest) :
    scanInteger (decimal n ++ rest) = some (decimal n, rest) := by
  obtain ⟨digits, nonempty⟩ := decimal_digits n
  obtain ⟨none, all, -⟩ := delimited.scans
  have taken : (decimal n ++ rest).takeWhile digit = decimal n := by
    rw [List.takeWhile_append_of_pos (List.all_eq_true.mp digits), none, List.append_nil]
  have dropped : (decimal n ++ rest).dropWhile digit = rest := by
    rw [List.dropWhile_append_of_pos (List.all_eq_true.mp digits), all]
  have scanned : scanDigits (decimal n ++ rest) = some (decimal n, rest) := by
    rw [scanDigits, taken, dropped, if_neg (by simpa using nonempty)]
  rcases Nat.eq_zero_or_pos n with rfl | positive
  · rw [decimal]
    rfl
  · obtain ⟨first, more, same, nonzero, -⟩ := decimal_head positive
    rw [← scanned]
    unfold scanInteger
    split
    next rest' zero =>
      rw [same, List.cons_append] at zero
      exact absurd (List.cons.inj zero).1 nonzero
    · rfl

theorem decimal_cons (n : Nat) : ∃ first more, decimal n = first :: more ∧ digit first = true := by
  obtain ⟨digits, nonempty⟩ := decimal_digits n
  obtain ⟨first, more, same⟩ := List.exists_cons_of_ne_nil nonempty
  rw [same] at digits
  exact ⟨first, more, same, (List.all_eq_true.mp digits) first List.mem_cons_self⟩

theorem scanNumber_decimal (n : Nat) (delimited : Delimited rest) :
    scanNumber (decimal n ++ rest) = some (decimal n, rest) := by
  have whole := scanInteger_decimal n delimited
  obtain ⟨-, -, part, power⟩ := delimited.scans
  obtain ⟨first, more, same, isDigit⟩ := decimal_cons n
  rw [same, List.cons_append] at whole ⊢
  have unsigned : scanSign (first :: (more ++ rest)) = ([], first :: (more ++ rest)) := by
    unfold scanSign
    split
    next begins => exact absurd (List.cons.inj begins).1 (ne_of_digit isDigit (by decide))
    · rfl
  simp only [scanNumber, unsigned, whole, part, power, Option.bind_eq_bind, Option.bind_some,
    List.nil_append, List.append_nil]

theorem lexeme_decimal (n : Nat) : Lexeme (decimal n) := by
  intro rest delimited
  have read := scanNumber_decimal n delimited
  obtain ⟨first, more, same, isDigit⟩ := decimal_cons n
  rw [same, List.cons_append] at read ⊢
  unfold scanScalar
  split
  next begins => exact absurd (List.cons.inj begins).1 (ne_of_digit isDigit (by decide))
  next begins => exact absurd (List.cons.inj begins).1 (ne_of_digit isDigit (by decide))
  next begins => exact absurd (List.cons.inj begins).1 (ne_of_digit isDigit (by decide))
  · rw [read]
    rfl

theorem lawful_decimal (s : Strings) (n : Nat) : Lawful s (.number (decimal n)) :=
  .number ⟨lexeme_decimal n, decimal_cons n⟩

end Numbers

end Json
