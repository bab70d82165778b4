import RelayTale.Foundation.Json

/-!
# Texts and fields of a document

How `encoding/json` writes a byte string, and how it reads a document into the
fields of a structure. Bytes that are not valid UTF-8 are replaced on both sides,
so whatever is read is valid UTF-8 and only such a text survives.
-/

namespace Json

open Text

section Writing

/-- A byte that stands for itself between quotation marks (`htmlSafeSet`). -/
def plain (byte : UInt8) : Bool :=
  0x20 ≤ byte && byte < 0x80 && byte ≠ 34 && byte ≠ 92 && byte ≠ 38 && byte ≠ 60 && byte ≠ 62

def escapeASCII (byte : UInt8) : Bytes :=
  if plain byte then [byte]
  else if byte = 34 || byte = 92 then [92, byte]
  else if byte = 8 then [92, 98]
  else if byte = 12 then [92, 102]
  else if byte = 10 then [92, 110]
  else if byte = 13 then [92, 114]
  else if byte = 9 then [92, 116]
  else [92, 117, 48, 48, hexDigit (byte / 16), hexDigit (byte % 16)]

def escapeRune : Bytes → Bytes
  | [byte] => if byte < 0x80 then escapeASCII byte else replacementRune
  | rune =>
      if rune = [0xE2, 0x80, 0xA8] then [92, 117, 50, 48, 50, 56]
      else if rune = [0xE2, 0x80, 0xA9] then [92, 117, 50, 48, 50, 57]
      else rune

def escape (text : Bytes) : Bytes := (runes text).flatMap escapeRune

def integer (n : Int) : Json :=
  .number (if n < 0 then 45 :: decimal n.natAbs else decimal n.natAbs)

end Writing

section Reading

def readHex4 : Bytes → Option (Nat × Bytes)
  | a :: b :: c :: d :: rest => do
      let a ← hexValue a
      let b ← hexValue b
      let c ← hexValue c
      let d ← hexValue d
      some (((a.toNat * 16 + b.toNat) * 16 + c.toNat) * 16 + d.toNat, rest)
  | _ => none

/-- `utf8.AppendRune`. -/
def encodeRune (code : Nat) : Bytes :=
  if code < 0x80 then [UInt8.ofNat code]
  else if code < 0x800 then [UInt8.ofNat (0xC0 + code / 64), UInt8.ofNat (0x80 + code % 64)]
  else if (0xD800 ≤ code ∧ code < 0xE000) ∨ 0x10FFFF < code then replacementRune
  else if code < 0x10000 then
    [UInt8.ofNat (0xE0 + code / 4096), UInt8.ofNat (0x80 + code / 64 % 64),
      UInt8.ofNat (0x80 + code % 64)]
  else
    [UInt8.ofNat (0xF0 + code / 262144), UInt8.ofNat (0x80 + code / 4096 % 64),
      UInt8.ofNat (0x80 + code / 64 % 64), UInt8.ofNat (0x80 + code % 64)]

/-- The other half of a surrogate pair that begins with `high`. A half without the
other becomes the replacement rune. -/
def scanLow (high : Nat) (bytes : Bytes) : Bytes × Bytes :=
  match bytes with
  | 92 :: 117 :: more =>
      match readHex4 more with
      | some (low, rest) =>
          if high < 0xDC00 ∧ 0xDC00 ≤ low ∧ low < 0xE000 then
            (encodeRune ((high - 0xD800) * 1024 + (low - 0xDC00) + 0x10000), rest)
          else (replacementRune, bytes)
      | none => (replacementRune, bytes)
  | _ => (replacementRune, bytes)

def scanUnicode (bytes : Bytes) : Option (Bytes × Bytes) := do
  let (code, rest) ← readHex4 bytes
  if 0xD800 ≤ code ∧ code < 0xE000 then some (scanLow code rest)
  else some (encodeRune code, rest)

def simpleEscape : UInt8 → Option UInt8
  | 34 => some 34
  | 92 => some 92
  | 47 => some 47
  | 98 => some 8
  | 102 => some 12
  | 110 => some 10
  | 114 => some 13
  | 116 => some 9
  | _ => none

/-- What stands at the head of a literal: an escape, or a rune as it is. -/
def scanRune (bytes : Bytes) : Option (Bytes × Bytes) :=
  match bytes with
  | [] => none
  | 92 :: [] => none
  | 92 :: byte :: rest =>
      if byte = 117 then scanUnicode rest else (simpleEscape byte).map fun byte => ([byte], rest)
  | byte :: rest =>
      if byte < 0x20 then none
      else if runeWidth bytes = 0 then some (replacementRune, rest)
      else some (bytes.take (runeWidth bytes), bytes.drop (runeWidth bytes))

def scanText : (fuel : Nat) → Bytes → Option (Bytes × Bytes)
  | 0, _ => none
  | _ + 1, 34 :: rest => some ([], rest)
  | fuel + 1, bytes => do
      let (rune, rest) ← scanRune bytes
      let (text, rest) ← scanText fuel rest
      some (rune ++ text, rest)

/-- The text of a literal up to its closing quotation mark. -/
def scan (bytes : Bytes) : Option (Bytes × Bytes) := scanText bytes.length bytes

def strings : Strings := ⟨escape, scan⟩

/-- The field with that name, or else one whose name differs in case only. -/
def findField {Field : Type} (fields : List (Bytes × Field)) (key : Bytes) : Option Field :=
  ((fields.find? fun field => field.1 = key).or
    (fields.find? fun field => fold field.1 = fold key)).map Prod.snd

/-- A string, or `null`, which leaves the field as it is. -/
def readText (old : Bytes) : Json → Option Bytes
  | .string text => some text
  | .null => some old
  | _ => none

def readInt64 (old : Int) : Json → Option Int
  | .number lexeme => (integral lexeme).filter fun n => -2 ^ 63 ≤ n && n < 2 ^ 63
  | .null => some old
  | _ => none

/-- An object whose fields are all known, or `null`. -/
def readObject {Field Value : Type} (fields : List (Bytes × Field))
    (set : Field → Value → Json → Option Value) (zero : Value) : Json → Option Value
  | .object members =>
      members.foldlM (fun value member => do
        let field ← findField fields member.1
        set field value member.2) zero
  | .null => some zero
  | _ => none

end Reading

section RoundTrip

variable {rune text : Bytes}

theorem readHex4_byte (byte : UInt8) (rest : Bytes) :
    readHex4 (48 :: 48 :: hexDigit (byte / 16) :: hexDigit (byte % 16) :: rest) =
      some (byte.toNat, rest) := by
  have digit {value : UInt8} (small : value.toNat < 16) :
      hexValue (hexDigit value) = some value := by
    have read := hexValue_hexDigit value.toNat small
    rwa [UInt8.ofNat_toNat] at read
  have high : hexValue (hexDigit (byte / 16)) = some (byte / 16) :=
    digit (by have := byte.toNat_lt; simp; omega)
  have low : hexValue (hexDigit (byte % 16)) = some (byte % 16) := digit (by simp; omega)
  have zero : hexValue 48 = some 0 := rfl
  simp [readHex4, high, low, zero]
  omega

theorem scanUnicode_byte {byte : UInt8} (small : byte < 0x80) (rest : Bytes) :
    scanUnicode (48 :: 48 :: hexDigit (byte / 16) :: hexDigit (byte % 16) :: rest) =
      some ([byte], rest) := by
  have small : byte.toNat < 128 := UInt8.lt_iff_toNat_lt.mp small
  have encoded : encodeRune byte.toNat = [byte] := by
    rw [encodeRune, if_pos small, UInt8.ofNat_toNat]
  simp only [scanUnicode, readHex4_byte, Option.bind_eq_bind, Option.bind_some, encoded]
  rw [if_neg (by omega)]

/-- A rune that stands for itself is read as it is. -/
theorem scanRune_rune {first : UInt8} (isRune : Rune (first :: text))
    (visible : 0x20 ≤ first) (unescaped : first ≠ 92) (rest : Bytes) :
    scanRune (first :: text ++ rest) = some (first :: text, rest) := by
  have width := isRune.2 rest
  rw [List.cons_append] at width ⊢
  unfold scanRune
  split
  next empty => cases empty
  next same => exact absurd (List.cons.inj same).1 unescaped
  next same => exact absurd (List.cons.inj same).1 unescaped
  next same =>
    obtain ⟨rfl, rfl⟩ := List.cons.inj same
    rw [if_neg (UInt8.not_lt.mpr visible), width, if_neg (by simp), ← List.cons_append,
      List.take_left, List.drop_left]

theorem scanRune_escapeASCII {byte : UInt8} (small : byte < 0x80) (rest : Bytes) :
    scanRune (escapeASCII byte ++ rest) = some ([byte], rest) := by
  unfold escapeASCII
  split_ifs with isPlain quoted
  · simp only [plain, Bool.and_eq_true, decide_eq_true_eq, ne_eq] at isPlain
    exact scanRune_rune (rune_ascii small) isPlain.1.1.1.1.1.1 isPlain.1.1.1.2 rest
  · simp only [Bool.or_eq_true, decide_eq_true_eq] at quoted
    rcases quoted with rfl | rfl <;> rfl
  all_goals first | (subst byte; rfl) | exact scanUnicode_byte small rest

theorem scanRune_escapeRune (isRune : Rune rune) (rest : Bytes) :
    scanRune (escapeRune rune ++ rest) = some (rune, rest) := by
  unfold escapeRune
  split
  next byte =>
    rw [if_pos isRune.ascii]
    exact scanRune_escapeASCII isRune.ascii rest
  next several =>
    split_ifs with line paragraph
    · subst line
      rfl
    · subst paragraph
      rfl
    obtain ⟨first, more, rfl⟩ := List.exists_cons_of_ne_nil isRune.1
    have large : ¬first < 0x80 := fun small =>
      several first (by rw [isRune.ascii_iff.mp small])
    have large : 0x80 ≤ first.toNat := UInt8.le_iff_toNat_le.mp (UInt8.not_lt.mp large)
    refine scanRune_rune isRune (UInt8.le_iff_toNat_le.mpr ?_) ?_ rest
    · exact Nat.le_trans (by decide) large
    · rintro rfl
      exact absurd large (by decide)

theorem escapeASCII_head (byte : UInt8) :
    plain byte = true ∧ escapeASCII byte = [byte] ∨ ∃ more, escapeASCII byte = 92 :: more := by
  unfold escapeASCII
  by_cases isPlain : plain byte = true
  · exact .inl ⟨isPlain, if_pos isPlain⟩
  · rw [if_neg isPlain]
    simp only [← apply_ite (List.cons (92 : UInt8))]
    exact .inr ⟨_, rfl⟩

theorem escapeRune_head (isRune : Rune rune) :
    ∃ first more, escapeRune rune = first :: more ∧ first ≠ 34 := by
  unfold escapeRune
  split
  next byte =>
    rw [if_pos isRune.ascii]
    rcases escapeASCII_head byte with ⟨isPlain, same⟩ | ⟨more, same⟩
    · simp only [plain, Bool.and_eq_true, decide_eq_true_eq, ne_eq] at isPlain
      exact ⟨byte, [], same, isPlain.1.1.1.1.2⟩
    · exact ⟨92, more, same, by decide⟩
  next several =>
    split_ifs
    · exact ⟨92, _, rfl, by decide⟩
    · exact ⟨92, _, rfl, by decide⟩
    obtain ⟨first, more, rfl⟩ := List.exists_cons_of_ne_nil isRune.1
    refine ⟨first, more, rfl, ?_⟩
    rintro rfl
    exact several 34 (by rw [isRune.ascii_iff.mp (by decide)])

theorem escape_append (isRune : Rune rune) (text : Bytes) :
    escape (rune ++ text) = escapeRune rune ++ escape text := by
  rw [escape, runes_append isRune, List.flatMap_cons]
  rfl

theorem escape_plain {text : Bytes} (safe : ∀ byte ∈ text, plain byte = true) :
    escape text = text := by
  induction text with
  | nil => simp [escape, runes]
  | cons byte text ih =>
    obtain ⟨first, rest⟩ := List.forall_mem_cons.mp safe
    have small : byte < 0x80 := by
      simp only [plain, Bool.and_eq_true, decide_eq_true_eq] at first
      exact first.1.1.1.1.1.2
    rw [← List.singleton_append, escape_append (rune_ascii small), ih rest]
    simp only [escapeRune, if_pos small, escapeASCII, if_pos first]

theorem scanText_cons {fuel : Nat} (isRune : Rune rune) (bytes : Bytes) :
    scanText (fuel + 1) (escapeRune rune ++ bytes) =
      (scanText fuel bytes).map fun (text, rest) => (rune ++ text, rest) := by
  obtain ⟨first, more, same, unquoted⟩ := escapeRune_head isRune
  have scanned := scanRune_escapeRune isRune bytes
  rw [same, List.cons_append] at scanned ⊢
  rw [scanText, scanned]
  · simp only [Option.bind_eq_bind, Option.bind_some]
    cases scanText fuel bytes <;> rfl
  · exact fun rest quoted => unquoted (List.cons.inj quoted).1

/-- A valid text is read back, with as many steps as it has bytes or more. -/
theorem scanText_escape (valid : validUTF8 text = true) (rest : Bytes) :
    ∀ fuel, (escape text).length < fuel →
      scanText fuel (escape text ++ 34 :: rest) = some (text, rest) := by
  refine rune_induction (motive := fun text => ∀ fuel, (escape text).length < fuel →
    scanText fuel (escape text ++ 34 :: rest) = some (text, rest)) ?_ ?_ text valid
  · intro fuel enough
    cases fuel with
    | zero => omega
    | succ fuel => rw [escape, runes]; rfl
  · intro rune text isRune ih fuel enough
    obtain ⟨first, more, same, -⟩ := escapeRune_head isRune
    rw [escape_append isRune] at enough ⊢
    cases fuel with
    | zero => omega
    | succ fuel =>
      have fits : (escape text).length < fuel := by
        rw [same, List.length_append, List.length_cons] at enough
        omega
      rw [List.append_assoc, scanText_cons isRune, ih fuel fits]
      rfl

theorem reads_of_valid {text : Bytes} (valid : validUTF8 text = true) : strings.Reads text :=
  fun rest => scanText_escape valid rest _ (by simp [strings])

theorem lawful_text {text : Bytes} (valid : validUTF8 text = true) :
    Lawful strings (.string text) := .string (reads_of_valid valid)

theorem lawful_object {members : List (Bytes × Json)}
    (keys : (members.all fun member => validUTF8 member.1) = true)
    (values : ∀ member ∈ members, Lawful strings member.2) : Lawful strings (.object members) :=
  .object (fun member listed => reads_of_valid (List.all_eq_true.mp keys member listed)) values

/-- A size that an `int64` holds. -/
def int64 (n : Int) : Prop := 0 ≤ n ∧ n < 2 ^ 63

theorem lawful_integer {n : Int} (fits : int64 n) : Lawful strings (integer n) := by
  rw [integer, if_neg (Int.not_lt.mpr fits.1)]
  exact lawful_decimal strings _

theorem readInt64_integer {n old : Int} (fits : int64 n) :
    readInt64 old (integer n) = some n := by
  obtain ⟨nonneg, small⟩ := fits
  rw [integer, if_neg (Int.not_lt.mpr nonneg), readInt64, integral_decimal]
  have same : (n.natAbs : Int) = n := Int.natAbs_of_nonneg nonneg
  rw [same, Option.filter_some, if_pos]
  simp only [Bool.and_eq_true, decide_eq_true_eq]
  omega

end RoundTrip

section Written

variable {text rest rune : Bytes} {l : Layout}

theorem escapeASCII_small : ∀ n < 128,
    (escapeASCII (UInt8.ofNat n)).all (· < 0x80) = true := by
  decide

theorem escapeRune_valid (isRune : Rune rune) : validUTF8 (escapeRune rune) = true := by
  unfold escapeRune
  split
  next byte =>
    rw [if_pos isRune.ascii]
    have small := escapeASCII_small byte.toNat (UInt8.lt_iff_toNat_lt.mp isRune.ascii)
    rw [UInt8.ofNat_toNat, List.all_eq_true] at small
    exact validUTF8_ascii fun byte member => by simpa using small byte member
  · split_ifs
    · rfl
    · rfl
    · rw [← List.append_nil rune, validUTF8_append isRune]
      rfl

theorem escape_valid (valid : validUTF8 text = true) : validUTF8 (escape text) = true := by
  refine rune_induction (motive := fun text => validUTF8 (escape text) = true)
    (by simp [escape, runes, validUTF8, validFrom]) (fun rune more isRune ih => ?_) text valid
  rw [escape_append isRune, validUTF8_append_valid (escapeRune_valid isRune), ih]

theorem literal_valid (valid : validUTF8 text = true) :
    validUTF8 (literal strings text) = true := by
  have quote : validUTF8 [34] = true := rfl
  have escaped : validUTF8 (strings.escape text) = true := escape_valid valid
  rw [literal, ← List.singleton_append, List.append_assoc, validUTF8_append_valid quote,
    validUTF8_append_valid escaped, quote]

theorem blanks_valid {pad : Bytes} (blanks : ∀ byte ∈ pad, blank byte = true) :
    validUTF8 (pad ++ rest) = validUTF8 rest := by
  refine validUTF8_append_valid (validUTF8_ascii fun byte member => ?_)
  have isBlank := blanks byte member
  simp only [blank, Bool.or_eq_true, decide_eq_true_eq] at isBlank
  rcases isBlank with ((rfl | rfl) | rfl) | rfl <;> decide

theorem writeItems_valid {items : List Json} {depth : Nat}
    (all : ∀ item ∈ items, validUTF8 (write strings l depth item) = true) :
    validUTF8 (writeItems strings l depth items) = true := by
  induction items with
  | nil =>
    rw [writeItems]
    rfl
  | cons item items ih =>
    obtain ⟨head, tail⟩ := List.forall_mem_cons.mp all
    rw [writeItems, valid_cons (by decide), List.append_assoc, blanks_valid (l.lineBlank depth),
      validUTF8_append_valid head, ih tail]

theorem writeMembers_valid {members : List (Bytes × Json)} {depth : Nat}
    (keys : ∀ member ∈ members, validUTF8 member.1 = true)
    (all : ∀ member ∈ members, validUTF8 (write strings l depth member.2) = true) :
    validUTF8 (writeMembers strings l depth members) = true := by
  induction members with
  | nil =>
    rw [writeMembers]
    rfl
  | cons member members ih =>
    obtain ⟨key, keys⟩ := List.forall_mem_cons.mp keys
    obtain ⟨head, tail⟩ := List.forall_mem_cons.mp all
    simp only [writeMembers, List.append_assoc, List.cons_append]
    rw [valid_cons (by decide), blanks_valid (l.lineBlank depth),
      validUTF8_append_valid (literal_valid key), valid_cons (by decide),
      blanks_valid l.gapBlank, validUTF8_append_valid head, ih keys tail]

theorem write_valid {value : Json}
    (all : All (validUTF8 · = true) (validUTF8 · = true) value) :
    ∀ depth, validUTF8 (write strings l depth value) = true := by
  induction all with
  | null => intro depth; rw [write]; rfl
  | bool value => intro depth; cases value <;> rw [write] <;> rfl
  | number holds => intro depth; rwa [write]
  | string holds => intro depth; rw [write]; exact literal_valid holds
  | @array items _ ih =>
    intro depth
    cases items with
    | nil => rw [write]; rfl
    | cons item items =>
      obtain ⟨head, tail⟩ := List.forall_mem_cons.mp ih
      simp only [write, List.append_assoc]
      rw [valid_cons (by decide), blanks_valid (l.lineBlank _), validUTF8_append_valid (head _),
        validUTF8_append_valid (writeItems_valid fun item listed => tail item listed _),
        blanks_valid (l.lineBlank _)]
      rfl
  | @object members keys _ ih =>
    intro depth
    cases members with
    | nil => rw [write]; rfl
    | cons member members =>
      obtain ⟨key, keys⟩ := List.forall_mem_cons.mp keys
      obtain ⟨head, tail⟩ := List.forall_mem_cons.mp ih
      simp only [write, List.append_assoc, List.cons_append]
      rw [valid_cons (by decide), blanks_valid (l.lineBlank _),
        validUTF8_append_valid (literal_valid key), valid_cons (by decide),
        blanks_valid l.gapBlank, validUTF8_append_valid (head _),
        validUTF8_append_valid (writeMembers_valid keys fun member listed => tail member listed _),
        blanks_valid (l.lineBlank _)]
      rfl

end Written

section Accepted

variable {bytes text rest : Bytes}

/-- A byte that is given by its value, between two bounds. -/
theorem within_ofNat {low high : UInt8} {n : Nat} (small : n < 256)
    (bounds : low.toNat ≤ n ∧ n ≤ high.toNat) : within low high (UInt8.ofNat n) = true := by
  rwa [within_bounds, UInt8.toNat_ofNat', Nat.mod_eq_of_lt small]

theorem encodeRune_rune (code : Nat) : Rune (encodeRune code) := by
  have follows (n : Nat) : continuation (UInt8.ofNat (0x80 + n % 64)) = true :=
    within_ofNat (by omega) ⟨Nat.le_add_right 128 _, by change _ ≤ 191; omega⟩
  have value {n : Nat} {byte : UInt8} (small : n < 256) (same : UInt8.ofNat n = byte) :
      n = byte.toNat := by
    rw [← same, UInt8.toNat_ofNat', Nat.mod_eq_of_lt small]
  unfold encodeRune
  split_ifs with one two bad three
  · refine rune_ascii (UInt8.lt_iff_toNat_lt.mpr ?_)
    rw [UInt8.toNat_ofNat']
    change _ < 128
    omega
  · refine Sequence.isRune (.two (within_ofNat (by omega) ⟨?_, ?_⟩) (follows code))
    · change 194 ≤ _
      omega
    · change _ ≤ 223
      omega
  · exact replacementRune_rune
  · refine Sequence.isRune (.three (within_ofNat (by omega) ⟨?_, ?_⟩) (within_ofNat (by omega) ⟨?_, ?_⟩)
      (follows code))
    · change 224 ≤ _
      omega
    · change _ ≤ 239
      omega
    · split_ifs with first
      · have first : 0xE0 + code / 4096 = 224 := value (by omega) first
        change 160 ≤ _
        omega
      · exact Nat.le_add_right 128 _
    · split_ifs with last
      · have last : 0xE0 + code / 4096 = 237 := value (by omega) last
        change _ ≤ 159
        omega
      · change _ ≤ 191
        omega
  · refine Sequence.isRune (.four (within_ofNat (by omega) ⟨?_, ?_⟩) (within_ofNat (by omega) ⟨?_, ?_⟩)
      (follows _) (follows _))
    · change 240 ≤ _
      omega
    · change _ ≤ 244
      omega
    · split_ifs with first
      · have first : 0xF0 + code / 262144 = 240 := value (by omega) first
        change 144 ≤ _
        omega
      · exact Nat.le_add_right 128 _
    · split_ifs with last
      · have last : 0xF0 + code / 262144 = 244 := value (by omega) last
        change _ ≤ 143
        omega
      · change _ ≤ 191
        omega

theorem rune_of_simple {byte code : UInt8} (read : simpleEscape byte = some code) :
    Rune [code] := by
  unfold simpleEscape at read
  split at read <;> cases read
  all_goals exact rune_ascii (by decide)

theorem scanUnicode_rune (scanned : scanUnicode bytes = some (text, rest)) : Rune text := by
  simp only [scanUnicode, Option.bind_eq_bind, Option.bind_eq_some_iff] at scanned
  obtain ⟨⟨code, more⟩, -, scanned⟩ := scanned
  dsimp only at scanned
  split at scanned
  · have halved : Rune (scanLow code more).1 := by
      unfold scanLow
      split
      · split
        · split
          · dsimp only
            exact encodeRune_rune _
          · exact replacementRune_rune
        · exact replacementRune_rune
      · exact replacementRune_rune
    rwa [Option.some.inj scanned] at halved
  · cases scanned
    exact encodeRune_rune code

theorem scanRune_rune_of (scanned : scanRune bytes = some (text, rest)) : Rune text := by
  unfold scanRune at scanned
  split at scanned
  · cases scanned
  · cases scanned
  · split at scanned
    · exact scanUnicode_rune scanned
    · obtain ⟨code, read, same⟩ := Option.map_eq_some_iff.mp scanned
      cases same
      exact rune_of_simple read
  · split at scanned
    · cases scanned
    · split at scanned
      · cases scanned
        exact replacementRune_rune
      next begins =>
        obtain ⟨rune, more, same, isRune, width⟩ := rune_head _ begins
        rw [← width, same, List.take_left] at scanned
        cases scanned
        exact isRune

theorem scanText_valid {fuel : Nat} (scanned : scanText fuel bytes = some (text, rest)) :
    validUTF8 text = true := by
  fun_induction scanText fuel bytes generalizing text with
  | case1 => cases scanned
  | case2 =>
    cases scanned
    rfl
  | case3 fuel bytes _ ih =>
    simp only [Option.bind_eq_bind, Option.bind_eq_some_iff, Option.some.injEq] at scanned
    obtain ⟨⟨rune, more⟩, read, ⟨text, _⟩, others, same⟩ := scanned
    cases same
    rw [validUTF8_append (scanRune_rune_of read)]
    exact ih more others

theorem read_valid {document : Json} (parsed : read strings bytes = some (document, rest)) :
    All (validUTF8 · = true) (fun _ => True) document :=
  read_all (fun scanned => scanText_valid scanned) parsed

variable {holds number : Bytes → Prop} {document : Json}

theorem readText_holds {old new : Bytes} (texts : All holds number document) (before : holds old)
    (read : readText old document = some new) : holds new := by
  unfold readText at read
  split at read
  · cases read
    cases texts with
    | string after => exact after
  · cases read
    exact before
  · cases read

theorem readObject_keeps {Field Value : Type} {fields : List (Bytes × Field)}
    {set : Field → Value → Json → Option Value} {holds : Value → Prop} {text : Bytes → Prop}
    {start result : Value} (texts : All text number document)
    (keeps : ∀ field value member value', holds value → All text number member →
      set field value member = some value' → holds value')
    (begins : holds start) (read : readObject fields set start document = some result) :
    holds result := by
  cases texts with
  | null =>
    cases read
    exact begins
  | @object members keys values =>
    simp only [readObject] at read
    induction members generalizing start with
    | nil =>
      cases read
      exact begins
    | cons member members ih =>
      simp only [List.foldlM_cons, Option.bind_eq_bind, Option.bind_eq_some_iff] at read
      obtain ⟨next, ⟨field, -, step⟩, read⟩ := read
      obtain ⟨own, values⟩ := List.forall_mem_cons.mp values
      exact ih (keeps field start member.2 next begins own step)
        (List.forall_mem_cons.mp keys).2 values read
  | _ => cases read

end Accepted

end Json
