import Mathlib.Data.List.Basic
import Mathlib.Tactic.Linarith

/-!
# Bytes and text

Strings are arbitrary bytes, as in Go. Which of them are valid UTF-8 is decided
rune by rune.
-/

abbrev Bytes := List UInt8

instance : LawfulBEq Bytes := inferInstanceAs (LawfulBEq (List UInt8))

def ascii (text : String) : Bytes := text.toList.map fun char => UInt8.ofNat char.toNat

namespace Text

/-- `strings.ReplaceAll` for a nonempty `old`: leftmost occurrences, not
overlapping. `skip` counts the bytes left of the occurrence just replaced. -/
def replaceFrom (old new : Bytes) : (skip : Nat) → Bytes → Bytes
  | _, [] => []
  | skip + 1, _ :: rest => replaceFrom old new skip rest
  | 0, byte :: rest =>
      if old.isPrefixOf (byte :: rest) then
        new ++ replaceFrom old new (old.length - 1) rest
      else byte :: replaceFrom old new 0 rest

def replaceAll (text old new : Bytes) : Bytes := replaceFrom old new 0 text

def base64Alphabet : Bytes :=
  ascii "ABCDEFGHIJKLMNOPQRSTUVWXYZabcdefghijklmnopqrstuvwxyz0123456789+/"

def base64Digit (value : Nat) : UInt8 := base64Alphabet.getD (value % 64) 0

/-- `base64.StdEncoding.EncodeToString`. -/
def base64 : Bytes → Bytes
  | [] => []
  | [a] =>
      let n := a.toNat * 65536
      [base64Digit (n / 262144), base64Digit (n / 4096), 61, 61]
  | [a, b] =>
      let n := a.toNat * 65536 + b.toNat * 256
      [base64Digit (n / 262144), base64Digit (n / 4096), base64Digit (n / 64), 61]
  | a :: b :: c :: rest =>
      let n := a.toNat * 65536 + b.toNat * 256 + c.toNat
      base64Digit (n / 262144) :: base64Digit (n / 4096) :: base64Digit (n / 64) ::
        base64Digit n :: base64 rest

def within (low high byte : UInt8) : Bool := decide (low ≤ byte ∧ byte ≤ high)

def continuation : UInt8 → Bool := within 0x80 0xBF

/-- Width of the UTF-8 sequence at the head, `0` where the head is invalid. -/
def runeWidth : Bytes → Nat
  | [] => 0
  | a :: rest =>
      if a < 0x80 then 1
      else if within 0xC2 0xDF a then
        if (rest.take 1).map continuation = [true] then 2 else 0
      else if within 0xE0 0xEF a then
        match rest with
        | b :: c :: _ =>
            let low := if a = 0xE0 then 0xA0 else 0x80
            let high := if a = 0xED then 0x9F else 0xBF
            if within low high b && continuation c then 3 else 0
        | _ => 0
      else if within 0xF0 0xF4 a then
        match rest with
        | b :: c :: d :: _ =>
            let low := if a = 0xF0 then 0x90 else 0x80
            let high := if a = 0xF4 then 0x8F else 0xBF
            if within low high b && continuation c && continuation d then 4 else 0
        | _ => 0
      else 0

def replacementRune : Bytes := [0xEF, 0xBF, 0xBD]

/-- `strings.ToValidUTF8`: every run of invalid bytes becomes one replacement.
`copy` counts the bytes left of the valid sequence being copied. -/
def toValidFrom : (copy : Nat) → (invalid : Bool) → Bytes → Bytes
  | _, _, [] => []
  | copy + 1, invalid, byte :: rest => byte :: toValidFrom copy invalid rest
  | 0, invalid, byte :: rest =>
      match runeWidth (byte :: rest) with
      | 0 => (if invalid then [] else replacementRune) ++ toValidFrom 0 true rest
      | width + 1 => byte :: toValidFrom width false rest

def toValidUTF8 (text : Bytes) : Bytes := toValidFrom 0 false text

/-- The bytes form runes from here on, but for the first `copy` of them. -/
def validFrom : (copy : Nat) → Bytes → Bool
  | _, [] => true
  | copy + 1, _ :: rest => validFrom copy rest
  | 0, byte :: rest =>
      match runeWidth (byte :: rest) with
      | 0 => false
      | width + 1 => validFrom width rest

/-- `utf8.ValidString`. -/
def validUTF8 (text : Bytes) : Bool := validFrom 0 text

/-- The encodings of the runes for which `unicode.IsSpace` holds. -/
def spaceRunes : List Bytes :=
  [[0x09], [0x0A], [0x0B], [0x0C], [0x0D], [0x20], [0xC2, 0x85], [0xC2, 0xA0],
    [0xE1, 0x9A, 0x80], [0xE2, 0x80, 0xA8], [0xE2, 0x80, 0xA9], [0xE2, 0x80, 0xAF],
    [0xE2, 0x81, 0x9F], [0xE3, 0x80, 0x80]] ++
  (List.range 11).map fun n => [0xE2, 0x80, UInt8.ofNat (0x80 + n)]

def spaceWidth (text : Bytes) : Nat :=
  match spaceRunes.find? fun rune => rune.isPrefixOf text with
  | some rune => rune.length
  | none => 0

def dropSpaces : (skip : Nat) → Bytes → Bytes
  | _, [] => []
  | skip + 1, _ :: rest => dropSpaces skip rest
  | 0, byte :: rest =>
      match spaceWidth (byte :: rest) with
      | 0 => byte :: rest
      | width + 1 => dropSpaces width rest

/-- Drops `count` space runes from the end, if there are so many. -/
def dropLastSpaces : (count : Nat) → Bytes → Bytes
  | 0, text => text
  | count + 1, text =>
      match spaceRunes.find? fun rune => rune.isSuffixOf text with
      | some rune => dropLastSpaces count (text.take (text.length - rune.length))
      | none => text

/-- `strings.TrimSpace`. -/
def trimSpace (text : Bytes) : Bytes :=
  dropLastSpaces text.length (dropSpaces 0 text)

/-- Capital letters for small ones. Two runes beyond ASCII fold to a letter, so texts of
which one is ASCII are equal up to case if this is the same for both. -/
def fold : Bytes → Bytes
  | 0xC5 :: 0xBF :: rest => 83 :: fold rest
  | 0xE2 :: 0x84 :: 0xAA :: rest => 75 :: fold rest
  | byte :: rest => (if within 0x61 0x7A byte then byte - 32 else byte) :: fold rest
  | [] => []

def takeField : (copy : Nat) → Bytes → Bytes
  | _, [] => []
  | copy + 1, byte :: rest => byte :: takeField copy rest
  | 0, byte :: rest =>
      match spaceWidth (byte :: rest) with
      | 0 => byte :: takeField (runeWidth (byte :: rest) - 1) rest
      | _ + 1 => []

/-- `strings.Fields(text)[0]`, empty where there is no field. -/
def firstField (text : Bytes) : Bytes := takeField 0 (dropSpaces 0 text)

def isDigit : UInt8 → Bool := within 0x30 0x39

def digitsValue (digits : Bytes) : Nat :=
  digits.foldl (fun value digit => value * 10 + (digit.toNat - 48)) 0

/-- One `%d` of `fmt.Sscanf`: an optional sign and decimal digits that fit an
`int`. The rest of the input is returned. -/
def scanInt (text : Bytes) : Option Bytes :=
  let negative := text.head? = some 45
  let unsigned := if negative || text.head? = some 43 then text.tail else text
  let digits := unsigned.takeWhile isDigit
  let bound := if negative then 2 ^ 63 else 2 ^ 63 - 1
  if digits ≠ [] ∧ digitsValue digits ≤ bound then some (unsigned.dropWhile isDigit) else none

def scanDot : Bytes → Option Bytes
  | 46 :: rest => some rest
  | _ => none

section Runes

variable {low high byte first : UInt8} {more : Bytes}

def runes (text : Bytes) : List Bytes :=
  match text with
  | [] => []
  | byte :: rest =>
      (byte :: rest).take (max 1 (runeWidth (byte :: rest))) ::
        runes ((byte :: rest).drop (max 1 (runeWidth (byte :: rest))))
termination_by text.length
decreasing_by
  simp only [List.length_drop, List.length_cons]
  omega

/-- Bytes that are read as one rune whatever follows them. -/
def Rune (rune : Bytes) : Prop := rune ≠ [] ∧ ∀ more, runeWidth (rune ++ more) = rune.length

variable {rune rest text : Bytes}

theorem within_bounds :
    within low high byte = true ↔ low.toNat ≤ byte.toNat ∧ byte.toNat ≤ high.toNat := by
  simp [within, UInt8.le_iff_toNat_le]

theorem within_disjoint {low high low' high' byte : UInt8} (holds : within low high byte = true)
    (apart : high.toNat < low'.toNat ∨ high'.toNat < low.toNat) :
    within low' high' byte = false := by
  rw [within_bounds] at holds
  rw [Bool.eq_false_iff, ne_eq, within_bounds]
  omega

/-- The byte is none of ASCII. -/
theorem large_of_within (holds : within low high byte = true) (large : 0x80 ≤ low.toNat) :
    ¬ byte < 0x80 := by
  rw [within_bounds] at holds
  rw [UInt8.lt_iff_toNat_lt]
  change ¬ _ < 128
  omega

inductive Sequence : Bytes → Prop
  | one {a : UInt8} (small : a < 0x80) : Sequence [a]
  | two {a b : UInt8} (lead : within 0xC2 0xDF a = true) (second : continuation b = true) :
      Sequence [a, b]
  | three {a b c : UInt8} (lead : within 0xE0 0xEF a = true)
      (second : within (if a = 0xE0 then 0xA0 else 0x80) (if a = 0xED then 0x9F else 0xBF) b = true)
      (third : continuation c = true) : Sequence [a, b, c]
  | four {a b c d : UInt8} (lead : within 0xF0 0xF4 a = true)
      (second : within (if a = 0xF0 then 0x90 else 0x80) (if a = 0xF4 then 0x8F else 0xBF) b = true)
      (third : continuation c = true) (fourth : continuation d = true) : Sequence [a, b, c, d]

theorem Sequence.isRune (form : Sequence rune) : Rune rune := by
  refine ⟨by cases form <;> simp, fun more => ?_⟩
  cases form with
  | one small => simp [runeWidth, small]
  | two lead second => simp [runeWidth, large_of_within lead (by decide), lead, second]
  | @three a _ _ lead second third =>
    simp [runeWidth, large_of_within lead (by decide), lead, second, third,
      @within_disjoint _ _ 0xC2 0xDF a lead (by decide)]
  | @four a _ _ _ lead second third fourth =>
    simp [runeWidth, large_of_within lead (by decide), lead, second, third, fourth,
      @within_disjoint _ _ 0xC2 0xDF a lead (by decide),
      @within_disjoint _ _ 0xE0 0xEF a lead (by decide)]

theorem rune_ascii (small : byte < 0x80) : Rune [byte] := (Sequence.one small).isRune

theorem replacementRune_rune : Rune replacementRune := (Sequence.three rfl rfl rfl).isRune

theorem sequence_head (text : Bytes) (valid : runeWidth text ≠ 0) :
    ∃ rune rest, text = rune ++ rest ∧ Sequence rune := by
  rcases text with _ | ⟨a, rest⟩
  · exact absurd rfl valid
  by_cases small : a < 0x80
  · exact ⟨_, rest, rfl, .one small⟩
  by_cases two : within 0xC2 0xDF a = true
  · simp only [runeWidth, if_neg small, if_pos two] at valid
    have follows := by_contra fun other => valid (if_neg other)
    cases rest with
    | nil => simp at follows
    | cons b rest => exact ⟨_, rest, rfl, .two two (by simpa using follows)⟩
  by_cases three : within 0xE0 0xEF a = true
  · simp only [runeWidth, if_neg small, if_neg two, if_pos three] at valid
    split at valid
    · have checked := by_contra fun other => valid (if_neg other)
      rw [Bool.and_eq_true] at checked
      exact ⟨_, _, rfl, .three three checked.1 checked.2⟩
    · exact absurd rfl valid
  by_cases four : within 0xF0 0xF4 a = true
  · simp only [runeWidth, if_neg small, if_neg two, if_neg three, if_pos four] at valid
    split at valid
    · have checked := by_contra fun other => valid (if_neg other)
      rw [Bool.and_eq_true, Bool.and_eq_true] at checked
      exact ⟨_, _, rfl, .four four checked.1.1 checked.1.2 checked.2⟩
    · exact absurd rfl valid
  · simp [runeWidth, small, two, three, four] at valid

theorem rune_head (text : Bytes) (valid : runeWidth text ≠ 0) :
    ∃ rune rest, text = rune ++ rest ∧ Rune rune ∧ rune.length = runeWidth text := by
  obtain ⟨rune, rest, rfl, form⟩ := sequence_head text valid
  exact ⟨rune, rest, rfl, form.isRune, (form.isRune.2 rest).symm⟩

theorem Rune.sequence (isRune : Rune rune) : Sequence rune := by
  have width : runeWidth rune = rune.length := by simpa using isRune.2 []
  have begins : runeWidth rune ≠ 0 := width ▸ (List.length_pos_of_ne_nil isRune.1).ne'
  obtain ⟨head, rest, rfl, form⟩ := sequence_head rune begins
  rw [form.isRune.2, List.length_append] at width
  rwa [List.eq_nil_of_length_eq_zero (by omega : rest.length = 0), List.append_nil]

theorem Rune.ascii_iff (isRune : Rune (first :: more)) : first < 0x80 ↔ more = [] := by
  cases isRune.sequence with
  | one small => simp [small]
  | two lead => simp [large_of_within lead (by decide)]
  | three lead => simp [large_of_within lead (by decide)]
  | four lead => simp [large_of_within lead (by decide)]

theorem Rune.ascii (isRune : Rune [byte]) : byte < 0x80 :=
  isRune.ascii_iff.mpr (Eq.refl [])

theorem rune_first (isRune : Rune (first :: more)) : continuation first = false := by
  cases isRune.sequence with
  | one small =>
    rw [continuation, Bool.eq_false_iff, ne_eq, within_bounds]
    exact fun bounds => absurd bounds.1 (not_le.mpr (UInt8.lt_iff_toNat_lt.mp small))
  | two lead => exact within_disjoint lead (by decide)
  | three lead => exact within_disjoint lead (by decide)
  | four lead => exact within_disjoint lead (by decide)

theorem validFrom_drop (copy : Nat) (text : Bytes) :
    validFrom copy text = validFrom 0 (text.drop copy) := by
  induction copy generalizing text with
  | zero => rfl
  | succ copy ih =>
    cases text with
    | nil => rfl
    | cons byte rest => exact ih rest

theorem validUTF8_append (isRune : Rune rune) :
    validUTF8 (rune ++ rest) = validUTF8 rest := by
  obtain ⟨first, more, rfl⟩ := List.exists_cons_of_ne_nil isRune.1
  have width := isRune.2 rest
  rw [List.cons_append] at width
  rw [validUTF8, List.cons_append, validFrom, width]
  simp only [List.length_cons]
  rw [validFrom_drop, List.drop_left]
  rfl

theorem runes_append (isRune : Rune rune) : runes (rune ++ rest) = rune :: runes rest := by
  have width := isRune.2 rest
  obtain ⟨first, more, rfl⟩ := List.exists_cons_of_ne_nil isRune.1
  rw [List.cons_append] at width ⊢
  have positive : max 1 (first :: more).length = (first :: more).length := by
    rw [List.length_cons]
    omega
  rw [runes, width, positive, ← List.cons_append, List.take_left, List.drop_left]

/-- Induction over the runes of a valid text. -/
theorem rune_induction {motive : Bytes → Prop} (nil : motive [])
    (cons : ∀ rune rest, Rune rune → motive rest → motive (rune ++ rest)) (text : Bytes)
    (valid : validUTF8 text = true) : motive text := by
  induction length : text.length using Nat.strong_induction_on generalizing text with
  | _ size ih =>
    by_cases empty : text = []
    · exact empty ▸ nil
    have begins : runeWidth text ≠ 0 := by
      intro zero
      obtain ⟨first, more, rfl⟩ := List.exists_cons_of_ne_nil empty
      rw [validUTF8, validFrom, zero] at valid
      cases valid
    obtain ⟨rune, rest, rfl, isRune, -⟩ := rune_head text begins
    have shorter : rest.length < size := by
      have := List.length_pos_of_ne_nil isRune.1
      rw [List.length_append] at length
      omega
    exact cons rune rest isRune (ih _ shorter rest (by rwa [validUTF8_append isRune] at valid) rfl)

theorem validUTF8_append_valid (valid : validUTF8 text = true) :
    validUTF8 (text ++ rest) = validUTF8 rest := by
  refine rune_induction (motive := fun text => validUTF8 (text ++ rest) = validUTF8 rest)
    rfl (fun rune more isRune ih => ?_) text valid
  rw [List.append_assoc, validUTF8_append isRune, ih]

theorem valid_cons (small : byte < 0x80) : validUTF8 (byte :: rest) = validUTF8 rest :=
  validUTF8_append (rune_ascii small)

theorem validUTF8_ascii {text : Bytes} (small : ∀ byte ∈ text, byte < 0x80) :
    validUTF8 text = true := by
  induction text with
  | nil => rfl
  | cons byte text ih =>
    obtain ⟨first, rest⟩ := List.forall_mem_cons.mp small
    rw [← List.singleton_append, validUTF8_append (rune_ascii first)]
    exact ih rest

end Runes

section Hex

def hexValue (byte : UInt8) : Option UInt8 :=
  if Text.within 0x30 0x39 byte then some (byte - 0x30)
  else if Text.within 0x61 0x66 byte then some (byte - 0x61 + 10)
  else if Text.within 0x41 0x46 byte then some (byte - 0x41 + 10)
  else none

/-- `hex.DecodeString`. -/
def hexDecode : Bytes → Option Bytes
  | [] => some []
  | [_] => none
  | high :: low :: rest => do
      let high ← hexValue high
      let low ← hexValue low
      let decoded ← hexDecode rest
      some ((high * 16 + low) :: decoded)

def hexDigit (value : UInt8) : UInt8 := if value < 10 then 48 + value else 87 + value

/-- `hex.EncodeToString`. -/
def hexEncode (bytes : Bytes) : Bytes :=
  bytes.flatMap fun byte => [hexDigit (byte / 16), hexDigit (byte % 16)]

def uuidByte (index : Nat) (byte : UInt8) : Bool :=
  if index ∈ [8, 13, 18, 23] then byte = 0x2D
  else Text.within 0x30 0x39 byte || Text.within 0x61 0x66 byte

theorem hexDigit_ascii : ∀ n < 16, hexDigit (UInt8.ofNat n) < 0x80 := by
  decide

theorem hexEncode_valid (bytes : Bytes) : validUTF8 (hexEncode bytes) = true := by
  have small {value : UInt8} (digit : value.toNat < 16) : hexDigit value < 0x80 := by
    have known := hexDigit_ascii value.toNat digit
    rwa [UInt8.ofNat_toNat] at known
  refine validUTF8_ascii fun text member => ?_
  obtain ⟨byte, -, digit⟩ := List.mem_flatMap.mp member
  rcases List.mem_pair.mp digit with rfl | rfl
  · exact small (by have := byte.toNat_lt; simp; omega)
  · exact small (by simp; omega)

theorem hexValue_hexDigit :
    ∀ n < 16, hexValue (hexDigit (UInt8.ofNat n)) = some (UInt8.ofNat n) := by
  decide

theorem hexDigits_read :
    ∀ n < 256, hexDecode (hexEncode [UInt8.ofNat n]) = some [UInt8.ofNat n] := by
  decide +kernel

theorem hexDecode_hexEncode (bytes : Bytes) : hexDecode (hexEncode bytes) = some bytes := by
  induction bytes with
  | nil => rfl
  | cons byte bytes ih =>
    have first := hexDigits_read byte.toNat byte.toNat_lt
    rw [UInt8.ofNat_toNat] at first
    simp only [hexEncode] at ih
    simpa [hexEncode, hexDecode, ih, Option.bind_eq_some_iff] using first

theorem hexEncode_length (bytes : Bytes) : (hexEncode bytes).length = 2 * bytes.length := by
  induction bytes with
  | nil => rfl
  | cons byte bytes ih =>
    rw [hexEncode, List.flatMap_cons, List.length_append, ← hexEncode, ih]
    simp only [List.length_cons, List.length_nil]
    omega

end Hex

end Text
