import RelayTale.Api.Expansion
import RelayTale.Foundation.Encoding

/-!
# The canonical form of a template

A template is stored as its JSON text with the variables in order, under a
version that is the digest of its fields. The text is read back to a template
with the same text and version, so the rows of the catalog can be checked again
at any time.
-/

namespace RelayTale.Api

open Guard Text
open Json (strings findField readText readObject)

section Writing

inductive CatalogError
  | templateCatalog
  deriving DecidableEq, Repr

/-- A `nil` slice is written as `null`. -/
def variablesJson (names : List Bytes) : Json :=
  if names = [] then .null else .array (names.map .string)

def document (t : SendTemplate) : Json :=
  .object ((ascii "id", .string t.id) ::
    ((if t.language = [] then [] else [(ascii "language", .string t.language)]) ++
      [(ascii "version", .string t.version), (ascii "subject", .string t.subject),
        (ascii "text", .string t.text), (ascii "html", .string t.html),
        (ascii "variables", variablesJson t.variableNames)]))

def sorted (t : SendTemplate) : SendTemplate :=
  { t with variableNames := sortStrings t.variableNames }

/-- The bytes of `canonicalTemplate`, whatever their number. -/
def canonicalBytes (t : SendTemplate) : Bytes := Json.compact strings (document (sorted t))

def canonicalTemplate (t : SendTemplate) : Except CatalogError Bytes := do
  require ((canonicalBytes t).length ≤ 32768) .templateCatalog
  pure (canonicalBytes t)

end Writing

section Reading

/-- `strings.ToLower` as far as it matters: a key that holds other letters than
those of a field is refused when it is decoded. -/
def lower (key : Bytes) : Bytes := key.map fun byte => if within 65 90 byte then byte + 32 else byte

mutual

/-- `uniqueJSON`, at a depth of the document. -/
def uniqueJSON (depth : Nat) : Json → Bool
  | .array items => decide (depth ≤ 16) && uniqueItems (depth + 1) items
  | .object members =>
      decide (depth ≤ 16) && decide (members.map fun member => lower member.1).Nodup &&
        uniqueMembers (depth + 1) members
  | _ => decide (depth ≤ 16)

def uniqueItems (depth : Nat) : List Json → Bool
  | [] => true
  | item :: items => uniqueJSON depth item && uniqueItems depth items

def uniqueMembers (depth : Nat) : List (Bytes × Json) → Bool
  | [] => true
  | (_, value) :: members => uniqueJSON depth value && uniqueMembers depth members

end

inductive TemplateField
  | id
  | language
  | version
  | subject
  | text
  | html
  | names
  deriving DecidableEq, Repr

def templateFields : List (Bytes × TemplateField) :=
  [(ascii "id", .id), (ascii "language", .language), (ascii "version", .version),
    (ascii "subject", .subject), (ascii "text", .text), (ascii "html", .html),
    (ascii "variables", .names)]

/-- The items of an array from the `i`th on. A `null` leaves what the slice has there. -/
def readNamesFrom (old : List Bytes) : (i : Nat) → List Json → Option (List Bytes)
  | _, [] => some []
  | i, item :: items => do
      let name ← readText (old.getD i []) item
      let names ← readNamesFrom old (i + 1) items
      some (name :: names)

def readNames (old : List Bytes) : Json → Option (List Bytes)
  | .array items => readNamesFrom old 0 items
  | .null => some []
  | _ => none

def SendTemplate.set : TemplateField → SendTemplate → Json → Option SendTemplate
  | .id, t, value => (readText t.id value).map fun id => { t with id }
  | .language, t, value => (readText t.language value).map fun language => { t with language }
  | .version, t, value => (readText t.version value).map fun version => { t with version }
  | .subject, t, value => (readText t.subject value).map fun subject => { t with subject }
  | .text, t, value => (readText t.text value).map fun text => { t with text }
  | .html, t, value => (readText t.html value).map fun html => { t with html }
  | .names, t, value =>
      (readNames t.variableNames value).map fun variableNames => { t with variableNames }

/-- `Decode` into an empty template, with `DisallowUnknownFields`. -/
def SendTemplate.decode : Json → Option SendTemplate :=
  readObject templateFields SendTemplate.set ⟨[], [], [], [], [], [], [], none⟩

/-- The template that the JSON text describes, before it is checked. -/
def readTemplate (raw : Bytes) : Except MessageError SendTemplate := do
  require (raw.length ≤ 32768 ∧ validUTF8 raw = true) .invalidMessage
  let (document, rest) ← demand (Json.read strings raw) .invalidMessage
  require (Json.skip rest = [] ∧ uniqueJSON 0 document = true) .invalidMessage
  demand (SendTemplate.decode document) .invalidMessage

variable [Html] [Sha256]

def SendTemplate.versioned (t : SendTemplate) : SendTemplate :=
  if t.version = [] then { t with version := templateVersion t } else t

def versionTemplateJSON (raw : Bytes) : Except MessageError SendTemplate := do
  let t ← readTemplate raw
  let _ ← prepareTemplates [t.versioned]
  pure t.versioned

end Reading

section Encoding

variable {text rest rune : Bytes}

abbrev Clean : Json → Prop := Json.All (validUTF8 · = true) fun _ => False

theorem Clean.lawful {value : Json} (clean : Clean value) : Json.Lawful Json.strings value :=
  Json.All.imp Json.reads_of_valid False.elim clean

theorem Clean.valid {value : Json} (clean : Clean value) :
    validUTF8 (Json.compact Json.strings value) = true :=
  Json.write_valid (Json.All.imp id False.elim clean) 0

end Encoding

section Sorting

variable {names names' : List Bytes}

theorem mem_sortStrings {name : Bytes} : name ∈ sortStrings names ↔ name ∈ names :=
  List.mem_insertionSort _

theorem sortStrings_perm (names : List Bytes) : (sortStrings names).Perm names :=
  List.perm_insertionSort _ _

theorem sortStrings_idem (names : List Bytes) :
    sortStrings (sortStrings names) = sortStrings names :=
  (List.pairwise_insertionSort _ _).insertionSort_eq

theorem sortStrings_congr (distinct : names.Nodup) (distinct' : names'.Nodup)
    (same : ∀ name, name ∈ names ↔ name ∈ names') : sortStrings names = sortStrings names' := by
  have perm : (sortStrings names).Perm (sortStrings names') :=
    (sortStrings_perm names).trans
      (((List.perm_ext_iff_of_nodup distinct distinct').mpr same).trans
        (sortStrings_perm names').symm)
  exact perm.eq_of_pairwise' (List.pairwise_insertionSort _ _) (List.pairwise_insertionSort _ _)

theorem mem_iff_of_sortStrings (same : sortStrings names = sortStrings names') (name : Bytes) :
    name ∈ names ↔ name ∈ names' := by
  rw [← mem_sortStrings, same, mem_sortStrings]

/-- The order of the names plays no part in the check of a source. -/
theorem templateSourceFrom_congr (same : ∀ name, name ∈ names ↔ name ∈ names') (html : Bool)
    (fuel : Nat) (source : Bytes) :
    templateSourceFrom names html fuel source = templateSourceFrom names' html fuel source := by
  induction fuel generalizing source with
  | zero => rfl
  | succ fuel ih => simp only [templateSourceFrom, same, ih]

theorem templateSource_sorted (source : Bytes) (names : List Bytes) (html : Bool) :
    templateSource source (sortStrings names) html = templateSource source names html :=
  templateSourceFrom_congr (fun _ => mem_sortStrings) html _ source

theorem dummy_sorted (names : List Bytes) : dummy (sortStrings names) = dummy names :=
  funext fun name => by simp only [dummy, mem_sortStrings]

variable [Sha256]

theorem templateVersion_sorted (t : SendTemplate) :
    templateVersion (sorted t) = templateVersion t := by
  simp only [templateVersion, versionFields, namespaceOf, sorted, sortStrings_idem]
  rfl

theorem fieldsValid_sorted (t : SendTemplate) : fieldsValid (sorted t) = fieldsValid t := by
  unfold fieldsValid
  rw [templateVersion_sorted]
  simp only [sorted, (sortStrings_perm t.variableNames).length_eq]
  rfl

variable [Html]

theorem prepareTemplate_sorted {t prepared : SendTemplate}
    (accepted : prepareTemplate t = .ok prepared) :
    prepareTemplate (sorted t) = .ok (sorted prepared) := by
  simp only [prepareTemplate, do_eq_ok, require_eq_ok, pure_eq_ok, fieldsValid_sorted] at accepted ⊢
  obtain ⟨-, fields, -, ⟨named, distinct⟩, subject, inSubject, text, inText, html, inHTML, -, used,
    -, parses, -, executes, rfl⟩ := accepted
  have perm := sortStrings_perm t.variableNames
  refine ⟨⟨⟩, fields, ⟨⟩, ⟨?_, perm.nodup_iff.mpr distinct⟩, subject, ?_, text, ?_, html, ?_,
    ⟨⟩, ?_, ⟨⟩, parses, ⟨⟩, ?_, rfl⟩
  · rw [List.all_eq_true] at named ⊢
    exact fun name member => named name (mem_sortStrings.mp member)
  · exact (templateSource_sorted _ _ _).trans inSubject
  · exact (templateSource_sorted _ _ _).trans inText
  · exact (templateSource_sorted _ _ _).trans inHTML
  · exact used.trans perm.length_eq.symm
  · exact (congrArg (fun values => (Html.execute html.1 values).isSome)
      (dummy_sorted t.variableNames)).trans executes

end Sorting

section Bounds

theorem word_small {byte : UInt8}
    (word : (lowercase byte = true ∨ decimal byte = true) ∨ byte = 95) : byte < 0x80 := by
  simp only [lowercase, decimal, Bool.and_eq_true, decide_eq_true_eq] at word
  rcases word with (⟨-, most⟩ | ⟨-, most⟩) | rfl
  · exact UInt8.lt_of_le_of_lt most (by decide)
  · exact UInt8.lt_of_le_of_lt most (by decide)
  · decide

theorem templateName_bounded {name : Bytes} (named : templateName name = true) :
    validUTF8 name = true ∧ name.length < 2 ^ 64 := by
  cases name with
  | nil => cases named
  | cons first rest =>
    simp only [templateName, Bool.and_eq_true, decide_eq_true_eq, List.all_eq_true,
      Bool.or_eq_true] at named
    obtain ⟨⟨short, lower⟩, others⟩ := named
    refine ⟨validUTF8_ascii (List.forall_mem_cons.mpr ⟨?_, fun byte later => ?_⟩),
      by rw [List.length_cons]; omega⟩
    · exact word_small (.inl (.inl lower))
    · exact word_small (others byte later)

theorem hyphenated_all {p : UInt8 → Prop} {text : Bytes}
    (all : ∀ part ∈ hyphenated text, ∀ byte ∈ part, p byte) :
    ∀ byte ∈ text, byte = 45 ∨ p byte := by
  induction text with
  | nil => simp
  | cons first rest ih =>
    unfold hyphenated at all
    split at all
    next hyphen =>
      exact List.forall_mem_cons.mpr ⟨.inl hyphen, ih (List.forall_mem_cons.mp all).2⟩
    next =>
      split at all
      all_goals
        rename_i same
        obtain ⟨head, others⟩ := List.forall_mem_cons.mp all
        obtain ⟨passes, head⟩ := List.forall_mem_cons.mp head
        refine List.forall_mem_cons.mpr ⟨.inr passes, ih ?_⟩
        rw [same]
      · exact List.forall_mem_cons.mpr ⟨head, others⟩
      · exact others

theorem languagePart_small {first : Bool} {part : Bytes} (passes : languagePart first part = true)
    {byte : UInt8} (member : byte ∈ part) : byte < 0x80 := by
  simp only [languagePart, Bool.and_eq_true, List.all_eq_true, Bool.or_eq_true] at passes
  exact word_small (.inl ((passes.2 byte member).imp_right And.right))

theorem templateLanguage_bounded {text : Bytes} (language : templateLanguage text = true) :
    validUTF8 text = true ∧ text.length < 2 ^ 64 := by
  simp only [templateLanguage, Bool.or_eq_true, Bool.and_eq_true, decide_eq_true_eq] at language
  rcases language with rfl | ⟨short, parts⟩
  · exact ⟨rfl, by decide⟩
  · have small : ∀ part ∈ hyphenated text, ∀ byte ∈ part, byte < 0x80 := by
      split at parts
      · cases parts
      next first others same =>
        rw [Bool.and_eq_true, List.all_eq_true] at parts
        rw [same]
        exact List.forall_mem_cons.mpr ⟨fun byte => languagePart_small parts.1,
          fun part listed byte => languagePart_small (parts.2 part listed)⟩
    refine ⟨validUTF8_ascii fun byte member => ?_, by omega⟩
    rcases hyphenated_all small byte member with rfl | low
    · decide
    · exact low

variable [Sha256]

structure Bounded (t : SendTemplate) : Prop where
  id : validUTF8 t.id = true ∧ t.id.length < 2 ^ 64
  language : validUTF8 t.language = true ∧ t.language.length < 2 ^ 64
  version : t.version = templateVersion t
  subject : validUTF8 t.subject = true ∧ t.subject.length < 2 ^ 64
  text : validUTF8 t.text = true ∧ t.text.length < 2 ^ 64
  html : validUTF8 t.html = true ∧ t.html.length < 2 ^ 64
  names : ∀ name ∈ t.variableNames, validUTF8 name = true ∧ name.length < 2 ^ 64
  distinct : t.variableNames.Nodup

theorem fieldsValid_bounded {t : SendTemplate} (fields : fieldsValid t = true)
    (named : ∀ name ∈ t.variableNames, templateName name = true)
    (distinct : t.variableNames.Nodup) : Bounded t := by
  simp only [fieldsValid, safeJSONHeader, Bool.and_eq_true, decide_eq_true_eq] at fields
  obtain ⟨⟨⟨⟨⟨⟨⟨⟨⟨id, language⟩, version⟩, ⟨subject, short⟩, -⟩, text⟩, html⟩, textValid⟩,
    htmlValid⟩, -⟩, -⟩ := fields
  exact ⟨templateName_bounded id, templateLanguage_bounded language, version,
    ⟨subject, by omega⟩, ⟨textValid, by omega⟩, ⟨htmlValid, by omega⟩,
    fun name member => templateName_bounded (named name member), distinct⟩

theorem Bounded.sorted {t : SendTemplate} (bounded : Bounded t) : Bounded (sorted t) :=
  { bounded with
    version := bounded.version.trans (templateVersion_sorted t).symm
    names := fun name member => bounded.names name (mem_sortStrings.mp member)
    distinct := (sortStrings_perm _).nodup_iff.mpr bounded.distinct }

theorem document_clean {t : SendTemplate} (bounded : Bounded t) : Clean (document t) := by
  have version : validUTF8 t.version = true := by
    rw [bounded.version]
    exact hexEncode_valid _
  have names : Clean (variablesJson t.variableNames) := by
    unfold variablesJson
    split
    · exact .null
    · refine .array fun item listed => ?_
      obtain ⟨name, member, rfl⟩ := List.mem_map.mp listed
      exact .string (bounded.names name member).1
  have language : ∀ member ∈ (if t.language = [] then []
      else [(ascii "language", Json.string t.language)]),
      validUTF8 member.1 = true ∧ Clean member.2 := by
    split
    · exact List.forall_mem_nil _
    · exact List.forall_mem_singleton.mpr ⟨rfl, .string bounded.language.1⟩
  refine .object ?_ ?_ <;> simp only [List.forall_mem_cons, List.forall_mem_append]
  · exact ⟨rfl, fun member listed => (language member listed).1, rfl, rfl, rfl, rfl, rfl,
      List.forall_mem_nil _⟩
  · exact ⟨.string bounded.id.1, fun member listed => (language member listed).2, .string version,
      .string bounded.subject.1, .string bounded.text.1, .string bounded.html.1, names,
      List.forall_mem_nil _⟩

end Bounds

section RoundTrip

theorem readNamesFrom_strings (old : List Bytes) (i : Nat) (names : List Bytes) :
    readNamesFrom old i (names.map .string) = some names := by
  induction names generalizing i with
  | nil => rfl
  | cons name names ih => simp [readNamesFrom, readText, ih]

theorem readNames_variablesJson (old names : List Bytes) :
    readNames old (variablesJson names) = some names := by
  unfold variablesJson
  split
  next none' => rw [none', readNames]
  · exact readNamesFrom_strings old 0 names

theorem decode_document (t : SendTemplate) :
    SendTemplate.decode (document t) = some { t with compiled := none } := by
  have id : findField templateFields (ascii "id") = some .id := rfl
  have language : findField templateFields (ascii "language") = some .language := rfl
  have version : findField templateFields (ascii "version") = some .version := rfl
  have subject : findField templateFields (ascii "subject") = some .subject := rfl
  have text : findField templateFields (ascii "text") = some .text := rfl
  have html : findField templateFields (ascii "html") = some .html := rfl
  have names : findField templateFields (ascii "variables") = some .names := rfl
  by_cases none' : t.language = [] <;>
    simp [SendTemplate.decode, document, readObject, id, language, version, subject, text, html,
      names, none', SendTemplate.set, readText, readNames_variablesJson]

theorem uniqueItems_strings (depth : Nat) (small : depth ≤ 16) (names : List Bytes) :
    uniqueItems depth (names.map .string) = true := by
  induction names with
  | nil => simp [uniqueItems]
  | cons name names ih => simp [uniqueItems, uniqueJSON, small, ih]

theorem uniqueJSON_document (t : SendTemplate) : uniqueJSON 0 (document t) = true := by
  have names : uniqueJSON 1 (variablesJson t.variableNames) = true := by
    unfold variablesJson
    split
    · simp [uniqueJSON]
    · simp [uniqueJSON, uniqueItems_strings 2 (by decide)]
  by_cases none' : t.language = [] <;>
    simp only [document, none', if_true, if_false, List.cons_append, List.nil_append, uniqueJSON,
      uniqueMembers, names, List.map_cons, List.map_nil, Bool.and_true] <;>
    decide

section Accepted

variable [Sha256]

theorem readTemplate_canonical {t : SendTemplate} (bounded : Bounded (sorted t))
    (fits : (canonicalBytes t).length ≤ 32768) :
    readTemplate (canonicalBytes t) = .ok { sorted t with compiled := none } := by
  have clean := document_clean bounded
  simp only [readTemplate, do_eq_ok, require_eq_ok, demand_eq_ok]
  exact ⟨⟨⟩, ⟨fits, clean.valid⟩, _, Json.read_write clean.lawful, ⟨⟩,
    ⟨rfl, uniqueJSON_document _⟩, decode_document _⟩

variable [Html]

theorem accepted_bounded {t prepared : SendTemplate} (accepted : prepareTemplate t = .ok prepared) :
    Bounded t := by
  have ready := (prepareTemplate_ok accepted).1
  exact fieldsValid_bounded ready.fields ready.named ready.distinct

theorem prepareTemplates_singleton {t prepared : SendTemplate}
    (accepted : prepareTemplate t = .ok prepared) : prepareTemplates [t] = .ok [prepared] := by
  simp only [prepareTemplates, prepareFrom, do_eq_ok, require_eq_ok, pure_eq_ok]
  exact ⟨⟨⟩, by simp, ⟨⟩, List.not_mem_nil, prepared, accepted, [], rfl, rfl⟩

theorem prepareTemplate_uncompiled (t : SendTemplate) (compiled : Option Bytes) :
    prepareTemplate { t with compiled } = prepareTemplate t := rfl

/-- The canonical form of an accepted template is read back. -/
theorem versionTemplateJSON_canonical {t prepared : SendTemplate} {raw : Bytes}
    (accepted : prepareTemplate t = .ok prepared) (canonical : canonicalTemplate t = .ok raw) :
    versionTemplateJSON raw = .ok { sorted t with compiled := none } := by
  simp only [canonicalTemplate, do_eq_ok, require_eq_ok, pure_eq_ok] at canonical
  obtain ⟨-, fits, rfl⟩ := canonical
  have bounded := (accepted_bounded accepted).sorted
  have versioned : SendTemplate.versioned { sorted t with compiled := none } =
      { sorted t with compiled := none } := by
    unfold SendTemplate.versioned
    split
    · exact congrArg (fun version => ({ sorted t with version, compiled := none } : SendTemplate))
        bounded.version.symm
    · rfl
  have again : prepareTemplate { sorted t with compiled := none } = .ok (sorted prepared) :=
    (prepareTemplate_uncompiled _ _).trans (prepareTemplate_sorted accepted)
  simp only [versionTemplateJSON, do_eq_ok, pure_eq_ok]
  refine ⟨_, readTemplate_canonical bounded fits, [sorted prepared], ?_, versioned⟩
  rw [versioned]
  exact prepareTemplates_singleton again

end Accepted

theorem canonicalBytes_sorted (t : SendTemplate) :
    canonicalBytes { sorted t with compiled := none } = canonicalBytes t := by
  unfold canonicalBytes
  congr 1
  simp only [document, sorted, sortStrings_idem]
  rfl

end RoundTrip

section Addressing

variable {t u : SendTemplate}

def SameContent (t u : SendTemplate) : Prop :=
  t.id = u.id ∧ t.language = u.language ∧ t.subject = u.subject ∧ t.text = u.text ∧
    t.html = u.html ∧ ∀ name, name ∈ t.variableNames ↔ name ∈ u.variableNames

theorem sorted_names (same : SameContent t u) (distinct : t.variableNames.Nodup)
    (distinct' : u.variableNames.Nodup) :
    sortStrings t.variableNames = sortStrings u.variableNames :=
  sortStrings_congr distinct distinct' same.2.2.2.2.2

theorem versionFields_congr (same : SameContent t u) (distinct : t.variableNames.Nodup)
    (distinct' : u.variableNames.Nodup) : versionFields t = versionFields u := by
  have names := sorted_names same distinct distinct'
  obtain ⟨id, language, subject, text, html, -⟩ := same
  simp only [versionFields, id, language, subject, text, html, names]

theorem namespaceOf_eq_iff :
    namespaceOf t = namespaceOf u ↔ (t.language = [] ↔ u.language = []) := by
  have apart : ascii "relaytale.template.v1" ++ [0] ≠ ascii "relaytale.template.v2" ++ [0] := by
    decide
  unfold namespaceOf
  by_cases none' : t.language = [] <;> by_cases none'' : u.language = [] <;>
    simp [none', none'', apart, apart.symm]

theorem namespaceOf_length (t : SendTemplate) : (namespaceOf t).length = 22 := by
  unfold namespaceOf
  split <;> decide

theorem sameContent_of_fields (languages : t.language = [] ↔ u.language = [])
    (fields : versionFields t = versionFields u) : SameContent t u := by
  unfold versionFields at fields
  by_cases none' : t.language = []
  · have none'' := languages.mp none'
    simp only [none', none'', if_true, List.append_nil, List.cons_append, List.nil_append,
      List.cons.injEq] at fields
    obtain ⟨id, subject, text, html, names⟩ := fields
    exact ⟨id, none'.trans none''.symm, subject, text, html, mem_iff_of_sortStrings names⟩
  · have other := mt languages.mpr none'
    simp only [none', other, if_false, List.cons_append, List.nil_append, List.cons.injEq]
      at fields
    obtain ⟨id, subject, text, html, language, names⟩ := fields
    exact ⟨id, language, subject, text, html, mem_iff_of_sortStrings names⟩

theorem sameContent_of_document (same : document (sorted t) = document (sorted u)) :
    SameContent t u := by
  have decoded := decode_document (sorted t)
  rw [same, decode_document] at decoded
  simp only [sorted, Option.some.injEq, SendTemplate.mk.injEq] at decoded
  obtain ⟨id, language, -, subject, text, html, names, -⟩ := decoded
  exact ⟨id.symm, language.symm, subject.symm, text.symm, html.symm,
    mem_iff_of_sortStrings names.symm⟩

def hashed (t : SendTemplate) : Bytes := namespaceOf t ++ Framing.frames (versionFields t)

variable [Sha256]

theorem Bounded.fields (bounded : Bounded t) :
    ∀ field ∈ versionFields t, field.length < 2 ^ 64 := by
  intro field listed
  simp only [versionFields, List.mem_append, List.mem_cons, List.not_mem_nil, or_false,
    mem_sortStrings] at listed
  rcases listed with ((rfl | rfl | rfl | rfl) | optional) | name
  · exact bounded.id.2
  · exact bounded.subject.2
  · exact bounded.text.2
  · exact bounded.html.2
  · split at optional
    · cases optional
    · obtain rfl := List.mem_singleton.mp optional
      exact bounded.language.2
  · exact (bounded.names field name).2

theorem templateVersion_congr (bounded : Bounded t) (bounded' : Bounded u)
    (same : SameContent t u) : templateVersion t = templateVersion u := by
  have namespaces : namespaceOf t = namespaceOf u := namespaceOf_eq_iff.mpr (by rw [same.2.1])
  rw [templateVersion, templateVersion, namespaces,
    versionFields_congr same bounded.distinct bounded'.distinct]

theorem templateVersion_eq_iff (apart : Set.InjOn Sha256.sum {hashed t, hashed u})
    (bounded : Bounded t) (bounded' : Bounded u) :
    templateVersion t = templateVersion u ↔ SameContent t u := by
  refine ⟨fun same => ?_, templateVersion_congr bounded bounded'⟩
  have decoded := congrArg hexDecode same
  rw [templateVersion, templateVersion, hexDecode_hexEncode, hexDecode_hexEncode] at decoded
  have texts := apart (.inl rfl) (.inr rfl) (Option.some.inj decoded)
  obtain ⟨namespaces, framed⟩ := List.append_inj texts
    ((namespaceOf_length t).trans (namespaceOf_length u).symm)
  exact sameContent_of_fields (namespaceOf_eq_iff.mp namespaces)
    (Framing.frames_injective bounded.fields bounded'.fields framed)

/-- The canonical form determines the content and is determined by it. -/
theorem canonicalBytes_eq_iff (bounded : Bounded t) (bounded' : Bounded u) :
    canonicalBytes t = canonicalBytes u ↔ SameContent t u := by
  constructor
  · intro same
    exact sameContent_of_document (Json.write_injective (document_clean bounded.sorted).lawful
      (document_clean bounded'.sorted).lawful same)
  · intro same
    have names := sorted_names same bounded.distinct bounded'.distinct
    have version : t.version = u.version := by
      rw [bounded.version, bounded'.version, templateVersion_congr bounded bounded' same]
    obtain ⟨id, language, subject, text, html, -⟩ := same
    simp only [canonicalBytes, document, sorted, id, language, version, subject, text, html, names]
    rfl

variable [Html] (t u)

/-- Accepted templates have one canonical form, and unless their digests collide one version,
exactly when they have the same content. The form is read back with that version and form. -/
theorem templates_content_addressed :
    (∀ prepared prepared', prepareTemplate t = .ok prepared → prepareTemplate u = .ok prepared' →
      (canonicalBytes t = canonicalBytes u ↔ SameContent t u) ∧
      (Set.InjOn Sha256.sum {hashed t, hashed u} → (t.version = u.version ↔ SameContent t u))) ∧
    ∀ prepared raw, prepareTemplate t = .ok prepared → canonicalTemplate t = .ok raw →
      ∃ again, versionTemplateJSON raw = .ok again ∧ again.version = t.version ∧
        canonicalTemplate again = .ok raw := by
  refine ⟨fun _ _ accepted accepted' => ?_, fun _ raw accepted canonical => ?_⟩
  · have bounded := accepted_bounded accepted
    have bounded' := accepted_bounded accepted'
    rw [bounded.version, bounded'.version]
    exact ⟨canonicalBytes_eq_iff bounded bounded', fun apart =>
      templateVersion_eq_iff apart bounded bounded'⟩
  · refine ⟨_, versionTemplateJSON_canonical accepted canonical, rfl, ?_⟩
    rw [canonicalTemplate, canonicalBytes_sorted]
    exact canonical

end Addressing

end RelayTale.Api
