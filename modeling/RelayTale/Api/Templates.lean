import RelayTale.Foundation.ByteOrder
import RelayTale.Foundation.Cut
import RelayTale.Foundation.Framing
import RelayTale.Foundation.Guard
import RelayTale.Foundation.Text

/-!
# Templates of the send API

A template is checked when it is prepared and expanded when a message refers to
it. Both scan the source for placeholders on their own. The check fails at the
first delimiter that does not fit; the expansion takes a missing one as the end
of the source. What was checked is scanned the same way by both.

`html/template` and SHA-256 are parameters.
-/

namespace RelayTale.Api

open Guard Cut Text

section Values

/-- A program of `html/template` is given by its source. `execute` is the whole output for
an assignment of the variables. -/
class Html where
  parses : Bytes → Bool
  execute : Bytes → (Bytes → Option Bytes) → Option Bytes

class Sha256 where
  sum : Bytes → Bytes

/-- The only error of these functions, `errJSONMessage`. -/
inductive MessageError
  | invalidMessage
  deriving DecidableEq, Repr

structure Values where
  entries : List (Bytes × Bytes)
  keys : (entries.map Prod.fst).Nodup
  deriving DecidableEq, Repr

def Values.find (values : Values) (name : Bytes) : Option Bytes := values.entries.lookup name

structure SendTemplate where
  id : Bytes
  language : Bytes
  version : Bytes
  subject : Bytes
  text : Bytes
  html : Bytes
  variableNames : List Bytes
  compiled : Option Bytes := none
  deriving DecidableEq, Repr

structure JsonTemplateReference where
  id : Bytes
  language : Bytes
  version : Bytes
  variableValues : Values
  deriving DecidableEq, Repr

structure JsonAttachment where
  filename : Bytes
  contentType : Bytes
  contentBase64 : Bytes
  deriving DecidableEq, Repr

structure JsonMessage where
  date : Bytes
  subject : Bytes
  fromName : Bytes
  replyTo : Bytes
  text : Bytes
  html : Bytes
  attachments : List JsonAttachment
  template : Option JsonTemplateReference
  deriving DecidableEq, Repr

end Values

section Checks

def lowercase (byte : UInt8) : Bool := 97 ≤ byte && byte ≤ 122

def decimal (byte : UInt8) : Bool := 48 ≤ byte && byte ≤ 57

def templateName : Bytes → Bool
  | [] => false
  | first :: rest =>
      rest.length < 32 && lowercase first &&
        rest.all fun byte => lowercase byte || decimal byte || byte = 95

/-- The parts of a text between bytes `-`. -/
def hyphenated : Bytes → List Bytes
  | [] => [[]]
  | byte :: rest =>
      if byte = 45 then [] :: hyphenated rest
      else match hyphenated rest with
        | part :: parts => (byte :: part) :: parts
        | [] => [[byte]]

def languagePart (first : Bool) (part : Bytes) : Bool :=
  decide (1 ≤ part.length ∧ part.length ≤ 8) &&
    part.all fun byte => lowercase byte || (!first && decimal byte)

def templateLanguage (text : Bytes) : Bool :=
  text = [] ||
    (decide (text.length ≤ 35) &&
      match hyphenated text with
      | [] => false
      | part :: parts => languagePart true part && parts.all (languagePart false))

def controlFree : Bytes → Bool
  | [] => true
  | 0xC2 :: byte :: rest => !(0x80 ≤ byte && byte < 0xA0) && controlFree (byte :: rest)
  | byte :: rest => 0x20 ≤ byte && byte ≠ 0x7F && controlFree rest

def safeJSONHeader (text : Bytes) (limit : Nat) : Bool :=
  validUTF8 text && decide (text.length ≤ limit) && controlFree text

end Checks

section Version

variable [Sha256]

def sortStrings (texts : List Bytes) : List Bytes := texts.insertionSort ByteOrder.AtMost

def namespaceOf (t : SendTemplate) : Bytes :=
  if t.language = [] then ascii "relaytale.template.v1" ++ [0]
  else ascii "relaytale.template.v2" ++ [0]

def versionFields (t : SendTemplate) : List Bytes :=
  [t.id, t.subject, t.text, t.html] ++ (if t.language = [] then [] else [t.language]) ++
    sortStrings t.variableNames

/-- `TemplateVersion`. -/
def templateVersion (t : SendTemplate) : Bytes :=
  hexEncode (Sha256.sum (namespaceOf t ++ Framing.frames (versionFields t)))

end Version

section Sources

def opening : Bytes := [123, 123]

def closing : Bytes := [125, 125]

def placeholder (html : Bool) (name : Bytes) : Bytes :=
  if html then opening ++ (ascii "index . \"" ++ name ++ ascii "\"") ++ closing
  else opening ++ name ++ closing

/-- The loop of `templateSource` with the names it has used. -/
def templateSourceFrom (names : List Bytes) (html : Bool) :
    (fuel : Nat) → Bytes → Except MessageError (Bytes × List Bytes)
  | 0, _ => .error .invalidMessage
  | fuel + 1, source =>
      match cut opening source with
      | none => do
          require (cut closing source = none) .invalidMessage
          pure (source, [])
      | some (before, after) => do
          require (cut closing before = none) .invalidMessage
          let (name, rest) ← demand (cut closing after) .invalidMessage
          require (name ∈ names) .invalidMessage
          let (output, used) ← templateSourceFrom names html fuel rest
          pure (before ++ placeholder html name ++ output, name :: used)

def templateSource (source : Bytes) (names : List Bytes) (html : Bool) :
    Except MessageError (Bytes × List Bytes) :=
  templateSourceFrom names html (source.length + 1) source

variable [Html] [Sha256]

/-- The first condition of the loop in `prepareTemplates`, but for `seen`. -/
def fieldsValid (t : SendTemplate) : Bool :=
  templateName t.id && templateLanguage t.language && t.version = templateVersion t &&
    safeJSONHeader t.subject 256 && decide (t.text.length ≤ 16384) &&
    decide (t.html.length ≤ 16384) && validUTF8 t.text && validUTF8 t.html &&
    !(t.text = [] && t.html = []) && decide (t.variableNames.length ≤ 16)

def dummy (names : List Bytes) (name : Bytes) : Option Bytes :=
  if name ∈ names then some (ascii "value") else none

/-- One round of the loop in `prepareTemplates`. -/
def prepareTemplate (t : SendTemplate) : Except MessageError SendTemplate := do
  require (fieldsValid t = true) .invalidMessage
  require (t.variableNames.all templateName = true ∧ t.variableNames.Nodup) .invalidMessage
  let (_, inSubject) ← templateSource t.subject t.variableNames false
  let (_, inText) ← templateSource t.text t.variableNames false
  let (source, inHTML) ← templateSource t.html t.variableNames true
  require ((inSubject ++ inText ++ inHTML).dedup.length = t.variableNames.length) .invalidMessage
  require (Html.parses source = true) .invalidMessage
  require ((Html.execute source (dummy t.variableNames)).isSome = true) .invalidMessage
  pure { t with compiled := some source }

def seenKey (t : SendTemplate) : Bytes := t.id ++ ascii ":" ++ t.version

def prepareFrom (seen : List Bytes) : List SendTemplate → Except MessageError (List SendTemplate)
  | [] => pure []
  | t :: rest => do
      require (seenKey t ∉ seen) .invalidMessage
      let prepared ← prepareTemplate t
      let others ← prepareFrom (seenKey t :: seen) rest
      pure (prepared :: others)

def prepareTemplates (catalog : List SendTemplate) : Except MessageError (List SendTemplate) := do
  require (catalog.length ≤ 8) .invalidMessage
  prepareFrom [] catalog

end Sources

section Expansion

/-- `templateOutput.Write`. -/
def writeOutput (written bytes : Bytes) : Except MessageError Bytes := do
  require (written.length + bytes.length ≤ 16384) .invalidMessage
  pure (written ++ bytes)

/-- The loop of `expand`. Without a closing delimiter the name is all that is left. -/
def expandFrom (values : Values) : (fuel : Nat) → Bytes → Bytes → Except MessageError Bytes
  | 0, _, _ => .error .invalidMessage
  | fuel + 1, written, source =>
      match cut opening source with
      | none => writeOutput written source
      | some (before, after) => do
          let written ← writeOutput written before
          let (name, rest) := (cut closing after).getD (after, [])
          let written ← writeOutput written ((values.find name).getD [])
          expandFrom values fuel written rest

def expand (values : Values) (source : Bytes) : Except MessageError Bytes :=
  expandFrom values (source.length + 1) [] source

/-- The `#ZgotmplZ` that `html/template` writes for a value it cannot place. -/
def unsafeMark : Bytes := ascii "#ZgotmplZ"

variable [Html]

def refersTo (ref : JsonTemplateReference) (t : SendTemplate) : Bool :=
  t.id = ref.id && t.version = ref.version && t.language = ref.language

def resolveJSONTemplate (v : JsonMessage) (catalog : List SendTemplate) :
    Except MessageError JsonMessage :=
  match v.template with
  | none => pure v
  | some ref => do
      let t ← demand (catalog.find? (refersTo ref)) .invalidMessage
      let source ← demand t.compiled .invalidMessage
      require (ref.variableValues.entries.length = t.variableNames.length ∧
        ∀ name ∈ t.variableNames, (ref.variableValues.find name).isSome) .invalidMessage
      let subject ← expand ref.variableValues t.subject
      let text ← expand ref.variableValues t.text
      let html ← demand (Html.execute source ref.variableValues.find) .invalidMessage
      require (html.length ≤ 16384) .invalidMessage
      require (cut unsafeMark html = none) .invalidMessage
      pure { v with subject, text, html }

end Expansion

end RelayTale.Api
