import RelayTale.Foundation.Encoding
import RelayTale.Operations.Inventory

/-!
# Scans over a range of days

A scan goes through the days of a range, each in pages. A call stops at its
limit of entries or after 31 days and returns a cursor: the day, and the name in
the day after which the next call goes on. As long as the archive does not
change, the calls together list every entry once.
-/

namespace RelayTale.Operations

open Text Guard Calendar
open Json (strings plain escape escape_plain reads_of_valid findField readText)

section Observation

variable (env : Environment) (w : World)

def archiveRecoveryMax : Nat := 100 * 2 ^ 20

def readPieces : Nat → List Bytes → Except ArchiveError Nat
  | size, [] => pure size
  | size, piece :: pieces => do
      require (size + piece.length ≤ archiveRecoveryMax) ArchiveError.grewBeyondBounds
      readPieces (size + piece.length) pieces

def recoveryFile (root path : Bytes) : Except ArchiveError ArchiveObservation := do
  let parts := path.splitOn 47
  require (parts.length = 4) ArchiveError.invalidPath
  let day ← demand (parseDay (List.intercalate [45] (parts.take 3))) ArchiveError.invalidDay
  require (formatDay 47 day = List.intercalate [47] (parts.take 3)) ArchiveError.invalidDay
  let id ← demand (archiveID (parts.getD 3 [])) ArchiveError.invalidName
  let _ ← w.openRoot root
  let _ ← [1, 2, 3].mapM fun count => do
    let st ← w.lstat (List.intercalate [47] (parts.take count))
    require (st.kind = .directory) ArchiveError.unsafeEntry
  let st ← w.lstat path
  require (st.kind = .regular) ArchiveError.unsafeEntry
  let file ← w.openFile path
  require (file.stat.kind = .regular ∧ file.stat.size ≤ archiveRecoveryMax)
    ArchiveError.exceedsBounds
  let size ← readPieces 0 file.pieces
  let current ← (w.lstatAgain path).mapError fun _ => ArchiveError.changed
  require (file.stat.identity = current.identity ∧ current.size = size ∧
    current.modified = file.stat.modified) ArchiveError.changed
  pure
    { id := [], archiveID := id, path, size
      sha256 := hexEncode (env.sha256 file.pieces.flatten) }

def observeArchive (root path : Bytes) : Except ArchiveError ArchiveObservation := do
  let absolute ← env.abs root
  let out ← recoveryFile env w absolute path
  let id ← w.record out
  pure { out with id }

end Observation

section Cursor

structure ArchiveScanCursor where
  scope : Bytes
  day : Bytes
  after : Bytes
  deriving DecidableEq, Repr

namespace ArchiveScanCursor

inductive Field
  | scope
  | day
  | after
  deriving DecidableEq

def fields : List (Bytes × Field) :=
  [(ascii "scope", .scope), (ascii "day", .day), (ascii "after", .after)]

/-- `json.Marshal`. -/
def marshal (c : ArchiveScanCursor) : Bytes :=
  Json.compact strings (.object (Json.texts
    [(ascii "scope", c.scope), (ascii "day", c.day), (ascii "after", c.after)]))

def set (c : ArchiveScanCursor) : Field → Json → Option ArchiveScanCursor
  | .scope, value => (readText c.scope value).map fun scope => { c with scope }
  | .day, value => (readText c.day value).map fun day => { c with day }
  | .after, value => (readText c.after value).map fun after => { c with after }

/-- `json.Unmarshal`, which passes over the members it does not know. -/
def unmarshal (raw : Bytes) : Option ArchiveScanCursor := do
  let (document, rest) ← Json.read strings raw
  if Json.skip rest ≠ [] then none
  else match document with
    | .object members =>
        members.foldlM (fun c member =>
          match findField fields member.1 with
          | some field => c.set field member.2
          | none => some c) ⟨[], [], []⟩
    | .null => some ⟨[], [], []⟩
    | _ => none

end ArchiveScanCursor

/-- The scope binds a cursor to the arguments of the call. -/
def scanScope (env : Environment) (absolute from' to' : Bytes) (record : Bool) : Bytes :=
  hexEncode (env.sha256 (absolute ++ 0 :: (from' ++ 0 :: (to' ++
    0 :: ascii (if record then "true" else "false")))))

end Cursor

section Scan

structure ArchiveScanReport where
  complete : Bool
  nextCursor : Bytes
  scanned : Nat
  days : Nat
  items : List ArchiveInventoryItem
  observations : List ArchiveObservation
  deriving DecidableEq, Repr

structure Scan where
  date : Nat
  cursor : ArchiveScanCursor
  report : ArchiveScanReport

def Scan.visit (s : Scan) : Scan :=
  { s with report := { s.report with days := s.report.days + 1 } }

def Scan.nextDay (s : Scan) : Scan :=
  { s with
    date := s.date + 1
    cursor := { s.cursor with day := formatDay 45 (s.date + 1), after := [] } }

variable (env : Environment) (w : World) (absolute : Bytes) (stop limit : Nat) (record : Bool)

def observeItems (items : List ArchiveInventoryItem) :
    Except ArchiveError (List ArchiveObservation) :=
  if record then
    (items.filter (·.reason = .noVisibleReferenceReview)).mapM fun item =>
      observeArchive env w absolute item.path
  else pure []

def Scan.add (s : Scan) (page : ArchiveInventoryReport) (observations : List ArchiveObservation) :
    Scan :=
  { s with
    report := { s.report with
      scanned := s.report.scanned + page.scanned
      days := s.report.days + 1
      items := s.report.items ++ page.items
      observations := s.report.observations ++ observations } }

/-- One day. The flag tells that the loop is left, because the day has further entries. A day
without a directory is passed over. -/
def scanDay (s : Scan) : Except ArchiveError (Scan × Bool) :=
  match w.lstat (formatDay 47 s.date) with
  | .error .notExist => pure (s.visit.nextDay, false)
  | .error failure => .error failure
  | .ok _ => do
      let page ← inventoryArchivesPage w env absolute (formatDay 45 s.date) s.cursor.after
        (limit - s.report.scanned)
      let observations ← observeItems env w absolute record page.items
      let s := s.add page observations
      if page.truncated then
        pure ({ s with cursor := { s.cursor with after := page.nextAfter } }, true)
      else pure (s.nextDay, false)

def scanDays : (slots : Nat) → Scan → Except ArchiveError Scan
  | 0, s => pure s
  | slots + 1, s =>
      if s.date ≤ stop ∧ s.report.scanned < limit then do
        let (s, left) ← scanDay env w absolute limit record s
        if left then pure s else scanDays slots s
      else pure s

def daySlots : Nat := 31

def resume (scope from' : Bytes) (start : Nat) (cursor : Bytes) :
    Except ArchiveError (ArchiveScanCursor × Nat) := do
  if cursor = [] then pure (⟨scope, from', []⟩, start)
  else
    let raw ← demand (Base64.decode cursor) ArchiveError.undecodableCursor
    let saved ← demand (ArchiveScanCursor.unmarshal raw) ArchiveError.scopeMismatch
    require (saved.scope = scope) ArchiveError.scopeMismatch
    let date ← demand (parseDay saved.day) ArchiveError.invalidCursorDate
    require (start ≤ date ∧ date ≤ stop) ArchiveError.invalidCursorDate
    pure (saved, date)

def Scan.finish (s : Scan) : ArchiveScanReport :=
  if stop < s.date then { s.report with complete := true }
  else { s.report with nextCursor := Base64.encode s.cursor.marshal }

def scanArchives (root from' to' cursor : Bytes) : Except ArchiveError ArchiveScanReport := do
  let start ← demand (parseDay from') ArchiveError.invalidDate
  let stop ← demand (parseDay to') ArchiveError.invalidScanBounds
  require (start ≤ stop ∧ stop - start ≤ 36600 ∧ root ≠ [] ∧ 1 ≤ limit ∧ limit ≤ 10000 ∧
    cursor.length ≤ 2048) ArchiveError.invalidScanBounds
  let absolute ← env.abs root
  let (saved, date) ← resume stop (scanScope env absolute from' to' record) from' start cursor
  let _ ← w.openRoot absolute
  let s ← scanDays env w absolute stop limit record daySlots
    ⟨date, saved, ⟨false, [], 0, 0, [], []⟩⟩
  pure (s.finish stop)

end Scan

section Cursors

theorem hexEncode_plain (bytes : Bytes) : ∀ byte ∈ hexEncode bytes, plain byte = true := by
  have digits : ∀ n < 16, plain (hexDigit (UInt8.ofNat n)) = true := by decide
  have small {value : UInt8} (digit : value.toNat < 16) : plain (hexDigit value) = true := by
    have known := digits value.toNat digit
    rwa [UInt8.ofNat_toNat] at known
  intro text member
  obtain ⟨byte, -, digit⟩ := List.mem_flatMap.mp member
  have bound := byte.toNat_lt
  rcases List.mem_pair.mp digit with rfl | rfl
  · exact small (by simp; omega)
  · exact small (by simp; omega)

/-- A cursor whose texts need no escapes. -/
structure ArchiveScanCursor.Plain (c : ArchiveScanCursor) : Prop where
  scope : ∀ byte ∈ c.scope, plain byte = true
  day : ∀ byte ∈ c.day, plain byte = true
  after : ∀ byte ∈ c.after, plain byte = true

theorem plain_ascii {byte : UInt8} (safe : plain byte = true) : byte < 0x80 := by
  simp only [plain, Bool.and_eq_true, decide_eq_true_eq] at safe
  exact safe.1.1.1.1.1.2

theorem plain_valid {text : Bytes} (safe : ∀ byte ∈ text, plain byte = true) :
    validUTF8 text = true :=
  validUTF8_ascii fun byte member => plain_ascii (safe byte member)

theorem ArchiveScanCursor.unmarshal_marshal {c : ArchiveScanCursor} (safe : c.Plain) :
    unmarshal c.marshal = some c := by
  have key : ∀ name ∈ [ascii "scope", ascii "day", ascii "after"], strings.Reads name := by
    intro name listed
    refine reads_of_valid ?_
    revert name
    decide
  have value : ∀ text ∈ [c.scope, c.day, c.after], strings.Reads text := by
    simp only [List.forall_mem_cons]
    exact ⟨reads_of_valid (plain_valid safe.scope), reads_of_valid (plain_valid safe.day),
      reads_of_valid (plain_valid safe.after), List.forall_mem_nil _⟩
  have read : Json.read strings c.marshal = some (_, []) :=
    Json.read_write (Json.lawful_texts (by simpa using key) (by simpa using value))
  have scope : findField fields (ascii "scope") = some .scope := by decide
  have day : findField fields (ascii "day") = some .day := by decide
  have after : findField fields (ascii "after") = some .after := by decide
  rw [unmarshal, read]
  simp only [Option.bind_eq_bind, Option.bind_some, Json.skip, List.dropWhile_nil, ne_eq,
    not_true_eq_false, if_false, Json.texts, List.map_cons, List.map_nil, List.foldlM_cons,
    List.foldlM_nil, scope, day, after, set, readText, Option.map_some]
  rfl

theorem ArchiveScanCursor.marshal_length {c : ArchiveScanCursor} (safe : c.Plain) :
    c.marshal.length = 32 + c.scope.length + c.day.length + c.after.length := by
  have key : ∀ name ∈ [ascii "scope", ascii "day", ascii "after"], escape name = name := by
    have safe : ∀ name ∈ [ascii "scope", ascii "day", ascii "after"],
        ∀ byte ∈ name, plain byte = true := by decide +kernel
    exact fun name listed => escape_plain (safe name listed)
  simp only [List.forall_mem_cons] at key
  simp only [marshal, Json.texts, List.map_cons, List.map_nil, Json.compact, Json.write,
    Json.writeMembers, Json.tight, Json.literal, strings, key.1, key.2.1, key.2.2.1,
    escape_plain safe.scope, escape_plain safe.day, escape_plain safe.after, List.length_append,
    List.length_cons, List.length_nil]
  have lengths : (ascii "scope").length = 5 ∧ (ascii "day").length = 3 ∧
      (ascii "after").length = 5 := by decide
  omega

end Cursors

end RelayTale.Operations
