import Mathlib.Data.List.Sort
import RelayTale.Feedback.Publication
import RelayTale.Foundation.Guard
import RelayTale.Foundation.Json

/-!
# Collection of feedback from a mailbox

`Collect` reads a window of a mailbox. Every message is committed with its
receipt and the checkpoint of the source, and a last transaction moves the
checkpoint to the end of the window. The lock of a source belongs to the session
of its collector, which can end at any point; then the lock is free. Meanwhile
others add reports to the tables of the feedback.
-/

namespace RelayTale.Feedback.Collector

open Text Keyed Guard

abbrev ProcessID := Nat

def maxRecords : Nat := 10000

def maxStored : Nat := 104857600

section Rows

inductive Outcome
  | imported
  | oversize
  | empty
  | vanished
  deriving DecidableEq, Repr

inductive AlertKind
  | uidValidityChanged
  | uidNextRegressed
  deriving DecidableEq, Repr

/-- A row of `feedback_imap_sources`. The range of its numbers is that of `uint32`. -/
structure Source where
  identity : Bytes
  uidValidity : UInt32
  lastUID : UInt32 := 0
  storedBytes : Nat := 0
  records : Nat := 0
  deriving DecidableEq, Repr

/-- A row of `feedback_imap_receipts`. -/
structure Receipt where
  source : Bytes
  uidValidity : UInt32
  uid : UInt32
  outcome : Outcome
  reportedSize : Nat
  feedback : Option FeedbackID
  deriving DecidableEq, Repr

/-- A row of `feedback_imap_alerts`, which is its own key. -/
structure Alert where
  source : Bytes
  uidValidity : UInt32
  kind : AlertKind
  deriving DecidableEq, Repr

abbrev Receipt.key (r : Receipt) : Bytes × UInt32 × UInt32 := (r.source, r.uidValidity, r.uid)

structure Database where
  sources : Bytes → Option Source
  receipts : List Receipt
  alerts : List Alert
  feedback : Tables
  capacity : Capacity
  receiptKey : (receipts.map Receipt.key).Nodup
  alertKey : alerts.Nodup
  receiptSource : ∀ r ∈ receipts, (sources r.source).isSome = true
  alertSource : ∀ a ∈ alerts, (sources a.source).isSome = true
  receiptReport : ∀ r ∈ receipts, ∀ id, r.feedback = some id → ∃ f ∈ feedback.reports, f.id = id

namespace Database

variable (db : Database)

theorem isSome_update {sources : Bytes → Option Source} {name other : Bytes} {row : Source}
    (found : (sources other).isSome = true) :
    (Function.update sources name (some row) other).isSome = true := by
  by_cases same : other = name
  · subst same
    rw [Function.update_self]
    rfl
  · rwa [Function.update_of_ne same]

def setSource (name : Bytes) (row : Source) : Database := { db with
  sources := Function.update db.sources name (some row)
  receiptSource := fun r member => isSome_update (db.receiptSource r member)
  alertSource := fun a member => isSome_update (db.alertSource a member) }

/-- `INSERT … ON CONFLICT DO NOTHING`. -/
def insertSource (name : Bytes) (row : Source) : Database :=
  if (db.sources name).isSome then db else db.setSource name row

/-- `UPDATE … WHERE name=$1`. -/
def updateSource (name : Bytes) (change : Source → Source) : Database :=
  match db.sources name with
  | some row => db.setSource name (change row)
  | none => db

def insertAlert (row : Alert) : Option Database :=
  if new : row ∉ db.alerts ∧ (db.sources row.source).isSome = true then
    some { db with
      alerts := db.alerts ++ [row]
      alertKey := nodup_snoc_self db.alertKey new.1
      alertSource := List.forall_mem_append.mpr
        ⟨db.alertSource, List.forall_mem_singleton.mpr new.2⟩ }
  else none

def insertReceipt (row : Receipt) : Option Database :=
  if new : row.key ∉ db.receipts.map Receipt.key ∧ (db.sources row.source).isSome = true ∧
      (row.outcome = .imported ↔ row.feedback.isSome = true) ∧
      ∀ id, row.feedback = some id → ∃ f ∈ db.feedback.reports, f.id = id then
    some { db with
      receipts := db.receipts ++ [row]
      receiptKey := nodup_snoc db.receiptKey new.1
      receiptSource := List.forall_mem_append.mpr
        ⟨db.receiptSource, List.forall_mem_singleton.mpr new.2.1⟩
      receiptReport := List.forall_mem_append.mpr
        ⟨db.receiptReport, List.forall_mem_singleton.mpr new.2.2.2⟩ }
  else none

theorem refers_subset {receipts : List Receipt} {reports reports' : List ReportRow}
    (refer : ∀ r ∈ receipts, ∀ id, r.feedback = some id → ∃ f ∈ reports, f.id = id)
    (subset : reports ⊆ reports') :
    ∀ r ∈ receipts, ∀ id, r.feedback = some id → ∃ f ∈ reports', f.id = id := by
  intro r member id same
  obtain ⟨f, inside, named⟩ := refer r member id same
  exact ⟨f, subset inside, named⟩

def addReports (t : Tables) (c : Capacity) (more : db.feedback.reports ⊆ t.reports) : Database :=
  { db with
    feedback := t
    capacity := c
    receiptReport := refers_subset db.receiptReport more }

end Database

end Rows

section Calls

structure MailboxSnapshot where
  uidValidity : UInt32
  uidNext : UInt32
  deriving DecidableEq, Repr

structure MailMetadata where
  uid : UInt32
  size : Int
  deriving DecidableEq, Repr

structure CollectOptions where
  source : Bytes
  identitySHA256 : Bytes
  batch : Int
  acceptUIDValidity : UInt32 := 0
  deriving DecidableEq, Repr

structure Collection where
  source : Bytes
  uidValidity : UInt32 := 0
  lastUID : UInt32 := 0
  imported : Nat := 0
  issues : Nat := 0
  deriving DecidableEq, Repr

inductive CollectError
  | invalid
  | busy
  | connection
  | selection
  | noEpoch
  | mailboxChanged
  | capacity
  | metadataFetch
  | metadataExceeds
  | metadataInvalid
  | bodyFetch
  | bodyMismatch
  | database
  deriving DecidableEq, Repr

/-- What `Body` returns. -/
inductive BodyAnswer
  | failed
  | expunged
  | present (raw : Bytes)
  deriving DecidableEq, Repr

def nameByte (byte : UInt8) : Bool :=
  within 0x41 0x5A byte || within 0x61 0x7A byte || within 0x30 0x39 byte ||
    byte = 0x2E || byte = 0x5F || byte = 0x2D

def hexByte (byte : UInt8) : Bool := within 0x30 0x39 byte || within 0x61 0x66 byte

def CollectOptions.accepted (o : CollectOptions) : Bool :=
  1 ≤ o.source.length && o.source.length ≤ 64 && o.source.all nameByte &&
    o.identitySHA256.length = 64 && o.identitySHA256.all hexByte && 1 ≤ o.batch && o.batch ≤ 100

end Calls

section Windows

/-- The last UID of the window, in the arithmetic of `uint64`. -/
def window (lastUID uidNext : UInt32) (batch : Int) : UInt64 :=
  let last := lastUID.toUInt64 + UInt64.ofNat batch.toNat
  if uidNext.toUInt64 ≤ last then uidNext.toUInt64 - 1 else last

/-- What `Metadata` is asked for, in the arithmetic of `uint32`. -/
def requested (lastUID : UInt32) (last : UInt64) : UInt32 × UInt32 :=
  (lastUID + 1, last.toUInt32)

/-- `sort.Slice`. UIDs that occur twice are refused afterwards, so their order is of no matter. -/
def byUID (listed : List MailMetadata) : List MailMetadata :=
  listed.insertionSort fun m other => m.uid ≤ other.uid

def validMetadata (start : UInt32) (last : UInt64) :
    (before : Option UInt32) → List MailMetadata → Bool
  | _, [] => true
  | before, m :: rest =>
      start ≤ m.uid && m.uid.toUInt64 ≤ last && 0 ≤ m.size && before ≠ some m.uid &&
        validMetadata start last (some m.uid) rest

def collected (m : MailMetadata) (answer : BodyAnswer) : Except CollectError (Outcome × Bytes) :=
  if (maxBytes : Int) < m.size then .ok (.oversize, [])
  else if m.size = 0 then .ok (.empty, [])
  else match answer with
    | .failed => .error .bodyFetch
    | .expunged => .ok (.vanished, [])
    | .present raw =>
        if maxBytes < raw.length then .ok (.oversize, [])
        else if (raw.length : Int) ≠ m.size then .error .bodyMismatch
        else .ok (.imported, raw)

def Collection.count (out : Collection) (uid : UInt32) (outcome : Outcome) : Collection :=
  if outcome = .imported then { out with lastUID := uid, imported := out.imported + 1 }
  else { out with lastUID := uid, issues := out.issues + 1 }

end Windows

section Transactions

/-- Why the source is not ready: an error to be returned, or an epoch to be reported first. -/
inductive Refusal
  | returned (e : CollectError)
  | epochChanged
  deriving DecidableEq, Repr

def initializeSource (o : CollectOptions) (snapshot : MailboxSnapshot) (db : Database) :
    UInt32 × Except Refusal Database :=
  let db := db.insertSource o.source
    { identity := o.identitySHA256, uidValidity := snapshot.uidValidity }
  match db.sources o.source with
  | none => (0, .error (.returned .database))
  | some row =>
      if row.identity ≠ o.identitySHA256 then (row.lastUID, .error (.returned .mailboxChanged))
      else if maxRecords ≤ row.records then (row.lastUID, .error (.returned .capacity))
      else if row.uidValidity ≠ snapshot.uidValidity then
        if o.acceptUIDValidity ≠ snapshot.uidValidity then (row.lastUID, .error .epochChanged)
        else
          (0, .ok (db.setSource o.source
            { row with uidValidity := snapshot.uidValidity, lastUID := 0 }))
      else (row.lastUID, .ok db)

def collectorAlert (source : Bytes) (validity : UInt32) (kind : AlertKind) (db : Database) :
    Except CollectError Database :=
  let alert : Alert := ⟨source, validity, kind⟩
  if alert ∈ db.alerts then .ok db
  else do
    let db ← demand (db.insertAlert alert) .database
    let row ← demand (db.sources source) .capacity
    require (row.records < maxRecords) .capacity
    return db.setSource source { row with records := row.records + 1 }

theorem insertReport_subset {t t' : Tables} {row : ReportRow} {events : List EventRow}
    (inserted : t.insertReport row = some t') : t.reports ⊆ (t'.notify events).reports := by
  unfold Tables.insertReport at inserted
  split at inserted
  · obtain rfl := Option.some.inj inserted
    exact List.subset_append_left _ _
  · cases inserted

variable [Reader]

/-- `importRaw` in the transaction of its caller. -/
def importRaw (v : ImportCall) (db : Database) : Except CollectError (Database × FeedbackID) :=
  match db.feedback.reports.find? fun f => f.evidence = v.row.evidence with
  | some f => .ok (db, f.id)
  | none =>
      match inserted : db.feedback.insertReport v.row with
      | none => .error .database
      | some t =>
          match db.capacity.charge v.row with
          | none => .error .capacity
          | some c =>
              .ok (db.addReports (t.notify (invalidations (contradictedLinks t v.row))) c
                (insertReport_subset inserted), v.id)

def importCall (o : CollectOptions) (validity uid : UInt32) (id : FeedbackID) (raw : Bytes) :
    ImportCall where
  id := id
  source := ascii "imap:" ++ o.source
  externalID := o.identitySHA256 ++ ascii ":" ++ Json.decimal validity.toNat ++ ascii ":" ++
    Json.decimal uid.toNat
  actor := ascii "imap_collector"
  reason := ascii "authenticated mailbox read; feedback source remains unverified"
  raw := raw

/-- The report that is imported with a receipt, if any. -/
def importIf (outcome : Outcome) (v : ImportCall) (db : Database) :
    Except CollectError (Database × Option FeedbackID) :=
  if outcome = .imported then (importRaw v db).map fun result => (result.1, some result.2)
  else .ok (db, none)

def saveCollected (o : CollectOptions) (validity : UInt32) (m : MailMetadata) (raw : Bytes)
    (outcome : Outcome) (id : FeedbackID) (db : Database) : Except CollectError Database :=
  if (o.source, validity, m.uid) ∈ db.receipts.map Receipt.key then
    .ok (db.updateSource o.source fun row => { row with lastUID := m.uid })
  else do
    let row ← demand (db.sources o.source) .capacity
    require (row.records < maxRecords ∧ row.storedBytes + raw.length ≤ maxStored) .capacity
    let (db, feedback) ← importIf outcome (importCall o validity m.uid id raw)
      (db.setSource o.source { row with
        storedBytes := row.storedBytes + raw.length
        records := row.records + 1
        lastUID := m.uid })
    demand (db.insertReceipt ⟨o.source, validity, m.uid, outcome, m.size.toNat, feedback⟩) .database

def checkpoint (source : Bytes) (last : UInt64) (db : Database) : Except CollectError Database :=
  if last ≤ 4294967295 then
    .ok (db.updateSource source fun row => { row with lastUID := last.toUInt32 })
  else .error .database

end Transactions

section Sessions

/-- How a transaction ends for its client; `lost` is a commit whose answer is lost. -/
inductive Ending
  | done
  | refused
  | lost
  deriving DecidableEq, Repr

/-- Where a call of `Collect` is. -/
inductive Phase
  | idle
  | selected (o : CollectOptions) (snapshot : MailboxSnapshot)
  | alerting (o : CollectOptions) (snapshot : MailboxSnapshot) (kind : AlertKind)
      (out : Collection)
  | windowed (o : CollectOptions) (snapshot : MailboxSnapshot) (last : UInt64) (out : Collection)
  | collecting (o : CollectOptions) (snapshot : MailboxSnapshot) (last : UInt64)
      (listed todo : List MailMetadata) (out : Collection)
  deriving DecidableEq, Repr

structure System where
  db : Database
  phase : ProcessID → Phase := fun _ => .idle
  holder : Bytes → Option ProcessID := fun _ => none
  returned : List (ProcessID × Collection × Option CollectError) := []

namespace System

variable (p : ProcessID)

/-- `Collect` returns; the lock is released. -/
def finish (out : Collection) (e : Option CollectError) (s : System) : System :=
  { s with
    phase := Function.update s.phase p .idle
    holder := Function.update s.holder out.source none
    returned := s.returned ++ [(p, out, e)] }

def goto (phase : Phase) (s : System) : System :=
  { s with phase := Function.update s.phase p phase }

def decline (out : Collection) (e : CollectError) (s : System) : System :=
  { s with returned := s.returned ++ [(p, out, some e)] }

/-- The first part of `Collect`. `opened` is what `open` and `Select` return. -/
def startCollect (o : CollectOptions) (opened : Except CollectError MailboxSnapshot)
    (s : System) : System :=
  let out : Collection := { source := o.source }
  if !o.accepted then s.decline p out .invalid
  else if (s.holder o.source).isSome then s.decline p out .busy
  else match opened with
    | .error e => s.decline p out e
    | .ok snapshot =>
        if snapshot.uidValidity = 0 ∨ snapshot.uidNext = 0 then s.decline p out .noEpoch
        else
          let out := { out with uidValidity := snapshot.uidValidity }
          if o.acceptUIDValidity ≠ 0 ∧ o.acceptUIDValidity ≠ snapshot.uidValidity then
            s.decline p out .mailboxChanged
          else
            { s with
              phase := Function.update s.phase p (.selected o snapshot)
              holder := Function.update s.holder o.source (some p) }

/-- The part of `Collect` after the source is ready. -/
def initialized (o : CollectOptions) (snapshot : MailboxSnapshot) (out : Collection)
    (s : System) : System :=
  if snapshot.uidNext.toUInt64 ≤ out.lastUID.toUInt64 then
    s.goto p (.alerting o snapshot .uidNextRegressed out)
  else
    let last := window out.lastUID snapshot.uidNext o.batch
    if last = out.lastUID.toUInt64 then s.finish p out none
    else s.goto p (.windowed o snapshot last out)

/-- A transaction ends; only one that is known to be committed lets the call go on. -/
def conclude (ending : Ending) (db : Database) (out : Collection) (next : System → System)
    (s : System) : System :=
  match ending with
  | .done => next { s with db }
  | .refused => s.finish p out (some .database)
  | .lost => { s with db }.finish p out (some .database)

def runInitialize (ending : Ending) (s : System) : System :=
  match s.phase p with
  | .selected o snapshot =>
      let (lastUID, result) := initializeSource o snapshot s.db
      let out : Collection :=
        { source := o.source, uidValidity := snapshot.uidValidity, lastUID }
      match result with
      | .error (.returned e) => s.finish p out (some e)
      | .error .epochChanged => s.goto p (.alerting o snapshot .uidValidityChanged out)
      | .ok db => s.conclude p ending db out (initialized p o snapshot out)
  | _ => s

def runAlert (ending : Ending) (s : System) : System :=
  match s.phase p with
  | .alerting o snapshot kind out =>
      match collectorAlert o.source snapshot.uidValidity kind s.db with
      | .error e => s.finish p out (some e)
      | .ok db => s.conclude p ending db out (finish p out (some .mailboxChanged))
  | _ => s

def runMetadata (answer : Option (List MailMetadata)) (s : System) : System :=
  match s.phase p with
  | .windowed o snapshot last out =>
      match answer with
      | none => s.finish p out (some .metadataFetch)
      | some listed =>
          if o.batch < listed.length then s.finish p out (some .metadataExceeds)
          else if validMetadata (requested out.lastUID last).1 last none (byUID listed) then
            s.goto p (.collecting o snapshot last (byUID listed) (byUID listed) out)
          else s.finish p out (some .metadataInvalid)
  | _ => s

def runCheckpoint (ending : Ending) (s : System) : System :=
  match s.phase p with
  | .collecting o _ last _ [] out =>
      match checkpoint o.source last s.db with
      | .error e => s.finish p out (some e)
      | .ok db => s.conclude p ending db out (finish p { out with lastUID := last.toUInt32 } none)
  | _ => s

variable [Reader]

def runSave (answer : BodyAnswer) (id : FeedbackID) (ending : Ending) (s : System) : System :=
  match s.phase p with
  | .collecting o snapshot last listed (m :: rest) out =>
      match collected m answer with
      | .error e => s.finish p out (some e)
      | .ok (outcome, raw) =>
          match saveCollected o snapshot.uidValidity m raw outcome id s.db with
          | .error e => s.finish p out (some e)
          | .ok db =>
              s.conclude p ending db out
                (goto p (.collecting o snapshot last listed rest (out.count m.uid outcome)))
  | _ => s

/-- Any other end of a call: an error, a timeout, a crash or a lost session. -/
def abandon (e : CollectError) (s : System) : System :=
  match s.phase p with
  | .idle => s
  | .selected o snapshot =>
      s.finish p { source := o.source, uidValidity := snapshot.uidValidity } (some e)
  | .alerting _ _ _ out | .windowed _ _ _ out | .collecting _ _ _ _ _ out => s.finish p out (some e)

/-- Others change the tables of the feedback, where reports are only added. -/
def publish (t : Tables) (c : Capacity) (s : System) : System :=
  if more : s.db.feedback.reports ⊆ t.reports then { s with db := s.db.addReports t c more } else s

end System

inductive Event
  | start (p : ProcessID) (o : CollectOptions) (opened : Except CollectError MailboxSnapshot)
  | initializeSource (p : ProcessID) (ending : Ending)
  | alert (p : ProcessID) (ending : Ending)
  | metadata (p : ProcessID) (answer : Option (List MailMetadata))
  | save (p : ProcessID) (answer : BodyAnswer) (id : FeedbackID) (ending : Ending)
  | checkpoint (p : ProcessID) (ending : Ending)
  | abandon (p : ProcessID) (e : CollectError)
  | publish (t : Tables) (c : Capacity)

variable [Reader]

def System.step (s : System) : Event → System
  | .start p o opened => if s.phase p = .idle then s.startCollect p o opened else s
  | .initializeSource p ending => s.runInitialize p ending
  | .alert p ending => s.runAlert p ending
  | .metadata p answer => s.runMetadata p answer
  | .save p answer id ending => s.runSave p answer id ending
  | .checkpoint p ending => s.runCheckpoint p ending
  | .abandon p e => s.abandon p e
  | .publish t c => s.publish t c

def System.run (s : System) (events : List Event) : System := events.foldl System.step s

end Sessions

end RelayTale.Feedback.Collector
