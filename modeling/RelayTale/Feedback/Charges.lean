import Mathlib.Algebra.Ring.Nat
import RelayTale.Feedback.Invalidation
import RelayTale.Feedback.Mailbox

/-!
# What the transactions of a collector change

Each of them writes one source and adds a row at most. The rows and the bytes
that a source is charged are those that were added for it. The computation of
the window stays within `uint32`.
-/

namespace RelayTale.Feedback.Collector

open RelayTale.Smtp Guard

section Windows

/-- Nothing wraps around in the computation of the window. -/
theorem window_toNat {lastUID uidNext : UInt32} {batch : Int}
    (before : lastUID.toNat < uidNext.toNat) (low : 1 ≤ batch) (high : batch ≤ 100) :
    (window lastUID uidNext batch).toNat =
      min (lastUID.toNat + batch.toNat) (uidNext.toNat - 1) := by
  have small := lastUID.toNat_lt
  have small' := uidNext.toNat_lt
  have sum : (lastUID.toUInt64 + UInt64.ofNat batch.toNat).toNat = lastUID.toNat + batch.toNat := by
    rw [UInt64.toNat_add, UInt32.toNat_toUInt64, UInt64.toNat_ofNat']
    omega
  unfold window
  simp only [UInt64.le_iff_toNat_le, sum, UInt32.toNat_toUInt64]
  split
  next short =>
    rw [UInt64.toNat_sub_of_le]
    · simp only [UInt32.toNat_toUInt64, UInt64.toNat_one]
      omega
    · rw [UInt64.le_iff_toNat_le, UInt32.toNat_toUInt64, UInt64.toNat_one]
      omega
  next long =>
    rw [sum]
    omega

theorem byUID_sorted (listed : List MailMetadata) :
    (byUID listed).Pairwise fun m other => m.uid ≤ other.uid := by
  let earlier (m other : MailMetadata) : Prop := m.uid ≤ other.uid
  have : Std.Total earlier := ⟨fun m other => UInt32.le_total m.uid other.uid⟩
  have : IsTrans MailMetadata earlier := ⟨fun _ _ _ first second => UInt32.le_trans first second⟩
  exact List.pairwise_insertionSort earlier listed

theorem validMetadata_sound {start : UInt32} {last : UInt64} {before : Option UInt32}
    {listed : List MailMetadata} (sorted : listed.Pairwise fun m other => m.uid ≤ other.uid)
    (valid : validMetadata start last before listed = true) :
    (listed.Pairwise fun m other => m.uid < other.uid) ∧
      ∀ m ∈ listed, start ≤ m.uid ∧ m.uid.toUInt64 ≤ last := by
  induction listed generalizing before with
  | nil => exact ⟨.nil, List.forall_mem_nil _⟩
  | cons m rest ih =>
    obtain ⟨least, sorted⟩ := List.pairwise_cons.mp sorted
    simp only [validMetadata, Bool.and_eq_true, decide_eq_true_eq] at valid
    obtain ⟨⟨⟨⟨low, high⟩, -⟩, -⟩, valid⟩ := valid
    obtain ⟨apart, bounds⟩ := ih sorted valid
    refine ⟨List.pairwise_cons.mpr ⟨fun other member => ?_, apart⟩,
      List.forall_mem_cons.mpr ⟨⟨low, high⟩, bounds⟩⟩
    -- the next one differs and the others are greater than it
    cases rest with
    | nil => cases member
    | cons next rest =>
      simp only [validMetadata, Bool.and_eq_true, decide_eq_true_eq] at valid
      have differs : m.uid ≠ next.uid := fun same => valid.1.2 (same ▸ rfl)
      have less : m.uid < next.uid :=
        UInt32.lt_of_le_of_ne (least next List.mem_cons_self) differs
      rcases List.mem_cons.mp member with rfl | later
      · exact less
      · exact UInt32.lt_trans less ((List.pairwise_cons.mp apart).1 other later)

/-- A body is kept if it is as long as was said. -/
theorem collected_ok {m : MailMetadata} {answer : BodyAnswer} {outcome : Outcome} {raw : Bytes}
    (taken : collected m answer = .ok (outcome, raw)) :
    outcome = .imported ∧ answer = .present raw ∧ m.size.toNat = raw.length ∨
      outcome ≠ .imported ∧ raw = [] := by
  unfold collected at taken
  split_ifs at taken with large none
  · cases taken
    exact .inr ⟨Outcome.noConfusion, rfl⟩
  · cases taken
    exact .inr ⟨Outcome.noConfusion, rfl⟩
  · cases answer with
    | failed => cases taken
    | expunged =>
      cases taken
      exact .inr ⟨Outcome.noConfusion, rfl⟩
    | present body =>
      simp only at taken
      split_ifs at taken with longer mismatch
      · cases taken
        exact .inr ⟨Outcome.noConfusion, rfl⟩
      · cases taken
        exact .inl ⟨rfl, rfl, by omega⟩

end Windows

section Changes

variable {v : ImportCall} {id : FeedbackID}

structure Grows (name : Bytes) (row : Source) (receipts : List Receipt) (alerts : List Alert)
    (db db' : Database) : Prop where
  sources : db'.sources = Function.update db.sources name (some row)
  receipts : db'.receipts = db.receipts ++ receipts
  alerts : db'.alerts = db.alerts ++ alerts

variable {db db' : Database} {name : Bytes} {row : Source} {o : CollectOptions}
variable {snapshot : MailboxSnapshot} {m : MailMetadata} {raw : Bytes} {outcome : Outcome}

theorem setSource_grows (db : Database) (name : Bytes) (row : Source) :
    Grows name row [] [] db (db.setSource name row) :=
  ⟨rfl, (List.append_nil _).symm, (List.append_nil _).symm⟩

theorem updateSource_grows (found : db.sources name = some row) (change : Source → Source) :
    Grows name (change row) [] [] db (db.updateSource name change) := by
  unfold Database.updateSource
  rw [found]
  exact setSource_grows db name _

theorem kept_grows (found : db.sources name = some row) : Grows name row [] [] db db := by
  refine ⟨?_, (List.append_nil _).symm, (List.append_nil _).symm⟩
  rw [← found, Function.update_eq_self]

theorem insertAlert_fields {alert : Alert} (inserted : db.insertAlert alert = some db') :
    db'.sources = db.sources ∧ db'.receipts = db.receipts ∧ db'.alerts = db.alerts ++ [alert] := by
  unfold Database.insertAlert at inserted
  split at inserted
  · obtain rfl := Option.some.inj inserted
    exact ⟨rfl, rfl, rfl⟩
  · cases inserted

theorem insertReceipt_fields {receipt : Receipt} (inserted : db.insertReceipt receipt = some db') :
    db'.sources = db.sources ∧ db'.receipts = db.receipts ++ [receipt] ∧ db'.alerts = db.alerts ∧
      db'.feedback = db.feedback := by
  unfold Database.insertReceipt at inserted
  split at inserted
  · obtain rfl := Option.some.inj inserted
    exact ⟨rfl, rfl, rfl, rfl⟩
  · cases inserted

/-- The row that `initializeSource` leaves, and how it came about. -/
inductive Registered (o : CollectOptions) (snapshot : MailboxSnapshot) (db : Database) :
    Source → Prop
  | created (new : db.sources o.source = none) :
      Registered o snapshot db
        { identity := o.identitySHA256, uidValidity := snapshot.uidValidity }
  | found {row : Source} (old : db.sources o.source = some row)
      (epoch : row.uidValidity = snapshot.uidValidity) : Registered o snapshot db row
  | reset {row : Source} (old : db.sources o.source = some row)
      (epoch : row.uidValidity ≠ snapshot.uidValidity)
      (accepted : o.acceptUIDValidity = snapshot.uidValidity) :
      Registered o snapshot db { row with uidValidity := snapshot.uidValidity, lastUID := 0 }

theorem Registered.epoch (registered : Registered o snapshot db row) :
    row.uidValidity = snapshot.uidValidity := by
  cases registered with
  | created new => rfl
  | found old epoch => exact epoch
  | reset old epoch accepted => rfl

theorem initializeSource_ok {lastUID : UInt32}
    (ready : initializeSource o snapshot db = (lastUID, .ok db')) :
    ∃ row, Registered o snapshot db row ∧ row.lastUID = lastUID ∧
      Grows o.source row [] [] db db' := by
  unfold initializeSource Database.insertSource at ready
  cases old : db.sources o.source with
  | none =>
    have stored (row : Source) : (db.setSource o.source row).sources o.source = some row :=
      Function.update_self _ _ _
    simp only [old, stored, maxRecords, Option.isSome_none, Bool.false_eq_true, if_false, ne_eq,
      not_true, Nat.le_zero_eq, OfNat.ofNat_ne_zero] at ready
    cases ready
    exact ⟨_, .created old, rfl, setSource_grows db _ _⟩
  | some row =>
    simp only [old, Option.isSome_some, if_true] at ready
    split_ifs at ready with identity full epoch refused
    · cases ready
    · cases ready
    · cases ready
    · cases ready
      exact ⟨_, .reset old epoch (not_not.mp refused), rfl, setSource_grows db _ _⟩
    · cases ready
      exact ⟨row, .found old (not_not.mp epoch), rfl, kept_grows old⟩

theorem collectorAlert_ok {source : Bytes} {validity : UInt32} {kind : AlertKind}
    (alerted : collectorAlert source validity kind db = .ok db') :
    db' = db ∨ ∃ row, db.sources source = some row ∧ row.records < maxRecords ∧
      Grows source { row with records := row.records + 1 } [] [⟨source, validity, kind⟩] db
        db' := by
  unfold collectorAlert at alerted
  simp only at alerted
  split at alerted
  · cases alerted
    exact .inl rfl
  · simp only [do_eq_ok, demand_eq_ok, require_eq_ok, pure_eq_ok] at alerted
    obtain ⟨middle, inserted, row, found, -, room, rfl⟩ := alerted
    obtain ⟨sources, receipts, alerts⟩ := insertAlert_fields inserted
    have grown := setSource_grows middle source { row with records := row.records + 1 }
    refine .inr ⟨row, sources ▸ found, room, ?_, ?_, ?_⟩
    · rw [grown.sources, sources]
    · rw [grown.receipts, receipts]
    · rw [grown.alerts, alerts, List.append_nil]

variable [Reader]

/-- The report that stands for the imported bytes has their digest. -/
theorem importRaw_ok (imported : importRaw v db = .ok (db', id)) :
    db'.sources = db.sources ∧ db'.receipts = db.receipts ∧ db'.alerts = db.alerts ∧
      ∃ f ∈ db'.feedback.reports, f.id = id ∧ f.evidence = v.row.evidence := by
  unfold importRaw at imported
  split at imported
  next f found =>
    cases imported
    exact ⟨rfl, rfl, rfl, f, List.mem_of_find?_eq_some found, rfl,
      by simpa using List.find?_some found⟩
  next =>
    split at imported
    · cases imported
    next t inserted =>
      split at imported
      · cases imported
      next c charged =>
        cases imported
        obtain ⟨reports, -⟩ := insertReport_fields inserted
        refine ⟨rfl, rfl, rfl, v.row, ?_, rfl, rfl⟩
        change v.row ∈ t.reports
        rw [reports]
        exact List.mem_append_right _ (List.mem_singleton_self _)

/-- It is what the import of an operator commits on the same tables. -/
theorem importRaw_yields {store : Store} (tables : store .publication = db.feedback)
    (capacity : store .capacity = db.capacity) (imported : importRaw v db = .ok (db', id)) :
    ∃ writes, (Feedback.importRaw v).Yields store [] writes ∧
      Locking.Store.write store writes .publication = db'.feedback ∧
      Locking.Store.write store writes .capacity = db'.capacity := by
  simp only [Feedback.importRaw, Locking.Program.Yields, tables]
  unfold importRaw at imported
  split at imported
  next f found =>
    cases imported
    have known : v.row.evidence ∈ db.feedback.reports.map ReportRow.evidence :=
      List.mem_map.mpr ⟨f, List.mem_of_find?_eq_some found, by simpa using List.find?_some found⟩
    rw [if_pos known]
    exact ⟨[], ⟨rfl, rfl⟩, tables, capacity⟩
  next none =>
    have new : v.row.evidence ∉ db.feedback.reports.map ReportRow.evidence := by
      intro known
      obtain ⟨f, member, same⟩ := List.mem_map.mp known
      simpa [same] using List.find?_eq_none.mp none f member
    rw [if_neg new]
    split at imported
    · cases imported
    next t inserted =>
      split at imported
      · cases imported
      next c charged =>
        cases imported
        simp only [inserted, Locking.Program.ifSome, Locking.Program.select,
          Locking.Program.Yields, capacity, charged]
        exact ⟨_, ⟨True.intro, rfl⟩, rfl, rfl⟩

theorem importIf_ok {feedback : Option FeedbackID}
    (imported : importIf outcome v db = .ok (db', feedback)) :
    db'.sources = db.sources ∧ db'.receipts = db.receipts ∧ db'.alerts = db.alerts ∧
      (outcome = .imported →
        ∃ f ∈ db'.feedback.reports, feedback = some f.id ∧ f.evidence = v.row.evidence) := by
  unfold importIf at imported
  split at imported
  · obtain ⟨⟨middle, id⟩, raw, same⟩ := map_eq_ok.mp imported
    cases same
    obtain ⟨sources, receipts, alerts, f, member, rfl, evidence⟩ := importRaw_ok raw
    exact ⟨sources, receipts, alerts, fun _ => ⟨f, member, rfl, evidence⟩⟩
  next other =>
    cases imported
    exact ⟨rfl, rfl, rfl, fun same => absurd same other⟩

theorem saveCollected_ok {validity : UInt32}
    (saved : saveCollected o validity m raw outcome id db = .ok db') :
    (o.source, validity, m.uid) ∈ db.receipts.map Receipt.key ∧
        db' = (db.updateSource o.source fun row => { row with lastUID := m.uid }) ∨
      (o.source, validity, m.uid) ∉ db.receipts.map Receipt.key ∧
        ∃ row feedback, db.sources o.source = some row ∧ row.records < maxRecords ∧
          row.storedBytes + raw.length ≤ maxStored ∧
          Grows o.source { row with
              storedBytes := row.storedBytes + raw.length
              records := row.records + 1
              lastUID := m.uid }
            [⟨o.source, validity, m.uid, outcome, m.size.toNat, feedback⟩] [] db db' ∧
          (outcome = .imported → ∃ f ∈ db'.feedback.reports, feedback = some f.id ∧
            f.evidence = (importCall o validity m.uid id raw).row.evidence) := by
  unfold saveCollected at saved
  split at saved
  next known =>
    cases saved
    exact .inl ⟨known, rfl⟩
  next new =>
    simp only [do_eq_ok, demand_eq_ok, require_eq_ok] at saved
    obtain ⟨row, found, -, ⟨room, fits⟩, ⟨middle, feedback⟩, imported, inserted⟩ := saved
    obtain ⟨sources, receipts, alerts, report⟩ := importIf_ok imported
    obtain ⟨sources', receipts', alerts', reports⟩ := insertReceipt_fields inserted
    refine .inr ⟨new, row, feedback, found, room, fits, ⟨?_, ?_, ?_⟩, ?_⟩
    · rw [sources', sources]
      rfl
    · rw [receipts', receipts]
      rfl
    · rw [alerts', alerts, List.append_nil]
      rfl
    · rw [reports]
      exact report

end Changes

section Accounting

def Database.receiptsOf (db : Database) (name : Bytes) : List Receipt :=
  db.receipts.filter fun r => r.source = name

def Database.alertsOf (db : Database) (name : Bytes) : List Alert :=
  db.alerts.filter fun a => a.source = name

def Receipt.charged (r : Receipt) : Nat := if r.outcome = .imported then r.reportedSize else 0

structure Accounted (db : Database) (name : Bytes) (row : Source) : Prop where
  records : row.records = (db.receiptsOf name).length + (db.alertsOf name).length
  bounded : row.records ≤ maxRecords
  bytes : row.storedBytes = ((db.receiptsOf name).map Receipt.charged).sum
  limited : row.storedBytes ≤ maxStored

def Lawful (db : Database) : Prop :=
  ∀ name row, db.sources name = some row → Accounted db name row

variable {db db' : Database} {name other : Bytes} {row : Source} {receipts : List Receipt}
variable {alerts : List Alert}

theorem receiptsOf_grow (grows : Grows name row receipts alerts db db')
    (own : ∀ r ∈ receipts, r.source = name) :
    db'.receiptsOf other = db.receiptsOf other ++ if other = name then receipts else [] := by
  rw [Database.receiptsOf, grows.receipts, List.filter_append, Database.receiptsOf]
  congr 1
  split
  next same =>
    exact List.filter_eq_self.mpr fun r member => by simp [own r member, same]
  next different =>
    refine List.filter_eq_nil_iff.mpr fun r member => ?_
    simp [own r member, Ne.symm different]

theorem alertsOf_grow (grows : Grows name row receipts alerts db db')
    (own : ∀ a ∈ alerts, a.source = name) :
    db'.alertsOf other = db.alertsOf other ++ if other = name then alerts else [] := by
  rw [Database.alertsOf, grows.alerts, List.filter_append, Database.alertsOf]
  congr 1
  split
  next same =>
    exact List.filter_eq_self.mpr fun a member => by simp [own a member, same]
  next different =>
    refine List.filter_eq_nil_iff.mpr fun a member => ?_
    simp [own a member, Ne.symm different]

/-- A source that does not exist has no rows. -/
theorem orphans (none : db.sources name = none) :
    db.receiptsOf name = [] ∧ db.alertsOf name = [] := by
  constructor
  · refine List.filter_eq_nil_iff.mpr fun r member => ?_
    have found := db.receiptSource r member
    rintro same
    rw [of_decide_eq_true same, none] at found
    cases found
  · refine List.filter_eq_nil_iff.mpr fun a member => ?_
    have found := db.alertSource a member
    rintro same
    rw [of_decide_eq_true same, none] at found
    cases found

theorem checkpoint_ok {source : Bytes} {last : UInt64}
    (moved : checkpoint source last db = .ok db') :
    db' = db.updateSource source fun row => { row with lastUID := last.toUInt32 } := by
  unfold checkpoint at moved
  split at moved
  · cases moved
    rfl
  · cases moved

variable (lawful : Lawful db)

include lawful

/-- The charges of a source, also of one that does not exist yet. -/
theorem Lawful.charges (name : Bytes) :
    (db.sources name).elim 0 Source.records =
        (db.receiptsOf name).length + (db.alertsOf name).length ∧
      (db.sources name).elim 0 Source.storedBytes =
        ((db.receiptsOf name).map Receipt.charged).sum := by
  cases found : db.sources name with
  | none =>
    obtain ⟨receipts, alerts⟩ := orphans found
    rw [receipts, alerts]
    exact ⟨rfl, rfl⟩
  | some row => exact ⟨(lawful name row found).records, (lawful name row found).bytes⟩

theorem Lawful.grow (grows : Grows name row receipts alerts db db')
    (own : ∀ r ∈ receipts, r.source = name) (own' : ∀ a ∈ alerts, a.source = name)
    (records : row.records =
      (db.sources name).elim 0 Source.records + receipts.length + alerts.length)
    (bounded : row.records ≤ maxRecords)
    (bytes : row.storedBytes =
      (db.sources name).elim 0 Source.storedBytes + (receipts.map Receipt.charged).sum)
    (limited : row.storedBytes ≤ maxStored) : Lawful db' := by
  intro other row' found
  rw [grows.sources] at found
  by_cases same : other = name
  · subst same
    rw [Function.update_self] at found
    obtain rfl := Option.some.inj found
    obtain ⟨before, stored⟩ := lawful.charges other
    refine ⟨?_, bounded, ?_, limited⟩
    · rw [receiptsOf_grow grows own, alertsOf_grow grows own', if_pos rfl, if_pos rfl, records,
        before, List.length_append, List.length_append]
      omega
    · rw [receiptsOf_grow grows own, if_pos rfl, bytes, stored, List.map_append, List.sum_append]
  · rw [Function.update_of_ne same] at found
    obtain ⟨records, bounded, bytes, limited⟩ := lawful other row' found
    refine ⟨?_, bounded, ?_, limited⟩
    · rw [receiptsOf_grow grows own, alertsOf_grow grows own', if_neg same, if_neg same]
      simpa using records
    · rw [receiptsOf_grow grows own, if_neg same]
      simpa using bytes

/-- The checkpoint and the epoch are charged nothing. -/
theorem Lawful.move {old : Source} (found : db.sources name = some old)
    (grows : Grows name row [] [] db db') (records : row.records = old.records)
    (bytes : row.storedBytes = old.storedBytes) : Lawful db' := by
  have accounted := lawful name old found
  refine lawful.grow grows (List.forall_mem_nil _) (List.forall_mem_nil _) ?_ ?_ ?_ ?_
  · simp [found, records]
  · exact records ▸ accounted.bounded
  · simp [found, bytes]
  · exact bytes ▸ accounted.limited

variable {o : CollectOptions} {snapshot : MailboxSnapshot}

theorem Lawful.register (registered : Registered o snapshot db row)
    (grows : Grows o.source row [] [] db db') : Lawful db' := by
  cases registered with
  | created new =>
    refine lawful.grow grows (List.forall_mem_nil _) (List.forall_mem_nil _) ?_ ?_ ?_ ?_
    · simp [new]
    · exact Nat.zero_le _
    · simp [new]
    · exact Nat.zero_le _
  | found old epoch => exact lawful.move old grows rfl rfl
  | reset old epoch accepted => exact lawful.move old grows rfl rfl

theorem Lawful.alert {source : Bytes} {validity : UInt32} {kind : AlertKind}
    (alerted : collectorAlert source validity kind db = .ok db') : Lawful db' := by
  rcases collectorAlert_ok alerted with rfl | ⟨row, found, room, grows⟩
  · exact lawful
  · refine lawful.grow grows (List.forall_mem_nil _) (List.forall_mem_singleton.mpr rfl) ?_ room
      ?_ ?_
    · simp [found]
    · simp [found]
    · exact (lawful source row found).limited

theorem Lawful.advance (name : Bytes) (uid : UInt32) :
    Lawful (db.updateSource name fun row => { row with lastUID := uid }) := by
  cases found : db.sources name with
  | none =>
    unfold Database.updateSource
    rwa [found]
  | some row => exact lawful.move found (updateSource_grows found _) rfl rfl

theorem Lawful.save [Reader] {m : MailMetadata} {answer : BodyAnswer} {outcome : Outcome}
    {raw : Bytes} {validity : UInt32} {id : FeedbackID}
    (taken : collected m answer = .ok (outcome, raw))
    (saved : saveCollected o validity m raw outcome id db = .ok db') : Lawful db' := by
  rcases saveCollected_ok saved with ⟨-, rfl⟩ | ⟨-, row, feedback, found, room, fits, grows, -⟩
  · exact lawful.advance o.source m.uid
  · refine lawful.grow grows (List.forall_mem_singleton.mpr rfl) (List.forall_mem_nil _) ?_ room
      ?_ fits
    · simp [found]
    · rcases collected_ok taken with ⟨rfl, -, size⟩ | ⟨other, rfl⟩
      · simp [found, Receipt.charged, size]
      · simp [found, Receipt.charged, other]

end Accounting

end RelayTale.Feedback.Collector
