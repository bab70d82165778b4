import RelayTale.Operations.ArchiveScan

/-!
# Completeness of scans

The entries that a cursor stands in front of are what its day has after its
name, and all of the later days. A call lists the first of them and returns a
cursor in front of the others. Either entries were listed or a day was passed,
so the calls come to an end.
-/

namespace RelayTale.Operations

open Text Guard Calendar
open Json (plain)

section Pending

variable (archive : Archive) (stop : Nat)

def Archive.pending (date : Nat) (mark : Bytes) : List Bytes :=
  if date ≤ stop then
    archive.entries date mark ++ (List.range' (date + 1) (stop - date)).flatMap archive.paths
  else []

variable {archive stop} {date : Nat} {mark : Bytes}

theorem Archive.pending_start (inside : date ≤ stop) :
    archive.pending stop date [] =
      (List.range' date (stop + 1 - date)).flatMap archive.paths := by
  have count : stop + 1 - date = (stop - date) + 1 := by omega
  rw [pending, if_pos inside, entries_nil, count, List.range'_succ, List.flatMap_cons]

/-- Behind a day are the days that follow. -/
theorem Archive.pending_day (inside : date ≤ stop) :
    archive.pending stop date mark =
      archive.entries date mark ++ archive.pending stop (date + 1) [] := by
  rw [pending, if_pos inside]
  by_cases more : date + 1 ≤ stop
  · rw [pending_start more]
    congr 3
    omega
  · have last : stop - date = 0 := by omega
    rw [last, pending, if_neg more]
    rfl

theorem Archive.pending_over (past : stop < date) : archive.pending stop date mark = [] :=
  if_neg (by omega)

variable (archive stop) in
def Archive.left (date : Nat) (mark : Bytes) : Nat :=
  (archive.pending stop date mark).length + (stop + 1 - date)

theorem Archive.left_next (inside : date ≤ stop) :
    archive.left stop (date + 1) [] < archive.left stop date mark := by
  rw [left, left, pending_day inside, List.length_append]
  omega

end Pending

structure Stands (scope : Bytes) (start stop : Nat) (c : ArchiveScanCursor) (date : Nat)
    (mark : Bytes) : Prop where
  scope : c.scope = scope
  late : start ≤ date
  day : date ≤ stop → parseDay c.day = some date
  after : c.after = Base64.encode mark
  mark : Mark mark

/-- What the loop has done between two of its states. -/
structure Advances (archive : Archive) (stop limit : Nat) (s : Scan) (mark : Bytes) (s' : Scan)
    (mark' : Bytes) : Prop where
  items : ∃ listed, s'.report.items = s.report.items ++ listed ∧
    s'.report.scanned = s.report.scanned + listed.length ∧
    listed.map (·.path) ++ archive.pending stop s'.date mark' = archive.pending stop s.date mark
  scanned : s'.report.scanned ≤ limit
  complete : s'.report.complete = s.report.complete

theorem Advances.refl {archive : Archive} {stop limit : Nat} {s : Scan} {mark : Bytes}
    (within : s.report.scanned ≤ limit) : Advances archive stop limit s mark s mark :=
  ⟨⟨[], by simp⟩, within, rfl⟩

theorem Advances.trans {archive : Archive} {stop limit : Nat} {s s' s'' : Scan}
    {mark mark' mark'' : Bytes} (first : Advances archive stop limit s mark s' mark')
    (second : Advances archive stop limit s' mark' s'' mark'') :
    Advances archive stop limit s mark s'' mark'' := by
  obtain ⟨listed, items, scanned, whole⟩ := first.items
  obtain ⟨more, items', scanned', whole'⟩ := second.items
  refine ⟨⟨listed ++ more, ?_, ?_, ?_⟩, second.scanned, second.complete.trans first.complete⟩
  · rw [items', items, List.append_assoc]
  · rw [scanned', scanned, List.length_append]
    omega
  · rw [List.map_append, List.append_assoc, whole', whole]

def World.Observes (w : World) (env : Environment) (archive : Archive) (absolute : Bytes)
    (start stop : Nat) : Prop :=
  ∀ day names, start ≤ day → day ≤ stop → archive.names day = some names → ∀ name ∈ names,
    ∀ item, inventoryItem w (formatDay 47 day) name = .ok item →
      item.reason = .noVisibleReferenceReview →
      ∃ observation, observeArchive env w absolute item.path = .ok observation

theorem mapM_ok {Value Result : Type} {f : Value → Except ArchiveError Result}
    {values : List Value} (each : ∀ value ∈ values, ∃ result, f value = .ok result) :
    ∃ results, values.mapM f = .ok results := by
  induction values with
  | nil => exact ⟨[], rfl⟩
  | cons value values ih =>
    obtain ⟨⟨result, made⟩, rest⟩ := List.forall_mem_cons.mp each
    obtain ⟨results, all⟩ := ih rest
    exact ⟨result :: results, by rw [List.mapM_cons, made, all]; rfl⟩

section Days

variable {env : Environment} {w : World} {archive : Archive} {scope absolute : Bytes}
  {start stop limit : Nat} {record : Bool} {s : Scan} {mark : Bytes}

variable (shows : w.Shows archive absolute start stop) (again : env.abs absolute = .ok absolute)
  (rooted : absolute ≠ []) (inRange : stop < 3652425) (bounded : limit ≤ 10000)
  (observes : record = true → w.Observes env archive absolute start stop)

theorem Stands.nextDay (stands : Stands scope start stop s.cursor s.date mark)
    (inRange : stop < 3652425) : Stands scope start stop s.nextDay.cursor s.nextDay.date [] where
  scope := stands.scope
  late := Nat.le_succ_of_le stands.late
  day := fun inside => parseDay_formatDay (Nat.lt_of_le_of_lt inside inRange)
  after := rfl
  mark := by decide

omit shows in
include observes in
theorem observeItems_ok {day size : Nat} {names : List Bytes} {page : ArchiveInventoryReport}
    (late : start ≤ day) (early : day ≤ stop) (found : archive.names day = some names)
    (listed : PageOf w day size (Paging.rest ByteOrder.rank (ByteOrder.rank mark) names) page) :
    ∃ observations, observeItems env w absolute record page.items = .ok observations := by
  unfold observeItems
  split
  next recording =>
    refine mapM_ok fun item member => ?_
    obtain ⟨present, candidate⟩ := List.mem_filter.mp member
    obtain ⟨name, remaining, made⟩ := listed.made item present
    exact observes recording day names late early found name (Paging.mem_rest.mp remaining).1 item
      made (of_decide_eq_true candidate)
  · exact ⟨[], rfl⟩

include shows again rooted inRange bounded observes in
/-- One day lists entries of it, or is passed. -/
theorem scanDay_ok (stands : Stands scope start stop s.cursor s.date mark)
    (inside : s.date ≤ stop) (room : s.report.scanned < limit) :
    ∃ s' left mark', scanDay env w absolute limit record s = .ok (s', left) ∧
      Stands scope start stop s'.cursor s'.date mark' ∧
      Advances archive stop limit s mark s' mark' ∧
      s'.report.days = s.report.days + 1 ∧
      archive.left stop s'.date mark' < archive.left stop s.date mark := by
  cases found : archive.names s.date with
  | none =>
    have missing := shows.missing s.date stands.late inside found
    have empty : archive.entries s.date mark = [] := by
      unfold Archive.entries
      rw [found]
    have step : scanDay env w absolute limit record s = .ok (s.visit.nextDay, false) := by
      unfold scanDay
      rw [missing]
      rfl
    have stands' := Stands.nextDay (s := s.visit) stands inRange
    refine ⟨_, false, [], step, stands', ⟨⟨[], ?_, rfl, ?_⟩, room.le, rfl⟩, rfl,
      Archive.left_next inside⟩
    · exact (List.append_nil _).symm
    · rw [Archive.pending_day inside, empty]
      rfl
  | some names =>
    obtain ⟨page, told, shape⟩ := inventoryArchivesPage_ok shows again rooted stands.late inside
      (Nat.lt_of_le_of_lt inside inRange) found stands.mark
      (by omega : 1 ≤ limit - s.report.scanned) (by omega)
    obtain ⟨observations, observed⟩ :=
      observeItems_ok observes stands.late inside found shape
    obtain ⟨info, exists', -⟩ := (shows.real s.date names stands.late inside found).1
      (formatDay 47 s.date) (by simp [hierarchy])
    have entries : archive.entries s.date mark =
        (Paging.rest ByteOrder.rank (ByteOrder.rank mark) names).map
          (entryPath (formatDay 47 s.date)) := by
      unfold Archive.entries
      rw [found]
    have step : scanDay env w absolute limit record s = .ok (if page.truncated then
        ({ s.add page observations with
          cursor := { s.cursor with after := page.nextAfter } }, true)
        else ((s.add page observations).nextDay, false)) := by
      unfold scanDay
      rw [exists', stands.after, told]
      simp only [bind, Except.bind, observed]
      split <;> rfl
    have once := archive.once s.date names found
    have named := archive.named s.date names found
    have count : page.items.length =
        ((Paging.rest ByteOrder.rank (ByteOrder.rank mark) names).take
          (limit - s.report.scanned)).length := by
      rw [← List.length_map (f := (·.path)), shape.items, List.length_map]
    have within : s.report.scanned + page.scanned ≤ limit := by
      rw [shape.scanned, count, List.length_take]
      omega
    by_cases truncated : page.truncated = true
    · -- The day goes on after the last name of the page.
      have more : limit - s.report.scanned <
          (Paging.rest ByteOrder.rank (ByteOrder.rank mark) names).length := by
        rw [shape.truncated] at truncated
        exact of_decide_eq_true truncated
      obtain ⟨last, ends⟩ : ∃ last, ((Paging.rest ByteOrder.rank (ByteOrder.rank mark) names).take
          (limit - s.report.scanned)).getLast? = some last := by
        refine ⟨_, List.getLast?_eq_some_getLast (List.ne_nil_of_length_pos ?_)⟩
        rw [List.length_take]
        omega
      have listed : last ∈ names :=
        (Paging.mem_rest.mp (List.mem_of_mem_take (List.mem_of_getLast? ends))).1
      have rest := Paging.rest_drop rank_injective once ends
      have next : page.nextAfter = Base64.encode last := by
        rw [shape.next, ends]
        rfl
      have later : archive.entries s.date last =
          ((Paging.rest ByteOrder.rank (ByteOrder.rank mark) names).drop
            (limit - s.report.scanned)).map (entryPath (formatDay 47 s.date)) := by
        unfold Archive.entries
        rw [found]
        simp only [rest]
      rw [if_pos truncated] at step
      refine ⟨_, true, last, step,
        ⟨stands.scope, stands.late, stands.day, next, (named last listed).2⟩,
        ⟨⟨page.items, rfl, by rw [← shape.scanned]; rfl, ?_⟩, within, rfl⟩, rfl, ?_⟩
      · show page.items.map (·.path) ++ archive.pending stop s.date last =
          archive.pending stop s.date mark
        rw [Archive.pending_day inside, Archive.pending_day inside, later, entries, shape.items,
          ← List.append_assoc, ← List.map_append, List.take_append_drop]
      · show archive.left stop s.date last < archive.left stop s.date mark
        rw [Archive.left, Archive.left, Archive.pending_day inside, Archive.pending_day inside,
          later, entries]
        simp only [List.length_append, List.length_map, List.length_drop]
        omega
    · -- The page reaches the end of the day.
      have all : (Paging.rest ByteOrder.rank (ByteOrder.rank mark) names).take
          (limit - s.report.scanned) = Paging.rest ByteOrder.rank (ByteOrder.rank mark) names := by
        rw [shape.truncated, decide_eq_true_eq, not_lt] at truncated
        exact List.take_of_length_le truncated
      rw [if_neg truncated] at step
      have stands' := Stands.nextDay (s := s.add page observations) stands inRange
      refine ⟨_, false, [], step, stands',
        ⟨⟨page.items, rfl, by rw [← shape.scanned]; rfl, ?_⟩, within, rfl⟩, rfl,
        Archive.left_next inside⟩
      rw [Archive.pending_day inside, entries, shape.items, all]
      rfl

include shows again rooted inRange bounded observes in
/-- The loop keeps what it lists and what is pending together, and a step of it is progress. -/
theorem scanDays_ok (slots : Nat) (stands : Stands scope start stop s.cursor s.date mark)
    (within : s.report.scanned ≤ limit) :
    ∃ s' mark', scanDays env w absolute stop limit record slots s = .ok s' ∧
      Stands scope start stop s'.cursor s'.date mark' ∧
      Advances archive stop limit s mark s' mark' ∧
      s'.report.days ≤ s.report.days + slots ∧
      archive.left stop s'.date mark' ≤ archive.left stop s.date mark ∧
      (0 < slots → s.date ≤ stop → s.report.scanned < limit →
        archive.left stop s'.date mark' < archive.left stop s.date mark) := by
  induction slots generalizing s mark with
  | zero =>
    exact ⟨s, mark, rfl, stands, .refl within, le_rfl, le_rfl, fun none' => absurd none' (by omega)⟩
  | succ slots ih =>
    rw [scanDays]
    by_cases go : s.date ≤ stop ∧ s.report.scanned < limit
    · obtain ⟨s', left, mark', step, stands', advances, days, less⟩ :=
        scanDay_ok shows again rooted inRange bounded observes stands go.1 go.2
      rw [if_pos go, step]
      simp only [bind, Except.bind]
      cases left with
      | true => exact ⟨s', mark', rfl, stands', advances, by omega, less.le, fun _ _ _ => less⟩
      | false =>
        obtain ⟨s'', mark'', rest, stands'', advances', days', fewer, -⟩ :=
          ih stands' advances.scanned
        exact ⟨s'', mark'', rest, stands'', advances.trans advances', by omega,
          fewer.trans less.le, fun _ _ _ => fewer.trans_lt less⟩
    · rw [if_neg go]
      exact ⟨s, mark, rfl, stands, .refl within, by omega, le_rfl,
        fun _ inside room => absurd ⟨inside, room⟩ go⟩

end Days

section Calls

variable {env : Environment} {w : World} {archive : Archive}
  {root absolute from' to' cursor : Bytes} {start stop limit : Nat} {record : Bool} {mark : Bytes}

structure Resumes (scope from' : Bytes) (start stop : Nat) (cursor : Bytes) (date : Nat)
    (mark : Bytes) : Prop where
  short : cursor.length ≤ 2048
  taken : ∃ saved, resume stop scope from' start cursor = .ok (saved, date) ∧
    Stands scope start stop saved date mark
  inside : date ≤ stop

theorem resumes_first (scope : Bytes) (parsed : parseDay from' = some start)
    (ordered : start ≤ stop) : Resumes scope from' start stop [] start [] where
  short := by decide
  taken := ⟨⟨scope, from', []⟩, rfl, rfl, le_rfl, fun _ => parsed, rfl, by decide⟩
  inside := ordered

theorem digit_plain {byte : UInt8} (known : Calendar.isDigit byte = true ∨ byte = 45) :
    plain byte = true := by
  rcases known with digit | rfl
  · simp only [Calendar.isDigit, Bool.and_eq_true, decide_eq_true_eq] at digit
    have digits : ∀ n < 10, plain (UInt8.ofNat (48 + n)) = true := by decide
    have found := digits (byte.toNat - 48) (by omega)
    rwa [Nat.add_sub_cancel' digit.1, UInt8.ofNat_toNat] at found
  · decide

/-- The texts of a cursor that stands in the range need no escapes. -/
theorem Stands.plain {scope : Bytes} {c : ArchiveScanCursor} {date : Nat}
    (stands : Stands scope start stop c date mark) (inside : date ≤ stop)
    (safe : ∀ byte ∈ scope, Json.plain byte = true) : c.Plain where
  scope := by rwa [stands.scope]
  day := fun byte member => digit_plain ((parseDay_spec (stands.day inside)).2.2 byte member)
  after := by
    rw [stands.after]
    exact Base64.forall_encode (by decide +kernel) mark

/-- The cursor that is returned is taken by the next call. -/
theorem Stands.resumes {scope : Bytes} {c : ArchiveScanCursor} {date : Nat}
    (stands : Stands scope start stop c date mark) (inside : date ≤ stop)
    (safe : ∀ byte ∈ scope, Json.plain byte = true) (size : scope.length = 64) :
    Resumes scope from' start stop (Base64.encode c.marshal) date mark := by
  have plain := stands.plain inside safe
  have length := ArchiveScanCursor.marshal_length plain
  have day := (parseDay_spec (stands.day inside)).2.1
  have after : c.after.length ≤ 340 := by
    rw [stands.after]
    exact encode_mark stands.mark
  have whole : (Base64.encode c.marshal).length = (4 * c.marshal.length + 2) / 3 :=
    Base64.encode_length _
  rw [stands.scope, size, day] at length
  refine ⟨by omega, ⟨c, ?_, stands⟩, inside⟩
  unfold resume
  have nonempty : Base64.encode c.marshal ≠ [] := by
    intro none'
    rw [none', List.length_nil] at whole
    omega
  rw [if_neg nonempty]
  simp only [do_eq_ok, demand_eq_ok, require_eq_ok, pure_eq_ok]
  exact ⟨_, Base64.decode_encode _, c, ArchiveScanCursor.unmarshal_marshal plain, ⟨⟩,
    stands.scope, date, stands.day inside, ⟨⟩, ⟨stands.late, inside⟩, rfl⟩

structure Lists (archive : Archive) (stop limit : Nat) (report : ArchiveScanReport)
    (pending rest : List Bytes) : Prop where
  items : report.items.map (·.path) ++ rest = pending
  scanned : report.scanned = report.items.length
  bounded : report.scanned ≤ limit
  days : report.days ≤ 31

theorem scanArchives_ok (parsed : parseDay from' = some start) (parsed' : parseDay to' = some stop)
    (ordered : start ≤ stop) (range : stop - start ≤ 36600) (positive : 1 ≤ limit)
    (bounded : limit ≤ 10000) (named : root ≠ []) (located : env.abs root = .ok absolute)
    (again : env.abs absolute = .ok absolute) (rooted : absolute ≠ [])
    (shows : w.Shows archive absolute start stop)
    (observes : record = true → w.Observes env archive absolute start stop) {date : Nat}
    (resumes : Resumes (scanScope env absolute from' to' record) from' start stop cursor date
      mark) :
    ∃ report, scanArchives env w limit record root from' to' cursor = .ok report ∧
      (report.complete = true ∧
          Lists archive stop limit report (archive.pending stop date mark) [] ∨
        report.complete = false ∧ ∃ date' mark',
          Resumes (scanScope env absolute from' to' record) from' start stop report.nextCursor
            date' mark' ∧
          Lists archive stop limit report (archive.pending stop date mark)
            (archive.pending stop date' mark') ∧
          archive.left stop date' mark' < archive.left stop date mark) := by
  obtain ⟨short, ⟨saved, taken, stands⟩, inside⟩ := resumes
  have inRange := (parseDay_spec parsed').1
  have safe : ∀ byte ∈ scanScope env absolute from' to' record, plain byte = true :=
    hexEncode_plain _
  have size : (scanScope env absolute from' to' record).length = 64 := by
    rw [scanScope, hexEncode_length, env.sha256_length]
  obtain ⟨s, mark', ran, stands', advances, days, -, progress⟩ :=
    scanDays_ok (s := ⟨date, saved, ⟨false, [], 0, 0, [], []⟩⟩) shows again rooted inRange bounded
      observes daySlots stands (Nat.zero_le _)
  have called : scanArchives env w limit record root from' to' cursor = .ok (s.finish stop) := by
    simp only [scanArchives, do_eq_ok, demand_eq_ok, require_eq_ok, pure_eq_ok]
    exact ⟨start, parsed, stop, parsed', ⟨⟩, ⟨ordered, range, named, positive, bounded, short⟩,
      absolute, located, (saved, date), taken, (), shows.root, s, ran, rfl⟩
  obtain ⟨listed, items, scanned, whole⟩ := advances.items
  simp only [List.nil_append, Nat.zero_add] at items scanned
  refine ⟨_, called, ?_⟩
  unfold Scan.finish
  by_cases past : stop < s.date
  · rw [if_pos past]
    rw [Archive.pending_over past] at whole
    refine .inl ⟨rfl, ?_, ?_, advances.scanned, days⟩
    · simpa only [items] using whole
    · simpa only [items] using scanned
  · rw [if_neg past]
    refine .inr ⟨advances.complete, s.date, mark', stands'.resumes (not_lt.mp past) safe size,
      ⟨?_, ?_, advances.scanned, days⟩, progress (by decide) inside positive⟩
    · simpa only [items] using whole
    · simpa only [items] using scanned

end Calls

section Runs

/-- Calls that follow one another, each with the cursor of the one before, until one is complete. -/
def follow (call : Nat → Bytes → Except ArchiveError ArchiveScanReport) :
    (calls number : Nat) → Bytes → Except ArchiveError (List ArchiveScanReport)
  | 0, _, _ => pure []
  | calls + 1, number, cursor => do
      let report ← call number cursor
      if report.complete then pure [report]
      else do
        let reports ← follow call calls (number + 1) report.nextCursor
        pure (report :: reports)

/-- The calls end with a complete one, keep to their bounds and list the entries in order. -/
structure Exhausts (limit : Nat) (entries : List Bytes) (reports : List ArchiveScanReport) :
    Prop where
  complete : ∃ front last, reports = front ++ [last] ∧ last.complete = true
  items : (reports.flatMap (·.items)).map (·.path) = entries
  scanned : ∀ report ∈ reports, report.scanned = report.items.length ∧ report.scanned ≤ limit
  days : ∀ report ∈ reports, report.days ≤ 31

variable {env : Environment} {archive : Archive} {worlds : Nat → World}
  {root absolute from' to' : Bytes} {start stop limit : Nat} {record : Bool}

theorem follow_ok (parsed : parseDay from' = some start) (parsed' : parseDay to' = some stop)
    (ordered : start ≤ stop) (range : stop - start ≤ 36600) (positive : 1 ≤ limit)
    (bounded : limit ≤ 10000) (named : root ≠ []) (located : env.abs root = .ok absolute)
    (again : env.abs absolute = .ok absolute) (rooted : absolute ≠ [])
    (shows : ∀ number, (worlds number).Shows archive absolute start stop)
    (observes : record = true →
      ∀ number, (worlds number).Observes env archive absolute start stop)
    (calls number : Nat) {cursor : Bytes} {date : Nat} {mark : Bytes}
    (resumes : Resumes (scanScope env absolute from' to' record) from' start stop cursor date mark)
    (enough : archive.left stop date mark < calls) :
    ∃ reports, follow (fun number cursor =>
        scanArchives env (worlds number) limit record root from' to' cursor) calls number cursor =
        .ok reports ∧
      Exhausts limit (archive.pending stop date mark) reports := by
  induction calls generalizing number cursor date mark with
  | zero => omega
  | succ calls ih =>
    obtain ⟨report, called,
        ⟨complete, lists⟩ | ⟨incomplete, date', mark', resumes', lists, less⟩⟩ :=
      scanArchives_ok parsed parsed' ordered range positive bounded named located again rooted
        (shows number) (fun recording => observes recording number) resumes
    · refine ⟨[report], ?_, ⟨[], report, rfl, complete⟩, ?_, ?_, ?_⟩
      · rw [follow, called]
        simp only [bind, Except.bind, if_pos complete]
        rfl
      · rw [← lists.items]
        simp
      · simpa using ⟨lists.scanned, lists.bounded⟩
      · simpa using lists.days
    · obtain ⟨reports, rest, exhausts⟩ := ih (number + 1) resumes' (by omega)
      obtain ⟨front, last, shape, ends⟩ := exhausts.complete
      refine ⟨report :: reports, ?_, ⟨report :: front, last, by rw [shape]; rfl, ends⟩, ?_,
        List.forall_mem_cons.mpr ⟨⟨lists.scanned, lists.bounded⟩, exhausts.scanned⟩,
        List.forall_mem_cons.mpr ⟨lists.days, exhausts.days⟩⟩
      · rw [follow, called]
        simp only [bind, Except.bind, incomplete, Bool.false_eq_true, if_false, rest]
        rfl
      · rw [List.flatMap_cons, List.map_append, exhausts.items, lists.items]

def Archive.listing (archive : Archive) (start stop : Nat) : List Bytes :=
  (List.range' start (stop + 1 - start)).flatMap archive.paths

theorem entryPath_inj {relative relative' name name' : Bytes}
    (length : relative.length = relative'.length)
    (same : entryPath relative name = entryPath relative' name') :
    relative = relative' ∧ name = name' := by
  obtain ⟨front, back⟩ := List.append_inj same length
  exact ⟨front, (List.cons.inj back).2⟩

theorem formatDay_length (between : UInt8) (day : Nat) : (formatDay between day).length = 10 := by
  simp [formatDay, fourDigits, twoDigits]

theorem Archive.paths_day {day : Nat} {path : Bytes} (listed : path ∈ archive.paths day) :
    ∃ name, path = entryPath (formatDay 47 day) name := by
  unfold paths at listed
  split at listed
  · cases listed
  · obtain ⟨name, -, rfl⟩ := List.mem_map.mp listed
    exact ⟨name, rfl⟩

theorem Archive.paths_nodup (day : Nat) : (archive.paths day).Nodup := by
  unfold paths
  split
  · exact List.nodup_nil
  next names found =>
    refine List.Nodup.map (fun _ _ same => (entryPath_inj rfl same).2) ?_
    exact (Paging.sort_perm names).nodup_iff.mpr (archive.once day names found)

/-- No entry is listed twice. -/
theorem Archive.listing_nodup (inRange : stop < 3652425) : (archive.listing start stop).Nodup := by
  refine List.nodup_flatMap.mpr ⟨fun day _ => paths_nodup day, ?_⟩
  refine List.Pairwise.imp_of_mem ?_ (List.nodup_range' (s := start) (n := stop + 1 - start))
  intro day other inside inside' different path listed listed'
  obtain ⟨name, rfl⟩ := paths_day listed
  obtain ⟨name', same⟩ := paths_day listed'
  rw [List.mem_range'_1] at inside inside'
  have dates := (entryPath_inj (by rw [formatDay_length, formatDay_length]) same).1
  exact different (formatDay_injective (by omega) (by omega) dates)

/-- Calls with the cursors they return list every entry of the range once, by day and then by name,
as long as the archive does not change and, where observations are asked for, none is refused. -/
theorem scan_complete (env : Environment) (archive : Archive) (worlds : Nat → World)
    (root absolute from' to' : Bytes) (start stop limit : Nat) (record : Bool)
    (parsed : parseDay from' = some start) (parsed' : parseDay to' = some stop)
    (ordered : start ≤ stop) (range : stop - start ≤ 36600) (positive : 1 ≤ limit)
    (bounded : limit ≤ 10000) (named : root ≠ []) (located : env.abs root = .ok absolute)
    (again : env.abs absolute = .ok absolute) (rooted : absolute ≠ [])
    (shows : ∀ number, (worlds number).Shows archive absolute start stop)
    (observes : record = true →
      ∀ number, (worlds number).Observes env archive absolute start stop) :
    (∃ calls reports, follow (fun number cursor =>
        scanArchives env (worlds number) limit record root from' to' cursor) calls 0 [] =
        .ok reports ∧
      Exhausts limit (archive.listing start stop) reports) ∧
    (archive.listing start stop).Nodup ∧
    ∀ batches after count, 0 < count →
      inventoryPageNames batches after count = (Paging.sort ByteOrder.rank
        (batches.flatten.filter (Paging.later ByteOrder.rank (ByteOrder.rank after)))).take
          count := by
  refine ⟨?_, Archive.listing_nodup (parseDay_spec parsed').1, fun batches after count some' => ?_⟩
  · obtain ⟨reports, followed, exhausts⟩ := follow_ok parsed parsed' ordered range positive bounded
      named located again rooted shows observes (archive.left stop start [] + 1) 0
      (resumes_first _ parsed ordered) (Nat.lt_succ_self _)
    rw [Archive.pending_start ordered] at exhausts
    exact ⟨_, reports, followed, exhausts⟩
  · rw [inventoryPageNames_eq batches after some', Paging.sort_filter rank_injective, Paging.rest]

section Samples

def sampleEnvironment : Environment where
  abs := .ok
  sha256 _ := List.replicate 32 0
  sha256_length _ := List.length_replicate

def sampleDay : Nat := daysBefore 2024 + 1

def sampleName : Bytes := ascii "00000000-0000-0000-0000-000000000001.eml"

def sampleNames (day : Nat) : Option (List Bytes) :=
  if day = sampleDay then some [sampleName] else none

theorem sampleNames_named (day : Nat) (listed : List Bytes) (found : sampleNames day = some listed) :
    ∀ name ∈ listed, name ≠ [] ∧ Mark name := by
  simp only [sampleNames, Option.ite_none_right_eq_some, Option.some.injEq] at found
  rw [← found.2, List.forall_mem_singleton]
  decide

theorem sampleNames_once (day : Nat) (listed : List Bytes) (found : sampleNames day = some listed) :
    listed.Nodup := by
  simp only [sampleNames, Option.ite_none_right_eq_some, Option.some.injEq] at found
  rw [← found.2]
  exact List.nodup_singleton _

def sampleArchive : Archive := ⟨sampleNames, sampleNames_named, sampleNames_once⟩

/-- One directory with one archive of a given size, to which nothing refers. -/
def sampleWorld (size : Nat) : World where
  openRoot _ := .ok ()
  lstat path :=
    if path ∈ hierarchy (formatDay 47 sampleDay) then .ok ⟨.directory, 0, 0, 0⟩
    else if path = entryPath (formatDay 47 sampleDay) sampleName then .ok ⟨.regular, size, 0, 1⟩
    else .error .notExist
  lstatAgain _ := .ok ⟨.regular, size, 0, 1⟩
  readDir _ := .ok [[sampleName], []]
  openFile _ := .ok ⟨⟨.regular, size, 0, 1⟩, []⟩
  begins := .ok ()
  referenced _ _ := .ok false
  commits := .ok ()
  record _ := .ok []

theorem sampleWorld_shows (size : Nat) :
    (sampleWorld size).Shows sampleArchive (ascii "/a") sampleDay (sampleDay + 1) where
  root := rfl
  begins := rfl
  referenced _ _ := ⟨false, rfl⟩
  commits := rfl
  missing := by
    intro day late early none'
    have next : day = sampleDay + 1 := by
      simp only [sampleArchive, sampleNames, ite_eq_right_iff, reduceCtorEq, imp_false] at none'
      omega
    have outside : formatDay 47 (sampleDay + 1) ∉ hierarchy (formatDay 47 sampleDay) ∧
        formatDay 47 (sampleDay + 1) ≠ entryPath (formatDay 47 sampleDay) sampleName := by
      decide
    rw [next]
    simp only [sampleWorld, if_neg outside.1, if_neg outside.2]
  real := by
    intro day names late early found
    simp only [sampleArchive, sampleNames, Option.ite_none_right_eq_some, Option.some.injEq] at found
    obtain ⟨rfl, rfl⟩ := found
    refine ⟨fun part listed => ⟨⟨.directory, 0, 0, 0⟩, ?_, rfl⟩, [[sampleName], []], rfl, ?_⟩
    · simp only [sampleWorld, if_pos listed]
    · exact .refl _

theorem sampleWorld_observes :
    (sampleWorld 0).Observes sampleEnvironment sampleArchive (ascii "/a") sampleDay
      (sampleDay + 1) := by
  intro day names late early found name member item made candidate
  simp only [sampleArchive, sampleNames, Option.ite_none_right_eq_some, Option.some.injEq] at found
  obtain ⟨rfl, rfl⟩ := found
  rw [List.mem_singleton] at member
  subst member
  obtain ⟨other, made', path⟩ := inventoryItem_ok (sampleWorld_shows 0) (formatDay 47 sampleDay)
    sampleName
  rw [made] at made'
  rw [Except.ok.inj made', path]
  have observed : (observeArchive sampleEnvironment (sampleWorld 0) (ascii "/a")
      (entryPath (formatDay 47 sampleDay) sampleName)).toOption.isSome = true := by decide
  cases result : observeArchive sampleEnvironment (sampleWorld 0) (ascii "/a")
      (entryPath (formatDay 47 sampleDay) sampleName) with
  | ok observation => exact ⟨observation, rfl⟩
  | error failure =>
    rw [result] at observed
    cases observed

theorem scan_complete_of_sample :
    parseDay (ascii "2024-01-02") = some sampleDay ∧
    parseDay (ascii "2024-01-03") = some (sampleDay + 1) ∧
    ∃ calls reports, follow (fun _ cursor => scanArchives sampleEnvironment (sampleWorld 0) 1 true
        (ascii "/a") (ascii "2024-01-02") (ascii "2024-01-03") cursor) calls 0 [] = .ok reports ∧
      Exhausts 1 (sampleArchive.listing sampleDay (sampleDay + 1)) reports := by
  have first : parseDay (ascii "2024-01-02") = some sampleDay := by decide
  have second : parseDay (ascii "2024-01-03") = some (sampleDay + 1) := by decide
  exact ⟨first, second, (scan_complete sampleEnvironment sampleArchive (fun _ => sampleWorld 0)
    (ascii "/a") (ascii "/a") (ascii "2024-01-02") (ascii "2024-01-03") sampleDay (sampleDay + 1) 1
    true first second (Nat.le_succ _) (by decide) (by decide) (by decide) (by decide) rfl
    rfl (by decide) (fun _ => sampleWorld_shows 0) (fun _ _ => sampleWorld_observes)).1⟩

/-- An archive of more than 100 MiB to which nothing refers is not recorded, and the scan does not
get past it. -/
theorem scan_stops_at_large_archive :
    (sampleWorld (archiveRecoveryMax + 1)).Shows sampleArchive (ascii "/a") sampleDay
      (sampleDay + 1) ∧
    scanArchives sampleEnvironment (sampleWorld (archiveRecoveryMax + 1)) 10000 true (ascii "/a")
      (ascii "2024-01-02") (ascii "2024-01-03") [] = .error .exceedsBounds := by
  refine ⟨sampleWorld_shows _, ?_⟩
  decide

end Samples

end Runs

end RelayTale.Operations
