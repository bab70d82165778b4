import RelayTale.Foundation.Base64
import RelayTale.Foundation.ByteOrder
import RelayTale.Foundation.Calendar
import RelayTale.Foundation.Guard
import RelayTale.Foundation.Paging
import RelayTale.Foundation.Text

/-!
# The inventory of an archive day

Archives lie in directories by date. A page of the inventory lists the entries
of one day after a name, in the order of their bytes. Every page enumerates the
directory again, in whatever order the file system has.
-/

namespace RelayTale.Operations

open Text Guard Calendar

inductive ArchiveError
  | invalidInventoryCursor
  | invalidInventoryBounds
  | notRealDirectory
  | invalidDate
  | invalidScanBounds
  | undecodableCursor
  | scopeMismatch
  | invalidCursorDate
  | invalidPath
  | invalidDay
  | invalidName
  | unsafeEntry
  | exceedsBounds
  | grewBeyondBounds
  | changed
  | visibleReference
  | capacityReached
  | notExist
  | filesystem
  | database
  deriving DecidableEq, Repr

section Files

inductive Kind
  | regular
  | directory
  | symlink
  | other
  deriving DecidableEq, Repr

/-- What is told of a file. `os.SameFile` compares the identities. -/
structure Info where
  kind : Kind
  size : Nat
  modified : Nat
  identity : Nat
  deriving DecidableEq, Repr

/-- An open file and the pieces in which it is read. -/
structure Opened where
  stat : Info
  pieces : List Bytes

structure ArchiveObservation where
  id : Bytes
  archiveID : Bytes
  path : Bytes
  size : Nat
  sha256 : Bytes
  deriving DecidableEq, Repr

/-- What one call finds. Paths are relative to the root. A path that is looked at again can have
changed; `readDir` gives the names in the portions in which they are enumerated. `record` is the
transaction that looks for the observation of an unreferenced archive or adds it. -/
structure World where
  openRoot : Bytes → Except ArchiveError Unit
  lstat : Bytes → Except ArchiveError Info
  lstatAgain : Bytes → Except ArchiveError Info
  readDir : Bytes → Except ArchiveError (List (List Bytes))
  openFile : Bytes → Except ArchiveError Opened
  begins : Except ArchiveError Unit
  referenced : (id path : Bytes) → Except ArchiveError Bool
  commits : Except ArchiveError Unit
  record : ArchiveObservation → Except ArchiveError Bytes

/-- What does not change between calls. -/
structure Environment where
  abs : Bytes → Except ArchiveError Bytes
  sha256 : Bytes → Bytes
  sha256_length : ∀ data, (sha256 data).length = 32

end Files

section Names

def extension : Bytes := ascii ".eml"

/-- The identifier in the name of an archive: the name is a UUID, written as
`uuid.UUID.String` does, and the extension. -/
def archiveID (name : Bytes) : Option Bytes :=
  let id := if extension.isSuffixOf name then name.take (name.length - extension.length) else name
  if id.length = 36 ∧ (id.mapIdx uuidByte).all (· = true) ∧ name = id ++ extension then
    some id
  else none

/-- The smallest names after the cursor, kept in a max heap while the directory is read. -/
def inventoryPageNames (batches : List (List Bytes)) (after : Bytes) (count : Nat) : List Bytes :=
  let names := batches.foldl (fun names entries =>
    entries.foldl (fun names name =>
      if ByteOrder.AtMost name after then names
      else Heap.offer ByteOrder.rank count names name) names) #[]
  Paging.sort ByteOrder.rank names.toList

end Names

section Items

inductive Reason
  | entryUnreadable
  | nonRegularEntry
  | unrecognizedName
  | referencePresent
  | noVisibleReferenceReview
  | changedDuringObservation
  deriving DecidableEq, Repr

structure ArchiveInventoryItem where
  path : Bytes
  reason : Reason
  observedBytes : Option Nat
  deriving DecidableEq, Repr

structure ArchiveInventoryReport where
  complete : Bool
  truncated : Bool
  nextAfter : Bytes
  scanned : Nat
  items : List ArchiveInventoryItem
  deriving DecidableEq, Repr

variable (w : World)

def classify (name path : Bytes) : Except ArchiveError Reason :=
  match archiveID name with
  | none => pure .unrecognizedName
  | some id => do
      let referenced ← w.referenced id path
      pure (if referenced then .referencePresent else .noVisibleReferenceReview)

/-- The join of a day and a name that is neither `.` nor `..`. -/
def entryPath (relative name : Bytes) : Bytes := relative ++ 47 :: name

def inventoryItem (relative name : Bytes) : Except ArchiveError ArchiveInventoryItem := do
  let path := entryPath relative name
  match w.lstat path with
  | .error _ => pure ⟨path, .entryUnreadable, none⟩
  | .ok info =>
      if info.kind ≠ .regular then pure ⟨path, .nonRegularEntry, none⟩
      else do
        let reason ← classify w name path
        match w.lstatAgain path with
        | .error _ => pure ⟨path, .changedDuringObservation, none⟩
        | .ok second =>
            if info.identity ≠ second.identity ∨ info.size ≠ second.size ∨
                info.modified ≠ second.modified then
              pure ⟨path, .changedDuringObservation, none⟩
            else pure ⟨path, reason, some second.size⟩

def hierarchy (relative : Bytes) : List Bytes := [relative.take 4, relative.take 7, relative]

/-- The cursor is the text of the name after which the page begins. -/
def inventoryArchivesPage (env : Environment) (root day cursor : Bytes) (limit : Nat) :
    Except ArchiveError ArchiveInventoryReport := do
  require (cursor.length ≤ 340) ArchiveError.invalidInventoryCursor
  let after ← demand (Base64.decode cursor) ArchiveError.invalidInventoryCursor
  let date ← demand (parseDay day) ArchiveError.invalidInventoryBounds
  require (formatDay 45 date = day ∧ 1 ≤ limit ∧ limit ≤ 10000 ∧ root ≠ [] ∧
    after.length ≤ 255 ∧ 47 ∉ after ∧ 0 ∉ after ∧ after ≠ ascii "." ∧ after ≠ ascii "..")
    ArchiveError.invalidInventoryBounds
  let rootAbs ← env.abs root
  let _ ← w.openRoot rootAbs
  let relative := formatDay 47 date
  let _ ← (hierarchy relative).mapM fun part => do
    let info ← w.lstat part
    require (info.kind = .directory) ArchiveError.notRealDirectory
  let batches ← w.readDir relative
  let names := inventoryPageNames batches after (limit + 1)
  let truncated := decide (limit < names.length)
  let names := if truncated then names.take limit else names
  let _ ← w.begins
  let items ← names.mapM (inventoryItem w relative)
  let _ ← w.commits
  pure
    { complete := !truncated, truncated
      nextAfter := (names.getLast?.map Base64.encode).getD []
      scanned := items.length, items }

end Items

section Archives

structure Mark (after : Bytes) : Prop where
  short : after.length ≤ 255
  slash : 47 ∉ after
  nul : 0 ∉ after
  dot : after ≠ ascii "."
  dots : after ≠ ascii ".."

instance (after : Bytes) : Decidable (Mark after) :=
  decidable_of_iff (after.length ≤ 255 ∧ 47 ∉ after ∧ 0 ∉ after ∧ after ≠ ascii "." ∧
    after ≠ ascii "..") ⟨fun ⟨h1, h2, h3, h4, h5⟩ => ⟨h1, h2, h3, h4, h5⟩,
      fun ⟨h1, h2, h3, h4, h5⟩ => ⟨h1, h2, h3, h4, h5⟩⟩

/-- What an archive holds by days: the names in the directory of the day, if there is one. A name
in a directory has between 1 and 255 bytes, none of them a slash or zero. -/
structure Archive where
  names : Nat → Option (List Bytes)
  named : ∀ day listed, names day = some listed → ∀ name ∈ listed, name ≠ [] ∧ Mark name
  once : ∀ day listed, names day = some listed → listed.Nodup

def Archive.entries (archive : Archive) (day : Nat) (after : Bytes) : List Bytes :=
  match archive.names day with
  | none => []
  | some names =>
      (Paging.rest ByteOrder.rank (ByteOrder.rank after) names).map (entryPath (formatDay 47 day))

def Archive.paths (archive : Archive) (day : Nat) : List Bytes :=
  match archive.names day with
  | none => []
  | some names => (Paging.sort ByteOrder.rank names).map (entryPath (formatDay 47 day))

theorem rank_injective : Function.Injective ByteOrder.rank := fun _ _ => ByteOrder.rank_injective

theorem rank_nil_lt {name : Bytes} (nonempty : name ≠ []) :
    ByteOrder.rank [] < ByteOrder.rank name := by
  obtain ⟨first, rest, rfl⟩ := List.exists_cons_of_ne_nil nonempty
  exact List.nil_lt_cons _ _

theorem Archive.entries_nil (archive : Archive) (day : Nat) :
    archive.entries day [] = archive.paths day := by
  unfold entries paths
  split
  · rfl
  next names found =>
    rw [Paging.rest, List.filter_eq_self.mpr]
    intro name listed
    have member := (Paging.sort_perm names).mem_iff.mp listed
    exact Paging.later_iff.mpr (rank_nil_lt (archive.named day names found name member).1)

/-- The directories and the database can be read, and every day of the range has no directory or a
real one that holds these names, in some order. -/
structure World.Shows (w : World) (archive : Archive) (absolute : Bytes) (start stop : Nat) :
    Prop where
  root : w.openRoot absolute = .ok ()
  begins : w.begins = .ok ()
  referenced : ∀ id path, ∃ found, w.referenced id path = .ok found
  commits : w.commits = .ok ()
  missing : ∀ day, start ≤ day → day ≤ stop → archive.names day = none →
    w.lstat (formatDay 47 day) = .error .notExist
  real : ∀ day names, start ≤ day → day ≤ stop → archive.names day = some names →
    (∀ part ∈ hierarchy (formatDay 47 day), ∃ info, w.lstat part = .ok info ∧
      info.kind = .directory) ∧
    ∃ batches, w.readDir (formatDay 47 day) = .ok batches ∧ batches.flatten.Perm names

end Archives

section Pages

variable {w : World} {env : Environment} {archive : Archive} {absolute : Bytes} {start stop : Nat}

/-- A page holds the smallest names after the cursor, as many as asked for, sorted. -/
theorem inventoryPageNames_eq (batches : List (List Bytes)) (after : Bytes) {count : Nat}
    (positive : 0 < count) :
    inventoryPageNames batches after count =
      (Paging.rest ByteOrder.rank (ByteOrder.rank after) batches.flatten).take count := by
  have kept : batches.flatten.foldl (fun names name =>
      if ByteOrder.AtMost name after then names
      else Heap.offer ByteOrder.rank count names name) #[] =
      (batches.flatten.filter (Paging.later ByteOrder.rank (ByteOrder.rank after))).foldl
        (Heap.offer ByteOrder.rank count) #[] := by
    rw [List.foldl_filter]
    refine List.foldl_ext _ _ _ fun names name _ => ?_
    by_cases later : ByteOrder.rank after < ByteOrder.rank name
    · rw [if_neg (ByteOrder.not_atMost.mpr later), if_pos (Paging.later_iff.mpr later)]
    · rw [if_pos (ByteOrder.not_before.mp later), if_neg (mt Paging.later_iff.mp later)]
  unfold inventoryPageNames
  rw [← List.foldl_flatten]
  simp only [kept]
  rw [Paging.offered rank_injective positive, Paging.sort_filter rank_injective, Paging.rest]

theorem classify_ok (shows : w.Shows archive absolute start stop) (name path : Bytes) :
    ∃ reason, classify w name path = .ok reason := by
  unfold classify
  split
  · exact ⟨_, rfl⟩
  next id _ =>
    obtain ⟨found, answered⟩ := shows.referenced id path
    exact ⟨_, by rw [answered]; rfl⟩

theorem inventoryItem_ok (shows : w.Shows archive absolute start stop) (relative name : Bytes) :
    ∃ item, inventoryItem w relative name = .ok item ∧ item.path = entryPath relative name := by
  obtain ⟨reason, classified⟩ := classify_ok shows name (entryPath relative name)
  unfold inventoryItem
  simp only
  split
  · exact ⟨_, rfl, rfl⟩
  next info _ =>
    by_cases regular : info.kind ≠ .regular
    · rw [if_pos regular]
      exact ⟨_, rfl, rfl⟩
    rw [if_neg regular, classified]
    simp only [bind, Except.bind]
    split
    · exact ⟨_, rfl, rfl⟩
    · split <;> exact ⟨_, rfl, rfl⟩

theorem inventoryItems_ok (shows : w.Shows archive absolute start stop) (relative : Bytes)
    (names : List Bytes) :
    ∃ items, names.mapM (inventoryItem w relative) = .ok items ∧
      items.map (·.path) = names.map (entryPath relative) ∧
      ∀ item ∈ items, ∃ name ∈ names, inventoryItem w relative name = .ok item := by
  induction names with
  | nil => exact ⟨[], rfl, rfl, by simp⟩
  | cons name names ih =>
    obtain ⟨item, made, path⟩ := inventoryItem_ok shows relative name
    obtain ⟨items, rest, paths, from'⟩ := ih
    refine ⟨item :: items, ?_, ?_, ?_⟩
    · rw [List.mapM_cons, made]
      simp only [bind, Except.bind]
      rw [rest]
      rfl
    · rw [List.map_cons, List.map_cons, path, paths]
    · refine List.forall_mem_cons.mpr ⟨⟨name, List.mem_cons_self, made⟩, fun other listed => ?_⟩
      obtain ⟨source, member, same⟩ := from' other listed
      exact ⟨source, List.mem_cons_of_mem _ member, same⟩

theorem encode_mark {after : Bytes} (mark : Mark after) : (Base64.encode after).length ≤ 340 := by
  rw [Base64.encode_length]
  have short := mark.short
  omega

structure PageOf (w : World) (day limit : Nat) (rest : List Bytes)
    (page : ArchiveInventoryReport) : Prop where
  items : page.items.map (·.path) = (rest.take limit).map (entryPath (formatDay 47 day))
  made : ∀ item ∈ page.items, ∃ name ∈ rest, inventoryItem w (formatDay 47 day) name = .ok item
  scanned : page.scanned = page.items.length
  truncated : page.truncated = decide (limit < rest.length)
  next : page.nextAfter = ((rest.take limit).getLast?.map Base64.encode).getD []

theorem hierarchy_ok {relative : Bytes} (real : ∀ part ∈ hierarchy relative, ∃ info,
    w.lstat part = .ok info ∧ info.kind = .directory) :
    ((hierarchy relative).mapM fun part => do
      let info ← w.lstat part
      require (info.kind = Kind.directory) ArchiveError.notRealDirectory) =
        .ok [PUnit.unit, PUnit.unit, PUnit.unit] := by
  have step : ∀ part ∈ hierarchy relative, (do
      let info ← w.lstat part
      require (info.kind = Kind.directory) ArchiveError.notRealDirectory) = .ok PUnit.unit := by
    intro part listed
    obtain ⟨info, found, directory⟩ := real part listed
    rw [found]
    simp only [bind, Except.bind, require, if_pos directory]
  have year := step _ List.mem_cons_self
  have month := step _ (List.mem_cons_of_mem _ List.mem_cons_self)
  have day := step _ (List.mem_cons_of_mem _ (List.mem_cons_of_mem _ List.mem_cons_self))
  simp only [hierarchy, List.mapM_cons, List.mapM_nil, year, month, day]
  rfl

/-- A page of a day that exists. -/
theorem inventoryArchivesPage_ok (shows : w.Shows archive absolute start stop)
    (again : env.abs absolute = .ok absolute) (rooted : absolute ≠ []) {day limit : Nat}
    {names : List Bytes} (late : start ≤ day) (early : day ≤ stop) (inRange : day < 3652425)
    (found : archive.names day = some names) {after : Bytes} (mark : Mark after)
    (positive : 1 ≤ limit) (bounded : limit ≤ 10000) :
    ∃ page, inventoryArchivesPage w env absolute (formatDay 45 day) (Base64.encode after) limit =
        .ok page ∧
      PageOf w day limit (Paging.rest ByteOrder.rank (ByteOrder.rank after) names) page := by
  obtain ⟨real, batches, listed, same⟩ := shows.real day names late early found
  have page : inventoryPageNames batches after (limit + 1) =
      (Paging.rest ByteOrder.rank (ByteOrder.rank after) names).take (limit + 1) := by
    rw [inventoryPageNames_eq batches after (Nat.succ_pos limit),
      Paging.rest_eq_of_perm rank_injective same]
  generalize Paging.rest ByteOrder.rank (ByteOrder.rank after) names = rest at page ⊢
  have overflow : decide (limit < (rest.take (limit + 1)).length) =
      decide (limit < rest.length) := by
    rw [List.length_take, decide_eq_decide]
    omega
  have shown : (if decide (limit < rest.length) = true then (rest.take (limit + 1)).take limit
      else rest.take (limit + 1)) = rest.take limit := by
    by_cases more : limit < rest.length
    · rw [if_pos (decide_eq_true more), List.take_take, Nat.min_eq_left (Nat.le_succ limit)]
    · rw [if_neg (by simpa using more), List.take_of_length_le (by omega),
        List.take_of_length_le (by omega)]
  obtain ⟨items, made, paths, from'⟩ :=
    inventoryItems_ok shows (formatDay 47 day) (rest.take limit)
  refine ⟨{ complete := !decide (limit < rest.length), truncated := decide (limit < rest.length)
            nextAfter := ((rest.take limit).getLast?.map Base64.encode).getD []
            scanned := items.length, items }, ?_, ⟨paths, ?_, rfl, rfl, rfl⟩⟩
  · simp only [inventoryArchivesPage, do_eq_ok, require_eq_ok, demand_eq_ok, pure_eq_ok]
    refine ⟨⟨⟩, encode_mark mark, after, Base64.decode_encode after, day,
      parseDay_formatDay inRange, ⟨⟩, ⟨rfl, positive, bounded, rooted, mark.short, mark.slash,
        mark.nul, mark.dot, mark.dots⟩, absolute, again, (), shows.root, _, hierarchy_ok real,
      batches, listed, (), shows.begins, items, ?_, (), shows.commits, ?_⟩
    · rw [page, overflow, shown, made]
    · rw [page, overflow, shown]
  · intro item member
    obtain ⟨name, listed, same⟩ := from' item member
    exact ⟨name, List.mem_of_mem_take listed, same⟩

end Pages

end RelayTale.Operations
