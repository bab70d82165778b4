import RelayTale.Recovery.Files

/-!
# Backup and restore

A backup copies the storage root and a dump of the database into a new bundle.
Restoring the bundle into an empty root gives the files back, with the marker
that keeps the server from starting.
-/

namespace RelayTale.Recovery

open Text Guard

section Paths

structure Options where
  storageRoot : Bytes
  bundle : Bytes
  offline : Bool

structure WorkingDir where
  path : Bytes
  absolute : path.head? = some 47

def cleanStep (path : List Bytes) (name : Bytes) : List Bytes :=
  if name = [] || name = ascii "." then path
  else if name = ascii ".." then path.dropLast
  else path ++ [name]

/-- The names on the way to what `filepath.Abs` returns. -/
def abs (cwd : WorkingDir) (path : Bytes) : List Bytes :=
  (components (if path.head? = some 47 then path else cwd.path ++ 47 :: path)).foldl cleanStep []

def pathText (path : List Bytes) : Bytes :=
  if path = [] then [47] else path.flatMap (47 :: ·)

def within (root name : List Bytes) : Bool := root.isPrefixOf name

def paths (cwd : WorkingDir) (o : Options) :
    Except RecoveryError (List Bytes × List Bytes) := do
  require (o.offline = true) RecoveryError.offline
  let root := abs cwd o.storageRoot
  let bundle := abs cwd o.bundle
  require (o.storageRoot ≠ [] ∧ o.bundle ≠ [] ∧ root ≠ [] ∧ within root bundle = false ∧
    within bundle root = false) RecoveryError.separate
  pure (root, bundle)

theorem pathText_absolute (path : List Bytes) : (pathText path).head? = some 47 := by
  unfold pathText
  split
  · rfl
  next nonempty =>
    obtain ⟨first, more, rfl⟩ := List.exists_cons_of_ne_nil nonempty
    rfl

end Paths

section Backup

/-- The database a backup is taken from, while its writers are locked out. `verified`
is what `verify` says of the archives it can read by their names. -/
structure Source (Time : Type) where
  owned : Bool
  tables : List Bytes
  snapshotAt : Time
  verified : (Bytes → Option Content) → Bool
  bundleExists : Bool
  dump : Content

variable (build : Build) {Time : Type} [Instants Time]

def copyArchive (state : Directory × List File) (file : Bytes × Content) :
    Except RecoveryError (Directory × List File) := do
  let (copied, bundle) ← copyFile build file.2 state.1 (archive ++ file.1)
  require (state.2.length < 100000) RecoveryError.entryLimit
  pure (bundle, state.2 ++ [{ copied with path := archive ++ file.1 }])

theorem manifest_fits {bytes : Bytes} (small : bytes.length ≤ maxManifest) :
    bytes.length < 2 ^ 63 := by
  unfold maxManifest at small
  omega

def publish (bundle : Directory) (bytes : Bytes) : Except RecoveryError Directory :=
  if small : bytes.length ≤ maxManifest then
    bundle.create manifestName ⟨bytes, manifest_fits small⟩
  else .error .manifestSize

def backup (cwd : WorkingDir) (o : Options) (source : Source Time) (tree : Directory) :
    Except RecoveryError Directory := do
  require (source.owned = false) RecoveryError.runtimeOwned
  let (root, _) ← paths cwd o
  require (tree.occupied marker = false) RecoveryError.restoreGate
  require (source.tables ≠ []) RecoveryError.sourceEmpty
  require (source.verified tree.lookup = true) RecoveryError.inconsistent
  require (source.bundleExists = false) RecoveryError.bundleExists
  let bundle ← Directory.empty.create dumpName source.dump
  let d ← digest build bundle dumpName
  let (bundle, files) ← tree.walk.foldlM (copyArchive build)
    (bundle, [{ d with path := dumpName }])
  require (source.verified (fun path => bundle.lookup (archive ++ path)) = true)
    RecoveryError.inconsistent
  let m : Manifest Time := ⟨1, source.snapshotAt, pathText root, cwd.path, schemaHash build, files⟩
  let bytes ← demand m.marshal RecoveryError.marshal
  publish bundle bytes

end Backup

section Restore

/-- The database that is restored: what already stands in it, whether its empty schema can
be dropped, and which dumps `pg_restore` takes. -/
structure Target where
  owned : Bool
  objects : Nat
  droppable : Bool
  accepts : Content → Bool

theorem gateText_fits : (ascii ("Restore in progress. Verify archives, key and post-backup " ++
    "external effects before manual release.\n")).length < 2 ^ 63 := by
  decide

def gateText : Content :=
  ⟨ascii ("Restore in progress. Verify archives, key and post-backup " ++
    "external effects before manual release.\n"), gateText_fits⟩

/-- `strings.TrimPrefix` of the directory the archives are in. -/
def trimArchive (path : Bytes) : Bytes :=
  if archive.isPrefixOf path then path.drop archive.length else path

variable (build : Build) {Time : Type} [Instants Time]

def restoreFiles (bundle : Directory) :
    List File → Directory → Option RecoveryError × Directory
  | [], root => (none, root)
  | v :: files, root =>
      if v.path = dumpName then restoreFiles bundle files root
      else match bundle.lookup v.path with
        | none => (some .fileMissing, root)
        | some content =>
            match copyFile build content root (trimArchive v.path) with
            | .error cause => (some cause, root)
            | .ok (got, root) =>
                if got.size = v.size ∧ got.sha256 = v.sha256 then restoreFiles bundle files root
                else (some .changed, root)

def restoreChecks (cwd : WorkingDir) (o : Options) (target : Target) (bundle root : Directory) :
    Except RecoveryError (Manifest Time) := do
  require (target.owned = false) RecoveryError.runtimeOwned
  let (path, _) ← paths cwd o
  let m ← verifyBundle build bundle
  require (pathText path = m.storageRoot ∧ cwd.path = m.workingDir) RecoveryError.originalPaths
  require (target.objects = 0) RecoveryError.targetDatabase
  require (root.files = []) RecoveryError.targetStorage
  pure m

def restoreDatabase (target : Target) (bundle : Directory) : Option RecoveryError :=
  if !target.droppable then some .publicSchema
  else match bundle.lookup dumpName with
    | some dump => if target.accepts dump then none else some .pgRestore
    | none => some .pgRestore

variable (Time) in
/-- The error, if any, and the storage root afterwards. -/
def restore (cwd : WorkingDir) (o : Options) (target : Target) (bundle root : Directory) :
    Option RecoveryError × Directory :=
  match (restoreChecks build cwd o target bundle root : Except RecoveryError (Manifest Time)) with
  | .error cause => (some cause, root)
  | .ok m =>
      match root.create marker gateText with
      | .error cause => (some cause, root)
      | .ok root =>
          match restoreFiles build bundle m.files root with
          | (some cause, root) => (some cause, root)
          | (none, root) => (restoreDatabase target bundle, root)

end Restore

section RoundTrip

variable {build : Build} {Time : Type} [Instants Time]

def archived (file : Bytes × Content) : Bytes × Content := (archive ++ file.1, file.2)

def entry (build : Build) (file : Bytes × Content) : File :=
  { measure build file.2 with path := file.1 }

theorem copyArchive_ok {files : List (Bytes × Content)} {state result : Directory × List File}
    (few : state.2.length ≤ 100000)
    (copied : files.foldlM (copyArchive build) state = .ok result) :
    result.1.files = state.1.files ++ files.map archived ∧
      result.2 = state.2 ++ files.map (entry build ∘ archived) ∧ result.2.length ≤ 100000 := by
  induction files generalizing state with
  | nil =>
    obtain rfl := Except.ok.inj copied
    simp [few]
  | cons file files ih =>
    rw [List.foldlM_cons, do_eq_ok] at copied
    obtain ⟨next, step, rest⟩ := copied
    simp only [copyArchive, copyFile, do_eq_ok, require_eq_ok, pure_eq_ok, exists_const] at step
    obtain ⟨⟨_, bundle⟩, ⟨created, made, same⟩, room, rfl⟩ := step
    obtain ⟨rfl, rfl⟩ := Prod.mk.inj same
    obtain ⟨stored, listed, bounded⟩ := ih (by simp; omega) rest
    refine ⟨?_, ?_, bounded⟩
    · rw [stored, Directory.create_files made, List.append_assoc]
      rfl
    · rw [listed, List.append_assoc]
      rfl

structure Saved (build : Build) (cwd : WorkingDir) (o : Options) (source : Source Time)
    (tree bundle : Directory) (m : Manifest Time) (content : Content) : Prop where
  placed : paths cwd o = .ok (abs cwd o.storageRoot, abs cwd o.bundle)
  ungated : tree.occupied marker = false
  listed : m = ⟨1, source.snapshotAt, pathText (abs cwd o.storageRoot), cwd.path,
    schemaHash build, ((dumpName, source.dump) :: tree.walk.map archived).map (entry build)⟩
  few : m.files.length ≤ 100000
  marshalled : m.marshal = some content.1
  small : content.1.length ≤ maxManifest
  stored : bundle.files =
    (dumpName, source.dump) :: tree.walk.map archived ++ [(manifestName, content)]

variable {cwd : WorkingDir} {o : Options} {source : Source Time} {tree bundle : Directory}

theorem paths_eq {located : List Bytes × List Bytes} (found : paths cwd o = .ok located) :
    located = (abs cwd o.storageRoot, abs cwd o.bundle) := by
  simp only [paths, do_eq_ok, require_eq_ok, pure_eq_ok, exists_const] at found
  exact found.2.2.symm

theorem backup_saved (saved : backup build cwd o source tree = .ok bundle) :
    ∃ m content, Saved build cwd o source tree bundle m content := by
  simp only [backup, do_eq_ok, require_eq_ok, demand_eq_ok, exists_const] at saved
  obtain ⟨-, located, placed, ungated, -, -, -, dumped, created, d, digested,
    ⟨copied, files⟩, walked, -, bytes, marshalled, published⟩ := saved
  obtain rfl := paths_eq placed
  have first : dumped.files = [(dumpName, source.dump)] := Directory.create_files created
  have measured : d = measure build source.dump := by
    have member : (dumpName, source.dump) ∈ dumped.files := by simp [first]
    simp only [digest, map_eq_ok, demand_eq_ok, Directory.lookup_of_mem member] at digested
    obtain ⟨content, same, rfl⟩ := digested
    rw [Option.some.inj same]
  obtain ⟨stored, listed, few⟩ := copyArchive_ok (by simp) walked
  unfold publish at published
  split at published
  next small =>
    refine ⟨_, ⟨bytes, manifest_fits small⟩, placed, ungated, ?_, few, marshalled, small, ?_⟩
    · simp only at listed
      rw [listed, measured, List.map_cons, List.map_map]
      rfl
    · simp only at stored
      rw [Directory.create_files published, stored, first]
      rfl
  · cases published

theorem validPath_dumpName : validPath dumpName = true ∧ dumpName ≠ ascii "." ∧
    dumpName ≠ archive ++ marker := by
  decide

theorem validPath_archived {path : Bytes} (named : wellNamed path = true)
    (valid : validUTF8 path = true) :
    validPath (archive ++ path) = true ∧ archive ++ path ≠ ascii "." := by
  have name : entryName (ascii "eml") = true := by decide
  have inside : wellNamed (archive ++ path) = true := by
    rw [wellNamed, archive, components_archive, List.all_cons, name]
    exact named
  have valid : validUTF8 (archive ++ path) = true := valid
  refine ⟨by simp [validPath, valid, inside], fun same => ?_⟩
  have dot : (archive ++ path).head? = some 46 := congrArg List.head? same
  cases dot

theorem clash_marker (ungated : tree.occupied marker = false) {file : Bytes × Content}
    (member : file ∈ tree.files) : clash marker file.1 = false := by
  have free := List.any_eq_false.mp ungated file member
  simp only [Bool.or_eq_true, decide_eq_true_eq, not_or] at free
  have above : ¬(file.1 ++ [47]).isPrefixOf marker = true := by
    intro holds
    have slash : (47 : UInt8) ∈ marker :=
      (List.isPrefixOf_iff_prefix.mp holds).subset (List.mem_append_right _ List.mem_cons_self)
    exact absurd slash (by decide)
  refine Bool.eq_false_iff.mpr fun holds => ?_
  simp only [clash, Bool.or_eq_true, decide_eq_true_eq] at holds
  rcases holds with (same | below) | holds
  · exact free.1 same.symm
  · exact free.2 below
  · exact above holds

theorem entry_sound {file : Bytes × Content} (valid : validUTF8 file.1 = true) :
    (entry build file).Sound where
  path := valid
  size := ⟨by simp [entry, measure], by
    have := file.2.2
    simp only [entry, measure]
    omega⟩
  sha256 := hexEncode_valid _

/-- The names of the storage root and of every file in it are valid UTF-8. -/
structure ValidNames (cwd : WorkingDir) (o : Options) (tree : Directory) : Prop where
  root : validUTF8 (pathText (abs cwd o.storageRoot)) = true
  workingDir : validUTF8 cwd.path = true
  files : ∀ file ∈ tree.files, validUTF8 file.1 = true

namespace Saved

variable {m : Manifest Time} {content : Content}

variable (saved : Saved build cwd o source tree bundle m content)

include saved

theorem listed_files :
    m.files = ((dumpName, source.dump) :: tree.walk.map archived).map (entry build) := by
  rw [saved.listed]

theorem sound (valid : ValidNames cwd o tree) : m.Sound := by
  rw [saved.listed]
  have version : Json.int64 1 := ⟨by decide, by decide⟩
  refine ⟨version, valid.root, valid.workingDir, hexEncode_valid _, ?_⟩
  intro file member
  obtain ⟨stored, copied, rfl⟩ := List.mem_map.mp member
  refine entry_sound ?_
  rcases List.mem_cons.mp copied with rfl | copied
  · rfl
  · obtain ⟨original, walked, rfl⟩ := List.mem_map.mp copied
    exact valid.files original (tree.walk_perm.mem_iff.mp walked)

theorem found {file : Bytes × Content}
    (member : file ∈ (dumpName, source.dump) :: tree.walk.map archived) :
    bundle.lookup file.1 = some file.2 := by
  refine Directory.lookup_of_mem ?_
  rw [saved.stored]
  exact List.mem_append_left _ member

theorem distinct : (m.files.map File.path).Nodup := by
  have apart := bundle.apart
  rw [saved.stored] at apart
  have apart := (List.pairwise_append.mp apart).1
  rw [saved.listed_files, List.map_map]
  refine List.pairwise_map.mpr (apart.imp fun {a b} free same => ?_)
  simp [clash, show a.1 = b.1 from same] at free

theorem listed_entries (valid : ValidNames cwd o tree) {v : File} (member : v ∈ m.files) :
    Listed build bundle v := by
  rw [saved.listed_files] at member
  obtain ⟨stored, copied, rfl⟩ := List.mem_map.mp member
  have size : 0 ≤ (entry build stored).size := Int.natCast_nonneg _
  have same : entry build stored = { measure build stored.2 with path := stored.1 } := rfl
  rcases List.mem_cons.mp copied with rfl | inside
  · obtain ⟨path, other, ungated⟩ := validPath_dumpName
    exact ⟨⟨path, other, .inl rfl⟩, size, ungated, source.dump, saved.found copied, same⟩
  · obtain ⟨file, walked, rfl⟩ := List.mem_map.mp inside
    have known := tree.walk_perm.mem_iff.mp walked
    obtain ⟨path, other⟩ := validPath_archived (tree.named file known) (valid.files file known)
    refine ⟨⟨path, other, .inr (List.prefix_append _ _)⟩, size, fun gated => ?_, file.2,
      saved.found copied, same⟩
    have gated : file.1 = marker := List.append_cancel_left gated
    have free := clash_marker saved.ungated known
    simp [clash, gated] at free

theorem accepted (valid : ValidNames cwd o tree) : verifyBundle build bundle = .ok m := by
  have paths : m.files.map File.path =
      ((dumpName, source.dump) :: tree.walk.map archived).map Prod.fst := by
    rw [saved.listed_files, List.map_map]
    rfl
  have header : checkHeader build m = true := by
    have few := saved.few
    rw [saved.listed] at few ⊢
    simpa [checkHeader, pathText_absolute, cwd.absolute] using few
  have last : (manifestName, content) ∈ bundle.files := by simp [saved.stored]
  have published : bundle.lookup manifestName = some content := Directory.lookup_of_mem last
  refine verifyBundle_accepts published saved.small saved.marshalled (saved.sound valid) header
    (fun v => saved.listed_entries valid) saved.distinct ?_ ?_
  · rw [paths]
    exact List.mem_cons_self
  · intro file member
    rw [saved.stored, List.mem_append] at member
    rw [paths]
    rcases member with copied | last
    · exact .inr (List.mem_map_of_mem copied)
    · obtain rfl := List.mem_singleton.mp last
      exact .inl rfl

theorem valid_names {m' : Manifest Time} (accepted : verifyBundle build bundle = .ok m')
    (root : pathText (abs cwd o.storageRoot) = m'.storageRoot) (dir : cwd.path = m'.workingDir) :
    ValidNames cwd o tree := by
  obtain ⟨located, named⟩ := verifyBundle_valid accepted
  refine ⟨root ▸ located.1, dir ▸ located.2, fun file member => ?_⟩
  have copied : archived file ∈ bundle.files := by
    rw [saved.stored]
    refine List.mem_append_left _ (List.mem_cons_of_mem _ (List.mem_map_of_mem ?_))
    exact tree.walk_perm.mem_iff.mpr member
  rcases named _ copied with manifest | valid
  · cases (congrArg List.head? manifest : some (101 : UInt8) = some 109)
  · exact valid

end Saved

theorem trimArchive_archived (path : Bytes) : trimArchive (archive ++ path) = path := by
  rw [trimArchive, if_pos (List.isPrefixOf_iff_prefix.mpr (List.prefix_append _ _)),
    List.drop_left]

theorem restoreFiles_archived {files : List (Bytes × Content)} {root : Directory}
    (stored : ∀ file ∈ files, bundle.lookup (archive ++ file.1) = some file.2)
    (named : ∀ file ∈ files, wellNamed file.1 = true)
    (apart : files.Pairwise fun a b => clash a.1 b.1 = false)
    (free : ∀ old ∈ root.files, ∀ file ∈ files, clash old.1 file.1 = false) :
    ∃ restored, restoreFiles build bundle (files.map (entry build ∘ archived)) root =
      (none, restored) ∧ restored.files = root.files ++ files := by
  induction files generalizing root with
  | nil => exact ⟨root, rfl, (List.append_nil _).symm⟩
  | cons file files ih =>
    obtain ⟨found, stored⟩ := List.forall_mem_cons.mp stored
    obtain ⟨name, named⟩ := List.forall_mem_cons.mp named
    obtain ⟨beside, apart⟩ := List.pairwise_cons.mp apart
    obtain ⟨new, created, same⟩ := @Directory.create_free root file.1 file.2 name
      fun old member => free old member file List.mem_cons_self
    have free : ∀ old ∈ new.files, ∀ other ∈ files, clash old.1 other.1 = false := by
      intro old member other listed
      rw [same, List.mem_append] at member
      rcases member with member | member
      · exact free old member other (List.mem_cons_of_mem _ listed)
      · obtain rfl := List.mem_singleton.mp member
        exact beside other listed
    obtain ⟨restored, rest, final⟩ := ih stored named apart free
    refine ⟨restored, ?_, by rw [final, same, List.append_assoc]; rfl⟩
    have archivedPath : (entry build (archived file)).path = archive ++ file.1 := rfl
    have other : archive ++ file.1 ≠ dumpName := fun dump => by
      cases (congrArg List.head? dump : some (101 : UInt8) = some 100)
    have copied : copyFile build file.2 root file.1 = .ok (measure build file.2, new) := by
      rw [copyFile, created]
      rfl
    simp only [List.map_cons, Function.comp_apply, restoreFiles, archivedPath, if_neg other, found,
      trimArchive_archived, copied]
    rw [if_pos ⟨rfl, rfl⟩]
    exact rest

/-- A bundle that was written is restored to the files it was taken from. -/
theorem Saved.restored {m : Manifest Time} {content : Content}
    (saved : Saved build cwd o source tree bundle m content) (valid : ValidNames cwd o tree)
    {options : Options} {located : List Bytes × List Bytes} {target : Target}
    (found : paths cwd options = .ok located)
    (same : located.1 = abs cwd o.storageRoot) (unowned : target.owned = false)
    (unused : target.objects = 0) :
    ∃ root, restore build Time cwd options target bundle .empty =
        (restoreDatabase target bundle, root) ∧
      root.files = (marker, gateText) :: tree.walk := by
  have checks : restoreChecks build cwd options target bundle .empty = .ok m := by
    simp only [restoreChecks, do_eq_ok, require_eq_ok, pure_eq_ok, exists_const]
    refine ⟨unowned, located, found, m, saved.accepted valid, ?_, unused, rfl, rfl⟩
    rw [saved.listed, same]
    exact ⟨rfl, rfl⟩
  obtain ⟨gated, created, gate⟩ := @Directory.create_free .empty marker gateText (by decide)
    (List.forall_mem_nil _)
  have inside (file : Bytes × Content) (walked : file ∈ tree.walk) : file ∈ tree.files :=
    tree.walk_perm.mem_iff.mp walked
  obtain ⟨root, filled, final⟩ := @restoreFiles_archived build bundle tree.walk gated
    (fun file walked => saved.found (List.mem_cons_of_mem _ (List.mem_map_of_mem walked)))
    (fun file walked => tree.named file (inside file walked)) tree.walk_apart
    (by
      rw [gate]
      intro old member file walked
      obtain rfl := List.mem_singleton.mp member
      exact clash_marker saved.ungated (inside file walked))
  refine ⟨root, ?_, by rw [final, gate]; rfl⟩
  have skipped : restoreFiles build bundle m.files gated = (none, root) := by
    have dump : (entry build (dumpName, source.dump)).path = dumpName := rfl
    rw [saved.listed_files, List.map_cons, List.map_map, restoreFiles, if_pos dump]
    exact filled
  simp only [restore, checks, created, skipped]

end RoundTrip

/-- A restore that has written to an empty root was made from an accepted bundle, at the paths
that its manifest names. -/
theorem restore_checked {build : Build} {Time : Type} [Instants Time] {cwd : WorkingDir}
    {o : Options} {target : Target} {bundle root : Directory} {result : Option RecoveryError}
    (restored : restore build Time cwd o target bundle .empty = (result, root))
    (written : root.files ≠ []) :
    ∃ m : Manifest Time, verifyBundle build bundle = .ok m ∧
      pathText (abs cwd o.storageRoot) = m.storageRoot ∧ cwd.path = m.workingDir := by
  unfold restore at restored
  split at restored
  · cases restored
    exact absurd rfl written
  next checked =>
    simp only [restoreChecks, do_eq_ok, require_eq_ok, pure_eq_ok, exists_const] at checked
    obtain ⟨-, located, placed, m, verified, ⟨root, dir⟩, -⟩ := checked
    obtain rfl := paths_eq placed
    exact ⟨m, verified, root, dir⟩

/-- A backup that succeeds is accepted by the verification and restores, into an empty
root, the files it was taken from and the marker, just if the names are valid UTF-8. -/
theorem backup_restores {build : Build} {Time : Type} [Instants Time] {cwd : WorkingDir}
    {o : Options} {source : Source Time} {tree bundle : Directory}
    (saved : backup build cwd o source tree = .ok bundle) :
    ((∃ m : Manifest Time, verifyBundle build bundle = .ok m) ∧
      ∀ (options : Options) (target : Target) (located : List Bytes × List Bytes),
        paths cwd options = .ok located → located.1 = abs cwd o.storageRoot →
        target.owned = false → target.objects = 0 →
        ∃ root, restore build Time cwd options target bundle .empty =
            (restoreDatabase target bundle, root) ∧
          root.files.Perm ((marker, gateText) :: tree.files) ∧
          bundle.lookup dumpName = some source.dump) ↔ ValidNames cwd o tree := by
  obtain ⟨m, content, saved⟩ := backup_saved saved
  constructor
  · rintro ⟨-, restores⟩
    -- a database that takes everything
    obtain ⟨root, restored, files, -⟩ :=
      restores o ⟨false, 0, true, fun _ => true⟩ _ saved.placed rfl rfl rfl
    have written : root.files ≠ [] := by
      intro none
      rw [none] at files
      exact List.cons_ne_nil _ _ files.symm.eq_nil
    obtain ⟨m', accepted, root, dir⟩ := restore_checked restored written
    exact saved.valid_names accepted root dir
  · intro valid
    refine ⟨⟨m, saved.accepted valid⟩, fun options target located found same unowned unused => ?_⟩
    obtain ⟨root, restored, files⟩ := saved.restored valid found same unowned unused
    refine ⟨root, restored, ?_, saved.found List.mem_cons_self⟩
    rw [files]
    exact tree.walk_perm.cons _

section Samples

instance sampleInstant : Instants Unit where
  zero := ()
  marshal _ := some (ascii "2026-01-02T03:04:05Z")
  unmarshal text := if text = ascii "2026-01-02T03:04:05Z" then some () else none
  marshal_valid marshalled := by
    obtain rfl := Option.some.inj marshalled
    decide
  unmarshal_marshal marshalled := by
    obtain rfl := Option.some.inj marshalled
    exact if_pos rfl

def sampleBuild : Build := ⟨fun bytes => bytes.take 4, [(ascii "00001_init.sql", ascii "CREATE")]⟩

def sampleDir : WorkingDir := ⟨ascii "/srv", rfl⟩

def sampleOptions : Options := ⟨ascii "data/eml", ascii "/backup/one", true⟩

theorem sampleContent_fits : (ascii "From: a").length < 2 ^ 63 := by
  decide

def sampleContent : Content := ⟨ascii "From: a", sampleContent_fits⟩

def sampleSource : Source Unit :=
  ⟨false, [ascii "messages"], (), fun _ => true, false, sampleContent⟩

theorem single_named {path : Bytes} (named : wellNamed path = true) :
    ∀ file ∈ [(path, sampleContent)], wellNamed file.1 = true :=
  List.forall_mem_singleton.mpr named

def single (path : Bytes) (named : wellNamed path = true) : Directory :=
  ⟨[(path, sampleContent)], single_named named, List.pairwise_singleton _ _⟩

def verdict (tree : Directory) : Option (Option RecoveryError) :=
  (backup sampleBuild sampleDir sampleOptions sampleSource tree).toOption.map fun bundle =>
    match (verifyBundle sampleBuild bundle : Except RecoveryError (Manifest Unit)) with
    | .ok _ => none
    | .error cause => some cause

theorem backup_of_verdict {tree : Directory} {result : Option RecoveryError}
    (judged : verdict tree = some result) :
    ∃ bundle, backup sampleBuild sampleDir sampleOptions sampleSource tree = .ok bundle ∧
      (match (verifyBundle sampleBuild bundle : Except RecoveryError (Manifest Unit)) with
        | .ok _ => none
        | .error cause => some cause) = result := by
  unfold verdict at judged
  cases saved : backup sampleBuild sampleDir sampleOptions sampleSource tree with
  | error cause => simp [saved, Except.toOption] at judged
  | ok bundle =>
    rw [saved] at judged
    exact ⟨bundle, rfl, Option.some.inj judged⟩

theorem invalidName_named : wellNamed [0xFF] = true := by
  decide

theorem validName_named : wellNamed (ascii "2026/a.eml") = true := by
  decide

/-- The manifest names another file where a name is not valid UTF-8. -/
theorem invalid_name_lost :
    ∃ bundle, backup sampleBuild sampleDir sampleOptions sampleSource
        (single [0xFF] invalidName_named) = .ok bundle ∧
      (verifyBundle sampleBuild bundle : Except RecoveryError (Manifest Unit)) =
        .error .fileMissing := by
  have judged : verdict (single [0xFF] invalidName_named) = some (some .fileMissing) := by
    decide +kernel
  obtain ⟨bundle, saved, refused⟩ := backup_of_verdict judged
  refine ⟨bundle, saved, ?_⟩
  split at refused
  · cases refused
  next cause same => rw [same, Option.some.inj refused]

def sampleTarget : Target := ⟨false, 0, true, fun _ => true⟩

theorem backup_restores_of_validName :
    ∃ bundle root, backup sampleBuild sampleDir sampleOptions sampleSource
        (single (ascii "2026/a.eml") validName_named) = .ok bundle ∧
      restore sampleBuild Unit sampleDir sampleOptions sampleTarget bundle .empty =
        (restoreDatabase sampleTarget bundle, root) ∧
      root.files.Perm [(marker, gateText), (ascii "2026/a.eml", sampleContent)] := by
  have judged : verdict (single (ascii "2026/a.eml") validName_named) = some none := by
    decide +kernel
  obtain ⟨bundle, saved, -⟩ := backup_of_verdict judged
  have valid : ValidNames sampleDir sampleOptions (single (ascii "2026/a.eml") validName_named) :=
    ⟨by decide, by decide, List.forall_mem_singleton.mpr (by decide)⟩
  obtain ⟨root, restored, files, -⟩ := ((backup_restores saved).mpr valid).2 sampleOptions sampleTarget
    (abs sampleDir sampleOptions.storageRoot, abs sampleDir sampleOptions.bundle) rfl rfl rfl rfl
  exact ⟨bundle, root, saved, restored, files⟩

end Samples

end RelayTale.Recovery
