import RelayTale.Foundation.Guard
import RelayTale.Foundation.Keyed
import RelayTale.Recovery.Manifest

/-!
# Files and bundles

A directory is what a walk over it finds: the files below it by their slash
separated names. `verifyBundle` compares a bundle with its manifest.
-/

namespace RelayTale.Recovery

open Text Guard

inductive RecoveryError
  | runtimeOwned
  | offline
  | separate
  | restoreGate
  | sourceEmpty
  | inconsistent
  | bundleExists
  | fileExists
  | fileMissing
  | entryLimit
  | marshal
  | manifestSize
  | manifestTooLarge
  | invalidManifest
  | trailingManifest
  | unsupported
  | invalidEntry
  | containsGate
  | checksum
  | missingDump
  | unlisted
  | originalPaths
  | targetDatabase
  | targetStorage
  | changed
  | publicSchema
  | pgRestore
  deriving DecidableEq, Repr

section Names

def components : Bytes → List Bytes
  | [] => [[]]
  | byte :: rest =>
      if byte = 47 then [] :: components rest
      else match components rest with
        | first :: more => (byte :: first) :: more
        | [] => [[byte]]

def entryName (name : Bytes) : Bool := name ≠ [] && name ≠ ascii "." && name ≠ ascii ".."

def wellNamed (path : Bytes) : Bool := (components path).all entryName

/-- `fs.ValidPath`. -/
def validPath (path : Bytes) : Bool :=
  validUTF8 path && (path = ascii "." || wellNamed path)

/-- One of the paths would have to be a directory that holds the other, or they are the same. -/
def clash (a b : Bytes) : Bool :=
  a = b || (a ++ [47]).isPrefixOf b || (b ++ [47]).isPrefixOf a

theorem clash_comm (a b : Bytes) : clash a b = clash b a := by
  rw [Bool.eq_iff_iff]
  simp only [clash, Bool.or_eq_true, decide_eq_true_eq]
  tauto

theorem components_archive (path : Bytes) :
    components (ascii "eml/" ++ path) = ascii "eml" :: components path := rfl

end Names

/-- What a file holds. Its size is an `int64`. -/
abbrev Content := { bytes : Bytes // bytes.length < 2 ^ 63 }

structure Directory where
  files : List (Bytes × Content)
  named : ∀ file ∈ files, wellNamed file.1 = true
  apart : files.Pairwise fun a b => clash a.1 b.1 = false

namespace Directory

def empty : Directory := ⟨[], List.forall_mem_nil _, .nil⟩

def lookup (dir : Directory) (path : Bytes) : Option Content :=
  (dir.files.find? fun file => file.1 = path).map Prod.snd

def occupied (dir : Directory) (path : Bytes) : Bool :=
  dir.files.any fun file => file.1 = path || (path ++ [47]).isPrefixOf file.1

theorem apart_append {files : List (Bytes × Content)} {path : Bytes} {content : Content}
    (apart : files.Pairwise fun a b => clash a.1 b.1 = false)
    (free : ∀ file ∈ files, clash file.1 path = false) :
    (files ++ [(path, content)]).Pairwise fun a b => clash a.1 b.1 = false := by
  refine List.pairwise_append.mpr ⟨apart, List.pairwise_singleton _ _, ?_⟩
  intro file member other single
  obtain rfl := List.mem_singleton.mp single
  exact free file member

theorem named_append {files : List (Bytes × Content)} {path : Bytes} {content : Content}
    (named : ∀ file ∈ files, wellNamed file.1 = true) (new : wellNamed path = true) :
    ∀ file ∈ files ++ [(path, content)], wellNamed file.1 = true :=
  List.forall_mem_append.mpr ⟨named, List.forall_mem_singleton.mpr new⟩

theorem paths_nodup (dir : Directory) : (dir.files.map Prod.fst).Nodup :=
  List.pairwise_map.mpr (dir.apart.imp fun apart same => by simp [clash, same] at apart)

theorem lookup_of_mem {dir : Directory} {file : Bytes × Content} (member : file ∈ dir.files) :
    dir.lookup file.1 = some file.2 := by
  rw [lookup, Keyed.find_of_mem dir.paths_nodup member]
  rfl

/-- A new file with the directories above it, as `mkdir` and `O_EXCL` create them. -/
def create (dir : Directory) (path : Bytes) (content : Content) : Except RecoveryError Directory :=
  if free : wellNamed path = true ∧ ∀ file ∈ dir.files, clash file.1 path = false then
    .ok ⟨dir.files ++ [(path, content)], named_append dir.named free.1,
      apart_append dir.apart free.2⟩
  else .error .fileExists

variable {dir new : Directory} {path : Bytes} {content : Content}

theorem create_files (created : dir.create path content = .ok new) :
    new.files = dir.files ++ [(path, content)] := by
  unfold create at created
  split at created
  · obtain rfl := Except.ok.inj created
    rfl
  · cases created

theorem create_free (named : wellNamed path = true)
    (free : ∀ file ∈ dir.files, clash file.1 path = false) :
    ∃ new, dir.create path content = .ok new ∧ new.files = dir.files ++ [(path, content)] :=
  ⟨_, dif_pos ⟨named, free⟩, rfl⟩

/-- `filepath.WalkDir`: the files in lexical order of the names on their way. -/
def walk (dir : Directory) : List (Bytes × Content) :=
  dir.files.mergeSort fun a b => decide (components a.1 ≤ components b.1)

theorem walk_perm (dir : Directory) : dir.walk.Perm dir.files := List.mergeSort_perm _ _

theorem walk_apart (dir : Directory) :
    dir.walk.Pairwise fun a b => clash a.1 b.1 = false :=
  dir.walk_perm.symm.pairwise dir.apart fun {a b} apart => by rwa [clash_comm]

end Directory

structure Build where
  sha256 : Bytes → Bytes
  migrations : List (Bytes × Bytes)

def sqlSuffix (name : Bytes) : Bool := (ascii ".sql").isSuffixOf name

def schemaHash (build : Build) : Bytes :=
  hexEncode (build.sha256 ((build.migrations.filter fun entry => sqlSuffix entry.1).flatMap
    fun entry => entry.1 ++ 0 :: entry.2))

def marker : Bytes := ascii ".restore-pending"

def maxManifest : Nat := 64 * 2 ^ 20

def dumpName : Bytes := ascii "database.dump"

def manifestName : Bytes := ascii "manifest.json"

def archive : Bytes := ascii "eml/"

section Digest

variable (build : Build)

/-- What `digest` and `copyFile` return of a file. -/
def measure (content : Content) : File := ⟨[], content.1.length, hexEncode (build.sha256 content.1)⟩

def digest (dir : Directory) (path : Bytes) : Except RecoveryError File :=
  (demand (dir.lookup path) .fileMissing).map (measure build)

def copyFile (content : Content) (target : Directory) (path : Bytes) :
    Except RecoveryError (File × Directory) := do
  let target ← target.create path content
  pure (measure build content, target)

end Digest

section Verify

variable (build : Build) {Time : Type} [Instants Time]

def checkEntry (dir : Directory) (seen : List Bytes) (v : File) :
    Except RecoveryError (List Bytes) := do
  require (validPath v.path = true ∧ v.path ≠ ascii "." ∧ v.path ∉ seen ∧
    (v.path = dumpName ∨ archive <+: v.path) ∧ 0 ≤ v.size) RecoveryError.invalidEntry
  require (v.path ≠ archive ++ marker) RecoveryError.containsGate
  let got ← digest build dir v.path
  require (got.size = v.size ∧ got.sha256 = v.sha256) RecoveryError.checksum
  pure (v.path :: seen)

def checkHeader (m : Manifest Time) : Bool :=
  m.version = 1 && m.schema = schemaHash build && m.storageRoot.head? = some 47 &&
    m.workingDir.head? = some 47 && m.files.length ≠ 0 && m.files.length ≤ 100000

def verifyBundle (dir : Directory) : Except RecoveryError (Manifest Time) := do
  let content ← demand (dir.lookup manifestName) RecoveryError.fileMissing
  require (content.1.length ≤ maxManifest) RecoveryError.manifestTooLarge
  let (document, rest) ← demand (Json.read Json.strings content.1) RecoveryError.invalidManifest
  let m ← demand (Manifest.decode document) RecoveryError.invalidManifest
  require (Json.skip rest = []) RecoveryError.trailingManifest
  require (checkHeader build m = true) RecoveryError.unsupported
  let seen ← m.files.foldlM (checkEntry build dir) []
  require (dumpName ∈ seen) RecoveryError.missingDump
  require (∀ file ∈ dir.files, file.1 = manifestName ∨ file.1 ∈ seen) RecoveryError.unlisted
  pure m

variable {build} {dir : Directory} {seen : List Bytes}

structure Listed (build : Build) (dir : Directory) (v : File) : Prop where
  path : validPath v.path = true ∧ v.path ≠ ascii "." ∧ (v.path = dumpName ∨ archive <+: v.path)
  size : 0 ≤ v.size
  ungated : v.path ≠ archive ++ marker
  stored : ∃ content, dir.lookup v.path = some content ∧ v = { measure build content with
    path := v.path }

theorem checkEntry_listed {v : File} (listed : Listed build dir v) (fresh : v.path ∉ seen) :
    checkEntry build dir seen v = .ok (v.path :: seen) := by
  obtain ⟨content, found, same⟩ := listed.stored
  have size := congrArg File.size same
  have sha256 := congrArg File.sha256 same
  simp only [checkEntry, digest, do_eq_ok, require_eq_ok, map_eq_ok, demand_eq_ok, pure_eq_ok,
    exists_const, and_true]
  exact ⟨⟨listed.path.1, listed.path.2.1, fresh, listed.path.2.2, listed.size⟩, listed.ungated,
    _, ⟨content, found, rfl⟩, size.symm, sha256.symm⟩

theorem checkEntries_listed {files : List File} (listed : ∀ v ∈ files, Listed build dir v)
    (distinct : (files.map File.path).Nodup) (fresh : ∀ v ∈ files, v.path ∉ seen) :
    files.foldlM (checkEntry build dir) seen =
      .ok ((files.map File.path).reverse ++ seen) := by
  induction files generalizing seen with
  | nil => rfl
  | cons v files ih =>
    obtain ⟨first, rest⟩ := List.forall_mem_cons.mp listed
    obtain ⟨unseen, unseenRest⟩ := List.forall_mem_cons.mp fresh
    obtain ⟨apart, distinct⟩ := List.nodup_cons.mp distinct
    rw [List.foldlM_cons, checkEntry_listed first unseen]
    have fresh : ∀ other ∈ files, other.path ∉ v.path :: seen := by
      intro other member
      rw [List.mem_cons, not_or]
      exact ⟨fun same => apart (same ▸ List.mem_map_of_mem member), unseenRest other member⟩
    have checked := ih rest distinct fresh
    simp only [List.map_cons, List.reverse_cons, List.append_assoc, List.singleton_append]
    exact checked

theorem verifyBundle_accepts {m : Manifest Time} {content : Content}
    (stored : dir.lookup manifestName = some content) (small : content.1.length ≤ maxManifest)
    (marshalled : m.marshal = some content.1) (sound : m.Sound)
    (header : checkHeader build m = true) (listed : ∀ v ∈ m.files, Listed build dir v)
    (distinct : (m.files.map File.path).Nodup) (dumped : dumpName ∈ m.files.map File.path)
    (complete : ∀ file ∈ dir.files, file.1 = manifestName ∨ file.1 ∈ m.files.map File.path) :
    verifyBundle build dir = .ok m := by
  obtain ⟨document, read, decoded⟩ := Manifest.read_marshal sound marshalled
  have seen : m.files.foldlM (checkEntry build dir) [] =
      .ok ((m.files.map File.path).reverse ++ []) :=
    checkEntries_listed listed distinct fun _ _ => List.not_mem_nil
  simp only [verifyBundle, do_eq_ok, require_eq_ok, demand_eq_ok, pure_eq_ok, exists_const]
  refine ⟨content, stored, small, (document, []), read, m, decoded, rfl, header, _, seen, ?_, ?_,
    rfl⟩
  · simpa using dumped
  · simpa using complete

theorem checkEntries_valid {files : List File} {seen' : List Bytes}
    (before : ∀ path ∈ seen, validUTF8 path = true)
    (checked : files.foldlM (checkEntry build dir) seen = .ok seen') :
    ∀ path ∈ seen', validUTF8 path = true := by
  induction files generalizing seen with
  | nil =>
    cases checked
    exact before
  | cons v files ih =>
    rw [List.foldlM_cons, do_eq_ok] at checked
    obtain ⟨next, step, rest⟩ := checked
    simp only [checkEntry, do_eq_ok, require_eq_ok, pure_eq_ok, exists_const] at step
    obtain ⟨⟨path, -⟩, -, -, -, -, rfl⟩ := step
    simp only [validPath, Bool.and_eq_true] at path
    exact ih (List.forall_mem_cons.mpr ⟨path.1, before⟩) rest

theorem verifyBundle_valid {m : Manifest Time} (accepted : verifyBundle build dir = .ok m) :
    (validUTF8 m.storageRoot = true ∧ validUTF8 m.workingDir = true) ∧
      ∀ file ∈ dir.files, file.1 = manifestName ∨ validUTF8 file.1 = true := by
  simp only [verifyBundle, do_eq_ok, require_eq_ok, demand_eq_ok, pure_eq_ok, exists_const]
    at accepted
  obtain ⟨content, -, -, ⟨document, rest⟩, read, m, decoded, -, -, seen, checked, -, listed, rfl⟩ :=
    accepted
  exact ⟨Manifest.decode_valid (Json.read_valid read) decoded, fun file member =>
    (listed file member).imp_right (checkEntries_valid (List.forall_mem_nil _) checked _)⟩

end Verify

end RelayTale.Recovery
