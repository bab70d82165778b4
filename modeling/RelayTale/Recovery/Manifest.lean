import RelayTale.Foundation.Encoding

/-!
# Manifest

The manifest of a bundle lists every file with its size and digest. It is the
one part of a bundle that passes through JSON.
-/

namespace RelayTale.Recovery

open Text Json

structure File where
  path : Bytes
  size : Int
  sha256 : Bytes
  deriving DecidableEq

def File.zero : File := ⟨[], 0, []⟩

/-- What `time.Time` is used for: its JSON text, refused outside the years 0 to 9999, and
the instant read from such a text. -/
class Instants (Time : Type) where
  zero : Time
  marshal : Time → Option Bytes
  unmarshal : Bytes → Option Time
  marshal_valid {time : Time} {text : Bytes} : marshal time = some text → validUTF8 text = true
  unmarshal_marshal {time : Time} {text : Bytes} :
    marshal time = some text → unmarshal text = some time

structure Manifest (Time : Type) where
  version : Int
  createdAt : Time
  storageRoot : Bytes
  workingDir : Bytes
  schema : Bytes
  files : List File

variable {Time : Type} [Instants Time]

def Manifest.zero : Manifest Time := ⟨0, Instants.zero, [], [], [], []⟩

section Writing

def File.encode (file : File) : Json :=
  .object [(ascii "path", .string file.path), (ascii "size", integer file.size),
    (ascii "sha256", .string file.sha256)]

def Manifest.encode (m : Manifest Time) : Option Json := do
  let created ← Instants.marshal m.createdAt
  some (.object [(ascii "version", integer m.version), (ascii "created_at", .string created),
    (ascii "storage_root", .string m.storageRoot),
    (ascii "working_directory", .string m.workingDir), (ascii "schema_sha256", .string m.schema),
    (ascii "files", .array (m.files.map File.encode))])

def Manifest.marshal (m : Manifest Time) : Option Bytes := m.encode.map (render strings)

end Writing

section Reading

inductive FileField
  | path
  | size
  | sha256

inductive ManifestField
  | version
  | createdAt
  | storageRoot
  | workingDir
  | schema
  | files

def fileFields : List (Bytes × FileField) :=
  [(ascii "path", .path), (ascii "size", .size), (ascii "sha256", .sha256)]

def manifestFields : List (Bytes × ManifestField) :=
  [(ascii "version", .version), (ascii "created_at", .createdAt),
    (ascii "storage_root", .storageRoot), (ascii "working_directory", .workingDir),
    (ascii "schema_sha256", .schema), (ascii "files", .files)]

def readTime (old : Time) : Json → Option Time
  | .string text => Instants.unmarshal text
  | .null => some old
  | _ => none

def File.set : FileField → File → Json → Option File
  | .path, file, value => (readText file.path value).map fun path => { file with path }
  | .size, file, value => (readInt64 file.size value).map fun size => { file with size }
  | .sha256, file, value => (readText file.sha256 value).map fun sha256 => { file with sha256 }

def File.decode (old : File) : Json → Option File := readObject fileFields File.set old

/-- Each item is read over the element that stood in its place. -/
def readItems (old : List File) : List Json → Option (List File)
  | [] => some []
  | item :: items => do
      let file ← File.decode (old.head?.getD File.zero) item
      let files ← readItems old.tail items
      some (file :: files)

/-- The slice and what its array holds behind it, which a longer one uncovers. -/
def readFiles (old : List File) : Json → Option (List File × List File)
  | .array [] => some ([], [])
  | .array items => (readItems old items).map fun files => (files, old.drop items.length)
  | .null => some ([], [])
  | _ => none

def Manifest.set : ManifestField → Manifest Time × List File → Json →
    Option (Manifest Time × List File)
  | .version, (m, spare), value =>
      (readInt64 m.version value).map fun version => ({ m with version }, spare)
  | .createdAt, (m, spare), value =>
      (readTime m.createdAt value).map fun createdAt => ({ m with createdAt }, spare)
  | .storageRoot, (m, spare), value =>
      (readText m.storageRoot value).map fun storageRoot => ({ m with storageRoot }, spare)
  | .workingDir, (m, spare), value =>
      (readText m.workingDir value).map fun workingDir => ({ m with workingDir }, spare)
  | .schema, (m, spare), value =>
      (readText m.schema value).map fun schema => ({ m with schema }, spare)
  | .files, (m, spare), value =>
      (readFiles (m.files ++ spare) value).map fun (files, spare) => ({ m with files }, spare)

def Manifest.decode (document : Json) : Option (Manifest Time) :=
  (readObject manifestFields Manifest.set (Manifest.zero, []) document).map Prod.fst

end Reading

section RoundTrip

structure File.Sound (file : File) : Prop where
  path : validUTF8 file.path = true
  size : int64 file.size
  sha256 : validUTF8 file.sha256 = true

theorem File.encode_lawful {file : File} (sound : file.Sound) : Lawful strings file.encode := by
  refine lawful_object rfl ?_
  simp only [List.forall_mem_cons, List.not_mem_nil, IsEmpty.forall_iff, implies_true, and_true]
  exact ⟨lawful_text sound.path, lawful_integer sound.size, lawful_text sound.sha256⟩

theorem File.decode_encode {file : File} (sound : file.Sound) (old : File) :
    File.decode old file.encode = some file := by
  have path : findField fileFields (ascii "path") = some .path := rfl
  have size : findField fileFields (ascii "size") = some .size := rfl
  have sha256 : findField fileFields (ascii "sha256") = some .sha256 := rfl
  simp [File.decode, File.encode, readObject, path, size, sha256, File.set, readText,
    readInt64_integer sound.size]

structure Manifest.Sound (m : Manifest Time) : Prop where
  version : int64 m.version
  storageRoot : validUTF8 m.storageRoot = true
  workingDir : validUTF8 m.workingDir = true
  schema : validUTF8 m.schema = true
  files : ∀ file ∈ m.files, file.Sound

theorem readItems_encode {files old : List File} (sound : ∀ file ∈ files, file.Sound) :
    readItems old (files.map File.encode) = some files := by
  induction files generalizing old with
  | nil => rfl
  | cons file files ih =>
    obtain ⟨first, rest⟩ := List.forall_mem_cons.mp sound
    rw [List.map_cons, readItems, File.decode_encode first, ih rest]
    rfl

theorem readFiles_encode {files : List File} (sound : ∀ file ∈ files, file.Sound) :
    readFiles [] (.array (files.map File.encode)) = some (files, []) := by
  have read := @readItems_encode files [] sound
  cases files with
  | nil => rfl
  | cons file files =>
    simp only [List.map_cons, readFiles] at read ⊢
    simp [read]

variable {m : Manifest Time} {document : Json}

theorem Manifest.encode_lawful (sound : m.Sound) (encoded : m.encode = some document) :
    Lawful strings document := by
  obtain ⟨created, marshalled, same⟩ := Option.bind_eq_some_iff.mp encoded
  obtain rfl := Option.some.inj same
  refine lawful_object rfl ?_
  simp only [List.forall_mem_cons, List.not_mem_nil, IsEmpty.forall_iff, implies_true, and_true]
  refine ⟨lawful_integer sound.version, lawful_text (Instants.marshal_valid marshalled),
    lawful_text sound.storageRoot, lawful_text sound.workingDir, lawful_text sound.schema,
    .array fun item listed => ?_⟩
  obtain ⟨file, member, rfl⟩ := List.mem_map.mp listed
  exact File.encode_lawful (sound.files file member)

theorem Manifest.decode_encode (sound : m.Sound) (encoded : m.encode = some document) :
    Manifest.decode document = some m := by
  obtain ⟨created, marshalled, same⟩ := Option.bind_eq_some_iff.mp encoded
  obtain rfl := Option.some.inj same
  have version : findField manifestFields (ascii "version") = some .version := rfl
  have createdAt : findField manifestFields (ascii "created_at") = some .createdAt := rfl
  have root : findField manifestFields (ascii "storage_root") = some .storageRoot := rfl
  have dir : findField manifestFields (ascii "working_directory") = some .workingDir := rfl
  have schema : findField manifestFields (ascii "schema_sha256") = some .schema := rfl
  have files : findField manifestFields (ascii "files") = some .files := rfl
  have listed : readFiles (Manifest.zero : Manifest Time).files
      (.array (m.files.map File.encode)) = some (m.files, []) := readFiles_encode sound.files
  simp [Manifest.decode, readObject, version, createdAt, root, dir, schema, files, Manifest.set,
    readText, readTime, readInt64_integer sound.version, Instants.unmarshal_marshal marshalled,
    listed]

theorem Manifest.read_marshal {bytes : Bytes} (sound : m.Sound)
    (marshalled : m.marshal = some bytes) :
    ∃ document, read strings bytes = some (document, []) ∧ Manifest.decode document = some m := by
  obtain ⟨document, encoded, rfl⟩ := Option.map_eq_some_iff.mp marshalled
  exact ⟨document, read_write (m.encode_lawful sound encoded), m.decode_encode sound encoded⟩

/-- The paths of a manifest are valid UTF-8. -/
def Located (state : Manifest Time × List File) : Prop :=
  validUTF8 state.1.storageRoot = true ∧ validUTF8 state.1.workingDir = true

theorem Manifest.decode_valid (texts : All (validUTF8 · = true) (fun _ => True) document)
    (decoded : Manifest.decode document = some m) :
    validUTF8 m.storageRoot = true ∧ validUTF8 m.workingDir = true := by
  obtain ⟨⟨m, spare⟩, read, rfl⟩ := Option.map_eq_some_iff.mp decoded
  suffices located : Located (m, spare) from located
  refine readObject_keeps texts ?_ ⟨rfl, rfl⟩ read
  rintro field ⟨m, spare⟩ value state ⟨root, dir⟩ texts set
  cases field with
  | storageRoot =>
    obtain ⟨text, read, rfl⟩ := Option.map_eq_some_iff.mp set
    exact ⟨readText_holds texts root read, dir⟩
  | workingDir =>
    obtain ⟨text, read, rfl⟩ := Option.map_eq_some_iff.mp set
    exact ⟨root, readText_holds texts dir read⟩
  | _ =>
    obtain ⟨_, -, rfl⟩ := Option.map_eq_some_iff.mp set
    exact ⟨root, dir⟩

end RoundTrip

end RelayTale.Recovery
