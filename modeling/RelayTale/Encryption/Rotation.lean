import Mathlib.Data.List.Forall2
import Mathlib.Data.List.Nodup
import RelayTale.Encryption.Credentials

/-!
# Rotation of the provider keys

`RotateProviders` opens every stored password and seals those again that are not
under the active key, all in one transaction. Whether a commit whose answer is
lost has taken place is not known.
-/

namespace RelayTale.Encryption

open Text

/-- The text of a `uuid` column. -/
structure UUIDText where
  text : Bytes
  length : text.length = 36
  digits : (text.mapIdx uuidByte).all id = true

theorem UUIDText.ext_text {first second : UUIDText} (same : first.text = second.text) :
    first = second := by
  cases first
  cases second
  cases same
  rfl

instance : DecidableEq UUIDText := fun first second =>
  decidable_of_iff (first.text = second.text) ⟨UUIDText.ext_text, congrArg UUIDText.text⟩

section Table

variable {Ciphertext : Type}

structure Row (Ciphertext : Type) where
  id : UUIDText
  ciphertext : Ciphertext
  nonce : Bytes

/-- The rows of `providers` in the order of their identifiers. -/
structure Table (Ciphertext : Type) where
  rows : List (Row Ciphertext)
  keyed : (rows.map (·.id)).Nodup

/-- The `UPDATE` of one row. -/
def Row.put (id : UUIDText) (encrypted : Ciphertext) (nonce : Bytes) (r : Row Ciphertext) :
    Row Ciphertext :=
  if r.id = id then { r with ciphertext := encrypted, nonce } else r

theorem Row.put_id {id : UUIDText} {encrypted : Ciphertext} {nonce : Bytes}
    (r : Row Ciphertext) : (r.put id encrypted nonce).id = r.id := by
  unfold put
  split <;> rfl

theorem put_keyed (rows : List (Row Ciphertext)) (id : UUIDText) (encrypted : Ciphertext)
    (nonce : Bytes) : (rows.map (·.put id encrypted nonce)).map (·.id) = rows.map (·.id) := by
  rw [List.map_map]
  exact List.map_congr_left fun r _ => r.put_id

def Table.update (t : Table Ciphertext) (id : UUIDText) (encrypted : Ciphertext)
    (nonce : Bytes) : Table Ciphertext where
  rows := t.rows.map (·.put id encrypted nonce)
  keyed := (put_keyed t.rows id encrypted nonce).symm ▸ t.keyed

end Table

inductive RotationError
  | request
  | runtime
  | failed
  deriving DecidableEq, Repr

structure RotationReport where
  active : Bytes
  versions : Bytes → Nat
  checked : Nat
  changed : Nat
  applied : Bool

def emptyReport (box : Box) (apply : Bool) : RotationReport :=
  { active := box.active, versions := fun _ => 0, checked := 0, changed := 0, applied := apply }

/-- How the commit ends: an answer can be lost before or after it took place. -/
inductive Commit
  | done
  | refused
  | lost (applied : Bool)
  deriving DecidableEq, Repr

/-- What the calls of the database and of the random source return. -/
structure Calls where
  noRuntime : Bool
  begins : Bool
  configures : Bool
  selects : Bool
  random : Nat → Option Nonce
  updates : Nat → Bool
  audits : Bool
  commit : Commit

/-- The texts that are accepted for an actor or a reason. -/
def validNote (limit : Nat) (note : Bytes) : Bool :=
  Text.validUTF8 note && Text.dropSpaces 0 note ≠ [] && note.length ≤ limit && !note.contains 0

section Rotation

variable {Ciphertext : Type} [Cipher Ciphertext]

structure Progress (Ciphertext : Type) where
  report : RotationReport
  table : Table Ciphertext

/-- The body of the loop. A failure is returned with the counts so far. -/
def rotateRow (calls : Calls) (box : Box) (apply : Bool) (index : Nat) (r : Row Ciphertext)
    (p : Progress Ciphertext) : Except RotationReport (Progress Ciphertext) :=
  match version r.nonce, box.openCredential r.id.text r.ciphertext r.nonce with
  | .ok version, .ok plain =>
      let report :=
        { p.report with
          checked := p.report.checked + 1
          versions := Function.update p.report.versions version (p.report.versions version + 1) }
      if version = report.active then .ok { p with report }
      else
        let report := { report with changed := report.changed + 1 }
        if apply then
          match box.sealCredential r.id.text plain (calls.random index) with
          | .error _ => .error report
          | .ok (encrypted, nonce) =>
              if calls.updates index then .ok ⟨report, p.table.update r.id encrypted nonce⟩
              else .error report
        else .ok { p with report }
  | _, _ => .error p.report

def rotateRows (calls : Calls) (box : Box) (apply : Bool) :
    Nat → List (Row Ciphertext) → Progress Ciphertext →
      Except RotationReport (Progress Ciphertext)
  | _, [], p => .ok p
  | index, r :: rest, p =>
      match rotateRow calls box apply index r p with
      | .error report => .error report
      | .ok p => rotateRows calls box apply (index + 1) rest p

structure Rotated (Ciphertext : Type) where
  report : RotationReport
  error : Option RotationError
  after : Table Ciphertext

def rotateProviders (calls : Calls) (box : Box) (actor reason : Bytes) (apply : Bool)
    (table : Table Ciphertext) : Rotated Ciphertext :=
  let report := emptyReport box apply
  if box.active = legacy ∨ !validNote 128 actor ∨ !validNote 2048 reason then
    ⟨report, some .request, table⟩
  else if !calls.noRuntime then ⟨report, some .runtime, table⟩
  else if !calls.begins ∨ !calls.configures ∨ !calls.selects then ⟨report, some .failed, table⟩
  else
    let records := table.rows.take 10001
    if 10000 < records.length then ⟨report, some .failed, table⟩
    else
      match rotateRows calls box apply 0 records ⟨report, table⟩ with
      | .error report => ⟨report, some .failed, table⟩
      | .ok p =>
          if !apply then ⟨p.report, none, table⟩
          else if !calls.audits then ⟨p.report, some .failed, table⟩
          else
            match calls.commit with
            | .done => ⟨p.report, none, p.table⟩
            | .refused => ⟨p.report, some .failed, table⟩
            | .lost applied => ⟨p.report, some .failed, if applied then p.table else table⟩

structure Renewed (box : Box) (r r' : Row Ciphertext) : Prop where
  id : r'.id = r.id
  password : ∃ password, box.openCredential r.id.text r.ciphertext r.nonce = .ok password ∧
    box.openCredential r'.id.text r'.ciphertext r'.nonce = .ok password
  current : version r'.nonce = .ok box.active

variable {calls : Calls} {box : Box} {apply : Bool} {index : Nat} {r : Row Ciphertext}
variable {p p' : Progress Ciphertext} {rows done : List (Row Ciphertext)}

theorem rotateRow_renews (active : p.report.active = box.active)
    (rotates : rotateRow calls box true index r p = .ok p') :
    p'.report.active = box.active ∧ ∃ encrypted nonce,
      Renewed box r { r with ciphertext := encrypted, nonce } ∧
      (p'.table.rows = p.table.rows.map (·.put r.id encrypted nonce) ∨
        p'.table.rows = p.table.rows ∧ encrypted = r.ciphertext ∧ nonce = r.nonce) := by
  unfold rotateRow at rotates
  cases versioned : version r.nonce with
  | error cause => simp [versioned] at rotates
  | ok name =>
    cases opens : box.openCredential r.id.text r.ciphertext r.nonce with
    | error cause => simp [versioned, opens] at rotates
    | ok password =>
      simp only [versioned, opens, if_true] at rotates
      split at rotates
      next current =>
        obtain rfl := Except.ok.inj rotates
        refine ⟨active, r.ciphertext, r.nonce, ⟨rfl, ⟨password, opens, opens⟩, ?_⟩,
          .inr ⟨rfl, rfl, rfl⟩⟩
        rw [versioned, current, active]
      · split at rotates
        · cases rotates
        next encrypted nonce sealed =>
          split at rotates
          · obtain rfl := Except.ok.inj rotates
            obtain ⟨reopens, current⟩ : box.openCredential r.id.text encrypted nonce =
                .ok password ∧ version nonce = .ok box.active := open_sealed sealed rfl
            exact ⟨active, encrypted, nonce, ⟨rfl, ⟨password, opens, reopens⟩, current⟩, .inl rfl⟩
          · cases rotates

omit [Cipher Ciphertext] in
/-- The row with an identifier is the only one that its `UPDATE` reaches. -/
theorem put_split {front rest : List (Row Ciphertext)} {encrypted : Ciphertext} {nonce : Bytes}
    (keyed : ((front ++ r :: rest).map (·.id)).Nodup) :
    (front ++ r :: rest).map (·.put r.id encrypted nonce) =
      front ++ { r with ciphertext := encrypted, nonce } :: rest := by
  have others {qs : List (Row Ciphertext)} (different : ∀ q ∈ qs, q.id ≠ r.id) :
      qs.map (·.put r.id encrypted nonce) = qs :=
    (List.map_congr_left fun q member => if_neg (different q member)).trans (List.map_id' qs)
  simp only [List.map_append, List.map_cons, List.nodup_append, List.nodup_cons] at keyed
  obtain ⟨-, ⟨fresh, -⟩, apart⟩ := keyed
  rw [List.map_append, List.map_cons, others, others, Row.put, if_pos rfl]
  · exact fun q member same => fresh (same ▸ List.mem_map_of_mem member)
  · exact fun q member => apart q.id (List.mem_map_of_mem member) r.id List.mem_cons_self

/-- The rows that the loop has still to visit come out renewed, the others as they are. -/
theorem rotateRows_renews (active : p.report.active = box.active)
    (split : p.table.rows = done ++ rows)
    (rotates : rotateRows calls box true index rows p = .ok p') :
    ∃ rows', p'.table.rows = done ++ rows' ∧ List.Forall₂ (Renewed box) rows rows' := by
  induction rows generalizing index p done with
  | nil =>
    obtain rfl := Except.ok.inj rotates
    exact ⟨[], split, .nil⟩
  | cons r rest ih =>
    unfold rotateRows at rotates
    split at rotates
    · cases rotates
    next q rotated =>
      obtain ⟨active, encrypted, nonce, renewed, written⟩ := rotateRow_renews active rotated
      have split : q.table.rows = done ++ { r with ciphertext := encrypted, nonce } :: rest := by
        rcases written with updated | ⟨kept, rfl, rfl⟩
        · rw [updated, split]
          exact put_split (split ▸ p.table.keyed)
        · rw [kept, split]
      rw [List.append_cons] at split
      obtain ⟨rest', after, all⟩ := ih active split rotates
      exact ⟨_ :: rest', by rw [after, List.append_assoc]; rfl, .cons renewed all⟩

def reported : Except RotationReport (Progress Ciphertext) → RotationReport
  | .ok p => p.report
  | .error report => report

theorem rotateRow_current (active : p.report.active = box.active)
    (current : version r.nonce = .ok box.active) :
    (reported (rotateRow calls box apply index r p)).active = box.active ∧
      (reported (rotateRow calls box apply index r p)).changed = p.report.changed := by
  unfold rotateRow
  rw [current]
  cases box.openCredential r.id.text r.ciphertext r.nonce with
  | error cause => exact ⟨active, rfl⟩
  | ok password => simp [active, reported]

/-- Nothing is counted as changed while every row is under the active key. -/
theorem rotateRows_current (active : p.report.active = box.active)
    (current : ∀ r ∈ rows, version r.nonce = .ok box.active) :
    (reported (rotateRows calls box apply index rows p)).changed = p.report.changed := by
  induction rows generalizing index p with
  | nil => rfl
  | cons r rest ih =>
    obtain ⟨active', kept⟩ : (reported (rotateRow calls box apply index r p)).active = box.active ∧
        (reported (rotateRow calls box apply index r p)).changed = p.report.changed :=
      rotateRow_current active (current r List.mem_cons_self)
    unfold rotateRows
    cases rotated : rotateRow calls box apply index r p with
    | error report => rwa [rotated] at kept
    | ok q =>
      rw [rotated] at active' kept
      exact (ih active' fun r member => current r (List.mem_cons_of_mem _ member)).trans kept

variable {actor reason : Bytes} {table : Table Ciphertext}

inductive Ending (calls : Calls) (box : Box) (apply : Bool) (table : Table Ciphertext)
    (run : Rotated Ciphertext) : Prop
  | refused (report : run.report = emptyReport box apply) (error : run.error ≠ none)
      (after : run.after = table)
  | unchanged
      (report : run.report = reported
        (rotateRows calls box apply 0 table.rows ⟨emptyReport box apply, table⟩))
      (failed : run.error = none → apply = false) (after : run.after = table)
  | applied (p : Progress Ciphertext) (asked : apply = true)
      (rotated : rotateRows calls box apply 0 table.rows ⟨emptyReport box apply, table⟩ = .ok p)
      (report : run.report = p.report) (after : run.after = p.table)
      (error : run.error = none ∨ run.error = some .failed ∧ calls.commit = .lost true)

theorem rotateProviders_ending (calls : Calls) (box : Box) (actor reason : Bytes) (apply : Bool)
    (table : Table Ciphertext) :
    Ending calls box apply table (rotateProviders calls box actor reason apply table) := by
  unfold rotateProviders
  dsimp only
  split
  · exact .refused rfl (by simp) rfl
  split
  · exact .refused rfl (by simp) rfl
  split
  · exact .refused rfl (by simp) rfl
  split
  · exact .refused rfl (by simp) rfl
  next few =>
  rw [List.length_take] at few
  rw [List.take_of_length_le (by omega : table.rows.length ≤ 10001)]
  split
  next report rotated => exact .unchanged (congrArg reported rotated).symm (by simp) rfl
  next p rotated =>
    have counted := (congrArg reported rotated).symm
    cases apply with
    | false => exact .unchanged counted (fun _ => rfl) rfl
    | true =>
      simp only [Bool.not_true, Bool.false_eq_true, if_false]
      split
      · exact .unchanged counted (by simp) rfl
      cases committed : calls.commit with
      | done => exact .applied p rfl rotated rfl rfl (.inl rfl)
      | refused => exact .unchanged counted (by simp) rfl
      | lost applied =>
        cases applied with
        | false => exact .unchanged counted (by simp) rfl
        | true => exact .applied p rfl rotated rfl rfl (.inr ⟨rfl, committed⟩)

theorem rotateProviders_changed (current : ∀ r ∈ table.rows, version r.nonce = .ok box.active) :
    (rotateProviders calls box actor reason apply table).report.changed = 0 := by
  have counted : (reported (rotateRows calls box apply 0 table.rows
      ⟨emptyReport box apply, table⟩)).changed = 0 := rotateRows_current rfl current
  cases rotateProviders_ending calls box actor reason apply table with
  | refused report => rw [report]; rfl
  | unchanged report => rwa [report]
  | applied p _ rotated report =>
    rw [rotated] at counted
    rw [report]
    exact counted

theorem renewed_current {rows' : List (Row Ciphertext)}
    (renewed : List.Forall₂ (Renewed box) rows rows') :
    ∀ r ∈ rows', version r.nonce = .ok box.active := by
  induction renewed with
  | nil => exact List.forall_mem_nil _
  | cons first _ ih => exact List.forall_mem_cons.mpr ⟨first.current, ih⟩

theorem newRing_active {active : Bytes} {keys : Keyring}
    (accepted : newRing active keys = .ok box) : box.active = active := by
  unfold newRing at accepted
  split at accepted
  · split at accepted
    · cases accepted
    · split at accepted
      · obtain rfl := Except.ok.inj accepted
        rfl
      · cases accepted
  · cases accepted

/-- A ring opens what it and the boxes before it have sealed, and nothing under
another provider or nonce. A rotation keeps the passwords and leaves every one of
them under the active key. One that fails changes nothing, unless the answer to
its commit was lost. -/
theorem rotation_keeps_credentials {active : Bytes} {keys : Keyring}
    (accepted : newRing active keys = .ok box) :
    (∀ (id : UUIDText) (password : Bytes) (nonce : Nonce),
      ∃ (encrypted : Ciphertext) (stored : Bytes),
        box.sealCredential id.text password (some nonce) = .ok (encrypted, stored) ∧
        version stored = .ok active ∧
        box.openCredential id.text encrypted stored = .ok password) ∧
    (∀ (sealer opener : Box) (id id' : UUIDText) (password password' : Bytes) (nonce : Nonce)
        (encrypted : Ciphertext) (stored stored' : Bytes),
      sealer.sealCredential id.text password (some nonce) = .ok (encrypted, stored) →
      opener.openCredential id'.text encrypted stored' = .ok password' →
      id' = id ∧ stored' = stored ∧ password' = password) ∧
    (∀ sealer : Box,
      (∀ name key, sealer.keys.lookup name = some key → box.keys.lookup name = some key) →
      ∀ (id : UUIDText) (password : Bytes) (nonce : Nonce) (encrypted : Ciphertext)
        (stored : Bytes),
      sealer.sealCredential id.text password (some nonce) = .ok (encrypted, stored) →
      box.openCredential id.text encrypted stored = .ok password) ∧
    ∀ (calls : Calls) (actor reason : Bytes) (table : Table Ciphertext),
      ((rotateProviders calls box actor reason true table).error = none →
        List.Forall₂ (Renewed box) table.rows
          (rotateProviders calls box actor reason true table).after.rows ∧
        ∀ (calls' : Calls) (actor' reason' : Bytes) (apply' : Bool),
          (rotateProviders calls' box actor' reason' apply'
            (rotateProviders calls box actor reason true table).after).report.changed = 0) ∧
      ((rotateProviders calls box actor reason true table).error ≠ none →
        (rotateProviders calls box actor reason true table).after = table ∨
        calls.commit = .lost true ∧ List.Forall₂ (Renewed box) table.rows
          (rotateProviders calls box actor reason true table).after.rows) ∧
      (rotateProviders calls box actor reason false table).after = table := by
  have named := newRing_active accepted
  refine ⟨fun id password nonce => ?_, ?_, ?_, fun calls actor reason table => ?_⟩
  · obtain ⟨⟨encrypted, stored⟩, sealed⟩ : ∃ result : Ciphertext × Bytes,
        box.sealCredential id.text password (some nonce) = .ok result := by
      unfold Box.sealCredential
      dsimp only
      split <;> exact ⟨_, rfl⟩
    obtain ⟨opens, versioned⟩ : box.openCredential id.text encrypted stored = .ok password ∧
      version stored = .ok box.active := open_sealed sealed rfl
    exact ⟨encrypted, stored, sealed, named ▸ versioned, opens⟩
  · intro sealer opener id id' password password' nonce encrypted stored stored' sealed opens
    obtain ⟨same, rest⟩ := open_only (id.length.trans id'.length.symm) sealed opens
    exact ⟨UUIDText.ext_text same, rest⟩
  · intro sealer shared id password nonce encrypted stored sealed
    obtain ⟨key, found⟩ := Option.isSome_iff_exists.mp sealer.present
    exact (open_sealed sealed ((shared _ key found).trans found.symm)).1
  · have renewed {p : Progress Ciphertext} (rotated : rotateRows calls box true 0 table.rows
        ⟨emptyReport box true, table⟩ = .ok p) :
        List.Forall₂ (Renewed box) table.rows p.table.rows := by
      have start : (Progress.mk (emptyReport box true) table).table.rows = [] ++ table.rows := rfl
      obtain ⟨rows, after, all⟩ := rotateRows_renews rfl start rotated
      rwa [after]
    refine ⟨fun done => ?_, fun failed => ?_, ?_⟩
    · cases rotateProviders_ending calls box actor reason true table with
      | refused _ error => exact absurd done error
      | unchanged _ failed => cases failed done
      | applied p _ rotated _ after =>
        rw [after]
        refine ⟨renewed rotated, fun calls' actor' reason' apply' => ?_⟩
        exact rotateProviders_changed (renewed_current (renewed rotated))
    · cases rotateProviders_ending calls box actor reason true table with
      | refused _ _ after => exact .inl after
      | unchanged _ _ after => exact .inl after
      | applied p _ rotated _ after error =>
        rw [after]
        rcases error with none | ⟨-, lost⟩
        · exact absurd none failed
        · exact .inr ⟨lost, renewed rotated⟩
    · cases rotateProviders_ending calls box actor reason false table with
      | refused _ _ after => exact after
      | unchanged _ _ after => exact after
      | applied p asked => cases asked

end Rotation

section Witness

@[reducible] def transparent : Cipher (Bytes × Bytes × Bytes × Bytes) where
  encrypt key nonce plain aad := (key, nonce, plain, aad)
  decrypt key nonce sealed aad :=
    if sealed = (key, nonce, sealed.2.2.1, aad) then some sealed.2.2.1 else none
  decrypt_iff := by
    rintro key nonce aad plain ⟨key', nonce', plain', aad'⟩
    simp only [Option.ite_none_right_eq_some, Option.some.injEq, Prod.mk.injEq]
    constructor
    · rintro ⟨⟨rfl, rfl, -, rfl⟩, rfl⟩
      exact ⟨rfl, rfl, rfl, rfl⟩
    · rintro ⟨rfl, rfl, rfl, rfl⟩
      exact ⟨⟨rfl, rfl, trivial, rfl⟩, rfl⟩
  encrypt_inj := by
    rintro key key' nonce nonce' plain plain' aad aad' ⟨⟩
    exact ⟨rfl, rfl, rfl, rfl⟩

attribute [local instance] transparent

def zeroKey : Bytes := List.replicate 64 0x30

def oneKey : Bytes := List.replicate 64 0x31

theorem oldAndNew_distinct :
    ([(legacy, zeroKey), (ascii "k1", oneKey)].map Prod.fst).Nodup := by decide

def oldAndNew : Keyring := ⟨[(legacy, zeroKey), (ascii "k1", oneKey)], oldAndNew_distinct⟩

def firstText : Bytes := ascii "00000000-0000-0000-0000-000000000001"

theorem firstText_digits : (firstText.mapIdx uuidByte).all id = true := by decide

def firstProvider : UUIDText := ⟨firstText, rfl, firstText_digits⟩

def someNonce : Nonce := ⟨List.replicate 12 7, List.length_replicate⟩

def oldTable : Table (Bytes × Bytes × Bytes × Bytes) where
  rows := [⟨firstProvider,
    (List.replicate 32 0, someNonce.bytes, ascii "secret", firstProvider.text), someNonce.bytes⟩]
  keyed := List.nodup_singleton firstProvider

def smoothCalls (commit : Commit) : Calls where
  noRuntime := true
  begins := true
  configures := true
  selects := true
  random := fun _ => some someNonce
  updates := fun _ => true
  audits := true
  commit := commit

theorem ring_present : ([(legacy, List.replicate 32 (0 : UInt8)),
    (ascii "k1", List.replicate 32 0x11)].lookup (ascii "k1")).isSome = true := by decide

theorem ring_named : keyName (ascii "k1") = true := by decide

theorem ring_other : ascii "k1" ≠ legacy := by decide

def ringBox : Box where
  keys := [(legacy, List.replicate 32 0), (ascii "k1", List.replicate 32 0x11)]
  active := ascii "k1"
  legacyWriter := false
  present := ring_present
  named := ring_named
  format := ring_format ring_other

theorem ring_accepted : newRing (ascii "k1") oldAndNew = .ok ringBox := by rfl

/-- The old password is kept under the new key. -/
theorem rotation_keeps_credentials_of_oldTable :
    newRing (ascii "k1") oldAndNew = .ok ringBox ∧
    List.Forall₂ (Renewed ringBox) oldTable.rows (rotateProviders (smoothCalls .done) ringBox
      (ascii "operator") (ascii "yearly") true oldTable).after.rows := by
  obtain ⟨-, -, -, rotates⟩ :=
    @rotation_keeps_credentials _ transparent _ _ _ ring_accepted
  obtain ⟨done, -⟩ := rotates (smoothCalls .done) (ascii "operator") (ascii "yearly") oldTable
  exact ⟨ring_accepted, (done (by decide)).1⟩

/-- A commit whose answer was lost makes the run fail and has changed the row. -/
theorem failed_rotation_changes_row :
    (rotateProviders (smoothCalls (.lost true)) ringBox (ascii "operator") (ascii "yearly") true
      oldTable).error = some .failed ∧
    (rotateProviders (smoothCalls (.lost true)) ringBox (ascii "operator") (ascii "yearly") true
      oldTable).after.rows.map (·.nonce) ≠ oldTable.rows.map (·.nonce) := by
  decide

end Witness

end RelayTale.Encryption
