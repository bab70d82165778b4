import RelayTale.Foundation.Guard
import RelayTale.Foundation.Text

/-!
# Sealed credentials

The password of a provider is stored encrypted, with a nonce that names the key.
A nonce of twelve bytes is of the first format and its key is called `legacy`; a
longer one starts with `RTK1`, the length of the name and the name. The provider
and the name are authenticated with the password. AES-GCM is taken to be an
ideal authenticated cipher.
-/

namespace RelayTale.Encryption

open Guard Text

/-- An ideal authenticated cipher: what was sealed opens only under the key, the
nonce and the additional data it was sealed with. -/
class Cipher (Ciphertext : Type) where
  encrypt : (key nonce plain aad : Bytes) → Ciphertext
  decrypt : (key nonce : Bytes) → Ciphertext → (aad : Bytes) → Option Bytes
  decrypt_iff {key nonce aad plain : Bytes} {sealed : Ciphertext} :
    decrypt key nonce sealed aad = some plain ↔ sealed = encrypt key nonce plain aad
  encrypt_inj {key key' nonce nonce' plain plain' aad aad' : Bytes} :
    encrypt key nonce plain aad = encrypt key' nonce' plain' aad' →
      key = key' ∧ nonce = nonce' ∧ plain = plain' ∧ aad = aad'

inductive CredentialError
  | masterKey
  | invalidKeyring
  | activeMissing
  | decrypt
  | random
  deriving DecidableEq, Repr

section Keys

def nameByte (byte : UInt8) : Bool :=
  within 0x41 0x5A byte || within 0x61 0x7A byte || within 0x30 0x39 byte ||
    byte = 0x5F || byte = 0x2D

/-- The expression `^[A-Za-z0-9_-]{1,64}$`. -/
def keyName (name : Bytes) : Bool :=
  decide (1 ≤ name.length ∧ name.length ≤ 64) && name.all nameByte

/-- The key of the cipher that `aead` returns. -/
def aead (encoded : Bytes) : Except CredentialError Bytes :=
  match hexDecode encoded with
  | some key => if key.length = 32 then .ok key else .error .masterKey
  | none => .error .masterKey

def legacy : Bytes := ascii "legacy"

structure Keyring where
  entries : List (Bytes × Bytes)
  distinct : (entries.map Prod.fst).Nodup

/-- The keys of a process and the name of the one it writes with. -/
structure Box where
  keys : List (Bytes × Bytes)
  active : Bytes
  legacyWriter : Bool
  present : (keys.lookup active).isSome = true
  named : keyName active = true
  format : legacyWriter = true ↔ active = legacy

theorem keyName_legacy : keyName legacy = true := by decide

theorem single_present (key : Bytes) : ([(legacy, key)].lookup legacy).isSome = true := by simp

theorem ring_format {active : Bytes} (other : active ≠ legacy) :
    false = true ↔ active = legacy := by
  simp [other]

def Box.single (key : Bytes) : Box where
  keys := [(legacy, key)]
  active := legacy
  legacyWriter := true
  present := single_present key
  named := keyName_legacy
  format := ⟨fun _ => rfl, fun _ => rfl⟩

def new (encoded : Bytes) : Except CredentialError Box := (aead encoded).map Box.single

/-- The body of the loop of `NewRing`. -/
def ringKey (entry : Bytes × Bytes) : Except CredentialError (Bytes × Bytes) :=
  if keyName entry.1 then
    match aead entry.2 with
    | .ok key => .ok (entry.1, key)
    | .error _ => .error .invalidKeyring
  else .error .invalidKeyring

def newRing (active : Bytes) (keys : Keyring) : Except CredentialError Box :=
  if valid : keyName active = true ∧ active ≠ legacy ∧
      1 ≤ keys.entries.length ∧ keys.entries.length ≤ 16 then
    match keys.entries.mapM ringKey with
    | .error cause => .error cause
    | .ok keys =>
        if present : (keys.lookup active).isSome = true then
          .ok ⟨keys, active, false, present, valid.1, ring_format valid.2.1⟩
        else .error .activeMissing
  else .error .invalidKeyring

end Keys

def version (nonce : Bytes) : Except CredentialError Bytes :=
  if nonce.length = 12 then .ok legacy
  else if nonce.length < 18 ∨ nonce.take 4 ≠ ascii "RTK1" then .error .decrypt
  else
    let n := (nonce.getD 4 0).toNat
    if n < 1 ∨ 64 < n ∨ nonce.length ≠ 5 + n + 12 then .error .decrypt
    else
      let id := (nonce.drop 5).take n
      if !keyName id ∨ id = legacy then .error .decrypt else .ok id

/-- Twelve bytes of `crypto/rand`. -/
structure Nonce where
  bytes : Bytes
  length : bytes.length = 12

def versionedData (id name : Bytes) : Bytes :=
  id ++ [0] ++ ascii "relaytale.credential/RTK1/" ++ name

def envelope (name nonce : Bytes) : Bytes :=
  ascii "RTK1" ++ [UInt8.ofNat name.length] ++ name ++ nonce

section Credentials

variable {Ciphertext : Type} [Cipher Ciphertext]

/-- `Box.Seal`; `random` is what `rand.Read` delivers. -/
def Box.sealCredential (b : Box) (id password : Bytes) (random : Option Nonce) :
    Except CredentialError (Ciphertext × Bytes) :=
  let key := (b.keys.lookup b.active).get b.present
  match random with
  | none => .error .random
  | some nonce =>
      if b.legacyWriter then .ok (Cipher.encrypt key nonce.bytes password id, nonce.bytes)
      else
        .ok (Cipher.encrypt key nonce.bytes password (versionedData id b.active),
          envelope b.active nonce.bytes)

/-- `Box.Open`. -/
def Box.openCredential (b : Box) (id : Bytes) (encrypted : Ciphertext) (nonce : Bytes) :
    Except CredentialError Bytes :=
  match version nonce with
  | .error _ => .error .decrypt
  | .ok version =>
      match b.keys.lookup version with
      | none => .error .decrypt
      | some key =>
          let aad := if version ≠ legacy then versionedData id version else id
          let nonce := if version ≠ legacy then nonce.drop (nonce.length - 12) else nonce
          demand (Cipher.decrypt key nonce encrypted aad) .decrypt

end Credentials

section Format

variable {name nonce nonce' id id' : Bytes}

theorem keyName_length (named : keyName name = true) : 1 ≤ name.length ∧ name.length ≤ 64 := by
  simp only [keyName, Bool.and_eq_true, decide_eq_true_eq] at named
  exact named.1

theorem envelope_length : (envelope name nonce).length = 5 + name.length + nonce.length := by
  simp only [envelope, List.length_append, List.length_singleton]
  rw [show (ascii "RTK1").length = 4 from rfl]

theorem envelope_lengthByte (short : name.length ≤ 64) :
    ((envelope name nonce).getD 4 0).toNat = name.length := by
  have byte : (envelope name nonce).getD 4 0 = UInt8.ofNat name.length := by
    simp [envelope, show ascii "RTK1" = [82, 84, 75, 49] from rfl]
  rw [byte, UInt8.toNat_ofNat']
  omega

theorem envelope_name : ((envelope name nonce).drop 5).take name.length = name := by
  have header : (ascii "RTK1" ++ [UInt8.ofNat name.length]).length = 5 := rfl
  rw [envelope, List.append_assoc, List.drop_left' header, List.take_left' rfl]

theorem envelope_nonce (length : nonce.length = 12) :
    (envelope name nonce).drop ((envelope name nonce).length - 12) = nonce := by
  have header : (ascii "RTK1" ++ [UInt8.ofNat name.length] ++ name).length =
      (envelope name nonce).length - 12 := by
    rw [envelope_length]
    simp only [List.length_append, List.length_singleton, show (ascii "RTK1").length = 4 from rfl]
    omega
  exact List.drop_left' header

theorem version_envelope (named : keyName name = true) (other : name ≠ legacy)
    (length : nonce.length = 12) : version (envelope name nonce) = .ok name := by
  obtain ⟨nonempty, short⟩ := keyName_length named
  have total : (envelope name nonce).length = 5 + name.length + nonce.length := envelope_length
  have magic : (envelope name nonce).take 4 = ascii "RTK1" := rfl
  unfold version
  rw [if_neg (by omega), if_neg (by simp only [magic, ne_eq, not_true, or_false]; omega)]
  simp only [envelope_lengthByte short, envelope_name, named, other]
  rw [if_neg (by omega)]
  simp

theorem version_nonce (length : nonce.length = 12) : version nonce = .ok legacy := by
  rw [version, if_pos length]

/-- A nonce that names a key other than `legacy` is the envelope of that key. -/
theorem version_eq_ok (versioned : version nonce = .ok name) :
    name = legacy ∧ nonce.length = 12 ∨
      keyName name = true ∧ name ≠ legacy ∧
        ∃ raw : Bytes, raw.length = 12 ∧ nonce = envelope name raw := by
  unfold version at versioned
  split at versioned
  next length => exact .inl ⟨(Except.ok.inj versioned).symm, length⟩
  split at versioned
  · cases versioned
  next magic =>
  dsimp only at versioned
  split at versioned
  · cases versioned
  next lengths =>
  split at versioned
  · cases versioned
  next named =>
  obtain rfl := Except.ok.inj versioned
  simp only [not_or, not_lt, not_not, Bool.not_eq_true] at magic lengths named
  refine .inr ⟨by simpa using named.1, named.2, nonce.drop (5 + (nonce.getD 4 0).toNat), ?_, ?_⟩
  · rw [List.length_drop]
    omega
  · generalize width : (nonce.getD 4 0).toNat = n at *
    have length : ((nonce.drop 5).take n).length = n := by
      rw [List.length_take, List.length_drop]
      omega
    have byte : nonce[4]?.toList = [UInt8.ofNat n] := by
      rw [← width, UInt8.ofNat_toNat, List.getD_eq_getElem?_getD]
      rw [List.getElem?_eq_getElem (by omega)]
      rfl
    have tail : (nonce.drop 5).take n ++ nonce.drop (5 + n) = nonce.drop 5 := by
      rw [← List.drop_drop, List.take_append_drop]
    rw [envelope, length, ← magic.2, List.append_assoc, tail, ← byte, ← List.take_add_one,
      List.take_append_drop]

end Format

section Opening

variable {Ciphertext : Type} [Cipher Ciphertext] {b sealer opener : Box} {name key : Bytes}
variable {encrypted : Ciphertext} {id id' password password' stored stored' : Bytes}

def additional (name id : Bytes) : Bytes := if name ≠ legacy then versionedData id name else id

def rawNonce (stored : Bytes) : Bytes := stored.drop (stored.length - 12)

theorem openCredential_eq_ok :
    b.openCredential id encrypted stored = .ok password ↔
      ∃ name key, version stored = .ok name ∧ b.keys.lookup name = some key ∧
        encrypted = Cipher.encrypt key (rawNonce stored) password (additional name id) := by
  unfold Box.openCredential
  cases versioned : version stored with
  | error cause => simp
  | ok name =>
    cases found : b.keys.lookup name with
    | none => simp [found]
    | some key =>
      have raw : (if name ≠ legacy then stored.drop (stored.length - 12) else stored) =
          rawNonce stored := by
        split
        · rfl
        next first =>
          -- A nonce of the first format is twelve bytes as it stands.
          rcases version_eq_ok versioned with ⟨-, length⟩ | ⟨-, other, -⟩
          · rw [rawNonce, length, Nat.sub_self, List.drop_zero]
          · exact absurd other first
      simp only [found, raw, demand_eq_ok, Cipher.decrypt_iff]
      simp [additional, found]

theorem sealCredential_eq_ok {random : Option Nonce}
    (sealed : b.sealCredential id password random = .ok (encrypted, stored)) :
    ∃ key, b.keys.lookup b.active = some key ∧ version stored = .ok b.active ∧
      encrypted = Cipher.encrypt key (rawNonce stored) password (additional b.active id) := by
  unfold Box.sealCredential at sealed
  cases random with
  | none => cases sealed
  | some nonce =>
    refine ⟨(b.keys.lookup b.active).get b.present, (Option.some_get _).symm, ?_⟩
    dsimp only at sealed
    split at sealed
    next writer =>
      have first := b.format.mp writer
      obtain ⟨rfl, rfl⟩ := Prod.mk.inj (Except.ok.inj sealed)
      refine ⟨(version_nonce nonce.length).trans (congrArg _ first.symm), ?_⟩
      rw [rawNonce, nonce.length, Nat.sub_self, List.drop_zero, additional,
        if_neg (not_not.mpr first)]
    next writer =>
      have other : b.active ≠ legacy := fun first => writer (b.format.mpr first)
      obtain ⟨rfl, rfl⟩ := Prod.mk.inj (Except.ok.inj sealed)
      refine ⟨version_envelope b.named other nonce.length, ?_⟩
      rw [rawNonce, envelope_nonce nonce.length, additional, if_pos other]

theorem open_sealed {random : Option Nonce}
    (sealed : sealer.sealCredential id password random = .ok (encrypted, stored))
    (shared : opener.keys.lookup sealer.active = sealer.keys.lookup sealer.active) :
    opener.openCredential id encrypted stored = .ok password ∧
      version stored = .ok sealer.active := by
  obtain ⟨key, found, versioned, rfl⟩ := sealCredential_eq_ok sealed
  exact ⟨openCredential_eq_ok.mpr ⟨_, key, versioned, shared.trans found, rfl⟩, versioned⟩

theorem versionedData_length : (versionedData id name).length = id.length + 27 + name.length := by
  simp only [versionedData, List.length_append, List.length_singleton]
  rw [show (ascii "relaytale.credential/RTK1/").length = 26 from rfl]

/-- The provider and the name can be read from what is authenticated. -/
theorem additional_inj {name' : Bytes} (length : id.length = id'.length)
    (same : additional name id = additional name' id') : name = name' ∧ id = id' := by
  unfold additional at same
  split at same <;> split at same
  · simp only [versionedData, List.append_assoc] at same
    obtain ⟨ids, rest⟩ := List.append_inj same length
    exact ⟨List.append_cancel_left (List.append_cancel_left rest), ids⟩
  · have lengths := congrArg List.length same
    rw [versionedData_length] at lengths
    omega
  · have lengths := congrArg List.length same
    rw [versionedData_length] at lengths
    omega
  next first first' => exact ⟨(not_not.mp first).trans (not_not.mp first').symm, same⟩

theorem stored_eq (versioned : version stored = .ok name) (versioned' : version stored' = .ok name)
    (raw : rawNonce stored = rawNonce stored') : stored = stored' := by
  rcases version_eq_ok versioned with ⟨first, length⟩ | ⟨-, other, nonce, length, rfl⟩ <;>
    rcases version_eq_ok versioned' with ⟨first', length'⟩ | ⟨-, other', nonce', length', rfl⟩
  · simpa only [rawNonce, length, length', Nat.sub_self, List.drop_zero] using raw
  · exact absurd first other'
  · exact absurd first' other
  · simp only [rawNonce, envelope_nonce length, envelope_nonce length'] at raw
    rw [raw]

/-- What was sealed opens neither for another provider nor under another nonce. -/
theorem open_only {random : Option Nonce} (length : id.length = id'.length)
    (sealed : sealer.sealCredential id password random = .ok (encrypted, stored))
    (opens : opener.openCredential id' encrypted stored' = .ok password') :
    id' = id ∧ stored' = stored ∧ password' = password := by
  obtain ⟨key, -, versioned, rfl⟩ := sealCredential_eq_ok sealed
  obtain ⟨name, key', versioned', -, same⟩ := openCredential_eq_ok.mp opens
  obtain ⟨-, raw, passwords, data⟩ := Cipher.encrypt_inj same
  obtain ⟨rfl, rfl⟩ := additional_inj length data
  exact ⟨rfl, stored_eq versioned' versioned raw.symm, passwords.symm⟩

end Opening

end RelayTale.Encryption
