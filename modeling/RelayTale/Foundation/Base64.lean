import Mathlib.Data.List.Basic

/-!
# Base 64 without padding

The alphabet for URLs. Line ends are skipped when a text is read.
-/

namespace Base64

def alphabet : List UInt8 :=
  "ABCDEFGHIJKLMNOPQRSTUVWXYZabcdefghijklmnopqrstuvwxyz0123456789-_".toList.map
    fun char => UInt8.ofNat char.toNat

def digit (value : Nat) : UInt8 := alphabet.getD value 0

def valueOf (digit : UInt8) : Option Nat := alphabet.findIdx? (· = digit)

def encode : List UInt8 → List UInt8
  | [] => []
  | [a] => [digit (a.toNat / 4), digit (a.toNat % 4 * 16)]
  | [a, b] =>
      [digit (a.toNat / 4), digit (a.toNat % 4 * 16 + b.toNat / 16), digit (b.toNat % 16 * 4)]
  | a :: b :: c :: rest =>
      digit (a.toNat / 4) :: digit (a.toNat % 4 * 16 + b.toNat / 16) ::
        digit (b.toNat % 16 * 4 + c.toNat / 64) :: digit (c.toNat % 64) :: encode rest

def decodeDigits : List UInt8 → Option (List UInt8)
  | [] => some []
  | [_] => none
  | [x, y] => do
      let x ← valueOf x
      let y ← valueOf y
      some [UInt8.ofNat (x * 4 + y / 16)]
  | [x, y, z] => do
      let x ← valueOf x
      let y ← valueOf y
      let z ← valueOf z
      some [UInt8.ofNat (x * 4 + y / 16), UInt8.ofNat (y % 16 * 16 + z / 4)]
  | x :: y :: z :: w :: rest => do
      let x ← valueOf x
      let y ← valueOf y
      let z ← valueOf z
      let w ← valueOf w
      let bytes ← decodeDigits rest
      some (UInt8.ofNat (x * 4 + y / 16) :: UInt8.ofNat (y % 16 * 16 + z / 4) ::
        UInt8.ofNat (z % 4 * 64 + w) :: bytes)

def decode (text : List UInt8) : Option (List UInt8) :=
  decodeDigits (text.filter fun byte => byte ≠ 10 && byte ≠ 13)

theorem valueOf_digit (value : Nat) (small : value < 64) : valueOf (digit value) = some value := by
  have all : ∀ value < 64, valueOf (digit value) = some value := by decide +kernel
  exact all value small

theorem ofNat_byte (byte : UInt8) {value : Nat} (same : value = byte.toNat) :
    UInt8.ofNat value = byte := by rw [same, UInt8.ofNat_toNat]

theorem decodeDigits_encode (bytes : List UInt8) : decodeDigits (encode bytes) = some bytes := by
  induction bytes using encode.induct with
  | case1 => rfl
  | case2 a =>
    have bound := a.toNat_lt
    simp only [encode, decodeDigits, valueOf_digit (a.toNat / 4) (by omega),
      valueOf_digit (a.toNat % 4 * 16) (by omega), Option.bind_eq_bind, Option.bind_some]
    rw [ofNat_byte a (by omega)]
  | case3 a b =>
    have bound := a.toNat_lt
    have bound' := b.toNat_lt
    simp only [encode, decodeDigits, valueOf_digit (a.toNat / 4) (by omega),
      valueOf_digit (a.toNat % 4 * 16 + b.toNat / 16) (by omega),
      valueOf_digit (b.toNat % 16 * 4) (by omega), Option.bind_eq_bind, Option.bind_some]
    rw [ofNat_byte a (by omega), ofNat_byte b (by omega)]
  | case4 a b c rest ih =>
    have bound := a.toNat_lt
    have bound' := b.toNat_lt
    have bound'' := c.toNat_lt
    simp only [encode, decodeDigits, valueOf_digit (a.toNat / 4) (by omega),
      valueOf_digit (a.toNat % 4 * 16 + b.toNat / 16) (by omega),
      valueOf_digit (b.toNat % 16 * 4 + c.toNat / 64) (by omega),
      valueOf_digit (c.toNat % 64) (by omega), ih, Option.bind_eq_bind, Option.bind_some]
    rw [ofNat_byte a (by omega), ofNat_byte b (by omega),
      ofNat_byte c (by omega)]

theorem forall_encode {holds : UInt8 → Prop} (digits : ∀ value < 64, holds (digit value))
    (bytes : List UInt8) : ∀ byte ∈ encode bytes, holds byte := by
  induction bytes using encode.induct with
  | case1 => simp [encode]
  | case2 a =>
    have bound := a.toNat_lt
    simp only [encode, List.forall_mem_cons]
    exact ⟨digits _ (by omega), digits _ (by omega), by simp⟩
  | case3 a b =>
    have bound := a.toNat_lt
    have bound' := b.toNat_lt
    simp only [encode, List.forall_mem_cons]
    exact ⟨digits _ (by omega), digits _ (by omega), digits _ (by omega), by simp⟩
  | case4 a b c rest ih =>
    have bound := a.toNat_lt
    have bound' := b.toNat_lt
    have bound'' := c.toNat_lt
    simp only [encode, List.forall_mem_cons]
    exact ⟨digits _ (by omega), digits _ (by omega), digits _ (by omega), digits _ (by omega), ih⟩

/-- What was written is read back. -/
theorem decode_encode (bytes : List UInt8) : decode (encode bytes) = some bytes := by
  have visible : ∀ byte ∈ encode bytes, byte ≠ 10 ∧ byte ≠ 13 :=
    forall_encode (by decide +kernel) bytes
  unfold decode
  rw [List.filter_eq_self.mpr fun byte member => by simp [visible byte member]]
  exact decodeDigits_encode bytes

theorem encode_length (bytes : List UInt8) :
    (encode bytes).length = (4 * bytes.length + 2) / 3 := by
  induction bytes using encode.induct with
  | case1 => rfl
  | case2 a => simp [encode]
  | case3 a b => simp [encode]
  | case4 a b c rest ih =>
    simp only [encode, List.length_cons, ih]
    omega

end Base64
