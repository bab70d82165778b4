import Mathlib.Algebra.GroupWithZero.Nat
import Mathlib.Data.List.Basic

/-!
# Fields behind their lengths

A field is written behind the eight bytes of its length, the highest first. The
fields that were written one after the other can be told apart, whatever bytes
they hold and however many there are.
-/

namespace Framing

/-- A number below `2 ^ 64` in eight bytes. -/
def bigEndian (n : Nat) : List UInt8 :=
  (List.range 8).map fun i => UInt8.ofNat (n / 256 ^ (7 - i))

def value (bytes : List UInt8) : Nat := bytes.foldl (fun n byte => 256 * n + byte.toNat) 0

def frame (field : List UInt8) : List UInt8 := bigEndian field.length ++ field

def frames (fields : List (List UInt8)) : List UInt8 := fields.flatMap frame

theorem bigEndian_length (n : Nat) : (bigEndian n).length = 8 := by
  simp [bigEndian]

theorem value_bigEndian {n : Nat} (small : n < 2 ^ 64) : value (bigEndian n) = n := by
  have digits : bigEndian n = [UInt8.ofNat (n / 256 ^ 7), UInt8.ofNat (n / 256 ^ 6),
      UInt8.ofNat (n / 256 ^ 5), UInt8.ofNat (n / 256 ^ 4), UInt8.ofNat (n / 256 ^ 3),
      UInt8.ofNat (n / 256 ^ 2), UInt8.ofNat (n / 256 ^ 1), UInt8.ofNat (n / 256 ^ 0)] := rfl
  rw [digits]
  simp only [value, List.foldl_cons, List.foldl_nil, UInt8.toNat_ofNat']
  omega

theorem bigEndian_injective {n m : Nat} (small : n < 2 ^ 64) (small' : m < 2 ^ 64)
    (same : bigEndian n = bigEndian m) : n = m := by
  rw [← value_bigEndian small, same, value_bigEndian small']

theorem frame_append_injective {field field' rest rest' : List UInt8}
    (small : field.length < 2 ^ 64) (small' : field'.length < 2 ^ 64)
    (same : frame field ++ rest = frame field' ++ rest') : field = field' ∧ rest = rest' := by
  simp only [frame, List.append_assoc] at same
  have lengths : (bigEndian field.length).length = (bigEndian field'.length).length := by
    rw [bigEndian_length, bigEndian_length]
  obtain ⟨heads, tails⟩ := List.append_inj same lengths
  exact List.append_inj tails (bigEndian_injective small small' heads)

theorem frame_ne_nil (field : List UInt8) : frame field ≠ [] := by
  have length := bigEndian_length field.length
  intro empty
  have none := congrArg List.length empty
  rw [frame, List.length_append, List.length_nil] at none
  omega

theorem frames_injective {fields fields' : List (List UInt8)}
    (small : ∀ field ∈ fields, field.length < 2 ^ 64)
    (small' : ∀ field ∈ fields', field.length < 2 ^ 64)
    (same : frames fields = frames fields') : fields = fields' := by
  induction fields generalizing fields' with
  | nil =>
    cases fields' with
    | nil => rfl
    | cons field' fields' =>
      simp only [frames, List.flatMap_nil, List.flatMap_cons] at same
      exact absurd (List.append_eq_nil_iff.mp same.symm).1 (frame_ne_nil field')
  | cons field fields ih =>
    cases fields' with
    | nil =>
      simp only [frames, List.flatMap_nil, List.flatMap_cons] at same
      exact absurd (List.append_eq_nil_iff.mp same).1 (frame_ne_nil field)
    | cons field' fields' =>
      obtain ⟨first, others⟩ := List.forall_mem_cons.mp small
      obtain ⟨first', others'⟩ := List.forall_mem_cons.mp small'
      simp only [frames, List.flatMap_cons] at same
      obtain ⟨rfl, rest⟩ := frame_append_injective first first' same
      rw [ih others others' rest]

end Framing
