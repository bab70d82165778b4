import Mathlib.Data.List.Flatten

/-!
# Sequences of reads

A reader hands out a byte string in pieces, as many bytes at a time as it likes,
and reports its end or a fault with the last piece, which can be empty.
-/

universe u v

structure Reads (α : Type u) (Fault : Type v) where
  chunks : List (List α)
  last : List α
  fault : Option Fault

namespace Reads

variable {α : Type u} {Fault : Type v}

def content (r : Reads α Fault) : List α := r.chunks.flatten ++ r.last

/-- The whole was read to its end, and no read returned nothing without an error. -/
structure Splits (r : Reads α Fault) (whole : List α) : Prop where
  content : r.content = whole
  complete : r.fault = none
  progress : ∀ chunk ∈ r.chunks, chunk ≠ []

theorem Splits.joined {r : Reads α Fault} {whole : List α} (splits : r.Splits whole) :
    r.chunks.flatten ++ r.last = whole := splits.content

end Reads
