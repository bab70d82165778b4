import Mathlib.Data.List.Lex
import Mathlib.Data.List.Sort
import Mathlib.Data.Nat.Basic

/-!
# Texts in the order of their bytes

The order in which strings are compared byte by byte: the first difference
decides, and a text stands before its continuations.
-/

namespace ByteOrder

/-- A text by the numbers of its bytes, which are ordered as lists of numbers are. -/
def rank (text : List UInt8) : List Nat := text.map UInt8.toNat

def AtMost (text other : List UInt8) : Prop := rank text ≤ rank other

def Before (text other : List UInt8) : Prop := rank text < rank other

instance : DecidableRel AtMost := fun text other =>
  inferInstanceAs (Decidable (rank text ≤ rank other))

instance : DecidableRel Before := fun text other =>
  inferInstanceAs (Decidable (rank text < rank other))

variable {text other third : List UInt8}

theorem rank_injective (same : rank text = rank other) : text = other :=
  List.map_injective_iff.mpr (fun _ _ => UInt8.toNat_inj.mp) same

instance : Std.Total AtMost := ⟨fun text other => le_total (rank text) (rank other)⟩

instance : IsTrans (List UInt8) AtMost := ⟨fun _ _ _ first second => le_trans first second⟩

instance : IsTrans (List UInt8) Before := ⟨fun _ _ _ first second => lt_trans first second⟩

instance : Std.Antisymm AtMost :=
  ⟨fun _ _ first second => rank_injective (le_antisymm first second)⟩

instance : Std.Irrefl Before := ⟨fun text => lt_irrefl (rank text)⟩

instance : Std.Asymm Before := ⟨fun _ _ first => lt_asymm first⟩

theorem not_before : ¬ Before text other ↔ AtMost other text := not_lt

theorem not_atMost : ¬ AtMost text other ↔ Before other text := not_le

theorem before_of_atMost_of_ne (atMost : AtMost text other) (different : text ≠ other) :
    Before text other :=
  lt_of_le_of_ne atMost fun same => different (rank_injective same)

theorem Before.trans_atMost (first : Before text other) (second : AtMost other third) :
    Before text third := lt_of_lt_of_le first second

theorem sorted_of_adjacent {texts : List (List UInt8)} (sorted : texts.Pairwise AtMost)
    (apart : ∀ pair ∈ texts.zip texts.tail, pair.1 ≠ pair.2) : texts.Pairwise Before := by
  induction texts with
  | nil => exact .nil
  | cons first rest ih =>
    obtain ⟨least, sorted⟩ := List.pairwise_cons.mp sorted
    cases rest with
    | nil => exact List.pairwise_singleton _ _
    | cons second rest =>
      have apart' : ∀ pair ∈ (second :: rest).zip rest, pair.1 ≠ pair.2 := fun pair member =>
        apart pair (List.mem_cons_of_mem _ member)
      have next : Before first second := before_of_atMost_of_ne (least second List.mem_cons_self)
        (apart (first, second) List.mem_cons_self)
      refine List.pairwise_cons.mpr ⟨fun later member => ?_, ih sorted apart'⟩
      rcases List.mem_cons.mp member with rfl | further
      · exact next
      · exact next.trans_atMost ((List.pairwise_cons.mp sorted).1 later further)

theorem eq_of_sorted {texts others : List (List UInt8)} (sorted : texts.Pairwise Before)
    (sorted' : others.Pairwise Before) (same : ∀ text, text ∈ texts ↔ text ∈ others) :
    texts = others := sorted.eq_of_mem_iff sorted' same

end ByteOrder
