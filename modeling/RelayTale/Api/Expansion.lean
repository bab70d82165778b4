import RelayTale.Api.Templates

/-!
# Expansion is a single substitution

An accepted source can be read in one way only as literals with placeholders in
between, and the expansion puts the values in their places. Nothing of a value is
scanned again, whatever it holds.
-/

namespace RelayTale.Api

open Guard Cut

section Segments

/-- The text of literals that are each followed by a placeholder, and of the last literal. -/
def sourceOf (pieces : List (Bytes × Bytes)) (last : Bytes) : Bytes :=
  pieces.flatMap (fun piece => piece.1 ++ (opening ++ (piece.2 ++ closing))) ++ last

def filled (value : Bytes → Bytes) (pieces : List (Bytes × Bytes)) (last : Bytes) : Bytes :=
  pieces.flatMap (fun piece => piece.1 ++ value piece.2) ++ last

/-- A way to read a source as literals and placeholders of declared names. -/
structure Segmented (names : List Bytes) (source : Bytes) (pieces : List (Bytes × Bytes))
    (last : Bytes) : Prop where
  text : source = sourceOf pieces last
  literals : ∀ piece ∈ pieces, ¬opening <:+: piece.1
  rest : ¬opening <:+: last
  declared : ∀ piece ∈ pieces, piece.2 ∈ names

variable {names : List Bytes} {source last literal name : Bytes} {html : Bool} {fuel : Nat}
  {pieces : List (Bytes × Bytes)} {result : Bytes × List Bytes}

theorem sourceOf_cons :
    sourceOf ((literal, name) :: pieces) last =
      literal ++ (opening ++ (name ++ (closing ++ sourceOf pieces last))) := by
  simp [sourceOf, List.append_assoc]

theorem filled_cons {value : Bytes → Bytes} :
    filled value ((literal, name) :: pieces) last =
      literal ++ (value name ++ filled value pieces last) := by
  simp [filled, List.append_assoc]

theorem brace_notMem (named : templateName name = true) : 123 ∉ name ∧ 125 ∉ name := by
  have plain : ∀ byte ∈ name, byte ≠ 123 ∧ byte ≠ 125 := by
    intro byte member
    cases name with
    | nil => cases member
    | cons first rest =>
      simp only [templateName, lowercase, decimal, Bool.and_eq_true, Bool.or_eq_true,
        decide_eq_true_eq, List.all_eq_true] at named
      rcases List.mem_cons.mp member with rfl | later
      · exact ⟨by rintro rfl; exact absurd named.1.2 (by decide),
          by rintro rfl; exact absurd named.1.2 (by decide)⟩
      · have allowed := named.2 byte later
        exact ⟨by rintro rfl; exact absurd allowed (by decide),
          by rintro rfl; exact absurd allowed (by decide)⟩
  exact ⟨fun member => (plain _ member).1 rfl, fun member => (plain _ member).2 rfl⟩

end Segments

section Scanning

variable {names : List Bytes} {source last literal name : Bytes} {html : Bool} {fuel : Nat}
  {pieces : List (Bytes × Bytes)} {result : Bytes × List Bytes}

/-- What `templateSource` has accepted, by its first placeholder. -/
theorem templateSourceFrom_ok
    (accepted : templateSourceFrom names html fuel source = .ok result) :
    ∃ fuel', fuel = fuel' + 1 ∧
      (cut opening source = none ∨
        ∃ before after name rest others, cut opening source = some (before, after) ∧
          cut closing after = some (name, rest) ∧ name ∈ names ∧
          templateSourceFrom names html fuel' rest = .ok others) := by
  cases fuel with
  | zero => cases accepted
  | succ fuel =>
    refine ⟨fuel, rfl, ?_⟩
    unfold templateSourceFrom at accepted
    split at accepted
    next none' => exact .inl none'
    next before after found =>
      simp only [do_eq_ok, require_eq_ok, demand_eq_ok] at accepted
      obtain ⟨-, -, ⟨name, rest⟩, closed, -, declared, others, later, -⟩ := accepted
      exact .inr ⟨before, after, name, rest, others, found, closed, declared, later⟩

theorem segmented_of_accepted
    (accepted : templateSourceFrom names html fuel source = .ok result) :
    ∃ pieces last, Segmented names source pieces last := by
  induction fuel generalizing source result with
  | zero => cases accepted
  | succ fuel ih =>
    obtain ⟨fuel', same, read⟩ := templateSourceFrom_ok accepted
    obtain rfl := Nat.succ.inj same
    rcases read with none' | ⟨before, after, name, rest, others, found, closed, declared, later⟩
    · exact ⟨[], source, rfl, List.forall_mem_nil _, (cut_eq_none (by decide)).mp none',
        List.forall_mem_nil _⟩
    · obtain ⟨pieces, last, segmented⟩ := ih later
      refine ⟨(before, name) :: pieces, last, ?_, ?_, segmented.rest, ?_⟩
      · rw [sourceOf_cons, ← segmented.text, ← eq_append_of_cut closed, ← eq_append_of_cut found]
      · exact List.forall_mem_cons.mpr
          ⟨not_infix_of_cut (by decide) found, segmented.literals⟩
      · exact List.forall_mem_cons.mpr ⟨declared, segmented.declared⟩

/-- The scanner finds the first placeholder where a segmentation has it. -/
theorem cut_sourceOf (named : ∀ name ∈ names, templateName name = true)
    (accepted : templateSourceFrom names html fuel source = .ok result)
    (segmented : Segmented names source ((literal, name) :: pieces) last) :
    ∃ fuel' others, fuel = fuel' + 1 ∧
      cut opening source = some (literal, name ++ (closing ++ sourceOf pieces last)) ∧
      cut closing (name ++ (closing ++ sourceOf pieces last)) =
        some (name, sourceOf pieces last) ∧
      templateSourceFrom names html fuel' (sourceOf pieces last) = .ok others ∧
      Segmented names (sourceOf pieces last) pieces last := by
  obtain ⟨text, literals, rest, declared⟩ := segmented
  obtain ⟨free, literals⟩ := List.forall_mem_cons.mp literals
  obtain ⟨own, declared⟩ := List.forall_mem_cons.mp declared
  have braces := brace_notMem (named name own)
  have closed : cut closing (name ++ (closing ++ sourceOf pieces last)) =
      some (name, sourceOf pieces last) := cut_of_notMem braces.2
  rw [sourceOf_cons] at text
  obtain ⟨fuel', rfl, read⟩ := templateSourceFrom_ok accepted
  have here : cut opening source = some (literal, name ++ (closing ++ sourceOf pieces last)) := by
    by_cases last' : literal.getLast? = some 123
    · -- then the name that is read begins with a brace, and is not declared
      exfalso
      obtain ⟨front, rfl⟩ := List.getLast?_eq_some_iff.mp last'
      have early : cut opening source =
          some (front, 123 :: (name ++ (closing ++ sourceOf pieces last))) := by
        rw [text]
        exact cut_early free
      have braced : cut closing (123 :: (name ++ (closing ++ sourceOf pieces last))) =
          some (123 :: name, sourceOf pieces last) := by
        have free : 125 ∉ 123 :: name := by simp [braces.2]
        exact cut_of_notMem free
      rw [early] at read
      rcases read with none' | ⟨before, after, name', rest', others, found, found', member, -⟩
      · cases none'
      · obtain ⟨rfl, rfl⟩ := Prod.mk.inj (Option.some.inj found)
        rw [braced] at found'
        obtain ⟨rfl, rfl⟩ := Prod.mk.inj (Option.some.inj found')
        exact (brace_notMem (named _ member)).1 List.mem_cons_self
    · rw [text]
      exact cut_doubled free last'
  rw [here] at read
  rcases read with none' | ⟨before, after, name', rest', others, found, found', -, later⟩
  · cases none'
  · obtain ⟨rfl, rfl⟩ := Prod.mk.inj (Option.some.inj found)
    rw [closed] at found'
    obtain ⟨rfl, rfl⟩ := Prod.mk.inj (Option.some.inj found')
    exact ⟨fuel', others, rfl, here, closed, later, rfl, literals, rest, declared⟩

end Scanning

section Substitution

variable {names : List Bytes} {source last : Bytes} {html : Bool} {values : Values}
  {value : Bytes → Bytes} {pieces : List (Bytes × Bytes)}

def limited (output : Bytes) : Except MessageError Bytes :=
  if output.length ≤ 16384 then .ok output else .error .invalidMessage

theorem writeOutput_eq (written bytes : Bytes) :
    writeOutput written bytes = limited (written ++ bytes) := by
  unfold writeOutput limited require
  rw [List.length_append]
  split <;> rfl

theorem limited_bind (output more : Bytes) (next : Bytes → Except MessageError Bytes)
    (appends : next output = limited (output ++ more)) :
    (limited output >>= next) = limited (output ++ more) := by
  by_cases fits : output.length ≤ 16384
  · rw [limited, if_pos fits]
    exact appends
  · rw [limited, if_neg fits, limited, if_neg (by rw [List.length_append]; omega)]
    rfl

theorem expandFrom_eq (named : ∀ name ∈ names, templateName name = true)
    (assigned : ∀ name ∈ names, values.find name = some (value name)) {fuel steps : Nat}
    {result : Bytes × List Bytes} (enough : source.length < steps) (written : Bytes)
    (accepted : templateSourceFrom names html fuel source = .ok result)
    (segmented : Segmented names source pieces last) :
    expandFrom values steps written source = limited (written ++ filled value pieces last) := by
  induction pieces generalizing source fuel steps written result with
  | nil =>
    obtain ⟨steps, rfl⟩ : ∃ n, steps = n + 1 := ⟨steps - 1, by omega⟩
    obtain rfl : source = last := segmented.text
    rw [expandFrom, (cut_eq_none (by decide)).mpr segmented.rest]
    exact writeOutput_eq _ _
  | cons piece pieces ih =>
    obtain ⟨literal, name⟩ := piece
    obtain ⟨steps, rfl⟩ : ∃ n, steps = n + 1 := ⟨steps - 1, by omega⟩
    obtain ⟨fuel', others, rfl, here, closed, later, tail⟩ := cut_sourceOf named accepted segmented
    have shorter : (sourceOf pieces last).length < steps := by
      have first := length_lt_of_cut (by decide) here
      have second := length_lt_of_cut (by decide) closed
      omega
    have own := assigned name (segmented.declared (literal, name) List.mem_cons_self)
    rw [expandFrom, here]
    simp only [closed, own, Option.getD_some, writeOutput_eq]
    rw [filled_cons, ← List.append_assoc written]
    refine limited_bind _ _ _ ?_
    rw [← List.append_assoc]
    refine limited_bind _ _ _ ?_
    exact ih shorter _ later tail

theorem expand_eq (named : ∀ name ∈ names, templateName name = true)
    (assigned : ∀ name ∈ names, values.find name = some (value name))
    {result : Bytes × List Bytes} (accepted : templateSource source names html = .ok result)
    (segmented : Segmented names source pieces last) :
    expand values source = limited (filled value pieces last) :=
  expandFrom_eq named assigned (Nat.lt_succ_self _) [] accepted segmented

end Substitution

section Catalog

variable [Html] {catalog prepared : List SendTemplate} {t : SendTemplate}

/-- The message that refers to a template gets its expanded texts. -/
theorem resolveJSONTemplate_ok {catalog : List SendTemplate} {v v' : JsonMessage}
    {ref : JsonTemplateReference} (refers : v.template = some ref)
    (resolved : resolveJSONTemplate v catalog = .ok v') :
    ∃ t, catalog.find? (refersTo ref) = some t ∧
      expand ref.variableValues t.subject = .ok v'.subject ∧
      expand ref.variableValues t.text = .ok v'.text := by
  simp only [resolveJSONTemplate, refers, do_eq_ok, demand_eq_ok, require_eq_ok, pure_eq_ok]
    at resolved
  obtain ⟨t, found, source, -, -, -, subject, expanded, text, expanded', html, -, -, -, -, -,
    rfl⟩ := resolved
  exact ⟨t, found, expanded, expanded'⟩

variable [Sha256]

structure Prepared (t : SendTemplate) : Prop where
  fields : fieldsValid t = true
  named : ∀ name ∈ t.variableNames, templateName name = true
  distinct : t.variableNames.Nodup
  subject : ∃ result, templateSource t.subject t.variableNames false = .ok result
  text : ∃ result, templateSource t.text t.variableNames false = .ok result

theorem prepareTemplate_ok {t prepared : SendTemplate}
    (accepted : prepareTemplate t = .ok prepared) :
    Prepared t ∧ ∃ source, prepared = { t with compiled := some source } := by
  simp only [prepareTemplate, do_eq_ok, require_eq_ok, pure_eq_ok] at accepted
  obtain ⟨-, fields, -, ⟨named, distinct⟩, subject, inSubject, text, inText, ⟨source, used⟩, -, -,
    -, -, -, -, -, rfl⟩ := accepted
  exact ⟨⟨fields, List.all_eq_true.mp named, distinct, ⟨subject, inSubject⟩, ⟨text, inText⟩⟩,
    source, rfl⟩

theorem prepareFrom_mem {seen : List Bytes} (accepted : prepareFrom seen catalog = .ok prepared)
    (listed : t ∈ prepared) : ∃ original ∈ catalog, prepareTemplate original = .ok t := by
  induction catalog generalizing seen prepared with
  | nil =>
    obtain rfl := pure_eq_ok.mp accepted
    cases listed
  | cons first rest ih =>
    simp only [prepareFrom, do_eq_ok, require_eq_ok, pure_eq_ok] at accepted
    obtain ⟨-, -, ready, own, others, later, rfl⟩ := accepted
    rcases List.mem_cons.mp listed with rfl | member
    · exact ⟨first, List.mem_cons_self, own⟩
    · obtain ⟨original, known, same⟩ := ih later member
      exact ⟨original, List.mem_cons_of_mem _ known, same⟩

theorem prepared_of_mem (accepted : prepareTemplates catalog = .ok prepared)
    (listed : t ∈ prepared) : Prepared t := by
  simp only [prepareTemplates, do_eq_ok, require_eq_ok] at accepted
  obtain ⟨-, -, accepted⟩ := accepted
  obtain ⟨original, -, own⟩ := prepareFrom_mem accepted listed
  obtain ⟨ready, source, rfl⟩ := prepareTemplate_ok own
  exact ⟨ready.fields, ready.named, ready.distinct, ready.subject, ready.text⟩

/-- Subject and text of a prepared template can be read as literals and
placeholders, and however they are read so, the expansion is the literals with
the assigned values in between, if that fits in 16384 bytes, and fails otherwise. -/
theorem expansion_exact {catalog prepared : List SendTemplate}
    (accepted : prepareTemplates catalog = .ok prepared) {t : SendTemplate} (listed : t ∈ prepared)
    {values : Values} {value : Bytes → Bytes}
    (assigned : ∀ name ∈ t.variableNames, values.find name = some (value name))
    {source : Bytes} (own : source = t.subject ∨ source = t.text) :
    (∃ pieces last, Segmented t.variableNames source pieces last) ∧
      (∀ pieces last, Segmented t.variableNames source pieces last →
        expand values source =
          if (filled value pieces last).length ≤ 16384 then .ok (filled value pieces last)
          else .error .invalidMessage) ∧
      ∀ v v' ref, v.template = some ref → ref.variableValues = values →
        prepared.find? (refersTo ref) = some t → resolveJSONTemplate v prepared = .ok v' →
          expand values t.subject = .ok v'.subject ∧ expand values t.text = .ok v'.text := by
  have ready := prepared_of_mem accepted listed
  obtain ⟨result, scanned⟩ :
      ∃ result, templateSource source t.variableNames false = .ok result := by
    rcases own with rfl | rfl
    · exact ready.subject
    · exact ready.text
  refine ⟨segmented_of_accepted scanned,
    fun pieces last segmented => expand_eq ready.named assigned scanned segmented, ?_⟩
  rintro v v' ref refers rfl found resolved
  obtain ⟨t', found', expanded⟩ := resolveJSONTemplate_ok refers resolved
  obtain rfl := Option.mem_unique found found'
  exact expanded

end Catalog

section Sample

@[reducible] def plainHtml : Html := ⟨fun _ => true, fun source _ => some source⟩

@[reducible] def plainSha256 : Sha256 := ⟨id⟩

attribute [local instance] plainHtml plainSha256

def sampleTemplate : SendTemplate :=
  let t : SendTemplate :=
    ⟨ascii "hello", [], [], ascii "Hi", opening ++ ascii "name" ++ closing ++ [125], [],
      [ascii "name"], none⟩
  { t with version := templateVersion t }

def samplePrepared : List SendTemplate := [{ sampleTemplate with compiled := some [] }]

def sampleValues : Values := ⟨[(ascii "name", opening ++ ascii "name" ++ closing)], by decide⟩

theorem expansion_exact_of_sample :
    prepareTemplates [sampleTemplate] = .ok samplePrepared ∧
      expand sampleValues sampleTemplate.text =
        .ok (opening ++ ascii "name" ++ closing ++ [125]) := by
  have prepared : prepareTemplates [sampleTemplate] = .ok samplePrepared := by decide +kernel
  have segmented : Segmented [ascii "name"] sampleTemplate.text [([], ascii "name")] [125] :=
    ⟨rfl, by simp [opening], by decide, by simp⟩
  have listed : { sampleTemplate with compiled := some [] } ∈ samplePrepared :=
    List.mem_cons_self
  have assigned : ∀ name ∈ sampleTemplate.variableNames, sampleValues.find name =
      some ((fun _ => opening ++ ascii "name" ++ closing) name) := by decide
  exact ⟨prepared, (expansion_exact prepared listed assigned (.inr rfl)).2.1 _ _ segmented⟩

end Sample

end RelayTale.Api
