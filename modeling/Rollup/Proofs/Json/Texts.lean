import Rollup.Proofs.Json.Layouts

/-! Whole texts. From its tokens a value is put together again, whatever stands around it. So every value whose numbers
are literals and whose strings have content is read back from each text that holds its tokens, in either layout. -/

namespace Rollup.Json

section Parsing

variable {frames : List Frame} {rest : List Token}

/-- From its tokens a value is put together, whatever stands around it. -/
def Parses (value : Json) : Prop :=
  ∀ frames rest, Expect.run? .item frames (value.tokens ++ rest) = Expect.run? (.after value) frames rest

private theorem itemTokens_cons (item : Json) (items : List Json) :
    ∃ others, itemTokens (item :: items) = item.tokens ++ others := by
  cases items with
  | nil => exact ⟨[], (List.append_nil _).symm⟩
  | cons next items => exact ⟨.comma :: itemTokens (next :: items), by rw [itemTokens]; simp⟩

/-- No item begins with the end of its array. -/
private theorem run?_firstItem (item : Json) (items : List Json) :
    Expect.run? .firstItem frames (itemTokens (item :: items) ++ rest) =
      Expect.run? .item (.array [] :: frames) (itemTokens (item :: items) ++ rest) := by
  obtain ⟨others, shape⟩ := itemTokens_cons item items
  rw [shape, List.append_assoc]
  cases item <;> rfl

private theorem run?_items {items done : List Json} (filled : items ≠ []) (each : ∀ item ∈ items, Parses item) :
    Expect.run? .item (.array done :: frames) (itemTokens items ++ .closeArray :: rest) =
      Expect.run? (.after (.array (done.reverse ++ items))) frames rest := by
  induction items generalizing done with
  | nil => exact absurd rfl filled
  | cons item items ih =>
    obtain ⟨first, others⟩ := List.forall_mem_cons.mp each
    cases items with
    | nil =>
      rw [itemTokens, first, ← List.reverse_cons]
      rfl
    | cons next items =>
      have later := @ih (item :: done) (List.cons_ne_nil _ _) others
      rw [List.reverse_cons, List.append_assoc, List.singleton_append] at later
      simp only [itemTokens, List.append_assoc, List.cons_append]
      rw [first]
      exact later

private theorem run?_members {members done : List (Option String × Json)} (filled : members ≠ [])
    (each : ∀ member ∈ members, Parses member.2) :
    Expect.run? (.name done) frames (memberTokens members ++ .closeObject :: rest) =
      Expect.run? (.after (.object (done.reverse ++ members))) frames rest := by
  induction members generalizing done with
  | nil => exact absurd rfl filled
  | cons member members ih =>
    obtain ⟨name?, value⟩ := member
    obtain ⟨first, others⟩ := List.forall_mem_cons.mp each
    have label : ∀ after, Expect.run? (.name done) frames (.text name? :: .colon :: after) =
        Expect.run? .item (.object done name? :: frames) after := by
      intro after
      cases done <;> rfl
    cases members with
    | nil =>
      rw [memberTokens, List.cons_append, List.cons_append, label, first, ← List.reverse_cons]
      rfl
    | cons next members =>
      have later := @ih ((name?, value) :: done) (List.cons_ne_nil _ _) others
      rw [List.reverse_cons, List.append_assoc, List.singleton_append] at later
      simp only [memberTokens, List.append_assoc, List.cons_append]
      rw [label, first]
      exact later

theorem Printable.parses {value : Json} (printable : Printable value) : Parses value := by
  induction printable with
  | null => exact fun _ _ => rfl
  | bool value => exact fun _ _ => rfl
  | number _ => exact fun _ _ => rfl
  | text content => exact fun _ _ => rfl
  | @array items _ each =>
    intro frames rest
    cases items with
    | nil => rfl
    | cons item items =>
      rw [tokens, List.cons_append, List.append_assoc]
      exact (run?_firstItem item items).trans (run?_items (List.cons_ne_nil _ _) each)
  | @object members _ _ each =>
    intro frames rest
    cases members with
    | nil => rfl
    | cons member members =>
      rw [tokens, List.cons_append, List.append_assoc]
      exact run?_members (List.cons_ne_nil _ _) each

end Parsing

private theorem ofTokens?_tokens {value : Json} (printable : Printable value) :
    ofTokens? value.tokens = some value := by
  have whole := printable.parses [] []
  rw [List.append_nil] at whole
  rw [ofTokens?, whole]
  rfl

/-- Every text that holds the tokens of a value is read as the value, however it is laid out. -/
theorem Printable.parse?_of_spells {value : Json} (printable : Printable value) {text : String}
    (spelled : Spells value.tokens text.toList) : parse? text = some value := by
  rw [parse?, Token.ofText?, spelled.scan? [], Option.bind_some]
  exact ofTokens?_tokens printable

private theorem spells_of_standsFor {value : Json} {text ending : List Char} (held : StandsFor text value.tokens)
    (blank : ending.all Token.isSpace = true) : Spells value.tokens (text ++ ending) := by
  have spaces := List.all_eq_true.mp blank
  have atEnd : Apart [] := fun _ absent => by cases absent
  have apart := apart_of_blanks spaces atEnd
  have behind := Spells.nil.blanks spaces
  rw [List.append_nil] at apart behind
  have whole := held.spells apart behind
  rwa [List.append_nil] at whole

/-- What is read from the text of a value is the value, and blanks behind the text do not matter. -/
theorem Printable.parse?_prettyText {value : Json} (printable : Printable value) (ending : String)
    (blank : ending.toList.all Token.isSpace = true) : parse? (value.prettyText ++ ending) = some value := by
  apply printable.parse?_of_spells
  rw [String.toList_append, prettyText, String.toList_ofList]
  exact spells_of_standsFor (printable.standsFor_indented 0) blank

/-- The same holds of the text without blanks. -/
theorem Printable.parse?_compactText {value : Json} (printable : Printable value) (ending : String)
    (blank : ending.toList.all Token.isSpace = true) : parse? (value.compactText ++ ending) = some value := by
  apply printable.parse?_of_spells
  rw [String.toList_append, compactText, String.toList_ofList]
  exact spells_of_standsFor printable.standsFor_compact blank

/-- The texts that a value is written as. -/
def texts (value : Json) : List String := [value.compactText, value.prettyText]

theorem compactText_mem (value : Json) : value.compactText ∈ value.texts := List.mem_cons_self

theorem prettyText_mem (value : Json) : value.prettyText ∈ value.texts := List.mem_cons_of_mem _ List.mem_cons_self

theorem Printable.parse?_texts {value : Json} (printable : Printable value) {text : String}
    (written : text ∈ value.texts) : parse? text = some value := by
  have compact := printable.parse?_compactText "" (by decide)
  have pretty := printable.parse?_prettyText "" (by decide)
  rw [String.append_empty] at compact pretty
  simp only [texts, List.mem_cons, List.not_mem_nil, or_false] at written
  obtain rfl | rfl := written
  · exact compact
  · exact pretty

end Rollup.Json
