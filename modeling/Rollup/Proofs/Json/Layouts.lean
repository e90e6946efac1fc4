import Rollup.Json.Reader
import Rollup.Proofs.Json.Literals
import Rollup.Proofs.Json.Strings

/-! Texts and the tokens that they hold. Blanks stand between tokens wherever one likes, so a value without blanks and
one in lines, at any depth, hold the same tokens; and what a text holds is what is scanned in it. -/

namespace Rollup.Json

mutual

/-- The tokens that a value is made of. -/
def tokens : Json → List Token
  | .null => [.literal .null]
  | .bool value => [.literal (.bool value)]
  | .number literal => [.literal (.number literal)]
  | .text content? => [.text content?]
  | .array items => .openArray :: (itemTokens items ++ [.closeArray])
  | .object members => .openObject :: (memberTokens members ++ [.closeObject])

def itemTokens : List Json → List Token
  | [] => []
  | [item] => tokens item
  | item :: items => tokens item ++ .comma :: itemTokens items

def memberTokens : List (Option String × Json) → List Token
  | [] => []
  | [(name?, value)] => .text name? :: .colon :: tokens value
  | (name?, value) :: members => .text name? :: .colon :: (tokens value ++ .comma :: memberTokens members)

end

/-- Values that have a text of their own. -/
inductive Printable : Json → Prop
  | null : Printable .null
  | bool (value : Bool) : Printable (.bool value)
  | number {literal : List Char} (wellFormed : Number.isLiteral literal = true) : Printable (.number literal)
  | text (content : String) : Printable (.text (some content))
  | array {items : List Json} (each : ∀ item ∈ items, Printable item) : Printable (.array items)
  | object {members : List (Option String × Json)} (named : ∀ member ∈ members, member.1.isSome)
      (each : ∀ member ∈ members, Printable member.2) : Printable (.object members)

theorem Printable.ofNat (n : Nat) : Printable (.ofNat n) := .number (Number.isLiteral_toDigits n)

theorem Printable.record {members : List (String × Json)} (each : ∀ member ∈ members, Printable member.2) :
    Printable (.record members) := by
  refine .object (fun member present => ?_) fun member present => ?_
  · obtain ⟨source, _, rfl⟩ := List.mem_map.mp present
    rfl
  · obtain ⟨source, listed, rfl⟩ := List.mem_map.mp present
    exact each source listed

section Scanning

variable {done : List Token} {rest : List Char}

/-- Whether a word that ends here is not read on into `rest`. -/
def Apart (rest : List Char) : Prop := ∀ c ∈ rest.head?, Token.isWordChar c = false

private theorem not_isSpace_of_isWordChar {c : Char} (wordChar : Token.isWordChar c = true) :
    Token.isSpace c = false := by
  apply Bool.eq_false_iff.mpr
  intro space
  simp only [Token.isSpace, Bool.or_eq_true, beq_iff_eq] at space
  rcases space with ((rfl | rfl) | rfl) | rfl <;> exact absurd wordChar (by decide)

private theorem scan?_wordChars {read word : List Char} (wordChars : ∀ c ∈ word, Token.isWordChar c = true) :
    Token.scan? (.word read) done (word ++ rest) = Token.scan? (.word (word.reverse ++ read)) done rest := by
  induction word generalizing read with
  | nil => rfl
  | cons c word ih =>
    obtain ⟨first, others⟩ := List.forall_mem_cons.mp wordChars
    rw [List.cons_append, Token.scan?_cons (by rw [Token.step?, if_pos first]), ih others, List.reverse_cons,
      List.append_assoc, List.singleton_append]

private theorem scan?_endOfWord {read : List Char} {token : Token} (apart : Apart rest)
    (known : Token.ofWord? read.reverse = some token) :
    Token.scan? (.word read) done rest = Token.scan? .between (token :: done) rest := by
  cases rest with
  | nil => simp only [Token.scan?, Token.finish?, known, Option.map_some]
  | cons c rest =>
    have step : Token.step? (.word read) done c = Token.step? .between (token :: done) c := by
      simp only [Token.step?, apart c rfl, Bool.false_eq_true, if_false, known, Option.bind_some]
    rw [Token.scan?, Token.scan?, step]

/-- A word is read to its end. -/
theorem scan?_word {word : List Char} {token : Token} (wordChars : ∀ c ∈ word, Token.isWordChar c = true)
    (known : Token.ofWord? word = some token) (apart : Apart rest) :
    Token.scan? .between done (word ++ rest) = Token.scan? .between (token :: done) rest := by
  cases word with
  | nil => cases known
  | cons c word =>
    obtain ⟨first, others⟩ := List.forall_mem_cons.mp wordChars
    have notQuote : c ≠ '"' := fun same => absurd first (same ▸ by decide)
    have begun : Token.step? .between done c = some (.word [c], done) := by
      rw [Token.step?, Token.begin?, if_neg (by rw [not_isSpace_of_isWordChar first]; decide), if_neg notQuote,
        if_pos first]
    rw [List.cons_append, Token.scan?_cons begun]
    refine (scan?_wordChars others).trans (scan?_endOfWord apart ?_)
    rw [List.reverse_append, List.reverse_reverse, List.reverse_singleton, List.singleton_append, known]

private theorem ofWord?_literal {literal : List Char} (wellFormed : Number.isLiteral literal = true) :
    Token.ofWord? literal = some (.literal (.number literal)) := by
  have other : ∀ word, Number.isLiteral word = false → literal ≠ word := by
    rintro word malformed rfl
    rw [wellFormed] at malformed
    cases malformed
  rw [Token.ofWord?, if_neg (other _ (by decide)), if_neg (other _ (by decide)), if_neg (other _ (by decide)),
    if_pos wellFormed]

end Scanning

section Spelling
variable {later : List Token} {rest : List Char}

/-- The texts that hold some tokens: blanks stand wherever one likes, and something that is no part of a word stands
between two words. -/
inductive Spells : List Token → List Char → Prop
  | nil : Spells [] []
  | blank {later : List Token} {rest : List Char} {c : Char} (space : Token.isSpace c = true)
      (behind : Spells later rest) : Spells later (c :: rest)
  | mark {later : List Token} {rest : List Char} {c : Char} {token : Token} (known : Token.ofMark? c = some token)
      (behind : Spells later rest) : Spells (token :: later) (c :: rest)
  | text {later : List Token} {rest : List Char} (content : String) (behind : Spells later rest) :
      Spells (.text (some content) :: later) (quote (some content) ++ rest)
  | word {later : List Token} {rest word : List Char} {token : Token}
      (wordChars : ∀ c ∈ word, Token.isWordChar c = true) (known : Token.ofWord? word = some token)
      (apart : Apart rest) (behind : Spells later rest) : Spells (token :: later) (word ++ rest)

private theorem begin?_mark {c : Char} {token : Token} (known : Token.ofMark? c = some token) (done : List Token) :
    Token.begin? c done = some (.between, token :: done) := by
  unfold Token.ofMark? at known
  split at known <;> cases known <;> rfl

/-- The tokens that a text holds are the ones that are scanned in it. -/
theorem Spells.scan? {text : List Char} (spelled : Spells later text) (done : List Token) :
    Token.scan? .between done text = some (done.reverse ++ later) := by
  induction spelled generalizing done with
  | nil => rw [Token.scan?, Token.finish?, List.append_nil]
  | blank space _ ih =>
    rw [Token.scan?_cons (by rw [Token.step?, Token.begin?, if_pos space])]
    exact ih done
  | @mark _ _ _ token known _ ih =>
    rw [Token.scan?_cons (by rw [Token.step?, begin?_mark known done]), ih, List.reverse_cons, List.append_assoc,
      List.singleton_append]
  | @text _ _ content _ ih =>
    rw [Token.scan?_quote, ih, List.reverse_cons, List.append_assoc, List.singleton_append]
  | word wordChars known apart _ ih =>
    rw [scan?_word wordChars known apart, ih, List.reverse_cons, List.append_assoc, List.singleton_append]

theorem Spells.blanks {blanks : List Char} (spaces : ∀ c ∈ blanks, Token.isSpace c = true)
    (behind : Spells later rest) : Spells later (blanks ++ rest) := by
  induction blanks with
  | nil => exact behind
  | cons c blanks ih =>
    obtain ⟨first, others⟩ := List.forall_mem_cons.mp spaces
    exact .blank first (ih others)

theorem apart_of_blanks {blanks : List Char} (spaces : ∀ c ∈ blanks, Token.isSpace c = true) (apart : Apart rest) :
    Apart (blanks ++ rest) := by
  cases blanks with
  | nil => exact apart
  | cons c blanks =>
    intro first begins
    cases begins
    refine Bool.eq_false_iff.mpr fun wordChar => ?_
    have notSpace := not_isSpace_of_isWordChar wordChar
    rw [spaces c List.mem_cons_self] at notSpace
    cases notSpace

private theorem apart_mark {c : Char} (mark : Token.isWordChar c = false) : Apart (c :: rest) := by
  intro c first
  cases first
  exact mark

/-- A text that holds tokens wherever something stands behind it that no word goes on into. -/
structure StandsFor (text : List Char) (held : List Token) : Prop where
  spells : ∀ {later : List Token} {rest : List Char}, Apart rest → Spells later rest →
    Spells (held ++ later) (text ++ rest)

/-- How the items of a container are written: the same blanks in front of each, and commas between them. -/
structure Row {α : Type} (lead : List Char) (write : α → List Char) (held : α → List Token)
    (text : List α → List Char) (tokens : List α → List Token) : Prop where
  noText : text [] = []
  noTokens : tokens [] = []
  lastText : ∀ item, text [item] = lead ++ write item
  lastTokens : ∀ item, tokens [item] = held item
  nextText : ∀ item next items, text (item :: next :: items) = lead ++ write item ++ ',' :: text (next :: items)
  nextTokens : ∀ item next items, tokens (item :: next :: items) = held item ++ .comma :: tokens (next :: items)

theorem Row.standsFor {α : Type} {lead : List Char} {write : α → List Char} {held : α → List Token}
    {text : List α → List Char} {row : List α → List Token} (layout : Row lead write held text row)
    (spaces : ∀ c ∈ lead, Token.isSpace c = true) {items : List α}
    (each : ∀ item ∈ items, StandsFor (write item) (held item)) : StandsFor (text items) (row items) := by
  refine ⟨fun apart behind => ?_⟩
  induction items with
  | nil =>
    rw [layout.noText, layout.noTokens]
    exact behind
  | cons item items ih =>
    obtain ⟨first, others⟩ := List.forall_mem_cons.mp each
    cases items with
    | nil =>
      rw [layout.lastText, layout.lastTokens, List.append_assoc]
      exact (first.spells apart behind).blanks spaces
    | cons next items =>
      rw [layout.nextText, layout.nextTokens]
      simp only [List.append_assoc, List.cons_append]
      apply Spells.blanks spaces
      exact first.spells (apart_mark rfl) (.mark rfl (ih others))

/-- A container: its two marks, what is written between them, and blanks in front of the second. -/
theorem StandsFor.enclosed {text blanks : List Char} {held : List Token} (content : StandsFor text held)
    (spaces : ∀ c ∈ blanks, Token.isSpace c = true) {first last : Char} {opening closing : Token}
    (opens : Token.ofMark? first = some opening) (closes : Token.ofMark? last = some closing)
    (mark : Token.isWordChar last = false) :
    StandsFor (first :: text ++ blanks ++ [last]) (opening :: held ++ [closing]) := by
  refine ⟨fun _ behind => ?_⟩
  simp only [List.append_assoc, List.cons_append, List.nil_append]
  apply Spells.mark opens
  apply content.spells (apart_of_blanks spaces (apart_mark mark))
  exact (Spells.mark closes behind).blanks spaces

theorem StandsFor.word {word : List Char} {token : Token} (wordChars : ∀ c ∈ word, Token.isWordChar c = true)
    (known : Token.ofWord? word = some token) : StandsFor word [token] :=
  ⟨fun apart behind => .word wordChars known apart behind⟩

theorem StandsFor.bool (value : Bool) : StandsFor (compact (.bool value)) [.literal (.bool value)] := by
  cases value with
  | false => exact .word (List.all_eq_true.mp rfl) rfl
  | true => exact .word (List.all_eq_true.mp rfl) rfl

theorem StandsFor.null : StandsFor "null".toList [.literal .null] := .word (List.all_eq_true.mp rfl) rfl

theorem StandsFor.number {literal : List Char} (wellFormed : Number.isLiteral literal = true) :
    StandsFor literal [.literal (.number literal)] :=
  .word (Number.isWordChar_of_isLiteral wellFormed) (ofWord?_literal wellFormed)

theorem StandsFor.text (content : String) : StandsFor (quote (some content)) [.text (some content)] :=
  ⟨fun _ behind => .text content behind⟩

/-- A member of an object, with blanks between the colon and its value. -/
theorem StandsFor.member {name? : Option String} (named : name?.isSome) {text blanks : List Char}
    (spaces : ∀ c ∈ blanks, Token.isSpace c = true) {held : List Token} (content : StandsFor text held) :
    StandsFor (quote name? ++ ':' :: (blanks ++ text)) (.text name? :: .colon :: held) := by
  obtain ⟨name, rfl⟩ := Option.isSome_iff_exists.mp named
  refine ⟨fun apart behind => ?_⟩
  simp only [List.append_assoc, List.cons_append]
  apply Spells.text
  apply Spells.mark rfl
  exact (content.spells apart behind).blanks spaces

private theorem isSpace_newline (depth : Nat) : ∀ c ∈ newline depth, Token.isSpace c = true := by
  refine List.forall_mem_cons.mpr ⟨rfl, fun c member => ?_⟩
  rw [(List.mem_replicate.mp member).2]
  rfl

private theorem isSpace_none : ∀ c ∈ ([] : List Char), Token.isSpace c = true := List.forall_mem_nil _

private theorem isSpace_one : ∀ c ∈ [' '], Token.isSpace c = true := List.forall_mem_singleton.mpr rfl

private def heldBy (member : Option String × Json) : List Token := .text member.1 :: .colon :: tokens member.2

private theorem row_compactItems : Row [] compact tokens compactItems itemTokens where
  noText := rfl
  noTokens := rfl
  lastText _ := rfl
  lastTokens _ := rfl
  nextText _ _ _ := rfl
  nextTokens _ _ _ := rfl

private theorem row_compactMembers :
    Row [] (fun member => quote member.1 ++ ':' :: compact member.2) heldBy compactMembers memberTokens where
  noText := rfl
  noTokens := rfl
  lastText _ := rfl
  lastTokens _ := rfl
  nextText _ _ _ := rfl
  nextTokens := fun (_, _) _ _ => rfl

private theorem row_indentedItems (depth : Nat) :
    Row (newline depth) (indented depth) tokens (indentedItems depth) itemTokens where
  noText := rfl
  noTokens := rfl
  lastText _ := rfl
  lastTokens _ := rfl
  nextText _ _ _ := rfl
  nextTokens _ _ _ := rfl

private theorem row_indentedMembers (depth : Nat) :
    Row (newline depth) (fun member => quote member.1 ++ ':' :: ' ' :: indented depth member.2) heldBy
      (indentedMembers depth) memberTokens where
  noText := rfl
  noTokens := rfl
  lastText _ := by simp [indentedMembers]
  lastTokens _ := rfl
  nextText _ _ _ := by simp [indentedMembers]
  nextTokens := fun (_, _) _ _ => rfl

/-- The text without blanks stands for the tokens of the value. -/
theorem Printable.standsFor_compact {value : Json} (printable : Printable value) :
    StandsFor value.compact value.tokens := by
  induction printable with
  | null => exact .null
  | bool value => exact .bool value
  | number wellFormed => exact .number wellFormed
  | text content => exact .text content
  | @array items _ each =>
    have content := row_compactItems.standsFor isSpace_none each
    have whole : StandsFor ('[' :: compactItems items ++ [] ++ [']']) _ := content.enclosed isSpace_none rfl rfl rfl
    rw [List.append_nil] at whole
    exact whole
  | @object members named _ each =>
    have content := row_compactMembers.standsFor isSpace_none fun member present =>
      (each member present).member (named member present) isSpace_none
    have whole : StandsFor ('{' :: compactMembers members ++ [] ++ ['}']) _ := content.enclosed isSpace_none rfl rfl rfl
    rw [List.append_nil] at whole
    exact whole

/-- The text in lines stands for the same tokens at every depth. -/
theorem Printable.standsFor_indented {value : Json} (printable : Printable value) (depth : Nat) :
    StandsFor (value.indented depth) value.tokens := by
  induction printable generalizing depth with
  | null => exact .null
  | bool value =>
    cases value with
    | false => exact .bool false
    | true => exact .bool true
  | number wellFormed => exact .number wellFormed
  | text content => exact .text content
  | @array items _ each =>
    cases items with
    | nil => exact (row_compactItems.standsFor isSpace_none (List.forall_mem_nil _)).enclosed isSpace_none rfl rfl rfl
    | cons item items =>
      have content := (row_indentedItems (depth + 1)).standsFor (isSpace_newline _) fun item present =>
        each item present (depth + 1)
      exact content.enclosed (isSpace_newline depth) rfl rfl rfl
  | @object members named _ each =>
    cases members with
    | nil => exact (row_compactMembers.standsFor isSpace_none (List.forall_mem_nil _)).enclosed isSpace_none rfl rfl rfl
    | cons member members =>
      have content := (row_indentedMembers (depth + 1)).standsFor (isSpace_newline _) fun member present =>
        (each member present (depth + 1)).member (named member present) isSpace_one
      exact content.enclosed (isSpace_newline depth) rfl rfl rfl

end Spelling

end Rollup.Json
