import Rollup.Json.Printer
import Rollup.Json.Token

/-! Strings, written and read back. A character is written in one of three ways, each of which is read as the code of
the character and has no quote in it that would end the string. -/

namespace Rollup.Json

namespace Quoted

/-- The ways to write a character between quotes. -/
inductive Writes (c : Char) : List Char → Prop
  | short {letter : Char} (known : shortEscape? letter = some c.toNat) : Writes c ['\\', letter]
  | unit {high low : Char} (known : hexUnit? '0' '0' high low = some c.toNat) :
      Writes c ['\\', 'u', '0', '0', high, low]
  | plain (printable : ¬(c.toNat < 32 ∨ c = '\\' ∨ c = '"')) : Writes c [c]

private theorem hexUnit?_control : ∀ n < 32,
    hexUnit? '0' '0' (Nat.digitChar (n / 16)) (Nat.digitChar (n % 16)) = some n := by
  decide

theorem writes_escapeChar (c : Char) : Writes c (escapeChar c) := by
  by_cases quote : c = '"'
  · subst quote
    exact .short rfl
  by_cases backslash : c = '\\'
  · subst backslash
    exact .short rfl
  unfold escapeChar
  rw [if_neg quote, if_neg backslash]
  -- five control characters have letters of their own
  iterate 5
    split
    · next same =>
      subst same
      exact .short rfl
  split
  · next control => exact .unit (hexUnit?_control _ control)
  · next printable => exact .plain (not_or.mpr ⟨printable, not_or.mpr ⟨backslash, quote⟩⟩)

variable {c : Char} {written rest : List Char}

theorem Writes.units? (writes : Writes c written) :
    units? (written ++ rest) = (units? rest).map (c.toNat :: ·) := by
  cases writes with
  | @short letter known =>
    have notUnit : letter ≠ 'u' := fun same => by
      subst same
      cases known
    rw [List.cons_append, List.cons_append, List.nil_append,
      Quoted.units?.eq_3 _ _ fun _ _ _ _ _ same _ => notUnit same, known]
    cases Quoted.units? rest <;> rfl
  | unit known =>
    simp only [List.cons_append, List.nil_append, Quoted.units?, known]
    cases Quoted.units? rest <;> rfl
  | plain printable =>
    have notBackslash : c ≠ '\\' := fun same => printable (.inr (.inl same))
    rw [List.cons_append, List.nil_append, Quoted.units?.eq_4 _ _ (fun _ _ _ _ _ same _ => notBackslash same)
      fun _ _ same _ => notBackslash same, if_neg printable]

theorem units?_escape (content : List Char) : Quoted.units? (escape content) = some (content.map Char.toNat) := by
  induction content with
  | nil => rfl
  | cons c content ih =>
    rw [escape, List.flatMap_cons, (writes_escapeChar c).units?, ← escape, ih, Option.map_some, List.map_cons]

/-- No character has the code of half a pair. -/
private theorem not_surrogate (c : Char) : (isHigh c.toNat || isLow c.toNat) = false := by
  have valid : c.toNat < 0xD800 ∨ 0xDFFF < c.toNat ∧ c.toNat < 0x110000 := c.valid
  simp only [isHigh, isLow, Bool.or_eq_false_iff, Bool.and_eq_false_iff, decide_eq_false_iff_not]
  omega

theorem join?_codes (content : List Char) : join? (content.map Char.toNat) = some content := by
  induction content with
  | nil => rfl
  | cons c content ih =>
    obtain ⟨notHigh, notLow⟩ := Bool.or_eq_false_iff.mp (not_surrogate c)
    cases content with
    | nil =>
      simp only [List.map_cons, List.map_nil, join?, not_surrogate, Char.ofNat_toNat, Bool.false_eq_true, if_false]
    | cons next content =>
      simp only [List.map_cons] at ih ⊢
      simp only [join?, notHigh, notLow, Bool.false_eq_true, if_false, ih, Option.map_some, Char.ofNat_toNat]

/-- What is written between quotes is read back, whatever characters it has. -/
theorem read?_escape (content : String) : read? (escape content.toList) = some (some content) := by
  rw [read?, units?_escape, Option.map_some, join?_codes, Option.map_some, String.ofList_toList]

end Quoted

namespace Token

variable {read : List Char} {done : List Token} {c : Char} {written rest : List Char}

theorem scan?_cons {mode next : Mode} {now : List Token} (step : step? mode done c = some (next, now)) :
    scan? mode done (c :: rest) = scan? next now rest := by
  rw [scan?, step]

private theorem scan?_plain (notBackslash : c ≠ '\\') (notQuote : c ≠ '"') :
    scan? (.quoted read false) done (c :: rest) = scan? (.quoted (c :: read) false) done rest :=
  scan?_cons (by rw [step?, if_neg notBackslash, if_neg notQuote])

private theorem scan?_escaped :
    scan? (.quoted read false) done ('\\' :: c :: rest) = scan? (.quoted (c :: '\\' :: read) false) done rest :=
  rfl

private theorem isSome_of_hexUnit? {first second third fourth : Char} {unit : Nat}
    (known : Quoted.hexUnit? first second third fourth = some unit) :
    (Quoted.hexDigit? third).isSome ∧ (Quoted.hexDigit? fourth).isSome := by
  unfold Quoted.hexUnit? at known
  split at known
  · next _ _ third fourth => exact ⟨by rw [third]; rfl, by rw [fourth]; rfl⟩
  · cases known

private theorem scan?_hexDigit (digit : (Quoted.hexDigit? c).isSome) :
    scan? (.quoted read false) done (c :: rest) = scan? (.quoted (c :: read) false) done rest := by
  refine scan?_plain ?_ ?_
  · rintro rfl
    exact absurd digit (by decide)
  · rintro rfl
    exact absurd digit (by decide)

/-- A string goes on behind each character written in it, escaped or not. -/
theorem scan?_writes (writes : Quoted.Writes c written) :
    scan? (.quoted read false) done (written ++ rest) = scan? (.quoted (written.reverse ++ read) false) done rest := by
  cases writes with
  | short known => exact scan?_escaped
  | unit known =>
    obtain ⟨high, low⟩ := isSome_of_hexUnit? known
    simp only [List.cons_append, List.nil_append, scan?_escaped]
    rw [scan?_plain (by decide) (by decide), scan?_plain (by decide) (by decide), scan?_hexDigit high,
      scan?_hexDigit low]
    rfl
  | plain printable =>
    exact scan?_plain (fun same => printable (.inr (.inl same))) fun same => printable (.inr (.inr same))

theorem scan?_escape (content : List Char) :
    scan? (.quoted read false) done (Quoted.escape content ++ rest) =
      scan? (.quoted ((Quoted.escape content).reverse ++ read) false) done rest := by
  induction content generalizing read with
  | nil => rfl
  | cons c content ih =>
    rw [Quoted.escape, List.flatMap_cons, List.append_assoc, scan?_writes (Quoted.writes_escapeChar c),
      ← Quoted.escape, ih, List.reverse_append, List.append_assoc]

/-- A string is read up to the quote that closes it. -/
theorem scan?_quote (content : String) :
    scan? .between done (quote (some content) ++ rest) = scan? .between (.text (some content) :: done) rest := by
  have opened : scan? .between done (quote (some content) ++ rest) =
      scan? (.quoted [] false) done (Quoted.escape content.toList ++ '"' :: rest) := by
    rw [quote, List.append_assoc]
    rfl
  have closed : step? (.quoted (Quoted.escape content.toList).reverse false) done '"' =
      some (.between, .text (some content) :: done) := by
    rw [step?, if_neg (by decide), if_pos rfl, List.reverse_reverse, Quoted.read?_escape, Option.map_some]
  rw [opened, scan?_escape, List.append_nil, scan?_cons closed]

end Token

end Rollup.Json
