import Rollup.Proofs.Durations
import Rollup.Proofs.Utf8
import Rollup.Proofs.WordSteps

/-! Durations are read byte by byte: a text is cut in front of its last byte, its digits are taken up one after the
other, and their number is multiplied by the unit. A cut inside a character has no result, and a sum or a product that
is no word makes no duration. The steps always have a result, and it is what was said of the text. -/

namespace Rollup

namespace Stepwise

/-- Whether a character begins at this place, or the text ends. -/
def isBoundary (bytes : Bytes) (place : Nat) : Bool :=
  place == 0 || place == bytes.length || bytes[place]?.any fun byte => !Text.isContinuation byte

/-- Both parts are texts again, so no character may be cut. -/
def cutText? (bytes : Bytes) (place : Nat) : Option (Bytes × Bytes) :=
  if isBoundary bytes place then some (bytes.take place, bytes.drop place) else none

/-- A product that is no word has no result, nor has such a sum. -/
def times? (a b : UInt64) : Option UInt64 := if a.toNat * b.toNat ≤ Word.largest then some (a * b) else none

def plus? (a b : UInt64) : Option UInt64 := if a.toNat + b.toNat ≤ Word.largest then some (a + b) else none

def digit? (byte : UInt8) : Option UInt64 := if 48 ≤ byte ∧ byte ≤ 57 then some (byte - 48).toUInt64 else none

/-- The digit goes behind those of the amount. -/
def takeUp? (amount : UInt64) (byte : UInt8) : Option UInt64 := do plus? (← times? amount 10) (← digit? byte)

/-- There is a digit at least, and one plus sign at most. -/
def amount? (bytes : Bytes) : Option UInt64 :=
  let digits := if bytes.head? = some 43 then bytes.tail else bytes
  if digits = [] then none else digits.foldlM takeUp? 0

/-- The last byte and those in front of it, unless there is nothing in front or the last byte is no character. -/
def cutLast? (bytes : Bytes) : Option (Option (Bytes × Bytes)) :=
  if bytes.length < 2 then some none
  else do
    let last ← less? bytes.length 1
    if isBoundary bytes last then (cutText? bytes last).map some else some none

def duration? (text : String) : Option (Except IntervalFault Duration) := do
  let trimmed := String.ofList (Text.trim text.toList)
  match ← cutLast? trimmed.toUTF8.data.toList with
  | none => some (.error (.unreadable trimmed))
  | some (front, rest) =>
    match amount? front with
    | none => some (.error (.unreadable trimmed))
    | some amount => do
      let unit := Char.ofNat (← rest.head?).toNat
      match Duration.unitSeconds? unit with
      | none => some (.error (.unknownUnit unit))
      | some factor =>
        match times? amount (.ofNat factor) with
        | none => some (.error (.tooLarge trimmed))
        | some seconds => some (.ok ⟨seconds, 0⟩)

theorem times?_eq (a b : UInt64) :
    times? a b = if a.toNat * b.toNat ≤ Word.largest then some (.ofNat (a.toNat * b.toNat)) else none := by
  rw [times?, UInt64.ofNat_mul, UInt64.ofNat_toNat, UInt64.ofNat_toNat]

theorem plus?_eq (a b : UInt64) :
    plus? a b = if a.toNat + b.toNat ≤ Word.largest then some (.ofNat (a.toNat + b.toNat)) else none := by
  rw [plus?, UInt64.ofNat_add, UInt64.ofNat_toNat, UInt64.ofNat_toNat]

theorem digit?_of_isDigit {c : Char} (digit : c.isDigit = true) :
    ∃ value, digit? (UInt8.ofNat c.toNat) = some value ∧ value.toNat = c.toNat - '0'.toNat := by
  obtain ⟨low, high⟩ := Duration.toNat_of_isDigit digit
  have value := Text.toNat_ascii (Nat.lt_of_le_of_lt high (by decide))
  have least : (48 : UInt8) ≤ UInt8.ofNat c.toNat := UInt8.le_iff_toNat_le.mpr (by rw [value]; exact low)
  have most : UInt8.ofNat c.toNat ≤ 57 := UInt8.le_iff_toNat_le.mpr (by rw [value]; exact high)
  refine ⟨_, if_pos ⟨least, most⟩, ?_⟩
  rw [UInt8.toNat_toUInt64, UInt8.toNat_sub_of_le _ _ least, value]
  rfl

theorem digit?_of_not_isDigit {c : Char} (other : c.isDigit = false) :
    ∃ byte rest, String.utf8EncodeChar c = byte :: rest ∧ digit? byte = none := by
  by_cases ascii : c.toNat < 128
  · refine ⟨_, [], Text.utf8EncodeChar_ascii ascii, if_neg fun ⟨least, most⟩ => ?_⟩
    have low := UInt8.le_iff_toNat_le.mp least
    have high := UInt8.le_iff_toNat_le.mp most
    rw [Text.toNat_ascii ascii] at low high
    refine Bool.eq_false_iff.mp other ?_
    simp only [Char.isDigit, Bool.and_eq_true, decide_eq_true_eq]
    exact ⟨low, high⟩
  · obtain ⟨first, middle, last, encoded, wide, _⟩ := Text.utf8EncodeChar_wide ascii
    refine ⟨first, _, encoded, if_neg fun ⟨_, most⟩ => ?_⟩
    have high : first.toNat ≤ 57 := UInt8.le_iff_toNat_le.mp most
    omega

theorem takeUp?_digit {c : Char} (digit : c.isDigit = true) (amount : UInt64) :
    takeUp? amount (UInt8.ofNat c.toNat) =
      if 10 * amount.toNat + (c.toNat - '0'.toNat) ≤ Word.largest then
        some (.ofNat (10 * amount.toNat + (c.toNat - '0'.toNat)))
      else none := by
  obtain ⟨value, known, same⟩ := digit?_of_isDigit digit
  have ten : (10 : UInt64).toNat = 10 := rfl
  rw [takeUp?, times?_eq, known, ten, Nat.mul_comm, ← same]
  by_cases room : 10 * amount.toNat ≤ Word.largest
  · rw [if_pos room]
    simp only [Option.bind_eq_bind, Option.bind_some, plus?_eq, Word.toNat_ofNat room]
  · rw [if_neg room, if_neg (by omega)]
    rfl

theorem takeUp?_other {byte : UInt8} (other : digit? byte = none) (amount : UInt64) : takeUp? amount byte = none := by
  rw [takeUp?, other]
  cases times? amount 10 <;> rfl

private theorem le_ofDigitChars (text : List Char) (n : Nat) : n ≤ Nat.ofDigitChars 10 text n := by
  rw [Nat.ofDigitChars_eq_ofDigitChars_zero]
  have grown : n ≤ 10 ^ text.length * n := Nat.le_mul_of_pos_left n (Nat.pow_pos (by decide))
  omega

/-- Digits are taken up one by one, and nothing but digits. -/
theorem foldlM_takeUp? (text : List Char) (amount : UInt64) :
    (text.flatMap String.utf8EncodeChar).foldlM takeUp? amount =
      if text.all Char.isDigit ∧ Nat.ofDigitChars 10 text amount.toNat ≤ Word.largest then
        some (.ofNat (Nat.ofDigitChars 10 text amount.toNat))
      else none := by
  induction text generalizing amount with
  | nil =>
    have small : amount.toNat ≤ Word.largest := Nat.le_of_lt_succ amount.toNat_lt
    rw [Nat.ofDigitChars_nil, if_pos ⟨rfl, small⟩, UInt64.ofNat_toNat]
    rfl
  | cons c text ih =>
    rw [List.flatMap_cons, List.foldlM_append, List.all_cons, Nat.ofDigitChars_cons]
    cases digit : c.isDigit with
    | false =>
      obtain ⟨byte, rest, encoded, other⟩ := digit?_of_not_isDigit digit
      rw [encoded, List.foldlM_cons, takeUp?_other other, if_neg fun both => Bool.false_ne_true both.1]
      rfl
    | true =>
      obtain ⟨_, high⟩ := Duration.toNat_of_isDigit digit
      have grown := le_ofDigitChars text (10 * amount.toNat + (c.toNat - '0'.toNat))
      rw [Text.utf8EncodeChar_ascii (Nat.lt_of_le_of_lt high (by decide)), List.foldlM_cons, takeUp?_digit digit]
      by_cases room : 10 * amount.toNat + (c.toNat - '0'.toNat) ≤ Word.largest
      · rw [if_pos room]
        simp only [Option.bind_eq_bind, Option.bind_some, List.foldlM_nil, Option.pure_def, ih, Word.toNat_ofNat room,
          Bool.true_and]
      -- What is too large stays so with more digits.
      · rw [if_neg room, if_neg (by omega)]
        rfl

private theorem head?_utf8 {c : Char} (other : c ≠ '+') (rest : Bytes) :
    (String.utf8EncodeChar c ++ rest).head? ≠ some 43 := by
  by_cases ascii : c.toNat < 128
  · rw [Text.utf8EncodeChar_ascii ascii]
    intro first
    have byte : UInt8.ofNat c.toNat = 43 := Option.some.inj first
    apply other
    apply Char.toNat_inj.mp
    rw [← Text.toNat_ascii ascii, byte]
    rfl
  · obtain ⟨first, middle, last, encoded, wide, _⟩ := Text.utf8EncodeChar_wide ascii
    rw [encoded]
    intro same
    have byte : first = 43 := Option.some.inj same
    rw [byte] at wide
    exact absurd wide (by decide)

/-- A plus sign in front is a byte of its own, and no other character begins with it. -/
private theorem unsigned_utf8 (text : List Char) :
    (if (text.flatMap String.utf8EncodeChar).head? = some 43 then (text.flatMap String.utf8EncodeChar).tail
      else text.flatMap String.utf8EncodeChar) = (Word.unsigned text).flatMap String.utf8EncodeChar := by
  cases text with
  | nil => rfl
  | cons c text =>
    by_cases plus : c = '+'
    · rw [plus, List.flatMap_cons, Text.utf8EncodeChar_ascii (by decide)]
      rfl
    · have unsigned : Word.unsigned (c :: text) = c :: text := if_neg fun first => plus (Option.some.inj first)
      rw [unsigned, List.flatMap_cons, if_neg (head?_utf8 plus _)]

private theorem utf8_eq_nil {text : List Char} : text.flatMap String.utf8EncodeChar = [] ↔ text = [] := by
  cases text with
  | nil => exact iff_of_true rfl rfl
  | cons c text =>
    refine iff_of_false (fun empty => ?_) (List.cons_ne_nil _ _)
    exact String.utf8EncodeChar_ne_nil (List.append_eq_nil_iff.mp empty).1

theorem amount?_utf8 (text : List Char) : amount? (text.flatMap String.utf8EncodeChar) = Word.ofText? text := by
  rw [amount?, unsigned_utf8, Word.ofText?_eq]
  by_cases empty : Word.unsigned text = []
  · rw [if_pos (utf8_eq_nil.mpr empty), empty]
    rfl
  · have zero : (0 : UInt64).toNat = 0 := rfl
    rw [if_neg (mt utf8_eq_nil.mp empty), foldlM_takeUp?, zero]
    by_cases digits : (Word.unsigned text).all Char.isDigit
    · have number := Word.digits?_eq empty (List.all_eq_true.mp digits)
      simp only [number, Option.bind_some, digits, true_and]
    · have number : Word.digits? (Word.unsigned text) = none := if_neg fun both => digits both.2
      rw [number, if_neg fun both => digits both.1]
      rfl

private theorem getElem?_last (front : Bytes) (byte : UInt8) : (front ++ [byte])[front.length]? = some byte := by
  rw [List.getElem?_append_right (Nat.le_refl _), Nat.sub_self]
  rfl

private theorem isBoundary_last {front : Bytes} (filled : front ≠ []) (byte : UInt8) :
    isBoundary (front ++ [byte]) front.length = !Text.isContinuation byte := by
  have inside : front.length ≠ 0 := fun empty => filled (List.length_eq_zero_iff.mp empty)
  have behind : front.length ≠ (front ++ [byte]).length := by
    rw [List.length_append]
    exact Nat.ne_of_lt (Nat.lt_succ_self _)
  rw [isBoundary, beq_false_of_ne inside, beq_false_of_ne behind, getElem?_last]
  rfl

/-- A byte with others in front is cut off if it is no part of another character. -/
private theorem cutLast?_concat {front : Bytes} (filled : front ≠ []) (byte : UInt8) :
    cutLast? (front ++ [byte]) = some (if Text.isContinuation byte then none else some (front, [byte])) := by
  have positive : 0 < front.length := List.length_pos_iff.mpr filled
  have length : (front ++ [byte]).length = front.length + 1 := List.length_append
  have last : less? (front ++ [byte]).length 1 = some front.length := by
    rw [length]
    exact if_pos (Nat.le_add_left _ _)
  have boundary := isBoundary_last filled byte
  rw [cutLast?, if_neg (by omega), last]
  cases continued : Text.isContinuation byte with
  | true =>
    rw [continued] at boundary
    simp only [Option.bind_eq_bind, Option.bind_some, boundary]
    rfl
  | false =>
    rw [continued] at boundary
    simp only [Option.bind_eq_bind, Option.bind_some, cutText?, boundary]
    simp

/-- The last character is cut off if it is ASCII and not alone. -/
theorem cutLast?_utf8 (front : List Char) (unit : Char) :
    cutLast? ((front ++ [unit]).flatMap String.utf8EncodeChar) =
      some (if front ≠ [] ∧ unit.toNat < 128 then
        some (front.flatMap String.utf8EncodeChar, [UInt8.ofNat unit.toNat]) else none) := by
  rw [List.flatMap_append, List.flatMap_singleton]
  by_cases ascii : unit.toNat < 128
  · rw [Text.utf8EncodeChar_ascii ascii]
    by_cases empty : front = []
    · rw [empty]
      rfl
    · have begins := Bool.eq_false_iff.mp (Text.isContinuation_ascii ascii)
      rw [cutLast?_concat (mt utf8_eq_nil.mp empty), if_neg begins, if_pos ⟨empty, ascii⟩]
  -- The last byte of a wide character has bytes of its own in front, so it is never alone.
  · obtain ⟨first, middle, last, encoded, _, continued⟩ := Text.utf8EncodeChar_wide ascii
    have shape : front.flatMap String.utf8EncodeChar ++ String.utf8EncodeChar unit =
        front.flatMap String.utf8EncodeChar ++ first :: middle ++ [last] := by
      rw [encoded, List.append_assoc, List.cons_append]
    rw [shape, cutLast?_concat (by simp), if_pos continued, if_neg fun both => ascii both.2]

theorem duration?_eq_some (text : String) : duration? text = some (Duration.parse text) := by
  have bytes : (String.ofList (Text.trim text.toList)).toUTF8.data.toList =
      (Text.trim text.toList).flatMap String.utf8EncodeChar := by
    rw [Text.toUTF8_toList, String.toList_ofList]
  simp only [duration?, bytes, Duration.parse]
  cases found : (Text.trim text.toList).getLast? with
  | none =>
    rw [List.getLast?_eq_none_iff.mp found]
    rfl
  | some unit =>
    obtain ⟨front, shape⟩ := List.getLast?_eq_some_iff.mp found
    rw [shape, cutLast?_utf8, List.dropLast_concat]
    simp only [Option.bind_eq_bind, Option.bind_some]
    by_cases ascii : unit.toNat < 128
    case neg => rw [if_neg fun both => ascii both.2, if_neg ascii]
    rw [if_pos ascii]
    cases front with
    | nil => rfl
    | cons c front =>
      have byte : Char.ofNat (UInt8.ofNat unit.toNat).toNat = unit := by
        rw [Text.toNat_ascii ascii, Char.ofNat_toNat]
      rw [if_pos ⟨List.cons_ne_nil _ _, ascii⟩]
      simp only [amount?_utf8, List.head?_cons, Option.bind_some, byte]
      cases Word.ofText? (c :: front) with
      | none => rfl
      | some amount =>
        cases known : Duration.unitSeconds? unit with
        | none => rfl
        | some factor =>
          obtain ⟨_, _, _, few⟩ := Duration.units_within (Duration.unitSeconds?_iff.mp known)
          have value : (UInt64.ofNat factor).toNat = factor := Word.toNat_ofNat (Nat.le_trans few (by decide))
          simp only [times?_eq, value]
          by_cases fits : amount.toNat * factor ≤ Word.largest
          · simp only [fits, if_true]
          · simp only [fits, if_false]

end Stepwise

namespace Duration

/-- What a refused text may be told: that it is unreadable, that its number is too large, or its last character. -/
inductive Refused (text : String) : IntervalFault → Prop
  | unreadable : Refused text (.unreadable (String.ofList (Text.trim text.toList)))
  | tooLarge : Refused text (.tooLarge (String.ofList (Text.trim text.toList)))
  | unknownUnit {unit : Char} (last : (Text.trim text.toList).getLast? = some unit) : Refused text (.unknownUnit unit)

/-- A text is read just when it is a duration as they are written and its seconds are a word, and then as these seconds.
Every other text is refused, as unreadable if it ends with a character outside ASCII. Byte by byte the result is the
same, and no step is without one. -/
theorem parse_takes_written (text : String) :
    ((∃ duration, parse text = .ok duration) ↔
        ∃ written : Written, written.text = text ∧ written.seconds ≤ 18446744073709551615) ∧
      (∀ written : Written, written.text = text → written.seconds ≤ 18446744073709551615 →
        ∃ duration, parse text = .ok duration ∧ duration.seconds.toNat = written.seconds ∧ duration.nanos = 0) ∧
      ((¬ ∃ written : Written, written.text = text ∧ written.seconds ≤ 18446744073709551615) →
        ∃ fault, parse text = .error fault ∧ Refused text fault) ∧
      (∀ last, (Text.trim text.toList).getLast? = some last → 128 ≤ last.toNat →
        parse text = .error (.unreadable (String.ofList (Text.trim text.toList)))) ∧
      Stepwise.duration? text = some (parse text) := by
  have taken : ∀ written : Written, written.text = text → written.seconds ≤ 18446744073709551615 →
      parse text = .ok ⟨UInt64.ofNat written.seconds, 0⟩ := by
    intro written same fits
    rw [← same]
    exact parse_written fits
  refine ⟨⟨?_, ?_⟩, ?_, ?_, ?_, Stepwise.duration?_eq_some text⟩
  · intro ⟨duration, read⟩
    cases read ▸ outcome text with
    | read same fits => exact ⟨_, same, fits⟩
  · intro ⟨written, same, fits⟩
    exact ⟨_, taken written same fits⟩
  · intro written same fits
    exact ⟨_, taken written same fits, Word.toNat_ofNat fits, rfl⟩
  · intro unwritten
    cases parsed : parse text with
    | ok duration =>
      cases parsed ▸ outcome text with
      | read same fits => exact absurd ⟨_, same, fits⟩ unwritten
    | error fault =>
      refine ⟨fault, rfl, ?_⟩
      cases parsed ▸ outcome text with
      | tooLarge => exact .tooLarge
      | unknownUnit last => exact .unknownUnit last
      | unreadable => exact .unreadable
  · intro last found wide
    have notAscii : ¬ last.toNat < 128 := Nat.not_lt_of_le wide
    simp only [parse, found, notAscii, if_false]

/-! A week between blanks of several bytes, with a sign and leading zeros; and a text whose last byte is no character
of its own. -/

def paddedWeek : Written where
  front := [' ', '\u2003']
  plus := true
  digits := ['0', '0', '7']
  unit := 'd'
  factor := 86400
  back := ['\u3000', '\n']
  blankFront := List.all_eq_true.mp rfl
  filled := by decide
  allDigits := List.all_eq_true.mp rfl
  known := by decide
  blankBack := List.all_eq_true.mp rfl

theorem parse_takes_written_padded :
    paddedWeek.text = " \u2003+007d\u3000\n" ∧
      (∃ duration, parse paddedWeek.text = .ok duration ∧ duration.seconds.toNat = 604800 ∧ duration.nanos = 0) ∧
      parse "5é" = .error (.unreadable "5é") ∧
      ∃ fault, parse "5é" = .error fault ∧ Refused "5é" fault := by
  obtain ⟨readable, _, refuses, unreadable, _⟩ := parse_takes_written "5é"
  have refused : parse "5é" = .error (.unreadable "5é") := unreadable 'é' (by decide) (by decide)
  refine ⟨by decide, (parse_takes_written _).2.1 paddedWeek rfl (by decide), refused, refuses fun written => ?_⟩
  obtain ⟨duration, read⟩ := readable.mpr written
  rw [refused] at read
  cases read

end Duration

end Rollup
